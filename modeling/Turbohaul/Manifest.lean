/-
# `Manifest` — what the manager reads from a model's manifest

The fields of `Manifest` that `manager.py` reads, the footprint
`_read_model_footprint` derives from them, and the arithmetic of the
cross-resident gate.  The KV scale of `_KV_QUANT_SCALE` is kept in units of
1/10000, so that `int(x * scale)` is a division.
-/
import Turbohaul.Slot

namespace Turbohaul

/-- `llama_server_flags`, as far as they are read. -/
structure Flags where
  ctxSize : Option Nat := none
  cacheTypeK : Option String := none
  noKvOffload : Bool := false
  parallel : Option Nat := none
  splitMode : Option String := none
  mainGpu : Option Nat := none
  cpuMoe : Bool := false
  nCpuMoe : Nat := 0
  sleepIdleSeconds : Int := 0
deriving DecidableEq, Repr

/-- `Manifest`, as far as it is read. -/
structure Manifest where
  expectedVramBytes : Nat := 0
  ggufSizeBytes : Nat := 0
  contextSize : Nat := 0
  flags : Flags := {}
deriving DecidableEq, Repr

/-- `x or d` on an optional number: `None` and `0` give the default. -/
def orNat (x : Option Nat) (d : Nat) : Nat :=
  match x with
  | some (n + 1) => n + 1
  | _ => d

/-- `x or d` on an optional string. -/
def orString (x : Option String) (d : String) : String :=
  match x with
  | some s => if s = "" then d else s
  | none => d

/-- `_KV_QUANT_SCALE`, in units of 1/10000. -/
def kvQuantScale (q : String) : Nat :=
  match q.toLower with
  | "f32" => 20000
  | "q8_0" => 5000
  | "q4_0" | "q4_1" | "iq4_nl" | "turbo4" => 2500
  | "q5_0" | "q5_1" => 3200
  | "turbo2" => 1250
  | "turbo3" => 1875
  | _ => 10000

/-- `estimate_kv_cache_mib`. -/
def estimateKvCacheMib (ctxSize ggufSizeBytes : Nat) (kvCacheQuant : String) : Nat :=
  if ctxSize = 0 ∨ ggufSizeBytes = 0 then 0
  else
    let ggufMib := ggufSizeBytes / (1024 * 1024)
    let bytesPerTokenKb := 9 * ggufMib / 1024 * kvQuantScale kvCacheQuant / 10000
    bytesPerTokenKb * ctxSize / 1024

/-- `PER_SLOT_COMPUTE_FLOOR_MIB`. -/
def perSlotComputeFloorMib : Nat := 256

/-- What a reservation needs: the tuple of `_read_model_footprint`. -/
structure Footprint where
  need : Nat := 0
  parallel : Nat := 1
  mainGpu : Nat := 0
  splitMode : String := "layer"
  sleepIdleS : Int := 0
deriving DecidableEq, Repr

/-- `_read_model_footprint`, after the manifest has been read. -/
def Manifest.footprint (m : Manifest) : Footprint :=
  let ggufMib := m.ggufSizeBytes / (1024 * 1024)
  let ctx := orNat m.flags.ctxSize m.contextSize
  let kvMib := estimateKvCacheMib ctx m.ggufSizeBytes (orString m.flags.cacheTypeK "f16")
  let parallel := max 1 (orNat m.flags.parallel 1)
  let parExtra := (parallel - 1) * perSlotComputeFloorMib
  let expectedVramMib := m.expectedVramBytes / (1024 * 1024)
  let cpuMoe := m.flags.cpuMoe || decide (0 < m.flags.nCpuMoe)
  { need :=
      if cpuMoe && decide (0 < expectedVramMib) then expectedVramMib + parExtra
      else max expectedVramMib (ggufMib + kvMib) + parExtra
    parallel
    mainGpu := orNat m.flags.mainGpu 0
    splitMode := orString m.flags.splitMode "layer"
    sleepIdleS := m.flags.sleepIdleSeconds }

/-- A missing manifest degrades open. -/
def Footprint.missing : Footprint := {}

/-- `_compute_expected_drop_mib`, after the manifest has been read. -/
def Manifest.expectedDropMib (m : Manifest) : Nat :=
  max 2048 (m.expectedVramBytes / (1024 * 1024))

/-- `parallel` of the `SidecarHandle`: the width on its command line. -/
def Manifest.argvParallel (m : Manifest) : Nat := max 1 (orNat m.flags.parallel 1)

/-- `KEEP_ALIVE_MAX_S`. -/
def keepAliveMaxS : Nat := 1800

/-- The idle window asked for by a `keep_alive`: `None` takes the default, a
negative value the cap, any other the smaller of itself and the cap. -/
def idleWindowSeconds (keepAliveS : Option Int) (default : Nat) : Nat :=
  match keepAliveS with
  | none => default
  | some k => if k < 0 then keepAliveMaxS else min k.toNat keepAliveMaxS

end Turbohaul
