/-
# `Safety` — the VRAM gates before a spawn

`_vram_budget`, `check_free_vram` and `check_kv_cache_fit` of `safety.py`, on
what the probes of the GPUs and of `/proc/meminfo` give, and the two as they are
called with a manifest's values, by the serial path and by the driver alike.

  `vramBudgetOf`     the budget of a probe: free for the fit, least card, cards
  `checkFreeVram`    the declared VRAM against the budget
  `checkKvCacheFit`  the derived VRAM against the budget, and the KV cache
                     against the host's memory where it lives there
  `spawnGates`       both, with the values of a manifest
-/
import Turbohaul.Manifest
import Mathlib.Algebra.GroupWithZero.Nat

namespace Turbohaul

structure GateResult where
  name : String
  ok : Bool
  detail : String
deriving DecidableEq, Repr

/-- `_vram_budget`, of the free MiB of every card; none where the probe gives
nothing. -/
def vramBudgetOf (vals : Option (List Nat)) (splitMode : String) (mainGpu : Nat) :
    Option (Nat × Nat × Nat) :=
  match vals with
  | none | some [] => none
  | some (v :: vs) =>
    let vals := v :: vs
    if (if splitMode = "" then "layer" else splitMode).toLower = "none" then
      let free := vals.getD (if mainGpu < vals.length then mainGpu else 0) v
      some (free, free, 1)
    else some (vals.sum, vs.foldl min v, vals.length)

/-- `check_free_vram`. -/
def checkFreeVram (vals : Option (List Nat)) (minFreeMib manifestExpectedBytes : Nat)
    (splitMode : String) (mainGpu : Nat) : GateResult :=
  match vramBudgetOf vals splitMode mainGpu with
  | none => ⟨"vram", true, "passed-no-probe"⟩
  | some (freeFit, minCard, n) =>
    let expectedMib := manifestExpectedBytes / (1024 * 1024)
    let threshold := max minFreeMib expectedMib
    if freeFit < threshold then
      ⟨"vram", false, "only " ++ toString freeFit ++ " MiB free across " ++ toString n ++
        " card(s); need >= " ++ toString threshold ++ " MiB (min_floor=" ++ toString minFreeMib ++
        ", manifest=" ++ toString expectedMib ++ ")"⟩
    else
      ⟨"vram", true, toString freeFit ++ " MiB free across " ++ toString n ++
        " card(s) (min/card " ++ toString minCard ++ ", threshold " ++ toString threshold ++ ")"⟩

/-- `check_kv_cache_fit`; `memAvailableKib` is `MemAvailable` of `/proc/meminfo`. -/
def checkKvCacheFit (vals : Option (List Nat)) (memAvailableKib : Option Nat)
    (ctxSize ggufSizeBytes overheadMib : Nat) (kvCacheQuant : String) (noKvOffload : Bool)
    (parallel : Nat) (splitMode : String) (mainGpu expectedVramMib : Nat) (cpuMoeOffload : Bool) :
    GateResult :=
  let fits (ok : Bool) (detail : String) : GateResult := ⟨"kv_cache_fit", ok, detail⟩
  if ctxSize = 0 ∨ ggufSizeBytes = 0 then fits true "passed-insufficient-input"
  else
    let p := max 1 parallel
    match vramBudgetOf vals splitMode mainGpu with
    | none =>
      if 1 < p then
        fits false ("parallel=" ++ toString p ++
          " requires a VRAM probe; nvidia-smi unreadable, refusing blind spawn")
      else fits true "passed-no-probe"
    | some (freeMib, _, _) =>
      let ggufMib := ggufSizeBytes / (1024 * 1024)
      let kvMib := estimateKvCacheMib ctxSize ggufSizeBytes kvCacheQuant
      let parExtraMib := (p - 1) * perSlotComputeFloorMib
      let parNote :=
        if 1 < p then "; parallel=" ++ toString p ++ " (+" ++ toString parExtraMib ++
          " MiB per-slot scratch)"
        else ""
      if cpuMoeOffload ∧ 0 < expectedVramMib then
        let vramNeed := expectedVramMib + overheadMib + parExtraMib
        if freeMib < vramNeed then
          fits false ("need ~" ++ toString vramNeed ++ " MiB VRAM (expected_vram=" ++
            toString expectedVramMib ++ " [cpu-moe measured] + overhead=" ++ toString overheadMib ++
            "); only " ++ toString freeMib ++ " MiB free VRAM" ++ parNote)
        else
          fits true ("fits ~" ++ toString vramNeed ++ " MiB (expected_vram=" ++
            toString expectedVramMib ++ " [cpu-moe measured]); " ++ toString freeMib ++
            " MiB free" ++ parNote)
      else if noKvOffload then
        let vramScratchMib := overheadMib + ctxSize / 128 + parExtraMib
        let vramNeed := ggufMib + vramScratchMib
        if freeMib < vramNeed then
          fits false ("need ~" ++ toString vramNeed ++ " MiB VRAM (body=" ++ toString ggufMib ++
            " + scratch=" ++ toString vramScratchMib ++ "; KV@ctx" ++ toString ctxSize ++ "=" ++
            toString kvMib ++ " [" ++ kvCacheQuant ++ "] in host RAM); only " ++ toString freeMib ++
            " MiB free VRAM" ++ parNote)
        else
          let short := match memAvailableKib with
            | some kib => decide (kib / 1024 < kvMib)
            | none => false
          let ramMib := (memAvailableKib.getD 0) / 1024
          let ramDetail := match memAvailableKib with
            | some _ => "ram_free=" ++ toString ramMib
            | none => "ram_free=n/a"
          if short then
            fits false ("KV@ctx" ++ toString ctxSize ++ "=" ++ toString kvMib ++ " MiB [" ++
              kvCacheQuant ++ "] needs host RAM (--no-kv-offload) but only " ++ toString ramMib ++
              " MiB free RAM")
          else
            fits true ("need ~" ++ toString vramNeed ++ " MiB VRAM / " ++ toString freeMib ++
              " free (body=" ++ toString ggufMib ++ " scratch=" ++ toString vramScratchMib ++
              "; KV=" ++ toString kvMib ++ " in host RAM, " ++ ramDetail ++ ")" ++ parNote)
      else
        let totalMib := ggufMib + kvMib + overheadMib + parExtraMib
        if freeMib < totalMib then
          fits false ("need ~" ++ toString totalMib ++ " MiB (body=" ++ toString ggufMib ++
            " + KV@ctx" ++ toString ctxSize ++ "=" ++ toString kvMib ++ " [" ++ kvCacheQuant ++
            "] + overhead=" ++ toString overheadMib ++ "); only " ++ toString freeMib ++
            " MiB free" ++ parNote)
        else
          fits true ("need ~" ++ toString totalMib ++ " MiB / " ++ toString freeMib ++
            " free (body=" ++ toString ggufMib ++ " KV=" ++ toString kvMib ++ " overhead=" ++
            toString overheadMib ++ " quant=" ++ kvCacheQuant ++ ")" ++ parNote)

/-- `kv_cache_overhead_mib` of `all_safety_gates`. -/
def kvCacheOverheadMib : Nat := 1024

/-- The VRAM gates of `all_safety_gates`, as `_process_slot` and
`_run_spawn_safety_gate` call it with the values of a manifest. -/
def spawnGates (m : Manifest) (minFreeVramMib : Nat) (vals : Option (List Nat))
    (memAvailableKib : Option Nat) : List GateResult :=
  let splitMode := orString m.flags.splitMode "layer"
  let mainGpu := orNat m.flags.mainGpu 0
  [ checkFreeVram vals minFreeVramMib m.expectedVramBytes splitMode mainGpu,
    checkKvCacheFit vals memAvailableKib (orNat m.flags.ctxSize m.contextSize) m.ggufSizeBytes
      kvCacheOverheadMib (orString m.flags.cacheTypeK "f16") m.flags.noKvOffload
      (orNat m.flags.parallel 1) splitMode mainGpu (m.expectedVramBytes / (1024 * 1024))
      (m.flags.cpuMoe || decide (0 < m.flags.nCpuMoe)) ]

end Turbohaul
