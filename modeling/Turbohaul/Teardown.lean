/-
# `Teardown` — giving a sidecar back

`_teardown`, `_teardown_idle_holder` and `_force_cold`.  All three send SIGTERM
through the injected `_sigterm`; they differ in when they let go of the handle.
`_teardown` clears `_active_handle` as its last statement, `_force_cold` right
after the SIGTERM, and `_teardown_idle_holder` clears the idle holder before
it, so that while its SIGTERM is awaited nothing refers to the sidecar.
-/
import Turbohaul.Queue

namespace Turbohaul

open Coop

variable (C : Config)

/-- `_live_handle_pids`. -/
def liveHandlePids (w : World) : List Nat :=
  let alive : Option Nat → List Nat := fun h => h.toList.filter fun p => w.isAlive p
  (if 2 ≤ C.maxParallelSidecars then
    w.registry.flatMap fun e =>
      let r := w.resident e.2
      alive r.handle ++ alive r.idleHandle ++ r.bootingPid.toList
  else []) ++ alive w.hold.activeHandle ++ alive w.hold.idleHandle

/-- `_compute_expected_drop_mib`. -/
def computeExpectedDropMib (modelTag : String) : Prog Nat := do
  match ← readManifest? modelTag with
  | some m => pure m.expectedDropMib
  | none => pure 2048

/-- `boot_orphan_reaper` and `intra_lifetime_orphan_scan`, both best effort. -/
def orphanReapers : Prog Unit := do
  Co.suppress (run (.orphanReap []))
  let known ← Co.gets (liveHandlePids C)
  Co.suppress (run (.orphanReap known))

/-- `_teardown`. -/
def teardown (s : Nat) (reason : String) : Prog Unit := do
  let h ← Co.gets fun w : World => w.hold
  match h.activeHandle with
  | none => pure ()
  | some pid => do
      sigterm pid
      let x ← Co.gets fun w : World => w.slot s
      let drop ← computeExpectedDropMib x.modelTag
      sync (.vramVerify drop)
      orphanReapers C
      markSlotEnded s reason
      auditEventOnlyAsync (some s) "teardown"
      Co.modify (World.setActiveHandle none)

/-- `_teardown_idle_holder`. -/
def teardownIdleHolder : Prog Unit := do
  let h ← Co.gets fun w : World => w.hold
  match h.idleHandle with
  | none => pure ()
  | some held => do
      Co.modify World.clearIdleHolder
      sigterm held
      let drop ← computeExpectedDropMib (h.idleModelTag.getD "")
      sync (.vramVerify drop)
      orphanReapers C
      auditEventOnlyAsync none "teardown_idle_holder"

/-- The slot carries the pid of the active handle. -/
def World.carriesActive (w : World) (s : Nat) : Bool :=
  (w.slot s).pid.isSome && (w.slot s).pid = w.hold.activeHandle

/-- The defensive teardown of `_force_cold`: not while riders share the
sidecar, not when another slot is the active one. -/
def World.ownsActive (w : World) (s : Nat) : Bool :=
  w.carriesActive s && !decide (1 < w.hold.inflight.length) &&
    (w.hold.activeSlot.isNone || w.hold.activeSlot = some s)

/-- Reap the active handle of a slot that owns it. -/
def reapOwned (s : Nat) : Prog Unit := do
  let w ← Co.gets fun w : World => (w.ownsActive s, w.hold.activeHandle)
  match w with
  | (true, some pid) =>
      Co.suppress do
        sigterm pid
        Co.modify (World.setActiveHandle none)
  | _ => pure ()

/-- `_force_cold`. -/
def forceCold (s : Nat) (reason : String) : Prog Unit := do
  reapOwned s
  onSlot s fun x =>
    if isTerminal x.state then x else { x with state := walkToCold 4 x.state }
  markSlotEnded s reason
  auditEventOnlyAsync (some s) "force_cold"

end Turbohaul
