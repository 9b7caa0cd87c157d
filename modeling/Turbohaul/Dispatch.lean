/-
# `Dispatch` — routing slots to residents, at cap 2 and above

`_dispatch_loop` pops a slot and routes it, in one critical section:

    HIT             the model has a live resident: its inbox
    MISS, room      reserve a resident and start its driver
    MISS, full      evict the least recently active idle resident, then reserve
    MISS, all busy  defer, a bounded number of times

`worker_loop` is this loop or the serial one, by the configured cap.
-/
import Turbohaul.Resident
import Mathlib.Algebra.GroupWithZero.Nat

namespace Turbohaul

open Coop

variable (C : Config)

namespace World

/-- `_model_residents`: the live residents, less the singleton. -/
def modelResidents (w : World) : List Nat :=
  (w.registry.filter fun e =>
    e.1 ≠ singletonResidentKey && (w.resident e.2).state ≠ .dead).map Prod.snd

/-- `_live_resident_for`. -/
def liveResidentFor (w : World) (tag : String) : Option Nat :=
  (w.registry.lookup tag).filter fun r => (w.resident r).state ≠ .dead

/-- The first of the candidates that no other precedes. -/
def firstBy (before : Nat → Nat → Bool) : List Nat → Option Nat
  | [] => none
  | x :: xs =>
      match firstBy before xs with
      | none => some x
      | some y => some (if before y x then y else x)

/-- `_dispatch_warm_hint`: the model of the most recently active resident. -/
def dispatchWarmHint (w : World) : Option String :=
  let active := fun r => (w.resident r).lastActiveMonotonic
  (firstBy (fun a b => active b < active a) w.modelResidents).bind fun r =>
    (w.resident r).modelTag

/-- `_lru_idle_evictable`: busy residents are never evictable. -/
def lruIdleEvictable (w : World) : Option Nat :=
  let active := fun r => (w.resident r).lastActiveMonotonic
  firstBy (fun a b => active a < active b)
    (w.modelResidents.filter fun r =>
      (w.resident r).state = .idleEvictable && (w.resident r).activeSlot.isNone &&
        (w.resident r).inflight.isEmpty)

/-- The part of `_vram_admits_locked` that looks at the siblings' placement:
co-residence is for models pinned to distinct cards. -/
def isolated (w : World) (fp : Footprint) : Bool :=
  w.modelResidents.isEmpty ||
    (fp.splitMode.toLower = "none" && w.modelResidents.all fun r =>
      (w.resident r).splitMode.toLower = "none" && (w.resident r).mainGpu ≠ fp.mainGpu)

/-- What siblings that are still booting have reserved on the card. -/
def reservedOn (w : World) (gpu : Nat) : Nat :=
  ((w.modelResidents.filter fun r =>
    (w.resident r).state = .reservedLoading && (w.resident r).mainGpu = gpu).map fun r =>
      (w.resident r).reservedNeedMib).sum

end World

/-- `_MAX_DISPATCH_DEFERS`. -/
def maxDispatchDefers : Nat := 50

/-- `_defer_unroutable`. -/
def deferUnroutable (s : Nat) : Prog Unit := do
  onSlot s fun x => { x with dispatchDeferCount := x.dispatchDeferCount + 1 }
  let x ← Co.gets fun w : World => w.slot s
  if maxDispatchDefers < x.dispatchDeferCount then
    failCompletionFuture .deferExhausted s
      (.runtime ("no capacity for model '" ++ x.modelTag ++ "' after " ++
        toString maxDispatchDefers ++ " defers (all residents busy)"))
  else fireAndForget (.requeueAfterBackoff s)

/-- `_read_model_footprint`. -/
def readModelFootprint (tag : String) : Prog Footprint := do
  match ← readManifest? tag with
  | some m => pure m.footprint
  | none => pure Footprint.missing

/-- `_vram_admits_locked`. -/
def vramAdmits (fp : Footprint) : Prog Bool := do
  let isolated ← Co.gets fun w : World => w.isolated fp
  if !isolated then pure false
  else do
    let free ← vramBudget fp.splitMode fp.mainGpu
    let w ← Co.gets fun w : World => (w.modelResidents.isEmpty, w.reservedOn fp.mainGpu)
    match free with
    | none => pure w.1
    | some free => pure (decide (fp.need + w.2 ≤ free))

/-- The placeholder resident of a reservation, its first slot in the inbox. -/
def newResident (s : Nat) (tag : String) (port : Nat) (fp : Footprint) (now : Nat) : Resident :=
  { modelTag := some tag
    port := some port
    state := .reservedLoading
    reservedNeedMib := fp.need
    parallel := fp.parallel
    mainGpu := fp.mainGpu
    splitMode := fp.splitMode
    sleepIdleSeconds := fp.sleepIdleS
    lastActiveMonotonic := now
    inbox := some [s] }

/-- `self._residents[tag] = r` and the start of its driver. -/
def World.reserve (tag : String) (x : Resident) (w : World) : World :=
  let r := w.residentCount
  { w with
    residentCount := r + 1
    resident := setAt w.resident r { x with driverTask := some w.taskCount }
    registry := w.registry.filter (fun e => e.1 ≠ tag) ++ [(tag, r)]
    task := setAt w.task w.taskCount { kind := .driver r }
    taskCount := w.taskCount + 1 }

/-- `_reserve_and_start_locked`. -/
def reserveAndStart (s : Nat) : Prog Unit := do
  let x ← Co.gets fun w : World => w.slot s
  let fp ← readModelFootprint x.modelTag
  let admits ← vramAdmits fp
  if admits then do
    mark (.reserving s)
    let port ← Co.gets (allocPort C)
    let now ← monotonic
    Co.modify (World.reserve x.modelTag (newResident s x.modelTag port fp now))
  else
    failCompletionFuture .vramRefused s
      (.runtime ("cross-resident VRAM gate refused '" ++ x.modelTag ++ "': need " ++
        toString fp.need ++ " MiB would over-commit GPU " ++ toString fp.mainGpu))

/-- The HIT branch: reclaim the resident from idle and hand the slot over. -/
def routeHit (r s : Nat) : Prog Unit := do
  let now ← monotonic
  onResident r fun x =>
    { x with
      state := if x.state = .idleEvictable then .active else x.state
      lastActiveMonotonic := now
      inbox := x.inbox.map fun q => q ++ [s] }

/-- `_route_or_reserve`. -/
def routeOrReserve (s : Nat) : Prog Unit := do
  let w ← Co.gets fun w : World =>
    (w.liveResidentFor (w.slot s).modelTag, w.modelResidents.length, w.lruIdleEvictable)
  match w with
  | (some r, _, _) => routeHit r s
  | (none, live, victim) =>
      if C.maxParallelSidecars ≤ live then
        match victim with
        | none => deferUnroutable s
        | some v => do
            beginEvictLocked v
            reserveAndStart C s
      else reserveAndStart C s

/-- `_audit_evicted_slot`. -/
def auditEvictedSlot (s : Nat) : Prog Unit :=
  Co.suppress (auditEventOnlyAsync (some s) "slot_evicted")

/-- `_handle_evicted_slot`. -/
def handleEvictedSlot (s : Nat) : Prog Unit := do
  failCompletionFuture .evicted s (evictedError s)
  fireAndForget (.auditEvicted s)
  Co.modify (World.setHold fun h => { h with evictionCount := h.evictionCount + 1 })

/-- One turn of `_dispatch_loop`. -/
def dispatchTurn : Prog Unit := do
  let warm ← Co.gets World.dispatchWarmHint
  match ← popNext C warm with
  | none => sleep
  | some s => do
      let x ← Co.gets fun w : World => w.slot s
      if x.isEvicted then handleEvictedSlot s
      else
        Co.tryExcept (routeOrReserve C s) fun _ => do
          mark (.caught s)
          failCompletionFuture .dispatchFailed s (.runtime "dispatch routing failed")

/-- `_dispatch_loop`. -/
def dispatchLoop : Prog Unit :=
  Co.whileTrue do
    let stop ← Co.gets fun w : World => w.stopEvent
    if stop then pure false
    else do
      dispatchTurn C
      pure true

/-- `worker_loop`. -/
def workerLoop : Prog Unit :=
  if 2 ≤ C.maxParallelSidecars then dispatchLoop C else serialLoop C

end Turbohaul
