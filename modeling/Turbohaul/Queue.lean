/-
# `Queue` — the two-tier queue and the grace timer

`queue.py`.  A slot is accepted into staging when there is room and into the
acceptance buffer otherwise; staging is refilled from the buffer as slots are
popped.  Every method runs under the queue's lock, but none of them suspends
inside it, so the lock is never waited for and is not modelled.

Three helpers test a slot's `disconnect_event` as they take it out and flag it
`is_evicted`; the caller has to look at the flag.
-/
import Turbohaul.Calls

namespace Turbohaul

open Coop

namespace World

/-- The eviction test every helper makes on the slot it has taken out. -/
def flagEvicted (s : Nat) (w : World) : World :=
  if (w.slot s).disconnected then w.setSlot s fun x => { x with isEvicted := true } else w

/-- `fsm_transition`, on a slot already moved between the tiers. -/
def moveTo (s : Nat) (target : SlotState) (w : World) : Res sig Unit × World :=
  match (w.slot s).transition s target with
  | .ok x => (.ok (), w.setSlot s fun _ => x)
  | .error e => (.error (.raised e), w)

end World

variable (C : Config)

/-- `_pop_first_non_evicted_from(self._staging)`. -/
def popFirst : Prog (Option Nat) :=
  .act fun w =>
    match w.queue.staging with
    | [] => (.ok none, w)
    | s :: rest =>
        (.ok (some s), (w.setQueue fun q => { q with staging := rest }).flagEvicted s)

/-- `_pop_first_matching_non_evicted_from(self._staging, tag, staging_max)`. -/
def popFirstMatching (tag : String) : Prog (Option Nat) :=
  .act fun w =>
    match (w.queue.staging.take C.stagingQueueDepth).find? fun s => (w.slot s).modelTag = tag with
    | none => (.ok none, w)
    | some s =>
        (.ok (some s),
          (w.setQueue fun q => { q with staging := q.staging.erase s }).flagEvicted s)

/-- One entry of the acceptance buffer moves to the tail of staging.  The
entry leaves the buffer before its transition is validated. -/
def promoteOne : Prog Unit :=
  .act fun w =>
    match w.queue.acceptBuf with
    | [] => (.ok (), w)
    | s :: rest =>
        match (w.setQueue fun q => { q with acceptBuf := rest }).moveTo s .staged with
        | (.ok (), w) =>
            (.ok (), w.setQueue fun q => { q with staging := q.staging ++ [s] })
        | r => r

/-- Refill staging with one entry if there is one and there is room. -/
def replenish : Prog Unit := do
  let q ← Co.gets fun w : World => w.queue
  Co.when (!q.acceptBuf.isEmpty && q.staging.length < C.stagingQueueDepth) promoteOne

/-- Refill staging with as many entries as fit. -/
def drainAcceptBuf : Prog Unit :=
  Co.whileTrue do
    let q ← Co.gets fun w : World => w.queue
    if !q.acceptBuf.isEmpty && q.staging.length < C.stagingQueueDepth then do
      promoteOne
      pure true
    else pure false

/-- `_update_run_length_locked`. -/
def updateRunLength : Option Nat → Prog Unit
  | none => pure ()
  | some s => Co.modify fun w =>
      w.setQueue fun q =>
        { q with
          consecutiveSameModel :=
            if some (w.slot s).modelTag = q.lastPoppedModelTag then q.consecutiveSameModel + 1
            else 1
          lastPoppedModelTag := some (w.slot s).modelTag }

/-- The FIFO path of `pop_next`. -/
def popNextFifo : Prog (Option Nat) := do
  match ← popFirst with
  | some s => do
      replenish C
      updateRunLength (some s)
      pure (some s)
  | none => do
      drainAcceptBuf C
      let returned ← popFirst
      updateRunLength returned
      pure returned

/-- The other-model head of staging has waited longer than
`max_other_model_wait_s`. -/
def headStarved (head : Nat) (tag : String) : Prog Bool := do
  let x ← Co.gets fun w : World => w.slot head
  if x.modelTag ≠ tag then do
    let now ← monotonic
    pure (decide (C.maxOtherModelWaitMs < now - x.createdAt))
  else pure false

/-- A slot of the warm model if there is one, else the FIFO head. -/
def popPreferring (tag : String) : Prog (Option Nat) := do
  match ← popFirstMatching C tag with
  | some s => pure (some s)
  | none => popFirst

/-- The model-affinity path of `pop_next`. -/
def popNextAffine (tag : String) (head : Nat) : Prog (Option Nat) := do
  let starved ← headStarved C head tag
  let q ← Co.gets fun w : World => w.queue
  let forced := starved || decide (C.maxConsecutiveSameModel ≤ q.consecutiveSameModel)
  let returned ← (if forced then popFirst else popPreferring C tag : Prog (Option Nat))
  Co.when returned.isSome (replenish C)
  updateRunLength returned
  pure returned

/-- The path `pop_next` takes. -/
def popPath (warmModelTag : Option String) (staging : List Nat) : Prog (Option Nat) :=
  match warmModelTag, staging with
  | some tag, head :: _ => popNextAffine C tag head
  | _, _ => popNextFifo C

/-- `pop_next`. -/
def popNext (warmModelTag : Option String) : Prog (Option Nat) := do
  let q ← Co.gets fun w : World => w.queue
  match ← popPath C warmModelTag q.staging with
  | some s => do
      mark (.popped s)
      pure (some s)
  | none => pure none

/-- `pop_matched_thread`. -/
def popMatchedThread (threadId modelTag : String) : Prog (Option Nat) := do
  if threadId = "" then pure none
  else do
    let found ← Co.act fun w : World =>
      match w.queue.staging.find? fun s =>
          (w.slot s).threadId = threadId ∧ (w.slot s).modelTag = modelTag with
      | none => ((.ok none : Res sig (Option Nat)), w)
      | some s =>
          (.ok (some s),
            (w.setQueue fun q => { q with staging := q.staging.erase s }).flagEvicted s)
    match found with
    | some s => do
        mark (.matched s)
        pure (some s)
    | none => pure none

/-- `enqueue`. -/
def enqueue (s : Nat) : Prog Unit := do
  let q ← Co.gets fun w : World => w.queue
  if q.closed then Co.raise (.queueClosed "queue closed")
  else if q.staging.length < C.stagingQueueDepth then do
    transition s .staged
    Co.modify (World.setQueue fun q => { q with staging := q.staging ++ [s] })
  else if C.acceptanceBufferMax ≤ q.acceptBuf.length then
    Co.raise (.queueFull ("acceptance buffer at max " ++ toString C.acceptanceBufferMax))
  else do
    transition s .acceptBuffer
    Co.modify (World.setQueue fun q => { q with acceptBuf := q.acceptBuf ++ [s] })

/-- `enqueue_head`.  A slot that is pushed back is staged already. -/
def enqueueHead (s : Nat) : Prog Unit := do
  let q ← Co.gets fun w : World => w.queue
  if q.closed then Co.raise (.queueClosed "queue closed")
  else do
    let x ← Co.gets fun w : World => w.slot s
    Co.when (x.state ≠ .staged) (transition s .staged)
    mark (.headInsert s)
    Co.modify (World.setQueue fun q => { q with staging := s :: q.staging })

/-- `remove`: a slot leaves the tier it is in. -/
def remove (s : Nat) : Prog (Option Nat) :=
  .act fun w =>
    if s ∈ w.queue.staging then
      (.ok (some s), w.setQueue fun q => { q with staging := q.staging.erase s })
    else if s ∈ w.queue.acceptBuf then
      (.ok (some s), w.setQueue fun q => { q with acceptBuf := q.acceptBuf.erase s })
    else (.ok none, w)

/-- `close`: the slots it cleared. -/
def closeQueue : Prog (List Nat) :=
  .act fun w =>
    (.ok (w.queue.staging ++ w.queue.acceptBuf),
      w.setQueue fun q => { q with closed := true, acceptBuf := [], staging := [] })

namespace GraceTimer

/-- `start`. -/
def start (now : Nat) (threadId modelTag : String) (_ : GraceTimer) : GraceTimer :=
  { startedAt := some now
    threadId := some threadId
    modelTag := some modelTag
    extensionCount := 0 }

/-- `remaining_s`, in milliseconds. -/
def remaining (now : Nat) (g : GraceTimer) : Nat :=
  match g.startedAt with
  | none => 0
  | some t => 1000 * C.graceSeconds - (now - t)

/-- `expired`. -/
def expired (now : Nat) (g : GraceTimer) : Bool :=
  g.startedAt.isNone || g.remaining C now = 0

/-- `matches`. -/
def isMatch (now : Nat) (threadId modelTag : String) (g : GraceTimer) : Bool :=
  g.startedAt.isSome && g.threadId = some threadId && g.modelTag = some modelTag &&
    !g.expired C now

/-- `restart_for_followup`, when the extension cap allows it. -/
def restart (now : Nat) (g : GraceTimer) : GraceTimer :=
  { g with startedAt := some now, extensionCount := g.extensionCount + 1 }

end GraceTimer

/-- `self.grace.restart_for_followup()`. -/
def restartForFollowup : Prog Bool := do
  let g ← Co.gets fun w : World => w.hold.grace
  if C.maxGraceExtensions ≤ g.extensionCount then pure false
  else do
    let now ← monotonic
    Co.modify (World.setHold fun x => { x with grace := x.grace.restart now })
    pure true

end Turbohaul
