/-
# `FanOut` — several slots on one sidecar, at cap 1

`_fan_out_and_drain` and its two helpers.  The anchor is rider 0.  Riders of
the same model and the same mode are admitted from the queue onto the anchor's
sidecar; then all of them are drained.

    streaming       one admit, then wait for each route's `stream_done_event`
    non-streaming   one admit, then one `_complete_fn` task per rider, with
                    more riders admitted while any of them is running

The rider set `_inflight` and the task dictionary of the drain are in the
world, since the `finally` of each drain reads them.

Two things that no statement of the source shows are observed: what leaves the
call before the `try` of its drain, and what leaves the loop of the streaming
drain.
-/
import Turbohaul.Teardown

namespace Turbohaul

open Coop

variable (C : Config)

/-- Promote a popped slot onto the shared sidecar.  On state drift its pid is
reset before `_force_cold`, so that the shared sidecar is never reaped. -/
def promoteRider (extra pid : Nat) : Prog Bool := do
  let port ← Co.gets fun w : World => (w.procs.proc pid).port
  onSlot extra fun x => { x with port := some port, pid := some pid }
  Co.tryExcept
    (do
      transition extra .loading
      transition extra .active
      onSlot extra fun x => { x with streamHandle := some pid }
      pure true)
    fun
      | .invalidTransition i a b => do
          onSlot extra fun x => { x with pid := none }
          failCompletionFuture .riderDrift extra (.invalidTransition i a b)
          let x ← Co.gets fun w : World => w.slot extra
          forceCold extra ("fanout_rider_drift:" ++ x.state.value)
          pure false
      | e => Co.raise e

/-- `self._inflight.append(extra)`. -/
def joinInflight (s : Nat) : Prog Unit := do
  Co.modify (World.setHold fun h => { h with inflight := h.inflight ++ [s] })
  Co.modify (World.record (.joined s))

/-- `self._inflight[:] = [anchor]`, before there is any task of this drain. -/
def seatAnchor (anchor : Nat) : Prog Unit := do
  Co.modify (World.setHold fun h => { h with inflight := [anchor], riderTasks := [] })
  Co.modify (World.record (.joined anchor))

/-- `self._inflight.remove(s)`. -/
def leaveInflight (s : Nat) : Prog Unit :=
  Co.modify (World.setHold fun h => { h with inflight := h.inflight.erase s })

/-- `self._inflight.clear()`. -/
def clearInflight : Prog Unit :=
  Co.modify (World.setHold fun h => { h with inflight := [], riderTasks := [] })

namespace World

/-- `tasks[s.slot_id] = asyncio.create_task(...)`. -/
def startRider (k : Kind) (s : Nat) (w : World) : World :=
  (w.fork k).setHold fun h => { h with riderTasks := (s, w.taskCount) :: h.riderTasks }

/-- The task of rider `s`. -/
def riderTask (w : World) (s : Nat) : Option Nat := w.hold.riderTasks.lookup s

/-- `tasks[s.slot_id].cancel()`. -/
def cancelRider (s : Nat) (w : World) : World :=
  match w.riderTask s with
  | some t => w.cancelTask t
  | none => w

end World

/-- One popped candidate of an admit loop: `none` stops the loop, and
`some admitted?` goes round again. -/
def admitRider (tag : String) (streaming : Bool) (pid extra : Nat) : Prog (Option Bool) := do
  let x ← Co.gets fun w : World => w.slot extra
  if x.modelTag ≠ tag || x.clientMeta.stream ≠ streaming then do
    enqueueHead extra
    pure none
  else if x.isEvicted then do
    failCompletionFuture .riderEvicted extra
      (.slotEvicted "client disconnected before fan-out admit")
    auditAsync extra "evicted_pre_fanout"
    pure (some false)
  else do
    mark (.rider extra)
    let promoted ← promoteRider extra pid
    if promoted then do
      joinInflight extra
      auditAsync extra "fanout_rider_active"
      pure (some true)
    else pure (some false)

/-- The one-shot admit loop of `_fan_out_and_drain`.  It returns the
`keep_alive_s` of every rider. -/
def admitOnce (tag : String) (streaming : Bool) (pid n : Nat) (keepAlives : List (Option Int)) :
    Prog (List (Option Int)) :=
  .loop keepAlives fun kas => do
    let h ← Co.gets fun w : World => w.hold
    if h.inflight.length < n then do
      match ← popNext C (some tag) with
      | none => pure (.inr kas)
      | some extra => do
          match ← admitRider tag streaming pid extra with
          | none => pure (.inr kas)
          | some false => pure (.inl kas)
          | some true => do
              let x ← Co.gets fun w : World => w.slot extra
              Co.when (streaming && x.streamReadyEvent.isSome) (handToRoute extra pid)
              pure (.inl (kas ++ [x.clientMeta.keepAliveS]))
    else pure (.inr kas)

/-- `_admit_nonstreaming_riders`: the slots newly promoted. -/
def admitNonstreamingRiders (tag : String) (pid n : Nat) : Prog (List Nat) :=
  .loop ([] : List Nat) fun admitted => do
    let h ← Co.gets fun w : World => w.hold
    if h.inflight.length < n then do
      match ← popNext C (some tag) with
      | none => pure (.inr admitted)
      | some extra => do
          match ← admitRider tag false pid extra with
          | none => pure (.inr admitted)
          | some false => pure (.inl admitted)
          | some true => pure (.inl (admitted ++ [extra]))
    else pure (.inr admitted)

/-- A drained rider that is not the anchor is parked, decoupled from the
shared sidecar. -/
def parkRider (anchor s : Nat) : Prog Unit := do
  Co.when (s ≠ anchor) do
    onSlot s fun x => { x with pid := none }
    forceCold s "fanout_rider_drained"
  leaveInflight s

/-! ## Streaming riders -/

/-- The waiters of the drain barrier, one for each rider. -/
def startWaiters : List Nat → Prog Unit :=
  Co.forEach fun s => do
    let x ← Co.gets fun w : World => w.slot s
    if x.streamDoneEvent.isNone then assertionError "stream_done_event is not None"
    else Co.modify (World.startRider (.streamDoneWaiter s) s)

/-- A rider whose waiter is done: its route has closed, or the cap of 3600 s
was hit and the route is told to unwind. -/
def settleStreamed (anchor : Nat) (done : List Nat) (s : Nat) : Prog Unit := do
  let w ← Co.gets fun w : World => (w.riderTask s).map fun t => (t, (w.task t).outcome)
  match w with
  | some (t, o) =>
      Co.when (t ∈ done) do
        Co.when (o = some (.raised .timeout)) (onSlot s Slot.setDone)
        setResult s .streamed
        parkRider anchor s
  | none => pure ()

/-- Cancel the task of a rider, unless it is done, and wait for it. -/
def cancelAndWait (s : Nat) : Prog Unit := do
  let t ← Co.gets fun w : World => (w.riderTask s).filter fun t => !w.taskDone t
  match t with
  | some t => do
      Co.modify (World.cancelRider s)
      Co.suppressAll (sync (.join [t]))
  | none => pure ()

/-- The barrier's `finally`. -/
def unwindStreamed : Prog Unit := do
  let h ← Co.gets fun w : World => w.hold
  Co.forEach (fun s => onSlot s Slot.setDone) h.inflight
  Co.forEach cancelAndWait (h.riderTasks.map Prod.fst)
  clearInflight

/-- The drain barrier. -/
def drainStreamed (anchor : Nat) : Prog Unit := do
  let h ← Co.gets fun w : World => w.hold
  observed .admitAborted (startWaiters h.inflight)
  let waiters ← Co.gets fun w : World => w.hold.riderTasks.map Prod.snd
  Co.tryFinally
    (observed .barrierAborted (.loop waiters fun pending => do
      if pending.isEmpty then pure (.inr ())
      else do
        let done ← waitFirst pending false
        let h ← Co.gets fun w : World => w.hold
        Co.forEach (settleStreamed anchor done) h.inflight
        pure (.inl (pending.filter fun t => t ∉ done))))
    unwindStreamed

/-! ## Non-streaming riders -/

/-- What a rider's caller gets from its completion. -/
def answerRider (s : Nat) (o : Option Outcome) (v : Option Completion) : Prog Unit :=
  match o with
  | some (.raised e) => failCompletionFuture .riderFailed s e
  | some .returned => setResult s (v.getD (.upstream 0))
  | _ => pure ()

/-- A rider whose completion is done: only its own caller sees a failure. -/
def settleCompleted (anchor : Nat) (done : List Nat) (s : Nat) : Prog Unit := do
  let w ← Co.gets fun w : World =>
    (w.riderTask s).map fun t => (t, (w.task t).outcome, (w.task t).value)
  match w with
  | some (t, o, v) =>
      Co.when (t ∈ done) do
        answerRider s o v
        parkRider anchor s
  | none => pure ()

/-- Start a completion for each of the slots. -/
def startCompletions (pid : Nat) (riders : List Nat) : Prog Unit :=
  Co.forEach (fun s => Co.modify (World.startRider (.completeFn s pid) s)) riders

/-- The tasks of the slots just started. -/
def tasksOf (riders : List Nat) : Prog (List Nat) :=
  Co.gets fun w : World => riders.filterMap w.riderTask

/-- The drain's `finally`: nobody hangs. -/
def abortCompletions : Prog Unit := do
  let h ← Co.gets fun w : World => w.hold
  Co.forEach
    (fun s => do
      cancelAndWait s
      failCompletionFuture .drainAborted s (.runtime "fan-out drain aborted"))
    h.inflight
  clearInflight

/-- `_drain_nonstreaming_riders`. -/
def drainNonstreamingRiders (anchor : Nat) (tag : String) (pid n : Nat) : Prog Unit := do
  let h ← Co.gets fun w : World => w.hold
  startCompletions pid h.inflight
  Co.tryFinally
    (do
      let more ← admitNonstreamingRiders C tag pid n
      startCompletions pid more
      let tasks ← Co.gets fun w : World => w.hold.riderTasks.map Prod.snd
      .loop tasks fun pending => do
        if pending.isEmpty then pure (.inr ())
        else do
          let done ← waitFirst pending true
          let h ← Co.gets fun w : World => w.hold
          Co.forEach (settleCompleted anchor done) h.inflight
          let more ← admitNonstreamingRiders C tag pid n
          startCompletions pid more
          let ts ← tasksOf more
          pure (.inl ((pending.filter fun t => t ∉ done) ++ ts)))
    abortCompletions

/-- `max(_ka) if _ka else None`. -/
def maxKeepAlive (kas : List (Option Int)) : Option Int :=
  (kas.filterMap id).max?

/-- `_fan_out_and_drain`. -/
def fanOutAndDrain (anchor pid n : Nat) : Prog Unit := do
  let x ← Co.gets fun w : World => w.slot anchor
  let streaming := x.clientMeta.stream
  seatAnchor anchor
  Co.modify (World.record (.fanOut x.modelTag))
  onSlot anchor fun x => { x with streamHandle := some pid }
  Co.when (streaming && x.streamReadyEvent.isSome) (handToRoute anchor pid)
  let kas ← observed .admitAborted
    (admitOnce C x.modelTag streaming pid n [x.clientMeta.keepAliveS])
  Co.modify (World.setLatestKeepAlive (maxKeepAlive kas))
  if streaming then drainStreamed anchor
  else drainNonstreamingRiders C anchor x.modelTag pid n

/-! ## What a fan-out owes -/

/-- The rider has its result or its failure, and its route may unwind. -/
def Slot.answered (x : Slot) : Bool :=
  x.completionFuture.settled && (!x.clientMeta.stream || x.streamDoneEvent = some true)

/-- The slot an event puts into `_inflight`. -/
def Event.rider : Event → Option Nat
  | .joined s => some s
  | _ => none

namespace World

/-- All that were ever in `_inflight`. -/
def riders (w : World) : List Nat := w.trace.filterMap Event.rider

/-- `_inflight` is empty, and all that were in it are answered. -/
def drained (w : World) : Bool :=
  w.hold.inflight.isEmpty && w.riders.all fun s => (w.slot s).answered

end World

/-- Look at what a fan-out has left. -/
def noteFannedOut : Prog Unit := Co.modify fun w => w.record (.fannedOut w.drained)

end Turbohaul
