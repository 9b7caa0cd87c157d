/-
# `Manager` — the running system

`shutdown`, the body of every kind of task, what the outside may do, and the
event loop they make together.

The tasks that only observe (the live poller, the supervisor, the sweeper) are
not modelled; `shutdown` still suspends where it cancels and awaits them.
-/
import Turbohaul.Dispatch
import Turbohaul.Submit

namespace Turbohaul

open Coop

variable (C : Config)

/-! ## Shutdown -/

/-- `_bg_tasks`, less those that are done. -/
def World.bgTasks (w : World) : List Nat :=
  (List.range w.taskCount).filter fun t => (w.task t).kind.isBg && !w.taskDone t

/-- Cancel those of the tasks that are still running in the background. -/
def World.cancelBg (ts : List Nat) (w : World) : World :=
  (ts.filter fun t => t ∈ w.bgTasks).foldl (fun w t => w.cancelTask t) w

/-- `_drain_bg_tasks`.  On its timeout the stragglers are cancelled. -/
def drainBgTasks : Prog Unit := do
  let pending ← Co.gets World.bgTasks
  Co.when (!pending.isEmpty) do
    Co.tryExcept (sync (.gatherTimed pending)) fun _ => do
      Co.modify (World.cancelBg pending)
      sync (.join pending)

/-- The task of `worker_loop`. -/
def workerTask : Nat := 0

/-- `shutdown` cancels the worker and waits for it.  What else than a
cancellation ends the worker, it raises. -/
def stopWorker : Prog Unit := do
  let running ← Co.gets fun w : World => !w.taskDone workerTask
  Co.when running do
    Co.modify (World.cancelTask workerTask)
    sync (.join [workerTask])
    let o ← Co.gets fun w : World => (w.task workerTask).outcome
    match o with
    | some (.raised e) => Co.raise e
    | _ => pure ()

/-- The drivers of the registered residents, less those that are done. -/
def World.driverTasks (w : World) : List Nat :=
  (w.registry.filterMap fun e => (w.resident e.2).driverTask).filter fun t => !w.taskDone t

/-- `dt.cancel()` for every driver. -/
def World.cancelDrivers (w : World) : World :=
  w.driverTasks.foldl (fun w t => w.cancelTask t) w

/-- `shutdown` cancels the drivers and waits for all of them. -/
def stopDrivers : Prog Unit := do
  mark .collectDrivers
  let drivers ← Co.gets World.driverTasks
  Co.modify World.cancelDrivers
  Co.when (!drivers.isEmpty) (sync (.join drivers))

/-- `shutdown`. -/
def shutdown : Prog Unit := do
  Co.modify fun w : World => { w with stopEvent := true }
  sync .observers
  stopWorker
  stopDrivers
  drainBgTasks
  sync .observers
  let cleared ← closeQueue
  Co.forEach
    (fun s => failCompletionFuture .shutdownCleared s
      (.cancelledError "manager shutdown -- slot was never processed"))
    cleared
  let h ← Co.gets fun w : World => w.hold
  Co.when h.idleHandle.isSome (Co.suppress (teardownIdleHolder C))

/-! ## Tasks -/

/-- The task that runs a rider's `_complete_fn`: its value is the result. -/
def completionTask (t s pid : Nat) : Prog Unit := do
  let b ← completeFn .fanOut s pid
  Co.modify (World.setTask t fun k => { k with value := some (.upstream b) })

/-- A waiter of the streaming drain barrier. -/
def streamDoneWaiter (s : Nat) : Prog Unit := do
  let x ← Co.gets fun w : World => w.slot s
  sync (.streamDone .fanOut s (x.streamHandle.getD 0))

/-- What each kind of task runs. -/
def program (t : Nat) : Kind → Prog Unit
  | .worker => workerLoop C
  | .shutdown => shutdown C
  | .submitAndWait q => submitAndWait C t q
  | .streamRoute q => streamRoute C t q
  | .embeddingsRoute q => embeddingsRoute C t q
  | .idleTeardown => teardownIdleHolder C
  | .shieldedSigterm pid => sigterm pid
  | .completeFn s pid => completionTask t s pid
  | .streamDoneWaiter s => streamDoneWaiter s
  | .driver r => driveResident C r
  | .completeOne s pid => completeOneSlot s pid
  | .awaitStreamed s => awaitStreamedSlot s
  | .auditEvicted s => auditEvictedSlot s
  | .requeueAfterBackoff s => requeueAfterBackoff s
  | .requeueSlots ss => requeueSlotsOrFail ss
  | .evictTeardown r => evictTeardown r
  | .reapDead r => reapDeadResident r

/-- A task that was cancelled before it started never enters its coroutine. -/
def taskBody (t : Nat) (k : Kind) (r : Reply) : Prog Unit :=
  if r = .cancelled then .throw .cancelled else program C t k

/-- How a task ended. -/
def outcomeOf : Res sig Unit → Outcome
  | .ok _ => .returned
  | .error (.raised e) => .raised e
  | .error .cancelled => .cancelled

/-- The end of a task.  A driver's done callback is `_on_driver_done`, which
schedules `_reap_dead_resident` however the driver ended. -/
def finished (t : Nat) (r : Res sig Unit) (w : World) : World :=
  let w := w.setTask t fun k => { k with outcome := some (outcomeOf r) }
  match (w.task t).kind with
  | .driver d => w.fork (.reapDead d)
  | _ => w

/-- A task that was created and has not started. -/
def fresh (w : World) (t : Nat) : Option Kind :=
  if t < w.taskCount && !(w.task t).started && !w.taskDone t then some (w.task t).kind else none

/-! ## The outside -/

/-- What happens without the manager: a request arrives, `shutdown()` is
called, a sidecar exits, a client leaves, an embeddings or a chat route is
cancelled by its server, and the inner task of a `wait_for(inbox.get())`
takes its item. -/
inductive Env where
  | request (k : Kind)
  | shutdown
  | exit (pid : Nat)
  | disconnect (s : Nat)
  | cancelRoute (t : Nat)
  | innerGet (r : Nat)
deriving DecidableEq, Repr

/-- The kinds a request may start. -/
def Kind.isRequest : Kind → Bool
  | .submitAndWait _ | .streamRoute _ | .embeddingsRoute _ => true
  | _ => false

/-- The slot is in staging, in the acceptance buffer or in an inbox. -/
def World.queued (w : World) (s : Nat) : Bool :=
  s ∈ w.queue.staging || s ∈ w.queue.acceptBuf ||
    (List.range w.residentCount).any fun r => s ∈ (w.resident r).inbox.getD []

/-- The slot's `disconnect_event`, if it has one, is set. -/
def World.disconnect (s : Nat) (w : World) : World :=
  let w := w.setSlot s fun x => { x with disconnectEvent := x.disconnectEvent.map fun _ => true }
  if (w.slot s).disconnected && w.queued s then w.record (.left s) else w

/-- The inner `get` takes the head of the inbox. -/
def World.innerGet (r : Nat) (w : World) : Option World :=
  match (w.resident r).getter, (w.resident r).inbox with
  | .waiting, some (s :: rest) =>
      some (w.setResident r fun x => { x with getter := .taken s, inbox := some rest })
  | _, _ => none

/-- The outside's steps. -/
def envStep (e : Env) (w : World) : Option World :=
  match e with
  | .request k => if k.isRequest then some (w.fork k) else none
  | .shutdown =>
      if w.shutdownTask.isNone then
        some { w.fork .shutdown with shutdownTask := some w.taskCount }
      else none
  | .exit pid => some (w.processExit pid)
  | .disconnect s => some (w.disconnect s)
  | .cancelRoute t => if (w.task t).kind.isRequest then some (w.cancelTask t) else none
  | .innerGet r => w.innerGet r

/-! ## The system -/

/-- The manager as a system of cooperative tasks. -/
def system : Sys sig where
  Kind := Kind
  Env := Env
  allowed := allowed
  issue := issue
  answer := answer
  fresh := fresh
  entry := .entry
  body := taskBody C
  finished := finished
  env := envStep

/-- The manager after its constructor, with the task of `worker_loop` created:
one permanent resident, under the singleton key. -/
def initial : World where
  registry := [(singletonResidentKey, 0)]
  residentCount := 1
  task := setAt (fun _ => {}) workerTask { kind := .worker }
  taskCount := 1

/-- The states a run may reach. -/
abbrev Reachable (A : Admit (system C)) (c : Loop sig) : Prop :=
  Loop.Reach A { world := initial } c

end Turbohaul
