/-
# `World` — the state the manager's tasks share

Everything that outlives one statement of one coroutine: the attributes of
`TurbohaulManager`, the slots, the queue, the residents, the processes the
manager has spawned, and asyncio's own records of the tasks it has created.

Objects that the source passes by reference are named here by a number (a slot
by its id, a `SidecarHandle` by the index of its process, a `Resident` and an
`asyncio.Task` by their index), and their fields live in tables.  `x is y` on
the objects is equality of the numbers.

A local variable of a coroutine is a Lean variable, with one kind of exception:
a local that a `finally` reads, or that holds the only reference to a slot
across a suspension, is kept in the world beside the object it belongs to
(`workerSlot`, `riderTasks`, `Resident.hand`, `Resident.pendingSlots`,
`Resident.tasks`).

Times are in milliseconds.
-/
import Turbohaul.Manifest
import Turbohaul.Coop.System

namespace Turbohaul

/-- The configuration the manager reads, fixed during a run.
`deriveThreadId` is `derive_thread_id_prefix_hash`. -/
structure Config where
  maxParallelSidecars : Nat := 1
  stagingQueueDepth : Nat := 100
  acceptanceBufferMax : Nat := 10000
  maxConsecutiveSameModel : Nat := 3
  maxOtherModelWaitMs : Nat := 20000
  graceSeconds : Nat := 30
  maxGraceExtensions : Nat := 5
  idleHotLoadSeconds : Nat := 600
  safetyEnabled : Bool := true
  defaultPortBase : Nat := 11500
  deriveThreadId : String → String → String := fun _ m => m

/-- A sidecar process and the handle on it.  `alive` is what `is_alive()`
answers; `reaped` says that a `_sigterm` or a pid reap of it has returned. -/
structure Sidecar where
  port : Nat := 0
  modelTag : String := ""
  parallel : Nat := 1
  alive : Bool := false
  reaped : Bool := false
deriving DecidableEq, Repr

/-- The processes spawned so far are `0, …, spawned - 1`.  `reaping` lists the
reaps in progress, with the task each of them suspends; `begun` the sidecars of
all reaps so far, and `broken` those of the reaps that raised or were
cancelled. -/
structure Procs where
  spawned : Nat := 0
  proc : Nat → Sidecar := fun _ => {}
  reaping : List (Nat × Nat) := []
  begun : List Nat := []
  broken : List Nat := []

/-- `GraceTimer`, less its two settings. -/
structure GraceTimer where
  startedAt : Option Nat := none
  threadId : Option String := none
  modelTag : Option String := none
  extensionCount : Nat := 0
deriving DecidableEq, Repr

/-- `IdleHotTimer`, less its setting. -/
structure IdleHotTimer where
  startedAt : Option Nat := none
  modelTag : Option String := none
deriving DecidableEq, Repr

/-- `TurbohaulQueue`, less its settings. -/
structure Queue where
  acceptBuf : List Nat := []
  staging : List Nat := []
  closed : Bool := false
  consecutiveSameModel : Nat := 0
  lastPoppedModelTag : Option String := none
deriving DecidableEq, Repr

/-- `ResidentState`. -/
inductive ResidentState where
  | reservedLoading
  | active
  | grace
  | idleEvictable
  | dead
deriving DecidableEq, Repr

/-- The inner task of `wait_for(inbox.get())`: there is none, it waits for an
item, or it has taken one that the driver has not seen yet. -/
inductive Getter where
  | idle
  | waiting
  | taken (slot : Nat)
deriving DecidableEq, Repr

/-- `Resident`.  `hand` is the driver's local `slot`, `pendingSlots` the local
of its `finally`, and `tasks` the local of the fan-out (task, slot). -/
structure Resident where
  modelTag : Option String := none
  handle : Option Nat := none
  port : Option Nat := none
  inflight : List Nat := []
  spawnSeq : Nat := 0
  idleExpiresAt : Option Nat := none
  activeSlot : Option Nat := none
  idleHandle : Option Nat := none
  idleModelTag : Option String := none
  latestKeepAliveS : Option Int := none
  grace : GraceTimer := {}
  state : ResidentState := .active
  reservedNeedMib : Nat := 0
  bootingPid : Option Nat := none
  parallel : Nat := 1
  mainGpu : Nat := 0
  splitMode : String := "layer"
  sleepIdleSeconds : Int := 0
  lastActiveMonotonic : Nat := 0
  tornDown : Bool := false
  driverTask : Option Nat := none
  inbox : Option (List Nat) := none
  getter : Getter := .idle
  hand : Option Nat := none
  pendingSlots : List Nat := []
  tasks : List (Nat × Nat) := []
deriving DecidableEq, Repr

/-- A request, as the routes hand it to `submit`.  `watched` says that the
caller attached a `disconnect_event`. -/
structure Request where
  modelTag : String
  prompt : String := ""
  threadId : String := ""
  clientMeta : ClientMeta := {}
  watched : Bool := true
deriving DecidableEq, Repr

/-- The coroutines that tasks are made of. -/
inductive Kind where
  | worker
  | shutdown
  | submitAndWait (q : Request)
  | streamRoute (q : Request)
  | embeddingsRoute (q : Request)
  | idleTeardown
  | shieldedSigterm (pid : Nat)
  | completeFn (slot pid : Nat)
  | streamDoneWaiter (slot : Nat)
  | driver (r : Nat)
  | completeOne (slot pid : Nat)
  | awaitStreamed (slot : Nat)
  | auditEvicted (slot : Nat)
  | requeueAfterBackoff (slot : Nat)
  | requeueSlots (slots : List Nat)
  | evictTeardown (r : Nat)
  | reapDead (r : Nat)
deriving DecidableEq, Repr

/-- The tasks `_spawn_bg` parks in `_bg_tasks`. -/
def Kind.isBg : Kind → Bool
  | .auditEvicted _ | .requeueAfterBackoff _ | .requeueSlots _ | .evictTeardown _
  | .reapDead _ => true
  | _ => false

/-- How a task ended. -/
inductive Outcome where
  | returned
  | raised (e : Err)
  | cancelled
deriving DecidableEq, Repr

/-- asyncio's record of a task.  `value` is what a `_complete_fn` task
returned, `slot` the local of `submit`. -/
structure TaskRec where
  kind : Kind := .worker
  slot : Option Nat := none
  started : Bool := false
  cancelRequested : Bool := false
  outcome : Option Outcome := none
  value : Option Completion := none
deriving DecidableEq, Repr

/-- Who serves a slot. -/
inductive Site where
  | serial
  | followUp
  | fanOut
  | resident
  | residentFollowUp
  | residentFanOut
deriving DecidableEq, Repr

/-- The calls of `_fail_completion_future`. -/
inductive FailSite where
  | evicted
  | workerException
  | manifestNotFound
  | gateRefused
  | healthTimeout
  | followUpDrift
  | followUpCancelled
  | followUpFailed
  | riderEvicted
  | riderDrift
  | riderFailed
  | drainAborted
  | dispatchFailed
  | deferExhausted
  | requeueCancelled
  | requeueFailed
  | vramRefused
  | residentGateRefused
  | residentHealthTimeout
  | residentFollowUpFailed
  | fanOutEvicted
  | fanOutFailed
  | fanOutInterrupted
  | completeFailed
  | exitedBeforeServe
  | driverDied
  | shutdownCleared
deriving DecidableEq, Repr

/-- Statements that a condition on runs may speak about.  `turn slot clean` is
the start of a turn of `worker_loop`, `clean` when `_inflight` is empty;
`rider slot` is the admission to a fan-out; `caught slot` is an exception path
of the loop; `asserting` is an `assert` that fails; `headInsert slot` is the
insertion of `enqueue_head`; `admitAborted` is what leaves a fan-out before the
`try` of its drain, `barrierAborted` what leaves the loop of the streaming
drain, other than its end. -/
inductive Mark where
  | popped (slot : Nat)
  | matched (slot : Nat)
  | fromInbox (slot : Nat)
  | turn (slot : Nat) (clean : Bool)
  | rider (slot : Nat)
  | caught (slot : Nat)
  | asserting
  | reserving (slot : Nat)
  | collectDrivers
  | headInsert (slot : Nat)
  | admitAborted
  | barrierAborted
deriving DecidableEq, Repr

/-- What has been done with slots and sidecars.  It is written and never read
by the manager.  `reaping` are the sidecars under a reap when `_spawn` was
called; a slot has `left` when its client leaves while it is queued; it has
`joined` when it is put into `_inflight`.  `fanOut modelTag` is the start of a
fan-out, once its anchor is seated, `fannedOut clean` its end, however it ends,
and `undrained slot` the failure of the assertion that its riders are drained.
`graceStarted` is the start of the grace timer, and `followedUp slot` the end of
a follow-up that was served on the warm sidecar. -/
inductive Event where
  | spawning (slot port : Nat) (reaping : List Nat)
  | dispatched (slot pid : Nat)
  | completing (slot pid : Nat)
  | finished (slot pid : Nat) (alive : Bool)
  | left (slot : Nat)
  | joined (slot : Nat)
  | fanOut (modelTag : String)
  | fannedOut (clean : Bool)
  | undrained (slot : Nat)
  | graceStarted
  | followedUp (slot : Nat)
  | marked (m : Mark)
deriving DecidableEq, Repr

/-- The row of a slot in the `slots` table, as far as it changes. -/
structure Row where
  state : SlotState
  ended : Option String := none
deriving DecidableEq, Repr

/-- The attributes of `TurbohaulManager` that the worker drives.  `workerSlot`
is the local `slot` of `worker_loop`; `riderTasks` is the dictionary (slot,
task) of the drain in progress, `waiters` or `ctasks`. -/
structure Holder where
  activeHandle : Option Nat := none
  activeSlot : Option Nat := none
  inflight : List Nat := []
  idleHandle : Option Nat := none
  idleModelTag : Option String := none
  idleExpiresAt : Option Nat := none
  latestKeepAliveS : Option Int := none
  spawnSeq : Nat := 0
  evictionCount : Nat := 0
  grace : GraceTimer := {}
  idle : IdleHotTimer := {}
  workerSlot : Option Nat := none
  riderTasks : List (Nat × Nat) := []
deriving DecidableEq, Repr

/-- The shared state. -/
structure World where
  clock : Nat := 0
  stopEvent : Bool := false
  procs : Procs := {}
  slotCount : Nat := 0
  slot : Nat → Slot := fun _ => {}
  rows : Nat → Option Row := fun _ => none
  queue : Queue := {}
  hold : Holder := {}
  residentCount : Nat := 0
  resident : Nat → Resident := fun _ => {}
  registry : List (String × Nat) := []
  taskCount : Nat := 0
  task : Nat → TaskRec := fun _ => {}
  shutdownTask : Option Nat := none
  trace : List Event := []

/-! ## Assignments -/

/-- A table with one entry changed. -/
def setAt {α : Type} (f : Nat → α) (i : Nat) (v : α) : Nat → α :=
  fun j => if j = i then v else f j

@[simp] theorem setAt_self {α : Type} (f : Nat → α) (i : Nat) (v : α) : setAt f i v i = v := by
  simp [setAt]

theorem setAt_of_ne {α : Type} {f : Nat → α} {i j : Nat} {v : α} (h : j ≠ i) :
    setAt f i v j = f j := by
  simp [setAt, h]

namespace World

def setSlot (s : Nat) (f : Slot → Slot) (w : World) : World :=
  { w with slot := setAt w.slot s (f (w.slot s)) }

def setResident (r : Nat) (f : Resident → Resident) (w : World) : World :=
  { w with resident := setAt w.resident r (f (w.resident r)) }

def setTask (t : Nat) (f : TaskRec → TaskRec) (w : World) : World :=
  { w with task := setAt w.task t (f (w.task t)) }

def setHold (f : Holder → Holder) (w : World) : World :=
  { w with hold := f w.hold }

def setQueue (f : Queue → Queue) (w : World) : World :=
  { w with queue := f w.queue }

def setProcs (f : Procs → Procs) (w : World) : World :=
  { w with procs := f w.procs }

def record (e : Event) (w : World) : World :=
  { w with trace := e :: w.trace }

/-- `asyncio.create_task`.  The new task is `w.taskCount`. -/
def fork (k : Kind) (w : World) : World :=
  { w with
    task := setAt w.task w.taskCount { kind := k }
    taskCount := w.taskCount + 1 }

/-- `task.done()`. -/
def taskDone (w : World) (t : Nat) : Bool := (w.task t).outcome.isSome

/-- `task.cancel()`; no effect on a task that is done. -/
def cancelTask (t : Nat) (w : World) : World :=
  w.setTask t fun k => if k.outcome.isSome then k else { k with cancelRequested := true }

/-- A reap of `pid` begins in task `t`. -/
def beginReap (t pid : Nat) (w : World) : World :=
  w.setProcs fun p => { p with reaping := (t, pid) :: p.reaping, begun := pid :: p.begun }

/-- The reap in task `t` is over. -/
def endReap (t : Nat) (w : World) : World :=
  w.setProcs fun p => { p with reaping := p.reaping.filter fun e => e.1 ≠ t }

/-- A reap of `pid` has raised, or was cancelled. -/
def breakReap (pid : Nat) (w : World) : World :=
  w.setProcs fun p => { p with broken := pid :: p.broken }

/-- A reap of `pid` has returned: the process is gone. -/
def markReaped (pid : Nat) (w : World) : World :=
  w.setProcs fun p =>
    { p with proc := setAt p.proc pid { p.proc pid with alive := false, reaped := true } }

/-- The process exits by itself. -/
def processExit (pid : Nat) (w : World) : World :=
  w.setProcs fun p => { p with proc := setAt p.proc pid { p.proc pid with alive := false } }

/-- `handle.is_alive()`. -/
def isAlive (w : World) (pid : Nat) : Bool := (w.procs.proc pid).alive

end World

end Turbohaul
