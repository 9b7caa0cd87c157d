/-
# `Interface` — the operations the manager's coroutines call

What a coroutine does beyond reading and writing the world: it calls an
operation and gets a reply.  An operation is answered at once (`ask`) or after
a suspension (`await`); `allowed` says which replies it may get, `issue` what
suspending on it does, `answer` what its reply does.

The operations the source injects or imports (spawn, health probe, SIGTERM,
completion, VRAM and host probes, the database) may raise at any call, with an
exception the model only names by a number.  asyncio's own operations answer
as asyncio does:

  - a task asked to cancel gets its `CancelledError` at the await it is
    suspended on, whatever that await is;
  - except that `wait_for` gives the result when its inner future is already
    done, and then the request to cancel is spent;
  - `wait_for(inbox.get())` runs `get` in a task of its own, which takes the
    item before the waiting driver sees it (`Getter`).

`mark` is an observation point: it leaves an event and does nothing else, so
that a condition on runs can speak about a statement that is not an operation.
`fail` is `_fail_completion_future`, named for the place it is called from.
-/
import Turbohaul.World

namespace Turbohaul

open Coop

/-- The operations. -/
inductive Op where
  | entry
  | mark (m : Mark)
  | fail (site : FailSite) (slot : Nat) (e : Err)
  | monotonic
  | readManifest (modelTag : String)
  | vramBudget (splitMode : String) (mainGpu : Nat)
  | spawn (slot port : Nat) (modelTag : String) (parallel : Nat)
  | upsertSlot (slot : Nat)
  | markSlotEnded (slot : Nat) (reason : String)
  | orphanReap (known : List Nat)
  | sleep
  | audit (slot : Nat) (event : String)
  | auditEventOnly (slot : Option Nat) (event : String)
  | safetyGates (m : Manifest)
  | waitHealthy (pid : Nat)
  | sigterm (pid : Nat)
  | reapPid (pid : Nat)
  | vramVerify (expectedDropMib : Nat)
  | complete (site : Site) (slot pid : Nat)
  | streamDone (site : Site) (slot pid : Nat)
  | streamReady (slot : Nat)
  | upstream (slot pid : Nat)
  | future (slot : Nat)
  | inboxGet (r : Nat)
  | inboxGetTimed (r : Nat)
  | join (tasks : List Nat)
  | waitFirst (tasks : List Nat) (poll : Bool)
  | gatherTimed (tasks : List Nat)
  | observers
deriving DecidableEq, Repr

/-- The replies. -/
inductive Reply where
  | ok
  | raised (e : Err)
  | cancelled
  | timeout
  | time (now : Nat)
  | manifest (m : Manifest)
  | mib (free : Option Nat)
  | handle (pid : Nat)
  | killed (pids : List Nat)
  | healthy (b : Bool)
  | gates (failed : List String)
  | completion (body : Nat)
  | item (slot : Nat)
  | done (tasks : List Nat)
deriving DecidableEq, Repr

/-- The types of the manager's tasks. -/
abbrev sig : Sig where
  World := World
  Op := Op
  Reply := Reply
  Err := Err

/-- Programs of the manager. -/
abbrev Prog (α : Type) := Co sig α

/-- Exceptions raised by what the manager calls. -/
def Err.isInjected : Err → Bool
  | .injected _ => true
  | _ => false

/-- A request to cancel the task is pending. -/
def World.cancelling (w : World) (t : Nat) : Bool := (w.task t).cancelRequested

/-- The replies an operation may get when no request to cancel interferes. -/
def replies (o : Op) (r : Reply) (w : World) : Bool :=
  match o, r with
  | .entry, .ok => true
  | .mark _, .ok => true
  | .fail _ _ _, .ok => true
  | .monotonic, .time now => decide (w.clock ≤ now)
  | .readManifest _, .manifest _ => true
  | .readManifest _, .raised e => e.isInjected || e = .fileNotFound
  | .vramBudget _ _, .mib _ => true
  | .vramBudget _ _, .raised e => e.isInjected
  | .spawn _ _ _ _, .handle pid => pid = w.procs.spawned
  | .spawn _ _ _ _, .raised e => e.isInjected
  | .upsertSlot _, .ok => true
  | .upsertSlot _, .raised e => e.isInjected
  | .markSlotEnded _ _, .ok => true
  | .markSlotEnded _ _, .raised e => e.isInjected
  | .orphanReap known, .killed pids => pids.all fun p => p ∉ known
  | .orphanReap _, .raised e => e.isInjected
  | .sleep, .ok => true
  | .audit _ _, .ok => true
  | .audit _ _, .raised e => e.isInjected
  | .auditEventOnly _ _, .ok => true
  | .auditEventOnly _ _, .raised e => e.isInjected
  | .safetyGates _, .gates _ => true
  | .safetyGates _, .raised e => e.isInjected
  | .waitHealthy _, .healthy _ => true
  | .waitHealthy _, .raised e => e.isInjected
  | .sigterm _, .ok => true
  | .sigterm _, .raised e => e.isInjected
  | .reapPid _, .ok => true
  | .reapPid _, .raised e => e.isInjected
  | .vramVerify _, .ok => true
  | .vramVerify _, .raised e => e.isInjected
  | .complete _ _ _, .completion _ => true
  | .complete _ _ _, .raised e => e.isInjected
  | .streamDone _ s _, .ok => (w.slot s).streamDoneEvent = some true
  | .streamDone _ _ _, .timeout => true
  | .streamReady s, .ok => (w.slot s).streamReadyEvent = some true
  | .streamReady _, .timeout => true
  | .upstream _ _, .ok => true
  | .upstream _ _, .raised e => e.isInjected
  | .future s, .ok => (w.slot s).completionFuture.settled
  | .future _, .timeout => true
  | .inboxGet r, .item s => ((w.resident r).inbox.getD []).head? = some s
  | .inboxGetTimed r, .item s => (w.resident r).getter = .taken s
  | .inboxGetTimed r, .timeout => (w.resident r).getter = .waiting
  | .join ts, .ok => ts.all w.taskDone
  | .waitFirst ts poll, .done ds => ds = ts.filter w.taskDone && (poll || !ds.isEmpty)
  | .gatherTimed ts, .ok => ts.all w.taskDone
  | .gatherTimed _, .timeout => true
  | .observers, .ok => true
  | _, _ => false

/-- Operations that are suspended on. -/
def Op.isAwait : Op → Bool
  | .entry | .sleep | .audit _ _ | .auditEventOnly _ _ | .safetyGates _ | .waitHealthy _
  | .sigterm _ | .reapPid _ | .vramVerify _ | .complete _ _ _ | .streamDone _ _ _
  | .streamReady _ | .upstream _ _ | .future _ | .inboxGet _ | .inboxGetTimed _ | .join _
  | .waitFirst _ _ | .gatherTimed _ | .observers => true
  | _ => false

/-- The inner future of a `wait_for` is done, so that its result wins over a
request to cancel. -/
def innerDone (o : Op) (r : Reply) : Bool :=
  match o, r with
  | .streamDone _ _ _, .ok => true
  | .streamReady _, .ok => true
  | .future _, .ok => true
  | .inboxGetTimed _, .item _ => true
  | _, _ => false

/-- Cancellation may be delivered at the await: not when the inner `get` of a
timed `inbox.get()` has its item. -/
def cancellable (o : Op) (w : World) : Bool :=
  match o with
  | .inboxGetTimed r => (w.resident r).getter = .waiting
  | _ => true

/-- The replies an operation of task `t` may get. -/
def allowed (t : Nat) (o : Op) (r : Reply) (w : World) : Bool :=
  if o.isAwait && w.cancelling t then
    if r = .cancelled then cancellable o w else innerDone o r && replies o r w
  else replies o r w

/-- A reply is a cancellation that was asked for, or one the operation gives. -/
theorem allowed_cases {t : Nat} {o : Op} {r : Reply} {w : World} (h : allowed t o r w = true) :
    (r = .cancelled ∧ w.cancelling t = true) ∨ replies o r w = true := by
  unfold allowed at h
  split at h
  · next hc =>
      split at h
      · next hr => exact .inl ⟨hr, (Bool.and_eq_true_iff.mp hc).2⟩
      · exact .inr (Bool.and_eq_true_iff.mp h).2
  · exact .inr h

namespace World

/-- `upsert_slot` of the slot's row.  No caller gives it an `ended_at`, so that
it resets the one there is. -/
def upsertRow (s : Nat) (w : World) : World :=
  { w with
    rows := fun i => if i = s then some { state := (w.slot s).state } else w.rows i }

/-- `mark_slot_ended`, an update of the row if there is one. -/
def endRow (s : Nat) (reason : String) (w : World) : World :=
  { w with
    rows := fun i =>
      if i = s then (w.rows s).map fun _ => { state := .cold, ended := some reason }
      else w.rows i }

/-- `_spawn` is called for a slot. -/
def callSpawn (s port : Nat) (w : World) : World :=
  w.record (.spawning s port (w.procs.reaping.map Prod.snd))

/-- A new sidecar process. -/
def addSidecar (port : Nat) (modelTag : String) (parallel : Nat) (w : World) : World :=
  w.setProcs fun p =>
    { p with
      spawned := p.spawned + 1
      proc := setAt p.proc p.spawned { port, modelTag, parallel, alive := true } }

end World

/-- The effect of suspending on an operation. -/
def issue (t : Nat) (o : Op) (w : World) : World :=
  match o with
  | .sigterm pid => w.beginReap t pid
  | .reapPid pid => w.beginReap t pid
  | .complete _ s pid => w.record (.completing s pid)
  | .inboxGetTimed r => w.setResident r fun x => { x with getter := .waiting }
  | _ => w

/-- The effect of a reply, less what it does to the task's own record. -/
def effect (t : Nat) (o : Op) (r : Reply) (w : World) : World :=
  match o, r with
  | .mark m, .ok => w.record (.marked m)
  | .fail _ s e, .ok => w.setSlot s (Slot.fail e)
  | .monotonic, .time now => { w with clock := now }
  | .spawn s port modelTag parallel, .handle _ =>
      (w.callSpawn s port).addSidecar port modelTag parallel
  | .spawn s port _ _, _ => w.callSpawn s port
  | .upsertSlot s, .ok => w.upsertRow s
  | .markSlotEnded s reason, .ok => w.endRow s reason
  | .orphanReap _, .killed pids => pids.foldl (fun w p => w.processExit p) w
  -- a write handed to a thread is not undone by the cancellation of its await
  | .audit s _, .ok => w.upsertRow s
  | .audit s _, .cancelled => w.upsertRow s
  | .sigterm pid, .ok => (w.endReap t).markReaped pid
  | .sigterm pid, _ => (w.endReap t).breakReap pid
  | .reapPid pid, .ok => (w.endReap t).markReaped pid
  | .reapPid pid, _ => (w.endReap t).breakReap pid
  | .complete _ s pid, .completion _ => w.record (.finished s pid (w.isAlive pid))
  | .complete _ s pid, .raised _ => w.record (.finished s pid (w.isAlive pid))
  | .streamDone _ s pid, .ok => w.record (.finished s pid (w.isAlive pid))
  | .streamDone _ s pid, .timeout => w.record (.finished s pid (w.isAlive pid))
  -- the caller's `wait_for` cancels the future it gives up on
  | .future s, .timeout => w.setSlot s (Slot.fail (.cancelledError ""))
  | .inboxGet r, .item _ => w.setResident r fun x => { x with inbox := x.inbox.map List.tail }
  | .inboxGetTimed r, _ => w.setResident r fun x => { x with getter := .idle }
  | _, _ => w

/-- Operations that reap the sidecar. -/
def Op.reaps (p : Nat) : Op → Prop
  | .sigterm q | .reapPid q => q = p
  | _ => False

theorem issue_reap {o : Op} {p : Nat} (ho : o.reaps p) (t : Nat) (w : World) :
    issue t o w = w.beginReap t p := by
  cases o <;> first
    | exact ho.elim
    | (cases ho; rfl)

theorem effect_reap {o : Op} {p : Nat} (ho : o.reaps p) (t : Nat) (r : Reply) (w : World) :
    effect t o r w =
      if r = .ok then (w.endReap t).markReaped p else (w.endReap t).breakReap p := by
  cases o <;> first
    | exact ho.elim
    | (cases ho; cases r <;> rfl)

/-- A task that is resumed has no request to cancel pending any more: it was
delivered or it was spent. -/
def World.delivered (t : Nat) (o : Op) (w : World) : World :=
  if o = .entry then w.setTask t fun k => { k with started := true, cancelRequested := false }
  else if o.isAwait && w.cancelling t then
    w.setTask t fun k => { k with cancelRequested := false }
  else w

/-- The effect of a reply. -/
def answer (t : Nat) (o : Op) (r : Reply) (w : World) : World :=
  (effect t o r w).delivered t o

end Turbohaul
