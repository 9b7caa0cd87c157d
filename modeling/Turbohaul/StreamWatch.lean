/-
# `StreamWatch` — a streamed chat request and the watcher of its client

`_openai_chat_completions_stream` from the point where its slot is queued.
Two tasks share the request: `watch_disconnect`, which polls the connection
every two seconds and is the only writer of the slot's `disconnect_event`, and
`stream_gen`, the generator the server iterates, whose `finally` cancels the
watcher.  The manager, the server and the client are the environment: the slot
is popped, pushed back and announced, the client leaves, and the server cancels
the generator once the client has left.

A request to cancel stays pending after it is delivered, as in the cancel
scopes the server runs the generator in.  The bytes piped from the sidecar are
left out: the relay is one operation.
-/
import Turbohaul.Coop.Keeps
import Turbohaul.Slot

namespace Turbohaul.Stream

open Coop

/-- Exceptions, by the handler of `stream_gen` that takes them. -/
inductive Err where
  | waitTimeout
  | network (text : String)
  | upstreamTimeout (text : String)
  | other (text : String)
deriving DecidableEq, Repr

/-- The frames `stream_gen` makes itself. -/
inductive Frame where
  | keepAlive
  | error (kind message : String)
  | done
deriving DecidableEq, Repr

/-- The two tasks of the request. -/
inductive Kind where
  | watcher
  | body
deriving DecidableEq, Repr

/-- What the event loop knows of a task. -/
structure TaskState where
  started : Bool := false
  cancelRequested : Bool := false
  ended : Bool := false
deriving DecidableEq, Repr

/-- The slot as `submit_for_streaming` leaves it. -/
def submitted : Slot :=
  { state := .staged
    clientMeta := { stream := true }
    completionFuture := .pending
    disconnectEvent := some false
    streamReadyEvent := some false
    streamDoneEvent := some false }

/-- The state the request's tasks share with the manager and the server.
`seen` remembers that a poll has found the client gone. -/
structure World where
  clock : Nat := 0
  gone : Bool := false
  slot : Slot := submitted
  queued : Bool := true
  watcher : TaskState := {}
  body : TaskState := {}
  seen : Bool := false
deriving DecidableEq, Repr

/-- The operations. -/
inductive Op where
  | entry
  | isDisconnected
  | sleep
  | time
  | readyDone
  | waitReady
  | slotReadyTimeout
  | joinReady
  | yieldFrame (f : Frame)
  | upstream (pid : Nat)
  | joinWatcher
deriving DecidableEq, Repr

/-- The replies. -/
inductive Reply where
  | ok
  | bool (b : Bool)
  | time (now : Nat)
  | raised (e : Err)
  | cancelled
deriving DecidableEq, Repr

abbrev sig : Sig where
  World := World
  Op := Op
  Reply := Reply
  Err := Err

abbrev Prog (α : Type) := Co sig α

namespace World

def setSlot (f : Slot → Slot) (w : World) : World := { w with slot := f w.slot }

/-- `disconnect_event.set()`. -/
def setDisconnect : World → World :=
  setSlot fun x => { x with disconnectEvent := some true }

/-- `watch_task.cancel()`. -/
def cancelWatcher (w : World) : World :=
  { w with watcher := { w.watcher with cancelRequested := true } }

def task (t : Nat) (w : World) : TaskState := if t = 0 then w.watcher else w.body

def setTask (t : Nat) (f : TaskState → TaskState) (w : World) : World :=
  if t = 0 then { w with watcher := f w.watcher } else { w with body := f w.body }

/-- The slot has reached a sidecar: `stream_ready_event` is set. -/
def announced (w : World) : Prop := w.slot.streamReadyEvent = some true

/-- The cleanup of `stream_gen` has run: it alone sets `stream_done_event`. -/
def cleanedUp (w : World) : Prop := w.slot.streamDoneEvent = some true

instance (w : World) : Decidable w.announced := inferInstanceAs (Decidable (_ = _))

instance (w : World) : Decidable w.cleanedUp := inferInstanceAs (Decidable (_ = _))

end World

/-! ## The programs -/

/-- An awaited operation. -/
def sync (o : Op) : Prog Reply := do
  match ← (.await o : Prog Reply) with
  | .raised e => Co.raise e
  | .cancelled => .throw .cancelled
  | r => pure r

def isDisconnected : Prog Bool := do
  match ← sync .isDisconnected with
  | .bool b => pure b
  | _ => pure false

def yieldFrame (f : Frame) : Prog Unit := do
  let _ ← sync (.yieldFrame f)
  pure ()

/-- `loop.time()`, in milliseconds. -/
def loopTime : Prog Nat := do
  match ← (.ask .time : Prog Reply) with
  | .time now => pure now
  | _ => pure 0

/-- `ready_task.done()`. -/
def readyDone : Prog Bool := do
  match ← (.ask .readyDone : Prog Reply) with
  | .bool b => pure b
  | _ => pure false

/-- `watch_disconnect`. -/
def watchDisconnect : Prog Unit :=
  Co.whileTrue do
    let w ← Co.gets fun w : World => w
    if w.slot.disconnectEvent = some true then pure false
    else do
      let gone ← Co.tryExcept isDisconnected fun _ => pure false
      if gone then do
        Co.modify World.setDisconnect
        pure false
      else do
        let _ ← sync .sleep
        pure true

/-- `SLOT_READY_TIMEOUT_S`. -/
def slotReadyTimeoutS : Nat := 7200

/-- The error frame an exception ends the stream with. -/
def Err.frame : Err → Frame
  | .network text => .error "sidecar_unavailable" text
  | .upstreamTimeout text => .error "sidecar_timeout" text
  | .other text => .error "internal_error" text
  | .waitTimeout => .error "internal_error" ""

/-- The frames a stream ends with when it fails. -/
def endWith (f : Frame) : Prog Unit := do
  yieldFrame f
  yieldFrame .done

/-- The slot has not reached a sidecar in time. -/
def giveUp : Prog Unit := do
  let _ ← (.ask .slotReadyTimeout : Prog Reply)
  Co.suppressAll do
    let _ ← sync .joinReady
    pure ()
  endWith (.error "slot_ready_timeout"
    ("Slot did not reach ACTIVE within " ++ toString slotReadyTimeoutS ++ "s"))

/-- One heartbeat of the wait for the slot. -/
def heartbeat : Prog Unit :=
  Co.tryExcept
    (do
      let _ ← sync .waitReady
      pure ())
    fun
      | .waitTimeout => do
          let done ← readyDone
          Co.when (!done) (yieldFrame .keepAlive)
      | e => Co.raise e

/-- The wait for the slot: whether it is ready. -/
def awaitReady : Prog Bool := do
  let start ← loopTime
  let deadline := start + 1000 * slotReadyTimeoutS
  .loop () fun _ => do
    let done ← readyDone
    if done then pure (.inr true)
    else do
      let now ← loopTime
      if deadline ≤ now then do
        giveUp
        pure (.inr false)
      else do
        heartbeat
        pure (.inl ())

/-- The stream of a slot that is ready. -/
def relay : Prog Unit := do
  let w ← Co.gets fun w : World => w
  match w.slot.streamHandle with
  | none => endWith (.error "no_sidecar_handle" "Slot reached ACTIVE but stream_handle is None")
  | some pid => do
      let _ ← sync (.upstream pid)
      pure ()

/-- The `finally` of `stream_gen`. -/
def cleanUp : Prog Unit := do
  Co.modify World.cancelWatcher
  Co.suppressAll do
    let _ ← sync .joinWatcher
    pure ()
  Co.modify (World.setSlot Slot.setDone)

/-- `stream_gen`. -/
def streamGen : Prog Unit :=
  Co.tryFinally
    (Co.tryExcept
      (do
        let ready ← awaitReady
        Co.when ready relay)
      fun e => endWith e.frame)
    cleanUp

/-! ## The system -/

/-- A coroutine that is cancelled before its first step does not run. -/
def program (k : Kind) : Reply → Prog Unit
  | .cancelled => .throw .cancelled
  | _ =>
      match k with
      | .watcher => watchDisconnect
      | .body => streamGen

/-- The replies an operation of task `t` may get. -/
def allowed (t : Nat) (o : Op) (r : Reply) (w : World) : Bool :=
  match o, r with
  | .entry, .ok => !(w.task t).cancelRequested
  | .isDisconnected, .bool b => b == w.gone
  | .isDisconnected, .raised _ => true
  | .sleep, .ok => true
  | .time, .time now => now == w.clock
  -- the task that waits for the event runs some time after it is set
  | .readyDone, .bool b => !b || decide w.announced
  | .waitReady, .ok => decide w.announced
  | .waitReady, .raised .waitTimeout => true
  | .slotReadyTimeout, .ok => true
  | .joinReady, .ok => true
  | .yieldFrame _, .ok => true
  | .upstream _, .ok => true
  | .upstream _, .raised _ => true
  | .joinWatcher, .ok => w.watcher.ended
  | .time, .cancelled | .readyDone, .cancelled | .slotReadyTimeout, .cancelled => false
  | _, .cancelled => (w.task t).cancelRequested
  | _, _ => false

/-- The effect of a reply. -/
def answer (t : Nat) (o : Op) (r : Reply) (w : World) : World :=
  match o, r with
  | .entry, _ => w.setTask t fun k => { k with started := true }
  | .isDisconnected, .bool b => { w with seen := w.seen || b }
  | _, _ => w

/-- What the manager, the server and the client do. -/
inductive Env where
  | tick (ms : Nat)
  | leave
  | cancelBody
  | pop
  | pushBack
  | announce (handle : Option Nat)
deriving DecidableEq, Repr

/-- A step of the environment.  `pop` is `_pop_first_non_evicted_from`, which
flags a slot whose client has left; a slot that a fan-out or a backoff took out
goes back to the queue; a slot is announced once it is out of the queue, and
does not go back. -/
def env : Env → World → Option World
  | .tick ms, w => some { w with clock := w.clock + ms }
  | .leave, w => some { w with gone := true }
  | .cancelBody, w =>
      if w.gone then some { w with body := { w.body with cancelRequested := true } } else none
  | .pop, w =>
      if w.queued then
        some { w with
          queued := false
          slot := if w.slot.disconnected then { w.slot with isEvicted := true } else w.slot }
      else none
  | .pushBack, w =>
      if w.queued ∨ w.announced then none else some { w with queued := true }
  | .announce handle, w =>
      if w.queued then none
      else some (w.setSlot fun x => { x with streamHandle := handle }.setReady)

/-- The two tasks and their surroundings. -/
def system : Sys sig where
  Kind := Kind
  Env := Env
  allowed := allowed
  issue := fun _ _ w => w
  answer := answer
  fresh := fun w t =>
    match t with
    | 0 => if w.watcher.started then none else some .watcher
    | 1 => if w.body.started then none else some .body
    | _ => none
  entry := .entry
  body := fun _ k r => program k r
  finished := fun t _ w => w.setTask t fun k => { k with ended := true }
  env := env

/-- Reachability from a request whose slot has just been queued. -/
abbrev Reachable (A : Admit system) : Loop sig → Prop := Loop.Reach A { world := {} }

end Turbohaul.Stream
