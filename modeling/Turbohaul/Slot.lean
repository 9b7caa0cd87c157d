/-
# `Slot` — request slots, their states, and the exceptions that end them

`slot.py` and `fsm.py`.  A slot is one queued or active request.  Slots are
shared by reference in the source; here a slot is named by its id and its
fields live in the world, so that a coroutine that holds a slot holds the id.

The three events of a slot (`stream_ready_event`, `stream_done_event`,
`disconnect_event`) are `none` while the attribute is `None`, and
`some set?` once an `asyncio.Event` is attached.
-/
import Mathlib.Data.List.Basic

namespace Turbohaul

/-- States of the slot state machine. -/
inductive SlotState where
  | received
  | acceptBuffer
  | staged
  | loading
  | loadingFail
  | active
  | grace
  | graceBusy
  | activeMatch
  | popped
  | idleHot
  | cold
deriving DecidableEq, Repr

open SlotState in
/-- `LEGAL_TRANSITIONS`: the states each state may move to. -/
def legalTransitions : SlotState → List SlotState
  | received => [acceptBuffer, staged]
  | acceptBuffer => [staged, cold]
  | staged => [loading, cold, activeMatch]
  | loading => [active, loadingFail, cold]
  | loadingFail => [staged, popped]
  | active => [grace, activeMatch]
  | grace => [graceBusy, popped, active]
  | graceBusy => [grace, popped]
  | activeMatch => [active]
  | popped => [idleHot, staged, cold]
  | idleHot => [active, popped, cold]
  | cold => []

/-- The value of the enumeration member. -/
def SlotState.value : SlotState → String
  | .received => "RECEIVED"
  | .acceptBuffer => "ACCEPT_BUFFER"
  | .staged => "STAGED"
  | .loading => "LOADING"
  | .loadingFail => "LOADING_FAIL"
  | .active => "ACTIVE"
  | .grace => "GRACE"
  | .graceBusy => "GRACE_BUSY"
  | .activeMatch => "ACTIVE_MATCH"
  | .popped => "POPPED"
  | .idleHot => "IDLE_HOT"
  | .cold => "COLD"

/-- `is_terminal`: no outgoing transition. -/
def isTerminal (s : SlotState) : Bool := (legalTransitions s).isEmpty

/-- The walk of `_force_cold`: at most four hops, each to `COLD` if it is
legal and else to the first of `POPPED`, `GRACE`, `LOADING_FAIL` that is, with
a direct set where none is. -/
def walkToCold : Nat → SlotState → SlotState
  | 0, s => s
  | n + 1, s =>
      if s = .cold then s
      else if .cold ∈ legalTransitions s then .cold
      else if .popped ∈ legalTransitions s then walkToCold n .popped
      else if .grace ∈ legalTransitions s then walkToCold n .grace
      else if .loadingFail ∈ legalTransitions s then walkToCold n .loadingFail
      else .cold

/-- The walk parks the slot whatever state it starts from. -/
theorem walkToCold_eq (s : SlotState) : walkToCold 4 s = .cold := by
  cases s <;> rfl

/-- What a completion returns: the upstream's body, or the marker
`{"_streamed": True}` of a slot whose route streamed it. -/
inductive Completion where
  | upstream (body : Nat)
  | streamed
deriving DecidableEq, Repr

/-- Exceptions.  `injected n` is an exception raised by an operation the
manager calls (a database, a probe, a sidecar). -/
inductive Err where
  | invalidTransition (slot : Nat) (source target : SlotState)
  | slotEvicted (msg : String)
  | queueClosed (msg : String)
  | queueFull (msg : String)
  | runtime (msg : String)
  | cancelledError (msg : String)
  | assertion (msg : String)
  | fileNotFound
  | timeout
  | injected (n : Nat)
deriving DecidableEq, Repr

/-- A `completion_future`: `absent` when the slot has none. -/
inductive Future where
  | absent
  | pending
  | result (c : Completion)
  | failed (e : Err)
deriving DecidableEq, Repr

/-- `future is None or future.done()`: nobody waits for it any more. -/
def Future.settled : Future → Bool
  | .pending => false
  | _ => true

/-- The entries of `client_meta` that the manager reads. -/
structure ClientMeta where
  stream : Bool := false
  keepAliveS : Option Int := none
deriving DecidableEq, Repr

/-- `Slot`. -/
structure Slot where
  modelTag : String := ""
  state : SlotState := .received
  threadId : String := ""
  port : Option Nat := none
  pid : Option Nat := none
  extensionCount : Nat := 0
  clientMeta : ClientMeta := {}
  createdAt : Nat := 0
  completionFuture : Future := .absent
  streamReadyEvent : Option Bool := none
  streamDoneEvent : Option Bool := none
  streamHandle : Option Nat := none
  disconnectEvent : Option Bool := none
  isEvicted : Bool := false
  dispatchDeferCount : Nat := 0
deriving DecidableEq, Repr

namespace Slot

/-- `transition`: validate, then apply. -/
def transition (id : Nat) (target : SlotState) (s : Slot) : Except Err Slot :=
  if target ∈ legalTransitions s.state then .ok { s with state := target }
  else .error (.invalidTransition id s.state target)

/-- The client has left. -/
def disconnected (s : Slot) : Bool := s.disconnectEvent = some true

/-- The flag and both events: the test of the serial anchor and of the
residents' serve paths. -/
def isStreaming (s : Slot) : Bool :=
  s.clientMeta.stream && s.streamReadyEvent.isSome && s.streamDoneEvent.isSome

/-- `_fail_completion_future`: a pending future gets the exception, any other
is left alone. -/
def fail (e : Err) (s : Slot) : Slot :=
  if s.completionFuture = .pending then { s with completionFuture := .failed e } else s

/-- `set_result` behind the usual `not done()` guard. -/
def resolve (c : Completion) (s : Slot) : Slot :=
  if s.completionFuture = .pending then { s with completionFuture := .result c } else s

/-- `stream_ready_event.set()` when there is one. -/
def setReady (s : Slot) : Slot :=
  { s with streamReadyEvent := s.streamReadyEvent.map fun _ => true }

/-- `stream_done_event.set()` when there is one. -/
def setDone (s : Slot) : Slot :=
  { s with streamDoneEvent := s.streamDoneEvent.map fun _ => true }

/-- A future that is settled is left alone. -/
theorem fail_of_settled (e : Err) {s : Slot} (h : s.completionFuture.settled = true) :
    s.fail e = s := by
  unfold fail
  split
  · next hp => rw [hp] at h; cases h
  · rfl

theorem resolve_of_settled (c : Completion) {s : Slot} (h : s.completionFuture.settled = true) :
    s.resolve c = s := by
  unfold resolve
  split
  · next hp => rw [hp] at h; cases h
  · rfl

end Slot

end Turbohaul
