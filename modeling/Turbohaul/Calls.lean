/-
# `Calls` — the statements the coroutines are written in

Each operation of `Interface` as a statement: it returns the value of its
reply, raises what the reply raises, and lets a cancellation through.  Then
the assignments to slots, handles and holders that `manager.py` wraps in
methods of their own (`_set_active_handle` and its siblings).
-/
import Turbohaul.Interface

namespace Turbohaul

open Coop

/-- The value of a reply, or what it throws. -/
def Reply.value {α : Type} [Inhabited α] (f : Reply → Option α) : Reply → Prog α
  | .raised e => .throw (.raised e)
  | .cancelled => .throw .cancelled
  | r => .pure ((f r).getD default)

/-- A call that returns nothing. -/
def run (o : Op) : Prog Unit := do
  match ← Co.ask o with
  | .raised e => Co.raise e
  | _ => pure ()

/-- An `await` that returns nothing; a `wait_for` may time out. -/
def sync (o : Op) : Prog Unit := do
  match ← Co.await o with
  | .raised e => Co.raise e
  | .cancelled => .throw .cancelled
  | .timeout => Co.raise .timeout
  | _ => pure ()

def mark (m : Mark) : Prog Unit := run (.mark m)

/-- What leaves `m` other than its value is observed on its way. -/
def observed {α : Type} (k : Mark) (m : Prog α) : Prog α := do
  match ← Co.attempt m with
  | .ok a => pure a
  | .error e => do
      mark k
      .throw e

/-- An `assert` that fails. -/
def assertionError {α : Type} (msg : String) : Prog α := do
  mark .asserting
  Co.raise (.assertion msg)

/-- `time.monotonic()`. -/
def monotonic : Prog Nat := do
  (← Co.ask .monotonic).value fun | .time now => some now | _ => none

/-- `read_manifest`. -/
def readManifest (modelTag : String) : Prog Manifest := do
  match ← Co.ask (.readManifest modelTag) with
  | .manifest m => pure m
  | .raised e => Co.raise e
  | _ => pure {}

/-- `read_manifest` behind `except FileNotFoundError`. -/
def readManifest? (modelTag : String) : Prog (Option Manifest) := do
  match ← Co.ask (.readManifest modelTag) with
  | .manifest m => pure (some m)
  | .raised .fileNotFound => pure none
  | .raised e => Co.raise e
  | _ => pure none

/-- `_vram_budget(...)[0]`. -/
def vramBudget (splitMode : String) (mainGpu : Nat) : Prog (Option Nat) := do
  (← Co.ask (.vramBudget splitMode mainGpu)).value fun | .mib x => some x | _ => none

/-- `self._spawn(...)`: the handle of the new sidecar. -/
def spawn (slot port : Nat) (modelTag : String) (parallel : Nat) : Prog Nat := do
  (← Co.ask (.spawn slot port modelTag parallel)).value fun | .handle p => some p | _ => none

/-- `await asyncio.to_thread(all_safety_gates, ...)`: the gates that refused. -/
def safetyGates (m : Manifest) : Prog (List String) := do
  (← Co.await (.safetyGates m)).value fun | .gates xs => some xs | _ => none

/-- `await self._wait_healthy(...)`. -/
def waitHealthy (pid : Nat) : Prog Bool := do
  (← Co.await (.waitHealthy pid)).value fun | .healthy b => some b | _ => none

/-- `await self._complete_fn(slot, handle)`. -/
def completeFn (site : Site) (slot pid : Nat) : Prog Nat := do
  (← Co.await (.complete site slot pid)).value fun | .completion b => some b | _ => none

/-- `await asyncio.wait(tasks, return_when=FIRST_COMPLETED)`. -/
def waitFirst (tasks : List Nat) (poll : Bool) : Prog (List Nat) := do
  (← Co.await (.waitFirst tasks poll)).value fun | .done ds => some ds | _ => none

/-- `await asyncio.sleep(...)`. -/
def sleep : Prog Unit := sync .sleep

/-- `_audit_async`. -/
def auditAsync (slot : Nat) (event : String) : Prog Unit := sync (.audit slot event)

/-- `_audit_event_only_async`. -/
def auditEventOnlyAsync (slot : Option Nat) (event : String) : Prog Unit :=
  sync (.auditEventOnly slot event)

/-- `mark_slot_ended` on a connection opened and closed for it. -/
def markSlotEnded (slot : Nat) (reason : String) : Prog Unit :=
  run (.markSlotEnded slot reason)

/-- `await self._sigterm(handle, ...)`. -/
def sigterm (pid : Nat) : Prog Unit := sync (.sigterm pid)

/-- `await asyncio.wait_for(slot.stream_done_event.wait(), timeout=3600.0)`
with its `except TimeoutError`. -/
def streamDone (site : Site) (slot pid : Nat) : Prog Unit :=
  Co.tryExcept (sync (.streamDone site slot pid)) fun
    | .timeout => pure ()
    | e => Co.raise e

/-- `asyncio.create_task`. -/
def createTask (k : Kind) : Prog Nat :=
  .act fun w => (.ok w.taskCount, w.fork k)

/-- A task whose handle is dropped. -/
def fireAndForget (k : Kind) : Prog Unit := Co.modify (World.fork k)

/-! ## Slots -/

def onSlot (s : Nat) (f : Slot → Slot) : Prog Unit := Co.modify (World.setSlot s f)

/-- `transition(slot, target)`. -/
def transition (s : Nat) (target : SlotState) : Prog Unit :=
  Co.update fun w =>
    match (w.slot s).transition s target with
    | .ok x => .ok (w.setSlot s fun _ => x)
    | .error e => .error e

/-- `_fail_completion_future(slot, e)`. -/
def failCompletionFuture (site : FailSite) (s : Nat) (e : Err) : Prog Unit :=
  run (.fail site s e)

/-- `completion_future.set_result(...)` behind its guard. -/
def setResult (s : Nat) (c : Completion) : Prog Unit := onSlot s (Slot.resolve c)

/-- `slot.stream_handle = handle; slot.stream_ready_event.set()`. -/
def handToRoute (s pid : Nat) : Prog Unit :=
  Co.modify fun w =>
    (w.setSlot s fun x => { x with streamHandle := some pid }.setReady).record (.dispatched s pid)

/-! ## The active handle, the active slot and the idle holder

Each writes the manager's attribute and mirrors it onto the resident of the
registry key `__phase0_singleton__`, which is resident `0`. -/

/-- `_SINGLETON_RESIDENT_KEY`. -/
def singletonResidentKey : String := "__phase0_singleton__"

namespace World

/-- `_active_resident`. -/
def activeResident (w : World) : Option Nat := w.registry.lookup singletonResidentKey

/-- Mirror an assignment onto the active resident. -/
def mirror (f : Resident → Resident) (w : World) : World :=
  match w.activeResident with
  | some r => w.setResident r f
  | none => w

/-- `_set_active_handle`. -/
def setActiveHandle (h : Option Nat) (w : World) : World :=
  (w.setHold fun x => { x with activeHandle := h }).mirror fun r => { r with handle := h }

/-- `_set_active_slot`. -/
def setActiveSlot (s : Option Nat) (w : World) : World :=
  (w.setHold fun x => { x with activeSlot := s }).mirror fun r => { r with activeSlot := s }

/-- `_set_idle_holder`. -/
def setIdleHolder (h : Option Nat) (tag : Option String) (expires : Option Nat) (w : World) :
    World :=
  (w.setHold fun x =>
    { x with idleHandle := h, idleModelTag := tag, idleExpiresAt := expires }).mirror fun r =>
      { r with idleHandle := h, idleModelTag := tag, idleExpiresAt := expires }

/-- `_clear_idle_holder`. -/
def clearIdleHolder (w : World) : World := w.setIdleHolder none none none

/-- `_set_idle_expires_at`. -/
def setIdleExpiresAt (expires : Option Nat) (w : World) : World :=
  (w.setHold fun x => { x with idleExpiresAt := expires }).mirror fun r =>
    { r with idleExpiresAt := expires }

/-- `_set_latest_keep_alive`. -/
def setLatestKeepAlive (v : Option Int) (w : World) : World :=
  (w.setHold fun x => { x with latestKeepAliveS := v }).mirror fun r =>
    { r with latestKeepAliveS := v }

/-- `_bump_spawn_seq`. -/
def bumpSpawnSeq (w : World) : World :=
  (w.setHold fun x => { x with spawnSeq := x.spawnSeq + 1 }).mirror fun r =>
    { r with spawnSeq := w.hold.spawnSeq + 1 }

end World

end Turbohaul
