/-
# `Resident` — one sidecar of several, at cap 2 and above

Each resident is driven by a task of its own, `_drive_resident`: it spawns the
sidecar, serves the slots of its inbox, and parks idle between them.  A
resident ends in one of three ways, each of which claims `torn_down` before it
reaps: the driver's `finally`, a detached `_evict_teardown`, or neither when
the other was first.

The registry lock is never waited for: no critical section under it suspends.
-/
import Turbohaul.Worker

namespace Turbohaul

open Coop

variable (C : Config)

def onResident (r : Nat) (f : Resident → Resident) : Prog Unit :=
  Co.modify (World.setResident r f)

/-- `del self._residents[tag]`, when the entry is this resident. -/
def World.deregister (r : Nat) (w : World) : World :=
  { w with registry := w.registry.filter fun e =>
      !(some e.1 = (w.resident r).modelTag && e.2 = r) }

/-- `self._residents.get(r.model_tag) is r`. -/
def World.registered (w : World) (r : Nat) : Bool :=
  match (w.resident r).modelTag with
  | some tag => w.registry.lookup tag = some r
  | none => false

/-! ## Requeueing -/

/-- `_requeue_slots_or_fail`: in order, and a slot that cannot be queued is
failed, not dropped. -/
def requeueSlotsOrFail : List Nat → Prog Unit
  | [] => pure ()
  | s :: rest => do
      match ← Co.attempt (enqueueHead s) with
      | .ok _ => requeueSlotsOrFail rest
      | .error .cancelled => do
          Co.forEach
            (fun s => failCompletionFuture .requeueCancelled s
              (.runtime "inbox-drain requeue cancelled during shutdown"))
            (s :: rest)
          .throw .cancelled
      | .error (.raised e) => do
          failCompletionFuture .requeueFailed s e
          requeueSlotsOrFail rest

/-- `_requeue_after_backoff`. -/
def requeueAfterBackoff (s : Nat) : Prog Unit := do
  match ← Co.attempt (do
    sleep
    enqueueHead s) with
  | .ok _ => pure ()
  | .error .cancelled => do
      failCompletionFuture .requeueCancelled s (.runtime "requeue cancelled during shutdown")
      .throw .cancelled
  | .error (.raised e) => failCompletionFuture .requeueFailed s e

/-! ## Eviction and reaping -/

/-- The inbox is emptied into a requeue task. -/
def World.drainInbox (r : Nat) (w : World) : World :=
  (w.setResident r fun x => { x with inbox := some [] }).fork
    (.requeueSlots ((w.resident r).inbox.getD []))

/-- `_begin_evict_locked`: the inbox goes back to the queue, the resident is
marked dead and deregistered, its teardown is detached. -/
def beginEvictLocked (r : Nat) : Prog Unit := do
  let x ← Co.gets fun w : World => w.resident r
  Co.when (!(x.inbox.getD []).isEmpty) (Co.modify (World.drainInbox r))
  Co.when (x.state ≠ .dead) do
    onResident r fun x => { x with state := .dead }
    Co.modify (World.deregister r)
    fireAndForget (.evictTeardown r)

/-- `_reap_resident_handle`. -/
def reapResidentHandle (pid : Nat) : Prog Unit := Co.suppress (sigterm pid)

/-- `_reap_booting_pid`. -/
def reapBootingPid (pid : Nat) : Prog Unit := Co.suppress (sync (.reapPid pid))

/-- Reap what a claim of `torn_down` captured. -/
def reapClaimed (handle bootingPid : Option Nat) : Prog Unit := do
  let alive ← Co.gets fun w : World => handle.any w.isAlive
  match handle, alive, bootingPid with
  | some pid, true, _ => reapResidentHandle pid
  | _, _, some pid => reapBootingPid pid
  | _, _, none => pure ()

/-- `_evict_teardown`. -/
def evictTeardown (r : Nat) : Prog Unit := do
  let x ← Co.gets fun w : World => w.resident r
  Co.when (!x.tornDown) do
    onResident r fun x => { x with tornDown := true, handle := none, bootingPid := none }
    reapClaimed x.handle x.bootingPid

/-- `_reap_dead_resident`. -/
def reapDeadResident (r : Nat) : Prog Unit := do
  let x ← Co.gets fun w : World => w.resident r
  Co.forEach
    (fun s => do
      failCompletionFuture .driverDied s
        (.runtime ("resident '" ++ x.modelTag.getD "None" ++ "' driver died"))
      onSlot s Slot.setDone)
    (x.activeSlot.toList ++ x.inflight)
  beginEvictLocked r

/-! ## Booting -/

/-- `_run_spawn_safety_gate`. -/
def runSpawnSafetyGate (tag : String) : Prog Bool := do
  let m ← readManifest? tag
  let failed ← safetyGates (m.getD {})
  pure failed.isEmpty

/-- The spawn, the health wait and the publication of the handle. -/
def bootResident (r s : Nat) (tag : String) (parallel : Nat) : Prog (Option Nat) := do
  let x ← Co.gets fun w : World => w.resident r
  let pid ← spawn s (x.port.getD 0) tag parallel
  onResident r fun x => { x with bootingPid := some pid }
  bindSidecar s pid
  let healthy ← waitHealthy pid
  if healthy then do
    onResident r fun x =>
      { x with
        handle := some pid
        bootingPid := none
        state := .active
        spawnSeq := x.spawnSeq + 1 }
    pure (some pid)
  else do
    failCompletionFuture .residentHealthTimeout s (.runtime "loading-fail-health-timeout")
    onResident r fun x => { x with bootingPid := none }
    let alive ← Co.gets fun w : World => w.isAlive pid
    Co.when alive (reapResidentHandle pid)
    pure none

/-- `_spawn_for_resident`. -/
def spawnForResident (r s : Nat) : Prog (Option Nat) := do
  let x ← Co.gets fun w : World => w.slot s
  let m ← readManifest? x.modelTag
  let ok ← (if C.safetyEnabled then runSpawnSafetyGate x.modelTag else pure true : Prog Bool)
  if ok then bootResident r s x.modelTag ((m.map Manifest.argvParallel).getD 1)
  else do
    failCompletionFuture .residentGateRefused s (.runtime "safety gates refused spawn")
    pure none

/-! ## Fan-out -/

/-- `_complete_one_slot`. -/
def completeOneSlot (s pid : Nat) : Prog Unit := do
  match ← Co.attempt (completeFn .residentFanOut s pid) with
  | .ok b => setResult s (.upstream b)
  | .error .cancelled => .throw .cancelled
  | .error (.raised e) => failCompletionFuture .completeFailed s e

/-- `_await_streamed_slot`. -/
def awaitStreamedSlot (s : Nat) : Prog Unit := do
  let x ← Co.gets fun w : World => w.slot s
  Co.when x.streamDoneEvent.isSome (streamDone .residentFanOut s (x.streamHandle.getD 0))
  setResult s .streamed

namespace World

/-- `tasks[asyncio.create_task(...)] = s`. -/
def startInFlight (r : Nat) (k : Kind) (s : Nat) (w : World) : World :=
  (w.fork k).setResident r fun x => { x with tasks := (w.taskCount, s) :: x.tasks }

/-- `t.cancel()` for every task of the fan-out. -/
def cancelInFlight (r : Nat) (w : World) : World :=
  (w.resident r).tasks.foldl (fun w e => w.cancelTask e.1) w

end World

/-- `_launch`. -/
def launch (r pid s : Nat) : Prog Unit := do
  onSlot s fun x => { x with streamHandle := some pid }
  onResident r fun x => { x with inflight := x.inflight ++ [s] }
  let x ← Co.gets fun w : World => w.slot s
  Co.when x.isStreaming (handToRoute s pid)
  Co.modify
    (World.startInFlight r (if x.isStreaming then .awaitStreamed s else .completeOne s pid) s)

/-- `r.inbox.get_nowait()`, on an inbox that is not empty. -/
def inboxGetNowait (r s : Nat) : Prog Unit := do
  onResident r fun x => { x with inbox := x.inbox.map List.tail }
  mark (.fromInbox s)

/-- `_admit_from_inbox`. -/
def admitFromInbox (r pid n : Nat) : Prog Unit :=
  Co.whileTrue do
    let x ← Co.gets fun w : World => w.resident r
    match x.inbox.getD [] with
    | extra :: _ =>
        if x.tasks.length < n then do
          inboxGetNowait r extra
          let y ← Co.gets fun w : World => w.slot extra
          if y.isEvicted then
            failCompletionFuture .fanOutEvicted extra
              (.slotEvicted ("slot slot-" ++ toString extra ++ " evicted"))
          else launch r pid extra
          pure true
        else pure false
    | [] => pure false

/-- One finished task of the fan-out. -/
def settleFanOut (r t : Nat) : Prog Unit := do
  let w ← Co.gets fun w : World => ((w.resident r).tasks.lookup t, (w.task t).outcome)
  match w.1 with
  | none => pure ()
  | some s => do
      onResident r fun x =>
        { x with tasks := x.tasks.filter fun e => e.1 ≠ t, inflight := x.inflight.erase s }
      match w.2 with
      | some (.raised e) => failCompletionFuture .fanOutFailed s e
      | some .cancelled => .throw .cancelled
      | _ => pure ()

/-- The `finally` of the fan-out. -/
def interruptFanOut (r : Nat) : Prog Unit := do
  let x ← Co.gets fun w : World => w.resident r
  Co.modify (World.cancelInFlight r)
  Co.forEach
    (fun e => failCompletionFuture .fanOutInterrupted e.2
      (.runtime ("resident '" ++ x.modelTag.getD "None" ++ "' fan-out interrupted")))
    x.tasks
  onResident r fun x => { x with inflight := [], tasks := [] }

/-- `_fan_out_on_resident`. -/
def fanOutOnResident (r anchor pid n : Nat) : Prog Unit := do
  onResident r fun x => { x with inflight := [], tasks := [] }
  Co.tryFinally
    (do
      launch r pid anchor
      admitFromInbox r pid n
      Co.whileTrue do
        let x ← Co.gets fun w : World => w.resident r
        if x.tasks.isEmpty then pure false
        else do
          let done ← waitFirst (x.tasks.map Prod.fst) false
          Co.forEach (settleFanOut r) done
          admitFromInbox r pid n
          pure true)
    (interruptFanOut r)

/-! ## Serving -/

/-- The follow-up's mode is decided by its flag and its events. -/
def completeResidentFollowUp (r matched pid : Nat) : Prog Unit := do
  transition matched .activeMatch
  transition matched .active
  let y ← Co.gets fun w : World => w.slot matched
  onResident r fun x => { x with latestKeepAliveS := y.clientMeta.keepAliveS }
  if y.isStreaming then do
    handToRoute matched pid
    streamDone .residentFollowUp matched pid
    setResult matched .streamed
  else do
    let b ← completeFn .residentFollowUp matched pid
    setResult matched (.upstream b)

/-- `r.grace.restart_for_followup()`. -/
def restartResidentGrace (r : Nat) : Prog Bool := do
  let x ← Co.gets fun w : World => w.resident r
  if C.maxGraceExtensions ≤ x.grace.extensionCount then pure false
  else do
    let now ← monotonic
    onResident r fun x => { x with grace := x.grace.restart now }
    pure true

/-- The window's deadline, moved when the timer was restarted. -/
def newDeadline (restarted : Bool) (deadline : Nat) : Prog Nat := do
  if restarted then do
    let now ← monotonic
    pure (now + 1000 * C.graceSeconds)
  else pure deadline

/-- One follow-up on the resident: the new deadline of the window. -/
def residentFollowUp (r s matched pid deadline : Nat) : Prog Nat := do
  bindSidecar matched pid
  onResident r fun x => { x with activeSlot := some matched }
  Co.tryExcept (completeResidentFollowUp r matched pid) fun e =>
    failCompletionFuture .residentFollowUpFailed matched e
  transition matched .grace
  let restarted ← restartResidentGrace C r
  let deadline ← newDeadline C restarted deadline
  transition matched .popped
  markSlotEnded matched "active_match_completed"
  onResident r fun x => { x with activeSlot := some s }
  pure deadline

/-- The resident's grace window. -/
def residentGrace (r s pid : Nat) : Prog Unit := do
  let x ← Co.gets fun w : World => w.slot s
  let start ← monotonic
  .loop (start + 1000 * C.graceSeconds) fun deadline => do
    let now ← monotonic
    let stop ← Co.gets fun w : World => w.stopEvent
    if now < deadline && !stop then do
      match ← popMatchedThread x.threadId x.modelTag with
      | some matched => do
          let deadline ← residentFollowUp C r s matched pid deadline
          pure (.inl deadline)
      | none => do
          sleep
          pure (.inl deadline)
    else pure (.inr ())

/-- The three modes of serving the anchor of a resident. -/
def serveResidentAnchor (r s pid : Nat) : Prog Unit := do
  let w ← Co.gets fun w : World => (w.nParallel pid, w.slot s)
  if 1 < w.1 then fanOutOnResident r s pid w.1
  else if w.2.isStreaming then do
    handToRoute s pid
    streamDone .resident s pid
    setResult s .streamed
  else do
    let b ← completeFn .resident s pid
    setResult s (.upstream b)

/-- `_serve_on_resident`. -/
def serveOnResident (r s pid : Nat) : Prog Unit := do
  let x ← Co.gets fun w : World => w.slot s
  Co.when (x.state = .staged) (transition s .loading)
  transition s .active
  auditAsync s "active"
  onResident r fun y => { y with latestKeepAliveS := x.clientMeta.keepAliveS }
  serveResidentAnchor r s pid
  transition s .grace
  let now ← monotonic
  onResident r fun y => { y with grace := y.grace.start now x.threadId x.modelTag }
  auditAsync s "grace_enter"
  residentGrace C r s pid
  transition s .popped
  let y ← Co.gets fun w : World => w.resident r
  Co.when (!y.inflight.isEmpty)
    (Co.raise (.assertion "Design #1 invariant: riders drain before GRACE exit"))

/-! ## The driver -/

/-- The resident's idle timeout when no `keep_alive` overrides it. -/
def perModelIdle (r : Resident) : Nat :=
  if r.sleepIdleSeconds = -1 then keepAliveMaxS
  else if 0 < r.sleepIdleSeconds then r.sleepIdleSeconds.toNat
  else C.idleHotLoadSeconds

/-- The driver's local `slot`. -/
def takeInHand (r s : Nat) : Prog Unit := onResident r fun x => { x with hand := some s }

/-- `slot = await r.inbox.get()`, which suspends only on an empty inbox. -/
def firstSlot (r : Nat) : Prog Nat := do
  let x ← Co.gets fun w : World => w.resident r
  match x.inbox.getD [] with
  | s :: _ => do
      inboxGetNowait r s
      takeInHand r s
      pure s
  | [] => do
      let s ← (do (← Co.await (.inboxGet r)).value fun | .item s => some s | _ => none : Prog Nat)
      mark (.fromInbox s)
      takeInHand r s
      pure s

/-- `await asyncio.wait_for(r.inbox.get(), timeout=idle_window)`: `none` on
its `TimeoutError`. -/
def nextSlot (r : Nat) : Prog (Option Nat) := do
  match ← Co.await (.inboxGetTimed r) with
  | .item s => do
      mark (.fromInbox s)
      takeInHand r s
      pure (some s)
  | .cancelled => .throw .cancelled
  | _ => pure none

/-- The idle timeout fired: evict, unless a slot came in meanwhile. -/
def idleTimeout (r : Nat) : Prog Bool := do
  let x ← Co.gets fun w : World => w.resident r
  match x.inbox.getD [] with
  | [] =>
      if x.state = .idleEvictable then do
        beginEvictLocked r
        pure false
      else pure true
  | s :: _ => do
      inboxGetNowait r s
      takeInHand r s
      pure true

/-- Between two slots: parked idle, or evicted at once when idle is off. -/
def parkResident (r idle : Nat) : Prog Bool := do
  let x ← Co.gets fun w : World => w.resident r
  let idleWindow := idleWindowSeconds x.latestKeepAliveS idle
  if x.state = .dead then pure false
  else do
    let now ← monotonic
    onResident r fun x => { x with activeSlot := none, lastActiveMonotonic := now }
    if idleWindow = 0 then do
      beginEvictLocked r
      pure false
    else do
      let now ← monotonic
      onResident r fun x =>
        { x with state := .idleEvictable, idleExpiresAt := some (now + 1000 * idleWindow) }
      match ← nextSlot r with
      | some _ => pure true
      | none => idleTimeout r

/-- One turn of the driver's loop. -/
def driveTurn (r pid idle : Nat) : Prog Bool := do
  let w ← Co.gets fun w : World => (w.stopEvent, w.resident r)
  match w.1, w.2.hand with
  | false, some s =>
      if w.2.state = .dead then pure false
      else do
        let now ← monotonic
        onResident r fun x =>
          { x with state := .active, activeSlot := some s, lastActiveMonotonic := now }
        serveOnResident C r s pid
        parkResident r idle
  | _, _ => pure false

/-- The `try` of `_drive_resident`. -/
def driveBody (r : Nat) : Prog Unit := do
  let s ← firstSlot r
  match ← spawnForResident C r s with
  | none => pure ()
  | some pid => do
      let x ← Co.gets fun w : World => w.resident r
      Co.whileTrue (driveTurn C r pid (perModelIdle C x))

/-- The claim of the driver's `finally`, under the lock. -/
def claimTeardown (r : Nat) : Prog Unit := do
  onResident r fun x =>
    { x with
      tornDown := true
      handle := none
      bootingPid := none
      pendingSlots := x.inbox.getD []
      inbox := x.inbox.map fun _ => [] }
  let live ← Co.gets fun w : World => w.registered r
  Co.when live do
    onResident r fun x => { x with state := .dead }
    Co.modify (World.deregister r)

/-- The `finally` of `_drive_resident`. -/
def driveFinally (r : Nat) : Prog Unit := do
  let x ← Co.gets fun w : World => w.resident r
  Co.when (!x.tornDown) do
    claimTeardown r
    reapClaimed x.handle x.bootingPid
    let y ← Co.gets fun w : World => w.resident r
    onResident r fun x => { x with pendingSlots := [] }
    requeueSlotsOrFail y.pendingSlots
    let y ← Co.gets fun w : World => w.resident r
    match y.hand with
    | some s =>
        Co.when (y.activeSlot ≠ some s && s ∉ y.inflight)
          (failCompletionFuture .exitedBeforeServe s
            (.runtime ("resident '" ++ y.modelTag.getD "None" ++ "' driver exited before serve")))
    | none => pure ()

/-- `_drive_resident`. -/
def driveResident (r : Nat) : Prog Unit := Co.tryFinally (driveBody C r) (driveFinally r)

end Turbohaul
