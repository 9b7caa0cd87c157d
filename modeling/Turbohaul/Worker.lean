/-
# `Worker` — the serial worker, at cap 1

`worker_loop` and `_process_slot`, cut into the phases its comments name.

    acquire     inherit the warm sidecar, or swap it out and spawn
    serve       fan out, wait for the route, or complete
    grace       follow-ups of the same thread on the same sidecar
    idle        hand the sidecar to the idle holder, or tear it down
    finally     whatever handle is still active and not the holder's is reaped

An early `return` of the source is the `none` of `acquire` or the end of a
branch.
-/
import Turbohaul.FanOut

namespace Turbohaul

open Coop

variable (C : Config)

/-- `_alloc_port`: the lowest port of the window that no resident holds. -/
def allocPort (w : World) : Nat :=
  let held := w.registry.filterMap fun e => (w.resident e.2).port
  ((List.range' C.defaultPortBase 100).find? fun p => p ∉ held).getD C.defaultPortBase

/-! ## Acquiring a sidecar -/

/-- The slot runs on this sidecar. -/
def bindSidecar (s pid : Nat) : Prog Unit :=
  Co.modify fun w =>
    w.setSlot s fun x => { x with port := some (w.procs.proc pid).port, pid := some pid }

/-- `_set_active_handle(handle)` and `_bump_spawn_seq()`. -/
def takeHandle (pid : Nat) : Prog Unit := do
  Co.modify (World.setActiveHandle (some pid))
  Co.modify World.bumpSpawnSeq

/-- A model without a manifest does not cost the warm holder of another model
its place. -/
def refuseNoManifest (s : Nat) : Prog Unit := do
  transition s .loading
  auditAsync s "stage_to_loading"
  transition s .loadingFail
  auditAsync s "manifest_not_found"
  transition s .popped
  markSlotEnded s "manifest_not_found"
  let w ← Co.gets fun w : World => ((w.slot s).modelTag, w.hold.idleModelTag.getD "None")
  failCompletionFuture .manifestNotFound s
    (.runtime ("model_tag '" ++ w.1 ++ "' has no manifest (idle holder for '" ++ w.2 ++
      "' preserved)"))

/-- The condition of the warm path: the holder's model, before its expiry. -/
def warmInherit (tag : String) : Prog (Option Nat) := do
  let h ← Co.gets fun w : World => w.hold
  match h.idleHandle, h.idleExpiresAt with
  | some held, some expires =>
      if h.idleModelTag = some tag then do
        let now ← monotonic
        pure (if now < expires then some held else none)
      else pure none
  | _, _ => pure none

/-- The warm path: the sidecar is taken for healthy by construction. -/
def inherit (s held : Nat) : Prog (Option (Nat × Bool)) := do
  Co.modify World.clearIdleHolder
  bindSidecar s held
  takeHandle held
  auditAsync s "idle_hot_inherit"
  pure (some (held, true))

/-- The pre-spawn gates refused. -/
def refuseGates (s : Nat) (failed : List String) : Prog Unit := do
  transition s .loadingFail
  auditAsync s "safety_gate_refused"
  auditEventOnlyAsync (some s) "safety_gate_detail"
  transition s .popped
  markSlotEnded s "safety_gate_refused"
  failCompletionFuture .gateRefused s
    (.runtime ("safety gates refused spawn: " ++ "; ".intercalate failed))

/-- The gates that refuse the spawn. -/
def preSpawnGates (tag : String) : Prog (List String) := do
  if C.safetyEnabled then do
    let m ← readManifest? tag
    safetyGates (m.getD {})
  else pure []

/-- The spawn itself and its health wait. -/
def spawnActive (s port : Nat) (tag : String) (parallel : Nat) : Prog (Option (Nat × Bool)) := do
  let pid ← spawn s port tag parallel
  bindSidecar s pid
  takeHandle pid
  let healthy ← waitHealthy pid
  pure (some (pid, healthy))

/-- The cold path: another model's holder is torn down first. -/
def coldSpawn (s port : Nat) (tag : String) (parallel : Nat) : Prog (Option (Nat × Bool)) := do
  let h ← Co.gets fun w : World => w.hold
  Co.when h.idleHandle.isSome (teardownIdleHolder C)
  let failed ← preSpawnGates C tag
  if failed.isEmpty then spawnActive s port tag parallel
  else do
    refuseGates s failed
    pure none

/-- The sidecar the slot runs on, and whether it is healthy. -/
def acquire (s : Nat) (m : Option Manifest) : Prog (Option (Nat × Bool)) := do
  let port ← Co.gets (allocPort C)
  transition s .loading
  auditAsync s "stage_to_loading"
  let x ← Co.gets fun w : World => w.slot s
  match ← warmInherit x.modelTag with
  | some held => inherit s held
  | none => coldSpawn C s port x.modelTag ((m.map Manifest.argvParallel).getD 1)

/-! ## Serving -/

/-- The sidecar never became healthy. -/
def loadingFail (s : Nat) : Prog Unit := do
  transition s .loadingFail
  auditAsync s "loading_fail_health_timeout"
  transition s .popped
  teardown C s "loading-fail-health-timeout"
  failCompletionFuture .healthTimeout s (.runtime "loading-fail-health-timeout")

/-- `n_parallel`, pinned on the handle. -/
def World.nParallel (w : World) (pid : Nat) : Nat := max 1 (w.procs.proc pid).parallel

/-- The three modes of serving the anchor. -/
def serveAnchor (s pid : Nat) : Prog Unit := do
  let w ← Co.gets fun w : World => (w.nParallel pid, w.slot s)
  if 1 < w.1 then Co.tryFinally (fanOutAndDrain C s pid w.1) noteFannedOut
  else if w.2.isStreaming then do
    handToRoute s pid
    streamDone .serial s pid
    setResult s .streamed
  else do
    let b ← completeFn .serial s pid
    setResult s (.upstream b)

/-- The follow-up's mode is decided by its flag alone. -/
def completeFollowUp (matched pid : Nat) : Prog Unit := do
  let y ← Co.gets fun w : World => w.slot matched
  if y.clientMeta.stream then
    if y.streamReadyEvent.isNone || y.streamDoneEvent.isNone then
      assertionError ("streaming slot slot-" ++ toString matched ++
        " missing events at ACTIVE_MATCH promotion")
    else do
      handToRoute matched pid
      streamDone .followUp matched pid
      setResult matched .streamed
  else do
    let b ← completeFn .followUp matched pid
    setResult matched (.upstream b)

/-- Cancelled while the follow-up was served: unwind its route, fail its
future, park it, and let the cancellation go on. -/
def followUpCancelled (matched : Nat) : Prog Unit := do
  let y ← Co.gets fun w : World => w.slot matched
  Co.when y.clientMeta.stream (onSlot matched Slot.setDone)
  failCompletionFuture .followUpCancelled matched
    (.cancelledError "shutdown during active_match")
  Co.tryExcept (transition matched .popped) fun
    | .invalidTransition _ _ _ => pure ()
    | e => Co.raise e
  auditAsync matched "active_match_cancelled"
  Co.suppress (markSlotEnded matched "active_match_cancelled")

/-- Serve the follow-up: whether it completed. -/
def serveFollowUp (matched pid : Nat) : Prog Bool := do
  match ← Co.attempt (completeFollowUp matched pid) with
  | .ok _ => do
      Co.modify (World.record (.followedUp matched))
      pure true
  | .error .cancelled => do
      followUpCancelled matched
      .throw .cancelled
  | .error (.raised e) => do
      failCompletionFuture .followUpFailed matched e
      pure false

/-- `ACTIVE_MATCH` promotion: the follow-up becomes the active slot. -/
def promoteFollowUp (s matched pid : Nat) : Prog Bool := do
  bindSidecar matched pid
  Co.modify (World.setActiveSlot (some matched))
  Co.tryExcept
    (do
      transition matched .activeMatch
      auditAsync matched "active_match_promoted"
      transition matched .active
      let y ← Co.gets fun w : World => w.slot matched
      Co.modify (World.setLatestKeepAlive y.clientMeta.keepAliveS)
      pure true)
    fun
      | .invalidTransition i a b => do
          failCompletionFuture .followUpDrift matched (.invalidTransition i a b)
          let y ← Co.gets fun w : World => w.slot matched
          forceCold matched ("active_match_state_drift:" ++ y.state.value)
          Co.modify (World.setActiveSlot (some s))
          pure false
      | e => Co.raise e

/-- The grace window restarts for a completed follow-up, up to the cap. -/
def extendGrace (matched deadline : Nat) : Prog Nat := do
  let restarted ← restartForFollowup C
  if restarted then do
    Co.modify fun w =>
      w.setSlot matched fun y => { y with extensionCount := w.hold.grace.extensionCount }
    let now ← monotonic
    auditEventOnlyAsync (some matched) "grace_extended_via_active_match"
    pure (now + 1000 * C.graceSeconds)
  else pure deadline

/-- The follow-up is back in `GRACE`. -/
def followUpGrace (matched : Nat) (completed : Bool) (deadline : Nat) : Prog Nat := do
  if completed then do
    auditAsync matched "active_match_to_grace"
    extendGrace C matched deadline
  else do
    auditAsync matched "active_match_failed"
    pure deadline

/-- One follow-up on the warm sidecar: the new deadline of the window. -/
def followUp (s matched pid deadline : Nat) : Prog Nat := do
  let promoted ← promoteFollowUp s matched pid
  if promoted then do
    let completed ← serveFollowUp matched pid
    transition matched .grace
    let deadline ← followUpGrace C matched completed deadline
    transition matched .popped
    auditAsync matched
      (if completed then "active_match_completed" else "active_match_failed_terminal")
    markSlotEnded matched
      (if completed then "active_match_completed" else "active_match_failed")
    Co.modify (World.setActiveSlot (some s))
    pure deadline
  else pure deadline

/-- The grace window. -/
def graceWindow (s pid : Nat) : Prog Unit := do
  let x ← Co.gets fun w : World => w.slot s
  let start ← monotonic
  .loop (start + 1000 * C.graceSeconds) fun deadline => do
    let now ← monotonic
    let stop ← Co.gets fun w : World => w.stopEvent
    if now < deadline && !stop then do
      match ← popMatchedThread x.threadId x.modelTag with
      | some matched => do
          let deadline ← followUp C s matched pid deadline
          pure (.inl deadline)
      | none => do
          sleep
          pure (.inl deadline)
    else pure (.inr ())

/-- `ACTIVE → GRACE`. -/
def enterGrace (s : Nat) : Prog Unit := do
  let h ← Co.gets fun w : World => w.hold
  if h.inflight.isEmpty then do
    transition s .grace
    let now ← monotonic
    Co.modify fun w =>
      w.setHold fun h =>
        { h with grace := h.grace.start now (w.slot s).threadId (w.slot s).modelTag }
    Co.modify (World.record .graceStarted)
    auditAsync s "grace_enter"
  else do
    Co.modify (World.record (.undrained s))
    assertionError "Design #1 invariant: riders must drain before ACTIVE->GRACE"

/-- `idle_seconds` of `_process_slot`, computed inline. -/
def idleSeconds (keepAliveS : Option Int) (defaultIdle : Nat) : Nat :=
  match keepAliveS with
  | none => defaultIdle
  | some k => if k < 0 then keepAliveMaxS else min k.toNat keepAliveMaxS

/-- `GRACE → POPPED`: the sidecar goes to the idle holder, or is torn down. -/
def leaveGrace (s : Nat) : Prog Unit := do
  transition s .popped
  let w ← Co.gets fun w : World => (w.hold, (w.slot s).modelTag)
  let idleSeconds := idleSeconds w.1.latestKeepAliveS C.idleHotLoadSeconds
  Co.modify (World.setLatestKeepAlive none)
  if 0 < idleSeconds && w.1.activeHandle.isSome then do
    let now ← monotonic
    Co.modify
      (World.setIdleHolder w.1.activeHandle (some w.2) (some (now + 1000 * idleSeconds)))
    auditEventOnlyAsync (some s) "idle_hot_enter"
    markSlotEnded s "grace-expired-held-idle"
  else do
    teardown C s "grace-expired"
    let now ← monotonic
    Co.modify (World.setHold fun h => { h with idle := ⟨some now, some w.2⟩ })
    auditEventOnlyAsync (some s) "idle_hot_enter"

/-- `LOADING → ACTIVE` and everything after it. -/
def activate (s pid : Nat) : Prog Unit := do
  transition s .active
  auditAsync s "active"
  let x ← Co.gets fun w : World => w.slot s
  Co.modify (World.setLatestKeepAlive x.clientMeta.keepAliveS)
  serveAnchor C s pid
  enterGrace s
  graceWindow C s pid
  leaveGrace C s

/-! ## The slot and the loop -/

/-- The `try` of `_process_slot`. -/
def processBody (s : Nat) : Prog Unit := do
  let x ← Co.gets fun w : World => w.slot s
  let m ← readManifest? x.modelTag
  let h ← Co.gets fun w : World => w.hold
  if m.isNone && h.idleHandle.isSome && h.idleModelTag ≠ some x.modelTag then refuseNoManifest s
  else do
    match ← acquire C s m with
    | none => pure ()
    | some (pid, healthy) => if healthy then activate C s pid else loadingFail C s

/-- `await asyncio.shield(self._sigterm(handle, ...))`: the SIGTERM goes on
when the await is cancelled. -/
def shieldedSigterm (pid : Nat) : Prog Unit := do
  let t ← createTask (.shieldedSigterm pid)
  sync (.join [t])
  let o ← Co.gets fun w : World => (w.task t).outcome
  match o with
  | some (.raised e) => Co.raise e
  | _ => pure ()

/-- The `finally` of `_process_slot`. -/
def processFinally : Prog Unit := do
  let h ← Co.gets fun w : World => w.hold
  Co.modify (World.setActiveSlot none)
  match h.activeHandle with
  | some pid =>
      if h.idleHandle = some pid then Co.modify (World.setActiveHandle none)
      else
        Co.suppress do
          shieldedSigterm pid
          Co.modify (World.setActiveHandle none)
  | none => Co.modify (World.setActiveHandle none)

/-- `_process_slot`. -/
def processSlot (s : Nat) : Prog Unit := do
  Co.modify (World.setActiveSlot (some s))
  Co.modify (World.setLatestKeepAlive none)
  Co.tryFinally (processBody C s) processFinally

/-- The idle tick: a detached teardown once the holder has expired. -/
def idleTick : Prog Unit := do
  let h ← Co.gets fun w : World => w.hold
  match h.idleHandle, h.idleExpiresAt with
  | some _, some expires => do
      let now ← monotonic
      Co.when (expires ≤ now) do
        Co.modify (World.setIdleExpiresAt none)
        fireAndForget .idleTeardown
  | _, _ => pure ()

/-- The affinity hint of `worker_loop`. -/
def World.warmHint (w : World) : Option String :=
  if w.hold.idleHandle.isSome then w.hold.idleModelTag
  else w.hold.activeSlot.map fun s => (w.slot s).modelTag

/-- What an evicted slot is told. -/
def evictedError (s : Nat) : Err :=
  .slotEvicted ("slot slot-" ++ toString s ++ " evicted: client disconnect")

/-- A slot whose client left while it was queued. -/
def evictedTurn (s : Nat) : Prog Unit := do
  failCompletionFuture .evicted s (evictedError s)
  Co.suppress (auditEventOnlyAsync (some s) "slot_evicted")
  Co.modify (World.setHold fun h => { h with evictionCount := h.evictionCount + 1 })
  idleTick

/-- What `worker_loop` does about an exception of `_process_slot`. -/
def recover (s : Nat) (e : Err) : Prog Unit := do
  mark (.caught s)
  failCompletionFuture .workerException s e
  let h ← Co.gets fun w : World => w.hold
  Co.when h.activeHandle.isSome (Co.suppress (teardown C s "worker-uncaught-exception"))
  forceCold s "worker-uncaught-exception"

/-- One slot, with the worker's exception path. -/
def processTurn (s : Nat) : Prog Unit := do
  let h ← Co.gets fun w : World => w.hold
  mark (.turn s h.inflight.isEmpty)
  Co.modify (World.setHold fun h => { h with workerSlot := some s })
  Co.tryExcept (processSlot C s) (recover C s)
  Co.modify (World.setHold fun h => { h with workerSlot := none })

/-- One turn of `worker_loop`. -/
def workerTurn : Prog Unit := do
  let warm ← Co.gets World.warmHint
  match ← popNext C warm with
  | none => do
      idleTick
      sleep
  | some s => do
      let x ← Co.gets fun w : World => w.slot s
      if x.isEvicted then evictedTurn s else processTurn C s

/-- `worker_loop`, at cap 1. -/
def serialLoop : Prog Unit :=
  Co.whileTrue do
    let stop ← Co.gets fun w : World => w.stopEvent
    if stop then pure false
    else do
      workerTurn C
      pure true

end Turbohaul
