/-
# `Vocabulary` — the statements most programs are written in

Most of the manager's code assigns to slots and to the bookkeeping of a holder
or a resident, and calls operations that touch no sidecar.  A class of
assignments that has all of these is a `Vocabulary`, and then the programs
below are written in it, whatever else the class says.

    Mild                 assignments to a slot on its way through the manager
    MeekVocabulary       those that leave its state alone
    Vocabulary           and those that move it on
    GraceVocabulary      and the grace timer of the serial worker
    ResidentVocabulary   and the helper tasks of the residents
    SeatVocabulary       and the rider set of the serial worker
    JoinVocabulary       and what is noted within a fan-out
    RiderVocabulary      and where it starts and ends

The programs that use the queue, the registry or a sidecar are not here: what
they do is for the class that is about it to say.
-/
import Turbohaul.Manager
import Turbohaul.Statements

namespace Turbohaul

open Coop

/-! ## Slots on their way -/

/-- What is given with a slot, and noted in it by its client and by the queue. -/
structure Given where
  modelTag : String
  threadId : String
  clientMeta : ClientMeta
  createdAt : Nat
  disconnectEvent : Option Bool
  isEvicted : Bool

/-- What a slot says to those who wait for it. -/
structure Signals where
  completionFuture : Future
  streamReadyEvent : Option Bool
  streamDoneEvent : Option Bool

namespace Slot

def given (x : Slot) : Given :=
  { modelTag := x.modelTag
    threadId := x.threadId
    clientMeta := x.clientMeta
    createdAt := x.createdAt
    disconnectEvent := x.disconnectEvent
    isEvicted := x.isEvicted }

def signals (x : Slot) : Signals :=
  { completionFuture := x.completionFuture
    streamReadyEvent := x.streamReadyEvent
    streamDoneEvent := x.streamDoneEvent }

end Slot

/-- The event is as before, or it has been set. -/
def Signalled (e e' : Option Bool) : Prop := e' = e ∨ e' = e.map fun _ => true

/-- An assignment to a slot that keeps what was given with it, settles its
future at most once, and may set its events. -/
structure Mild (f : Slot → Slot) : Prop where
  given : ∀ x, (f x).given = x.given
  settled : ∀ x, x.completionFuture.settled = true →
    (f x).completionFuture = x.completionFuture
  ready : ∀ x, Signalled x.streamReadyEvent (f x).streamReadyEvent
  done : ∀ x, Signalled x.streamDoneEvent (f x).streamDoneEvent

theorem Mild.modelTag {f : Slot → Slot} (h : Mild f) (x : Slot) :
    (f x).modelTag = x.modelTag := congrArg Given.modelTag (h.given x)

/-- Nobody who waits for the slot notices. -/
theorem Mild.of_silent {f : Slot → Slot} (hg : ∀ x, (f x).given = x.given)
    (hs : ∀ x, (f x).signals = x.signals) : Mild f where
  given := hg
  settled := fun x _ => congrArg Signals.completionFuture (hs x)
  ready := fun x => .inl (congrArg Signals.streamReadyEvent (hs x))
  done := fun x => .inl (congrArg Signals.streamDoneEvent (hs x))

theorem mild_setDone : Mild Slot.setDone :=
  ⟨fun _ => rfl, fun _ _ => rfl, fun _ => .inl rfl, fun _ => .inr rfl⟩

theorem mild_fail (e : Err) : Mild (Slot.fail e) where
  given := fun x => by unfold Slot.fail; split <;> rfl
  settled := fun x h => by rw [Slot.fail_of_settled e h]
  ready := fun x => by unfold Slot.fail; split <;> exact .inl rfl
  done := fun x => by unfold Slot.fail; split <;> exact .inl rfl

theorem mild_resolve (c : Completion) : Mild (Slot.resolve c) where
  given := fun x => by unfold Slot.resolve; split <;> rfl
  settled := fun x h => by rw [Slot.resolve_of_settled c h]
  ready := fun x => by unfold Slot.resolve; split <;> exact .inl rfl
  done := fun x => by unfold Slot.resolve; split <;> exact .inl rfl

theorem state_resolve (c : Completion) (x : Slot) : (x.resolve c).state = x.state := by
  unfold Slot.resolve
  split <;> rfl

/-- The slot walks to `COLD`, from wherever it is. -/
theorem mild_park (n : Nat) :
    Mild fun x => if isTerminal x.state then x else { x with state := walkToCold n x.state } :=
  .of_silent (fun x => by split <;> rfl) fun x => by split <;> rfl

/-! ## What a resident and a holder say about others -/

/-- What a resident says about its sidecar. -/
structure Lease where
  handle : Option Nat
  bootingPid : Option Nat
  tornDown : Bool
  port : Option Nat
  modelTag : Option String
  driverTask : Option Nat
  loading : Bool

/-- What decides how long a resident may idle. -/
structure Idling where
  latestKeepAliveS : Option Int
  sleepIdleSeconds : Int

def Resident.idling (r : Resident) : Idling :=
  { latestKeepAliveS := r.latestKeepAliveS
    sleepIdleSeconds := r.sleepIdleSeconds }

def Resident.lease (r : Resident) : Lease :=
  { handle := r.handle
    bootingPid := r.bootingPid
    tornDown := r.tornDown
    port := r.port
    modelTag := r.modelTag
    driverTask := r.driverTask
    loading := r.state = .reservedLoading }

/-- An assignment to a resident that changes neither what it says about its
sidecar nor where it is placed nor how long it may idle, that does not kill it,
and notes no task. -/
structure Minor (f : Resident → Resident) : Prop where
  lease : ∀ x, (f x).lease = x.lease
  splitMode : ∀ x, (f x).splitMode = x.splitMode
  mainGpu : ∀ x, (f x).mainGpu = x.mainGpu
  dead : ∀ x, (f x).state = .dead → x.state = .dead
  tasks : ∀ x, ∀ e ∈ (f x).tasks, e ∈ x.tasks
  idling : ∀ x, (f x).idling = x.idling

/-- An assignment to the holder's bookkeeping. -/
structure Clerical (f : Holder → Holder) : Prop where
  activeHandle : ∀ h, (f h).activeHandle = h.activeHandle := by exact fun _ => rfl
  idleHandle : ∀ h, (f h).idleHandle = h.idleHandle := by exact fun _ => rfl
  inflight : ∀ h, (f h).inflight = h.inflight := by exact fun _ => rfl
  riderTasks : ∀ h, (f h).riderTasks = h.riderTasks := by exact fun _ => rfl
  activeSlot : ∀ h, (f h).activeSlot = h.activeSlot := by exact fun _ => rfl
  workerSlot : ∀ h, (f h).workerSlot = h.workerSlot := by exact fun _ => rfl
  grace : ∀ h, (f h).grace = h.grace := by exact fun _ => rfl
  latestKeepAliveS : ∀ h, (f h).latestKeepAliveS = h.latestKeepAliveS := by exact fun _ => rfl

/-! ## Tasks and operations -/

/-- The tasks of the riders of the serial worker. -/
def Kind.isRider : Kind → Bool
  | .completeFn _ _ | .streamDoneWaiter _ => true
  | _ => false

/-- Tasks that neither spawn nor reap. -/
def Kind.quiet : Kind → Bool
  | .worker | .shutdown | .idleTeardown | .shieldedSigterm _ | .driver _ | .evictTeardown _
  | .reapDead _ => false
  | _ => true

/-- The quiet tasks the manager starts itself. -/
def Kind.helper (k : Kind) : Bool := k.quiet && !k.isRequest

theorem Kind.isRider_helper {k : Kind} (h : k.isRider = true) : k.helper = true := by
  cases k <;> first | rfl | cases h

/-- Events about the rider set of the serial worker. -/
def Event.isFanOut : Event → Bool
  | .joined _ | .fanOut _ | .fannedOut _ | .undrained _ => true
  | _ => false

/-- Events about the grace window of the serial worker. -/
def Event.isGrace : Event → Bool
  | .graceStarted | .followedUp _ => true
  | _ => false

/-- Operations whose reply leaves the sidecars alone. -/
def QuietOp : Op → Prop
  | .spawn _ _ _ _ | .sigterm _ | .reapPid _ => False
  | _ => True

/-! ## The vocabulary -/

/-- A class of assignments that has the common ones, but for the moves of the
slots from state to state. -/
class MeekVocabulary (A : World → World → Prop) : Prop where
  refl : ∀ w, A w w
  meek : ∀ w s {f : Slot → Slot}, Mild f → (∀ x, (f x).state = x.state) → A w (w.setSlot s f)
  dispatched : ∀ w s pid, A w ((w.setSlot s fun x =>
    { x with streamHandle := some pid }.setReady).record (.dispatched s pid))
  holder : ∀ w {f : Holder → Holder}, Clerical f → A w (w.setHold f)
  mirrored : ∀ w {f : Holder → Holder} {g : Resident → Resident}, Clerical f → Minor g →
    A w ((w.setHold f).mirror g)
  resident : ∀ w r {f : Resident → Resident}, Minor f → A w (w.setResident r f)
  value : ∀ w t v, A w (w.setTask t fun k => { k with value := v })

/-- A class of assignments that has the common ones. -/
class Vocabulary (A : World → World → Prop) : Prop extends MeekVocabulary A where
  slot : ∀ w s {f : Slot → Slot}, Mild f → A w (w.setSlot s f)
  occupied : ∀ w s, A w (w.setActiveSlot s)
  meek := fun w s _ hf _ => slot w s hf

/-- The captures of a `keep_alive`, in the holder and in the residents. -/
class CaptureVocabulary (A : World → World → Prop) : Prop where
  latest : ∀ w v, A w (w.setLatestKeepAlive v)
  captured : ∀ w r v, A w (w.setResident r fun x => { x with latestKeepAliveS := v })

/-- The grace timer of the serial worker, and what is noted about its window. -/
class GraceVocabulary (A : World → World → Prop) : Prop extends Vocabulary A where
  timed : ∀ w (f : GraceTimer → GraceTimer),
    A w (w.setHold fun h => { h with grace := f h.grace })
  graced : ∀ w {e : Event}, e.isGrace = true → A w (w.record e)

/-- The helper tasks of the dispatcher and of the residents. -/
class ResidentVocabulary (A : World → World → Prop) : Prop extends Vocabulary A where
  helper : ∀ w {k : Kind}, k.helper = true → A w (w.fork k)
  startInFlight : ∀ w r {k : Kind} s, k.helper = true → A w (w.startInFlight r k s)
  cancelInFlight : ∀ w r, A w (w.cancelInFlight r)

theorem Vocabulary.mono {A B : World → World → Prop} [V : Vocabulary A]
    (h : ∀ w w', A w w' → B w w') : Vocabulary B where
  refl := fun w => h _ _ (V.refl w)
  slot := fun w s _ hf => h _ _ (V.slot w s hf)
  occupied := fun w s => h _ _ (V.occupied w s)
  dispatched := fun w s pid => h _ _ (V.dispatched w s pid)
  holder := fun w _ hf => h _ _ (V.holder w hf)
  mirrored := fun w _ _ hf hg => h _ _ (V.mirrored w hf hg)
  resident := fun w r _ hf => h _ _ (V.resident w r hf)
  value := fun w t v => h _ _ (V.value w t v)

theorem GraceVocabulary.mono {A B : World → World → Prop} [V : GraceVocabulary A]
    (h : ∀ w w', A w w' → B w w') : GraceVocabulary B where
  toVocabulary := V.toVocabulary.mono h
  timed := fun w f => h _ _ (V.timed w f)
  graced := fun w _ he => h _ _ (V.graced w he)

theorem ResidentVocabulary.mono {A B : World → World → Prop} [V : ResidentVocabulary A]
    (h : ∀ w w', A w w' → B w w') : ResidentVocabulary B where
  toVocabulary := V.toVocabulary.mono h
  helper := fun w _ hk => h _ _ (V.helper w hk)
  startInFlight := fun w r _ s hk => h _ _ (V.startInFlight w r s hk)
  cancelInFlight := fun w r => h _ _ (V.cancelInFlight w r)

/-- The rider set of the serial worker and its tasks. -/
class SeatVocabulary (A : World → World → Prop) : Prop extends Vocabulary A where
  inflight : ∀ w (f : List Nat → List Nat),
    A w (w.setHold fun h => { h with inflight := f h.inflight })
  anchored : ∀ w xs, A w (w.setHold fun h => { h with inflight := xs, riderTasks := [] })
  startRider : ∀ w {k : Kind} s, k.isRider = true → A w (w.startRider k s)
  cancelRider : ∀ w s, A w (w.cancelRider s)

/-- And what is noted about them, but for the start and the end of a fan-out. -/
class JoinVocabulary (A : World → World → Prop) : Prop extends SeatVocabulary A where
  joined : ∀ w s, A w (w.record (.joined s))
  undrained : ∀ w s, A w (w.record (.undrained s))

/-- And what is noted about fan-outs. -/
class RiderVocabulary (A : World → World → Prop) : Prop extends JoinVocabulary A where
  noted : ∀ w {e : Event}, e.isFanOut = true → A w (w.record e)
  joined := fun w s => noted w (e := .joined s) rfl
  undrained := fun w s => noted w (e := .undrained s) rfl

/-- The program is written in the class, and in operations that touch no
sidecar. -/
abbrev Calm (A : World → World → Prop) {α : Type} (m : Prog α) : Prop := Only A QuietOp m

section

variable {A : World → World → Prop} [V : MeekVocabulary A]

/-! ## Statements -/

@[simp] theorem calm_gets {α : Type} (f : World → α) : Calm A (Co.gets f) := V.refl

omit V in
theorem calm_modify {f : World → World} (h : ∀ w, A w (f w)) : Calm A (Co.modify f) := h

/-- An assignment to a slot that leaves its state alone. -/
theorem calm_meek (s : Nat) {f : Slot → Slot} (hf : Mild f) (hs : ∀ x, (f x).state = x.state) :
    Calm A (onSlot s f) := fun w => V.meek w s hf hs

@[simp] theorem calm_setDone (s : Nat) : Calm A (onSlot s Slot.setDone) :=
  calm_meek s mild_setDone fun _ => rfl

@[simp] theorem calm_setResult (s : Nat) (c : Completion) : Calm A (setResult s c) :=
  calm_meek s (mild_resolve c) (state_resolve c)

@[simp] theorem calm_handToRoute (s pid : Nat) : Calm A (handToRoute s pid) :=
  fun w => V.dispatched w s pid

theorem calm_onResident (r : Nat) {f : Resident → Resident} (hf : Minor f) :
    Calm A (onResident r f) := fun w => V.resident w r hf

theorem calm_setHold {f : Holder → Holder} (hf : Clerical f) :
    Calm A (Co.modify (World.setHold f)) := fun w => V.holder w hf

omit V in
theorem calm_setLatestKeepAlive [K : CaptureVocabulary A] (v : Option Int) (w : World) :
    A w (w.setLatestKeepAlive v) := K.latest w v

theorem calm_setIdleExpiresAt (v : Option Nat) (w : World) : A w (w.setIdleExpiresAt v) :=
  V.mirrored w {}
    ⟨fun _ => rfl, fun _ => rfl, fun _ => rfl, fun _ h => h, fun _ _ h => h,
      fun _ => rfl⟩

theorem calm_bumpSpawnSeq (w : World) : A w w.bumpSpawnSeq :=
  V.mirrored w {}
    ⟨fun _ => rfl, fun _ => rfl, fun _ => rfl, fun _ h => h, fun _ _ h => h,
      fun _ => rfl⟩

/-! ## Timers, gates and routes -/

variable (C : Config)

@[simp] theorem calm_routeUpstream (s : Nat) : Calm A (routeUpstream s) := by
  refine ⟨V.refl, fun x => ?_⟩
  dsimp only
  split
  · trivial
  · exact only_tryExcept.mpr ⟨only_sync.mpr trivial, fun _ => trivial⟩

omit V in
@[simp] theorem calm_awaitReady (s : Nat) : Calm A (awaitReady s) := by
  simp only [awaitReady, only_bind, only_monotonic, only_loop, only_ite, only_pure,
    only_tryExcept, only_sync, QuietOp, implies_true, and_true, true_and]
  intro _ _ _ _ e
  cases e <;> trivial

omit V in
@[simp] theorem calm_computeExpectedDropMib (tag : String) :
    Calm A (computeExpectedDropMib tag) := by
  refine ⟨only_readManifest?.mpr trivial, fun m => ?_⟩
  cases m <;> trivial

@[simp] theorem calm_orphanReapers : Calm A (orphanReapers C) := by
  simp [orphanReapers, QuietOp]

@[simp] theorem calm_bindSidecar (s pid : Nat) : Calm A (bindSidecar s pid) :=
  calm_modify fun w => V.meek w s
    (f := fun x => { x with port := some (w.procs.proc pid).port, pid := some pid })
    (.of_silent (fun _ => rfl) fun _ => rfl) fun _ => rfl

@[simp] theorem calm_warmInherit (tag : String) : Calm A (warmInherit tag) := by
  refine ⟨V.refl, fun h => ?_⟩
  dsimp only
  split
  · simp [QuietOp]
  · trivial

omit V in
@[simp] theorem calm_preSpawnGates (tag : String) : Calm A (preSpawnGates C tag) := by
  simp [preSpawnGates, QuietOp]

omit V in
@[simp] theorem calm_runSpawnSafetyGate (tag : String) : Calm A (runSpawnSafetyGate tag) := by
  simp [runSpawnSafetyGate, QuietOp]

omit V in
@[simp] theorem calm_readModelFootprint (tag : String) : Calm A (readModelFootprint tag) := by
  refine ⟨only_readManifest?.mpr trivial, fun m => ?_⟩
  cases m <;> trivial

@[simp] theorem calm_vramAdmits (fp : Footprint) : Calm A (vramAdmits fp) := by
  refine ⟨V.refl, fun b => only_ite.mpr ⟨fun _ => trivial, fun _ => ⟨only_vramBudget.mpr trivial,
    fun free => ⟨V.refl, fun x => ?_⟩⟩⟩⟩
  cases free <;> trivial

@[simp] theorem calm_completeFollowUp (s pid : Nat) : Calm A (completeFollowUp s pid) := by
  simp [completeFollowUp, QuietOp]

@[simp] theorem calm_countEviction :
    Calm A (Co.modify (World.setHold fun h => { h with evictionCount := h.evictionCount + 1 })) :=
  calm_setHold {}

/-! ## Tasks of the riders -/

@[simp] theorem calm_completionTask (t s pid : Nat) : Calm A (completionTask t s pid) :=
  ⟨only_completeFn.mpr trivial, fun b => calm_modify fun w => V.value w t (some (.upstream b))⟩

@[simp] theorem calm_streamDoneWaiter (s : Nat) : Calm A (streamDoneWaiter s) :=
  ⟨V.refl, fun _ => only_sync.mpr trivial⟩

end

/-! ## Slots from state to state -/

section

variable {A : World → World → Prop} [V : Vocabulary A]

theorem calm_onSlot (s : Nat) {f : Slot → Slot} (hf : Mild f) : Calm A (onSlot s f) :=
  fun w => V.slot w s hf

/-- An assignment to a slot that nobody who waits for it notices. -/
theorem calm_silent (s : Nat) {f : Slot → Slot} (hg : ∀ x, (f x).given = x.given)
    (hs : ∀ x, (f x).signals = x.signals) : Calm A (onSlot s f) :=
  calm_onSlot s (.of_silent hg hs)

omit V in
theorem transition_eq_ok {s : Nat} {target : SlotState} {x y : Slot}
    (h : x.transition s target = .ok y) : y = { x with state := target } := by
  unfold Slot.transition at h
  split at h
  · exact (Except.ok.inj h).symm
  · cases h

@[simp] theorem calm_transition (s : Nat) (target : SlotState) : Calm A (transition s target) := by
  refine only_update V.refl fun w w' h => ?_
  split at h
  · next x hx =>
      cases h
      rw [transition_eq_ok hx]
      exact V.slot w s (f := fun y => { y with state := target })
        (.of_silent (fun _ => rfl) fun _ => rfl)
  · cases h

theorem calm_setActiveSlot (s : Option Nat) (w : World) : A w (w.setActiveSlot s) :=
  V.occupied w s

@[simp] theorem calm_refuseNoManifest (s : Nat) : Calm A (refuseNoManifest s) := by
  simp [refuseNoManifest, QuietOp]

@[simp] theorem calm_refuseGates (s : Nat) (failed : List String) :
    Calm A (refuseGates s failed) := by
  simp [refuseGates, QuietOp]

@[simp] theorem calm_followUpCancelled (s : Nat) : Calm A (followUpCancelled s) := by
  refine ⟨V.refl, fun y => ⟨only_when.mpr fun _ => calm_setDone s, fun _ =>
    ⟨only_failCompletionFuture.mpr trivial, fun _ => ⟨only_tryExcept.mpr
      ⟨calm_transition s _, fun e => ?_⟩, fun _ => ⟨only_auditAsync.mpr trivial, fun _ =>
        only_suppress.mpr (only_markSlotEnded.mpr trivial)⟩⟩⟩⟩⟩
  cases e <;> trivial

end

/-! ## The grace timer -/

section

variable {A : World → World → Prop} [V : GraceVocabulary A] (C : Config)

@[simp] theorem calm_restartForFollowup : Calm A (restartForFollowup C) := by
  have h : ∀ (now : Nat) (w : World),
      A w (w.setHold fun x => { x with grace := x.grace.restart now }) := fun now w =>
    V.timed w (GraceTimer.restart now)
  simp [restartForFollowup, QuietOp, h]

@[simp] theorem calm_serveFollowUp (s pid : Nat) : Calm A (serveFollowUp s pid) := by
  refine ⟨calm_completeFollowUp s pid, fun r => ?_⟩
  match r with
  | .ok _ => exact ⟨fun w => V.graced w rfl, fun _ => trivial⟩
  | .error .cancelled => exact ⟨calm_followUpCancelled s, fun _ => trivial⟩
  | .error (.raised e) => exact ⟨only_failCompletionFuture.mpr trivial, fun _ => trivial⟩

@[simp] theorem calm_extendGrace (s deadline : Nat) : Calm A (extendGrace C s deadline) := by
  have h : ∀ w : World, A w
      (w.setSlot s fun y => { y with extensionCount := w.hold.grace.extensionCount }) := by
    exact fun w => V.slot w s
      (f := fun y => { y with extensionCount := w.hold.grace.extensionCount })
      (.of_silent (fun _ => rfl) fun _ => rfl)
  simp [extendGrace, QuietOp, h]

@[simp] theorem calm_followUpGrace (s : Nat) (b : Bool) (deadline : Nat) :
    Calm A (followUpGrace C s b deadline) := by
  simp [followUpGrace, QuietOp]

end

/-! ## Serving on a resident -/

section

variable {A : World → World → Prop} [V : ResidentVocabulary A] (C : Config)

theorem calm_fireAndForget {k : Kind} (hk : k.helper = true) : Calm A (fireAndForget k) :=
  fun w => V.helper w hk

@[simp] theorem calm_completeOneSlot (s pid : Nat) : Calm A (completeOneSlot s pid) := by
  refine ⟨only_completeFn.mpr trivial, fun r => ?_⟩
  match r with
  | .ok b => exact calm_setResult s _
  | .error .cancelled => trivial
  | .error (.raised e) => exact only_failCompletionFuture.mpr trivial

@[simp] theorem calm_awaitStreamedSlot (s : Nat) : Calm A (awaitStreamedSlot s) := by
  simp [awaitStreamedSlot, QuietOp]

@[simp] theorem calm_launch (r pid s : Nat) : Calm A (launch r pid s) := by
  refine ⟨calm_silent s (fun _ => rfl) fun _ => rfl,
    fun _ => ⟨calm_onResident r ?_, fun _ => ⟨V.refl, fun x =>
    ⟨only_when.mpr fun _ => calm_handToRoute s pid, fun _ w => V.startInFlight w r s ?_⟩⟩⟩⟩
  · exact ⟨fun _ => rfl, fun _ => rfl, fun _ => rfl, fun _ h => h, fun _ _ h => h,
      fun _ => rfl⟩
  · split <;> rfl

@[simp] theorem calm_inboxGetNowait (r s : Nat) : Calm A (inboxGetNowait r s) :=
  ⟨calm_onResident r ⟨fun _ => rfl, fun _ => rfl, fun _ => rfl, fun _ h => h, fun _ _ h => h,
      fun _ => rfl⟩,
    fun _ => only_mark.mpr trivial⟩

@[simp] theorem calm_admitFromInbox (r pid n : Nat) : Calm A (admitFromInbox r pid n) := by
  refine only_whileTrue.mpr ⟨V.refl, fun x => ?_⟩
  dsimp only
  split
  · simp [QuietOp]
  · trivial

@[simp] theorem calm_settleFanOut (r t : Nat) : Calm A (settleFanOut r t) := by
  refine ⟨V.refl, fun w => ?_⟩
  dsimp only
  split
  · trivial
  · refine ⟨calm_onResident r ⟨fun _ => rfl, fun _ => rfl, fun _ => rfl, fun _ h => h,
      fun _ _ h => List.mem_of_mem_filter h, fun _ => rfl⟩, fun _ => ?_⟩
    dsimp only
    split
    · exact only_failCompletionFuture.mpr trivial
    · trivial
    · trivial

theorem minor_noTasks : Minor fun x : Resident => { x with inflight := [], tasks := [] } :=
  ⟨fun _ => rfl, fun _ => rfl, fun _ => rfl, fun _ h => h, fun _ _ h => (by cases h),
    fun _ => rfl⟩

@[simp] theorem calm_interruptFanOut (r : Nat) : Calm A (interruptFanOut r) :=
  ⟨V.refl, fun _ => ⟨fun w => V.cancelInFlight w r, fun _ =>
    ⟨only_forEach (fun _ => only_failCompletionFuture.mpr trivial) _, fun _ =>
      calm_onResident r minor_noTasks⟩⟩⟩

@[simp] theorem calm_fanOutOnResident (r s pid n : Nat) : Calm A (fanOutOnResident r s pid n) := by
  refine ⟨calm_onResident r minor_noTasks, fun _ => only_tryFinally.mpr ⟨⟨calm_launch r pid s,
    fun _ => ⟨calm_admitFromInbox r pid n, fun _ => only_whileTrue.mpr ⟨V.refl, fun x => ?_⟩⟩⟩,
    calm_interruptFanOut r⟩⟩
  exact only_ite.mpr ⟨fun _ => trivial, fun _ => ⟨only_waitFirst.mpr trivial, fun done =>
    ⟨only_forEach (calm_settleFanOut r) _, fun _ => ⟨calm_admitFromInbox r pid n,
      fun _ => trivial⟩⟩⟩⟩

/-- The captures of resident `r` are in the class. -/
def Captures (A : World → World → Prop) (r : Nat) : Prop :=
  ∀ v, Calm A (onResident r fun x => { x with latestKeepAliveS := v })

omit V in
theorem captures [K : CaptureVocabulary A] (r : Nat) : Captures A r := fun v w => K.captured w r v

theorem calm_completeResidentFollowUp {r : Nat} (hr : Captures A r) (s pid : Nat) :
    Calm A (completeResidentFollowUp r s pid) := by
  have h := fun v => hr v
  simp [completeResidentFollowUp, QuietOp, h]

@[simp] theorem calm_restartResidentGrace (r : Nat) : Calm A (restartResidentGrace C r) := by
  have h : ∀ now, Calm A (onResident r fun x => { x with grace := x.grace.restart now }) :=
    fun _ => calm_onResident r ⟨fun _ => rfl, fun _ => rfl, fun _ => rfl, fun _ h => h,
      fun _ _ h => h, fun _ => rfl⟩
  simp [restartResidentGrace, QuietOp, h]

omit V in
@[simp] theorem calm_newDeadline (b : Bool) (deadline : Nat) :
    Calm A (newDeadline C b deadline) := by
  simp [newDeadline, QuietOp]

theorem calm_occupy (r : Nat) (v : Option Nat) :
    Calm A (onResident r fun x => { x with activeSlot := v }) :=
  calm_onResident r ⟨fun _ => rfl, fun _ => rfl, fun _ => rfl, fun _ h => h, fun _ _ h => h,
      fun _ => rfl⟩

theorem calm_residentFollowUp {r : Nat} (hr : Captures A r) (s matched pid deadline : Nat) :
    Calm A (residentFollowUp C r s matched pid deadline) := by
  have h := calm_occupy (A := A) r
  have hc := calm_completeResidentFollowUp hr
  simp [residentFollowUp, QuietOp, h, hc]

@[simp] theorem calm_serveResidentAnchor (r s pid : Nat) :
    Calm A (serveResidentAnchor r s pid) := by
  simp [serveResidentAnchor, QuietOp]

@[simp] theorem calm_takeInHand (r s : Nat) : Calm A (takeInHand r s) :=
  calm_onResident r ⟨fun _ => rfl, fun _ => rfl, fun _ => rfl, fun _ h => h, fun _ _ h => h,
      fun _ => rfl⟩

@[simp] theorem calm_firstSlot (r : Nat) : Calm A (firstSlot r) := by
  refine ⟨V.refl, fun x => ?_⟩
  dsimp only
  split
  · exact ⟨calm_inboxGetNowait r _, fun _ => ⟨calm_takeInHand r _, fun _ => trivial⟩⟩
  · exact ⟨⟨trivial, fun _ => only_value _ _⟩, fun s => ⟨only_mark.mpr trivial, fun _ =>
      ⟨calm_takeInHand r s, fun _ => trivial⟩⟩⟩

@[simp] theorem calm_nextSlot (r : Nat) : Calm A (nextSlot r) := by
  refine ⟨trivial, fun a => ?_⟩
  cases a <;> first
    | trivial
    | exact ⟨only_mark.mpr trivial, fun _ => ⟨calm_takeInHand r _, fun _ => trivial⟩⟩

/-! ## Routing -/

@[simp] theorem calm_deferUnroutable (s : Nat) : Calm A (deferUnroutable s) :=
  ⟨calm_silent s (fun _ => rfl) fun _ => rfl, fun _ => ⟨V.refl, fun _ => only_ite.mpr
    ⟨fun _ => only_failCompletionFuture.mpr trivial, fun _ => calm_fireAndForget rfl⟩⟩⟩

@[simp] theorem calm_routeHit (r s : Nat) : Calm A (routeHit r s) := by
  refine ⟨only_monotonic.mpr trivial, fun now => calm_onResident r
    ⟨fun x => ?_, fun _ => rfl, fun _ => rfl, fun x h => ?_, fun _ _ h => h, fun _ => rfl⟩⟩
  · cases hx : x.state <;> simp [Resident.lease, hx]
  · dsimp only at h
    split at h
    · cases h
    · exact h

@[simp] theorem calm_handleEvictedSlot (s : Nat) : Calm A (handleEvictedSlot s) :=
  ⟨only_failCompletionFuture.mpr trivial, fun _ => ⟨calm_fireAndForget rfl, fun _ =>
    calm_countEviction⟩⟩

omit V in
@[simp] theorem calm_auditEvictedSlot (s : Nat) : Calm A (auditEvictedSlot s) := by
  simp [auditEvictedSlot, QuietOp]

end

/-! ## Riders of the serial worker -/

section

variable {A : World → World → Prop} [V : SeatVocabulary A]

@[simp] theorem calm_leaveInflight (s : Nat) : Calm A (leaveInflight s) :=
  calm_modify fun w => V.inflight w fun xs => xs.erase s

@[simp] theorem calm_clearInflight : Calm A clearInflight :=
  calm_modify fun w => V.anchored w []

@[simp] theorem calm_startWaiters (riders : List Nat) : Calm A (startWaiters riders) := by
  refine only_forEach (fun s => ?_) riders
  exact ⟨V.refl, fun x => only_ite.mpr ⟨fun _ => only_assertionError.mpr trivial, fun _ =>
    calm_modify fun w => V.startRider w s rfl⟩⟩

@[simp] theorem calm_cancelAndWait (s : Nat) : Calm A (cancelAndWait s) := by
  refine ⟨V.refl, fun t => ?_⟩
  cases t with
  | none => trivial
  | some t => exact ⟨fun w => V.cancelRider w s, fun _ => only_suppressAll.mpr
      (only_sync.mpr trivial)⟩

@[simp] theorem calm_unwindStreamed : Calm A unwindStreamed :=
  ⟨V.refl, fun _ => ⟨only_forEach (fun s => calm_setDone s) _, fun _ =>
    ⟨only_forEach calm_cancelAndWait _, fun _ => calm_clearInflight⟩⟩⟩

omit V in
@[simp] theorem calm_answerRider [Vocabulary A] (s : Nat) (o : Option Outcome)
    (v : Option Completion) : Calm A (answerRider s o v) := by
  unfold answerRider
  split
  · exact only_failCompletionFuture.mpr trivial
  · exact calm_setResult s _
  · trivial

@[simp] theorem calm_startCompletions (pid : Nat) (riders : List Nat) :
    Calm A (startCompletions pid riders) :=
  only_forEach (fun s => calm_modify fun w => V.startRider w s rfl) riders

omit V in
@[simp] theorem calm_tasksOf [Vocabulary A] (riders : List Nat) : Calm A (tasksOf riders) :=
  calm_gets _

@[simp] theorem calm_abortCompletions : Calm A abortCompletions := by
  refine ⟨V.refl, fun h => ⟨only_forEach (fun s => ?_) _, fun _ => calm_clearInflight⟩⟩
  exact ⟨calm_cancelAndWait s, fun _ => only_failCompletionFuture.mpr trivial⟩

end

section

variable {A : World → World → Prop} [V : JoinVocabulary A]

@[simp] theorem calm_joinInflight (s : Nat) : Calm A (joinInflight s) :=
  ⟨calm_modify fun w => V.inflight w fun xs => xs ++ [s], fun _ =>
    calm_modify fun w => V.joined w s⟩

@[simp] theorem calm_seatAnchor (s : Nat) : Calm A (seatAnchor s) :=
  ⟨calm_modify fun w => V.anchored w [s], fun _ => calm_modify fun w => V.joined w s⟩

omit V in
@[simp] theorem calm_noteFannedOut [V : RiderVocabulary A] : Calm A noteFannedOut :=
  fun w => V.noted w rfl

@[simp] theorem calm_enterGrace [G : GraceVocabulary A] (s : Nat) : Calm A (enterGrace s) := by
  have h : ∀ (now : Nat) (w : World), A w (w.setHold fun h =>
      { h with grace := h.grace.start now (w.slot s).threadId (w.slot s).modelTag }) := fun now w =>
    G.timed w fun g => g.start now (w.slot s).threadId (w.slot s).modelTag
  have g : ∀ w : World, A w (w.record .graceStarted) := fun w => G.graced w rfl
  have n : ∀ w : World, A w (w.record (.undrained s)) := fun w => V.undrained w s
  simp [enterGrace, QuietOp, h, g, n]

end

end Turbohaul
