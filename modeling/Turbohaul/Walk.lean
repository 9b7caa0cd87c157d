/-
# `Walk` — every task's program, through the methods of queue and registry

`Walks` lists the programs that change the queue or the registry.  An assertion
that each of them keeps, and that the statements of a class keep, is kept by the
program of every task: the program is walked once, here.

    queue      pop_next, pop_matched_thread, enqueue, enqueue_head, close
    registry   _route_or_reserve, _begin_evict_locked, the driver's claim
    slots      the slot that submit allocates, the events of a streaming one
-/
import Turbohaul.Plain
import Turbohaul.Turns

namespace Turbohaul

open Coop

/-- An assignment to a resident that stays, and may idle as long as before. -/
structure Lasts (f : Resident → Resident) : Prop extends Stays f where
  idling : ∀ x, (f x).idling = x.idling

/-- A vocabulary of all tasks but the worker. -/
class ErrandVocabulary (A : World → World → Prop) : Prop extends SidecarVocabulary A,
    ResidentVocabulary A, GraceVocabulary A where
  lasts : ∀ w r {f : Resident → Resident}, Lasts f → A w (w.setResident r f)

/-- A vocabulary of all tasks. -/
class WalkVocabulary (A : World → World → Prop) : Prop extends ErrandVocabulary A,
    RiderVocabulary A where
  seated : ∀ w x, A w (w.setHold fun h => { h with workerSlot := x })

variable (C : Config)

theorem plain_setActiveHandle (h : Option Nat) (w : World) : Plain w (w.setActiveHandle h) :=
  (plain_setHold w _).trans
    (plain_mirror _ ⟨fun _ => rfl, fun _ => rfl, fun _ => rfl, fun _ h => h⟩)

theorem plain_setIdleHolder (h : Option Nat) (tag : Option String) (expires : Option Nat)
    (w : World) : Plain w (w.setIdleHolder h tag expires) :=
  (plain_setHold w _).trans
    (plain_mirror _ ⟨fun _ => rfl, fun _ => rfl, fun _ => rfl, fun _ h => h⟩)

instance : WalkVocabulary Plain where
  activeHandle := fun w h => plain_setActiveHandle h w
  idleHolder := fun w h tag expires => plain_setIdleHolder h tag expires w
  detached := fun w k hk => plain_fork w (by cases k <;> first | rfl | cases hk)
  stop := fun _ => plain_same rfl rfl rfl rfl rfl rfl
  cancelWorker := fun w => plain_cancelTask w workerTask
  cancelDrivers := fun w => plain_cancelAll (fun t => t) _ w
  cancelBg := fun w _ => plain_cancelAll (fun t => t) _ w
  lasts := fun w r _ hf => plain_setResident w r hf.toStays
  seated := fun w _ => plain_setHold w _

section

variable {A : World → World → Prop} [V : ErrandVocabulary A]

/-! ## Residents -/

theorem lax_onResident (r : Nat) {f : Resident → Resident} (hf : Lasts f) :
    Lax A (onResident r f) := fun w => V.lasts w r hf

theorem lax_reapClaimed (handle bootingPid : Option Nat) :
    Lax A (reapClaimed handle bootingPid) := by
  refine ⟨V.refl, fun alive => ?_⟩
  dsimp only
  split
  · exact only_suppress.mpr (only_sigterm.mpr trivial)
  · exact only_suppress.mpr (only_sync.mpr trivial)
  · trivial

theorem lax_evictTeardown (r : Nat) : Lax A (evictTeardown r) :=
  ⟨V.refl, fun _ => only_when.mpr fun _ =>
    ⟨lax_onResident r ⟨⟨fun _ => rfl, fun _ => rfl, fun _ => rfl, fun _ h => h⟩, fun _ => rfl⟩,
    fun _ =>
      lax_reapClaimed _ _⟩⟩

theorem lax_bootResident (r s : Nat) (tag : String) (n : Nat) :
    Lax A (bootResident r s tag n) := by
  refine ⟨V.refl, fun x => ⟨only_spawn.mpr trivial, fun pid =>
    ⟨lax_onResident r ⟨⟨fun _ => rfl, fun _ => rfl, fun _ => rfl, fun _ h => h⟩, fun _ => rfl⟩,
    fun _ =>
      ⟨(calm_bindSidecar s pid).lax, fun _ => ⟨only_waitHealthy.mpr trivial, fun healthy =>
        only_ite.mpr ⟨fun _ => ⟨?_, fun _ => trivial⟩, fun _ => ?_⟩⟩⟩⟩⟩⟩
  · exact lax_onResident r ⟨⟨fun _ => rfl, fun _ => rfl, fun _ => rfl, fun _ h => (by cases h)⟩,
      fun _ => rfl⟩
  · exact ⟨only_failCompletionFuture.mpr trivial, fun _ =>
      ⟨lax_onResident r ⟨⟨fun _ => rfl, fun _ => rfl, fun _ => rfl, fun _ h => h⟩, fun _ => rfl⟩,
      fun _ =>
        ⟨V.refl, fun alive => ⟨only_when.mpr fun _ => only_suppress.mpr
          (only_sigterm.mpr trivial), fun _ => trivial⟩⟩⟩⟩

theorem lax_spawnForResident (r s : Nat) : Lax A (spawnForResident C r s) := by
  refine ⟨V.refl, fun x => ⟨only_readManifest?.mpr trivial, fun m => ⟨only_ite.mpr
    ⟨fun _ => (calm_runSpawnSafetyGate _).lax, fun _ => trivial⟩, fun ok => only_ite.mpr
      ⟨fun _ => lax_bootResident r s _ _, fun _ => ⟨only_failCompletionFuture.mpr trivial,
        fun _ => trivial⟩⟩⟩⟩⟩

end

/-! ## The walk -/

/-- A slot in hand, from its allocation until it is in the queue.  `T` holds of
the model tags that are submitted. -/
structure Filing (P : Outline (system C)) (t : Nat) (I : World → World → Prop)
    (T : String → Prop) (H : Nat → World → World → Prop) : Prop where
  alloc : ∀ {x : Slot} {s w}, T x.modelTag → I s w → H w.slotCount s (w.alloc t x)
  monotonic : ∀ e, Keeps P t (H e) monotonic
  enqueueFresh : ∀ e b s w, H e s w → wp P t (enqueueFresh C e b) (fun _ => I) s w
  free : ∀ {e s w}, H e s w → I s w

/-- What submissions and routes are made of. -/
structure Submits (P : Outline (system C)) (t : Nat) (I A : World → World → Prop)
    (T : String → Prop) : Prop where
  frames : Frames P t I A fun _ => True
  filing : ∃ H, Filing C P t I T H
  attachEvents : ∀ s, Keeps P t I (onSlot s Slot.attachEvents)

/-- The assertion is kept by the statements of a class and by each program that
changes the queue or the registry, but for the worker's. -/
structure Errands (P : Outline (system C)) (t : Nat) (I A : World → World → Prop)
    (T : String → Prop) : Prop where
  frames : Frames P t I A fun _ => True
  popMatchedThread : ∀ threadId tag, Keeps P t I (popMatchedThread threadId tag)
  enqueue : ∀ s, Keeps P t I (enqueue C s)
  enqueueHead : ∀ s, Keeps P t I (enqueueHead s)
  closeQueue : Keeps P t I closeQueue
  allocSlot : ∀ x : Slot, T x.modelTag → Keeps P t I (allocSlot t x)
  attachEvents : ∀ s, Keeps P t I (onSlot s Slot.attachEvents)
  beginEvict : ∀ r, Keeps P t I (beginEvictLocked r)
  claimTeardown : ∀ r, Keeps P t I (claimTeardown r)

/-- The worker pops, and it routes or reserves. -/
structure Walks (P : Outline (system C)) (t : Nat) (I A : World → World → Prop)
    (T : String → Prop) : Prop extends Errands C P t I A T where
  popNext : ∀ tag, Keeps P t I (popNext C tag)
  routeOrReserve : ∀ s, Keeps P t I (routeOrReserve C s)

/-- The tasks there are beside a serial worker, and itself. -/
def Kind.solo : Kind → Bool
  | .worker | .shutdown | .submitAndWait _ | .streamRoute _ | .embeddingsRoute _ | .idleTeardown
  | .shieldedSigterm _ | .completeFn _ _ | .streamDoneWaiter _ => true
  | _ => false

/-- The request's model tag, of the tasks that submit one. -/
def Kind.submits (T : String → Prop) : Kind → Prop
  | .submitAndWait q | .streamRoute q | .embeddingsRoute q => T q.modelTag
  | _ => True

section

variable {C} {P : Outline (system C)} {t : Nat} {I A : World → World → Prop} {T : String → Prop}

/-! ### Submissions -/

section

variable [V : MeekVocabulary A] (L : Submits C P t I A T)

include L

theorem keeps_submit (q : Request) (hq : T q.modelTag) (wait : Bool) :
    Keeps P t I (submit C t q wait) := by
  obtain ⟨H, D⟩ := L.filing
  have F := L.frames.fewer (L := QuietOp) fun _ _ => trivial
  refine .bind (F.keeps (calm_gets _)) fun stop => Keeps.ite (.throw _) ?_
  refine .bind (F.keeps (only_monotonic.mpr trivial)) fun created s w h => ?_
  refine (D.monotonic w.slotCount).seq (fun now s w h => ?_) (fun _ s w h => D.free h)
    (D.alloc hq h)
  rw [wp_gets_bind]
  refine wp_seq (D.enqueueFresh _ _ s w h) (fun _ => ?_) fun _ s w h => h
  exact Keeps.bind (L.frames.keeps (only_run.mpr trivial)) fun _ =>
    .bind (F.keeps (only_auditEventOnlyAsync.mpr trivial)) fun _ => .pure _

theorem keeps_submitAndWait (q : Request) (hq : T q.modelTag) :
    Keeps P t I (submitAndWait C t q) := by
  have F := L.frames.fewer (L := QuietOp) fun _ _ => trivial
  refine .bind (keeps_submit L q hq true) fun _ =>
    .bind (F.keeps (only_sync.mpr trivial)) fun _ => .bind (F.keeps (calm_gets _)) fun _ => ?_
  split
  · exact .throw _
  · exact .pure _

theorem keeps_submitForStreaming (q : Request) (hq : T q.modelTag) :
    Keeps P t I (submitForStreaming C t q) :=
  .bind (keeps_submit L q hq true) fun s => .bind (L.attachEvents s) fun _ =>
    .pure _

theorem keeps_streamRoute (q : Request) (hq : T q.modelTag) : Keeps P t I (streamRoute C t q) := by
  have F := L.frames.fewer (L := QuietOp) fun _ _ => trivial
  exact .bind (keeps_submitForStreaming L q hq) fun s => .tryFinally
    (.bind (F.keeps (calm_awaitReady s)) fun _ => .when (F.keeps (calm_routeUpstream s)))
    (F.keeps (calm_setDone s))

theorem keeps_embeddingsRoute (q : Request) (hq : T q.modelTag) :
    Keeps P t I (embeddingsRoute C t q) := by
  have F := L.frames.fewer (L := QuietOp) fun _ _ => trivial
  exact .bind (keeps_submitForStreaming L q hq) fun s => .tryFinally
    (.bind (F.keeps (only_sync.mpr trivial)) fun _ => F.keeps (calm_routeUpstream s))
    (F.keeps (calm_setDone s))

end

/-- What runs beside the serial worker. -/
theorem Submits.program [V : ShutdownVocabulary A] (L : Submits C P t I A T)
    (hc : Keeps P t I closeQueue) {k : Kind} (hs : k.solo = true) (hw : k ≠ .worker)
    (hk : k.submits T) : Keeps P t I (program C t k) := by
  have F := L.frames.fewer (L := QuietOp) fun _ _ => trivial
  cases k with
  | worker => exact absurd rfl hw
  | shutdown => exact keeps_shutdown L.frames hc
  | submitAndWait q => exact keeps_submitAndWait L q hk
  | streamRoute q => exact keeps_streamRoute L q hk
  | embeddingsRoute q => exact keeps_embeddingsRoute L q hk
  | idleTeardown => exact L.frames.keeps (lax_teardownIdleHolder C)
  | shieldedSigterm pid => exact L.frames.keeps (only_sigterm.mpr trivial)
  | completeFn s pid => exact F.keeps (calm_completionTask t s pid)
  | streamDoneWaiter s => exact F.keeps (calm_streamDoneWaiter s)
  | _ => cases hs

section

variable [V : ErrandVocabulary A] (L : Errands C P t I A T)

include L

omit V in
theorem Errands.calm {α : Type} {m : Prog α} (h : Calm A m) : Keeps P t I m :=
  L.frames.keeps h.lax

theorem Errands.submits : Submits C P t I A T where
  frames := L.frames
  filing := ⟨fun _ => I,
    { alloc := fun hx h => L.allocSlot _ hx _ _ h
      monotonic := fun _ => L.frames.keeps (only_monotonic.mpr trivial)
      enqueueFresh := fun e _ => by
        have fresh : ∀ b, Keeps P t I (enqueueFresh C e b) := fun b =>
          Keeps.ite (.bind (L.enqueueHead e) fun _ =>
            .bind (L.calm (calm_restartForFollowup C)) fun _ => .pure _) (L.enqueue e)
        exact fresh _
      free := id }⟩
  attachEvents := L.attachEvents

/-! ### Residents -/

omit V in
theorem keeps_requeueSlotsOrFail : ∀ ss, Keeps P t I (requeueSlotsOrFail ss)
  | [] => .pure _
  | s :: rest => by
      refine .bind (.attempt (L.enqueueHead s)) fun r => ?_
      match r with
      | .ok _ => exact keeps_requeueSlotsOrFail rest
      | .error .cancelled =>
          exact .bind (.forEach (fun s => L.frames.keeps (only_failCompletionFuture.mpr trivial)) _)
            fun _ => .throw _
      | .error (.raised e) =>
          exact .bind (L.frames.keeps (only_failCompletionFuture.mpr trivial)) fun _ =>
            keeps_requeueSlotsOrFail rest

omit V in
theorem keeps_requeueAfterBackoff (s : Nat) : Keeps P t I (requeueAfterBackoff s) := by
  refine .bind (.attempt (.bind (L.frames.keeps (only_sleep.mpr trivial)) fun _ =>
    L.enqueueHead s)) fun r => ?_
  match r with
  | .ok _ => exact .pure _
  | .error .cancelled =>
      exact .bind (L.frames.keeps (only_failCompletionFuture.mpr trivial)) fun _ => .throw _
  | .error (.raised e) => exact L.frames.keeps (only_failCompletionFuture.mpr trivial)

theorem keeps_reapDeadResident (r : Nat) : Keeps P t I (reapDeadResident r) :=
  .bind (L.calm (calm_gets _)) fun _ => .bind (.forEach (fun s =>
    .bind (L.frames.keeps (only_failCompletionFuture.mpr trivial)) fun _ =>
      L.calm (calm_setDone s)) _) fun _ => L.beginEvict r

theorem keeps_residentGrace {r : Nat} (hr : Captures A r) (s pid : Nat) :
    Keeps P t I (residentGrace C r s pid) := by
  refine .bind (L.calm (calm_gets _)) fun x =>
    .bind (L.frames.keeps (only_monotonic.mpr trivial)) fun start => .loop fun deadline =>
    .bind (L.frames.keeps (only_monotonic.mpr trivial)) fun now =>
    .bind (L.calm (calm_gets _)) fun stop => Keeps.ite
      (.bind (L.popMatchedThread _ _) fun m => ?_) (.pure _)
  cases m with
  | none => exact .bind (L.frames.keeps (only_sleep.mpr trivial)) fun _ => .pure _
  | some matched =>
      exact .bind (L.calm (calm_residentFollowUp C hr s matched pid deadline)) fun _ => .pure _

theorem keeps_serveOnResident {r : Nat} (hr : Captures A r) (s pid : Nat) :
    Keeps P t I (serveOnResident C r s pid) := by
  refine .bind (L.calm (calm_gets _)) fun x => .bind (.when (L.calm (calm_transition s _)))
    fun _ => .bind (L.calm (calm_transition s _)) fun _ =>
    .bind (L.frames.keeps (only_auditAsync.mpr trivial)) fun _ =>
    .bind (L.calm (hr _)) fun _ =>
    .bind (L.calm (calm_serveResidentAnchor r s pid)) fun _ =>
    .bind (L.calm (calm_transition s _)) fun _ =>
    .bind (L.frames.keeps (only_monotonic.mpr trivial)) fun now =>
    .bind (L.frames.keeps (lax_onResident r ?_)) fun _ =>
    .bind (L.frames.keeps (only_auditAsync.mpr trivial)) fun _ =>
    .bind (keeps_residentGrace L hr s pid) fun _ => .bind (L.calm (calm_transition s _)) fun _ =>
    .bind (L.calm (calm_gets _)) fun y => .when (.throw _)
  exact ⟨⟨fun _ => rfl, fun _ => rfl, fun _ => rfl, fun _ h => h⟩, fun _ => rfl⟩

theorem keeps_idleTimeout (r : Nat) : Keeps P t I (idleTimeout r) := by
  refine .bind (L.calm (calm_gets _)) fun x => ?_
  split
  · exact Keeps.ite (.bind (L.beginEvict r) fun _ => .pure _) (.pure _)
  · exact .bind (L.calm (calm_inboxGetNowait r _)) fun _ =>
      .bind (L.calm (calm_takeInHand r _)) fun _ => .pure _

theorem keeps_parkResident (r idle : Nat) : Keeps P t I (parkResident r idle) := by
  refine .bind (L.calm (calm_gets _)) fun x => Keeps.ite (.pure _) ?_
  refine .bind (L.frames.keeps (only_monotonic.mpr trivial)) fun now =>
    .bind (L.frames.keeps (lax_onResident r ?_)) fun _ =>
    Keeps.ite (.bind (L.beginEvict r) fun _ => .pure _)
      (.bind (L.frames.keeps (only_monotonic.mpr trivial)) fun now =>
        .bind (L.frames.keeps (lax_onResident r ?_)) fun _ =>
        .bind (L.calm (calm_nextSlot r)) fun s => ?_)
  · exact ⟨⟨fun _ => rfl, fun _ => rfl, fun _ => rfl, fun _ h => h⟩, fun _ => rfl⟩
  · exact ⟨⟨fun _ => rfl, fun _ => rfl, fun _ => rfl, fun _ h => (by cases h)⟩, fun _ => rfl⟩
  · cases s with
    | some s => exact .pure _
    | none => exact keeps_idleTimeout L r

theorem keeps_driveTurn {r : Nat} (hr : Captures A r) (pid idle : Nat) :
    Keeps P t I (driveTurn C r pid idle) := by
  refine .bind (L.calm (calm_gets _)) fun w => ?_
  split
  · refine Keeps.ite (.pure _) (.bind (L.frames.keeps (only_monotonic.mpr trivial)) fun now =>
      .bind (L.frames.keeps (lax_onResident r ?_)) fun _ =>
      .bind (keeps_serveOnResident L hr _ pid) fun _ => keeps_parkResident L r idle)
    exact ⟨⟨fun _ => rfl, fun _ => rfl, fun _ => rfl, fun _ h => (by cases h)⟩, fun _ => rfl⟩
  · exact .pure _

theorem keeps_driveBody {r : Nat} (hr : Captures A r) : Keeps P t I (driveBody C r) := by
  refine .bind (L.calm (calm_firstSlot r)) fun s =>
    .bind (L.frames.keeps (lax_spawnForResident C r s)) fun pid => ?_
  cases pid with
  | none => exact .pure _
  | some pid =>
      exact .bind (L.calm (calm_gets _)) fun x => .whileTrue (keeps_driveTurn L hr pid _)

theorem keeps_driveFinally (r : Nat) : Keeps P t I (driveFinally r) := by
  refine .bind (L.calm (calm_gets _)) fun x => .when (.bind (L.claimTeardown r) fun _ =>
    .bind (L.frames.keeps (lax_reapClaimed _ _)) fun _ => .bind (L.calm (calm_gets _)) fun y =>
    .bind (L.frames.keeps (lax_onResident r ?_)) fun _ =>
    .bind (keeps_requeueSlotsOrFail L _) fun _ => .bind (L.calm (calm_gets _)) fun y => ?_)
  · exact ⟨⟨fun _ => rfl, fun _ => rfl, fun _ => rfl, fun _ h => h⟩, fun _ => rfl⟩
  · split
    · exact .when (L.frames.keeps (only_failCompletionFuture.mpr trivial))
    · exact .pure _

/-- What any task but the worker runs. -/
theorem Errands.program {k : Kind} (hk : k.submits T) (hw : k ≠ .worker)
    (hd : ∀ r, k = .driver r → Captures A r) : Keeps P t I (program C t k) := by
  cases k with
  | driver r => exact .tryFinally (keeps_driveBody L (hd r rfl)) (keeps_driveFinally L r)
  | completeOne s pid => exact L.calm (calm_completeOneSlot s pid)
  | awaitStreamed s => exact L.calm (calm_awaitStreamedSlot s)
  | auditEvicted s => exact L.calm (calm_auditEvictedSlot s)
  | requeueAfterBackoff s => exact keeps_requeueAfterBackoff L s
  | requeueSlots ss => exact keeps_requeueSlotsOrFail L ss
  | evictTeardown r => exact L.frames.keeps (lax_evictTeardown r)
  | reapDead r => exact keeps_reapDeadResident L r
  | _ => exact L.submits.program L.closeQueue rfl hw hk

end

/-! ### The worker -/

section

variable [V : ErrandVocabulary A] (F : Frames P t I A fun _ => True)
  (hp : ∀ tag, Keeps P t I (popNext C tag)) (hr : ∀ s, Keeps P t I (routeOrReserve C s))

include F hp hr

theorem keeps_routingTurn : Keeps P t I (dispatchTurn C) := by
  refine .bind (F.keeps V.refl) fun warm => .bind (hp warm) fun r => ?_
  cases r with
  | none => exact F.keeps (only_sleep.mpr trivial)
  | some s =>
      exact .bind (F.keeps V.refl) fun x => Keeps.ite (F.keeps (calm_handleEvictedSlot s).lax)
        (.tryExcept (hr s) fun _ => .bind (F.keeps (only_mark.mpr trivial))
          fun _ => F.keeps (only_failCompletionFuture.mpr trivial))

theorem keeps_routingLoop : Keeps P t I (dispatchLoop C) :=
  .whileTrue (.bind (F.keeps V.refl) fun _ => Keeps.ite (.pure _)
    (.bind (keeps_routingTurn F hp hr) fun _ => .pure _))

end

variable [V : WalkVocabulary A] [K : CaptureVocabulary A] (L : Walks C P t I A T)

include L

omit K in
theorem Walks.shares : Shares C P t I A where
  frames := L.frames.fewer fun _ _ => trivial
  popMatchedThread := L.popMatchedThread
  hand := bare_hand L.popNext L.enqueueHead
  forceCold := fun s reason => L.frames.keeps (lax_forceCold s reason)

theorem Walks.turns : Turns C P t I A fun _ => I :=
  turns_of_serves
    { frames := L.frames
      serveAnchor := keeps_serveAnchor L.shares
      linger := fun s _ => keeps_linger L.shares.toWarm (L.calm (calm_enterGrace s)) }
    L.popNext fun x => L.frames.keeps fun w => V.seated w x

theorem keeps_workerLoop : Keeps P t I (workerLoop C) :=
  Keeps.ite (keeps_routingLoop L.frames L.popNext L.routeOrReserve) (keeps_serialLoop L.turns)

/-- What any task runs. -/
theorem Walks.program {k : Kind} (hk : k.submits T) : Keeps P t I (program C t k) := by
  by_cases hw : k = .worker
  · subst hw
    exact keeps_workerLoop L
  · exact L.toErrands.program hk hw fun r _ => captures r

/-- A task from its start. -/
theorem Walks.body {k : Kind} (hk : k.submits T) (r : Reply) : Keeps P t I (taskBody C t k r) := by
  unfold taskBody
  exact Keeps.ite (.throw _) (L.program hk)

end

/-! ## What is upheld by all tasks -/

/-- An invariant of the queue and the registry, and what is never undone. -/
structure Upheld (J : World → Prop) (R : World → World → Prop) : Prop where
  refl : ∀ w, R w w
  trans : ∀ a b c, R a b → R b c → R a c
  plain : ∀ {w w'}, Plain w w' → J w → J w' ∧ R w w'

/-- All tasks and the outside keep the same. -/
def upholding (A : Admit (system C)) (J : World → Prop) (R : World → World → Prop) :
    Outline (system C) where
  cond := A
  base := fun _ => True
  inv := J
  guar := fun _ => R

section

variable {C} {A : Admit (system C)} {J : World → Prop} {R : World → World → Prop} {t : Nat}

theorem frames_upheld (U : Upheld J R) :
    Frames (upholding C A J R) t (fun s w => J w ∧ R s w) Plain fun _ => True where
  act := fun h hi => ⟨(U.plain h hi.1).1, U.trans _ _ _ hi.2 (U.plain h hi.1).2⟩
  ask := fun o _ _ w hi r _ _ =>
    have h := U.plain (plain_answer t o r w) hi.1
    ⟨h.1, U.trans _ _ _ hi.2 h.2⟩
  await := fun o _ _ w hi =>
    have h := U.plain (plain_issue t o w) hi.1
    ⟨⟨h.1, U.trans _ _ _ hi.2 h.2⟩, fun w' _ hg r _ _ => U.plain (plain_answer t o r w') hg.1⟩

theorem fresh_kind {w : World} {k : Kind} (h : fresh w t = some k) : (w.task t).kind = k := by
  unfold fresh at h
  split at h
  · exact Option.some.inj h
  · cases h

/-- Walking the program of every task is enough. -/
theorem upholding_verified (U : Upheld J R) {T : String → Prop} {w₀ : World} (hinit : J w₀)
    (L : ∀ t, Walks C (upholding C A J R) t (fun s w => J w ∧ R s w) Plain T)
    (hkind : ∀ t w, J w → (w.task t).kind.submits T)
    (hrequest : ∀ k w, J w → A.env (.request k) w = true → k.isRequest = true →
      J (w.fork k) ∧ R w (w.fork k)) : (upholding C A J R).Verified w₀ where
  init := hinit
  start := fun t w k r hg hf _ _ => by
    have hk : (w.task t).kind = k := fresh_kind hf
    have h := U.plain (plain_answer t .entry r w) hg.1
    refine wp_mono (fun x s w' hw => ?_) ((L t).body (hk ▸ hkind t w hg.1) r w _ h)
    have hf := U.plain (plain_finished t x w') hw.1
    exact ⟨hf.1, U.trans _ _ _ hw.2 hf.2⟩
  env := fun e w w' hg ha h => by
    have h : envStep e w = some w' := h
    cases e with
    | request k =>
        simp only [envStep, Option.ite_none_right_eq_some, Option.some.injEq] at h
        obtain ⟨hk, rfl⟩ := h
        exact hrequest k w hg.1 ha hk
    | _ => exact U.plain (plain_envStep h fun _ => by rintro ⟨⟩) hg.1

end

end Turbohaul
