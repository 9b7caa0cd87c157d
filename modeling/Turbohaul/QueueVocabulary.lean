/-
# `QueueVocabulary` — programs that use the queue

A class of assignments that does not look at the queue, nor at which slots
there are, has all that is written with them: the methods of the queue, the
submissions, the requeue tasks, and the grace window of a resident.
-/
import Turbohaul.Vocabulary

namespace Turbohaul

open Coop

/-- A vocabulary in which slots leave staging and move up from the acceptance
buffer. -/
class PopVocabulary (A : World → World → Prop) : Prop extends Vocabulary A where
  trans : ∀ {a b c}, A a b → A b c → A a c
  flagged : ∀ w s, A w (w.flagEvicted s)
  leaves : ∀ w {xs : List Nat}, xs.Sublist w.queue.staging →
    A w (w.setQueue fun q => { q with staging := xs })
  drops : ∀ w {s : Nat} {rest : List Nat}, w.queue.acceptBuf = s :: rest →
    A w (w.setQueue fun q => { q with acceptBuf := rest })
  promotes : ∀ w {s : Nat} {rest : List Nat}, w.queue.acceptBuf = s :: rest →
    A w (((w.setQueue fun q => { q with acceptBuf := rest }).setSlot s fun x =>
      { x with state := .staged }).setQueue fun q => { q with staging := q.staging ++ [s] })
  counts : ∀ w n tag, A w (w.setQueue fun q =>
    { q with consecutiveSameModel := n, lastPoppedModelTag := tag })

/-- A vocabulary in which the queue is of no importance. -/
class QueueVocabulary (A : World → World → Prop) : Prop extends PopVocabulary A,
    ResidentVocabulary A, GraceVocabulary A where
  queue : ∀ w (f : Queue → Queue), A w (w.setQueue f)
  alloc : ∀ w t x, A w (w.alloc t x)
  attached : ∀ w s, A w (w.setSlot s Slot.attachEvents)
  leaves := fun w _ _ => queue w _
  drops := fun w _ _ _ => queue w _
  promotes := fun w s _ _ => trans (trans (queue w _) (slot _ s (f := fun x =>
    { x with state := .staged }) (.of_silent (fun _ => rfl) fun _ => rfl))) (queue _ _)
  counts := fun w _ _ => queue w _

/-! ## The queue -/

section

variable {A : World → World → Prop} [V : PopVocabulary A] (C : Config)

@[simp] theorem calm_popFirst : Calm A popFirst := by
  intro w
  dsimp only
  split
  · exact V.refl w
  · next s rest hs =>
      exact V.trans (V.leaves w (by rw [hs]; exact List.sublist_cons_self s rest)) (V.flagged _ _)

@[simp] theorem calm_popFirstMatching (tag : String) : Calm A (popFirstMatching C tag) := by
  intro w
  dsimp only
  split
  · exact V.refl w
  · exact V.trans (V.leaves w List.erase_sublist) (V.flagged _ _)

@[simp] theorem calm_promoteOne : Calm A promoteOne := by
  intro w
  dsimp only
  split
  · exact V.refl w
  · next s rest hb =>
      have hd := V.drops w hb
      have hp := V.promotes w hb
      unfold World.moveTo
      generalize hx : Slot.transition s .staged _ = r
      cases r with
      | ok x =>
          rw [transition_eq_ok hx]
          exact hp
      | error e => exact hd

@[simp] theorem calm_replenish : Calm A (replenish C) := by
  simp [replenish]

@[simp] theorem calm_drainAcceptBuf : Calm A (drainAcceptBuf C) := by
  simp [drainAcceptBuf]

@[simp] theorem calm_updateRunLength (s : Option Nat) : Calm A (updateRunLength s) := by
  cases s with
  | none => trivial
  | some s =>
      simp only [updateRunLength, only_modify]
      exact fun w => V.counts w _ _

@[simp] theorem calm_popNextFifo : Calm A (popNextFifo C) := by
  refine ⟨calm_popFirst, fun r => ?_⟩
  cases r <;> simp

@[simp] theorem calm_headStarved (s : Nat) (tag : String) : Calm A (headStarved C s tag) := by
  simp [QuietOp, headStarved]

@[simp] theorem calm_popPreferring (tag : String) : Calm A (popPreferring C tag) := by
  refine ⟨calm_popFirstMatching C tag, fun r => ?_⟩
  cases r <;> simp

@[simp] theorem calm_popNextAffine (tag : String) (s : Nat) :
    Calm A (popNextAffine C tag s) := by
  simp [popNextAffine]

@[simp] theorem calm_popPath (tag : Option String) (staging : List Nat) :
    Calm A (popPath C tag staging) := by
  unfold popPath
  split
  · exact calm_popNextAffine C _ _
  · exact calm_popNextFifo C

@[simp] theorem calm_popNext (tag : Option String) : Calm A (popNext C tag) := by
  refine ⟨calm_gets _, fun q => ⟨calm_popPath C tag _, fun r => ?_⟩⟩
  cases r <;> simp [QuietOp]

@[simp] theorem calm_popMatchedThread (th tag : String) :
    Calm A (popMatchedThread th tag) := by
  refine only_ite.mpr ⟨fun _ => trivial, fun _ => ⟨fun w => ?_, fun r => ?_⟩⟩
  · dsimp only
    split
    · exact V.refl w
    · exact V.trans (V.leaves w List.erase_sublist) (V.flagged _ _)
  · cases r <;> simp [QuietOp]

end

variable {A : World → World → Prop} [V : QueueVocabulary A] (C : Config)

@[simp] theorem calm_enqueue (s : Nat) : Calm A (enqueue C s) := by
  have h : ∀ f : Queue → Queue, ∀ w : World, A w (w.setQueue f) := fun f w => V.queue w f
  simp [enqueue, h]

@[simp] theorem calm_enqueueHead (s : Nat) : Calm A (enqueueHead s) := by
  have h : ∀ f : Queue → Queue, ∀ w : World, A w (w.setQueue f) := fun f w => V.queue w f
  simp [enqueueHead, QuietOp, h]

@[simp] theorem calm_closeQueue : Calm A closeQueue := by
  simp only [closeQueue, only_act]
  exact fun w => V.queue w _

/-! ## Submissions and routes -/

@[simp] theorem calm_allocSlot (t : Nat) (x : Slot) : Calm A (allocSlot t x) :=
  fun w => V.alloc w t x

@[simp] theorem calm_enqueueFresh (s : Nat) (b : Bool) : Calm A (enqueueFresh C s b) := by
  simp [enqueueFresh]

@[simp] theorem calm_submit (t : Nat) (q : Request) (b : Bool) :
    Calm A (submit C t q b) := by
  simp [QuietOp, submit]

@[simp] theorem calm_submitAndWait (t : Nat) (q : Request) :
    Calm A (submitAndWait C t q) := by
  refine ⟨calm_submit C t q true, fun s => ⟨only_sync.mpr trivial, fun _ =>
    ⟨calm_gets _, fun x => ?_⟩⟩⟩
  dsimp only
  split <;> trivial

@[simp] theorem calm_submitForStreaming (t : Nat) (q : Request) :
    Calm A (submitForStreaming C t q) :=
  ⟨calm_submit C t q true, fun s => ⟨fun w => V.attached w s, fun _ => trivial⟩⟩

@[simp] theorem calm_streamRoute (t : Nat) (q : Request) : Calm A (streamRoute C t q) := by
  simp [streamRoute]

@[simp] theorem calm_embeddingsRoute (t : Nat) (q : Request) :
    Calm A (embeddingsRoute C t q) :=
  ⟨calm_submitForStreaming C t q, fun s => only_tryFinally.mpr ⟨⟨only_sync.mpr trivial,
    fun _ => calm_routeUpstream s⟩, calm_setDone s⟩⟩

/-! ## The residents -/

@[simp] theorem calm_requeueSlotsOrFail : ∀ ss, Calm A (requeueSlotsOrFail ss)
  | [] => trivial
  | s :: rest => by
      refine ⟨calm_enqueueHead s, fun r => ?_⟩
      match r with
      | .ok _ => exact calm_requeueSlotsOrFail rest
      | .error .cancelled =>
          exact ⟨only_forEach (fun s => only_failCompletionFuture.mpr trivial) _, fun _ => trivial⟩
      | .error (.raised e) =>
          exact ⟨only_failCompletionFuture.mpr trivial, fun _ => calm_requeueSlotsOrFail rest⟩

@[simp] theorem calm_requeueAfterBackoff (s : Nat) : Calm A (requeueAfterBackoff s) := by
  refine ⟨⟨only_sleep.mpr trivial, fun _ => calm_enqueueHead s⟩, fun r => ?_⟩
  match r with
  | .ok _ => trivial
  | .error .cancelled => exact ⟨only_failCompletionFuture.mpr trivial, fun _ => trivial⟩
  | .error (.raised e) => exact only_failCompletionFuture.mpr trivial

theorem calm_residentGrace {r : Nat} (hr : Captures A r) (s pid : Nat) :
    Calm A (residentGrace C r s pid) := by
  refine ⟨calm_gets _, fun x => ⟨only_monotonic.mpr trivial, fun start deadline =>
    ⟨only_monotonic.mpr trivial, fun now => ⟨calm_gets _, fun stop => only_ite.mpr
      ⟨fun _ => ⟨calm_popMatchedThread _ _, fun m => ?_⟩, fun _ => trivial⟩⟩⟩⟩⟩
  cases m with
  | none => simp [QuietOp]
  | some matched => exact ⟨calm_residentFollowUp C hr s matched pid _, fun _ => trivial⟩

theorem calm_serveOnResident {r : Nat} (hr : Captures A r) (s pid : Nat) :
    Calm A (serveOnResident C r s pid) := by
  have hg : ∀ now th tag,
      Calm A (onResident r fun x => { x with grace := x.grace.start now th tag }) :=
    fun _ _ _ => calm_onResident r ⟨fun _ => rfl, fun _ => rfl, fun _ => rfl, fun _ h => h,
      fun _ _ h => h, fun _ => rfl⟩
  have hc := fun v => hr v
  have hw := calm_residentGrace C hr
  simp [serveOnResident, QuietOp, hg, hc, hw]

/-- What the quiet kinds of tasks run. -/
theorem calm_program (t : Nat) {k : Kind} (hk : k.quiet = true) : Calm A (program C t k) := by
  cases k with
  | submitAndWait q => exact calm_submitAndWait C t q
  | streamRoute q => exact calm_streamRoute C t q
  | embeddingsRoute q => exact calm_embeddingsRoute C t q
  | completeFn s pid => exact calm_completionTask t s pid
  | streamDoneWaiter s => exact calm_streamDoneWaiter s
  | completeOne s pid => exact calm_completeOneSlot s pid
  | awaitStreamed s => exact calm_awaitStreamedSlot s
  | auditEvicted s => exact calm_auditEvictedSlot s
  | requeueAfterBackoff s => exact calm_requeueAfterBackoff s
  | requeueSlots ss => exact calm_requeueSlotsOrFail ss
  | _ => cases hk

end Turbohaul
