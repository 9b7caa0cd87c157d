/-
# `Plain` — statements that leave the queue and the registry alone

Which slots wait in the queue, and which residents are registered where, is
decided by few statements: the methods of the queue, the reservation, the
eviction, and the driver's `finally`.  All others are plain, those that spawn
and reap included, and so are all operations.
-/
import Turbohaul.Vocabulary

namespace Turbohaul

open Coop

/-- A statement that leaves the queue and the registry alone. -/
structure Plain (w w' : World) : Prop where
  queue : w'.queue = w.queue
  registry : w'.registry = w.registry
  residentCount : w'.residentCount = w.residentCount
  modelTag : ∀ r, (w'.resident r).modelTag = (w.resident r).modelTag
  splitMode : ∀ r, (w'.resident r).splitMode = (w.resident r).splitMode
  mainGpu : ∀ r, (w'.resident r).mainGpu = (w.resident r).mainGpu
  dead : ∀ r, (w'.resident r).state = .dead → (w.resident r).state = .dead
  slotTag : ∀ s, (w'.slot s).modelTag = (w.slot s).modelTag
  requests : ∀ t, (w'.task t).kind.isRequest = true → (w'.task t).kind = (w.task t).kind

theorem Plain.refl (w : World) : Plain w w :=
  ⟨rfl, rfl, rfl, fun _ => rfl, fun _ => rfl, fun _ => rfl, fun _ h => h, fun _ => rfl,
    fun _ _ => rfl⟩

theorem Plain.trans {a b c : World} (h : Plain a b) (h' : Plain b c) : Plain a c where
  queue := h'.queue.trans h.queue
  registry := h'.registry.trans h.registry
  residentCount := h'.residentCount.trans h.residentCount
  modelTag := fun r => (h'.modelTag r).trans (h.modelTag r)
  splitMode := fun r => (h'.splitMode r).trans (h.splitMode r)
  mainGpu := fun r => (h'.mainGpu r).trans (h.mainGpu r)
  dead := fun r hd => h.dead r (h'.dead r hd)
  slotTag := fun s => (h'.slotTag s).trans (h.slotTag s)
  requests := fun t ht => by
    have hk := h'.requests t ht
    exact hk.trans (h.requests t (hk ▸ ht))

/-! ## Assignments -/

/-- A statement that changes none of the tables. -/
theorem plain_same {w w' : World} (hq : w'.queue = w.queue) (hg : w'.registry = w.registry)
    (hc : w'.residentCount = w.residentCount) (hr : w'.resident = w.resident)
    (hs : w'.slot = w.slot) (ht : w'.task = w.task) : Plain w w' :=
  ⟨hq, hg, hc, fun _ => by rw [hr], fun _ => by rw [hr], fun _ => by rw [hr],
    fun _ h => by rwa [hr] at h, fun _ => by rw [hs], fun _ _ => by rw [ht]⟩

theorem plain_setSlot (w : World) (s : Nat) {f : Slot → Slot}
    (hf : ∀ x, (f x).modelTag = x.modelTag) : Plain w (w.setSlot s f) := by
  refine ⟨rfl, rfl, rfl, fun _ => rfl, fun _ => rfl, fun _ => rfl, fun _ h => h, fun x => ?_,
    fun _ _ => rfl⟩
  by_cases hx : x = s
  · subst hx
    simp [World.setSlot, hf]
  · simp [World.setSlot, setAt_of_ne hx]

/-- An assignment to a resident that neither moves nor kills it. -/
structure Stays (f : Resident → Resident) : Prop where
  modelTag : ∀ x, (f x).modelTag = x.modelTag
  splitMode : ∀ x, (f x).splitMode = x.splitMode
  mainGpu : ∀ x, (f x).mainGpu = x.mainGpu
  dead : ∀ x, (f x).state = .dead → x.state = .dead

theorem Minor.stays {f : Resident → Resident} (h : Minor f) : Stays f :=
  ⟨fun x => congrArg Lease.modelTag (h.lease x), h.splitMode, h.mainGpu, h.dead⟩

theorem plain_setResident (w : World) (r : Nat) {f : Resident → Resident} (hf : Stays f) :
    Plain w (w.setResident r f) := by
  have old : ∀ d, d ≠ r → (w.setResident r f).resident d = w.resident d := fun d hd => by
    simp [World.setResident, setAt_of_ne hd]
  have new : (w.setResident r f).resident r = f (w.resident r) := by simp [World.setResident]
  refine ⟨rfl, rfl, rfl, fun d => ?_, fun d => ?_, fun d => ?_, fun d h => ?_, fun _ => rfl,
    fun _ _ => rfl⟩ <;> rcases eq_or_ne d r with rfl | hd
  · rw [new, hf.modelTag]
  · rw [old d hd]
  · rw [new, hf.splitMode]
  · rw [old d hd]
  · rw [new, hf.mainGpu]
  · rw [old d hd]
  · rw [new] at h
    exact hf.dead _ h
  · rwa [old d hd] at h

theorem plain_mirror (w : World) {f : Resident → Resident} (hf : Stays f) :
    Plain w (w.mirror f) := by
  unfold World.mirror
  split
  · exact plain_setResident w _ hf
  · exact .refl w

theorem plain_setHold (w : World) (f : Holder → Holder) : Plain w (w.setHold f) :=
  plain_same rfl rfl rfl rfl rfl rfl

theorem plain_setProcs (w : World) (f : Procs → Procs) : Plain w (w.setProcs f) :=
  plain_same rfl rfl rfl rfl rfl rfl

theorem plain_record (w : World) (e : Event) : Plain w (w.record e) :=
  plain_same rfl rfl rfl rfl rfl rfl

/-- A change to a task's record that keeps its kind. -/
theorem plain_setTask (w : World) (t : Nat) {f : TaskRec → TaskRec}
    (hf : ∀ k, (f k).kind = k.kind) : Plain w (w.setTask t f) := by
  refine ⟨rfl, rfl, rfl, fun _ => rfl, fun _ => rfl, fun _ => rfl, fun _ h => h, fun _ => rfl,
    fun u _ => ?_⟩
  rcases eq_or_ne u t with rfl | hu
  · simp [World.setTask, hf]
  · simp [World.setTask, setAt_of_ne hu]

theorem plain_fork (w : World) {k : Kind} (hk : k.isRequest = false) : Plain w (w.fork k) := by
  refine ⟨rfl, rfl, rfl, fun _ => rfl, fun _ => rfl, fun _ => rfl, fun _ h => h, fun _ => rfl,
    fun u hu => ?_⟩
  rcases eq_or_ne u w.taskCount with rfl | hne
  · simp [World.fork, hk] at hu
  · simp [World.fork, setAt_of_ne hne]

theorem plain_cancelTask (w : World) (t : Nat) : Plain w (w.cancelTask t) :=
  plain_setTask w t fun k => by split <;> rfl

/-- Cancelling several tasks. -/
theorem plain_cancelAll {α : Type} (f : α → Nat) : ∀ (xs : List α) (w : World),
    Plain w (xs.foldl (fun w x => w.cancelTask (f x)) w)
  | [], w => .refl w
  | x :: xs, w => (plain_cancelTask w (f x)).trans (plain_cancelAll f xs _)

theorem plain_exits : ∀ (ps : List Nat) (w : World),
    Plain w (ps.foldl (fun w p => w.processExit p) w)
  | [], w => .refl w
  | _ :: ps, w => (plain_setProcs w _).trans (plain_exits ps _)

instance : ResidentVocabulary Plain where
  refl := Plain.refl
  slot := fun w s _ hf => plain_setSlot w s hf.modelTag
  occupied := fun w _ => (plain_setHold w _).trans (plain_mirror _
    ⟨fun _ => rfl, fun _ => rfl, fun _ => rfl, fun _ h => h⟩)
  dispatched := fun w s pid =>
    (plain_setSlot w s (f := fun x => { x with streamHandle := some pid }.setReady)
      fun _ => rfl).trans (plain_record _ _)
  holder := fun w _ _ => plain_setHold w _
  mirrored := fun w _ _ _ hg => (plain_setHold w _).trans (plain_mirror _ hg.stays)
  resident := fun w r _ hf => plain_setResident w r hf.stays
  value := fun w t _ => plain_setTask w t fun _ => rfl
  helper := fun w _ hk => plain_fork w (by simpa using (Bool.and_eq_true_iff.mp hk).2)
  startInFlight := fun w r _ s hk =>
    (plain_fork w (by simpa using (Bool.and_eq_true_iff.mp hk).2)).trans
      (plain_setResident _ r (f := fun x => { x with tasks := (w.taskCount, s) :: x.tasks })
        ⟨fun _ => rfl, fun _ => rfl, fun _ => rfl, fun _ h => h⟩)
  cancelInFlight := fun w r => plain_cancelAll Prod.fst _ w

instance : CaptureVocabulary Plain where
  latest := fun w _ => (plain_setHold w _).trans
    (plain_mirror _ ⟨fun _ => rfl, fun _ => rfl, fun _ => rfl, fun _ h => h⟩)
  captured := fun w r _ =>
    plain_setResident w r ⟨fun _ => rfl, fun _ => rfl, fun _ => rfl, fun _ h => h⟩

instance : GraceVocabulary Plain where
  timed := fun w _ => plain_setHold w _
  graced := fun w e _ => plain_record w e

instance : RiderVocabulary Plain where
  inflight := fun w _ => plain_setHold w _
  anchored := fun w _ => plain_setHold w _
  startRider := fun w _ s hk =>
    (plain_fork w (by
      simpa using (Bool.and_eq_true_iff.mp (Kind.isRider_helper hk)).2)).trans (plain_setHold _ _)
  cancelRider := fun w s => by
    unfold World.cancelRider
    split
    · exact plain_cancelTask w _
    · exact .refl w
  noted := fun w e _ => plain_record w e

/-! ## Operations -/

theorem slotTag_fail (e : Err) (x : Slot) : (x.fail e).modelTag = x.modelTag := by
  unfold Slot.fail
  split <;> rfl

theorem plain_issue (t : Nat) (o : Op) (w : World) : Plain w (issue t o w) := by
  cases o with
  | sigterm p | reapPid p | complete site s p => exact plain_same rfl rfl rfl rfl rfl rfl
  | inboxGetTimed r =>
      exact plain_setResident w r (f := fun x => { x with getter := .waiting })
        ⟨fun _ => rfl, fun _ => rfl, fun _ => rfl, fun _ h => h⟩
  | _ => exact .refl w

theorem plain_effect (t : Nat) (o : Op) (r : Reply) (w : World) : Plain w (effect t o r w) := by
  cases o with
  | fail site s e =>
      cases r <;> first
        | exact .refl w
        | exact plain_setSlot w s (slotTag_fail e)
  | future s =>
      cases r <;> first
        | exact .refl w
        | exact plain_setSlot w s (slotTag_fail _)
  | inboxGet q =>
      cases r <;> first
        | exact .refl w
        | exact plain_setResident w q (f := fun x => { x with inbox := x.inbox.map List.tail })
            ⟨fun _ => rfl, fun _ => rfl, fun _ => rfl, fun _ h => h⟩
  | inboxGetTimed q =>
      cases r <;>
        exact plain_setResident w q (f := fun x => { x with getter := .idle })
          ⟨fun _ => rfl, fun _ => rfl, fun _ => rfl, fun _ h => h⟩
  | orphanReap known =>
      cases r <;> first
        | exact .refl w
        | exact plain_exits _ w
  | _ => cases r <;> exact plain_same rfl rfl rfl rfl rfl rfl

theorem plain_delivered (t : Nat) (o : Op) (w : World) : Plain w (w.delivered t o) := by
  unfold World.delivered
  split
  · exact plain_setTask w t fun _ => rfl
  · split
    · exact plain_setTask w t fun _ => rfl
    · exact .refl w

theorem plain_answer (t : Nat) (o : Op) (r : Reply) (w : World) : Plain w (answer t o r w) :=
  (plain_effect t o r w).trans (plain_delivered t o _)

theorem plain_finished (t : Nat) (r : Res sig Unit) (w : World) : Plain w (finished t r w) := by
  have h : Plain w (w.setTask t fun k => { k with outcome := some (outcomeOf r) }) :=
    plain_setTask w t fun _ => rfl
  unfold finished
  dsimp only
  split
  · exact h.trans (plain_fork _ rfl)
  · exact h

/-- The outside's steps, but for the arrival of a request. -/
theorem plain_envStep {e : Env} {w w' : World} (h : envStep e w = some w')
    (he : ∀ k, e ≠ .request k) : Plain w w' := by
  cases e with
  | request k => exact absurd rfl (he k)
  | shutdown =>
      simp only [envStep, Option.ite_none_right_eq_some, Option.some.injEq] at h
      obtain ⟨-, rfl⟩ := h
      exact (plain_fork w (k := .shutdown) rfl).trans (plain_same rfl rfl rfl rfl rfl rfl)
  | exit pid =>
      cases h
      exact plain_setProcs w _
  | disconnect s =>
      cases h
      have hs : Plain w (w.setSlot s fun x =>
          { x with disconnectEvent := x.disconnectEvent.map fun _ => true }) :=
        plain_setSlot w s fun _ => rfl
      unfold World.disconnect
      dsimp only
      split
      · exact hs.trans (plain_record _ _)
      · exact hs
  | cancelRoute t =>
      simp only [envStep, Option.ite_none_right_eq_some, Option.some.injEq] at h
      obtain ⟨-, rfl⟩ := h
      exact plain_cancelTask w t
  | innerGet r =>
      simp only [envStep, World.innerGet] at h
      split at h
      · next s rest _ _ =>
          cases h
          exact plain_setResident w r (f := fun x =>
            { x with getter := .taken s, inbox := some rest })
            ⟨fun _ => rfl, fun _ => rfl, fun _ => rfl, fun _ h => h⟩
      · cases h

end Turbohaul
