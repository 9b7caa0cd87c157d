/-
# `QuietPrograms` — the programs made of quiet statements

The quiet statements are a vocabulary, and the queue is of no importance to
them.  What `shutdown` does before it reaps, and the outside's steps, are quiet
as well.
-/
import Turbohaul.Quiet
import Turbohaul.QueueVocabulary

namespace Turbohaul

open Coop

/-- The program leaves the sidecars alone. -/
abbrev IsQuiet {α : Type} (m : Prog α) : Prop := Calm Quiet m

theorem Minor.quiet (w : World) (r : Nat) {f : Resident → Resident} (hf : Minor f) :
    Quiet w (w.setResident r f) := quiet_setResident w r f (hf.lease _) (hf.tasks _)

instance : ResidentVocabulary Quiet where
  refl := Quiet.refl
  slot := fun w s _ _ => quiet_setSlot w s _
  occupied := fun w _ => (quiet_setHold w _ rfl rfl fun _ h => h).trans
    (quiet_mirror _ _ (fun _ => rfl) fun _ _ h => h)
  dispatched := fun w s _ => (quiet_setSlot w s _).trans (quiet_record _ _ rfl)
  holder := fun w _ hf => quiet_setHold w _ (hf.activeHandle _) (hf.idleHandle _) fun e he => by
    rwa [hf.riderTasks] at he
  mirrored := fun w _ _ hf hg =>
    (quiet_setHold w _ (hf.activeHandle _) (hf.idleHandle _) fun e he => by
      rwa [hf.riderTasks] at he).trans (quiet_mirror _ _ hg.lease fun x => hg.tasks x)
  resident := fun w r _ hf => hf.quiet w r
  value := fun w t v => quiet_setTask w t _ rfl rfl (fun h => h) fun T h => T.cancel t h
  helper := fun w _ hk => quiet_fork w _ (Bool.and_eq_true_iff.mp hk).1
  startInFlight := fun w r _ s hk => quiet_startInFlight w r _ s (Bool.and_eq_true_iff.mp hk).1
  cancelInFlight := quiet_cancelInFlight

instance : CaptureVocabulary Quiet where
  latest := fun w _ => (quiet_setHold w _ rfl rfl fun _ h => h).trans
    (quiet_mirror _ _ (fun _ => rfl) fun _ _ h => h)
  captured := fun w r _ => quiet_setResident w r _ rfl fun _ h => h

instance : GraceVocabulary Quiet where
  timed := fun w _ => quiet_setHold w _ rfl rfl fun _ h => h
  graced := fun w e he => quiet_record w e (by cases e <;> first | rfl | cases he)

instance : RiderVocabulary Quiet where
  inflight := fun w _ => quiet_setHold w _ rfl rfl fun _ h => h
  anchored := fun w _ => quiet_setHold w _ rfl rfl fun _ h => by cases h
  startRider := fun w _ s hk =>
    quiet_startRider w _ s (Bool.and_eq_true_iff.mp (Kind.isRider_helper hk)).1
  cancelRider := quiet_cancelRider
  noted := fun w e he => quiet_record w e (by cases e <;> first | rfl | cases he)

theorem quiet_alloc (t : Nat) (x : Slot) (w : World) : Quiet w (w.alloc t x) := by
  have slots : Quiet w
      { w with slot := setAt w.slot w.slotCount x, slotCount := w.slotCount + 1 } :=
    .of_same rfl rfl rfl (fun _ h => h) fun _ _ h => h
  exact slots.trans (quiet_setTask _ t _ rfl rfl (fun h => h) fun T h => T.cancel t h)

theorem quiet_flagEvicted (w : World) (s : Nat) : Quiet w (w.flagEvicted s) := by
  unfold World.flagEvicted
  split
  · exact quiet_setSlot w s _
  · exact .refl w

instance : QueueVocabulary Quiet where
  trans := Quiet.trans
  queue := fun w f => quiet_setQueue w f
  flagged := quiet_flagEvicted
  alloc := fun w t x => quiet_alloc t x w
  attached := fun w s => quiet_setSlot w s _

/-! ## Statements -/

theorem isQuiet_run {o : Op} (ho : QuietOp o) : IsQuiet (run o) := only_run.mpr ho

theorem isQuiet_sync {o : Op} (ho : QuietOp o) : IsQuiet (sync o) := only_sync.mpr ho

@[simp] theorem isQuiet_onSlot (s : Nat) (f : Slot → Slot) : IsQuiet (onSlot s f) :=
  fun w => quiet_setSlot w s f

theorem isQuiet_failCompletionFuture (x : FailSite) (s : Nat) (e : Err) :
    IsQuiet (failCompletionFuture x s e) := isQuiet_run trivial

/-! ## The dispatcher -/

theorem quiet_drainInbox (r : Nat) (w : World) : Quiet w (w.drainInbox r) :=
  (quiet_setResident w r (fun x => { x with inbox := some [] }) rfl fun _ h => h).trans
    (quiet_fork _ _ rfl)

/-! ## The manager -/

theorem mem_bgTasks {w : World} {t : Nat} (h : t ∈ w.bgTasks) :
    t < w.taskCount ∧ (w.task t).kind.isBg = true := by
  simp only [World.bgTasks, List.mem_filter, List.mem_range, Bool.and_eq_true] at h
  exact ⟨h.1, h.2.1⟩

theorem Kind.isBg_cancellable {k : Kind} (h : k.isBg = true) : k.cancellable = true := by
  cases k <;> first | rfl | cases h

theorem quiet_cancelBg (ts : List Nat) (w : World) : Quiet w (w.cancelBg ts) := by
  refine quiet_cancelAll (fun t => t) _ w fun _ t ht => ?_
  have hb := mem_bgTasks (of_decide_eq_true (List.mem_filter.mp ht).2)
  exact ⟨hb.1, Kind.isBg_cancellable hb.2⟩

@[simp] theorem isQuiet_drainBgTasks : IsQuiet drainBgTasks :=
  ⟨calm_gets _, fun ts => only_when.mpr fun _ => only_tryExcept.mpr ⟨isQuiet_sync trivial,
    fun _ => ⟨fun w => quiet_cancelBg ts w, fun _ => isQuiet_sync trivial⟩⟩⟩

theorem quiet_cancelDrivers (w : World) : Quiet w w.cancelDrivers := by
  refine quiet_cancelAll (fun t => t) _ w fun T t ht => ?_
  obtain ⟨e, -, he⟩ := List.mem_filterMap.mp (List.mem_filter.mp ht).1
  obtain ⟨hlt, hk⟩ := T.drivers e.2 t he
  exact ⟨hlt, by rw [hk]; rfl⟩

@[simp] theorem isQuiet_stopDrivers : IsQuiet stopDrivers :=
  ⟨only_mark.mpr trivial, fun _ => ⟨calm_gets _, fun _ => ⟨quiet_cancelDrivers, fun _ =>
    only_when.mpr fun _ => isQuiet_sync trivial⟩⟩⟩

theorem quiet_cancelWorker (w : World) : Quiet w (w.cancelTask workerTask) :=
  quiet_cancelTask w workerTask fun T => by rw [T.worker.2]; rfl

theorem quiet_disconnect (w : World) (s : Nat) : Quiet w (w.disconnect s) := by
  unfold World.disconnect
  dsimp only
  split
  · exact (quiet_setSlot w s _).trans (quiet_record _ _ rfl)
  · exact quiet_setSlot w s _

/-- The outside's steps, but for the call of `shutdown()`. -/
theorem quiet_envStep {e : Env} {w w' : World} (h : envStep e w = some w') (he : e ≠ .shutdown) :
    Quiet w w' := by
  cases e with
  | request k =>
      simp only [envStep] at h
      split at h
      · next hk =>
          cases h
          refine quiet_fork w k ?_
          cases k <;> first | rfl | cases hk
      · cases h
  | shutdown => exact absurd rfl he
  | exit pid =>
      cases h
      exact quiet_processExit w pid
  | disconnect s =>
      cases h
      exact quiet_disconnect w s
  | cancelRoute t =>
      simp only [envStep] at h
      split at h
      · next hk =>
          cases h
          refine quiet_cancelTask w t fun _ => ?_
          cases hkd : (w.task t).kind <;> first | rfl | (rw [hkd] at hk; cases hk)
      · cases h
  | innerGet r =>
      simp only [envStep, World.innerGet] at h
      split at h
      · next s rest _ _ =>
          cases h
          exact quiet_setResident w r (fun x => { x with getter := .taken s, inbox := some rest })
            rfl fun _ h => h
      · cases h

end Turbohaul
