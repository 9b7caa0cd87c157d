/-
# `PortRuns` — every run at cap 2 and above

The programs that give no port away, the two that do (the reservation and the
spawn of a driver), and the theorem.
-/
import Turbohaul.Ports

namespace Turbohaul

open Coop

variable {C : Config}

/-- The program gives no port away and tears down nobody but `r`. -/
abbrev IsSteady (r : Option Nat) {α : Type} (m : Prog α) : Prop := Only (Steadily r) NoSpawn m

theorem Calm.steady {α : Type} {m : Prog α} (h : IsQuiet m) (r : Option Nat) : IsSteady r m :=
  h.mono (fun _ _ hq => hq.steadily r) fun o ho => by
    cases o <;> trivial

/-! ## Residents -/

/-- An assignment to a resident that keeps its port and its driver.  Only the
resident that may be torn down may leave the loading state. -/
theorem steadily_setResident {r : Option Nat} (w : World) (d : Nat) {f : Resident → Resident}
    (hp : ∀ x, (f x).port = x.port ∧ (f x).driverTask = x.driverTask)
    (ht : ∀ x, ∀ e ∈ (f x).tasks, e ∈ x.tasks)
    (hl : ∀ x, x.state ≠ .reservedLoading → (f x).state ≠ .reservedLoading)
    (hs : r = some d ∨ ∀ x, (f x).state = x.state) : Steadily r w (w.setResident d f) := by
  intro T
  have self : (w.setResident d f).resident d = f (w.resident d) := setAt_self _ _ _
  have other : ∀ q, q ≠ d → (w.setResident d f).resident q = w.resident q := fun q hq =>
    setAt_of_ne hq
  have seat : ∀ q, ((w.setResident d f).resident q).port = (w.resident q).port ∧
      ((w.setResident d f).resident q).driverTask = (w.resident q).driverTask := by
    intro q
    by_cases hq : q = d
    · subst hq
      rw [self]
      exact hp _
    · rw [other q hq]
      exact ⟨rfl, rfl⟩
  refine
    { count := Nat.le_refl _
      kind := fun _ _ => rfl
      started := fun _ _ h => h
      outcome := fun _ _ => rfl
      new := fun t h h' => absurd h (Nat.not_lt_of_le h')
      residents := rfl
      seat := seat
      loading := fun q hq => ?_
      loaded := fun q hq => ?_
      registered := fun _ h => h
      keeps := fun _ h _ => h
      spawned := rfl
      port := fun _ => rfl
      reaped := fun _ h => h
      tame :=
        { riders := T.riders
          inFlight := fun q e he => ?_
          drivers := fun q t h => T.drivers q t (by rwa [(seat q).2] at h)
          cancel := T.cancel
          worker := T.worker
          onlyWorker := T.onlyWorker } }
  · by_cases h : q = d
    · subst h
      simp only [World.loading, self, (hs.resolve_left hq) _]
    · simp only [World.loading, other q h]
  · by_cases h : q = d
    · subst h
      simp only [World.loading, self, decide_eq_false_iff_not] at hq ⊢
      exact hl _ hq
    · simpa only [World.loading, other q h] using hq
  · by_cases h : q = d
    · subst h
      rw [self] at he
      exact T.inFlight q e (ht _ e he)
    · rw [other q h] at he
      exact T.inFlight q e he

theorem isSteady_onResident (d : Nat) {f : Resident → Resident}
    (hp : ∀ x, (f x).port = x.port ∧ (f x).driverTask = x.driverTask)
    (ht : ∀ x, ∀ e ∈ (f x).tasks, e ∈ x.tasks)
    (hl : ∀ x, x.state ≠ .reservedLoading → (f x).state ≠ .reservedLoading) :
    IsSteady (some d) (onResident d f) :=
  fun w => steadily_setResident w d hp ht hl (.inl rfl)

/-- An assignment that keeps the state as well tears nobody down. -/
theorem isSteady_onResident_same (r : Option Nat) (d : Nat) {f : Resident → Resident}
    (hp : ∀ x, (f x).port = x.port ∧ (f x).driverTask = x.driverTask)
    (ht : ∀ x, ∀ e ∈ (f x).tasks, e ∈ x.tasks) (hs : ∀ x, (f x).state = x.state) :
    IsSteady r (onResident d f) :=
  fun w => steadily_setResident w d hp ht (fun x h => by rwa [hs]) (.inr hs)

theorem steadily_deregister (w : World) (d : Nat) : Steadily (some d) w (w.deregister d) :=
  fun T =>
  { count := Nat.le_refl _
    kind := fun _ _ => rfl
    started := fun _ _ h => h
    outcome := fun _ _ => rfl
    new := fun t h h' => absurd h (Nat.not_lt_of_le h')
    residents := rfl
    seat := fun _ => ⟨rfl, rfl⟩
    loading := fun _ _ => rfl
    loaded := fun _ h => h
    registered := fun e he => (List.mem_filter.mp he).1
    keeps := fun e he hd => List.mem_filter.mpr ⟨he, by
      have : e.2 ≠ d := fun h => hd (by rw [h])
      simp [this]⟩
    spawned := rfl
    port := fun _ => rfl
    reaped := fun _ h => h
    tame := T.of_same rfl rfl rfl fun _ => ⟨rfl, rfl⟩ }

theorem steadily_fork (r : Option Nat) (w : World) {k : Kind} (hk : k ≠ .worker)
    (hd : ∀ d, k ≠ .driver d ∧ k ≠ .reapDead d) : Steadily r w (w.fork k) := by
  intro T
  have old : ∀ t < w.taskCount, (w.fork k).task t = w.task t := fun t ht =>
    setAt_of_ne (Nat.ne_of_lt ht)
  exact
    { count := Nat.le_succ _
      kind := fun t ht => by rw [old t ht]
      started := fun t ht h => by rwa [old t ht]
      outcome := fun t ht => by rw [old t ht]
      new := fun t ht hn d => by
        have : t = w.taskCount := by
          simp only [World.fork] at ht
          omega
        subst this
        simp only [World.fork, setAt_self]
        exact hd d
      residents := rfl
      seat := fun _ => ⟨rfl, rfl⟩
      loading := fun _ _ => rfl
      loaded := fun _ h => h
      registered := fun _ h => h
      keeps := fun _ h _ => h
      spawned := rfl
      port := fun _ => rfl
      reaped := fun _ h => h
      tame := tame_fork T hk }

theorem isSteady_detach (r : Option Nat) (d : Nat) :
    IsSteady r (fireAndForget (.evictTeardown d)) :=
  fun w => steadily_fork r w (by rintro ⟨⟩) fun _ => ⟨(by rintro ⟨⟩), (by rintro ⟨⟩)⟩

/-! ## Reaps -/

theorem isSteady_sync {o : Op} (r : Option Nat) (ho : NoSpawn o) : IsSteady r (sync o) := by
  refine ⟨ho, fun x => ?_⟩
  cases x <;> trivial

theorem isSteady_gets {α : Type} (r : Option Nat) (f : World → α) : IsSteady r (Co.gets f) :=
  (calm_gets f).steady r

theorem isSteady_reapClaimed (r : Option Nat) (handle bootingPid : Option Nat) :
    IsSteady r (reapClaimed handle bootingPid) := by
  refine ⟨isSteady_gets r _, fun alive => ?_⟩
  dsimp only
  split
  · exact only_suppress.mpr (isSteady_sync r trivial)
  · exact only_suppress.mpr (isSteady_sync r trivial)
  · trivial

theorem isSteady_evictTeardown (r : Option Nat) (d : Nat) : IsSteady r (evictTeardown d) := by
  refine ⟨isSteady_gets r _, fun x => only_when.mpr fun _ => ⟨?_, fun _ =>
    isSteady_reapClaimed r _ _⟩⟩
  exact isSteady_onResident_same r d (fun _ => ⟨rfl, rfl⟩) (fun _ _ h => h) fun _ => rfl

theorem steadily_clearIdleHolder (r : Option Nat) (w : World) :
    Steadily r w w.clearIdleHolder := by
  have mirror : ∀ (w : World) (f : Resident → Resident),
      (∀ x, (f x).port = x.port ∧ (f x).driverTask = x.driverTask) →
      (∀ x, (f x).tasks = x.tasks) → (∀ x, (f x).state = x.state) →
      Steadily r w (w.mirror f) := by
    intro w f hp ht hs
    unfold World.mirror
    split
    · exact steadily_setResident w _ hp (fun x e he => by rwa [ht] at he)
        (fun x h => by rwa [hs]) (.inr hs)
    · exact (Quiet.refl w).steadily r
  have hold : Steadily r w (w.setHold fun x =>
      { x with idleHandle := none, idleModelTag := none, idleExpiresAt := none }) :=
    steady_same rfl rfl rfl rfl rfl rfl rfl (fun _ => rfl) fun _ h => h
  exact hold.trans (mirror _ _ (fun _ => ⟨rfl, rfl⟩) (fun _ => rfl) fun _ => rfl)

theorem isSteady_teardownIdleHolder (r : Option Nat) : IsSteady r (teardownIdleHolder C) := by
  refine ⟨isSteady_gets r _, fun h => ?_⟩
  dsimp only
  split
  · trivial
  · refine ⟨steadily_clearIdleHolder r, fun _ => ⟨isSteady_sync r trivial, fun _ =>
      ⟨(calm_computeExpectedDropMib _).steady r, fun _ => ⟨isSteady_sync r trivial, fun _ =>
        ⟨(calm_orphanReapers C).steady r, fun _ =>
          only_auditEventOnlyAsync.mpr trivial⟩⟩⟩⟩⟩

theorem isSteady_stopWorker (r : Option Nat) : IsSteady r stopWorker := by
  refine ⟨isSteady_gets r _, fun b => only_when.mpr fun _ =>
    ⟨fun w => (quiet_cancelWorker w).steadily r, fun _ => ⟨isSteady_sync r trivial, fun _ =>
      ⟨isSteady_gets r _, fun o => ?_⟩⟩⟩⟩
  dsimp only
  split <;> trivial

theorem isSteady_shutdown (r : Option Nat) : IsSteady r (shutdown C) := by
  refine ⟨fun w => steady_same rfl rfl rfl rfl rfl rfl rfl (fun _ => rfl) fun _ h => h, fun _ =>
    ⟨isSteady_sync r trivial, fun _ => ⟨isSteady_stopWorker r, fun _ =>
      ⟨isQuiet_stopDrivers.steady r, fun _ => ⟨isQuiet_drainBgTasks.steady r, fun _ =>
        ⟨isSteady_sync r trivial, fun _ => ⟨calm_closeQueue.steady r, fun cleared =>
          ⟨only_forEach (fun s => (isQuiet_failCompletionFuture _ s _).steady r) _, fun _ =>
            ⟨isSteady_gets r _, fun h => only_when.mpr fun _ => only_suppress.mpr
              (isSteady_teardownIdleHolder r)⟩⟩⟩⟩⟩⟩⟩⟩⟩

/-! ## The end of a resident -/

theorem isSteady_beginEvictLocked (d : Nat) : IsSteady (some d) (beginEvictLocked d) := by
  refine ⟨isSteady_gets _ _, fun x => ⟨only_when.mpr fun _ w => ?_, fun _ =>
    only_when.mpr fun _ => ⟨?_, fun _ => ⟨fun w => steadily_deregister w d, fun _ =>
      isSteady_detach _ d⟩⟩⟩⟩
  · exact (quiet_drainInbox d w).steadily _
  · exact isSteady_onResident d (fun _ => ⟨rfl, rfl⟩) (fun _ _ h => h) fun _ _ => (by rintro ⟨⟩)

theorem isSteady_reapDeadResident (d : Nat) : IsSteady (some d) (reapDeadResident d) := by
  refine ⟨isSteady_gets _ _, fun x => ⟨only_forEach (fun s => ?_) _, fun _ =>
    isSteady_beginEvictLocked d⟩⟩
  exact ⟨(isQuiet_failCompletionFuture _ s _).steady _, fun _ => (isQuiet_onSlot s _).steady _⟩

theorem isSteady_idleTimeout (d : Nat) : IsSteady (some d) (idleTimeout d) := by
  refine ⟨isSteady_gets _ _, fun x => ?_⟩
  dsimp only
  split
  · exact only_ite.mpr ⟨fun _ => ⟨isSteady_beginEvictLocked d, fun _ => trivial⟩,
      fun _ => trivial⟩
  · exact ⟨(calm_inboxGetNowait d _).steady _, fun _ =>
      ⟨(calm_takeInHand d _).steady _, fun _ => trivial⟩⟩

theorem isSteady_parkResident (d idle : Nat) : IsSteady (some d) (parkResident d idle) := by
  refine ⟨isSteady_gets _ _, fun x => only_ite.mpr ⟨fun _ => trivial, fun _ =>
    ⟨only_monotonic.mpr trivial, fun now => ⟨?_, fun _ => only_ite.mpr
      ⟨fun _ => ⟨isSteady_beginEvictLocked d, fun _ => trivial⟩, fun _ =>
        ⟨only_monotonic.mpr trivial, fun now => ⟨?_, fun _ => ⟨(calm_nextSlot d).steady _,
          fun s => ?_⟩⟩⟩⟩⟩⟩⟩⟩
  · exact isSteady_onResident d (fun _ => ⟨rfl, rfl⟩) (fun _ _ h => h) fun _ h => h
  · exact isSteady_onResident d (fun _ => ⟨rfl, rfl⟩) (fun _ _ h => h) fun _ _ => (by rintro ⟨⟩)
  · cases s with
    | some s => trivial
    | none => exact isSteady_idleTimeout d

theorem isSteady_driveTurn (d pid idle : Nat) : IsSteady (some d) (driveTurn C d pid idle) := by
  refine ⟨isSteady_gets _ _, fun w => ?_⟩
  dsimp only
  split
  · refine only_ite.mpr ⟨fun _ => trivial, fun _ => ⟨only_monotonic.mpr trivial, fun now =>
      ⟨?_, fun _ => ⟨(calm_serveOnResident C (captures d) _ pid).steady _, fun _ =>
        isSteady_parkResident d idle⟩⟩⟩⟩
    exact isSteady_onResident d (fun _ => ⟨rfl, rfl⟩) (fun _ _ h => h) fun _ _ => (by rintro ⟨⟩)
  · trivial

theorem isSteady_claimTeardown (d : Nat) : IsSteady (some d) (claimTeardown d) := by
  refine ⟨?_, fun _ => ⟨isSteady_gets _ _, fun b => only_when.mpr fun _ => ⟨?_, fun _ w =>
    steadily_deregister w d⟩⟩⟩
  · exact isSteady_onResident d (fun _ => ⟨rfl, rfl⟩) (fun _ _ h => h) fun _ h => h
  · exact isSteady_onResident d (fun _ => ⟨rfl, rfl⟩) (fun _ _ h => h) fun _ _ => (by rintro ⟨⟩)

theorem isSteady_driveFinally (d : Nat) : IsSteady (some d) (driveFinally d) := by
  refine ⟨isSteady_gets _ _, fun x => only_when.mpr fun _ => ⟨isSteady_claimTeardown d, fun _ =>
    ⟨isSteady_reapClaimed _ _ _, fun _ => ⟨isSteady_gets _ _, fun y => ⟨?_, fun _ =>
      ⟨(calm_requeueSlotsOrFail _).steady _, fun _ => ⟨isSteady_gets _ _, fun z => ?_⟩⟩⟩⟩⟩⟩⟩
  · exact isSteady_onResident d (fun _ => ⟨rfl, rfl⟩) (fun _ _ h => h) fun _ h => h
  · dsimp only
    split
    · exact only_when.mpr fun _ => (isQuiet_failCompletionFuture _ _ _).steady _
    · trivial

end Turbohaul
