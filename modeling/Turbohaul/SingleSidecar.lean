/-
# `SingleSidecar` — every run at cap 1

The other tasks that reap (the detached teardown of the idle holder, the
shielded SIGTERM, `shutdown`), the steps of the outside, and the theorem.
-/
import Turbohaul.SingleWorker

namespace Turbohaul

open Coop

variable {C : Config}

/-! ## The other tasks -/

/-- A task knows its own kind. -/
def IsA (t : Nat) (k : Kind) (w : World) : Prop := t < w.taskCount ∧ (w.task t).kind = k

theorem local_isA (t : Nat) (k : Kind) : Local t (IsA t k) where
  passive := fun _ hp h => ⟨Nat.lt_of_lt_of_le h.1 hp.count, (hp.kind t h.1).trans h.2⟩

/-- What a task that is nobody's shield owes at its end. -/
theorem ends_isA {t : Nat} {k : Kind} {s w : World} (H : Own t s w ∧ w.Kept ∧ IsA t k w)
    (r : Res sig Unit) (hk : ∀ p, k ≠ .shieldedSigterm p := by exact fun _ => by rintro ⟨⟩) :
    (single C).Ends t r s w :=
  ends_own H.1 (.inr H.2.1) fun p hp => absurd (H.2.2.2.symm.trans hp) (hk p)

/-- The detached teardown of the idle holder. -/
theorem wp_idleTeardown {t : Nat} {s w : World}
    (H : Own t s w ∧ w.Kept ∧ IsA t .idleTeardown w) :
    wp (single C) t (teardownIdleHolder C) ((single C).Ends t) s w := by
  have hm : ∀ s w, Own t s w → IsA t .idleTeardown w → w.mayReap t := fun s w _ h => by
    rw [World.mayReap, h.2]
    trivial
  have hc : ∀ w, IsA t .idleTeardown w → IsA t .idleTeardown w.clearIdleHolder := fun w h => by
    simpa only [IsA, World.clearIdleHolder, setIdleHolder_task, setIdleHolder_taskCount] using h
  refine wp_mono (fun r s w h => ?_)
    (wp_teardownIdleHolder (local_isA t _) hc (fun _ h _ => h) hm H.1 H.2.1 H.2.2)
  cases r with
  | ok _ => exact ends_isA h _
  | error e =>
      cases e with
      | raised _ => exact ends_isA h _
      | cancelled =>
          refine ends_isA ⟨h.1, h.2.2.resolve_right fun hk => ?_, h.2.1⟩ _
          rw [h.2.1.2] at hk
          cases hk

/-- The task of a shielded SIGTERM. -/
theorem wp_shieldedSigterm {t p : Nat} {s w : World}
    (H : Own t s w ∧ w.Kept ∧ IsA t (.shieldedSigterm p) w) :
    wp (single C) t (sigterm p) ((single C).Ends t) s w := by
  obtain ⟨O, hk, hlt, ha⟩ := H
  refine wp_sigterm O (hk.but p) (by rw [World.mayReap, ha]; trivial) ?_ ?_
  · intro s' w' O' hk' hp hr
    refine ends_own O' (.inr hk') fun q hq => ⟨rfl, ?_⟩
    rw [hp.kind t hlt, ha] at hq
    cases hq
    exact hr
  · intro hc
    rw [ha] at hc
    cases hc

/-! ## Shutdown -/

/-- `shutdown` has waited for the worker. -/
def WorkerOver (t : Nat) (w : World) : Prop := IsA t .shutdown w ∧ w.taskDone workerTask = true

theorem local_workerOver (t : Nat) : Local t (WorkerOver t) where
  passive := fun S hp h => ⟨(local_isA t _).passive S hp h.1, hp.done S.tame.worker.1 h.2⟩

theorem own_stopEvent {t : Nat} {s w : World} (O : Own t s w) :
    Own t s { w with stopEvent := true } :=
  O.assign rfl rfl rfl rfl (O.single.tame.of_same rfl rfl rfl fun _ => ⟨rfl, rfl⟩)
    O.single.handles fun _ => ⟨rfl, .inl rfl, rfl, fun _ h h' => absurd h (Nat.not_lt_of_le h')⟩

/-- `stopWorker` returns when the worker is over. -/
theorem wp_stopWorker {t : Nat} {s w : World} (H : Own t s w ∧ w.Kept ∧ IsA t .shutdown w) :
    wp (single C) t stopWorker (fun r s w => match r with
      | .ok _ => Own t s w ∧ w.Kept ∧ WorkerOver t w
      | .error _ => Own t s w ∧ w.Kept ∧ IsA t .shutdown w) s w := by
  have F := frames_own (C := C) (local_isA t .shutdown)
  rw [stopWorker, wp_gets_bind, wp_when]
  split
  · refine F.seq (fun _ _ _ h => h) (calm_modify quiet_cancelWorker) (fun _ s w H => ?_) s w H
    rw [wp_bind]
    refine wp_join (local_isA t .shutdown) (fun s w H hd => ?_) (fun s w H => H) H
    have hw : w.taskDone workerTask = true := hd _ (List.mem_singleton.mpr rfl)
    show wp (single C) t _ _ s w
    rw [wp_gets_bind]
    split
    · exact H
    · exact ⟨H.1, H.2.1, H.2.2, hw⟩
  · next h => exact ⟨H.1, H.2.1, H.2.2, by simpa using h⟩

theorem wp_shutdown {t : Nat} {s w : World} (H : Own t s w ∧ w.Kept ∧ IsA t .shutdown w) :
    wp (single C) t (shutdown C) ((single C).Ends t) s w := by
  have F := frames_own (C := C) (local_isA t .shutdown)
  have he : ∀ (e : Exc Err) s w, (Own t s w ∧ w.Kept ∧ IsA t .shutdown w) →
      (single C).Ends t (.error e) s w := fun e s w H => ends_isA H _
  have F' := frames_own (C := C) (local_workerOver t)
  have he' : ∀ (e : Exc Err) s w, (Own t s w ∧ w.Kept ∧ WorkerOver t w) →
      (single C).Ends t (.error e) s w := fun e s w H => ends_isA ⟨H.1, H.2.1, H.2.2.1⟩ _
  rw [shutdown, wp_modify_bind]
  refine F.seq he (isQuiet_sync (o := .observers) trivial) (fun _ s w H => ?_) s _
    ⟨own_stopEvent H.1, H.2.1, H.2.2⟩
  refine wp_seq (wp_stopWorker H) (fun _ s w H => ?_) he
  refine F'.seq he' isQuiet_stopDrivers (fun _ => F'.seq he' isQuiet_drainBgTasks fun _ =>
    F'.seq he' (isQuiet_sync (o := .observers) trivial) fun _ => F'.seq he' calm_closeQueue
    fun cleared => F'.seq he' (only_forEach (fun s => isQuiet_failCompletionFuture _ _ _) cleared)
    fun _ => F'.seq he' (calm_gets _) fun h s w H => ?_) s w H
  rw [wp_when]
  split
  · refine wp_tryExcept (wp_mono (fun r s w h => ?_) (wp_teardownIdleHolder (local_workerOver t)
      (fun w h => ?_) (fun _ h _ => h) (fun s w _ h => ?_) H.1 H.2.1 H.2.2))
    · have end' : ∀ r, (Own t s w ∧ w.Kept ∧ WorkerOver t w) → (single C).Ends t r s w :=
        fun r h => ends_isA ⟨h.1, h.2.1, h.2.2.1⟩ r
      match r with
      | .ok _ => exact end' _ h
      | .error (.raised _) => exact end' _ h
      | .error .cancelled =>
          refine end' _ ⟨h.1, h.2.2.resolve_right fun hk => ?_, h.2.1⟩
          rw [h.2.1.1.2] at hk
          cases hk
    · simpa only [WorkerOver, IsA, World.taskDone, World.clearIdleHolder, setIdleHolder_task,
        setIdleHolder_taskCount] using h
    · rw [World.mayReap, h.1.2]
      exact h.2
  · exact ends_isA ⟨H.1, H.2.1, H.2.2.1⟩ _

/-! ## Every task from the invariant -/

/-- Where a task starts. -/
theorem own_start {t : Nat} {k : Kind} {r : Reply} {w : World} (S : Single w)
    (hf : fresh w t = some k) :
    Own t w (answer t .entry r w) ∧ IsA t k (answer t .entry r w) ∧
      Unmoved w (answer t .entry r w) := by
  have hu : Unmoved w (answer t .entry r w) := quiet_answer (o := .entry) trivial t r w S.tame
  simp only [fresh, Option.ite_none_right_eq_some, Option.some.injEq, Bool.and_eq_true,
    Bool.not_eq_true', decide_eq_true_eq] at hf
  obtain ⟨⟨⟨hlt, hst⟩, hd⟩, rfl⟩ := hf
  have self : (answer t .entry r w).task t =
      { w.task t with started := true, cancelRequested := false } := by
    have : effect t .entry r w = w := by cases r <;> rfl
    simp [answer, this, World.delivered, World.setTask]
  refine ⟨⟨hu.single S, hu.step _, Nat.lt_of_lt_of_le hlt hu.tasks.count, by rw [self], ?_, ?_⟩,
    ⟨Nat.lt_of_lt_of_le hlt hu.tasks.count, by rw [self]⟩, hu⟩
  · rw [hu.taskDone hlt]
    exact hd
  · intro p hp
    rw [hu.reaping] at hp
    rw [(S.reapers (t, p) hp).2.1] at hst
    cases hst

/-- A worker that starts has nothing. -/
theorem atWork_start {r : Reply} {w : World} (S : Single w) (hk : w.Kept)
    (hf : fresh w workerTask = some .worker) :
    AtWork .empty w (answer workerTask .entry r w) := by
  obtain ⟨O, -, hu⟩ := own_start (r := r) S hf
  have hst : (w.task workerTask).started = false := by
    simp only [fresh, Option.ite_none_right_eq_some, Bool.and_eq_true, Bool.not_eq_true'] at hf
    exact hf.1.1.2
  obtain ⟨ha, hs⟩ := S.asleep hst
  exact ⟨O, hu.kept S hk, calm_passive (hu.passive _) fun t ht p h => absurd h (hs t ht p),
    hu.active.trans ha⟩

/-- A task that is cancelled before it starts is one that may be cancelled. -/
theorem cancellable_of_entry {t : Nat} {w : World} (T : Tame w)
    (ha : allowed t .entry .cancelled w = true) : (w.task t).kind.cancellable = true := by
  rcases allowed_cases ha with ⟨-, hc⟩ | hr
  · exact T.cancel t hc
  · cases hr

theorem start_ok (hcap : C.maxParallelSidecars ≤ 1) {t : Nat} {k : Kind} {r : Reply} {w : World}
    (hg : (single C).Good w) (hf : fresh w t = some k) (ha : allowed t .entry r w = true) :
    wp (single C) t (taskBody C t k r) ((single C).Ends t) w (answer t .entry r w) := by
  obtain ⟨⟨S, hk⟩, -⟩ := hg
  obtain ⟨O, hi, hu⟩ := own_start (r := r) S hf
  have hk' := hu.kept S hk
  have hkd : (w.task t).kind = k := by
    have hlt : t < w.taskCount := by
      simp only [fresh, Option.ite_none_right_eq_some, Bool.and_eq_true, decide_eq_true_eq] at hf
      exact hf.1.1.1
    rw [← hu.tasks.kind t hlt]
    exact hi.2
  unfold taskBody
  split
  · next hr =>
      subst hr
      refine ends_isA ⟨O, hk', hi⟩ _ fun p hp => ?_
      have hc := cancellable_of_entry S.tame ha
      rw [hkd, hp] at hc
      cases hc
  · cases k with
    | worker =>
        have ht : t = workerTask := S.tame.onlyWorker t (by
          simp only [fresh, Option.ite_none_right_eq_some, Bool.and_eq_true,
            decide_eq_true_eq] at hf
          exact hf.1.1.1) hkd
        subst ht
        have hcap' : ¬ 2 ≤ C.maxParallelSidecars := by omega
        simp only [program, workerLoop, hcap', if_false]
        refine wp_mono (fun r s w H => ?_) (wp_serialLoop (atWork_start S hk hf))
        have O : Own workerTask s w := by
          match r with
          | .ok _ => exact And.left H
          | .error (.raised _) => exact And.left H
          | .error .cancelled => exact H
        refine ends_own O (.inl rfl) fun p hp => ?_
        rw [O.single.tame.worker.2] at hp
        cases hp
    | shutdown => exact wp_shutdown ⟨O, hk', hi⟩
    | idleTeardown => exact wp_idleTeardown ⟨O, hk', hi⟩
    | shieldedSigterm p => exact wp_shieldedSigterm ⟨O, hk', hi⟩
    | driver d => cases hkd ▸ S.serial t (hi.1)
    | evictTeardown d => cases hkd ▸ S.serial t (hi.1)
    | reapDead d => cases hkd ▸ S.serial t (hi.1)
    | _ =>
        exact wp_mono (fun r s w H => ends_isA H r)
          ((frames_own (local_isA t _)).keeps (calm_program C t rfl) _ _ ⟨O, hk', hi⟩)

/-- The steps of the outside. -/
theorem env_ok {e : Env} {w w' : World} (hg : (single C).Good w) (h : envStep e w = some w') :
    (single C).inv w' ∧ (single C).guar none w w' := by
  obtain ⟨⟨S, hk⟩, -⟩ := hg
  by_cases he : e = .shutdown
  · subst he
    simp only [envStep, Option.ite_none_right_eq_some, Option.some.injEq] at h
    obtain ⟨-, rfl⟩ := h
    have S' := single_fork S (k := .shutdown) (by simp) rfl (by simp)
    have hs := step_fork none w (k := .shutdown) fun _ => (by rintro _ ⟨⟩)
    refine ⟨⟨⟨S'.tame.of_same rfl rfl rfl fun _ => ⟨rfl, rfl⟩, S'.serial, S'.once, S'.handles,
      S'.reapers, S'.shields, S'.asleep, S'.alone⟩, hk.imp (fun hd => ?_) id⟩,
      ⟨hs.count, hs.kind, hs.started, hs.outcome, hs.entries, hs.reaped, hs.spawned, fun hu =>
        ⟨rfl, .inl rfl, rfl, (hs.bystander hu).shields⟩⟩⟩
    exact hs.done S.tame.worker.1 hd
  · have hu := quiet_envStep h he S.tame
    exact ⟨⟨hu.single S, hu.kept S hk⟩, hu.step none⟩

theorem single_verified (hcap : C.maxParallelSidecars ≤ 1) : (single C).Verified initial where
  init := by
    have one : ∀ t < initial.taskCount, t = workerTask := fun t ht => Nat.lt_one_iff.mp ht
    have tame : Tame initial :=
      { riders := (by rintro _ ⟨⟩)
        inFlight := (by intro _ _ h; cases h)
        drivers := (by intro _ _ h; cases h)
        cancel := fun t h => by
          simp only [initial, setAt] at h
          split at h <;> cases h
        worker := ⟨Nat.one_pos, rfl⟩
        onlyWorker := fun t ht _ => one t ht }
    exact ⟨{ tame, serial := fun t ht => by rw [one t ht]; rfl
             once := fun p _ h => absurd h.1 (Nat.not_lt_zero p)
             handles := (by rintro _ (h | h) <;> cases h)
             reapers := (by rintro _ ⟨⟩)
             shields := fun t ht p h => by rw [one t ht] at h; cases h
             asleep := fun _ => ⟨rfl, fun t ht p h => by rw [one t ht] at h; cases h⟩
             alone := (by rintro _ _ _ ⟨⟩) }, .inr fun p h => absurd h.1 (Nat.not_lt_zero p)⟩
  start := fun t w k r hg hf ha _ => start_ok hcap hg hf ha
  env := fun e w w' hg _ h => env_ok hg h

/-- In every run at cap 1 in which no SIGTERM raises, and in which no detached
idle teardown is waiting for its SIGTERM when the worker spawns, at most one
sidecar is not confirmed gone whenever the event loop has control, and `_spawn`
was never called while a SIGTERM was in progress. -/
theorem single_undead_sidecar (C : Config) (hcap : C.maxParallelSidecars ≤ 1) (c : Loop sig)
    (h : Reachable C (quietSpawns C) c) (hc : c.current = none) :
    (∀ p q, c.world.undead p → c.world.undead q → p = q) ∧
      ∀ slot port reaping, .spawning slot port reaping ∈ c.world.trace → reaping = [] := by
  have hi := (single C).sound (single_verified hcap) (fun _ _ _ => trivial) h hc
  exact ⟨hi.1.once, hi.1.alone⟩

/-! ## The race -/

/-- No SIGTERM raises. -/
def sigtermReturns (C : Config) : Admit (system C) where
  reply := fun _ o r _ =>
    match o, r with
    | .sigterm _, .raised _ => false
    | _, _ => true

/-- No grace window, an idle window of one second. -/
def raceConfig : Config := { graceSeconds := 0, idleHotLoadSeconds := 1, safetyEnabled := false }

def raceRequest : Request := { modelTag := "a", threadId := "t", watched := false }

/-- One request is served and its sidecar goes to the idle holder. -/
def firstServed : List (Move (system raceConfig)) :=
  [.env (.request (.submitAndWait raceRequest)), .start 1 .ok, .answer (.time 0),
    .answer (.time 0), .answer .ok, .resume 1 .ok, .start 0 .ok, .go, .answer .ok,
    .answer .ok, .answer (.manifest {}), .resume 0 .ok, .answer (.handle 0),
    .resume 0 (.healthy true),
    .resume 0 .ok, .resume 0 (.completion 7), .answer (.time 0), .resume 0 .ok,
    .answer (.time 0), .go, .answer (.time 0), .answer (.time 0), .resume 0 .ok, .answer .ok]

/-- The idle window is over and its teardown waits for the SIGTERM, while a
second request of the same model has the worker spawn again. -/
def raced : List (Move (system raceConfig)) :=
  firstServed ++
  [.go, .go, .answer (.time 1000), .start 2 .ok, .env (.request (.submitAndWait raceRequest)),
    .start 3 .ok, .answer (.time 1000), .answer (.time 1000), .answer .ok, .resume 3 .ok,
    .resume 0 .ok, .go, .answer .ok, .answer .ok, .answer (.manifest {}), .resume 0 .ok,
    .answer (.handle 1)]

/-- Two undead sidecars on the one port, the second spawned during the SIGTERM
of the first. -/
theorem idle_teardown_races_spawn : ∃ c, Reachable raceConfig (sigtermReturns raceConfig) c ∧
    c.current.isNone = true ∧ c.world.undead 0 ∧ c.world.undead 1 ∧
    (c.world.procs.proc 0).port = (c.world.procs.proc 1).port ∧
    .spawning 1 11500 [0] ∈ c.world.trace := by
  have h : (Loop.exec (sigtermReturns raceConfig) raced { world := initial }).any (fun c =>
      decide (c.current.isNone = true ∧ c.world.undead 0 ∧ c.world.undead 1 ∧
        (c.world.procs.proc 0).port = (c.world.procs.proc 1).port ∧
        .spawning 1 11500 [0] ∈ c.world.trace)) = true := by decide +kernel
  obtain ⟨c, hc, hp⟩ := Loop.reach_of_check h
  exact ⟨c, hc, of_decide_eq_true hp⟩

/-- The idle teardown has its SIGTERM behind it and verifies the memory when the second
request comes, and the worker spawns again. -/
def servedTwice : List (Move (system raceConfig)) :=
  firstServed ++
  [.go, .go, .answer (.time 1000), .start 2 .ok, .resume 2 .ok, .answer (.manifest {}),
    .env (.request (.submitAndWait raceRequest)), .start 3 .ok, .answer (.time 1000),
    .answer (.time 1000), .answer .ok, .resume 3 .ok, .resume 0 .ok, .go, .answer .ok,
    .answer .ok, .answer (.manifest {}), .resume 0 .ok, .answer (.handle 1)]

/-- That run meets the condition, and of its two sidecars one is undead. -/
theorem single_undead_sidecar_served : ∃ c, Reachable raceConfig (quietSpawns raceConfig) c ∧
    c.world.procs.spawned = 2 ∧ c.world.undead 1 ∧
    (∀ p q, c.world.undead p → c.world.undead q → p = q) ∧
    ∀ slot port reaping, .spawning slot port reaping ∈ c.world.trace → reaping = [] := by
  have h : (Loop.exec (quietSpawns raceConfig) servedTwice { world := initial }).any (fun c =>
      decide (c.current.isNone = true ∧ c.world.procs.spawned = 2 ∧ c.world.undead 1)) = true := by
    decide +kernel
  obtain ⟨c, hc, hp⟩ := Loop.reach_of_check h
  obtain ⟨hn, hs, hu⟩ := of_decide_eq_true hp
  exact ⟨c, hc, hs, hu, single_undead_sidecar raceConfig (by decide) c hc
    (Option.isNone_iff_eq_none.mp hn)⟩

end Turbohaul
