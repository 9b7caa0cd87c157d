/-
# `SingleSteps` — the statements that touch the sidecars, at cap 1

One lemma for each: what it does to the invariant of `Single`.  The
assignments to the two handles and the creation of a task are immediate; the
SIGTERM has a suspension inside, so its rule says what is known when it is
answered.
-/
import Turbohaul.Single

namespace Turbohaul

open Coop

/-! ## Assignments -/

namespace World

@[simp] theorem mirror_hold (w : World) (f : Resident → Resident) : (w.mirror f).hold = w.hold := by
  unfold mirror
  split <;> rfl

@[simp] theorem mirror_procs (w : World) (f : Resident → Resident) :
    (w.mirror f).procs = w.procs := by
  unfold mirror
  split <;> rfl

@[simp] theorem mirror_task (w : World) (f : Resident → Resident) : (w.mirror f).task = w.task := by
  unfold mirror
  split <;> rfl

@[simp] theorem mirror_taskCount (w : World) (f : Resident → Resident) :
    (w.mirror f).taskCount = w.taskCount := by
  unfold mirror
  split <;> rfl

@[simp] theorem mirror_trace (w : World) (f : Resident → Resident) :
    (w.mirror f).trace = w.trace := by
  unfold mirror
  split <;> rfl

end World

theorem Tame.of_same {w w' : World} (T : Tame w) (ht : w'.task = w.task)
    (hc : w'.taskCount = w.taskCount) (hr : w'.hold.riderTasks = w.hold.riderTasks)
    (hf : ∀ r, (w'.resident r).tasks = (w.resident r).tasks ∧
      (w'.resident r).driverTask = (w.resident r).driverTask) : Tame w' where
  riders := by rw [hr, hc, ht]; exact T.riders
  inFlight := fun r => by rw [(hf r).1, hc, ht]; exact T.inFlight r
  drivers := fun r => by rw [(hf r).2, hc, ht]; exact T.drivers r
  cancel := by rw [ht]; exact T.cancel
  worker := by rw [hc, ht]; exact T.worker
  onlyWorker := by rw [hc, ht]; exact T.onlyWorker

theorem tame_setResident {w : World} (T : Tame w) (r : Nat) {f : Resident → Resident}
    (hf : ∀ x : Resident, (f x).tasks = x.tasks ∧ (f x).driverTask = x.driverTask) :
    Tame (w.setResident r f) := by
  refine T.of_same rfl rfl rfl fun q => ?_
  by_cases hq : q = r
  · subst hq
    simp [World.setResident, hf]
  · simp [World.setResident, setAt_of_ne hq]

theorem tame_mirror {w : World} (T : Tame w) {f : Resident → Resident}
    (hf : ∀ x : Resident, (f x).tasks = x.tasks ∧ (f x).driverTask = x.driverTask) :
    Tame (w.mirror f) := by
  unfold World.mirror
  split
  · exact tame_setResident T _ hf
  · exact T

theorem tame_setActiveHandle {w : World} (T : Tame w) (h : Option Nat) :
    Tame (w.setActiveHandle h) := by
  unfold World.setActiveHandle
  refine tame_mirror ?_ fun _ => ⟨rfl, rfl⟩
  exact T.of_same rfl rfl rfl fun _ => ⟨rfl, rfl⟩

theorem tame_setIdleHolder {w : World} (T : Tame w) (h : Option Nat) (tag : Option String)
    (expires : Option Nat) : Tame (w.setIdleHolder h tag expires) := by
  unfold World.setIdleHolder
  refine tame_mirror ?_ fun _ => ⟨rfl, rfl⟩
  exact T.of_same rfl rfl rfl fun _ => ⟨rfl, rfl⟩

/-- An assignment to the handles: the tasks and the processes stay. -/
theorem Own.assign {t : Nat} {s w w' : World} (O : Own t s w) (ht : w'.task = w.task)
    (hc : w'.taskCount = w.taskCount) (hp : w'.procs = w.procs) (he : w'.trace = w.trace)
    (hT : Tame w')
    (hh : ∀ p, w'.hold.activeHandle = some p ∨ w'.hold.idleHandle = some p → p < w.procs.spawned)
    (hb : t ≠ workerTask → Bystander w w') : Own t s w' where
  single :=
    { tame := hT
      serial := by rw [hc, ht]; exact O.single.serial
      once := by simp only [World.undead, hp]; exact O.single.once
      handles := by rw [hp]; exact hh
      reapers := by
        simp only [World.mayReap, World.taskDone, hp, hc, ht]
        exact O.single.reapers
      shields := by simp only [World.taskDone, hp, hc, ht]; exact O.single.shields
      asleep := by
        rw [ht, hc]
        intro hs
        refine ⟨?_, (O.single.asleep hs).2⟩
        by_cases h : t = workerTask
        · rw [h] at O
          rw [O.started] at hs
          cases hs
        · rw [(hb h).active]
          exact (O.single.asleep hs).1
      alone := by rw [he]; exact O.single.alone }
  step := O.step.trans
    { count := Nat.le_of_eq hc.symm
      kind := fun _ _ => by rw [ht]
      started := fun _ _ h => by rwa [ht]
      outcome := fun _ _ _ => by rw [ht]
      entries := fun _ _ _ _ => by rw [hp]
      reaped := fun _ _ h => by rwa [hp]
      spawned := Nat.le_of_eq (by rw [hp])
      bystander := fun hu => hb fun h => hu (congrArg some h) }
  lt := by rw [hc]; exact O.lt
  started := by rw [ht]; exact O.started
  undone := by rw [World.taskDone, ht]; exact O.undone
  free := by rw [hp]; exact O.free

theorem own_setActiveHandle {s w : World} (O : Own workerTask s w) (h : Option Nat)
    (hh : ∀ p, h = some p → p < w.procs.spawned) : Own workerTask s (w.setActiveHandle h) := by
  refine O.assign ?_ ?_ ?_ ?_ (tame_setActiveHandle O.single.tame h) ?_ (absurd rfl)
  all_goals simp only [World.setActiveHandle, World.mirror_task, World.mirror_taskCount,
    World.mirror_procs, World.mirror_trace, World.mirror_hold]
  iterate 4 rfl
  exact fun p hp => hp.elim (hh p) fun hi => O.single.handles p (.inr hi)

theorem own_setIdleHolder {s w : World} (O : Own workerTask s w) (h : Option Nat)
    (tag : Option String) (expires : Option Nat)
    (hh : ∀ p, h = some p → p < w.procs.spawned) :
    Own workerTask s (w.setIdleHolder h tag expires) := by
  refine O.assign ?_ ?_ ?_ ?_ (tame_setIdleHolder O.single.tame h tag expires) ?_ (absurd rfl)
  all_goals simp only [World.setIdleHolder, World.mirror_task, World.mirror_taskCount,
    World.mirror_procs, World.mirror_trace, World.mirror_hold]
  iterate 4 rfl
  exact fun p hp => hp.elim (fun ha => O.single.handles p (.inl ha)) (hh p)

/-- Anybody may clear the idle holder. -/
theorem own_clearIdleHolder {t : Nat} {s w : World} (O : Own t s w) :
    Own t s w.clearIdleHolder := by
  have hT := tame_setIdleHolder O.single.tame none none none
  refine O.assign ?_ ?_ ?_ ?_ hT ?_ fun _ => ⟨?_, .inr ?_, ?_, ?_⟩
  all_goals simp only [World.clearIdleHolder, World.setIdleHolder, World.mirror_task,
    World.mirror_taskCount, World.mirror_procs, World.mirror_trace, World.mirror_hold]
  iterate 4 rfl
  · exact fun p hp => hp.elim (fun ha => O.single.handles p (.inl ha)) (by rintro ⟨⟩)
  · rfl
  · rfl
  · rfl
  · exact fun t h h' => absurd h (by simp only [World.setHold]; omega)

/-! ## Creating a task -/

theorem tame_fork {w : World} (T : Tame w) {k : Kind} (hk : k ≠ .worker) : Tame (w.fork k) := by
  have old : ∀ t < w.taskCount, (w.fork k).task t = w.task t := fun t ht =>
    setAt_of_ne (by omega)
  refine
    { riders := fun e he => ?_
      inFlight := fun r e he => ?_
      drivers := fun r t h => ?_
      cancel := fun t h => ?_
      worker := ⟨Nat.succ_pos _, by rw [old workerTask T.worker.1]; exact T.worker.2⟩
      onlyWorker := fun t ht h => ?_ }
  · have he' := T.riders e he
    exact ⟨Nat.lt_succ_of_lt he'.1, by rw [old _ he'.1]; exact he'.2⟩
  · have he' := T.inFlight r e he
    exact ⟨Nat.lt_succ_of_lt he'.1, by rw [old _ he'.1]; exact he'.2⟩
  · have h' := T.drivers r t h
    exact ⟨Nat.lt_succ_of_lt h'.1, by rw [old _ h'.1]; exact h'.2⟩
  · by_cases ht : t = w.taskCount
    · subst ht
      simp [World.fork] at h
    · simp only [World.fork, setAt_of_ne ht] at h ⊢
      exact T.cancel t h
  · by_cases ht' : t = w.taskCount
    · subst ht'
      simp only [World.fork, setAt_self] at h
      exact absurd h hk
    · simp only [World.fork, setAt_of_ne ht'] at h ht
      exact T.onlyWorker t (by omega) h

/-- A new task, of a kind there is at cap 1.  Only the worker shields. -/
theorem single_fork {w : World} (S : Single w) {k : Kind} (hk : k ≠ .worker)
    (hs : k.serial = true) (hp : ∀ p, k = .shieldedSigterm p →
      (w.task workerTask).started = true ∧ p < w.procs.spawned) : Single (w.fork k) := by
  have old : ∀ t < w.taskCount, (w.fork k).task t = w.task t := fun t ht =>
    setAt_of_ne (by omega)
  have new : ∀ t < w.taskCount + 1, ¬ t < w.taskCount → (w.fork k).task t = { kind := k } := by
    intro t ht hn
    have : t = w.taskCount := by omega
    subst this
    exact setAt_self _ _ _
  have done : ∀ t < w.taskCount, (w.fork k).taskDone t = w.taskDone t := fun t ht => by
    rw [World.taskDone, old t ht]
    rfl
  exact
    { tame := tame_fork S.tame hk
      serial := fun t ht => by
        by_cases ho : t < w.taskCount
        · rw [old t ho]
          exact S.serial t ho
        · rw [new t ht ho]
          exact hs
      once := S.once
      handles := S.handles
      reapers := fun e he => by
        obtain ⟨hlt, hst, hd, hr⟩ := S.reapers e he
        refine ⟨Nat.lt_succ_of_lt hlt, by rw [old _ hlt]; exact hst, by rw [done _ hlt]; exact hd,
          ?_⟩
        rw [World.mayReap, old _ hlt, done workerTask S.tame.worker.1]
        exact hr
      shields := fun t ht p h => by
        by_cases ho : t < w.taskCount
        · rw [old t ho] at h
          rw [done t ho, old t ho]
          exact S.shields t ho p h
        · rw [new t ht ho] at h
          refine ⟨(hp p h).2, fun hd => ?_⟩
          rw [World.taskDone, new t ht ho] at hd
          cases hd
      asleep := fun h => by
        rw [old workerTask S.tame.worker.1] at h
        refine ⟨(S.asleep h).1, fun t ht p hk => ?_⟩
        by_cases ho : t < w.taskCount
        · rw [old t ho] at hk
          exact (S.asleep h).2 t ho p hk
        · rw [new t ht ho] at hk
          rw [(hp p hk).1] at h
          cases h
      alone := S.alone }

theorem step_fork (u : Option Nat) (w : World) {k : Kind}
    (hb : u ≠ some workerTask → ∀ p, k ≠ .shieldedSigterm p) : Step u w (w.fork k) := by
  have old : ∀ t < w.taskCount, (w.fork k).task t = w.task t := fun t ht =>
    setAt_of_ne (by omega)
  refine
    { count := Nat.le_succ _
      kind := fun t ht => by rw [old t ht]
      started := fun t ht h => by rwa [old t ht]
      outcome := fun t ht _ => by rw [old t ht]
      entries := fun _ _ _ _ => Iff.rfl
      reaped := fun _ _ h => h
      spawned := Nat.le_refl _
      bystander := fun hu => ⟨rfl, .inl rfl, rfl, fun t ht hn p => ?_⟩ }
  have : t = w.taskCount := by
    simp only [World.fork] at ht
    omega
  subst this
  simp only [World.fork, setAt_self]
  exact hb hu p

theorem own_fork {t : Nat} {s w : World} (O : Own t s w) {k : Kind} (hk : k ≠ .worker)
    (hs : k.serial = true)
    (hp : ∀ p, k = .shieldedSigterm p → t = workerTask ∧ p < w.procs.spawned) :
    Own t s (w.fork k) := by
  have old : (w.fork k).task t = w.task t := setAt_of_ne (Nat.ne_of_lt O.lt)
  exact
    { single := single_fork O.single hk hs fun p h =>
        ⟨(hp p h).1 ▸ O.started, (hp p h).2⟩
      step := O.step.trans (step_fork _ w fun hu p h => hu (by rw [(hp p h).1]))
      lt := Nat.lt_succ_of_lt O.lt
      started := by rw [old]; exact O.started
      undone := by rw [World.taskDone, old]; exact O.undone
      free := O.free }

/-! ## The end of a task -/

theorem finished_serial {w : World} {t : Nat} (S : Single w) (ht : t < w.taskCount)
    (r : Res sig Unit) :
    finished t r w = w.setTask t fun k => { k with outcome := some (outcomeOf r) } := by
  have hk := S.serial t ht
  simp only [finished, World.setTask, setAt_self]
  cases h : (w.task t).kind <;> first | rfl | (rw [h] at hk; cases hk)

/-- The end of a task leaves the rest of every record. -/
theorem settle_task (w : World) (t : Nat) (o : Outcome) (u : Nat) :
    ((w.setTask t fun k => { k with outcome := some o }).task u).kind = (w.task u).kind ∧
    ((w.setTask t fun k => { k with outcome := some o }).task u).started = (w.task u).started ∧
    ((w.setTask t fun k => { k with outcome := some o }).task u).cancelRequested =
      (w.task u).cancelRequested := by
  by_cases hu : u = t
  · subst hu
    simp [World.setTask]
  · simp [World.setTask, setAt_of_ne hu]

theorem tame_settle {w : World} (T : Tame w) (t : Nat) (o : Outcome) :
    Tame (w.setTask t fun k => { k with outcome := some o }) where
  riders := fun e he => by rw [(settle_task w t o _).1]; exact T.riders e he
  inFlight := fun q e he => by rw [(settle_task w t o _).1]; exact T.inFlight q e he
  drivers := fun q u h => by rw [(settle_task w t o _).1]; exact T.drivers q u h
  cancel := fun u h => by
    rw [(settle_task w t o _).2.2] at h
    rw [(settle_task w t o _).1]
    exact T.cancel u h
  worker := by rw [(settle_task w t o _).1]; exact T.worker
  onlyWorker := fun u hu h => by
    rw [(settle_task w t o _).1] at h
    exact T.onlyWorker u hu h

/-- A task that has no reap in progress may end.  A shielded SIGTERM ends with
its process dead, and the worker may end whatever it owns. -/
theorem ends_own {C : Config} {t : Nat} {s w : World} (O : Own t s w) {r : Res sig Unit}
    (hk : t = workerTask ∨ w.Kept)
    (hs : ∀ p, (w.task t).kind = .shieldedSigterm p →
      r = .ok () ∧ (w.procs.proc p).reaped = true) :
    (single C).Ends t r s w := by
  have S := O.single
  simp only [Outline.Ends, system, single]
  rw [finished_serial S O.lt r]
  set w' := w.setTask t fun k => { k with outcome := some (outcomeOf r) } with hw'
  have self : w'.task t = { w.task t with outcome := some (outcomeOf r) } := by
    simp [hw', World.setTask]
  have other : ∀ u, u ≠ t → w'.task u = w.task u := fun u hu => by
    simp [hw', World.setTask, setAt_of_ne hu]
  have same : ∀ u, (w'.task u).kind = (w.task u).kind ∧
      (w'.task u).started = (w.task u).started ∧
      (w'.task u).cancelRequested = (w.task u).cancelRequested := settle_task w t _
  have mono : ∀ u, w.taskDone u = true → w'.taskDone u = true := by
    intro u hu
    by_cases h : u = t
    · subst h
      simp [World.taskDone, self]
    · rwa [World.taskDone, other u h]
  refine ⟨⟨⟨tame_settle S.tame t _, ?_, S.once, S.handles, ?_, ?_, ?_, S.alone⟩, ?_⟩, ?_⟩
  · exact fun u hu => by rw [(same _).1]; exact S.serial u hu
  · intro e he
    obtain ⟨hlt, hst, hd, hr⟩ := S.reapers e he
    have hne : e.1 ≠ t := fun h => O.free e.2 (h ▸ he)
    refine ⟨hlt, by rw [(same _).2.1]; exact hst, by rw [World.taskDone, other _ hne]; exact hd, ?_⟩
    simp only [World.mayReap, (same _).1] at hr ⊢
    split at hr
    all_goals first | trivial | exact mono _ hr
  · intro u hu p hp
    rw [(same _).1] at hp
    refine ⟨(S.shields u hu p hp).1, fun hd => ?_⟩
    by_cases h : u = t
    · subst h
      obtain ⟨rfl, hr⟩ := hs p hp
      rw [self]
      exact ⟨rfl, hr⟩
    · rw [other u h]
      rw [World.taskDone, other u h] at hd
      exact (S.shields u hu p hp).2 hd
  · intro h
    rw [(same _).2.1] at h
    exact ⟨(S.asleep h).1, fun u hu p => by rw [(same _).1]; exact (S.asleep h).2 u hu p⟩
  · rcases hk with rfl | hk
    · left
      simp [World.taskDone, self]
    · exact hk.imp (mono _) id
  · refine O.step.trans
      { count := Nat.le_refl _
        kind := fun u _ => (same u).1
        started := fun u _ h => by rw [(same u).2.1]; exact h
        outcome := fun u _ h => ?_
        entries := fun _ _ _ _ => Iff.rfl
        reaped := fun _ _ h => h
        spawned := Nat.le_refl _
        bystander := fun _ => ⟨rfl, .inl rfl, rfl, fun v hv hn => absurd hv ?_⟩ }
    · have hne : u ≠ t := by
        rintro rfl
        rcases h with h | h
        · exact h rfl
        · rw [O.undone] at h
          cases h
      rw [other u hne]
    · simp only [hw', World.setTask]
      omega

/-! ## The SIGTERM -/

/-- Every undead sidecar is somebody's, but perhaps `p`. -/
def World.KeptBut (p : Nat) (w : World) : Prop :=
  w.taskDone workerTask = true ∨
    ∀ q, w.undead q → q = p ∨ w.hold.activeHandle = some q ∨ w.hold.idleHandle = some q ∨
      ∃ t, (t, q) ∈ w.procs.reaping

theorem World.Kept.but {w : World} (h : w.Kept) (p : Nat) : w.KeptBut p :=
  h.imp id fun h q hq => .inr (h q hq)

/-- It was somebody else's as well, or it is gone. -/
theorem World.KeptBut.kept {w : World} {p : Nat} (h : w.KeptBut p)
    (hp : w.hold.activeHandle = some p ∨ (w.procs.proc p).reaped = true) : w.Kept := by
  refine h.imp id fun h q hq => ?_
  rcases h q hq with rfl | ho
  · rcases hp with ha | hr
    · exact .inl ha
    · exact absurd hr (by rw [hq.2]; intro h; cases h)
  · exact ho

/-- The reap of `p` in task `t` begins. -/
theorem begin_reap {C : Config} {t p : Nat} {s w : World} (O : Own t s w) (hk : w.KeptBut p)
    (hm : w.mayReap t) :
    ((single C).inv (w.beginReap t p) ∧ (single C).guar (some t) s (w.beginReap t p)) ∧
      Passive t w (w.beginReap t p) ∧ ∀ q, (t, q) ∈ (w.beginReap t p).procs.reaping ↔ q = p := by
  have S := O.single
  have hmem : ∀ u q, (u, q) ∈ (w.beginReap t p).procs.reaping ↔
      (u = t ∧ q = p) ∨ (u, q) ∈ w.procs.reaping := by
    intro u q
    simp [World.beginReap, World.setProcs]
  have bystander : Bystander w (w.beginReap t p) :=
    ⟨rfl, .inl rfl, rfl, fun v hv hn => absurd hv (Nat.not_lt_of_le hn)⟩
  have passive : Passive t w (w.beginReap t p) :=
    { Passive.refl t w with bystander := fun _ => bystander }
  refine ⟨⟨⟨⟨?_, S.serial, S.once, S.handles, ?_, S.shields, S.asleep, S.alone⟩, ?_⟩, ?_⟩,
    passive, ?_⟩
  · exact S.tame.of_same rfl rfl rfl fun _ => ⟨rfl, rfl⟩
  · rintro ⟨u, q⟩ he
    rcases (hmem u q).mp he with ⟨rfl, rfl⟩ | he
    · exact ⟨O.lt, O.started, O.undone, hm⟩
    · exact S.reapers (u, q) he
  · refine hk.imp id fun ho q hq => ?_
    rcases ho q hq with rfl | ha | hi | ⟨u, hu⟩
    · exact .inr (.inr ⟨t, (hmem _ _).mpr (.inl ⟨rfl, rfl⟩)⟩)
    · exact .inl ha
    · exact .inr (.inl hi)
    · exact .inr (.inr ⟨u, (hmem _ _).mpr (.inr hu)⟩)
  · refine O.step.trans
      { count := Nat.le_refl _
        kind := fun _ _ => rfl
        started := fun _ _ h => h
        outcome := fun _ _ _ => rfl
        entries := fun u _ hu q => ?_
        reaped := fun _ _ h => h
        spawned := Nat.le_refl _
        bystander := fun _ => bystander }
    rw [hmem]
    exact or_iff_right fun h => hu (by rw [h.1])
  · intro q
    rw [hmem]
    exact ⟨fun h => h.elim And.right fun h => absurd h (O.free q), fun h => .inl ⟨rfl, h⟩⟩

/-- The reap is over, whether or not the process is gone. -/
theorem end_reap {t p : Nat} {w w' : World} {b : Bool}
    (hw : w' = if b then (w.endReap t).markReaped p else (w.endReap t).breakReap p) (S : Single w)
    (hlt : t < w.taskCount) (hst : (w.task t).started = true) (hd : w.taskDone t = false)
    (hp : ∀ q, (t, q) ∈ w.procs.reaping ↔ q = p) (hk : w.Kept) :
    Own t w w' ∧ w'.KeptBut p ∧ Passive t w w' ∧
      (b = true → (w'.procs.proc p).reaped = true) := by
  subst hw
  set w' := if b then (w.endReap t).markReaped p else (w.endReap t).breakReap p with hw'
  have task : w'.task = w.task := by cases b <;> rfl
  have count : w'.taskCount = w.taskCount := by cases b <;> rfl
  have hold : w'.hold = w.hold := by cases b <;> rfl
  have trace : w'.trace = w.trace := by cases b <;> rfl
  have resident : w'.resident = w.resident := by cases b <;> rfl
  have spawned : w'.procs.spawned = w.procs.spawned := by cases b <;> rfl
  have reaping : ∀ u q, (u, q) ∈ w'.procs.reaping ↔ u ≠ t ∧ (u, q) ∈ w.procs.reaping := by
    intro u q
    have : w'.procs.reaping = w.procs.reaping.filter fun e => e.1 ≠ t := by cases b <;> rfl
    rw [this, List.mem_filter]
    simp [and_comm]
  have reaped : ∀ q, (w.procs.proc q).reaped = true → (w'.procs.proc q).reaped = true := by
    intro q hq
    cases b with
    | false => exact hq
    | true =>
        simp only [w', if_true, World.markReaped, World.setProcs, World.endReap]
        by_cases h : q = p
        · subst h
          simp
        · rw [setAt_of_ne h]
          exact hq
  have undead : ∀ q, w'.undead q → w.undead q := by
    rintro q ⟨hq, hr⟩
    refine ⟨by rwa [spawned] at hq, ?_⟩
    cases h : (w.procs.proc q).reaped with
    | false => rfl
    | true => rw [reaped q h] at hr; cases hr
  have single : Single w' :=
    { tame := S.tame.of_same task count (by rw [hold]) fun r => by rw [resident]; exact ⟨rfl, rfl⟩
      serial := by rw [count, task]; exact S.serial
      once := fun q q' h h' => S.once q q' (undead q h) (undead q' h')
      handles := by rw [hold, spawned]; exact S.handles
      reapers := fun e he => by
        simp only [World.mayReap, World.taskDone, task, count]
        exact S.reapers e ((reaping e.1 e.2).mp he).2
      shields := fun u hu q hq => by
        rw [count] at hu
        rw [task] at hq
        obtain ⟨h₁, h₂⟩ := S.shields u hu q hq
        refine ⟨by rw [spawned]; exact h₁, fun h => ?_⟩
        rw [World.taskDone, task] at h
        rw [task]
        exact ⟨(h₂ h).1, reaped q (h₂ h).2⟩
      asleep := by rw [task, count, hold]; exact S.asleep
      alone := by rw [trace]; exact S.alone }
  have bystander : Bystander w w' :=
    ⟨by rw [hold], .inl (by rw [hold]), spawned, fun u h h' => absurd h (by omega)⟩
  refine ⟨⟨single, ?_, by rw [count]; exact hlt, by rw [task]; exact hst,
    by rw [World.taskDone, task]; exact hd, fun q hq => ((reaping t q).mp hq).1 rfl⟩, ?_, ?_, ?_⟩
  · exact
      { count := Nat.le_of_eq count.symm
        kind := fun _ _ => by rw [task]
        started := fun _ _ h => by rwa [task]
        outcome := fun _ _ _ => by rw [task]
        entries := fun u _ hu q => by
          rw [reaping]
          exact and_iff_right fun h => hu (by rw [h])
        reaped := fun q _ => reaped q
        spawned := Nat.le_of_eq spawned.symm
        bystander := fun _ => bystander }
  · refine hk.imp (fun h => by rwa [World.taskDone, task]) fun ho q hq => ?_
    rcases ho q (undead q hq) with ha | hi | ⟨u, hu⟩
    · exact .inr (.inl (by rw [hold]; exact ha))
    · exact .inr (.inr (.inl (by rw [hold]; exact hi)))
    · by_cases h : u = t
      · subst h
        exact .inl ((hp q).mp hu)
      · exact .inr (.inr (.inr ⟨u, (reaping u q).mpr ⟨h, hu⟩⟩))
  · exact
      { count := Nat.le_of_eq count.symm
        kind := fun _ _ => by rw [task]
        started := fun _ _ h => by rwa [task]
        settled := fun _ _ _ => by rw [task]
        outcome := fun _ => by rw [task]
        reaped := fun q _ => reaped q
        spawned := Nat.le_of_eq spawned.symm
        bystander := fun _ => bystander }
  · rintro rfl
    simp [w', World.markReaped, World.setProcs]

/-- The replies a SIGTERM may get, and what they do. -/
theorem answer_sigterm {t p : Nat} {r : Reply} {w : World}
    (ha : allowed t (.sigterm p) r w = true) :
    (r = .ok ∧ answer t (.sigterm p) r w =
      ((w.endReap t).markReaped p).delivered t (.sigterm p)) ∨
    (∃ e, r = .raised e) ∨
    (r = .cancelled ∧ (w.task t).cancelRequested = true ∧
      answer t (.sigterm p) r w =
        ((w.endReap t).breakReap p).delivered t (.sigterm p)) := by
  rcases allowed_cases ha with ⟨rfl, hc⟩ | hr
  · exact .inr (.inr ⟨rfl, hc, rfl⟩)
  · cases r with
    | ok => exact .inl ⟨rfl, rfl⟩
    | raised e => exact .inr (.inl ⟨e, rfl⟩)
    | _ => cases hr

/-- The rule of `await self._sigterm(...)`. -/
theorem wp_sigterm {C : Config} {t p : Nat} {Q : Post sig Unit} {s w : World} (O : Own t s w)
    (hk : w.KeptBut p) (hm : w.mayReap t)
    (hok : ∀ s' w', Own t s' w' → w'.Kept → Passive t w w' →
      (w'.procs.proc p).reaped = true → Q (.ok ()) s' w')
    (hca : (w.task t).kind.cancellable = true → ∀ s' w', Own t s' w' → w'.KeptBut p →
      Passive t w w' → Q (.error .cancelled) s' w') :
    wp (single C) t (sigterm p) Q s w := by
  obtain ⟨hi, hpass, hown⟩ := begin_reap (C := C) (p := p) O hk hm
  refine ⟨hi, fun w₁ hr hg r ha had => ?_⟩
  have ho := rely_others hr
  have hlt : t < w₁.taskCount := Nat.lt_of_lt_of_le O.lt ho.count
  have hst : (w₁.task t).started = true := ho.started t O.lt O.started
  have hd : w₁.taskDone t = false := by
    rw [World.taskDone, ho.outcome O.lt]
    exact O.undone
  have hp : ∀ q, (t, q) ∈ w₁.procs.reaping ↔ q = p := fun q =>
    (ho.entries O.lt q).trans (hown q)
  have hpas : Passive t w w₁ := hpass.trans ho.toPassive
  have hend := fun (b : Bool) (w₂ : World)
      (hw : w₂ = if b then (w₁.endReap t).markReaped p else (w₁.endReap t).breakReap p) =>
    end_reap hw hg.1.1 hlt hst hd hp hg.1.2
  have hdel : ∀ {w₂ : World}, Own t w₁ w₂ → Unmoved w₂ (w₂.delivered t (.sigterm p)) :=
    fun O => quiet_delivered t _ _ O.single.tame
  rcases answer_sigterm ha with ⟨rfl, he⟩ | ⟨e, rfl⟩ | ⟨rfl, hc, he⟩
  · obtain ⟨O₂, hk₂, hp₂, hr₂⟩ := hend true ((w₁.endReap t).markReaped p) rfl
    have hu := hdel O₂
    simp only [system, he]
    refine hok _ _ (hu.own O₂) ?_ ((hpas.trans hp₂).trans (hu.passive t)) ?_
    · exact hu.kept O₂.single (hk₂.kept (.inr (hr₂ rfl)))
    · rw [hu.reaped]
      exact hr₂ rfl
  · cases had
  · obtain ⟨O₂, hk₂, hp₂, -⟩ := hend false ((w₁.endReap t).breakReap p) rfl
    have hu := hdel O₂
    simp only [system, he]
    refine hca ?_ _ _ (hu.own O₂) ?_ ((hpas.trans hp₂).trans (hu.passive t))
    · have := hg.1.1.tame.cancel t hc
      rwa [ho.kind t O.lt] at this
    · refine hk₂.imp (fun h => ?_) fun h q hq => ?_
      · rwa [hu.taskDone (t := workerTask) O₂.single.tame.worker.1]
      · rw [hu.active, hu.idle, hu.reaping]
        exact h q ((hu.undead q).mp hq)

end Turbohaul
