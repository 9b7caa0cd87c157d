/-
# `Single` — one sidecar at a time, at cap 1

At cap 1 all sidecars share one port, so the serial worker has to be rid of
the old sidecar before it spawns a new one.  A sidecar that is not confirmed
gone is `undead`.  What has to hold whenever the event loop has control:

    once      at most one sidecar is undead
    Owned     an undead sidecar is the active handle, or the idle holder's, or
              a reap of it is in progress (as long as the worker lives)
    reapers   who may have a reap in progress
    shields   a shielded SIGTERM that is done has left its process dead
    asleep    before the worker starts there is no active handle to shield

The worker knows more where it stands: it has no reap in progress, no shielded
SIGTERM is running (`Calm`), and it has let go of the active handle or has
taken the idle holder.  Everything the other tasks do leaves that alone, but
for clearing the idle holder.

What breaks it is one task: a detached idle teardown that is still waiting for
its SIGTERM when the worker spawns.
-/
import Turbohaul.Sharing

namespace Turbohaul

open Coop

/-! ## The invariant -/

/-- The tasks there are at cap 1. -/
def Kind.serial : Kind → Bool
  | .driver _ | .evictTeardown _ | .reapDead _ => false
  | _ => true

theorem Kind.quiet_serial {k : Kind} (h : k.quiet = true) : k.serial = true := by
  cases k <;> first | rfl | cases h

namespace World

/-- Spawned and not confirmed gone. -/
def undead (w : World) (p : Nat) : Prop :=
  p < w.procs.spawned ∧ (w.procs.proc p).reaped = false

instance (w : World) (p : Nat) : Decidable (w.undead p) := inferInstanceAs (Decidable (_ ∧ _))

/-- Task `t` may have a reap in progress. -/
def mayReap (w : World) (t : Nat) : Prop :=
  match (w.task t).kind with
  | .worker | .idleTeardown | .shieldedSigterm _ => True
  | .shutdown => w.taskDone workerTask = true
  | _ => False

/-- Every undead sidecar is somebody's. -/
def Owned (w : World) : Prop :=
  ∀ p, w.undead p → w.hold.activeHandle = some p ∨ w.hold.idleHandle = some p ∨
    ∃ t, (t, p) ∈ w.procs.reaping

end World

/-- What holds of the sidecars, whoever owns them. -/
structure Single (w : World) : Prop where
  tame : Tame w
  serial : ∀ t < w.taskCount, (w.task t).kind.serial = true
  once : ∀ p q, w.undead p → w.undead q → p = q
  handles : ∀ p, w.hold.activeHandle = some p ∨ w.hold.idleHandle = some p → p < w.procs.spawned
  reapers : ∀ e ∈ w.procs.reaping, e.1 < w.taskCount ∧ (w.task e.1).started = true ∧
    w.taskDone e.1 = false ∧ w.mayReap e.1
  shields : ∀ t < w.taskCount, ∀ p, (w.task t).kind = .shieldedSigterm p →
    p < w.procs.spawned ∧ (w.taskDone t = true →
      (w.task t).outcome = some .returned ∧ (w.procs.proc p).reaped = true)
  asleep : (w.task workerTask).started = false → w.hold.activeHandle = none ∧
    ∀ t < w.taskCount, ∀ p, (w.task t).kind ≠ .shieldedSigterm p
  alone : ∀ s port rs, .spawning s port rs ∈ w.trace → rs = []

/-- What nobody but the worker changes. -/
structure Bystander (w w' : World) : Prop where
  active : w'.hold.activeHandle = w.hold.activeHandle
  idle : w'.hold.idleHandle = w.hold.idleHandle ∨ w'.hold.idleHandle = none
  spawned : w'.procs.spawned = w.procs.spawned
  shields : ∀ t < w'.taskCount, w.taskCount ≤ t → ∀ p, (w'.task t).kind ≠ .shieldedSigterm p

/-- What anybody does to the tasks and to the sidecars; `u` is who does it. -/
structure Step (u : Option Nat) (w w' : World) : Prop where
  count : w.taskCount ≤ w'.taskCount
  kind : ∀ t < w.taskCount, (w'.task t).kind = (w.task t).kind
  started : ∀ t < w.taskCount, (w.task t).started = true → (w'.task t).started = true
  outcome : ∀ t < w.taskCount, u ≠ some t ∨ w.taskDone t = true →
    (w'.task t).outcome = (w.task t).outcome
  entries : ∀ t < w.taskCount, u ≠ some t → ∀ p,
    (t, p) ∈ w'.procs.reaping ↔ (t, p) ∈ w.procs.reaping
  reaped : ∀ p < w.procs.spawned, (w.procs.proc p).reaped = true → (w'.procs.proc p).reaped = true
  spawned : w.procs.spawned ≤ w'.procs.spawned
  bystander : u ≠ some workerTask → Bystander w w'

/-- The condition: no SIGTERM raises, and when `_spawn` is called no detached
idle teardown is waiting for its own. -/
def quietSpawns (C : Config) : Admit (system C) where
  reply := fun _ o r w =>
    match o, r with
    | .sigterm _, .raised _ => false
    | .spawn _ _ _ _, _ => w.procs.reaping.all fun e => (w.task e.1).kind ≠ .idleTeardown
    | _, _ => true

/-- The outline of the proof. -/
def single (C : Config) : Outline (system C) where
  cond := quietSpawns C
  base := fun _ => True
  inv := fun w => Single w ∧ (w.taskDone workerTask = true ∨ w.Owned)
  guar := Step

/-! ## Steps -/

theorem Bystander.refl (w : World) : Bystander w w :=
  ⟨rfl, .inl rfl, rfl, fun t h h' => absurd h (by omega)⟩

theorem Bystander.trans {a b c : World} (h : Bystander a b) (h' : Bystander b c)
    (hk : ∀ t < b.taskCount, (c.task t).kind = (b.task t).kind) : Bystander a c where
  active := h'.active.trans h.active
  idle := by
    rcases h'.idle with e | e
    · rw [e]
      exact h.idle
    · exact .inr e
  spawned := h'.spawned.trans h.spawned
  shields := fun t ht hn => by
    by_cases hb : t < b.taskCount
    · rw [hk t hb]
      exact h.shields t hb hn
    · exact h'.shields t ht (by omega)

theorem Step.refl (u : Option Nat) (w : World) : Step u w w :=
  ⟨Nat.le_refl _, fun _ _ => rfl, fun _ _ h => h, fun _ _ _ => rfl, fun _ _ _ _ => Iff.rfl,
    fun _ _ h => h, Nat.le_refl _, fun _ => .refl w⟩

/-- What is done to a task that is done. -/
theorem Step.done {u : Option Nat} {w w' : World} (h : Step u w w') {t : Nat}
    (ht : t < w.taskCount) (hd : w.taskDone t = true) : w'.taskDone t = true := by
  rw [World.taskDone, h.outcome t ht (.inr hd)]
  exact hd

theorem Step.trans {u : Option Nat} {a b c : World} (h : Step u a b) (h' : Step u b c) :
    Step u a c where
  count := Nat.le_trans h.count h'.count
  kind := fun t ht => (h'.kind t (Nat.lt_of_lt_of_le ht h.count)).trans (h.kind t ht)
  started := fun t ht hs => h'.started t (Nat.lt_of_lt_of_le ht h.count) (h.started t ht hs)
  outcome := fun t ht hu =>
    (h'.outcome t (Nat.lt_of_lt_of_le ht h.count) (hu.imp_right (h.done ht))).trans
      (h.outcome t ht hu)
  entries := fun t ht hu p =>
    (h'.entries t (Nat.lt_of_lt_of_le ht h.count) hu p).trans (h.entries t ht hu p)
  reaped := fun p hp hr => h'.reaped p (Nat.lt_of_lt_of_le hp h.spawned) (h.reaped p hp hr)
  spawned := Nat.le_trans h.spawned h'.spawned
  bystander := fun hu => (h.bystander hu).trans (h'.bystander hu) h'.kind

/-! ## What a quiet statement keeps -/

theorem Unmoved.active {w w' : World} (h : Unmoved w w') :
    w'.hold.activeHandle = w.hold.activeHandle := congrArg Processes.active h.processes

theorem Unmoved.idle {w w' : World} (h : Unmoved w w') :
    w'.hold.idleHandle = w.hold.idleHandle := congrArg Processes.idle h.processes

theorem Unmoved.spawned {w w' : World} (h : Unmoved w w') :
    w'.procs.spawned = w.procs.spawned := congrArg Processes.spawned h.processes

theorem Unmoved.reaping {w w' : World} (h : Unmoved w w') :
    w'.procs.reaping = w.procs.reaping := congrArg Processes.reaping h.processes

theorem Unmoved.reaped {w w' : World} (h : Unmoved w w') (p : Nat) :
    (w'.procs.proc p).reaped = (w.procs.proc p).reaped :=
  congrFun (congrArg Processes.reaped h.processes) p

theorem Unmoved.spawns {w w' : World} (h : Unmoved w w') {e : Event} (he : e.isSpawn = true) :
    e ∈ w'.trace ↔ e ∈ w.trace := by
  have hs : e ∈ w'.trace.filter Event.isSpawn ↔ e ∈ w.trace.filter Event.isSpawn := by
    rw [show w'.trace.filter Event.isSpawn = w.trace.filter Event.isSpawn from
      congrArg Processes.spawns h.processes]
  simpa [List.mem_filter, he] using hs

theorem Unmoved.undead {w w' : World} (h : Unmoved w w') (p : Nat) :
    w'.undead p ↔ w.undead p := by
  simp only [World.undead, h.spawned, h.reaped]

theorem Unmoved.taskDone {w w' : World} (h : Unmoved w w') {t : Nat} (ht : t < w.taskCount) :
    w'.taskDone t = w.taskDone t := by
  simp only [World.taskDone, h.tasks.outcome t ht]

theorem Unmoved.owned {w w' : World} (h : Unmoved w w') (ho : w.Owned) : w'.Owned := by
  intro p hp
  rw [h.active, h.idle, h.reaping]
  exact ho p ((h.undead p).mp hp)

theorem Unmoved.single {w w' : World} (h : Unmoved w w') (S : Single w) : Single w' where
  tame := h.tame
  serial := fun t ht => by
    by_cases ho : t < w.taskCount
    · rw [h.tasks.kind t ho]
      exact S.serial t ho
    · exact Kind.quiet_serial (h.tasks.new t ht (by omega)).1
  once := fun p q hp hq => S.once p q ((h.undead p).mp hp) ((h.undead q).mp hq)
  handles := fun p => by
    rw [h.active, h.idle, h.spawned]
    exact S.handles p
  reapers := fun e he => by
    rw [h.reaping] at he
    obtain ⟨hlt, hs, hd, hr⟩ := S.reapers e he
    refine ⟨Nat.lt_of_lt_of_le hlt h.tasks.count, h.tasks.started _ hlt hs, ?_, ?_⟩
    · rw [h.taskDone hlt]
      exact hd
    · rw [World.mayReap, h.tasks.kind _ hlt, h.taskDone (t := workerTask) S.tame.worker.1]
      exact hr
  shields := fun t ht p hk => by
    rw [h.spawned, h.reaped]
    by_cases ho : t < w.taskCount
    · rw [h.tasks.kind t ho] at hk
      rw [h.taskDone ho, h.tasks.outcome t ho]
      exact S.shields t ho p hk
    · have hq := (h.tasks.new t ht (by omega)).1
      rw [hk] at hq
      cases hq
  asleep := fun hs => by
    have hs₀ : (w.task workerTask).started = false := by
      cases hw : (w.task workerTask).started with
      | false => rfl
      | true => rw [h.tasks.started workerTask S.tame.worker.1 hw] at hs; cases hs
    refine ⟨h.active.trans (S.asleep hs₀).1, fun t ht p hk => ?_⟩
    by_cases ho : t < w.taskCount
    · rw [h.tasks.kind t ho] at hk
      exact (S.asleep hs₀).2 t ho p hk
    · have hq := (h.tasks.new t ht (by omega)).1
      rw [hk] at hq
      cases hq
  alone := fun s port rs he => S.alone s port rs ((h.spawns rfl).mp he)

theorem Unmoved.step {w w' : World} (h : Unmoved w w') (u : Option Nat) : Step u w w' where
  count := h.tasks.count
  kind := h.tasks.kind
  started := h.tasks.started
  outcome := fun t ht _ => h.tasks.outcome t ht
  entries := fun t ht _ p => by rw [h.reaping]
  reaped := fun p _ hr => by rwa [h.reaped]
  spawned := Nat.le_of_eq h.spawned.symm
  bystander := fun _ =>
    { active := h.active
      idle := .inl h.idle
      spawned := h.spawned
      shields := fun t ht hn p hk => by
        have hq := (h.tasks.new t ht hn).1
        rw [hk] at hq
        cases hq }

/-! ## What a task knows of itself -/

/-- Task `t` is running, has no reap in progress, and has done nothing but its
own steps since its segment began. -/
structure Own (t : Nat) (s w : World) : Prop where
  single : Single w
  step : Step (some t) s w
  lt : t < w.taskCount
  started : (w.task t).started = true
  undone : w.taskDone t = false
  free : ∀ p, (t, p) ∉ w.procs.reaping

/-- What the others do between two segments of `t`, whether or not `t` itself
is reaping. -/
structure Passive (t : Nat) (w w' : World) : Prop where
  count : w.taskCount ≤ w'.taskCount
  kind : ∀ u < w.taskCount, (w'.task u).kind = (w.task u).kind
  started : ∀ u < w.taskCount, (w.task u).started = true → (w'.task u).started = true
  settled : ∀ u < w.taskCount, w.taskDone u = true → (w'.task u).outcome = (w.task u).outcome
  outcome : t < w.taskCount → (w'.task t).outcome = (w.task t).outcome
  reaped : ∀ p < w.procs.spawned, (w.procs.proc p).reaped = true → (w'.procs.proc p).reaped = true
  spawned : w.procs.spawned ≤ w'.procs.spawned
  bystander : t = workerTask → Bystander w w'

/-- What the others do to `t`'s own reaps: nothing. -/
structure Others (t : Nat) (w w' : World) : Prop extends Passive t w w' where
  entries : t < w.taskCount → ∀ p, (t, p) ∈ w'.procs.reaping ↔ (t, p) ∈ w.procs.reaping

theorem Passive.refl (t : Nat) (w : World) : Passive t w w :=
  ⟨Nat.le_refl _, fun _ _ => rfl, fun _ _ h => h, fun _ _ _ => rfl, fun _ => rfl,
    fun _ _ h => h, Nat.le_refl _, fun _ => .refl w⟩

theorem Passive.done {t : Nat} {w w' : World} (h : Passive t w w') {u : Nat}
    (hu : u < w.taskCount) (hd : w.taskDone u = true) : w'.taskDone u = true := by
  rw [World.taskDone, h.settled u hu hd]
  exact hd

theorem Passive.trans {t : Nat} {a b c : World} (h : Passive t a b) (h' : Passive t b c) :
    Passive t a c where
  count := Nat.le_trans h.count h'.count
  kind := fun u hu => (h'.kind u (Nat.lt_of_lt_of_le hu h.count)).trans (h.kind u hu)
  started := fun u hu hs => h'.started u (Nat.lt_of_lt_of_le hu h.count) (h.started u hu hs)
  settled := fun u hu hd =>
    (h'.settled u (Nat.lt_of_lt_of_le hu h.count) (h.done hu hd)).trans (h.settled u hu hd)
  outcome := fun ht => (h'.outcome (Nat.lt_of_lt_of_le ht h.count)).trans (h.outcome ht)
  reaped := fun p hp hr => h'.reaped p (Nat.lt_of_lt_of_le hp h.spawned) (h.reaped p hp hr)
  spawned := Nat.le_trans h.spawned h'.spawned
  bystander := fun ht => (h.bystander ht).trans (h'.bystander ht) h'.kind

theorem Step.others {u : Option Nat} {t : Nat} {w w' : World} (h : Step u w w')
    (hu : u ≠ some t) : Others t w w' where
  count := h.count
  kind := h.kind
  started := h.started
  settled := fun v hv hd => h.outcome v hv (.inr hd)
  outcome := fun ht => h.outcome t ht (.inl hu)
  reaped := h.reaped
  spawned := h.spawned
  bystander := fun ht => h.bystander (ht ▸ hu)
  entries := fun ht p => h.entries t ht hu p

theorem rely_others {C : Config} {t : Nat} {w w' : World} (h : (single C).Rely t w w') :
    Others t w w' := by
  refine Outline.Rely.keeps (fun w => ⟨.refl t w, fun _ _ => Iff.rfl⟩) ?_ ?_ h
  · exact fun a b c hab hbc => ⟨hab.toPassive.trans hbc.toPassive, fun ht p =>
      (hbc.entries (Nat.lt_of_lt_of_le ht hab.count) p).trans (hab.entries ht p)⟩
  · exact fun u w w' hu _ _ hg => hg.others hu

theorem Unmoved.own {t : Nat} {s w w' : World} (h : Unmoved w w') (O : Own t s w) :
    Own t s w' where
  single := h.single O.single
  step := O.step.trans (h.step _)
  lt := Nat.lt_of_lt_of_le O.lt h.tasks.count
  started := h.tasks.started t O.lt O.started
  undone := by
    rw [h.taskDone O.lt]
    exact O.undone
  free := by
    rw [h.reaping]
    exact O.free

theorem Unmoved.passive {w w' : World} (h : Unmoved w w') (t : Nat) : Passive t w w' where
  count := h.tasks.count
  kind := h.tasks.kind
  started := h.tasks.started
  settled := fun u hu _ => h.tasks.outcome u hu
  outcome := h.tasks.outcome t
  reaped := fun p _ hr => by rwa [h.reaped]
  spawned := Nat.le_of_eq h.spawned.symm
  bystander := fun _ => (h.step none).bystander (by rintro ⟨⟩)

/-- Where `t` resumes, its segment begins. -/
theorem Own.resume {t : Nat} {s w w' : World} (O : Own t s w) (h : Others t w w')
    (S : Single w') : Own t w' w' where
  single := S
  step := .refl _ _
  lt := Nat.lt_of_lt_of_le O.lt h.count
  started := h.started t O.lt O.started
  undone := by
    rw [World.taskDone, h.outcome O.lt]
    exact O.undone
  free := fun p hp => O.free p ((h.entries O.lt p).mp hp)

/-- Every undead sidecar is somebody's, as far as it matters. -/
def World.Kept (w : World) : Prop := w.taskDone workerTask = true ∨ w.Owned

theorem Unmoved.kept {w w' : World} (h : Unmoved w w') (S : Single w) (hk : w.Kept) : w'.Kept :=
  hk.imp (fun hd => by rwa [h.taskDone (t := workerTask) S.tame.worker.1]) h.owned

/-- An assertion about where task `t` stands that only its own statements can
change. -/
structure Local (t : Nat) (L : World → Prop) : Prop where
  passive : ∀ {w w'}, Single w → Passive t w w' → L w → L w'

/-- Quiet programs keep what a task knows. -/
theorem frames_own {C : Config} {t : Nat} {L : World → Prop} (hL : Local t L) :
    Frames (single C) t (fun s w => Own t s w ∧ w.Kept ∧ L w) Quiet QuietOp := by
  refine frames_quiet ?_ ?_ ?_
  · rintro s w w' hq ⟨O, hk, hl⟩
    have hu := hq O.single.tame
    exact ⟨hu.own O, hu.kept O.single hk, hL.passive O.single (hu.passive t) hl⟩
  · rintro s w ⟨O, hk, -⟩
    exact ⟨⟨O.single, hk⟩, O.step⟩
  · rintro s w w' ⟨O, -, hl⟩ hr hg
    have ho := rely_others hr
    exact ⟨O.resume ho hg.1.1, hg.1.2, hL.passive O.single ho.toPassive hl⟩

end Turbohaul
