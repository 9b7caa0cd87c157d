/-
# `PortExclusive` — every run at cap 2 and above

The dispatcher's loop, the start and the end of every kind of task, and the
theorem.  Then the run in which an eviction and the reservation that follows it
in the same critical section put two sidecars on one port.
-/
import Turbohaul.PortReserve

namespace Turbohaul

open Coop

variable {C : Config}

/-! ## The dispatcher -/

/-- The assertion of a task that tears down nobody. -/
abbrev Dockside (t : Nat) : World → World → Prop := Berth t none fun _ => True

theorem keeps_dispatchTurn (t : Nat) : Keeps (ports C) t (Dockside t) (dispatchTurn C) := by
  have F := frames_berth (C := C) (fixed_true t none)
  refine .bind (F.keeps (isSteady_gets _ _)) fun warm => .bind
    (F.keeps ((calm_popNext C warm).steady _)) fun s => ?_
  cases s with
  | none => exact F.keeps (only_sleep.mpr trivial)
  | some sl =>
      refine .bind (F.keeps (isSteady_gets _ _)) fun x => .ite
        (F.keeps ((calm_handleEvictedSlot sl).steady _)) (.tryExcept ?_ fun e =>
          F.keeps ⟨only_mark.mpr trivial, fun _ =>
            (isQuiet_failCompletionFuture _ _ _).steady _⟩)
      exact fun s w H => wp_mono (fun _ _ _ A => A.plain) (wp_routeOrReserve H.1)

theorem keeps_dispatchLoop (t : Nat) : Keeps (ports C) t (Dockside t) (dispatchLoop C) := by
  have F := frames_berth (C := C) (fixed_true t none)
  exact .whileTrue (.bind (F.keeps (isSteady_gets _ _)) fun stop =>
    .ite (.pure _) (.bind (keeps_dispatchTurn t) fun _ => .pure _))

/-! ## The end of a task -/

theorem ports_settle {w : World} (P : Ports w) {t : Nat} (hst : (w.task t).started = true)
    (o : Outcome) : Ports (w.setTask t fun k => { k with outcome := some o }) := by
  set w' := w.setTask t fun k => { k with outcome := some o } with hw'
  have same : ∀ u, (w'.task u).kind = (w.task u).kind ∧
      (w'.task u).started = (w.task u).started ∧
      (w'.task u).cancelRequested = (w.task u).cancelRequested := settle_task w t o
  have other : ∀ u, u ≠ t → w'.task u = w.task u := fun u hu => setAt_of_ne hu
  have mono : ∀ u, w.taskDone u = true → w'.taskDone u = true := by
    intro u hu
    by_cases h : u = t
    · subst h
      simp [hw', World.taskDone, World.setTask]
    · rwa [World.taskDone, other u h]
  exact
    { tame := tame_settle P.tame t o
      drivers := fun u hu d hk => P.drivers u hu d ((same u).1.symm.trans hk)
      listed := P.listed
      unborn := P.unborn
      keyed := P.keyed
      apart := P.apart
      distinct := P.distinct
      waiting := fun d u hu hs hd => by
        rw [(same u).2.1] at hs
        refine P.waiting d u hu hs ?_
        rw [World.taskDone, ← other u fun h => ?_]
        · exact hd
        · rw [h, hst] at hs
          cases hs
      orphan := fun u hu d hk => by
        obtain ⟨t', ht', hd⟩ := P.orphan u hu d ((same u).1.symm.trans hk)
        exact ⟨t', ht', mono t' hd⟩ }

theorem step_settle (w : World) (t : Nat) (o : Outcome) (hd : w.taskDone t = false) :
    PortStep (some t) w (w.setTask t fun k => { k with outcome := some o }) where
  count := Nat.le_refl _
  kind := fun u _ => (settle_task w t o u).1
  started := fun u _ h => (settle_task w t o u).2.1.trans h
  outcome := fun u _ h => by
    have hu : u ≠ t := by
      rintro rfl
      rcases h with h | h
      · exact h rfl
      · rw [hd] at h
        cases h
    simp [World.setTask, setAt_of_ne hu]
  residents := Nat.le_refl _
  seat := fun _ _ => rfl
  loading := fun _ _ h => h
  pristine := fun _ _ _ _ _ h => h

/-- The done callback of a driver. -/
theorem ports_orphan {w : World} (P : Ports w) {d t : Nat}
    (ht : (w.resident d).driverTask = some t) (hd : w.taskDone t = true) :
    Ports (w.fork (.reapDead d)) := by
  have old : ∀ u < w.taskCount, (w.fork (.reapDead d)).task u = w.task u := fun u hu =>
    setAt_of_ne (Nat.ne_of_lt hu)
  have new : (w.fork (.reapDead d)).task w.taskCount = { kind := .reapDead d } := setAt_self _ _ _
  have cases : ∀ u < (w.fork (.reapDead d)).taskCount, u < w.taskCount ∨ u = w.taskCount := by
    intro u hu
    change u < w.taskCount + 1 at hu
    omega
  exact
    { tame := tame_fork P.tame (by rintro ⟨⟩)
      drivers := fun u hu e hk => by
        rcases cases u hu with h | rfl
        · rw [old u h] at hk
          exact P.drivers u h e hk
        · rw [new] at hk
          cases hk
      listed := P.listed
      unborn := P.unborn
      keyed := P.keyed
      apart := P.apart
      distinct := P.distinct
      waiting := fun e u hu hs hn => by
        have hlt := (P.driven hu).2
        rw [old u hlt] at hs
        rw [World.taskDone, old u hlt] at hn
        exact P.waiting e u hu hs hn
      orphan := fun u hu e hk => by
        rcases cases u hu with h | rfl
        · rw [old u h] at hk
          obtain ⟨t', ht', hd'⟩ := P.orphan u h e hk
          exact ⟨t', ht', by rw [World.taskDone, old t' (P.driven ht').2]; exact hd'⟩
        · rw [new] at hk
          cases hk
          exact ⟨t, ht, by rw [World.taskDone, old t (P.driven ht).2]; exact hd⟩ }

theorem step_fork_ports (u : Option Nat) (w : World) (k : Kind) : PortStep u w (w.fork k) := by
  have old : ∀ t < w.taskCount, (w.fork k).task t = w.task t := fun t ht =>
    setAt_of_ne (Nat.ne_of_lt ht)
  exact
    { count := Nat.le_succ _
      kind := fun t ht => by rw [old t ht]
      started := fun t ht h => by rwa [old t ht]
      outcome := fun t ht _ => by rw [old t ht]
      residents := Nat.le_refl _
      seat := fun _ _ => rfl
      loading := fun _ _ h => h
      pristine := fun _ _ _ _ _ h => h }

/-- A running task may end. -/
theorem ends_aboard {t : Nat} {s w : World} (A : Aboard t s w) (r : Res sig Unit) :
    (ports C).Ends t r s w := by
  have P := ports_settle A.ports A.started (outcomeOf r)
  have hs := A.step.trans A.before (step_settle w t (outcomeOf r) A.undone)
  show Ports (finished t r w) ∧ PortStep (some t) s (finished t r w)
  unfold finished
  dsimp only
  split
  · next d hk =>
      have hd := P.drivers t A.lt d hk
      have done : (w.setTask t fun k => { k with outcome := some (outcomeOf r) }).taskDone t =
          true := by
        simp [World.taskDone, World.setTask]
      exact ⟨ports_orphan P hd done, hs.trans A.before (step_fork_ports _ _ _)⟩
  · exact ⟨P, hs⟩

/-! ## Every task from the invariant -/

/-- Where a task starts. -/
theorem aboard_start {t : Nat} {k : Kind} {r : Reply} {w : World} (P : Ports w)
    (hf : fresh w t = some k) :
    Aboard t w (answer t .entry r w) ∧ t < w.taskCount ∧ (w.task t).kind = k ∧
      (w.task t).started = false ∧ w.taskDone t = false ∧
      Steady none w (answer t .entry r w) := by
  have hs : Steady none w (answer t .entry r w) :=
    steadily_answer (o := .entry) trivial none t r w P.tame
  simp only [fresh, Option.ite_none_right_eq_some, Option.some.injEq, Bool.and_eq_true,
    Bool.not_eq_true', decide_eq_true_eq] at hf
  obtain ⟨⟨⟨hlt, hst⟩, hd⟩, rfl⟩ := hf
  have self : (answer t .entry r w).task t =
      { w.task t with started := true, cancelRequested := false } := by
    have : effect t .entry r w = w := by cases r <;> rfl
    simp [answer, this, World.delivered, World.setTask]
  refine ⟨⟨P, hs.ports P fun _ _ _ _ _ _ h => (by cases h), hs.step fun _ h => (by cases h),
    Nat.lt_of_lt_of_le hlt hs.count, by rw [self], ?_⟩, hlt, rfl, hst, hd, hs⟩
  rw [hs.taskDone hlt]
  exact hd

theorem ports_start_ok (hcap : 2 ≤ C.maxParallelSidecars) {t : Nat} {k : Kind} {r : Reply}
    {w : World} (P : Ports w) (hf : fresh w t = some k) :
    wp (ports C) t (taskBody C t k r) ((ports C).Ends t) w (answer t .entry r w) := by
  obtain ⟨A, hlt, hk, hst, hd, hs⟩ := aboard_start (r := r) P hf
  have steady : ∀ {m : Prog Unit} {d : Option Nat}, IsSteady d m →
      Berth t d (fun _ => True) w (answer t .entry r w) →
      wp (ports C) t m ((ports C).Ends t) w (answer t .entry r w) := fun hm H =>
    wp_mono (fun r _ _ H => ends_aboard H.1 r) ((frames_berth (fixed_true t _)).keeps hm _ _ H)
  unfold taskBody
  split
  · exact ends_aboard A _
  · cases k with
    | worker =>
        simp only [program, workerLoop, hcap, if_true]
        exact wp_mono (fun r _ _ H => ends_aboard H.1 r) (keeps_dispatchLoop t _ _ A.plain)
    | shutdown => exact steady (isSteady_shutdown none) A.plain
    | idleTeardown => exact steady (isSteady_teardownIdleHolder none) A.plain
    | shieldedSigterm p => exact steady (isSteady_sync none trivial) A.plain
    | driver d =>
        have hown := P.drivers t hlt d hk
        have H : Berth t none (Unspawned t d) w (answer t .entry r w) :=
          ⟨A, fun _ h => (by cases h), fun _ h => (by cases h), (hs.seat d).2.trans hown,
          hs.pristine (by rintro ⟨⟩) (P.waiting d t hown hst hd)⟩
        exact wp_mono (fun r _ _ H => ends_aboard H.1 r) (wp_driveResident H)
    | evictTeardown d => exact steady (isSteady_evictTeardown none d) A.plain
    | reapDead d =>
        obtain ⟨t', ht', hd'⟩ := P.orphan t hlt d hk
        have hdr := P.driven ht'
        refine steady (isSteady_reapDeadResident d) ⟨A, fun e he => ?_, fun e he => ?_, trivial⟩
        · cases he
          exact Nat.lt_of_lt_of_le hdr.1 (Nat.le_of_eq hs.residents.symm)
        · cases he
          refine .inr (.inr fun u hu => ?_)
          rw [(hs.seat d).2, ht'] at hu
          cases hu
          rw [hs.taskDone hdr.2]
          exact hd'
    | _ => exact steady ((calm_program C t rfl).steady none) A.plain

/-- The steps of the outside. -/
theorem ports_env_ok {e : Env} {w w' : World} (P : Ports w) (h : envStep e w = some w') :
    Ports w' ∧ PortStep none w w' := by
  have hs : Steady none w w' := by
    by_cases he : e = .shutdown
    · subst he
      simp only [envStep, Option.ite_none_right_eq_some, Option.some.injEq] at h
      obtain ⟨-, rfl⟩ := h
      have called : Steadily none (w.fork .shutdown)
          { w.fork .shutdown with shutdownTask := some w.taskCount } :=
        steady_same rfl rfl rfl rfl rfl rfl rfl (fun _ => rfl) fun _ h => h
      exact (steadily_fork none w (k := .shutdown) (by rintro ⟨⟩) fun _ =>
        ⟨(by rintro ⟨⟩), (by rintro ⟨⟩)⟩).trans called P.tame
    · exact (quiet_envStep h he).steadily none P.tame
  exact ⟨hs.ports P fun _ _ _ _ _ _ => (by rintro ⟨⟩), hs.count, hs.kind, hs.started,
    fun u hu _ => hs.outcome u hu, Nat.le_of_eq hs.residents.symm, fun d _ => (hs.seat d).2,
    fun d _ => hs.loaded d, fun _ _ _ _ _ hp => hs.pristine (by rintro ⟨⟩) hp⟩

theorem ports_verified (hcap : 2 ≤ C.maxParallelSidecars) : (ports C).Verified initial where
  init := by
    have one : ∀ t < initial.taskCount, t = workerTask := fun t ht => Nat.lt_one_iff.mp ht
    have tame : Tame initial :=
      { riders := (by rintro _ ⟨⟩)
        inFlight := (by intro _ _ h; cases h)
        drivers := (by intro _ _ h; cases h)
        cancel := fun t h => by
          simp only [initial, setAt] at h
          split at h <;> cases h
        worker := ⟨Nat.one_pos, rfl⟩
        onlyWorker := fun t ht _ => one t ht }
    exact
      { tame
        drivers := fun t ht d h => by rw [one t ht] at h; cases h
        listed := fun e he => by rw [List.mem_singleton.mp he]; exact Nat.one_pos
        unborn := fun _ _ => rfl
        keyed :=
          fun e he e' he' _ => (List.mem_singleton.mp he).trans (List.mem_singleton.mp he').symm
        apart := fun e he e' he' _ _ _ => by
          rw [List.mem_singleton.mp he, List.mem_singleton.mp he']
        distinct := fun p _ hp => absurd hp.1 (Nat.not_lt_zero p)
        waiting := (by intro _ _ h; cases h)
        orphan := fun t ht d h => by rw [one t ht] at h; cases h }
  start := fun _ _ _ _ hg hf _ _ => ports_start_ok hcap hg.1 hf
  env := fun _ _ _ hg _ h => ports_env_ok hg.1 h

/-- In every run at cap 2 and above in which fewer than 100 residents are
registered, and no unreaped sidecar is on the port that is given out, at every
reservation, unreaped sidecars are on different ports whenever the event loop
has control.  A spawn is followed by the await of its health probe, so none is
on the port of an earlier sidecar that is not reaped. -/
theorem ports_exclusive (C : Config) (hcap : 2 ≤ C.maxParallelSidecars) (c : Loop sig)
    (h : Reachable C (freshPorts C) c) (hc : c.current = none) (p q : Nat)
    (hp : c.world.undead p) (hq : c.world.undead q)
    (hport : (c.world.procs.proc p).port = (c.world.procs.proc q).port) : p = q :=
  ((ports C).sound (ports_verified hcap) (fun _ _ _ => trivial) h hc).distinct p q hp hq hport

/-! ## The reuse of a port -/

def pairConfig : Config := { maxParallelSidecars := 2, safetyEnabled := false }

/-- A request that asks for no idle window. -/
def coldRequest (modelTag : String) : Request :=
  { modelTag, threadId := modelTag, clientMeta := { keepAliveS := some 0 }, watched := false }

/-- One request is served; its resident is deregistered and its driver waits
for the SIGTERM. -/
def firstEvicted : List (Move (system pairConfig)) :=
  [.env (.request (.submitAndWait (coldRequest "a"))), .start 1 .ok, .answer (.time 0),
    .answer (.time 0), .answer .ok, .resume 1 .ok, .start 0 .ok, .go, .answer .ok,
    .answer (.manifest {}), .answer (.mib (some 0)), .answer .ok, .answer (.time 0), .go, .go,
    .start 2 .ok, .answer .ok, .answer (.manifest {}), .answer (.handle 0),
    .resume 2 (.healthy true), .go, .answer (.time 0), .resume 2 .ok, .resume 2 (.completion 7),
    .answer (.time 0), .resume 2 .ok, .answer (.time 0), .go, .answer (.time 30000),
    .answer (.time 30000)]

/-- A request for another model is reserved and spawned meanwhile. -/
def reused : List (Move (system pairConfig)) :=
  firstEvicted ++
  [.env (.request (.submitAndWait (coldRequest "b"))), .start 4 .ok, .answer (.time 30000),
    .answer (.time 30000), .answer .ok, .resume 4 .ok, .resume 0 .ok, .go, .answer .ok,
    .answer (.manifest {}), .answer (.mib (some 0)), .answer .ok, .answer (.time 30000), .go, .go,
    .start 5 .ok, .answer .ok, .answer (.manifest {}), .answer (.handle 1)]

/-- The second sidecar is spawned, and its health probe sent, on the port of
the first, whose SIGTERM has not returned. -/
theorem evicted_port_is_reused : ∃ c, Reachable pairConfig (Admit.any _) c ∧
    c.current.isNone = true ∧ c.world.undead 0 ∧ c.world.undead 1 ∧
    (c.world.procs.proc 0).port = (c.world.procs.proc 1).port ∧
    (c.susp 5).map Susp.op = some (.waitHealthy 1) ∧ c.world.registry.length < 100 := by
  have h : (Loop.exec (Admit.any _) reused { world := initial }).any (fun c =>
      decide (c.current.isNone = true ∧ c.world.undead 0 ∧ c.world.undead 1 ∧
        (c.world.procs.proc 0).port = (c.world.procs.proc 1).port ∧
        (c.susp 5).map Susp.op = some (.waitHealthy 1) ∧ c.world.registry.length < 100)) =
        true := by
    decide +kernel
  obtain ⟨c, hc, hp⟩ := Loop.reach_of_check h
  exact ⟨c, hc, of_decide_eq_true hp⟩

/-- A manifest that keeps its model on one card. -/
def onCard (gpu : Nat) : Manifest := { flags := { splitMode := some "none", mainGpu := some gpu } }

/-- Two models on two cards, both with a sidecar that boots. -/
def bothSpawned : List (Move (system pairConfig)) :=
  [.env (.request (.submitAndWait (coldRequest "a"))), .start 1 .ok, .answer (.time 0),
    .answer (.time 0), .answer .ok, .resume 1 .ok, .start 0 .ok, .go, .answer .ok,
    .answer (.manifest (onCard 0)), .answer (.mib (some 0)), .answer .ok, .answer (.time 0), .go,
    .go, .start 2 .ok, .answer .ok, .answer (.manifest (onCard 0)), .answer (.handle 0),
    .env (.request (.submitAndWait (coldRequest "b"))), .start 3 .ok, .answer (.time 0),
    .answer (.time 0), .answer .ok, .resume 3 .ok, .resume 0 .ok, .go, .answer (.time 0),
    .answer .ok, .answer (.manifest (onCard 1)), .answer (.mib (some 0)), .answer .ok,
    .answer (.time 0), .go, .go, .start 4 .ok, .answer .ok, .answer (.manifest (onCard 1)),
    .answer (.handle 1)]

/-- Both reservations meet the condition, and both sidecars are undead. -/
theorem ports_exclusive_served : ∃ c, Reachable pairConfig (freshPorts pairConfig) c ∧
    c.world.undead 0 ∧ c.world.undead 1 ∧ ∀ p q, c.world.undead p → c.world.undead q →
      (c.world.procs.proc p).port = (c.world.procs.proc q).port → p = q := by
  have h : (Loop.exec (freshPorts pairConfig) bothSpawned { world := initial }).any (fun c =>
      decide (c.current.isNone = true ∧ c.world.undead 0 ∧ c.world.undead 1)) = true := by
    decide +kernel
  obtain ⟨c, hc, hp⟩ := Loop.reach_of_check h
  obtain ⟨hn, hu, hu'⟩ := of_decide_eq_true hp
  exact ⟨c, hc, hu, hu', fun p q => ports_exclusive pairConfig (by decide) c hc
    (Option.isNone_iff_eq_none.mp hn) p q⟩

end Turbohaul
