/-
# `CustodyRuns` — every task keeps the custody

What each kind of task knows of the resident it acts on: a driver that it is
the driver, and while it boots what the resident holds; an eviction that the
resident has come up; the reaper of a dead driver that the driver is done.
Then the programs, from the spawn to the reaps.
-/
import Turbohaul.Custody
import Turbohaul.PortExclusive

namespace Turbohaul

open Coop

variable {C : Config} {t d : Nat} {o : Option Nat} {s w w' : World}

/-! ## What a task knows -/

/-- The task drives the resident. -/
def Drives (t d : Nat) (w : World) : Prop := (w.resident d).driverTask = some t

/-- The task drives the resident, which has not come up. -/
def Boots (t d : Nat) (g : Grip) (w : World) : Prop :=
  Drives t d w ∧ w.loading d = true ∧ (w.resident d).grip = g

/-- The resident has come up, or has been given up. -/
def Risen (d : Nat) (w : World) : Prop := d < w.residentCount ∧ w.loading d = false

/-- The driver of the resident is done. -/
def Driven (d : Nat) (w : World) : Prop :=
  ∃ u, (w.resident d).driverTask = some u ∧ w.taskDone u = true

theorem Drives.setResident {f : Resident → Resident} (hd : Drives t d w)
    (hf : (f (w.resident d)).driverTask = (w.resident d).driverTask) :
    Drives t d (w.setResident d f) := by
  have self : (w.setResident d f).resident d = f (w.resident d) := setAt_self _ _ _
  rw [Drives, self, hf]
  exact hd

theorem lasting_true (t : Nat) : Lasting t none fun _ => True where
  mayEnd := (by rintro _ _ _ ⟨⟩)
  tables := fun _ _ h => h
  act := fun _ _ h => h
  rely := fun _ _ _ h => h

theorem lasting_drives (t d : Nat) : Lasting t (some d) (Drives t d) where
  mayEnd := fun h e he => by
    cases he
    exact .inl h
  tables := fun _ h hl => by
    rw [Drives, h.resident]
    exact hl
  act := fun _ h hl => (h.seat d).trans hl
  rely := fun J _ h hl => (h.seat d (J.driven hl).1).trans hl

theorem lasting_boots (t d : Nat) (g : Grip) : Lasting t none (Boots t d g) where
  mayEnd := (by rintro _ _ _ ⟨⟩)
  tables := fun _ h hl => by
    rw [Boots, Drives, World.loading, h.resident]
    exact hl
  act := fun _ h hl =>
    ⟨(h.seat d).trans hl.1, (h.loading d (by rintro ⟨⟩)).trans hl.2.1, (h.grip d).trans hl.2.2⟩
  rely := fun J hd h hl => by
    obtain ⟨hb, hg⟩ := h.booting d t hl.1 (fun hn => hn rfl) hd hl.2.1
    exact ⟨(h.seat d (J.driven hl.1).1).trans hl.1, hb, hg.trans hl.2.2⟩

theorem lasting_risen (t d : Nat) : Lasting t (some d) (Risen d) where
  mayEnd := fun h e he => by
    cases he
    exact .inr (.inl h.2)
  tables := fun _ h hl => by
    rw [Risen, h.residentCount, World.loading, h.resident]
    exact hl
  act := fun _ h hl => ⟨h.residents.symm ▸ hl.1, h.loaded d hl.2⟩
  rely := fun _ _ h hl => ⟨Nat.lt_of_lt_of_le hl.1 h.residents, h.loading d hl.1 hl.2⟩

theorem lasting_driven (t d : Nat) : Lasting t (some d) (Driven d) where
  mayEnd := by
    rintro w ⟨u, hu, hd⟩ e he
    cases he
    refine .inr (.inr fun v hv => ?_)
    rw [hu] at hv
    cases hv
    exact hd
  tables := by
    rintro o w w' J h ⟨u, hu, hd⟩
    refine ⟨u, by rw [h.resident]; exact hu, ?_⟩
    rw [World.taskDone, h.task u (J.driven hu).2]
    exact hd
  act := by
    rintro o w w' J h ⟨u, hu, hd⟩
    exact ⟨u, (h.seat d).trans hu, (h.taskDone (J.driven hu).2).trans hd⟩
  rely := by
    rintro w w' J - h ⟨u, hu, hd⟩
    obtain ⟨hr, ht⟩ := J.driven hu
    exact ⟨u, (h.seat d hr).trans hu, h.done ht hd⟩

/-! ## Statements -/

/-- Programs of still statements, and of statements that may bring `d` down. -/
abbrev IsStilled (d : Option Nat) {α : Type} (m : Prog α) : Prop :=
  Only (Stilled d) (Unhanded none) m

theorem Calm.stilled {α : Type} {m : Prog α} (h : Calm Still m) (d : Option Nat) :
    IsStilled d m :=
  h.mono (fun _ _ hq => hq.stilled d) fun _ ho => ⟨rfl, ho⟩

theorem stilled_refl (d : Option Nat) (w : World) : Stilled d w w := (Still.refl w).stilled d

theorem isStilled_gets {α : Type} (d : Option Nat) (f : World → α) : IsStilled d (Co.gets f) :=
  stilled_refl d

theorem tasksGrow_same (ht : w'.task = w.task) (hc : w'.taskCount = w.taskCount) :
    TasksGrow w w' where
  count := Nat.le_of_eq hc.symm
  kind := fun _ _ => by rw [ht]
  started := fun _ _ h => by rwa [ht]
  outcome := fun _ _ => by rw [ht]
  new := fun t h h' => absurd h (by omega)

/-- An assignment to the resident that leaves what it holds as it is. -/
theorem stilled_setResident (w : World) (d : Nat) {f : Resident → Resident}
    (hg : ∀ x, (f x).grip = x.grip)
    (hk : ∀ x : Resident, (f x).tasks = x.tasks ∧ (f x).driverTask = x.driverTask)
    (hl : ∀ x, x.state ≠ .reservedLoading → (f x).state ≠ .reservedLoading) :
    Stilled (some d) w (w.setResident d f) := by
  intro T
  have self : (w.setResident d f).resident d = f (w.resident d) := setAt_self _ _ _
  have other : ∀ q, q ≠ d → (w.setResident d f).resident q = w.resident q := fun q hq =>
    setAt_of_ne hq
  refine
    { tasks := tasksGrow_same rfl rfl
      residents := rfl
      seat := fun q => ?_
      grip := fun q => ?_
      loading := fun q hq => ?_
      loaded := fun q hq => ?_
      registered := fun _ h => h
      spawned := rfl
      port := fun _ => rfl
      reaped := fun _ => rfl
      alive := fun _ h => h
      reaping := rfl
      begun := rfl
      broken := rfl
      idle := rfl
      tame := tame_setResident T d hk }
  · rcases eq_or_ne q d with rfl | h
    · rw [self, (hk _).2]
    · rw [other q h]
  · rcases eq_or_ne q d with rfl | h
    · rw [self, hg]
    · rw [other q h]
  · have h : q ≠ d := fun h => hq (by rw [h])
    simp only [World.loading, other q h]
  · rcases eq_or_ne q d with rfl | h
    · simp only [World.loading, self, decide_eq_false_iff_not] at hq ⊢
      exact hl _ hq
    · simpa only [World.loading, other q h] using hq

theorem isStilled_onResident (d : Nat) {f : Resident → Resident}
    (hg : ∀ x, (f x).grip = x.grip)
    (hk : ∀ x : Resident, (f x).tasks = x.tasks ∧ (f x).driverTask = x.driverTask)
    (hl : ∀ x, x.state ≠ .reservedLoading → (f x).state ≠ .reservedLoading) :
    IsStilled (some d) (onResident d f) := fun w => stilled_setResident w d hg hk hl

/-- A statement that leaves tasks, residents and processes alone, and registers
nobody. -/
theorem stilled_same {e : Option Nat} (ht : w'.task = w.task) (hc : w'.taskCount = w.taskCount)
    (hr : w'.resident = w.resident) (hn : w'.residentCount = w.residentCount)
    (hg : ∀ e ∈ w'.registry, e ∈ w.registry) (hp : w'.procs = w.procs)
    (hh : w'.hold = w.hold) : Stilled e w w' := fun T =>
  { tasks := tasksGrow_same ht hc
    residents := hn
    seat := fun _ => by rw [hr]
    grip := fun _ => by rw [hr]
    loading := fun _ _ => by rw [World.loading, hr, World.loading]
    loaded := fun _ h => by rwa [World.loading, hr]
    registered := hg
    spawned := by rw [hp]
    port := fun _ => by rw [hp]
    reaped := fun _ => by rw [hp]
    alive := fun _ h => by rwa [World.isAlive, hp]
    reaping := by rw [hp]
    begun := by rw [hp]
    broken := by rw [hp]
    idle := by rw [hh]
    tame := T.of_same ht hc (by rw [hh]) fun _ => by rw [hr]; exact ⟨rfl, rfl⟩ }

theorem stilled_deregister (e : Option Nat) (w : World) (d : Nat) : Stilled e w (w.deregister d) :=
  stilled_same rfl rfl rfl rfl (fun _ h => (List.mem_filter.mp h).1) rfl rfl

theorem still_drainInbox (d : Nat) (w : World) : Still w (w.drainInbox d) :=
  ⟨quiet_drainInbox d w, mortal_same rfl⟩

/-! ## Evictions -/

/-- A new task of a kind that drives no resident, and of which the custody
knows what it asks of it. -/
theorem Custody.fork (J : Custody o w) {k : Kind} (hw : k ≠ .worker) (hd : ∀ d, k ≠ .driver d)
    (hp : ∀ p, k ≠ .shieldedSigterm p) (he : ∀ d, k = .evictTeardown d → Risen d w)
    (hr : ∀ d, k = .reapDead d → Driven d w) : Custody o (w.fork k) := by
  have old : ∀ u < w.taskCount, (w.fork k).task u = w.task u := fun u hu =>
    setAt_of_ne (Nat.ne_of_lt hu)
  have new : (w.fork k).task w.taskCount = { kind := k } := setAt_self _ _ _
  have cases : ∀ u < (w.fork k).taskCount, u < w.taskCount ∨ u = w.taskCount := fun u hu => by
    change u < w.taskCount + 1 at hu
    omega
  have driven : ∀ {r}, Driven r w → Driven r (w.fork k) := by
    rintro r ⟨v, hv, hd⟩
    exact ⟨v, hv, by rw [World.taskDone, old v (J.driven hv).2]; exact hd⟩
  refine
    { J with
      tame := tame_fork J.tame hw
      drivers := fun u hu r hk => ?_
      busy := fun e he => ?_
      waiting := fun r u hu hs hn => ?_
      evicting := fun u hu r hk => ?_
      orphan := fun u hu r hk => ?_
      unshielded := fun u hu p hk => ?_ }
  · rcases cases u hu with h | rfl
    · rw [old u h] at hk
      exact J.drivers u h r hk
    · rw [new] at hk
      exact absurd hk (hd r)
  · obtain ⟨hlt, hs⟩ := J.busy e he
    exact ⟨Nat.lt_succ_of_lt hlt, by rw [old e.1 hlt]; exact hs⟩
  · have hlt := (J.driven hu).2
    rw [old u hlt] at hs
    rw [World.taskDone, old u hlt] at hn
    exact J.waiting r u hu hs hn
  · rcases cases u hu with h | rfl
    · rw [old u h] at hk
      exact J.evicting u h r hk
    · rw [new] at hk
      exact he r hk
  · rcases cases u hu with h | rfl
    · rw [old u h] at hk
      exact driven (J.orphan u h r hk)
    · rw [new] at hk
      exact driven (hr r hk)
  · rcases cases u hu with h | rfl
    · rw [old u h] at hk
      exact J.unshielded u h p hk
    · rw [new] at hk
      exact hp p hk

theorem tables_fork (w : World) (k : Kind) : SameTables w (w.fork k) :=
  ⟨rfl, rfl, Nat.le_succ _, fun _ hu => setAt_of_ne (Nat.ne_of_lt hu)⟩

/-- The teardown of a resident that has been given up is detached. -/
theorem Keeper.detach (K : Keeper t none s w) (hr : Risen d w) :
    Keeper t none s (w.fork (.evictTeardown d)) where
  before := K.before
  custody := K.custody.fork (by rintro ⟨⟩) (by rintro _ ⟨⟩) (by rintro _ ⟨⟩)
    (fun _ h => by cases h; exact hr) (by rintro _ ⟨⟩)
  handover := K.handover.trans K.before ((tables_fork w _).handover fun _ _ _ => .rfl)
  lt := Nat.lt_succ_of_lt K.lt
  started := by
    rw [(tables_fork w _).task t K.lt]
    exact K.started
  undone := by
    rw [World.taskDone, (tables_fork w _).task t K.lt]
    exact K.undone
  free := K.free

/-- `_begin_evict_locked`, by a task that may bring the resident down. -/
theorem keeps_evict {L : World → Prop} (hL : Lasting t (some d) L)
    (hlt : ∀ {w}, Custody none w → L w → d < w.residentCount) :
    Keeps (custody C) t (fun s w => Keeper t none s w ∧ L w) (beginEvictLocked d) := by
  have F := frames_keeper (C := C) (o := none) hL
  refine .bind (F.keeps (stilled_refl _)) fun x => .bind (F.keeps (only_when.mpr fun _ w =>
    (still_drainInbox d w).stilled _)) fun _ => ?_
  intro s w H
  rw [wp_when]
  split
  · have dead : Stilled (some d) w (w.setResident d fun x => { x with state := .dead }) :=
      stilled_setResident w d (fun _ => rfl) (fun _ => ⟨rfl, rfl⟩) fun _ _ => (by rintro ⟨⟩)
    obtain ⟨K, hl⟩ := F.act (stilled_deregister _ _ d) (F.act dead H)
    have risen : Risen d ((w.setResident d fun x => { x with state := .dead }).deregister d) := by
      refine ⟨hlt K.custody hl, ?_⟩
      simp [World.loading, World.deregister, World.setResident]
    exact ⟨K.detach risen, hL.tables K.custody (tables_fork _ _) hl⟩
  · exact H

/-- `_evict_teardown`. -/
theorem keeps_evictTeardown :
    Keeps (custody C) t (fun s w => Keeper t none s w ∧ Risen d w) (evictTeardown d) := by
  intro s w H
  rw [evictTeardown, wp_gets_bind, wp_when]
  split
  · obtain ⟨K, hr⟩ := H
    have hL := lasting_risen t d
    rw [wp_bind]
    refine wp_reapClaimed hL ?_ (K.custody.single d) ?_ fun _ _ _ H => H
    · exact K.claim (f := fun x => { x with tornDown := true, handle := none, bootingPid := none })
        (hL.mayEnd hr) hr.1 (fun _ => ⟨rfl, rfl⟩) (fun _ => rfl) (fun _ => rfl)
        fun _ => ⟨rfl, rfl⟩
    · refine ⟨hr.1, ?_⟩
      have := hr.2
      simpa [World.loading, World.setResident] using this
  · exact H

/-- `_reap_dead_resident`. -/
theorem keeps_reapDead :
    Keeps (custody C) t (fun s w => Keeper t none s w ∧ Driven d w) (reapDeadResident d) := by
  have hL := lasting_driven t d
  have F := frames_keeper (C := C) (o := none) hL
  refine .bind (F.keeps (stilled_refl _)) fun x => .bind (.forEach (fun s => ?_) _) fun _ =>
    keeps_evict hL fun J h => (J.driven h.choose_spec.1).1
  exact F.keeps ⟨only_failCompletionFuture.mpr ⟨rfl, trivial⟩, fun _ =>
    (calm_setDone s).stilled _⟩

/-! ## The boot -/

/-- A new sidecar is in the hands of the task that spawned it. -/
theorem Keeper.spawn (K : Keeper t none s w) (sl port n : Nat) (tag : String) :
    Keeper t (some w.procs.spawned) s ((w.callSpawn sl port).addSidecar port tag n) := by
  have J := K.custody
  set w' := (w.callSpawn sl port).addSidecar port tag n with hw'
  have tables : SameTables w w' := ⟨rfl, rfl, Nat.le_refl _, fun _ _ => rfl⟩
  have old : ∀ p < w.procs.spawned, w'.procs.proc p = w.procs.proc p := fun p hp =>
    setAt_of_ne (Nat.ne_of_lt hp)
  have unknown : w.procs.spawned ∉ w.procs.begun := fun h => absurd (J.known _ h) (Nat.lt_irrefl _)
  refine
    { before := K.before
      custody := J.processes tables rfl rfl rfl rfl (Nat.le_succ _)
        (fun p hp => by rw [old p hp]) (fun r p hr => (J.held r p hr).2.1) (fun p hp => ?_)
        (fun p hp hne => ?_) J.once (fun p hp => Nat.lt_succ_of_lt (J.known p hp)) J.busy
      handover := K.handover.trans K.before (tables.handover fun _ _ _ => .rfl)
      lt := K.lt
      started := K.started
      undone := K.undone
      free := K.free }
  · cases hp
    refine ⟨Nat.lt_succ_self _, unknown, fun r hr => ?_⟩
    exact absurd (J.held r _ hr).1 (Nat.lt_irrefl _)
  · have hlt : p < w.procs.spawned :=
      Nat.lt_of_le_of_ne (Nat.le_of_lt_succ hp) fun h => hne (by rw [h])
    rcases J.accounted p hlt (by rintro ⟨⟩) with h | ⟨hb, hu⟩ | ⟨hb, ha⟩
    · exact .inl h
    · refine .inr (.inl ⟨hb, ?_⟩)
      rw [World.underReap, old p hlt]
      exact hu
    · exact .inr (.inr ⟨hb, by rw [World.isAlive, old p hlt]; exact ha⟩)

/-- `_spawn`, by the driver of a resident. -/
theorem wp_spawn_custody {g : Grip} {sl port n : Nat} {tag : String} {Q : Post sig Nat}
    (K : Keeper t none s w) (hb : Boots t d g w)
    (hok : ∀ p w, Keeper t (some p) s w → Boots t d g w → (w.procs.proc p).port = port →
      Q (.ok p) s w)
    (he : ∀ e w, Keeper t none s w → Boots t d g w → Q (.error e) s w) :
    wp (custody C) t (spawn sl port tag n) Q s w := by
  intro x hx _
  cases x with
  | handle p =>
      have hp : p = w.procs.spawned := of_decide_eq_true hx
      subst hp
      refine hok _ _ (K.spawn sl port n tag) hb ?_
      show (setAt w.procs.proc w.procs.spawned _ w.procs.spawned).port = port
      rw [setAt_self]
  | raised e =>
      have called : Stilled none w (w.callSpawn sl port) :=
        stilled_same rfl rfl rfl rfl (fun _ h => h) rfl rfl
      exact he _ _ ((called K.custody.tame).keeper K (by rintro _ ⟨⟩)) hb
  | _ => cases hx

/-- The pid is noted before anything is awaited. -/
theorem Keeper.board {g : Grip} {p : Nat} (K : Keeper t (some p) s w) (hb : Boots t d g w)
    (hg : g.bare) (hp : (w.procs.proc p).port = g.port.getD 0) :
    Keeper t none s (w.setResident d fun x => { x with bootingPid := some p }) ∧
      Boots t d { g with bootingPid := some p }
        (w.setResident d fun x => { x with bootingPid := some p }) := by
  obtain ⟨hd, hl, rfl⟩ := hb
  have bare : ∀ q, ¬w.refers d q := by
    rintro q (h | h)
    · cases hg.1.symm.trans h
    · cases hg.2.1.symm.trans h
  have self : (w.setResident d fun x => { x with bootingPid := some p }).resident d =
      { w.resident d with bootingPid := some p } := setAt_self _ _ _
  refine ⟨K.regrip ((lasting_drives t d).mayEnd hd) (K.custody.driven hd).1 (fun _ => ⟨rfl, rfl⟩)
    (fun _ => rfl) id
    (.inl hg.1) (fun q h => ⟨hg.2.2, .inr ?_⟩) (fun q h => .inl ?_) (by rintro _ ⟨⟩),
    hd.setResident rfl, ?_, ?_⟩
  · rcases h with h | h
    · exact absurd (.inl h) (bare q)
    · cases h
      exact ⟨rfl, hp.symm⟩
  · rcases h with h | h
    · exact absurd h (bare q)
    · cases h
      exact .inr rfl
  · rw [World.loading, self]
    exact hl
  · rw [self]
    rfl

/-- The pid is the only thing in the resident's hands. -/
def Grip.boards (g : Grip) (p : Nat) : Prop :=
  g.handle = none ∧ g.bootingPid = some p ∧ g.tornDown = false

theorem Boots.refers {g : Grip} {p : Nat} (hb : Boots t d g w) (hg : g.boards p) {q : Nat} :
    w.refers d q ↔ q = p := by
  rw [World.refers, hb.2.2, Grip.holds, hg.1, hg.2.1]
  simp [eq_comm]

/-- The handle takes the place of the pid. -/
theorem Keeper.publish {g : Grip} {p : Nat} {f : Resident → Resident} (K : Keeper t none s w)
    (hb : Boots t d g w) (hg : g.boards p)
    (hkeep : ∀ x : Resident, (f x).tasks = x.tasks ∧ (f x).driverTask = x.driverTask)
    (hgrip : ∀ x : Resident, (f x).grip = { x.grip with handle := some p, bootingPid := none })
    (hstate : ∀ x : Resident, (f x).state ≠ .reservedLoading) :
    Keeper t none s (w.setResident d f) ∧ Drives t d (w.setResident d f) := by
  have holds : ∀ q, (f (w.resident d)).grip.holds q ↔ q = p := fun q => by
    rw [hgrip, Grip.holds]
    simp [eq_comm]
  have down : (f (w.resident d)).tornDown = false := by
    have h : (f (w.resident d)).tornDown = (w.resident d).tornDown :=
      congrArg Grip.tornDown (hgrip _)
    have h' : (w.resident d).tornDown = g.tornDown := congrArg Grip.tornDown hb.2.2
    rw [h, h', hg.2.2]
  refine ⟨K.regrip ((lasting_drives t d).mayEnd hb.1) (K.custody.driven hb.1).1 hkeep
    (fun x => congrArg Grip.port (hgrip x)) (fun _ => hstate _)
    (.inr (congrArg Grip.bootingPid (hgrip _))) (fun q h => ⟨down, .inl ?_⟩) (fun q h => .inl ?_)
    (by rintro _ ⟨⟩), hb.1.setResident (hkeep _).2⟩
  · exact (hb.refers hg).mpr ((holds q).mp h)
  · rcases h with h | h
    · exact (holds q).mpr ((hb.refers hg).mp h)
    · cases h

/-- The boot has failed: the pid is taken out of the resident's hands. -/
theorem Keeper.disown {g : Grip} {p : Nat} (K : Keeper t none s w) (hb : Boots t d g w)
    (hg : g.boards p) :
    Keeper t (some p) s (w.setResident d fun x => { x with bootingPid := none }) ∧
      Drives t d (w.setResident d fun x => { x with bootingPid := none }) := by
  have handle : (w.resident d).handle = none := by
    have h : (w.resident d).handle = g.handle := congrArg Grip.handle hb.2.2
    rw [h, hg.1]
  have bare : ∀ q, ¬Grip.holds { (w.resident d).grip with bootingPid := none } q := by
    rintro q (h | h)
    · cases handle.symm.trans h
    · cases h
  refine ⟨K.regrip ((lasting_drives t d).mayEnd hb.1) (K.custody.driven hb.1).1
    (fun _ => ⟨rfl, rfl⟩) (fun _ => rfl) id (.inr rfl) (fun q h => absurd h (bare q))
    (fun q h => .inr ?_) (fun q h => ⟨.inl ?_, bare q⟩), hb.1.setResident rfl⟩
  · rcases h with h | h
    · rw [(hb.refers hg).mp h]
    · cases h
  · exact (hb.refers hg).mpr (Option.some.inj h).symm

theorem wp_boot {g : Grip} {sl n : Nat} {tag : String} (K : Keeper t none s w)
    (hb : Boots t d g w) (hg : g.bare) :
    wp (custody C) t (bootResident d sl tag n)
      (fun _ s w => Keeper t none s w ∧ Drives t d w) s w := by
  have port : (w.resident d).port.getD 0 = g.port.getD 0 := by
    rw [← hb.2.2]
    rfl
  rw [bootResident, wp_gets_bind, wp_bind]
  refine wp_spawn_custody K hb (fun p w K hb hp => ?_) fun _ w K hb => ⟨K, hb.1⟩
  obtain ⟨K, hb⟩ := K.board hb hg (hp.trans port)
  have boards : Grip.boards { g with bootingPid := some p } p := ⟨hg.1, rfl, hg.2.2⟩
  have F := frames_keeper (C := C) (o := none) (lasting_boots t d { g with bootingPid := some p })
  have F' := frames_keeper (C := C) (o := none) (lasting_drives t d)
  have he : ∀ (e : Exc Err) s w, Keeper t none s w ∧ Boots t d { g with bootingPid := some p } w →
      Keeper t none s w ∧ Drives t d w := fun _ _ _ H => ⟨H.1, H.2.1⟩
  refine F.seq he ((calm_bindSidecar sl p).stilled _) (fun _ => F.seq he
    (only_waitHealthy.mpr ⟨rfl, trivial⟩) fun healthy s w H => ?_) s _ ⟨K, hb⟩
  split
  · exact H.1.publish (f := fun x => { x with
        handle := some p
        bootingPid := none
        state := .active
        spawnSeq := x.spawnSeq + 1 }) H.2 boards (fun _ => ⟨rfl, rfl⟩) (fun _ => rfl)
      (by rintro _ ⟨⟩)
  · refine F.seq he (only_failCompletionFuture.mpr ⟨rfl, trivial⟩) (fun _ s w H => ?_) s w H
    obtain ⟨K, hd⟩ := H.1.disown H.2 boards
    -- nothing is awaited until the reap begins
    show wp (custody C) t (Co.gets _ >>= fun alive => _) _ s _
    rw [wp_gets_bind, wp_bind, wp_when]
    split
    · exact wp_reap rfl (lasting_drives t d) K hd fun r s w H => by cases r <;> exact H
    · next ha => exact ⟨K.letGo (by simpa using ha), hd⟩

/-- `_spawn_for_resident`. -/
theorem wp_spawnFor {g : Grip} {sl : Nat} (K : Keeper t none s w) (hb : Boots t d g w)
    (hg : g.bare) :
    wp (custody C) t (spawnForResident C d sl)
      (fun _ s w => Keeper t none s w ∧ Drives t d w) s w := by
  have F := frames_keeper (C := C) (o := none) (lasting_boots t d g)
  have he : ∀ (e : Exc Err) s w, Keeper t none s w ∧ Boots t d g w →
      Keeper t none s w ∧ Drives t d w := fun _ _ _ H => ⟨H.1, H.2.1⟩
  rw [spawnForResident, wp_gets_bind]
  refine F.seq he (only_readManifest?.mpr ⟨rfl, trivial⟩) (fun m => F.seq he ?_
    fun ok s w H => ?_) s w ⟨K, hb⟩
  · exact only_ite.mpr ⟨fun _ => (calm_runSpawnSafetyGate (A := Still) _).stilled none,
      fun _ => trivial⟩
  · split
    · exact wp_boot H.1 H.2 hg
    · refine F.seq he (only_failCompletionFuture.mpr ⟨rfl, trivial⟩) (fun _ s w H => ?_) s w H
      exact ⟨H.1, H.2.1⟩

/-! ## The driver -/

/-- What a driver knows once it has booted. -/
abbrev Driver (t d : Nat) : World → World → Prop := fun s w => Keeper t none s w ∧ Drives t d w

theorem keeps_timeout : Keeps (custody C) t (Driver t d) (idleTimeout d) := by
  have hL := lasting_drives t d
  have F := frames_keeper (C := C) (o := none) hL
  refine .bind (F.keeps (stilled_refl _)) fun x => ?_
  split
  · exact .ite (.bind (keeps_evict hL fun J h => (J.driven h).1) fun _ => .pure _) (.pure _)
  · exact .bind (F.keeps ((calm_inboxGetNowait d _).stilled _)) fun _ =>
      .bind (F.keeps ((calm_takeInHand d _).stilled _)) fun _ => .pure _

theorem keeps_park (idle : Nat) : Keeps (custody C) t (Driver t d) (parkResident d idle) := by
  have hL := lasting_drives t d
  have F := frames_keeper (C := C) (o := none) hL
  refine .bind (F.keeps (stilled_refl _)) fun x => Keeps.ite (.pure _)
    (.bind (F.keeps (only_monotonic.mpr ⟨rfl, trivial⟩)) fun now => .bind (F.keeps ?_) fun _ =>
      Keeps.ite (.bind (keeps_evict hL fun J h => (J.driven h).1) fun _ => .pure _)
        (.bind (F.keeps (only_monotonic.mpr ⟨rfl, trivial⟩)) fun now => .bind (F.keeps ?_)
          fun _ => .bind (F.keeps ((calm_nextSlot d).stilled _)) fun s => ?_))
  · exact isStilled_onResident d (fun _ => rfl) (fun _ => ⟨rfl, rfl⟩) fun _ h => h
  · exact isStilled_onResident d (fun _ => rfl) (fun _ => ⟨rfl, rfl⟩) fun _ _ => (by rintro ⟨⟩)
  · cases s with
    | some s => exact .pure _
    | none => exact keeps_timeout

theorem keeps_turn (pid idle : Nat) :
    Keeps (custody C) t (Driver t d) (driveTurn C d pid idle) := by
  have F := frames_keeper (C := C) (o := none) (lasting_drives t d)
  refine .bind (F.keeps (stilled_refl _)) fun w => ?_
  split
  · refine Keeps.ite (.pure _) (.bind (F.keeps (only_monotonic.mpr ⟨rfl, trivial⟩)) fun now =>
      .bind (F.keeps ?_) fun _ =>
      .bind (F.keeps ((calm_serveOnResident C (captures d) _ pid).stilled _))
        fun _ => keeps_park idle)
    exact isStilled_onResident d (fun _ => rfl) (fun _ => ⟨rfl, rfl⟩) fun _ _ => (by rintro ⟨⟩)
  · exact .pure _

/-- The claim of the driver's `finally`. -/
theorem wp_claim {Q : Post sig Unit} (K : Keeper t none s w) (hd : Drives t d w)
    (hq : ∀ w', Keeper t ((w.resident d).handle <|> (w.resident d).bootingPid) s w' →
      Drives t d w' → Q (.ok ()) s w') :
    wp (custody C) t (claimTeardown d) Q s w := by
  have hL := lasting_drives t d
  have claimed := K.claim (f := fun x => { x with
    tornDown := true
    handle := none
    bootingPid := none
    pendingSlots := x.inbox.getD []
    inbox := x.inbox.map fun _ => [] }) (hL.mayEnd hd) (K.custody.driven hd).1
    (fun _ => ⟨rfl, rfl⟩) (fun _ => rfl) (fun _ => rfl) fun _ => ⟨rfl, rfl⟩
  have drives := hd.setResident (f := fun x => { x with
    tornDown := true
    handle := none
    bootingPid := none
    pendingSlots := x.inbox.getD []
    inbox := x.inbox.map fun _ => [] }) rfl
  have F := frames_keeper (C := C) (o := (w.resident d).handle <|> (w.resident d).bootingPid) hL
  rw [claimTeardown, onResident, wp_modify_bind, wp_gets_bind, wp_when]
  split
  · have dead : ∀ w : World, Stilled (some d) w
        (w.setResident d fun x => { x with state := .dead }) :=
      fun w => stilled_setResident w d (fun _ => rfl) (fun _ => ⟨rfl, rfl⟩) fun _ _ =>
      (by rintro ⟨⟩)
    obtain ⟨K', hd'⟩ := F.act (stilled_deregister _ _ d) (F.act (dead _) ⟨claimed, drives⟩)
    exact hq _ K' hd'
  · exact hq _ claimed drives

theorem keeps_finally : Keeps (custody C) t (Driver t d) (driveFinally d) := by
  have hL := lasting_drives t d
  have F := frames_keeper (C := C) (o := none) hL
  intro s w H
  rw [driveFinally, wp_gets_bind, wp_when]
  split
  · rw [wp_bind]
    refine wp_claim H.1 H.2 fun w' K hd => ?_
    refine wp_seq (wp_reapClaimed hL K (H.1.custody.single d) hd fun _ _ _ H => H)
      (fun _ s w H => ?_) fun _ _ _ H => H
    refine F.seq (fun _ _ _ H => H) (isStilled_gets _ _) (fun y => F.seq (fun _ _ _ H => H) ?_
      fun _ => F.seq (fun _ _ _ H => H) ((calm_requeueSlotsOrFail _).stilled _) fun _ =>
        F.seq (fun _ _ _ H => H) (isStilled_gets _ _) fun z => F.keeps ?_) s w H
    · exact isStilled_onResident d (fun _ => rfl) (fun _ => ⟨rfl, rfl⟩) fun _ h => h
    · split
      · exact only_when.mpr fun _ => only_failCompletionFuture.mpr ⟨rfl, trivial⟩
      · trivial
  · exact H

/-- `_drive_resident`, from its start. -/
theorem wp_drive {g : Grip} (K : Keeper t none s w) (hb : Boots t d g w) (hg : g.bare) :
    wp (custody C) t (driveResident C d) (fun _ => Driver t d) s w := by
  have F := frames_keeper (C := C) (o := none) (lasting_boots t d g)
  have F' := frames_keeper (C := C) (o := none) (lasting_drives t d)
  have body : wp (custody C) t (driveBody C d) (fun _ => Driver t d) s w := by
    refine F.seq (fun _ _ _ H => ⟨H.1, H.2.1⟩) ((calm_firstSlot d).stilled none)
      (fun sl s w H => ?_) s w ⟨K, hb⟩
    refine wp_seq (wp_spawnFor H.1 H.2 hg) (fun pid s w H => ?_) fun _ _ _ h => h
    cases pid with
    | none => exact H
    | some pid =>
        exact F'.seq (fun _ _ _ H => H) (isStilled_gets _ _)
          (fun x => Keeps.whileTrue (keeps_turn pid _)) s w H
  refine wp_tryFinally (wp_mono (fun r s w H => ?_) body)
  refine wp_mono (fun r' s w H => ?_) (keeps_finally s w H)
  cases r' <;> exact H

/-! ## The dispatcher -/

/-- What a task knows that acts on no resident. -/
abbrev Idler (t : Nat) : World → World → Prop := fun s w => Keeper t none s w ∧ True

/-- A reservation: the new resident holds nothing. -/
theorem Keeper.reserve {tag : String} {x : Resident} (K : Keeper t none s w)
    (hx : x.state = .reservedLoading) (hg : x.grip.bare) (htk : x.tasks = []) :
    Keeper t none s (w.reserve tag x) := by
  have J := K.custody
  set w' := w.reserve tag x with hw'
  have oldTask : ∀ u < w.taskCount, w'.task u = w.task u := fun u hu =>
    reserve_task (Nat.ne_of_lt hu)
  have old : ∀ r < w.residentCount, w'.resident r = w.resident r := fun r hr =>
    reserve_old (Nat.ne_of_lt hr)
  have new : w'.resident w.residentCount = { x with driverTask := some w.taskCount } := reserve_new
  have born : ∀ r < w'.residentCount, r < w.residentCount ∨ r = w.residentCount := fun r hr => by
    change r < w.residentCount + 1 at hr
    omega
  have forked : ∀ u < w'.taskCount, u < w.taskCount ∨ u = w.taskCount := fun u hu => by
    change u < w.taskCount + 1 at hu
    omega
  -- nobody holds more than before
  have bare : ∀ r, w.residentCount ≤ r → (w'.resident r).grip.bare := fun r hr => by
    rcases Nat.eq_or_lt_of_le hr with rfl | hlt
    · rw [new]
      exact hg
    · rw [hw', reserve_old (Nat.ne_of_gt hlt)]
      exact (J.unborn r (Nat.le_of_lt hlt)).2
  have refers : ∀ r p, w'.refers r p ↔ w.refers r p := fun r p => by
    by_cases hr : r < w.residentCount
    · rw [World.refers, old r hr, World.refers]
    · have none : ∀ {g : Grip}, g.bare → ¬g.holds p := by
        rintro g ⟨hh, hb, -⟩ (h | h)
        · cases hh.symm.trans h
        · cases hb.symm.trans h
      exact iff_of_false (none (bare r (by omega))) (none (J.unborn r (by omega)).2)
  have held : ∀ r p, w'.refers r p → r < w.residentCount := fun r p h => by
    by_contra hr
    obtain ⟨hh, hb, -⟩ := bare r (by omega)
    rcases h with h | h
    · cases hh.symm.trans h
    · cases hb.symm.trans h
  refine
    { before := K.before
      custody :=
        { tame := tame_reserve J.tame htk
          drivers := fun u hu r hk => ?_
          listed := fun e he => ?_
          unborn := fun r hr => ?_
          single := fun r => ?_
          sole := fun r e p hr he => J.sole r e p ((refers r p).mp hr) ((refers e p).mp he)
          held := fun r p hr => ?_
          taken := (by rintro _ ⟨⟩)
          accounted := fun p hp ho => ?_
          once := J.once
          known := J.known
          busy := fun e he => ?_
          waiting := fun r u hu hs hn => ?_
          evicting := fun u hu r hk => ?_
          orphan := fun u hu r hk => ?_
          unshielded := fun u hu p hk => ?_
          idle := J.idle }
      handover := K.handover.trans K.before
        { count := Nat.le_succ _
          kind := fun u hu => by rw [oldTask u hu]
          started := fun u hu hs => by rwa [oldTask u hu]
          outcome := fun u hu _ => by rw [oldTask u hu]
          residents := Nat.le_succ _
          seat := fun r hr => by rw [old r hr]
          loading := fun r hr hl => by rwa [World.loading, old r hr]
          booting := fun r u hu _ _ hl => ?_
          reaping := fun _ _ _ => .rfl }
      lt := Nat.lt_succ_of_lt K.lt
      started := by
        rw [oldTask t K.lt]
        exact K.started
      undone := by
        rw [World.taskDone, oldTask t K.lt]
        exact K.undone
      free := K.free }
  · rcases forked u hu with h | rfl
    · rw [oldTask u h] at hk
      have hd := J.drivers u h r hk
      rw [old r (J.driven hd).1]
      exact hd
    · rw [hw', reserve_newTask] at hk
      cases hk
      rw [new]
  · rcases mem_reserve.mp he with ⟨h, -⟩ | rfl
    · exact Nat.lt_succ_of_lt (J.listed e h)
    · exact Nat.lt_succ_self _
  · change w.residentCount + 1 ≤ r at hr
    refine ⟨?_, bare r (by omega)⟩
    rw [hw', reserve_old (by omega)]
    exact (J.unborn r (by omega)).1
  · by_cases hr : r < w.residentCount
    · rw [old r hr]
      exact J.single r
    · exact .inl (bare r (by omega)).1
  · obtain ⟨hlt, hb, ht, hp⟩ := J.held r p ((refers r p).mp hr)
    rw [old r (held r p hr)]
    exact ⟨hlt, hb, ht, hp⟩
  · exact (J.accounted p hp ho).imp_left (Exists.imp fun r => (refers r p).mpr)
  · obtain ⟨hlt, hs⟩ := J.busy e he
    exact ⟨Nat.lt_succ_of_lt hlt, by rw [oldTask e.1 hlt]; exact hs⟩
  · by_cases hr : r = w.residentCount
    · subst hr
      refine ⟨?_, bare _ (Nat.le_refl _)⟩
      simp [World.loading, new, hx]
    · rw [hw', reserve_old hr] at hu
      obtain ⟨hlt, hut⟩ := J.driven hu
      rw [oldTask u hut] at hs
      rw [World.taskDone, oldTask u hut] at hn
      rw [World.loading, old r hlt]
      exact J.waiting r u hu hs hn
  · rcases forked u hu with h | rfl
    · rw [oldTask u h] at hk
      obtain ⟨hlt, hl⟩ := J.evicting u h r hk
      exact ⟨Nat.lt_succ_of_lt hlt, by rwa [World.loading, old r hlt]⟩
    · rw [hw', reserve_newTask] at hk
      cases hk
  · rcases forked u hu with h | rfl
    · rw [oldTask u h] at hk
      obtain ⟨v, hv, hd⟩ := J.orphan u h r hk
      obtain ⟨hr, hvt⟩ := J.driven hv
      exact ⟨v, by rw [old r hr]; exact hv, by rw [World.taskDone, oldTask v hvt]; exact hd⟩
    · rw [hw', reserve_newTask] at hk
      cases hk
  · rcases forked u hu with h | rfl
    · rw [oldTask u h] at hk
      exact J.unshielded u h p hk
    · rw [hw', reserve_newTask] at hk
      cases hk
  · rw [World.loading, old r (J.driven hu).1]
    exact ⟨hl, rfl⟩

theorem wp_reserveIdler {sl : Nat} (K : Keeper t none s w) :
    wp (custody C) t (reserveAndStart C sl) (fun _ => Idler t) s w := by
  have F := frames_keeper (C := C) (o := none) (lasting_true t)
  rw [reserveAndStart, wp_gets_bind]
  refine wp_readModelFootprint fun r => ?_
  cases r with
  | error e => exact ⟨K, trivial⟩
  | ok fp =>
    refine wp_vramAdmits fun r _ => ?_
    cases r with
    | error e => exact ⟨K, trivial⟩
    | ok admits =>
      show wp (custody C) t (if admits = true then _ else _) _ s w
      split
      · refine F.seq (fun _ _ _ H => H) (only_mark.mpr ⟨rfl, trivial⟩) (fun _ =>
          F.seq (fun _ _ _ H => H) (isStilled_gets _ _) fun port => F.seq (fun _ _ _ H => H)
            (only_monotonic.mpr ⟨rfl, trivial⟩) fun now s w H => ?_) s w ⟨K, trivial⟩
        exact ⟨H.1.reserve rfl ⟨rfl, rfl, rfl⟩ rfl, trivial⟩
      · exact F.keeps (only_failCompletionFuture.mpr ⟨rfl, trivial⟩) s w ⟨K, trivial⟩

theorem keeps_routeIdler (sl : Nat) :
    Keeps (custody C) t (Idler t) (routeOrReserve C sl) := by
  have F := frames_keeper (C := C) (o := none) (lasting_true t)
  intro s w H
  rw [routeOrReserve, wp_gets_bind]
  cases hlive : w.liveResidentFor (w.slot sl).modelTag with
  | some r => exact F.keeps ((calm_routeHit r sl).stilled _) s w H
  | none =>
    dsimp only
    split
    · cases hv : w.lruIdleEvictable with
      | none => exact F.keeps ((calm_deferUnroutable sl).stilled _) s w H
      | some v =>
          -- the victim has come up, so that nobody boots it
          obtain ⟨⟨tag, hr⟩, hl⟩ := lruIdleEvictable_spec hv
          have risen : Risen v w := ⟨H.1.custody.listed _ hr, hl⟩
          refine wp_seq (keeps_evict (lasting_risen t v) (fun _ h => h.1) s w ⟨H.1, risen⟩)
            (fun _ s w H => wp_reserveIdler H.1) fun _ _ _ H => ⟨H.1, trivial⟩
    · exact wp_reserveIdler H.1

theorem keeps_dispatch : Keeps (custody C) t (Idler t) (dispatchLoop C) := by
  have F := frames_keeper (C := C) (o := none) (lasting_true t)
  refine .whileTrue (.bind (F.keeps (isStilled_gets _ _)) fun stop => .ite (.pure _)
    (.bind (.bind (F.keeps (isStilled_gets _ _)) fun warm => .bind
      (F.keeps ((calm_popNext C warm).stilled _)) fun r => ?_) fun _ => .pure _))
  cases r with
  | none => exact F.keeps (only_sleep.mpr ⟨rfl, trivial⟩)
  | some sl =>
      refine .bind (F.keeps (isStilled_gets _ _)) fun x => .ite
        (F.keeps ((calm_handleEvictedSlot sl).stilled _)) (.tryExcept (keeps_routeIdler sl) fun e =>
          F.keeps ⟨only_mark.mpr ⟨rfl, trivial⟩, fun _ =>
            only_failCompletionFuture.mpr ⟨rfl, trivial⟩⟩)

/-! ## Shutdown -/

theorem still_stopDrivers : Calm Still stopDrivers :=
  ⟨only_mark.mpr trivial, fun _ => ⟨calm_gets _, fun _ => ⟨fun w => ⟨quiet_cancelDrivers w,
    mortal_cancelAll (fun t => t) _ w⟩, fun _ => only_when.mpr fun _ => only_sync.mpr trivial⟩⟩⟩

theorem still_drainBgTasks : Calm Still drainBgTasks :=
  ⟨calm_gets _, fun ts => only_when.mpr fun _ => only_tryExcept.mpr ⟨only_sync.mpr trivial,
    fun _ => ⟨fun w => ⟨quiet_cancelBg ts w, mortal_cancelAll (fun t => t) _ w⟩, fun _ =>
      only_sync.mpr trivial⟩⟩⟩

theorem still_stopWorker : Calm Still stopWorker := by
  refine ⟨calm_gets _, fun b => only_when.mpr fun _ => ⟨fun w => ⟨quiet_cancelWorker w,
    mortal_same rfl⟩, fun _ => ⟨only_sync.mpr trivial, fun _ => ⟨calm_gets _, fun x => ?_⟩⟩⟩⟩
  dsimp only
  split <;> trivial

/-- Nobody holds an idle sidecar at cap 2 and above. -/
theorem keeps_idleTeardown : Keeps (custody C) t (Idler t) (teardownIdleHolder C) := by
  intro s w H
  rw [teardownIdleHolder, wp_gets_bind]
  simp only [H.1.custody.idle]
  exact H

theorem keeps_shutdownIdler : Keeps (custody C) t (Idler t) (shutdown C) := by
  have F := frames_keeper (C := C) (o := none) (lasting_true t)
  have stop : IsStilled none (Co.modify fun w : World => { w with stopEvent := true }) := fun _ =>
    stilled_same rfl rfl rfl rfl (fun _ h => h) rfl rfl
  exact .bind (F.keeps stop) fun _ => .bind (F.keeps (only_sync.mpr ⟨rfl, trivial⟩)) fun _ =>
    .bind (F.keeps (still_stopWorker.stilled _)) fun _ =>
    .bind (F.keeps (still_stopDrivers.stilled _)) fun _ =>
    .bind (F.keeps (still_drainBgTasks.stilled _)) fun _ =>
    .bind (F.keeps (only_sync.mpr ⟨rfl, trivial⟩)) fun _ =>
    .bind (F.keeps (calm_closeQueue.stilled _)) fun cleared =>
    .bind (.forEach (fun _ => F.keeps (only_failCompletionFuture.mpr ⟨rfl, trivial⟩)) cleared)
      fun _ => .bind (F.keeps (isStilled_gets _ _)) fun _ => .when (.suppress keeps_idleTeardown)

/-! ## Every task from the custody -/

/-- The task is done. -/
theorem Keeper.settle (K : Keeper t none s w) (x : Outcome) :
    Custody none (w.setTask t fun k => { k with outcome := some x }) ∧
      Handover (fun u => some t = some u) s
        (w.setTask t fun k => { k with outcome := some x }) := by
  have J := K.custody
  set w' := w.setTask t fun k => { k with outcome := some x } with hw'
  have same : ∀ u, (w'.task u).kind = (w.task u).kind ∧
      (w'.task u).started = (w.task u).started ∧
      (w'.task u).cancelRequested = (w.task u).cancelRequested := settle_task w t x
  have other : ∀ u, u ≠ t → w'.task u = w.task u := fun u hu => setAt_of_ne hu
  have mono : ∀ u, w.taskDone u = true → w'.taskDone u = true := by
    intro u hu
    rcases eq_or_ne u t with rfl | h
    · simp [hw', World.taskDone, World.setTask]
    · rwa [World.taskDone, other u h]
  have undone : ∀ u, w'.taskDone u = false → w.taskDone u = false := fun u hn => by
    cases h : w.taskDone u with
    | false => rfl
    | true => cases (mono u h).symm.trans hn
  refine ⟨{ J with
      tame := tame_settle J.tame t x
      drivers := fun u hu d hk => J.drivers u hu d ((same u).1.symm.trans hk)
      busy := fun e he => ⟨(J.busy e he).1, (same e.1).2.1.trans (J.busy e he).2⟩
      waiting := fun d u hu hs hn => J.waiting d u hu ((same u).2.1.symm.trans hs) (undone u hn)
      evicting := fun u hu d hk => J.evicting u hu d ((same u).1.symm.trans hk)
      orphan := fun u hu d hk => ?_
      unshielded := fun u hu p hk => J.unshielded u hu p ((same u).1.symm.trans hk) },
    K.handover.trans K.before
      { count := Nat.le_refl _
        kind := fun u _ => (same u).1
        started := fun u _ h => (same u).2.1.trans h
        outcome := fun u _ h => ?_
        residents := Nat.le_refl _
        seat := fun _ _ => rfl
        loading := fun _ _ h => h
        booting := fun _ _ _ _ _ h => ⟨h, rfl⟩
        reaping := fun _ _ _ => .rfl }⟩
  · obtain ⟨v, hv, hd⟩ := J.orphan u hu d ((same u).1.symm.trans hk)
    exact ⟨v, hv, mono v hd⟩
  · have hu : u ≠ t := by
      rintro rfl
      rcases h with h | h
      · exact h rfl
      · cases K.undone.symm.trans h
    rw [other u hu]

/-- A running task may end. -/
theorem ends_keeper (K : Keeper t none s w) (r : Res sig Unit) : (custody C).Ends t r s w := by
  obtain ⟨J, h⟩ := K.settle (outcomeOf r)
  show Custody none (finished t r w) ∧ Handover (fun u => some t = some u) s (finished t r w)
  unfold finished
  dsimp only
  split
  · next d hk =>
      have hd := J.drivers t K.lt d hk
      have done : (w.setTask t fun k => { k with outcome := some (outcomeOf r) }).taskDone t =
          true := by
        simp [World.taskDone, World.setTask]
      refine ⟨J.fork (by rintro ⟨⟩) (by rintro _ ⟨⟩) (by rintro _ ⟨⟩)
        (by rintro _ ⟨⟩) fun e he => ?_,
        h.trans K.before ((tables_fork _ _).handover fun _ _ _ => .rfl)⟩
      cases he
      exact ⟨t, hd, done⟩
  · exact ⟨J, h⟩

/-- Where a task starts. -/
theorem keeper_start {k : Kind} {r : Reply} (J : Custody none w) (hf : fresh w t = some k) :
    Keeper t none w (answer t .entry r w) ∧ t < w.taskCount ∧ (w.task t).kind = k ∧
      (w.task t).started = false ∧ w.taskDone t = false ∧
      Custodial none w (answer t .entry r w) := by
  have hs : Custodial none w (answer t .entry r w) :=
    (Still.stilled ⟨quiet_answer (o := .entry) trivial t r w,
      mortal_answer (o := .entry) trivial t r w⟩ none) J.tame
  simp only [fresh, Option.ite_none_right_eq_some, Option.some.injEq, Bool.and_eq_true,
    Bool.not_eq_true', decide_eq_true_eq] at hf
  obtain ⟨⟨⟨hlt, hst⟩, hd⟩, rfl⟩ := hf
  have self : (answer t .entry r w).task t =
      { w.task t with started := true, cancelRequested := false } := by
    have : effect t .entry r w = w := by cases r <;> rfl
    simp [answer, this, World.delivered, World.setTask]
  refine ⟨{ before := J
            custody := hs.custody J fun _ _ _ _ _ _ => (by rintro ⟨⟩)
            handover := hs.handover fun _ _ _ _ _ _ => (by rintro ⟨⟩)
            lt := Nat.lt_of_lt_of_le hlt hs.tasks.count
            started := by rw [self]
            undone := (hs.taskDone hlt).trans hd
            free := fun p hp => ?_ }, hlt, rfl, hst, hd, hs⟩
  rw [hs.reaping] at hp
  cases (J.busy _ hp).2.symm.trans hst

theorem custody_start (hcap : 2 ≤ C.maxParallelSidecars) {k : Kind} {r : Reply}
    (J : Custody none w) (hf : fresh w t = some k) :
    wp (custody C) t (taskBody C t k r) ((custody C).Ends t) w (answer t .entry r w) := by
  obtain ⟨K, hlt, hk, hst, hd, hs⟩ := keeper_start (r := r) J hf
  have done : ∀ {L : World → Prop} {m : Prog Unit}, L (answer t .entry r w) →
      Keeps (custody C) t (fun s w => Keeper t none s w ∧ L w) m →
      wp (custody C) t m ((custody C).Ends t) w (answer t .entry r w) := fun hl hm =>
    wp_mono (fun r _ _ H => ends_keeper H.1 r) (hm _ _ ⟨K, hl⟩)
  have idler : ∀ {m : Prog Unit}, Keeps (custody C) t (Idler t) m →
      wp (custody C) t m ((custody C).Ends t) w (answer t .entry r w) :=
    done (L := fun _ => True) trivial
  have F := frames_keeper (C := C) (o := none) (lasting_true t)
  unfold taskBody
  split
  · exact ends_keeper K _
  · cases k with
    | worker =>
        simp only [program, workerLoop, hcap, if_true]
        exact idler keeps_dispatch
    | shutdown => exact idler keeps_shutdownIdler
    | idleTeardown => exact idler keeps_idleTeardown
    | shieldedSigterm p => exact absurd hk (J.unshielded t hlt p)
    | driver d =>
        have hown := J.drivers t hlt d hk
        obtain ⟨hl, hg⟩ := J.waiting d t hown hst hd
        have boots : Boots t d (w.resident d).grip (answer t .entry r w) :=
          ⟨(hs.seat d).trans hown, (hs.loading d (by rintro ⟨⟩)).trans hl, hs.grip d⟩
        exact wp_mono (fun r _ _ H => ends_keeper H.1 r) (wp_drive K boots hg)
    | evictTeardown d =>
        obtain ⟨hr, hl⟩ := J.evicting t hlt d hk
        exact done (L := Risen d) ⟨hs.residents.symm ▸ hr, hs.loaded d hl⟩ keeps_evictTeardown
    | reapDead d =>
        exact done (L := Driven d) ((lasting_driven t d).act J hs.weaken (J.orphan t hlt d hk))
          keeps_reapDead
    | _ => exact idler (F.keeps ((calm_program C t rfl).stilled none))

/-- The steps of the outside. -/
theorem custody_env {e : Env} (J : Custody none w) (h : envStep e w = some w') :
    Custody none w' ∧ Handover (fun t => none = some t) w w' := by
  have quiet : e ≠ .shutdown → Mortal w w' → Custody none w' ∧
      Handover (fun t => none = some t) w w' := fun he hm => by
    have hs : Custodial none w w' := Still.stilled ⟨quiet_envStep h he, hm⟩ none J.tame
    exact ⟨hs.custody J fun _ _ _ _ _ _ => (by rintro ⟨⟩),
      hs.handover fun _ _ _ _ _ _ => (by rintro ⟨⟩)⟩
  cases e with
  | shutdown =>
      simp only [envStep, Option.ite_none_right_eq_some, Option.some.injEq] at h
      obtain ⟨-, rfl⟩ := h
      have J' := J.fork (k := .shutdown) (by rintro ⟨⟩) (by rintro _ ⟨⟩) (by rintro _ ⟨⟩)
        (by rintro _ ⟨⟩) (by rintro _ ⟨⟩)
      have called : Custodial none (w.fork .shutdown)
          { w.fork .shutdown with shutdownTask := some w.taskCount } :=
        stilled_same rfl rfl rfl rfl (fun _ h => h) rfl rfl J'.tame
      exact ⟨called.custody J' fun _ _ _ _ _ _ => (by rintro ⟨⟩), Handover.trans J
        ((tables_fork w _).handover fun _ _ _ => .rfl)
        (called.handover fun _ _ _ _ _ _ => (by rintro ⟨⟩))⟩
  | request k =>
      simp only [envStep, Option.ite_none_right_eq_some, Option.some.injEq] at h
      obtain ⟨-, rfl⟩ := id h
      exact quiet (by rintro ⟨⟩) (mortal_same rfl)
  | exit p =>
      cases id h
      exact quiet (by rintro ⟨⟩) (mortal_exits [p] w)
  | disconnect sl =>
      cases id h
      refine quiet (by rintro ⟨⟩) ?_
      unfold World.disconnect
      dsimp only
      split <;> exact mortal_same rfl
  | cancelRoute u =>
      simp only [envStep, Option.ite_none_right_eq_some, Option.some.injEq] at h
      obtain ⟨-, rfl⟩ := id h
      exact quiet (by rintro ⟨⟩) (mortal_same rfl)
  | innerGet r =>
      simp only [envStep, World.innerGet] at h
      split at h
      · cases id h
        exact quiet (by rintro ⟨⟩) (mortal_same rfl)
      · cases h

theorem custody_verified (hcap : 2 ≤ C.maxParallelSidecars) : (custody C).Verified initial where
  init := by
    have one : ∀ t < initial.taskCount, t = workerTask := fun t ht => Nat.lt_one_iff.mp ht
    have tame : Tame initial :=
      { riders := (by rintro _ ⟨⟩)
        inFlight := (by intro _ _ h; cases h)
        drivers := (by intro _ _ h; cases h)
        cancel := fun t h => by
          simp only [initial, setAt] at h
          split at h <;> cases h
        worker := ⟨Nat.one_pos, rfl⟩
        onlyWorker := fun t ht _ => one t ht }
    exact
      { tame
        drivers := fun t ht d h => by rw [one t ht] at h; cases h
        listed := fun e he => by rw [List.mem_singleton.mp he]; exact Nat.one_pos
        unborn := fun _ _ => ⟨rfl, rfl, rfl, rfl⟩
        single := fun _ => .inl rfl
        sole := fun _ _ _ h => by rcases h with h | h <;> cases h
        held := fun _ _ h => by rcases h with h | h <;> cases h
        taken := (by rintro _ ⟨⟩)
        accounted := fun p hp => absurd hp (Nat.not_lt_zero p)
        once := List.nodup_nil
        known := (by rintro _ ⟨⟩)
        busy := (by rintro _ ⟨⟩)
        waiting := (by intro _ _ h; cases h)
        evicting := fun t ht d h => by rw [one t ht] at h; cases h
        orphan := fun t ht d h => by rw [one t ht] at h; cases h
        unshielded := fun t ht p h => by rw [one t ht] at h; cases h
        idle := rfl }
  start := fun _ _ _ _ hg hf _ _ => custody_start hcap hg.1 hf
  env := fun _ _ _ hg _ h => custody_env hg.1 h

/-- In every run at cap 2 and above, whenever the event loop has control, each
sidecar is held by exactly one resident, on its port, and no reap of it has
begun; or a reap of it has begun, which is running, has run to its end, or was
broken off; or it has exited by itself.  No sidecar is reaped twice. -/
theorem reaped_once (C : Config) (hcap : 2 ≤ C.maxParallelSidecars) (c : Loop sig)
    (h : Reachable C (Admit.any _) c) (hc : c.current = none) :
    (∀ p < c.world.procs.spawned,
      (p ∉ c.world.procs.begun ∧ ∃ r, c.world.refers r p ∧
        (c.world.resident r).port.getD 0 = (c.world.procs.proc p).port ∧
        ∀ d, c.world.refers d p → d = r) ∨
      (p ∈ c.world.procs.begun ∧ c.world.underReap p) ∨
      (p ∉ c.world.procs.begun ∧ c.world.isAlive p = false)) ∧
    c.world.procs.begun.Nodup := by
  have J : Custody none c.world :=
    (custody C).sound (custody_verified hcap) (fun _ _ _ => trivial) h hc
  refine ⟨fun p hp => ?_, J.once⟩
  refine (J.accounted p hp (by rintro ⟨⟩)).imp_left fun ⟨r, hr⟩ => ?_
  obtain ⟨-, hb, -, hport⟩ := J.held r p hr
  exact ⟨hb, r, hr, hport, fun d hd => J.sole d r p hd hr⟩

/-- A request whose sidecar is spawned and waits for its health probe. -/
def booted : List (Move (system pairConfig)) :=
  [.env (.request (.submitAndWait (coldRequest "a"))), .start 1 .ok, .answer (.time 0),
    .answer (.time 0), .answer .ok, .resume 1 .ok, .start 0 .ok, .go, .answer .ok,
    .answer (.manifest {}), .answer (.mib (some 0)), .answer .ok, .answer (.time 0), .go, .go,
    .start 2 .ok, .answer .ok, .answer (.manifest {}), .answer (.handle 0)]

/-- The sidecar exits while it boots.  The driver, which finds it unhealthy and
not alive, lets go of it: no resident refers to it, and no reap of it begins. -/
theorem exited_unreaped : ∃ c : Loop sig, Reachable pairConfig (Admit.any _) c ∧ c.current = none ∧
    0 < c.world.procs.spawned ∧ (∀ r, ¬c.world.refers r 0) ∧ c.world.procs.begun = [] ∧
    c.world.procs.reaping = [] ∧ (c.world.procs.proc 0).reaped = false := by
  have h : (Loop.exec (Admit.any _) (booted ++ [.env (.exit 0), .resume 2 (.healthy false),
      .answer .ok, .answer .ok]) { world := initial }).any (fun c : Loop sig =>
        decide (c.current.isNone = true ∧ c.world.procs.spawned = 1 ∧
          c.world.residentCount = 2 ∧ (c.world.resident 0).grip = {} ∧
          (c.world.resident 1).grip = { tornDown := true, port := some 11500 } ∧
          c.world.procs.begun = [] ∧ c.world.procs.reaping = [] ∧
          (c.world.procs.proc 0).reaped = false)) = true := by
    decide +kernel
  obtain ⟨c, hc, hp⟩ := Loop.reach_of_check h
  obtain ⟨hn, hs, hr, hg₀, hg₁, hb, hg, hd⟩ := of_decide_eq_true hp
  have hn := Option.isNone_iff_eq_none.mp hn
  have J : Custody none c.world :=
    (custody pairConfig).sound (custody_verified (by decide)) (fun _ _ _ => trivial) hc hn
  refine ⟨c, hc, hn, by omega, fun r h => ?_, hb, hg, hd⟩
  match r with
  | 0 =>
      rw [World.refers, hg₀] at h
      rcases h with h | h <;> cases h
  | 1 =>
      rw [World.refers, hg₁] at h
      rcases h with h | h <;> cases h
  | r + 2 =>
      obtain ⟨hh, hb, -⟩ := (J.unborn (r + 2) (by omega)).2
      rcases h with h | h
      · cases hh.symm.trans h
      · cases hb.symm.trans h

/-- While it boots, its resident holds it by its pid. -/
theorem reaped_once_booting : ∃ c : Loop sig, Reachable pairConfig (Admit.any _) c ∧
    (c.world.resident 1).bootingPid = some 0 ∧ 0 ∉ c.world.procs.begun ∧
    ∀ d, c.world.refers d 0 → d = 1 := by
  have h : (Loop.exec (Admit.any _) booted { world := initial }).any (fun c : Loop sig =>
      decide (c.current.isNone = true ∧ 0 < c.world.procs.spawned ∧
        (c.world.resident 1).bootingPid = some 0 ∧ c.world.procs.begun = [] ∧
        c.world.isAlive 0 = true)) = true := by
    decide +kernel
  obtain ⟨c, hc, hp⟩ := Loop.reach_of_check h
  obtain ⟨hn, hs, hr, hb, ha⟩ := of_decide_eq_true hp
  refine ⟨c, hc, hr, by simp [hb], fun d hd => ?_⟩
  rcases (reaped_once pairConfig (by decide) c hc (Option.isNone_iff_eq_none.mp hn)).1 0 hs with
    ⟨-, r, -, -, hall⟩ | ⟨hbegun, -⟩ | ⟨-, hdead⟩
  · rw [hall d hd, hall 1 (.inr hr)]
  · rw [hb] at hbegun
    cases hbegun
  · cases ha.symm.trans hdead

end Turbohaul
