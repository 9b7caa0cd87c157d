/-
# `Ports` — who holds which port, at cap 2 and above

A port belongs to a resident from its reservation on: `_alloc_port` gives the
lowest port that no registered resident holds, and the resident's driver spawns
on it later.  In between the resident is `pristine`: registered, still loading,
and no unreaped sidecar is on its port.  Nobody but its own driver ends that.

    apart      registered residents hold different ports
    distinct   unreaped sidecars are on different ports
    waiting    a resident whose driver has not started is pristine
    orphan     a resident is reaped as dead only after its driver has ended

An eviction deregisters the resident at once and reaps its sidecar later.  Its
port is then free while the sidecar is not gone, and what is reserved next may
get it.
-/
import Turbohaul.SingleSteps

namespace Turbohaul

open Coop

variable {C : Config}

/-! ## The invariant -/

namespace World

/-- The resident has been reserved and has not come up. -/
def loading (w : World) (r : Nat) : Bool := (w.resident r).state = .reservedLoading

/-- The ports the registered residents hold. -/
def heldPorts (w : World) : List Nat := w.registry.filterMap fun e => (w.resident e.2).port

/-- The resident has its port and its port is free. -/
def pristine (w : World) (r : Nat) : Prop :=
  (∃ tag, (tag, r) ∈ w.registry) ∧ w.loading r = true ∧
    ∃ a, (w.resident r).port = some a ∧ ∀ q, w.undead q → (w.procs.proc q).port ≠ a

/-- An unreaped sidecar is on the port that is given out next: no registered
resident holds the port, and all lower ones of the window are held. -/
def exposed (C : Config) (w : World) (q : Nat) : Bool :=
  let a := (w.procs.proc q).port
  !(w.procs.proc q).reaped && decide (a ∉ w.heldPorts) && decide (C.defaultPortBase ≤ a) &&
    (List.range' C.defaultPortBase (a - C.defaultPortBase)).all fun b => b ∈ w.heldPorts

end World

/-- What holds of the ports. -/
structure Ports (w : World) : Prop where
  tame : Tame w
  drivers : ∀ t < w.taskCount, ∀ r, (w.task t).kind = .driver r →
    (w.resident r).driverTask = some t
  listed : ∀ e ∈ w.registry, e.2 < w.residentCount
  unborn : ∀ r, w.residentCount ≤ r → (w.resident r).driverTask = none
  keyed : ∀ e ∈ w.registry, ∀ e' ∈ w.registry, e.1 = e'.1 → e = e'
  apart : ∀ e ∈ w.registry, ∀ e' ∈ w.registry, ∀ a, (w.resident e.2).port = some a →
    (w.resident e'.2).port = some a → e.2 = e'.2
  distinct : ∀ p q, w.undead p → w.undead q → (w.procs.proc p).port = (w.procs.proc q).port → p = q
  waiting : ∀ r t, (w.resident r).driverTask = some t → (w.task t).started = false →
    w.taskDone t = false → w.pristine r
  orphan : ∀ t < w.taskCount, ∀ r, (w.task t).kind = .reapDead r →
    ∃ t', (w.resident r).driverTask = some t' ∧ w.taskDone t' = true

/-- What anybody does to the residents; `u` is who does it. -/
structure PortStep (u : Option Nat) (w w' : World) : Prop where
  count : w.taskCount ≤ w'.taskCount
  kind : ∀ t < w.taskCount, (w'.task t).kind = (w.task t).kind
  started : ∀ t < w.taskCount, (w.task t).started = true → (w'.task t).started = true
  outcome : ∀ t < w.taskCount, u ≠ some t ∨ w.taskDone t = true →
    (w'.task t).outcome = (w.task t).outcome
  residents : w.residentCount ≤ w'.residentCount
  seat : ∀ r < w.residentCount, (w'.resident r).driverTask = (w.resident r).driverTask
  loading : ∀ r < w.residentCount, w.loading r = false → w'.loading r = false
  pristine : ∀ r t, (w.resident r).driverTask = some t → u ≠ some t → w.taskDone t = false →
    w.pristine r → w'.pristine r

/-- The condition: fewer than 100 residents are registered at a reservation,
and no unreaped sidecar is on the port that is given out next. -/
def freshPorts (C : Config) : Admit (system C) where
  reply := fun _ o _ w =>
    match o with
    | .mark (.reserving _) =>
        decide (w.registry.length < 100) &&
          (List.range w.procs.spawned).all fun q => !w.exposed C q
    | _ => true

/-- The outline of the proof. -/
def ports (C : Config) : Outline (system C) where
  cond := freshPorts C
  base := fun _ => True
  inv := Ports
  guar := PortStep

/-! ## Steps that give no port away

`r` is the resident that may be torn down by the step, if any. -/

/-- The step spawns nothing, reserves nothing, and deregisters nobody but
`r`. -/
structure Steady (r : Option Nat) (w w' : World) : Prop where
  count : w.taskCount ≤ w'.taskCount
  kind : ∀ t < w.taskCount, (w'.task t).kind = (w.task t).kind
  started : ∀ t < w.taskCount, (w.task t).started = true → (w'.task t).started = true
  outcome : ∀ t < w.taskCount, (w'.task t).outcome = (w.task t).outcome
  new : ∀ t < w'.taskCount, w.taskCount ≤ t → ∀ d, (w'.task t).kind ≠ .driver d ∧
    (w'.task t).kind ≠ .reapDead d
  residents : w'.residentCount = w.residentCount
  seat : ∀ d, (w'.resident d).port = (w.resident d).port ∧
    (w'.resident d).driverTask = (w.resident d).driverTask
  loading : ∀ d, r ≠ some d → w'.loading d = w.loading d
  loaded : ∀ d, w.loading d = false → w'.loading d = false
  registered : ∀ e ∈ w'.registry, e ∈ w.registry
  keeps : ∀ e ∈ w.registry, r ≠ some e.2 → e ∈ w'.registry
  spawned : w'.procs.spawned = w.procs.spawned
  port : ∀ p, (w'.procs.proc p).port = (w.procs.proc p).port
  reaped : ∀ p, (w.procs.proc p).reaped = true → (w'.procs.proc p).reaped = true
  tame : Tame w'

/-- A statement that gives no port away. -/
def Steadily (r : Option Nat) (w w' : World) : Prop := Tame w → Steady r w w'

/-- Operations other than the spawn. -/
def NoSpawn : Op → Prop
  | .spawn _ _ _ _ => False
  | _ => True

theorem Unmoved.steady {w w' : World} (h : Unmoved w w') (r : Option Nat) : Steady r w w' := by
  have lease : ∀ d, (w'.resident d).lease = (w.resident d).lease := fun d =>
    congrFun (congrArg Processes.lease h.processes) d
  have registry : w'.registry = w.registry := congrArg Processes.registry h.processes
  have loading : ∀ d, w'.loading d = w.loading d := fun d => congrArg Lease.loading (lease d)
  exact
    { count := h.tasks.count
      kind := h.tasks.kind
      started := h.tasks.started
      outcome := h.tasks.outcome
      new := fun t ht hn d => by
        have hq := (h.tasks.new t ht hn).1
        constructor <;> (intro hk; rw [hk] at hq; cases hq)
      residents := congrArg Processes.residentCount h.processes
      seat := fun d => ⟨congrArg Lease.port (lease d), congrArg Lease.driverTask (lease d)⟩
      loading := fun d _ => loading d
      loaded := fun d hd => (loading d).trans hd
      registered := fun e he => registry ▸ he
      keeps := fun e he _ => registry ▸ he
      spawned := h.spawned
      port := fun p => congrFun (congrArg Processes.port h.processes) p
      reaped := fun p hp => by rwa [h.reaped]
      tame := h.tame }

theorem Quiet.steadily {w w' : World} (h : Quiet w w') (r : Option Nat) : Steadily r w w' :=
  fun T => (h T).steady r

theorem Steady.undead {r : Option Nat} {w w' : World} (h : Steady r w w') {p : Nat}
    (hp : w'.undead p) : w.undead p := by
  refine ⟨h.spawned ▸ hp.1, ?_⟩
  cases hr : (w.procs.proc p).reaped with
  | false => rfl
  | true => cases (h.reaped p hr).symm.trans hp.2

theorem Steady.taskDone {r : Option Nat} {w w' : World} (h : Steady r w w') {t : Nat}
    (ht : t < w.taskCount) : w'.taskDone t = w.taskDone t := by
  simp only [World.taskDone, h.outcome t ht]

theorem Steady.pristine {r : Option Nat} {w w' : World} (h : Steady r w w') {d : Nat}
    (hd : r ≠ some d) (hp : w.pristine d) : w'.pristine d := by
  obtain ⟨⟨tag, ht⟩, hl, a, ha, hq⟩ := hp
  refine ⟨⟨tag, h.keeps _ ht hd⟩, (h.loading d hd).trans hl, a, (h.seat d).1.trans ha, ?_⟩
  intro q hu
  rw [h.port]
  exact hq q (h.undead hu)

/-- The resident `r` may be torn down by task `t`: it is its driver, its driver
is done, or it has come up. -/
def MayEnd (t : Nat) (r : Option Nat) (w : World) : Prop :=
  ∀ d, r = some d → (w.resident d).driverTask = some t ∨ w.loading d = false ∨
    ∀ t', (w.resident d).driverTask = some t' → w.taskDone t' = true

/-- Whoever else is driven is not `r`. -/
theorem MayEnd.ne {t : Nat} {r : Option Nat} {w : World} (h : MayEnd t r w) {d t' : Nat}
    (hd : (w.resident d).driverTask = some t') (ht : t' ≠ t) (hn : w.taskDone t' = false)
    (hl : w.loading d = true) : r ≠ some d := by
  intro hr
  rcases h d hr with ho | hl' | hdone
  · rw [hd] at ho
    exact ht (Option.some.inj ho)
  · rw [hl] at hl'
    cases hl'
  · rw [hdone t' hd] at hn
    cases hn

theorem Steady.mayEnd {t : Nat} {r : Option Nat} {w w' : World} (h : Steady r w w')
    (P : Ports w) (hm : MayEnd t r w) : MayEnd t r w' := by
  intro d hd
  rw [(h.seat d).2]
  rcases hm d hd with ho | hl | hdone
  · exact .inl ho
  · exact .inr (.inl (h.loaded d hl))
  · refine .inr (.inr fun t' ht' => ?_)
    rw [h.taskDone (P.tame.drivers d t' ht').1]
    exact hdone t' ht'

/-- A steady step that tears down nobody whose driver has yet to start. -/
theorem Steady.ports {r : Option Nat} {w w' : World} (h : Steady r w w') (P : Ports w)
    (hr : ∀ d u, (w.resident d).driverTask = some u → (w.task u).started = false →
      w.taskDone u = false → w.pristine d → r ≠ some d) : Ports w' where
  tame := h.tame
  drivers := fun u hu d hk => by
    by_cases ho : u < w.taskCount
    · rw [h.kind u ho] at hk
      rw [(h.seat d).2]
      exact P.drivers u ho d hk
    · exact absurd hk (h.new u hu (by omega) d).1
  listed := fun e he => by
    rw [h.residents]
    exact P.listed e (h.registered e he)
  unborn := fun d hd => by
    rw [h.residents] at hd
    rw [(h.seat d).2]
    exact P.unborn d hd
  keyed := fun e he e' he' => P.keyed e (h.registered e he) e' (h.registered e' he')
  apart := fun e he e' he' a => by
    rw [(h.seat _).1, (h.seat _).1]
    exact P.apart e (h.registered e he) e' (h.registered e' he') a
  distinct := fun p q hp hq => by
    rw [h.port, h.port]
    exact P.distinct p q (h.undead hp) (h.undead hq)
  waiting := fun d u hu hs hd => by
    rw [(h.seat d).2] at hu
    have hlt := (P.tame.drivers d u hu).1
    have hs₀ : (w.task u).started = false := by
      cases hw : (w.task u).started with
      | false => rfl
      | true => rw [h.started u hlt hw] at hs; cases hs
    rw [h.taskDone hlt] at hd
    have hp := P.waiting d u hu hs₀ hd
    exact h.pristine (hr d u hu hs₀ hd hp) hp
  orphan := fun u hu d hk => by
    by_cases ho : u < w.taskCount
    · rw [h.kind u ho] at hk
      obtain ⟨t', ht', hd⟩ := P.orphan u ho d hk
      exact ⟨t', (h.seat d).2.trans ht', (h.taskDone (P.tame.drivers d t' ht').1).trans hd⟩
    · exact absurd hk (h.new u hu (by omega) d).2

theorem Steady.step {t : Nat} {r : Option Nat} {w w' : World} (h : Steady r w w')
    (hm : MayEnd t r w) : PortStep (some t) w w' where
  count := h.count
  kind := h.kind
  started := h.started
  outcome := fun u hu _ => h.outcome u hu
  residents := Nat.le_of_eq h.residents.symm
  seat := fun d _ => (h.seat d).2
  loading := fun d _ => h.loaded d
  pristine := fun _ _ hu hne hn hp =>
    h.pristine (hm.ne hu (fun he => hne (congrArg some he.symm)) hn hp.2.1) hp

/-! ## What a task knows -/

theorem PortStep.refl (u : Option Nat) (w : World) : PortStep u w w :=
  ⟨Nat.le_refl _, fun _ _ => rfl, fun _ _ h => h, fun _ _ _ => rfl, Nat.le_refl _,
    fun _ _ => rfl, fun _ _ h => h, fun _ _ _ _ _ h => h⟩

theorem PortStep.done {u : Option Nat} {w w' : World} (h : PortStep u w w') {t : Nat}
    (ht : t < w.taskCount) (hd : w.taskDone t = true) : w'.taskDone t = true := by
  rw [World.taskDone, h.outcome t ht (.inr hd)]
  exact hd

/-- A driven resident is an old one. -/
theorem Ports.driven {w : World} (P : Ports w) {r t : Nat}
    (h : (w.resident r).driverTask = some t) : r < w.residentCount ∧ t < w.taskCount := by
  refine ⟨?_, (P.tame.drivers r t h).1⟩
  by_contra hr
  rw [P.unborn r (by omega)] at h
  cases h

theorem PortStep.trans {u : Option Nat} {a b c : World} (P : Ports a) (h : PortStep u a b)
    (h' : PortStep u b c) : PortStep u a c where
  count := Nat.le_trans h.count h'.count
  kind := fun t ht => (h'.kind t (Nat.lt_of_lt_of_le ht h.count)).trans (h.kind t ht)
  started := fun t ht hs => h'.started t (Nat.lt_of_lt_of_le ht h.count) (h.started t ht hs)
  outcome := fun t ht hu =>
    (h'.outcome t (Nat.lt_of_lt_of_le ht h.count) (hu.imp_right (h.done ht))).trans
      (h.outcome t ht hu)
  residents := Nat.le_trans h.residents h'.residents
  seat := fun r hr => (h'.seat r (Nat.lt_of_lt_of_le hr h.residents)).trans (h.seat r hr)
  loading := fun r hr hl => h'.loading r (Nat.lt_of_lt_of_le hr h.residents) (h.loading r hr hl)
  pristine := fun r t ht hu hd hp => by
    obtain ⟨hr, hlt⟩ := P.driven ht
    refine h'.pristine r t ((h.seat r hr).trans ht) hu ?_ (h.pristine r t ht hu hd hp)
    rw [World.taskDone, h.outcome t hlt (.inl hu)]
    exact hd

/-- Task `t` is running and has kept the invariant since its segment began. -/
structure Aboard (t : Nat) (s w : World) : Prop where
  before : Ports s
  ports : Ports w
  step : PortStep (some t) s w
  lt : t < w.taskCount
  started : (w.task t).started = true
  undone : w.taskDone t = false

/-- What the others do between two segments of `t`. -/
structure PortRely (t : Nat) (w w' : World) : Prop where
  count : w.taskCount ≤ w'.taskCount
  kind : ∀ u < w.taskCount, (w'.task u).kind = (w.task u).kind
  started : ∀ u < w.taskCount, (w.task u).started = true → (w'.task u).started = true
  settled : ∀ u < w.taskCount, w.taskDone u = true → w'.taskDone u = true
  outcome : t < w.taskCount → (w'.task t).outcome = (w.task t).outcome
  residents : w.residentCount ≤ w'.residentCount
  seat : ∀ r < w.residentCount, (w'.resident r).driverTask = (w.resident r).driverTask
  loading : ∀ r < w.residentCount, w.loading r = false → w'.loading r = false
  pristine : ∀ r, (w.resident r).driverTask = some t → w.taskDone t = false → w.pristine r →
    w'.pristine r

theorem PortRely.refl (t : Nat) (w : World) : PortRely t w w :=
  ⟨Nat.le_refl _, fun _ _ => rfl, fun _ _ h => h, fun _ _ h => h, fun _ => rfl, Nat.le_refl _,
    fun _ _ => rfl, fun _ _ h => h, fun _ _ _ h => h⟩

theorem rely_ports {t : Nat} {w w' : World} (P : Ports w) (h : (ports C).Rely t w w') :
    PortRely t w w' := by
  induction h with
  | refl => exact .refl t w
  | tail _ hs ih =>
      obtain ⟨u, hu, hi, -, hg⟩ := hs
      exact
        { count := Nat.le_trans ih.count hg.count
          kind := fun v hv => (hg.kind v (Nat.lt_of_lt_of_le hv ih.count)).trans (ih.kind v hv)
          started := fun v hv hs =>
            hg.started v (Nat.lt_of_lt_of_le hv ih.count) (ih.started v hv hs)
          settled := fun v hv hd =>
            hg.done (Nat.lt_of_lt_of_le hv ih.count) (ih.settled v hv hd)
          outcome := fun ht =>
            (hg.outcome t (Nat.lt_of_lt_of_le ht ih.count) (.inl hu)).trans (ih.outcome ht)
          residents := Nat.le_trans ih.residents hg.residents
          seat := fun r hr =>
            (hg.seat r (Nat.lt_of_lt_of_le hr ih.residents)).trans (ih.seat r hr)
          loading := fun r hr hl =>
            hg.loading r (Nat.lt_of_lt_of_le hr ih.residents) (ih.loading r hr hl)
          pristine := fun r hr hd hp => by
            obtain ⟨hlt, htc⟩ := P.driven hr
            refine hg.pristine r t ((ih.seat r hlt).trans hr) hu ?_ (ih.pristine r hr hd hp)
            rw [World.taskDone, ih.outcome htc]
            exact hd }

theorem Aboard.resume {t : Nat} {s w w' : World} (A : Aboard t s w) (h : PortRely t w w')
    (P : Ports w') : Aboard t w' w' where
  before := P
  ports := P
  step := .refl _ _
  lt := Nat.lt_of_lt_of_le A.lt h.count
  started := h.started t A.lt A.started
  undone := by
    rw [World.taskDone, h.outcome A.lt]
    exact A.undone

theorem Steady.aboard {t : Nat} {r : Option Nat} {s w w' : World} (h : Steady r w w')
    (hm : MayEnd t r w) (A : Aboard t s w) : Aboard t s w' where
  before := A.before
  ports := h.ports A.ports fun d u hu hs hd hp => by
    refine hm.ne hu (fun he => ?_) hd hp.2.1
    rw [he, A.started] at hs
    cases hs
  step := A.step.trans A.before (h.step hm)
  lt := Nat.lt_of_lt_of_le A.lt h.count
  started := h.started t A.lt A.started
  undone := by
    rw [h.taskDone A.lt]
    exact A.undone

/-- The others leave it to `t` to tear down `r`. -/
theorem PortRely.mayEnd {t : Nat} {r : Option Nat} {w w' : World} (h : PortRely t w w')
    (P : Ports w) (hr : ∀ d, r = some d → d < w.residentCount) (hm : MayEnd t r w) :
    MayEnd t r w' := by
  intro d hd
  rw [h.seat d (hr d hd)]
  rcases hm d hd with ho | hl | hdone
  · exact .inl ho
  · exact .inr (.inl (h.loading d (hr d hd) hl))
  · exact .inr (.inr fun t' ht' => h.settled t' (P.driven ht').2 (hdone t' ht'))

/-- The assertion of a task that may tear down `r` and knows `L`. -/
def Berth (t : Nat) (r : Option Nat) (L : World → Prop) (s w : World) : Prop :=
  Aboard t s w ∧ (∀ d, r = some d → d < w.residentCount) ∧ MayEnd t r w ∧ L w

/-- Only a task's own statements change what it knows. -/
structure Fixed (t : Nat) (r : Option Nat) (L : World → Prop) : Prop where
  steady : ∀ {w w'}, Ports w → Steady r w w' → L w → L w'
  rely : ∀ {w w'}, Ports w → w.taskDone t = false → PortRely t w w' → L w → L w'

/-! ## Operations -/

theorem steady_same {r : Option Nat} {w w' : World} (ht : w'.task = w.task)
    (hc : w'.taskCount = w.taskCount) (hR : w'.resident = w.resident)
    (hn : w'.residentCount = w.residentCount) (hg : w'.registry = w.registry)
    (hr : w'.hold.riderTasks = w.hold.riderTasks) (hs : w'.procs.spawned = w.procs.spawned)
    (hp : ∀ p, (w'.procs.proc p).port = (w.procs.proc p).port)
    (hd : ∀ p, (w.procs.proc p).reaped = true → (w'.procs.proc p).reaped = true) :
    Steadily r w w' := fun T =>
  { count := Nat.le_of_eq hc.symm
    kind := fun _ _ => by rw [ht]
    started := fun _ _ h => by rwa [ht]
    outcome := fun _ _ => by rw [ht]
    new := fun t h h' => absurd h (by omega)
    residents := hn
    seat := fun d => by rw [hR]; exact ⟨rfl, rfl⟩
    loading := fun d _ => by simp only [World.loading, hR]
    loaded := fun d h => by simpa only [World.loading, hR] using h
    registered := fun e he => hg ▸ he
    keeps := fun e he _ => hg ▸ he
    spawned := hs
    port := hp
    reaped := hd
    tame := T.of_same ht hc hr fun d => by rw [hR]; exact ⟨rfl, rfl⟩ }

theorem Steadily.trans {r : Option Nat} {a b c : World} (h : Steadily r a b)
    (h' : Steadily r b c) : Steadily r a c := fun T =>
  have h₁ := h T
  have h₂ := h' h₁.tame
  { count := Nat.le_trans h₁.count h₂.count
    kind := fun t ht => (h₂.kind t (Nat.lt_of_lt_of_le ht h₁.count)).trans (h₁.kind t ht)
    started := fun t ht hs => h₂.started t (Nat.lt_of_lt_of_le ht h₁.count) (h₁.started t ht hs)
    outcome := fun t ht =>
      (h₂.outcome t (Nat.lt_of_lt_of_le ht h₁.count)).trans (h₁.outcome t ht)
    new := fun t ht hn d => by
      by_cases hb : t < b.taskCount
      · rw [h₂.kind t hb]
        exact h₁.new t hb hn d
      · exact h₂.new t ht (by omega) d
    residents := h₂.residents.trans h₁.residents
    seat := fun d => ⟨(h₂.seat d).1.trans (h₁.seat d).1, (h₂.seat d).2.trans (h₁.seat d).2⟩
    loading := fun d hd => (h₂.loading d hd).trans (h₁.loading d hd)
    loaded := fun d hd => h₂.loaded d (h₁.loaded d hd)
    registered := fun e he => h₁.registered e (h₂.registered e he)
    keeps := fun e he hr => h₂.keeps e (h₁.keeps e he hr) hr
    spawned := h₂.spawned.trans h₁.spawned
    port := fun p => (h₂.port p).trans (h₁.port p)
    reaped := fun p hp => h₂.reaped p (h₁.reaped p hp)
    tame := h₂.tame }

theorem steadily_markReaped (r : Option Nat) (w : World) (p : Nat) :
    Steadily r w (w.markReaped p) := by
  refine steady_same rfl rfl rfl rfl rfl rfl rfl (fun q => ?_) fun q hq => ?_
  all_goals
    simp only [World.markReaped, World.setProcs]
    by_cases h : q = p
    · subst h
      simp
    · simp [setAt_of_ne h, *]

theorem steadily_issue {o : Op} (r : Option Nat) (t : Nat) (w : World) :
    Steadily r w (issue t o w) := by
  cases o with
  | sigterm p => exact steady_same rfl rfl rfl rfl rfl rfl rfl (fun _ => rfl) fun _ h => h
  | reapPid p => exact steady_same rfl rfl rfl rfl rfl rfl rfl (fun _ => rfl) fun _ h => h
  | complete x s p => exact (quiet_issue (o := .complete x s p) trivial t w).steadily r
  | inboxGetTimed d => exact (quiet_issue (o := .inboxGetTimed d) trivial t w).steadily r
  | _ => exact (Quiet.refl w).steadily r

theorem steadily_answer {o : Op} (ho : NoSpawn o) (r : Option Nat) (t : Nat) (x : Reply)
    (w : World) : Steadily r w (answer t o x w) := by
  have reap : ∀ p, o.reaps p → Steadily r w (answer t o x w) := by
    intro p hp
    have hend : Steadily r w (w.endReap t) :=
      steady_same rfl rfl rfl rfl rfl rfl rfl (fun _ => rfl) fun _ h => h
    have hbreak : Steadily r (w.endReap t) ((w.endReap t).breakReap p) :=
      steady_same rfl rfl rfl rfl rfl rfl rfl (fun _ => rfl) fun _ h => h
    rw [answer, effect_reap hp]
    refine Steadily.trans ?_ ((quiet_delivered t o _).steadily r)
    split
    · exact hend.trans (steadily_markReaped r _ p)
    · exact hend.trans hbreak
  have quiet : ∀ {o : Op}, QuietOp o → Steadily r w (answer t o x w) := fun ho =>
    (quiet_answer ho t x w).steadily r
  cases o with
  | spawn => exact ho.elim
  | sigterm p | reapPid p => exact reap p rfl
  | _ => exact quiet trivial

/-- Programs that give no port away keep a task's assertion. -/
theorem frames_berth {t : Nat} {r : Option Nat} {L : World → Prop} (hL : Fixed t r L) :
    Frames (ports C) t (Berth t r L) (Steadily r) NoSpawn := by
  have act : ∀ {s w w' : World}, Steadily r w w' → Berth t r L s w → Berth t r L s w' := by
    rintro s w w' h ⟨A, hr, hm, hl⟩
    have hs := h A.ports.tame
    exact ⟨hs.aboard hm A, fun d hd => by rw [hs.residents]; exact hr d hd, hs.mayEnd A.ports hm,
      hL.steady A.ports hs hl⟩
  have resume : ∀ {s w w' : World}, Berth t r L s w → (ports C).Rely t w w' → (ports C).Good w' →
      Berth t r L w' w' := by
    rintro s w w' ⟨A, hr, hm, hl⟩ hrely hg
    have h := rely_ports A.ports hrely
    exact ⟨A.resume h hg.1, fun d hd => Nat.lt_of_lt_of_le (hr d hd) h.residents,
      h.mayEnd A.ports hr hm, hL.rely A.ports A.undone h hl⟩
  exact
    { act := act
      ask := fun o ho s w h x _ _ => act (steadily_answer ho r t x w) h
      await := fun o ho s w h =>
        have hi := act (steadily_issue r t w) h
        ⟨⟨hi.1.ports, hi.1.step⟩, fun w' hw hg x _ _ =>
          act (steadily_answer ho r t x w') (resume hi hw hg)⟩ }

end Turbohaul
