/-
# `Custody` — who answers for which sidecar, at cap 2 and above

A sidecar is spawned by the driver of a resident.  From then on the resident
holds it, by its pid while it boots and by its handle afterwards, until
somebody takes it out of the resident's hands: the driver when the boot has
failed, the driver's `finally`, or an `_evict_teardown`.  The latter two claim
`torn_down` first.  Whoever took it reaps it, unless it finds that the process
has exited by itself.

    held       what a resident holds is under no reap
    sole       no two residents hold the same sidecar
    accounted  a sidecar is held, or under a reap, or has exited
    once       no sidecar is reaped twice

Within one segment of a task the sidecar that has been taken is in nobody's
hands: `loose` is the one exception.
-/
import Turbohaul.PortReserve

namespace Turbohaul

open Coop

/-! ## The invariant -/

/-- What a resident has in its hands. -/
structure Grip where
  handle : Option Nat := none
  bootingPid : Option Nat := none
  tornDown : Bool := false
  port : Option Nat := none
deriving DecidableEq

def Resident.grip (x : Resident) : Grip :=
  { handle := x.handle, bootingPid := x.bootingPid, tornDown := x.tornDown, port := x.port }

/-- The sidecar is held, by its handle or by its pid. -/
def Grip.holds (g : Grip) (p : Nat) : Prop := g.handle = some p ∨ g.bootingPid = some p

/-- Nothing is held, and nothing has been. -/
def Grip.bare (g : Grip) : Prop := g.handle = none ∧ g.bootingPid = none ∧ g.tornDown = false

namespace World

/-- The resident refers to the sidecar. -/
def refers (w : World) (r p : Nat) : Prop := (w.resident r).grip.holds p

/-- A reap of the sidecar is running, has run to its end, or was broken off by
an exception or by the cancellation of its task. -/
def underReap (w : World) (p : Nat) : Prop :=
  (∃ t, (t, p) ∈ w.procs.reaping) ∨ (w.procs.proc p).reaped = true ∨ p ∈ w.procs.broken

/-- Somebody answers for the sidecar, or there is nothing to answer for. -/
def accounted (w : World) (p : Nat) : Prop :=
  (∃ r, w.refers r p) ∨ (p ∈ w.procs.begun ∧ w.underReap p) ∨
    (p ∉ w.procs.begun ∧ w.isAlive p = false)

end World

/-- Custody of all sidecars but one, which is in the hands of the running
task. -/
structure Custody (loose : Option Nat) (w : World) : Prop where
  tame : Tame w
  drivers : ∀ t < w.taskCount, ∀ r, (w.task t).kind = .driver r →
    (w.resident r).driverTask = some t
  listed : ∀ e ∈ w.registry, e.2 < w.residentCount
  unborn : ∀ r, w.residentCount ≤ r → (w.resident r).driverTask = none ∧
    (w.resident r).grip.bare
  single : ∀ r, (w.resident r).handle = none ∨ (w.resident r).bootingPid = none
  sole : ∀ r d p, w.refers r p → w.refers d p → r = d
  held : ∀ r p, w.refers r p → p < w.procs.spawned ∧ p ∉ w.procs.begun ∧
    (w.resident r).tornDown = false ∧ (w.resident r).port.getD 0 = (w.procs.proc p).port
  taken : ∀ p, loose = some p → p < w.procs.spawned ∧ p ∉ w.procs.begun ∧ ∀ r, ¬w.refers r p
  accounted : ∀ p < w.procs.spawned, loose ≠ some p → w.accounted p
  once : w.procs.begun.Nodup
  known : ∀ p ∈ w.procs.begun, p < w.procs.spawned
  busy : ∀ e ∈ w.procs.reaping, e.1 < w.taskCount ∧ (w.task e.1).started = true
  waiting : ∀ r t, (w.resident r).driverTask = some t → (w.task t).started = false →
    w.taskDone t = false → w.loading r = true ∧ (w.resident r).grip.bare
  evicting : ∀ t < w.taskCount, ∀ r, (w.task t).kind = .evictTeardown r →
    r < w.residentCount ∧ w.loading r = false
  orphan : ∀ t < w.taskCount, ∀ r, (w.task t).kind = .reapDead r →
    ∃ d, (w.resident r).driverTask = some d ∧ w.taskDone d = true
  unshielded : ∀ t < w.taskCount, ∀ p, (w.task t).kind ≠ .shieldedSigterm p
  idle : w.hold.idleHandle = none

/-- What the tasks of `M` may do.  Who boots is left alone by all others. -/
structure Handover (M : Nat → Prop) (w w' : World) : Prop where
  count : w.taskCount ≤ w'.taskCount
  kind : ∀ t < w.taskCount, (w'.task t).kind = (w.task t).kind
  started : ∀ t < w.taskCount, (w.task t).started = true → (w'.task t).started = true
  outcome : ∀ t < w.taskCount, ¬M t ∨ w.taskDone t = true →
    (w'.task t).outcome = (w.task t).outcome
  residents : w.residentCount ≤ w'.residentCount
  seat : ∀ r < w.residentCount, (w'.resident r).driverTask = (w.resident r).driverTask
  loading : ∀ r < w.residentCount, w.loading r = false → w'.loading r = false
  booting : ∀ r t, (w.resident r).driverTask = some t → ¬M t → w.taskDone t = false →
    w.loading r = true → w'.loading r = true ∧ (w'.resident r).grip = (w.resident r).grip
  reaping : ∀ t, ¬M t → ∀ p, (t, p) ∈ w'.procs.reaping ↔ (t, p) ∈ w.procs.reaping

/-- The outline of the proof. -/
def custody (C : Config) : Outline (system C) where
  cond := Admit.any _
  base := fun _ => True
  inv := Custody none
  guar := fun u => Handover fun t => u = some t

variable {C : Config}

theorem Handover.refl (M : Nat → Prop) (w : World) : Handover M w w :=
  ⟨Nat.le_refl _, fun _ _ => rfl, fun _ _ h => h, fun _ _ _ => rfl, Nat.le_refl _,
    fun _ _ => rfl, fun _ _ h => h, fun _ _ _ _ _ h => ⟨h, rfl⟩, fun _ _ _ => .rfl⟩

theorem Handover.mono {M N : Nat → Prop} {w w' : World} (h : Handover M w w')
    (hs : ∀ t, M t → N t) : Handover N w w' where
  count := h.count
  kind := h.kind
  started := h.started
  outcome := fun t ht ho => h.outcome t ht (ho.imp_left (mt (hs t)))
  residents := h.residents
  seat := h.seat
  loading := h.loading
  booting := fun r t hd hn => h.booting r t hd (mt (hs t) hn)
  reaping := fun t hn => h.reaping t (mt (hs t) hn)

theorem Handover.done {M : Nat → Prop} {w w' : World} (h : Handover M w w') {t : Nat}
    (ht : t < w.taskCount) (hd : w.taskDone t = true) : w'.taskDone t = true := by
  rw [World.taskDone, h.outcome t ht (.inr hd)]
  exact hd

/-- A driven resident is an old one. -/
theorem Custody.driven {o : Option Nat} {w : World} (J : Custody o w) {r t : Nat}
    (h : (w.resident r).driverTask = some t) : r < w.residentCount ∧ t < w.taskCount := by
  refine ⟨?_, (J.tame.drivers r t h).1⟩
  by_contra hr
  rw [(J.unborn r (by omega)).1] at h
  cases h

theorem Handover.trans {M : Nat → Prop} {o : Option Nat} {a b c : World} (J : Custody o a)
    (h : Handover M a b) (h' : Handover M b c) : Handover M a c where
  count := Nat.le_trans h.count h'.count
  kind := fun t ht => (h'.kind t (Nat.lt_of_lt_of_le ht h.count)).trans (h.kind t ht)
  started := fun t ht hs => h'.started t (Nat.lt_of_lt_of_le ht h.count) (h.started t ht hs)
  outcome := fun t ht hu =>
    (h'.outcome t (Nat.lt_of_lt_of_le ht h.count) (hu.imp_right (h.done ht))).trans
      (h.outcome t ht hu)
  residents := Nat.le_trans h.residents h'.residents
  seat := fun r hr => (h'.seat r (Nat.lt_of_lt_of_le hr h.residents)).trans (h.seat r hr)
  loading := fun r hr hl => h'.loading r (Nat.lt_of_lt_of_le hr h.residents) (h.loading r hr hl)
  booting := fun r t ht hn hd hl => by
    obtain ⟨hr, hlt⟩ := J.driven ht
    obtain ⟨hl₁, hg₁⟩ := h.booting r t ht hn hd hl
    have hd₁ : b.taskDone t = false := by
      rw [World.taskDone, h.outcome t hlt (.inl hn)]
      exact hd
    obtain ⟨hl₂, hg₂⟩ := h'.booting r t ((h.seat r hr).trans ht) hn hd₁ hl₁
    exact ⟨hl₂, hg₂.trans hg₁⟩
  reaping := fun t hn p => (h'.reaping t hn p).trans (h.reaping t hn p)

/-- What the others do between two segments of `t`. -/
theorem rely_custody {t : Nat} {w w' : World} (J : Custody none w)
    (h : (custody C).Rely t w w') : Handover (· ≠ t) w w' := by
  induction h with
  | refl => exact .refl _ w
  | tail _ hs ih =>
      obtain ⟨u, hu, -, -, hg⟩ := hs
      refine ih.trans J (Handover.mono hg fun v hv => ?_)
      rintro rfl
      exact hu hv

/-! ## Statements that take nothing in hand

`d` is the resident that may leave the loading state, if any. -/

/-- No sidecar is spawned, taken, or reaped, and none comes back to life. -/
structure Custodial (d : Option Nat) (w w' : World) : Prop where
  tasks : TasksGrow w w'
  residents : w'.residentCount = w.residentCount
  seat : ∀ r, (w'.resident r).driverTask = (w.resident r).driverTask
  grip : ∀ r, (w'.resident r).grip = (w.resident r).grip
  loading : ∀ r, d ≠ some r → w'.loading r = w.loading r
  loaded : ∀ r, w.loading r = false → w'.loading r = false
  registered : ∀ e ∈ w'.registry, e ∈ w.registry
  spawned : w'.procs.spawned = w.procs.spawned
  port : ∀ p, (w'.procs.proc p).port = (w.procs.proc p).port
  reaped : ∀ p, (w'.procs.proc p).reaped = (w.procs.proc p).reaped
  alive : ∀ p, w.isAlive p = false → w'.isAlive p = false
  reaping : w'.procs.reaping = w.procs.reaping
  begun : w'.procs.begun = w.procs.begun
  broken : w'.procs.broken = w.procs.broken
  idle : w'.hold.idleHandle = w.hold.idleHandle
  tame : Tame w'

section

variable {d o : Option Nat} {w w' : World}

theorem Custodial.refers (h : Custodial d w w') {r p : Nat} :
    w'.refers r p ↔ w.refers r p := by
  rw [World.refers, h.grip, World.refers]

theorem Custodial.accounted (h : Custodial d w w') {p : Nat} (hp : w.accounted p) :
    w'.accounted p := by
  rcases hp with ⟨r, hr⟩ | ⟨hb, hu⟩ | ⟨hb, ha⟩
  · exact .inl ⟨r, h.refers.mpr hr⟩
  · refine .inr (.inl ⟨h.begun ▸ hb, ?_⟩)
    rw [World.underReap, h.reaping, h.reaped, h.broken]
    exact hu
  · exact .inr (.inr ⟨h.begun ▸ hb, h.alive p ha⟩)

theorem Custodial.taskDone (h : Custodial d w w') {t : Nat} (ht : t < w.taskCount) :
    w'.taskDone t = w.taskDone t := by
  simp only [World.taskDone, h.tasks.outcome t ht]

theorem Custodial.weaken (h : Custodial none w w') : Custodial d w w' :=
  { h with loading := fun r _ => h.loading r (by rintro ⟨⟩) }

/-- A task of a kind that is not quiet is an old one. -/
theorem Custodial.old (h : Custodial d w w') {t : Nat} (ht : t < w'.taskCount)
    (hk : (w'.task t).kind.quiet = false) :
    t < w.taskCount ∧ (w'.task t).kind = (w.task t).kind := by
  by_cases ho : t < w.taskCount
  · exact ⟨ho, h.tasks.kind t ho⟩
  · have hq := (h.tasks.new t ht (by omega)).1
    rw [hk] at hq
    cases hq

/-- A statement that takes nothing in hand keeps the custody, when the driver
of the resident that may come up has started. -/
theorem Custodial.custody (h : Custodial d w w') (J : Custody o w)
    (hd : ∀ r t, (w.resident r).driverTask = some t → (w.task t).started = false →
      w.taskDone t = false → w.loading r = true → d ≠ some r) : Custody o w' where
  tame := h.tame
  drivers := fun t ht r hk => by
    obtain ⟨ho, hk'⟩ := h.old ht (by rw [hk]; rfl)
    rw [h.seat]
    exact J.drivers t ho r (hk'.symm.trans hk)
  listed := fun e he => by
    rw [h.residents]
    exact J.listed e (h.registered e he)
  unborn := fun r hr => by
    rw [h.residents] at hr
    rw [h.seat, h.grip]
    exact J.unborn r hr
  single := fun r => by
    have hh : (w'.resident r).handle = (w.resident r).handle := congrArg Grip.handle (h.grip r)
    have hb : (w'.resident r).bootingPid = (w.resident r).bootingPid :=
      congrArg Grip.bootingPid (h.grip r)
    rw [hh, hb]
    exact J.single r
  sole := fun r e p hr he => J.sole r e p (h.refers.mp hr) (h.refers.mp he)
  held := fun r p hr => by
    obtain ⟨hlt, hb, ht, hp⟩ := J.held r p (h.refers.mp hr)
    have ht' : (w'.resident r).tornDown = (w.resident r).tornDown :=
      congrArg Grip.tornDown (h.grip r)
    have hp' : (w'.resident r).port = (w.resident r).port := congrArg Grip.port (h.grip r)
    exact ⟨h.spawned ▸ hlt, h.begun ▸ hb, ht'.trans ht, by rw [hp', h.port]; exact hp⟩
  taken := fun p hp => by
    obtain ⟨hlt, hb, hr⟩ := J.taken p hp
    exact ⟨h.spawned ▸ hlt, h.begun ▸ hb, fun r hr' => hr r (h.refers.mp hr')⟩
  accounted := fun p hp ho => h.accounted (J.accounted p (h.spawned ▸ hp) ho)
  once := h.begun ▸ J.once
  known := fun p hp => by
    rw [h.spawned]
    exact J.known p (h.begun ▸ hp)
  busy := fun e he => by
    obtain ⟨hlt, hs⟩ := J.busy e (h.reaping ▸ he)
    exact ⟨Nat.lt_of_lt_of_le hlt h.tasks.count, h.tasks.started e.1 hlt hs⟩
  waiting := fun r t hr hs hn => by
    rw [h.seat] at hr
    have hlt := (J.driven hr).2
    have hs₀ : (w.task t).started = false := by
      cases hw : (w.task t).started with
      | false => rfl
      | true => rw [h.tasks.started t hlt hw] at hs; cases hs
    rw [h.taskDone hlt] at hn
    obtain ⟨hl, hg⟩ := J.waiting r t hr hs₀ hn
    rw [h.loading r (hd r t hr hs₀ hn hl), h.grip]
    exact ⟨hl, hg⟩
  evicting := fun t ht r hk => by
    obtain ⟨ho, hk'⟩ := h.old ht (by rw [hk]; rfl)
    obtain ⟨hr, hl⟩ := J.evicting t ho r (hk'.symm.trans hk)
    exact ⟨h.residents ▸ hr, h.loaded r hl⟩
  orphan := fun t ht r hk => by
    obtain ⟨ho, hk'⟩ := h.old ht (by rw [hk]; rfl)
    obtain ⟨u, hu, hn⟩ := J.orphan t ho r (hk'.symm.trans hk)
    exact ⟨u, (h.seat r).trans hu, (h.taskDone (J.driven hu).2).trans hn⟩
  unshielded := fun t ht p hk => by
    obtain ⟨ho, hk'⟩ := h.old ht (by rw [hk]; rfl)
    exact J.unshielded t ho p (hk'.symm.trans hk)
  idle := h.idle.trans J.idle

theorem Custodial.handover (h : Custodial d w w') {M : Nat → Prop}
    (hd : ∀ r t, (w.resident r).driverTask = some t → ¬M t → w.taskDone t = false →
      w.loading r = true → d ≠ some r) : Handover M w w' where
  count := h.tasks.count
  kind := h.tasks.kind
  started := h.tasks.started
  outcome := fun u hu _ => h.tasks.outcome u hu
  residents := Nat.le_of_eq h.residents.symm
  seat := fun r _ => h.seat r
  loading := fun r _ => h.loaded r
  booting := fun r u hu hn ho hl => ⟨(h.loading r (hd r u hu hn ho hl)).trans hl, h.grip r⟩
  reaping := fun _ _ _ => by rw [h.reaping]

end

/-! ## Quiet statements -/

/-- No process comes back to life. -/
def Mortal (w w' : World) : Prop := ∀ p, w.isAlive p = false → w'.isAlive p = false

theorem mortal_same {w w' : World} (h : w'.procs = w.procs) : Mortal w w' := fun p hp => by
  rwa [World.isAlive, h]

theorem Mortal.trans {a b c : World} (h : Mortal a b) (h' : Mortal b c) : Mortal a c :=
  fun p hp => h' p (h p hp)

/-- Cancelling several tasks. -/
theorem mortal_cancelAll {α : Type} (f : α → Nat) : ∀ (xs : List α) (w : World),
    Mortal w (xs.foldl (fun w x => w.cancelTask (f x)) w)
  | [], _ => mortal_same rfl
  | x :: xs, w => Mortal.trans (b := w.cancelTask (f x)) (mortal_same rfl)
      (mortal_cancelAll f xs _)

theorem mortal_mirror (w : World) (f : Resident → Resident) : Mortal w (w.mirror f) := by
  unfold World.mirror
  split <;> exact mortal_same rfl

theorem mortal_exits : ∀ (ps : List Nat) (w : World),
    Mortal w (ps.foldl (fun w p => w.processExit p) w)
  | [], w => mortal_same rfl
  | q :: ps, w => by
      refine Mortal.trans (fun p hp => ?_) (mortal_exits ps _)
      by_cases h : p = q
      · subst h
        simp [World.isAlive, World.processExit, World.setProcs]
      · simpa [World.isAlive, World.processExit, World.setProcs, setAt_of_ne h] using hp

theorem mortal_delivered (t : Nat) (o : Op) (w : World) : Mortal w (w.delivered t o) := by
  unfold World.delivered
  split
  · exact mortal_same rfl
  · split <;> exact mortal_same rfl

theorem mortal_answer {o : Op} (ho : QuietOp o) (t : Nat) (r : Reply) (w : World) :
    Mortal w (answer t o r w) := by
  refine Mortal.trans ?_ (mortal_delivered t o _)
  cases o with
  | spawn | sigterm | reapPid => exact ho.elim
  | orphanReap known =>
      cases r <;> first
        | exact mortal_exits _ w
        | exact mortal_same rfl
  | _ => cases r <;> exact mortal_same rfl

/-- A statement that touches neither the sidecars nor what is said of them. -/
def Still (w w' : World) : Prop := Quiet w w' ∧ Mortal w w'

theorem Still.refl (w : World) : Still w w := ⟨.refl w, mortal_same rfl⟩

theorem Still.trans {a b c : World} (h : Still a b) (h' : Still b c) : Still a c :=
  ⟨h.1.trans h'.1, h.2.trans h'.2⟩

instance : QueueVocabulary Still where
  refl := Still.refl
  slot := fun w s _ _ => ⟨quiet_setSlot w s _, mortal_same rfl⟩
  occupied := fun w s => ⟨Vocabulary.occupied w s, Mortal.trans (b := w.setHold _) (mortal_same rfl)
    (mortal_mirror _ _)⟩
  dispatched := fun w s _ =>
    ⟨(quiet_setSlot w s _).trans (quiet_record _ _ rfl), mortal_same rfl⟩
  holder := fun w _ hf => ⟨MeekVocabulary.holder w hf, mortal_same rfl⟩
  mirrored := fun w _ _ hf hg =>
    ⟨MeekVocabulary.mirrored w hf hg, Mortal.trans (b := w.setHold _) (mortal_same rfl)
      (mortal_mirror _ _)⟩
  resident := fun w r _ hf => ⟨MeekVocabulary.resident w r hf, mortal_same rfl⟩
  helper := fun w _ hk => ⟨ResidentVocabulary.helper w hk, mortal_same rfl⟩
  startInFlight := fun w r _ s hk => ⟨ResidentVocabulary.startInFlight w r s hk, mortal_same rfl⟩
  cancelInFlight := fun w r => ⟨quiet_cancelInFlight w r, mortal_cancelAll Prod.fst _ w⟩
  value := fun w t v => ⟨MeekVocabulary.value w t v, mortal_same rfl⟩
  timed := fun w f => ⟨GraceVocabulary.timed w f, mortal_same rfl⟩
  graced := fun w _ he => ⟨GraceVocabulary.graced w he, mortal_same rfl⟩
  trans := Still.trans
  queue := fun w f => ⟨quiet_setQueue w f, mortal_same rfl⟩
  flagged := fun w s => ⟨quiet_flagEvicted w s, mortal_same (by
    unfold World.flagEvicted
    split <;> rfl)⟩
  alloc := fun w t x => ⟨quiet_alloc t x w, mortal_same rfl⟩
  attached := fun w s => ⟨quiet_setSlot w s _, mortal_same rfl⟩

instance : CaptureVocabulary Still where
  latest := fun w v => ⟨CaptureVocabulary.latest w v, Mortal.trans (b := w.setHold _)
    (mortal_same rfl) (mortal_mirror _ _)⟩
  captured := fun w r v => ⟨CaptureVocabulary.captured w r v, mortal_same rfl⟩

theorem Unmoved.custodial {w w' : World} (h : Unmoved w w') (hm : Mortal w w')
    (d : Option Nat) : Custodial d w w' := by
  have lease : ∀ r, (w'.resident r).lease = (w.resident r).lease := fun r =>
    congrFun (congrArg Processes.lease h.processes) r
  have loading : ∀ r, w'.loading r = w.loading r := fun r => congrArg Lease.loading (lease r)
  have registry : w'.registry = w.registry := congrArg Processes.registry h.processes
  exact
    { tasks := h.tasks
      residents := congrArg Processes.residentCount h.processes
      seat := fun r => congrArg Lease.driverTask (lease r)
      grip := fun r => congrArg
        (fun l : Lease => Grip.mk l.handle l.bootingPid l.tornDown l.port) (lease r)
      loading := fun r _ => loading r
      loaded := fun r hr => (loading r).trans hr
      registered := fun _ he => registry ▸ he
      spawned := congrArg Processes.spawned h.processes
      port := fun p => congrFun (congrArg Processes.port h.processes) p
      reaped := fun p => congrFun (congrArg Processes.reaped h.processes) p
      alive := hm
      reaping := congrArg Processes.reaping h.processes
      begun := congrArg Processes.begun h.processes
      broken := congrArg Processes.broken h.processes
      idle := congrArg Processes.idle h.processes
      tame := h.tame }

/-! ## What a task knows -/

/-- Task `t` is running, and has kept the custody but for what it has taken. -/
structure Keeper (t : Nat) (loose : Option Nat) (s w : World) : Prop where
  before : Custody none s
  custody : Custody loose w
  handover : Handover (fun u => some t = some u) s w
  lt : t < w.taskCount
  started : (w.task t).started = true
  undone : w.taskDone t = false
  free : ∀ p, (t, p) ∉ w.procs.reaping

variable {C : Config} {t : Nat} {d o : Option Nat} {s w w' : World}

theorem Custodial.keeper (h : Custodial d w w') (K : Keeper t o s w) (hm : MayEnd t d w) :
    Keeper t o s w' where
  before := K.before
  custody := h.custody K.custody fun r u hu hs hn hl => hm.ne hu (fun he => by
    rw [he, K.started] at hs
    cases hs) hn hl
  handover := K.handover.trans K.before (h.handover fun r u hu hn ho hl =>
    hm.ne hu (fun he => hn (congrArg some he.symm)) ho hl)
  lt := Nat.lt_of_lt_of_le K.lt h.tasks.count
  started := h.tasks.started t K.lt K.started
  undone := (h.taskDone K.lt).trans K.undone
  free := fun p hp => K.free p (h.reaping ▸ hp)

theorem Keeper.resume (K : Keeper t none s w) (h : Handover (· ≠ t) w w') (J : Custody none w') :
    Keeper t none w' w' where
  before := J
  custody := J
  handover := .refl _ _
  lt := Nat.lt_of_lt_of_le K.lt h.count
  started := h.started t K.lt K.started
  undone := by
    rw [World.taskDone, h.outcome t K.lt (.inl fun hn => hn rfl)]
    exact K.undone
  free := fun p hp => K.free p ((h.reaping t (fun hn => hn rfl) p).mp hp)

/-- The tables of residents and tasks are the same, but for new tasks. -/
structure SameTables (w w' : World) : Prop where
  resident : w'.resident = w.resident
  residentCount : w'.residentCount = w.residentCount
  count : w.taskCount ≤ w'.taskCount
  task : ∀ t < w.taskCount, w'.task t = w.task t

/-- What a task knows of the residents, until it says otherwise itself.  It may
bring the resident `d` down. -/
structure Lasting (t : Nat) (d : Option Nat) (L : World → Prop) : Prop where
  mayEnd : ∀ {w}, L w → MayEnd t d w
  tables : ∀ {o w w'}, Custody o w → SameTables w w' → L w → L w'
  act : ∀ {o w w'}, Custody o w → Custodial d w w' → L w → L w'
  rely : ∀ {w w'}, Custody none w → w.taskDone t = false → Handover (· ≠ t) w w' → L w → L w'

/-- Still statements, and those that may bring `d` down. -/
def Stilled (d : Option Nat) (w w' : World) : Prop := Tame w → Custodial d w w'

theorem Still.stilled (h : Still w w') (d : Option Nat) : Stilled d w w' := fun T =>
  (h.1 T).custodial h.2 d

/-- Operations, when nothing has been taken. -/
def Unhanded (o : Option Nat) (op : Op) : Prop := o = none ∧ QuietOp op

/-- Programs that take nothing in hand keep what a task knows. -/
theorem frames_keeper {L : World → Prop} (hL : Lasting t d L) :
    Frames (custody C) t (fun s w => Keeper t o s w ∧ L w) (Stilled d) (Unhanded o) := by
  have act : ∀ {s w w'}, Stilled d w w' → Keeper t o s w ∧ L w → Keeper t o s w' ∧ L w' := by
    rintro s w w' h ⟨K, hl⟩
    have hc := h K.custody.tame
    exact ⟨hc.keeper K (hL.mayEnd hl), hL.act K.custody hc hl⟩
  refine ⟨act, fun op ho s w h x _ _ => ?_, fun op ho s w h => ?_⟩
  · exact act (Still.stilled ⟨quiet_answer ho.2 t x w, mortal_answer ho.2 t x w⟩ d) h
  · obtain ⟨rfl, hq⟩ := ho
    have hi : Still w (issue t op w) := ⟨quiet_issue hq t w, by
      cases op with
      | sigterm | reapPid => exact hq.elim
      | _ => exact mortal_same rfl⟩
    obtain ⟨K, hl⟩ := act (hi.stilled d) h
    refine ⟨⟨K.custody, K.handover⟩, fun w' hw hg x _ _ => ?_⟩
    have hr := rely_custody K.custody hw
    exact act (Still.stilled ⟨quiet_answer hq t x w', mortal_answer hq t x w'⟩ d)
      ⟨K.resume hr hg.1, hL.rely K.custody K.undone hr hl⟩

/-! ## Spawns and reaps -/

/-- What changes is the processes only. -/
theorem Custody.processes (J : Custody o w) {o' : Option Nat} (h : SameTables w w')
    (hc : w'.taskCount = w.taskCount) (ht : w'.task = w.task) (hg : w'.registry = w.registry)
    (hh : w'.hold = w.hold) (hs : w.procs.spawned ≤ w'.procs.spawned)
    (hport : ∀ p < w.procs.spawned, (w'.procs.proc p).port = (w.procs.proc p).port)
    (hheld : ∀ r p, w.refers r p → p ∉ w'.procs.begun)
    (htaken : ∀ p, o' = some p → p < w'.procs.spawned ∧ p ∉ w'.procs.begun ∧
      ∀ r, ¬w.refers r p)
    (hacc : ∀ p < w'.procs.spawned, o' ≠ some p → w'.accounted p)
    (honce : w'.procs.begun.Nodup) (hknown : ∀ p ∈ w'.procs.begun, p < w'.procs.spawned)
    (hbusy : ∀ e ∈ w'.procs.reaping, e.1 < w.taskCount ∧ (w.task e.1).started = true) :
    Custody o' w' := by
  have refers : ∀ r p, w'.refers r p ↔ w.refers r p := fun r p => by
    rw [World.refers, h.resident, World.refers]
  have done : ∀ t, w'.taskDone t = w.taskDone t := fun t => by rw [World.taskDone, ht]; rfl
  have loading : ∀ r, w'.loading r = w.loading r := fun r => by
    rw [World.loading, h.resident]; rfl
  refine
    { tame := J.tame.of_same ht hc (by rw [hh]) fun r => by rw [h.resident]; exact ⟨rfl, rfl⟩
      drivers := ?_
      listed := ?_
      unborn := ?_
      single := ?_
      sole := fun r e p hr he => J.sole r e p ((refers r p).mp hr) ((refers e p).mp he)
      held := fun r p hr => ?_
      taken := fun p hp => ?_
      accounted := hacc
      once := honce
      known := hknown
      busy := ?_
      waiting := fun r t hr hst hn => ?_
      evicting := fun t hlt r hk => ?_
      orphan := fun t hlt r hk => ?_
      unshielded := ?_
      idle := by rw [hh]; exact J.idle }
  · rw [hc, ht, h.resident]
    exact J.drivers
  · rw [hg, h.residentCount]
    exact J.listed
  · rw [h.residentCount, h.resident]
    exact J.unborn
  · rw [h.resident]
    exact J.single
  · obtain ⟨hlt, -, htd, hp⟩ := J.held r p ((refers r p).mp hr)
    rw [h.resident, hport p hlt]
    exact ⟨Nat.lt_of_lt_of_le hlt hs, hheld r p ((refers r p).mp hr), htd, hp⟩
  · obtain ⟨hlt, hb, hr⟩ := htaken p hp
    exact ⟨hlt, hb, fun r hr' => hr r ((refers r p).mp hr')⟩
  · rw [hc, ht]
    exact hbusy
  · rw [h.resident] at hr ⊢
    rw [ht] at hst
    rw [loading]
    exact J.waiting r t hr hst ((done t).symm.trans hn)
  · rw [hc] at hlt
    rw [ht] at hk
    rw [h.residentCount, loading]
    exact J.evicting t hlt r hk
  · rw [hc] at hlt
    rw [ht] at hk
    obtain ⟨u, hu, hd⟩ := J.orphan t hlt r hk
    exact ⟨u, by rw [h.resident]; exact hu, (done u).trans hd⟩
  · rw [hc, ht]
    exact J.unshielded

theorem SameTables.handover (h : SameTables w w') {M : Nat → Prop}
    (hr : ∀ t, ¬M t → ∀ p, (t, p) ∈ w'.procs.reaping ↔ (t, p) ∈ w.procs.reaping) :
    Handover M w w' where
  count := h.count
  kind := fun t ht => by rw [h.task t ht]
  started := fun t ht hs => by rwa [h.task t ht]
  outcome := fun t ht _ => by rw [h.task t ht]
  residents := Nat.le_of_eq h.residentCount.symm
  seat := fun r _ => by rw [h.resident]
  loading := fun r _ hl => by rwa [World.loading, h.resident]
  booting := fun r t _ _ _ hl => by
    rw [World.loading, h.resident]
    exact ⟨hl, rfl⟩
  reaping := hr

theorem tables_procs (w : World) (f : Procs → Procs) : SameTables w (w.setProcs f) :=
  ⟨rfl, rfl, Nat.le_refl _, fun _ _ => rfl⟩

/-- The reap of what has been taken begins. -/
theorem Keeper.beginReap {p : Nat} (K : Keeper t (some p) s w) :
    Custody none (w.beginReap t p) ∧ Handover (fun u => some t = some u) s (w.beginReap t p) ∧
      ∀ q, (t, q) ∈ (w.beginReap t p).procs.reaping ↔ q = p := by
  have J := K.custody
  obtain ⟨hlt, hb, hr⟩ := J.taken p rfl
  have entry : ∀ u q, (u, q) ∈ (w.beginReap t p).procs.reaping ↔
      (u = t ∧ q = p) ∨ (u, q) ∈ w.procs.reaping := fun u q => by
    simp [World.beginReap, World.setProcs]
  have begun : (w.beginReap t p).procs.begun = p :: w.procs.begun := rfl
  refine ⟨J.processes (tables_procs w _) rfl rfl rfl rfl (Nat.le_refl _) (fun _ _ => rfl)
    (fun r q hq => ?_) (by rintro _ ⟨⟩) (fun q hq _ => ?_) (List.nodup_cons.mpr ⟨hb, J.once⟩)
    (fun q hq => ?_) fun e he => ?_, K.handover.trans K.before
      ((tables_procs w _).handover fun u hu q => ?_), fun q => ?_⟩
  · rw [begun, List.mem_cons, not_or]
    refine ⟨?_, (J.held r q hq).2.1⟩
    rintro rfl
    exact hr r hq
  · rcases eq_or_ne q p with rfl | hne
    · exact .inr (.inl ⟨List.mem_cons_self, .inl ⟨t, (entry t q).mpr (.inl ⟨rfl, rfl⟩)⟩⟩)
    · rcases J.accounted q hq (fun h => hne (Option.some.inj h).symm) with h | ⟨hq', hu⟩ | ⟨hq', ha⟩
      · exact .inl h
      · refine .inr (.inl ⟨List.mem_cons_of_mem p hq', hu.imp_left ?_⟩)
        rintro ⟨u, hu⟩
        exact ⟨u, (entry u q).mpr (.inr hu)⟩
      · refine .inr (.inr ⟨?_, ha⟩)
        rw [begun, List.mem_cons, not_or]
        exact ⟨hne, hq'⟩
  · rcases List.mem_cons.mp hq with rfl | hq
    · exact hlt
    · exact J.known q hq
  · rcases (entry e.1 e.2).mp he with ⟨h, -⟩ | h
    · rw [h]
      exact ⟨K.lt, K.started⟩
    · exact J.busy e h
  · exact (entry u q).trans (or_iff_right fun h => hu (by rw [h.1]))
  · rw [entry]
    exact ⟨fun h => h.elim And.right fun h => absurd h (K.free q), fun h => .inl ⟨rfl, h⟩⟩

/-- The world after a reap of `p` in task `t`, which is over. -/
def World.afterReap (t p : Nat) (done : Bool) (w : World) : World :=
  if done then (w.endReap t).markReaped p else (w.endReap t).breakReap p

/-- The reap is over, whether or not the process is gone. -/
theorem Custody.afterReap {p : Nat} (J : Custody none w)
    (hp : ∀ q, (t, q) ∈ w.procs.reaping → q = p) (b : Bool) :
    Custody none (w.afterReap t p b) ∧ SameTables w (w.afterReap t p b) ∧
      ∀ u q, (u, q) ∈ (w.afterReap t p b).procs.reaping ↔
        u ≠ t ∧ (u, q) ∈ w.procs.reaping := by
  set w' := w.afterReap t p b with hw'
  have tables : SameTables w w' := by
    cases b <;> exact ⟨rfl, rfl, Nat.le_refl _, fun _ _ => rfl⟩
  have spawned : w'.procs.spawned = w.procs.spawned := by cases b <;> rfl
  have begun : w'.procs.begun = w.procs.begun := by cases b <;> rfl
  have entry : ∀ u q, (u, q) ∈ w'.procs.reaping ↔ u ≠ t ∧ (u, q) ∈ w.procs.reaping := by
    intro u q
    have : w'.procs.reaping = w.procs.reaping.filter fun e => e.1 ≠ t := by cases b <;> rfl
    rw [this, List.mem_filter]
    simp [and_comm]
  have proc : ∀ q, q ≠ p → w'.procs.proc q = w.procs.proc q := fun q hq => by
    cases b with
    | false => rfl
    | true => exact setAt_of_ne hq
  have ended : (w'.procs.proc p).reaped = true ∨ p ∈ w'.procs.broken := by
    cases b with
    | false => exact .inr List.mem_cons_self
    | true => exact .inl (by simp [w', World.afterReap, World.markReaped, World.setProcs])
  have port : ∀ q, (w'.procs.proc q).port = (w.procs.proc q).port := fun q => by
    rcases eq_or_ne q p with rfl | hq
    · cases b with
      | false => rfl
      | true => simp [w', World.afterReap, World.markReaped, World.setProcs, World.endReap]
    · rw [proc q hq]
  have alive : ∀ q, w.isAlive q = false → w'.isAlive q = false := fun q hq => by
    rcases eq_or_ne q p with rfl | hne
    · cases b with
      | false => exact hq
      | true => simp [w', World.afterReap, World.markReaped, World.setProcs, World.isAlive]
    · rwa [World.isAlive, proc q hne]
  have broken : ∀ q ∈ w.procs.broken, q ∈ w'.procs.broken := fun q hq => by
    cases b with
    | false => exact List.mem_cons_of_mem p hq
    | true => exact hq
  refine ⟨J.processes tables (by cases b <;> rfl) (by cases b <;> rfl) (by cases b <;> rfl)
    (by cases b <;> rfl) (Nat.le_of_eq spawned.symm) (fun q _ => port q)
    (fun r q hq => begun ▸ (J.held r q hq).2.1) (by rintro _ ⟨⟩) (fun q hq _ => ?_)
    (begun ▸ J.once) (fun q hq => ?_) fun e he => J.busy e ((entry e.1 e.2).mp he).2, tables, entry⟩
  · rcases J.accounted q (spawned ▸ hq) (by rintro ⟨⟩) with ⟨r, hr⟩ | ⟨hb, hu⟩ | ⟨hb, ha⟩
    · refine .inl ⟨r, ?_⟩
      rw [World.refers, tables.resident]
      exact hr
    · refine .inr (.inl ⟨begun ▸ hb, ?_⟩)
      rcases eq_or_ne q p with rfl | hne
      · exact .inr ended
      · rcases hu with ⟨u, hu⟩ | hr | hq
        · exact .inl ⟨u, (entry u q).mpr ⟨fun h => hne (hp q (h ▸ hu)), hu⟩⟩
        · exact .inr (.inl (by rw [proc q hne]; exact hr))
        · exact .inr (.inr (broken q hq))
    · exact .inr (.inr ⟨begun ▸ hb, alive q ha⟩)
  · rw [spawned]
    exact J.known q (begun ▸ hq)

/-- The await of a reap of what has been taken. -/
theorem wp_awaitReap {op : Op} {p : Nat} {L : World → Prop} (hop : op.reaps p)
    (hL : Lasting t d L) (K : Keeper t (some p) s w) (hl : L w) :
    wp (custody C) t (.await op) (fun _ s w => Keeper t none s w ∧ L w) s w := by
  obtain ⟨J₁, h₁, hown⟩ := K.beginReap
  have hi : (system C).issue t op w = w.beginReap t p := issue_reap hop t w
  have tables : SameTables w (w.beginReap t p) := tables_procs w _
  have undone : (w.beginReap t p).taskDone t = false := K.undone
  refine ⟨by rw [hi]; exact ⟨J₁, h₁⟩, fun w' hw hg x _ _ => ?_⟩
  have hr : Handover (· ≠ t) (w.beginReap t p) w' := rely_custody J₁ (hi ▸ hw)
  have J' : Custody none w' := hg.1
  have own : ∀ q, (t, q) ∈ w'.procs.reaping → q = p := fun q hq =>
    (hown q).mp ((hr.reaping t (fun hn => hn rfl) q).mp hq)
  obtain ⟨J₂, htab, hentry⟩ := J'.afterReap own (decide (x = .ok))
  have undone' : w'.taskDone t = false := by
    rw [World.taskDone, hr.outcome t K.lt (.inl fun hn => hn rfl)]
    exact K.undone
  have lt : t < w'.taskCount := Nat.lt_of_lt_of_le K.lt hr.count
  have K₂ : Keeper t none w' (w'.afterReap t p (decide (x = .ok))) :=
    { before := J'
      custody := J₂
      handover := htab.handover fun u hu q => (hentry u q).trans
        (and_iff_right fun h => hu (congrArg some h.symm))
      lt := Nat.lt_of_lt_of_le lt htab.count
      started := by
        rw [htab.task t lt]
        exact hr.started t K.lt K.started
      undone := by
        rw [World.taskDone, htab.task t lt]
        exact undone'
      free := fun q hq => ((hentry t q).mp hq).1 rfl }
  have hl₂ : L (w'.afterReap t p (decide (x = .ok))) :=
    hL.tables J' htab (hL.rely J₁ undone hr (hL.tables K.custody tables hl))
  have he : effect t op x w' = w'.afterReap t p (decide (x = .ok)) := by
    rw [effect_reap hop, World.afterReap]
    simp only [decide_eq_true_eq]
  have hd : Still (effect t op x w') (answer t op x w') :=
    ⟨quiet_delivered t op _, mortal_delivered t op _⟩
  rw [he] at hd
  exact (frames_keeper (C := C) (o := none) hL).act (hd.stilled d) ⟨K₂, hl₂⟩

/-- A reap of what has been taken, up to its end. -/
theorem wp_reap {op : Op} {p : Nat} {L : World → Prop} {Q : Post sig Unit}
    (hop : op.reaps p) (hL : Lasting t d L) (K : Keeper t (some p) s w) (hl : L w)
    (hq : ∀ r s w, Keeper t none s w ∧ L w → Q r s w) :
    wp (custody C) t (Co.suppress (sync op)) Q s w := by
  have hs : wp (custody C) t (sync op) (fun _ s w => Keeper t none s w ∧ L w) s w := by
    refine wp_seq (wp_awaitReap hop hL K hl) (fun x s w H => ?_) fun _ _ _ H => H
    cases x <;> exact H
  refine wp_tryExcept (wp_mono (fun r s w H => ?_) hs)
  match r with
  | .ok _ => exact hq _ _ _ H
  | .error (.raised _) => exact hq _ _ _ H
  | .error .cancelled => exact hq _ _ _ H

/-! ## From hand to hand -/

/-- An assignment to what a resident has in its hands: what it held or what was
loose is held or loose afterwards. -/
theorem Keeper.regrip {e : Nat} {f : Resident → Resident} {o' : Option Nat}
    (K : Keeper t o s w) (hm : MayEnd t (some e) w) (he : e < w.residentCount)
    (hkeep : ∀ x : Resident, (f x).tasks = x.tasks ∧ (f x).driverTask = x.driverTask)
    (hport : ∀ x : Resident, (f x).port = x.port)
    (hload : (w.resident e).state ≠ .reservedLoading →
      (f (w.resident e)).state ≠ .reservedLoading)
    (hone : (f (w.resident e)).handle = none ∨ (f (w.resident e)).bootingPid = none)
    (hto : ∀ p, (f (w.resident e)).grip.holds p → (f (w.resident e)).tornDown = false ∧
      (w.refers e p ∨ o = some p ∧ (w.resident e).port.getD 0 = (w.procs.proc p).port))
    (hfrom : ∀ p, w.refers e p ∨ o = some p → (f (w.resident e)).grip.holds p ∨ o' = some p)
    (hloose : ∀ p, o' = some p →
      (w.refers e p ∨ o = some p) ∧ ¬(f (w.resident e)).grip.holds p) :
    Keeper t o' s (w.setResident e f) := by
  have J := K.custody
  set w' := w.setResident e f with hw'
  have self : w'.resident e = f (w.resident e) := setAt_self _ _ _
  have other : ∀ r, r ≠ e → w'.resident r = w.resident r := fun r hr => setAt_of_ne hr
  have seat : ∀ r, (w'.resident r).driverTask = (w.resident r).driverTask := fun r => by
    rcases eq_or_ne r e with rfl | hr
    · rw [self, (hkeep _).2]
    · rw [other r hr]
  have refers : ∀ r p, r ≠ e → (w'.refers r p ↔ w.refers r p) := fun r p hr => by
    rw [World.refers, other r hr, World.refers]
  have mine : ∀ p, w'.refers e p ↔ (f (w.resident e)).grip.holds p := fun p => by
    rw [World.refers, self]
  have loaded : ∀ r, w.loading r = false → w'.loading r = false := fun r hl => by
    rcases eq_or_ne r e with rfl | hr
    · simp only [World.loading, self, decide_eq_false_iff_not] at hl ⊢
      exact hload hl
    · simpa only [World.loading, other r hr] using hl
  -- whose driver is alive and is not `t` is another resident
  have spared : ∀ r u, (w.resident r).driverTask = some u → u ≠ t → w.taskDone u = false →
      w.loading r = true → r ≠ e := fun r u hu hne hn hl h => hm.ne hu hne hn hl (by rw [h])
  refine
    { before := K.before
      custody :=
        { tame := tame_setResident J.tame e hkeep
          drivers := fun u hu r hk => (seat r).trans (J.drivers u hu r hk)
          listed := J.listed
          unborn := fun r hr => ?_
          single := fun r => ?_
          sole := fun r d p hr hd => ?_
          held := fun r p hr => ?_
          taken := fun p hp => ?_
          accounted := fun p hp ho => ?_
          once := J.once
          known := J.known
          busy := J.busy
          waiting := fun r u hu hs hn => ?_
          evicting := fun u hu r hk => ⟨(J.evicting u hu r hk).1, loaded r (J.evicting u hu r hk).2⟩
          orphan := fun u hu r hk => ?_
          unshielded := J.unshielded
          idle := J.idle }
      handover := K.handover.trans K.before
        { count := Nat.le_refl _
          kind := fun _ _ => rfl
          started := fun _ _ h => h
          outcome := fun _ _ _ => rfl
          residents := Nat.le_refl _
          seat := fun r _ => seat r
          loading := fun r _ => loaded r
          booting := fun r u hu hn hd hl => ?_
          reaping := fun _ _ _ => .rfl }
      lt := K.lt
      started := K.started
      undone := K.undone
      free := K.free }
  · have hne : r ≠ e := fun h => absurd he (by rw [← h]; exact Nat.not_lt_of_le hr)
    rw [other r hne]
    exact J.unborn r hr
  · rcases eq_or_ne r e with rfl | hne
    · rw [self]
      exact hone
    · rw [other r hne]
      exact J.single r
  · -- what `e` holds now it held before, or nobody did
    have fresh : ∀ r, r ≠ e → w'.refers e p → ¬w'.refers r p := by
      intro r hne h h'
      rw [refers r p hne] at h'
      rcases (hto p ((mine p).mp h)).2 with h | ⟨h, -⟩
      · exact hne (J.sole r e p h' h)
      · exact (J.taken p h).2.2 r h'
    rcases eq_or_ne r e with rfl | hre
    · by_contra hn
      exact fresh d (fun h => hn h.symm) hr hd
    · rcases eq_or_ne d e with rfl | hde
      · exact absurd hr (fresh r hre hd)
      · exact J.sole r d p ((refers r p hre).mp hr) ((refers d p hde).mp hd)
  · rcases eq_or_ne r e with rfl | hne
    · obtain ⟨ht, h⟩ := hto p ((mine p).mp hr)
      rw [self, hport]
      rcases h with h | ⟨h, hp⟩
      · obtain ⟨hlt, hb, -, hp⟩ := J.held r p h
        exact ⟨hlt, hb, ht, hp⟩
      · obtain ⟨hlt, hb, -⟩ := J.taken p h
        exact ⟨hlt, hb, ht, hp⟩
    · rw [other r hne]
      exact J.held r p ((refers r p hne).mp hr)
  · obtain ⟨h, hn⟩ := hloose p hp
    have known : p < w.procs.spawned ∧ p ∉ w.procs.begun := by
      rcases h with h | h
      · exact ⟨(J.held e p h).1, (J.held e p h).2.1⟩
      · exact ⟨(J.taken p h).1, (J.taken p h).2.1⟩
    refine ⟨known.1, known.2, fun r hr => ?_⟩
    rcases eq_or_ne r e with rfl | hne
    · exact hn ((mine p).mp hr)
    · rw [refers r p hne] at hr
      rcases h with h | h
      · exact hne (J.sole r e p hr h)
      · exact (J.taken p h).2.2 r hr
  · have mine' : w.refers e p ∨ o = some p → w'.accounted p := fun h =>
      (hfrom p h).elim (fun h => .inl ⟨e, (mine p).mpr h⟩) fun h => absurd h ho
    by_cases hop : o = some p
    · exact mine' (.inr hop)
    · rcases J.accounted p hp hop with ⟨r, hr⟩ | h
      · rcases eq_or_ne r e with rfl | hne
        · exact mine' (.inl hr)
        · exact .inl ⟨r, (refers r p hne).mpr hr⟩
      · exact .inr h
  · rw [seat] at hu
    obtain ⟨hl, hg⟩ := J.waiting r u hu hs hn
    have hut : u ≠ t := by
      rintro rfl
      cases K.started.symm.trans hs
    have hne : r ≠ e := spared r u hu hut hn hl
    rw [World.loading, other r hne]
    exact ⟨hl, hg⟩
  · obtain ⟨v, hv, hd⟩ := J.orphan u hu r hk
    exact ⟨v, (seat r).trans hv, hd⟩
  · have hne : r ≠ e := spared r u hu (fun h => hn (congrArg some h.symm)) hd hl
    rw [World.loading, other r hne]
    exact ⟨hl, rfl⟩

/-- What has exited by itself need not be reaped. -/
theorem Keeper.letGo {p : Nat} (K : Keeper t (some p) s w) (hp : w.isAlive p = false) :
    Keeper t none s w where
  before := K.before
  custody :=
    { K.custody with
      taken := (by rintro _ ⟨⟩)
      accounted := fun q hq _ => by
        rcases eq_or_ne q p with rfl | hne
        · exact .inr (.inr ⟨(K.custody.taken q rfl).2.1, hp⟩)
        · exact K.custody.accounted q hq fun h => hne (Option.some.inj h).symm }
  handover := K.handover
  lt := K.lt
  started := K.started
  undone := K.undone
  free := K.free

/-- A claim empties the hands of the resident. -/
theorem Keeper.claim {e : Nat} {f : Resident → Resident} (K : Keeper t none s w)
    (hm : MayEnd t (some e) w) (he : e < w.residentCount)
    (hkeep : ∀ x : Resident, (f x).tasks = x.tasks ∧ (f x).driverTask = x.driverTask)
    (hport : ∀ x : Resident, (f x).port = x.port) (hstate : ∀ x : Resident, (f x).state = x.state)
    (hempty : ∀ x : Resident, (f x).handle = none ∧ (f x).bootingPid = none) :
    Keeper t ((w.resident e).handle <|> (w.resident e).bootingPid) s (w.setResident e f) := by
  have none : ∀ p, ¬(f (w.resident e)).grip.holds p := by
    rintro p (h | h)
    · cases (hempty _).1.symm.trans h
    · cases (hempty _).2.symm.trans h
  have held : ∀ p, w.refers e p ↔
      ((w.resident e).handle <|> (w.resident e).bootingPid) = some p := by
    intro p
    rw [World.refers]
    rcases K.custody.single e with h | h
    · simp [Grip.holds, Resident.grip, h]
    · simp [Grip.holds, Resident.grip, h]
  refine K.regrip hm he hkeep hport (fun h => by rwa [hstate]) (.inl (hempty _).1)
    (fun p h => absurd h (none p)) (fun p h => ?_) fun p h => ⟨.inl ((held p).mpr h), none p⟩
  rcases h with h | h
  · exact .inr ((held p).mp h)
  · cases h

/-- Reaping what a claim has taken. -/
theorem wp_reapClaimed {L : World → Prop} {Q : Post sig Unit} {h b : Option Nat}
    (hL : Lasting t d L) (K : Keeper t (h <|> b) s w) (hone : h = none ∨ b = none) (hl : L w)
    (hq : ∀ r s w, Keeper t none s w ∧ L w → Q r s w) :
    wp (custody C) t (reapClaimed h b) Q s w := by
  rw [reapClaimed, wp_gets_bind]
  cases h with
  | none =>
      cases b with
      | none => exact hq _ _ _ ⟨K, hl⟩
      | some p => exact wp_reap rfl hL K hl hq
  | some p =>
      obtain rfl : b = none := hone.resolve_left (by rintro ⟨⟩)
      cases ha : w.isAlive p with
      | true =>
          simp only [Option.any_some, ha]
          exact wp_reap rfl hL K hl hq
      | false =>
          simp only [Option.any_some, ha]
          exact hq _ _ _ ⟨K.letGo ha, hl⟩

end Turbohaul
