/-
# `PortReserve` — the dispatcher's reservation

`_alloc_port` finds a port that no registered resident holds as long as fewer
than 100 are registered; the condition `freshPorts` says that no unreaped
sidecar is on it.  The resident that is reserved under the tag replaces no
loading one, since the tag had no live resident.
-/
import Turbohaul.PortSpawn
import Mathlib.Data.List.Nodup
import Mathlib.Data.List.Perm.Subperm

namespace Turbohaul

open Coop

variable {C : Config}

/-! ## The port that is given out -/

theorem allocPort_spec {w : World} (h : w.registry.length < 100) :
    allocPort C w ∉ w.heldPorts ∧ C.defaultPortBase ≤ allocPort C w ∧
      ∀ b, C.defaultPortBase ≤ b → b < allocPort C w → b ∈ w.heldPorts := by
  have he : allocPort C w = ((List.range' C.defaultPortBase 100).find? fun p =>
      p ∉ w.heldPorts).getD C.defaultPortBase := rfl
  cases hf : (List.range' C.defaultPortBase 100).find? fun p => p ∉ w.heldPorts with
  | none =>
      -- a hundred ports do not fit on fewer residents
      have hsub : List.range' C.defaultPortBase 100 ⊆ w.heldPorts := by
        intro p hp
        simpa using List.find?_eq_none.mp hf p hp
      have hlen := (List.nodup_range' (s := C.defaultPortBase) (n := 100)).subperm hsub |>.length_le
      have hheld : w.heldPorts.length ≤ w.registry.length := List.length_filterMap_le _ _
      simp only [List.length_range'] at hlen
      omega
  | some a =>
      rw [he, hf, Option.getD_some]
      obtain ⟨hp, hm, hl⟩ := List.find?_range'_eq_some.mp hf
      refine ⟨by simpa using hp, (List.mem_range'_1.mp hm).1, fun b hb hlt => ?_⟩
      simpa using hl b hb hlt

/-- No unreaped sidecar is on it, when none is exposed. -/
theorem allocPort_free {w : World} (h : w.registry.length < 100)
    (hx : ((List.range w.procs.spawned).all fun q => !w.exposed C q) = true) (q : Nat)
    (hq : w.undead q) : (w.procs.proc q).port ≠ allocPort C w := by
  intro hp
  obtain ⟨hn, hb, hl⟩ := allocPort_spec (C := C) h
  have hne := List.all_eq_true.mp hx q (List.mem_range.mpr hq.1)
  rw [Bool.not_eq_true', ← Bool.not_eq_true] at hne
  refine hne ?_
  simp only [World.exposed, hp, hq.2, Bool.not_false, Bool.true_and, Bool.and_eq_true,
    decide_eq_true_eq, List.all_eq_true]
  refine ⟨⟨hn, hb⟩, fun b hm => ?_⟩
  obtain ⟨h₁, h₂⟩ := List.mem_range'_1.mp hm
  exact hl b h₁ (by omega)

/-! ## The reservation -/

/-- No resident under the tag is loading. -/
def NoneLoading (tag : String) (w : World) : Prop :=
  ∀ r, (tag, r) ∈ w.registry → w.loading r = false

theorem Steady.noneLoading {r : Option Nat} {tag : String} {w w' : World} (h : Steady r w w')
    (hl : NoneLoading tag w) : NoneLoading tag w' :=
  fun d hd => h.loaded d (hl d (h.registered _ hd))

section Reserve

variable {w : World} {tag : String} {x : Resident} {a : Nat}

theorem reserve_new : (w.reserve tag x).resident w.residentCount =
    { x with driverTask := some w.taskCount } := setAt_self _ _ _

theorem reserve_old {d : Nat} (h : d ≠ w.residentCount) :
    (w.reserve tag x).resident d = w.resident d := setAt_of_ne h

theorem reserve_task {t : Nat} (h : t ≠ w.taskCount) : (w.reserve tag x).task t = w.task t :=
  setAt_of_ne h

theorem reserve_newTask : (w.reserve tag x).task w.taskCount =
    { kind := .driver w.residentCount } := setAt_self _ _ _

theorem mem_reserve {e : String × Nat} : e ∈ (w.reserve tag x).registry ↔
    (e ∈ w.registry ∧ e.1 ≠ tag) ∨ e = (tag, w.residentCount) := by
  simp [World.reserve]

/-- A loading resident keeps its place. -/
theorem pristine_reserve (P : Ports w) (hl : NoneLoading tag w) {d : Nat} (hd : w.pristine d) :
    (w.reserve tag x).pristine d := by
  obtain ⟨⟨key, hk⟩, hld, b, hb, hfree⟩ := hd
  have ho : d ≠ w.residentCount := Nat.ne_of_lt (P.listed _ hk)
  refine ⟨⟨key, mem_reserve.mpr (.inl ⟨hk, ?_⟩)⟩, ?_, b, ?_, hfree⟩
  · rintro rfl
    cases (hl d hk).symm.trans hld
  · rw [World.loading, reserve_old ho]
    exact hld
  · rw [reserve_old ho]
    exact hb

/-- The new resident is pristine. -/
theorem pristine_reserve_new (hx : x.port = some a) (hs : x.state = .reservedLoading)
    (hfree : ∀ q, w.undead q → (w.procs.proc q).port ≠ a) :
    (w.reserve tag x).pristine w.residentCount := by
  refine ⟨⟨tag, mem_reserve.mpr (.inr rfl)⟩, ?_, a, ?_, hfree⟩
  · simp [World.loading, reserve_new, hs]
  · rw [reserve_new]
    exact hx

theorem tame_reserve (T : Tame w) (ht : x.tasks = []) : Tame (w.reserve tag x) := by
  have old : ∀ t < w.taskCount, (w.reserve tag x).task t = w.task t := fun t h =>
    reserve_task (Nat.ne_of_lt h)
  refine
    { riders := fun e he => ?_
      inFlight := fun d e he => ?_
      drivers := fun d t hd => ?_
      cancel := fun t hc => ?_
      worker := ⟨Nat.succ_pos _, by rw [old workerTask T.worker.1]; exact T.worker.2⟩
      onlyWorker := fun t hlt hk => ?_ }
  · have h := T.riders e he
    exact ⟨Nat.lt_succ_of_lt h.1, by rw [old _ h.1]; exact h.2⟩
  · by_cases hd : d = w.residentCount
    · subst hd
      rw [reserve_new] at he
      simp [ht] at he
    · rw [reserve_old hd] at he
      have h := T.inFlight d e he
      exact ⟨Nat.lt_succ_of_lt h.1, by rw [old _ h.1]; exact h.2⟩
  · by_cases h : d = w.residentCount
    · subst h
      rw [reserve_new] at hd
      cases hd
      exact ⟨Nat.lt_succ_self _, by rw [reserve_newTask]⟩
    · rw [reserve_old h] at hd
      have h := T.drivers d t hd
      exact ⟨Nat.lt_succ_of_lt h.1, by rw [old _ h.1]; exact h.2⟩
  · by_cases h : t = w.taskCount
    · subst h
      rw [reserve_newTask] at hc
      cases hc
    · rw [reserve_task h] at hc ⊢
      exact T.cancel t hc
  · by_cases h : t = w.taskCount
    · subst h
      rw [reserve_newTask] at hk
      cases hk
    · rw [reserve_task h] at hk
      exact T.onlyWorker t (by change t < w.taskCount + 1 at hlt; omega) hk

theorem ports_reserve (P : Ports w) (hl : NoneLoading tag w) (hx : x.port = some a)
    (hs : x.state = .reservedLoading) (ht : x.tasks = []) (hheld : a ∉ w.heldPorts)
    (hfree : ∀ q, w.undead q → (w.procs.proc q).port ≠ a) : Ports (w.reserve tag x) := by
  have old : ∀ t < w.taskCount, (w.reserve tag x).task t = w.task t := fun t h =>
    reserve_task (Nat.ne_of_lt h)
  have listed : ∀ e ∈ w.registry, e.2 ≠ w.residentCount := fun e he =>
    Nat.ne_of_lt (P.listed e he)
  have other : ∀ e ∈ w.registry, ((w.reserve tag x).resident e.2).port ≠ some a := by
    intro e he hp
    rw [reserve_old (listed e he)] at hp
    exact hheld (List.mem_filterMap.mpr ⟨e, he, hp⟩)
  have new : ((w.reserve tag x).resident w.residentCount).port = some a := by
    rw [reserve_new]
    exact hx
  refine
    { tame := tame_reserve P.tame ht
      drivers := fun t hlt d hk => ?_
      listed := fun e he => ?_
      unborn := fun d hd => ?_
      keyed := fun e he e' he' hke => ?_
      apart := fun e he e' he' b hb hb' => ?_
      distinct := P.distinct
      waiting := fun d u hu hst hn => ?_
      orphan := fun u hlt d hk => ?_ }
  · by_cases h : t = w.taskCount
    · subst h
      rw [reserve_newTask] at hk
      cases hk
      rw [reserve_new]
    · rw [reserve_task h] at hk
      have hd := P.drivers t (by change t < w.taskCount + 1 at hlt; omega) d hk
      rw [reserve_old (Nat.ne_of_lt (P.driven hd).1)]
      exact hd
  · rcases mem_reserve.mp he with ⟨h, -⟩ | rfl
    · exact Nat.lt_succ_of_lt (P.listed e h)
    · exact Nat.lt_succ_self _
  · change w.residentCount + 1 ≤ d at hd
    rw [reserve_old (by omega)]
    exact P.unborn d (by omega)
  · rcases mem_reserve.mp he with ⟨h, hne⟩ | rfl <;> rcases mem_reserve.mp he' with ⟨h', hne'⟩ | rfl
    · exact P.keyed e h e' h' hke
    · exact absurd hke hne
    · exact absurd hke.symm hne'
    · rfl
  · rcases mem_reserve.mp he with ⟨h, -⟩ | rfl <;> rcases mem_reserve.mp he' with ⟨h', -⟩ | rfl
    · rw [reserve_old (listed e h)] at hb
      rw [reserve_old (listed e' h')] at hb'
      exact P.apart e h e' h' b hb hb'
    · rw [new] at hb'
      cases hb'
      exact absurd hb (other e h)
    · rw [new] at hb
      cases hb
      exact absurd hb' (other e' h')
    · rfl
  · by_cases h : d = w.residentCount
    · subst h
      exact pristine_reserve_new hx hs hfree
    · rw [reserve_old h] at hu
      have hlt := (P.driven hu).2
      rw [old u hlt] at hst
      rw [World.taskDone, old u hlt] at hn
      exact pristine_reserve P hl (P.waiting d u hu hst hn)
  · by_cases h : u = w.taskCount
    · subst h
      rw [reserve_newTask] at hk
      cases hk
    · rw [reserve_task h] at hk
      obtain ⟨t', ht', hd⟩ := P.orphan u (by change u < w.taskCount + 1 at hlt; omega) d hk
      obtain ⟨hd', ht''⟩ := P.driven ht'
      exact ⟨t', by rw [reserve_old (Nat.ne_of_lt hd')]; exact ht', by
        rw [World.taskDone, old t' ht'']; exact hd⟩

theorem step_reserve (u : Option Nat) (P : Ports w) (hl : NoneLoading tag w) :
    PortStep u w (w.reserve tag x) where
  count := Nat.le_succ _
  kind := fun t h => by rw [reserve_task (Nat.ne_of_lt h)]
  started := fun t h hs => by rwa [reserve_task (Nat.ne_of_lt h)]
  outcome := fun t h _ => by rw [reserve_task (Nat.ne_of_lt h)]
  residents := Nat.le_succ _
  seat := fun d h => by rw [reserve_old (Nat.ne_of_lt h)]
  loading := fun d h hd => by rwa [World.loading, reserve_old (Nat.ne_of_lt h)]
  pristine := fun _ _ _ _ _ hp => pristine_reserve P hl hp

/-- The reservation of a running task. -/
theorem Aboard.reserve {t : Nat} {s : World} (A : Aboard t s w) (hl : NoneLoading tag w)
    (hx : x.port = some a) (hs : x.state = .reservedLoading) (ht : x.tasks = [])
    (hheld : a ∉ w.heldPorts) (hfree : ∀ q, w.undead q → (w.procs.proc q).port ≠ a) :
    Aboard t s (w.reserve tag x) where
  before := A.before
  ports := ports_reserve A.ports hl hx hs ht hheld hfree
  step := A.step.trans A.before (step_reserve _ A.ports hl)
  lt := Nat.lt_succ_of_lt A.lt
  started := by
    rw [reserve_task (Nat.ne_of_lt A.lt)]
    exact A.started
  undone := by
    rw [World.taskDone, reserve_task (Nat.ne_of_lt A.lt)]
    exact A.undone

end Reserve

/-! ## The dispatcher -/

/-- `_read_model_footprint` only reads. -/
theorem wp_readModelFootprint {P : Outline (system C)} {t : Nat} {tag : String}
    {Q : Post sig Footprint} {s w : World} (h : ∀ r, Q r s w) :
    wp P t (readModelFootprint tag) Q s w := by
  intro r _ _
  match r with
  | .manifest m => exact h _
  | .raised .fileNotFound => exact h _
  | .raised (.injected n) => exact h _
  | .raised (.invalidTransition _ _ _) | .raised (.slotEvicted _) | .raised (.queueClosed _)
  | .raised (.queueFull _) | .raised (.runtime _) | .raised (.cancelledError _)
  | .raised (.assertion _) | .raised .timeout => exact h _
  | .ok | .cancelled | .timeout | .time _ | .mib _ | .handle _ | .killed _ | .healthy _
  | .gates _ | .completion _ | .item _ | .done _ => exact h _

/-- `_vram_admits_locked` only reads, and admits no model that shares a card. -/
theorem wp_vramAdmits {P : Outline (system C)} {t : Nat} {fp : Footprint}
    {Q : Post sig Bool} {s w : World} (h : ∀ r, (r = .ok true → w.isolated fp = true) → Q r s w) :
    wp P t (vramAdmits fp) Q s w := by
  rw [vramAdmits, wp_gets_bind]
  split
  · exact h _ (by rintro ⟨⟩)
  · next hi =>
      have hi : w.isolated fp = true := by simpa using hi
      intro r _ _
      cases r with
      | mib free => cases free <;> exact h _ fun _ => hi
      | raised e => exact h _ fun _ => hi
      | cancelled => exact h _ fun _ => hi
      | _ => exact h _ fun _ => hi

theorem wp_reserveAndStart {t sl : Nat} {s w : World} (A : Aboard t s w)
    (hl : NoneLoading (w.slot sl).modelTag w) :
    wp (ports C) t (reserveAndStart C sl) (fun _ s w => Aboard t s w) s w := by
  have F := frames_berth (C := C) (fixed_true t none)
  rw [reserveAndStart, wp_gets_bind]
  refine wp_readModelFootprint fun r => ?_
  cases r with
  | error e => exact A
  | ok fp =>
    refine wp_vramAdmits fun r _ => ?_
    cases r with
    | error e => exact A
    | ok admits =>
      show wp (ports C) t (if admits = true then _ else _) _ s w
      split
      · -- the condition is read off the mark, and nothing runs before the reservation
        intro r hr hc
        cases r with
        | ok =>
            obtain ⟨hlen, hx⟩ := Bool.and_eq_true_iff.mp hc
            have hlen := of_decide_eq_true hlen
            intro r hr _
            cases r with
            | time now =>
                have free := allocPort_free hlen hx
                have hs : Steady none w
                    { w.record (.marked (.reserving sl)) with clock := now } :=
                  steady_same rfl rfl rfl rfl rfl rfl rfl (fun _ => rfl) (fun _ h => h) A.ports.tame
                have A' := hs.aboard (t := t) (by rintro _ ⟨⟩) A
                exact A'.reserve hl rfl rfl rfl (allocPort_spec hlen).1 free
            | _ => cases hr
        | _ => cases hr
      · exact wp_mono (fun _ _ _ H => H.1)
          (F.keeps ((isQuiet_failCompletionFuture _ sl _).steady none) s w A.plain)

/-! ## Routing -/

theorem firstBy_mem {before : Nat → Nat → Bool} {x : Nat} :
    ∀ {xs : List Nat}, World.firstBy before xs = some x → x ∈ xs
  | y :: ys, h => by
      rw [World.firstBy] at h
      cases hf : World.firstBy before ys with
      | none =>
          rw [hf] at h
          cases h
          exact List.mem_cons_self
      | some z =>
          simp only [hf, Option.some.injEq] at h
          split at h
          · rw [← h]
            exact List.mem_cons_of_mem _ (firstBy_mem hf)
          · rw [← h]
            exact List.mem_cons_self

/-- The victim of an eviction is registered and has come up. -/
theorem lruIdleEvictable_spec {w : World} {v : Nat} (h : w.lruIdleEvictable = some v) :
    (∃ tag, (tag, v) ∈ w.registry) ∧ w.loading v = false := by
  have hm := List.mem_filter.mp (firstBy_mem h)
  obtain ⟨e, he, rfl⟩ := List.mem_map.mp hm.1
  have hs : (w.resident e.2).state = .idleEvictable := by
    have := hm.2
    simp only [Bool.and_eq_true, decide_eq_true_eq] at this
    exact this.1.1
  refine ⟨⟨e.1, (List.mem_filter.mp he).1⟩, ?_⟩
  simp [World.loading, hs]

/-- A tag without a live resident has no loading one. -/
theorem noneLoading_of_noLive {w : World} (P : Ports w) {tag : String}
    (h : w.liveResidentFor tag = none) : NoneLoading tag w := by
  intro r hr
  cases hk : w.registry.lookup tag with
  | none => exact absurd (List.lookup_eq_none_iff.mp hk _ hr) (by simp)
  | some d =>
      have hd := P.keyed _ hr _ (mem_of_lookup hk) rfl
      cases hd
      simp only [World.liveResidentFor, hk, Option.filter_eq_none_iff, Option.some.injEq,
        forall_eq', decide_eq_true_eq, not_not] at h
      simp [World.loading, h]

/-- An eviction makes no resident loading and renames no slot. -/
theorem frames_evict {P : Outline (system C)} {t : Nat} (r : Option Nat) (sl : Nat) :
    Frames P t (fun _ w => Tame w ∧ NoneLoading (w.slot sl).modelTag w)
      (fun w w' => Steadily r w w' ∧ w'.slot = w.slot) (fun _ => False) where
  act := fun h hl => ⟨(h.1 hl.1).tame, by rw [h.2]; exact (h.1 hl.1).noneLoading hl.2⟩
  ask := fun _ => False.elim
  await := fun _ => False.elim

theorem only_beginEvictLocked (d : Nat) :
    Only (S := sig) (fun w w' => Steadily (some d) w w' ∧ w'.slot = w.slot) (fun _ => False)
      (beginEvictLocked d) := by
  have slots : Only (S := sig) (fun w w' => w'.slot = w.slot) (fun _ => False)
      (beginEvictLocked d) :=
    ⟨fun _ => rfl, fun _ => ⟨only_when.mpr fun _ _ => rfl, fun _ =>
      only_when.mpr fun _ => ⟨fun _ => rfl, fun _ => ⟨fun _ => rfl, fun _ _ => rfl⟩⟩⟩⟩
  exact ((isSteady_beginEvictLocked d).and slots).mono (fun _ _ h => h) fun _ h => h.2

theorem wp_routeOrReserve {t sl : Nat} {s w : World} (A : Aboard t s w) :
    wp (ports C) t (routeOrReserve C sl) (fun _ s w => Aboard t s w) s w := by
  have F := frames_berth (C := C) (fixed_true t none)
  have quiet : ∀ {m : Prog Unit}, IsQuiet m → wp (ports C) t m (fun _ s w => Aboard t s w) s w :=
    fun hm => wp_mono (fun _ _ _ H => H.1) (F.keeps (hm.steady none) s w A.plain)
  rw [routeOrReserve, wp_gets_bind]
  cases hlive : w.liveResidentFor (w.slot sl).modelTag with
  | some r => exact quiet (calm_routeHit r sl)
  | none =>
    have hl := noneLoading_of_noLive A.ports hlive
    dsimp only
    split
    · cases hv : w.lruIdleEvictable with
      | none => exact quiet (calm_deferUnroutable sl)
      | some v =>
          obtain ⟨⟨tag, hreg⟩, hup⟩ := lruIdleEvictable_spec hv
          have H : Berth t (some v) (fun _ => True) s w := by
            refine ⟨A, fun d hd => ?_, fun d hd => ?_, trivial⟩
            · cases hd
              exact A.ports.listed _ hreg
            · cases hd
              exact .inr (.inl hup)
          refine wp_seq (wp_and ((frames_berth (fixed_true t (some v))).keeps
            (isSteady_beginEvictLocked v) s w H) ((frames_evict (some v) sl).keeps
            (only_beginEvictLocked v) s w ⟨A.ports.tame, hl⟩)) (fun _ s' w' H' => ?_)
            fun _ _ _ H' => H'.1.1
          exact wp_reserveAndStart H'.1.1 H'.2.2
    · exact wp_reserveAndStart A hl

end Turbohaul
