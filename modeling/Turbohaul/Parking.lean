/-
# `Parking` — slots that are parked beside a warm sidecar

At cap 1 three places of the worker park a slot that carries the pid of the warm
sidecar and is not the anchor: the promotion of a follow-up or of a rider whose state
has drifted, and the end of a rider.  All three call `_force_cold`, which tells from
the pid, the rider set and the active slot whether the slot owns the sidecar.

    riders       lose their pid before the call
    follow-ups   are made the active slot before it

So `_force_cold` takes a drifted follow-up for the owner of the sidecar it was to be
served on.
-/
import Turbohaul.Coop.Episode
import Turbohaul.SingleWorker

namespace Turbohaul

open Coop

/-- The callers of `_force_cold` that park a slot beside its anchor. -/
inductive Parking where
  | followUpDrift
  | riderDrift
  | riderDrained
deriving DecidableEq, Repr

/-- What the caller runs for the slot `s`, beside the anchor on the sidecar `pid`. -/
def Parking.program (anchor pid s : Nat) : Parking → Prog Unit
  | .followUpDrift => do
      let _ ← promoteFollowUp anchor s pid
  | .riderDrift => do
      let _ ← promoteRider s pid
  | .riderDrained => parkRider anchor s

/-- The state from which the caller cannot promote the slot. -/
def Parking.Drifted : Parking → SlotState → Prop
  | .followUpDrift, x => .activeMatch ∉ legalTransitions x
  | .riderDrift, x => .loading ∉ legalTransitions x
  | .riderDrained, _ => True

/-- What the other tasks leave alone while a slot is parked: the active handle, and the
slot's state and row. -/
structure LeavesParked (s : Nat) (w w' : World) : Prop where
  activeHandle : w'.hold.activeHandle = w.hold.activeHandle
  state : (w'.slot s).state = (w.slot s).state
  row : w'.rows s = w.rows s

theorem LeavesParked.refl (s : Nat) (w : World) : LeavesParked s w w := ⟨rfl, rfl, rfl⟩

theorem LeavesParked.trans {s : Nat} {w w₁ w₂ : World} (h : LeavesParked s w w₁)
    (h' : LeavesParked s w₁ w₂) : LeavesParked s w w₂ :=
  ⟨h'.activeHandle.trans h.activeHandle, h'.state.trans h.state, h'.row.trans h.row⟩

/-- A sidecar that is warm for the anchor, and another slot. -/
structure WarmBeside (anchor pid s : Nat) (w : World) : Prop where
  handle : w.hold.activeHandle = some pid
  active : w.hold.activeSlot = some anchor
  other : s ≠ anchor

/-- No write of the slot's row has failed. -/
def RowWritten (s : Nat) (os : List (Op × Reply)) : Prop :=
  ∀ reason e, (Op.markSlotEnded s reason, Reply.raised e) ∉ os

/-- The sidecar got no signal and is still the active handle, and the slot is cold in
memory and in its row. -/
structure Spared (pid s : Nat) (os : List (Op × Reply)) (w' : World) : Prop where
  unsignalled : ∀ o x, (o, x) ∈ os → ¬ o.reaps pid
  handle : w'.hold.activeHandle = some pid
  memory : (w'.slot s).state = .cold
  row : ∃ reason, w'.rows s = some { state := .cold, ended := some reason }

/-- However the calls are answered, and whatever the other tasks do meanwhile, the
slot is parked and the sidecar is spared. -/
def SparesSidecar (C : Config) (t anchor pid s : Nat) (c : Parking) (w : World) : Prop :=
  ∀ os r w', Episode (system C) (LeavesParked s) t (c.program anchor pid s) w os r w' →
    RowWritten s os → Spared pid s os w'

variable {C : Config} {t : Nat} {w w' : World} {os : List (Op × Reply)}

section

variable {E : World → World → Prop}

/-! ## The episodes of the statements -/

/-- A statement that raises at once is its handler. -/
theorem episode_tryExcept_raised {α : Type} {m : Prog α} {h : Err → Prog α} {e : Err} {w₁ : World}
    {r : Res sig α} (hm : m.run w = .done (.error (.raised e)) w₁) :
    Episode (system C) E t (Co.tryExcept m h) w os r w' ↔
      Episode (system C) E t (h e) w₁ os r w' := by
  have hrun : (Co.attempt m).run w = .done (.ok (.error (.raised e))) w₁ := by rw [Co.run, hm]
  refine episode_bind.trans ⟨?_, fun hh => ?_⟩
  · rintro (⟨os₁, os₂, a, w₂, rfl, h₁, h₂⟩ | ⟨x, rfl, h₁⟩)
    · obtain ⟨rfl, ha, rfl⟩ := (episode_of_done hrun).mp h₁
      obtain rfl := Except.ok.inj ha
      exact h₂
    · cases ((episode_of_done hrun).mp h₁).2.1
  · exact .inl ⟨[], os, _, w₁, rfl, (episode_of_done hrun).mpr ⟨rfl, rfl, rfl⟩, hh⟩

/-- A call, and what it raises. -/
theorem episode_run {o : Op} {r : Res sig Unit} (h : Episode (system C) E t (run o) w os r w') :
    ∃ x, allowed t o x w = true ∧ os = [(o, x)] ∧ w' = answer t o x w ∧
      ∀ e, r = .error e → ∃ e', x = .raised e' := by
  rw [run, episode_bind] at h
  rcases h with ⟨os₁, os₂, a, w₁, rfl, h₁, h₂⟩ | ⟨e, -, h₁⟩
  · obtain ⟨x, hx, rfl, hr, rfl⟩ := episode_ask.mp h₁
    obtain rfl := Except.ok.inj hr
    refine ⟨a, hx, ?_⟩
    cases a with
    | raised e =>
      obtain ⟨rfl, -, rfl⟩ := episode_throw.mp h₂
      exact ⟨rfl, rfl, fun _ _ => ⟨e, rfl⟩⟩
    | _ =>
      obtain ⟨rfl, rfl, rfl⟩ := episode_pure.mp h₂
      exact ⟨rfl, rfl, (by rintro _ ⟨⟩)⟩
  · obtain ⟨x, -, -, hr, -⟩ := episode_ask.mp h₁
    cases hr

/-- A suspension, however it is answered. -/
theorem episode_sync {o : Op} {r : Res sig Unit} (h : Episode (system C) E t (sync o) w os r w') :
    ∃ x w₂, E (issue t o w) w₂ ∧ os = [(o, x)] ∧ w' = answer t o x w₂ := by
  rw [sync, episode_bind] at h
  rcases h with ⟨os₁, os₂, a, w₁, rfl, h₁, h₂⟩ | ⟨e, -, h₁⟩
  · obtain ⟨x, w₂, he, -, rfl, hr, rfl⟩ := episode_await.mp h₁
    obtain rfl := Except.ok.inj hr
    refine ⟨a, w₂, he, ?_⟩
    cases a with
    | raised | cancelled | timeout =>
      obtain ⟨rfl, -, rfl⟩ := episode_throw.mp h₂
      exact ⟨rfl, rfl⟩
    | _ =>
      obtain ⟨rfl, -, rfl⟩ := episode_pure.mp h₂
      exact ⟨rfl, rfl⟩
  · obtain ⟨x, w₂, -, -, -, hr, -⟩ := episode_await.mp h₁
    cases hr

/-- What the first half of a sequence calls is called. -/
theorem episode_bind_calls {α β : Type} {m : Prog α} {k : α → Prog β} {o : Op} {r : Res sig β}
    (hm : ∀ os r w', Episode (system C) E t m w os r w' → ∃ x, (o, x) ∈ os)
    (h : Episode (system C) E t (m >>= k) w os r w') : ∃ x, (o, x) ∈ os := by
  rcases episode_bind.mp h with ⟨os₁, os₂, a, w₁, rfl, h₁, h₂⟩ | ⟨e, rfl, h₁⟩
  · obtain ⟨x, hx⟩ := hm _ _ _ h₁
    exact ⟨x, List.mem_append_left _ hx⟩
  · exact hm _ _ _ h₁

end

/-! ## `_force_cold` of a slot that does not own the sidecar -/

/-- `_force_cold` after its `if`. -/
def parkCold (s : Nat) (reason : String) : Prog Unit := do
  onSlot s fun x =>
    if isTerminal x.state then x else { x with state := walkToCold 4 x.state }
  markSlotEnded s reason
  auditEventOnlyAsync (some s) "force_cold"

theorem episode_forceCold {E : World → World → Prop} {s : Nat} {reason : String} {r : Res sig Unit}
    (hown : w.ownsActive s = false) :
    Episode (system C) E t (forceCold s reason) w os r w' ↔
      Episode (system C) E t (parkCold s reason) w os r w' := by
  have hreap {os : List (Op × Reply)} {r : Res sig Unit} {w' : World} :
      Episode (system C) E t (reapOwned s) w os r w' ↔ os = [] ∧ r = .ok () ∧ w' = w := by
    rw [reapOwned, episode_gets_bind, hown]
    exact episode_pure
  rw [forceCold, episode_bind]
  constructor
  · rintro (⟨os₁, os₂, a, w₁, rfl, h₁, h₂⟩ | ⟨e, -, h₁⟩)
    · obtain ⟨rfl, -, rfl⟩ := hreap.mp h₁
      exact h₂
    · cases (hreap.mp h₁).2.1
  · intro h
    exact .inl ⟨[], os, (), w, rfl, hreap.mpr ⟨rfl, rfl, rfl⟩, h⟩

theorem eq_cold_of_isTerminal {x : SlotState} (h : isTerminal x = true) : x = .cold := by
  cases x <;> first | rfl | cases h

theorem leavesParked_delivered (s : Nat) (o : Op) (w : World) :
    LeavesParked s w (w.delivered t o) := by
  unfold World.delivered
  split
  · exact ⟨rfl, rfl, rfl⟩
  · split
    · exact ⟨rfl, rfl, rfl⟩
    · exact .refl s w

/-- The event is audited, and the slot is left alone meanwhile. -/
theorem leavesParked_audit {s : Nat} {i : Option Nat} {event : String} {r : Res sig Unit}
    (h : Episode (system C) (LeavesParked s) t (auditEventOnlyAsync i event) w os r w') :
    LeavesParked s w w' ∧ ∃ x, os = [(.auditEventOnly i event, x)] := by
  obtain ⟨x, w₂, he, rfl, rfl⟩ := episode_sync h
  have heffect : effect t (.auditEventOnly i event) x w₂ = w₂ := by cases x <;> rfl
  refine ⟨?_, x, rfl⟩
  rw [answer, heffect]
  exact LeavesParked.trans he (leavesParked_delivered s _ w₂)

/-- Parked so, the slot is cold, and no sidecar is signalled. -/
theorem parkCold_spares {pid s : Nat} {reason : String} {r : Res sig Unit}
    (hh : w.hold.activeHandle = some pid) (hrow : (w.rows s).isSome = true)
    (h : Episode (system C) (LeavesParked s) t (parkCold s reason) w os r w')
    (hwrite : RowWritten s os) : Spared pid s os w' := by
  rw [parkCold, onSlot, episode_modify_bind] at h
  set w₁ := w.setSlot s fun x =>
    if isTerminal x.state then x else { x with state := walkToCold 4 x.state } with hw₁
  have hcold : (w₁.slot s).state = .cold := by
    simp only [hw₁, World.setSlot, setAt_self]
    split
    · next ht => exact eq_cold_of_isTerminal ht
    · exact walkToCold_eq _
  rcases episode_bind.mp h with ⟨os₁, os₂, a, w₂, rfl, h₁, h₂⟩ | ⟨e, rfl, h₁⟩
  · obtain ⟨x, hx, rfl, rfl, -⟩ := episode_run h₁
    have hok : answer t (.markSlotEnded s reason) x w₁ = w₁.endRow s reason := by
      rw [answer, delivered_call rfl]
      cases x with
      | ok => rfl
      | raised e => exact absurd (List.mem_cons_self ..) (hwrite reason e)
      | _ => cases hx
    obtain ⟨hleft, y, rfl⟩ := leavesParked_audit h₂
    rw [hok] at hleft
    refine ⟨?_, hleft.activeHandle.trans hh, hleft.state.trans hcold, reason, hleft.row.trans ?_⟩
    · intro o z ho
      rcases List.mem_cons.mp ho with ho | ho
      · obtain ⟨rfl, -⟩ := Prod.mk.inj ho
        exact id
      · obtain ⟨rfl, -⟩ := Prod.mk.inj (List.mem_singleton.mp ho)
        exact id
    · obtain ⟨row, hr⟩ := Option.isSome_iff_exists.mp hrow
      have hr₁ : w₁.rows s = some row := hr
      simp only [World.endRow, if_pos, hr₁, Option.map_some]
  · obtain ⟨x, -, rfl, -, hr⟩ := episode_run h₁
    obtain ⟨e', rfl⟩ := hr e rfl
    exact absurd (List.mem_singleton.mpr rfl) (hwrite _ _)

/-- A slot without a row has none after it. -/
theorem parkCold_rowless {s : Nat} {reason : String} {r : Res sig Unit} (hrow : w.rows s = none)
    (h : Episode (system C) (LeavesParked s) t (parkCold s reason) w os r w') :
    w'.rows s = none := by
  rw [parkCold, onSlot, episode_modify_bind] at h
  have hended (x : Reply) (w : World) (hw : w.rows s = none) :
      (answer t (.markSlotEnded s reason) x w).rows s = none := by
    rw [answer, delivered_call rfl]
    cases x with
    | ok => simp only [effect, World.endRow, if_pos, hw, Option.map_none]
    | _ => exact hw
  rcases episode_bind.mp h with ⟨os₁, os₂, a, w₂, rfl, h₁, h₂⟩ | ⟨e, rfl, h₁⟩
  · obtain ⟨x, -, -, rfl, -⟩ := episode_run h₁
    exact (leavesParked_audit h₂).1.row.trans (hended x _ hrow)
  · obtain ⟨x, -, -, rfl, -⟩ := episode_run h₁
    exact hended x _ hrow

/-- `_force_cold` of a slot that owns the active handle sends it the signal. -/
theorem forceCold_signals {E : World → World → Prop} {pid s : Nat} {reason : String}
    {r : Res sig Unit} (hh : w.hold.activeHandle = some pid) (hown : w.ownsActive s = true)
    (h : Episode (system C) E t (forceCold s reason) w os r w') :
    ∃ x, (Op.sigterm pid, x) ∈ os := by
  have hreap (os : List (Op × Reply)) (r : Res sig Unit) (w' : World)
      (h : Episode (system C) E t (reapOwned s) w os r w') : ∃ x, (Op.sigterm pid, x) ∈ os := by
    rw [reapOwned, episode_gets_bind, hown, hh] at h
    refine episode_bind_calls (fun os r w' h => ?_) h
    obtain ⟨r₀, -, h⟩ := episode_attempt.mp h
    refine episode_bind_calls (fun os r w' h => ?_) h
    obtain ⟨x, w₂, -, rfl, -⟩ := episode_sync h
    exact ⟨x, List.mem_singleton.mpr rfl⟩
  rw [forceCold] at h
  exact episode_bind_calls hreap h

/-! ## The callers -/

theorem setActiveSlot_hold (s : Option Nat) (w : World) :
    (w.setActiveSlot s).hold = { w.hold with activeSlot := s } := by
  rw [World.setActiveSlot, World.mirror_hold, World.setHold]

theorem setActiveSlot_slot (s : Option Nat) (w : World) : (w.setActiveSlot s).slot = w.slot := by
  unfold World.setActiveSlot World.mirror
  split <;> rfl

theorem setActiveSlot_rows (s : Option Nat) (w : World) : (w.setActiveSlot s).rows = w.rows := by
  unfold World.setActiveSlot World.mirror
  split <;> rfl

theorem Slot.fail_pid (e : Err) (x : Slot) : (x.fail e).pid = x.pid := by
  unfold Slot.fail
  split <;> rfl

/-- `_force_cold` is called for `s` in `w₀`, from `w`: the slot owns the active handle
when it is a follow-up and there is no set of riders. -/
structure AtForceCold (c : Parking) (pid s : Nat) (w w₀ : World) : Prop where
  handle : w₀.hold.activeHandle = some pid
  row : w₀.rows s = w.rows s
  owns : w₀.ownsActive s = true ↔ c = .followUpDrift ∧ ¬ 1 < w.hold.inflight.length

/-- The program comes to `_force_cold`, and ends with it as far as the slot and the
active handle go. -/
def ComesToForceCold (C : Config) (t : Nat) (c : Parking) (pid s : Nat) (w : World)
    (os : List (Op × Reply)) (w' : World) : Prop :=
  ∃ os₀ os₁ reason r w₀ w₁, os = os₀ ++ os₁ ∧ (∀ o x, (o, x) ∈ os₀ → ¬ o.reaps pid) ∧
    AtForceCold c pid s w w₀ ∧
    Episode (system C) (LeavesParked s) t (forceCold s reason) w₀ os₁ r w₁ ∧
    LeavesParked s w₁ w'

/-- A sequence whose second half calls nothing and leaves the slot alone. -/
theorem episode_bind_tail {α β : Type} {s : Nat} {m : Prog α} {k : α → Prog β} {r : Res sig β}
    (hk : ∀ a w os r w', Episode (system C) (LeavesParked s) t (k a) w os r w' →
      os = [] ∧ LeavesParked s w w')
    (h : Episode (system C) (LeavesParked s) t (m >>= k) w os r w') :
    ∃ r' w₁, Episode (system C) (LeavesParked s) t m w os r' w₁ ∧ LeavesParked s w₁ w' := by
  rcases episode_bind.mp h with ⟨os₁, os₂, a, w₁, rfl, h₁, h₂⟩ | ⟨e, rfl, h₁⟩
  · obtain ⟨rfl, hl⟩ := hk _ _ _ _ _ h₂
    exact ⟨.ok a, w₁, by rwa [List.append_nil], hl⟩
  · exact ⟨.error e, w', h₁, .refl s w'⟩

theorem episode_pure_tail {α : Type} {s : Nat} {a : α} {r : Res sig α}
    (h : Episode (system C) (LeavesParked s) t (pure a) w os r w') :
    os = [] ∧ LeavesParked s w w' := by
  obtain ⟨rfl, -, rfl⟩ := episode_pure.mp h
  exact ⟨rfl, .refl s w'⟩

/-- The handlers of the two drifts: the slot's future fails, and it is parked. -/
theorem comesToForceCold_drift {c : Parking} {pid s : Nat} {w₀ : World} {site : FailSite} {e : Err}
    {prior : String} {tail : Prog Bool} {r : Res sig Bool}
    (hat : AtForceCold c pid s w (w₀.setSlot s (Slot.fail e)))
    (htail : ∀ w os r w', Episode (system C) (LeavesParked s) t tail w os r w' →
      os = [] ∧ LeavesParked s w w')
    (h : Episode (system C) (LeavesParked s) t
      (do
        failCompletionFuture site s e
        let x ← Co.gets fun w : World => w.slot s
        forceCold s (prior ++ x.state.value)
        tail) w₀ os r w') :
    ComesToForceCold C t c pid s w os w' := by
  rcases episode_bind.mp h with ⟨os₁, os₂, a, w₁, rfl, h₁, h₂⟩ | ⟨x, rfl, h₁⟩
  · obtain ⟨x, hx, rfl, rfl, -⟩ := episode_run h₁
    obtain rfl : x = .ok := by
      cases x with
      | ok => rfl
      | _ => cases hx
    rw [answer, delivered_call rfl] at h₂
    obtain ⟨r₁, w₂, h₂, hl⟩ := episode_bind_tail (fun _ => htail) (episode_gets_bind.mp h₂)
    refine ⟨_, os₂, _, r₁, _, w₂, rfl, fun o x ho => ?_, hat, h₂, hl⟩
    obtain ⟨rfl, -⟩ := Prod.mk.inj (List.mem_singleton.mp ho)
    exact id
  · obtain ⟨y, hy, -, -, hr⟩ := episode_run h₁
    obtain ⟨e', rfl⟩ := hr x rfl
    cases hy

/-- A transition that is not legal raises. -/
theorem run_transition_raises {s : Nat} {target : SlotState}
    (h : target ∉ legalTransitions (w.slot s).state) :
    (transition s target).run w =
      .done (.error (.raised (.invalidTransition s (w.slot s).state target))) w := by
  simp only [transition, Co.update, Co.run, Slot.transition, h, if_false]

theorem run_bind_raises {α β : Type} {m : Prog α} {k : α → Prog β} {e : Exc Err} {w₁ : World}
    (h : m.run w = .done (.error e) w₁) : (m >>= k).run w = .done (.error e) w₁ := by
  show (Co.bind m k).run w = _
  rw [Co.run, h]

/-- A follow-up is the active slot by then. -/
theorem comesToForceCold_followUp {anchor pid s : Nat} {r : Res sig Bool}
    (hh : w.hold.activeHandle = some pid) (hd : .activeMatch ∉ legalTransitions (w.slot s).state)
    (h : Episode (system C) (LeavesParked s) t (promoteFollowUp anchor s pid) w os r w') :
    ComesToForceCold C t .followUpDrift pid s w os w' := by
  rw [promoteFollowUp, bindSidecar, episode_modify_bind, episode_modify_bind] at h
  set w₀ := (w.setSlot s fun x =>
    { x with port := some (w.procs.proc pid).port, pid := some pid }).setActiveSlot (some s)
    with hw₀
  have hslot : w₀.slot s =
      { w.slot s with port := some (w.procs.proc pid).port, pid := some pid } := by
    rw [hw₀, setActiveSlot_slot]
    exact setAt_self ..
  have hhold : w₀.hold = { w.hold with activeSlot := some s } := by
    rw [hw₀, setActiveSlot_hold]
    rfl
  have hd₀ : .activeMatch ∉ legalTransitions (w₀.slot s).state := by rwa [hslot]
  have h := (episode_tryExcept_raised (run_bind_raises (run_transition_raises hd₀))).mp h
  refine comesToForceCold_drift ⟨?_, ?_, ?_⟩ (fun w os r w' h => ?_) h
  · rw [World.setSlot, hhold]
    exact hh
  · rw [World.setSlot, hw₀, setActiveSlot_rows]
    rfl
  · simp [World.ownsActive, World.carriesActive, World.setSlot, Slot.fail_pid, hslot, hhold, hh]
  · rw [episode_modify_bind] at h
    obtain ⟨rfl, -, rfl⟩ := episode_pure.mp h
    refine ⟨rfl, ?_, ?_, ?_⟩
    · rw [setActiveSlot_hold]
    · rw [setActiveSlot_slot]
    · rw [setActiveSlot_rows]

/-- A rider that drifts has lost its pid by then. -/
theorem comesToForceCold_rider {pid s : Nat} {r : Res sig Bool}
    (hh : w.hold.activeHandle = some pid) (hd : .loading ∉ legalTransitions (w.slot s).state)
    (h : Episode (system C) (LeavesParked s) t (promoteRider s pid) w os r w') :
    ComesToForceCold C t .riderDrift pid s w os w' := by
  rw [promoteRider, episode_gets_bind, onSlot, episode_modify_bind] at h
  set w₀ := w.setSlot s fun x =>
    { x with port := some (w.procs.proc pid).port, pid := some pid } with hw₀
  have hd₀ : .loading ∉ legalTransitions (w₀.slot s).state := by
    simpa only [hw₀, World.setSlot, setAt_self] using hd
  have h := (episode_tryExcept_raised (run_bind_raises (run_transition_raises hd₀))).mp h
  rw [onSlot, episode_modify_bind] at h
  refine comesToForceCold_drift ?_ (fun w os r w' h => episode_pure_tail h) h
  refine ⟨hh, rfl, ?_⟩
  simp [World.ownsActive, World.carriesActive, World.setSlot, Slot.fail_pid]

/-- So has a rider that is drained. -/
theorem comesToForceCold_drained {anchor pid s : Nat} {r : Res sig Unit} (hs : s ≠ anchor)
    (hh : w.hold.activeHandle = some pid)
    (h : Episode (system C) (LeavesParked s) t (parkRider anchor s) w os r w') :
    ComesToForceCold C t .riderDrained pid s w os w' := by
  have htail (w : World) (os : List (Op × Reply)) (r : Res sig Unit) (w' : World)
      (h : Episode (system C) (LeavesParked s) t (leaveInflight s) w os r w') :
      os = [] ∧ LeavesParked s w w' := by
    obtain ⟨rfl, -, rfl⟩ := episode_act.mp h
    exact ⟨rfl, rfl, rfl, rfl⟩
  unfold parkRider at h
  obtain ⟨r₁, w₁, h, hl⟩ := episode_bind_tail (fun _ => htail) h
  rw [Co.when, if_pos (decide_eq_true hs), onSlot, episode_modify_bind] at h
  refine ⟨[], os, _, r₁, _, w₁, rfl, fun o x ho => absurd ho List.not_mem_nil, ?_, h, hl⟩
  refine ⟨hh, rfl, ?_⟩
  simp [World.ownsActive, World.carriesActive, World.setSlot]

theorem comesToForceCold {c : Parking} {anchor pid s : Nat} {r : Res sig Unit}
    (hw : WarmBeside anchor pid s w) (hd : c.Drifted (w.slot s).state)
    (h : Episode (system C) (LeavesParked s) t (c.program anchor pid s) w os r w') :
    ComesToForceCold C t c pid s w os w' := by
  cases c with
  | followUpDrift =>
    obtain ⟨r₁, w₁, h, hl⟩ := episode_bind_tail (fun _ _ _ _ _ h => episode_pure_tail h) h
    obtain ⟨os₀, os₁, reason, r₂, w₂, w₃, hos, hq, hat, hc, hl'⟩ :=
      comesToForceCold_followUp hw.handle hd h
    exact ⟨os₀, os₁, reason, r₂, w₂, w₃, hos, hq, hat, hc, hl'.trans hl⟩
  | riderDrift =>
    obtain ⟨r₁, w₁, h, hl⟩ := episode_bind_tail (fun _ _ _ _ _ h => episode_pure_tail h) h
    obtain ⟨os₀, os₁, reason, r₂, w₂, w₃, hos, hq, hat, hc, hl'⟩ :=
      comesToForceCold_rider hw.handle hd h
    exact ⟨os₀, os₁, reason, r₂, w₂, w₃, hos, hq, hat, hc, hl'.trans hl⟩
  | riderDrained => exact comesToForceCold_drained hw.other hw.handle h

/-! ## An episode there always is -/

/-- Wherever it starts the program can come to its end with no call failing. -/
def Unfailing {α : Type} (C : Config) (t s : Nat) (m : Prog α) : Prop :=
  ∀ w, ∃ os r w', Episode (system C) (LeavesParked s) t m w os r w' ∧
    ∀ o e, (o, Reply.raised e) ∉ os

namespace Unfailing

variable {α β : Type} {s : Nat}

theorem act (f : World → Res sig α × World) : Unfailing C t s (.act f) := fun _ =>
  ⟨[], _, _, episode_act.mpr ⟨rfl, rfl, rfl⟩, fun _ _ => List.not_mem_nil⟩

theorem pure (a : α) : Unfailing C t s (pure a) := fun _ =>
  ⟨[], _, _, episode_pure.mpr ⟨rfl, rfl, rfl⟩, fun _ _ => List.not_mem_nil⟩

theorem throw (e : Exc Err) : Unfailing C t s (.throw e : Prog α) := fun _ =>
  ⟨[], _, _, episode_throw.mpr ⟨rfl, rfl, rfl⟩, fun _ _ => List.not_mem_nil⟩

theorem bind {m : Prog α} {k : α → Prog β} (hm : Unfailing C t s m)
    (hk : ∀ a, Unfailing C t s (k a)) : Unfailing C t s (m >>= k) := by
  intro w
  obtain ⟨os, r, w₁, h, hos⟩ := hm w
  cases r with
  | error e => exact ⟨os, _, w₁, h.bind_error rfl, hos⟩
  | ok a =>
    obtain ⟨os', r', w', h', hos'⟩ := hk a w₁
    refine ⟨os ++ os', r', w', h.bind_ok rfl h', fun o e he => ?_⟩
    rcases List.mem_append.mp he with he | he
    · exact hos o e he
    · exact hos' o e he

theorem attempt {m : Prog α} (hm : Unfailing C t s m) : Unfailing C t s (.attempt m) := by
  intro w
  obtain ⟨os, r, w', h, hos⟩ := hm w
  exact ⟨os, _, w', h.attempt, hos⟩

theorem resume (r : Res sig α) : Unfailing C t s (Co.resume r : Prog α) := by
  cases r with
  | ok a => exact pure a
  | error e => exact throw e

theorem tryExcept {m : Prog α} {h : Err → Prog α} (hm : Unfailing C t s m)
    (hh : ∀ e, Unfailing C t s (h e)) : Unfailing C t s (Co.tryExcept m h) :=
  bind (attempt hm) fun r => by
    cases r with
    | ok a => exact resume (.ok a)
    | error e =>
      cases e with
      | raised e => exact hh e
      | cancelled => exact resume (.error .cancelled)

theorem suppress {m : Prog Unit} (hm : Unfailing C t s m) : Unfailing C t s (Co.suppress m) :=
  tryExcept hm fun _ => pure ()

theorem run {o : Op} (ho : o.isAwait = false) (hok : ∀ w, replies o .ok w = true) :
    Unfailing C t s (run o) := by
  intro w
  have hallowed : allowed t o .ok w = true := by
    simpa only [allowed, ho, Bool.false_and, Bool.false_eq_true, if_false] using hok w
  refine ⟨[(o, .ok)], .ok (), answer t o .ok w, episode_bind.mpr (.inl ⟨[(o, .ok)], [], Reply.ok,
    _, rfl, episode_ask.mpr ⟨Reply.ok, hallowed, rfl, rfl, rfl⟩,
    episode_pure.mpr ⟨rfl, rfl, rfl⟩⟩), fun p e he => ?_⟩
  cases List.mem_singleton.mp he

/-- A task that has been asked to cancel is cancelled at the suspension. -/
theorem sync {o : Op} (ho : o.isAwait = true) (hok : ∀ w, replies o .ok w = true)
    (hc : ∀ w, cancellable o w = true) : Unfailing C t s (sync o) := by
  intro w
  by_cases hcan : (issue t o w).cancelling t = true
  · have hallowed : allowed t o .cancelled (issue t o w) = true := by
      simpa only [allowed, ho, hcan, Bool.and_self, if_true] using hc _
    refine ⟨[(o, .cancelled)], .error .cancelled, answer t o .cancelled (issue t o w),
      episode_bind.mpr (.inl ⟨[(o, .cancelled)], [], Reply.cancelled, _, rfl,
        episode_await.mpr ⟨Reply.cancelled, _, LeavesParked.refl s _, hallowed, rfl, rfl, rfl⟩,
        episode_throw.mpr ⟨rfl, rfl, rfl⟩⟩), fun p e he => ?_⟩
    cases List.mem_singleton.mp he
  · have hallowed : allowed t o .ok (issue t o w) = true := by
      simpa only [allowed, hcan, Bool.and_false, Bool.false_eq_true, if_false] using hok _
    refine ⟨[(o, .ok)], .ok (), answer t o .ok (issue t o w),
      episode_bind.mpr (.inl ⟨[(o, .ok)], [], Reply.ok, _, rfl,
        episode_await.mpr ⟨Reply.ok, _, LeavesParked.refl s _, hallowed, rfl, rfl, rfl⟩,
        episode_pure.mpr ⟨rfl, rfl, rfl⟩⟩), fun p e he => ?_⟩
    cases List.mem_singleton.mp he

theorem transition (i : Nat) (target : SlotState) : Unfailing C t s (transition i target) := act _

theorem fail (site : FailSite) (i : Nat) (e : Err) :
    Unfailing C t s (failCompletionFuture site i e) := run rfl fun _ => rfl

theorem auditAsync (i : Nat) (event : String) : Unfailing C t s (auditAsync i event) :=
  sync rfl (fun _ => rfl) fun _ => rfl

theorem auditEventOnlyAsync (i : Option Nat) (event : String) :
    Unfailing C t s (auditEventOnlyAsync i event) :=
  sync rfl (fun _ => rfl) fun _ => rfl

theorem forceCold (i : Nat) (reason : String) : Unfailing C t s (forceCold i reason) :=
  bind
    (bind (act _) fun w => by
      split
      · exact suppress (bind (sync rfl (fun _ => rfl) fun _ => rfl) fun _ => act _)
      · exact pure ())
    fun _ => bind (act _) fun _ => bind (run rfl fun _ => rfl) fun _ =>
      auditEventOnlyAsync _ _

theorem promoteFollowUp (anchor i pid : Nat) : Unfailing C t s (promoteFollowUp anchor i pid) :=
  bind (act _) fun _ => bind (act _) fun _ =>
    tryExcept
      (bind (transition _ _) fun _ => bind (auditAsync _ _) fun _ => bind (transition _ _) fun _ =>
        bind (act _) fun _ => bind (act _) fun _ => pure _)
      fun e => by
        split
        · exact bind (fail _ _ _) fun _ => bind (act _) fun _ => bind (forceCold _ _) fun _ =>
            bind (act _) fun _ => pure _
        · exact throw _

theorem promoteRider (i pid : Nat) : Unfailing C t s (promoteRider i pid) :=
  bind (act _) fun _ => bind (act _) fun _ =>
    tryExcept
      (bind (transition _ _) fun _ => bind (transition _ _) fun _ => bind (act _) fun _ => pure _)
      fun e => by
        split
        · exact bind (act _) fun _ => bind (fail _ _ _) fun _ => bind (act _) fun _ =>
            bind (forceCold _ _) fun _ => pure _
        · exact throw _

theorem parkRider (anchor i : Nat) : Unfailing C t s (parkRider anchor i) :=
  bind
    (by
      unfold Co.when
      split
      · exact bind (act _) fun _ => forceCold _ _
      · exact pure ())
    fun _ => act _

theorem program (c : Parking) (anchor pid : Nat) :
    Unfailing C t s (c.program anchor pid s) := by
  cases c with
  | followUpDrift => exact bind (promoteFollowUp _ _ _) fun _ => pure _
  | riderDrift => exact bind (promoteRider _ _) fun _ => pure _
  | riderDrained => exact parkRider _ _

end Unfailing

/-! ## When the sidecar is spared -/

/-- A follow-up that drifts beside no riders takes the sidecar down. -/
theorem not_sparesSidecar_followUp {anchor pid s : Nat} (hw : WarmBeside anchor pid s w)
    (hd : Parking.followUpDrift.Drifted (w.slot s).state)
    (hlen : ¬ 1 < w.hold.inflight.length) : ¬ SparesSidecar C t anchor pid s .followUpDrift w := by
  intro hspare
  obtain ⟨os, r, w', h, hos⟩ := Unfailing.program .followUpDrift anchor pid w
  obtain ⟨os₀, os₁, reason, r₁, w₀, w₁, rfl, -, hat, hc, -⟩ := comesToForceCold hw hd h
  obtain ⟨x, hx⟩ := forceCold_signals hat.handle (hat.owns.mpr ⟨rfl, hlen⟩) hc
  exact (hspare _ r w' h fun reason e => hos _ _).unsignalled _ x (List.mem_append_right _ hx) rfl

/-- A slot without a row has none once it is parked, unless the sidecar went down. -/
theorem not_sparesSidecar_rowless {c : Parking} {anchor pid s : Nat}
    (hw : WarmBeside anchor pid s w) (hd : c.Drifted (w.slot s).state)
    (hlen : c = .followUpDrift → 1 < w.hold.inflight.length) (hrow : w.rows s = none) :
    ¬ SparesSidecar C t anchor pid s c w := by
  intro hspare
  obtain ⟨os, r, w', h, hos⟩ := Unfailing.program c anchor pid w
  obtain ⟨os₀, os₁, reason, r₁, w₀, w₁, rfl, -, hat, hc, hl⟩ := comesToForceCold hw hd h
  have hown : w₀.ownsActive s = false :=
    Bool.eq_false_iff.mpr fun hown => (hat.owns.mp hown).2 (hlen (hat.owns.mp hown).1)
  obtain ⟨reason', hended⟩ := (hspare _ r w' h fun reason e => hos _ _).row
  have hnone := parkCold_rowless (hat.row.trans hrow) ((episode_forceCold hown).mp hc)
  rw [hl.row, hnone] at hended
  cases hended

theorem sparesSidecar_of_shared {c : Parking} {anchor pid s : Nat}
    (hw : WarmBeside anchor pid s w) (hd : c.Drifted (w.slot s).state)
    (hlen : c = .followUpDrift → 1 < w.hold.inflight.length) (hrow : (w.rows s).isSome = true) :
    SparesSidecar C t anchor pid s c w := by
  intro os r w' h hwrite
  obtain ⟨os₀, os₁, reason, r₁, w₀, w₁, rfl, hquiet, hat, hc, hl⟩ := comesToForceCold hw hd h
  have hown : w₀.ownsActive s = false :=
    Bool.eq_false_iff.mpr fun hown => (hat.owns.mp hown).2 (hlen (hat.owns.mp hown).1)
  have hrow₀ : (w₀.rows s).isSome = true := by
    rw [hat.row]
    exact hrow
  obtain ⟨hsig, hh, hmem, reason', hr⟩ := parkCold_spares hat.handle hrow₀
    ((episode_forceCold hown).mp hc) fun reason e he => hwrite reason e (List.mem_append_right _ he)
  refine ⟨fun o x ho => ?_, hl.activeHandle.trans hh, hl.state.trans hmem, reason', hl.row.trans hr⟩
  rcases List.mem_append.mp ho with ho | ho
  · exact hquiet o x ho
  · exact hsig o x ho

/-- The sidecar is spared and the slot parked, whoever parks it and whatever happens
meanwhile, but for a follow-up that drifts beside no riders, and for a slot that has no
row yet. -/
theorem sparesSidecar_iff {c : Parking} {anchor pid s : Nat} (hw : WarmBeside anchor pid s w)
    (hd : c.Drifted (w.slot s).state) :
    SparesSidecar C t anchor pid s c w ↔
      (w.rows s).isSome = true ∧ (c = .followUpDrift → 1 < w.hold.inflight.length) := by
  constructor
  · intro hspare
    have hlen : c = .followUpDrift → 1 < w.hold.inflight.length := by
      rintro rfl
      by_contra hlen
      exact not_sparesSidecar_followUp hw hd hlen hspare
    refine ⟨?_, hlen⟩
    by_contra hrow
    exact not_sparesSidecar_rowless hw hd hlen (Option.not_isSome_iff_eq_none.mp hrow) hspare
  · rintro ⟨hrow, hlen⟩
    exact sparesSidecar_of_shared hw hd hlen hrow

/-- The slot `1` beside the anchor `0`, whose sidecar is the process `0`. -/
def besideAnchor (x : SlotState) : World :=
  { slot := fun _ => { state := x }
    rows := fun _ => some { state := x }
    hold := { activeHandle := some 0, activeSlot := some 0 } }

theorem sparesSidecar_iff_drained :
    SparesSidecar {} 0 0 0 1 .riderDrained (besideAnchor .active) :=
  (sparesSidecar_iff (c := .riderDrained) (w := besideAnchor .active)
    ⟨rfl, rfl, by decide⟩ trivial).mpr ⟨rfl, by decide⟩

/-- A follow-up that was popped is parked, and the sidecar of its anchor with it. -/
theorem drifted_followUp_signals :
    ¬ ∀ (C : Config) (t anchor pid s : Nat) (c : Parking) (w : World), WarmBeside anchor pid s w →
      c.Drifted (w.slot s).state → (w.rows s).isSome = true →
      SparesSidecar C t anchor pid s c w := by
  intro h
  have hw : WarmBeside 0 0 1 (besideAnchor .popped) := ⟨rfl, rfl, by decide⟩
  have hd : Parking.followUpDrift.Drifted ((besideAnchor .popped).slot 1).state := by
    show SlotState.activeMatch ∉ legalTransitions .popped
    decide
  exact not_sparesSidecar_followUp hw hd (by decide) (h {} 0 0 0 1 .followUpDrift _ hw hd rfl)

end Turbohaul
