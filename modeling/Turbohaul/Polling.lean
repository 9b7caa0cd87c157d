/-
# `Polling` — a loop that looks until a deadline

`while now < deadline: look; if decided: return; sleep`, on what it sees at its passes.
The passes are a sequence without end, of which the loop makes the first few; time goes
by between two of them, so that it ends.

  `Watch`           what is seen, and when
  `Watch.poll`      the loop
  `Stops`           the first pass that decides, or the first one too late
  `poll_stops`      the loop ends so, and in no other way (`Stops.unique`)
  `Stops.index_le`  at a pass that would decide at the latest
-/
import Mathlib.Data.Nat.Notation
import Mathlib.Order.Defs.LinearOrder

namespace Polling

/-- What is seen at each pass, when the pass begins, and how long a sleep is at least. -/
structure Watch (L : Type) where
  look : ℕ → L
  clock : ℕ → ℕ
  pause : ℕ
  pause_pos : 0 < pause
  later : ∀ n, clock n + pause ≤ clock (n + 1)

/-- How a loop ends: decided at a pass, or at one after the deadline. -/
inductive Ended (R : Type)
  | decided (r : R) (n : ℕ)
  | expired (n : ℕ)
deriving DecidableEq

/-- The pass at which it ends. -/
def Ended.index {R : Type} : Ended R → ℕ
  | .decided _ n => n
  | .expired n => n

variable {L R : Type} {W : Watch L} {deadline : ℕ} {verdict : L → Option R}

/-- The loop from a pass on, with a bound on the passes it makes. -/
def Watch.pollFrom (W : Watch L) (deadline : ℕ) (verdict : L → Option R) : ℕ → ℕ → Ended R
  | 0, n => .expired n
  | fuel + 1, n =>
    if W.clock n < deadline then
      match verdict (W.look n) with
      | some r => .decided r n
      | none => W.pollFrom deadline verdict fuel (n + 1)
    else .expired n

/-- The loop.  It makes one pass a unit of time at most. -/
def Watch.poll (W : Watch L) (deadline : ℕ) (verdict : L → Option R) : Ended R :=
  W.pollFrom deadline verdict (deadline - W.clock 0 + 1) 0

/-- The first passes were in time and decided nothing. -/
def Passed (W : Watch L) (deadline : ℕ) (verdict : L → Option R) (n : ℕ) : Prop :=
  ∀ i < n, W.clock i < deadline ∧ verdict (W.look i) = none

/-- The ends of a loop. -/
inductive Stops (W : Watch L) (deadline : ℕ) (verdict : L → Option R) : Ended R → Prop
  | decided {r : R} {n : ℕ} : Passed W deadline verdict n → W.clock n < deadline →
      verdict (W.look n) = some r → Stops W deadline verdict (.decided r n)
  | expired {n : ℕ} : Passed W deadline verdict n → deadline ≤ W.clock n →
      Stops W deadline verdict (.expired n)

theorem Watch.clock_mul_le (W : Watch L) (n : ℕ) : W.clock 0 + n * W.pause ≤ W.clock n := by
  induction n with
  | zero =>
    rewrite [Nat.zero_mul, Nat.add_zero]
    exact Nat.le_refl _
  | succ n ih =>
    have hlater := W.later n
    rw [Nat.succ_mul]
    omega

theorem Watch.clock_le (W : Watch L) (n : ℕ) : W.clock 0 + n ≤ W.clock n := by
  have hmul := Nat.le_mul_of_pos_right n W.pause_pos
  have hle := W.clock_mul_le n
  omega

theorem Watch.clock_mono (W : Watch L) {m n : ℕ} (h : m ≤ n) : W.clock m ≤ W.clock n := by
  induction n with
  | zero =>
    rewrite [Nat.le_zero.mp h]
    exact Nat.le_refl _
  | succ n ih =>
    rcases Nat.le_succ_iff.mp h with h | rfl
    · have hlater := W.later n
      have hle := ih h
      omega
    · exact Nat.le_refl _

theorem Passed.succ {n : ℕ} (h : Passed W deadline verdict n) (hclock : W.clock n < deadline)
    (hnone : verdict (W.look n) = none) : Passed W deadline verdict (n + 1) := by
  intro i hi
  rcases Nat.lt_succ_iff_lt_or_eq.mp hi with hi | rfl
  · exact h i hi
  · exact ⟨hclock, hnone⟩

/-- The passes that are left suffice. -/
theorem Watch.pollFrom_stops (W : Watch L) (deadline : ℕ) (verdict : L → Option R) (fuel : ℕ) :
    ∀ n, Passed W deadline verdict n → deadline ≤ W.clock 0 + n + (fuel - 1) → 0 < fuel →
      Stops W deadline verdict (W.pollFrom deadline verdict fuel n) := by
  induction fuel with
  | zero =>
    intro n _ _ hpos
    exact absurd hpos (Nat.lt_irrefl 0)
  | succ fuel ih =>
    intro n hpassed hfuel _
    have hclock := W.clock_le n
    rw [Watch.pollFrom]
    split
    · rename_i hlt
      split
      · rename_i r hr
        exact .decided hpassed hlt hr
      · rename_i hnone
        refine ih (n + 1) (hpassed.succ hlt hnone) ?_ ?_
        · omega
        · omega
    · rename_i hge
      exact .expired hpassed (Nat.not_lt.mp hge)

/-- The loop ends, at the first pass that decides or the first one too late. -/
theorem Watch.poll_stops (W : Watch L) (deadline : ℕ) (verdict : L → Option R) :
    Stops W deadline verdict (W.poll deadline verdict) := by
  refine W.pollFrom_stops deadline verdict _ 0 (fun i hi => absurd hi (Nat.not_lt_zero i)) ?_
    (Nat.succ_pos _)
  omega

namespace Stops

variable {e e' : Ended R}

theorem passed (h : Stops W deadline verdict e) : Passed W deadline verdict e.index := by
  cases h with
  | decided hpassed _ _ => exact hpassed
  | expired hpassed _ => exact hpassed

/-- A pass that would decide, or that is too late, is not gone beyond. -/
theorem index_le (h : Stops W deadline verdict e) {k : ℕ}
    (hk : deadline ≤ W.clock k ∨ (verdict (W.look k)).isSome) : e.index ≤ k := by
  refine Nat.not_lt.mp fun hlt => ?_
  obtain ⟨hclock, hnone⟩ := h.passed k hlt
  rcases hk with hlate | hsome
  · exact absurd hclock (Nat.not_lt.mpr hlate)
  · rw [hnone] at hsome
    cases hsome

theorem ends (h : Stops W deadline verdict e) :
    deadline ≤ W.clock e.index ∨ (verdict (W.look e.index)).isSome := by
  cases h with
  | decided _ _ hr => exact .inr (hr ▸ rfl)
  | expired _ hlate => exact .inl hlate

/-- There is one end. -/
theorem unique (h : Stops W deadline verdict e) (h' : Stops W deadline verdict e') : e = e' := by
  have hindex : e.index = e'.index :=
    Nat.le_antisymm (h.index_le h'.ends) (h'.index_le h.ends)
  cases h with
  | @decided r n _ hlt hr =>
    cases h' with
    | @decided r' n' _ _ hr' =>
      change n = n' at hindex
      subst hindex
      rw [Option.some.inj (hr.symm.trans hr')]
    | @expired n' _ hlate =>
      change n = n' at hindex
      subst hindex
      exact absurd hlt (Nat.not_lt.mpr hlate)
  | @expired n _ hlate =>
    cases h' with
    | @decided r' n' _ hlt _ =>
      change n = n' at hindex
      subst hindex
      exact absurd hlt (Nat.not_lt.mpr hlate)
    | @expired n' _ _ => exact congrArg Ended.expired hindex

/-- Where it ends after the deadline, no pass in time decides. -/
theorem undecided {i n : ℕ} (h : Stops W deadline verdict (.expired n))
    (hi : W.clock i < deadline) : verdict (W.look i) = none := by
  cases h with
  | expired hpassed hlate =>
    refine (hpassed i (Nat.not_le.mp fun hle => ?_)).2
    have hclock := W.clock_mono hle
    omega

end Stops

theorem Watch.poll_eq_iff {e : Ended R} :
    W.poll deadline verdict = e ↔ Stops W deadline verdict e := by
  constructor
  · rintro rfl
    exact W.poll_stops deadline verdict
  · intro h
    exact (W.poll_stops deadline verdict).unique h

end Polling
