/-
# `Regex` — patterns matched by backtracking

The part of a backtracking matcher that patterns without alternation need:
literals, classes, greedy and lazy repetitions of a class, groups.  A repetition
tries its continuation at every length in its order of preference, so the first
match found is the preferred one; `finditer` resumes where the last match stopped.

  `run`, `matchAt`, `finditer`   the matcher
  `Takes`                        what a pattern may consume, without preferences
  `run_sound`, `run_complete`    it finds what may be consumed, if anything may
  `finditer_sound`               each match found is the match at its start
  `finditer_disjoint`            matches are found in order and apart
  `finditer_shift`               positions are relative
-/
import Mathlib.Data.List.Basic
import Mathlib.Tactic.Common

namespace Regex

/-- A pattern whose groups have names in `γ`. -/
inductive Pattern (γ : Type)
  | lit (cs : List Char)
  | one (p : Char → Bool)
  | many (p : Char → Bool)
  | few (p : Char → Bool)
  | seq (r₁ r₂ : Pattern γ)
  | group (g : γ) (r : Pattern γ)

/-- Patterns one after the other. -/
def Pattern.cat {γ : Type} : List (Pattern γ) → Pattern γ
  | [] => .lit []
  | [r] => r
  | r :: rs => .seq r (cat rs)

/-- The groups matched so far, the last one first, each from where to where. -/
abbrev Groups (γ : Type) := List (γ × ℕ × ℕ)

variable {γ R : Type}

/-- `p*`: as many characters as possible first. -/
def runMany (p : Char → Bool) (k : ℕ → List Char → Option R) : ℕ → List Char → Option R
  | i, [] => k i []
  | i, c :: s =>
    if p c then
      match runMany p k (i + 1) s with
      | some x => some x
      | none => k i (c :: s)
    else k i (c :: s)

/-- `p*?`: as few characters as possible first. -/
def runFew (p : Char → Bool) (k : ℕ → List Char → Option R) : ℕ → List Char → Option R
  | i, [] => k i []
  | i, c :: s =>
    match k i (c :: s) with
    | some x => some x
    | none => if p c then runFew p k (i + 1) s else none

/-- The matcher, at position `i` of a text of which `s` is left; `k` is what has to
match next. -/
def run : Pattern γ → ℕ → Groups γ → List Char →
    (ℕ → Groups γ → List Char → Option R) → Option R
  | .lit cs, i, gs, s, k =>
    if cs.isPrefixOf s then k (i + cs.length) gs (s.drop cs.length) else none
  | .one _, _, _, [], _ => none
  | .one p, i, gs, c :: s, k => if p c then k (i + 1) gs s else none
  | .many p, i, gs, s, k => runMany p (fun i s => k i gs s) i s
  | .few p, i, gs, s, k => runFew p (fun i s => k i gs s) i s
  | .seq r₁ r₂, i, gs, s, k => run r₁ i gs s fun i gs s => run r₂ i gs s k
  | .group g r, i, gs, s, k => run r i gs s fun j gs s => k j ((g, i, j) :: gs) s

/-- A match: where it starts and stops, and its groups. -/
structure Match (γ : Type) where
  start : ℕ
  stop : ℕ
  groups : Groups γ

/-- The span of a group. -/
def Match.span [DecidableEq γ] (m : Match γ) (g : γ) : Option (ℕ × ℕ) := m.groups.lookup g

/-- The match at position `i`. -/
def matchAt (r : Pattern γ) (i : ℕ) (s : List Char) : Option (Match γ) :=
  run r i [] s fun j gs _ => some ⟨i, j, gs⟩

/-- The matches from position `i` on, of which the first `skip` characters are
still part of the match before. -/
def finditer (r : Pattern γ) : ℕ → ℕ → List Char → List (Match γ)
  | _, _, [] => []
  | skip + 1, i, _ :: s => finditer r skip (i + 1) s
  | 0, i, c :: s =>
    match matchAt r i (c :: s) with
    | some m => m :: finditer r (m.stop - i - 1) (i + 1) s
    | none => finditer r 0 (i + 1) s

/-! ## What a pattern may consume -/

/-- At position `i` and after the groups `gs`, the pattern may consume `m`, and the
groups then are `gs'`. -/
def Takes : Pattern γ → ℕ → Groups γ → List Char → Groups γ → Prop
  | .lit cs, _, gs, m, gs' => m = cs ∧ gs' = gs
  | .one p, _, gs, m, gs' => (∃ c, m = [c] ∧ p c) ∧ gs' = gs
  | .many p, _, gs, m, gs' => (∀ c ∈ m, p c) ∧ gs' = gs
  | .few p, _, gs, m, gs' => (∀ c ∈ m, p c) ∧ gs' = gs
  | .seq r₁ r₂, i, gs, m, gs' => ∃ m₁ m₂ gs₁, m = m₁ ++ m₂ ∧ Takes r₁ i gs m₁ gs₁ ∧
      Takes r₂ (i + m₁.length) gs₁ m₂ gs'
  | .group g r, i, gs, m, gs' => ∃ gs₁, Takes r i gs m gs₁ ∧ gs' = (g, i, i + m.length) :: gs₁

theorem takes_lit_seq {cs : List Char} {r : Pattern γ} {i : ℕ} {gs gs' : Groups γ}
    {m : List Char} :
    Takes (.seq (.lit cs) r) i gs m gs' ↔
      ∃ rest, m = cs ++ rest ∧ Takes r (i + cs.length) gs rest gs' := by
  simp only [Takes]
  constructor
  · rintro ⟨_, rest, _, rfl, ⟨rfl, rfl⟩, h⟩
    exact ⟨rest, rfl, h⟩
  · rintro ⟨rest, rfl, h⟩
    exact ⟨cs, rest, gs, rfl, ⟨rfl, rfl⟩, h⟩

theorem takes_many_seq {p : Char → Bool} {r : Pattern γ} {i : ℕ} {gs gs' : Groups γ}
    {m : List Char} :
    Takes (.seq (.many p) r) i gs m gs' ↔
      ∃ cs, (∀ c ∈ cs, p c) ∧ ∃ rest, m = cs ++ rest ∧ Takes r (i + cs.length) gs rest gs' := by
  simp only [Takes]
  constructor
  · rintro ⟨cs, rest, _, rfl, ⟨h₁, rfl⟩, h⟩
    exact ⟨cs, h₁, rest, rfl, h⟩
  · rintro ⟨cs, h₁, rest, rfl, h⟩
    exact ⟨cs, rest, gs, rfl, ⟨h₁, rfl⟩, h⟩

theorem takes_group_seq {g : γ} {r₁ r₂ : Pattern γ} {i : ℕ} {gs gs' : Groups γ} {m : List Char} :
    Takes (.seq (.group g r₁) r₂) i gs m gs' ↔
      ∃ cs gs₁, Takes r₁ i gs cs gs₁ ∧ ∃ rest, m = cs ++ rest ∧
        Takes r₂ (i + cs.length) ((g, i, i + cs.length) :: gs₁) rest gs' := by
  simp only [Takes]
  constructor
  · rintro ⟨cs, rest, _, rfl, ⟨gs₁, h₁, rfl⟩, h⟩
    exact ⟨cs, gs₁, h₁, rest, rfl, h⟩
  · rintro ⟨cs, gs₁, h₁, rest, rfl, h⟩
    exact ⟨cs, rest, _, rfl, ⟨gs₁, h₁, rfl⟩, h⟩

theorem runMany_sound {p : Char → Bool} {k : ℕ → List Char → Option R} {i : ℕ} {s : List Char}
    {x : R} (h : runMany p k i s = some x) :
    ∃ m s', s = m ++ s' ∧ (∀ c ∈ m, p c) ∧ k (i + m.length) s' = some x := by
  induction s generalizing i with
  | nil => exact ⟨[], [], rfl, (by rintro _ ⟨⟩), h⟩
  | cons c s ih =>
    rw [runMany] at h
    split at h
    · rename_i hc
      split at h
      · rename_i y hy
        obtain ⟨m, s', rfl, hm, hk⟩ := ih (hy.trans h)
        refine ⟨c :: m, s', rfl, List.forall_mem_cons.mpr ⟨hc, hm⟩, ?_⟩
        rwa [List.length_cons, Nat.add_right_comm, Nat.add_assoc] at *
      · exact ⟨[], c :: s, rfl, (by rintro _ ⟨⟩), h⟩
    · exact ⟨[], c :: s, rfl, (by rintro _ ⟨⟩), h⟩

theorem runFew_sound {p : Char → Bool} {k : ℕ → List Char → Option R} {i : ℕ} {s : List Char}
    {x : R} (h : runFew p k i s = some x) :
    ∃ m s', s = m ++ s' ∧ (∀ c ∈ m, p c) ∧ k (i + m.length) s' = some x := by
  induction s generalizing i with
  | nil => exact ⟨[], [], rfl, (by rintro _ ⟨⟩), h⟩
  | cons c s ih =>
    rw [runFew] at h
    split at h
    · rename_i y hy
      exact ⟨[], c :: s, rfl, (by rintro _ ⟨⟩), hy.trans h⟩
    · split at h
      · rename_i hc
        obtain ⟨m, s', rfl, hm, hk⟩ := ih h
        refine ⟨c :: m, s', rfl, List.forall_mem_cons.mpr ⟨hc, hm⟩, ?_⟩
        rwa [List.length_cons, Nat.add_right_comm, Nat.add_assoc] at *
      · cases h

/-- What the matcher finds, the pattern may consume. -/
theorem run_sound {r : Pattern γ} {i : ℕ} {gs : Groups γ} {s : List Char}
    {k : ℕ → Groups γ → List Char → Option R} {x : R} (h : run r i gs s k = some x) :
    ∃ m gs' s', s = m ++ s' ∧ Takes r i gs m gs' ∧ k (i + m.length) gs' s' = some x := by
  induction r generalizing i gs s k with
  | lit cs =>
    rw [run] at h
    split at h
    · rename_i hp
      obtain ⟨s', rfl⟩ := List.isPrefixOf_iff_prefix.mp hp
      rw [List.drop_left] at h
      exact ⟨cs, gs, s', rfl, ⟨rfl, rfl⟩, h⟩
    · cases h
  | one p =>
    cases s with
    | nil => cases h
    | cons c s =>
      rw [run] at h
      split at h
      · rename_i hc
        exact ⟨[c], gs, s, rfl, ⟨⟨c, rfl, hc⟩, rfl⟩, h⟩
      · cases h
  | many p =>
    obtain ⟨m, s', hs, hm, hk⟩ := runMany_sound h
    exact ⟨m, gs, s', hs, ⟨hm, rfl⟩, hk⟩
  | few p =>
    obtain ⟨m, s', hs, hm, hk⟩ := runFew_sound h
    exact ⟨m, gs, s', hs, ⟨hm, rfl⟩, hk⟩
  | seq r₁ r₂ ih₁ ih₂ =>
    obtain ⟨m₁, gs₁, s₁, rfl, h₁, hk₁⟩ := ih₁ h
    obtain ⟨m₂, gs₂, s₂, rfl, h₂, hk₂⟩ := ih₂ hk₁
    refine ⟨m₁ ++ m₂, gs₂, s₂, (List.append_assoc _ _ _).symm, ⟨m₁, m₂, gs₁, rfl, h₁, h₂⟩, ?_⟩
    rwa [List.length_append, ← Nat.add_assoc]
  | group g r ih =>
    obtain ⟨m, gs₁, s', rfl, hm, hk⟩ := ih h
    exact ⟨m, _, s', rfl, ⟨gs₁, hm, rfl⟩, hk⟩

theorem matchAt_sound {r : Pattern γ} {i : ℕ} {s : List Char} {m : Match γ}
    (h : matchAt r i s = some m) :
    ∃ text rest, s = text ++ rest ∧ Takes r i [] text m.groups ∧ m.start = i ∧
      m.stop = i + text.length := by
  obtain ⟨text, gs, rest, hs, ht, hk⟩ := run_sound h
  rw [← Option.some.inj hk]
  exact ⟨text, rest, hs, ht, rfl, rfl⟩

/-! ## The matches of a text -/

/-- Each match found is the match at its start, past what is skipped. -/
theorem finditer_sound {r : Pattern γ} {skip i : ℕ} {s : List Char} {m : Match γ}
    (h : m ∈ finditer r skip i s) :
    ∃ before rest, s = before ++ rest ∧ skip ≤ before.length ∧ m.start = i + before.length ∧
      matchAt r m.start rest = some m := by
  induction s generalizing skip i with
  | nil => cases skip <;> exact absurd h List.not_mem_nil
  | cons c s ih =>
    have later : ∀ {k}, m ∈ finditer r k (i + 1) s → ∃ before rest, c :: s = before ++ rest ∧
        k + 1 ≤ before.length ∧ m.start = i + before.length ∧
        matchAt r m.start rest = some m := by
      intro k hm
      obtain ⟨before, rest, hs, hk, hstart, hmatch⟩ := ih hm
      refine ⟨c :: before, rest, by rw [hs, List.cons_append], ?_, ?_, hmatch⟩
      · rw [List.length_cons]
        omega
      · rw [List.length_cons]
        omega
    cases skip with
    | succ skip =>
      rw [finditer] at h
      exact later h
    | zero =>
      rw [finditer] at h
      split at h
      · rename_i m' hm'
        rcases List.mem_cons.mp h with rfl | h
        · obtain ⟨-, -, -, -, hstart, -⟩ := matchAt_sound hm'
          exact ⟨[], c :: s, rfl, Nat.zero_le _, hstart, by rw [hstart]; exact hm'⟩
        · obtain ⟨before, rest, hs, -, hstart, hmatch⟩ := later h
          exact ⟨before, rest, hs, Nat.zero_le _, hstart, hmatch⟩
      · obtain ⟨before, rest, hs, -, hstart, hmatch⟩ := later h
        exact ⟨before, rest, hs, Nat.zero_le _, hstart, hmatch⟩

/-- The matches found stand in order, none before the one before it stops. -/
theorem finditer_disjoint (r : Pattern γ) (skip i : ℕ) (s : List Char) :
    (finditer r skip i s).Pairwise fun m m' => m.start < m'.start ∧ m.stop ≤ m'.start := by
  induction s generalizing skip i with
  | nil => cases skip <;> exact List.Pairwise.nil
  | cons c s ih =>
    cases skip with
    | succ skip => exact ih _ _
    | zero =>
      rw [finditer]
      split
      · rename_i m hm
        refine List.pairwise_cons.mpr ⟨fun m' hm' => ?_, ih _ _⟩
        obtain ⟨-, -, -, -, hstart, -⟩ := matchAt_sound hm
        obtain ⟨before, rest, -, hskip, hstart', -⟩ := finditer_sound hm'
        omega
      · exact ih _ _

/-! ## Positions are relative -/

/-- Groups `d` further on. -/
def Groups.shift (d : ℕ) (gs : Groups γ) : Groups γ := gs.map fun g => (g.1, g.2.1 + d, g.2.2 + d)

/-- A match `d` further on. -/
def Match.shift (d : ℕ) (m : Match γ) : Match γ := ⟨m.start + d, m.stop + d, m.groups.shift d⟩

theorem runMany_shift {R' : Type} {f : R → R'} {d : ℕ} {p : Char → Bool}
    {k : ℕ → List Char → Option R} {k' : ℕ → List Char → Option R'}
    (hk : ∀ i s, k' (i + d) s = (k i s).map f) (i : ℕ) (s : List Char) :
    runMany p k' (i + d) s = (runMany p k i s).map f := by
  induction s generalizing i with
  | nil => exact hk i []
  | cons c s ih =>
    rw [runMany, runMany, Nat.add_right_comm, ih, hk]
    split
    · cases runMany p k (i + 1) s <;> rfl
    · rfl

theorem runFew_shift {R' : Type} {f : R → R'} {d : ℕ} {p : Char → Bool}
    {k : ℕ → List Char → Option R} {k' : ℕ → List Char → Option R'}
    (hk : ∀ i s, k' (i + d) s = (k i s).map f) (i : ℕ) (s : List Char) :
    runFew p k' (i + d) s = (runFew p k i s).map f := by
  induction s generalizing i with
  | nil => exact hk i []
  | cons c s ih =>
    rw [runFew, runFew, Nat.add_right_comm, ih, hk]
    cases k i (c :: s) with
    | some x => rfl
    | none =>
      dsimp only [Option.map_none]
      split <;> rfl

theorem run_shift {R' : Type} {f : R → R'} {d : ℕ} {r : Pattern γ}
    {k : ℕ → Groups γ → List Char → Option R} {k' : ℕ → Groups γ → List Char → Option R'}
    (hk : ∀ i gs s, k' (i + d) (gs.shift d) s = (k i gs s).map f) (i : ℕ) (gs : Groups γ)
    (s : List Char) : run r (i + d) (gs.shift d) s k' = (run r i gs s k).map f := by
  induction r generalizing i gs s k k' with
  | lit cs =>
    rw [run, run, Nat.add_right_comm, hk]
    split <;> rfl
  | one p =>
    cases s with
    | nil => rfl
    | cons c s =>
      rw [run, run, Nat.add_right_comm, hk]
      split <;> rfl
  | many p => exact runMany_shift (fun i s => hk i gs s) i s
  | few p => exact runFew_shift (fun i s => hk i gs s) i s
  | seq r₁ r₂ ih₁ ih₂ => exact ih₁ (fun i gs s => ih₂ hk i gs s) i gs s
  | group g r ih => exact ih (fun j gs s => hk j ((g, i, j) :: gs) s) i gs s

theorem matchAt_shift (r : Pattern γ) (d i : ℕ) (s : List Char) :
    matchAt r (i + d) s = (matchAt r i s).map (Match.shift d) :=
  run_shift (fun _ _ _ => rfl) i [] s

theorem finditer_shift (r : Pattern γ) (d skip i : ℕ) (s : List Char) :
    finditer r skip (i + d) s = (finditer r skip i s).map (Match.shift d) := by
  induction s generalizing skip i with
  | nil => cases skip <;> rfl
  | cons c s ih =>
    cases skip with
    | succ skip =>
      rw [finditer, finditer, Nat.add_right_comm, ih]
    | zero =>
      rw [finditer, finditer, matchAt_shift]
      cases matchAt r i (c :: s) with
      | none =>
        dsimp only [Option.map_none]
        rw [Nat.add_right_comm, ih]
      | some m =>
        have hskip : m.stop + d - (i + d) - 1 = m.stop - i - 1 := by omega
        dsimp only [Option.map_some, Match.shift]
        rw [hskip, Nat.add_right_comm, ih]
        rfl

theorem Match.span_shift [DecidableEq γ] (m : Match γ) (d : ℕ) (g : γ) :
    (m.shift d).span g = (m.span g).map fun p => (p.1 + d, p.2 + d) := by
  unfold Match.span Match.shift Groups.shift
  induction m.groups with
  | nil => rfl
  | cons g' gs ih =>
    obtain ⟨g', a, b⟩ := g'
    simp only [List.map_cons, List.lookup_cons]
    cases g == g' with
    | true => rfl
    | false => exact ih

end Regex
