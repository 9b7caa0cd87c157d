/-
# `TwoTier` — a bounded queue with an overflow behind it

New entries go to the front tier while it has room and to the back tier
otherwise; the front is refilled from the back as entries leave it.  Nothing
here knows what an entry is.

    refill, fill     move the boundary between the tiers, not the order
    pop              takes the first entry of the whole queue
    take             takes the first entry of the front that a test accepts
    push             is at the end of the queue only when it does not overtake
                     the back tier (`push_contents`)

`Lane` adds a preference: entries tagged `W` may be taken ahead of the first
one, at most `c` times in a row.  `Lane.overtaken` is the bound that follows,
by a potential that every pop decreases.
-/
import Mathlib.Data.List.Basic
import Mathlib.Data.List.Perm.Basic

/-- The two tiers. -/
structure TwoTier (α : Type) where
  front : List α := []
  back : List α := []

namespace TwoTier

variable {α : Type}

/-- All entries, in the order of the queue. -/
def contents (q : TwoTier α) : List α := q.front ++ q.back

section

variable (cap : Nat)

/-- One entry moves up, if there is one and there is room. -/
def refill (q : TwoTier α) : TwoTier α :=
  match q.back with
  | y :: ys => if q.front.length < cap then ⟨q.front ++ [y], ys⟩ else q
  | [] => q

/-- As many entries move up as there is room for. -/
def fill (q : TwoTier α) : TwoTier α :=
  ⟨q.front ++ q.back.take (cap - q.front.length), q.back.drop (cap - q.front.length)⟩

/-- The first entry of the front. -/
def popHead (q : TwoTier α) : Option α × TwoTier α :=
  match q.front with
  | x :: xs => (some x, ⟨xs, q.back⟩)
  | [] => (none, q)

/-- The first entry of the queue. -/
def pop (q : TwoTier α) : Option α × TwoTier α :=
  match q.front with
  | x :: xs => (some x, refill cap ⟨xs, q.back⟩)
  | [] => (q.fill cap).popHead

/-- Where a new entry goes. -/
def push (x : α) (q : TwoTier α) : TwoTier α :=
  if q.front.length < cap then ⟨q.front ++ [x], q.back⟩ else ⟨q.front, q.back ++ [x]⟩

end

/-- An entry leaves the front. -/
def take [DecidableEq α] (x : α) (q : TwoTier α) : TwoTier α :=
  ⟨q.front.erase x, q.back⟩

/-- A new first entry. -/
def pushHead (x : α) (q : TwoTier α) : TwoTier α := ⟨x :: q.front, q.back⟩

@[simp] theorem pushHead_contents (x : α) (q : TwoTier α) :
    (q.pushHead x).contents = x :: q.contents := rfl

@[simp] theorem refill_contents (cap : Nat) (q : TwoTier α) :
    (q.refill cap).contents = q.contents := by
  obtain ⟨front, back⟩ := q
  cases back with
  | nil => rfl
  | cons y ys =>
      simp only [refill, contents]
      split <;> simp

@[simp] theorem fill_contents (cap : Nat) (q : TwoTier α) :
    (q.fill cap).contents = q.contents := by
  simp [fill, contents]

/-- Refilling adds to the end of the front. -/
theorem refill_front (cap : Nat) (q : TwoTier α) :
    ∃ more, (q.refill cap).front = q.front ++ more := by
  obtain ⟨front, back⟩ := q
  cases back with
  | nil => exact ⟨[], by simp [refill]⟩
  | cons y ys =>
      simp only [refill]
      split
      · exact ⟨[y], rfl⟩
      · exact ⟨[], by simp⟩

theorem popHead_some {q q' : TwoTier α} {x : α} (h : q.popHead = (some x, q')) :
    q.front = x :: q'.front ∧ q.back = q'.back := by
  obtain ⟨front, back⟩ := q
  cases front with
  | nil => cases h
  | cons y ys => cases h; exact ⟨rfl, rfl⟩

/-- A pop takes the first entry of the whole queue. -/
theorem pop_some {cap : Nat} {q q' : TwoTier α} {x : α} (h : q.pop cap = (some x, q')) :
    q.contents = x :: q'.contents := by
  obtain ⟨front, back⟩ := q
  cases front with
  | cons y ys =>
      simp only [pop, Prod.mk.injEq, Option.some.injEq] at h
      obtain ⟨rfl, rfl⟩ := h
      rw [refill_contents]
      rfl
  | nil =>
      have hf := popHead_some (q := fill cap ⟨[], back⟩) h
      have hc := fill_contents cap (⟨[], back⟩ : TwoTier α)
      rw [← hc, contents, hf.1, hf.2]
      rfl

/-- With room for one entry, only the empty queue has nothing to pop. -/
theorem pop_none {cap : Nat} (hcap : 1 ≤ cap) {q q' : TwoTier α}
    (h : q.pop cap = (none, q')) : q.contents = [] ∧ q'.contents = [] := by
  obtain ⟨front, back⟩ := q
  cases front with
  | cons y ys => cases h
  | nil =>
      cases back with
      | nil =>
          simp only [pop, fill, popHead, List.take_nil, List.drop_nil, List.append_nil,
            Prod.mk.injEq, true_and] at h
          exact ⟨rfl, h ▸ rfl⟩
      | cons z zs =>
          obtain ⟨n, rfl⟩ : ∃ n, cap = n + 1 := ⟨cap - 1, by omega⟩
          simp [pop, fill, popHead] at h

/-- A new entry is the last one when it does not overtake the back tier. -/
theorem push_contents {cap : Nat} {q : TwoTier α} (x : α)
    (h : q.back = [] ∨ cap ≤ q.front.length) : (q.push cap x).contents = q.contents ++ [x] := by
  obtain ⟨front, back⟩ := q
  simp only [push, contents] at h ⊢
  split
  · next hlt =>
      rcases h with rfl | h
      · simp
      · omega
  · simp

/-- Wherever it goes, nothing else is added and nothing is lost. -/
theorem push_perm (cap : Nat) (q : TwoTier α) (x : α) :
    (q.push cap x).contents.Perm (x :: q.contents) := by
  obtain ⟨front, back⟩ := q
  simp only [push, contents]
  split
  · rw [List.append_assoc]
    exact List.perm_middle
  · rw [← List.append_assoc]
    exact (List.perm_append_singleton x _)

theorem take_contents [DecidableEq α] {q : TwoTier α} {x : α} (h : x ∈ q.front) :
    (q.take x).contents = q.contents.erase x := by
  simp only [take, contents]
  rw [List.erase_append_left _ h]

end TwoTier

/-! ## Preference -/

/-- A queue with a run-length counter: how many entries of the tag `last` were
taken in a row. -/
structure Lane (α τ : Type) where
  front : List α
  run : Nat
  last : Option τ

namespace Lane

variable {α τ : Type} [DecidableEq τ] (tag : α → τ)

/-- The counter after an entry has been taken. -/
def count (x : α) (q : Lane α τ) : Nat :=
  if some (tag x) = q.last then q.run + 1 else 1

/-- One move: entries join the end of the front; the first entry is taken; or
an entry tagged `W` is taken ahead of it, while the counter is below `c`. -/
inductive Step (c : Nat) (W : τ) : Lane α τ → Option α → Lane α τ → Prop where
  | join {q : Lane α τ} (more : List α) :
      Step c W q none { q with front := q.front ++ more }
  | first {q : Lane α τ} {x : α} {xs : List α} (more : List α) (h : q.front = x :: xs) :
      Step c W q (some x) ⟨xs ++ more, q.count tag x, some (tag x)⟩
  | prefer {q : Lane α τ} {x y : α} {a b : List α} (more : List α)
      (h : q.front = x :: a ++ y :: b) (hx : tag x ≠ W) (hy : tag y = W) (hc : q.run < c) :
      Step c W q (some y) ⟨x :: a ++ b ++ more, q.count tag y, some (tag y)⟩

/-- Several moves, with the entries they took. -/
inductive Run (c : Nat) (W : τ) : Lane α τ → List α → Lane α τ → Prop where
  | refl (q : Lane α τ) : Run c W q [] q
  | step {q q' q'' : Lane α τ} {l : List α} {o : Option α} (h : Run c W q l q')
      (hs : Step tag c W q' o q'') : Run c W q (l ++ o.toList) q''

/-- How many entries tagged `W` may still overtake the first entry. -/
def slack (c : Nat) (W : τ) (x : α) (q : Lane α τ) : Nat :=
  if tag x = W then 0 else if q.last = some W then c - q.run else c

/-- The potential of an entry with `a` ahead of it. -/
def potential (c : Nat) (W : τ) (a : List α) (x : α) (q : Lane α τ) : Nat :=
  a.length * (c + 1) + slack tag c W ((a ++ [x]).head (by simp)) q

theorem slack_le (c : Nat) (W : τ) (x : α) (q : Lane α τ) : slack tag c W x q ≤ c := by
  unfold slack
  split
  · exact Nat.zero_le _
  · split
    · exact Nat.sub_le _ _
    · exact Nat.le_refl _

variable {tag}

/-- The potential is the position, up to `c`. -/
theorem potential_bounds (c : Nat) (W : τ) (a : List α) (x : α) (q : Lane α τ) :
    a.length * (c + 1) ≤ potential tag c W a x q ∧
      potential tag c W a x q ≤ a.length * (c + 1) + c :=
  ⟨Nat.le_add_right _ _, Nat.add_le_add_left (slack_le tag c W _ q) _⟩

/-- One entry less ahead of `x` is less potential, whatever the counter. -/
theorem potential_shorter {c : Nat} {W : τ} {a a' : List α} {x : α} {q q' : Lane α τ}
    (h : a.length = a'.length + 1) :
    potential tag c W a' x q' + 1 ≤ potential tag c W a x q := by
  have h₁ : _ ≤ potential tag c W a x q := (potential_bounds c W a x q).1
  have h₂ : potential tag c W a' x q' ≤ _ := (potential_bounds c W a' x q').2
  rw [h, Nat.add_mul, Nat.one_mul] at h₁
  omega

/-- Taking `y` ahead of an entry that is not tagged `W` uses up slack. -/
theorem slack_prefer {c : Nat} {W : τ} {q : Lane α τ} {x y : α} (front : List α)
    (hx : tag x ≠ W) (hy : tag y = W) (hc : q.run < c) :
    slack tag c W x ⟨front, q.count tag y, some (tag y)⟩ + 1 ≤ slack tag c W x q := by
  simp only [slack, if_neg hx, hy, if_true, count]
  by_cases hl : q.last = some W
  · rw [if_pos hl, if_pos hl.symm]
    omega
  · rw [if_neg hl, if_neg fun h => hl h.symm]
    omega

/-- A move that takes another entry than `x` leaves `x` waiting, with less
potential. -/
theorem potential_step {c : Nat} {W : τ} {q q' : Lane α τ} {o : Option α} {x : α}
    {a b : List α} (hs : Step tag c W q o q') (hq : q.front = a ++ x :: b) (ho : o ≠ some x) :
    ∃ a' b', q'.front = a' ++ x :: b' ∧
      potential tag c W a' x q' + o.toList.length ≤ potential tag c W a x q := by
  cases hs with
  | join more => exact ⟨a, b ++ more, by simp [hq], Nat.le_refl _⟩
  | @first y xs more h =>
      cases a with
      | nil =>
          rw [hq] at h
          cases h
          exact absurd rfl ho
      | cons z a =>
          rw [hq, List.cons_append] at h
          cases h
          exact ⟨a, b ++ more, by simp, potential_shorter rfl⟩
  | @prefer z y a₀ b₀ more h hz hy hc =>
      -- `y` stands behind the first entry `z`, before or after `x`
      have hsplit : z :: a₀ ++ y :: b₀ = a ++ x :: b := h.symm.trans hq
      rcases List.append_eq_append_iff.mp hsplit with ⟨d, hd, hb⟩ | ⟨d, hd, hb⟩
      · cases d with
        | nil =>
            cases hb
            exact absurd rfl ho
        | cons w d =>
            cases hb
            refine ⟨z :: a₀ ++ d, b ++ more, by simp, potential_shorter ?_⟩
            simp only [hd, List.length_append, List.length_cons]
            omega
      · cases d with
        | nil =>
            cases hb
            exact absurd rfl ho
        | cons w d =>
            cases hb
            refine ⟨a, d ++ b₀ ++ more, by simp [hd], ?_⟩
            have hhead : (a ++ [x]).head (by simp) = z := by
              cases a with
              | nil => cases hd; rfl
              | cons v a => cases hd; rfl
            have hl := slack_prefer (z :: a₀ ++ b₀ ++ more) hz hy hc
            simp only [potential, hhead, Option.toList_some, List.length_cons, List.length_nil]
            omega

/-- However long the run, what was taken while `x` waits is bounded by its
potential. -/
theorem potential_run {c : Nat} {W : τ} {q q' : Lane α τ} {l : List α} {x : α} {a b : List α}
    (hr : Run tag c W q l q') (hq : q.front = a ++ x :: b) (hx : x ∉ l) :
    ∃ a' b', q'.front = a' ++ x :: b' ∧
      potential tag c W a' x q' + l.length ≤ potential tag c W a x q := by
  induction hr with
  | refl => exact ⟨a, b, hq, Nat.le_refl _⟩
  | @step q' q'' l o _ hs ih =>
      obtain ⟨a', b', hf, hp⟩ := ih fun h => hx (List.mem_append_left _ h)
      have ho : o ≠ some x := by
        rintro rfl
        exact hx (List.mem_append_right _ (by simp))
      obtain ⟨a'', b'', hf', hp'⟩ := potential_step hs hf ho
      refine ⟨a'', b'', hf', ?_⟩
      rw [List.length_append]
      omega

/-- Bounded overtaking: an entry at position `p` is taken within
`(p + 1) * (c + 1)` pops. -/
theorem overtaken {c : Nat} {W : τ} {q q' : Lane α τ} {l : List α} {x : α} {a b : List α}
    (hr : Run tag c W q l q') (hq : q.front = a ++ x :: b) (hx : x ∉ l) :
    l.length ≤ a.length * (c + 1) + c := by
  obtain ⟨a', b', _, hp⟩ := potential_run hr hq hx
  have hs : potential tag c W a x q ≤ _ := (potential_bounds c W a x q).2
  omega

end Lane
