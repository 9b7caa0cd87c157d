/-
# Python's text functions

Where the source prints a value with `!r` into an error, strips or searches a text.
A text that is searched is a list of characters, a position in it a number.
-/
import Mathlib.Data.List.DropRight
import Mathlib.Data.List.TakeWhile
import Mathlib.Tactic.Common

namespace Turbohaul

/-! ## The ends of a list -/

section Trim

variable {α : Type} {p : α → Bool} {s : List α}

/-- A list without what `p` holds of at its ends. -/
def trim (p : α → Bool) (s : List α) : List α := (s.dropWhile p).rdropWhile p

theorem dropWhile_eq_self (h : ∀ c ∈ s, p c = false) : s.dropWhile p = s := by
  refine List.dropWhile_eq_self_iff.mpr fun hl => ?_
  rw [h _ (List.getElem_mem hl)]
  exact Bool.false_ne_true

theorem trim_eq_self (h : ∀ c ∈ s, p c = false) : trim p s = s := by
  rw [trim, dropWhile_eq_self h, List.rdropWhile,
    dropWhile_eq_self fun c hc => h c (List.mem_reverse.mp hc), List.reverse_reverse]

theorem dropWhile_concat (t : List α) {c : α} (hc : p c = false) :
    (t ++ [c]).dropWhile p = t.dropWhile p ++ [c] := by
  have hone : [c].dropWhile p = [c] := dropWhile_eq_self (by simp [hc])
  rw [List.dropWhile_append, hone]
  split
  · rename_i h
    rw [List.isEmpty_iff.mp h]
    rfl
  · rfl

/-- What stays keeps what is before it. -/
theorem trim_concat (t : List α) {c : α} (hc : p c = false) :
    trim p (t ++ [c]) = t.dropWhile p ++ [c] := by
  rw [trim, dropWhile_concat t hc, List.rdropWhile_concat, if_neg]
  rw [hc]
  exact Bool.false_ne_true

theorem trim_last {c : α} (h : s.getLast? = some c) (hc : p c = false) :
    (trim p s).getLast? = some c := by
  obtain ⟨t, rfl⟩ := List.getLast?_eq_some_iff.mp h
  rw [trim_concat t hc, List.getLast?_concat]

theorem trim_dropWhile (p : α → Bool) (s : List α) : trim p (s.dropWhile p) = trim p s := by
  rw [trim, trim, List.dropWhile_idempotent]

/-- Where what stays begins with nothing that `q` holds of, `q` takes off what `p` does. -/
theorem dropWhile_wider {q : α → Bool} (hpq : ∀ c, p c = true → q c = true)
    (h : ∀ c ∈ (s.dropWhile p).head?, q c = false) : s.dropWhile q = s.dropWhile p := by
  induction s with
  | nil => rfl
  | cons c s ih =>
    cases hp : p c with
    | true =>
      rw [List.dropWhile_cons_of_pos hp] at h ⊢
      rw [List.dropWhile_cons_of_pos (hpq c hp)]
      exact ih h
    | false =>
      have hneg : ¬ p c = true := by rw [hp]; exact Bool.false_ne_true
      rw [List.dropWhile_cons_of_neg hneg] at h ⊢
      rw [List.dropWhile_cons_of_neg]
      rw [h c rfl]
      exact Bool.false_ne_true

theorem trim_eq_append (p : α → Bool) (s : List α) :
    ∃ rest, trim p s ++ rest = s.dropWhile p := List.rdropWhile_prefix _ _

end Trim

/-! ## Texts -/

/-- `repr` of a string whose characters are up to U+00FF, as those of a header or
a URL are. -/
def pyRepr (s : String) : String :=
  let quote := if s.toList.contains '\'' && !s.toList.contains '"' then '"' else '\''
  let hex (n : Nat) := "\\x" ++ String.ofList [Nat.digitChar (n / 16), Nat.digitChar (n % 16)]
  let escape (c : Char) : String :=
    if c = quote ∨ c = '\\' then String.ofList ['\\', c]
    else if c = '\t' then "\\t"
    else if c = '\n' then "\\n"
    else if c = '\r' then "\\r"
    else if c.toNat < 32 ∨ (127 ≤ c.toNat ∧ c.toNat ≤ 160) ∨ c.toNat = 173 then hex c.toNat
    else c.toString
  quote.toString ++ String.join (s.toList.map escape) ++ quote.toString

/-- `c.isspace()`: what `strip` takes off, and `\s` of a pattern. -/
def pyIsSpace (c : Char) : Bool :=
  let n := c.toNat
  (9 ≤ n && n ≤ 13) || (28 ≤ n && n ≤ 32) || n = 0x85 || n = 0xA0 || n = 0x1680 ||
    (0x2000 ≤ n && n ≤ 0x200A) || n = 0x2028 || n = 0x2029 || n = 0x202F || n = 0x205F || n = 0x3000

/-- `s.strip()`. -/
def strip (s : List Char) : List Char :=
  ((s.dropWhile pyIsSpace).reverse.dropWhile pyIsSpace).reverse

theorem strip_eq (s : List Char) : strip s = trim pyIsSpace s := rfl

/-- `s.find(sub)`. -/
def find (sub : List Char) : List Char → Option ℕ
  | [] => if sub = [] then some 0 else none
  | c :: s => if sub.isPrefixOf (c :: s) then some 0 else (find sub s).map (· + 1)

/-- `s.rfind(sub)`. -/
def rfind (sub : List Char) : List Char → Option ℕ
  | [] => if sub = [] then some 0 else none
  | c :: s =>
    match rfind sub s with
    | some i => some (i + 1)
    | none => if sub.isPrefixOf (c :: s) then some 0 else none

/-- `s[i:j]`. -/
def slice (s : List Char) (i j : ℕ) : List Char := (s.drop i).take (j - i)

/-- `re.sub(r"\n{3,}", "\n\n", s)`, after `n` line breaks that are not written yet. -/
def squash : ℕ → List Char → List Char
  | n, [] => List.replicate (min n 2) '\n'
  | n, c :: s =>
    if c = '\n' then squash (n + 1) s else List.replicate (min n 2) '\n' ++ c :: squash 0 s

theorem find_sound {sub s : List Char} {i : ℕ} (h : find sub s = some i) :
    ∃ before after, s = before ++ sub ++ after ∧ before.length = i := by
  induction s generalizing i with
  | nil =>
    rw [find] at h
    split at h
    · rename_i hsub
      exact ⟨[], [], by rw [hsub]; rfl, Option.some.inj h⟩
    · cases h
  | cons c s ih =>
    rw [find] at h
    split at h
    · rename_i hp
      obtain ⟨after, hafter⟩ := List.isPrefixOf_iff_prefix.mp hp
      exact ⟨[], after, hafter.symm, Option.some.inj h⟩
    · obtain ⟨j, hj, rfl⟩ := Option.map_eq_some_iff.mp h
      obtain ⟨before, after, rfl, rfl⟩ := ih hj
      exact ⟨c :: before, after, rfl, rfl⟩

theorem rfind_sound {sub s : List Char} {i : ℕ} (h : rfind sub s = some i) :
    ∃ before after, s = before ++ sub ++ after ∧ before.length = i := by
  induction s generalizing i with
  | nil =>
    rw [rfind] at h
    split at h
    · rename_i hsub
      exact ⟨[], [], by rw [hsub]; rfl, Option.some.inj h⟩
    · cases h
  | cons c s ih =>
    rw [rfind] at h
    split at h
    · rename_i j hj
      obtain ⟨before, after, rfl, rfl⟩ := ih hj
      exact ⟨c :: before, after, rfl, Option.some.inj h⟩
    · split at h
      · rename_i hp
        obtain ⟨after, hafter⟩ := List.isPrefixOf_iff_prefix.mp hp
        exact ⟨[], after, hafter.symm, Option.some.inj h⟩
      · cases h

/-- The last occurrence is the last one of a text that ends so. -/
theorem rfind_append {sub s : List Char} {i : ℕ} (h : rfind sub s = some i) (before : List Char) :
    rfind sub (before ++ s) = some (before.length + i) := by
  induction before with
  | nil => rw [List.nil_append, h, List.length_nil, Nat.zero_add]
  | cons c before ih =>
    rw [List.cons_append, rfind, ih]
    simp only [List.length_cons]
    congr 1
    omega

/-- An occurrence starts with the first character of what is searched. -/
theorem rfind_skip {a : Char} {cs s before : List Char} (h : rfind (a :: cs) s = none)
    (hbefore : a ∉ before) : rfind (a :: cs) (before ++ s) = none := by
  induction before with
  | nil => exact h
  | cons c before ih =>
    rw [List.cons_append, rfind, ih (List.not_mem_of_not_mem_cons hbefore)]
    refine if_neg fun hp => ?_
    rw [List.isPrefixOf_cons_cons, Bool.and_eq_true, beq_iff_eq] at hp
    exact hbefore (hp.1 ▸ List.mem_cons_self)

theorem strip_ne_nil {c : Char} {s : List Char} (hc : pyIsSpace c = false) :
    strip (c :: s) ≠ [] := by
  intro h
  rw [strip, List.dropWhile_cons_of_neg (by simp [hc]), List.reverse_eq_nil_iff, List.reverse_cons]
    at h
  have hall := List.dropWhile_eq_nil_iff.mp h c (List.mem_append_right _ List.mem_cons_self)
  rw [hc] at hall
  cases hall

end Turbohaul
