/-
# A register read and replaced under version tags

A register is read and replaced by operations whose answers may show a tag
together with the value it stands for.  A history lists the operations, the
newest first.  The library says when a tag still stands for the present value:
when no change comes after an answer that showed it.

  `Entry`     what an operation showed, and whether it changed the register
  `Shown k`   some answer showed the tag `k`
  `Exact k v` every answer that showed `k` showed `v`, and no change followed it
  `Live k v`  an answer showed `k` with `v`, and no change followed it
-/
import Mathlib.Data.List.Basic

namespace Turbohaul.Register

variable {κ ν : Type}

/-- What one operation left in the history. -/
structure Entry (κ ν : Type) where
  shown : Option (κ × ν) := none
  changed : Bool := false

/-- Some answer showed the tag. -/
def Shown (k : κ) (h : List (Entry κ ν)) : Prop := ∃ e ∈ h, ∃ v, e.shown = some (k, v)

/-- Every answer that showed `k` showed `v`, and no change followed it. -/
def Exact (k : κ) (v : ν) : List (Entry κ ν) → Prop
  | [] => True
  | e :: h => Exact k v h ∧ (∀ v', e.shown = some (k, v') → v' = v) ∧
      (e.changed = true → ¬ Shown k h)

/-- An answer showed `k` with `v`, and no change followed it. -/
inductive Live (k : κ) (v : ν) : List (Entry κ ν) → Prop
  | here {e h} : e.shown = some (k, v) → Live k v (e :: h)
  | later {e h} : e.changed = false → Live k v h → Live k v (e :: h)

theorem not_shown_nil {k : κ} : ¬ Shown k ([] : List (Entry κ ν)) :=
  fun ⟨_, he, _⟩ => List.not_mem_nil he

theorem shown_cons {k : κ} {e : Entry κ ν} {h : List (Entry κ ν)} :
    Shown k (e :: h) ↔ (∃ v, e.shown = some (k, v)) ∨ Shown k h := by
  simp only [Shown, List.mem_cons, exists_eq_or_imp]

/-- A tag never shown stands for anything. -/
theorem exact_of_not_shown {k : κ} {v : ν} {h : List (Entry κ ν)} (hk : ¬ Shown k h) :
    Exact k v h := by
  induction h with
  | nil => trivial
  | cons e h ih =>
    rw [shown_cons, not_or] at hk
    exact ⟨ih hk.2, fun v' hv => absurd ⟨v', hv⟩ hk.1, fun _ => hk.2⟩

/-- An operation that changes nothing, and shows `k` with `v` only. -/
theorem Exact.keep {k : κ} {v : ν} {e : Entry κ ν} {h : List (Entry κ ν)} (H : Exact k v h)
    (he : e.changed = false) (hv : ∀ v', e.shown = some (k, v') → v' = v) :
    Exact k v (e :: h) :=
  ⟨H, hv, fun hc => absurd hc (by simp [he])⟩

/-- A change that gives the register a tag never shown. -/
theorem Exact.fresh {k : κ} {v : ν} {e : Entry κ ν} {h : List (Entry κ ν)} (hk : ¬ Shown k h)
    (hv : ∀ v', e.shown = some (k, v') → v' = v) : Exact k v (e :: h) :=
  ⟨exact_of_not_shown hk, hv, fun _ => hk⟩

/-- Where `k` was shown and stands for `v` only, it is live. -/
theorem Exact.live {k : κ} {v : ν} {h : List (Entry κ ν)} (H : Exact k v h) (hk : Shown k h) :
    Live k v h := by
  induction h with
  | nil => exact absurd hk not_shown_nil
  | cons e h ih =>
    obtain ⟨H, hv, hc⟩ := H
    rcases shown_cons.mp hk with ⟨v', he⟩ | hk
    · obtain rfl := hv v' he
      exact .here he
    · exact .later (by simpa using fun he => hc he hk) (ih H hk)

/-- What `Exact` says of the history as a list. -/
theorem Exact.split {k : κ} {v v' : ν} (newer : List (Entry κ ν)) {older : List (Entry κ ν)}
    {e : Entry κ ν} (H : Exact k v (newer ++ e :: older)) (he : e.shown = some (k, v')) :
    v' = v ∧ ∀ x ∈ newer, x.changed = false := by
  induction newer with
  | nil => exact ⟨H.2.1 v' he, by simp⟩
  | cons x newer ih =>
    obtain ⟨H, -, hc⟩ := H
    obtain ⟨hv, hn⟩ := ih H
    have hk : Shown k (newer ++ e :: older) := ⟨e, by simp, v', he⟩
    have hx : x.changed = false := by simpa using fun hx => hc hx hk
    exact ⟨hv, by simpa [hx] using hn⟩

end Turbohaul.Register
