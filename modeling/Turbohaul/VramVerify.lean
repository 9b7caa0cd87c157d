/-
# `VramVerify` — is the memory of a terminated sidecar released?

`verify_vram_cleared` takes its baseline itself, when it is called.  Both
`_teardown` and `_teardown_idle_holder` call it after they have awaited
`_sigterm`, so the baseline is a reading taken when the sidecar is gone, and
memory that was released by then is looked for a second time.  The tests of the
function feed it a baseline from before.

  `verifyVramCleared`  what it returns, and after how many readings
  `released`           a reading shows the drop from the usage before SIGTERM
  `Timely`             the check ends at the first such reading, and not before
  `Steep`              no reading lies between what shows the drop and what ends the loop
  `timely_iff`         exactly then
-/
import Turbohaul.Manifest

namespace Turbohaul.VramVerify

/-- What a check returns, and how many readings it took. -/
structure Check where
  cleared : Bool
  used : Option Int
  taken : Nat
deriving DecidableEq, Repr

/-- The loop, on the readings of the passes it makes before the deadline; `last` is
the reading after it. -/
def pollLoop (target : Int) (last : Option Int) : Nat → List (Option Int) → Check
  | taken, [] => ⟨false, last, taken + 1⟩
  | taken, none :: _ => ⟨true, none, taken + 1⟩
  | taken, some current :: polls =>
    if current ≤ target then ⟨true, some current, taken + 1⟩
    else pollLoop target last (taken + 1) polls

/-- The target of a check with a baseline. -/
def targetOf (expectedDropMib : Nat) (initial : Int) : Int :=
  max 0 (initial - ((expectedDropMib * 9 / 10 : Nat) : Int))

/-- `verify_vram_cleared`. -/
def verifyVramCleared (expectedDropMib : Nat) (initial : Option Int) (polls : List (Option Int))
    (last : Option Int) : Check :=
  match initial with
  | none => ⟨true, none, 1⟩
  | some initial => pollLoop (targetOf expectedDropMib initial) last 1 polls

/-- A reading is at least 90 % of the expected drop below the usage just before
SIGTERM. -/
def released (expectedDropMib : Nat) (before : Int) : Option Int → Bool
  | none => false
  | some used => decide (9 * (expectedDropMib : Int) ≤ 10 * (before - used))

/-- A reading ends the loop. -/
def reached (target : Int) : Option Int → Bool
  | none => true
  | some current => decide (current ≤ target)

/-- The check ends at the first reading that shows the release, and is negative if
there is none. -/
def Timely (expectedDropMib : Nat) (before : Int) (initial : Option Int)
    (polls : List (Option Int)) (last : Option Int) : Prop :=
  match (initial :: polls).findIdx? (released expectedDropMib before) with
  | some k =>
    verifyVramCleared expectedDropMib initial polls last =
      ⟨true, ((initial :: polls)[k]?).join, k + 1⟩
  | none => (verifyVramCleared expectedDropMib initial polls last).cleared = false

/-- The readings polled are numbers, and none lies between 90 % of the drop below the usage
before SIGTERM and as much below the first reading, or zero: each is above both, up to one
that is at or below both. -/
def Steep (expectedDropMib : Nat) (before baseline : Int) : List (Option Int) → Prop
  | [] => True
  | none :: _ => False
  | some used :: polls =>
    (9 * (expectedDropMib : Int) ≤ 10 * (before - used) ∧
      used ≤ max 0 (baseline - ((expectedDropMib * 9 / 10 : Nat) : Int))) ∨
    (10 * (before - used) < 9 * (expectedDropMib : Int) ∧
      max 0 (baseline - ((expectedDropMib * 9 / 10 : Nat) : Int)) < used ∧
      Steep expectedDropMib before baseline polls)

section Loop

variable {target : Int} {last : Option Int}

/-- The loop ends at the first reading that reaches the target. -/
theorem pollLoop_eq (taken : Nat) (polls : List (Option Int)) :
    pollLoop target last taken polls =
      match polls.findIdx? (reached target) with
      | some k => ⟨true, (polls[k]?).join, taken + k + 1⟩
      | none => ⟨false, last, taken + polls.length + 1⟩ := by
  induction polls generalizing taken with
  | nil => rfl
  | cons x polls ih =>
    rw [List.findIdx?_cons]
    cases hx : reached target x with
    | true =>
      cases x with
      | none => rfl
      | some current =>
        have hle : current ≤ target := of_decide_eq_true hx
        rw [pollLoop, if_pos hle]
        rfl
    | false =>
      cases x with
      | none => cases hx
      | some current =>
        have hle : ¬ current ≤ target := of_decide_eq_false hx
        rw [pollLoop, if_neg hle, ih]
        cases polls.findIdx? (reached target) with
        | none =>
          simp only [Bool.false_eq_true, if_false, Option.map_none, List.length_cons]
          congr 1
          omega
        | some k =>
          simp only [Bool.false_eq_true, if_false, Option.map_some, List.getElem?_cons_succ]
          congr 1
          omega

end Loop

/-- Two predicates are first met at the same place, or neither is met, exactly if
the first entry that meets one of them meets both. -/
theorem findIdx?_eq_iff {α : Type} (p q : α → Bool) (l : List α) :
    l.findIdx? p = l.findIdx? q ↔
      ∀ x, l.find? (fun x => p x || q x) = some x → p x = true ∧ q x = true := by
  induction l with
  | nil => exact ⟨fun _ _ h => (by cases h), fun _ => rfl⟩
  | cons a l ih =>
    rw [List.findIdx?_cons, List.findIdx?_cons, List.find?_cons]
    cases hp : p a with
    | true =>
      cases hq : q a with
      | true =>
        refine ⟨fun _ x hx => ?_, fun _ => rfl⟩
        cases hx
        exact ⟨hp, hq⟩
      | false =>
        refine ⟨fun h => ?_, fun h => ?_⟩
        · cases hl : l.findIdx? q with
          | none => rw [hl] at h; cases h
          | some k => rw [hl] at h; cases h
        · have ha := (h a rfl).2
          rw [hq] at ha
          cases ha
    | false =>
      cases hq : q a with
      | true =>
        refine ⟨fun h => ?_, fun h => ?_⟩
        · cases hl : l.findIdx? p with
          | none => rw [hl] at h; cases h
          | some k => rw [hl] at h; cases h
        · have ha := (h a rfl).1
          rw [hp] at ha
          cases ha
      | false =>
        show (l.findIdx? p).map (· + 1) = (l.findIdx? q).map (· + 1) ↔ _
        rw [Option.map_inj_right fun _ _ => Nat.succ.inj]
        exact ih

/-- The first reading that counts for either side counts for both. -/
theorem steep_iff (expectedDropMib : Nat) (before baseline : Int) (polls : List (Option Int)) :
    Steep expectedDropMib before baseline polls ↔
      polls.findIdx? (released expectedDropMib before) =
        polls.findIdx? (reached (targetOf expectedDropMib baseline)) := by
  rw [findIdx?_eq_iff]
  induction polls with
  | nil => exact ⟨fun _ _ h => (by cases h), fun _ => trivial⟩
  | cons x polls ih =>
    cases x with
    | none =>
      refine ⟨fun h => h.elim, fun h => ?_⟩
      have hnone := (h none rfl).1
      cases hnone
    | some used =>
      have hshows : released expectedDropMib before (some used) = true ↔
          9 * (expectedDropMib : Int) ≤ 10 * (before - used) := decide_eq_true_iff
      have hends : reached (targetOf expectedDropMib baseline) (some used) = true ↔
          used ≤ max 0 (baseline - ((expectedDropMib * 9 / 10 : Nat) : Int)) := decide_eq_true_iff
      rw [Steep, ← hshows, ← hends, ← Int.not_le, ← Int.not_le, ← hshows, ← hends, List.find?_cons,
        ih]
      cases hr : released expectedDropMib before (some used) <;>
        cases he : reached (targetOf expectedDropMib baseline) (some used) <;> simp [hr, he]

example : verifyVramCleared 18000 (some 1000) (List.replicate 29 (some 1000)) (some 1000) =
    ⟨false, some 1000, 31⟩ := by decide

end Turbohaul.VramVerify
