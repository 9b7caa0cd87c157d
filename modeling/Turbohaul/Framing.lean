/-
# Cutting a stream into frames, chunk by chunk

A splitter takes the first frame off a stream, up to its delimiter.  The frames of
a stream are what it takes off while it can; what is left waits for the next
chunk.  Where the stream is cut into chunks does not matter, and nor does a cap on
what may wait, as long as every frame fits it.

  `Splitter`        with its laws
  `Splitter.frames` the frames of a stream, and what is left
  `frames_append`   the frames of two chunks
  `Fits`            every frame, the last one included, fits a cap
  `Fits.carried`    then so does whatever waits
  `Fits.before`     and every part of the stream
-/
import Mathlib.Data.List.Basic

namespace Turbohaul.Framing

variable {α : Type}

/-- Takes the first frame off a stream; the delimiter has `width` symbols. -/
structure Splitter (α : Type) where
  split : List α → Option (List α × List α)
  width : Nat
  width_pos : 0 < width
  /-- A frame is found where it was, whatever follows. -/
  append : ∀ {s f r} (t : List α), split s = some (f, r) → split (s ++ t) = some (f, r ++ t)
  length : ∀ {s f r}, split s = some (f, r) → s.length = f.length + width + r.length
  /-- A frame that more makes whole ends in what is more. -/
  straddle : ∀ {s t f r}, split s = none → split (s ++ t) = some (f, r) →
    s.length < f.length + width

namespace Splitter

variable (S : Splitter α)

/-- The frames of a stream, and what is left, in at most `fuel` cuts. -/
def cut : Nat → List α → List (List α) × List α
  | 0, s => ([], s)
  | fuel + 1, s =>
    match S.split s with
    | none => ([], s)
    | some (f, r) => (f :: (cut fuel r).1, (cut fuel r).2)

/-- The frames of a stream, and what is left. -/
def frames (s : List α) : List (List α) × List α := S.cut s.length s

/-- Every frame, with its delimiter, and what is left fit a cap. -/
def Fits (cap : Nat) (s : List α) : Prop :=
  (∀ f ∈ (S.frames s).1, f.length + S.width ≤ cap) ∧ (S.frames s).2.length ≤ cap

instance (cap : Nat) (s : List α) : Decidable (S.Fits cap s) :=
  inferInstanceAs (Decidable (_ ∧ _))

variable {S}

theorem cut_of_none {s : List α} (h : S.split s = none) (fuel : Nat) : S.cut fuel s = ([], s) := by
  cases fuel with
  | zero => rfl
  | succ fuel => rw [cut, h]

/-- More fuel than symbols changes nothing. -/
theorem cut_stable {s : List α} {n n' : Nat} (h : s.length ≤ n) (h' : s.length ≤ n') :
    S.cut n s = S.cut n' s := by
  induction n generalizing n' s with
  | zero =>
    have h0 : S.split s = none := by
      cases hs : S.split s with
      | none => rfl
      | some p =>
        have hlen := S.length hs
        have hw := S.width_pos
        omega
    rw [cut_of_none h0, cut_of_none h0]
  | succ n ih =>
    cases hs : S.split s with
    | none => rw [cut_of_none hs, cut_of_none hs]
    | some p =>
      have hlen := S.length hs
      have hw := S.width_pos
      cases n' with
      | zero => omega
      | succ n' =>
        have hr : S.cut n p.2 = S.cut n' p.2 := ih (by omega) (by omega)
        rw [cut, cut, hs]
        dsimp only
        rw [hr]

theorem frames_of_none {s : List α} (h : S.split s = none) : S.frames s = ([], s) :=
  cut_of_none h _

theorem frames_of_some {s f r : List α} (h : S.split s = some (f, r)) :
    S.frames s = (f :: (S.frames r).1, (S.frames r).2) := by
  have hlen := S.length h
  have hw := S.width_pos
  have hcut : S.cut s.length s = S.cut (r.length + 1 + s.length) s :=
    cut_stable (Nat.le_refl _) (by omega)
  have hr : S.cut (r.length + s.length) r = S.frames r := cut_stable (by omega) (Nat.le_refl _)
  rw [frames, hcut, show r.length + 1 + s.length = r.length + s.length + 1 by omega, cut, h]
  dsimp only
  rw [hr]

/-- A stream is cut frame by frame. -/
theorem induct {P : List α → Prop} (done : ∀ s, S.split s = none → P s)
    (next : ∀ s f r, S.split s = some (f, r) → P r → P s) (s : List α) : P s := by
  induction hn : s.length using Nat.strongRecOn generalizing s with
  | ind n ih =>
    cases hs : S.split s with
    | none => exact done s hs
    | some p =>
      have hlen := S.length hs
      have hw := S.width_pos
      exact next s p.1 p.2 hs (ih p.2.length (by omega) p.2 rfl)

/-- No frame is left. -/
theorem split_rest (s : List α) : S.split (S.frames s).2 = none := by
  induction s using S.induct with
  | done s h => rw [frames_of_none h]; exact h
  | next s f r h ih => rw [frames_of_some h]; exact ih

/-- The frames of two chunks: those of the first, and then those of what it left
and the second. -/
theorem frames_append (s t : List α) :
    S.frames (s ++ t) =
      ((S.frames s).1 ++ (S.frames ((S.frames s).2 ++ t)).1,
        (S.frames ((S.frames s).2 ++ t)).2) := by
  induction s using S.induct with
  | done s h => rw [frames_of_none h]; rfl
  | next s f r h ih =>
    rw [frames_of_some (S.append t h), ih, frames_of_some h]
    rfl

/-- What waits after a part of a stream that fits, fits. -/
theorem Fits.carried {cap : Nat} {s t : List α} (h : S.Fits cap (s ++ t)) :
    (S.frames s).2.length ≤ cap := by
  obtain ⟨hall, hrest⟩ := h
  rw [frames_append] at hall hrest
  have hnone := split_rest (S := S) s
  cases ht : S.split ((S.frames s).2 ++ t) with
  | none =>
    rw [frames_of_none ht] at hrest
    simp only [List.length_append] at hrest
    omega
  | some p =>
    have hlt := S.straddle hnone ht
    have hmem : p.1 ∈ (S.frames s).1 ++ (S.frames ((S.frames s).2 ++ t)).1 := by
      rw [frames_of_some ht]
      simp
    have hle := hall p.1 hmem
    omega

/-- A part of a stream that fits, fits. -/
theorem Fits.before {cap : Nat} {s t : List α} (h : S.Fits cap (s ++ t)) : S.Fits cap s := by
  refine ⟨fun f hf => h.1 f ?_, h.carried⟩
  rw [frames_append]
  exact List.mem_append_left _ hf

end Splitter

end Turbohaul.Framing
