/-
# `Coop.Turn` — one segment of a task, and one call of it

A `Turn` of a task is what it does between two suspensions, move by move: what a
segment owes to an outline, a turn in a run of the system keeps
(`Outline.turn`).

An `Episode` is a run of one program only, among others that are given by a
relation.  What is verified of the program holds of its episodes, as far as that
relation is what the outline relies on (`Outline.episode`).  The outline `among`
relies on the relation and on nothing else.
-/
import Turbohaul.Coop.Logic
import Turbohaul.Coop.Episode

namespace Coop

variable {S : Sig} {Y : Sys S}

/-- Task `t` is resumed or started, and moves until it gives the loop back. -/
inductive Loop.Turn (A : Admit Y) (t : Nat) (c : Loop S) : Loop S → Prop where
  | resume {c' : Loop S} (r : S.Reply) : Loop.admits A c (.resume t r) = true →
      Loop.step Y c (.resume t r) = some c' → Turn A t c c'
  | start {c' : Loop S} (r : S.Reply) : Loop.admits A c (.start t r) = true →
      Loop.step Y c (.start t r) = some c' → Turn A t c c'
  | next {c₁ c' : Loop S} (m : Move Y) : Turn A t c c₁ → c₁.current.isSome = true →
      Loop.admits A c₁ m = true → Loop.step Y c₁ m = some c' → Turn A t c c'

namespace Outline

variable (P : Outline Y)

/-- What is owed on the way of a turn that began in `s`. -/
def Owed (t : Nat) (s : S.World) (c : Loop S) : Prop :=
  match c.current with
  | none => P.inv c.world ∧ P.guar (some t) s c.world
  | some (u, x) => u = t ∧ P.StopOk t (P.Ends t) s x

theorem settle_owed {t : Nat} {s : S.World} {x : Stop S Unit} {susp : Nat → Option (Susp S)}
    (h : P.StopOk t (P.Ends t) s x) : P.Owed t s (Loop.settle Y susp t x) := by
  cases x with
  | done r w => exact h
  | await o k w => exact h.1
  | ask o k w => exact ⟨rfl, h⟩
  | tau m w => exact ⟨rfl, h⟩

section

variable {w₀ : S.World} (V : P.Verified w₀)

include V

theorem turn_owed {t : Nat} {c c' : Loop S} (hc : P.LoopOk (fun _ => True) c)
    (h : Loop.Turn P.cond t c c') : P.Owed t c.world c' := by
  induction h with
  | resume r ha hs =>
      simp only [Loop.step] at hs
      split at hs
      · next o k hcur hsus =>
          split at hs
          · next hal =>
              cases hs
              simp only [LoopOk, hcur] at hc
              simp only [Loop.admits, hsus] at ha
              exact P.settle_owed (P.wp_run t (hc.2 t _ hsus _ .refl hc.1.1 r hal ha))
          · cases hs
      · cases hs
  | start r ha hs =>
      simp only [Loop.step] at hs
      split at hs
      · next kd hcur hsus hf =>
          split at hs
          · next hal =>
              cases hs
              simp only [LoopOk, hcur] at hc
              exact P.settle_owed (P.wp_run t (V.start t _ kd r hc.1.1 hf hal ha))
          · cases hs
      · cases hs
  | @next c₁ c₂ m _ hcur ha hs ih =>
      cases m with
      | resume u r =>
          simp only [Loop.step] at hs
          split at hs
          · next hn _ => rw [hn] at hcur; cases hcur
          · cases hs
      | start u r =>
          simp only [Loop.step] at hs
          split at hs
          · next hn _ _ => rw [hn] at hcur; cases hcur
          · cases hs
      | env e =>
          simp only [Loop.step] at hs
          split at hs
          · next hn => rw [hn] at hcur; cases hcur
          · cases hs
      | answer r =>
          simp only [Loop.step] at hs
          split at hs
          · next u o k w hn =>
              split at hs
              · next hal =>
                  cases hs
                  simp only [Owed, hn] at ih
                  simp only [Loop.admits, hn] at ha
                  obtain ⟨rfl, hx⟩ := ih
                  exact P.settle_owed (P.wp_run _ (hx r hal ha))
              · cases hs
          · cases hs
      | go =>
          simp only [Loop.step] at hs
          split at hs
          · next u m w hn =>
              cases hs
              simp only [Owed, hn] at ih
              obtain ⟨rfl, hx⟩ := ih
              exact P.settle_owed (P.wp_run _ hx)
          · cases hs

/-- A turn in a run keeps what the segments of its task keep. -/
theorem turn (hb : ∀ c, Loop.Reach P.cond { world := w₀ } c → c.current = none → P.base c.world)
    {t : Nat} {c c' : Loop S} (h : Loop.Reach P.cond { world := w₀ } c)
    (ht : Loop.Turn P.cond t c c') (hc' : c'.current = none) :
    P.guar (some t) c.world c'.world := by
  have ho := P.turn_owed V (P.reach_ok V hb h) ht
  simp only [Owed, hc'] at ho
  exact ho.2

end

/-- What is verified of a program holds at the end of its episodes. -/
theorem episode {t : Nat} {α : Type} {E : S.World → S.World → Prop}
    (hE : ∀ w w', P.inv w → E w w' → P.Rely t w w' ∧ P.Good w') {m : Co S α} {w w' : S.World}
    {os : List (S.Op × S.Reply)} {r : Res S α} (h : Episode Y E t m w os r w') :
    (∀ o x, (o, x) ∈ os → ∀ w, P.cond.reply t o x w = true) →
      ∀ {Q : Post S α} {s : S.World}, wp P t m Q s w → ∃ s', Q r s' w' := by
  induction h with
  | done h =>
      intro _ Q s hw
      have hs := P.wp_run t hw
      rw [h] at hs
      exact ⟨s, hs⟩
  | ask h hx _ ih =>
      intro hc Q s hw
      have hs := P.wp_run t hw
      rw [h] at hs
      exact ih (fun o x hm => hc o x (List.mem_cons_of_mem _ hm))
        (hs _ hx (hc _ _ List.mem_cons_self _))
  | await h he hx _ ih =>
      intro hc Q s hw
      have hs := P.wp_run t hw
      rw [h] at hs
      obtain ⟨hr, hg⟩ := hE _ _ hs.1.1 he
      exact ih (fun o x hm => hc o x (List.mem_cons_of_mem _ hm))
        (hs.2 _ hr hg _ hx (hc _ _ List.mem_cons_self _))
  | tau h _ ih =>
      intro hc Q s hw
      have hs := P.wp_run t hw
      rw [h] at hs
      exact ih hc hs

end Outline

/-! ## A program among others -/

variable {F : S.Op → Bool} {E : S.World → S.World → Prop} {t : Nat}

/-- One program among others that are given by a relation, as long as it calls no
operation of `F`. -/
def among (Y : Sys S) (F : S.Op → Bool) (E : S.World → S.World → Prop) (t : Nat) : Outline Y where
  cond := { reply := fun _ o _ _ => !F o }
  base := fun _ => True
  inv := fun _ => True
  guar := fun u w w' => u ≠ some t → E w w'

/-- An assertion is kept among the others if its own statements and the relation keep it. -/
theorem frames_among {J : S.World → Prop} {A : S.World → S.World → Prop} {K : S.Op → Prop}
    (act : ∀ w w', A w w' → J w → J w') (issue : ∀ o w, K o → J w → J (Y.issue t o w))
    (answer : ∀ o x w, K o → J w → J (Y.answer t o x w)) (others : ∀ w w', E w w' → J w → J w') :
    Frames (among Y F E t) t (fun _ => J) A K where
  act := fun h hi => act _ _ h hi
  ask := fun o ho _ w hi x _ _ => answer o x w ho hi
  await := fun o ho s w hi => by
    refine ⟨⟨trivial, fun h => absurd rfl h⟩, fun w' hr _ x _ _ => answer o x w' ho ?_⟩
    have hJ : J (Y.issue t o w) → J w' := by
      refine hr.keeps (R := fun w w' => J w → J w') (fun _ => id)
        (fun _ _ _ h h' => h' ∘ h) ?_
      intro u w w' hu _ _ hg
      exact others w w' (hg hu)
    exact hJ (issue o w ho hi)

/-- What is verified of a program among others holds of its episodes. -/
theorem among_episode {α : Type} {m : Co S α} {w w' : S.World} {os : List (S.Op × S.Reply)}
    {r : Res S α} {Q : Post S α} (h : Episode Y E t m w os r w')
    (hF : ∀ o x, (o, x) ∈ os → F o = false) (hw : wp (among Y F E t) t m Q w w) :
    ∃ s, Q r s w' := by
  have hE : ∀ w w', (among Y F E t).inv w → E w w' →
      (among Y F E t).Rely t w w' ∧ (among Y F E t).Good w' := fun w w' _ he =>
    ⟨.single ⟨none, (by rintro ⟨⟩), ⟨trivial, trivial⟩, ⟨trivial, trivial⟩, fun _ => he⟩, trivial,
    trivial⟩
  have hc : ∀ o x, (o, x) ∈ os → ∀ w, (among Y F E t).cond.reply t o x w = true := by
    intro o x hx w
    simp [among, hF o x hx]
  exact (among Y F E t).episode hE h hc hw

end Coop
