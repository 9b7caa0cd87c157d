/-
# `Coop.Logic` — invariants of cooperative tasks

What is proved of a system of tasks is an invariant of its world that holds
whenever the event loop has control.  A task may break it between two
suspensions; it has to restore it before it suspends again.

An `Outline` names the invariant and, for each task, a relation its segments
keep (`guar`).  While a task is suspended the others move, each keeping the
invariant and its own relation: that is `Rely`.

`wp P t m Q s w` is the weakest precondition of the program `m` of task `t`.
Its assertions speak of two worlds, `s` where the running segment began and
`w` where it is now, since what a segment owes at its end is a relation
between the two.

    suspending      restore the invariant, keep the relation, forget `s`
    being answered  the world is any the others can have made of it
    a loop          some assertion `J` holds on every turn

`Outline.sound` is the induction over runs, done once: it is enough to verify
the body of each kind of task from the invariant alone.  What is already known
to hold whenever the loop has control may be assumed as the outline's `base`,
so that one outline is built on another.
-/
import Turbohaul.Coop.System

namespace Coop

variable {S : Sig} {Y : Sys S}

/-- What is claimed of a system of tasks.  `base` is assumed, `inv` is claimed;
`guar none` is the environment's. -/
structure Outline (Y : Sys S) where
  cond : Admit Y
  base : S.World → Prop
  inv : S.World → Prop
  guar : Option Nat → S.World → S.World → Prop

/-- Assertions on the outcome of a program. -/
abbrev Post (S : Sig) (α : Type) := Res S α → S.World → S.World → Prop

namespace Outline

variable (P : Outline Y)

/-- What is known of a world in which the event loop has control. -/
def Good (w : S.World) : Prop := P.inv w ∧ P.base w

/-- One move of somebody else than `t`. -/
def Other (t : Nat) (w w' : S.World) : Prop :=
  ∃ u, u ≠ some t ∧ P.Good w ∧ P.Good w' ∧ P.guar u w w'

/-- Any number of moves of the others. -/
def Rely (t : Nat) : S.World → S.World → Prop :=
  Relation.ReflTransGen (P.Other t)

/-- What every other task's segments keep, their runs keep. -/
theorem Rely.keeps {P : Outline Y} {t : Nat} {R : S.World → S.World → Prop}
    (hr : ∀ w, R w w) (ht : ∀ a b c, R a b → R b c → R a c)
    (ho : ∀ u w w', u ≠ some t → P.Good w → P.Good w' → P.guar u w w' → R w w')
    {w w' : S.World} (h : P.Rely t w w') : R w w' := by
  induction h with
  | refl => exact hr _
  | tail _ hs ih =>
      obtain ⟨u, hu, hi, hi', hg⟩ := hs
      exact ht _ _ _ ih (ho u _ _ hu hi hi' hg)

end Outline

/-- The continuation of a `bind`, as a postcondition of its first half. -/
def Post.bind {α β : Type} (f : α → S.World → S.World → Prop) (Q : Post S β) : Post S α
  | .ok a => f a
  | .error e => Q (.error e)

/-- What a `try` owes to its handler, as a postcondition of its body. -/
def Post.caught {α : Type} (h : S.Err → S.World → S.World → Prop) (Q : Post S α) : Post S α
  | .error (.raised e) => h e
  | r => Q r

/-- What a `finally` owes after its body has ended with `r`. -/
def Post.final {α : Type} (r : Res S α) (Q : Post S α) : Post S Unit
  | .ok _ => Q r
  | .error e => Q (.error e)

/-- The assertion a loop's body has to establish. -/
def Post.turn {α β : Type} (J : β → S.World → S.World → Prop) (Q : Post S α) :
    Post S (β ⊕ α)
  | .ok (.inl b) => J b
  | .ok (.inr a) => Q (.ok a)
  | .error e => Q (.error e)

/-- The weakest precondition. -/
def wp (P : Outline Y) (t : Nat) :
    {α : Type} → Co S α → Post S α → S.World → S.World → Prop
  | _, .pure a, Q => Q (.ok a)
  | _, .throw e, Q => Q (.error e)
  | _, .act f, Q => fun s w => Q (f w).1 s (f w).2
  | _, .ask o, Q => fun s w =>
      ∀ r, Y.allowed t o r w → P.cond.reply t o r w → Q (.ok r) s (Y.answer t o r w)
  | _, .await o, Q => fun s w =>
      (P.inv (Y.issue t o w) ∧ P.guar (some t) s (Y.issue t o w)) ∧
      ∀ w', P.Rely t (Y.issue t o w) w' → P.Good w' →
        ∀ r, Y.allowed t o r w' → P.cond.reply t o r w' →
          Q (.ok r) w' (Y.answer t o r w')
  | _, .bind m k, Q => wp P t m (Post.bind (fun a => wp P t (k a) Q) Q)
  | _, .attempt m, Q => wp P t m fun r => Q (.ok r)
  | _, .loop b body, Q => fun s w =>
      ∃ J : _ → S.World → S.World → Prop, J b s w ∧
        ∀ b s w, J b s w → wp P t (body b) (Post.turn J Q) s w

section Rules

variable {P : Outline Y} {t : Nat} {α β γ : Type}

theorem Post.bind_mono {f g : α → S.World → S.World → Prop} {Q Q' : Post S β}
    (hf : ∀ a s w, f a s w → g a s w) (hq : ∀ r s w, Q r s w → Q' r s w) :
    ∀ r s w, Post.bind f Q r s w → Post.bind g Q' r s w
  | .ok a, s, w, h => hf a s w h
  | .error e, s, w, h => hq (.error e) s w h

theorem Post.turn_mono {J : β → S.World → S.World → Prop} {Q Q' : Post S α}
    (hq : ∀ r s w, Q r s w → Q' r s w) :
    ∀ r s w, Post.turn J Q r s w → Post.turn J Q' r s w
  | .ok (.inl _), _, _, h => h
  | .ok (.inr a), s, w, h => hq (.ok a) s w h
  | .error e, s, w, h => hq (.error e) s w h

/-- The rule of consequence. -/
theorem wp_mono : ∀ {α : Type} {m : Co S α} {Q Q' : Post S α} {s w : S.World},
    (∀ r s w, Q r s w → Q' r s w) → wp P t m Q s w → wp P t m Q' s w := by
  intro α m
  induction m with
  | pure a => intro Q Q' s w hq h; exact hq _ _ _ h
  | throw e => intro Q Q' s w hq h; exact hq _ _ _ h
  | act f => intro Q Q' s w hq h; exact hq _ _ _ h
  | ask o => intro Q Q' s w hq h r ha hr; exact hq _ _ _ (h r ha hr)
  | await o =>
      intro Q Q' s w hq h
      exact ⟨h.1, fun w' hw hi r ha hr => hq _ _ _ (h.2 w' hw hi r ha hr)⟩
  | bind m k ihm ihk =>
      intro Q Q' s w hq h
      exact ihm (Post.bind_mono (fun a _ _ h' => ihk a hq h') hq) h
  | attempt m ih =>
      intro Q Q' s w hq h
      exact ih (fun r s w h' => hq (.ok r) s w h') h
  | loop b body ih =>
      intro Q Q' s w hq h
      obtain ⟨J, h0, hJ⟩ := h
      exact ⟨J, h0, fun b s w hb => ih b (Post.turn_mono hq) (hJ b s w hb)⟩

/-- Sequencing through an assertion that says what the first half does. -/
theorem wp_seq {m : Co S α} {k : α → Co S β} {M : Post S α} {Q : Post S β} {s w : S.World}
    (hm : wp P t m M s w) (hk : ∀ a s w, M (.ok a) s w → wp P t (k a) Q s w)
    (he : ∀ e s w, M (.error e) s w → Q (.error e) s w) :
    wp P t (m >>= k) Q s w := by
  refine wp_mono (m := m) (Q := M) ?_ hm
  intro r s w h
  cases r with
  | ok a => exact hk a s w h
  | error e => exact he e s w h

@[simp] theorem wp_bind {m : Co S α} {k : α → Co S β} {Q : Post S β} {s w : S.World} :
    wp P t (m >>= k) Q s w = wp P t m (Post.bind (fun a => wp P t (k a) Q) Q) s w := rfl

@[simp] theorem wp_modify {f : S.World → S.World} {Q : Post S Unit} {s w : S.World} :
    wp P t (Co.modify f) Q s w = Q (.ok ()) s (f w) := rfl

@[simp] theorem wp_gets_bind {f : S.World → α} {k : α → Co S β} {Q : Post S β}
    {s w : S.World} : wp P t (Co.gets f >>= k) Q s w = wp P t (k (f w)) Q s w := rfl

@[simp] theorem wp_modify_bind {f : S.World → S.World} {k : Unit → Co S β} {Q : Post S β}
    {s w : S.World} : wp P t (Co.modify f >>= k) Q s w = wp P t (k ()) Q s (f w) := rfl

@[simp] theorem wp_when {c : Bool} {m : Co S Unit} {Q : Post S Unit} {s w : S.World} :
    wp P t (Co.when c m) Q s w = if c then wp P t m Q s w else Q (.ok ()) s w := by
  cases c <;> rfl

@[simp] theorem wp_resume {r : Res S α} {Q : Post S α} {s w : S.World} :
    wp P t (Co.resume r) Q s w ↔ Q r s w := by
  cases r <;> rfl

/-- The rule of `try`/`except`. -/
theorem wp_tryExcept {m : Co S α} {h : S.Err → Co S α} {Q : Post S α} {s w : S.World}
    (hw : wp P t m (Post.caught (fun e => wp P t (h e) Q) Q) s w) :
    wp P t (Co.tryExcept m h) Q s w := by
  refine wp_mono (m := m) ?_ hw
  intro r s w hr
  match r with
  | .ok a => exact hr
  | .error (.raised e) => exact hr
  | .error .cancelled => exact hr

/-- The rule of `try`/`finally`. -/
theorem wp_tryFinally {m : Co S α} {f : Co S Unit} {Q : Post S α} {s w : S.World}
    (hw : wp P t m (fun r => wp P t f (Post.final r Q)) s w) :
    wp P t (Co.tryFinally m f) Q s w := by
  refine wp_mono (m := m) ?_ hw
  intro r s w hr
  refine wp_mono (m := f) ?_ hr
  intro r' s w hr'
  cases r' with
  | ok _ => exact wp_resume.mpr hr'
  | error e => exact hr'

@[simp] theorem Post.bind_ok {f : α → S.World → S.World → Prop} {Q : Post S β} {a : α}
    {s w : S.World} : Post.bind f Q (.ok a) s w = f a s w := rfl

end Rules

/-! ## Soundness -/

namespace Outline

variable (P : Outline Y)

/-- What is owed at a stop. -/
def StopOk (t : Nat) {α : Type} (Q : Post S α) (s : S.World) : Stop S α → Prop
  | .done r w => Q r s w
  | .ask o k w =>
      ∀ r, Y.allowed t o r w → P.cond.reply t o r w → wp P t (k r) Q s (Y.answer t o r w)
  | .await o k w =>
      (P.inv (Y.issue t o w) ∧ P.guar (some t) s (Y.issue t o w)) ∧
      ∀ w', P.Rely t (Y.issue t o w) w' → P.Good w' →
        ∀ r, Y.allowed t o r w' → P.cond.reply t o r w' →
          wp P t (k r) Q w' (Y.answer t o r w')
  | .tau m w => wp P t m Q s w

/-- Running a program to its next stop. -/
theorem wp_run (t : Nat) : ∀ {α : Type} {m : Co S α} {Q : Post S α} {s w : S.World},
    wp P t m Q s w → P.StopOk t Q s (m.run w) := by
  intro α m
  induction m with
  | pure a => intro Q s w h; exact h
  | throw e => intro Q s w h; exact h
  | act f => intro Q s w h; exact h
  | ask o => intro Q s w h; exact h
  | await o => intro Q s w h; exact h
  | bind m k ihm ihk =>
      intro Q s w h
      have hm := ihm h
      unfold Co.run
      cases hr : m.run w with
      | done r w' =>
          rw [hr] at hm
          cases r with
          | ok a => exact ihk a hm
          | error e => exact hm
      | ask o c w' => rw [hr] at hm; exact hm
      | await o c w' => rw [hr] at hm; exact hm
      | tau m' w' => rw [hr] at hm; exact hm
  | attempt m ih =>
      intro Q s w h
      have hm := ih h
      unfold Co.run
      cases hr : m.run w with
      | done r w' => rw [hr] at hm; exact hm
      | ask o c w' => rw [hr] at hm; exact hm
      | await o c w' => rw [hr] at hm; exact hm
      | tau m' w' => rw [hr] at hm; exact hm
  | loop b body ih =>
      intro Q s w h
      obtain ⟨J, h0, hJ⟩ := h
      -- the back edge: the next turn starts from `J` again
      refine wp_mono (m := body b) ?_ (hJ b s w h0)
      intro r s w hr
      match r, hr with
      | .ok (.inl b'), hr => exact ⟨J, hr, hJ⟩
      | .ok (.inr a), hr => exact hr
      | .error e, hr => exact hr

/-- What a task owes at its end. -/
def Ends (t : Nat) : Post S Unit := fun r s w =>
  P.inv (Y.finished t r w) ∧ P.guar (some t) s (Y.finished t r w)

/-- What a suspended task may rely on having verified. -/
def Waiting (t : Nat) (p : Susp S) (w : S.World) : Prop :=
  ∀ w', P.Rely t w w' → P.Good w' → ∀ r, Y.allowed t p.op r w' → P.cond.reply t p.op r w' →
    wp P t (p.cont r) (P.Ends t) w' (Y.answer t p.op r w')

theorem Waiting.other {P : Outline Y} {t : Nat} {p : Susp S} {w w' : S.World}
    (h : P.Waiting t p w) (ho : P.Other t w w') : P.Waiting t p w' :=
  fun w'' hr hi r ha hm => h w'' (Relation.ReflTransGen.head ho hr) hi r ha hm

/-- What all segments, and the environment, keep. -/
def Kept (H : S.World → Prop) : Prop :=
  ∀ u w w', P.Good w → P.Good w' → P.guar u w w' → H w → H w'

/-- What a move into `c'` keeps, if it gives the event loop back. -/
def KeptInto (H : S.World → Prop) (c' : Loop S) : Prop :=
  c'.current = none → ∀ u w, P.Good w → P.Good c'.world → P.guar u w c'.world → H w →
    H c'.world

/-- The invariant of the event loop: at rest the world's invariant holds, and
while a task runs it held where its segment began.  So does `H`. -/
def LoopOk (H : S.World → Prop) (c : Loop S) : Prop :=
  match c.current with
  | none => (P.Good c.world ∧ H c.world) ∧ ∀ t p, c.susp t = some p → P.Waiting t p c.world
  | some (t, x) => ∃ s, (P.Good s ∧ H s) ∧ P.StopOk t (P.Ends t) s x ∧
      ∀ u p, u ≠ t → c.susp u = some p → P.Waiting u p s

/-- What has to be verified: the initial world, every kind of task from the
invariant alone, and the environment's steps. -/
structure Verified (w₀ : S.World) : Prop where
  init : P.inv w₀
  start : ∀ t w k r, P.Good w → Y.fresh w t = some k → Y.allowed t Y.entry r w →
    P.cond.reply t Y.entry r w →
    wp P t (Y.body t k r) (P.Ends t) w (Y.answer t Y.entry r w)
  env : ∀ e w w', P.Good w → P.cond.env e w → Y.env e w = some w' →
    P.inv w' ∧ P.guar none w w'

/-- A segment that began in `s` and reached a stop. -/
theorem settle_ok {H : S.World → Prop} {t : Nat} {s : S.World}
    {x : Stop S Unit} {susp : Nat → Option (Susp S)}
    (hH : P.KeptInto H (Loop.settle Y susp t x))
    (hb : (Loop.settle Y susp t x).current = none → P.base (Loop.settle Y susp t x).world)
    (hi : P.Good s ∧ H s) (hx : P.StopOk t (P.Ends t) s x)
    (hs : ∀ u p, u ≠ t → susp u = some p → P.Waiting u p s) :
    P.LoopOk H (Loop.settle Y susp t x) := by
  have hsus : ∀ v u p, u ≠ t → Loop.setSusp susp t v u = some p → P.Waiting u p s := by
    intro v u p hu h
    rw [Loop.setSusp, if_neg hu] at h
    exact hs u p hu h
  have other : ∀ {u : Nat} {w : S.World}, u ≠ t → P.Good w → P.guar (some t) s w →
      P.Other u s w :=
    fun {u w} hu hw hg => ⟨some t, fun h => hu (Option.some.inj h).symm, hi.1, hw, hg⟩
  cases x with
  | done r w =>
      have hw : P.Good (Y.finished t r w) := ⟨hx.1, hb rfl⟩
      refine ⟨⟨hw, hH rfl _ _ hi.1 hw hx.2 hi.2⟩, fun u p h => ?_⟩
      by_cases hu : u = t
      · subst hu
        simp [Loop.settle, Loop.setSusp] at h
      · exact (hsus _ u p hu h).other (other hu hw hx.2)
  | await o k w =>
      have hw : P.Good (Y.issue t o w) := ⟨hx.1.1, hb rfl⟩
      refine ⟨⟨hw, hH rfl _ _ hi.1 hw hx.1.2 hi.2⟩, fun u p h => ?_⟩
      by_cases hu : u = t
      · subst hu
        simp only [Loop.settle, Loop.setSusp, if_true, Option.some.injEq] at h
        subst h
        exact hx.2
      · exact (hsus _ u p hu h).other (other hu hw hx.1.2)
  | ask o k w => exact ⟨s, hi, hx, hsus none⟩
  | tau m w => exact ⟨s, hi, hx, hsus none⟩

/-- One move of the event loop. -/
theorem step_ok {H : S.World → Prop} {w₀ : S.World} (V : P.Verified w₀)
    {c c' : Loop S} (hH : P.KeptInto H c') (m : Move Y) (hb : c'.current = none → P.base c'.world)
    (hc : P.LoopOk H c)
    (ha : Loop.admits P.cond c m = true) (hs : Loop.step Y c m = some c') : P.LoopOk H c' := by
  cases m with
  | resume t r =>
      simp only [Loop.step] at hs
      split at hs
      · next p o k hcur hsus =>
          split at hs
          · next hal =>
              cases hs
              simp only [LoopOk, hcur] at hc
              simp only [Loop.admits, hsus] at ha
              exact P.settle_ok hH hb hc.1
                (P.wp_run t (hc.2 t _ hsus _ .refl hc.1.1 r hal ha)) fun u p _ h => hc.2 u p h
          · cases hs
      · cases hs
  | start t r =>
      simp only [Loop.step] at hs
      split at hs
      · next p q kd hcur hsus hf =>
          split at hs
          · next hal =>
              cases hs
              simp only [LoopOk, hcur] at hc
              exact P.settle_ok hH hb hc.1 (P.wp_run t (V.start t _ kd r hc.1.1 hf hal ha))
                fun u p _ h => hc.2 u p h
          · cases hs
      · cases hs
  | answer r =>
      simp only [Loop.step] at hs
      split at hs
      · next t o k w hcur =>
          split at hs
          · next hal =>
              cases hs
              simp only [LoopOk, hcur] at hc
              simp only [Loop.admits, hcur] at ha
              obtain ⟨s, hi, hx, hw⟩ := hc
              exact P.settle_ok hH hb hi (P.wp_run t (hx r hal ha)) hw
          · cases hs
      · cases hs
  | go =>
      simp only [Loop.step] at hs
      split at hs
      · next t m w hcur =>
          cases hs
          simp only [LoopOk, hcur] at hc
          obtain ⟨s, hi, hx, hw⟩ := hc
          exact P.settle_ok hH hb hi (P.wp_run t hx) hw
      · cases hs
  | env e =>
      simp only [Loop.step] at hs
      split at hs
      · next hcur =>
          obtain ⟨w, hw, rfl⟩ := Option.map_eq_some_iff.mp hs
          simp only [LoopOk, hcur] at hc ⊢
          obtain ⟨hi, hg⟩ := V.env e c.world w hc.1.1 ha hw
          have hw' : P.Good w := ⟨hi, hb hcur⟩
          exact ⟨⟨hw', hH hcur _ _ hc.1.1 hw' hg hc.1.2⟩,
            fun u p h => (hc.2 u p h).other ⟨none, (by rintro ⟨⟩), hc.1.1, hw', hg⟩⟩
      · cases hs

section

variable {w₀ : S.World}
variable (V : P.Verified w₀)
variable (hb : ∀ c, Loop.Reach P.cond { world := w₀ } c → c.current = none → P.base c.world)

include V hb

/-- The loop's invariant, over the part of a run from `c` on. -/
theorem onward_ok {H : S.World → Prop} (hH : P.Kept H) {c c' : Loop S}
    (h : Loop.Reach P.cond { world := w₀ } c) (hc : P.LoopOk H c)
    (h' : Loop.Reach P.cond c c') : P.LoopOk H c' := by
  induction h' with
  | refl => exact hc
  | step m hr ha hs ih =>
      exact P.step_ok V (fun _ u w => hH u w _) m (hb _ (h.trans (.step m hr ha hs))) ih ha hs

/-- The loop's invariant, from the event loop at rest with nothing but a
world. -/
theorem reach_ok {c : Loop S} (h : Loop.Reach P.cond { world := w₀ } c) :
    P.LoopOk (fun _ => True) c :=
  P.onward_ok V hb (fun _ _ _ _ _ _ _ => trivial) .refl
    ⟨⟨⟨V.init, hb _ .refl rfl⟩, trivial⟩, fun _ _ h => by cases h⟩ h

/-- The invariant holds whenever the event loop has control. -/
theorem sound {c : Loop S} (h : Loop.Reach P.cond { world := w₀ } c) (hc : c.current = none) :
    P.inv c.world := by
  have := P.reach_ok V hb h
  simp only [LoopOk, hc] at this
  exact this.1.1.1

/-- What all segments keep, is kept between any two states of a run in which
the event loop has control. -/
theorem onward {H : S.World → Prop} (hH : P.Kept H) {c c' : Loop S}
    (h : Loop.Reach P.cond { world := w₀ } c) (hc : c.current = none)
    (h' : Loop.Reach P.cond c c') (hc' : c'.current = none) (hw : H c.world) : H c'.world := by
  have hl : P.LoopOk H c := by
    have := P.reach_ok V hb h
    simp only [LoopOk, hc] at this ⊢
    exact ⟨⟨this.1.1, hw⟩, this.2⟩
  have := P.onward_ok V hb hH h hl h'
  simp only [LoopOk, hc'] at this
  exact this.1.2

/-- What all segments between two states that satisfy `p` keep, is kept by a
run that satisfies `p` throughout. -/
theorem within {p H : S.World → Prop}
    (hH : ∀ u w w', P.Good w → P.Good w' → p w → p w' → P.guar u w w' → H w → H w')
    {c c' : Loop S} (h : Loop.Reach P.cond { world := w₀ } c) (hc : c.current = none)
    (h' : Loop.Within P.cond p c c') (hc' : c'.current = none) (hw : H c.world) :
    H c'.world := by
  have hl : P.LoopOk (fun w => p w ∧ H w) c := by
    have := P.reach_ok V hb h
    simp only [LoopOk, hc] at this ⊢
    exact ⟨⟨this.1.1, h'.start hc, hw⟩, this.2⟩
  have : P.LoopOk (fun w => p w ∧ H w) c' := by
    clear hc'
    induction h' with
    | refl _ => exact hl
    | step m hr ha hs hp ih =>
        exact P.step_ok V
          (fun hn u w hg hg' hu hpw => ⟨hp hn, hH u w _ hg hg' hpw.1 (hp hn) hu hpw.2⟩) m
          (hb _ (h.trans (.step m hr.reach ha hs))) ih ha hs
  simp only [LoopOk, hc'] at this
  exact this.1.2.2

end

end Outline

end Coop
