/-
# `Coop.Keeps` — the parts of a program an assertion does not notice

Much of a program does nothing an invariant could notice.  `Keeps P t I m`
says that `m` re-establishes the assertion `I` however it ends, and has one
rule for each kind of statement.

`Only A K m` says that each statement of `m` is in the relation `A` and each
operation in `K`, wherever it stands.  It knows nothing of assertions; it is
computed from the text of `m`, once, and serves every assertion that the
relation and the operations keep (`Frames.keeps`).
-/
import Turbohaul.Coop.Logic

namespace Coop

variable {S : Sig} {Y : Sys S}

/-- Every statement of the program is in `A`, every operation in `K`. -/
def Only (A : S.World → S.World → Prop) (K : S.Op → Prop) : {α : Type} → Co S α → Prop
  | _, .pure _ => True
  | _, .throw _ => True
  | _, .act f => ∀ w, A w (f w).2
  | _, .ask o => K o
  | _, .await o => K o
  | _, .bind m k => Only A K m ∧ ∀ a, Only A K (k a)
  | _, .attempt m => Only A K m
  | _, .loop _ body => ∀ b, Only A K (body b)

/-- The program re-establishes `I`, however it ends. -/
def Keeps (P : Outline Y) (t : Nat) (I : S.World → S.World → Prop) {α : Type} (m : Co S α) :
    Prop :=
  ∀ s w, I s w → wp P t m (fun _ => I) s w

section Keeps

variable {P : Outline Y} {t : Nat} {I : S.World → S.World → Prop} {α β γ : Type}

theorem Keeps.pure (a : α) : Keeps P t I (Pure.pure a : Co S α) := fun _ _ h => h

theorem Keeps.throw (e : Exc S.Err) : Keeps P t I (.throw e : Co S α) := fun _ _ h => h

theorem Keeps.bind {m : Co S α} {k : α → Co S β} (hm : Keeps P t I m)
    (hk : ∀ a, Keeps P t I (k a)) : Keeps P t I (m >>= k) :=
  fun s w h => wp_seq (hm s w h) (fun a s w h => hk a s w h) fun _ _ _ h => h

/-- Two halves that keep the assertion together. -/
theorem Keeps.assoc {m : Co S α} {k : α → Co S β} {l : β → Co S γ}
    (h : Keeps P t I (m >>= k)) (hl : ∀ b, Keeps P t I (l b)) :
    Keeps P t I (m >>= fun a => k a >>= l) := by
  intro s w hi
  refine wp_mono (m := m) (fun r s w hr => ?_) (Keeps.bind h hl s w hi)
  cases r with
  | ok a => exact hr
  | error e => exact hr

/-- A program that keeps the assertion, before one that does something with
it. -/
theorem Keeps.seq {m : Co S α} {k : α → Co S β} {Q : Post S β} (hm : Keeps P t I m)
    (hk : ∀ a s w, I s w → wp P t (k a) Q s w) (he : ∀ e s w, I s w → Q (.error e) s w)
    {s w : S.World} (h : I s w) : wp P t (m >>= k) Q s w :=
  wp_seq (hm s w h) (fun a s w h => hk a s w h) fun e s w h => he e s w h

theorem Keeps.attempt {m : Co S α} (hm : Keeps P t I m) : Keeps P t I (.attempt m) :=
  fun s w h => hm s w h

theorem Keeps.loop {b : β} {body : β → Co S (β ⊕ α)} (h : ∀ b, Keeps P t I (body b)) :
    Keeps P t I (.loop b body) := by
  intro s w hi
  refine ⟨fun _ => I, hi, fun b s w hb => wp_mono ?_ (h b s w hb)⟩
  intro r s w hr
  match r with
  | .ok (.inl _) => exact hr
  | .ok (.inr _) => exact hr
  | .error _ => exact hr

theorem Keeps.when {c : Bool} {m : Co S Unit} (hm : Keeps P t I m) :
    Keeps P t I (Co.when c m) := by
  cases c with
  | true => exact hm
  | false => exact fun _ _ h => h

theorem Keeps.ite {c : Prop} [Decidable c] {m n : Co S α} (hm : Keeps P t I m)
    (hn : Keeps P t I n) : Keeps P t I (if c then m else n) := by
  split
  · exact hm
  · exact hn

theorem Keeps.resume (r : Res S α) : Keeps P t I (Co.resume r) := by
  cases r with
  | ok a => exact fun _ _ h => h
  | error e => exact fun _ _ h => h

theorem Keeps.tryExcept {m : Co S α} {h : S.Err → Co S α} (hm : Keeps P t I m)
    (hh : ∀ e, Keeps P t I (h e)) : Keeps P t I (Co.tryExcept m h) := by
  refine Keeps.bind (m := .attempt m) (Keeps.attempt hm) fun r => ?_
  match r with
  | .ok a => exact Keeps.resume _
  | .error (.raised e) => exact hh e
  | .error .cancelled => exact Keeps.resume _

theorem Keeps.tryFinally {m : Co S α} {f : Co S Unit} (hm : Keeps P t I m)
    (hf : Keeps P t I f) : Keeps P t I (Co.tryFinally m f) :=
  Keeps.bind (m := .attempt m) (Keeps.attempt hm) fun r =>
    Keeps.bind (m := f) hf fun _ => Keeps.resume r

theorem Keeps.suppress {m : Co S Unit} (hm : Keeps P t I m) : Keeps P t I (Co.suppress m) :=
  Keeps.tryExcept hm fun _ _ _ h => h

theorem Keeps.suppressAll {m : Co S Unit} (hm : Keeps P t I m) :
    Keeps P t I (Co.suppressAll m) :=
  Keeps.bind (m := .attempt m) (Keeps.attempt hm) fun _ _ _ h => h

theorem Keeps.whileTrue {body : Co S Bool} (h : Keeps P t I body) :
    Keeps P t I (Co.whileTrue body) :=
  Keeps.loop fun _ => Keeps.bind (m := body) h fun _ _ _ h => h

theorem Keeps.forEach {f : γ → Co S Unit} (h : ∀ x, Keeps P t I (f x)) :
    ∀ xs, Keeps P t I (Co.forEach f xs)
  | [] => fun _ _ h => h
  | x :: xs => Keeps.bind (m := f x) (h x) fun _ => Keeps.forEach h xs

/-- The assertion is kept by each statement and each operation of a class. -/
structure Frames (P : Outline Y) (t : Nat) (I : S.World → S.World → Prop)
    (A : S.World → S.World → Prop) (K : S.Op → Prop) : Prop where
  act : ∀ {s w w'}, A w w' → I s w → I s w'
  ask : ∀ o, K o → Keeps P t I (.ask o : Co S S.Reply)
  await : ∀ o, K o → Keeps P t I (.await o : Co S S.Reply)

/-- Fewer operations. -/
theorem Frames.fewer {A : S.World → S.World → Prop} {K L : S.Op → Prop} (F : Frames P t I A K)
    (h : ∀ o, L o → K o) : Frames P t I A L :=
  ⟨F.act, fun o ho => F.ask o (h o ho), fun o ho => F.await o (h o ho)⟩

/-- A program made of such statements and operations keeps it. -/
theorem Frames.keeps {A : S.World → S.World → Prop} {K : S.Op → Prop}
    (F : Frames P t I A K) : ∀ {α : Type} {m : Co S α}, Only A K m → Keeps P t I m := by
  intro α m
  induction m with
  | pure a => exact fun _ _ _ h => h
  | throw e => exact fun _ _ _ h => h
  | act f => exact fun hm s w h => F.act (hm w) h
  | ask o => exact fun hm => F.ask o hm
  | await o => exact fun hm => F.await o hm
  | bind m k ihm ihk => exact fun hm => Keeps.bind (ihm hm.1) fun a => ihk a (hm.2 a)
  | attempt m ih => exact fun hm => Keeps.attempt (ih hm)
  | loop b body ih => exact fun hm => Keeps.loop fun b => ih b (hm b)

/-- One such program, before one that does something with the assertion. -/
theorem Frames.seq {A : S.World → S.World → Prop} {K : S.Op → Prop} (F : Frames P t I A K)
    {m : Co S α} {k : α → Co S β} {Q : Post S β} (he : ∀ e s w, I s w → Q (.error e) s w)
    (hm : Only A K m) (hk : ∀ a s w, I s w → wp P t (k a) Q s w) :
    ∀ s w, I s w → wp P t (m >>= k) Q s w :=
  fun _ _ h => (F.keeps hm).seq hk he h

theorem wp_and : ∀ {α : Type} {m : Co S α} {Q Q' : Post S α} {s w : S.World},
    wp P t m Q s w → wp P t m Q' s w → wp P t m (fun r s w => Q r s w ∧ Q' r s w) s w := by
  intro α m
  induction m with
  | pure a => exact fun h h' => ⟨h, h'⟩
  | throw e => exact fun h h' => ⟨h, h'⟩
  | act f => exact fun h h' => ⟨h, h'⟩
  | ask o => exact fun h h' r ha hr => ⟨h r ha hr, h' r ha hr⟩
  | await o =>
      exact fun h h' => ⟨h.1, fun w' hw hg r ha hr => ⟨h.2 w' hw hg r ha hr, h'.2 w' hw hg r ha hr⟩⟩
  | bind m k ihm ihk =>
      intro Q Q' s w h h'
      refine wp_mono (m := m) (fun r s w hr => ?_) (ihm h h')
      cases r with
      | ok a => exact ihk a hr.1 hr.2
      | error e => exact hr
  | attempt m ih => exact fun h h' => ih h h'
  | loop b body ih =>
      rintro Q Q' s w ⟨J, h0, hJ⟩ ⟨J', h0', hJ'⟩
      refine ⟨fun b s w => J b s w ∧ J' b s w, ⟨h0, h0'⟩, fun b s w hb => ?_⟩
      refine wp_mono (m := body b) (fun r s w hr => ?_) (ih b (hJ b s w hb.1) (hJ' b s w hb.2))
      match r with
      | .ok (.inl _) => exact hr
      | .ok (.inr _) => exact hr
      | .error _ => exact hr

end Keeps

/-! ## The statements of a program, one by one -/

section Only

variable {A : S.World → S.World → Prop} {K : S.Op → Prop} {α β γ : Type}

@[simp] theorem only_pure (a : α) : Only A K (Pure.pure a : Co S α) := trivial

@[simp] theorem only_throw (e : Exc S.Err) : Only A K (.throw e : Co S α) := trivial

@[simp] theorem only_raise (e : S.Err) : Only A K (Co.raise e : Co S α) := trivial

@[simp] theorem only_bind {m : Co S α} {k : α → Co S β} :
    Only A K (m >>= k) ↔ Only A K m ∧ ∀ a, Only A K (k a) := Iff.rfl

@[simp] theorem only_loop {b : β} {body : β → Co S (β ⊕ α)} :
    Only A K (.loop b body) ↔ ∀ b, Only A K (body b) := Iff.rfl

@[simp] theorem only_act {f : S.World → Res S α × S.World} :
    Only A K (.act f) ↔ ∀ w, A w (f w).2 := Iff.rfl

@[simp] theorem only_modify {f : S.World → S.World} :
    Only A K (Co.modify f) ↔ ∀ w, A w (f w) := Iff.rfl

@[simp] theorem only_ite {c : Prop} [Decidable c] {m n : Co S α} :
    Only A K (if c then m else n) ↔ (c → Only A K m) ∧ (¬c → Only A K n) := by
  split <;> simp_all

theorem only_update (hr : ∀ w, A w w) {f : S.World → Except S.Err S.World}
    (h : ∀ w w', f w = .ok w' → A w w') : Only A K (Co.update f) := by
  intro w
  cases hf : f w with
  | ok w' =>
      simp only [hf]
      exact h w w' hf
  | error e =>
      simp only [hf]
      exact hr w

@[simp] theorem only_when {c : Bool} {m : Co S Unit} :
    Only A K (Co.when c m) ↔ (c = true → Only A K m) := by
  cases c <;> simp [Co.when, Only]

theorem only_resume (r : Res S α) : Only A K (Co.resume r) := by
  cases r <;> trivial

@[simp] theorem only_tryExcept {m : Co S α} {h : S.Err → Co S α} :
    Only A K (Co.tryExcept m h) ↔ Only A K m ∧ ∀ e, Only A K (h e) := by
  constructor
  · exact fun ho => ⟨ho.1, fun e => ho.2 (.error (.raised e))⟩
  · refine fun ho => ⟨ho.1, fun r => ?_⟩
    match r with
    | .ok a => exact only_resume _
    | .error (.raised e) => exact ho.2 e
    | .error .cancelled => exact only_resume _

@[simp] theorem only_tryFinally {m : Co S α} {f : Co S Unit} :
    Only A K (Co.tryFinally m f) ↔ Only A K m ∧ Only A K f :=
  ⟨fun ho => ⟨ho.1, (ho.2 (.error .cancelled)).1⟩,
    fun ho => ⟨ho.1, fun r => ⟨ho.2, fun _ => only_resume r⟩⟩⟩

@[simp] theorem only_suppress {m : Co S Unit} : Only A K (Co.suppress m) ↔ Only A K m := by
  rw [Co.suppress, only_tryExcept]
  exact ⟨fun h => h.1, fun h => ⟨h, fun _ => trivial⟩⟩

@[simp] theorem only_suppressAll {m : Co S Unit} : Only A K (Co.suppressAll m) ↔ Only A K m :=
  ⟨fun h => h.1, fun h => ⟨h, fun _ => trivial⟩⟩

@[simp] theorem only_whileTrue {body : Co S Bool} :
    Only A K (Co.whileTrue body) ↔ Only A K body :=
  ⟨fun h => (h ()).1, fun h _ => ⟨h, fun _ => trivial⟩⟩

theorem only_forEach {f : γ → Co S Unit} (h : ∀ x, Only A K (f x)) :
    ∀ xs, Only A K (Co.forEach f xs)
  | [] => trivial
  | x :: xs => ⟨h x, fun _ => only_forEach h xs⟩

theorem Only.and {B : S.World → S.World → Prop} {L : S.Op → Prop} :
    ∀ {α : Type} {m : Co S α}, Only A K m → Only B L m →
      Only (fun w w' => A w w' ∧ B w w') (fun o => K o ∧ L o) m := by
  intro α m
  induction m with
  | pure a => exact fun _ _ => trivial
  | throw e => exact fun _ _ => trivial
  | act f => exact fun h h' w => ⟨h w, h' w⟩
  | ask o => exact fun h h' => ⟨h, h'⟩
  | await o => exact fun h h' => ⟨h, h'⟩
  | bind m k ihm ihk => exact fun h h' => ⟨ihm h.1 h'.1, fun a => ihk a (h.2 a) (h'.2 a)⟩
  | attempt m ih => exact fun h h' => ih h h'
  | loop b body ih => exact fun h h' b => ih b (h b) (h' b)

theorem Only.mono {A' : S.World → S.World → Prop} {K' : S.Op → Prop}
    (ha : ∀ w w', A w w' → A' w w') (hk : ∀ o, K o → K' o) :
    ∀ {α : Type} {m : Co S α}, Only A K m → Only A' K' m := by
  intro α m
  induction m with
  | pure a => exact fun _ => trivial
  | throw e => exact fun _ => trivial
  | act f => exact fun h w => ha _ _ (h w)
  | ask o => exact fun h => hk o h
  | await o => exact fun h => hk o h
  | bind m k ihm ihk => exact fun h => ⟨ihm h.1, fun a => ihk a (h.2 a)⟩
  | attempt m ih => exact fun h => ih h
  | loop b body ih => exact fun h b => ih b (h b)

/-- What is left of such a program at a stop, and what has been done so far. -/
def OnlyStop (A : S.World → S.World → Prop) (K : S.Op → Prop) (R : S.World → S.World → Prop)
    (w : S.World) : Stop S α → Prop
  | .done _ w' => R w w'
  | .ask o k w' => R w w' ∧ K o ∧ ∀ x, Only A K (k x)
  | .await o k w' => R w w' ∧ K o ∧ ∀ x, Only A K (k x)
  | .tau m w' => R w w' ∧ Only A K m

theorem OnlyStop.after {R : S.World → S.World → Prop} (ht : ∀ a b c, R a b → R b c → R a c)
    {w w' : S.World} (hw : R w w') {x : Stop S α} (h : OnlyStop A K R w' x) :
    OnlyStop A K R w x := by
  cases x with
  | done r w'' => exact ht _ _ _ hw h
  | ask o k w'' => exact ⟨ht _ _ _ hw h.1, h.2⟩
  | await o k w'' => exact ⟨ht _ _ _ hw h.1, h.2⟩
  | tau m w'' => exact ⟨ht _ _ _ hw h.1, h.2⟩

/-- Running such a program to its next stop. -/
theorem Only.stop {R : S.World → S.World → Prop} (hr : ∀ w, R w w)
    (ht : ∀ a b c, R a b → R b c → R a c) (ha : ∀ w w', A w w' → R w w') :
    ∀ {α : Type} {m : Co S α}, Only A K m → ∀ w, OnlyStop A K R w (m.run w) := by
  intro α m
  induction m with
  | pure a => exact fun _ w => hr w
  | throw e => exact fun _ w => hr w
  | act f => exact fun h w => ha _ _ (h w)
  | ask o => exact fun h w => ⟨hr w, h, fun _ => trivial⟩
  | await o => exact fun h w => ⟨hr w, h, fun _ => trivial⟩
  | bind m k ihm ihk =>
      intro h w
      have hm := ihm h.1 w
      unfold Co.run
      cases hs : m.run w with
      | done r w' =>
          rw [hs] at hm
          cases r with
          | ok a =>
              show OnlyStop A K R w ((k a).run w')
              exact (ihk a (h.2 a) w').after ht hm
          | error e => exact hm
      | ask o c w' => rw [hs] at hm; exact ⟨hm.1, hm.2.1, fun x => ⟨hm.2.2 x, h.2⟩⟩
      | await o c w' => rw [hs] at hm; exact ⟨hm.1, hm.2.1, fun x => ⟨hm.2.2 x, h.2⟩⟩
      | tau m' w' => rw [hs] at hm; exact ⟨hm.1, hm.2, h.2⟩
  | attempt m ih =>
      intro h w
      have hm := ih h w
      unfold Co.run
      cases hs : m.run w with
      | done r w' => rw [hs] at hm; exact hm
      | ask o c w' => rw [hs] at hm; exact hm
      | await o c w' => rw [hs] at hm; exact hm
      | tau m' w' => rw [hs] at hm; exact hm
  | loop b body ih =>
      intro h w
      refine ⟨hr w, h b, fun x => ?_⟩
      cases x with
      | inl b' => exact h
      | inr a => trivial

end Only

end Coop
