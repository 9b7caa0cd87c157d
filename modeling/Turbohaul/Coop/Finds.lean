/-
# `Coop.Finds` — what is known of the value a program ends with

An assertion on the world often says of the values that are read off it what the
rest of the program relies on.  `Finds P t J Φ m` is that `m` keeps `J`, and that a
value it ends with satisfies `Φ`; nothing is said of an exception.  The fact is one
about the value alone, so no other task can take it back while the program is
suspended.
-/
import Turbohaul.Coop.Keeps

namespace Coop

variable {S : Sig} {Y : Sys S}

/-- The program keeps `J`, and its value satisfies `Φ`. -/
def Finds (P : Outline Y) (t : Nat) (J : S.World → Prop) {α : Type} (Φ : α → Prop) (m : Co S α) :
    Prop :=
  ∀ s w, J w → wp P t m (fun r _ w => J w ∧ ∀ a, r = .ok a → Φ a) s w

namespace Finds

variable {P : Outline Y} {t : Nat} {J : S.World → Prop} {α β γ : Type} {Φ : α → Prop} {Ψ : β → Prop}

theorem pure {a : α} (h : Φ a) : Finds P t J Φ (Pure.pure a : Co S α) :=
  fun _ _ hj => ⟨hj, fun _ he => Except.ok.inj he ▸ h⟩

theorem throw (e : Exc S.Err) : Finds P t J Φ (.throw e : Co S α) :=
  fun _ _ hj => ⟨hj, (by rintro _ ⟨⟩)⟩

theorem act {f : S.World → Res S α × S.World}
    (h : ∀ w, J w → J (f w).2 ∧ ∀ a, (f w).1 = .ok a → Φ a) : Finds P t J Φ (.act f) :=
  fun _ w hj => h w hj

theorem gets {f : S.World → α} (h : ∀ w, J w → Φ (f w)) : Finds P t J Φ (Co.gets f) :=
  fun _ w hj => ⟨hj, fun _ he => Except.ok.inj he ▸ h w hj⟩

theorem modify {f : S.World → S.World} (h : ∀ w, J w → J (f w)) :
    Finds P t J (fun _ => True) (Co.modify f) := fun _ w hj => ⟨h w hj, fun _ _ => trivial⟩

theorem mono {Φ' : α → Prop} {m : Co S α} (hm : Finds P t J Φ m) (h : ∀ a, Φ a → Φ' a) :
    Finds P t J Φ' m :=
  fun s w hj => wp_mono (fun _ _ _ hr => ⟨hr.1, fun a ha => h a (hr.2 a ha)⟩) (hm s w hj)

/-- Nothing is said of the value. -/
theorem of_keeps {m : Co S α} (hm : Keeps P t (fun _ => J) m) : Finds P t J (fun _ => True) m :=
  fun s w hj => wp_mono (fun _ _ _ hr => ⟨hr, fun _ _ => trivial⟩) (hm s w hj)

theorem keeps {m : Co S α} (hm : Finds P t J Φ m) : Keeps P t (fun _ => J) m :=
  fun s w hj => wp_mono (fun _ _ _ hr => hr.1) (hm s w hj)

theorem bind {m : Co S α} {k : α → Co S β} (hm : Finds P t J Φ m)
    (hk : ∀ a, Φ a → Finds P t J Ψ (k a)) : Finds P t J Ψ (m >>= k) :=
  fun s w hj => wp_seq (hm s w hj) (fun a s w h => hk a (h.2 a rfl) s w h.1)
    fun _ _ _ h => ⟨h.1, (by rintro _ ⟨⟩)⟩

/-- A first half of whose value nothing is needed. -/
theorem seq {m : Co S α} {k : α → Co S β} (hm : Keeps P t (fun _ => J) m)
    (hk : ∀ a, Finds P t J Ψ (k a)) : Finds P t J Ψ (m >>= k) :=
  (of_keeps hm).bind fun a _ => hk a

theorem attempt {m : Co S α} (hm : Finds P t J Φ m) :
    Finds P t J (fun r => ∀ a, r = .ok a → Φ a) (.attempt m) :=
  fun s w hj => wp_mono (m := m) (fun _ _ _ hr => ⟨hr.1, fun _ he => Except.ok.inj he ▸ hr.2⟩)
    (hm s w hj)

theorem ite {c : Prop} [Decidable c] {m n : Co S α} (hm : c → Finds P t J Φ m)
    (hn : ¬c → Finds P t J Φ n) : Finds P t J Φ (if c then m else n) := by
  split
  · next h => exact hm h
  · next h => exact hn h

theorem when {c : Bool} {m : Co S Unit} (hm : c = true → Finds P t J (fun _ => True) m) :
    Finds P t J (fun _ => True) (Co.when c m) := by
  cases c with
  | true => exact hm rfl
  | false => exact pure trivial

theorem loop {b : β} {body : β → Co S (β ⊕ α)} (hb : Ψ b)
    (h : ∀ b, Ψ b → Finds P t J (fun r => (∀ b', r = .inl b' → Ψ b') ∧ ∀ a, r = .inr a → Φ a)
      (body b)) : Finds P t J Φ (.loop b body) := by
  intro s w hj
  refine ⟨fun b _ w => J w ∧ Ψ b, ⟨hj, hb⟩, fun b s w hb => wp_mono ?_ (h b hb.2 s w hb.1)⟩
  intro r s w hr
  match r with
  | .ok (.inl b') => exact ⟨hr.1, (hr.2 _ rfl).1 b' rfl⟩
  | .ok (.inr a) => exact ⟨hr.1, fun _ he => Except.ok.inj he ▸ (hr.2 _ rfl).2 a rfl⟩
  | .error _ => exact ⟨hr.1, (by rintro _ ⟨⟩)⟩

theorem resume {r : Res S α} (h : ∀ a, r = .ok a → Φ a) : Finds P t J Φ (Co.resume r) := by
  cases r with
  | ok a => exact pure (h a rfl)
  | error e => exact throw e

theorem tryExcept {m : Co S α} {h : S.Err → Co S α} (hm : Finds P t J Φ m)
    (hh : ∀ e, Finds P t J Φ (h e)) : Finds P t J Φ (Co.tryExcept m h) := by
  refine bind (m := .attempt m) hm.attempt fun r hr => ?_
  match r with
  | .ok a => exact resume hr
  | .error (.raised e) => exact hh e
  | .error .cancelled => exact resume (by rintro _ ⟨⟩)

theorem tryFinally {m : Co S α} {f : Co S Unit} (hm : Finds P t J Φ m)
    (hf : Keeps P t (fun _ => J) f) : Finds P t J Φ (Co.tryFinally m f) :=
  bind (m := .attempt m) hm.attempt fun _ hr => seq hf fun _ => resume hr

end Finds

/-- `for` over a list, of whose items something is known. -/
theorem Keeps.forEach_mem {P : Outline Y} {t : Nat} {I : S.World → S.World → Prop} {γ : Type}
    {f : γ → Co S Unit} : ∀ {xs : List γ}, (∀ x ∈ xs, Keeps P t I (f x)) →
    Keeps P t I (Co.forEach f xs)
  | [], _ => fun _ _ h => h
  | x :: _, h => .bind (m := f x) (h x List.mem_cons_self) fun _ =>
      forEach_mem fun y hy => h y (List.mem_cons_of_mem x hy)

end Coop
