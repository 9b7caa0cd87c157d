/-
# `Coop.Total` — statements that do not suspend

A method that calls operations but never awaits runs to its end while nothing
else moves.  What it does is a relation between the world before and the world
after, one for each way its calls are answered:

    Returns Y t m w log r w'    `m` ends with `r` in `w'`; `log` lists its calls
    Total Y t m Q w             `m` ends however its calls are answered, and in `Q`

`Total` is total correctness: a loop that does not end is not total, and a call
that has no answer is not either.  `Total.returns` and `Total.ends` read the two
halves off it.
-/
import Turbohaul.Coop.Keeps

namespace Coop

variable {S : Sig}

/-- A stop is followed to the end of the program. -/
inductive Returns (Y : Sys S) (t : Nat) {α : Type} :
    Stop S α → List (S.Op × S.Reply) → Res S α → S.World → Prop where
  | done {r : Res S α} {w : S.World} : Returns Y t (.done r w) [] r w
  | ask {o : S.Op} {k : S.Reply → Co S α} {w w' : S.World} {log : List (S.Op × S.Reply)}
      {r : Res S α} (x : S.Reply) (ha : Y.allowed t o x w = true)
      (h : Returns Y t ((k x).run (Y.answer t o x w)) log r w') :
      Returns Y t (.ask o k w) ((o, x) :: log) r w'
  | tau {m : Co S α} {w w' : S.World} {log : List (S.Op × S.Reply)} {r : Res S α}
      (h : Returns Y t (m.run w) log r w') : Returns Y t (.tau m w) log r w'

/-- A stop is followed by given replies; `none` crosses a loop's back edge. -/
def follow (Y : Sys S) (t : Nat) {α : Type} : List (Option S.Reply) → Stop S α →
    Option (List (S.Op × S.Reply) × Res S α × S.World)
  | [], .done r w => some ([], r, w)
  | some x :: xs, .ask o k w =>
      if Y.allowed t o x w then
        (follow Y t xs ((k x).run (Y.answer t o x w))).map fun p => ((o, x) :: p.1, p.2)
      else none
  | none :: xs, .tau m w => follow Y t xs (m.run w)
  | _, _ => none

theorem returns_of_follow {Y : Sys S} {t : Nat} {α : Type} {log : List (S.Op × S.Reply)}
    {r : Res S α} {w : S.World} : ∀ {xs : List (Option S.Reply)} {st : Stop S α},
    follow Y t xs st = some (log, r, w) → Returns Y t st log r w
  | [], .done _ _, h => by
      cases h
      exact .done
  | some x :: xs, .ask o k w', h => by
      rw [follow] at h
      split at h
      · next ha =>
          obtain ⟨⟨l, r', w''⟩, hp, he⟩ := Option.map_eq_some_iff.mp h
          cases he
          exact .ask x ha (returns_of_follow hp)
      · cases h
  | none :: xs, .tau m w', h => .tau (returns_of_follow h)

/-- However its calls are answered, a stop is followed to an end in `Q`. -/
inductive Ends (Y : Sys S) (t : Nat) {α : Type} (Q : Res S α → S.World → Prop) :
    Stop S α → Prop where
  | done {r : Res S α} {w : S.World} (h : Q r w) : Ends Y t Q (.done r w)
  | ask {o : S.Op} {k : S.Reply → Co S α} {w : S.World}
      (hx : ∃ x, Y.allowed t o x w = true)
      (h : ∀ x, Y.allowed t o x w = true → Ends Y t Q ((k x).run (Y.answer t o x w))) :
      Ends Y t Q (.ask o k w)
  | tau {m : Co S α} {w : S.World} (h : Ends Y t Q (m.run w)) : Ends Y t Q (.tau m w)

/-- Total correctness of a program that does not suspend. -/
def Total (Y : Sys S) (t : Nat) {α : Type} (m : Co S α) (Q : Res S α → S.World → Prop)
    (w : S.World) : Prop :=
  Ends Y t Q (m.run w)

section

variable {Y : Sys S} {t : Nat} {α β : Type}

theorem Ends.returns {Q : Res S α → S.World → Prop} {x : Stop S α}
    {log : List (S.Op × S.Reply)} {r : Res S α} {w : S.World} (h : Ends Y t Q x)
    (hr : Returns Y t x log r w) : Q r w := by
  induction hr with
  | done =>
      cases h with
      | done h => exact h
  | ask x ha _ ih =>
      cases h with
      | ask _ h => exact ih (h x ha)
  | tau _ ih =>
      cases h with
      | tau h => exact ih h

theorem Ends.exists {Q : Res S α → S.World → Prop} {x : Stop S α} (h : Ends Y t Q x) :
    ∃ log r w, Returns Y t x log r w := by
  induction h with
  | done _ => exact ⟨_, _, _, .done⟩
  | ask hx _ ih =>
      obtain ⟨x, ha⟩ := hx
      obtain ⟨log, r, w, h⟩ := ih x ha
      exact ⟨_, _, _, .ask x ha h⟩
  | tau _ ih =>
      obtain ⟨log, r, w, h⟩ := ih
      exact ⟨_, _, _, .tau h⟩

/-- What a total program returns is in its postcondition. -/
theorem Total.returns {Q : Res S α → S.World → Prop} {m : Co S α} {w w' : S.World}
    {log : List (S.Op × S.Reply)} {r : Res S α} (h : Total Y t m Q w)
    (hr : Returns Y t (m.run w) log r w') : Q r w' :=
  Ends.returns h hr

/-- A total program returns. -/
theorem Total.ends {Q : Res S α → S.World → Prop} {m : Co S α} {w : S.World}
    (h : Total Y t m Q w) : ∃ log r w', Returns Y t (m.run w) log r w' :=
  Ends.exists h

theorem Ends.mono {Q Q' : Res S α → S.World → Prop} {x : Stop S α} (h : Ends Y t Q x)
    (hq : ∀ r w, Q r w → Q' r w) : Ends Y t Q' x := by
  induction h with
  | done h => exact .done (hq _ _ h)
  | ask hx _ ih => exact .ask hx ih
  | tau _ ih => exact .tau ih

/-- The rule of consequence. -/
theorem Total.mono {Q Q' : Res S α → S.World → Prop} {m : Co S α} {w : S.World}
    (h : Total Y t m Q w) (hq : ∀ r w, Q r w → Q' r w) : Total Y t m Q' w :=
  Ends.mono h hq

/-! ## One rule for each statement -/

theorem total_pure {Q : Res S α → S.World → Prop} {a : α} {w : S.World} (h : Q (.ok a) w) :
    Total Y t (Pure.pure a : Co S α) Q w :=
  .done h

theorem total_throw {Q : Res S α → S.World → Prop} {e : Exc S.Err} {w : S.World}
    (h : Q (.error e) w) : Total Y t (.throw e : Co S α) Q w :=
  .done h

theorem total_act {Q : Res S α → S.World → Prop} {f : S.World → Res S α × S.World}
    {w : S.World} (h : Q (f w).1 (f w).2) : Total Y t (.act f) Q w :=
  .done h

theorem total_modify {Q : Res S Unit → S.World → Prop} {f : S.World → S.World} {w : S.World}
    (h : Q (.ok ()) (f w)) : Total Y t (Co.modify f) Q w :=
  .done h

theorem total_ask {Q : Res S S.Reply → S.World → Prop} {o : S.Op} {w : S.World}
    (hx : ∃ x, Y.allowed t o x w = true)
    (h : ∀ x, Y.allowed t o x w = true → Q (.ok x) (Y.answer t o x w)) :
    Total Y t (.ask o) Q w :=
  .ask hx fun x ha => .done (h x ha)

/-- The stop of a sequence, from the stop of its first half. -/
theorem Ends.bind {M : Res S α → S.World → Prop} {k : α → Co S β}
    {Q : Res S β → S.World → Prop}
    (hk : ∀ a w, M (.ok a) w → Total Y t (k a) Q w)
    (he : ∀ e w, M (.error e) w → Q (.error e) w) :
    ∀ {x : Stop S α}, Ends Y t M x → ∀ {m : Co S α} {w : S.World}, m.run w = x →
      Ends Y t Q ((Co.bind m k).run w) := by
  intro x h
  induction h with
  | @done r w' hM =>
      intro m w hr
      cases r with
      | ok a =>
          have h : Ends Y t Q ((k a).run w') := hk a w' hM
          simpa only [Co.run, hr] using h
      | error e =>
          simp only [Co.run, hr]
          exact .done (he e w' hM)
  | ask hx _ ih =>
      intro m w hr
      simp only [Co.run, hr]
      exact .ask hx fun x ha => ih x ha rfl
  | tau _ ih =>
      intro m w hr
      simp only [Co.run, hr]
      exact .tau (ih rfl)

/-- Sequencing. -/
theorem total_bind {M : Res S α → S.World → Prop} {m : Co S α} {k : α → Co S β}
    {Q : Res S β → S.World → Prop} {w : S.World} (hm : Total Y t m M w)
    (hk : ∀ a w, M (.ok a) w → Total Y t (k a) Q w)
    (he : ∀ e w, M (.error e) w → Q (.error e) w) : Total Y t (m >>= k) Q w :=
  Ends.bind hk he hm rfl

/-- A statement that cannot raise, and what it gives. -/
def Gives {α : Type} (M : α → S.World → Prop) : Res S α → S.World → Prop
  | .ok a => M a
  | .error _ => fun _ => False

/-- Sequencing after a statement that cannot raise. -/
theorem total_then {M : α → S.World → Prop} {m : Co S α} {k : α → Co S β}
    {Q : Res S β → S.World → Prop} {w : S.World} (hm : Total Y t m (Gives M) w)
    (hk : ∀ a w, M a w → Total Y t (k a) Q w) : Total Y t (m >>= k) Q w :=
  total_bind hm hk fun _ _ h => h.elim

theorem Gives.mono {M M' : α → S.World → Prop} {r : Res S α} {w : S.World} (h : Gives M r w)
    (hm : ∀ a, M a w → M' a w) : Gives M' r w := by
  cases r with
  | ok a => exact hm a h
  | error e => exact h

theorem Gives.ok {M : α → S.World → Prop} {r : Res S α} {w : S.World} (h : Gives M r w) :
    ∃ a, r = .ok a ∧ M a w := by
  cases r with
  | ok a => exact ⟨a, rfl, h⟩
  | error e => exact h.elim

/-- What a first half owes to the second. -/
def After (Y : Sys S) (t : Nat) (k : α → Co S β) (Q : Res S β → S.World → Prop) :
    Res S α → S.World → Prop
  | .ok a => Total Y t (k a) Q
  | .error e => Q (.error e)

/-- Sequencing, backwards. -/
theorem total_seq {m : Co S α} {k : α → Co S β} {Q : Res S β → S.World → Prop} {w : S.World}
    (h : Total Y t m (After Y t k Q) w) : Total Y t (m >>= k) Q w :=
  total_bind h (fun _ _ h => h) fun _ _ h => h

theorem total_gets_bind {f : S.World → α} {k : α → Co S β} {Q : Res S β → S.World → Prop}
    {w : S.World} (h : Total Y t (k (f w)) Q w) : Total Y t (Co.gets f >>= k) Q w :=
  h

theorem total_modify_bind {f : S.World → S.World} {k : Unit → Co S β}
    {Q : Res S β → S.World → Prop} {w : S.World} (h : Total Y t (k ()) Q (f w)) :
    Total Y t (Co.modify f >>= k) Q w :=
  h

theorem total_when {c : Bool} {m : Co S Unit} {Q : Res S Unit → S.World → Prop} {w : S.World}
    (ht : c = true → Total Y t m Q w) (hf : c = false → Q (.ok ()) w) :
    Total Y t (Co.when c m) Q w := by
  cases c with
  | true => exact ht rfl
  | false => exact .done (hf rfl)

theorem total_attempt {m : Co S α} {Q : Res S (Res S α) → S.World → Prop} {w : S.World}
    (h : Total Y t m (fun r => Q (.ok r)) w) : Total Y t (.attempt m) Q w := by
  have stop : ∀ {x : Stop S α}, Ends Y t (fun r => Q (.ok r)) x →
      ∀ {m : Co S α} {w : S.World}, m.run w = x → Ends Y t Q ((Co.attempt m).run w) := by
    intro x h
    induction h with
    | done h =>
        intro m w hr
        simp only [Co.run, hr]
        exact .done h
    | ask hx _ ih =>
        intro m w hr
        simp only [Co.run, hr]
        exact .ask hx fun x ha => ih x ha rfl
    | tau _ ih =>
        intro m w hr
        simp only [Co.run, hr]
        exact .tau (ih rfl)
  exact stop h rfl

/-- One turn of a `while`, and what is left of it. -/
theorem total_whileTrue {body : Co S Bool} {Q : Res S Unit → S.World → Prop} {w : S.World}
    (h : Total Y t body
      (fun r w => match r with
        | .ok true => Total Y t (Co.whileTrue body) Q w
        | .ok false => Q (.ok ()) w
        | .error e => Q (.error e) w) w) : Total Y t (Co.whileTrue body) Q w := by
  refine Ends.tau ?_
  let turn : Co S (Unit ⊕ Unit) :=
    .bind body fun again => .pure (if again then .inl () else .inr ())
  have hturn : Total Y t turn
      (fun r w => match r with
        | .ok (.inl ()) => Total Y t (Co.whileTrue body) Q w
        | .ok (.inr ()) => Q (.ok ()) w
        | .error e => Q (.error e) w) w := by
    refine total_bind (m := body) h (fun a w h => ?_) fun e w h => h
    cases a with
    | true => exact .done h
    | false => exact .done h
  refine total_bind (m := turn) hturn (fun a w h => ?_) fun e w h => h
  match a with
  | .inl () => exact h
  | .inr () => exact .done h

end

/-- A program of given statements and calls does what they do, and makes no
other calls. -/
theorem Only.returns {A R : S.World → S.World → Prop} {K : S.Op → Prop} (hr : ∀ w, R w w)
    (htr : ∀ a b c, R a b → R b c → R a c) (ha : ∀ w w', A w w' → R w w')
    (hk : ∀ o x w, K o → R w (Y.answer t o x w)) {log : List (S.Op × S.Reply)} {r : Res S α}
    {x : Stop S α} {w w' : S.World} (h : Returns Y t x log r w') (hx : OnlyStop A K R w x) :
    R w w' ∧ ∀ e ∈ log, K e.1 := by
  induction h generalizing w with
  | done => exact ⟨hx, (by rintro _ ⟨⟩)⟩
  | @ask o k w₁ w' log r x _ _ ih =>
      obtain ⟨hw, ho, hc⟩ := hx
      have hstop := Only.stop (K := K) hr htr ha (hc x) (Y.answer t o x w₁)
      obtain ⟨hR, hlog⟩ := ih hstop
      refine ⟨htr _ _ _ hw (htr _ _ _ (hk o x w₁ ho) hR), fun e he => ?_⟩
      rcases List.mem_cons.mp he with rfl | he
      · exact ho
      · exact hlog e he
  | @tau m w₁ w' log r _ ih =>
      obtain ⟨hR, hlog⟩ := ih (Only.stop (K := K) hr htr ha hx.2 w₁)
      exact ⟨htr _ _ _ hx.1 hR, hlog⟩

/-! ## What a sequence did -/

section

variable {Y : Sys S} {t : Nat} {α β : Type}

theorem run_bind_done {m : Co S α} {k : α → Co S β} {w w₁ : S.World} {a : α}
    (h : m.run w = .done (.ok a) w₁) : (Co.bind m k).run w = (k a).run w₁ := by
  rw [Co.run, h]

theorem returns_gets_bind {f : S.World → α} {k : α → Co S β} {log : List (S.Op × S.Reply)}
    {r : Res S β} {w w' : S.World} :
    Returns Y t ((Co.gets f >>= k).run w) log r w' ↔ Returns Y t ((k (f w)).run w) log r w' :=
  Iff.rfl

/-- A sequence returned: either its first half raised, or both returned. -/
theorem returns_bind {k : α → Co S β} : ∀ {x : Stop S β} {log : List (S.Op × S.Reply)}
    {r : Res S β} {w' : S.World}, Returns Y t x log r w' →
    ∀ {m : Co S α} {w : S.World}, (Co.bind m k).run w = x →
      (∃ e, r = .error e ∧ Returns Y t (m.run w) log (.error e) w') ∨
      ∃ a w₁ log₁ log₂, Returns Y t (m.run w) log₁ (.ok a) w₁ ∧
        Returns Y t ((k a).run w₁) log₂ r w' ∧ log = log₁ ++ log₂ := by
  intro x log r w' h
  induction h with
  | done =>
      intro m w hr
      cases hm : m.run w with
      | done q w₁ =>
          cases q with
          | ok a =>
              rw [run_bind_done hm] at hr
              exact .inr ⟨a, w₁, [], [], .done, by rw [hr]; exact .done, rfl⟩
          | error e =>
              rw [Co.run, hm] at hr
              cases hr
              exact .inl ⟨e, rfl, .done⟩
      | ask o c w₁ => rw [Co.run, hm] at hr; cases hr
      | await o c w₁ => rw [Co.run, hm] at hr; cases hr
      | tau m' w₁ => rw [Co.run, hm] at hr; cases hr
  | ask x ha h ih =>
      intro m w hr
      cases hm : m.run w with
      | done q w₁ =>
          cases q with
          | ok a =>
              rw [run_bind_done hm] at hr
              exact .inr ⟨a, w₁, [], _, .done, by rw [hr]; exact .ask x ha h, rfl⟩
          | error e => rw [Co.run, hm] at hr; cases hr
      | ask o c w₁ =>
          rw [Co.run, hm] at hr
          cases hr
          rcases ih rfl with ⟨e, he, h⟩ | ⟨a, w₂, l₁, l₂, h₁, h₂, hl⟩
          · exact .inl ⟨e, he, .ask x ha h⟩
          · exact .inr ⟨a, w₂, _, l₂, .ask x ha h₁, h₂, by rw [hl]; rfl⟩
      | await o c w₁ => rw [Co.run, hm] at hr; cases hr
      | tau m' w₁ => rw [Co.run, hm] at hr; cases hr
  | tau h ih =>
      intro m w hr
      cases hm : m.run w with
      | done q w₁ =>
          cases q with
          | ok a =>
              rw [run_bind_done hm] at hr
              exact .inr ⟨a, w₁, [], _, .done, by rw [hr]; exact .tau h, rfl⟩
          | error e => rw [Co.run, hm] at hr; cases hr
      | ask o c w₁ => rw [Co.run, hm] at hr; cases hr
      | await o c w₁ => rw [Co.run, hm] at hr; cases hr
      | tau m' w₁ =>
          rw [Co.run, hm] at hr
          cases hr
          rcases ih rfl with ⟨e, he, h⟩ | ⟨a, w₂, l₁, l₂, h₁, h₂, hl⟩
          · exact .inl ⟨e, he, .tau h⟩
          · exact .inr ⟨a, w₂, l₁, l₂, .tau h₁, h₂, hl⟩

end

end Coop
