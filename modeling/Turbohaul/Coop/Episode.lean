/-
# `Coop.Episode` — one task's program, from its start to its end

An `Episode` is a run of one program, with the operations it calls and what they
were answered.  The other tasks are there in one place: while the program is
suspended the world may change by `E`.

The rules say of each statement which episodes it has, in both directions: from
left to right they take an episode apart, from right to left they build one.
-/
import Turbohaul.Coop.Total

namespace Coop

variable {S : Sig}

/-- The program `m` of task `t` runs from `w` to its end in `w'`, with the calls `os`
on its way. -/
inductive Episode (Y : Sys S) (E : S.World → S.World → Prop) (t : Nat) {α : Type} :
    Co S α → S.World → List (S.Op × S.Reply) → Res S α → S.World → Prop where
  | done {m : Co S α} {w w' : S.World} {r : Res S α} (h : m.run w = .done r w') :
      Episode Y E t m w [] r w'
  | ask {m : Co S α} {o : S.Op} {k : S.Reply → Co S α} {w w₁ w' : S.World} {x : S.Reply}
      {os : List (S.Op × S.Reply)} {r : Res S α} (h : m.run w = .ask o k w₁)
      (hx : Y.allowed t o x w₁ = true) (hk : Episode Y E t (k x) (Y.answer t o x w₁) os r w') :
      Episode Y E t m w ((o, x) :: os) r w'
  | await {m : Co S α} {o : S.Op} {k : S.Reply → Co S α} {w w₁ w₂ w' : S.World} {x : S.Reply}
      {os : List (S.Op × S.Reply)} {r : Res S α} (h : m.run w = .await o k w₁)
      (he : E (Y.issue t o w₁) w₂) (hx : Y.allowed t o x w₂ = true)
      (hk : Episode Y E t (k x) (Y.answer t o x w₂) os r w') :
      Episode Y E t m w ((o, x) :: os) r w'
  | tau {m m' : Co S α} {w w₁ w' : S.World} {os : List (S.Op × S.Reply)} {r : Res S α}
      (h : m.run w = .tau m' w₁) (hk : Episode Y E t m' w₁ os r w') :
      Episode Y E t m w os r w'

section

variable {Y : Sys S} {E : S.World → S.World → Prop} {t : Nat} {α β : Type} {w w' : S.World}
  {os : List (S.Op × S.Reply)}

theorem episode_of_done {m : Co S α} {r : Res S α} {r₀ : Res S α} {w₀ : S.World}
    (hm : m.run w = .done r₀ w₀) :
    Episode Y E t m w os r w' ↔ os = [] ∧ r = r₀ ∧ w' = w₀ := by
  constructor
  · intro h
    cases h with
    | done h =>
      obtain ⟨rfl, rfl⟩ := Stop.done.inj (hm.symm.trans h)
      exact ⟨rfl, rfl, rfl⟩
    | ask h => cases hm.symm.trans h
    | await h => cases hm.symm.trans h
    | tau h => cases hm.symm.trans h
  · rintro ⟨rfl, rfl, rfl⟩
    exact .done hm

theorem episode_pure {a : α} {r : Res S α} :
    Episode Y E t (pure a) w os r w' ↔ os = [] ∧ r = .ok a ∧ w' = w := episode_of_done rfl

theorem episode_throw {e : Exc S.Err} {r : Res S α} :
    Episode Y E t (.throw e) w os r w' ↔ os = [] ∧ r = .error e ∧ w' = w := episode_of_done rfl

theorem episode_act {f : S.World → Res S α × S.World} {r : Res S α} :
    Episode Y E t (.act f) w os r w' ↔ os = [] ∧ r = (f w).1 ∧ w' = (f w).2 := episode_of_done rfl

theorem episode_ask {o : S.Op} {r : Res S S.Reply} :
    Episode Y E t (.ask o) w os r w' ↔
      ∃ x, Y.allowed t o x w = true ∧ os = [(o, x)] ∧ r = .ok x ∧ w' = Y.answer t o x w := by
  constructor
  · intro h
    cases h with
    | done h => cases h
    | ask h hx hk =>
      obtain ⟨rfl, rfl, rfl⟩ := Stop.ask.inj h
      obtain ⟨rfl, rfl, rfl⟩ := episode_pure.mp hk
      exact ⟨_, hx, rfl, rfl, rfl⟩
    | await h => cases h
    | tau h => cases h
  · rintro ⟨x, hx, rfl, rfl, rfl⟩
    exact .ask rfl hx (episode_pure.mpr ⟨rfl, rfl, rfl⟩)

theorem episode_await {o : S.Op} {r : Res S S.Reply} :
    Episode Y E t (.await o) w os r w' ↔
      ∃ x w₂, E (Y.issue t o w) w₂ ∧ Y.allowed t o x w₂ = true ∧ os = [(o, x)] ∧ r = .ok x ∧
        w' = Y.answer t o x w₂ := by
  constructor
  · intro h
    cases h with
    | done h => cases h
    | ask h => cases h
    | await h he hx hk =>
      obtain ⟨rfl, rfl, rfl⟩ := Stop.await.inj h
      obtain ⟨rfl, rfl, rfl⟩ := episode_pure.mp hk
      exact ⟨_, _, he, hx, rfl, rfl, rfl⟩
    | tau h => cases h
  · rintro ⟨x, w₂, he, hx, rfl, rfl, rfl⟩
    exact .await rfl he hx (episode_pure.mpr ⟨rfl, rfl, rfl⟩)

/-- The second half of a sequence runs where the first has ended. -/
theorem Episode.bind_ok {m : Co S α} {k : α → Co S β} {a : α} {w₁ : S.World} {r : Res S β}
    {os' : List (S.Op × S.Reply)} {r₀ : Res S α} (hm : Episode Y E t m w os r₀ w₁)
    (ha : r₀ = .ok a) (hk : Episode Y E t (k a) w₁ os' r w') :
    Episode Y E t (.bind m k) w (os ++ os') r w' := by
  induction hm with
  | @done m w w₀ r₀ h =>
    subst ha
    have hrun : (Co.bind m k).run w = (k a).run w₀ := by rw [Co.run, h]
    cases hk with
    | done hk => exact .done (hrun.trans hk)
    | ask hk hx hc => exact .ask (hrun.trans hk) hx hc
    | await hk he hx hc => exact .await (hrun.trans hk) he hx hc
    | tau hk hc => exact .tau (hrun.trans hk) hc
  | ask h hx hc ih => exact .ask (by rw [Co.run, h]) hx (ih ha hk)
  | await h he hx hc ih => exact .await (by rw [Co.run, h]) he hx (ih ha hk)
  | tau h hc ih => exact .tau (by rw [Co.run, h]) (ih ha hk)

/-- What ends the first half with an exception ends the sequence. -/
theorem Episode.bind_error {m : Co S α} {k : α → Co S β} {e : Exc S.Err} {r₀ : Res S α}
    (hm : Episode Y E t m w os r₀ w') (he : r₀ = .error e) :
    Episode Y E t (.bind m k) w os (.error e) w' := by
  induction hm with
  | done h =>
    subst he
    exact .done (by rw [Co.run, h])
  | ask h hx hc ih => exact .ask (by rw [Co.run, h]) hx (ih he)
  | await h hen hx hc ih => exact .await (by rw [Co.run, h]) hen hx (ih he)
  | tau h hc ih => exact .tau (by rw [Co.run, h]) (ih he)

/-- A sequence from here: its first half ends, and the second half follows, or it
ends with an exception. -/
def Sequel (Y : Sys S) (E : S.World → S.World → Prop) (t : Nat) (m : Co S α) (k : α → Co S β)
    (w : S.World) (os : List (S.Op × S.Reply)) (r : Res S β) (w' : S.World) : Prop :=
  (∃ os₁ os₂ a w₁, os = os₁ ++ os₂ ∧ Episode Y E t m w os₁ (.ok a) w₁ ∧
    Episode Y E t (k a) w₁ os₂ r w') ∨
  ∃ e, r = .error e ∧ Episode Y E t m w os (.error e) w'

theorem Episode.sequel {m : Co S β} {r : Res S β} (h : Episode Y E t m w os r w') :
    ∀ {γ : Type} {m₀ : Co S γ} {k : γ → Co S β}, m = .bind m₀ k →
      Sequel Y E t m₀ k w os r w' := by
  induction h with
  | @done m w w' r h =>
    rintro γ m₀ k rfl
    rw [Co.run] at h
    cases hm : m₀.run w with
    | done r₀ w₀ =>
      rw [hm] at h
      cases r₀ with
      | ok a => exact .inl ⟨[], [], a, w₀, rfl, .done hm, .done h⟩
      | error e =>
        obtain ⟨rfl, rfl⟩ := Stop.done.inj h
        exact .inr ⟨e, rfl, .done hm⟩
    | ask => rw [hm] at h; cases h
    | await => rw [hm] at h; cases h
    | tau => rw [hm] at h; cases h
  | @ask m o c w w₁ w' x os r h hx hc ih =>
    rintro γ m₀ k rfl
    rw [Co.run] at h
    cases hm : m₀.run w with
    | done r₀ w₀ =>
      rw [hm] at h
      cases r₀ with
      | ok a => exact .inl ⟨[], _, a, w₀, rfl, .done hm, .ask h hx hc⟩
      | error e => cases h
    | ask o' c' w₀ =>
      rw [hm] at h
      obtain ⟨rfl, rfl, rfl⟩ := Stop.ask.inj h
      rcases ih rfl with ⟨os₁, os₂, a, w₂, rfl, h₁, h₂⟩ | ⟨e, rfl, h₁⟩
      · exact .inl ⟨_ :: os₁, os₂, a, w₂, rfl, .ask hm hx h₁, h₂⟩
      · exact .inr ⟨e, rfl, .ask hm hx h₁⟩
    | await => rw [hm] at h; cases h
    | tau => rw [hm] at h; cases h
  | @await m o c w w₁ w₂ w' x os r h he hx hc ih =>
    rintro γ m₀ k rfl
    rw [Co.run] at h
    cases hm : m₀.run w with
    | done r₀ w₀ =>
      rw [hm] at h
      cases r₀ with
      | ok a => exact .inl ⟨[], _, a, w₀, rfl, .done hm, .await h he hx hc⟩
      | error e => cases h
    | ask => rw [hm] at h; cases h
    | await o' c' w₀ =>
      rw [hm] at h
      obtain ⟨rfl, rfl, rfl⟩ := Stop.await.inj h
      rcases ih rfl with ⟨os₁, os₂, a, w₃, rfl, h₁, h₂⟩ | ⟨e, rfl, h₁⟩
      · exact .inl ⟨_ :: os₁, os₂, a, w₃, rfl, .await hm he hx h₁, h₂⟩
      · exact .inr ⟨e, rfl, .await hm he hx h₁⟩
    | tau => rw [hm] at h; cases h
  | @tau m m' w w₁ w' os r h hc ih =>
    rintro γ m₀ k rfl
    rw [Co.run] at h
    cases hm : m₀.run w with
    | done r₀ w₀ =>
      rw [hm] at h
      cases r₀ with
      | ok a => exact .inl ⟨[], _, a, w₀, rfl, .done hm, .tau h hc⟩
      | error e => cases h
    | ask => rw [hm] at h; cases h
    | await => rw [hm] at h; cases h
    | tau m₁ w₀ =>
      rw [hm] at h
      obtain ⟨rfl, rfl⟩ := Stop.tau.inj h
      rcases ih rfl with ⟨os₁, os₂, a, w₂, rfl, h₁, h₂⟩ | ⟨e, rfl, h₁⟩
      · exact .inl ⟨os₁, os₂, a, w₂, rfl, .tau hm h₁, h₂⟩
      · exact .inr ⟨e, rfl, .tau hm h₁⟩

theorem episode_bind {m : Co S α} {k : α → Co S β} {r : Res S β} :
    Episode Y E t (m >>= k) w os r w' ↔ Sequel Y E t m k w os r w' := by
  refine ⟨fun h => h.sequel rfl, ?_⟩
  rintro (⟨os₁, os₂, a, w₁, rfl, h₁, h₂⟩ | ⟨e, rfl, h₁⟩)
  · exact h₁.bind_ok rfl h₂
  · exact h₁.bind_error rfl

theorem episode_gets_bind {f : S.World → α} {k : α → Co S β} {r : Res S β} :
    Episode Y E t (Co.gets f >>= k) w os r w' ↔
      Episode Y E t (k (f w)) w os r w' := by
  rw [episode_bind]
  constructor
  · rintro (⟨os₁, os₂, a, w₁, rfl, h₁, h₂⟩ | ⟨e, rfl, h₁⟩)
    · obtain ⟨rfl, ha, rfl⟩ := episode_act.mp h₁
      obtain rfl := Except.ok.inj ha
      exact h₂
    · cases (episode_act.mp h₁).2.1
  · intro h
    exact .inl ⟨[], os, f w, w, rfl, episode_act.mpr ⟨rfl, rfl, rfl⟩, h⟩

theorem episode_modify_bind {f : S.World → S.World} {k : Unit → Co S β} {r : Res S β} :
    Episode Y E t (Co.modify f >>= k) w os r w' ↔
      Episode Y E t (k ()) (f w) os r w' := by
  rw [episode_bind]
  constructor
  · rintro (⟨os₁, os₂, a, w₁, rfl, h₁, h₂⟩ | ⟨e, rfl, h₁⟩)
    · obtain ⟨rfl, -, rfl⟩ := episode_act.mp h₁
      exact h₂
    · cases (episode_act.mp h₁).2.1
  · intro h
    exact .inl ⟨[], os, (), f w, rfl, episode_act.mpr ⟨rfl, rfl, rfl⟩, h⟩

/-- What returns from `p` has returned from `q` first, and from `l` then. -/
structure Splits (Y : Sys S) (E : S.World → S.World → Prop) (t : Nat) (p : Co S β) (q : Co S α)
    (l : α → Co S β) : Prop where
  parts : ∀ {w os b w'}, Episode Y E t p w os (.ok b) w' →
    ∃ os₁ os₂ a w₁, os = os₁ ++ os₂ ∧ Episode Y E t q w os₁ (.ok a) w₁ ∧
      Episode Y E t (l a) w₁ os₂ (.ok b) w'

namespace Splits

theorem pure {l : α → Co S β} (a : α) : Splits Y E t (l a) (Pure.pure a) l :=
  ⟨fun h => ⟨[], _, a, _, rfl, episode_pure.mpr ⟨rfl, rfl, rfl⟩, h⟩⟩

theorem here {m : Co S α} {l : α → Co S β} : Splits Y E t (m >>= l) m l := by
  refine ⟨fun h => ?_⟩
  rcases episode_bind.mp h with ⟨os₁, os₂, a, w₁, rfl, h₁, h₂⟩ | ⟨e, he, -⟩
  · exact ⟨os₁, os₂, a, w₁, rfl, h₁, h₂⟩
  · cases he

theorem bind {γ : Type} {m : Co S γ} {k : γ → Co S β} {q : γ → Co S α} {l : α → Co S β}
    (h : ∀ x, Splits Y E t (k x) (q x) l) : Splits Y E t (m >>= k) (m >>= q) l := by
  refine ⟨fun he => ?_⟩
  obtain ⟨os₁, os₂, x, w₁, rfl, hm, hk⟩ := here.parts he
  obtain ⟨os₂, os₃, a, w₂, rfl, hq, hl⟩ := (h x).parts hk
  exact ⟨os₁ ++ os₂, os₃, a, w₂, (List.append_assoc _ _ _).symm, hm.bind_ok rfl hq, hl⟩

end Splits

/-- The outcome of an episode, as a value. -/
theorem Episode.attempt {m : Co S α} {r : Res S α} (h : Episode Y E t m w os r w') :
    Episode Y E t (.attempt m) w os (.ok r) w' := by
  induction h with
  | done h => exact .done (by rw [Co.run, h])
  | ask h hx hc ih => exact .ask (by rw [Co.run, h]) hx ih
  | await h he hx hc ih => exact .await (by rw [Co.run, h]) he hx ih
  | tau h hc ih => exact .tau (by rw [Co.run, h]) ih

theorem Episode.attempted {m : Co S (Res S α)} {r : Res S (Res S α)}
    (h : Episode Y E t m w os r w') :
    ∀ {m₀ : Co S α}, m = .attempt m₀ → ∃ r₀, r = .ok r₀ ∧ Episode Y E t m₀ w os r₀ w' := by
  induction h with
  | @done m w w' r h =>
    rintro m₀ rfl
    rw [Co.run] at h
    cases hm : m₀.run w with
    | done r₀ w₀ =>
      rw [hm] at h
      obtain ⟨rfl, rfl⟩ := Stop.done.inj h
      exact ⟨r₀, rfl, .done hm⟩
    | _ => rw [hm] at h; cases h
  | @ask m o c w w₁ w' x os r h hx hc ih =>
    rintro m₀ rfl
    rw [Co.run] at h
    cases hm : m₀.run w with
    | ask o' c' w₀ =>
      rw [hm] at h
      obtain ⟨rfl, rfl, rfl⟩ := Stop.ask.inj h
      obtain ⟨r₀, rfl, h₀⟩ := ih rfl
      exact ⟨r₀, rfl, .ask hm hx h₀⟩
    | _ => rw [hm] at h; cases h
  | @await m o c w w₁ w₂ w' x os r h he hx hc ih =>
    rintro m₀ rfl
    rw [Co.run] at h
    cases hm : m₀.run w with
    | await o' c' w₀ =>
      rw [hm] at h
      obtain ⟨rfl, rfl, rfl⟩ := Stop.await.inj h
      obtain ⟨r₀, rfl, h₀⟩ := ih rfl
      exact ⟨r₀, rfl, .await hm he hx h₀⟩
    | _ => rw [hm] at h; cases h
  | @tau m m' w w₁ w' os r h hc ih =>
    rintro m₀ rfl
    rw [Co.run] at h
    cases hm : m₀.run w with
    | tau m₁ w₀ =>
      rw [hm] at h
      obtain ⟨rfl, rfl⟩ := Stop.tau.inj h
      obtain ⟨r₀, rfl, h₀⟩ := ih rfl
      exact ⟨r₀, rfl, .tau hm h₀⟩
    | _ => rw [hm] at h; cases h

theorem episode_attempt {m : Co S α} {r : Res S (Res S α)} :
    Episode Y E t (.attempt m) w os r w' ↔ ∃ r₀, r = .ok r₀ ∧ Episode Y E t m w os r₀ w' :=
  ⟨fun h => h.attempted rfl, by
    rintro ⟨r₀, rfl, h⟩
    exact h.attempt⟩

/-- An episode of a program that does not suspend ends as the program does. -/
theorem Total.episode {m : Co S α} {Q : Res S α → S.World → Prop} {r : Res S α}
    (hm : Total Y t m Q w) (h : Episode Y E t m w os r w') : Q r w' := by
  unfold Total at hm
  induction h with
  | done h =>
    rw [h] at hm
    cases hm with
    | done h => exact h
  | ask h hx _ ih =>
    rw [h] at hm
    cases hm with
    | ask _ hk => exact ih (hk _ hx)
  | await h =>
    rw [h] at hm
    cases hm
  | tau h _ ih =>
    rw [h] at hm
    cases hm with
    | tau h => exact ih h

/-! ## Playing an episode -/

/-- A program is enacted by given replies, each after the others have had their turn;
`none` crosses a loop's back edge. -/
def enact (Y : Sys S) (t : Nat) {α : Type} :
    List (Option ((S.World → S.World) × S.Reply)) → Stop S α →
      Option (List (S.Op × S.Reply) × Res S α × S.World)
  | [], .done r w => some ([], r, w)
  | some (_, x) :: cs, .ask o k w =>
      if Y.allowed t o x w then
        (enact Y t cs ((k x).run (Y.answer t o x w))).map fun p => ((o, x) :: p.1, p.2)
      else none
  | some (g, x) :: cs, .await o k w =>
      if Y.allowed t o x (g (Y.issue t o w)) then
        (enact Y t cs ((k x).run (Y.answer t o x (g (Y.issue t o w))))).map fun p =>
          ((o, x) :: p.1, p.2)
      else none
  | none :: cs, .tau m w => enact Y t cs (m.run w)
  | _, _ => none

theorem episode_of_enact {r : Res S α} : ∀ {cs : List (Option ((S.World → S.World) × S.Reply))}
    {os : List (S.Op × S.Reply)} {m : Co S α} {w : S.World},
    (∀ g x, some (g, x) ∈ cs → ∀ w, E w (g w)) → enact Y t cs (m.run w) = some (os, r, w') →
      Episode Y E t m w os r w' := by
  intro cs
  induction cs with
  | nil =>
      intro os m w _ h
      cases hm : m.run w with
      | done r₀ w₀ =>
          rw [hm] at h
          cases h
          exact .done hm
      | _ => rw [hm] at h; cases h
  | cons c cs ih =>
      intro os m w hE h
      have hE' : ∀ g x, some (g, x) ∈ cs → ∀ w, E w (g w) := fun g x hx =>
        hE g x (List.mem_cons_of_mem _ hx)
      cases hm : m.run w with
      | done => rw [hm] at h; cases c <;> cases h
      | ask o k w₁ =>
          rw [hm] at h
          cases c with
          | none => cases h
          | some c =>
              simp only [enact, Option.ite_none_right_eq_some, Option.map_eq_some_iff] at h
              obtain ⟨ha, ⟨os', r', w''⟩, hp, he⟩ := h
              cases he
              exact .ask hm ha (ih hE' hp)
      | await o k w₁ =>
          rw [hm] at h
          cases c with
          | none => cases h
          | some c =>
              simp only [enact, Option.ite_none_right_eq_some, Option.map_eq_some_iff] at h
              obtain ⟨ha, ⟨os', r', w''⟩, hp, he⟩ := h
              cases he
              exact .await hm (hE c.1 c.2 List.mem_cons_self _) ha (ih hE' hp)
      | tau m' w₁ =>
          rw [hm] at h
          cases c with
          | none => exact .tau hm (ih hE' h)
          | some c => cases h

/-- What an enacted episode shows. -/
theorem episode_of_check {cs : List (Option ((S.World → S.World) × S.Reply))} {m : Co S α}
    {p : List (S.Op × S.Reply) × Res S α × S.World → Bool}
    (hE : ∀ g x, some (g, x) ∈ cs → ∀ w, E w (g w))
    (h : (enact Y t cs (m.run w)).any p = true) :
    ∃ os r w', Episode Y E t m w os r w' ∧ p (os, r, w') = true := by
  cases hp : enact Y t cs (m.run w) with
  | none => rw [hp] at h; cases h
  | some q =>
      obtain ⟨os, r, w'⟩ := q
      rw [hp] at h
      exact ⟨os, r, w', episode_of_enact hE hp, h⟩

end

end Coop
