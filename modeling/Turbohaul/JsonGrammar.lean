/-
# The grammar of JSON texts

A part of a text is read from its beginning and leaves the rest.  `Reads part s rest`
is derived as the grammar has it, with the three words for floats that Python adds;
what the decoder reads, the grammar does.

  `Ws`, `Chars`, `Numeral`  whitespace, a string after its opening quote, a numeral
  `Reads`                   values, objects, and what follows an opening bracket
  `scanOnce_reads`          the decoder keeps to the grammar
-/
import Turbohaul.JsonText
import Mathlib.Data.List.TakeWhile

namespace Turbohaul.JsonText

/-- Whitespace, possibly none. -/
def Ws (s rest : List Char) : Prop := ∃ w, (∀ c ∈ w, isWs c = true) ∧ s = w ++ rest

def Numeral (s rest : List Char) : Prop :=
  ∃ negative i f e, IntNumeral i ∧ FracNumeral f ∧ ExpNumeral e ∧
    s = minus negative ++ (i ++ (f ++ (e ++ rest)))

/-- A string, after its opening quote up to its closing one. -/
inductive Chars : List Char → List Char → Prop
  | close {s : List Char} : Chars ('"' :: s) s
  | plain {c : Char} {s rest : List Char} : c ≠ '"' → c ≠ '\\' → 32 ≤ c.toNat → Chars s rest →
      Chars (c :: s) rest
  | escape {c : Char} {s rest : List Char} : c ∈ ['"', '\\', '/', 'b', 'f', 'n', 'r', 't'] →
      Chars s rest → Chars ('\\' :: c :: s) rest
  | unicode {a b c d : Char} {s rest : List Char} :
      (∀ x ∈ [a, b, c, d], (hexDigit x).isSome = true) →
      Chars s rest → Chars ('\\' :: 'u' :: a :: b :: c :: d :: s) rest

/-- The parts of a text: a value, an object, and what follows an opening bracket or brace
up to the closing one, where that is not empty. -/
inductive Part
  | value
  | object
  | elements
  | members
deriving DecidableEq

/-- The names of values. -/
def valueWords : List String := ["null", "true", "false", "NaN", "Infinity", "-Infinity"]

inductive Reads : Part → List Char → List Char → Prop
  | word {w : String} {rest : List Char} : w ∈ valueWords → Reads .value (w.toList ++ rest) rest
  | numeral {s rest : List Char} : Numeral s rest → Reads .value s rest
  | string {s rest : List Char} : Chars s rest → Reads .value ('"' :: s) rest
  | object {s rest : List Char} : Reads .object s rest → Reads .value s rest
  | emptyArray {s rest : List Char} : Ws s (']' :: rest) → Reads .value ('[' :: s) rest
  | array {s rest : List Char} : Reads .elements s rest → Reads .value ('[' :: s) rest
  | emptyObject {s rest : List Char} : Ws s ('}' :: rest) → Reads .object ('{' :: s) rest
  | nonempty {s rest : List Char} : Reads .members s rest → Reads .object ('{' :: s) rest
  | last {s s₁ s₂ rest : List Char} : Ws s s₁ → Reads .value s₁ s₂ → Ws s₂ (']' :: rest) →
      Reads .elements s rest
  | element {s s₁ s₂ s₃ rest : List Char} : Ws s s₁ → Reads .value s₁ s₂ → Ws s₂ (',' :: s₃) →
      Reads .elements s₃ rest → Reads .elements s rest
  | lastMember {s s₁ s₂ s₃ s₄ s₅ rest : List Char} : Ws s ('"' :: s₁) → Chars s₁ s₂ →
      Ws s₂ (':' :: s₃) → Ws s₃ s₄ → Reads .value s₄ s₅ → Ws s₅ ('}' :: rest) →
      Reads .members s rest
  | member {s s₁ s₂ s₃ s₄ s₅ s₆ rest : List Char} : Ws s ('"' :: s₁) → Chars s₁ s₂ →
      Ws s₂ (':' :: s₃) → Ws s₃ s₄ → Reads .value s₄ s₅ → Ws s₅ (',' :: s₆) →
      Reads .members s₆ rest → Reads .members s rest

/-! ## What the decoder reads -/

theorem Ws.refl (s : List Char) : Ws s s := ⟨[], (by rintro _ ⟨⟩), rfl⟩

theorem ws_skipWs (s : List Char) : Ws s (skipWs s) :=
  ⟨s.takeWhile isWs, fun _ hc => List.mem_takeWhile_imp hc, (List.takeWhile_append_dropWhile).symm⟩

theorem ws_of_skipWs {s rest : List Char} (h : skipWs s = rest) : Ws s rest := h ▸ ws_skipWs s

theorem Ws.trans {s t u : List Char} : Ws s t → Ws t u → Ws s u := by
  rintro ⟨w, hw, rfl⟩ ⟨w', hw', rfl⟩
  exact ⟨w ++ w', fun c hc => (List.mem_append.mp hc).elim (hw c) (hw' c),
    (List.append_assoc w w' u).symm⟩

/-- Whitespace before a part belongs to it. -/
theorem Reads.ws {part : Part} (hpart : part = .elements ∨ part = .members) {s t rest : List Char}
    (hw : Ws s t) (h : Reads part t rest) : Reads part s rest := by
  cases h with
  | last h₁ hv h₂ => exact .last (hw.trans h₁) hv h₂
  | element h₁ hv h₂ h => exact .element (hw.trans h₁) hv h₂ h
  | lastMember h₁ hk h₂ h₃ hv h₄ => exact .lastMember (hw.trans h₁) hk h₂ h₃ hv h₄
  | member h₁ hk h₂ h₃ hv h₄ h => exact .member (hw.trans h₁) hk h₂ h₃ hv h₄ h
  | word | numeral | string | object | emptyArray | array | emptyObject | nonempty =>
    exact absurd hpart (by decide)

theorem hex4_some {s s' : List Char} {n : ℕ} (h : hex4 s = some (n, s')) :
    ∃ a b c d, s = a :: b :: c :: d :: s' ∧ ∀ x ∈ [a, b, c, d], (hexDigit x).isSome = true := by
  unfold hex4 at h
  split at h
  · rename_i a b c d s₀
    split at h
    · rename_i na nb nc nd ha hb hc hd
      obtain rfl : s₀ = s' := congrArg Prod.snd (Option.some.inj h)
      refine ⟨a, b, c, d, rfl, fun x hx => ?_⟩
      simp only [List.mem_cons, List.not_mem_nil, or_false] at hx
      rcases hx with rfl | rfl | rfl | rfl
      · rw [ha]; rfl
      · rw [hb]; rfl
      · rw [hc]; rfl
      · rw [hd]; rfl
    · cases h
  · cases h

/-- An escape, or two that are one character. -/
theorem chars_unescape {s s' rest : List Char} {c : Char} (h : unescape s = some (c, s'))
    (hrest : Chars s' rest) : Chars ('\\' :: s) rest := by
  have letter : ∀ {x y : Char} {t : List Char}, x ∈ ['"', '\\', '/', 'b', 'f', 'n', 'r', 't'] →
      some (y, t) = some (c, s') → Chars ('\\' :: x :: t) rest := by
    intro x y t hx he
    obtain rfl : t = s' := congrArg Prod.snd (Option.some.inj he)
    exact .escape hx hrest
  unfold unescape at h
  split at h
  · exact letter (by decide) h
  · exact letter (by decide) h
  · exact letter (by decide) h
  · exact letter (by decide) h
  · exact letter (by decide) h
  · exact letter (by decide) h
  · exact letter (by decide) h
  · exact letter (by decide) h
  · split at h
    · cases h
    · rename_i n t hhex
      obtain ⟨a₁, a₂, a₃, a₄, rfl, ha⟩ := hex4_some hhex
      have one : ∀ {y : Char}, some (y, t) = some (c, s') →
          Chars ('\\' :: 'u' :: a₁ :: a₂ :: a₃ :: a₄ :: t) rest := by
        intro y he
        obtain rfl : t = s' := congrArg Prod.snd (Option.some.inj he)
        exact .unicode ha hrest
      split at h
      · split at h
        · split at h
          · cases h
          · rename_i m t' hhex'
            obtain ⟨b₁, b₂, b₃, b₄, rfl, hb⟩ := hex4_some hhex'
            split at h
            · obtain rfl : t' = s' := congrArg Prod.snd (Option.some.inj h)
              exact .unicode ha (.unicode hb hrest)
            · exact one h
        · exact one h
      · split at h
        · exact one h
        · exact one h
  · cases h

theorem scanString_chars {n : ℕ} {s k rest : List Char} (h : scanString n s = some (k, rest)) :
    Chars s rest := by
  induction n generalizing s k with
  | zero => cases h
  | succ n ih =>
    cases s with
    | nil => cases h
    | cons c s =>
      rw [scanString] at h
      split at h
      · rename_i hc
        obtain rfl : s = rest := congrArg Prod.snd (Option.some.inj h)
        exact hc ▸ .close
      · rename_i hquote
        split at h
        · rename_i hback
          split at h
          · cases h
          · rename_i c' s' hun
            obtain ⟨⟨k', r⟩, hk, he⟩ := Option.map_eq_some_iff.mp h
            obtain rfl : r = rest := congrArg Prod.snd he
            exact hback ▸ chars_unescape hun (ih hk)
        · rename_i hback
          split at h
          · cases h
          · rename_i hctl
            obtain ⟨⟨k', r⟩, hk, he⟩ := Option.map_eq_some_iff.mp h
            obtain rfl : r = rest := congrArg Prod.snd he
            exact .plain hquote hback (Nat.not_lt.mp hctl) (ih hk)

theorem intPart_some {s i s' : List Char} (h : intPart s = some (i, s')) :
    IntNumeral i ∧ s = i ++ s' := by
  cases s with
  | nil => cases h
  | cons c s =>
    rw [intPart] at h
    split at h
    · rename_i hc
      obtain ⟨rfl, rfl⟩ := Prod.mk.inj (Option.some.inj h)
      exact ⟨.inl rfl, by rw [hc]; rfl⟩
    · rename_i hzero
      split at h
      · rename_i hc
        obtain ⟨rfl, rfl⟩ := Prod.mk.inj (Option.some.inj h)
        refine ⟨.inr ⟨c, _, rfl, hc, hzero, fun d hd => List.mem_takeWhile_imp hd⟩, ?_⟩
        rw [List.cons_append, List.takeWhile_append_dropWhile]
      · cases h

theorem fracPart_eq (s : List Char) : FracNumeral (fracPart s).1 ∧
    s = (fracPart s).1 ++ (fracPart s).2 := by
  unfold fracPart
  split
  · split
    · exact ⟨.inl rfl, rfl⟩
    · rename_i hne
      refine ⟨.inr ⟨_, rfl, hne, fun d hd => List.mem_takeWhile_imp hd⟩, ?_⟩
      rw [List.cons_append, List.takeWhile_append_dropWhile]
  · exact ⟨.inl rfl, rfl⟩

theorem expSign_eq (s : List Char) :
    (expSign s = [] ∨ expSign s = ['+'] ∨ expSign s = ['-']) ∧
      s = expSign s ++ s.drop (expSign s).length := by
  unfold expSign
  split
  · exact ⟨.inr (.inl rfl), rfl⟩
  · exact ⟨.inr (.inr rfl), rfl⟩
  · exact ⟨.inl rfl, rfl⟩

theorem expPart_eq (s : List Char) : ExpNumeral (expPart s).1 ∧
    s = (expPart s).1 ++ (expPart s).2 := by
  unfold expPart
  split
  · exact ⟨.inl rfl, rfl⟩
  · rename_i e s'
    split
    · rename_i he
      obtain ⟨hsign, hs⟩ := expSign_eq s'
      dsimp only
      split
      · exact ⟨.inl rfl, rfl⟩
      · rename_i hne
        refine ⟨.inr ⟨e, _, _, rfl, he, hsign, hne, fun d hd => List.mem_takeWhile_imp hd⟩, ?_⟩
        rw [List.cons_append, List.append_assoc, List.takeWhile_append_dropWhile, ← hs]
    · exact ⟨.inl rfl, rfl⟩

theorem unsigned_numeral_of {F : FloatText} {negative : Bool} {s rest : List Char} {x : Json}
    (h : unsigned F negative s = some (x, rest)) : Numeral (minus negative ++ s) rest := by
  unfold unsigned at h
  split at h
  · cases h
  · rename_i i s₁ hi
    obtain ⟨hint, rfl⟩ := intPart_some hi
    obtain ⟨hfrac, hf⟩ := fracPart_eq s₁
    obtain ⟨hexp, he⟩ := expPart_eq (fracPart s₁).2
    dsimp only at h
    have hrest : (expPart (fracPart s₁).2).2 = rest := by
      split at h
      · exact congrArg Prod.snd (Option.some.inj h)
      · exact congrArg Prod.snd (Option.some.inj h)
    refine ⟨negative, i, _, _, hint, hfrac, hexp, ?_⟩
    rw [← hrest, ← he, ← hf]

/-- A numeral is no object. -/
theorem unsigned_ne {F : FloatText} {negative : Bool} {s rest : List Char} {x : Json}
    {kvs : List (String × Json)} (hx : x = .obj kvs) :
    unsigned F negative s ≠ some (x, rest) := by
  intro h
  subst hx
  unfold unsigned at h
  split at h
  · cases h
  · dsimp only at h
    split at h
    · cases (Prod.mk.inj (Option.some.inj h)).1
    · cases (Prod.mk.inj (Option.some.inj h)).1

theorem keyword_eq {word : String} {s rest : List Char} (h : keyword word s = some rest) :
    s = word.toList ++ rest := by
  unfold keyword at h
  split at h
  · rename_i hp
    obtain ⟨t, rfl⟩ := List.isPrefixOf_iff_prefix.mp hp
    rw [← Option.some.inj h, List.drop_left]
  · cases h

theorem elements_reads {value : List Char → Option (Json × List Char)}
    (hvalue : ∀ {s x rest}, value s = some (x, rest) → Reads .value s rest) (n : ℕ) :
    ∀ {s rest : List Char} {xs : List Json}, elements value n s = some (xs, rest) →
      Reads .elements s rest := by
  induction n with
  | zero =>
    intro s rest xs h
    cases h
  | succ n ih =>
    intro s rest xs h
    rw [elements] at h
    split at h
    · cases h
    · rename_i x s₁ hx
      split at h
      · rename_i s₂ hcomma
        obtain ⟨⟨ys, r⟩, hys, he⟩ := Option.map_eq_some_iff.mp h
        obtain rfl : r = rest := congrArg Prod.snd he
        exact .element (.refl s) (hvalue hx) (ws_of_skipWs hcomma)
          ((ih hys).ws (.inl rfl) (ws_skipWs s₂))
      · rename_i s₂ hclose
        obtain rfl : s₂ = rest := congrArg Prod.snd (Option.some.inj h)
        exact .last (.refl s) (hvalue hx) (ws_of_skipWs hclose)
      · cases h

theorem members_reads {value : List Char → Option (Json × List Char)}
    (hvalue : ∀ {s x rest}, value s = some (x, rest) → Reads .value s rest) (n : ℕ) :
    ∀ {s rest : List Char} {d kvs : Dict}, members value n d s = some (kvs, rest) →
      Reads .members s rest := by
  induction n with
  | zero =>
    intro s rest d kvs h
    cases h
  | succ n ih =>
    intro s rest d kvs h
    unfold members at h
    split at h
    · rename_i heq
      obtain rfl := Nat.succ.inj heq
      split at h
      · cases h
      · rename_i k s₁ hk
        split at h
        · rename_i s₂ hcolon
          split at h
          · cases h
          · rename_i x s₃ hx
            split at h
            · rename_i s₄ hcomma
              exact .member (.refl _) (scanString_chars hk) (ws_of_skipWs hcolon) (ws_skipWs s₂)
                (hvalue hx) (ws_of_skipWs hcomma) ((ih h).ws (.inr rfl) (ws_skipWs s₄))
            · rename_i s₄ hclose
              obtain rfl : s₄ = rest := congrArg Prod.snd (Option.some.inj h)
              exact .lastMember (.refl _) (scanString_chars hk) (ws_of_skipWs hcolon) (ws_skipWs s₂)
                (hvalue hx) (ws_of_skipWs hclose)
            · cases h
        · cases h
    · cases h

/-- The decoder reads a value, and an object where it gives one. -/
theorem scanOnce_reads (F : FloatText) (n : ℕ) : ∀ {s rest : List Char} {x : Json},
    scanOnce F n s = some (x, rest) →
      Reads .value s rest ∧ ∀ kvs, x = .obj kvs → Reads .object s rest := by
  induction n with
  | zero =>
    intro s rest x h
    cases h
  | succ n ih =>
    intro s rest x h
    have hvalue : ∀ {s x rest}, scanOnce F n s = some (x, rest) → Reads .value s rest := fun h =>
      (ih h).1
    -- a keyword is no object
    have word : ∀ {w : String} {c : Char} {t : List Char} {y : Json}, (∀ kvs, y ≠ .obj kvs) →
        String.ofList (c :: w.toList) ∈ valueWords →
        (keyword w t).map (fun s => (y, s)) = some (x, rest) →
        Reads .value (c :: t) rest ∧ ∀ kvs, x = .obj kvs → Reads .object (c :: t) rest := by
      intro w c t y hy hw h
      obtain ⟨r, hr, he⟩ := Option.map_eq_some_iff.mp h
      obtain ⟨rfl, rfl⟩ := Prod.mk.inj he
      have hword : Reads .value _ r := Reads.word hw
      rw [String.toList_ofList, List.cons_append, ← keyword_eq hr] at hword
      exact ⟨hword, fun kvs hobj => absurd hobj (hy kvs)⟩
    cases s with
    | nil => cases h
    | cons c s =>
      rw [scanOnce] at h
      split at h
      · rename_i hc
        obtain ⟨⟨k, r⟩, hk, he⟩ := Option.map_eq_some_iff.mp h
        obtain ⟨rfl, rfl⟩ := Prod.mk.inj he
        exact ⟨hc ▸ .string (scanString_chars hk), (by rintro _ ⟨⟩)⟩
      split at h
      · rename_i hc
        subst hc
        have hobject : Reads .object ('{' :: s) rest := by
          split at h
          · rename_i s' hs
            obtain rfl : s' = rest := congrArg Prod.snd (Option.some.inj h)
            exact .emptyObject (ws_of_skipWs hs)
          · obtain ⟨⟨kvs, r⟩, hm, he⟩ := Option.map_eq_some_iff.mp h
            obtain rfl : r = rest := congrArg Prod.snd he
            exact .nonempty ((members_reads hvalue _ hm).ws (.inr rfl) (ws_skipWs s))
        exact ⟨.object hobject, fun _ _ => hobject⟩
      split at h
      · rename_i hc
        subst hc
        split at h
        · rename_i s' hs
          obtain ⟨rfl, rfl⟩ := Prod.mk.inj (Option.some.inj h)
          exact ⟨.emptyArray (ws_of_skipWs hs), (by rintro _ ⟨⟩)⟩
        · obtain ⟨⟨xs, r⟩, hm, he⟩ := Option.map_eq_some_iff.mp h
          obtain ⟨rfl, rfl⟩ := Prod.mk.inj he
          exact ⟨.array ((elements_reads hvalue _ hm).ws (.inl rfl) (ws_skipWs s)),
            (by rintro _ ⟨⟩)⟩
      split at h
      · rename_i hc
        exact hc ▸ word (c := 'n') (y := .null) (by rintro _ ⟨⟩) (by decide) h
      split at h
      · rename_i hc
        exact hc ▸ word (c := 't') (y := .bool true) (by rintro _ ⟨⟩) (by decide) h
      split at h
      · rename_i hc
        exact hc ▸ word (c := 'f') (y := .bool false) (by rintro _ ⟨⟩) (by decide) h
      split at h
      · rename_i hc
        exact hc ▸ word (c := 'N') (y := .float .nan) (by rintro _ ⟨⟩) (by decide) h
      split at h
      · rename_i hc
        exact hc ▸ word (c := 'I') (y := .float .inf) (by rintro _ ⟨⟩) (by decide) h
      split at h
      · rename_i hc
        split at h
        · rename_i s' hs
          exact hc ▸ word (c := '-') (w := "Infinity") (y := .float .negInf) (by rintro _ ⟨⟩)
            (by decide) (by rw [hs]; exact h)
        · exact ⟨hc ▸ .numeral (unsigned_numeral_of h), fun kvs hobj => absurd h (unsigned_ne hobj)⟩
      · exact ⟨.numeral (unsigned_numeral_of h), fun kvs hobj => absurd h (unsigned_ne hobj)⟩

end Turbohaul.JsonText
