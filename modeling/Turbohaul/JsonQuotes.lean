/-
# The quotes of a JSON text

Outside its strings a JSON text has neither a backslash nor a `<`.  What is behind a tag
inside of a string and a whole text disagree on which quotes open a string, so that no
end of a text behind such a tag is a text of its own.

  `quoteScan`          is a string open?
  `quoteScan_reads`    the parts of a text leave the scan as it was
  `quoteScan_flip`     two scans that begin apart do not both end outside
  `loads_behind_tag`   the rest behind a tag in a text is no text
-/
import Turbohaul.BraceMatch

namespace Turbohaul.JsonText

/-- What stands outside of strings, among other characters. -/
def Bare (c : Char) : Prop := c ≠ '"' ∧ c ≠ '\\' ∧ c ≠ '<'

instance : DecidablePred Bare := fun c => inferInstanceAs (Decidable (c ≠ '"' ∧ c ≠ '\\' ∧ c ≠ '<'))

/-- Whether a string is open at the end; none where a character cannot stand. -/
def quoteScan : Bool → List Char → Option Bool
  | inStr, [] => some inStr
  | false, c :: s =>
    if c = '"' then quoteScan true s else if Bare c then quoteScan false s else none
  | true, '\\' :: [] => some true
  | true, '\\' :: _ :: s => quoteScan true s
  | true, c :: s => if c = '"' then quoteScan false s else quoteScan true s

@[simp] theorem quoteScan_nil (inStr : Bool) : quoteScan inStr [] = some inStr := by
  cases inStr <;> rfl

@[simp] theorem quoteScan_open (s : List Char) : quoteScan false ('"' :: s) = quoteScan true s := by
  rw [quoteScan, if_pos rfl]

@[simp] theorem quoteScan_close (s : List Char) :
    quoteScan true ('"' :: s) = quoteScan false s := by
  rw [quoteScan, if_pos rfl]
  all_goals
    intros
    contradiction

@[simp] theorem quoteScan_escape (c : Char) (s : List Char) :
    quoteScan true ('\\' :: c :: s) = quoteScan true s := by
  rw [quoteScan]

theorem quoteScan_bare {c : Char} (hc : Bare c) (s : List Char) :
    quoteScan false (c :: s) = quoteScan false s := by
  rw [quoteScan, if_neg hc.1, if_pos hc]

theorem quoteScan_in {c : Char} (hquote : c ≠ '"') (hback : c ≠ '\\') (s : List Char) :
    quoteScan true (c :: s) = quoteScan true s := by
  rw [quoteScan, if_neg hquote]
  · rintro rfl
    exact absurd rfl hback
  · rintro _ _ rfl
    exact absurd rfl hback

theorem quoteScan_bares {w : List Char} (hw : ∀ c ∈ w, Bare c) (s : List Char) :
    quoteScan false (w ++ s) = quoteScan false s := by
  induction w with
  | nil => rfl
  | cons c w ih =>
    rw [List.cons_append, quoteScan_bare (hw c List.mem_cons_self),
      ih fun c hc => hw c (List.mem_cons_of_mem _ hc)]

/-! ## The parts of a text -/

theorem bare_ws {c : Char} (h : isWs c = true) : Bare c := by
  unfold isWs at h
  simp only [Bool.or_eq_true, decide_eq_true_eq] at h
  rcases h with ((rfl | rfl) | rfl) | rfl
  all_goals exact ⟨by decide, by decide, by decide⟩

theorem quoteScan_ws {s rest : List Char} (h : Ws s rest) :
    quoteScan false s = quoteScan false rest := by
  obtain ⟨w, hw, rfl⟩ := h
  exact quoteScan_bares (fun c hc => bare_ws (hw c hc)) rest

/-- The characters of a numeral. -/
def numeralChars : List Char := "0123456789-+.eE".toList

theorem mem_numeralChars {c : Char} (h : c.isDigit = true) : c ∈ numeralChars := by
  have hall : ∀ n < 58, 48 ≤ n → Char.ofNat n ∈ numeralChars := by decide
  obtain ⟨hlo, hhi⟩ : 48 ≤ c.toNat ∧ c.toNat ≤ 57 := by
    simpa [Char.isDigit, UInt32.le_iff_toNat_le] using h
  exact Char.ofNat_toNat c ▸ hall c.toNat (Nat.lt_succ_of_le hhi) hlo

theorem Numeral.chars {s rest : List Char} (h : Numeral s rest) :
    ∃ w, s = w ++ rest ∧ ∀ c ∈ w, c ∈ numeralChars := by
  obtain ⟨negative, i, f, e, hi, hf, he, rfl⟩ := h
  refine ⟨minus negative ++ (i ++ (f ++ e)), by simp only [List.append_assoc], fun c hc => ?_⟩
  rcases List.mem_append.mp hc with hc | hc
  · cases negative with
    | true =>
      obtain rfl := List.mem_singleton.mp hc
      decide
    | false => cases hc
  rcases List.mem_append.mp hc with hc | hc
  · rcases hi with rfl | ⟨d, ds, rfl, hd, -, hds⟩
    · obtain rfl := List.mem_singleton.mp hc
      decide
    · rcases List.mem_cons.mp hc with rfl | hc
      · exact mem_numeralChars hd
      · exact mem_numeralChars (hds c hc)
  rcases List.mem_append.mp hc with hc | hc
  · rcases hf with rfl | ⟨ds, rfl, -, hds⟩
    · cases hc
    · rcases List.mem_cons.mp hc with rfl | hc
      · decide
      · exact mem_numeralChars (hds c hc)
  · rcases he with rfl | ⟨d, sign, ds, rfl, hd, hsign, -, hds⟩
    · cases hc
    · rcases List.mem_cons.mp hc with rfl | hc
      · rcases hd with rfl | rfl
        all_goals decide
      rcases List.mem_append.mp hc with hc | hc
      · rcases hsign with rfl | rfl | rfl
        · cases hc
        all_goals
          obtain rfl := List.mem_singleton.mp hc
          decide
      · exact mem_numeralChars (hds c hc)

theorem quoteScan_numeral {s rest : List Char} (h : Numeral s rest) :
    quoteScan false s = quoteScan false rest := by
  obtain ⟨w, rfl, hw⟩ := h.chars
  have hall : numeralChars.all (fun c => decide (Bare c)) = true := by decide
  have hbare : ∀ c ∈ numeralChars, Bare c := fun c hc =>
    of_decide_eq_true (List.all_eq_true.mp hall c hc)
  exact quoteScan_bares (fun c hc => hbare c (hw c hc)) rest

theorem quoteScan_word {w : String} (hw : w ∈ valueWords) (rest : List Char) :
    quoteScan false (w.toList ++ rest) = quoteScan false rest := by
  have hbare : ∀ v ∈ valueWords, v.toList.all (fun c => decide (Bare c)) = true := by
    decide +kernel
  exact quoteScan_bares (fun c hc => of_decide_eq_true (List.all_eq_true.mp (hbare w hw) c hc)) rest

/-- A string, after its opening quote. -/
theorem quoteScan_chars {s rest : List Char} (h : Chars s rest) :
    quoteScan true s = quoteScan false rest := by
  induction h with
  | close => exact quoteScan_close _
  | plain hquote hback _ _ ih => rw [quoteScan_in hquote hback, ih]
  | escape _ _ ih => rw [quoteScan_escape, ih]
  | unicode ha _ ih =>
    have hhex : ∀ x : Char, (hexDigit x).isSome = true → x ≠ '"' ∧ x ≠ '\\' := by
      intro x hx
      constructor
      all_goals
        rintro rfl
        exact absurd hx (by decide)
    simp only [List.forall_mem_cons] at ha
    obtain ⟨h₁, h₂, h₃, h₄, -⟩ := ha
    rw [quoteScan_escape, quoteScan_in (hhex _ h₁).1 (hhex _ h₁).2,
      quoteScan_in (hhex _ h₂).1 (hhex _ h₂).2, quoteScan_in (hhex _ h₃).1 (hhex _ h₃).2,
      quoteScan_in (hhex _ h₄).1 (hhex _ h₄).2, ih]

/-- Whitespace and a character. -/
theorem quoteScan_char {s rest : List Char} {c : Char} (hc : Bare c) (h : Ws s (c :: rest)) :
    quoteScan false s = quoteScan false rest := by
  rw [quoteScan_ws h, quoteScan_bare hc]

/-- A key and its colon. -/
theorem quoteScan_key {s s₁ s₂ s₃ s₄ : List Char} (h : Ws s ('"' :: s₁)) (hk : Chars s₁ s₂)
    (hc : Ws s₂ (':' :: s₃)) (hw : Ws s₃ s₄) : quoteScan false s = quoteScan false s₄ := by
  rw [quoteScan_ws h, quoteScan_open, quoteScan_chars hk, quoteScan_char (by decide) hc,
    quoteScan_ws hw]

/-- A part of a text leaves no string open. -/
theorem quoteScan_reads {part : Part} {s rest : List Char} (h : Reads part s rest) :
    quoteScan false s = quoteScan false rest := by
  induction h with
  | word hw => exact quoteScan_word hw _
  | numeral hn => exact quoteScan_numeral hn
  | string hs => rw [quoteScan_open, quoteScan_chars hs]
  | object _ ih => exact ih
  | emptyArray hw => rw [quoteScan_bare (by decide), quoteScan_char (by decide) hw]
  | array _ ih => rw [quoteScan_bare (by decide), ih]
  | emptyObject hw => rw [quoteScan_bare (by decide), quoteScan_char (by decide) hw]
  | nonempty _ ih => rw [quoteScan_bare (by decide), ih]
  | last hw _ hc ih => rw [quoteScan_ws hw, ih, quoteScan_char (by decide) hc]
  | element hw _ hc _ ih ih' => rw [quoteScan_ws hw, ih, quoteScan_char (by decide) hc, ih']
  | lastMember hw hk hc hw' _ hb ih =>
    rw [quoteScan_key hw hk hc hw', ih, quoteScan_char (by decide) hb]
  | member hw hk hc hw' _ hb _ ih ih' =>
    rw [quoteScan_key hw hk hc hw', ih, quoteScan_char (by decide) hb, ih']

theorem quoteScan_loads {F : FloatText} {s : List Char} {x : Json} (h : loads F s = some x) :
    quoteScan false s = some false := by
  rw [loads] at h
  split at h
  · rename_i y rest hscan
    split at h
    · rename_i hrest
      rw [quoteScan_ws (ws_skipWs s), quoteScan_reads (scanOnce_reads F _ hscan).1,
        quoteScan_ws (ws_of_skipWs hrest), quoteScan_nil]
    · cases h
  · cases h

/-! ## Behind a tag -/

/-- Of two scans that begin apart, one stops or they end apart: a backslash cannot stand
outside, and each quote flips both. -/
theorem quoteScan_flip (s : List Char) (inStr : Bool)
    (h : quoteScan (!inStr) s = some false) : quoteScan inStr s ≠ some false := by
  induction s generalizing inStr with
  | nil =>
    cases inStr with
    | true => intro h; cases h
    | false => cases h
  | cons c s ih =>
    by_cases hquote : c = '"'
    · subst hquote
      cases inStr with
      | true =>
        rw [Bool.not_true, quoteScan_open] at h
        rw [quoteScan_close]
        exact ih false h
      | false =>
        rw [Bool.not_false, quoteScan_close] at h
        rw [quoteScan_open]
        exact ih true h
    · by_cases hback : c = '\\'
      · subst hback
        have hout : quoteScan false ('\\' :: s) = none := by
          rw [quoteScan, if_neg (by decide), if_neg (by decide)]
        cases inStr with
        | true =>
          rw [Bool.not_true, hout] at h
          cases h
        | false =>
          rw [hout]
          intro h
          cases h
      · by_cases hbare : Bare c
        · cases inStr with
          | true =>
            rw [Bool.not_true, quoteScan_bare hbare] at h
            rw [quoteScan_in hquote hback]
            exact ih true h
          | false =>
            rw [Bool.not_false, quoteScan_in hquote hback] at h
            rw [quoteScan_bare hbare]
            exact ih false h
        · have hout : quoteScan false (c :: s) = none := by
            rw [quoteScan, if_neg hquote, if_neg hbare]
          cases inStr with
          | true =>
            rw [Bool.not_true, hout] at h
            cases h
          | false =>
            rw [hout]
            intro h
            cases h

/-- What stands in a string as it is. -/
def Inside (tag : List Char) : Prop := ∀ c ∈ tag, c ≠ '"' ∧ c ≠ '\\'

theorem quoteScan_inside {tag : List Char} (h : Inside tag) (s : List Char) :
    quoteScan true (tag ++ s) = quoteScan true s := by
  induction tag with
  | nil => rfl
  | cons c tag ih =>
    obtain ⟨hquote, hback⟩ := h c List.mem_cons_self
    rw [List.cons_append, quoteScan_in hquote hback, ih fun d hd => h d (List.mem_cons_of_mem c hd)]

/-- A tag that stands in a text stands in a string. -/
theorem quoteScan_tag {tag after : List Char} (htag : Inside ('<' :: tag)) (n : ℕ) :
    ∀ {before : List Char} {inStr : Bool}, before.length ≤ n →
      quoteScan inStr (before ++ '<' :: (tag ++ after)) = some false →
        quoteScan true after = some false := by
  have htail : Inside tag := fun c hc => htag c (List.mem_cons_of_mem '<' hc)
  have hhere : ∀ inStr, quoteScan inStr ('<' :: (tag ++ after)) = some false →
      quoteScan true after = some false := by
    intro inStr h
    cases inStr with
    | true => rwa [← List.cons_append, quoteScan_inside htag] at h
    | false =>
      rw [quoteScan, if_neg (by decide), if_neg (by decide)] at h
      cases h
  induction n with
  | zero =>
    intro before inStr hn h
    rw [List.length_eq_zero_iff.mp (Nat.le_zero.mp hn), List.nil_append] at h
    exact hhere inStr h
  | succ n ih =>
    intro before inStr hn h
    cases before with
    | nil => exact hhere inStr h
    | cons c before =>
      rw [List.length_cons] at hn
      rw [List.cons_append] at h
      by_cases hquote : c = '"'
      · subst hquote
        cases inStr with
        | true => exact ih (Nat.le_of_succ_le_succ hn) (quoteScan_close _ ▸ h)
        | false => exact ih (Nat.le_of_succ_le_succ hn) (quoteScan_open _ ▸ h)
      cases inStr with
      | false =>
        by_cases hbare : Bare c
        · exact ih (Nat.le_of_succ_le_succ hn) (quoteScan_bare hbare _ ▸ h)
        · rw [quoteScan, if_neg hquote, if_neg hbare] at h
          cases h
      | true =>
        by_cases hback : c = '\\'
        · -- what is escaped may be the tag's first character
          subst hback
          cases before with
          | nil =>
            rw [List.nil_append, quoteScan_escape, quoteScan_inside htail] at h
            exact h
          | cons d before =>
            rw [List.cons_append, quoteScan_escape] at h
            rw [List.length_cons] at hn
            exact ih (by omega) h
        · exact ih (Nat.le_of_succ_le_succ hn) (quoteScan_in hquote hback _ ▸ h)

/-- What is behind a tag in a text is no text, whatever blanks it begins with. -/
theorem loads_behind_tag {F : FloatText} {tag before blank after : List Char} {x : Json}
    (htag : Inside ('<' :: tag)) (hblank : ∀ c ∈ blank, Bare c)
    (h : loads F (before ++ '<' :: (tag ++ (blank ++ after))) = some x) : loads F after = none := by
  have hin : quoteScan true (blank ++ after) = some false :=
    quoteScan_tag htag before.length (Nat.le_refl _) (quoteScan_loads h)
  have hout := quoteScan_flip (blank ++ after) false hin
  rw [quoteScan_bares hblank] at hout
  cases hafter : loads F after with
  | none => rfl
  | some y => exact absurd (quoteScan_loads hafter) hout

end Turbohaul.JsonText
