/-
# What `json.dumps` prints, `json.loads` reads

A value that `json.loads` gives has distinct keys in every object and only floats
that some numeral reads as; such a value is printed as a text that reads as it, and
within a longer text up to where it ends.

  `Readable`          such values
  `loads_readable`    what is read is readable
  `scanOnce_dumps`    the decoder on the text of a readable value
  `loads_dumps`
-/
import Turbohaul.JsonText

namespace Turbohaul.JsonText

mutual

/-- Distinct keys, and floats that are read from numerals. -/
def Readable (F : FloatText) : Json → Prop
  | .float (.finite q) => ∃ cs, F.float cs = .finite q
  | .arr xs => ReadableAll F xs
  | .obj kvs => (kvs.map (·.1)).Nodup ∧ ReadableItems F kvs
  | _ => True

def ReadableAll (F : FloatText) : List Json → Prop
  | [] => True
  | x :: xs => Readable F x ∧ ReadableAll F xs

def ReadableItems (F : FloatText) : List (String × Json) → Prop
  | [] => True
  | (_, x) :: kvs => Readable F x ∧ ReadableItems F kvs

end

/-! ## Strings -/

theorem hexDigit_hexChar : ∀ n < 16, hexDigit (hexChar n) = some n := by decide

theorem hex4_hexChar {n : Nat} (h : n < 0x10000) (rest : List Char) :
    hex4 (hexChar (n / 4096 % 16) :: hexChar (n / 256 % 16) :: hexChar (n / 16 % 16) ::
      hexChar (n % 16) :: rest) = some (n, rest) := by
  have hd : ∀ m : Nat, hexDigit (hexChar (m % 16)) = some (m % 16) := fun m =>
    hexDigit_hexChar _ (Nat.mod_lt _ (by decide))
  simp only [hex4, hd]
  congr 2
  omega

/-- A character is no half of a surrogate pair. -/
theorem toNat_not_surrogate (c : Char) : c.toNat < 0xD800 ∨ 0xE000 ≤ c.toNat := by
  rcases c.valid with h | h
  · exact .inl h
  · exact .inr h.1

theorem unescape_bmp {c : Char} (h : c.toNat < 0x10000) (rest : List Char) :
    unescape ((unicodeEscape c.toNat).tail ++ rest) = some (c, rest) := by
  have hs := toNat_not_surrogate c
  simp only [unicodeEscape, List.tail_cons, List.cons_append, List.nil_append, unescape,
    hex4_hexChar h]
  rw [if_neg (by omega), if_neg (by omega), Char.ofNat_toNat]

/-- Two halves in one. -/
theorem unescape_pair {hi lo : Nat} (hhi : hi < 0x400) (hlo : lo < 0x400) (rest : List Char) :
    unescape ((unicodeEscape (0xD800 + hi)).tail ++ (unicodeEscape (0xDC00 + lo) ++ rest))
      = some (Char.ofNat (0x10000 + hi * 0x400 + lo), rest) := by
  have h₁ := hex4_hexChar (n := 0xD800 + hi) (by omega)
  have h₂ := hex4_hexChar (n := 0xDC00 + lo) (by omega)
  have e₁ : 0xD800 + hi - 0xD800 = hi := Nat.add_sub_cancel_left ..
  have e₂ : 0xDC00 + lo - 0xDC00 = lo := Nat.add_sub_cancel_left ..
  simp only [unicodeEscape, List.tail_cons, List.cons_append, List.nil_append, unescape, h₁, h₂]
  rw [if_pos (by omega), if_pos (by omega), e₁, e₂]

theorem unescape_astral {c : Char} (h : ¬ c.toNat < 0x10000) (rest : List Char) :
    unescape ((unicodeEscape (0xD800 + (c.toNat - 0x10000) / 0x400 % 0x400)).tail ++
      (unicodeEscape (0xDC00 + (c.toNat - 0x10000) % 0x400) ++ rest)) = some (c, rest) := by
  have hlt : c.toNat < 0x110000 := by
    rcases c.valid with hv | hv
    · exact absurd (Nat.lt_trans hv (by decide)) h
    · exact hv.2
  have hval : 0x10000 + (c.toNat - 0x10000) / 0x400 % 0x400 * 0x400 + (c.toNat - 0x10000) % 0x400
      = c.toNat := by omega
  rw [unescape_pair (Nat.mod_lt _ (by decide)) (Nat.mod_lt _ (by decide)), hval, Char.ofNat_toNat]

/-- One character of a string, whatever its escape. -/
theorem scanString_escapeAscii (n : Nat) (c : Char) (s : List Char) :
    scanString (n + 1) (escapeAscii c ++ s) = (scanString n s).map fun r => (c :: r.1, r.2) := by
  have hq : ¬ ('\\' : Char) = '"' := by decide
  unfold escapeAscii
  split
  · rename_i h; subst h; rfl
  split
  · rename_i h; subst h; rfl
  split
  · rename_i h; subst h; rfl
  split
  · rename_i h; subst h; rfl
  split
  · rename_i h; subst h; rfl
  split
  · rename_i h; subst h; rfl
  split
  · rename_i h; subst h; rfl
  split
  · rename_i hquote hback _ _ _ _ _ hprint
    have hge : ¬ c.toNat < 32 :=
      Nat.not_lt.mpr (UInt32.le_iff_toNat_le.mp (Char.le_def.mp hprint.1))
    simp only [List.cons_append, List.nil_append, scanString, if_neg hquote, if_neg hback,
      if_neg hge]
  split
  · rename_i h
    have hu := unescape_bmp h s
    simp only [unicodeEscape, List.tail_cons, List.cons_append, List.nil_append] at hu ⊢
    rw [scanString, if_neg hq, if_pos rfl, hu]
  · rename_i h
    have hu := unescape_astral h s
    simp only [unicodeEscape, List.tail_cons, List.cons_append, List.nil_append] at hu ⊢
    rw [scanString, if_neg hq, if_pos rfl, hu]

theorem escapeAscii_ne_nil (c : Char) : escapeAscii c ≠ [] := by
  unfold escapeAscii
  repeat (first | split | exact List.cons_ne_nil _ _)

theorem scanString_quoted (n : Nat) (s rest : List Char)
    (hn : s.length < n) :
    scanString n (s.flatMap escapeAscii ++ '"' :: rest) = some (s, rest) := by
  induction s generalizing n with
  | nil =>
    obtain ⟨n, rfl⟩ : ∃ m, n = m + 1 := ⟨n - 1, by simp at hn; omega⟩
    rfl
  | cons c s ih =>
    obtain ⟨n, rfl⟩ : ∃ m, n = m + 1 := ⟨n - 1, by simp at hn; omega⟩
    rw [List.flatMap_cons, List.append_assoc, scanString_escapeAscii, ih n (by simpa using hn)]
    rfl

theorem length_le_escaped (s : List Char) : s.length ≤ (s.flatMap escapeAscii).length := by
  induction s with
  | nil => exact Nat.le_refl _
  | cons c s ih =>
    have hpos := List.length_pos_of_ne_nil (escapeAscii_ne_nil c)
    rw [List.flatMap_cons, List.length_append, List.length_cons]
    omega

/-! ## Numerals -/

/-- What may follow a numeral: nothing that could be part of one. -/
def Delimited (rest : List Char) : Prop :=
  ∀ c ∈ rest.head?, ¬ c.isDigit ∧ c ≠ '.' ∧ c ≠ 'e' ∧ c ≠ 'E'

theorem Delimited.nil : Delimited [] := (by rintro _ ⟨⟩)

theorem Delimited.cons {c : Char} (rest : List Char)
    (h : ¬ c.isDigit ∧ c ≠ '.' ∧ c ≠ 'e' ∧ c ≠ 'E') : Delimited (c :: rest) := by
  intro c' hc'
  rw [← Option.some.inj hc']
  exact h

/-- What does not begin with a digit. -/
def NoDigit (rest : List Char) : Prop := ∀ c ∈ rest.head?, ¬ c.isDigit

theorem Delimited.noDigit {rest : List Char} (h : Delimited rest) : NoDigit rest :=
  fun c hc => (h c hc).1

theorem takeWhile_digits {ds rest : List Char} (hds : ∀ d ∈ ds, d.isDigit) (hrest : NoDigit rest) :
    (ds ++ rest).takeWhile Char.isDigit = ds := by
  rw [List.takeWhile_append_of_pos hds]
  cases rest with
  | nil => simp
  | cons c rest => rw [List.takeWhile_cons_of_neg (hrest c rfl), List.append_nil]

theorem dropWhile_digits {ds rest : List Char} (hds : ∀ d ∈ ds, d.isDigit) (hrest : NoDigit rest) :
    (ds ++ rest).dropWhile Char.isDigit = rest := by
  rw [List.dropWhile_append_of_pos hds]
  cases rest with
  | nil => rfl
  | cons c rest => rw [List.dropWhile_cons_of_neg (hrest c rfl)]

theorem intPart_numeral {i rest : List Char} (hi : IntNumeral i) (hrest : NoDigit rest) :
    intPart (i ++ rest) = some (i, rest) := by
  rcases hi with rfl | ⟨c, ds, rfl, hc, hzero, hds⟩
  · rfl
  · rw [List.cons_append, intPart, if_neg hzero, if_pos hc, takeWhile_digits hds hrest,
      dropWhile_digits hds hrest]

theorem fracPart_numeral {f rest : List Char} (hf : FracNumeral f) (hrest : NoDigit rest)
    (hdot : ∀ c ∈ rest.head?, c ≠ '.') : fracPart (f ++ rest) = (f, rest) := by
  rcases hf with rfl | ⟨ds, rfl, hne, hds⟩
  · rw [List.nil_append]
    unfold fracPart
    split
    · exact absurd rfl (hdot '.' rfl)
    · rfl
  · simp only [List.cons_append, fracPart, takeWhile_digits hds hrest, if_neg hne,
      dropWhile_digits hds hrest]

theorem expSign_digit {d : Char} (hd : d.isDigit) (s : List Char) : expSign (d :: s) = [] := by
  unfold expSign
  split
  · rename_i h
    rw [(List.cons.inj h).1] at hd
    exact absurd hd (by decide)
  · rename_i h
    rw [(List.cons.inj h).1] at hd
    exact absurd hd (by decide)
  · rfl

theorem expPart_numeral {e rest : List Char} (he : ExpNumeral e) (hrest : Delimited rest) :
    expPart (e ++ rest) = (e, rest) := by
  rcases he with rfl | ⟨c, sign, ds, rfl, hc, hsign, hne, hds⟩
  · cases rest with
    | nil => rfl
    | cons c rest =>
      have h := hrest c rfl
      have hc : ¬ (c = 'e' ∨ c = 'E') := fun hc => hc.elim h.2.2.1 h.2.2.2
      simp only [List.nil_append, expPart, if_neg hc]
  · have hs : expSign (sign ++ (ds ++ rest)) = sign := by
      rcases hsign with rfl | rfl | rfl
      · obtain ⟨d, ds', rfl⟩ := List.exists_cons_of_ne_nil hne
        exact expSign_digit (hds d List.mem_cons_self) _
      · rfl
      · rfl
    simp only [List.cons_append, List.append_assoc, expPart, if_pos hc, hs, List.drop_left,
      takeWhile_digits hds hrest.noDigit, if_neg hne, dropWhile_digits hds hrest.noDigit]

theorem FracNumeral.append_noDigit {f rest : List Char} (hf : FracNumeral f) (h : NoDigit rest) :
    NoDigit (f ++ rest) := by
  rcases hf with rfl | ⟨ds, rfl, -⟩
  · exact h
  · intro c hc
    rw [← Option.some.inj hc]
    decide

/-- After an exponent stands no digit and no dot. -/
theorem ExpNumeral.append_head {e rest : List Char} (he : ExpNumeral e) (h : Delimited rest) :
    ∀ c ∈ (e ++ rest).head?, ¬ c.isDigit ∧ c ≠ '.' := by
  rcases he with rfl | ⟨c, sign, ds, rfl, hc, -⟩
  · exact fun c hc => ⟨(h c hc).1, (h c hc).2.1⟩
  · intro c' hc'
    rw [← Option.some.inj hc']
    rcases hc with rfl | rfl <;> decide

theorem unsigned_numeral (F : FloatText) (negative : Bool) {i f e rest : List Char}
    (hi : IntNumeral i) (hf : FracNumeral f) (he : ExpNumeral e) (hrest : Delimited rest) :
    unsigned F negative (i ++ (f ++ (e ++ rest)))
      = if f = [] ∧ e = [] then
          some (.int (if negative then -(Nat.ofDigitChars 10 i 0 : Int)
            else Nat.ofDigitChars 10 i 0), rest)
        else some (.float (F.float (minus negative ++ (i ++ (f ++ e)))), rest) := by
  have hhead := he.append_head hrest
  have hno : NoDigit (e ++ rest) := fun c hc => (hhead c hc).1
  simp only [unsigned, intPart_numeral hi (hf.append_noDigit hno),
    fracPart_numeral hf hno fun c hc => (hhead c hc).2, expPart_numeral he hrest]

theorem digit_toDigits {n : Nat} {c : Char} (h : c ∈ Nat.toDigits 10 n) : c.isDigit :=
  Nat.isDigit_of_mem_toDigits (by decide) (by decide) h

theorem digitChar_ne_zero : ∀ n < 10, n ≠ 0 → n.digitChar ≠ '0' := by decide

/-- The digits of a number are a numeral. -/
theorem intNumeral_toDigits (n : Nat) : IntNumeral (Nat.toDigits 10 n) := by
  induction n using Nat.strongRecOn with
  | ind n ih =>
    rcases Nat.lt_or_ge n 10 with hlt | hge
    · rw [Nat.toDigits_of_lt_base hlt]
      by_cases hn : n = 0
      · exact .inl (by rw [hn]; rfl)
      · exact .inr ⟨_, [], rfl, digit_toDigits (by rw [Nat.toDigits_of_lt_base hlt]; simp),
          digitChar_ne_zero n hlt hn, (by rintro _ ⟨⟩)⟩
    · rw [Nat.toDigits_of_base_le (by decide) hge]
      rcases ih (n / 10) (by omega) with h | ⟨c, ds, h, hc, hzero, hds⟩
      · -- only zero is printed as a zero
        have hval := congrArg (Nat.ofDigitChars 10 · 0) h
        simp only [Nat.ofDigitChars_ten_toDigits] at hval
        exact absurd hval (by change ¬ n / 10 = 0; omega)
      · rw [h]
        refine .inr ⟨c, ds ++ [(n % 10).digitChar], rfl, hc, hzero, fun d hd => ?_⟩
        rcases List.mem_append.mp hd with hd | hd
        · exact hds d hd
        · rw [List.mem_singleton.mp hd]
          refine digit_toDigits (n := n % 10) ?_
          rw [Nat.toDigits_of_lt_base (Nat.mod_lt _ (by decide))]
          exact List.mem_singleton_self _

theorem IntNumeral.cons {i : List Char} (h : IntNumeral i) : ∃ d ds, i = d :: ds ∧ d.isDigit := by
  rcases h with rfl | ⟨c, ds, rfl, hc, -⟩
  · exact ⟨'0', [], rfl, by decide⟩
  · exact ⟨c, ds, rfl, hc⟩

/-- `scan_once` of what begins with a digit, after its sign. -/
theorem scanOnce_numeral (F : FloatText) (n : Nat) (negative : Bool) {d : Char} (hd : d.isDigit)
    (s : List Char) :
    scanOnce F (n + 1) (minus negative ++ d :: s) = unsigned F negative (d :: s) := by
  have hne : ∀ c : Char, c.isDigit = false → ¬ d = c := by
    rintro c hc rfl
    exact absurd hd (by rw [hc]; decide)
  cases negative with
  | true =>
    have hkey : keyword "Infinity" (d :: s) = none := by
      have hI : ('I' == d) = false := by
        rw [beq_eq_false_iff_ne]
        exact fun h => hne 'I' (by decide) h.symm
      simp [keyword, List.isPrefixOf, hI]
    simp only [minus, if_true, List.cons_append, List.nil_append, scanOnce]
    rw [hkey]
    rfl
  | false =>
    simp only [minus, Bool.false_eq_true, if_false, List.nil_append, scanOnce]
    rw [if_neg (hne _ (by decide)), if_neg (hne _ (by decide)), if_neg (hne _ (by decide)),
      if_neg (hne _ (by decide)), if_neg (hne _ (by decide)), if_neg (hne _ (by decide)),
      if_neg (hne _ (by decide)), if_neg (hne _ (by decide)), if_neg (hne _ (by decide))]

theorem scanOnce_intText (F : FloatText) (n : Nat) (k : Int) {rest : List Char}
    (hrest : Delimited rest) :
    scanOnce F (n + 1) (intText k ++ rest) = some (.int k, rest) := by
  have hi := intNumeral_toDigits k.natAbs
  have hu := unsigned_numeral F (decide (k < 0)) hi (.inl rfl) (.inl rfl) hrest
  simp only [List.nil_append, and_self, if_true] at hu
  obtain ⟨d, ds, hcons, hd⟩ := hi.cons
  have hscan := scanOnce_numeral F n (decide (k < 0)) hd (ds ++ rest)
  rw [← List.cons_append, ← hcons, ← List.append_assoc, hu] at hscan
  rw [intText, hscan, Nat.ofDigitChars_ten_toDigits]
  congr 2
  split
  · rename_i h
    rw [decide_eq_true_eq] at h
    congr 1
    omega
  · rename_i h
    rw [decide_eq_true_eq] at h
    congr 1
    omega

theorem scanOnce_floatText {F : FloatText} (n : Nat) {x : PyFloat} (hx : Readable F (.float x))
    {rest : List Char} (hrest : Delimited rest) :
    scanOnce F (n + 1) (floatText F x ++ rest) = some (.float x, rest) := by
  cases x with
  | nan => rfl
  | inf => rfl
  | negInf => rfl
  | finite q =>
    simp only [Readable] at hx
    obtain ⟨cs, hcs⟩ := hx
    obtain ⟨⟨negative, i, f, e, hrepr, hi, hf, he, hfe⟩, hread⟩ := F.repr_float hcs
    have hu := unsigned_numeral F negative hi hf he hrest
    rw [if_neg hfe, ← hrepr, hread] at hu
    obtain ⟨d, ds, hcons, hd⟩ := hi.cons
    have hscan := scanOnce_numeral F n negative hd (ds ++ (f ++ (e ++ rest)))
    rw [← List.cons_append, ← hcons, hu] at hscan
    rw [floatText, hrepr, List.append_assoc, List.append_assoc, List.append_assoc]
    exact hscan

/-! ## Values -/

/-- How the text of a value begins. -/
theorem dumps_head {F : FloatText} {v : Json} (hv : Readable F v) :
    ∃ c s, dumps F v = c :: s ∧ isWs c = false ∧ c ≠ ']' := by
  have hminus : ∀ (b : Bool) {d : Char} (ds : List Char), d.isDigit →
      ∃ c s, minus b ++ d :: ds = c :: s ∧ isWs c = false ∧ c ≠ ']' := by
    intro b d ds hd
    cases b with
    | true => exact ⟨'-', d :: ds, rfl, by decide, by decide⟩
    | false =>
      have hne : ∀ c : Char, c.isDigit = false → ¬ d = c := by
        rintro c hc rfl
        exact absurd hd (by rw [hc]; decide)
      refine ⟨d, ds, rfl, ?_, hne _ (by decide)⟩
      simp [isWs, hne ' ' (by decide), hne '\t' (by decide), hne '\n' (by decide),
        hne '\r' (by decide)]
  cases v with
  | null => exact ⟨'n', _, rfl, by decide, by decide⟩
  | bool b => cases b <;> exact ⟨_, _, rfl, by decide, by decide⟩
  | int k =>
    obtain ⟨d, ds, hcons, hd⟩ := (intNumeral_toDigits k.natAbs).cons
    rw [dumps, intText, hcons]
    exact hminus _ ds hd
  | float x =>
    cases x with
    | nan => exact ⟨'N', _, rfl, by decide, by decide⟩
    | inf => exact ⟨'I', _, rfl, by decide, by decide⟩
    | negInf => exact ⟨'-', _, rfl, by decide, by decide⟩
    | finite q =>
      simp only [Readable] at hv
      obtain ⟨cs, hcs⟩ := hv
      obtain ⟨⟨negative, i, f, e, hrepr, hi, -⟩, -⟩ := F.repr_float hcs
      obtain ⟨d, ds, rfl, hd⟩ := hi.cons
      rw [dumps, floatText, hrepr]
      exact hminus negative _ hd
  | str s => exact ⟨'"', _, rfl, by decide, by decide⟩
  | arr xs => exact ⟨'[', _, rfl, by decide, by decide⟩
  | obj kvs => exact ⟨'{', _, rfl, by decide, by decide⟩

theorem skipWs_cons {c : Char} (s : List Char) (h : isWs c = false) : skipWs (c :: s) = c :: s := by
  simp [skipWs, h]

theorem skipWs_space (s : List Char) : skipWs (' ' :: s) = skipWs s := by
  simp [skipWs, isWs]

theorem skipWs_dumps {F : FloatText} {v : Json} (hv : Readable F v) (rest : List Char) :
    skipWs (dumps F v ++ rest) = dumps F v ++ rest := by
  obtain ⟨c, s, hcs, hws, -⟩ := dumps_head hv
  rw [hcs, List.cons_append, skipWs_cons _ hws]

/-- A string within a longer text. -/
theorem scanString_toList (s : String) (rest : List Char) :
    scanString ((s.toList.flatMap escapeAscii ++ '"' :: rest).length)
      (s.toList.flatMap escapeAscii ++ '"' :: rest) = some (s.toList, rest) := by
  refine scanString_quoted _ _ _ ?_
  have hle := length_le_escaped s.toList
  rw [List.length_append, List.length_cons]
  omega

theorem quoted_append (s rest : List Char) :
    quoted s ++ rest = '"' :: (s.flatMap escapeAscii ++ '"' :: rest) := by
  simp [quoted]

/-- The members of a nonempty object: what is read is added to what was read. -/
def ReadsMembers (F : FloatText) (kvs : List (String × Json)) : Prop :=
  ∀ n m (d : Dict) rest, kvs ≠ [] → (dumpsMembers F kvs).length ≤ n → kvs.length ≤ m →
    ((d ++ kvs).map (·.1)).Nodup →
    members (scanOnce F n) m d (dumpsMembers F kvs ++ '}' :: rest) = some (d ++ kvs, rest)

def ReadsElements (F : FloatText) (xs : List Json) : Prop :=
  ∀ n m rest, xs ≠ [] → (dumpsElements F xs).length ≤ n → xs.length ≤ m →
    elements (scanOnce F n) m (dumpsElements F xs ++ ']' :: rest) = some (xs, rest)

def ReadsValue (F : FloatText) (v : Json) : Prop :=
  ∀ n rest, (dumps F v).length ≤ n → Delimited rest →
    scanOnce F n (dumps F v ++ rest) = some (v, rest)

/-- What stands after a value in an array or an object. -/
def Closes (c : Char) : Prop := c = ',' ∨ c = '}' ∨ c = ']'

theorem Closes.delimited {c : Char} (h : Closes c) (rest : List Char) : Delimited (c :: rest) := by
  refine Delimited.cons rest ?_
  rcases h with rfl | rfl | rfl <;> decide

theorem Closes.isWs {c : Char} (h : Closes c) : isWs c = false := by
  rcases h with rfl | rfl | rfl <;> decide

/-- A member up to the end of its value. -/
theorem members_value {F : FloatText} {v : Json} (hv : Readable F v) (hread : ReadsValue F v)
    (k : String) {n : Nat} (m : Nat) (d : Dict) {c : Char} (hc : Closes c) (s : List Char)
    (hn : (dumps F v).length ≤ n) :
    members (scanOnce F n) (m + 1) d (quoted k.toList ++ ':' :: ' ' :: (dumps F v ++ c :: s)) =
      if c = ',' then members (scanOnce F n) m (d.set k v) (skipWs s)
      else if c = '}' then some (d.set k v, s) else none := by
  rw [quoted_append, members, scanString_toList]
  simp only [skipWs_cons _ (by decide : isWs ':' = false)]
  rw [skipWs_space, skipWs_dumps hv, hread n (c :: s) hn (hc.delimited s)]
  simp only [skipWs_cons _ hc.isWs, String.ofList_toList]
  rcases hc with rfl | rfl | rfl <;> rfl

/-- An element. -/
theorem elements_value {F : FloatText} {v : Json} (hread : ReadsValue F v) {n : Nat} (m : Nat)
    {c : Char} (hc : Closes c) (s : List Char) (hn : (dumps F v).length ≤ n) :
    elements (scanOnce F n) (m + 1) (dumps F v ++ c :: s) =
      if c = ',' then (elements (scanOnce F n) m (skipWs s)).map fun r => (v :: r.1, r.2)
      else if c = ']' then some ([v], s) else none := by
  rw [elements, hread n (c :: s) hn (hc.delimited s)]
  simp only [skipWs_cons _ hc.isWs]
  rcases hc with rfl | rfl | rfl <;> rfl

theorem dumpsElements_head {F : FloatText} {x : Json} (h : Readable F x) (xs : List Json) :
    ∃ c s, dumpsElements F (x :: xs) = c :: s ∧ isWs c = false ∧ c ≠ ']' := by
  obtain ⟨c, s, hcs, hws, hne⟩ := dumps_head h
  cases xs with
  | nil => exact ⟨c, s, by rw [dumpsElements, hcs], hws, hne⟩
  | cons y ys => exact ⟨c, _, by rw [dumpsElements, hcs, List.cons_append], hws, hne⟩

theorem dumpsMembers_head (F : FloatText) (kv : String × Json) (kvs : List (String × Json)) :
    ∃ s, dumpsMembers F (kv :: kvs) = '"' :: s := by
  obtain ⟨k, x⟩ := kv
  cases kvs <;> exact ⟨_, rfl⟩

theorem length_le_dumpsElements {F : FloatText} {xs : List Json} (h : ReadableAll F xs) :
    xs.length ≤ (dumpsElements F xs).length := by
  induction xs with
  | nil => exact Nat.zero_le _
  | cons x xs ih =>
    rw [ReadableAll] at h
    cases xs with
    | nil =>
      obtain ⟨c, s, hcs, -⟩ := dumps_head h.1
      simp [dumpsElements, hcs]
    | cons y ys =>
      have := ih h.2
      simp only [dumpsElements, List.length_append, List.length_cons] at this ⊢
      omega

theorem length_le_dumpsMembers (F : FloatText) (kvs : List (String × Json)) :
    kvs.length ≤ (dumpsMembers F kvs).length := by
  induction kvs with
  | nil => exact Nat.zero_le _
  | cons kv kvs ih =>
    obtain ⟨k, x⟩ := kv
    cases kvs with
    | nil => simp [dumpsMembers, quoted]
    | cons kv' kvs =>
      simp only [dumpsMembers, quoted, List.length_append, List.length_cons] at ih ⊢
      omega

mutual

/-- The text of a readable value, up to where it ends, reads as the value. -/
theorem scanOnce_dumps {F : FloatText} : ∀ v : Json, Readable F v → ReadsValue F v
  | .null, _ => fun n rest hn _ => by
    obtain ⟨n, rfl⟩ : ∃ m, n = m + 1 := ⟨n - 1, by simp [dumps] at hn; omega⟩
    rfl
  | .bool true, _ => fun n rest hn _ => by
    obtain ⟨n, rfl⟩ : ∃ m, n = m + 1 := ⟨n - 1, by simp [dumps] at hn; omega⟩
    rfl
  | .bool false, _ => fun n rest hn _ => by
    obtain ⟨n, rfl⟩ : ∃ m, n = m + 1 := ⟨n - 1, by simp [dumps] at hn; omega⟩
    rfl
  | .int k, hv => fun n rest hn hrest => by
    obtain ⟨c, s, hcs, -⟩ := dumps_head hv
    rw [hcs] at hn
    obtain ⟨n, rfl⟩ : ∃ m, n = m + 1 := ⟨n - 1, by simp at hn; omega⟩
    rw [dumps]
    exact scanOnce_intText F n k hrest
  | .float x, hv => fun n rest hn hrest => by
    obtain ⟨c, s, hcs, -⟩ := dumps_head hv
    rw [hcs] at hn
    obtain ⟨n, rfl⟩ : ∃ m, n = m + 1 := ⟨n - 1, by simp at hn; omega⟩
    rw [dumps]
    exact scanOnce_floatText n hv hrest
  | .str s, _ => fun n rest hn _ => by
    obtain ⟨n, rfl⟩ : ∃ m, n = m + 1 := ⟨n - 1, by simp [dumps, quoted] at hn; omega⟩
    rw [dumps, quoted_append, scanOnce, if_pos rfl, scanString_toList, Option.map_some,
      String.ofList_toList]
  | .arr xs, hv => fun n rest hn _ => by
    simp only [dumps, List.length_append, List.length_cons, List.length_nil] at hn
    obtain ⟨n, rfl⟩ : ∃ m, n = m + 1 := ⟨n - 1, by omega⟩
    rw [Readable] at hv
    rw [dumps, List.append_assoc, List.cons_append, List.cons_append, List.nil_append]
    cases xs with
    | nil => rfl
    | cons x xs =>
      have hlen := length_le_dumpsElements hv
      have hread := elements_dumps (x :: xs) hv n (dumpsElements F (x :: xs) ++ ']' :: rest).length
        rest (List.cons_ne_nil _ _) (by omega) (by rw [List.length_append]; omega)
      rw [ReadableAll] at hv
      obtain ⟨c, s, hcs, hws, hne⟩ := dumpsElements_head hv.1 xs
      rw [hcs, List.cons_append] at hread ⊢
      rw [scanOnce, if_neg (by decide), if_neg (by decide), if_pos rfl, skipWs_cons _ hws]
      split
      · rename_i hclose
        exact absurd (List.cons.inj hclose).1 hne
      · exact congrArg (Option.map _) hread
  | .obj kvs, hv => fun n rest hn _ => by
    simp only [dumps, List.length_append, List.length_cons, List.length_nil] at hn
    obtain ⟨n, rfl⟩ : ∃ m, n = m + 1 := ⟨n - 1, by omega⟩
    rw [Readable] at hv
    rw [dumps, List.append_assoc, List.cons_append, List.cons_append, List.nil_append]
    cases kvs with
    | nil => rfl
    | cons kv kvs =>
      have hlen := length_le_dumpsMembers F (kv :: kvs)
      have hread := members_dumps (kv :: kvs) hv.2 n
        (dumpsMembers F (kv :: kvs) ++ '}' :: rest).length [] rest (List.cons_ne_nil _ _) (by omega)
        (by rw [List.length_append]; omega) hv.1
      obtain ⟨s, hs⟩ := dumpsMembers_head F kv kvs
      rw [hs, List.cons_append] at hread ⊢
      rw [scanOnce, if_neg (by decide), if_pos rfl, skipWs_cons _ (by decide)]
      exact congrArg (Option.map _) hread

theorem elements_dumps {F : FloatText} : ∀ xs : List Json, ReadableAll F xs → ReadsElements F xs
  | [], _ => fun _ _ _ hne => absurd rfl hne
  | [x], hx => fun n m rest _ hn hm => by
    simp only [ReadableAll] at hx
    obtain ⟨m, rfl⟩ : ∃ m', m = m' + 1 := ⟨m - 1, by simp at hm; omega⟩
    rw [dumpsElements] at hn ⊢
    exact elements_value (scanOnce_dumps x hx.1) m (.inr (.inr rfl)) rest hn
  | x :: y :: xs, hx => fun n m rest _ hn hm => by
    obtain ⟨m, rfl⟩ : ∃ m', m = m' + 1 := ⟨m - 1, by simp at hm; omega⟩
    rw [ReadableAll] at hx
    simp only [dumpsElements, List.length_append, List.length_cons] at hn
    have hlast := elements_dumps (y :: xs) hx.2 n m rest (List.cons_ne_nil _ _) (by omega)
      (by simpa using hm)
    have hx' := hx.2
    rw [ReadableAll] at hx'
    obtain ⟨c, s, hcs, hws, -⟩ := dumpsElements_head hx'.1 xs
    rw [dumpsElements, List.append_assoc, List.cons_append, List.cons_append,
      elements_value (scanOnce_dumps x hx.1) m (.inl rfl) _ (by omega), if_pos rfl, skipWs_space]
    rw [hcs, List.cons_append] at hlast ⊢
    rw [skipWs_cons _ hws, hlast]
    rfl

theorem members_dumps {F : FloatText} :
    ∀ kvs : List (String × Json), ReadableItems F kvs → ReadsMembers F kvs
  | [], _ => fun _ _ _ _ hne => absurd rfl hne
  | [(k, x)], hx => fun n m d rest _ hn hm hnodup => by
    rw [ReadableItems] at hx
    obtain ⟨m, rfl⟩ : ∃ m', m = m' + 1 := ⟨m - 1, by simp at hm; omega⟩
    simp only [dumpsMembers, List.length_append, List.length_cons] at hn
    have hnew : k ∉ d.map (·.1) := by
      rw [List.map_append, List.nodup_append] at hnodup
      exact fun hk => hnodup.2.2 k hk k (by simp) rfl
    rw [dumpsMembers, List.append_assoc, List.cons_append, List.cons_append,
      members_value hx.1 (scanOnce_dumps x hx.1) k m d (.inr (.inl rfl)) rest (by omega),
      if_neg (by decide), if_pos rfl, Dict.set_new hnew]
  | (k, x) :: kv :: kvs, hx => fun n m d rest _ hn hm hnodup => by
    rw [ReadableItems] at hx
    obtain ⟨m, rfl⟩ : ∃ m', m = m' + 1 := ⟨m - 1, by simp at hm; omega⟩
    simp only [dumpsMembers, List.length_append, List.length_cons] at hn
    have hnew : k ∉ d.map (·.1) := by
      rw [List.map_append, List.nodup_append] at hnodup
      exact fun hk => hnodup.2.2 k hk k (by simp) rfl
    have happend : d ++ (k, x) :: kv :: kvs = (d ++ [(k, x)]) ++ kv :: kvs := by simp
    rw [happend] at hnodup
    have hlast := members_dumps (kv :: kvs) hx.2 n m (d ++ [(k, x)]) rest (List.cons_ne_nil _ _)
      (by omega) (by simpa using hm) hnodup
    obtain ⟨s, hs⟩ := dumpsMembers_head F kv kvs
    rw [dumpsMembers]
    simp only [List.append_assoc, List.cons_append]
    rw [members_value hx.1 (scanOnce_dumps x hx.1) k m d (.inl rfl) _ (by omega), if_pos rfl,
      Dict.set_new hnew, skipWs_space, happend]
    rw [hs, List.cons_append] at hlast ⊢
    rw [skipWs_cons _ (by decide), hlast]

end

/-- What is printed is read. -/
theorem loads_dumps {F : FloatText} {v : Json} (hv : Readable F v) :
    loads F (dumps F v) = some v := by
  have hread := scanOnce_dumps v hv ((dumps F v).length + 1) [] (Nat.le_succ _) Delimited.nil
  have hws := skipWs_dumps hv []
  rw [List.append_nil] at hread hws
  rw [loads, hws, hread]
  rfl

/-! ## What is read -/

theorem ReadableItems.set {F : FloatText} {d : Dict} {k : String} {v : Json}
    (hd : ReadableItems F d) (hv : Readable F v) : ReadableItems F (d.set k v) := by
  induction d with
  | nil => exact ⟨hv, trivial⟩
  | cons kv d ih =>
    obtain ⟨k', v'⟩ := kv
    rw [ReadableItems] at hd
    rw [Dict.set]
    split
    · exact ⟨hv, hd.2⟩
    · exact ⟨hd.1, ih hd.2⟩

theorem Readable.set {F : FloatText} {d : Dict} {k : String} {v : Json}
    (hd : Readable F (.obj d)) (hv : Readable F v) : Readable F (.obj (d.set k v)) := by
  rw [Readable] at hd ⊢
  refine ⟨?_, hd.2.set hv⟩
  by_cases hk : k ∈ d.map (·.1)
  · rw [Dict.map_set_old hk]
    exact hd.1
  · rw [Dict.set_new hk, List.map_append]
    refine List.nodup_append.mpr ⟨hd.1, List.pairwise_singleton _ _, ?_⟩
    rintro a ha b hb rfl
    rw [List.mem_singleton.mp hb] at ha
    exact hk ha

theorem members_readable {F : FloatText} {value : List Char → Option (Json × List Char)}
    (hvalue : ∀ {s x rest}, value s = some (x, rest) → Readable F x) {n : Nat} {d d' : Dict}
    {s rest : List Char} (hd : Readable F (.obj d)) (h : members value n d s = some (d', rest)) :
    Readable F (.obj d') := by
  induction n generalizing d s with
  | zero => exact absurd h (by simp [members])
  | succ n ih =>
    rw [members.eq_def] at h
    split at h
    · rename_i n' d _ hn
      rw [Nat.succ.inj hn] at ih
      split at h
      · cases h
      split at h
      · split at h
        · cases h
        rename_i x _ hx
        split at h
        · exact ih (hd.set (hvalue hx)) h
        · obtain ⟨rfl, -⟩ := Prod.mk.inj (Option.some.inj h)
          exact hd.set (hvalue hx)
        · cases h
      · cases h
    · cases h

theorem elements_readable {F : FloatText} {value : List Char → Option (Json × List Char)}
    (hvalue : ∀ {s x rest}, value s = some (x, rest) → Readable F x) {n : Nat} {xs : List Json}
    {s rest : List Char} (h : elements value n s = some (xs, rest)) : ReadableAll F xs := by
  induction n generalizing s xs rest with
  | zero => cases h
  | succ n ih =>
    rw [elements] at h
    split at h
    · cases h
    · rename_i x s' hx
      split at h
      · obtain ⟨⟨xs', rest'⟩, hr, he⟩ := Option.map_eq_some_iff.mp h
        obtain ⟨rfl, -⟩ := Prod.mk.inj he
        exact ⟨hvalue hx, ih hr⟩
      · obtain ⟨rfl, -⟩ := Prod.mk.inj (Option.some.inj h)
        exact ⟨hvalue hx, trivial⟩
      · cases h

theorem readable_float (F : FloatText) (cs : List Char) : Readable F (.float (F.float cs)) := by
  cases h : F.float cs with
  | finite q => exact ⟨cs, h⟩
  | _ => trivial

theorem unsigned_readable {F : FloatText} {negative : Bool} {s rest : List Char} {x : Json}
    (h : unsigned F negative s = some (x, rest)) : Readable F x := by
  rw [unsigned] at h
  split at h
  · cases h
  · dsimp only at h
    split at h
    · obtain ⟨rfl, -⟩ := Prod.mk.inj (Option.some.inj h)
      trivial
    · obtain ⟨rfl, -⟩ := Prod.mk.inj (Option.some.inj h)
      exact readable_float F _

theorem readable_empty (F : FloatText) : Readable F (.obj []) := ⟨List.Pairwise.nil, trivial⟩

theorem scanOnce_readable {F : FloatText} {n : Nat} {s rest : List Char} {x : Json}
    (h : scanOnce F n s = some (x, rest)) : Readable F x := by
  induction n generalizing s x rest with
  | zero => cases h
  | succ n ih =>
    cases s with
    | nil => cases h
    | cons c s =>
      rw [scanOnce] at h
      split at h
      · obtain ⟨r, -, hr⟩ := Option.map_eq_some_iff.mp h
        obtain ⟨rfl, -⟩ := Prod.mk.inj hr
        trivial
      split at h
      · split at h
        · obtain ⟨rfl, -⟩ := Prod.mk.inj (Option.some.inj h)
          exact readable_empty F
        · obtain ⟨r, hm, hr⟩ := Option.map_eq_some_iff.mp h
          obtain ⟨rfl, -⟩ := Prod.mk.inj hr
          exact members_readable ih (readable_empty F) hm
      split at h
      · split at h
        · obtain ⟨rfl, -⟩ := Prod.mk.inj (Option.some.inj h)
          trivial
        · obtain ⟨r, hm, hr⟩ := Option.map_eq_some_iff.mp h
          obtain ⟨rfl, -⟩ := Prod.mk.inj hr
          exact elements_readable ih hm
      have hkey : ∀ {word : String} {v : Json},
          (keyword word s).map (fun s => (v, s)) = some (x, rest) → Readable F v →
          Readable F x := by
        intro word v hm hv
        obtain ⟨r, -, hr⟩ := Option.map_eq_some_iff.mp hm
        rwa [← (Prod.mk.inj hr).1]
      split at h
      · exact hkey h trivial
      split at h
      · exact hkey h trivial
      split at h
      · exact hkey h trivial
      split at h
      · exact hkey h trivial
      split at h
      · exact hkey h trivial
      split at h
      · split at h
        · obtain ⟨rfl, -⟩ := Prod.mk.inj (Option.some.inj h)
          trivial
        · exact unsigned_readable h
      · exact unsigned_readable h

theorem loads_readable {F : FloatText} {s : List Char} {x : Json} (h : loads F s = some x) :
    Readable F x := by
  rw [loads] at h
  split at h
  · rename_i hs
    split at h
    · rw [← Option.some.inj h]
      exact scanOnce_readable hs
    · cases h
  · cases h

end Turbohaul.JsonText
