/-
# `KeepAlive` — the `keep_alive` of a request

`parse_keep_alive`, and the idle window that is computed from it later.  The guard
of its suffix branch and `int` read different texts: `lstrip("-")` takes off any
number of minus signs, `isdigit` takes digits that are not decimal, and `int` reads
a plus sign and underscores but no more than 4300 digits.  A float that is no number
raises as well.

  `pyInt`           `int(s)`
  `parseKeepAlive`  `parse_keep_alive`
  `asks`            the seconds a value asks for, whatever its form
  `Meets`           what is asked of the parser on a value
  `Odd`             the values on which it fails
  `keep_alive_meets_iff`

Digits are those of Unicode 14.
-/
import Turbohaul.Manifest
import Turbohaul.Json
import Turbohaul.JsonText
import Turbohaul.PyString

namespace Turbohaul.KeepAlive

/-! ## Integers of the language -/

/-- The zeros of the runs of decimal digits. -/
def decimalZeros : List Nat :=
  [0x30, 0x660, 0x6f0, 0x7c0, 0x966, 0x9e6, 0xa66, 0xae6, 0xb66, 0xbe6, 0xc66, 0xce6, 0xd66,
    0xde6, 0xe50, 0xed0, 0xf20, 0x1040, 0x1090, 0x17e0, 0x1810, 0x1946, 0x19d0, 0x1a80, 0x1a90,
    0x1b50, 0x1bb0, 0x1c40, 0x1c50, 0xa620, 0xa8d0, 0xa900, 0xa9d0, 0xa9f0, 0xaa50, 0xabf0, 0xff10,
    0x104a0, 0x10d30, 0x11066, 0x110f0, 0x11136, 0x111d0, 0x112f0, 0x11450, 0x114d0, 0x11650,
    0x116c0, 0x11730, 0x118e0, 0x11950, 0x11c50, 0x11d50, 0x11da0, 0x16a60, 0x16ac0, 0x16b50,
    0x1d7ce, 0x1d7d8, 0x1d7e2, 0x1d7ec, 0x1d7f6, 0x1e140, 0x1e2f0, 0x1e950, 0x1fbf0]

/-- The digits that are not decimal, from and to. -/
def otherDigits : List (Nat × Nat) :=
  [(0xb2, 0xb3), (0xb9, 0xb9), (0x1369, 0x1371), (0x19da, 0x19da), (0x2070, 0x2070),
    (0x2074, 0x2079), (0x2080, 0x2089), (0x2460, 0x2468), (0x2474, 0x247c), (0x2488, 0x2490),
    (0x24ea, 0x24ea), (0x24f5, 0x24fd), (0x24ff, 0x24ff), (0x2776, 0x277e), (0x2780, 0x2788),
    (0x278a, 0x2792), (0x10a40, 0x10a43), (0x10e60, 0x10e68), (0x11052, 0x1105a),
    (0x1f100, 0x1f10a)]

/-- The value of a decimal digit. -/
def decimal? (c : Char) : Option Nat :=
  (decimalZeros.find? fun z => z ≤ c.toNat && c.toNat < z + 10).map (c.toNat - ·)

/-- `c.isdigit()`. -/
def pyIsDigit (c : Char) : Bool :=
  (decimal? c).isSome || otherDigits.any fun r => r.1 ≤ c.toNat && c.toNat ≤ r.2

/-- Digits, with single underscores between them. -/
def digitRun : List Char → Option (List Nat)
  | [] => none
  | [c] => (decimal? c).map ([·])
  | c :: '_' :: rest => (decimal? c).bind fun d => (digitRun rest).map (d :: ·)
  | c :: rest => (decimal? c).bind fun d => (digitRun rest).map (d :: ·)

/-- The number some digits write. -/
def valueOf (ds : List Nat) : Nat := ds.foldl (fun n d => 10 * n + d) 0

/-- The whitespace `int` takes off: that of `strip` but for U+001C to U+001F. -/
def intIsSpace (c : Char) : Bool := pyIsSpace c && !(28 ≤ c.toNat && c.toNat ≤ 31)

/-- The integer a text writes, and with how many digits. -/
def numeral? (s : List Char) : Option (Int × Nat) :=
  match trim intIsSpace s with
  | '-' :: r => (digitRun r).map fun ds => (-(valueOf ds : Int), ds.length)
  | '+' :: r => (digitRun r).map fun ds => ((valueOf ds : Int), ds.length)
  | r => (digitRun r).map fun ds => ((valueOf ds : Int), ds.length)

/-- `int(s)`; none where it raises a `ValueError`. -/
def pyInt (s : List Char) : Option Int :=
  match numeral? s with
  | some (n, digits) => if maxStrDigits < digits then none else some n
  | none => none

/-! ## The parser -/

/-- `_KEEP_ALIVE_UNITS`, of a character in lower case. -/
def keepAliveUnit? (c : Char) : Option Int :=
  match c.toLower with
  | 's' => some 1
  | 'm' => some 60
  | 'h' => some 3600
  | _ => none

/-- A negative number asks for the cap. -/
def pinned (v : Int) : Int := if v < 0 then keepAliveMaxS else v

/-- `int(x)` of a float that is a number. -/
def truncate (q : Rat) : Int := q.num.tdiv q.den

/-- The body of a text with a suffix passes the guard. -/
def guarded (body : List Char) : Bool :=
  let ds := body.dropWhile (· = '-')
  !ds.isEmpty && ds.all pyIsDigit

/-- The branch of a text that `int` does not read. -/
def parseSuffixed (s : List Char) : Except String (Option Int) :=
  match s.getLast?.bind keepAliveUnit? with
  | none => .ok none
  | some unit =>
    if 2 ≤ s.length ∧ guarded s.dropLast = true then
      match pyInt s.dropLast with
      | some n => .ok (some (n * unit))
      | none => .error "ValueError"
    else .ok none

/-- The branch of a text, stripped. -/
def parseText (s : List Char) : Except String (Option Int) :=
  if s = [] then .ok none
  else
    match pyInt s with
    | some v => .ok (some (pinned v))
    | none => parseSuffixed s

/-- `parse_keep_alive`; the error is the exception it raises. -/
def parseKeepAlive : Json → Except String (Option Int)
  | .null => .ok none
  | .bool b => .ok (if b then none else some 0)
  | .int n => .ok (some (pinned n))
  | .float .nan => .error "ValueError"
  | .float .inf => .error "OverflowError"
  | .float .negInf => .error "OverflowError"
  | .float (.finite q) => .ok (some (pinned (truncate q)))
  | .str value => parseText (strip value.toList)
  | .arr _ => .ok none
  | .obj _ => .ok none

/-! ## What a value asks for -/

/-- An integer and a unit. -/
def duration? (s : List Char) : Option Int :=
  match s.getLast?.bind keepAliveUnit?, numeral? s.dropLast with
  | some unit, some (n, _) => some (n * unit)
  | _, _ => none

/-- The seconds a text asks for. -/
def asksText (s : List Char) : Option Int :=
  match numeral? s with
  | some (n, _) => some n
  | none => duration? s

/-- The seconds a value asks for: a number, a text that writes one, or a text that
writes one with a unit.  Anything else leaves the window to the default. -/
def asks : Json → Option Int
  | .bool false => some 0
  | .int n => some n
  | .float (.finite q) => some (truncate q)
  | .str value => asksText (strip value.toList)
  | _ => none

/-- A parse that raises nothing and gives what was asked for, up to what the window
makes of it; where nothing was asked for, it gives none. -/
def Grants (parsed : Except String (Option Int)) (asked : Option Int) : Prop :=
  ∃ r, parsed = .ok r ∧ (asked = none → r = none) ∧
    ∀ default, idleWindowSeconds r default = idleWindowSeconds asked default ∧
      (idleWindowSeconds r default ≤ keepAliveMaxS ∨ idleWindowSeconds r default = default)

/-- The parser gives what the value asks for. -/
def Meets (v : Json) : Prop := Grants (parseKeepAlive v) (asks v)

/-- Minus signs and digits that `int` does not read: the minus signs are two or
more, a digit is not decimal, or there are too many of them. -/
def Unread (body : List Char) : Prop :=
  ∃ signs ds, body = List.replicate signs '-' ++ ds ∧ ds ≠ [] ∧ (∀ c ∈ ds, pyIsDigit c = true) ∧
    (2 ≤ signs ∨ (∃ c ∈ ds, decimal? c = none) ∨ maxStrDigits < ds.length)

/-- An integer with a plus sign, an underscore or whitespace in it. -/
def Unguarded (body : List Char) : Prop :=
  (∃ p, numeral? body = some p) ∧ ∃ c ∈ body, c ≠ '-' ∧ pyIsDigit c = false

/-- A text that writes an integer with more digits than `int` reads; or a unit
after minus signs and digits that `int` does not read, or after an integer that is
not minus signs and digits. -/
def OddText (s : List Char) : Prop :=
  (∃ n digits, numeral? s = some (n, digits) ∧ maxStrDigits < digits) ∨
  (∃ unit, s.getLast?.bind keepAliveUnit? = some unit) ∧
    (Unread s.dropLast ∨ Unguarded s.dropLast)

/-- The values on which the parser fails. -/
def Odd : Json → Prop
  | .float .nan => True
  | .float .inf => True
  | .float .negInf => True
  | .str value => OddText (strip value.toList)
  | _ => False

/-! ## The window -/

theorem window_bounded (r : Option Int) (default : Nat) :
    idleWindowSeconds r default ≤ keepAliveMaxS ∨ idleWindowSeconds r default = default := by
  cases r with
  | none => exact .inr rfl
  | some k =>
    left
    rw [idleWindowSeconds]
    split
    · exact Nat.le_refl _
    · exact Nat.min_le_right _ _

theorem window_pinned (v : Int) (default : Nat) :
    idleWindowSeconds (some (pinned v)) default = idleWindowSeconds (some v) default := by
  by_cases h : v < 0
  · rw [pinned, if_pos h]
    show idleWindowSeconds (some (keepAliveMaxS : Int)) default =
      if v < 0 then keepAliveMaxS else min v.toNat keepAliveMaxS
    rw [if_pos h]
    rfl
  · rw [pinned, if_neg h]

/-- A window that some seconds give is not that of every default. -/
theorem window_ne_default (v : Int) :
    ¬ ∀ default, idleWindowSeconds none default = idleWindowSeconds (some v) default := by
  intro h
  have h0 := h 0
  have h1 := h 1
  have hc : idleWindowSeconds (some v) 0 = idleWindowSeconds (some v) 1 := rfl
  rw [← h0, ← h1] at hc
  cases hc

theorem grants_ok {r asked : Option Int} (hn : asked = none → r = none)
    (hw : ∀ default, idleWindowSeconds r default = idleWindowSeconds asked default) :
    Grants (.ok r) asked :=
  ⟨r, rfl, hn, fun default => ⟨hw default, window_bounded r default⟩⟩

theorem grants_same (r : Option Int) : Grants (.ok r) r :=
  grants_ok id fun _ => rfl

theorem grants_pinned (v : Int) : Grants (.ok (some (pinned v))) (some v) :=
  grants_ok (by rintro ⟨⟩) (window_pinned v)

theorem not_grants_error (e : String) (asked : Option Int) : ¬ Grants (.error e) asked := by
  rintro ⟨r, hr, -⟩
  cases hr

theorem not_grants_none (v : Int) : ¬ Grants (.ok none) (some v) := by
  rintro ⟨r, hr, -, hw⟩
  cases hr
  exact window_ne_default v fun default => (hw default).1

/-! ## Digits -/

/-- The code points of whitespace. -/
def spaces : List Nat :=
  [9, 10, 11, 12, 13, 28, 29, 30, 31, 32, 0x85, 0xA0, 0x1680, 0x2000, 0x2001, 0x2002, 0x2003,
    0x2004, 0x2005, 0x2006, 0x2007, 0x2008, 0x2009, 0x200A, 0x2028, 0x2029, 0x202F, 0x205F, 0x3000]

theorem mem_spaces {c : Char} (h : pyIsSpace c = true) : c.toNat ∈ spaces := by
  simp only [pyIsSpace, Bool.or_eq_true, Bool.and_eq_true, decide_eq_true_eq] at h
  simp only [spaces, List.mem_cons, List.not_mem_nil, or_false]
  omega

theorem isSpace_of_isDigit {c : Char} (h : pyIsDigit c = true) : pyIsSpace c = false := by
  cases hs : pyIsSpace c with
  | false => rfl
  | true =>
    have hmem := mem_spaces hs
    have hall : ∀ n ∈ spaces,
        ((decimalZeros.find? fun z => z ≤ n && n < z + 10).isSome ||
          otherDigits.any fun r => r.1 ≤ n && n ≤ r.2) = false := by decide
    have hn := hall c.toNat hmem
    rw [pyIsDigit, decimal?, Option.isSome_map, hn] at h
    cases h

theorem decimal?_isDigit {c : Char} {d : Nat} (h : decimal? c = some d) : pyIsDigit c = true := by
  rw [pyIsDigit, h]
  rfl

theorem decimal?_of_not_isDigit {c : Char} (h : pyIsDigit c = false) : decimal? c = none := by
  cases hc : decimal? c with
  | none => rfl
  | some d =>
    rw [decimal?_isDigit hc] at h
    cases h

/-- Without underscores, a run of digits is read digit by digit. -/
theorem digitRun_eq {ds : List Char} (hne : ds ≠ []) (hu : ∀ c ∈ ds, c ≠ '_') :
    digitRun ds = ds.mapM decimal? := by
  fun_induction digitRun ds with
  | case1 => exact absurd rfl hne
  | case2 c =>
    rw [List.mapM_cons, List.mapM_nil]
    cases decimal? c with
    | none => rfl
    | some d => rfl
  | case3 c rest ih => exact absurd rfl (hu '_' (by simp))
  | case4 c rest h1 h2 ih =>
    have hrest : rest ≠ [] := by
      rintro rfl
      exact h1 rfl
    rw [ih hrest fun x hx => hu x (List.mem_cons_of_mem c hx), List.mapM_cons]
    cases decimal? c with
    | none => rfl
    | some d =>
      cases rest.mapM decimal? with
      | none => rfl
      | some l => rfl

/-- A run of digits ends in one. -/
theorem digitRun_last {s : List Char} {l : List Nat} (h : digitRun s = some l) :
    ∃ c, s.getLast? = some c ∧ decimal? c ≠ none := by
  fun_induction digitRun s generalizing l with
  | case1 => cases h
  | case2 c =>
    refine ⟨c, rfl, fun hn => ?_⟩
    rw [hn] at h
    cases h
  | case3 c rest ih =>
    obtain ⟨d, -, h⟩ := Option.bind_eq_some_iff.mp h
    obtain ⟨l', hl, -⟩ := Option.map_eq_some_iff.mp h
    obtain ⟨x, hx, hd⟩ := ih hl
    refine ⟨x, ?_, hd⟩
    rw [List.getLast?_cons, List.getLast?_cons, hx]
    rfl
  | case4 c rest h1 h2 ih =>
    obtain ⟨d, -, h⟩ := Option.bind_eq_some_iff.mp h
    obtain ⟨l', hl, -⟩ := Option.map_eq_some_iff.mp h
    obtain ⟨x, hx, hd⟩ := ih hl
    refine ⟨x, ?_, hd⟩
    rw [List.getLast?_cons, hx]
    rfl

theorem mapM_decimal (ds : List Char) :
    (∃ l, ds.mapM decimal? = some l ∧ l.length = ds.length) ∨
      (ds.mapM decimal? = none ∧ ∃ c ∈ ds, decimal? c = none) := by
  induction ds with
  | nil => exact .inl ⟨[], rfl, rfl⟩
  | cons c ds ih =>
    rw [List.mapM_cons]
    cases hc : decimal? c with
    | none => exact .inr ⟨rfl, c, List.mem_cons_self, hc⟩
    | some d =>
      rcases ih with ⟨l, hl, hlen⟩ | ⟨hn, x, hx, hd⟩
      · rw [hl]
        exact .inl ⟨d :: l, rfl, congrArg Nat.succ hlen⟩
      · rw [hn]
        exact .inr ⟨rfl, x, List.mem_cons_of_mem c hx, hd⟩

theorem mapM_some_ne {ds : List Char} {l : List Nat} (h : ds.mapM decimal? = some l) :
    ∀ c ∈ ds, decimal? c ≠ none := by
  induction ds generalizing l with
  | nil => exact (by rintro _ ⟨⟩)
  | cons c ds ih =>
    rw [List.mapM_cons] at h
    cases hc : decimal? c with
    | none =>
      rw [hc] at h
      cases h
    | some d =>
      cases hm : ds.mapM decimal? with
      | none =>
        rw [hc, hm] at h
        cases h
      | some l' =>
        intro x hx
        rcases List.mem_cons.mp hx with rfl | hx
        · rw [hc]
          intro h
          cases h
        · exact ih hm x hx

theorem ne_of_isDigit {c x : Char} (h : pyIsDigit c = true) (hx : pyIsDigit x = false) : c ≠ x := by
  rintro rfl
  rw [h] at hx
  cases hx

/-! ## Texts -/

theorem toLower_toNat (c : Char) :
    c.toLower.toNat = c.toNat ∨ c.toLower.toNat = c.toNat + 32 := by
  unfold Char.toLower
  split
  · rename_i hu
    right
    have hle : c.val.toNat ≤ 90 := UInt32.le_iff_toNat_le.mp hu.2
    have hge : 65 ≤ c.val.toNat := UInt32.le_iff_toNat_le.mp hu.1
    show (c.val + 32).toNat = c.val.toNat + 32
    rw [UInt32.toNat_add]
    show (c.val.toNat + 32) % 2 ^ 32 = c.val.toNat + 32
    omega
  · exact .inl rfl

/-- A unit is one of three letters, in either case. -/
theorem unit_letter {c : Char} {unit : Int} (h : keepAliveUnit? c = some unit) :
    c.toNat ∈ [0x53, 0x4d, 0x48, 0x73, 0x6d, 0x68] := by
  have hl : c.toLower.toNat = 0x73 ∨ c.toLower.toNat = 0x6d ∨ c.toLower.toNat = 0x68 := by
    unfold keepAliveUnit? at h
    split at h
    · rename_i hc
      exact .inl (congrArg Char.toNat hc)
    · rename_i hc
      exact .inr (.inl (congrArg Char.toNat hc))
    · rename_i hc
      exact .inr (.inr (congrArg Char.toNat hc))
    · cases h
  have ht := toLower_toNat c
  simp only [List.mem_cons, List.not_mem_nil, or_false]
  omega

theorem unit_plain {c : Char} {unit : Int} (h : keepAliveUnit? c = some unit) :
    pyIsSpace c = false ∧ pyIsDigit c = false := by
  have hmem := unit_letter h
  have hs : ∀ n ∈ [0x53, 0x4d, 0x48, 0x73, 0x6d, 0x68], n ∉ spaces := by decide
  have hd : ∀ n ∈ [0x53, 0x4d, 0x48, 0x73, 0x6d, 0x68],
      ((decimalZeros.find? fun z => z ≤ n && n < z + 10).isSome ||
        otherDigits.any fun r => r.1 ≤ n && n ≤ r.2) = false := by decide
  refine ⟨?_, ?_⟩
  · cases hc : pyIsSpace c with
    | false => rfl
    | true => exact absurd (mem_spaces hc) (hs _ hmem)
  · rw [pyIsDigit, decimal?, Option.isSome_map]
    exact hd _ hmem

theorem isSpace_of_int {c : Char} (h : intIsSpace c = true) : pyIsSpace c = true :=
  (Bool.and_eq_true_iff.mp h).1

theorem intIsSpace_of_not {c : Char} (h : pyIsSpace c = false) : intIsSpace c = false := by
  rw [intIsSpace, h, Bool.false_and]

/-- A text with a unit at its end writes no integer. -/
theorem numeral?_of_unit {s : List Char} {unit : Int}
    (h : s.getLast?.bind keepAliveUnit? = some unit) : numeral? s = none := by
  obtain ⟨c, hc, hu⟩ := Option.bind_eq_some_iff.mp h
  have hplain : pyIsSpace c = false ∧ decimal? c = none := by
    obtain ⟨hs, hd⟩ := unit_plain hu
    exact ⟨hs, decimal?_of_not_isDigit hd⟩
  have hlast := trim_last hc (intIsSpace_of_not hplain.1)
  have hrun : ∀ r, r.getLast? = some c → digitRun r = none := by
    intro r hr
    cases hd : digitRun r with
    | none => rfl
    | some l =>
      obtain ⟨x, hx, hne⟩ := digitRun_last hd
      rw [hr, Option.some.injEq] at hx
      exact absurd (hx ▸ hplain.2) hne
  have htail : ∀ x r, (x :: r).getLast? = some c → digitRun r = none := by
    intro x r hr
    cases r with
    | nil => rfl
    | cons y r => exact hrun (y :: r) (by rwa [List.getLast?_cons_cons] at hr)
  rw [numeral?]
  split
  · rename_i r hs
    rw [hs] at hlast
    rw [htail '-' r hlast]
    rfl
  · rename_i r hs
    rw [hs] at hlast
    rw [htail '+' r hlast]
    rfl
  · rw [hrun _ hlast]
    rfl

/-! ## Minus signs and digits -/

theorem numeral?_digits {ds : List Char} (hne : ds ≠ []) (hd : ∀ c ∈ ds, pyIsDigit c = true) :
    numeral? ds = (ds.mapM decimal?).map fun l => ((valueOf l : Int), l.length) := by
  have hu : ∀ c ∈ ds, c ≠ '_' := fun c hc => ne_of_isDigit (hd c hc) (by decide)
  have hminus : ∀ c ∈ ds, c ≠ '-' := fun c hc => ne_of_isDigit (hd c hc) (by decide)
  have hplus : ∀ c ∈ ds, c ≠ '+' := fun c hc => ne_of_isDigit (hd c hc) (by decide)
  have hs : trim intIsSpace ds = ds :=
    trim_eq_self fun c hc => intIsSpace_of_not (isSpace_of_isDigit (hd c hc))
  rw [numeral?, hs]
  split
  · exact absurd rfl (hminus '-' List.mem_cons_self)
  · exact absurd rfl (hplus '+' List.mem_cons_self)
  · rw [digitRun_eq hne hu]

theorem numeral?_minus {ds : List Char} (hne : ds ≠ []) (hd : ∀ c ∈ ds, pyIsDigit c = true) :
    numeral? ('-' :: ds) = (ds.mapM decimal?).map fun l => (-(valueOf l : Int), l.length) := by
  have hu : ∀ c ∈ ds, c ≠ '_' := fun c hc => ne_of_isDigit (hd c hc) (by decide)
  have hs : trim intIsSpace ('-' :: ds) = '-' :: ds := by
    apply trim_eq_self
    intro c hc
    rcases List.mem_cons.mp hc with rfl | hc
    · decide
    · exact intIsSpace_of_not (isSpace_of_isDigit (hd c hc))
  rw [numeral?, hs]
  show (digitRun ds).map _ = _
  rw [digitRun_eq hne hu]

/-- A run of digits begins with one. -/
theorem digitRun_sign (r : List Char) : digitRun ('-' :: r) = none := by
  have hm : decimal? '-' = none := by decide
  unfold digitRun
  split
  · rfl
  · rename_i c hc
    obtain ⟨rfl, -⟩ := List.cons.inj hc
    rw [hm]
    rfl
  · rename_i c rest hc
    obtain ⟨rfl, -⟩ := List.cons.inj hc
    rw [hm]
    rfl
  · rename_i c rest _ _ hc
    obtain ⟨rfl, -⟩ := List.cons.inj hc
    rw [hm]
    rfl

/-- Of minus signs, `int` takes none off. -/
theorem trim_sign (r : List Char) :
    trim intIsSpace ('-' :: r) = '-' :: r.rdropWhile intIsSpace := by
  have hm : intIsSpace '-' = false := by decide
  rw [trim, List.dropWhile_cons_of_neg (by simp [hm]), List.rdropWhile, List.reverse_cons,
    dropWhile_concat _ hm, List.reverse_concat]
  rfl

/-- `int` takes one sign. -/
theorem numeral?_signs (r : List Char) : numeral? ('-' :: '-' :: r) = none := by
  obtain ⟨r', hr⟩ : ∃ r', ('-' :: r).rdropWhile intIsSpace = '-' :: r' := by
    have hs := trim_sign r
    rw [trim, List.dropWhile_cons_of_neg (by decide)] at hs
    exact ⟨_, hs⟩
  rw [numeral?, trim_sign, hr]
  show (digitRun ('-' :: r')).map _ = none
  rw [digitRun_sign]
  rfl

theorem numeral?_minuses (ds : List Char) (k : Nat) :
    numeral? (List.replicate (k + 2) '-' ++ ds) = none :=
  numeral?_signs (List.replicate k '-' ++ ds)

theorem dropWhile_minus {ds : List Char} (hne : ds ≠ []) (hd : ∀ c ∈ ds, pyIsDigit c = true)
    (k : Nat) : (List.replicate k '-' ++ ds).dropWhile (· = '-') = ds := by
  induction k with
  | zero =>
    cases ds with
    | nil => exact absurd rfl hne
    | cons c ds =>
      have hc : c ≠ '-' := ne_of_isDigit (hd c List.mem_cons_self) (by decide)
      simp [hc]
  | succ k ih =>
    rw [List.replicate_succ, List.cons_append, List.dropWhile_cons, if_pos (by decide)]
    exact ih

/-- What passes the guard is minus signs and digits. -/
theorem guarded_iff {body : List Char} :
    guarded body = true ↔
      ∃ k ds, body = List.replicate k '-' ++ ds ∧ ds ≠ [] ∧ ∀ c ∈ ds, pyIsDigit c = true := by
  constructor
  · intro h
    simp only [guarded, Bool.and_eq_true, Bool.not_eq_true', List.isEmpty_eq_false_iff] at h
    refine ⟨(body.takeWhile (· = '-')).length, body.dropWhile (· = '-'), ?_, h.1,
      List.all_eq_true.mp h.2⟩
    have htake : body.takeWhile (· = '-') =
        List.replicate (body.takeWhile (· = '-')).length '-' := by
      rw [List.eq_replicate_iff]
      refine ⟨rfl, fun c hc => ?_⟩
      have hp := List.mem_takeWhile_imp hc
      exact of_decide_eq_true hp
    rw [← htake, List.takeWhile_append_dropWhile]
  · rintro ⟨k, ds, rfl, hne, hd⟩
    simp only [guarded, Bool.and_eq_true, Bool.not_eq_true', List.isEmpty_eq_false_iff]
    rw [dropWhile_minus hne hd]
    exact ⟨hne, List.all_eq_true.mpr hd⟩

/-- What the guard lets through and `int` does not read. -/
theorem pyInt_eq_none_iff {k : Nat} {ds : List Char} (hne : ds ≠ [])
    (hd : ∀ c ∈ ds, pyIsDigit c = true) :
    pyInt (List.replicate k '-' ++ ds) = none ↔
      2 ≤ k ∨ (∃ c ∈ ds, decimal? c = none) ∨ maxStrDigits < ds.length := by
  -- with at most one sign, `int` reads the digits
  have hread : ∀ (body : List Char) (f : Nat → Int),
      numeral? body = (ds.mapM decimal?).map (fun l => (f (valueOf l), l.length)) →
      (pyInt body = none ↔ (∃ c ∈ ds, decimal? c = none) ∨ maxStrDigits < ds.length) := by
    intro body f hnum
    rcases mapM_decimal ds with ⟨l, hl, hll⟩ | ⟨hl, hx⟩
    · have hno : ¬ ∃ c ∈ ds, decimal? c = none := by
        rintro ⟨c, hc, hn⟩
        exact mapM_some_ne hl c hc hn
      rw [hl] at hnum
      rw [pyInt, hnum, or_iff_right hno, ← hll]
      show (if maxStrDigits < l.length then none else some (f (valueOf l))) = none ↔ _
      split
      · rename_i hmax
        exact ⟨fun _ => hmax, fun _ => rfl⟩
      · rename_i hmax
        exact ⟨(by rintro ⟨⟩), fun h => absurd h hmax⟩
    · rw [hl] at hnum
      rw [pyInt, hnum]
      exact ⟨fun _ => .inl hx, fun _ => rfl⟩
  match k with
  | 0 =>
    have hk : ¬ 2 ≤ 0 := by decide
    rw [or_iff_right hk]
    exact hread _ (fun n => n) (numeral?_digits hne hd)
  | 1 =>
    have hk : ¬ 2 ≤ 1 := by decide
    rw [or_iff_right hk]
    exact hread _ (fun n => -n) (numeral?_minus hne hd)
  | k + 2 =>
    rw [pyInt, numeral?_minuses ds k]
    exact ⟨fun _ => .inl (by omega), fun _ => rfl⟩

theorem digitRun_chars {s : List Char} {l : List Nat} (h : digitRun s = some l) :
    s ≠ [] ∧ ∀ c ∈ s, c = '_' ∨ pyIsDigit c = true := by
  fun_induction digitRun s generalizing l with
  | case1 => cases h
  | case2 c =>
    obtain ⟨d, hd, -⟩ := Option.map_eq_some_iff.mp h
    refine ⟨(by rintro ⟨⟩), fun x hx => .inr ?_⟩
    rw [List.mem_singleton.mp hx]
    exact decimal?_isDigit hd
  | case3 c rest ih =>
    obtain ⟨d, hd, h⟩ := Option.bind_eq_some_iff.mp h
    obtain ⟨l', hl, -⟩ := Option.map_eq_some_iff.mp h
    refine ⟨(by rintro ⟨⟩), fun x hx => ?_⟩
    rcases List.mem_cons.mp hx with rfl | hx
    · exact .inr (decimal?_isDigit hd)
    · rcases List.mem_cons.mp hx with rfl | hx
      · exact .inl rfl
      · exact (ih hl).2 x hx
  | case4 c rest h1 h2 ih =>
    obtain ⟨d, hd, h⟩ := Option.bind_eq_some_iff.mp h
    obtain ⟨l', hl, -⟩ := Option.map_eq_some_iff.mp h
    refine ⟨(by rintro ⟨⟩), fun x hx => ?_⟩
    rcases List.mem_cons.mp hx with rfl | hx
    · exact .inr (decimal?_isDigit hd)
    · exact (ih hl).2 x hx

/-- An integer of minus signs and digits passes the guard. -/
theorem guarded_of_numeral? {body : List Char} {p : Int × Nat} (h : numeral? body = some p)
    (hall : ∀ c ∈ body, c = '-' ∨ pyIsDigit c = true) : guarded body = true := by
  have hs : trim intIsSpace body = body := by
    apply trim_eq_self
    intro c hc
    rcases hall c hc with rfl | hd
    · decide
    · exact intIsSpace_of_not (isSpace_of_isDigit hd)
  have hdigits : ∀ {r : List Char} {l : List Nat}, digitRun r = some l → (∀ c ∈ r, c ∈ body) →
      r ≠ [] ∧ ∀ c ∈ r, pyIsDigit c = true := by
    intro r l hr hsub
    obtain ⟨hne, hc⟩ := digitRun_chars hr
    refine ⟨hne, fun c hmem => ?_⟩
    rcases hc c hmem with rfl | hd
    · rcases hall '_' (hsub _ hmem) with hu | hd
      · exact absurd hu (by decide)
      · exact hd
    · exact hd
  rw [guarded_iff]
  rw [numeral?, hs] at h
  split at h
  · rename_i r
    obtain ⟨l, hr, -⟩ := Option.map_eq_some_iff.mp h
    exact ⟨1, r, rfl, hdigits hr fun c hc => List.mem_cons_of_mem _ hc⟩
  · rcases hall '+' List.mem_cons_self with hp | hp
    · exact absurd hp (by decide)
    · exact absurd hp (by decide)
  · obtain ⟨l, hr, -⟩ := Option.map_eq_some_iff.mp h
    exact ⟨0, body, rfl, hdigits hr fun c hc => hc⟩

/-! ## Units -/

/-- After the guard the parser gives what is asked for exactly when `int` reads the
body. -/
theorem suffixed_grants_of_guarded {s : List Char} {unit : Int}
    (hu : s.getLast?.bind keepAliveUnit? = some unit) (hg : guarded s.dropLast = true) :
    Grants (parseSuffixed s) (duration? s) ↔ pyInt s.dropLast ≠ none := by
  obtain ⟨k, ds, hs, hne, -⟩ := guarded_iff.mp hg
  have hlen : 2 ≤ s.length := by
    have h := congrArg List.length hs
    rw [List.length_dropLast, List.length_append, List.length_replicate] at h
    have := List.length_pos_of_ne_nil hne
    omega
  rw [parseSuffixed, hu]
  dsimp only
  rw [if_pos ⟨hlen, hg⟩]
  cases hp : pyInt s.dropLast with
  | none => exact ⟨fun h => absurd h (not_grants_error _ _), fun h => absurd rfl h⟩
  | some n =>
    have hdur : duration? s = some (n * unit) := by
      rw [pyInt] at hp
      split at hp
      · rename_i m digits hnum
        split at hp
        · cases hp
        · cases hp
          rw [duration?, hu, hnum]
      · cases hp
    rw [hdur]
    exact ⟨fun _ => by rintro ⟨⟩, fun _ => grants_same _⟩

theorem suffixed_grants_iff {s : List Char} {unit : Int}
    (hu : s.getLast?.bind keepAliveUnit? = some unit) :
    Grants (parseSuffixed s) (duration? s) ↔ ¬ (Unread s.dropLast ∨ Unguarded s.dropLast) := by
  cases hg : guarded s.dropLast with
  | true =>
    rw [suffixed_grants_of_guarded hu hg]
    obtain ⟨k, ds, hs, hne, hd⟩ := guarded_iff.mp hg
    have hno : ¬ Unguarded s.dropLast := by
      rintro ⟨-, c, hc, hminus, hdigit⟩
      rw [hs] at hc
      rcases List.mem_append.mp hc with hc | hc
      · exact hminus (List.eq_of_mem_replicate hc)
      · rw [hd c hc] at hdigit
        cases hdigit
    rw [or_iff_left hno]
    show ¬ _ ↔ ¬ _
    rw [not_iff_not]
    constructor
    · intro hp
      rw [hs] at hp
      exact ⟨k, ds, hs, hne, hd, (pyInt_eq_none_iff hne hd).mp hp⟩
    · rintro ⟨k', ds', hs', hne', hd', h⟩
      rw [hs']
      exact (pyInt_eq_none_iff hne' hd').mpr h
  | false =>
    have hp : parseSuffixed s = .ok none := by
      rw [parseSuffixed, hu]
      dsimp only
      rw [hg, if_neg]
      rintro ⟨-, h⟩
      cases h
    have hno : ¬ Unread s.dropLast := by
      rintro ⟨k, ds, hs, hne, hd, -⟩
      rw [guarded_iff.mpr ⟨k, ds, hs, hne, hd⟩] at hg
      cases hg
    rw [hp, or_iff_right hno, duration?, hu]
    cases hn : numeral? s.dropLast with
    | none =>
      refine ⟨fun _ => ?_, fun _ => grants_same none⟩
      rintro ⟨⟨p, h⟩, -⟩
      rw [hn] at h
      cases h
    | some p =>
      refine ⟨fun h => absurd h (not_grants_none _), fun h => absurd ⟨⟨p, hn⟩, ?_⟩ h⟩
      by_contra hall
      have hg' : guarded s.dropLast = true := by
        apply guarded_of_numeral? hn
        intro c hc
        by_contra hx
        rw [not_or, Bool.not_eq_true] at hx
        exact hall ⟨c, hc, hx⟩
      rw [hg'] at hg
      cases hg

/-- A text is read as it asks for exactly when it is not odd. -/
theorem text_grants_iff (s : List Char) : Grants (parseText s) (asksText s) ↔ ¬ OddText s := by
  by_cases hnil : s = []
  · subst hnil
    have hno : ¬ OddText [] := by
      rintro (⟨n, digits, h, -⟩ | ⟨⟨unit, h⟩, -⟩)
      · cases h
      · cases h
    exact ⟨fun _ => hno, fun _ => grants_same none⟩
  · rw [parseText, if_neg hnil, asksText, pyInt]
    cases hn : numeral? s with
    | some p =>
      obtain ⟨n, digits⟩ := p
      have hunit : s.getLast?.bind keepAliveUnit? = none := by
        cases hu : s.getLast?.bind keepAliveUnit? with
        | none => rfl
        | some unit =>
          rw [numeral?_of_unit hu] at hn
          cases hn
      dsimp only
      by_cases hmax : maxStrDigits < digits
      · have hs : parseSuffixed s = .ok none := by
          rw [parseSuffixed, hunit]
        rw [if_pos hmax]
        dsimp only
        rw [hs]
        exact ⟨fun h => absurd h (not_grants_none n),
          fun h => absurd (.inl ⟨n, digits, hn, hmax⟩) h⟩
      · rw [if_neg hmax]
        refine ⟨fun _ => ?_, fun _ => grants_pinned n⟩
        rintro (⟨n', digits', h, hmax'⟩ | ⟨⟨unit, h⟩, -⟩)
        · rw [hn] at h
          cases h
          exact hmax hmax'
        · rw [hunit] at h
          cases h
    | none =>
      have hno : ¬ ∃ n digits, numeral? s = some (n, digits) ∧ maxStrDigits < digits := by
        rintro ⟨n, digits, h, -⟩
        rw [hn] at h
        cases h
      dsimp only
      rw [OddText, or_iff_right hno]
      cases hu : s.getLast?.bind keepAliveUnit? with
      | none =>
        have hs : parseSuffixed s = .ok none := by
          rw [parseSuffixed, hu]
        have hd : duration? s = none := by
          rw [duration?, hu]
        rw [hs, hd]
        refine ⟨fun _ => ?_, fun _ => grants_same none⟩
        rintro ⟨⟨unit, h⟩, -⟩
        cases h
      | some unit =>
        rw [suffixed_grants_iff hu, not_iff_not]
        exact ⟨fun h => ⟨⟨unit, rfl⟩, h⟩, fun h => h.2⟩

/-! ## The same seconds -/

/-- An integer has no whitespace in it. -/
theorem numeral?_plain {t : List Char} {x : Int × Nat} (h : numeral? t = some x) :
    trim intIsSpace t ≠ [] ∧ ∀ c ∈ trim intIsSpace t, pyIsSpace c = false := by
  have hrun : ∀ {r : List Char} {l : List Nat}, digitRun r = some l →
      ∀ c ∈ r, pyIsSpace c = false := by
    intro r l hr c hc
    rcases (digitRun_chars hr).2 c hc with rfl | hd
    · decide
    · exact isSpace_of_isDigit hd
  have hsigned : ∀ {sign : Char} {r : List Char} {l : List Nat}, pyIsSpace sign = false →
      digitRun r = some l → sign :: r ≠ [] ∧ ∀ c ∈ sign :: r, pyIsSpace c = false := by
    intro sign r l hsign hr
    refine ⟨by rintro ⟨⟩, fun c hc => ?_⟩
    rcases List.mem_cons.mp hc with rfl | hc
    · exact hsign
    · exact hrun hr c hc
  rw [numeral?] at h
  split at h
  · rename_i r hs
    obtain ⟨l, hr, -⟩ := Option.map_eq_some_iff.mp h
    exact hs ▸ hsigned (by decide) hr
  · rename_i r hs
    obtain ⟨l, hr, -⟩ := Option.map_eq_some_iff.mp h
    exact hs ▸ hsigned (by decide) hr
  · obtain ⟨l, hr, -⟩ := Option.map_eq_some_iff.mp h
    exact ⟨(digitRun_chars hr).1, hrun hr⟩

/-- Before an integer, `strip` takes off what `int` does. -/
theorem dropWhile_numeral {t : List Char} {x : Int × Nat} (h : numeral? t = some x) :
    t.dropWhile pyIsSpace = t.dropWhile intIsSpace := by
  obtain ⟨hne, hplain⟩ := numeral?_plain h
  refine dropWhile_wider (fun _ => isSpace_of_int) fun c hc => hplain c ?_
  obtain ⟨rest, hrest⟩ := trim_eq_append intIsSpace t
  rw [← hrest, List.head?_append_of_ne_nil _ hne] at hc
  exact List.mem_of_mem_head? hc

/-- And so it does at both ends. -/
theorem strip_numeral {t : List Char} {x : Int × Nat} (h : numeral? t = some x) :
    strip t = trim intIsSpace t := by
  obtain ⟨hne, hplain⟩ := numeral?_plain h
  rw [strip_eq, trim, dropWhile_numeral h, trim, List.rdropWhile, List.rdropWhile]
  refine congrArg _ (dropWhile_wider (fun _ => isSpace_of_int) fun c hc => ?_)
  refine hplain c (List.mem_reverse.mp (List.mem_of_mem_head? ?_))
  rwa [trim, List.rdropWhile, List.reverse_reverse]

theorem numeral?_strip {t : List Char} {x : Int × Nat} (h : numeral? t = some x) :
    numeral? (strip t) = some x := by
  have hself := trim_eq_self fun c hc => intIsSpace_of_not ((numeral?_plain h).2 c hc)
  rw [strip_numeral h, numeral?, hself]
  exact h

theorem numeral?_dropWhile {t : List Char} {x : Int × Nat} (h : numeral? t = some x) :
    numeral? (t.dropWhile pyIsSpace) = some x := by
  rw [dropWhile_numeral h, numeral?, trim_dropWhile]
  exact h

theorem asks_numeral {t : List Char} {n : Int} {digits : Nat}
    (h : numeral? t = some (n, digits)) : asks (.str (String.ofList t)) = some n := by
  rw [asks, String.toList_ofList, asksText, numeral?_strip h]

/-- With a unit, a numeric text asks for as many units. -/
theorem asks_unit {t : List Char} {n : Int} {digits : Nat} {c : Char} {unit : Int}
    (h : numeral? t = some (n, digits)) (hu : keepAliveUnit? c = some unit) :
    asks (.str (String.ofList (t ++ [c]))) = some (n * unit) := by
  have hlast : (t.dropWhile pyIsSpace ++ [c]).getLast?.bind keepAliveUnit? = some unit := by
    rw [List.getLast?_concat]
    exact hu
  rw [asks, String.toList_ofList, strip_eq, trim_concat t (unit_plain hu).1, asksText,
    numeral?_of_unit hlast]
  dsimp only
  rw [duration?, hlast, List.dropLast_concat, numeral?_dropWhile h]

/-- The parser returns, gives none where nothing is asked for, and gives a window
within the cap, or the default, that is the window of the seconds asked for: on
exactly the values that are not odd.  A numeric text asks for its number, and with
a unit for as many units. -/
theorem keep_alive_meets_iff (v : Json) :
    (Meets v ↔ ¬ Odd v) ∧
    ∀ (t : List Char) (n : Int) (digits : Nat), numeral? t = some (n, digits) →
      asks (.str (String.ofList t)) = asks (.int n) ∧
      ∀ c unit, keepAliveUnit? c = some unit →
        asks (.str (String.ofList (t ++ [c]))) = asks (.int (n * unit)) := by
  refine ⟨?_, fun t n digits h => ⟨asks_numeral h, fun c unit hu => asks_unit h hu⟩⟩
  cases v with
  | null => exact ⟨fun _ h => h, fun _ => grants_same none⟩
  | bool b =>
    cases b with
    | false => exact ⟨fun _ h => h, fun _ => grants_same (some 0)⟩
    | true => exact ⟨fun _ h => h, fun _ => grants_same none⟩
  | int n => exact ⟨fun _ h => h, fun _ => grants_pinned n⟩
  | float f =>
    cases f with
    | finite q => exact ⟨fun _ h => h, fun _ => grants_pinned (truncate q)⟩
    | nan => exact ⟨fun h => absurd h (not_grants_error _ _), fun h => absurd trivial h⟩
    | inf => exact ⟨fun h => absurd h (not_grants_error _ _), fun h => absurd trivial h⟩
    | negInf => exact ⟨fun h => absurd h (not_grants_error _ _), fun h => absurd trivial h⟩
  | str value => exact text_grants_iff (strip value.toList)
  | arr l => exact ⟨fun _ h => h, fun _ => grants_same none⟩
  | obj l => exact ⟨fun _ h => h, fun _ => grants_same none⟩

theorem keep_alive_meets_iff_inst :
    asks (.str (String.ofList ['3', '0'])) = asks (.int 30) ∧
      asks (.str (String.ofList ['3', '0', 'm'])) = asks (.int 1800) := by
  obtain ⟨h, hu⟩ := (keep_alive_meets_iff .null).2 ['3', '0'] 30 2 (by decide +kernel)
  exact ⟨h, hu 'm' 60 (by decide +kernel)⟩

/-- Two minus signs pass the guard. -/
theorem two_minus_signs_raise : ¬ ∀ v, Meets v := by
  intro h
  obtain ⟨r, hr, -⟩ := h (.str "--5s")
  have he : (parseKeepAlive (.str "--5s")).toOption = none := by decide +kernel
  rw [hr] at he
  cases he

end Turbohaul.KeepAlive
