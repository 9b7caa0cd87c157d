/-
# `json.loads` and `json.dumps`

The decoder as it stands without options (strict strings, the last item of a
repeated key counts) and the encoder with its defaults (`ensure_ascii`, the
separators `", "` and `": "`).  A text is a list of Unicode scalar values; the half
of a surrogate pair that stands alone in a `\uXXXX` escape is read as U+FFFD.
How a float is read and printed is a parameter, `FloatText`, with the law that a
float that was read is printed as a numeral that reads as it.

`loads` is the decoder without the limits of the interpreter; where it meets one of
these, and raises something else than a `JSONDecodeError`, is `refuses`.
-/
import Turbohaul.Json

namespace Turbohaul

namespace JsonText

/-- `0`, or digits that begin with another. -/
def IntNumeral (i : List Char) : Prop :=
  i = ['0'] ∨ ∃ c ds, i = c :: ds ∧ c.isDigit ∧ c ≠ '0' ∧ ∀ d ∈ ds, d.isDigit

/-- Nothing, or a dot and digits. -/
def FracNumeral (f : List Char) : Prop :=
  f = [] ∨ ∃ ds, f = '.' :: ds ∧ ds ≠ [] ∧ ∀ d ∈ ds, d.isDigit

/-- Nothing, or `e`, a sign if there is one, and digits. -/
def ExpNumeral (e : List Char) : Prop :=
  e = [] ∨ ∃ c sign ds, e = c :: (sign ++ ds) ∧ (c = 'e' ∨ c = 'E') ∧
    (sign = [] ∨ sign = ['+'] ∨ sign = ['-']) ∧ ds ≠ [] ∧ ∀ d ∈ ds, d.isDigit

/-- The minus sign of a negative numeral. -/
def minus (negative : Bool) : List Char := if negative then ['-'] else []

/-- A numeral of a float. -/
def FloatNumeral (cs : List Char) : Prop :=
  ∃ negative i f e, cs = minus negative ++ (i ++ (f ++ e)) ∧ IntNumeral i ∧ FracNumeral f ∧
    ExpNumeral e ∧ ¬ (f = [] ∧ e = [])

end JsonText

/-- `float(numeral)` and `float.__repr__` of a finite float. -/
structure FloatText where
  float : List Char → PyFloat
  repr : Rat → List Char
  /-- `float(repr(x)) == x`, and `repr(x)` is a numeral. -/
  repr_float : ∀ {cs q}, float cs = .finite q →
    JsonText.FloatNumeral (repr q) ∧ float (repr q) = .finite q

/-- For texts without fractions. -/
def FloatText.nans : FloatText where
  float _ := .nan
  repr _ := []
  repr_float := by
    intro _ _ h
    cases h

/-- An interpreter: its floats, and how deep its decoder may nest. -/
structure Interpreter extends FloatText where
  room : Nat

instance : Coe Interpreter FloatText := ⟨Interpreter.toFloatText⟩

/-- `sys.int_info.default_max_str_digits`. -/
def maxStrDigits : Nat := 4300

namespace JsonText

/-- The whitespace of the decoder. -/
def isWs (c : Char) : Bool := c = ' ' || c = '\t' || c = '\n' || c = '\r'

def skipWs (s : List Char) : List Char := s.dropWhile isWs

/-- The value of a hexadecimal digit. -/
def hexDigit (c : Char) : Option Nat :=
  if '0' ≤ c ∧ c ≤ '9' then some (c.toNat - 48)
  else if 'a' ≤ c ∧ c ≤ 'f' then some (c.toNat - 87)
  else if 'A' ≤ c ∧ c ≤ 'F' then some (c.toNat - 55)
  else none

/-- Four hexadecimal digits. -/
def hex4 : List Char → Option (Nat × List Char)
  | a :: b :: c :: d :: s =>
    match hexDigit a, hexDigit b, hexDigit c, hexDigit d with
    | some a, some b, some c, some d => some (((a * 16 + b) * 16 + c) * 16 + d, s)
    | _, _, _, _ => none
  | _ => none

/-- The character of an escape, after its backslash. -/
def unescape : List Char → Option (Char × List Char)
  | '"' :: s => some ('"', s)
  | '\\' :: s => some ('\\', s)
  | '/' :: s => some ('/', s)
  | 'b' :: s => some ('\x08', s)
  | 'f' :: s => some ('\x0c', s)
  | 'n' :: s => some ('\n', s)
  | 'r' :: s => some ('\r', s)
  | 't' :: s => some ('\t', s)
  | 'u' :: s =>
    match hex4 s with
    | none => none
    | some (n, s) =>
      if 0xD800 ≤ n ∧ n < 0xDC00 then
        match s with
        | '\\' :: 'u' :: s' =>
          match hex4 s' with
          | none => none
          | some (m, s') =>
            if 0xDC00 ≤ m ∧ m < 0xE000 then
              some (Char.ofNat (0x10000 + (n - 0xD800) * 0x400 + (m - 0xDC00)), s')
            else some ('\uFFFD', s)
        | _ => some ('\uFFFD', s)
      else if 0xDC00 ≤ n ∧ n < 0xE000 then some ('\uFFFD', s)
      else some (Char.ofNat n, s)
  | _ => none

/-- `scanstring`, after the opening quote; the number bounds the characters. -/
def scanString : Nat → List Char → Option (List Char × List Char)
  | 0, _ => none
  | _ + 1, [] => none
  | n + 1, c :: s =>
    if c = '"' then some ([], s)
    else if c = '\\' then
      match unescape s with
      | none => none
      | some (c, s) => (scanString n s).map fun r => (c :: r.1, r.2)
    else if c.toNat < 32 then none
    else (scanString n s).map fun r => (c :: r.1, r.2)

/-- The integer part of a numeral: `0`, or digits that begin with another. -/
def intPart : List Char → Option (List Char × List Char)
  | [] => none
  | c :: s =>
    if c = '0' then some (['0'], s)
    else if c.isDigit then some (c :: s.takeWhile Char.isDigit, s.dropWhile Char.isDigit)
    else none

/-- A dot and digits, if they follow. -/
def fracPart (s : List Char) : List Char × List Char :=
  match s with
  | '.' :: s' =>
    if s'.takeWhile Char.isDigit = [] then ([], s)
    else ('.' :: s'.takeWhile Char.isDigit, s'.dropWhile Char.isDigit)
  | _ => ([], s)

/-- The sign of an exponent, if it has one. -/
def expSign : List Char → List Char
  | '+' :: _ => ['+']
  | '-' :: _ => ['-']
  | _ => []

/-- `e`, a sign if there is one, and digits, if they follow. -/
def expPart (s : List Char) : List Char × List Char :=
  match s with
  | [] => ([], s)
  | e :: s' =>
    if e = 'e' ∨ e = 'E' then
      let s'' := s'.drop (expSign s').length
      if s''.takeWhile Char.isDigit = [] then ([], s)
      else (e :: (expSign s' ++ s''.takeWhile Char.isDigit), s''.dropWhile Char.isDigit)
    else ([], s)

/-- `match_number` of a text without its sign. -/
def unsigned (F : FloatText) (negative : Bool) (s : List Char) : Option (Json × List Char) :=
  match intPart s with
  | none => none
  | some (i, s) =>
    let (f, s) := fracPart s
    let (e, s) := expPart s
    if f = [] ∧ e = [] then
      some (.int (if negative then -(Nat.ofDigitChars 10 i 0 : Int)
        else Nat.ofDigitChars 10 i 0), s)
    else some (.float (F.float (minus negative ++ (i ++ (f ++ e)))), s)

/-- A keyword and what follows it. -/
def keyword (word : String) (s : List Char) : Option (List Char) :=
  if word.toList.isPrefixOf s then some (s.drop word.toList.length) else none

/-- The items of an array, after its bracket and the whitespace there. -/
def elements (value : List Char → Option (Json × List Char)) :
    Nat → List Char → Option (List Json × List Char)
  | 0, _ => none
  | n + 1, s =>
    match value s with
    | none => none
    | some (x, s) =>
      match skipWs s with
      | ',' :: s => (elements value n (skipWs s)).map fun r => (x :: r.1, r.2)
      | ']' :: s => some ([x], s)
      | _ => none

/-- The items of an object, after its brace and the whitespace there; `d` holds
those before. -/
def members (value : List Char → Option (Json × List Char)) :
    Nat → Dict → List Char → Option (Dict × List Char)
  | n + 1, d, '"' :: s =>
    match scanString s.length s with
    | none => none
    | some (k, s) =>
      match skipWs s with
      | ':' :: s =>
        match value (skipWs s) with
        | none => none
        | some (x, s) =>
          match skipWs s with
          | ',' :: s => members value n (d.set (String.ofList k) x) (skipWs s)
          | '}' :: s => some (d.set (String.ofList k) x, s)
          | _ => none
      | _ => none
  | _, _, _ => none

/-- `scan_once`; the number bounds the nesting. -/
def scanOnce (F : FloatText) : Nat → List Char → Option (Json × List Char)
  | 0, _ => none
  | _ + 1, [] => none
  | n + 1, c :: s =>
    if c = '"' then (scanString s.length s).map fun r => (.str (String.ofList r.1), r.2)
    else if c = '{' then
      match skipWs s with
      | '}' :: s => some (.obj [], s)
      | s => (members (scanOnce F n) s.length [] s).map fun r => (.obj r.1, r.2)
    else if c = '[' then
      match skipWs s with
      | ']' :: s => some (.arr [], s)
      | s => (elements (scanOnce F n) s.length s).map fun r => (.arr r.1, r.2)
    else if c = 'n' then (keyword "ull" s).map fun s => (.null, s)
    else if c = 't' then (keyword "rue" s).map fun s => (.bool true, s)
    else if c = 'f' then (keyword "alse" s).map fun s => (.bool false, s)
    else if c = 'N' then (keyword "aN" s).map fun s => (.float .nan, s)
    else if c = 'I' then (keyword "nfinity" s).map fun s => (.float .inf, s)
    else if c = '-' then
      match keyword "Infinity" s with
      | some s => some (.float .negInf, s)
      | none => unsigned F true s
    else unsigned F false (c :: s)

/-- `json.loads`; `none` is a `JSONDecodeError`. -/
def loads (F : FloatText) (s : List Char) : Option Json :=
  match scanOnce F (s.length + 1) (skipWs s) with
  | some (x, s) => if skipWs s = [] then some x else none
  | none => none

/-! ## The limits of the interpreter -/

/-- An integer of more digits than `int` takes stands next. -/
def overlong (s : List Char) : Bool :=
  match intPart s with
  | none => false
  | some (i, s) =>
    (fracPart s).1.isEmpty && (expPart (fracPart s).2).1.isEmpty && decide (maxStrDigits < i.length)

/-- `elements` meets a limit, where `hit` is that an item does. -/
def elementsHit (value : List Char → Option (Json × List Char)) (hit : List Char → Bool) :
    Nat → List Char → Bool
  | 0, _ => false
  | n + 1, s =>
    hit s ||
      match value s with
      | none => false
      | some (_, s) =>
        match skipWs s with
        | ',' :: s => elementsHit value hit n (skipWs s)
        | _ => false

/-- `members` meets a limit. -/
def membersHit (value : List Char → Option (Json × List Char)) (hit : List Char → Bool) :
    Nat → List Char → Bool
  | n + 1, '"' :: s =>
    match scanString s.length s with
    | none => false
    | some (_, s) =>
      match skipWs s with
      | ':' :: s =>
        hit (skipWs s) ||
          match value (skipWs s) with
          | none => false
          | some (_, s) =>
            match skipWs s with
            | ',' :: s => membersHit value hit n (skipWs s)
            | _ => false
      | _ => false
  | _, _ => false

/-- `scan_once`, which may nest so deep, meets a limit before it is through: an integer that
`int` does not take, or an object or array too many. -/
def scanHit (F : FloatText) : Nat → List Char → Bool
  | _, [] => false
  | 0, c :: s => c = '{' || c = '[' || overlong (if c = '-' then s else c :: s)
  | room + 1, c :: s =>
    let value := fun s => scanOnce F (s.length + 1) s
    if c = '{' then
      match skipWs s with
      | '}' :: _ => false
      | s => membersHit value (scanHit F room) s.length s
    else if c = '[' then
      match skipWs s with
      | ']' :: _ => false
      | s => elementsHit value (scanHit F room) s.length s
    else overlong (if c = '-' then s else c :: s)

/-- `json.loads` raises a `ValueError` of `int` or a `RecursionError`. -/
def refuses (F : Interpreter) (s : List Char) : Bool := scanHit F F.room (skipWs s)

/-! ## The encoder -/

/-- A hexadecimal digit of `{0:04x}`. -/
def hexChar (n : Nat) : Char := if n < 10 then Char.ofNat (48 + n) else Char.ofNat (87 + n)

/-- `\u{0:04x}`. -/
def unicodeEscape (n : Nat) : List Char :=
  ['\\', 'u', hexChar (n / 4096 % 16), hexChar (n / 256 % 16), hexChar (n / 16 % 16),
    hexChar (n % 16)]

/-- `ESCAPE_ASCII` and what `py_encode_basestring_ascii` puts in its place. -/
def escapeAscii (c : Char) : List Char :=
  if c = '"' then ['\\', '"']
  else if c = '\\' then ['\\', '\\']
  else if c = '\n' then ['\\', 'n']
  else if c = '\r' then ['\\', 'r']
  else if c = '\t' then ['\\', 't']
  else if c = '\x0c' then ['\\', 'f']
  else if c = '\x08' then ['\\', 'b']
  else if ' ' ≤ c ∧ c ≤ '~' then [c]
  else if c.toNat < 0x10000 then unicodeEscape c.toNat
  else unicodeEscape (0xD800 + (c.toNat - 0x10000) / 0x400 % 0x400) ++
    unicodeEscape (0xDC00 + (c.toNat - 0x10000) % 0x400)

/-- A string as JSON text. -/
def quoted (s : List Char) : List Char := '"' :: s.flatMap escapeAscii ++ ['"']

/-- `int.__repr__`. -/
def intText (n : Int) : List Char := minus (n < 0) ++ Nat.toDigits 10 n.natAbs

/-- `floatstr` of the encoder. -/
def floatText (F : FloatText) : PyFloat → List Char
  | .nan => ['N', 'a', 'N']
  | .inf => ['I', 'n', 'f', 'i', 'n', 'i', 't', 'y']
  | .negInf => ['-', 'I', 'n', 'f', 'i', 'n', 'i', 't', 'y']
  | .finite q => F.repr q

mutual

/-- `json.dumps`. -/
def dumps (F : FloatText) : Json → List Char
  | .null => ['n', 'u', 'l', 'l']
  | .bool true => ['t', 'r', 'u', 'e']
  | .bool false => ['f', 'a', 'l', 's', 'e']
  | .int n => intText n
  | .float x => floatText F x
  | .str s => quoted s.toList
  | .arr xs => '[' :: dumpsElements F xs ++ [']']
  | .obj kvs => '{' :: dumpsMembers F kvs ++ ['}']

def dumpsElements (F : FloatText) : List Json → List Char
  | [] => []
  | [x] => dumps F x
  | x :: y :: xs => dumps F x ++ ',' :: ' ' :: dumpsElements F (y :: xs)

def dumpsMembers (F : FloatText) : List (String × Json) → List Char
  | [] => []
  | [(k, x)] => quoted k.toList ++ ':' :: ' ' :: dumps F x
  | (k, x) :: kv :: kvs =>
    quoted k.toList ++ ':' :: ' ' :: dumps F x ++ ',' :: ' ' :: dumpsMembers F (kv :: kvs)

end

end JsonText

end Turbohaul
