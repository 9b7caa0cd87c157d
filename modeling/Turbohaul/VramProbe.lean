/-
# `VramProbe` — whose memory a budget is read from

The parsers of `gpu_backend.py`, and `_vram_budget` over what they give.  A row that does
not parse is dropped, and the budget takes the row at the place of the card's number among
those that are left.  A card is a line of what `nvidia-smi` prints, or an entry of what
`rocm-smi` does, by its place; `json.loads` reads integers of any length here.

  `_parse_csv_ints`    `parseCsvInts`
  `_parse_vram_json`   `parseVramJson`, which can raise an `OverflowError`
  `get_gpu_free_mib`   `Probe.freeMib`
  `Probe.cards`        the row of every card
  `Probe.pinned`       the row that a pin to a card is budgeted by, with its card
  `PerCard`            what is asked of the budget
  `per_card_iff`       exactly when it is so
-/
import Turbohaul.JsonText
import Turbohaul.KeepAlive
import Turbohaul.KvFit

namespace Turbohaul.VramProbe

open KeepAlive JsonText

/-! ## The parsers -/

/-- What a row gives: a value, nothing, or an exception that is not caught. -/
inductive Row (α : Type)
  | reads (x : α)
  | unreadable
  | raises
deriving DecidableEq

def Row.map {α β : Type} (f : α → β) : Row α → Row β
  | .reads x => .reads (f x)
  | .unreadable => .unreadable
  | .raises => .raises

def Row.isRead {α : Type} : Row α → Bool
  | .reads _ => true
  | _ => false

/-- The values of the rows that are read. -/
def gather {α : Type} : List (Row α) → Except String (List α)
  | [] => .ok []
  | .reads x :: rows => (gather rows).map (x :: ·)
  | .unreadable :: rows => gather rows
  | .raises :: _ => .error "OverflowError"

/-- `vals or None`. -/
def orNone {α : Type} (vals : List α) : Option (List α) := if vals.isEmpty then none else some vals

/-- What ends a line. -/
def isLineBreak (c : Char) : Bool :=
  c.toNat ∈ [0x0A, 0x0B, 0x0C, 0x0D, 0x1C, 0x1D, 0x1E, 0x85, 0x2028, 0x2029]

/-- `s.splitlines()`. -/
def splitLines : List Char → List (List Char)
  | [] => []
  | '\r' :: '\n' :: s => [] :: splitLines s
  | c :: s =>
    if isLineBreak c then [] :: splitLines s
    else match splitLines s with
      | [] => [[c]]
      | l :: ls => (c :: l) :: ls

/-- `int(line.strip().split(",")[0].strip())`. -/
def csvRow (line : List Char) : Row Int :=
  match pyInt (strip ((strip line).takeWhile (· ≠ ','))) with
  | some n => .reads n
  | none => .unreadable

/-- The rows of a text. -/
def csvLines (s : List Char) : List (Row Int) := (splitLines s).map csvRow

/-- `_parse_csv_ints`; `none` where the tool could not be run. -/
def parseCsvInts : Option String → Except String (Option (List Int))
  | none => .ok none
  | some raw => (gather (csvLines (strip raw.toList))).map orNone

/-- `int(x)`. -/
def intOf : Json → Row Int
  | .bool b => .reads (if b then 1 else 0)
  | .int n => .reads n
  | .float (.finite q) => .reads (truncate q)
  | .float .nan => .unreadable
  | .float _ => .raises
  | .str s =>
    match pyInt s.toList with
    | some n => .reads n
    | none => .unreadable
  | _ => .unreadable

/-- A device, in MiB. -/
structure Device where
  total : Int
  used : Int
  free : Int
deriving DecidableEq

/-- The device of an entry's `vram`. -/
def deviceRow : Json → Row Device
  | .obj vram =>
    match intOf ((vram.lookup "total").getD (.int 0)) with
    | .unreadable => .unreadable
    | .raises => .raises
    | .reads total =>
      match intOf ((vram.lookup "used").getD (.int 0)) with
      | .unreadable => .unreadable
      | .raises => .raises
      | .reads used => .reads ⟨total / (1024 * 1024), used / (1024 * 1024),
          (total - used) / (1024 * 1024)⟩
  | _ => .unreadable

/-- `val["vram"]`, of an entry that has one. -/
def vramOf : String × Json → Option Json
  | (_, .obj val) => val.lookup "vram"
  | _ => none

/-- The device of an entry. -/
def entryRow (entry : String × Json) : Row Device :=
  match vramOf entry with
  | some vram => deviceRow vram
  | none => .unreadable

/-- The entries of a JSON output; there are none where `json.loads` raises a `ValueError`,
of `int` too. -/
def jsonRows (F : FloatText) : Option String → List (Row Device)
  | none => []
  | some raw =>
    if refuses ⟨F, raw.length⟩ raw.toList then []
    else match loads F raw.toList with
      | some (.obj data) => data.map entryRow
      | _ => []

/-- `_parse_vram_json`. -/
def parseVramJson (F : FloatText) (raw : Option String) : Except String (Option (List Device)) :=
  (gather (jsonRows F raw)).map orNone

/-! ## The budget -/

/-- What the tool of a backend has printed. -/
inductive Probe
  | nvidia (csv : Option String)
  | rocm (json : Option String)

/-- `get_gpu_free_mib`. -/
def Probe.freeMib (F : FloatText) : Probe → Except String (Option (List Int))
  | .nvidia csv => parseCsvInts csv
  | .rocm json => (parseVramJson F json).map fun devs => devs.map fun devs => devs.map (·.free)

/-- `_vram_budget`. -/
def Probe.vramBudget (F : FloatText) (P : Probe) (splitMode : String) (mainGpu : Int) :
    Except String (Option (Int × Int × Nat)) :=
  (P.freeMib F).map fun vals => KvFit.vramBudget vals splitMode mainGpu

/-! ## Readings with their cards -/

/-- The row of every card: the lines as they are printed, the entries as they are read. -/
def Probe.cards (F : FloatText) : Probe → List (Row Int)
  | .nvidia csv => csv.elim [] fun raw => csvLines raw.toList
  | .rocm json => (jsonRows F json).map (Row.map Device.free)

/-- A value, and the card it was read from. -/
structure Reading where
  card : Nat
  mib : Int
deriving DecidableEq

/-- The rows with the numbers of their cards, from `k` on. -/
def numbered : Nat → List (Row Int) → List (Row Reading)
  | _, [] => []
  | k, r :: rows => r.map (⟨k, ·⟩) :: numbered (k + 1) rows

/-- The value that a pin to `mainGpu` takes. -/
def pick {α : Type} (vals : List α) (mainGpu : Int) : Option α :=
  vals[if 0 ≤ mainGpu ∧ mainGpu < vals.length then mainGpu.toNat else 0]?

/-- The reading that a pin is budgeted by: what the code does to the rows, done to rows that
carry their cards. -/
def Probe.pinned (F : FloatText) (P : Probe) (mainGpu : Int) : Except String (Option Reading) :=
  (gather (numbered 0 (P.cards F))).map fun vals => pick vals mainGpu

/-- The budget of a pin to a card that exists is read from that card, and that of a split
from every card at most once. -/
structure PerCard (F : FloatText) (P : Probe) (g : Nat) : Prop where
  own : g < (P.cards F).length → ∀ r, P.pinned F g = .ok (some r) → r.card = g
  number : g < (P.cards F).length →
    ∀ free least n, P.vramBudget F "none" g = .ok (some (free, least, n)) →
      (P.cards F)[g]? = some (.reads free) ∧ least = free ∧ n = 1
  aggregate : ∀ splitMode, (if splitMode = "" then "layer" else splitMode).toLower ≠ "none" →
    ∀ free least n, P.vramBudget F splitMode g = .ok (some (free, least, n)) →
      ∃ readings : List Reading, (readings.map (·.card)).Nodup ∧
        (∀ r ∈ readings, (P.cards F)[r.card]? = some (.reads r.mib)) ∧
        free = (readings.map (·.mib)).sum ∧ n = readings.length

/-- The rows up to a card's are all read; or its row is the first that is, and it stands
beyond as many as are. -/
def InPlace (rows : List (Row Int)) (g : Nat) : Prop :=
  (∀ i ≤ g, ∃ n, rows[i]? = some (.reads n)) ∨
    ((∃ n, rows[g]? = some (.reads n)) ∧ (∀ i < g, ∀ n, rows[i]? ≠ some (.reads n)) ∧
      rows.countP Row.isRead ≤ g)

/-! ## Gathering -/

theorem gather_map {α β : Type} (f : α → β) (rows : List (Row α)) :
    gather (rows.map (Row.map f)) = (gather rows).map (List.map f) := by
  induction rows with
  | nil => rfl
  | cons r rows ih =>
    cases r with
    | raises => rfl
    | unreadable => exact ih
    | reads x =>
      rw [List.map_cons, Row.map, gather, gather, ih]
      cases gather rows with
      | error e => rfl
      | ok xs => rfl

theorem orNone_map {α β : Type} (f : α → β) (xs : List α) :
    orNone (xs.map f) = (orNone xs).map (List.map f) := by
  cases xs with
  | nil => rfl
  | cons x xs => rfl

/-! ## Lines -/

/-- A text of whitespace. -/
def Blank (s : List Char) : Prop := ∀ c ∈ s, pyIsSpace c = true

theorem strip_append {s pad : List Char} (hpad : Blank pad) : strip (s ++ pad) = strip s := by
  induction pad using List.reverseRecOn generalizing s with
  | nil => rw [List.append_nil]
  | append_singleton pad c ih =>
    have hc : pyIsSpace c = true := hpad c (List.mem_append_right _ (List.mem_singleton_self c))
    have hrest : Blank pad := fun c' h => hpad c' (List.mem_append_left _ h)
    refine Eq.trans ?_ (ih hrest)
    rw [← List.append_assoc, strip_eq, strip_eq, trim, trim, List.dropWhile_append]
    split
    · rename_i hall
      rw [List.dropWhile_cons_of_pos hc, List.isEmpty_iff.mp hall]
      rfl
    · exact List.rdropWhile_concat_pos _ _ _ hc

theorem csvRow_cons {c : Char} (hc : pyIsSpace c = true) (l : List Char) :
    csvRow (c :: l) = csvRow l := by
  have hstrip : strip (c :: l) = strip l := by
    rw [strip, List.dropWhile_cons_of_pos hc, ← strip]
  rw [csvRow, csvRow, hstrip]

theorem csvRow_append {l pad : List Char} (hpad : Blank pad) : csvRow (l ++ pad) = csvRow l := by
  rw [csvRow, csvRow, strip_append hpad]

theorem csvRow_blank {l : List Char} (hl : Blank l) : csvRow l = .unreadable :=
  csvRow_append (l := []) hl

theorem isLineBreak_space {c : Char} (h : isLineBreak c = true) : pyIsSpace c = true := by
  unfold isLineBreak at h
  unfold pyIsSpace
  simp only [List.mem_cons, List.not_mem_nil, or_false, decide_eq_true_eq] at h
  rcases h with h | h | h | h | h | h | h | h | h | h <;> rw [h] <;> decide

theorem gather_blank {α : Type} {rows : List (Row α)} (h : ∀ r ∈ rows, r = .unreadable)
    (rows' : List (Row α)) : gather (rows ++ rows') = gather rows' := by
  induction rows with
  | nil => rfl
  | cons r rows ih =>
    rw [h r List.mem_cons_self]
    exact ih fun r' hr' => h r' (List.mem_cons_of_mem _ hr')

theorem mem_splitLines {s l : List Char} (hl : l ∈ splitLines s) {c : Char} (hc : c ∈ l) :
    c ∈ s := by
  fun_induction splitLines s generalizing l with
  | case1 => cases hl
  | case2 s ih =>
    rcases List.mem_cons.mp hl with rfl | hl
    · cases hc
    · exact List.mem_cons_of_mem _ (List.mem_cons_of_mem _ (ih hl hc))
  | case3 c' s _ hbreak ih =>
    rcases List.mem_cons.mp hl with rfl | hl
    · cases hc
    · exact List.mem_cons_of_mem _ (ih hl hc)
  | case4 c' s _ hbreak hnil ih =>
    cases List.mem_singleton.mp hl
    cases List.mem_singleton.mp hc
    exact List.mem_cons_self
  | case5 c' s _ hbreak l' ls hlines ih =>
    rcases List.mem_cons.mp hl with rfl | hl
    · rcases List.mem_cons.mp hc with rfl | hc
      · exact List.mem_cons_self
      · exact List.mem_cons_of_mem _ (ih (hlines ▸ List.mem_cons_self) hc)
    · exact List.mem_cons_of_mem _ (ih (hlines ▸ List.mem_cons_of_mem _ hl) hc)

/-- Lines, and the same with whitespace behind the last of them, and blank ones after it. -/
def Padded (lines lines' : List (List Char)) : Prop :=
  ∃ blank : List (List Char), (∀ l ∈ blank, Blank l) ∧
    ((lines = [] ∧ lines' = blank) ∨
      ∃ init last pad, lines = init ++ [last] ∧ Blank pad ∧ lines' = init ++ (last ++ pad) :: blank)

theorem blank_nil : Blank [] := fun _ h => by cases h

theorem Padded.cons {lines lines' : List (List Char)} (h : Padded lines lines') :
    Padded ([] :: lines) ([] :: lines') := by
  obtain ⟨blank, hblank, ⟨rfl, rfl⟩ | ⟨init, last, pad, rfl, hpad, rfl⟩⟩ := h
  · exact ⟨_, hblank, .inr ⟨[], [], [], rfl, blank_nil, rfl⟩⟩
  · exact ⟨blank, hblank, .inr ⟨[] :: init, last, pad, rfl, hpad, rfl⟩⟩

theorem splitLines_break {c : Char} {s : List Char} (h : ¬ (c = '\r' ∧ ∃ s', s = '\n' :: s'))
    (hbreak : isLineBreak c = true) : splitLines (c :: s) = [] :: splitLines s := by
  rw [splitLines]
  · exact if_pos hbreak
  · rintro s' rfl rfl
    exact h ⟨rfl, s', rfl⟩

theorem splitLines_nil {c : Char} {s : List Char} (hbreak : ¬ isLineBreak c = true)
    (hs : splitLines s = []) : splitLines (c :: s) = [[c]] := by
  rw [splitLines]
  · rw [if_neg hbreak, hs]
  · rintro s' rfl -
    exact hbreak (by decide)

theorem splitLines_cons {c : Char} {s : List Char} (hbreak : ¬ isLineBreak c = true)
    {l : List Char} {ls : List (List Char)} (hs : splitLines s = l :: ls) :
    splitLines (c :: s) = (c :: l) :: ls := by
  rw [splitLines]
  · rw [if_neg hbreak, hs]
  · rintro s' rfl -
    exact hbreak (by decide)

/-- Only of the empty text there is no line. -/
theorem splitLines_ne_nil {s : List Char} (hs : s ≠ []) : splitLines s ≠ [] := by
  induction s using splitLines.induct with
  | case1 => exact absurd rfl hs
  | case2 s _ => exact List.cons_ne_nil _ _
  | case3 c s hcr hbreak _ =>
    rw [splitLines_break (fun ⟨hc, s', hs'⟩ => hcr s' hc hs') hbreak]
    exact List.cons_ne_nil _ _
  | case4 c s hcr hbreak hnil _ =>
    rw [splitLines_nil hbreak hnil]
    exact List.cons_ne_nil _ _
  | case5 c s hcr hbreak l ls hlines _ =>
    rw [splitLines_cons hbreak hlines]
    exact List.cons_ne_nil _ _

theorem splitLines_append {w : List Char} (hw : Blank w) (s : List Char) :
    Padded (splitLines s) (splitLines (s ++ w)) := by
  have hblank : ∀ {t : List Char}, Blank t → ∀ l ∈ splitLines t, Blank l :=
    fun ht l hl c hc => ht c (mem_splitLines hl hc)
  induction s using splitLines.induct with
  | case1 => exact ⟨splitLines w, hblank hw, .inl ⟨rfl, rfl⟩⟩
  | case2 s ih => exact ih.cons
  | case3 c s hcr hbreak ih =>
    rw [splitLines_break (fun ⟨hc, s', hs'⟩ => hcr s' hc hs') hbreak, List.cons_append]
    by_cases hjoin : c = '\r' ∧ ∃ w', s ++ w = '\n' :: w'
    · -- the rest begins with the second half of a line break
      obtain ⟨rfl, w', hw'⟩ := hjoin
      cases s with
      | cons d s =>
        cases hw'
        exact absurd rfl (hcr s rfl)
      | nil =>
        rw [List.nil_append] at hw'
        subst hw'
        exact ⟨splitLines w', hblank fun d hd => hw d (List.mem_cons_of_mem _ hd),
          .inr ⟨[], [], [], rfl, blank_nil, rfl⟩⟩
    · rw [splitLines_break hjoin hbreak]
      exact ih.cons
  | case4 c s hcr hbreak hnil ih =>
    have hs : s = [] := by
      by_contra hne
      exact splitLines_ne_nil hne hnil
    subst hs
    rw [splitLines_nil hbreak hnil, List.singleton_append]
    cases hw' : splitLines w with
    | nil =>
      rw [splitLines_nil hbreak hw']
      exact ⟨[], (fun _ h => by cases h), .inr ⟨[], [c], [], rfl, blank_nil, rfl⟩⟩
    | cons l ls =>
      rw [splitLines_cons hbreak hw']
      have hall := hblank hw
      rw [hw'] at hall
      exact ⟨ls, fun l' hl' => hall l' (List.mem_cons_of_mem _ hl'),
        .inr ⟨[], [c], l, rfl, hall l List.mem_cons_self, rfl⟩⟩
  | case5 c s hcr hbreak l ls hlines ih =>
    rw [hlines] at ih
    obtain ⟨blank, hb, ⟨hnil, -⟩ | ⟨init, last, pad, hsplit, hpad, hrest⟩⟩ := ih
    · cases hnil
    · rw [splitLines_cons hbreak hlines, List.cons_append]
      cases init with
      | nil =>
        cases hsplit
        rw [splitLines_cons hbreak hrest]
        exact ⟨blank, hb, .inr ⟨[], c :: l, pad, rfl, hpad, rfl⟩⟩
      | cons l' init =>
        cases hsplit
        rw [splitLines_cons hbreak hrest]
        exact ⟨blank, hb, .inr ⟨(c :: l) :: init, last, pad, rfl, hpad, rfl⟩⟩

theorem gather_append_blank {α : Type} (rows : List (Row α)) {rows' : List (Row α)}
    (h : ∀ r ∈ rows', r = .unreadable) : gather (rows ++ rows') = gather rows := by
  induction rows with
  | nil =>
    have hnil := gather_blank h []
    rwa [List.append_nil] at hnil
  | cons r rows ih =>
    cases r with
    | raises => rfl
    | unreadable => exact ih
    | reads x => rw [List.cons_append, gather, ih, gather]

theorem gather_append {s w : List Char} (hw : Blank w) :
    gather (csvLines (s ++ w)) = gather (csvLines s) := by
  obtain ⟨blank, hblank, ⟨hs, hsw⟩ | ⟨init, last, pad, hs, hpad, hsw⟩⟩ := splitLines_append hw s
  · have hrows : ∀ r ∈ blank.map csvRow, r = .unreadable := by
      intro r hr
      obtain ⟨l, hl, rfl⟩ := List.mem_map.mp hr
      exact csvRow_blank (hblank l hl)
    rw [csvLines, csvLines, hs, hsw]
    exact gather_append_blank [] hrows
  · have hrows : ∀ r ∈ blank.map csvRow, r = .unreadable := by
      intro r hr
      obtain ⟨l, hl, rfl⟩ := List.mem_map.mp hr
      exact csvRow_blank (hblank l hl)
    have hsplit : (init ++ (last ++ pad) :: blank).map csvRow =
        (init ++ [last]).map csvRow ++ blank.map csvRow := by
      simp only [List.map_append, List.map_cons, List.map_nil, csvRow_append hpad,
        List.append_assoc, List.singleton_append]
    rw [csvLines, csvLines, hs, hsw, hsplit, gather_append_blank _ hrows]

theorem csvLines_break {s s' : List Char} (h : splitLines s = [] :: splitLines s') :
    gather (csvLines s) = gather (csvLines s') := by
  rw [csvLines, h, List.map_cons, csvRow_blank blank_nil]
  rfl

theorem gather_dropWhile (s : List Char) :
    gather (csvLines (s.dropWhile pyIsSpace)) = gather (csvLines s) := by
  induction s using splitLines.induct with
  | case1 => rfl
  | case2 s ih => exact ih.trans (csvLines_break rfl).symm
  | case3 c s hcr hbreak ih =>
    have hlines := splitLines_break (fun ⟨hc, s', hs'⟩ => hcr s' hc hs') hbreak
    rw [List.dropWhile_cons_of_pos (isLineBreak_space hbreak), ih, csvLines_break hlines]
  | case4 c s hcr hbreak hnil ih =>
    by_cases hc : pyIsSpace c = true
    · have hblank : Blank [c] := fun c' h => List.mem_singleton.mp h ▸ hc
      rw [List.dropWhile_cons_of_pos hc, ih, csvLines, csvLines, splitLines_nil hbreak hnil, hnil,
        List.map_singleton, csvRow_blank hblank]
      rfl
    · rw [List.dropWhile_cons_of_neg hc]
  | case5 c s hcr hbreak l ls hlines ih =>
    by_cases hc : pyIsSpace c = true
    · rw [List.dropWhile_cons_of_pos hc, ih, csvLines, csvLines, splitLines_cons hbreak hlines,
        hlines, List.map_cons, List.map_cons, csvRow_cons hc]
    · rw [List.dropWhile_cons_of_neg hc]

/-- What is stripped off an output before it is split are blank rows, and ends of rows. -/
theorem gather_strip (s : List Char) : gather (csvLines (strip s)) = gather (csvLines s) := by
  have hsplit : strip s ++ (s.dropWhile pyIsSpace).rtakeWhile pyIsSpace = s.dropWhile pyIsSpace :=
    List.rdropWhile_append_rtakeWhile
  have hblank : Blank ((s.dropWhile pyIsSpace).rtakeWhile pyIsSpace) :=
    fun c hc => List.mem_rtakeWhile_imp hc
  rw [← gather_dropWhile s, ← hsplit, gather_append hblank]

/-- The free memory is that of the cards that are read. -/
theorem freeMib_eq (F : FloatText) (P : Probe) :
    P.freeMib F = (gather (P.cards F)).map orNone := by
  cases P with
  | nvidia csv =>
    cases csv with
    | none => rfl
    | some raw =>
      show (gather (csvLines (strip raw.toList))).map orNone =
        (gather (csvLines raw.toList)).map orNone
      rw [gather_strip]
  | rocm json =>
    rw [Probe.freeMib, parseVramJson, Probe.cards, gather_map]
    cases gather (jsonRows F json) with
    | error e => rfl
    | ok devs => exact congrArg Except.ok (orNone_map Device.free devs).symm

theorem numbered_mib (k : Nat) (rows : List (Row Int)) :
    (numbered k rows).map (Row.map Reading.mib) = rows := by
  induction rows generalizing k with
  | nil => rfl
  | cons r rows ih =>
    rw [numbered, List.map_cons, ih]
    cases r with
    | raises => rfl
    | unreadable => rfl
    | reads n => rfl

/-- The cards do not change what is gathered. -/
theorem gather_numbered (rows : List (Row Int)) :
    gather rows = (gather (numbered 0 rows)).map (List.map Reading.mib) := by
  rw [← gather_map, numbered_mib]

/-! ## The rows that are read -/

/-- The readings of the rows, from card `k` on. -/
def readings : Nat → List (Row Int) → List Reading
  | _, [] => []
  | k, .reads n :: rows => ⟨k, n⟩ :: readings (k + 1) rows
  | k, _ :: rows => readings (k + 1) rows

theorem gather_ok {rows : List (Row Int)} (h : Row.raises ∉ rows) (k : Nat) :
    gather (numbered k rows) = .ok (readings k rows) := by
  induction rows generalizing k with
  | nil => rfl
  | cons r rows ih =>
    have htail := ih (fun hmem => h (List.mem_cons_of_mem _ hmem)) (k + 1)
    cases r with
    | raises => exact absurd List.mem_cons_self h
    | unreadable => exact htail
    | reads n =>
      rw [numbered, Row.map, gather, htail]
      rfl

theorem gather_raises {rows : List (Row Int)} (h : Row.raises ∈ rows) (k : Nat) :
    ∃ e, gather (numbered k rows) = .error e := by
  induction rows generalizing k with
  | nil => exact absurd h List.not_mem_nil
  | cons r rows ih =>
    cases r with
    | raises => exact ⟨_, rfl⟩
    | unreadable => exact ih ((List.mem_cons.mp h).resolve_left (by rintro ⟨⟩)) (k + 1)
    | reads n =>
      obtain ⟨e, he⟩ := ih ((List.mem_cons.mp h).resolve_left (by rintro ⟨⟩)) (k + 1)
      refine ⟨e, ?_⟩
      rw [numbered, Row.map, gather, he]
      rfl

theorem mem_readings {rows : List (Row Int)} {k : Nat} {r : Reading} (h : r ∈ readings k rows) :
    ∃ i, r.card = k + i ∧ rows[i]? = some (.reads r.mib) := by
  induction rows generalizing k with
  | nil => exact absurd h List.not_mem_nil
  | cons row rows ih =>
    have later : r ∈ readings (k + 1) rows →
        ∃ i, r.card = k + i ∧ (row :: rows)[i]? = some (.reads r.mib) := by
      intro h
      obtain ⟨i, hi, hrow⟩ := ih h
      exact ⟨i + 1, by omega, hrow⟩
    cases row with
    | raises => exact later h
    | unreadable => exact later h
    | reads n =>
      rcases List.mem_cons.mp h with rfl | h
      · exact ⟨0, rfl, rfl⟩
      · exact later h

/-- No card is read twice. -/
theorem readings_nodup (k : Nat) (rows : List (Row Int)) :
    ((readings k rows).map (·.card)).Nodup := by
  induction rows generalizing k with
  | nil => exact List.nodup_nil
  | cons row rows ih =>
    cases row with
    | raises => exact ih (k + 1)
    | unreadable => exact ih (k + 1)
    | reads n =>
      refine List.nodup_cons.mpr ⟨fun hmem => ?_, ih (k + 1)⟩
      obtain ⟨r, hr, hcard⟩ := List.mem_map.mp hmem
      obtain ⟨i, hi, -⟩ := mem_readings hr
      have hk : r.card = k := hcard
      omega

theorem readings_length (k : Nat) (rows : List (Row Int)) :
    (readings k rows).length = rows.countP Row.isRead := by
  induction rows generalizing k with
  | nil => rfl
  | cons row rows ih =>
    cases row with
    | raises => exact (ih (k + 1)).trans (List.countP_cons_of_neg Bool.false_ne_true).symm
    | unreadable => exact (ih (k + 1)).trans (List.countP_cons_of_neg Bool.false_ne_true).symm
    | reads n => rw [readings, List.length_cons, ih, List.countP_cons_of_pos rfl]

/-- The readings stand no later than their cards. -/
theorem card_ge {rows : List (Row Int)} {k g : Nat} {r : Reading}
    (h : (readings k rows)[g]? = some r) : k + g ≤ r.card := by
  induction rows generalizing k g with
  | nil => cases h
  | cons row rows ih =>
    cases row with
    | raises =>
      have hge := ih h
      omega
    | unreadable =>
      have hge := ih h
      omega
    | reads n =>
      cases g with
      | zero =>
        obtain rfl := Option.some.inj h
        exact Nat.le_refl _
      | succ g =>
        have hge := ih (k := k + 1) (g := g) h
        omega

/-- The `g`-th reading is that of the `g`-th card, if none before it is dropped. -/
theorem nth_own_iff {rows : List (Row Int)} {k g : Nat} :
    (∃ r, (readings k rows)[g]? = some r ∧ r.card = k + g) ↔
      ∀ i ≤ g, ∃ n, rows[i]? = some (.reads n) := by
  induction rows generalizing k g with
  | nil =>
    refine ⟨?_, fun h => ?_⟩
    · rintro ⟨r, hr, -⟩
      cases hr
    · obtain ⟨n, hn⟩ := h 0 (Nat.zero_le g)
      cases hn
  | cons row rows ih =>
    -- a row that is dropped moves the later ones
    have dropped : (∀ n, row ≠ .reads n) → readings k (row :: rows) = readings (k + 1) rows →
        ((∃ r, (readings k (row :: rows))[g]? = some r ∧ r.card = k + g) ↔
          ∀ i ≤ g, ∃ n, (row :: rows)[i]? = some (.reads n)) := by
      intro hrow heq
      rw [heq]
      refine ⟨?_, fun h => ?_⟩
      · rintro ⟨r, hr, hcard⟩
        have hge := card_ge hr
        omega
      · obtain ⟨n, hn⟩ := h 0 (Nat.zero_le g)
        exact absurd (Option.some.inj hn) (hrow n)
    cases row with
    | raises => exact dropped (by rintro _ ⟨⟩) rfl
    | unreadable => exact dropped (by rintro _ ⟨⟩) rfl
    | reads n =>
      cases g with
      | zero =>
        refine ⟨fun _ i hi => ?_, fun _ => ⟨⟨k, n⟩, rfl, rfl⟩⟩
        obtain rfl := Nat.le_zero.mp hi
        exact ⟨n, rfl⟩
      | succ g =>
        have hadd : k + (g + 1) = k + 1 + g := by omega
        rw [hadd]
        refine ih.trans ⟨fun h i hi => ?_, fun h i hi => h (i + 1) (Nat.succ_le_succ hi)⟩
        cases i with
        | zero => exact ⟨n, rfl⟩
        | succ i => exact h i (Nat.le_of_succ_le_succ hi)

/-- The first reading is that of card `g`, if no row before that of `g` is read. -/
theorem first_own_iff {rows : List (Row Int)} {k g : Nat} :
    (∃ r, (readings k rows)[0]? = some r ∧ r.card = k + g) ↔
      (∃ n, rows[g]? = some (.reads n)) ∧ ∀ i < g, ∀ n, rows[i]? ≠ some (.reads n) := by
  induction rows generalizing k g with
  | nil =>
    refine ⟨?_, ?_⟩
    · rintro ⟨r, hr, -⟩
      cases hr
    · rintro ⟨⟨n, hn⟩, -⟩
      cases hn
  | cons row rows ih =>
    have dropped : (∀ n, row ≠ .reads n) → readings k (row :: rows) = readings (k + 1) rows →
        ((∃ r, (readings k (row :: rows))[0]? = some r ∧ r.card = k + g) ↔
          (∃ n, (row :: rows)[g]? = some (.reads n)) ∧
            ∀ i < g, ∀ n, (row :: rows)[i]? ≠ some (.reads n)) := by
      intro hrow heq
      rw [heq]
      cases g with
      | zero =>
        refine ⟨?_, ?_⟩
        · rintro ⟨r, hr, hcard⟩
          have hge := card_ge hr
          omega
        · rintro ⟨⟨n, hn⟩, -⟩
          exact absurd (Option.some.inj hn) (hrow n)
      | succ g =>
        have hadd : k + (g + 1) = k + 1 + g := by omega
        rw [hadd]
        refine ih.trans (and_congr_right fun _ => ⟨fun h i hi => ?_, fun h i hi => ?_⟩)
        · cases i with
          | zero => exact fun n hn => hrow n (Option.some.inj hn)
          | succ i => exact h i (Nat.lt_of_succ_lt_succ hi)
        · exact h (i + 1) (Nat.succ_lt_succ hi)
    cases row with
    | raises => exact dropped (by rintro _ ⟨⟩) rfl
    | unreadable => exact dropped (by rintro _ ⟨⟩) rfl
    | reads n =>
      refine ⟨?_, ?_⟩
      · rintro ⟨r, hr, hcard⟩
        obtain rfl := Option.some.inj hr
        have hzero : g = 0 := Nat.add_left_cancel hcard.symm
        subst hzero
        exact ⟨⟨n, rfl⟩, fun i hi => absurd hi (Nat.not_lt_zero i)⟩
      · rintro ⟨-, hnone⟩
        cases g with
        | zero => exact ⟨⟨k, n⟩, rfl, rfl⟩
        | succ g => exact absurd rfl (hnone 0 (Nat.succ_pos g) n)

/-! ## The budget -/

theorem pick_map {α β : Type} (f : α → β) (vals : List α) (mainGpu : Int) :
    pick (vals.map f) mainGpu = (pick vals mainGpu).map f := by
  rw [pick, List.length_map, List.getElem?_map, pick]

theorem pick_lt {α : Type} {vals : List α} {g : Nat} (h : g < vals.length) :
    pick vals g = vals[g]? := by
  rw [pick, if_pos ⟨Int.natCast_nonneg g, Int.ofNat_lt.mpr h⟩, Int.toNat_natCast]

theorem pick_ge {α : Type} {vals : List α} {g : Nat} (h : vals.length ≤ g) :
    pick vals g = vals[0]? := by
  rw [pick, if_neg fun hlt => absurd (Int.ofNat_lt.mp hlt.2) (Nat.not_lt.mpr h)]

/-- A pin takes one of the values. -/
theorem budget_none (vals : List Int) (mainGpu : Int) :
    KvFit.vramBudget (orNone vals) "none" mainGpu =
      (pick vals mainGpu).map fun v => (v, v, 1) := by
  cases vals with
  | nil => rfl
  | cons v vs =>
    have hmode : (if "none" = "" then "layer" else "none").toLower = "none" := by decide +kernel
    have hlt : (if 0 ≤ mainGpu ∧ mainGpu < (v :: vs).length then mainGpu.toNat else 0) <
        (v :: vs).length := by
      split
      · rename_i hin
        omega
      · exact Nat.succ_pos _
    rw [orNone, List.isEmpty_cons, if_neg Bool.false_ne_true, KvFit.vramBudget]
    dsimp only
    rw [if_pos hmode, pick, List.getD_eq_getElem?_getD, List.getElem?_eq_getElem hlt]
    rfl

/-- The budget of a pin is the value of the reading it picks. -/
theorem vramBudget_none (F : FloatText) (P : Probe) (mainGpu : Int) :
    P.vramBudget F "none" mainGpu =
      (P.pinned F mainGpu).map fun r => r.map fun r => (r.mib, r.mib, 1) := by
  rw [Probe.vramBudget, freeMib_eq, gather_numbered, Probe.pinned]
  cases gather (numbered 0 (P.cards F)) with
  | error e => rfl
  | ok rs =>
    show Except.ok (KvFit.vramBudget (orNone (rs.map Reading.mib)) "none" mainGpu) =
      Except.ok ((pick rs mainGpu).map fun r => (r.mib, r.mib, 1))
    rw [budget_none, pick_map, Option.map_map]
    rfl

theorem pinned_cases (F : FloatText) (P : Probe) (mainGpu : Int) :
    (Row.raises ∈ P.cards F ∧ ∃ e, P.pinned F mainGpu = .error e) ∨
      (Row.raises ∉ P.cards F ∧
        P.pinned F mainGpu = .ok (pick (readings 0 (P.cards F)) mainGpu)) := by
  by_cases h : Row.raises ∈ P.cards F
  · obtain ⟨e, he⟩ := gather_raises h 0
    refine .inl ⟨h, e, ?_⟩
    rw [Probe.pinned, he]
    rfl
  · refine .inr ⟨h, ?_⟩
    rw [Probe.pinned, gather_ok h]
    rfl

/-- What is picked was read from its card. -/
theorem pick_mem {α : Type} {vals : List α} {mainGpu : Int} {x : α}
    (h : pick vals mainGpu = some x) : x ∈ vals :=
  List.mem_of_getElem? h

theorem pinned_row {F : FloatText} {P : Probe} {mainGpu : Int} {r : Reading}
    (h : P.pinned F mainGpu = .ok (some r)) : (P.cards F)[r.card]? = some (.reads r.mib) := by
  rcases pinned_cases F P mainGpu with ⟨-, e, he⟩ | ⟨-, hp⟩
  · rw [he] at h
    cases h
  · rw [hp] at h
    obtain ⟨i, hi, hrow⟩ := mem_readings (pick_mem (Except.ok.inj h))
    rw [Nat.zero_add] at hi
    rw [hi]
    exact hrow

/-- A split is budgeted by every reading, once. -/
theorem aggregate_once {F : FloatText} {P : Probe} {splitMode : String} {mainGpu : Int}
    (hmode : (if splitMode = "" then "layer" else splitMode).toLower ≠ "none")
    {free least : Int} {n : Nat}
    (h : P.vramBudget F splitMode mainGpu = .ok (some (free, least, n))) :
    ∃ rs : List Reading, (rs.map (·.card)).Nodup ∧
      (∀ r ∈ rs, (P.cards F)[r.card]? = some (.reads r.mib)) ∧
      free = (rs.map (·.mib)).sum ∧ n = rs.length := by
  rw [Probe.vramBudget, freeMib_eq, gather_numbered] at h
  by_cases hraise : Row.raises ∈ P.cards F
  · obtain ⟨e, he⟩ := gather_raises hraise 0
    rw [he] at h
    cases h
  · rw [gather_ok hraise] at h
    refine ⟨readings 0 (P.cards F), readings_nodup 0 _, fun r hr => ?_, ?_⟩
    · obtain ⟨i, hi, hrow⟩ := mem_readings hr
      rw [Nat.zero_add] at hi
      rw [hi]
      exact hrow
    · have hbudget : KvFit.vramBudget (orNone ((readings 0 (P.cards F)).map Reading.mib)) splitMode
          mainGpu = some (free, least, n) := Except.ok.inj h
      cases hrs : readings 0 (P.cards F) with
      | nil =>
        rw [hrs] at hbudget
        cases hbudget
      | cons r rs =>
        rw [hrs, List.map_cons, orNone, List.isEmpty_cons, if_neg Bool.false_ne_true,
          KvFit.vramBudget] at hbudget
        dsimp only at hbudget
        rw [if_neg hmode] at hbudget
        have hsome := Option.some.inj hbudget
        have hlength : n = ((r :: rs).map Reading.mib).length :=
          (congrArg (fun b => b.2.2) hsome).symm
        exact ⟨(congrArg Prod.fst hsome).symm, hlength.trans (List.length_map _)⟩

/-! ## Its own card -/

/-- What is picked is the card's own, exactly if its row has not moved. -/
theorem pick_own_iff (rows : List (Row Int)) (g : Nat) :
    (∀ r, pick (readings 0 rows) g = some r → r.card = g) ↔
      (∀ r ∈ rows, r.isRead = false) ∨ InPlace rows g := by
  have hcount := readings_length 0 rows
  -- a reading that is picked is the card's own
  have own : ∀ {o : Option Reading}, o ≠ none →
      ((∀ r, o = some r → r.card = g) ↔ ∃ r, o = some r ∧ r.card = 0 + g) := by
    intro o ho
    obtain ⟨r, rfl⟩ := Option.ne_none_iff_exists'.mp ho
    rw [Nat.zero_add]
    refine ⟨fun h => ⟨r, rfl, h r rfl⟩, ?_⟩
    rintro ⟨r', hr', hcard⟩ r'' hr''
    rw [Option.some.inj hr''.symm, Option.some.inj hr', hcard]
  by_cases hnone : ∀ r ∈ rows, r.isRead = false
  · have hzero : rows.countP Row.isRead = 0 := by
      rw [List.countP_eq_zero]
      intro r hr
      rw [hnone r hr]
      exact Bool.false_ne_true
    have hnil : readings 0 rows = [] := List.length_eq_zero_iff.mp (hcount.trans hzero)
    refine ⟨fun _ => .inl hnone, fun _ r hr => ?_⟩
    rw [hnil] at hr
    cases hr
  · have hpos : 0 < (readings 0 rows).length := by
      rw [hcount, List.countP_pos_iff]
      by_contra hno
      refine hnone fun r hr => ?_
      cases hread : r.isRead with
      | false => rfl
      | true => exact absurd ⟨r, hr, hread⟩ hno
    rw [or_iff_right hnone, InPlace]
    by_cases hg : g < (readings 0 rows).length
    · have hsome : (readings 0 rows)[g]? ≠ none := by
        rw [List.getElem?_eq_getElem hg]
        intro h
        cases h
      rw [pick_lt hg, own hsome, nth_own_iff, or_iff_left]
      rintro ⟨-, -, hle⟩
      omega
    · have hge := Nat.not_lt.mp hg
      have hsome : (readings 0 rows)[0]? ≠ none := by
        rw [List.getElem?_eq_getElem hpos]
        intro h
        cases h
      rw [pick_ge hge, own hsome, first_own_iff, or_iff_right]
      · rw [← hcount]
        exact ⟨fun h => ⟨h.1, h.2, hge⟩, fun h => ⟨h.1, h.2.1⟩⟩
      · intro hall
        obtain ⟨r, hr, -⟩ := (nth_own_iff (k := 0)).mpr hall
        rw [List.getElem?_eq_none hge] at hr
        cases hr

/-- The budget of card `g` is its own, exactly if there is no such card, or the probe
raises, reads nothing, or drops no row that matters. -/
theorem per_card_iff (F : FloatText) (P : Probe) (g : Nat) :
    PerCard F P g ↔
      (P.cards F).length ≤ g ∨ Row.raises ∈ P.cards F ∨ (∀ r ∈ P.cards F, r.isRead = false) ∨
        InPlace (P.cards F) g := by
  have hown : (∀ r, P.pinned F g = .ok (some r) → r.card = g) ↔
      Row.raises ∈ P.cards F ∨ (∀ r ∈ P.cards F, r.isRead = false) ∨
        InPlace (P.cards F) g := by
    rcases pinned_cases F P g with ⟨hraise, e, he⟩ | ⟨hraise, hp⟩
    · refine ⟨fun _ => .inl hraise, fun _ r hr => ?_⟩
      rw [he] at hr
      cases hr
    · rw [or_iff_right hraise, ← pick_own_iff, hp]
      exact ⟨fun h r hr => h r (congrArg Except.ok hr), fun h r hr => h r (Except.ok.inj hr)⟩
  constructor
  · intro h
    rcases Nat.lt_or_ge g (P.cards F).length with hg | hg
    · exact .inr (hown.mp (h.own hg))
    · exact .inl hg
  · intro h
    have hcard : g < (P.cards F).length → ∀ r, P.pinned F g = .ok (some r) → r.card = g :=
      fun hg => hown.mpr (h.resolve_left (Nat.not_le.mpr hg))
    refine ⟨hcard, fun hg free least n hb => ?_, fun splitMode hmode free least n hb =>
      aggregate_once hmode hb⟩
    rw [vramBudget_none] at hb
    cases hp : P.pinned F g with
    | error e =>
      rw [hp] at hb
      cases hb
    | ok o =>
      rw [hp] at hb
      cases o with
      | none => cases hb
      | some r =>
        have hsome := Option.some.inj (Except.ok.inj hb)
        have hrow := pinned_row hp
        rw [hcard hg r hp] at hrow
        obtain ⟨hfree, hrest⟩ := Prod.mk.inj hsome
        obtain ⟨hleast, hn⟩ := Prod.mk.inj hrest
        exact ⟨hfree ▸ hrow, hleast.symm.trans hfree, hn.symm⟩

/-- Card 1 has 300 MiB free, and is budgeted by the 24000 of card 2. -/
theorem unreadable_moves_rows :
    ¬ ∀ (F : FloatText) (P : Probe) (g : Nat) (free least : Int) (n : Nat),
      g < (P.cards F).length → P.vramBudget F "none" g = .ok (some (free, least, n)) →
        (P.cards F)[g]? = some (.reads free) := by
  intro h
  let F : FloatText := .nans
  have hcards : (Probe.nvidia (some "[N/A]\n300\n24000")).cards F =
      [.unreadable, .reads 300, .reads 24000] := by
    show csvLines "[N/A]\n300\n24000".toList = _
    decide +kernel
  have hbudget : (Probe.nvidia (some "[N/A]\n300\n24000")).vramBudget F "none" 1 =
      .ok (some (24000, 24000, 1)) := by
    rw [Probe.vramBudget, freeMib_eq, hcards]
    exact congrArg Except.ok (budget_none [300, 24000] 1)
  have hrow := h F (.nvidia (some "[N/A]\n300\n24000")) 1 24000 24000 1
    (by rw [hcards]; decide) hbudget
  rw [hcards] at hrow
  exact absurd hrow (by decide)

end Turbohaul.VramProbe
