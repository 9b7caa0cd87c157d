/-
# `BraceMatch` — where an object ends

`_balanced_object_at` counts braces outside of string literals, from an opening brace on,
and knows no more of JSON than that.  On a text that has a JSON object there it stops
right after the object; and wherever it stops, the braces in between match, and do not
match before.

  `Scans`            the scanner goes from one place of a text to another
  `scans_reads`      over every part of a JSON text, by its derivation
  `outside`          a text without its string literals
  `balance_counts`   what the scanner has counted when it stops
  `braces_match`
-/
import Turbohaul.ToolCallSpans
import Turbohaul.JsonGrammar

namespace Turbohaul.ToolCalls

open JsonText

/-! ## Over a JSON text -/

/-- The scanner, at depth `d` outside of strings, goes from `s` to `rest` and is at depth
`d'` there; at depth 0 it stops. -/
def Scans (d d' : ℕ) (s rest : List Char) : Prop :=
  ∃ t, s = t ++ rest ∧ balance d false false s =
    if d' = 0 then some t.length else (balance d' false false rest).map (· + t.length)

theorem Scans.refl (d : ℕ) (s : List Char) : Scans (d + 1) (d + 1) s s :=
  ⟨[], rfl, by simp⟩

theorem Scans.trans {d d' d'' : ℕ} {s u v : List Char} (h : Scans d (d' + 1) s u)
    (h' : Scans (d' + 1) d'' u v) : Scans d d'' s v := by
  obtain ⟨t, rfl, hs⟩ := h
  obtain ⟨t', rfl, hu⟩ := h'
  refine ⟨t ++ t', (List.append_assoc ..).symm, ?_⟩
  rw [hs, if_neg (Nat.succ_ne_zero d'), hu, List.length_append, Nat.add_comm t.length]
  split
  · rfl
  · rw [Option.map_map]
    exact congrArg (Option.map · _) (funext fun n => Nat.add_assoc n t'.length t.length)

/-- What the scanner passes over: all but quotes and braces. -/
def Unbraced (c : Char) : Prop := c ≠ '"' ∧ c ≠ '{' ∧ c ≠ '}'

instance : DecidablePred Unbraced :=
  fun c => inferInstanceAs (Decidable (c ≠ '"' ∧ c ≠ '{' ∧ c ≠ '}'))

theorem Scans.plain {c : Char} (hc : Unbraced c) (d : ℕ) (s : List Char) :
    Scans (d + 1) (d + 1) (c :: s) s := by
  refine ⟨[c], rfl, ?_⟩
  rw [balance, if_neg Bool.false_ne_true, if_neg hc.1, if_neg hc.2.1, if_neg hc.2.2,
    if_neg (Nat.succ_ne_zero d)]
  rfl

theorem Scans.plains {w : List Char} (hw : ∀ c ∈ w, Unbraced c) (d : ℕ) (s : List Char) :
    Scans (d + 1) (d + 1) (w ++ s) s := by
  induction w with
  | nil => exact .refl d s
  | cons c w ih =>
    exact (Scans.plain (hw c List.mem_cons_self) d (w ++ s)).trans
      (ih fun c hc => hw c (List.mem_cons_of_mem _ hc))

theorem Scans.openBrace (d : ℕ) (s : List Char) : Scans d (d + 1) ('{' :: s) s := by
  refine ⟨['{'], rfl, ?_⟩
  rw [balance, if_neg Bool.false_ne_true, if_neg (by decide), if_pos rfl,
    if_neg (Nat.succ_ne_zero d)]
  rfl

theorem Scans.closeBrace (d : ℕ) (s : List Char) : Scans (d + 1) d ('}' :: s) s := by
  refine ⟨['}'], rfl, ?_⟩
  rw [balance, if_neg Bool.false_ne_true, if_neg (by decide), if_neg (by decide), if_pos rfl]
  rfl

theorem unbraced_ws {c : Char} (h : isWs c = true) : Unbraced c := by
  unfold isWs at h
  simp only [Bool.or_eq_true, decide_eq_true_eq] at h
  rcases h with ((rfl | rfl) | rfl) | rfl
  all_goals exact ⟨by decide, by decide, by decide⟩

theorem Scans.ws {s rest : List Char} (h : Ws s rest) (d : ℕ) : Scans (d + 1) (d + 1) s rest := by
  obtain ⟨w, hw, rfl⟩ := h
  exact .plains (fun c hc => unbraced_ws (hw c hc)) d rest

theorem unbraced_digit {c : Char} (h : c.isDigit = true) : Unbraced c := by
  refine ⟨?_, ?_, ?_⟩
  all_goals
    rintro rfl
    exact absurd h (by decide)

theorem Scans.numeral {s rest : List Char} (h : Numeral s rest) (d : ℕ) :
    Scans (d + 1) (d + 1) s rest := by
  obtain ⟨negative, i, f, e, hi, hf, he, rfl⟩ := h
  have hminus : ∀ c ∈ minus negative, Unbraced c := by
    cases negative with
    | true => exact List.forall_mem_singleton.mpr (by decide)
    | false => exact (by rintro _ ⟨⟩)
  have hint : ∀ c ∈ i, Unbraced c := by
    rcases hi with rfl | ⟨c, ds, rfl, hc, -, hds⟩
    · exact List.forall_mem_singleton.mpr (by decide)
    · exact List.forall_mem_cons.mpr ⟨unbraced_digit hc, fun c hc => unbraced_digit (hds c hc)⟩
  have hfrac : ∀ c ∈ f, Unbraced c := by
    rcases hf with rfl | ⟨ds, rfl, -, hds⟩
    · intro _ h
      cases h
    · exact List.forall_mem_cons.mpr ⟨⟨by decide, by decide, by decide⟩,
        fun c hc => unbraced_digit (hds c hc)⟩
  have hexp : ∀ c ∈ e, Unbraced c := by
    rcases he with rfl | ⟨c, sign, ds, rfl, hc, hsign, -, hds⟩
    · intro _ h
      cases h
    · refine List.forall_mem_cons.mpr ⟨?_, fun c hc => ?_⟩
      · rcases hc with rfl | rfl
        all_goals exact ⟨by decide, by decide, by decide⟩
      · rcases List.mem_append.mp hc with hc | hc
        · rcases hsign with rfl | rfl | rfl
          · exact absurd hc List.not_mem_nil
          all_goals
            obtain rfl := List.mem_singleton.mp hc
            exact ⟨by decide, by decide, by decide⟩
        · exact unbraced_digit (hds c hc)
  exact (Scans.plains hminus d _).trans <| (Scans.plains hint d _).trans <|
    (Scans.plains hfrac d _).trans (Scans.plains hexp d _)

theorem Scans.word {w : String} (hw : w ∈ valueWords) (d : ℕ) (rest : List Char) :
    Scans (d + 1) (d + 1) (w.toList ++ rest) rest := by
  have plain : ∀ v ∈ valueWords, v.toList.all (fun c => decide (Unbraced c)) = true := by
    decide +kernel
  exact .plains (fun c hc => of_decide_eq_true (List.all_eq_true.mp (plain w hw) c hc)) d rest

/-- Inside of a string the scanner goes on, but for a quote and a backslash. -/
theorem balance_in {c : Char} (hquote : c ≠ '"') (hback : c ≠ '\\') (d : ℕ) (s : List Char) :
    balance d true false (c :: s) = (balance d true false s).map (· + 1) := by
  rw [balance, if_pos rfl, if_neg Bool.false_ne_true, if_neg hback, if_neg hquote]

/-- What is after a backslash is passed over. -/
theorem balance_escape (c : Char) (d : ℕ) (s : List Char) :
    balance d true false ('\\' :: c :: s) = (balance d true false s).map (· + 2) := by
  rw [balance, if_pos rfl, if_neg Bool.false_ne_true, if_pos rfl, balance, if_pos rfl, if_pos rfl,
    Option.map_map]
  rfl

theorem balance_hex {x : Char} (hx : (hexDigit x).isSome = true) (d : ℕ) (s : List Char) :
    balance d true false (x :: s) = (balance d true false s).map (· + 1) := by
  refine balance_in ?_ ?_ d s
  all_goals
    rintro rfl
    exact absurd hx (by decide)

/-- A string, up to its closing quote. -/
theorem balance_chars {s rest : List Char} (h : Chars s rest) (d : ℕ) :
    ∃ t, s = t ++ rest ∧
      balance d true false s = (balance d false false rest).map (· + t.length) := by
  induction h with
  | close =>
    refine ⟨['"'], rfl, ?_⟩
    rw [balance, if_pos rfl, if_neg Bool.false_ne_true, if_neg (by decide), if_pos rfl]
    rfl
  | @plain c _ _ hquote hback _ _ ih =>
    obtain ⟨t, rfl, hs⟩ := ih
    refine ⟨c :: t, rfl, ?_⟩
    rw [balance_in hquote hback, hs, Option.map_map]
    rfl
  | @escape c _ _ _ _ ih =>
    obtain ⟨t, rfl, hs⟩ := ih
    refine ⟨'\\' :: c :: t, rfl, ?_⟩
    rw [balance_escape, hs, Option.map_map]
    rfl
  | @unicode a₁ a₂ a₃ a₄ _ _ ha _ ih =>
    obtain ⟨t, rfl, hs⟩ := ih
    simp only [List.forall_mem_cons] at ha
    refine ⟨'\\' :: 'u' :: a₁ :: a₂ :: a₃ :: a₄ :: t, rfl, ?_⟩
    rw [balance_escape, balance_hex ha.1, balance_hex ha.2.1, balance_hex ha.2.2.1,
      balance_hex ha.2.2.2.1, hs, Option.map_map, Option.map_map, Option.map_map, Option.map_map,
      Option.map_map]
    rfl

theorem Scans.string {s rest : List Char} (h : Chars s rest) (d : ℕ) :
    Scans (d + 1) (d + 1) ('"' :: s) rest := by
  obtain ⟨t, rfl, hs⟩ := balance_chars h (d + 1)
  refine ⟨'"' :: t, rfl, ?_⟩
  rw [balance, if_neg Bool.false_ne_true, if_pos rfl, hs, Option.map_map,
    if_neg (Nat.succ_ne_zero d)]
  rfl

/-- Whitespace and a character. -/
theorem Scans.char {s rest : List Char} {c : Char} (hc : Unbraced c) (h : Ws s (c :: rest))
    (d : ℕ) : Scans (d + 1) (d + 1) s rest :=
  (Scans.ws h d).trans (.plain hc d rest)

/-- A key and its colon. -/
theorem Scans.key {s s₁ s₂ s₃ s₄ : List Char} (h : Ws s ('"' :: s₁)) (hk : Chars s₁ s₂)
    (hc : Ws s₂ (':' :: s₃)) (hw : Ws s₃ s₄) (d : ℕ) : Scans (d + 1) (d + 1) s s₄ :=
  (Scans.ws h d).trans <| (Scans.string hk d).trans <|
    (Scans.char (by decide : Unbraced ':') hc d).trans (.ws hw d)

/-- How many braces of a part are open before it, and after. -/
def bracesOpen : Part → ℕ × ℕ
  | .value => (1, 1)
  | .object => (0, 0)
  | .elements => (1, 1)
  | .members => (1, 0)

theorem scans_reads {part : Part} {s rest : List Char} (h : Reads part s rest) :
    ∀ d, Scans (d + (bracesOpen part).1) (d + (bracesOpen part).2) s rest := by
  induction h with
  | word hw => exact fun d => .word hw d _
  | numeral hn => exact fun d => .numeral hn d
  | string hs => exact fun d => .string hs d
  | object _ ih => exact fun d => ih (d + 1)
  | emptyArray hw =>
    intro d
    exact (Scans.plain (by decide : Unbraced '[') d _).trans (.char (by decide : Unbraced ']') hw d)
  | array _ ih =>
    intro d
    exact (Scans.plain (by decide : Unbraced '[') d _).trans (ih d)
  | emptyObject hw =>
    intro d
    exact (Scans.openBrace d _).trans ((Scans.ws hw d).trans (.closeBrace d _))
  | nonempty _ ih =>
    intro d
    exact (Scans.openBrace d _).trans (ih d)
  | last hw _ hc ih =>
    intro d
    exact (Scans.ws hw d).trans ((ih d).trans (.char (by decide : Unbraced ']') hc d))
  | element hw _ hc _ ih ih' =>
    intro d
    exact (Scans.ws hw d).trans <| (ih d).trans <|
      (Scans.char (by decide : Unbraced ',') hc d).trans (ih' d)
  | lastMember hw hk hc hw' _ hb ih =>
    intro d
    exact (Scans.key hw hk hc hw' d).trans <| (ih d).trans <|
      (Scans.ws hb d).trans (.closeBrace d _)
  | member hw hk hc hw' _ hb _ ih ih' =>
    intro d
    exact (Scans.key hw hk hc hw' d).trans <| (ih d).trans <|
      (Scans.char (by decide : Unbraced ',') hb d).trans (ih' d)

theorem Reads.brace {s rest : List Char} (h : Reads .object s rest) : ∃ s', s = '{' :: s' := by
  cases h with
  | emptyObject _ => exact ⟨_, rfl⟩
  | nonempty _ => exact ⟨_, rfl⟩

/-- The scanner stops right after an object. -/
theorem balanced_object {text rest : List Char} {start : ℕ}
    (h : Reads .object (text.drop start) rest) :
    ∃ stop, balancedObjectAt text start = some stop ∧ text.drop stop = rest := by
  obtain ⟨t, ht, hb⟩ := scans_reads h 0
  obtain ⟨s', hs'⟩ := Reads.brace h
  refine ⟨start + t.length, ?_, ?_⟩
  · unfold balancedObjectAt
    rw [hs'] at hb ⊢
    have hend : balance 0 false false ('{' :: s') = some t.length := hb
    show (balance 0 false false ('{' :: s')).map (start + ·) = _
    rw [hend]
    rfl
  · rw [← List.drop_drop, ht, List.drop_left]

/-! ## Over any text -/

mutual

/-- A text without its string literals, closed or not. -/
def outside : List Char → List Char
  | [] => []
  | c :: s => if c = '"' then inside s else c :: outside s

/-- The same of a text that begins in a literal. -/
def inside : List Char → List Char
  | [] => []
  | c :: s => if c = '"' then outside s else if c = '\\' then escaped s else inside s

/-- And of one that begins there, after a backslash. -/
def escaped : List Char → List Char
  | [] => []
  | _ :: s => inside s

end

/-- What is outside of literals, in the state of the scanner. -/
def seen (inStr escape : Bool) : List Char → List Char :=
  if inStr then if escape then escaped else inside else outside

theorem seen_nil (inStr escape : Bool) : seen inStr escape [] = [] := by
  cases inStr <;> cases escape <;> rfl

/-- From `d` open braces on, as many are closed as are open after `n` characters, and
fewer before. -/
def Closes (d : ℕ) (f : List Char → List Char) (s : List Char) (n : ℕ) : Prop :=
  (∀ k < n, (f (s.take k)).count '}' < d + (f (s.take k)).count '{') ∧
    (f (s.take n)).count '}' = d + (f (s.take n)).count '{'

/-- One character more in front, which opens `a` braces and closes `b`. -/
theorem Closes.cons {d d' a b n : ℕ} {f f' : List Char → List Char} {c : Char} {s : List Char}
    (h : Closes d' f' s n) (hnil : f [] = []) (hd : 0 < d) (hdepth : d + a = d' + b)
    (hopen : ∀ t, (f (c :: t)).count '{' = (f' t).count '{' + a)
    (hclose : ∀ t, (f (c :: t)).count '}' = (f' t).count '}' + b) :
    Closes d f (c :: s) (n + 1) := by
  refine ⟨fun k hk => ?_, ?_⟩
  · cases k with
    | zero =>
      rw [List.take_zero, hnil]
      simpa using hd
    | succ k =>
      have hlt := h.1 k (Nat.lt_of_succ_lt_succ hk)
      rw [List.take_succ_cons, hopen, hclose]
      omega
  · have heq := h.2
    rw [List.take_succ_cons, hopen, hclose]
    omega

/-- What the scanner has counted when it stops. -/
theorem balance_counts {s : List Char} : ∀ {d n : ℕ} {inStr escape : Bool},
    (inStr = false → escape = false) → balance (d + 1) inStr escape s = some n →
      Closes (d + 1) (seen inStr escape) s n := by
  induction s with
  | nil =>
    intro d n inStr escape _ h
    cases h
  | cons c s ih =>
    intro d n inStr escape hstate h
    -- the characters that are not counted
    have skip : ∀ inStr' escape' : Bool, (inStr' = false → escape' = false) →
        (∀ t, seen inStr escape (c :: t) = seen inStr' escape' t) →
        (balance (d + 1) inStr' escape' s).map (· + 1) = some n →
        Closes (d + 1) (seen inStr escape) (c :: s) n := by
      intro inStr' escape' hstate' hseen h
      obtain ⟨m, hm, rfl⟩ := Option.map_eq_some_iff.mp h
      exact (ih hstate' hm).cons (a := 0) (b := 0) (seen_nil _ _) (Nat.succ_pos d) rfl
        (fun t => by rw [hseen]; rfl) (fun t => by rw [hseen]; rfl)
    rw [balance] at h
    cases inStr with
    | true =>
      rw [if_pos rfl] at h
      cases escape with
      | true =>
        rw [if_pos rfl] at h
        exact skip true false (by rintro ⟨⟩) (fun t => rfl) h
      | false =>
        rw [if_neg Bool.false_ne_true] at h
        split at h
        · rename_i hc
          exact skip true true (by rintro ⟨⟩) (fun t => by rw [hc]; rfl) h
        · rename_i hback
          split at h
          · rename_i hc
            exact skip false false (fun _ => rfl) (fun t => by rw [hc]; rfl) h
          · rename_i hquote
            refine skip true false (by rintro ⟨⟩) (fun t => ?_) h
            show inside (c :: t) = inside t
            rw [inside, if_neg hquote, if_neg hback]
    | false =>
      obtain rfl := hstate rfl
      have keep : c ≠ '"' → ∀ t, seen false false (c :: t) = c :: seen false false t := by
        intro hquote t
        show outside (c :: t) = c :: outside t
        rw [outside, if_neg hquote]
      rw [if_neg Bool.false_ne_true] at h
      split at h
      · rename_i hc
        exact skip true false (by rintro ⟨⟩) (fun t => by rw [hc]; rfl) h
      · rename_i hquote
        split at h
        · rename_i hc
          obtain ⟨m, hm, rfl⟩ := Option.map_eq_some_iff.mp h
          refine (ih (fun _ => rfl) hm).cons (a := 1) (b := 0) (seen_nil _ _) (Nat.succ_pos d) rfl
            (fun t => ?_) fun t => ?_
          · rw [keep hquote, hc, List.count_cons_self]
          · rw [keep hquote, hc, List.count_cons_of_ne (by decide), Nat.add_zero]
        · rename_i hopen
          split at h
          · rename_i hc
            have hcount : ∀ t, (seen false false (c :: t)).count '{' =
                (seen false false t).count '{' + 0 := fun t => by
              rw [keep hquote, hc, List.count_cons_of_ne (by decide), Nat.add_zero]
            have hcount' : ∀ t, (seen false false (c :: t)).count '}' =
                (seen false false t).count '}' + 1 := fun t => by
              rw [keep hquote, hc, List.count_cons_self]
            split at h
            · rename_i hd
              obtain rfl : 1 = n := Option.some.inj h
              have hend : Closes 0 (seen false false) s 0 :=
                ⟨(by rintro _ ⟨⟩), by rw [List.take_zero]; rfl⟩
              exact hend.cons (seen_nil _ _) (Nat.succ_pos d) (by omega) hcount hcount'
            · rename_i hd
              obtain ⟨m, hm, rfl⟩ := Option.map_eq_some_iff.mp h
              obtain ⟨d, rfl⟩ := Nat.exists_eq_succ_of_ne_zero hd
              exact (ih (fun _ => rfl) hm).cons (seen_nil _ _) (Nat.succ_pos _) rfl hcount hcount'
          · rename_i hclose
            obtain ⟨m, hm, rfl⟩ := Option.map_eq_some_iff.mp h
            refine (ih (fun _ => rfl) hm).cons (a := 0) (b := 0) (seen_nil _ _) (Nat.succ_pos d) rfl
              (fun t => ?_) fun t => ?_
            · rw [keep hquote, List.count_cons_of_ne hopen, Nat.add_zero]
            · rw [keep hquote, List.count_cons_of_ne hclose, Nat.add_zero]

/-- The braces of what is matched, outside of literals: as many close as open, and in
every part of it from its beginning on fewer do. -/
theorem balanced_braces {text : List Char} {start stop : ℕ}
    (h : balancedObjectAt text start = some stop) :
    (outside (slice text start stop)).count '}' = (outside (slice text start stop)).count '{' ∧
    ∀ k, 0 < k → start + k < stop →
      (outside (slice text start (start + k))).count '}' <
        (outside (slice text start (start + k))).count '{' := by
  unfold balancedObjectAt at h
  split at h
  · rename_i s hs
    obtain ⟨n, hn, rfl⟩ := Option.map_eq_some_iff.mp h
    rw [balance, if_neg Bool.false_ne_true, if_neg (by decide), if_pos rfl] at hn
    obtain ⟨m, hm, rfl⟩ := Option.map_eq_some_iff.mp hn
    obtain ⟨hbelow, heven⟩ := balance_counts (fun _ => rfl) hm
    have hslice : ∀ k, slice text start (start + (k + 1)) = '{' :: s.take k := by
      intro k
      rw [slice, hs, Nat.add_sub_cancel_left, List.take_succ_cons]
    have hout : ∀ t, outside ('{' :: t) = '{' :: outside t := fun t => by
      rw [outside, if_neg (by decide)]
    refine ⟨?_, fun k hk hlt => ?_⟩
    · rw [hslice, hout, List.count_cons_self, List.count_cons_of_ne (by decide), Nat.add_comm]
      exact heven
    · obtain ⟨k, rfl⟩ := Nat.exists_eq_succ_of_ne_zero (Nat.ne_of_gt hk)
      rw [Nat.succ_eq_add_one, hslice, hout, List.count_cons_self,
        List.count_cons_of_ne (by decide), Nat.add_comm]
      exact hbelow k (by omega)
  · cases h

/-- `_balanced_object_at` ends a JSON object right after it, whatever follows, and so it
does what the decoder reads as one; and where it ends anything, the braces outside of
string literals match there and at no place before. -/
theorem braces_match (text : List Char) (start : ℕ) :
    (∀ rest, Reads .object (text.drop start) rest →
      ∃ stop, balancedObjectAt text start = some stop ∧ text.drop stop = rest) ∧
    (∀ (F : FloatText) (n : ℕ) (kvs : Dict) (rest : List Char),
      scanOnce F n (text.drop start) = some (.obj kvs, rest) →
        ∃ stop, balancedObjectAt text start = some stop ∧ text.drop stop = rest) ∧
    ∀ stop, balancedObjectAt text start = some stop → start < stop ∧ stop ≤ text.length ∧
      (outside (slice text start stop)).count '}' = (outside (slice text start stop)).count '{' ∧
      ∀ k, 0 < k → start + k < stop →
        (outside (slice text start (start + k))).count '}' <
          (outside (slice text start (start + k))).count '{' := by
  refine ⟨fun rest h => balanced_object h, fun F n kvs rest h => ?_, fun stop h => ?_⟩
  · exact balanced_object ((scanOnce_reads F n h).2 kvs rfl)
  · obtain ⟨hlt, hle⟩ := balancedObjectAt_le h
    exact ⟨hlt, hle, balanced_braces h⟩

/-- A brace in a string. -/
theorem braces_match_string :
    ∃ stop, balancedObjectAt ['{', '"', 'k', '"', ':', '"', '}', '"', '}', '!'] 0 = some stop ∧
      List.drop stop ['{', '"', 'k', '"', ':', '"', '}', '"', '}', '!'] = ['!'] :=
  (braces_match ['{', '"', 'k', '"', ':', '"', '}', '"', '}', '!'] 0).1 ['!']
    (.nonempty (.lastMember (.refl _) (.plain (by decide) (by decide) (by decide) .close) (.refl _)
      (.refl _) (.string (.plain (by decide) (by decide) (by decide) .close)) (.refl _)))

end Turbohaul.ToolCalls
