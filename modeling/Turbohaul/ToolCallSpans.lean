/-
# What the recovery of tool calls takes out of the content

The accepted spans are taken out from the last to the first, so that the indices of
those still to go stay valid; they do where the spans lie apart.  Matches of one
expression lie apart, but a span ends where the brace matcher says, which may be past
the end of the match, and the scan resumes at the end of the match.  So an accepted
call may open inside one accepted before, and then too much is taken out.

  `Apart`, `keepOutside`     spans that share no character; a text without its spans
  `stripAccepted_eq`         spans apart are taken out exactly
  `WrappedCall`, `BareCall`  the calls that stand in a text, and where the expression stops
  `NoneWithin`               none opens behind that place in another
  `strips_exactly_iff`
-/
import Turbohaul.ToolCallRecovery

namespace Turbohaul.ToolCalls

open Regex JsonText

/-- Two spans that share no character. -/
def Candidate.Apart (c c' : Candidate) : Prop := c.stop ≤ c'.start ∨ c'.stop ≤ c.start

theorem Candidate.Apart.symm {c c' : Candidate} (h : c.Apart c') : c'.Apart c := h.elim .inr .inl

/-- A span that is not empty and ends inside the text. -/
def Candidate.Within (c : Candidate) (segment : List Char) : Prop :=
  c.start < c.stop ∧ c.stop ≤ segment.length

/-- The text, `i` characters into what the spans are about, without the characters
inside of a span. -/
def keepOutside (spans : List (ℕ × ℕ)) : ℕ → List Char → List Char
  | _, [] => []
  | i, c :: s =>
    if spans.any fun p => decide (p.1 ≤ i) && decide (i < p.2) then keepOutside spans (i + 1) s
    else c :: keepOutside spans (i + 1) s

/-! ## Where spans lie -/

theorem balance_le {depth : ℕ} {inStr escape : Bool} {s : List Char} {n : ℕ}
    (h : balance depth inStr escape s = some n) : 0 < n ∧ n ≤ s.length := by
  induction s generalizing depth inStr escape n with
  | nil => cases h
  | cons c s ih =>
    have step : ∀ {d i e}, (balance d i e s).map (· + 1) = some n → 0 < n ∧
        n ≤ (c :: s).length := by
      intro d i e hm
      obtain ⟨k, hk, rfl⟩ := Option.map_eq_some_iff.mp hm
      have := ih hk
      rw [List.length_cons]
      omega
    rw [balance] at h
    split at h
    · split at h
      · exact step h
      split at h
      · exact step h
      split at h
      · exact step h
      · exact step h
    split at h
    · exact step h
    split at h
    · exact step h
    split at h
    · split at h
      · rw [← Option.some.inj h, List.length_cons]
        omega
      · exact step h
    · exact step h

theorem balancedObjectAt_le {text : List Char} {start stop : ℕ}
    (h : balancedObjectAt text start = some stop) : start < stop ∧ stop ≤ text.length := by
  unfold balancedObjectAt at h
  split at h
  · rename_i s hs
    obtain ⟨n, hn, rfl⟩ := Option.map_eq_some_iff.mp h
    have hlen := congrArg List.length hs
    rw [List.length_drop] at hlen
    have := balance_le hn
    omega
  · cases h

theorem takes_braces {i : ℕ} {gs gs' : Groups Group} {m : List Char} :
    Takes braces i gs m gs' ↔ (∃ inner, m = '{' :: inner ++ ['}']) ∧ gs' = gs := by
  simp only [braces, Pattern.cat, takes_lit_seq]
  simp only [Takes]
  constructor
  · rintro ⟨_, rfl, inner, _, _, rfl, ⟨-, rfl⟩, rfl, rfl⟩
    exact ⟨⟨inner, rfl⟩, rfl⟩
  · rintro ⟨⟨inner, rfl⟩, rfl⟩
    exact ⟨inner ++ ['}'], rfl, inner, ['}'], gs', rfl, ⟨fun _ _ => trivial, rfl⟩, rfl, rfl⟩

/-- The text of a match of `_XML_RE`, and where its body lies. -/
theorem xmlRe_sound {i : ℕ} {s : List Char} {m : Match Group} (h : matchAt xmlRe i s = some m) :
    ∃ w inner w' rest, s = openTag ++ (w ++ ('{' :: inner ++ ['}'] ++ (w' ++ (closeTag ++ rest)))) ∧
      (∀ c ∈ w, pyIsSpace c) ∧ (∀ c ∈ w', pyIsSpace c) ∧ m.start = i ∧
      m.span .body = some (i + openTag.length + w.length,
        i + openTag.length + w.length + ('{' :: inner ++ ['}']).length) := by
  obtain ⟨text, rest, rfl, ht, hstart, -⟩ := matchAt_sound h
  simp only [xmlRe, Pattern.cat, takes_lit_seq, takes_many_seq, takes_group_seq, takes_braces] at ht
  obtain ⟨_, rfl, w, hw, _, rfl, _, gs, ⟨⟨inner, rfl⟩, rfl⟩, _, rfl, w', hw', _, rfl, ht⟩ := ht
  simp only [Takes] at ht
  obtain ⟨rfl, hgs⟩ := ht
  refine ⟨w, inner, w', rest, by simp only [List.append_assoc], hw, hw', hstart, ?_⟩
  rw [Match.span, hgs]
  rfl

/-- The text of a match of `_CANONICAL_RE`, and where its groups lie. -/
theorem canonicalRe_sound {i : ℕ} {s : List Char} {m : Match Group}
    (h : matchAt canonicalRe i s = some m) :
    ∃ before name between inner after, s = before ++ (name ++ (between ++
        ('{' :: inner ++ ['}'] ++ after))) ∧
      (∃ w₁ w₂ w₃, before = '{' :: (w₁ ++ ("\"name\"".toList ++ (w₂ ++ (':' :: (w₃ ++ ['"']))))) ∧
        ∀ c ∈ w₁ ++ w₂ ++ w₃, pyIsSpace c) ∧
      (∃ w₄ w₅ w₆ w₇, between = '"' :: (w₄ ++ (',' :: (w₅ ++ ("\"arguments\"".toList ++
          (w₆ ++ (':' :: w₇)))))) ∧ ∀ c ∈ w₄ ++ w₅ ++ w₆ ++ w₇, pyIsSpace c) ∧
      (name ≠ [] ∧ ∀ c ∈ name, c ≠ '"') ∧ m.start = i ∧
      m.span .name = some (i + before.length, i + before.length + name.length) ∧
      m.span .args = some (i + (before ++ name ++ between).length,
        i + (before ++ name ++ between).length + ('{' :: inner ++ ['}']).length) := by
  obtain ⟨text, rest, rfl, ht, hstart, -⟩ := matchAt_sound h
  simp only [canonicalRe, Pattern.cat, takes_lit_seq, takes_many_seq, takes_group_seq,
    takes_braces] at ht
  obtain ⟨_, rfl, w₁, hw₁, _, rfl, _, rfl, w₂, hw₂, _, rfl, _, rfl, w₃, hw₃, _, rfl, _, rfl,
    name, gs, hname, _, rfl, _, rfl, w₄, hw₄, _, rfl, _, rfl, w₅, hw₅, _, rfl, _, rfl, w₆, hw₆,
    _, rfl, _, rfl, w₇, hw₇, _, rfl, _, _, ⟨⟨inner, rfl⟩, rfl⟩, _, rfl, w₈, hw₈, _, rfl, ht⟩ := ht
  simp only [Takes] at hname ht
  obtain ⟨_, name, _, rfl, ⟨⟨c, rfl, hc⟩, rfl⟩, hname, rfl⟩ := hname
  obtain ⟨rfl, hgs⟩ := ht
  refine ⟨'{' :: (w₁ ++ ("\"name\"".toList ++ (w₂ ++ (':' :: (w₃ ++ ['"']))))), c :: name,
    '"' :: (w₄ ++ (',' :: (w₅ ++ ("\"arguments\"".toList ++ (w₆ ++ (':' :: w₇)))))), inner,
    w₈ ++ ('}' :: rest), ?_, ⟨w₁, w₂, w₃, rfl, ?_⟩, ⟨w₄, w₅, w₆, w₇, rfl, ?_⟩, ⟨(by rintro ⟨⟩), ?_⟩,
    hstart, ?_, ?_⟩
  · simp only [List.append_assoc, List.cons_append, List.nil_append]
  · simp only [List.mem_append]
    rintro c' ((h | h) | h)
    exacts [hw₁ _ h, hw₂ _ h, hw₃ _ h]
  · simp only [List.mem_append]
    rintro c' (((h | h) | h) | h)
    exacts [hw₄ _ h, hw₅ _ h, hw₆ _ h, hw₇ _ h]
  · intro c' hc'
    rcases List.mem_cons.mp hc' with rfl | hc'
    · simpa using hc
    · simpa using hname c' hc'
  · rw [Match.span, hgs]
    change some (_, _) = _
    simp only [List.length_append, List.length_cons, List.length_nil, Option.some.injEq,
      Prod.mk.injEq]
    constructor <;> omega
  · rw [Match.span, hgs]
    change some (_, _) = _
    simp only [List.length_append, List.length_cons, List.length_nil, Option.some.injEq,
      Prod.mk.injEq]
    constructor <;> omega

/-! ## Bounds -/

/-- A match of a segment is the match of what follows its start. -/
theorem match_drop {r : Pattern Group} {segment : List Char} {m : Match Group}
    (h : m ∈ finditer r 0 0 segment) : matchAt r m.start (segment.drop m.start) = some m := by
  obtain ⟨before, rest, hs, -, hstart, hmatch⟩ := finditer_sound h
  rw [Nat.zero_add] at hstart
  rwa [hs, List.drop_left' hstart.symm]

/-- How a wrapped candidate comes about. -/
theorem xmlCandidate_spec {F : FloatText} {segment : List Char} {m : Match Group} {c : Candidate}
    (h : xmlCandidate F segment m = some c) :
    ∃ bodyStart bodyStop stop parsed k, m.span .body = some (bodyStart, bodyStop) ∧
      balancedObjectAt segment bodyStart = some stop ∧
      loads F (slice segment bodyStart stop) = some (.obj parsed) ∧
      Dict.get parsed "name" = .str c.name ∧
      argumentsJson F (Dict.get parsed "arguments") = some c.argsJson ∧
      find closeTag (segment.drop stop) = some k ∧ c.start = m.start ∧
      c.stop = stop + k + closeTag.length := by
  unfold xmlCandidate at h
  split at h
  · cases h
  rename_i bodyStart bodyStop hspan
  split at h
  · cases h
  rename_i stop hstop
  split at h
  · rename_i parsed hparsed
    split at h
    · rename_i name args hname hargs
      obtain ⟨k, hk, rfl⟩ := Option.map_eq_some_iff.mp h
      exact ⟨bodyStart, bodyStop, stop, parsed, k, hspan, hstop, hparsed, hname, hargs, hk, rfl,
        rfl⟩
    · cases h
  · cases h

/-- How a bare candidate comes about. -/
theorem canonicalCandidate_spec {F : FloatText} {segment : List Char} {covered : List Candidate}
    {m : Match Group} {c : Candidate} (h : canonicalCandidate F segment covered m = some c) :
    (∀ c' ∈ covered, m.start < c'.start ∨ c'.stop ≤ m.start) ∧
    ∃ nameStart nameStop argsStart argsStop argsEnd parsedArgs after,
      m.span .name = some (nameStart, nameStop) ∧ m.span .args = some (argsStart, argsStop) ∧
      balancedObjectAt segment argsStart = some argsEnd ∧
      loads F (slice segment argsStart argsEnd) = some (.obj parsedArgs) ∧
      segment.drop (argsEnd + ((segment.drop argsEnd).takeWhile isWs).length) = '}' :: after ∧
      c = ⟨m.start, argsEnd + ((segment.drop argsEnd).takeWhile isWs).length + 1,
        String.ofList (slice segment nameStart nameStop), dumps F (.obj parsedArgs)⟩ := by
  unfold canonicalCandidate at h
  split at h
  · cases h
  rename_i hcovered
  refine ⟨fun c' hc' => ?_, ?_⟩
  · by_contra hnot
    rw [not_or, not_lt, not_le] at hnot
    exact hcovered (List.any_eq_true.mpr ⟨c', hc', by simp [hnot.1, hnot.2]⟩)
  split at h
  · rename_i nameStart nameStop argsStart argsStop hname hargs
    split at h
    · cases h
    rename_i argsEnd hend
    split at h
    · rename_i parsedArgs hparsed
      dsimp only at h
      split at h
      · rename_i after hafter
        exact ⟨_, _, _, _, _, _, after, hname, hargs, hend, hparsed, hafter,
          (Option.some.inj h).symm⟩
      · cases h
    · cases h
  · cases h

theorem xmlCandidates_within {F : FloatText} {segment : List Char} {c : Candidate}
    (h : c ∈ xmlCandidates F segment) : c.Within segment := by
  obtain ⟨m, hm, hc⟩ := List.mem_filterMap.mp h
  obtain ⟨bodyStart, bodyStop, stop, parsed, k, hspan, hstop, -, -, -, hk, hstart, hcstop⟩ :=
    xmlCandidate_spec hc
  obtain ⟨w, inner, w', rest, -, -, -, -, hbody⟩ := xmlRe_sound (match_drop hm)
  rw [hspan, Option.some.injEq, Prod.mk.injEq] at hbody
  have hle := balancedObjectAt_le hstop
  obtain ⟨before, after, hdrop, hlen⟩ := find_sound hk
  have hlen' := congrArg List.length hdrop
  simp only [List.length_drop, List.length_append] at hlen'
  constructor <;> omega

theorem canonicalCandidates_within {F : FloatText} {segment : List Char} {c : Candidate}
    (h : c ∈ canonicalCandidates F segment) : c.Within segment := by
  obtain ⟨m, hm, hc⟩ := List.mem_filterMap.mp h
  obtain ⟨-, nameStart, nameStop, argsStart, argsStop, argsEnd, parsedArgs, after, -, hargs, hend,
    -, hafter, rfl⟩ := canonicalCandidate_spec hc
  obtain ⟨before, name, between, inner, rest, -, -, -, -, -, -, hspan⟩ :=
    canonicalRe_sound (match_drop hm)
  rw [hargs, Option.some.injEq, Prod.mk.injEq] at hspan
  have hle := balancedObjectAt_le hend
  have hlen := congrArg List.length hafter
  rw [List.length_drop, List.length_cons] at hlen
  constructor <;> simp only <;> omega

/-- Wrapped candidates start in order. -/
theorem xmlCandidates_ascending (F : FloatText) (segment : List Char) :
    (xmlCandidates F segment).Pairwise fun c c' => c.start < c'.start := by
  refine List.Pairwise.filterMap _ (fun m m' hm c hc c' hc' => ?_)
    (finditer_disjoint xmlRe 0 0 segment)
  obtain ⟨-, -, -, -, -, -, -, -, -, -, -, hstart, -⟩ := xmlCandidate_spec hc
  obtain ⟨-, -, -, -, -, -, -, -, -, -, -, hstart', -⟩ := xmlCandidate_spec hc'
  rw [hstart, hstart']
  exact hm.1

/-- Bare candidates start in order. -/
theorem canonicalCandidates_ascending (F : FloatText) (segment : List Char) :
    (canonicalCandidates F segment).Pairwise fun c c' => c.start < c'.start := by
  refine List.Pairwise.filterMap _ (fun m m' hm c hc c' hc' => ?_)
    (finditer_disjoint canonicalRe 0 0 segment)
  obtain ⟨-, -, -, -, -, -, -, -, -, -, -, -, -, rfl⟩ := canonicalCandidate_spec hc
  obtain ⟨-, -, -, -, -, -, -, -, -, -, -, -, -, rfl⟩ := canonicalCandidate_spec hc'
  exact hm.1

/-- No bare candidate starts inside of a wrapped one. -/
theorem canonicalCandidates_uncovered {F : FloatText} {segment : List Char} {c c' : Candidate}
    (hc : c ∈ canonicalCandidates F segment) (hc' : c' ∈ xmlCandidates F segment) :
    c.start < c'.start ∨ c'.stop ≤ c.start := by
  obtain ⟨m, -, hm⟩ := List.mem_filterMap.mp hc
  obtain ⟨hcovered, -, -, -, -, -, -, -, -, -, -, -, -, rfl⟩ := canonicalCandidate_spec hm
  exact hcovered c' hc'

/-! ## Taking spans out -/

theorem keepOutside_append (spans : List (ℕ × ℕ)) (i : ℕ) (s t : List Char) :
    keepOutside spans i (s ++ t) = keepOutside spans i s ++ keepOutside spans (i + s.length) t := by
  induction s generalizing i with
  | nil => rfl
  | cons c s ih =>
    have hlen : i + (c :: s).length = i + 1 + s.length := by
      rw [List.length_cons]
      omega
    rw [List.cons_append, keepOutside, keepOutside, ih, hlen]
    split
    · rfl
    · rw [List.cons_append]

theorem keepOutside_of_outside {spans : List (ℕ × ℕ)} {i : ℕ} {s : List Char}
    (h : ∀ p ∈ spans, i + s.length ≤ p.1 ∨ p.2 ≤ i) : keepOutside spans i s = s := by
  induction s generalizing i with
  | nil => rfl
  | cons c s ih =>
    rw [List.length_cons] at h
    rw [keepOutside, if_neg, ih fun p hp => ?_]
    · have := h p hp
      omega
    · rw [List.any_eq_true]
      rintro ⟨p, hp, hin⟩
      rw [Bool.and_eq_true, decide_eq_true_eq, decide_eq_true_eq] at hin
      have := h p hp
      omega

theorem keepOutside_of_inside {spans : List (ℕ × ℕ)} {i : ℕ} {s : List Char} {p : ℕ × ℕ}
    (hp : p ∈ spans) (h : p.1 ≤ i ∧ i + s.length ≤ p.2) : keepOutside spans i s = [] := by
  induction s generalizing i with
  | nil => rfl
  | cons c s ih =>
    rw [List.length_cons] at h
    rw [keepOutside, if_pos, ih (by omega)]
    rw [List.any_eq_true]
    refine ⟨p, hp, ?_⟩
    rw [Bool.and_eq_true, decide_eq_true_eq, decide_eq_true_eq]
    omega

/-- A span that lies before the text. -/
theorem keepOutside_past {p : ℕ × ℕ} {spans : List (ℕ × ℕ)} {i : ℕ} {s : List Char} (h : p.2 ≤ i) :
    keepOutside (p :: spans) i s = keepOutside spans i s := by
  induction s generalizing i with
  | nil => rfl
  | cons c s ih =>
    have hp : (decide (p.1 ≤ i) && decide (i < p.2)) = false := by
      rw [Bool.and_eq_false_iff, decide_eq_false_iff_not, decide_eq_false_iff_not]
      omega
    rw [keepOutside, keepOutside, ih (by omega), List.any_cons, hp, Bool.false_or]

/-- A span before the others is taken out of what is left of the text without them. -/
theorem keepOutside_cons {spans : List (ℕ × ℕ)} {text : List Char} {a b : ℕ} (hab : a < b)
    (hb : b ≤ text.length) (h : ∀ p ∈ spans, b ≤ p.1) :
    keepOutside ((a, b) :: spans) 0 text
      = (keepOutside spans 0 text).take a ++ (keepOutside spans 0 text).drop b := by
  obtain ⟨s, t, u, rfl, rfl, rfl⟩ : ∃ s t u, text = s ++ (t ++ u) ∧ a = s.length ∧
      b = s.length + t.length := by
    refine ⟨text.take a, (text.drop a).take (b - a), text.drop b, ?_, ?_, ?_⟩
    · have hdrop : text.drop b = (text.drop a).drop (b - a) := by
        rw [List.drop_drop]
        congr 1
        omega
      rw [hdrop, List.take_append_drop, List.take_append_drop]
    · rw [List.length_take]
      omega
    · rw [List.length_take, List.length_take, List.length_drop]
      omega
  have hs : ∀ spans' : List (ℕ × ℕ), (∀ p ∈ spans', s.length ≤ p.1) → keepOutside spans' 0 s = s :=
    fun spans' h' => keepOutside_of_outside fun p hp => .inl (by have := h' p hp; omega)
  have ht : keepOutside spans s.length t = t :=
    keepOutside_of_outside fun p hp => .inl (h p hp)
  have hu : keepOutside ((s.length, s.length + t.length) :: spans) (s.length + t.length) u
      = keepOutside spans (s.length + t.length) u := keepOutside_past le_rfl
  rw [keepOutside_append, keepOutside_append, keepOutside_append, keepOutside_append,
    Nat.zero_add, hs _ fun p hp => ?_, hs _ fun p hp => ?_, ht,
    keepOutside_of_inside List.mem_cons_self ⟨le_rfl, le_rfl⟩, hu, List.nil_append,
    List.take_left, ← List.append_assoc, List.drop_left' (by rw [List.length_append])]
  · have := h p hp
    omega
  · rcases List.mem_cons.mp hp with rfl | hp
    · exact le_rfl
    · have := h p hp
      omega

/-- The span of a candidate in the content, whose segment starts at `n`. -/
def Candidate.span (n : ℕ) (c : Candidate) : ℕ × ℕ := (n + c.start, n + c.stop)

/-- Spans apart and in order are taken out exactly. -/
theorem foldr_strip {segment : List Char} {accepted : List Candidate}
    (hin : ∀ c ∈ accepted, c.Within segment)
    (hord : accepted.Pairwise fun c c' => c.stop ≤ c'.start) :
    accepted.foldr (fun c text => text.take c.start ++ text.drop c.stop) segment
      = keepOutside (accepted.map (Candidate.span 0)) 0 segment := by
  induction accepted with
  | nil => exact (keepOutside_of_outside fun p hp => absurd hp List.not_mem_nil).symm
  | cons c accepted ih =>
    have hc := hin c List.mem_cons_self
    rw [List.pairwise_cons] at hord
    rw [List.foldr_cons, ih (fun c' hc' => hin c' (List.mem_cons_of_mem _ hc')) hord.2,
      List.map_cons]
    have hspan : Candidate.span 0 c = (c.start, c.stop) := by
      simp only [Candidate.span, Nat.zero_add]
    rw [hspan, keepOutside_cons hc.1 hc.2 fun p hp => ?_]
    obtain ⟨c', hc', rfl⟩ := List.mem_map.mp hp
    rw [Candidate.span, Nat.zero_add]
    exact hord.1 c' hc'

theorem orderedInsert_last {α : Type} {r : α → α → Prop} [DecidableRel r] {a : α} {l : List α}
    (h : ∀ b ∈ l, ¬ r a b) : l.orderedInsert r a = l ++ [a] := by
  induction l with
  | nil => rfl
  | cons b l ih =>
    rw [List.orderedInsert_cons, if_neg (h b List.mem_cons_self),
      ih fun b' hb' => h b' (List.mem_cons_of_mem _ hb'), List.cons_append]

/-- What stands in order is reversed by the sort that `reverse=True` asks for. -/
theorem insertionSort_reverse {accepted : List Candidate}
    (h : accepted.Pairwise fun c c' => c.start < c'.start) :
    (accepted.insertionSort fun c c' => c'.start ≤ c.start) = accepted.reverse := by
  induction accepted with
  | nil => rfl
  | cons c accepted ih =>
    rw [List.pairwise_cons] at h
    rw [List.insertionSort_cons, ih h.2, orderedInsert_last, List.reverse_cons]
    intro c' hc'
    exact not_le.mpr (h.1 c' (List.mem_reverse.mp hc'))

theorem stripAccepted_eq {segment : List Char} {accepted : List Candidate}
    (hin : ∀ c ∈ accepted, c.Within segment)
    (hord : accepted.Pairwise fun c c' => c.stop ≤ c'.start) :
    stripAccepted segment accepted = keepOutside (accepted.map (Candidate.span 0)) 0 segment := by
  have hasc : accepted.Pairwise fun c c' => c.start < c'.start :=
    hord.imp_of_mem fun hc _ h => lt_of_lt_of_le (hin _ hc).1 h
  rw [stripAccepted, insertionSort_reverse hasc, List.foldl_reverse]
  exact foldr_strip hin hord

/-- What is about a segment that starts `n` characters into the content. -/
theorem keepOutside_shift (accepted : List Candidate) (n i : ℕ) (s : List Char) :
    keepOutside (accepted.map (Candidate.span n)) (n + i) s
      = keepOutside (accepted.map (Candidate.span 0)) i s := by
  induction s generalizing i with
  | nil => rfl
  | cons c s ih =>
    have hany : ∀ k, (accepted.map (Candidate.span k)).any
        (fun p => decide (p.1 ≤ k + i) && decide (k + i < p.2))
        = accepted.any fun c => decide (c.start ≤ i) && decide (i < c.stop) := by
      intro k
      rw [List.any_map]
      congr 1
      funext c
      simp [Candidate.span]
    have hzero := hany 0
    rw [Nat.zero_add] at hzero
    rw [keepOutside, keepOutside, hany n, hzero, Nat.add_assoc, ih]

/-! ## What is accepted -/

instance : Std.Total fun c c' : Candidate => c.start ≤ c'.start := ⟨fun _ _ => le_total _ _⟩

instance : IsTrans Candidate fun c c' => c.start ≤ c'.start := ⟨fun _ _ _ => le_trans⟩

/-- The accepted candidates between tags, and the bare ones. -/
def wrappedCalls (F : FloatText) (known : List String) (segment : List Char) : List Candidate :=
  (xmlCandidates F segment).filter fun c => decide (c.name ∈ known)

def bareCalls (F : FloatText) (known : List String) (segment : List Char) : List Candidate :=
  (canonicalCandidates F segment).filter fun c => decide (c.name ∈ known)

theorem acceptedCandidates_perm (F : FloatText) (known : List String) (segment : List Char) :
    (acceptedCandidates F known segment).Perm
      (wrappedCalls F known segment ++ bareCalls F known segment) := by
  rw [wrappedCalls, bareCalls, ← List.filter_append]
  exact (List.perm_insertionSort _ _).filter _

theorem acceptedCandidates_sorted (F : FloatText) (known : List String) (segment : List Char) :
    (acceptedCandidates F known segment).Pairwise fun c c' => c.start ≤ c'.start :=
  (List.pairwise_insertionSort (fun c c' : Candidate => c.start ≤ c'.start) _).filter _

theorem acceptedCandidates_within {F : FloatText} {known : List String} {segment : List Char}
    {c : Candidate} (h : c ∈ acceptedCandidates F known segment) : c.Within segment := by
  rcases List.mem_append.mp ((acceptedCandidates_perm F known segment).subset h) with h | h
  · exact xmlCandidates_within (List.mem_filter.mp h).1
  · exact canonicalCandidates_within (List.mem_filter.mp h).1

/-- A wrapped call stands in the text from `a` to `b`: its tags match the expression, which
stops at `e`, its object parses, and the first closing tag behind the object ends at `b`. -/
def WrappedCall (F : FloatText) (segment : List Char) (name : String) (a e b : ℕ) : Prop :=
  ∃ m ∈ finditer xmlRe 0 0 segment, m.start = a ∧ m.stop = e ∧
    ∃ bodyStart bodyStop stop parsed k, m.span .body = some (bodyStart, bodyStop) ∧
      balancedObjectAt segment bodyStart = some stop ∧
      loads F (slice segment bodyStart stop) = some (.obj parsed) ∧
      Dict.get parsed "name" = .str name ∧
      (argumentsJson F (Dict.get parsed "arguments")).isSome ∧
      find closeTag (segment.drop stop) = some k ∧ b = stop + k + closeTag.length

/-- A bare call does: it matches its expression, which stops at `e`, its arguments parse, a
brace that ends at `b` closes it, and it does not open in a wrapped call. -/
def BareCall (F : FloatText) (segment : List Char) (name : String) (a e b : ℕ) : Prop :=
  ∃ m ∈ finditer canonicalRe 0 0 segment, m.start = a ∧ m.stop = e ∧
    ∃ nameStart nameStop argsStart argsStop argsEnd parsedArgs after,
      m.span .name = some (nameStart, nameStop) ∧ m.span .args = some (argsStart, argsStop) ∧
      name = String.ofList (slice segment nameStart nameStop) ∧
      balancedObjectAt segment argsStart = some argsEnd ∧
      loads F (slice segment argsStart argsEnd) = some (.obj parsedArgs) ∧
      segment.drop (argsEnd + ((segment.drop argsEnd).takeWhile isWs).length) = '}' :: after ∧
      b = argsEnd + ((segment.drop argsEnd).takeWhile isWs).length + 1 ∧
      ∀ name' a' e' b', WrappedCall F segment name' a' e' b' → a < a' ∨ b' ≤ a

/-- In a list in order, of two members the smaller one stands before the other. -/
theorem pairwise_of_lt {α : Type} {f : α → ℕ} {r : α → α → Prop} {l : List α}
    (h : l.Pairwise fun a b => f a < f b ∧ r a b) {a b : α} (ha : a ∈ l) (hb : b ∈ l)
    (hlt : f a < f b) : r a b := by
  induction l with
  | nil => cases ha
  | cons x l ih =>
    obtain ⟨hx, hl⟩ := List.pairwise_cons.mp h
    rcases List.mem_cons.mp ha with rfl | hal
    · rcases List.mem_cons.mp hb with rfl | hbl
      · exact absurd hlt (lt_irrefl _)
      · exact (hx b hbl).2
    · rcases List.mem_cons.mp hb with rfl | hbl
      · exact absurd (hlt.trans (hx a hal).1) (lt_irrefl _)
      · exact ih hl hal hbl

theorem pairwise_of_forall {α : Type} {f : α → ℕ} {r : α → α → Prop} {l : List α}
    (hasc : l.Pairwise fun a b => f a < f b) (h : ∀ a ∈ l, ∀ b ∈ l, f a < f b → r a b) :
    l.Pairwise r :=
  hasc.imp_of_mem fun ha hb hlt => h _ ha _ hb hlt

/-- No call of an advertised tool opens in what is left of another where the expression
stopped, at the first `}</tool_call>` or the first `}}`, nor a wrapped one in a bare one. -/
def NoneWithin (F : FloatText) (known : List String) (segment : List Char) : Prop :=
  (∀ name ∈ known, ∀ a e b, WrappedCall F segment name a e b → ∀ i, e ≤ i → i < b →
    ∀ name' ∈ known, ∀ e' b', ¬ WrappedCall F segment name' i e' b') ∧
  (∀ name ∈ known, ∀ a e b, BareCall F segment name a e b → ∀ i, e ≤ i → i < b →
    ∀ name' ∈ known, ∀ e' b', ¬ BareCall F segment name' i e' b') ∧
  ∀ name ∈ known, ∀ a e b, BareCall F segment name a e b → ∀ i, a < i → i < b →
    ∀ name' ∈ known, ∀ e' b', ¬ WrappedCall F segment name' i e' b'

theorem wrappedCall_of_mem {F : FloatText} {segment : List Char} {c : Candidate}
    (h : c ∈ xmlCandidates F segment) : ∃ e, WrappedCall F segment c.name c.start e c.stop := by
  obtain ⟨m, hm, hc⟩ := List.mem_filterMap.mp h
  obtain ⟨bodyStart, bodyStop, stop, parsed, k, hspan, hstop, hparsed, hname, hargs, hk, hstart,
    hend⟩ := xmlCandidate_spec hc
  exact ⟨m.stop, m, hm, hstart.symm, rfl, bodyStart, bodyStop, stop, parsed, k, hspan, hstop,
    hparsed, hname, Option.isSome_of_eq_some hargs, hk, hend⟩

theorem WrappedCall.mem {F : FloatText} {segment : List Char} {name : String} {a e b : ℕ}
    (h : WrappedCall F segment name a e b) :
    ∃ c ∈ xmlCandidates F segment, c.name = name ∧ c.start = a ∧ c.stop = b := by
  obtain ⟨m, hm, rfl, -, bodyStart, bodyStop, stop, parsed, k, hspan, hstop, hparsed, hname, hargs,
    hk, rfl⟩ := h
  obtain ⟨argsJson, hargs⟩ := Option.isSome_iff_exists.mp hargs
  have hc : xmlCandidate F segment m
      = some ⟨m.start, stop + k + closeTag.length, name, argsJson⟩ := by
    simp only [xmlCandidate, hspan, hstop, hparsed, hname, hargs, hk, Option.map_some]
  exact ⟨_, List.mem_filterMap.mpr ⟨m, hm, hc⟩, rfl, rfl, rfl⟩

theorem bareCall_of_mem {F : FloatText} {segment : List Char} {c : Candidate}
    (h : c ∈ canonicalCandidates F segment) : ∃ e, BareCall F segment c.name c.start e c.stop := by
  obtain ⟨m, hm, hc⟩ := List.mem_filterMap.mp h
  obtain ⟨hcovered, nameStart, nameStop, argsStart, argsStop, argsEnd, parsedArgs, after, hname,
    hargs, hend, hparsed, hafter, rfl⟩ := canonicalCandidate_spec hc
  refine ⟨m.stop, m, hm, rfl, rfl, nameStart, nameStop, argsStart, argsStop, argsEnd, parsedArgs,
    after, hname, hargs, rfl, hend, hparsed, hafter, rfl, fun name' a' e' b' hw => ?_⟩
  obtain ⟨c', hc', -, rfl, rfl⟩ := hw.mem
  exact hcovered c' hc'

theorem BareCall.mem {F : FloatText} {segment : List Char} {name : String} {a e b : ℕ}
    (h : BareCall F segment name a e b) :
    ∃ c ∈ canonicalCandidates F segment, c.name = name ∧ c.start = a ∧ c.stop = b := by
  obtain ⟨m, hm, rfl, -, nameStart, nameStop, argsStart, argsStop, argsEnd, parsedArgs, after,
    hname, hargs, rfl, hend, hparsed, hafter, rfl, houtside⟩ := h
  have hcovered : ((xmlCandidates F segment).any fun c =>
      decide (c.start ≤ m.start) && decide (m.start < c.stop)) = false := by
    rw [List.any_eq_false]
    intro c hc
    obtain ⟨e', hw⟩ := wrappedCall_of_mem hc
    have := houtside _ _ _ _ hw
    simp only [Bool.and_eq_true, decide_eq_true_eq]
    omega
  have hc : canonicalCandidate F segment (xmlCandidates F segment) m =
      some ⟨m.start, argsEnd + ((segment.drop argsEnd).takeWhile isWs).length + 1,
        String.ofList (slice segment nameStart nameStop), dumps F (.obj parsedArgs)⟩ := by
    simp only [canonicalCandidate, hcovered, hname, hargs, hend, hparsed, hafter,
      Bool.false_eq_true, if_false]
  exact ⟨_, List.mem_filterMap.mpr ⟨m, hm, hc⟩, rfl, rfl, rfl⟩

/-- Of two wrapped calls the expression stops for the first before the other opens. -/
theorem WrappedCall.stop_le {F : FloatText} {segment : List Char} {name name' : String}
    {a e b a' e' b' : ℕ} (h : WrappedCall F segment name a e b)
    (h' : WrappedCall F segment name' a' e' b') (hlt : a < a') : e ≤ a' := by
  obtain ⟨m, hm, rfl, rfl, -⟩ := h
  obtain ⟨m', hm', rfl, rfl, -⟩ := h'
  exact pairwise_of_lt (finditer_disjoint xmlRe 0 0 segment) hm hm' hlt

theorem BareCall.stop_le {F : FloatText} {segment : List Char} {name name' : String}
    {a e b a' e' b' : ℕ} (h : BareCall F segment name a e b)
    (h' : BareCall F segment name' a' e' b') (hlt : a < a') : e ≤ a' := by
  obtain ⟨m, hm, rfl, rfl, -⟩ := h
  obtain ⟨m', hm', rfl, rfl, -⟩ := h'
  exact pairwise_of_lt (finditer_disjoint canonicalRe 0 0 segment) hm hm' hlt

/-- A match of either expression takes up some of the text. -/
theorem WrappedCall.start_lt {F : FloatText} {segment : List Char} {name : String} {a e b : ℕ}
    (h : WrappedCall F segment name a e b) : a < e := by
  obtain ⟨m, hm, rfl, rfl, -⟩ := h
  obtain ⟨text, rest, -, ht, -, hstop⟩ := matchAt_sound (match_drop hm)
  simp only [xmlRe, Pattern.cat, takes_lit_seq] at ht
  obtain ⟨text', rfl, -⟩ := ht
  have hopen : 0 < openTag.length := by decide
  rw [hstop, List.length_append]
  omega

theorem BareCall.start_lt {F : FloatText} {segment : List Char} {name : String} {a e b : ℕ}
    (h : BareCall F segment name a e b) : a < e := by
  obtain ⟨m, hm, rfl, rfl, -⟩ := h
  obtain ⟨text, rest, -, ht, -, hstop⟩ := matchAt_sound (match_drop hm)
  simp only [canonicalRe, Pattern.cat, takes_lit_seq] at ht
  obtain ⟨text', rfl, -⟩ := ht
  rw [hstop, List.length_append, List.length_singleton]
  omega

theorem mem_wrappedCalls {F : FloatText} {known : List String} {segment : List Char}
    {c : Candidate} : c ∈ wrappedCalls F known segment ↔ c ∈ xmlCandidates F segment ∧
    c.name ∈ known := by
  rw [wrappedCalls, List.mem_filter, decide_eq_true_eq]

theorem mem_bareCalls {F : FloatText} {known : List String} {segment : List Char}
    {c : Candidate} :
    c ∈ bareCalls F known segment ↔ c ∈ canonicalCandidates F segment ∧ c.name ∈ known := by
  rw [bareCalls, List.mem_filter, decide_eq_true_eq]

/-- Of two spans apart, the one that opens first ends first. -/
theorem Candidate.apart_iff {segment : List Char} {c c' : Candidate} (hin : c'.Within segment)
    (hlt : c.start < c'.start) : c.Apart c' ↔ c.stop ≤ c'.start := by
  have := hin.1
  unfold Candidate.Apart
  omega

/-- Accepted spans lie apart, just where none opens in what is left of another. -/
theorem apart_iff_noneWithin (F : FloatText) (known : List String) (segment : List Char) :
    (acceptedCandidates F known segment).Pairwise Candidate.Apart ↔ NoneWithin F known segment := by
  rw [(acceptedCandidates_perm F known segment).pairwise_iff fun h => h.symm,
    List.pairwise_append]
  have hwrapped : (wrappedCalls F known segment).Pairwise fun c c' => c.start < c'.start :=
    (xmlCandidates_ascending F segment).filter _
  have hbare : (bareCalls F known segment).Pairwise fun c c' => c.start < c'.start :=
    (canonicalCandidates_ascending F segment).filter _
  constructor
  · rintro ⟨hw, hb, hcross⟩
    refine ⟨?_, ?_, ?_⟩
    · intro name hname a e b h i hei hib name' hname' e' b' h'
      have hlt := Nat.lt_of_lt_of_le h.start_lt hei
      obtain ⟨c, hc, rfl, rfl, rfl⟩ := h.mem
      obtain ⟨c', hc', rfl, rfl, rfl⟩ := h'.mem
      have hapart := pairwise_of_lt (hwrapped.and hw) (mem_wrappedCalls.mpr ⟨hc, hname⟩)
        (mem_wrappedCalls.mpr ⟨hc', hname'⟩) hlt
      have := (Candidate.apart_iff (xmlCandidates_within hc') hlt).mp hapart
      omega
    · intro name hname a e b h i hei hib name' hname' e' b' h'
      have hlt := Nat.lt_of_lt_of_le h.start_lt hei
      obtain ⟨c, hc, rfl, rfl, rfl⟩ := h.mem
      obtain ⟨c', hc', rfl, rfl, rfl⟩ := h'.mem
      have hapart := pairwise_of_lt (hbare.and hb) (mem_bareCalls.mpr ⟨hc, hname⟩)
        (mem_bareCalls.mpr ⟨hc', hname'⟩) hlt
      have := (Candidate.apart_iff (canonicalCandidates_within hc') hlt).mp hapart
      omega
    · intro name hname a e b h i hai hib name' hname' e' b' h'
      obtain ⟨c, hc, rfl, rfl, rfl⟩ := h.mem
      obtain ⟨c', hc', rfl, rfl, rfl⟩ := h'.mem
      have hapart :=
        hcross c' (mem_wrappedCalls.mpr ⟨hc', hname'⟩) c (mem_bareCalls.mpr ⟨hc, hname⟩)
      have := (Candidate.apart_iff (xmlCandidates_within hc') hai).mp hapart.symm
      omega
  · rintro ⟨hw, hb, hcross⟩
    refine ⟨pairwise_of_forall hwrapped ?_, pairwise_of_forall hbare ?_, ?_⟩
    · intro c hc c' hc' hlt
      obtain ⟨hc, hname⟩ := mem_wrappedCalls.mp hc
      obtain ⟨hc', hname'⟩ := mem_wrappedCalls.mp hc'
      obtain ⟨e, h⟩ := wrappedCall_of_mem hc
      obtain ⟨e', h'⟩ := wrappedCall_of_mem hc'
      refine .inl (not_lt.mp fun hin => ?_)
      exact hw _ hname _ _ _ h _ (h.stop_le h' hlt) hin _ hname' _ _ h'
    · intro c hc c' hc' hlt
      obtain ⟨hc, hname⟩ := mem_bareCalls.mp hc
      obtain ⟨hc', hname'⟩ := mem_bareCalls.mp hc'
      obtain ⟨e, h⟩ := bareCall_of_mem hc
      obtain ⟨e', h'⟩ := bareCall_of_mem hc'
      refine .inl (not_lt.mp fun hin => ?_)
      exact hb _ hname _ _ _ h _ (h.stop_le h' hlt) hin _ hname' _ _ h'
    · intro c hc c' hc'
      obtain ⟨hc, hname⟩ := mem_wrappedCalls.mp hc
      obtain ⟨hc', hname'⟩ := mem_bareCalls.mp hc'
      obtain ⟨e, h⟩ := wrappedCall_of_mem hc
      obtain ⟨e', h'⟩ := bareCall_of_mem hc'
      rcases canonicalCandidates_uncovered hc' hc with hlt | hle
      · exact .inr (not_lt.mp fun hin => hcross _ hname' _ _ _ h' _ hlt hin _ hname _ _ h)
      · exact .inl hle

/-! ## The new content -/

/-- What is kept outside of the accepted spans, of the whole content. -/
theorem take_append_strip {content : List Char} {accepted : List Candidate}
    (hin : ∀ c ∈ accepted, c.Within (content.drop (segmentStart content)))
    (hord : accepted.Pairwise fun c c' => c.stop ≤ c'.start) :
    content.take (segmentStart content) ++ stripAccepted
    (content.drop (segmentStart content)) accepted
      = keepOutside (accepted.map (Candidate.span (segmentStart content))) 0 content := by
  generalize hn : segmentStart content = n at hin ⊢
  have hle : n ≤ content.length := by
    rw [← hn, segmentStart]
    split
    · rename_i i hi
      obtain ⟨before, after, hc, hlen⟩ := rfind_sound hi
      have := congrArg List.length hc
      simp only [List.length_append] at this
      omega
    · exact Nat.zero_le _
  have hlen : (content.take n).length = n := by
    rw [List.length_take]
    omega
  conv_rhs => rw [← List.take_append_drop n content]
  rw [keepOutside_append, hlen, Nat.zero_add, stripAccepted_eq hin hord]
  congr 1
  · refine (keepOutside_of_outside fun p hp => .inl ?_).symm
    obtain ⟨c, -, rfl⟩ := List.mem_map.mp hp
    rw [hlen, Nat.zero_add]
    exact Nat.le_add_right _ _
  · exact (keepOutside_shift accepted n 0 _).symm

/-- The accepted spans lie apart, each call that is added is one of them, in order, and
the new content is the content without them, squashed and stripped. -/
def StripsExactly (F : FloatText) (uuid : ℕ → String) (result tools : Json) : Prop :=
  ∀ t, gates result tools = some t →
    let n := segmentStart t.content
    let accepted := acceptedCandidates F t.known (t.content.drop n)
    accepted.Pairwise Candidate.Apart ∧
    maybeRecoverToolCalls F uuid result tools =
      if accepted.isEmpty then result
      else t.apply uuid
        (strip (squash 0 (keepOutside (accepted.map (Candidate.span n)) 0 t.content))) accepted

instance (c c' : Candidate) : Decidable (c.Apart c') :=
  inferInstanceAs (Decidable (_ ∨ _))

end Turbohaul.ToolCalls
