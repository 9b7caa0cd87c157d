/-
# What the recovery of tool calls adds

Every call that is added is named in the request's tools and is written in the
content after the last `</think>`.  Its arguments parse as an object where they were
written as an object.  Where they were written as a string, the string only has to
parse: `"arguments": "3"` is accepted, though the comment where a candidate is
accepted says that its arguments are an object.

  `Writes`                 the texts that write a call
  `occurs`                 an accepted candidate is written in the segment
  `recovers_soundly_iff`
-/
import Turbohaul.ToolCallSpans
import Turbohaul.JsonRoundTrip

namespace Turbohaul.ToolCalls

open Regex JsonText

/-! ## The segment -/

theorem rfind_none_of_cons {sub s : List Char} {c : Char} (h : rfind sub (c :: s) = none) :
    rfind sub s = none := by
  rw [rfind] at h
  split at h
  · cases h
  · assumption

theorem rfind_drop_none {sub s : List Char} (h : rfind sub s = none) (k : ℕ) :
    rfind sub (s.drop k) = none := by
  induction s generalizing k with
  | nil => rwa [List.drop_nil]
  | cons c s ih =>
    cases k with
    | zero => exact h
    | succ k => exact ih (rfind_none_of_cons h) k

/-- After the last occurrence there is none. -/
theorem rfind_drop {sub s : List Char} {i k : ℕ} (h : rfind sub s = some i) (hk : i < k)
    (hsub : sub ≠ []) : rfind sub (s.drop k) = none := by
  induction s generalizing i k with
  | nil =>
    rw [rfind, if_neg hsub] at h
    cases h
  | cons c s ih =>
    obtain ⟨k, rfl⟩ : ∃ j, k = j + 1 := ⟨k - 1, by omega⟩
    rw [List.drop_succ_cons]
    rw [rfind] at h
    split at h
    · rename_i j hj
      exact ih hj (by have := Option.some.inj h; omega)
    · rename_i hnone
      exact rfind_drop_none hnone k

/-- What the scan reads: what follows the last `</think>`, or the content where there
is none. -/
theorem segment_spec (content : List Char) :
    rfind thinkClose (content.drop (segmentStart content)) = none ∧
      (segmentStart content = 0 ∨
        ∃ before, content = before ++ thinkClose ++ content.drop (segmentStart content)) := by
  unfold segmentStart
  split
  · rename_i i hi
    refine ⟨rfind_drop hi ?_ (by decide), .inr ?_⟩
    · have : 0 < thinkClose.length := by decide
      omega
    · obtain ⟨before, after, rfl, rfl⟩ := rfind_sound hi
      refine ⟨before, ?_⟩
      rw [← List.length_append, List.drop_left]
  · rename_i hnone
    exact ⟨hnone, .inl rfl⟩

/-! ## Written calls -/

/-- The texts that write the call of a candidate. -/
inductive Writes (F : FloatText) (c : Candidate) : List Char → Prop
  | wrapped {w object gap : List Char} {parsed : Dict} (hw : ∀ ch ∈ w, pyIsSpace ch)
      (hobject : loads F object = some (.obj parsed))
      (hname : Dict.get parsed "name" = .str c.name)
      (hargs : argumentsJson F (Dict.get parsed "arguments") = some c.argsJson) :
      Writes F c (openTag ++ (w ++ (object ++ (gap ++ closeTag))))
  | bare {w₁ w₂ w₃ w₄ w₅ w₆ w₇ w₈ object : List Char} {parsedArgs : Dict}
      (hw : ∀ ch ∈ w₁ ++ w₂ ++ w₃ ++ (w₄ ++ w₅ ++ w₆ ++ w₇) ++ w₈, pyIsSpace ch)
      (hname : ∀ ch ∈ c.name.toList, ch ≠ '"')
      (hobject : loads F object = some (.obj parsedArgs))
      (hargs : c.argsJson = dumps F (.obj parsedArgs)) :
      Writes F c ('{' :: (w₁ ++ ("\"name\"".toList ++ (w₂ ++ (':' :: (w₃ ++ ['"']))))) ++
        (c.name.toList ++ ('"' :: (w₄ ++ (',' :: (w₅ ++ ("\"arguments\"".toList ++
          (w₆ ++ (':' :: w₇)))))) ++ (object ++ (w₈ ++ ['}'])))))

theorem slice_append_drop (s : List Char) {i j : ℕ} (h : i ≤ j) :
    slice s i j ++ s.drop j = s.drop i := by
  have hdrop : s.drop j = (s.drop i).drop (j - i) := by
    rw [List.drop_drop]
    congr 1
    omega
  rw [slice, hdrop, List.take_append_drop]

theorem isWs_isSpace {c : Char} (h : isWs c) : pyIsSpace c := by
  simp only [isWs, Bool.or_eq_true, decide_eq_true_eq] at h
  rcases h with ((rfl | rfl) | rfl) | rfl <;> decide

/-- A part of what follows a position is a part of the text. -/
theorem infix_of_drop {text s : List Char} (i : ℕ) (after : List Char)
    (h : s.drop i = text ++ after) : text <:+: s :=
  ⟨s.take i, after, by rw [List.append_assoc, ← h, List.take_append_drop]⟩

theorem xmlCandidates_write {F : FloatText} {segment : List Char} {c : Candidate}
    (h : c ∈ xmlCandidates F segment) : ∃ text, Writes F c text ∧ text <:+: segment := by
  obtain ⟨m, hm, hc⟩ := List.mem_filterMap.mp h
  obtain ⟨bodyStart, bodyStop, stop, parsed, k, hspan, hstop, hparsed, hname, hargs, hk, -, -⟩ :=
    xmlCandidate_spec hc
  obtain ⟨w, inner, w', rest, hdrop, hw, -, -, hbody⟩ := xmlRe_sound (match_drop hm)
  rw [hspan, Option.some.injEq, Prod.mk.injEq] at hbody
  obtain ⟨before, after, hclose, -⟩ := find_sound hk
  have htext : Writes F c
      (openTag ++ (w ++ (slice segment bodyStart stop ++ (before ++ closeTag)))) :=
    .wrapped hw hparsed hname hargs
  refine ⟨_, htext, infix_of_drop m.start after ?_⟩
  -- the body starts after the tag and the whitespace there
  have hb : segment.drop bodyStart = '{' :: inner ++ ['}'] ++ (w' ++ (closeTag ++ rest)) := by
    rw [hbody.1, Nat.add_assoc, ← List.drop_drop, hdrop, ← List.length_append,
      ← List.append_assoc openTag, List.drop_left]
  rw [hdrop, ← hb, ← slice_append_drop segment (balancedObjectAt_le hstop).1.le, hclose]
  simp only [List.append_assoc]

theorem canonicalCandidates_write {F : FloatText} {segment : List Char} {c : Candidate}
    (h : c ∈ canonicalCandidates F segment) : ∃ text, Writes F c text ∧ text <:+: segment := by
  obtain ⟨m, hm, hc⟩ := List.mem_filterMap.mp h
  obtain ⟨-, nameStart, nameStop, argsStart, argsStop, argsEnd, parsedArgs, after, hname, hargs,
    hend, hparsed, hafter, rfl⟩ := canonicalCandidate_spec hc
  obtain ⟨_, name, _, inner, rest, hdrop, ⟨w₁, w₂, w₃, rfl, hw⟩, ⟨w₄, w₅, w₆, w₇, rfl, hw'⟩,
    ⟨-, hquote⟩, -, hspan, hspan'⟩ := canonicalRe_sound (match_drop hm)
  rw [hname, Option.some.injEq, Prod.mk.injEq] at hspan
  rw [hargs, Option.some.injEq, Prod.mk.injEq] at hspan'
  generalize hbefore : '{' :: (w₁ ++ ("\"name\"".toList ++ (w₂ ++ (':' :: (w₃ ++ ['"']))))) = before
    at hdrop hspan hspan'
  generalize hbetween : '"' :: (w₄ ++ (',' :: (w₅ ++ ("\"arguments\"".toList ++
    (w₆ ++ (':' :: w₇)))))) = between at hdrop hspan'
  -- the name, and the arguments with what follows them
  have hn : segment.drop nameStart = name ++ (between ++ ('{' :: inner ++ ['}'] ++ rest)) := by
    rw [hspan.1, ← List.drop_drop, hdrop, List.drop_left]
  have hslice : slice segment nameStart nameStop = name := by
    rw [slice, hn, hspan.1, hspan.2, Nat.add_sub_cancel_left, List.take_left]
  have ha : segment.drop argsStart = '{' :: inner ++ ['}'] ++ rest := by
    rw [hspan'.1, ← List.drop_drop, hdrop, ← List.append_assoc, ← List.append_assoc, List.drop_left]
  obtain ⟨w₈, hws, hw₈⟩ : ∃ w, segment.drop argsEnd = w ++ '}' :: after ∧ ∀ ch ∈ w, isWs ch := by
    have hsplit := List.takeWhile_append_dropWhile (p := isWs) (l := segment.drop argsEnd)
    have hall : ((segment.drop argsEnd).takeWhile isWs).all isWs := List.all_takeWhile
    rw [← List.drop_drop] at hafter
    generalize (segment.drop argsEnd).takeWhile isWs = w at hsplit hafter hall
    rw [← hsplit, List.drop_left] at hafter
    exact ⟨w, by rw [← hafter, hsplit], List.all_eq_true.mp hall⟩
  refine ⟨_, @Writes.bare F _ w₁ w₂ w₃ w₄ w₅ w₆ w₇ w₈ _ _ ?_ ?_ hparsed rfl,
    infix_of_drop m.start after ?_⟩
  · intro ch hch
    rcases List.mem_append.mp hch with hch | hch
    · rcases List.mem_append.mp hch with hch | hch
      · exact hw ch hch
      · exact hw' ch hch
    · exact isWs_isSpace (hw₈ ch hch)
  · intro ch hch
    rw [hslice, String.toList_ofList] at hch
    exact hquote ch hch
  · rw [hbefore, hbetween, hslice, String.toList_ofList, hdrop, ← ha,
      ← slice_append_drop segment (balancedObjectAt_le hend).1.le, hws]
    simp only [List.append_assoc, List.cons_append, List.nil_append]

theorem occurs {F : FloatText} {known : List String} {segment : List Char} {c : Candidate}
    (h : c ∈ acceptedCandidates F known segment) : ∃ text, Writes F c text ∧ text <:+: segment := by
  rcases List.mem_append.mp ((acceptedCandidates_perm F known segment).subset h) with h | h
  · exact xmlCandidates_write (List.mem_filter.mp h).1
  · exact canonicalCandidates_write (List.mem_filter.mp h).1

theorem accepted_known {F : FloatText} {known : List String} {segment : List Char} {c : Candidate}
    (h : c ∈ acceptedCandidates F known segment) : c.name ∈ known :=
  of_decide_eq_true (List.mem_filter.mp h).2

/-! ## Arguments -/

/-- Arguments that parse as an object. -/
def ParsesToObject (F : FloatText) (argsJson : List Char) : Prop :=
  ∃ d, loads F argsJson = some (.obj d)

theorem dumps_parsesToObject {F : FloatText} {d : Dict} (h : Readable F (.obj d)) :
    ParsesToObject F (dumps F (.obj d)) := ⟨d, loads_dumps h⟩

theorem readableItems_get {F : FloatText} {d : Dict} (h : ReadableItems F d) (k : String) :
    Readable F (d.get k) := by
  induction d with
  | nil => trivial
  | cons kv d ih =>
    obtain ⟨k', v⟩ := kv
    rw [ReadableItems] at h
    rw [Dict.get_cons]
    split
    · exact h.1
    · exact ih h.2

theorem canonicalCandidates_object {F : FloatText} {segment : List Char} {c : Candidate}
    (h : c ∈ canonicalCandidates F segment) : ParsesToObject F c.argsJson := by
  obtain ⟨m, -, hc⟩ := List.mem_filterMap.mp h
  obtain ⟨-, _, _, _, _, _, parsedArgs, _, -, -, -, hparsed, -, rfl⟩ := canonicalCandidate_spec hc
  exact dumps_parsesToObject (loads_readable hparsed)

/-- Every object between tags that names an advertised tool and has a string for its
arguments has one that parses, if at all, as an object. -/
def StringArgumentsAreObjects (F : FloatText) (known : List String) (segment : List Char) : Prop :=
  ∀ m ∈ finditer xmlRe 0 0 segment, ∀ bodyStart bodyStop stop parsed name args v,
    m.span .body = some (bodyStart, bodyStop) → balancedObjectAt segment bodyStart = some stop →
    loads F (slice segment bodyStart stop) = some (.obj parsed) →
    Dict.get parsed "name" = .str name → name ∈ known →
    Dict.get parsed "arguments" = .str args → loads F args.toList = some v →
    closeTag <:+: segment.drop stop → ∃ d, v = .obj d

/-- The text is found in a text it is part of. -/
theorem find_of_infixed {sub s : List Char} (h : sub <:+: s) : (find sub s).isSome := by
  induction s with
  | nil =>
    rw [List.infix_nil] at h
    rw [h]
    rfl
  | cons c s ih =>
    rw [find]
    split
    · rfl
    · rename_i hnot
      rw [Option.isSome_map]
      rcases List.infix_cons_iff.mp h with hp | h
      · exact absurd (List.isPrefixOf_iff_prefix.mpr hp) hnot
      · exact ih h

theorem xmlCandidates_object_iff (F : FloatText) (known : List String) (segment : List Char) :
    (∀ c ∈ wrappedCalls F known segment, ParsesToObject F c.argsJson) ↔
      StringArgumentsAreObjects F known segment := by
  constructor
  · intro h m hm bodyStart bodyStop stop parsed name args v hspan hstop hparsed hname hknown hargs
      hv hclose
    obtain ⟨k, hk⟩ := Option.isSome_iff_exists.mp (find_of_infixed hclose)
    have hc : xmlCandidate F segment m
        = some ⟨m.start, stop + k + closeTag.length, name, args.toList⟩ := by
      simp only [xmlCandidate, hspan, hstop, hparsed, hname, hargs, argumentsJson, hv, hk,
        Option.isSome_some, if_true, Option.map_some]
    obtain ⟨d, hd⟩ := h _ (List.mem_filter.mpr ⟨List.mem_filterMap.mpr ⟨m, hm, hc⟩,
      decide_eq_true hknown⟩)
    exact ⟨d, Option.some.inj (hv.symm.trans hd)⟩
  · intro h c hc
    obtain ⟨hc, hknown⟩ := List.mem_filter.mp hc
    obtain ⟨m, hm, hc⟩ := List.mem_filterMap.mp hc
    obtain ⟨bodyStart, bodyStop, stop, parsed, k, hspan, hstop, hparsed, hname, hargs, hk, -, -⟩ :=
      xmlCandidate_spec hc
    unfold argumentsJson at hargs
    split at hargs
    · rename_i args hget
      have hread := loads_readable hparsed
      rw [Readable] at hread
      rw [← Option.some.inj hargs]
      exact dumps_parsesToObject (hget ▸ readableItems_get hread.2 "arguments")
    · rename_i args hget
      split at hargs
      · rename_i hsome
        obtain ⟨v, hv⟩ := Option.isSome_iff_exists.mp hsome
        obtain ⟨before, after, hclose, -⟩ := find_sound hk
        obtain ⟨d, rfl⟩ := h m hm bodyStart bodyStop stop parsed c.name args v hspan hstop hparsed
          hname (of_decide_eq_true hknown) hget hv ⟨before, after, hclose.symm⟩
        exact ⟨d, Option.some.inj hargs ▸ hv⟩
      · cases hargs
    · cases hargs

/-! ## The result -/

theorem maybeRecoverToolCalls_populated {F : FloatText} {uuid : ℕ → String} {result : Json}
    (tools : Json) (h : populated ((toolCalls result).getD .null)) :
    maybeRecoverToolCalls F uuid result tools = result := by
  have hgates : gates result tools = none := by
    cases ht : gates result tools with
    | none => rfl
    | some t =>
      have H := gates_spec ht
      rw [toolCalls, H.firstMessage] at h
      exact absurd h H.calls
  rw [maybeRecoverToolCalls, hgates]

/-- What the recovery does with a result. -/
theorem maybeRecoverToolCalls_cases (F : FloatText) (uuid : ℕ → String) (result tools : Json) :
    (recoveredCalls F result tools = [] ∧ maybeRecoverToolCalls F uuid result tools = result) ∨
    (recoveredCalls F result tools ≠ [] ∧
      toolCalls (maybeRecoverToolCalls F uuid result tools)
        = some (.arr ((recoveredCalls F result tools).zipIdx.map fun ci =>
          toolCall (uuid ci.2) ci.1))) := by
  unfold recoveredCalls maybeRecoverToolCalls
  cases gates result tools with
  | none => exact .inl ⟨rfl, rfl⟩
  | some t =>
    dsimp only [recover]
    cases acceptedCandidates F t.known (t.content.drop (segmentStart t.content)) with
    | nil => exact .inl ⟨rfl, rfl⟩
    | cons c accepted => exact .inr ⟨(by rintro ⟨⟩), toolCalls_apply _ _ _ _⟩

/-- A second application changes nothing. -/
theorem maybeRecoverToolCalls_twice (F : FloatText) (uuid uuid' : ℕ → String)
    (result tools : Json) :
    maybeRecoverToolCalls F uuid' (maybeRecoverToolCalls F uuid result tools) tools
      = maybeRecoverToolCalls F uuid result tools := by
  rcases maybeRecoverToolCalls_cases F uuid result tools with ⟨hnil, hsame⟩ | ⟨hne, hcalls⟩
  · rw [hsame]
    rcases maybeRecoverToolCalls_cases F uuid' result tools with ⟨-, hsame'⟩ | ⟨hne, -⟩
    · exact hsame'
    · exact absurd hnil hne
  · refine maybeRecoverToolCalls_populated tools ?_
    obtain ⟨c, cs, hcs⟩ := List.exists_cons_of_ne_nil hne
    rw [hcalls, hcs]
    rfl

/-- What the recovery promises of a result: the calls it adds, which are the
`tool_calls` of what it gives, are advertised, have an object for their arguments and
are written after the last `</think>`; a result that has calls, and one that was
recovered, is left as it is. -/
def RecoversSoundly (F : FloatText) (uuid : ℕ → String) (result tools : Json) : Prop :=
  ((recoveredCalls F result tools = [] ∧ maybeRecoverToolCalls F uuid result tools = result) ∨
    toolCalls (maybeRecoverToolCalls F uuid result tools)
      = some (.arr ((recoveredCalls F result tools).zipIdx.map fun ci =>
        toolCall (uuid ci.2) ci.1))) ∧
  (∀ c ∈ recoveredCalls F result tools, c.name ∈ extractKnownNames tools ∧
    ParsesToObject F c.argsJson ∧
    ∃ t segment, gates result tools = some t ∧ segment <:+ t.content ∧
      rfind thinkClose segment = none ∧
      (segment = t.content ∨ ∃ before, t.content = before ++ thinkClose ++ segment) ∧
      ∃ text, Writes F c text ∧ text <:+: segment) ∧
  (populated ((toolCalls result).getD .null) → maybeRecoverToolCalls F uuid result tools = result) ∧
  maybeRecoverToolCalls F uuid (maybeRecoverToolCalls F uuid result tools) tools
    = maybeRecoverToolCalls F uuid result tools

/-- The recovery is sound, just where every object between tags that names an
advertised tool and has a string for its arguments has an object in it. -/
theorem recovers_soundly_iff (F : FloatText) (uuid : ℕ → String) (result tools : Json) :
    RecoversSoundly F uuid result tools ↔
      ∀ t, gates result tools = some t →
        StringArgumentsAreObjects F t.known (t.content.drop (segmentStart t.content)) := by
  constructor
  · rintro ⟨-, hsound, -, -⟩ t ht
    refine (xmlCandidates_object_iff F t.known _).mp fun c hc => ?_
    refine (hsound c ?_).2.1
    rw [recoveredCalls, ht]
    exact (acceptedCandidates_perm F t.known _).symm.subset (List.mem_append_left _ hc)
  · intro h
    refine ⟨?_, fun c hc => ?_, maybeRecoverToolCalls_populated tools,
      maybeRecoverToolCalls_twice F uuid uuid result tools⟩
    · exact (maybeRecoverToolCalls_cases F uuid result tools).imp id And.right
    · rw [recoveredCalls] at hc
      cases ht : gates result tools with
      | none =>
        rw [ht] at hc
        exact absurd hc List.not_mem_nil
      | some t =>
        rw [ht] at hc
        obtain ⟨hnone, hstart⟩ := segment_spec t.content
        refine ⟨(gates_spec ht).known ▸ accepted_known hc, ?_, t, _, rfl, List.drop_suffix _ _,
          hnone, ?_, occurs hc⟩
        · rcases List.mem_append.mp ((acceptedCandidates_perm F t.known _).subset hc) with hc | hc
          · exact (xmlCandidates_object_iff F t.known _).mpr (h t ht) c hc
          · exact canonicalCandidates_object (List.mem_filter.mp hc).1
        · refine hstart.imp (fun h0 => ?_) id
          rw [h0, List.drop_zero]

/-- A wrapped call whose arguments are the string `"3"` is accepted. -/
theorem recovers_soundly_string_arguments :
    let F : FloatText := ⟨fun _ => .nan, fun _ => [], nofun⟩
    let content := "<tool_call>\x7b\"name\": \"f\", \"arguments\": \"3\"\x7d</tool_call>"
    let result : Json :=
      .obj [("choices", .arr [.obj [("message", .obj [("content", .str content)])]])]
    let tools : Json := .arr [.obj [("function", .obj [("name", .str "f")])]]
    ¬ RecoversSoundly F (fun _ => "00000000") result tools := by
  intro F content result tools h
  have hcalls : (recoveredCalls F result tools).map (·.argsJson) = [['3']] := by decide +kernel
  obtain ⟨c, hc, hargs⟩ := List.mem_map.mp (hcalls ▸ List.mem_singleton_self _ :
    ['3'] ∈ (recoveredCalls F result tools).map (·.argsJson))
  obtain ⟨d, hd⟩ := (h.2.1 c hc).2.1
  rw [hargs] at hd
  have hthree : loads F ['3'] = some (.int 3) := by rfl
  rw [hthree] at hd
  cases hd

end Turbohaul.ToolCalls
