/-
# `Reasoning` — thinking merged into the content

`_merge_reasoning_into_content` of `api/chat_completion.py` puts `reasoning_content`
between `<think>` tags in front of the content, and `maybe_recover_tool_calls` then
scans the content.  It scans from the last `</think>` on: that is one of the content's
own, or else the one the merge wrote, and what is scanned is then the content after
two line breaks.  Where no candidate can start, two more characters change nothing
but positions.

  `_merge_reasoning_into_content`   `mergeReasoningIntoContent`
  `acceptedCandidates_cons`         a character in front of the segment
  `contentCalls_withThinking`       the reasoning in front of a content
  `toolCalls_merge`                 the tool calls of the merged result
-/
import Turbohaul.ToolCallSpans

namespace Turbohaul.ToolCalls

open Regex JsonText

/-- `x or ""`. -/
def orEmpty (x : Json) : Json := if x.truthy then x else .str ""

/-- The content with the reasoning in front. -/
def withThinking (reasoning content : List Char) : List Char :=
  if strip content ≠ [] then
    "<think>\n".toList ++ strip reasoning ++ "\n".toList ++ thinkClose ++ "\n\n".toList ++ content
  else "<think>\n".toList ++ strip reasoning ++ "\n".toList ++ thinkClose

/-- What the loop does with a message. -/
def mergeMessage (msg : Dict) : Dict :=
  match orEmpty (msg.get "reasoning_content"), orEmpty (msg.get "content") with
  | .str rc, .str ct =>
    if strip rc.toList = [] then msg
    else msg.set "content" (.str (String.ofList (withThinking rc.toList ct.toList)))
  | _, _ => msg

/-- What `f` does with the message of a choice. -/
def mapMessage (f : Dict → Dict) : Json → Json
  | .obj choice =>
    match Dict.get choice "message" with
    | .obj msg => .obj (Dict.set choice "message" (.obj (f msg)))
    | _ => .obj choice
  | choice => choice

/-- What `f` does with the messages of a result. -/
def mapMessages (f : Dict → Dict) : Json → Json
  | .obj res =>
    match Dict.get res "choices" with
    | .arr choices => .obj (Dict.set res "choices" (.arr (choices.map (mapMessage f))))
    | _ => .obj res
  | result => result

/-- `response_format.get("type") in ("json_object", "json_schema")`. -/
def structured : Json → Bool
  | .obj rf =>
    match Dict.get rf "type" with
    | .str t => t = "json_object" || t = "json_schema"
    | _ => false
  | _ => false

/-- `_merge_reasoning_into_content`. -/
def mergeReasoningIntoContent (result responseFormat : Json) : Json :=
  if structured responseFormat then result else mapMessages mergeMessage result

/-- A message without its `reasoning_content`. -/
def withoutReasoning (msg : Dict) : Dict := msg.filter fun kv => kv.1 ≠ "reasoning_content"

/-! ## A character in front of the segment -/

/-- A candidate `d` further on. -/
def Candidate.shift (d : ℕ) (c : Candidate) : Candidate :=
  { c with start := c.start + d, stop := c.stop + d }

theorem balancedObjectAt_cons (c : Char) (s : List Char) (i : ℕ) :
    balancedObjectAt (c :: s) (i + 1) = (balancedObjectAt s i).map (· + 1) := by
  unfold balancedObjectAt
  rw [List.drop_succ_cons]
  split
  · rw [Option.map_map]
    congr 1
    funext n
    simp only [Function.comp_apply]
    omega
  · rfl

theorem slice_cons (c : Char) (s : List Char) (i j : ℕ) :
    slice (c :: s) (i + 1) (j + 1) = slice s i j := by
  rw [slice, slice, List.drop_succ_cons, Nat.add_sub_add_right]

theorem xmlCandidate_cons (F : FloatText) (c : Char) (s : List Char) (m : Match Group) :
    xmlCandidate F (c :: s) (m.shift 1) = (xmlCandidate F s m).map (Candidate.shift 1) := by
  unfold xmlCandidate
  rw [Match.span_shift]
  cases m.span .body with
  | none => rfl
  | some p =>
    dsimp only [Option.map_some]
    rw [balancedObjectAt_cons]
    cases balancedObjectAt s p.1 with
    | none => rfl
    | some stop =>
      dsimp only [Option.map_some]
      rw [slice_cons, List.drop_succ_cons]
      split
      · split
        · rw [Option.map_map]
          congr 1
          funext k
          simp only [Function.comp_apply, Candidate.shift, Match.shift, Candidate.mk.injEq]
          exact ⟨trivial, by omega, trivial, trivial⟩
        · rfl
      · rfl

theorem canonicalCandidate_cons (F : FloatText) (c : Char) (s : List Char)
    (covered : List Candidate) (m : Match Group) :
    canonicalCandidate F (c :: s) (covered.map (Candidate.shift 1)) (m.shift 1)
      = (canonicalCandidate F s covered m).map (Candidate.shift 1) := by
  have hcovered : ((covered.map (Candidate.shift 1)).any fun c =>
      decide (c.start ≤ (m.shift 1).start) && decide ((m.shift 1).start < c.stop))
      = covered.any fun c => decide (c.start ≤ m.start) && decide (m.start < c.stop) := by
    rw [List.any_map]
    congr 1
    funext c
    simp [Candidate.shift, Match.shift]
  unfold canonicalCandidate
  rw [hcovered, Match.span_shift, Match.span_shift]
  split
  · rfl
  · cases m.span .name with
    | none => rfl
    | some n =>
      cases m.span .args with
      | none => rfl
      | some a =>
        dsimp only [Option.map_some]
        rw [balancedObjectAt_cons]
        cases balancedObjectAt s a.1 with
        | none => rfl
        | some stop =>
          dsimp only [Option.map_some]
          rw [slice_cons, slice_cons, List.drop_succ_cons, Nat.add_right_comm stop 1,
            List.drop_succ_cons]
          split
          · split
            · rfl
            · rfl
          · rfl

/-- A character that is neither `<` nor `{`. -/
def Plain (c : Char) : Prop := c ≠ '<' ∧ c ≠ '{'

theorem matchAt_lit {r : Pattern Group} {a c : Char} {cs s : List Char} (i : ℕ) (h : c ≠ a) :
    matchAt (.seq (.lit (a :: cs)) r) i (c :: s) = none := by
  rw [matchAt, run, run, if_neg]
  rw [List.isPrefixOf_cons_cons, Bool.and_eq_true, beq_iff_eq]
  exact fun hp => h hp.1.symm

theorem finditer_cons {r : Pattern Group} {c : Char} {s : List Char}
    (h : matchAt r 0 (c :: s) = none) :
    finditer r 0 0 (c :: s) = (finditer r 0 0 s).map (Match.shift 1) := by
  rw [finditer, h]
  exact finditer_shift r 1 0 0 s

theorem xmlRe_plain {c : Char} (h : Plain c) (s : List Char) : matchAt xmlRe 0 (c :: s) = none :=
  matchAt_lit 0 h.1

theorem canonicalRe_plain {c : Char} (h : Plain c) (s : List Char) :
    matchAt canonicalRe 0 (c :: s) = none :=
  matchAt_lit 0 h.2

theorem xmlCandidates_cons (F : FloatText) {c : Char} (h : Plain c) (s : List Char) :
    xmlCandidates F (c :: s) = (xmlCandidates F s).map (Candidate.shift 1) := by
  rw [xmlCandidates, finditer_cons (xmlRe_plain h s), List.filterMap_map, xmlCandidates,
    List.map_filterMap]
  refine List.filterMap_congr fun m _ => ?_
  exact xmlCandidate_cons F c s m

theorem canonicalCandidates_cons (F : FloatText) {c : Char} (h : Plain c) (s : List Char) :
    canonicalCandidates F (c :: s) = (canonicalCandidates F s).map (Candidate.shift 1) := by
  rw [canonicalCandidates, finditer_cons (canonicalRe_plain h s), List.filterMap_map,
    canonicalCandidates, List.map_filterMap, xmlCandidates_cons F h]
  refine List.filterMap_congr fun m _ => ?_
  exact canonicalCandidate_cons F c s _ m

theorem acceptedCandidates_cons (F : FloatText) (known : List String) {c : Char} (h : Plain c)
    (s : List Char) : acceptedCandidates F known (c :: s)
      = (acceptedCandidates F known s).map (Candidate.shift 1) := by
  have hsort := List.map_insertionSort (fun c c' : Candidate => c.start ≤ c'.start)
    (fun c c' : Candidate => c.start ≤ c'.start) (Candidate.shift 1)
    (xmlCandidates F s ++ canonicalCandidates F s) (fun c _ c' _ => by simp [Candidate.shift])
  rw [acceptedCandidates, iterCandidates, xmlCandidates_cons F h, canonicalCandidates_cons F h,
    ← List.map_append, ← hsort, List.filter_map]
  rfl

/-! ## The segment -/

/-- The name and the arguments of a candidate. -/
def Candidate.call (c : Candidate) : String × List Char := (c.name, c.argsJson)

/-- The calls of a content. -/
def contentCalls (F : FloatText) (known : List String) (content : List Char) : List Candidate :=
  acceptedCandidates F known (content.drop (segmentStart content))

theorem drop_segmentStart {content : List Char} {i : ℕ} (h : rfind thinkClose content = some i)
    (before : List Char) : (before ++ content).drop (segmentStart (before ++ content))
      = content.drop (segmentStart content) := by
  rw [segmentStart, rfind_append h, segmentStart, h]
  dsimp only
  rw [Nat.add_assoc, ← List.drop_drop, List.drop_left]

theorem drop_segmentStart_close (before : List Char) {after : List Char}
    (h : rfind thinkClose after = none) :
    (before ++ (thinkClose ++ after)).drop (segmentStart (before ++ (thinkClose ++ after))) =
    after := by
  have hclose : rfind thinkClose (thinkClose ++ after) = some 0 := by
    have htail : rfind thinkClose ("/think>".toList ++ after) = none := rfind_skip h (by decide)
    show rfind thinkClose ('<' :: ("/think>".toList ++ after)) = some 0
    rw [rfind, htail]
    exact if_pos (List.isPrefixOf_iff_prefix.mpr (List.prefix_append _ _))
  rw [drop_segmentStart hclose, segmentStart, hclose]
  dsimp only
  rw [Nat.zero_add]
  exact List.drop_left

/-- The reasoning changes no call, only where it stands. -/
theorem contentCalls_withThinking (F : FloatText) (known : List String) (reasoning : List Char)
    {content : List Char} (hne : strip content ≠ []) :
    (contentCalls F known (withThinking reasoning content)).map Candidate.call
      = (contentCalls F known content).map Candidate.call := by
  have hwith : withThinking reasoning content =
    ("<think>\n".toList ++ strip reasoning ++ "\n".toList)
      ++ (thinkClose ++ ("\n\n".toList ++ content)) := by
    rw [withThinking, if_pos hne]
    simp only [List.append_assoc]
  rw [contentCalls, hwith]
  cases h : rfind thinkClose content with
  | some i =>
    rw [← List.append_assoc thinkClose, ← List.append_assoc, drop_segmentStart h]
    rfl
  | none =>
    have hplain : Plain '\n' := ⟨by decide, by decide⟩
    rw [drop_segmentStart_close _ (rfind_skip h (by decide)), contentCalls, segmentStart, h,
      List.drop_zero]
    show (acceptedCandidates F known ('\n' :: '\n' :: content)).map _ = _
    rw [acceptedCandidates_cons F known hplain, acceptedCandidates_cons F known hplain,
      List.map_map, List.map_map]
    rfl

theorem contentCalls_blank (F : FloatText) (known : List String) (reasoning : List Char)
    {content : List Char} (hblank : strip content = []) :
    contentCalls F known (withThinking reasoning content) = [] := by
  have hwith : withThinking reasoning content
      = ("<think>\n".toList ++ strip reasoning ++ "\n".toList) ++ (thinkClose ++ []) := by
    rw [withThinking, if_neg (not_not_intro hblank), List.append_nil]
  rw [contentCalls, hwith, drop_segmentStart_close _ (by decide)]
  rfl

/-! ## The calls of a message -/

/-- The calls recovered from a content, if upstream gave none. -/
def messageCalls (F : FloatText) (known : List String) (upstream content : Json) : List Candidate :=
  if populated upstream then []
  else if known = [] then []
  else match content with
    | .str content => if strip content.toList = [] then [] else contentCalls F known content.toList
    | _ => []

/-- The `tool_calls` after recovery. -/
def messageToolCalls (F : FloatText) (uuid : ℕ → String) (known : List String)
    (upstream content : Json) : Json :=
  match messageCalls F known upstream content with
  | [] => upstream
  | accepted => .arr (accepted.zipIdx.map fun ci => toolCall (uuid ci.2) ci.1)

theorem messageCalls_of {result tools : Json} {t : Target} (h : t.Of result tools) (F : FloatText) :
    messageCalls F t.known (t.msg.get "tool_calls") (t.msg.get "content")
      = contentCalls F t.known t.content := by
  have hwritten : ¬ strip (String.ofList t.content).toList = [] := by
    rw [String.toList_ofList]
    exact h.written
  unfold messageCalls
  rw [if_neg h.calls, if_neg h.names, h.content]
  dsimp only
  rw [if_neg hwritten, String.toList_ofList]

theorem gates_none {F : FloatText} {result tools : Json} {msg : Dict}
    (h : gates result tools = none) (hmsg : firstMessage result = some msg) :
    messageCalls F (extractKnownNames tools) (msg.get "tool_calls") (msg.get "content") = [] := by
  unfold firstMessage at hmsg
  split at hmsg
  · split at hmsg
    · rename_i res _ choice choices hchoices
      split at hmsg
      · rename_i msg' hmsg'
        obtain rfl := Option.some.inj hmsg
        rw [gates, hchoices] at h
        dsimp only at h
        rw [hmsg'] at h
        dsimp only at h
        unfold messageCalls
        split
        · rfl
        · rename_i hcalls
          rw [if_neg hcalls] at h
          split
          · rfl
          · rename_i hknown
            rw [if_neg hknown] at h
            split
            · rename_i content hcontent
              rw [hcontent] at h
              split
              · rfl
              · rename_i hblank
                cases (if_neg hblank).symm.trans h
            · rfl
      · cases hmsg
    · cases hmsg
  · cases hmsg

theorem toolCalls_recover (F : FloatText) (uuid : ℕ → String) (result tools : Json) :
    toolCalls (maybeRecoverToolCalls F uuid result tools)
      = (firstMessage result).map fun msg =>
        messageToolCalls F uuid (extractKnownNames tools) (msg.get "tool_calls")
        (msg.get "content") := by
  cases hgates : gates result tools with
  | none =>
    rw [maybeRecoverToolCalls, hgates]
    dsimp only
    rw [toolCalls]
    cases hmsg : firstMessage result with
    | none => rfl
    | some msg => rw [Option.map_some, Option.map_some, messageToolCalls, gates_none hgates hmsg]
  | some t =>
    have H := gates_spec hgates
    rw [maybeRecoverToolCalls, hgates, H.firstMessage, Option.map_some, messageToolCalls, ← H.known,
      messageCalls_of H, contentCalls]
    dsimp only
    rw [recover]
    cases acceptedCandidates F t.known (t.content.drop (segmentStart t.content)) with
    | nil => rw [toolCalls, H.firstMessage]; rfl
    | cons c cs => exact toolCalls_apply t uuid _ _

theorem firstMessage_mapMessages (f : Dict → Dict) (result : Json) :
    firstMessage (mapMessages f result) = (firstMessage result).map f := by
  cases result with
  | obj res =>
    rw [mapMessages]
    cases hchoices : Dict.get res "choices" with
    | arr choices =>
      cases choices with
      | nil => simp [firstMessage, hchoices]
      | cons choice choices =>
        cases choice with
        | obj choice =>
          cases hmsg : Dict.get choice "message" <;> simp [firstMessage, mapMessage, hchoices, hmsg]
        | _ => simp [firstMessage, mapMessage, hchoices]
    | _ => simp [firstMessage, hchoices]
  | _ => rfl

theorem get_withoutReasoning {msg : Dict} {k : String} (h : k ≠ "reasoning_content") :
    (withoutReasoning msg).get k = msg.get k := by
  induction msg with
  | nil => rfl
  | cons kv msg ih =>
    obtain ⟨k', v⟩ := kv
    rw [withoutReasoning, List.filter_cons]
    split
    · rw [Dict.get_cons, Dict.get_cons, ← withoutReasoning, ih]
    · rename_i hk
      rw [← withoutReasoning, ih, Dict.get_cons, if_neg]
      rintro rfl
      simp [h] at hk

theorem toolCalls_of_calls {cs cs' : List Candidate} (uuid : ℕ → String)
    (h : cs.map Candidate.call = cs'.map Candidate.call) :
    cs.zipIdx.map (fun ci => toolCall (uuid ci.2) ci.1)
      = cs'.zipIdx.map (fun ci => toolCall (uuid ci.2) ci.1) := by
  have hcall (l : List Candidate) : l.zipIdx.map (fun ci => toolCall (uuid ci.2) ci.1)
      = (l.map Candidate.call).zipIdx.map fun ci =>
      toolCall (uuid ci.2) ⟨0, 0, ci.1.1, ci.1.2⟩ := by
    rw [List.zipIdx_map, List.map_map]
    rfl
  rw [hcall, hcall, h]

theorem messageToolCalls_congr {F : FloatText} {known : List String}
    {upstream content content' : Json}
    (h : (messageCalls F known upstream content).map Candidate.call
      = (messageCalls F known upstream content').map Candidate.call) (uuid : ℕ → String) :
    messageToolCalls F uuid known upstream content
      = messageToolCalls F uuid known upstream content' := by
  have hcalls := toolCalls_of_calls uuid h
  unfold messageToolCalls
  cases hc : messageCalls F known upstream content with
  | nil =>
    rw [hc] at h
    rw [List.map_eq_nil_iff.mp h.symm]
  | cons c cs =>
    cases hc' : messageCalls F known upstream content' with
    | nil => rw [hc, hc'] at h; cases h
    | cons c' cs' => rw [hc, hc'] at hcalls; exact congrArg Json.arr hcalls

theorem orEmpty_str {x : Json} {s : String} (h : orEmpty x = .str s) :
    x = .str s ∨ s = "" ∧ ∀ s', x ≠ .str s' := by
  cases x with
  | str t =>
    refine .inl ?_
    rw [orEmpty] at h
    split at h
    · exact h
    · rename_i ht
      have : t = "" := by simpa [Json.truthy] using ht
      rw [this, ← h]
  | _ =>
    refine .inr ⟨?_, (by rintro _ ⟨⟩)⟩
    rw [orEmpty] at h
    split at h
    · cases h
    · exact (Json.str.inj h).symm

/-- What the merge writes into a message gives the calls of its content. -/
theorem messageCalls_mergeMessage (F : FloatText) (known : List String) (msg : Dict)
    (upstream : Json) :
    (messageCalls F known upstream ((mergeMessage msg).get "content")).map Candidate.call
      = (messageCalls F known upstream (msg.get "content")).map Candidate.call := by
  unfold mergeMessage
  split
  · rename_i rc ct _ hct
    split
    · rfl
    rw [Dict.get_set_self]
    unfold messageCalls
    split
    · rfl
    split
    · rfl
    have hwith : strip (withThinking rc.toList ct.toList) ≠ [] := by
      rw [withThinking]
      split <;> exact strip_ne_nil (by decide)
    dsimp only
    rw [String.toList_ofList, if_neg hwith]
    by_cases hblank : strip ct.toList = []
    · rw [contentCalls_blank F known _ hblank]
      rcases orEmpty_str hct with h | ⟨-, h⟩
      · rw [h]
        dsimp only
        rw [if_pos hblank]
      · split
        · exact absurd ‹_› (h _)
        · rfl
    · rw [contentCalls_withThinking F known _ hblank]
      rcases orEmpty_str hct with h | ⟨rfl, -⟩
      · rw [h]
        dsimp only
        rw [if_neg hblank]
      · exact absurd rfl hblank
  · rfl

theorem get_mergeMessage (msg : Dict) :
    (mergeMessage msg).get "tool_calls" = msg.get "tool_calls" := by
  unfold mergeMessage
  split
  · split
    · rfl
    · exact Dict.get_set_ne (by decide)
  · rfl

theorem toolCalls_merge (F : FloatText) (uuid : ℕ → String) (result responseFormat tools : Json) :
    toolCalls (maybeRecoverToolCalls F uuid (mergeReasoningIntoContent result responseFormat) tools)
      = (firstMessage result).map fun msg =>
        messageToolCalls F uuid (extractKnownNames tools) (msg.get "tool_calls")
        (msg.get "content") := by
  rw [mergeReasoningIntoContent]
  split
  · exact toolCalls_recover F uuid result tools
  · rw [toolCalls_recover, firstMessage_mapMessages, Option.map_map]
    congr 1
    funext msg
    rw [Function.comp_apply, get_mergeMessage]
    exact messageToolCalls_congr (messageCalls_mergeMessage F _ msg _) uuid

/-- The tool calls a client gets depend on the content, the tools and upstream's own
tool calls.  They are those that the result gives without its reasoning. -/
theorem reasoning_never_recovered (F : FloatText) (uuid : ℕ → String)
    (result responseFormat tools : Json) :
    toolCalls (maybeRecoverToolCalls F uuid (mergeReasoningIntoContent result responseFormat) tools)
      = toolCalls (maybeRecoverToolCalls F uuid (mapMessages withoutReasoning result) tools) ∧
    toolCalls (maybeRecoverToolCalls F uuid (mergeReasoningIntoContent result responseFormat) tools)
      = toolCalls (maybeRecoverToolCalls F uuid
          (mergeReasoningIntoContent (mapMessages withoutReasoning result) responseFormat) tools) ∧
    toolCalls (maybeRecoverToolCalls F uuid (mergeReasoningIntoContent result responseFormat) tools)
      = (firstMessage result).map fun msg =>
        messageToolCalls F uuid (extractKnownNames tools) (msg.get "tool_calls")
        (msg.get "content") := by
  have hwithout : (firstMessage (mapMessages withoutReasoning result)).map (fun msg =>
        messageToolCalls F uuid (extractKnownNames tools) (msg.get "tool_calls")
        (msg.get "content"))
      = (firstMessage result).map fun msg =>
        messageToolCalls F uuid (extractKnownNames tools) (msg.get "tool_calls")
        (msg.get "content") := by
    rw [firstMessage_mapMessages, Option.map_map]
    congr 1
    funext msg
    rw [Function.comp_apply, get_withoutReasoning (by decide), get_withoutReasoning (by decide)]
  rw [toolCalls_merge, toolCalls_merge, toolCalls_recover, hwithout]
  exact ⟨rfl, rfl, rfl⟩

example : toolCalls (maybeRecoverToolCalls ⟨fun _ => .nan, fun _ => [], nofun⟩ (fun _ => "0")
    (mergeReasoningIntoContent (.obj [("choices", .arr [.obj [("message", .obj
      [("reasoning_content",
          .str "<tool_call>\x7b\"name\":\"f\",\"arguments\":\x7b\x7d\x7d</tool_call>"),
        ("content", .str "\x7b\"name\":\"g\",\"arguments\":\x7b\x7d\x7d")])]])]) .null)
    (.arr [.obj [("function", .obj [("name", .str "f")])],
      .obj [("function", .obj [("name", .str "g")])]]))
    = some (.arr [toolCall "0" ⟨0, 0, "g", "\x7b\x7d".toList⟩]) := by
  rfl

end Turbohaul.ToolCalls
