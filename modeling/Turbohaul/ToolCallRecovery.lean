/-
# `ToolCallRecovery` — tool calls that a model wrote as text

`api/tool_call_recovery.py`.  Where upstream gave no structured tool calls,
`maybe_recover_tool_calls` looks for calls in the content after the last
`</think>`: objects between `<tool_call>` tags, and bare objects with a name and
arguments.  Regular expressions find where one may start; a brace matcher that
knows strings finds where its object ends; `json.loads` has the last word.

  `_CANONICAL_RE`, `_XML_RE`   `canonicalRe`, `xmlRe`
  `_extract_known_names`       `extractKnownNames`
  `_balanced_object_at`        `balancedObjectAt`
  `_iter_candidates`           `xmlCandidate`, `canonicalCandidate`, `iterCandidates`
  `maybe_recover_tool_calls`   `gates`, `recover`, `maybeRecoverToolCalls`
-/
import Turbohaul.JsonText
import Turbohaul.PyString
import Turbohaul.Regex
import Mathlib.Data.List.Sort

namespace Turbohaul.ToolCalls

open Regex JsonText

/-- The groups of the two expressions. -/
inductive Group
  | name
  | args
  | body
deriving DecidableEq

/-- `\{.*?\}` with `re.DOTALL`. -/
def braces : Pattern Group := .cat [.lit ['{'], .few fun _ => true, .lit ['}']]

/-- `_CANONICAL_RE`. -/
def canonicalRe : Pattern Group :=
  .cat [.lit ['{'], .many pyIsSpace, .lit "\"name\"".toList, .many pyIsSpace, .lit [':'],
    .many pyIsSpace, .lit ['"'],
    .group .name (.cat [.one fun c => c != '"', .many fun c => c != '"']), .lit ['"'],
    .many pyIsSpace, .lit [','], .many pyIsSpace, .lit "\"arguments\"".toList, .many pyIsSpace,
    .lit [':'], .many pyIsSpace, .group .args braces, .many pyIsSpace, .lit ['}']]

def openTag : List Char := "<tool_call>".toList
def closeTag : List Char := "</tool_call>".toList

/-- `_XML_RE`. -/
def xmlRe : Pattern Group :=
  .cat [.lit openTag, .many pyIsSpace, .group .body braces, .many pyIsSpace, .lit closeTag]

/-- `_extract_known_names`. -/
def extractKnownNames : Json → List String
  | .arr entries => entries.filterMap fun
    | .obj entry =>
      match Dict.get entry "function" with
      | .obj fn =>
        match Dict.get fn "name" with
        | .str name => if name = "" then none else some name
        | _ => none
      | _ => none
    | _ => none
  | _ => []

/-- The loop of `_balanced_object_at`: how far the closing brace is. -/
def balance : ℕ → Bool → Bool → List Char → Option ℕ
  | _, _, _, [] => none
  | depth, inStr, escape, c :: s =>
    if inStr then
      if escape then (balance depth true false s).map (· + 1)
      else if c = '\\' then (balance depth true true s).map (· + 1)
      else if c = '"' then (balance depth false false s).map (· + 1)
      else (balance depth true false s).map (· + 1)
    else if c = '"' then (balance depth true escape s).map (· + 1)
    else if c = '{' then (balance (depth + 1) false escape s).map (· + 1)
    else if c = '}' then
      if depth - 1 = 0 then some 1 else (balance (depth - 1) false escape s).map (· + 1)
    else (balance depth false escape s).map (· + 1)

/-- `_balanced_object_at`. -/
def balancedObjectAt (text : List Char) (start : ℕ) : Option ℕ :=
  match text.drop start with
  | '{' :: s => (balance 0 false false ('{' :: s)).map (start + ·)
  | _ => none

/-- `(start, end, name, args_json)`. -/
structure Candidate where
  start : ℕ
  stop : ℕ
  name : String
  argsJson : List Char

/-- `args_json` of the `arguments` of a wrapped object. -/
def argumentsJson (F : FloatText) : Json → Option (List Char)
  | .obj args => some (dumps F (.obj args))
  | .str args => if (loads F args.toList).isSome then some args.toList else none
  | _ => none

/-- The candidate of a match of `_XML_RE`, if it is one. -/
def xmlCandidate (F : FloatText) (segment : List Char) (m : Match Group) : Option Candidate :=
  match m.span .body with
  | none => none
  | some (bodyStart, _) =>
    match balancedObjectAt segment bodyStart with
    | none => none
    | some stop =>
      match loads F (slice segment bodyStart stop) with
      | some (.obj parsed) =>
        match Dict.get parsed "name", argumentsJson F (Dict.get parsed "arguments") with
        | .str name, some argsJson =>
          (find closeTag (segment.drop stop)).map fun k =>
            ⟨m.start, stop + k + closeTag.length, name, argsJson⟩
        | _, _ => none
      | _ => none

/-- The candidate of a match of `_CANONICAL_RE`, if it is one that no span of
`covered` covers. -/
def canonicalCandidate (F : FloatText) (segment : List Char) (covered : List Candidate)
    (m : Match Group) : Option Candidate :=
  if covered.any fun c => decide (c.start ≤ m.start) && decide (m.start < c.stop) then none
  else match m.span .name, m.span .args with
    | some (nameStart, nameStop), some (argsStart, _) =>
      match balancedObjectAt segment argsStart with
      | none => none
      | some argsEnd =>
        match loads F (slice segment argsStart argsEnd) with
        | some (.obj parsedArgs) =>
          let outerEnd := argsEnd + ((segment.drop argsEnd).takeWhile isWs).length
          match segment.drop outerEnd with
          | '}' :: _ => some ⟨m.start, outerEnd + 1,
              String.ofList (slice segment nameStart nameStop), dumps F (.obj parsedArgs)⟩
          | _ => none
        | _ => none
    | _, _ => none

/-- The candidates between tags. -/
def xmlCandidates (F : FloatText) (segment : List Char) : List Candidate :=
  (finditer xmlRe 0 0 segment).filterMap (xmlCandidate F segment)

/-- The bare candidates outside of those. -/
def canonicalCandidates (F : FloatText) (segment : List Char) : List Candidate :=
  (finditer canonicalRe 0 0 segment).filterMap
    (canonicalCandidate F segment (xmlCandidates F segment))

/-- `_iter_candidates`. -/
def iterCandidates (F : FloatText) (segment : List Char) : List Candidate :=
  (xmlCandidates F segment ++ canonicalCandidates F segment).insertionSort
    fun c c' => c.start ≤ c'.start

def thinkClose : List Char := "</think>".toList

/-- Where the scan starts: after the last `</think>`. -/
def segmentStart (content : List Char) : ℕ :=
  match rfind thinkClose content with
  | some i => i + thinkClose.length
  | none => 0

/-- The candidates that are accepted. -/
def acceptedCandidates (F : FloatText) (known : List String) (segment : List Char) :
    List Candidate :=
  (iterCandidates F segment).filter fun c => decide (c.name ∈ known)

/-- The loop that takes the accepted spans out, the last one first. -/
def stripAccepted (segment : List Char) (accepted : List Candidate) : List Char :=
  (accepted.insertionSort fun c c' => c'.start ≤ c.start).foldl
    (fun text c => text.take c.start ++ text.drop c.stop) segment

/-- The new content and what was accepted, if anything was. -/
def recover (F : FloatText) (known : List String) (content : List Char) :
    Option (List Char × List Candidate) :=
  let segment := content.drop (segmentStart content)
  match acceptedCandidates F known segment with
  | [] => none
  | accepted => some (strip (squash 0 (content.take (segmentStart content) ++
      stripAccepted segment accepted)), accepted)

/-- What `maybe_recover_tool_calls` reads of a result that passes its gates. -/
structure Target where
  result : Dict
  choice : Dict
  choices : List Json
  msg : Dict
  known : List String
  content : List Char

/-- `isinstance(existing, list) and len(existing) > 0`. -/
def populated : Json → Bool
  | .arr (_ :: _) => true
  | _ => false

/-- The gates of `maybe_recover_tool_calls`. -/
def gates (result tools : Json) : Option Target :=
  match result with
  | .obj res =>
    match Dict.get res "choices" with
    | .arr (.obj choice :: choices) =>
      match Dict.get choice "message" with
      | .obj msg =>
        if populated (Dict.get msg "tool_calls") then none
        else if extractKnownNames tools = [] then none
        else match Dict.get msg "content" with
          | .str content =>
            if strip content.toList = [] then none
            else some ⟨res, choice, choices, msg, extractKnownNames tools, content.toList⟩
          | _ => none
      | _ => none
    | _ => none
  | _ => none

/-- The message of the first choice. -/
def firstMessage : Json → Option Dict
  | .obj res =>
    match Dict.get res "choices" with
    | .arr (.obj choice :: _) =>
      match Dict.get choice "message" with
      | .obj msg => some msg
      | _ => none
    | _ => none
  | _ => none

/-- The `tool_calls` of the first message of a result. -/
def toolCalls (result : Json) : Option Json := (firstMessage result).map (Dict.get · "tool_calls")

/-- What the gates let through. -/
structure Target.Of (t : Target) (result tools : Json) : Prop where
  result : result = .obj t.result
  choices : Dict.get t.result "choices" = .arr (.obj t.choice :: t.choices)
  message : Dict.get t.choice "message" = .obj t.msg
  calls : ¬ populated (Dict.get t.msg "tool_calls")
  known : t.known = extractKnownNames tools
  names : t.known ≠ []
  content : Dict.get t.msg "content" = .str (String.ofList t.content)
  written : strip t.content ≠ []

theorem gates_spec {result tools : Json} {t : Target} (h : gates result tools = some t) :
    t.Of result tools := by
  unfold gates at h
  split at h
  · split at h
    · rename_i res _ choice choices hchoices
      split at h
      · rename_i msg hmsg
        split at h
        · cases h
        · rename_i hcalls
          split at h
          · cases h
          · rename_i hknown
            split at h
            · rename_i content hcontent
              split at h
              · cases h
              · rename_i hwritten
                obtain rfl := Option.some.inj h
                exact ⟨rfl, hchoices, hmsg, hcalls, rfl, hknown,
                  hcontent.trans (congrArg _ String.ofList_toList.symm), hwritten⟩
            · cases h
      · cases h
    · cases h
  · cases h

theorem Target.Of.firstMessage {t : Target} {result tools : Json} (h : t.Of result tools) :
    firstMessage result = some t.msg := by
  rw [h.result, ToolCalls.firstMessage, h.choices]
  dsimp only
  rw [h.message]

/-- An entry of `tool_calls`. -/
def toolCall (id : String) (c : Candidate) : Json :=
  .obj [("id", .str ("call_" ++ id)), ("type", .str "function"),
    ("function", .obj [("name", .str c.name), ("arguments", .str (String.ofList c.argsJson))])]

/-- The result with what was recovered from it; `uuid` gives the fresh ids. -/
def Target.apply (t : Target) (uuid : ℕ → String) (newContent : List Char)
    (accepted : List Candidate) : Json :=
  let toolCalls := accepted.zipIdx.map fun ci => toolCall (uuid ci.2) ci.1
  let msg := (t.msg.set "content" (.str (String.ofList newContent))).set "tool_calls"
    (.arr toolCalls)
  let choice := (t.choice.set "message" (.obj msg)).set "finish_reason" (.str "tool_calls")
  .obj (t.result.set "choices" (.arr (.obj choice :: t.choices)))

/-- `maybe_recover_tool_calls`. -/
def maybeRecoverToolCalls (F : FloatText) (uuid : ℕ → String) (result tools : Json) : Json :=
  match gates result tools with
  | none => result
  | some t =>
    match recover F t.known t.content with
    | none => result
    | some (newContent, accepted) => t.apply uuid newContent accepted

theorem toolCalls_apply (t : Target) (uuid : ℕ → String) (newContent : List Char)
    (accepted : List Candidate) :
    toolCalls (t.apply uuid newContent accepted)
      = some (.arr (accepted.zipIdx.map fun ci => toolCall (uuid ci.2) ci.1)) := by
  simp [toolCalls, firstMessage, Target.apply, Dict.get_set_ne]

/-- The calls it adds. -/
def recoveredCalls (F : FloatText) (result tools : Json) : List Candidate :=
  match gates result tools with
  | none => []
  | some t => acceptedCandidates F t.known (t.content.drop (segmentStart t.content))

end Turbohaul.ToolCalls
