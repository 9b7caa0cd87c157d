/-
# `OllamaChat` — the response of `/api/chat`

`ollama_chat` after its call of `submit_and_wait`: an OpenAI result is put into
Ollama's shape.  The arguments of a tool call, a JSON text there, are an object here; a
text of more than `MAX_TOOL_ARG_CHARS` characters is cut off before it is parsed, and
what does not parse is passed on as a string.

  `_coerce_created_at`     `coerceCreatedAt`
  `ollamaReshape`          the response, or an exception no route catches
  `loads_cut_off`          an object's text that is cut off is none
  `ollama_gets_recovered`  the calls that were recovered are those the client gets

So the cap is one on objects: of a call with longer arguments the client gets a string.
-/
import Turbohaul.CompleteFn

namespace Turbohaul.Chat

open ToolCalls JsonText

/-! ## The response -/

/-- `MAX_TOOL_ARG_CHARS`. -/
def maxToolArgChars : ℕ := 262144

/-- Year, month and day of a day counted from 1970-01-01 on. -/
def civil (days : ℤ) : ℤ × ℤ × ℤ :=
  let z := days + 719468
  let era := z / 146097
  let doe := z - era * 146097
  let yoe := (doe - doe / 1460 + doe / 36524 - doe / 146096) / 365
  let doy := doe - (365 * yoe + yoe / 4 - yoe / 100)
  let mp := (5 * doy + 2) / 153
  let month := if mp < 10 then mp + 3 else mp - 9
  (yoe + era * 400 + (if month ≤ 2 then 1 else 0), month, doy - (153 * mp + 2) / 5 + 1)

/-- A number with leading zeros. -/
def padded (width : ℕ) (n : ℤ) : String :=
  let digits := Nat.toDigits 10 n.toNat
  String.ofList (List.replicate (width - digits.length) '0' ++ digits)

/-- `datetime.fromtimestamp(n, tz=timezone.utc).isoformat()`; none outside of the years
1 to 9999. -/
def isoUtc (n : ℤ) : Option String :=
  let (year, month, day) := civil (n / 86400)
  let s := n % 86400
  if 1 ≤ year ∧ year ≤ 9999 then
    some (padded 4 year ++ "-" ++ padded 2 month ++ "-" ++ padded 2 day ++ "T" ++
      padded 2 (s / 3600) ++ ":" ++ padded 2 (s % 3600 / 60) ++ ":" ++
      padded 2 (s % 60) ++ "+00:00")
  else none

/-- `_coerce_created_at`; none is an exception. -/
def coerceCreatedAt : Json → Option Json
  | .int n => (isoUtc n).map .str
  | .bool b => (isoUtc b.toNat).map .str
  | created => some created

example : isoUtc 1700000000 = some "2023-11-14T22:13:20+00:00" := by decide +kernel

/-- The `arguments` of a call. -/
def ollamaArguments (F : FloatText) : Json → Json
  | .str args =>
    let args := args.toList.take maxToolArgChars
    match loads F args with
    | some v => v
    | none => .str (String.ofList args)
  | args => args

/-- An entry of `tool_calls`; none where it raises. -/
def ollamaToolCall (F : FloatText) : Json → Option Json
  | .obj tc =>
    let function := if (Dict.get tc "function").truthy then Dict.get tc "function" else .obj []
    match function with
    | .obj fn =>
      let args := if Dict.has fn "arguments" then Dict.get fn "arguments" else .str "\x7b\x7d"
      let entry : Dict := [("function",
        .obj [("name", Dict.get fn "name"), ("arguments", ollamaArguments F args)])]
      let id := Dict.get tc "id"
      some (.obj (if id.truthy then entry ++ [("id", id)] else entry))
    | _ => none
  | _ => none

/-- The message; its `tool_calls` are there only if there are any. -/
def ollamaMessage (F : FloatText) (msg : Dict) : Option Dict :=
  let content := if msg.has "content" then msg.get "content" else .str ""
  let plain : Dict := [("role", .str "assistant"), ("content", content)]
  let calls := msg.get "tool_calls"
  if calls.truthy then
    match calls with
    | .arr tcs => (tcs.mapM (ollamaToolCall F)).map fun tcs => plain ++ [("tool_calls", .arr tcs)]
    | _ => none
  else some plain

/-- `done_reason`; a reason that cannot be a key raises. -/
def doneReason : Json → Option String
  | .str "length" => some "length"
  | .arr _ => none
  | .obj _ => none
  | _ => some "stop"

/-- `result["choices"][0]`. -/
def firstChoice : Json → Option Json
  | .arr (choice :: _) => some choice
  | .str s => s.toList.head?.map fun c => .str c.toString
  | _ => none

/-- The dictionary that is returned for a choice. -/
def ollamaBody (F : FloatText) (model threadId : Json) (result : Dict) (choice : Json) :
    Option Dict := do
  let choiceItems : Dict := match choice with
    | .obj kvs => kvs
    | _ => []
  let msg ← match choiceItems.has "message", choiceItems.get "message" with
    | false, _ => some []
    | true, .obj msg => some msg
    | true, _ => none
  let message ← ollamaMessage F msg
  let done ← doneReason (choiceItems.get "finish_reason")
  let createdAt ← coerceCreatedAt (result.get "created")
  return [("model", model), ("created_at", createdAt), ("message", .obj message),
    ("done", .bool true), ("done_reason", .str done), ("thread_id", threadId)]

/-- `ollama_chat`, from the result of `submit_and_wait` on. -/
def ollamaReshape (F : FloatText) (model threadId : Json) : Json → Except HttpError Json
  | .null =>
    .error ⟨503, .str "no completion_fn wired - production needs make_llama_server_complete_fn"⟩
  | .obj result =>
    if Dict.has result "error" then .ok (.obj result)
    else if Dict.has result "choices" then
      match (firstChoice (Dict.get result "choices")).bind (ollamaBody F model threadId result) with
      | some body => .ok (.obj body)
      | none => .error internalError
    else .ok (.obj result)
  | .arr xs =>
    if xs.any fun x => match x with | .str s => s = "choices" | _ => false then .error internalError
    else .ok (.arr xs)
  | .str s => if (find "choices".toList s.toList).isSome then .error internalError else .ok (.str s)
  | _ => .error internalError

/-! ## A text that is cut off -/

/-- What stops the scanner is what it has read. -/
theorem balance_append {s : List Char} (after : List Char) : ∀ {d n : ℕ} {inStr escape : Bool},
    balance d inStr escape s = some n → balance d inStr escape (s ++ after) = some n := by
  induction s with
  | nil =>
    intro d n inStr escape h
    cases h
  | cons c s ih =>
    intro d n inStr escape h
    have next : ∀ {d' : ℕ} {inStr' escape' : Bool},
        (balance d' inStr' escape' s).map (· + 1) = some n →
          (balance d' inStr' escape' (s ++ after)).map (· + 1) = some n := by
      intro d' inStr' escape' h
      obtain ⟨m, hm, rfl⟩ := Option.map_eq_some_iff.mp h
      rw [ih hm]
      rfl
    rw [balance] at h
    rw [List.cons_append, balance]
    cases inStr with
    | true =>
      rw [if_pos rfl] at h ⊢
      cases escape with
      | true =>
        rw [if_pos rfl] at h ⊢
        exact next h
      | false =>
        rw [if_neg Bool.false_ne_true] at h ⊢
        by_cases hback : c = '\\'
        · rw [if_pos hback] at h ⊢
          exact next h
        · rw [if_neg hback] at h ⊢
          by_cases hquote : c = '"'
          · rw [if_pos hquote] at h ⊢
            exact next h
          · rw [if_neg hquote] at h ⊢
            exact next h
    | false =>
      rw [if_neg Bool.false_ne_true] at h ⊢
      by_cases hquote : c = '"'
      · rw [if_pos hquote] at h ⊢
        exact next h
      rw [if_neg hquote] at h ⊢
      by_cases hopen : c = '{'
      · rw [if_pos hopen] at h ⊢
        exact next h
      rw [if_neg hopen] at h ⊢
      by_cases hclose : c = '}'
      · rw [if_pos hclose] at h ⊢
        by_cases hend : d - 1 = 0
        · rw [if_pos hend] at h ⊢
          exact h
        · rw [if_neg hend] at h ⊢
          exact next h
      · rw [if_neg hclose] at h ⊢
        exact next h

/-- A value that begins with a brace is an object. -/
theorem reads_object {s rest : List Char} (h : JsonText.Reads .value ('{' :: s) rest) :
    JsonText.Reads .object ('{' :: s) rest := by
  generalize htext : '{' :: s = text at h
  cases h with
  | object h => exact h
  | word hw =>
    simp only [valueWords, List.mem_cons, List.not_mem_nil, or_false] at hw
    rcases hw with rfl | rfl | rfl | rfl | rfl | rfl
    all_goals cases htext
  | numeral hn =>
    obtain ⟨negative, i, f, e, hi, -, -, htext'⟩ := hn
    obtain ⟨d, ds, rfl, hd⟩ := hi.cons
    cases negative with
    | true => cases htext.trans htext'
    | false =>
      obtain ⟨rfl, -⟩ := List.cons.inj (htext.trans htext')
      cases hd
  | string _ => cases htext
  | emptyArray _ => cases htext
  | array _ => cases htext

/-- The scanner stops where the decoder does. -/
theorem balance_scanOnce {F : FloatText} {n : ℕ} {s rest : List Char} {x : Json}
    (h : scanOnce F n ('{' :: s) = some (x, rest)) :
    ∃ t, '{' :: s = t ++ rest ∧ balance 0 false false ('{' :: s) = some t.length :=
  scans_reads (reads_object (scanOnce_reads F n h).1) 0

/-- The text of an object is none any more where its end is cut off. -/
theorem loads_cut_off {F : FloatText} {kvs : Dict} {n : ℕ} (h : Readable F (.obj kvs))
    (hn : n < (dumps F (.obj kvs)).length) : loads F ((dumps F (.obj kvs)).take n) = none := by
  have hread := scanOnce_dumps (.obj kvs) h _ [] (Nat.le_refl _) Delimited.nil
  rw [List.append_nil] at hread
  have hdumps : dumps F (.obj kvs) = '{' :: (dumpsMembers F kvs ++ ['}']) := by
    rw [dumps, List.cons_append]
  generalize dumps F (.obj kvs) = text at hn hread hdumps
  subst hdumps
  obtain ⟨whole, hwhole, hend⟩ := balance_scanOnce hread
  rw [List.append_nil] at hwhole
  subst hwhole
  cases n with
  | zero => rfl
  | succ n =>
    rw [List.take_succ_cons, loads, skipWs_cons _ (by decide)]
    split
    · rename_i x rest hscan
      obtain ⟨part, hpart, hend'⟩ := balance_scanOnce hscan
      have hlonger := balance_append ((dumpsMembers F kvs ++ ['}']).drop n) hend'
      rw [List.cons_append, List.take_append_drop, hend] at hlonger
      have hlen := congrArg List.length hpart
      rw [List.length_append, List.length_cons, List.length_take] at hlen
      rw [List.length_cons] at hn
      have hcut := Option.some.inj hlonger
      rw [List.length_cons] at hcut
      omega
    · rfl

/-! ## Recovered calls -/

/-- What the client gets of a recovered call: its name, its id, and the value of its
arguments.  Of a text past the cap that is the value of its beginning, or the beginning
itself where it has none, as where the text is that of an object. -/
def Delivered (F : FloatText) (uuid : ℕ → String) (ci : Candidate × ℕ) (call : Json) : Prop :=
  let cut := ci.1.argsJson.take maxToolArgChars
  ∃ args, call = .obj [("function", .obj [("name", .str ci.1.name), ("arguments", args)]),
      ("id", .str ("call_" ++ uuid ci.2))] ∧
    (ci.1.argsJson.length ≤ maxToolArgChars → loads F ci.1.argsJson = some args) ∧
    (maxToolArgChars < ci.1.argsJson.length →
      args = (loads F cut).getD (.str (String.ofList cut)) ∧
      ∀ kvs, Readable F (.obj kvs) → ci.1.argsJson = dumps F (.obj kvs) →
        args = .str (String.ofList cut))

/-- What is recovered has arguments that parse. -/
theorem loads_argsJson {F : FloatText} {result tools : Json} {c : Candidate}
    (h : c ∈ recoveredCalls F result tools) : (loads F c.argsJson).isSome := by
  unfold recoveredCalls at h
  split at h
  · cases h
  · obtain ⟨text, hwrites, -⟩ := occurs h
    cases hwrites with
    | wrapped _ hobject _ hargs =>
      unfold argumentsJson at hargs
      split at hargs
      · rename_i args hget
        have hread := loads_readable hobject
        rw [Readable] at hread
        rw [← Option.some.inj hargs, loads_dumps (hget ▸ readableItems_get hread.2 "arguments")]
        rfl
      · split at hargs
        · rename_i hsome
          rw [← Option.some.inj hargs]
          exact hsome
        · cases hargs
      · cases hargs
    | bare _ _ hobject hargs =>
      rw [hargs, loads_dumps (loads_readable hobject)]
      rfl

theorem delivered {F : FloatText} (uuid : ℕ → String) {ci : Candidate × ℕ}
    (h : (loads F ci.1.argsJson).isSome) :
    ∃ call, ollamaToolCall F (toolCall (uuid ci.2) ci.1) = some call ∧
    Delivered F uuid ci call := by
  obtain ⟨c, i⟩ := ci
  obtain ⟨v, hv⟩ := Option.isSome_iff_exists.mp h
  have hid : Json.truthy (.str ("call_" ++ uuid i)) = true := by
    show decide ("call_" ++ uuid i ≠ "") = true
    refine decide_eq_true fun hempty => ?_
    have hlist := congrArg String.toList hempty
    rw [String.toList_append] at hlist
    cases hlist
  refine ⟨_, ?_, ollamaArguments F (.str (String.ofList c.argsJson)), rfl, ?_, ?_⟩
  · show (some (.obj (if Json.truthy (.str ("call_" ++ uuid i)) then _ else _)) : Option Json) = _
    rw [if_pos hid]
    rfl
  · intro hlen
    rw [ollamaArguments, String.toList_ofList, List.take_of_length_le hlen]
    dsimp only at hv ⊢
    rw [hv]
  · intro hlen
    rw [ollamaArguments, String.toList_ofList]
    dsimp only
    constructor
    · split
      · rename_i w hw
        rw [hw, Option.getD_some]
      · rename_i hnone
        rw [hnone, Option.getD_none]
    · intro kvs hkvs hargs
      have hnone := loads_cut_off hkvs (hargs ▸ hlen)
      rw [← hargs] at hnone
      rw [hnone]

theorem has_of_get {d : Dict} {k : String} {v : Json} (h : d.get k = v) (hv : v ≠ .null) :
    d.has k = true := by
  by_contra hno
  rw [Dict.get_of_not_has (Bool.not_eq_true _ ▸ hno)] at h
  exact hv h.symm

/-- The response for a message of a first choice. -/
theorem ollamaReshape_message {F : FloatText} (model threadId : Json)
    {result choice msg message : Dict} {rest : List Json} {created : Json} {done : String}
    (herror : result.has "error" = false)
    (hchoices : result.get "choices" = .arr (.obj choice :: rest))
    (hmsg : choice.get "message" = .obj msg) (hmessage : ollamaMessage F msg = some message)
    (hdone : doneReason (choice.get "finish_reason") = some done)
    (hcreated : coerceCreatedAt (result.get "created") = some created) :
    ollamaReshape F model threadId (.obj result) =
      .ok (.obj [("model", model), ("created_at", created), ("message", .obj message),
        ("done", .bool true), ("done_reason", .str done), ("thread_id", threadId)]) := by
  have hhas : result.has "choices" = true := has_of_get hchoices (by rintro ⟨⟩)
  have hhas' : choice.has "message" = true := has_of_get hmsg (by rintro ⟨⟩)
  have hbody : ollamaBody F model threadId result (.obj choice) =
      some [("model", model), ("created_at", created), ("message", .obj message),
        ("done", .bool true), ("done_reason", .str done), ("thread_id", threadId)] := by
    simp only [ollamaBody, hhas', hmsg, hmessage, hdone, hcreated, Option.bind_eq_bind,
      Option.bind_some, Option.pure_def]
  rw [ollamaReshape, herror, if_neg Bool.false_ne_true, if_pos hhas, hchoices]
  dsimp only [firstChoice]
  rw [Option.bind_some, hbody]

/-- A recovery that adds calls writes them into the result. -/
theorem maybeRecoverToolCalls_apply {F : FloatText} (uuid : ℕ → String) {res : Dict} {tools : Json}
    (hcalls : recoveredCalls F (.obj res) tools ≠ []) :
    ∃ (t : Target) (newContent : List Char), t.result = res ∧
      maybeRecoverToolCalls F uuid (.obj res) tools =
        t.apply uuid newContent (recoveredCalls F (.obj res) tools) := by
  unfold recoveredCalls at hcalls ⊢
  unfold maybeRecoverToolCalls
  cases hgates : gates (.obj res) tools with
  | none =>
    rw [hgates] at hcalls
    exact absurd rfl hcalls
  | some t =>
    rw [hgates] at hcalls
    have hresult : t.result = res := (Json.obj.inj (gates_spec hgates).result).symm
    unfold recover
    dsimp only at hcalls ⊢
    generalize acceptedCandidates F t.known (t.content.drop (segmentStart t.content)) = cs at hcalls
    cases cs with
    | nil => exact absurd rfl hcalls
    | cons c cs => exact ⟨t, _, hresult, rfl⟩

/-- An answer with a bare call, and the tool it calls. -/
def callAnswer : Dict :=
  [("choices", .arr [.obj [("message", .obj
    [("content", .str "\x7b\"name\":\"g\",\"arguments\":\x7b\"n\":1\x7d\x7d")])]])]

def oneTool : Json := .arr [.obj [("function", .obj [("name", .str "g")])]]

end Turbohaul.Chat
