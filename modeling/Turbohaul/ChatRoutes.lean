/-
# `ChatRoutes` — from a list of messages to `submit`

`/v1/chat/completions` and `/api/chat` up to their call of `submit`, and what
`submit` makes of the thread id it is given.  Both routes join the contents of the
messages to a prompt, and the prompt is the identity of a thread that has no other.
The join takes the default for a content that is absent; one that is null, or a list
of parts, it cannot join.  The prompt is hashed where there is no thread id, and one with
a lone surrogate has no encoding.

  `openai_chat_completions`      `openaiSubmission`
  `ollama_chat`                  `ollamaSubmission`
  `derive_thread_id_prefix_hash` `deriveThreadIdPrefixHash`
  `takesMessages_iff`            which lists of messages get through
-/
import Turbohaul.ChatKnobs
import Turbohaul.PyString

namespace Turbohaul.Chat

/-! ## The routes -/

/-- What a route gives to `submit`. -/
structure Submission where
  modelTag : Json
  prompt : String
  threadId : Json
  clientMeta : Dict

/-- Where a request arrives: `max_parallel_sidecars`, and `request.client.host`. -/
structure Site where
  maxParallelSidecars : ℕ
  host : Option String

/-- The `thread_id` of a request; with one sidecar, that of its client. -/
def threadIdOf (site : Site) (payload : Dict) : Json :=
  if (payload.get "thread_id").truthy then payload.get "thread_id"
  else match site.host with
  | some host =>
    if host ≠ "" ∧ site.maxParallelSidecars ≤ 1 then .str ("agent-ip-" ++ host) else .str ""
  | none => .str ""

/-- `openai_chat_completions`, up to its call of `submit`. -/
def openaiSubmission (D : Deps) (site : Site) (payload : Dict) : Except HttpError Submission :=
  let model := payload.get "model"
  if !model.truthy then .error ⟨400, .str "\x60model\x60 field required"⟩
  else match payload.get "messages" with
  | .arr (m :: ms) =>
    let messages := Json.arr (m :: ms)
    match promptOf (m :: ms) with
    | none => .error internalError
    | some prompt =>
      let threadId := threadIdOf site payload
      match checkResponseFormat D payload with
      | .error e => .error e
      | .ok payload =>
        match D.parseKeepAlive (payload.get "keep_alive") with
        | none => .error internalError
        | some keepAlive =>
          .ok ⟨model, prompt, threadId,
            if (payload.get "stream").truthy then streamClientMeta payload model messages keepAlive
            else clientMeta D payload model messages keepAlive⟩
  | _ => .error ⟨400, .str "\x60messages\x60 must be a non-empty list"⟩

/-- `keep_alive`, of the request or of its options. -/
def ollamaKeepAlive (payload : Dict) : Json :=
  match payload.get "keep_alive", payload.get "options" with
  | .null, .obj options => Dict.get options "keep_alive"
  | keepAlive, _ => keepAlive

/-- `client_meta` of `ollama_chat`. -/
def ollamaClientMeta (D : Deps) (payload : Dict) (model messages keepAlive : Json) : Dict :=
  [ ("kind", .str "ollama-chat"),
    ("messages", messages),
    ("model", model),
    ("stream", .bool (payload.get "stream").truthy),
    ("options", payload.get "options"),
    ("keep_alive_s", keepAlive),
    ("tools", payload.get "tools"),
    ("tool_choice", payload.get "tool_choice"),
    ("parallel_tool_calls", payload.get "parallel_tool_calls"),
    ("function_call", payload.get "function_call"),
    ("functions", payload.get "functions"),
    ("response_format", payload.get "response_format"),
    ("thinking_manifest", .obj (thinkingManifest D payload model)) ]

/-- The knobs that ask for tools. -/
def toolKnobs : List String :=
  ["tools", "tool_choice", "parallel_tool_calls", "function_call", "functions"]

/-- A streamed request for tools. -/
def streamsTools (payload : Dict) : Bool :=
  (payload.get "stream").truthy && toolKnobs.any fun k => (payload.get k).truthy

/-- `ollama_chat`, up to its call of `submit`. -/
def ollamaSubmission (D : Deps) (site : Site) (payload : Dict) : Except HttpError Submission :=
  let model := payload.get "model"
  let refused : HttpError := ⟨400, .str "\x60model\x60 + \x60messages\x60 required"⟩
  if !model.truthy then .error refused
  else match payload.get "messages" with
  | .arr (m :: ms) =>
    let messages := Json.arr (m :: ms)
    match promptOf (m :: ms) with
    | none => .error internalError
    | some prompt =>
      let threadId := threadIdOf site payload
      let keepAliveRaw := ollamaKeepAlive payload
      match checkResponseFormat D payload with
      | .error e => .error e
      | .ok payload =>
        if streamsTools payload then
          .error ⟨400, .obj [("error", .str "streaming_with_tools_deferred"),
            ("message", .str ("Ollama-shape streaming + tool_calls deferred. " ++
              "Use stream=false for tool requests or /v1/chat/completions " ++
              "for OpenAI-shape streaming-tools.")),
            ("follow_on_rc", .str "planned")]⟩
        else match D.parseKeepAlive keepAliveRaw with
        | none => .error internalError
        | some keepAlive =>
          .ok ⟨model, prompt, threadId, ollamaClientMeta D payload model messages keepAlive⟩
  | _ => .error refused

/-- The bodies that the sidecar receives for what a route of the first kind submits. -/
def postedBodies (retries : Bool) (sub : Submission) : List Dict :=
  let messages := sub.clientMeta.get "messages"
  if (sub.clientMeta.get "stream").truthy then
    [buildStreamPayload sub.clientMeta sub.modelTag messages]
  else match complete sub.clientMeta sub.modelTag with
  | none => []
  | some body => body :: if retries then [retryPayload body] else []

/-! ## The thread id -/

/-- `s.split()`, after the characters of a word that are read. -/
def words : List Char → List Char → List (List Char)
  | [], [] => []
  | word, [] => [word]
  | word, c :: s =>
    if pyIsSpace c then
      match word with
      | [] => words [] s
      | word => word :: words [] s
    else words (word ++ [c]) s

/-- Which characters of a text stand for lone surrogates, as `json.loads` lets through. -/
structure Utf8 where
  lone : Char → Bool
  lone_space : ∀ c, pyIsSpace c → lone c = false
  lone_nul : lone '\x00' = false

/-- A text without one. -/
def Utf8.Encodes (U : Utf8) (s : String) : Prop := s.toList.any U.lone = false

instance (U : Utf8) (s : String) : Decidable (U.Encodes s) := inferInstanceAs (Decidable (_ = _))

/-- `s.encode("utf-8")`; none is a `UnicodeEncodeError`. -/
def Utf8.encode (U : Utf8) (s : String) : Option ByteArray :=
  if U.Encodes s then some s.toUTF8 else none

/-- `derive_thread_id_prefix_hash`; `sha256` gives the hexadecimal digest. -/
def deriveThreadIdPrefixHash (U : Utf8) (sha256 : ByteArray → String) (prompt modelTag : String) :
    Option String :=
  let normalized := String.ofList ([' '].intercalate (words [] prompt.toList))
  (U.encode (modelTag ++ "\x00" ++ normalized)).map fun payload =>
    "auto-" ++ String.ofList ((sha256 payload).toList.take 24)

/-- The thread id of the slot that `submit` makes; a model that is no string has
none to derive. -/
def submitThreadId (U : Utf8) (sha256 : ByteArray → String) (sub : Submission) : Option Json :=
  if sub.threadId.truthy then some sub.threadId
  else match sub.modelTag with
  | .str model => (deriveThreadIdPrefixHash U sha256 sub.prompt model).map .str
  | _ => none

theorem any_intercalate {lone : Char → Bool} {sep : List Char} (hsep : sep.any lone = false)
    (parts : List (List Char)) :
    (sep.intercalate parts).any lone = parts.any (·.any lone) := by
  induction parts with
  | nil => rfl
  | cons part parts ih =>
    cases parts with
    | nil => simp
    | cons part' parts =>
      rw [List.intercalate_cons_cons, List.any_append, List.any_append, hsep, ih, Bool.or_false]
      rfl

theorem any_words {lone : Char → Bool} (hspace : ∀ c, pyIsSpace c → lone c = false)
    (word s : List Char) :
    (words word s).any (·.any lone) = (word.any lone || s.any lone) := by
  fun_induction words word s with
  | case1 => rfl
  | case2 word => simp
  | case3 c s hc ih =>
    rw [ih, List.any_cons, hspace c hc]
    rfl
  | case4 c s hc word _ ih =>
    rw [List.any_cons, ih, List.any_cons, hspace c hc]
    rfl
  | case5 word c s hc ih =>
    rw [ih, List.any_append, List.any_cons, List.any_nil, Bool.or_false, List.any_cons,
      Bool.or_assoc]

theorem Utf8.encode_isSome (U : Utf8) (s : String) : (U.encode s).isSome ↔ U.Encodes s := by
  unfold Utf8.encode
  split <;> simp_all

theorem Utf8.encodes_append (U : Utf8) (s t : String) :
    U.Encodes (s ++ t) ↔ U.Encodes s ∧ U.Encodes t := by
  unfold Utf8.Encodes
  rw [String.toList_append, List.any_append, Bool.or_eq_false_iff]

/-- A thread id is derived just where the model and the prompt can be encoded. -/
theorem derive_isSome (U : Utf8) (sha256 : ByteArray → String) (prompt modelTag : String) :
    (deriveThreadIdPrefixHash U sha256 prompt modelTag).isSome ↔
      U.Encodes modelTag ∧ U.Encodes prompt := by
  have hnormal : U.Encodes (String.ofList ([' '].intercalate (words [] prompt.toList))) ↔
      U.Encodes prompt := by
    have hspace : U.lone ' ' = false := U.lone_space ' ' (by decide)
    unfold Utf8.Encodes
    rw [String.toList_ofList, any_intercalate (by simp [hspace]), any_words U.lone_space]
    rfl
  have hnul : U.Encodes "\x00" := by
    simp [Utf8.Encodes, U.lone_nul]
  unfold deriveThreadIdPrefixHash
  rw [Option.isSome_map, U.encode_isSome, U.encodes_append, U.encodes_append, hnormal,
    and_iff_left hnul]

theorem postedBodies_stream (retries : Bool) {payload : Dict} (model : Json) (prompt : String)
    (threadId messages keepAlive : Json) (h : (payload.get "stream").truthy) :
    postedBodies retries
        ⟨model, prompt, threadId, streamClientMeta payload model messages keepAlive⟩
      = [buildStreamPayload (streamClientMeta payload model messages keepAlive) model
          messages] := by
  have hstream : (streamClientMeta payload model messages keepAlive).get "stream"
      = payload.get "stream" := by
    rw [streamClientMeta, get_forwardKnobs, if_pos]
    refine ⟨by decide, ?_⟩
    by_contra hnull
    rw [Json.eq_null_of_not_isSome hnull] at h
    cases h
  have hmessages : (streamClientMeta payload model messages keepAlive).get "messages" =
      messages := by
    rw [streamClientMeta, get_forwardKnobs, if_neg fun hk => absurd hk.1 (by decide)]
    rfl
  rw [postedBodies, hstream, if_pos h, hmessages]

/-- What the sidecar receives is built from what is submitted. -/
theorem openaiChatCompletions_eq (D : Deps) (retries : Bool) (site : Site) (payload : Dict) :
    openaiChatCompletions D retries payload
      = (openaiSubmission D site payload).map (postedBodies retries) := by
  unfold openaiChatCompletions openaiSubmission
  dsimp only
  by_cases hmodel : (!(payload.get "model").truthy) = true
  · rw [if_pos hmodel, if_pos hmodel]
    rfl
  rw [if_neg hmodel, if_neg hmodel]
  cases payload.get "messages" with
  | arr messages =>
    cases messages with
    | nil => rfl
    | cons m ms =>
      dsimp only
      cases promptOf (m :: ms) with
      | none => rfl
      | some prompt =>
        dsimp only
        cases checkResponseFormat D payload with
        | error e => rfl
        | ok payload' =>
          dsimp only
          cases D.parseKeepAlive (payload'.get "keep_alive") with
          | none => rfl
          | some keepAlive =>
            dsimp only
            rw [Except.map]
            by_cases hstream : (payload'.get "stream").truthy = true
            · rw [if_pos hstream, if_pos hstream, postedBodies_stream _ _ _ _ _ _ hstream]
            · rw [if_neg hstream, if_neg hstream, postedBodies, if_neg (by rintro ⟨⟩)]
              dsimp only
              cases complete (clientMeta D payload' (payload.get "model")
                (.arr (m :: ms)) keepAlive) (payload.get "model") <;> rfl
  | _ => rfl

/-! ## Which lists of messages get through -/

/-- A message without a content, or with a text. -/
def Textual : Json → Prop
  | .obj m => Dict.has m "content" = true → ∃ s, Dict.get m "content" = .str s
  | _ => True

/-- The text of a message. -/
def textOf : Json → Option String
  | .obj m =>
    match Dict.get m "content" with
    | .str s => some s
    | _ => some ""
  | _ => none

theorem contentOf_eq {m : Dict} (h : Textual (.obj m)) :
    some (contentOf m) = (textOf (.obj m)).map some := by
  cases hhas : m.has "content" with
  | false =>
    have hcontent : contentOf m = some "" := if_neg (ne_true_of_eq_false hhas)
    rw [hcontent, textOf, Dict.get_of_not_has hhas]
    rfl
  | true =>
    obtain ⟨s, hs⟩ := h hhas
    have hcontent : contentOf m = some s := by rw [contentOf, if_pos hhas, hs]
    rw [hcontent, textOf, hs]
    rfl

theorem textual_of_contentOf {m : Dict} (h : (contentOf m).isSome) : Textual (.obj m) := by
  intro hhas
  rw [contentOf, if_pos hhas] at h
  cases hm : m.get "content" with
  | str s => exact ⟨s, rfl⟩
  | _ => rw [hm] at h; cases h

theorem promptOf_eq {messages : List Json} (h : ∀ m ∈ messages, Textual m) :
    promptOf messages = some (" ".intercalate (messages.filterMap textOf)) := by
  have hcontents : messages.filterMap (fun
      | .obj m => some (contentOf m)
      | _ => none) = (messages.filterMap textOf).map some := by
    rw [List.map_filterMap]
    refine List.filterMap_congr fun m hm => ?_
    cases m with
    | obj m => exact contentOf_eq (h _ hm)
    | _ => rfl
  refine (congrArg (fun contents : List (Option String) =>
    if contents.all (·.isSome) then some (" ".intercalate (contents.filterMap id)) else none)
    hcontents).trans ?_
  generalize messages.filterMap textOf = texts
  simp

theorem textual_of_promptOf {messages : List Json} (h : (promptOf messages).isSome) :
    ∀ m ∈ messages, Textual m := by
  intro m hm
  cases m with
  | obj m =>
    rw [promptOf] at h
    split at h
    · rename_i hall
      refine textual_of_contentOf (List.all_eq_true.mp hall _ ?_)
      exact List.mem_filterMap.mpr ⟨.obj m, hm, rfl⟩
    · cases h
  | _ => trivial

/-- A request that is in order, its messages apart. -/
structure Serviceable (D : Deps) (payload : Dict) : Prop where
  model : ∃ s, payload.get "model" = .str s ∧ s ≠ ""
  format : (checkResponseFormat D payload).isOk = true
  keepAlive : (D.parseKeepAlive (payload.get "keep_alive")).isSome = true
  optionKeepAlive : (D.parseKeepAlive (ollamaKeepAlive payload)).isSome = true
  tools : streamsTools payload = false

/-- The two routes. -/
def routes : List (Deps → Site → Dict → Except HttpError Submission) :=
  [openaiSubmission, ollamaSubmission]

theorem Serviceable.setMessages {D : Deps} {payload : Dict} (h : Serviceable D payload) (v : Json) :
    Serviceable D (payload.set "messages" v) := by
  have hget : ∀ k, k ≠ "messages" → (payload.set "messages" v).get k = payload.get k :=
    fun _ => Dict.get_set_ne
  constructor
  · rw [hget _ (by decide)]
    exact h.model
  · rw [checkResponseFormat_isOk_congr D (hget _ (by decide))]
    exact h.format
  · rw [hget _ (by decide)]
    exact h.keepAlive
  · have hka : ollamaKeepAlive (payload.set "messages" v) = ollamaKeepAlive payload := by
      unfold ollamaKeepAlive
      rw [hget "keep_alive" (by decide), hget "options" (by decide)]
    rw [hka]
    exact h.optionKeepAlive
  · have htools := h.tools
    rw [streamsTools] at htools ⊢
    simp only [toolKnobs, List.any_cons, List.any_nil] at htools ⊢
    rw [hget _ (by decide), hget _ (by decide), hget _ (by decide), hget _ (by decide),
      hget _ (by decide), hget _ (by decide)]
    exact htools

/-- What is submitted for a request with a prompt. -/
theorem Serviceable.submission {D : Deps} {payload : Dict} (h : Serviceable D payload) (site : Site)
    {m : Json} {ms : List Json} (hmessages : payload.get "messages" = .arr (m :: ms))
    {prompt : String} (hprompt : promptOf (m :: ms) = some prompt)
    {route : Deps → Site → Dict → Except HttpError Submission} (hroute : route ∈ routes) :
    ∃ sub, route D site payload = .ok sub ∧ sub.prompt = prompt ∧
      sub.modelTag = payload.get "model" ∧ sub.threadId = threadIdOf site payload := by
  obtain ⟨tag, htag, hne⟩ := h.model
  have htruthy : (!(Json.str tag).truthy) = false := by simp [Json.truthy, hne]
  obtain ⟨payload', hformat⟩ : ∃ payload', checkResponseFormat D payload = .ok payload' := by
    have hok := h.format
    cases hc : checkResponseFormat D payload with
    | error e => rw [hc] at hok; cases hok
    | ok payload' => exact ⟨payload', rfl⟩
  have hget : ∀ k, k ≠ "response_format" → payload'.get k = payload.get k := fun k hk => by
    rw [get_checkResponseFormat hformat, knobOf_of_ne hk]
  rw [routes, List.mem_pair] at hroute
  rcases hroute with rfl | rfl
  · obtain ⟨keepAlive, hka⟩ := Option.isSome_iff_exists.mp h.keepAlive
    refine ⟨⟨payload.get "model", prompt, threadIdOf site payload,
      if (payload'.get "stream").truthy then
        streamClientMeta payload' (payload.get "model") (.arr (m :: ms)) keepAlive
      else clientMeta D payload' (payload.get "model") (.arr (m :: ms)) keepAlive⟩, ?_, rfl, rfl,
      rfl⟩
    unfold openaiSubmission
    dsimp only
    simp only [hmessages, htag, htruthy, Bool.false_eq_true, if_false, hprompt, hformat]
    rw [hget _ (by decide), hka]
  · obtain ⟨keepAlive, hka⟩ := Option.isSome_iff_exists.mp h.optionKeepAlive
    have htools : streamsTools payload' = false := by
      have htools := h.tools
      rw [streamsTools] at htools ⊢
      simp only [toolKnobs, List.any_cons, List.any_nil] at htools ⊢
      rw [hget _ (by decide), hget _ (by decide), hget _ (by decide), hget _ (by decide),
        hget _ (by decide), hget _ (by decide)]
      exact htools
    refine ⟨⟨payload.get "model", prompt, threadIdOf site payload,
      ollamaClientMeta D payload' (payload.get "model") (.arr (m :: ms)) keepAlive⟩, ?_, rfl, rfl,
      rfl⟩
    unfold ollamaSubmission
    dsimp only
    simp only [hmessages, htag, htruthy, Bool.false_eq_true, if_false, hprompt, hformat, htools,
      hka]

/-- Without a prompt there is nothing to submit. -/
theorem Serviceable.no_submission {D : Deps} {payload : Dict} (h : Serviceable D payload)
    (site : Site) {m : Json} {ms : List Json} (hmessages : payload.get "messages" = .arr (m :: ms))
    (hprompt : promptOf (m :: ms) = none)
    {route : Deps → Site → Dict → Except HttpError Submission} (hroute : route ∈ routes) :
    route D site payload = .error internalError := by
  obtain ⟨tag, htag, hne⟩ := h.model
  have htruthy : (!(Json.str tag).truthy) = false := by simp [Json.truthy, hne]
  rw [routes, List.mem_pair] at hroute
  rcases hroute with rfl | rfl
  · unfold openaiSubmission
    dsimp only
    simp only [hmessages, htag, htruthy, Bool.false_eq_true, if_false, hprompt]
  · unfold ollamaSubmission
    dsimp only
    simp only [hmessages, htag, htruthy, Bool.false_eq_true, if_false, hprompt]

/-! ## The chat routes -/

/-- A content as the two interfaces have it: absent, null, a text or a list of parts. -/
def ContentShape (m : Dict) : Prop :=
  m.get "content" = .null ∨ (∃ s, m.get "content" = .str s) ∨ ∃ parts, m.get "content" = .arr parts

/-- A list of messages that is in order. -/
structure WellFormed (messages : List Json) : Prop where
  ne_nil : messages ≠ []
  shape : ∀ m ∈ messages, ∃ fields, m = .obj fields ∧ ContentShape fields

/-- Both routes take the messages as far as `submit`, which has a thread id for
them; and messages with the same texts get the same one, on either route. -/
def TakesMessages (D : Deps) (U : Utf8) (sha256 : ByteArray → String) (site : Site) (payload : Dict)
    (messages : List Json) : Prop :=
  (∀ route ∈ routes, ∃ sub threadId,
    route D site (payload.set "messages" (.arr messages)) = .ok sub ∧
      submitThreadId U sha256 sub = some threadId) ∧
  ∀ messages', WellFormed messages' → messages.map textOf = messages'.map textOf →
    ∀ route ∈ routes, ∀ route' ∈ routes, ∀ sub sub',
      route D site (payload.set "messages" (.arr messages)) = .ok sub →
      route' D site (payload.set "messages" (.arr messages')) = .ok sub' →
      submitThreadId U sha256 sub = submitThreadId U sha256 sub'

/-- The request has a thread id, or one can be made of its model and the texts. -/
def Identified (U : Utf8) (site : Site) (payload : Dict) (messages : List Json) : Prop :=
  (threadIdOf site payload).truthy ∨
    (∀ tag, payload.get "model" = .str tag → U.Encodes tag) ∧
      ∀ m ∈ messages, ∀ s, textOf m = some s → U.Encodes s

theorem encodes_prompt (U : Utf8) (texts : List String) :
    U.Encodes (" ".intercalate texts) ↔ ∀ s ∈ texts, U.Encodes s := by
  have hspace : U.lone ' ' = false := U.lone_space ' ' (by decide)
  unfold Utf8.Encodes
  rw [String.toList_intercalate, any_intercalate (by simp [hspace]), List.any_map,
    List.any_eq_false]
  simp

/-- A slot for a model that is named has a thread id, if the request has or it can be made. -/
theorem submitThreadId_isSome (U : Utf8) (sha256 : ByteArray → String) {sub : Submission}
    {tag : String} (h : sub.modelTag = .str tag) :
    (submitThreadId U sha256 sub).isSome ↔
      sub.threadId.truthy ∨ U.Encodes tag ∧ U.Encodes sub.prompt := by
  unfold submitThreadId
  by_cases hthread : sub.threadId.truthy = true
  · simp [hthread]
  · rw [if_neg hthread, h]
    dsimp only
    rw [Option.isSome_map, derive_isSome]
    simp [hthread]

/-- Two submissions of the same prompt, for the same model and thread. -/
theorem submitThreadId_congr (U : Utf8) (sha256 : ByteArray → String) {sub sub' : Submission}
    (hprompt : sub.prompt = sub'.prompt) (hmodel : sub.modelTag = sub'.modelTag)
    (hthread : sub.threadId = sub'.threadId) :
    submitThreadId U sha256 sub = submitThreadId U sha256 sub' := by
  rw [submitThreadId, submitThreadId, hprompt, hmodel, hthread]

/-- What a route does with the messages, put into a request that is in order. -/
theorem Serviceable.route {D : Deps} {payload : Dict} (h : Serviceable D payload) (site : Site)
    {messages : List Json} (hne : messages ≠ [])
    {route : Deps → Site → Dict → Except HttpError Submission} (hroute : route ∈ routes) :
    (promptOf messages = none ∧
      route D site (payload.set "messages" (.arr messages)) = .error internalError) ∨
    ∃ sub, promptOf messages = some sub.prompt ∧
      route D site (payload.set "messages" (.arr messages)) = .ok sub ∧
      sub.modelTag = payload.get "model" ∧ sub.threadId = threadIdOf site payload := by
  obtain ⟨m, ms, rfl⟩ := List.exists_cons_of_ne_nil hne
  have hset := h.setMessages (.arr (m :: ms))
  have hget : (payload.set "messages" (.arr (m :: ms))).get "messages" = .arr (m :: ms) :=
    Dict.get_set_self _ _ _
  cases hprompt : promptOf (m :: ms) with
  | none => exact .inl ⟨rfl, hset.no_submission site hget hprompt hroute⟩
  | some prompt =>
    obtain ⟨sub, hsub, rfl, hmodel, hthread⟩ := hset.submission site hget hprompt hroute
    rw [Dict.get_set_ne (by decide)] at hmodel
    rw [threadIdOf, Dict.get_set_ne (by decide), ← threadIdOf] at hthread
    exact .inr ⟨sub, rfl, hsub, hmodel, hthread⟩

/-- What is submitted has a thread id, just where the request is identified. -/
theorem identified_iff {U : Utf8} {sha256 : ByteArray → String} {site : Site} {payload : Dict}
    {messages : List Json} {sub : Submission} {tag : String} (htag : payload.get "model" = .str tag)
    (htext : ∀ m ∈ messages, Textual m) (hprompt : promptOf messages = some sub.prompt)
    (hmodel : sub.modelTag = payload.get "model")
    (hthread : sub.threadId = threadIdOf site payload) :
    (submitThreadId U sha256 sub).isSome ↔ Identified U site payload messages := by
  rw [promptOf_eq htext, Option.some.injEq] at hprompt
  rw [submitThreadId_isSome U sha256 (hmodel.trans htag), hthread, ← hprompt, encodes_prompt,
    Identified, htag]
  refine or_congr_right (and_congr ⟨fun h _ htag => ?_, fun h => h tag rfl⟩ ⟨fun h m hm s hs => ?_,
    fun h s hs => ?_⟩)
  · cases htag
    exact h
  · exact h s (List.mem_filterMap.mpr ⟨m, hm, hs⟩)
  · obtain ⟨m, hm, hs⟩ := List.mem_filterMap.mp hs
    exact h m hm s hs

/-- The routes take the messages of a request that is in order, just where each of them
has a text or no content at all, and either the request has a thread id or its model and
the texts have no lone surrogate. -/
theorem takesMessages_iff {D : Deps} {payload : Dict} (h : Serviceable D payload) (U : Utf8)
    (sha256 : ByteArray → String) (site : Site) {messages : List Json} (hwf : WellFormed messages) :
    TakesMessages D U sha256 site payload messages ↔
      (∀ m ∈ messages, Textual m) ∧ Identified U site payload messages := by
  obtain ⟨tag, htag, -⟩ := h.model
  constructor
  · rintro ⟨hreach, -⟩
    obtain ⟨sub, threadId, hsub, hid⟩ := hreach openaiSubmission List.mem_cons_self
    rcases h.route site hwf.ne_nil List.mem_cons_self with
      ⟨-, herror⟩ | ⟨sub', hprompt, hsub', hmodel, hthread⟩
    · cases hsub.symm.trans herror
    · obtain rfl := Except.ok.inj (hsub.symm.trans hsub')
      have htext := textual_of_promptOf (Option.isSome_of_eq_some hprompt)
      exact ⟨htext, (identified_iff htag htext hprompt hmodel hthread).mp
        (Option.isSome_of_eq_some hid)⟩
  · rintro ⟨htext, hident⟩
    have hprompt := promptOf_eq htext
    refine ⟨fun route hroute => ?_, ?_⟩
    · rcases h.route site hwf.ne_nil hroute with ⟨hnone, -⟩ | ⟨sub, hp, hsub, hmodel, hthread⟩
      · cases hprompt.symm.trans hnone
      · have hid : (submitThreadId U sha256 sub).isSome :=
          (identified_iff htag htext hp hmodel hthread).mpr hident
        obtain ⟨threadId, hid⟩ := Option.isSome_iff_exists.mp hid
        exact ⟨sub, threadId, hsub, hid⟩
    · intro messages' hwf' hsame route hroute route' hroute' sub sub' hsub hsub'
      rcases h.route site hwf.ne_nil hroute with ⟨hnone, -⟩ | ⟨sub₁, hp, hsub₁, hmodel, hthread⟩
      · cases hprompt.symm.trans hnone
      rcases h.route site hwf'.ne_nil hroute' with ⟨-, herror⟩
        | ⟨sub₂, hp', hsub₂, hmodel', hthread'⟩
      · cases hsub'.symm.trans herror
      obtain rfl := Except.ok.inj (hsub.symm.trans hsub₁)
      obtain rfl := Except.ok.inj (hsub'.symm.trans hsub₂)
      have htext' : ∀ m ∈ messages', Textual m :=
        textual_of_promptOf (Option.isSome_of_eq_some hp')
      rw [hprompt] at hp
      rw [promptOf_eq htext'] at hp'
      refine submitThreadId_congr U sha256 ?_ (hmodel.trans hmodel'.symm)
        (hthread.trans hthread'.symm)
      have htexts (l : List Json) : l.filterMap textOf = (l.map textOf).filterMap id := by
        rw [List.filterMap_map]
        rfl
      rw [← Option.some.inj hp, ← Option.some.inj hp', htexts messages, htexts messages', hsame]

/-- A conversation without tools. -/
def plainTurns : List Json :=
  [.obj [("role", .str "user"), ("content", .str "hi")], .obj [("role", .str "assistant")]]

/-- One in which a tool is called: that turn has a null for its content. -/
def toolTurns : List Json :=
  [.obj [("role", .str "user"), ("content", .str "hi")],
    .obj [("role", .str "assistant"), ("content", .null),
      ("tool_calls", .arr [.obj [("id", .str "call_1"), ("type", .str "function")]])]]

/-- And one of a single text, the character that stands for a lone surrogate. -/
def loneTurn : List Json := [.obj [("role", .str "user"), ("content", .str "\uE000")]]

/-- One character stands for a lone surrogate. -/
def oneLone : Utf8 where
  lone c := c = '\uE000'
  lone_space c hc := by
    refine decide_eq_false fun h => ?_
    subst h
    exact absurd hc (by decide)
  lone_nul := by decide

theorem serviceable_plain : Serviceable plainDeps [("model", .str "qwen3-8b")] :=
  ⟨⟨"qwen3-8b", rfl, by decide⟩, rfl, rfl, rfl, rfl⟩

theorem wellFormed_plainTurns : WellFormed plainTurns := by
  refine ⟨List.cons_ne_nil _ _, fun m hm => ?_⟩
  rcases List.mem_pair.mp hm with rfl | rfl
  · exact ⟨_, rfl, .inr (.inl ⟨"hi", rfl⟩)⟩
  · exact ⟨_, rfl, .inl rfl⟩

theorem wellFormed_toolTurns : WellFormed toolTurns := by
  refine ⟨List.cons_ne_nil _ _, fun m hm => ?_⟩
  rcases List.mem_pair.mp hm with rfl | rfl
  · exact ⟨_, rfl, .inr (.inl ⟨"hi", rfl⟩)⟩
  · exact ⟨_, rfl, .inl rfl⟩

theorem takesMessages_iff_plain :
    TakesMessages plainDeps oneLone (fun _ => "") ⟨2, none⟩ [("model", .str "qwen3-8b")]
        plainTurns ↔
      (∀ m ∈ plainTurns, Textual m) ∧
        Identified oneLone ⟨2, none⟩ [("model", .str "qwen3-8b")] plainTurns :=
  takesMessages_iff serviceable_plain oneLone _ _ wellFormed_plainTurns

/-- Neither a turn that calls a tool is taken, nor a lone surrogate. -/
theorem toolTurn_not_taken :
    Serviceable plainDeps [("model", .str "qwen3-8b")] ∧
    (WellFormed toolTurns ∧
      ¬ TakesMessages plainDeps oneLone (fun _ => "") ⟨2, none⟩ [("model", .str "qwen3-8b")]
        toolTurns) ∧
    WellFormed loneTurn ∧
      ¬ TakesMessages plainDeps oneLone (fun _ => "") ⟨2, none⟩ [("model", .str "qwen3-8b")]
        loneTurn := by
  have hlone : WellFormed loneTurn := by
    refine ⟨List.cons_ne_nil _ _, fun m hm => ?_⟩
    cases List.mem_singleton.mp hm
    exact ⟨_, rfl, .inr (.inl ⟨_, rfl⟩)⟩
  refine ⟨serviceable_plain, ⟨wellFormed_toolTurns, fun h => ?_⟩, hlone, fun h => ?_⟩
  · obtain ⟨sub, -, hsub, -⟩ := h.1 openaiSubmission List.mem_cons_self
    cases hsub
  · obtain ⟨sub, threadId, hsub, hid⟩ := h.1 openaiSubmission List.mem_cons_self
    have hnone : submitThreadId oneLone (fun _ => "") sub = none := by
      cases hsub
      rfl
    rw [hnone] at hid
    cases hid

end Turbohaul.Chat
