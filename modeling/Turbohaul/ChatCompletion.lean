/-
# `ChatCompletion` — what a chat request sends to llama-server

`/v1/chat/completions` of `api/chat_completion.py`, from the payload to the
bodies that are posted to the sidecar once the slot is served: the streaming
route builds its own, the other leaves it to `_complete`.  The schema check,
`parse_keep_alive` and the manifest read are parameters, and so is whether
`_complete` repeats a request.

  `openai_chat_completions`         `openaiChatCompletions`
  `_openai_chat_completions_stream` `streamClientMeta`, `buildStreamPayload`
  `_complete`                       `complete`, `retryPayload`
-/
import Turbohaul.Json

namespace Turbohaul.Chat

/-- `_COMMON_FORWARDED_KNOBS`. -/
def commonForwardedKnobs : List String :=
  [ "temperature", "top_p", "top_k", "max_tokens", "min_p",
    "response_format",
    "thinking_budget_tokens", "reasoning_budget", "reasoning",
    "presence_penalty", "frequency_penalty", "repeat_penalty",
    "repeat_last_n", "typical_p", "seed",
    "mirostat", "mirostat_lr", "mirostat_ent",
    "n_predict",
    "tools", "tool_choice", "parallel_tool_calls",
    "function_call", "functions" ]

/-- `_STREAM_ONLY_KNOBS`. -/
def streamOnlyKnobs : List String := ["stream", "stream_options"]

/-- `_STREAM_FORWARDED_KNOBS`. -/
def streamForwardedKnobs : List String := commonForwardedKnobs ++ streamOnlyKnobs

/-- `HTTPException`, or an exception no route catches (status 500). -/
structure HttpError where
  status : Nat
  detail : Json

/-- What the routes call: `repr`; the check of a `json_schema`, with its reason
to refuse; `parse_keep_alive`, which may raise; `reasoning_budget` of the model's
manifest, unless the read fails. -/
structure Deps where
  repr : Json → String
  validateJsonSchema : Dict → Option String
  parseKeepAlive : Json → Option Json
  reasoningBudget : Json → Option Json

/-- An exception no route catches. -/
def internalError : HttpError := ⟨500, .str "Internal Server Error"⟩

/-- `str(x)`. -/
def Deps.str (D : Deps) : Json → String
  | .str s => s
  | x => D.repr x

/-- One message of `" ".join(m.get("content", "") for m in messages ...)`; a
content that is no string makes the join raise. -/
def contentOf (m : Dict) : Option String :=
  if m.has "content" then
    match m.get "content" with
    | .str s => some s
    | _ => none
  else some ""

/-- The prompt, of the messages that are objects. -/
def promptOf (messages : List Json) : Option String :=
  let contents := messages.filterMap fun
    | .obj m => some (contentOf m)
    | _ => none
  if contents.all (·.isSome) then some (" ".intercalate (contents.filterMap id)) else none

/-- The pre-validation of `response_format`; the payload it leaves. -/
def checkResponseFormat (D : Deps) (payload : Dict) : Except HttpError Dict :=
  match payload.get "response_format" with
  | .null => .ok payload
  | .obj rf =>
    match Dict.get rf "type" with
    | .str "text" => .ok (payload.set "response_format" .null)
    | .str "json_object" => .ok payload
    | .str "json_schema" =>
      match D.validateJsonSchema rf with
      | none => .ok payload
      | some reason =>
        .error ⟨422, .obj [("error", .str "schema_validation_failed"),
          ("message", .str ("json_schema validation failed: " ++ reason))]⟩
    | rfType =>
      .error ⟨400, .obj [("error", .str "response_format_unsupported_type"),
        ("message",
          .str "response_format type must be one of 'text', 'json_object', 'json_schema'"),
        ("received_type", .str (D.str rfType))]⟩
  | rf =>
    .error ⟨400, .obj [("error", .str "response_format_unsupported_type"),
      ("message", .str "response_format must be an object"), ("received", .str rf.typeName)]⟩

/-- `thinking_manifest` of a `json_schema` request; empty for another, and where
the manifest cannot be read. -/
def thinkingManifest (D : Deps) (payload : Dict) (model : Json) : Dict :=
  match payload.get "response_format" with
  | .obj rf =>
    match Dict.get rf "type" with
    | .str "json_schema" =>
      match D.reasoningBudget model with
      | some budget => [("reasoning_budget", budget)]
      | none => []
    | _ => []
  | _ => []

/-- `client_meta` of `openai_chat_completions`. -/
def clientMeta (D : Deps) (payload : Dict) (model messages keepAlive : Json) : Dict :=
  [ ("kind", .str "openai-chat-completion"),
    ("messages", messages),
    ("model", model),
    ("temperature", payload.get "temperature"),
    ("top_p", payload.get "top_p"),
    ("stream", .bool false),
    ("max_tokens", payload.get "max_tokens"),
    ("keep_alive_s", keepAlive),
    ("response_format", payload.get "response_format"),
    ("thinking_manifest", .obj (thinkingManifest D payload model)),
    ("tools", payload.get "tools"),
    ("tool_choice", payload.get "tool_choice"),
    ("parallel_tool_calls", payload.get "parallel_tool_calls"),
    ("function_call", payload.get "function_call"),
    ("functions", payload.get "functions") ]

/-- `for k in knobs: if source.get(k) is not None: body[k] = source.get(k)`. -/
def forwardKnobs (source : Dict) (knobs : List String) (body : Dict) : Dict :=
  knobs.foldl (fun body k =>
    if (source.get k).isSome then body.set k (source.get k) else body) body

/-- `client_meta` of `_openai_chat_completions_stream`. -/
def streamClientMeta (payload : Dict) (model messages keepAlive : Json) : Dict :=
  forwardKnobs payload streamForwardedKnobs
    [ ("kind", .str "openai-chat-completion-stream"),
      ("messages", messages),
      ("model", model),
      ("stream", .bool true),
      ("temperature", payload.get "temperature"),
      ("top_p", payload.get "top_p"),
      ("max_tokens", payload.get "max_tokens"),
      ("keep_alive_s", keepAlive) ]

/-- `_build_stream_payload`. -/
def buildStreamPayload (clientMeta : Dict) (model messages : Json) : Dict :=
  forwardKnobs clientMeta streamForwardedKnobs
    [("model", model), ("messages", messages), ("stream", .bool true)]

/-- The body `_complete` posts; none where there are no messages. -/
def complete (clientMeta : Dict) (modelTag : Json) : Option Dict :=
  let messages := clientMeta.get "messages"
  if messages.truthy then
    some (forwardKnobs clientMeta commonForwardedKnobs
      [("model", modelTag), ("messages", messages), ("stream", .bool false)])
  else none

/-- A value with a Jinja construct. -/
def hasJinja (s : String) : Bool :=
  let has (a b : Char) := (s.toList.zip s.toList.tail).contains (a, b)
  has '\x7b' '\x7b' || has '\x7b' '%'

/-- The body `_complete` posts a second time, with thinking disabled. -/
def retryPayload (payload : Dict) : Dict :=
  let rawCtk := match payload.get "chat_template_kwargs" with
    | .obj kvs => kvs
    | _ => []
  let safeCtk := rawCtk.foldl (fun (safe : Dict) kv =>
    match kv.2 with
    | .str s =>
      if hasJinja s then safe else if kv.1 = "enable_thinking" then safe.set kv.1 kv.2 else safe
    | v => if kv.1 = "enable_thinking" then safe.set kv.1 v else safe)
    [("enable_thinking", .bool false)]
  payload.set "chat_template_kwargs" (.obj safeCtk)

/-- `openai_chat_completions`, up to the bodies that the sidecar receives, in
order, when the slot is served; `retries` is whether `_complete` found the first
answer wanting. -/
def openaiChatCompletions (D : Deps) (retries : Bool) (payload : Dict) :
    Except HttpError (List Dict) :=
  let model := payload.get "model"
  if !model.truthy then .error ⟨400, .str "\x60model\x60 field required"⟩
  else match payload.get "messages" with
  | .arr (m :: ms) =>
    let messages := Json.arr (m :: ms)
    match promptOf (m :: ms) with
    | none => .error internalError
    | some _ =>
      match checkResponseFormat D payload with
      | .error e => .error e
      | .ok payload =>
        match D.parseKeepAlive (payload.get "keep_alive") with
        | none => .error internalError
        | some keepAlive =>
          if (payload.get "stream").truthy then
            .ok [buildStreamPayload (streamClientMeta payload model messages keepAlive) model
              messages]
          else match complete (clientMeta D payload model messages keepAlive) model with
            | none => .ok []
            | some body => .ok (body :: if retries then [retryPayload body] else [])
  | _ => .error ⟨400, .str "\x60messages\x60 must be a non-empty list"⟩

end Turbohaul.Chat
