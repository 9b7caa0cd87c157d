/-
# `CompleteFn` — one request to llama-server, and its repetition

`_complete` of `make_llama_server_complete_fn`, from the body it posts to what it
returns or raises.  A `json_schema` request to a model that thinks has its answer
validated behind the last `</think>`; one that fails is asked for a second time, with
thinking off.  What httpx and `jsonschema` do is a parameter.

  `_complete`                `completeFn`, with the bodies it posted
  `is_thinking_payload`      `isThinkingPayload`
  `_strip_thinking_wrapper`  `stripThinkingWrapper`
  `checkContent`             the check of an answer
  `completed_meets_schema`   what is returned was validated, after two posts at most
  `completed_readable_iff`   when the client can read what was validated

The validated text is behind the wrapper, and the client gets the wrapper too: a content
that validates behind a `</think>` is no JSON as it stands.
-/
import Turbohaul.ChatRoutes
import Turbohaul.Reasoning
import Turbohaul.KeepAlive
import Turbohaul.ToolCallSound
import Turbohaul.JsonQuotes

namespace Turbohaul.Chat

open ToolCalls JsonText KeepAlive

/-- What `Draft202012Validator(schema).validate(x)` does: it returns, raises a
`ValidationError`, or raises something else. -/
inductive Check
  | valid
  | invalid
  | raised
deriving DecidableEq

/-- What httpx raises of a post: the classes of a broken connection, those of a time
limit, with their names and texts, or another. -/
inductive HttpxError
  | disconnected (name text : String)
  | timedOut (name : String)
  | other

/-- What comes back of a post. -/
inductive Posted
  | json (body : Json)
  | notJson
  | status (code : ℕ) (text : String)
  | failed (e : HttpxError)

/-- How `_complete` ends. -/
inductive Completed
  | nothing
  | result (r : Json)
  | upstreamError (message : String) (status : ℕ) (body : String)
  | unavailableError (message cause : String) (retryAfterS : ℕ)
  | timeoutError (message : String) (retryAfterS : ℕ)
  | escaped

/-- What `_complete` calls.  Without `jsonschema` there is no validator. -/
structure Sidecar where
  F : FloatText
  uuid : ℕ → String
  validate : Option (Json → Json → Check)
  str : Json → String
  timeoutText : String

/-! ## An answer -/

/-- `_strip_thinking_wrapper` of a string. -/
def stripThinkingWrapper (content : List Char) : List Char :=
  match rfind thinkClose content with
  | some i => (content.drop (i + thinkClose.length)).dropWhile pyIsSpace
  | none => content

/-- `is_thinking_payload`; none is an `OverflowError`. -/
def isThinkingPayload (thinkingManifest : Dict) : Option Bool :=
  match thinkingManifest.get "reasoning_budget" with
  | .bool b => some b
  | .int n => some (0 < n)
  | .float .nan => some false
  | .float (.finite q) => some (0 < truncate q)
  | .float _ => none
  | .str s => some (((pyInt s.toList).map fun n => decide (0 < n)).getD false)
  | _ => some false

/-- The schema an answer is validated against, if it is; the error is an exception that
`_complete` does not expect. -/
def schemaToMeet (S : Sidecar) (clientMeta : Dict) : Except Unit (Option (Json → Check)) :=
  match clientMeta.get "response_format" with
  | .obj rf =>
    match Dict.get rf "type" with
    | .str "json_schema" =>
      let thinkingManifest := match clientMeta.get "thinking_manifest" with
        | .obj kvs => kvs
        | _ => []
      match isThinkingPayload thinkingManifest with
      | none => .error ()
      | some false => .ok none
      | some true =>
        match S.validate with
        | none => .ok none
        | some validate =>
          if Dict.has rf "json_schema" then
            match Dict.get rf "json_schema" with
            | .obj js =>
              let schema := Dict.get js "schema"
              .ok (some (validate (if schema.truthy then schema else .obj [])))
            | _ => .error ()
          else .ok (some (validate (.obj [])))
    | _ => .ok none
  | _ => .ok none

/-- The check of an answer.  A message that is no object has no `get`, and that
exception is not among those expected. -/
def checkContent (F : FloatText) (meets : Json → Check) : Json → Check
  | .obj res =>
    match Dict.get res "choices" with
    | .arr (.obj choice :: _) =>
      if Dict.has choice "message" then
        match Dict.get choice "message" with
        | .obj msg =>
          match orEmpty (Dict.get msg "content") with
          | .str content =>
            match loads F (stripThinkingWrapper content.toList) with
            | some x => meets x
            | none => .invalid
          | _ => .invalid
        | _ => .raised
      else .invalid
    | _ => .invalid
  | _ => .invalid

/-- `SidecarUpstreamError`, which keeps 500 characters of the body. -/
def sidecarUpstreamError (message : String) (upstreamStatus : ℕ) (upstreamBody : String) :
    Completed :=
  .upstreamError message upstreamStatus (String.ofList (upstreamBody.toList.take 500))

/-- `r.raise_for_status()`, `r.json()` and the handlers. -/
def answerOf (S : Sidecar) : Posted → Except Completed Json
  | .json body => .ok body
  | .notJson => .error .escaped
  | .status code text =>
    .error (sidecarUpstreamError s!"sidecar returned HTTP {code}" code text)
  | .failed (.disconnected name text) =>
    .error (.unavailableError ("sidecar unavailable: " ++ name ++ ": " ++ text)
      "sidecar_disconnected_or_crashed" 30)
  | .failed (.timedOut name) =>
    .error (.timeoutError ("sidecar request timed out after " ++ S.timeoutText ++ "s: " ++ name) 60)
  | .failed .other => .error .escaped

/-- What is done to the answer that is returned. -/
def finished (S : Sidecar) (clientMeta : Dict) (result : Json) : Json :=
  maybeRecoverToolCalls S.F S.uuid
    (mergeReasoningIntoContent result (clientMeta.get "response_format")) (clientMeta.get "tools")

/-- `_complete`; `post` is what comes back of each post. -/
def completeFn (S : Sidecar) (post : ℕ → Dict → Posted) (clientMeta : Dict) (modelTag : Json) :
    List Dict × Completed :=
  match complete clientMeta modelTag with
  | none => ([], .nothing)
  | some payload =>
    match answerOf S (post 0 payload) with
    | .error e => ([payload], e)
    | .ok result =>
      match schemaToMeet S clientMeta with
      | .error _ => ([payload], .escaped)
      | .ok none => ([payload], .result (finished S clientMeta result))
      | .ok (some meets) =>
        match checkContent S.F meets result with
        | .valid => ([payload], .result (finished S clientMeta result))
        | .raised => ([payload], .escaped)
        | .invalid =>
          let retry := retryPayload payload
          match answerOf S (post 1 retry) with
          | .error e => ([payload, retry], e)
          | .ok retryResult =>
            match checkContent S.F meets retryResult with
            | .valid => ([payload, retry], .result (finished S clientMeta retryResult))
            | .raised => ([payload, retry], .escaped)
            | .invalid =>
              ([payload, retry],
                sidecarUpstreamError "model_jsonschema_noncompliance_after_retry" 200
                  (String.ofList ((S.str retryResult).toList.take 500)))

/-! ## What a validated answer is -/

/-- The content of the first message, if it is a text. -/
def firstContent (result : Json) : Option (List Char) :=
  (firstMessage result).bind fun msg =>
    match orEmpty (msg.get "content") with
    | .str content => some content.toList
    | _ => none

/-- What a client reads that parses the content. -/
def Reads (F : FloatText) (result x : Json) : Prop :=
  ∃ content, firstContent result = some content ∧ loads F content = some x

theorem checkContent_valid {F : FloatText} {meets : Json → Check} {result : Json}
    (h : checkContent F meets result = .valid) :
    ∃ content x, firstContent result = some content ∧
      loads F (stripThinkingWrapper content) = some x ∧ meets x = .valid := by
  unfold checkContent at h
  split at h
  · rename_i res
    split at h
    · rename_i choice choices hchoices
      split at h
      · split at h
        · rename_i msg hmsg
          have hfirst : firstMessage (.obj res) = some msg := by
            rw [firstMessage, hchoices]
            show (match Dict.get choice "message" with | .obj msg => some msg | _ => none) =
              some msg
            rw [hmsg]
          split at h
          · rename_i content hcontent
            split at h
            · rename_i x hx
              refine ⟨content.toList, x, ?_, hx, h⟩
              rw [firstContent, hfirst, Option.bind_some, hcontent]
            · cases h
          · cases h
        · cases h
      · cases h
    · cases h
  · cases h

theorem answerOf_ok {S : Sidecar} {p : Posted} {res : Json} (h : answerOf S p = .ok res) :
    p = .json res := by
  unfold answerOf at h
  split at h
  · rw [Except.ok.inj h]
  all_goals cases h

/-- A failure is no result. -/
theorem answerOf_error {S : Sidecar} {p : Posted} {e : Completed} (h : answerOf S p = .error e)
    (r : Json) : e ≠ .result r := by
  unfold answerOf at h
  split at h
  · cases h
  all_goals
    rw [← Except.error.inj h]
    intro he
    cases he

/-- However it ends, two posts were made at most. -/
theorem completeFn_posts (S : Sidecar) (post : ℕ → Dict → Posted) (clientMeta : Dict)
    (modelTag : Json) : (completeFn S post clientMeta modelTag).1.length ≤ 2 := by
  have hone : ∀ (payload : Dict) (e : Completed), ([payload], e).1.length ≤ 2 :=
    fun _ _ => Nat.le_succ 1
  have htwo : ∀ (payload retry : Dict) (e : Completed), ([payload, retry], e).1.length ≤ 2 :=
    fun _ _ _ => Nat.le_refl 2
  unfold completeFn
  split
  · exact Nat.zero_le 2
  · split
    · exact hone _ _
    · split
      · exact hone _ _
      · exact hone _ _
      · split
        · exact hone _ _
        · exact hone _ _
        · dsimp only
          split
          · exact htwo _ _ _
          · split <;> exact htwo _ _ _

/-- The ways in which a result is returned where the answer has to meet a schema. -/
theorem completeFn_result {S : Sidecar} {post : ℕ → Dict → Posted} {clientMeta : Dict}
    {modelTag r : Json} {meets : Json → Check} {posts : List Dict}
    (hwant : schemaToMeet S clientMeta = .ok (some meets))
    (h : completeFn S post clientMeta modelTag = (posts, .result r)) :
    ∃ payload, complete clientMeta modelTag = some payload ∧ ∃ res,
      checkContent S.F meets res = .valid ∧ r = finished S clientMeta res ∧
      ((posts = [payload] ∧ post 0 payload = .json res) ∨
        ∃ res₀, posts = [payload, retryPayload payload] ∧ post 0 payload = .json res₀ ∧
          checkContent S.F meets res₀ = .invalid ∧ post 1 (retryPayload payload) = .json res) := by
  unfold completeFn at h
  split at h
  · cases h
  · rename_i payload hpayload
    refine ⟨payload, hpayload, ?_⟩
    split at h
    · rename_i e he
      exact absurd (Prod.mk.inj h).2 (answerOf_error he r)
    · rename_i res₀ hres₀
      rw [hwant] at h
      split at h
      · cases h
      · rename_i hnone
        cases hnone
      · rename_i meets' hmeets
        cases hmeets
        split at h
        · rename_i hvalid
          obtain ⟨rfl, hr⟩ := Prod.mk.inj h
          exact ⟨res₀, hvalid, (Completed.result.inj hr).symm, .inl ⟨rfl, answerOf_ok hres₀⟩⟩
        · cases h
        · rename_i hinvalid
          dsimp only at h
          split at h
          · rename_i e he
            exact absurd (Prod.mk.inj h).2 (answerOf_error he r)
          · rename_i res hres
            split at h
            · rename_i hvalid
              obtain ⟨rfl, hr⟩ := Prod.mk.inj h
              exact ⟨res, hvalid, (Completed.result.inj hr).symm,
                .inr ⟨res₀, rfl, answerOf_ok hres₀, hinvalid, answerOf_ok hres⟩⟩
            · cases h
            · cases h

/-- The body of `_complete` has no template arguments, so that the second one differs in
those only, and turns thinking off. -/
theorem retryPayload_complete {clientMeta : Dict} {modelTag : Json} {payload : Dict}
    (h : complete clientMeta modelTag = some payload) :
    retryPayload payload =
      payload.set "chat_template_kwargs" (.obj [("enable_thinking", .bool false)]) := by
  have hnone : payload.get "chat_template_kwargs" = .null := by
    rw [complete] at h
    split at h
    · have hnot : "chat_template_kwargs" ∉ commonForwardedKnobs := by decide
      rw [← Option.some.inj h, get_forwardKnobs, if_neg fun hc => hnot hc.1]
      rfl
    · cases h
  rw [retryPayload, hnone]
  rfl

theorem structured_of_schema {S : Sidecar} {clientMeta : Dict} {meets : Json → Check}
    (hwant : schemaToMeet S clientMeta = .ok (some meets)) :
    structured (clientMeta.get "response_format") = true := by
  unfold schemaToMeet at hwant
  split at hwant
  · rename_i rf hrf
    split at hwant
    · rename_i htype
      rw [hrf, structured, htype]
      rfl
    · cases hwant
  · cases hwant

/-- What is recovered from an answer leaves it, where it is nothing. -/
theorem finished_eq {S : Sidecar} {clientMeta : Dict} {result : Json} {meets : Json → Check}
    (hwant : schemaToMeet S clientMeta = .ok (some meets))
    (hnone : recoveredCalls S.F result (clientMeta.get "tools") = []) :
    finished S clientMeta result = result := by
  have hmerge : mergeReasoningIntoContent result (clientMeta.get "response_format") = result := by
    rw [mergeReasoningIntoContent, if_pos (structured_of_schema hwant)]
  rw [finished, hmerge]
  unfold maybeRecoverToolCalls
  unfold recoveredCalls at hnone
  split
  · rfl
  · rename_i t ht
    rw [ht] at hnone
    have hrecover : recover S.F t.known t.content = none := by
      unfold recover
      dsimp only at hnone ⊢
      rw [hnone]
    rw [hrecover]

theorem recoveredCalls_of_no_names {F : FloatText} {result tools : Json}
    (h : extractKnownNames tools = []) : recoveredCalls F result tools = [] := by
  have hgates : gates result tools = none := by
    cases ht : gates result tools with
    | none => rfl
    | some t => exact absurd ((gates_spec ht).known.trans h) (gates_spec ht).names
  rw [recoveredCalls, hgates]

theorem rfind_infix {a : Char} {cs s : List Char} (h : (a :: cs) <:+: s) :
    (rfind (a :: cs) s).isSome := by
  obtain ⟨before, after, rfl⟩ := h
  have hhere : (rfind (a :: cs) ((a :: cs) ++ after)).isSome := by
    rw [List.cons_append, rfind]
    split
    · rfl
    · have hp : (a :: cs).isPrefixOf (a :: (cs ++ after)) = true :=
        List.isPrefixOf_iff_prefix.mpr (List.prefix_append (a :: cs) after)
      rw [if_pos hp]
      rfl
  obtain ⟨i, hi⟩ := Option.isSome_iff_exists.mp hhere
  rw [List.append_assoc, rfind_append hi]
  rfl

/-- A content with a closing tag in it is no text where what is behind it is one. -/
theorem wrapped_unreadable {F : FloatText} {content : List Char} {x : Json}
    (htag : thinkClose <:+: content) (hx : loads F (stripThinkingWrapper content) = some x) :
    loads F content = none := by
  cases hrfind : rfind thinkClose content with
  | none =>
    have hsome : (rfind thinkClose content).isSome := rfind_infix htag
    rw [hrfind] at hsome
    cases hsome
  | some i =>
    obtain ⟨before, after, rfl, rfl⟩ := rfind_sound hrfind
    have hstrip : stripThinkingWrapper (before ++ thinkClose ++ after) =
        after.dropWhile pyIsSpace := by
      rw [stripThinkingWrapper, hrfind]
      dsimp only
      rw [← List.length_append, List.drop_left]
    rw [hstrip] at hx
    have hblank : ∀ c ∈ after.takeWhile pyIsSpace, Bare c := by
      intro c hc
      have hspace := List.mem_takeWhile_imp hc
      refine ⟨?_, ?_, ?_⟩
      all_goals
        rintro rfl
        exact absurd hspace (by decide)
    cases hall : loads F (before ++ thinkClose ++ after) with
    | none => rfl
    | some y =>
      rw [← List.takeWhile_append_dropWhile (p := pyIsSpace) (l := after), List.append_assoc]
        at hall
      have hclose : thinkClose = '<' :: "/think>".toList := by decide
      have htag : Inside ('<' :: "/think>".toList) := by
        rw [← hclose]
        have hplain : thinkClose.all (fun c => decide (c ≠ '"' ∧ c ≠ '\\')) = true := by decide
        exact fun c hc => of_decide_eq_true (List.all_eq_true.mp hplain c hc)
      rw [hclose, List.cons_append] at hall
      rw [loads_behind_tag htag hblank hall] at hx
      cases hx

/-- Two posts are made at most, and where a schema is to be met a result that is returned was
validated; the second post is the first one with thinking off, and was made because the first
answer did not validate. -/
theorem completed_meets_schema {S : Sidecar} {post : ℕ → Dict → Posted} {clientMeta : Dict}
    {modelTag : Json} {meets : Json → Check}
    (hwant : schemaToMeet S clientMeta = .ok (some meets)) :
    (completeFn S post clientMeta modelTag).1.length ≤ 2 ∧
    ∀ posts r, completeFn S post clientMeta modelTag = (posts, .result r) →
      ∃ payload res content x, complete clientMeta modelTag = some payload ∧
        firstContent res = some content ∧ loads S.F (stripThinkingWrapper content) = some x ∧
        meets x = .valid ∧
        r = maybeRecoverToolCalls S.F S.uuid res (clientMeta.get "tools") ∧
        ((posts = [payload] ∧ post 0 payload = .json res) ∨
          ∃ res₀ retry, posts = [payload, retry] ∧
            retry = payload.set "chat_template_kwargs" (.obj [("enable_thinking", .bool false)]) ∧
            post 0 payload = .json res₀ ∧ checkContent S.F meets res₀ = .invalid ∧
            post 1 retry = .json res) := by
  refine ⟨completeFn_posts S post clientMeta modelTag, fun posts r h => ?_⟩
  obtain ⟨payload, hpayload, res, hvalid, rfl, hposts⟩ := completeFn_result hwant h
  obtain ⟨content, x, hcontent, hx, hmeets⟩ := checkContent_valid hvalid
  have hfinished : finished S clientMeta res =
      maybeRecoverToolCalls S.F S.uuid res (clientMeta.get "tools") := by
    rw [finished, mergeReasoningIntoContent, if_pos (structured_of_schema hwant)]
  refine ⟨payload, res, content, x, hpayload, hcontent, hx, hmeets, hfinished, ?_⟩
  rw [← retryPayload_complete hpayload]
  rcases hposts with hone | ⟨res₀, hposts, hfirst, hinvalid, hsecond⟩
  · exact .inl hone
  · exact .inr ⟨res₀, _, hposts, rfl, hfirst, hinvalid, hsecond⟩

/-- A request with a schema, to a model that thinks. -/
def asksSchema : Dict :=
  [("messages", .arr [.str "hi"]), ("thinking_manifest", .obj [("reasoning_budget", .int 512)]),
    ("response_format", .obj [("type", .str "json_schema"), ("json_schema", .obj [])])]

def asksBody : Dict :=
  [("model", .str "qwen"), ("messages", .arr [.str "hi"]), ("stream", .bool false),
    ("response_format", .obj [("type", .str "json_schema"), ("json_schema", .obj [])])]

/-- The answer with a content. -/
def answering (content : String) : Json :=
  .obj [("choices", .arr [.obj [("message", .obj [("content", .str content)])]])]

/-- Takes every text for an answer. -/
def indulgent : Sidecar := ⟨.nans, fun _ => "0", some fun _ _ => .valid, fun _ => "", "600.0"⟩

/-- An answer that is no JSON, and then one that is. -/
def twoAnswers (n : ℕ) (_ : Dict) : Posted :=
  if n = 0 then .json (answering "hm") else .json (answering "<think></think>[]")

theorem completed_at_second_post :
    ∃ payload res content x, complete asksSchema (.str "qwen") = some payload ∧
      firstContent res = some content ∧
      loads indulgent.F (stripThinkingWrapper content) = some x ∧ Check.valid = .valid ∧
      answering "<think></think>[]" =
        maybeRecoverToolCalls indulgent.F indulgent.uuid res (asksSchema.get "tools") ∧
      (([asksBody, retryPayload asksBody] = [payload] ∧ twoAnswers 0 payload = .json res) ∨
        ∃ res₀ retry, [asksBody, retryPayload asksBody] = [payload, retry] ∧
          retry = payload.set "chat_template_kwargs" (.obj [("enable_thinking", .bool false)]) ∧
          twoAnswers 0 payload = .json res₀ ∧
          checkContent indulgent.F (fun _ => .valid) res₀ = .invalid ∧
          twoAnswers 1 retry = .json res) :=
  (@completed_meets_schema indulgent twoAnswers asksSchema (.str "qwen") (fun _ => .valid) rfl).2
    _ _ rfl

/-- The text of a validated answer to a request without tools is what the client gets, and
is JSON there exactly if no `</think>` is in it. -/
theorem completed_readable_iff {S : Sidecar} {post : ℕ → Dict → Posted} {clientMeta : Dict}
    {modelTag r : Json} {meets : Json → Check} {posts : List Dict}
    (hwant : schemaToMeet S clientMeta = .ok (some meets))
    (htools : extractKnownNames (clientMeta.get "tools") = [])
    (h : completeFn S post clientMeta modelTag = (posts, .result r)) :
    ∃ content, firstContent r = some content ∧
      (∃ x, loads S.F (stripThinkingWrapper content) = some x ∧ meets x = .valid) ∧
      ((∃ x, Reads S.F r x) ↔ ¬ thinkClose <:+: content) ∧
      (¬ thinkClose <:+: content → ∃ x, Reads S.F r x ∧ meets x = .valid) := by
  obtain ⟨payload, -, res, hvalid, rfl, -⟩ := completeFn_result hwant h
  obtain ⟨content, x, hcontent, hx, hmeets⟩ := checkContent_valid hvalid
  rw [finished_eq hwant (recoveredCalls_of_no_names htools)]
  have hread : ¬ thinkClose <:+: content → Reads S.F res x := by
    intro hno
    have hnone : rfind thinkClose content = none := by
      cases hrfind : rfind thinkClose content with
      | none => rfl
      | some i =>
        obtain ⟨before, after, heq, -⟩ := rfind_sound hrfind
        exact absurd ⟨before, after, heq.symm⟩ hno
    rw [stripThinkingWrapper, hnone] at hx
    exact ⟨content, hcontent, hx⟩
  refine ⟨content, hcontent, ⟨x, hx, hmeets⟩, ⟨?_, fun hno => ⟨x, hread hno⟩⟩,
    fun hno => ⟨x, hread hno, hmeets⟩⟩
  rintro ⟨y, content', hcontent', hy⟩ htag
  rw [hcontent] at hcontent'
  rw [← Option.some.inj hcontent', wrapped_unreadable htag hx] at hy
  cases hy

theorem wrapped_answer_unreadable :
    ∃ content, firstContent (answering "<think></think>[]") = some content ∧
      (∃ x, loads indulgent.F (stripThinkingWrapper content) = some x ∧ Check.valid = .valid) ∧
      ((∃ x, Reads indulgent.F (answering "<think></think>[]") x) ↔ ¬ thinkClose <:+: content) ∧
      (¬ thinkClose <:+: content →
        ∃ x, Reads indulgent.F (answering "<think></think>[]") x ∧ Check.valid = .valid) :=
  @completed_readable_iff indulgent twoAnswers asksSchema (.str "qwen") _ (fun _ => .valid) _
    rfl rfl rfl

end Turbohaul.Chat
