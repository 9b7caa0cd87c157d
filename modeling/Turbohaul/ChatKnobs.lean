/-
# The knobs of a request on its two paths

The streaming route carries every common knob; `client_meta` of the other
route has nine of them, and `_complete` forwards from it.  So the two bodies
agree on the common knobs exactly if the request has none of the rest.

  `carriedKnobs`      the common knobs `client_meta` has
  `Dict.forwarded`    the value a knob is forwarded with
  `SameKnobs`         the two paths send the same knobs, all that were supplied
-/
import Turbohaul.ChatCompletion

namespace Turbohaul.Chat

/-- What is forwarded of a list of knobs. -/
theorem get_forwardKnobs (source : Dict) (knobs : List String) (body : Dict) (k : String) :
    (forwardKnobs source knobs body).get k =
      if k ∈ knobs ∧ (source.get k).isSome then source.get k else body.get k := by
  induction knobs generalizing body with
  | nil => simp [forwardKnobs]
  | cons k₀ knobs ih =>
    have hf : forwardKnobs source (k₀ :: knobs) body = forwardKnobs source knobs
        (if (source.get k₀).isSome then body.set k₀ (source.get k₀) else body) := rfl
    rw [hf, ih]
    by_cases hk : k ∈ knobs ∧ (source.get k).isSome
    · rw [if_pos hk, if_pos ⟨List.mem_cons_of_mem _ hk.1, hk.2⟩]
    · rw [if_neg hk]
      by_cases he : k = k₀
      · subst he
        by_cases hs : (source.get k).isSome
        · simp [hs]
        · simp [hs]
      · have hn : ¬ (k ∈ k₀ :: knobs ∧ (source.get k).isSome) := by
          simpa [he] using hk
        rw [if_neg hn]
        split
        · exact Dict.get_set_ne he
        · rfl

/-- The common knobs that `client_meta` of `openai_chat_completions` has. -/
def carriedKnobs : List String :=
  [ "temperature", "top_p", "max_tokens", "response_format", "tools", "tool_choice",
    "parallel_tool_calls", "function_call", "functions" ]

/-- A common knob is none of the other keys of the bodies. -/
theorem common_ne {k : String} (hk : k ∈ commonForwardedKnobs) :
    k ∉ ["kind", "messages", "model", "stream", "keep_alive_s", "thinking_manifest",
      "chat_template_kwargs"] := by
  have h : ∀ k ∈ commonForwardedKnobs, k ∉ ["kind", "messages", "model", "stream", "keep_alive_s",
    "thinking_manifest", "chat_template_kwargs"] := by decide
  exact h k hk

/-- No body starts out with a common knob. -/
theorem get_base {k : String} (hk : k ∈ commonForwardedKnobs) (model messages : Json) (b : Bool) :
    Dict.get [("model", model), ("messages", messages), ("stream", .bool b)] k = .null := by
  have hn := common_ne hk
  simp only [List.mem_cons, not_or] at hn
  simp [Dict.get_cons, Ne.symm, hn]

/-- The common knobs of `client_meta`. -/
theorem get_clientMeta {k : String} (hk : k ∈ commonForwardedKnobs) (D : Deps) (payload : Dict)
    (model messages keepAlive : Json) :
    (clientMeta D payload model messages keepAlive).get k =
      if k ∈ carriedKnobs then payload.get k else .null := by
  simp only [commonForwardedKnobs, List.mem_cons, List.not_mem_nil, or_false] at hk
  rcases hk with rfl | rfl | rfl | rfl | rfl | rfl | rfl | rfl | rfl | rfl | rfl | rfl | rfl |
    rfl | rfl | rfl | rfl | rfl | rfl | rfl | rfl | rfl | rfl | rfl <;> rfl

/-- The common knobs of a streaming `client_meta` are the payload's. -/
theorem get_streamClientMeta {k : String} (hk : k ∈ commonForwardedKnobs) (payload : Dict)
    (model messages keepAlive : Json) :
    (streamClientMeta payload model messages keepAlive).get k = payload.get k := by
  have hm : k ∈ streamForwardedKnobs := List.mem_append_left _ hk
  rw [streamClientMeta, get_forwardKnobs]
  split
  · rfl
  · rename_i h
    have h0 : payload.get k = .null := Json.eq_null_of_not_isSome fun hs => h ⟨hm, hs⟩
    have hn := common_ne hk
    simp only [List.mem_cons, not_or] at hn
    simp only [Dict.get_cons]
    split_ifs <;> simp_all

/-- The value of a knob after the pre-validation: `{"type": "text"}` is dropped. -/
def knobOf (payload : Dict) (k : String) : Json :=
  match payload.get k with
  | .obj rf =>
    match Dict.get rf "type" with
    | .str "text" => if k = "response_format" then .null else .obj rf
    | _ => .obj rf
  | v => v

theorem knobOf_of_ne {payload : Dict} {k : String} (h : k ≠ "response_format") :
    knobOf payload k = payload.get k := by
  simp only [knobOf, if_neg h]
  split
  · split <;> simp_all
  · rfl

/-- The payload the pre-validation leaves. -/
theorem get_checkResponseFormat {D : Deps} {p p' : Dict} (h : checkResponseFormat D p = .ok p')
    (k : String) : p'.get k = knobOf p k := by
  by_cases hk : k = "response_format"
  · subst hk
    simp only [checkResponseFormat] at h
    split at h
    · rename_i hr
      cases h
      simp [knobOf, hr]
    · rename_i rf hr
      split at h
      · rename_i ht
        cases h
        simp [knobOf, hr, ht]
      · rename_i ht
        cases h
        simp [knobOf, hr, ht]
      · rename_i ht
        split at h
        · cases h
          simp [knobOf, hr, ht]
        · cases h
      · cases h
    · cases h
  · rw [knobOf_of_ne hk]
    simp only [checkResponseFormat] at h
    split at h
    · cases h; rfl
    · split at h
      · cases h
        exact Dict.get_set_ne hk
      · cases h; rfl
      · split at h
        · cases h; rfl
        · cases h
      · cases h
    · cases h

/-- The pre-validation looks at `response_format` alone. -/
theorem checkResponseFormat_isOk_congr (D : Deps) {p q : Dict}
    (h : p.get "response_format" = q.get "response_format") :
    (checkResponseFormat D p).isOk = (checkResponseFormat D q).isOk := by
  simp only [checkResponseFormat, h]
  split
  · rfl
  · split
    · rfl
    · rfl
    · split <;> rfl
    · rfl
  · rfl

/-- The requests that get through the checks of the route. -/
structure Accepts (D : Deps) (p : Dict) : Prop where
  model : (p.get "model").truthy = true
  messages : ∃ m ms, p.get "messages" = .arr (m :: ms) ∧ (promptOf (m :: ms)).isSome = true
  format : (checkResponseFormat D p).isOk = true
  keepAlive : (D.parseKeepAlive (p.get "keep_alive")).isSome = true

/-- What the checks look at is not the stream flag. -/
theorem accepts_setStream {D : Deps} {p : Dict} {v : Json} :
    Accepts D (p.set "stream" v) ↔ Accepts D p := by
  have hg : ∀ k, k ≠ "stream" → (p.set "stream" v).get k = p.get k := fun _ => Dict.get_set_ne
  have hf := checkResponseFormat_isOk_congr D (hg "response_format" (by decide))
  constructor
  · rintro ⟨h1, h2, h3, h4⟩
    rw [hg _ (by decide)] at h1 h2 h4
    exact ⟨h1, h2, hf ▸ h3, h4⟩
  · rintro ⟨h1, h2, h3, h4⟩
    refine ⟨?_, ?_, hf ▸ h3, ?_⟩
    all_goals rw [hg _ (by decide)]
    · exact h1
    · exact h2
    · exact h4

/-- A knob that is forwarded where it is not null has its value, null or not. -/
theorem forwarded_value {P : Prop} [Decidable P] (hP : P) (v : Json) :
    (if P ∧ v.isSome then v else .null) = v := by
  split
  · rfl
  · rename_i h
    exact (Json.eq_null_of_not_isSome fun hs => h ⟨hP, hs⟩).symm

/-- The common knobs of a streaming body. -/
theorem get_streamBody {k : String} (hk : k ∈ commonForwardedKnobs) (p : Dict)
    (model messages keepAlive : Json) :
    (buildStreamPayload (streamClientMeta p model messages keepAlive) model messages).get k =
      p.get k := by
  have hm : k ∈ streamForwardedKnobs := List.mem_append_left _ hk
  rw [buildStreamPayload, get_forwardKnobs, get_streamClientMeta hk, get_base hk,
    forwarded_value hm]

/-- The common knobs of the body of `_complete`. -/
theorem get_completeBody {k : String} (hk : k ∈ commonForwardedKnobs) (D : Deps) (p : Dict)
    (model messages keepAlive : Json) {body : Dict}
    (hb : complete (clientMeta D p model messages keepAlive) model = some body) :
    body.get k = if k ∈ carriedKnobs then p.get k else .null := by
  simp only [complete] at hb
  split at hb
  · cases hb
    rw [get_forwardKnobs, get_clientMeta hk, get_base hk, forwarded_value hk]
  · cases hb

/-- The second body has the knobs of the first. -/
theorem get_retryPayload {k : String} (hk : k ∈ commonForwardedKnobs) (body : Dict) :
    (retryPayload body).get k = body.get k := by
  have hn := common_ne hk
  simp only [List.mem_cons, not_or] at hn
  exact Dict.get_set_ne hn.2.2.2.2.2.2.1

/-- The bodies of a request that the route accepts: there are some, and each has
the common knobs of the payload, or those that `client_meta` has. -/
theorem openaiChatCompletions_of_accepts {D : Deps} (r : Bool) {p : Dict} (h : Accepts D p) :
    ∃ bs, openaiChatCompletions D r p = .ok bs ∧ bs ≠ [] ∧ ∀ b ∈ bs, ∀ k ∈ commonForwardedKnobs,
      b.get k = if (p.get "stream").truthy ∨ k ∈ carriedKnobs then knobOf p k else .null := by
  obtain ⟨hmodel, ⟨m, ms, hms, hp⟩, hf, hka⟩ := h
  obtain ⟨prompt, hp⟩ := Option.isSome_iff_exists.mp hp
  obtain ⟨p', hf⟩ : ∃ p', checkResponseFormat D p = .ok p' := by
    cases he : checkResponseFormat D p with
    | error e => simp [he, Except.isOk, Except.toBool] at hf
    | ok p' => exact ⟨p', rfl⟩
  have hg := get_checkResponseFormat hf
  have hs : p'.get "stream" = p.get "stream" := by rw [hg, knobOf_of_ne (by decide)]
  have hk : p'.get "keep_alive" = p.get "keep_alive" := by rw [hg, knobOf_of_ne (by decide)]
  obtain ⟨keepAlive, hka⟩ := Option.isSome_iff_exists.mp hka
  cases hst : (p.get "stream").truthy with
  | true =>
    refine ⟨[_], by simp [openaiChatCompletions, hmodel, hms, hp, hf, hk, hka, hs, hst]; rfl,
      by simp, ?_⟩
    intro b hb k hk
    rw [List.mem_singleton] at hb
    subst hb
    rw [get_streamBody hk, hg, if_pos (.inl rfl)]
  | false =>
    obtain ⟨body, hb⟩ :
      ∃ body, complete (clientMeta D p' (p.get "model") (.arr (m :: ms)) keepAlive)
        (p.get "model") = some body := ⟨_, rfl⟩
    refine ⟨body :: if r then [retryPayload body] else [], by
      simp [openaiChatCompletions, hmodel, hms, hp, hf, hk, hka, hs, hst, hb], by simp, ?_⟩
    intro b hm k hk
    have hbody : b.get k = body.get k := by
      rcases List.mem_cons.mp hm with rfl | hm
      · rfl
      · split at hm
        · rw [List.mem_singleton.mp hm, get_retryPayload hk]
        · cases hm
    rw [hbody, get_completeBody hk D p' _ _ _ hb, hg]
    simp

/-- The routes post nothing for another request. -/
theorem accepts_of_openaiChatCompletions {D : Deps} {r : Bool} {p : Dict} {bs : List Dict}
    (h : openaiChatCompletions D r p = .ok bs) : Accepts D p := by
  simp only [openaiChatCompletions] at h
  split at h
  · cases h
  · rename_i hmodel
    split at h
    · rename_i m ms hms
      split at h
      · cases h
      · rename_i prompt hp
        split at h
        · cases h
        · rename_i p' hf
          split at h
          · cases h
          · rename_i keepAlive hka
            have hk : p'.get "keep_alive" = p.get "keep_alive" := by
              rw [get_checkResponseFormat hf, knobOf_of_ne (by decide)]
            exact { model := by simpa using hmodel
                    messages := ⟨m, ms, hms, by simp [hp]⟩
                    format := by simp [hf, Except.isOk, Except.toBool]
                    keepAlive := by simp [← hk, hka] }
    · cases h

/-- With the stream flag off and on, a request has the same common knobs in the
bodies it sends, and they are all it supplied. -/
def SameKnobs (D : Deps) (p : Dict) : Prop :=
  ∀ r bs₀ bs₁, openaiChatCompletions D r (p.set "stream" (.bool false)) = .ok bs₀ →
    openaiChatCompletions D r (p.set "stream" (.bool true)) = .ok bs₁ →
    (∀ b₀ ∈ bs₀, ∀ b₁ ∈ bs₁, ∀ k ∈ commonForwardedKnobs, b₀.get k = b₁.get k) ∧
    ∀ b ∈ bs₀ ++ bs₁, ∀ k ∈ commonForwardedKnobs, b.get k = knobOf p k

/-- The two paths send the same knobs exactly for the requests that are refused
and those with no common knob that `client_meta` lacks. -/
theorem sameKnobs_iff (D : Deps) (p : Dict) :
    SameKnobs D p ↔
      (Accepts D p → ∀ k ∈ commonForwardedKnobs, k ∉ carriedKnobs → p.get k = .null) := by
  have hget : ∀ v, ∀ k ∈ commonForwardedKnobs, knobOf (p.set "stream" v) k = knobOf p k := by
    intro v k hk
    have hn := common_ne hk
    simp only [List.mem_cons, not_or] at hn
    simp only [knobOf, Dict.get_set_ne hn.2.2.2.1]
  constructor
  · intro h ha k hk hc
    obtain ⟨bs₀, h₀, hne, hall⟩ := openaiChatCompletions_of_accepts false
      (accepts_setStream (v := .bool false) |>.mpr ha)
    obtain ⟨bs₁, h₁, -⟩ := openaiChatCompletions_of_accepts false
      (accepts_setStream (v := .bool true) |>.mpr ha)
    obtain ⟨b, hb⟩ := List.exists_mem_of_ne_nil _ hne
    have he := (h false bs₀ bs₁ h₀ h₁).2 b (List.mem_append_left _ hb) k hk
    rw [hall b hb k hk, Dict.get_set_self, if_neg (by simp [hc, Json.truthy])] at he
    have hr : k ≠ "response_format" := by
      rintro rfl
      exact hc (by decide)
    rw [← knobOf_of_ne hr, ← he]
  · intro h r bs₀ bs₁ h₀ h₁
    have ha₀ := accepts_of_openaiChatCompletions h₀
    have hnull := h (accepts_setStream.mp ha₀)
    obtain ⟨_, e₀, -, hall₀⟩ := openaiChatCompletions_of_accepts r ha₀
    obtain ⟨_, e₁, -, hall₁⟩ := openaiChatCompletions_of_accepts r
      (accepts_of_openaiChatCompletions h₁)
    cases h₀.symm.trans e₀
    cases h₁.symm.trans e₁
    have hv : ∀ b ∈ bs₀ ++ bs₁, ∀ k ∈ commonForwardedKnobs, b.get k = knobOf p k := by
      intro b hb k hk
      rcases List.mem_append.mp hb with hb | hb
      · rw [hall₀ b hb k hk, hget _ k hk]
        split
        · rfl
        · rename_i hc
          have hc : k ∉ carriedKnobs := fun hm => hc (.inr hm)
          have hr : k ≠ "response_format" := by
            rintro rfl
            exact hc (by decide)
          rw [knobOf_of_ne hr, hnull k hk hc]
      · rw [hall₁ b hb k hk, hget _ k hk, if_pos (.inl (by rw [Dict.get_set_self]; rfl))]
    refine ⟨fun b₀ hb₀ b₁ hb₁ k hk => ?_, hv⟩
    rw [hv b₀ (List.mem_append_left _ hb₀) k hk, hv b₁ (List.mem_append_right _ hb₁) k hk]

/-- What the routes call, for a request without a `response_format` or a `keep_alive`. -/
def plainDeps : Deps where
  repr _ := "None"
  validateJsonSchema _ := none
  parseKeepAlive _ := some .null
  reasoningBudget _ := none

/-- A seed goes to the sidecar when the answer is streamed, and not otherwise. -/
theorem seed_not_forwarded :
    ¬ SameKnobs plainDeps [("model", .str "qwen3-8b"),
      ("messages", .arr [.obj [("role", .str "user"), ("content", .str "hi")]]),
      ("seed", .int 42)] := by
  intro h
  have he := (h false _ _ rfl rfl).1 _ (.head _) _ (.head _) "seed" (by decide)
  cases he

end Turbohaul.Chat
