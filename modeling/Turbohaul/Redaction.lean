/-
# `Redaction` — what the audit log does not tell

`_redact` goes down objects and lists alike and strips each object on its way of the
redacted keys, down to `_REDACT_DEPTH_CAP` steps below the payload.  So the response to a
request is the same whatever stands under those keys.

  `AlikeTo`          values that differ under redacted keys only, so far down
  `RowsAlike`        rows that do
  `redact_alike`     they are redacted to one value
  `follow_redact`    what a place of a redacted value holds
  `redact_redact`
  `audit_redacts`

Three things that the log does tell: a redacted key further down than the cap stays, a
stored text that is no object is answered with its length, and one that meets a limit of
the decoder is not answered at all.
-/
import Turbohaul.AuditLog
import Turbohaul.JsonRoundTrip
import Turbohaul.JsonPath

namespace Turbohaul.Audit

/-! ## One value -/

theorem redactList_eq (depth : ℕ) (xs : List Json) :
    redactList depth xs = xs.map (redact depth) := by
  induction xs with
  | nil => rfl
  | cons x xs ih => rw [redactList, ih, List.map_cons]

theorem redactItems_eq (depth : ℕ) (kvs : List (String × Json)) :
    redactItems depth kvs =
      (kvs.filter (·.1 ∉ redactedKeys)).map fun kv => (kv.1, redact depth kv.2) := by
  induction kvs with
  | nil => rfl
  | cons kv kvs ih =>
    obtain ⟨k, v⟩ := kv
    rw [redactItems]
    by_cases hk : k ∈ redactedKeys
    · rw [if_pos hk, ih, List.filter_cons_of_neg (by simpa using hk)]
    · rw [if_neg hk, ih, List.filter_cons_of_pos (by simpa using hk), List.map_cons]

theorem redact_arr {depth : ℕ} (h : depth ≤ redactDepthCap) (xs : List Json) :
    redact depth (.arr xs) = .arr (xs.map (redact (depth + 1))) := by
  rw [redact, if_neg (Nat.not_lt.mpr h), redactList_eq]

theorem redact_obj {depth : ℕ} (h : depth ≤ redactDepthCap) (kvs : List (String × Json)) :
    redact depth (.obj kvs) = .obj ((kvs.filter (·.1 ∉ redactedKeys)).map
      fun kv => (kv.1, redact (depth + 1) kv.2)) := by
  rw [redact, if_neg (Nat.not_lt.mpr h), redactItems_eq]

/-- Below the cap nothing is done. -/
theorem redact_deep {depth : ℕ} (h : redactDepthCap < depth) (x : Json) : redact depth x = x := by
  cases x with
  | arr xs => rw [redact, if_pos h]
  | obj kvs => rw [redact, if_pos h]
  | null | bool _ | int _ | float _ | str _ => rfl

theorem redact_redact (x : Json) : ∀ depth, redact depth (redact depth x) = redact depth x := by
  induction x using Json.induction with
  | null | bool _ | int _ | float _ | str _ =>
    intro depth
    rfl
  | arr xs ih =>
    intro depth
    by_cases h : depth ≤ redactDepthCap
    · rw [redact_arr h, redact_arr h, List.map_map]
      exact congrArg Json.arr (List.map_congr_left fun x hx => ih x hx (depth + 1))
    · rw [redact_deep (Nat.not_le.mp h), redact_deep (Nat.not_le.mp h)]
  | obj kvs ih =>
    intro depth
    by_cases h : depth ≤ redactDepthCap
    · rw [redact_obj h, redact_obj h, List.filter_map, List.filter_filter, List.map_map]
      simp only [Function.comp_def, Bool.and_self]
      refine congrArg Json.obj (List.map_congr_left fun kv hkv => ?_)
      rw [ih kv (List.mem_of_mem_filter hkv) (depth + 1)]
    · rw [redact_deep (Nat.not_le.mp h), redact_deep (Nat.not_le.mp h)]

/-! ## Its places -/

/-- A step through a redacted key. -/
def hides : Json.Step → Bool
  | .key k => k ∈ redactedKeys
  | .index _ => false

/-- What an object holds under a key, once it is stripped. -/
theorem lookup_stripped (f : Json → Json) (kvs : List (String × Json)) (k : String) :
    ((kvs.filter (·.1 ∉ redactedKeys)).map fun kv => (kv.1, f kv.2)).lookup k =
      if k ∈ redactedKeys then none else (kvs.lookup k).map f := by
  induction kvs with
  | nil => simp
  | cons kv kvs ih =>
    obtain ⟨k', v⟩ := kv
    by_cases hk' : k' ∈ redactedKeys
    · rw [List.filter_cons_of_neg (by simpa using hk'), ih, List.lookup_cons]
      by_cases hk : k ∈ redactedKeys
      · rw [if_pos hk, if_pos hk]
      · have hne : (k == k') = false := beq_eq_false_iff_ne.mpr fun h => hk (h ▸ hk')
        rw [if_neg hk, if_neg hk, hne]
    · rw [List.filter_cons_of_pos (by simpa using hk'), List.map_cons, List.lookup_cons, ih,
        List.lookup_cons]
      by_cases he : k = k'
      · subst he
        simp only [beq_self_eq_true, if_neg hk', Option.map_some]
      · rw [beq_eq_false_iff_ne.mpr he]

theorem child_redact {depth : ℕ} (h : depth ≤ redactDepthCap) (x : Json) (s : Json.Step) :
    (redact depth x).child s =
      if hides s = true then none else (x.child s).map (redact (depth + 1)) := by
  cases x with
  | obj kvs =>
    rw [redact_obj h]
    cases s with
    | key k =>
      simp only [Json.child, hides, decide_eq_true_eq]
      exact lookup_stripped (redact (depth + 1)) kvs k
    | index i => rfl
  | arr xs =>
    rw [redact_arr h]
    cases s with
    | key k =>
      simp only [Json.child]
      split <;> rfl
    | index i => exact List.getElem?_map ..
  | null | bool _ | int _ | float _ | str _ =>
    cases s <;> simp [redact, Json.child]

/-- A place of a redacted value: it is gone if a redacted key leads to it above the
cap, and else it holds what it held, redacted from there on. -/
theorem follow_redact (p : List Json.Step) : ∀ (depth : ℕ) (x : Json),
    (redact depth x).follow p =
      if (p.take (redactDepthCap + 1 - depth)).any hides = true then none
      else (x.follow p).map (redact (depth + p.length)) := by
  induction p with
  | nil =>
    intro depth x
    rw [List.take_nil, List.any_nil, if_neg Bool.false_ne_true]
    rfl
  | cons s p ih =>
    intro depth x
    by_cases h : depth ≤ redactDepthCap
    · have htake : redactDepthCap + 1 - depth = redactDepthCap + 1 - (depth + 1) + 1 := by omega
      rw [htake, List.take_succ_cons, List.any_cons, Json.follow_cons, child_redact h,
        Json.follow_cons]
      by_cases hs : hides s = true
      · rw [if_pos hs, hs, Bool.true_or, if_pos rfl]
        rfl
      · rw [if_neg hs, Bool.eq_false_of_not_eq_true hs, Bool.false_or]
        cases x.child s with
        | none => simp
        | some y =>
          show (redact (depth + 1) y).follow p = _
          rw [ih, List.length_cons, Nat.add_assoc, Nat.add_comm 1]
          rfl
    · have hdeep := Nat.not_le.mp h
      rw [redact_deep hdeep, Nat.sub_eq_zero_of_le hdeep, List.take_zero, List.any_nil,
        if_neg Bool.false_ne_true, funext (redact_deep (Nat.lt_add_right _ hdeep)), Option.map_id']

/-- Down to the cap no object has a redacted key. -/
theorem stripped {x : Json} {p : List Json.Step} (hp : p.length ≤ redactDepthCap)
    {kvs : List (String × Json)} (h : (redact 0 x).follow p = some (.obj kvs)) {k : String}
    (hk : k ∈ redactedKeys) : k ∉ kvs.map (·.1) := by
  intro hmem
  have hgone := follow_redact (p ++ [.key k]) 0 x
  have htake : (p ++ [Json.Step.key k]).take (redactDepthCap + 1 - 0) = p ++ [.key k] :=
    List.take_of_length_le (by rw [List.length_append, List.length_singleton]; omega)
  have hany : (p ++ [Json.Step.key k]).any hides = true :=
    List.any_eq_true.mpr ⟨.key k, List.mem_append_right _ List.mem_cons_self,
    by simpa [hides] using hk⟩
  rw [htake, if_pos hany, Json.follow_append, h] at hgone
  have hsome := Json.lookup_isSome hmem
  simp only [Option.bind_some, Json.follow_cons, Json.child, Json.follow_nil, Option.bind_fun_some]
    at hgone
  rw [hgone] at hsome
  cases hsome

@[simp] theorem shape_redact (depth : ℕ) (x : Json) : (redact depth x).shape = x.shape := by
  by_cases h : depth ≤ redactDepthCap
  · cases x with
    | obj kvs => rw [redact_obj h]; rfl
    | arr xs => rw [redact_arr h, Json.shape, Json.shape, List.length_map]
    | null | bool _ | int _ | float _ | str _ => rfl
  · rw [redact_deep (Nat.not_le.mp h)]

/-- Where no redacted key leads the value is as it was. -/
theorem follow_shape {x : Json} {p : List Json.Step}
    (hp : ∀ k ∈ redactedKeys, Json.Step.key k ∉ p.take (redactDepthCap + 1)) :
    ((redact 0 x).follow p).map Json.shape = (x.follow p).map Json.shape := by
  have hnone : ¬ (p.take (redactDepthCap + 1 - 0)).any hides = true := by
    intro h
    obtain ⟨s, hs, hides⟩ := List.any_eq_true.mp h
    cases s with
    | key k => exact hp k (of_decide_eq_true hides) hs
    | index i => cases hides
  rw [follow_redact, if_neg hnone, Option.map_map]
  exact congrArg (Option.map · _) (funext (shape_redact _))

/-! ## Two values -/

/-- Values that differ in nothing but what stands under redacted keys, of objects fewer
than `n` steps down. -/
def AlikeTo : ℕ → Json → Json → Prop
  | n + 1, .obj kvs, .obj kvs' =>
    List.Forall₂ (fun kv kv' => kv.1 = kv'.1 ∧
      (kv.1 ∈ redactedKeys ∨ AlikeTo n kv.2 kv'.2)) kvs kvs'
  | n + 1, .arr xs, .arr xs' => List.Forall₂ (AlikeTo n) xs xs'
  | _, x, x' => x = x'

theorem AlikeTo.cases {n : ℕ} {x x' : Json} (h : AlikeTo (n + 1) x x') :
    (∃ kvs kvs', x = .obj kvs ∧ x' = .obj kvs' ∧ List.Forall₂ (fun kv kv' =>
      kv.1 = kv'.1 ∧ (kv.1 ∈ redactedKeys ∨ AlikeTo n kv.2 kv'.2)) kvs kvs') ∨
    (∃ xs xs', x = .arr xs ∧ x' = .arr xs' ∧ List.Forall₂ (AlikeTo n) xs xs') ∨ x = x' := by
  cases x with
  | obj kvs =>
    cases x' with
    | obj kvs' => exact .inl ⟨kvs, kvs', rfl, rfl, h⟩
    | _ => exact .inr (.inr h)
  | arr xs =>
    cases x' with
    | arr xs' => exact .inr (.inl ⟨xs, xs', rfl, rfl, h⟩)
    | _ => exact .inr (.inr h)
  | _ => exact .inr (.inr (by simpa only [AlikeTo] using h))

theorem redact_alike (n : ℕ) : ∀ (depth : ℕ) (x x' : Json), n + depth = redactDepthCap + 1 →
    AlikeTo n x x' → redact depth x = redact depth x' := by
  induction n with
  | zero =>
    intro depth x x' _ h
    obtain rfl : x = x' := by simpa only [AlikeTo] using h
    rfl
  | succ n ih =>
    intro depth x x' hn h
    have hcap : depth ≤ redactDepthCap := by omega
    have hstep : ∀ y y', AlikeTo n y y' → redact (depth + 1) y = redact (depth + 1) y' :=
      fun y y' => ih (depth + 1) y y' (by omega)
    rcases h.cases with ⟨kvs, kvs', rfl, rfl, hkvs⟩ | ⟨xs, xs', rfl, rfl, hxs⟩ | rfl
    · clear h
      rw [redact, redact, if_neg (Nat.not_lt.mpr hcap), if_neg (Nat.not_lt.mpr hcap)]
      refine congrArg Json.obj ?_
      induction hkvs with
      | nil => rfl
      | @cons kv kv' _ _ hkv _ ih =>
        obtain ⟨k, v⟩ := kv
        obtain ⟨k', v'⟩ := kv'
        obtain ⟨rfl, hv⟩ : k = k' ∧ _ := hkv
        rw [redactItems, redactItems, ih]
        split
        · rfl
        · rename_i hk
          rw [hstep v v' (hv.resolve_left hk)]
    · clear h
      rw [redact_arr hcap, redact_arr hcap]
      refine congrArg Json.arr ?_
      induction hxs with
      | nil => rfl
      | cons hx _ ih => rw [List.map_cons, List.map_cons, hstep _ _ hx, ih]
    · rfl

/-! ## Two tables -/

/-- A stored text that the decoder reads as an object. -/
def HoldsObject (F : Interpreter) (text : String) (kvs : Dict) : Prop :=
  JsonText.refuses F text.toList = false ∧ JsonText.loads F text.toList = some (.obj kvs)

/-- Rows that differ in nothing but what stands under redacted keys of their payloads, of
objects at most `_REDACT_DEPTH_CAP` steps down. -/
structure RowsAlike (F : Interpreter) (row row' : AuditRow) : Prop where
  eventId : row.eventId = row'.eventId
  slotId : row.slotId = row'.slotId
  eventType : row.eventType = row'.eventType
  occurredAt : row.occurredAt = row'.occurredAt
  payload : row.payloadJson = row'.payloadJson ∨ ∃ text text' kvs kvs',
    row.payloadJson = some text ∧ row'.payloadJson = some text' ∧
      HoldsObject F text kvs ∧ HoldsObject F text' kvs' ∧
      AlikeTo (redactDepthCap + 1) (.obj kvs) (.obj kvs')

/-- The empty text is no JSON. -/
theorem decodePayload_some {F : Interpreter} {text : String} {kvs : List (String × Json)}
    (h : HoldsObject F text kvs) : decodePayload F (some text) = some kvs := by
  obtain ⟨hread, hloads⟩ := h
  unfold decodePayload
  dsimp only
  rw [hread, if_neg Bool.false_ne_true]
  split
  · rename_i hempty
    subst hempty
    cases hloads
  · rw [hloads]

theorem RowsAlike.event {F : Interpreter} {row row' : AuditRow} (h : RowsAlike F row row') :
    rowToEvent F row = rowToEvent F row' := by
  have hpayload : (decodePayload F row.payloadJson).map (redact 0 <| .obj ·) =
      (decodePayload F row'.payloadJson).map (redact 0 <| .obj ·) := by
    rcases h.payload with hp | ⟨text, text', kvs, kvs', hp, hp', hl, hl', halike⟩
    · rw [hp]
    · rw [hp, hp', decodePayload_some hl, decodePayload_some hl']
      exact congrArg some (redact_alike (redactDepthCap + 1) 0 _ _ rfl halike)
  have hevent : ∀ row : AuditRow, rowToEvent F row =
      ((decodePayload F row.payloadJson).map (redact 0 <| .obj ·)).map
        (⟨row.eventId, row.slotId, row.eventType, ·, row.occurredAt⟩) := by
    intro row
    rw [Option.map_map]
    rfl
  rw [hevent, hevent, hpayload, h.eventId, h.slotId, h.eventType, h.occurredAt]

theorem keeps_alike {F : Interpreter} {row row' : AuditRow} (h : RowsAlike F row row')
    (q : AuditQuery) : q.keeps row = q.keeps row' := by
  unfold AuditQuery.keeps
  rw [h.slotId, h.eventType]

theorem select_alike {F : Interpreter} {table table' : List AuditRow}
    (h : List.Forall₂ (RowsAlike F) table table') (q : AuditQuery) (since : ℕ) :
    List.Forall₂ (RowsAlike F) (q.select table since) (q.select table' since) := by
  refine List.forall₂_take _ ?_
  induction h with
  | nil => exact .nil
  | @cons row row' _ _ hrow _ ih =>
    rw [List.filter_cons, List.filter_cons, keeps_alike hrow, hrow.eventId]
    split
    · exact .cons hrow ih
    · exact ih

theorem fill_alike {F : Interpreter} {rows rows' : List AuditRow}
    (h : List.Forall₂ (RowsAlike F) rows rows') : ∀ used, fill F used rows = fill F used rows' := by
  induction h with
  | nil =>
    intro used
    rfl
  | cons hrow _ ih =>
    intro used
    rw [fill, fill, hrow.event]
    simp only [ih]

theorem respond_alike {F : Interpreter} {rows rows' : List AuditRow}
    (h : List.Forall₂ (RowsAlike F) rows rows') (q : AuditQuery)
    (loop : List AuditEvent × Option ℕ) : respond F q rows loop = respond F q rows' loop := by
  have hlen := h.length_eq
  unfold respond
  dsimp only
  rw [hlen]
  cases h with
  | nil => rfl
  | @cons row row' rows rows' hrow _ =>
    cases loop.1 with
    | nil => simp only [hrow.event, hrow.eventId]
    | cons ev evs => rfl

/-- The whole response is the same. -/
theorem getLogging_alike {F : Interpreter} {table table' : List AuditRow}
    (h : List.Forall₂ (RowsAlike F) table table') (q : AuditQuery) (since : ℕ) :
    getLogging F q table since = getLogging F q table' since := by
  have hrows := select_alike h q since
  unfold getLogging
  rw [fill_alike hrows 0, funext (respond_alike hrows q)]

theorem fill_events {F : Interpreter} {rows : List AuditRow} :
    ∀ {used : ℕ} {events : List AuditEvent} {stop : Option ℕ},
      fill F used rows = some (events, stop) →
      ∀ ev ∈ events, ∃ row ∈ rows, rowToEvent F row = some ev := by
  induction rows with
  | nil =>
    intro used events stop h ev hev
    cases h
    cases hev
  | cons row rows ih =>
    intro used events stop h ev hev
    rw [fill] at h
    obtain ⟨first, hfirst, h⟩ := Option.bind_eq_some_iff.mp h
    split at h
    · cases h
      cases hev
    · obtain ⟨⟨events', stop'⟩, hrest, h⟩ := Option.bind_eq_some_iff.mp h
      cases h
      rcases List.mem_cons.mp hev with rfl | hev
      · exact ⟨row, List.mem_cons_self, hfirst⟩
      · obtain ⟨row', hmem, hrow'⟩ := ih hrest ev hev
        exact ⟨row', List.mem_cons_of_mem _ hmem, hrow'⟩

/-- Every event shown is that of a row. -/
theorem events_of_rows {F : Interpreter} {q : AuditQuery} {table : List AuditRow} {since : ℕ}
    {p : AuditPage} (hp : getLogging F q table since = some p) {ev : AuditEvent}
    (h : ev ∈ p.events) : ∃ row ∈ table, rowToEvent F row = some ev := by
  have hsub : ∀ row ∈ q.select table since, row ∈ table := fun row hrow =>
    List.mem_of_mem_filter (List.mem_of_mem_take hrow)
  unfold getLogging at hp
  split at hp
  · cases hp
  · obtain ⟨⟨events, stop⟩, hfill, hp⟩ := Option.bind_eq_some_iff.mp hp
    have hloop := fill_events hfill
    unfold respond at hp
    dsimp only at hp
    split at hp
    · rename_i row rows hselect
      obtain ⟨first, hfirst, rfl⟩ := Option.map_eq_some_iff.mp hp
      cases List.mem_singleton.mp h
      exact ⟨row, hsub row (hselect ▸ List.mem_cons_self), hfirst⟩
    · cases hp
      obtain ⟨row, hrow, hev⟩ := hloop ev h
      exact ⟨row, hsub row hrow, hev⟩

/-- Two tables that differ in nothing but what stands under redacted keys, of objects in
the stored payloads at most ten steps down, get the same responses.  An event that is shown
is that of a row; its payload has no redacted key in an object at most ten steps down;
wherever no redacted key of such an object leads, it holds what the stored one does; and to
redact it once more changes nothing. -/
theorem audit_redacts (F : Interpreter) (q : AuditQuery) (table table' : List AuditRow)
    (h : List.Forall₂ (RowsAlike F) table table') (since : ℕ) :
    getLogging F q table since = getLogging F q table' since ∧
    (∀ p, getLogging F q table since = some p →
      ∀ ev ∈ p.events, ∃ row ∈ table, rowToEvent F row = some ev) ∧
    (∀ row ∈ table, ∀ ev, rowToEvent F row = some ev →
      ∃ payload, decodePayload F row.payloadJson = some payload ∧ ev.eventId = row.eventId ∧
        ev.payload = redact 0 (.obj payload) ∧
        (∀ p kvs, p.length ≤ redactDepthCap → ev.payload.follow p = some (.obj kvs) →
          ∀ k ∈ redactedKeys, k ∉ kvs.map (·.1)) ∧
        ∀ p, (∀ k ∈ redactedKeys, Json.Step.key k ∉ p.take (redactDepthCap + 1)) →
          (ev.payload.follow p).map Json.shape = ((Json.obj payload).follow p).map Json.shape) ∧
    ∀ x, redact 0 (redact 0 x) = redact 0 x := by
  refine ⟨getLogging_alike h q since, fun p hp ev hev => events_of_rows hp hev, ?_,
    fun x => redact_redact x 0⟩
  intro row _ ev hev
  obtain ⟨payload, hpayload, rfl⟩ := Option.map_eq_some_iff.mp hev
  exact ⟨payload, hpayload, rfl, rfl, fun p kvs hp hkvs k hk => stripped hp hkvs hk,
    fun p hp => follow_shape hp⟩

/-- An interpreter that nests 900 deep. -/
def usual : Interpreter := ⟨.nans, 900⟩

/-- A row that stores a text. -/
def storedRow (text : List Char) : AuditRow where
  eventId := 1
  slotId := none
  eventType := "x"
  payloadJson := some (String.ofList text)
  occurredAt := "2026-06-27T05:30:00"

/-- A text as `record_audit_event` writes it. -/
def written (x : Json) : List Char := JsonText.dumps usual x

theorem holds_written {payload : Dict} (h : JsonText.Readable usual (.obj payload))
    (hread : JsonText.refuses usual (written (.obj payload)) = false) :
    HoldsObject usual (String.ofList (written (.obj payload))) payload := by
  unfold HoldsObject
  rw [String.toList_ofList]
  exact ⟨hread, JsonText.loads_dumps h⟩

theorem rowsAlike_stored {F : Interpreter} {text text' : List Char} {kvs kvs' : Dict}
    (h : HoldsObject F (String.ofList text) kvs) (h' : HoldsObject F (String.ofList text') kvs')
    (halike : AlikeTo (redactDepthCap + 1) (.obj kvs) (.obj kvs')) :
    RowsAlike F (storedRow text) (storedRow text') where
  eventId := rfl
  slotId := rfl
  eventType := rfl
  occurredAt := rfl
  payload := .inr ⟨_, _, kvs, kvs', rfl, rfl, h, h', halike⟩

theorem rowToEvent_stored {F : Interpreter} {text : List Char} {payload : Dict}
    (h : decodePayload F (some (String.ofList text)) = some payload) :
    rowToEvent F (storedRow text) =
      some ⟨1, none, "x", redact 0 (.obj payload), "2026-06-27T05:30:00"⟩ := by
  unfold rowToEvent storedRow
  dsimp only
  rw [h]
  rfl

/-- A prompt in a list of a payload. -/
def listedPrompt (prompt : String) : Dict := [("items", .arr [.obj [("prompt", .str prompt)]])]

theorem readable_listedPrompt (prompt : String) :
    JsonText.Readable usual (.obj (listedPrompt prompt)) := by
  simp [listedPrompt, JsonText.Readable, JsonText.ReadableItems, JsonText.ReadableAll]

theorem audit_redacts_prompts :
    getLogging usual ⟨none, none, 200⟩ [storedRow (written (.obj (listedPrompt "a")))] 0 =
      getLogging usual ⟨none, none, 200⟩ [storedRow (written (.obj (listedPrompt "bc")))] 0 := by
  have ha := holds_written (readable_listedPrompt "a") (by decide +kernel)
  have hbc := holds_written (readable_listedPrompt "bc") (by decide +kernel)
  have halike : AlikeTo (redactDepthCap + 1) (.obj (listedPrompt "a")) (.obj (listedPrompt "bc")) :=
    .cons ⟨rfl, .inr (.cons (.cons ⟨rfl, .inl (by decide)⟩ .nil) .nil)⟩ .nil
  exact (audit_redacts usual ⟨none, none, 200⟩ [storedRow _] [storedRow _]
    (.cons (rowsAlike_stored ha hbc halike) .nil) 0).1

/-! ## What is told -/

/-- Objects one in the other, and a prompt in the last, `n` steps down. -/
def deepPrompt : ℕ → Dict
  | 0 => [("prompt", .str "a")]
  | n + 1 => [("inner", .obj (deepPrompt n))]

theorem readable_deepPrompt (n : ℕ) : JsonText.Readable usual (.obj (deepPrompt n)) := by
  induction n with
  | zero => simp [deepPrompt, JsonText.Readable, JsonText.ReadableItems]
  | succ n ih => simpa [deepPrompt, JsonText.Readable, JsonText.ReadableItems] using ih

/-- Eleven steps down a prompt is shown. -/
theorem deepPrompt_shown :
    ∃ ev, rowToEvent usual (storedRow (written (.obj (deepPrompt 11)))) = some ev ∧
      ev.payload.follow (List.replicate 11 (.key "inner")) = some (.obj [("prompt", .str "a")]) :=
  ⟨_, rowToEvent_stored (decodePayload_some (holds_written (readable_deepPrompt 11)
    (by decide +kernel))), rfl⟩

/-- Two stored texts that are read as values alike. -/
def TextsAlike (F : Interpreter) (text text' : List Char) : Prop :=
  ∃ x x', JsonText.loads F text = some x ∧ JsonText.loads F text' = some x' ∧
    AlikeTo (redactDepthCap + 1) x x'

/-- A list of one object with a prompt. -/
def promptList (prompt : String) : Json := .arr [.obj [("prompt", .str prompt)]]

theorem loads_promptList (prompt : String) :
    JsonText.loads usual (written (promptList prompt)) = some (promptList prompt) := by
  refine JsonText.loads_dumps ?_
  simp [promptList, JsonText.Readable, JsonText.ReadableItems, JsonText.ReadableAll]

/-- A list is answered with the length of its text. -/
theorem decodePayload_list {F : Interpreter} {text : List Char} {xs : List Json}
    (hread : JsonText.refuses F text = false) (hloads : JsonText.loads F text = some (.arr xs)) :
    decodePayload F (some (String.ofList text)) =
      some [("_decode_error", .bool true), ("_raw_len", .int text.length)] := by
  have hne : String.ofList text ≠ "" := by
    intro h
    have hnil := congrArg String.toList h
    rw [String.toList_ofList, String.toList_empty] at hnil
    subst hnil
    cases hloads
  unfold decodePayload
  dsimp only
  rw [if_neg hne, String.toList_ofList, hread, if_neg Bool.false_ne_true, hloads]

theorem rowToEvent_promptList {prompt : String} (len : ℕ)
    (hread : JsonText.refuses usual (written (promptList prompt)) = false)
    (hlen : (written (promptList prompt)).length = len) :
    rowToEvent usual (storedRow (written (promptList prompt))) = some ⟨1, none, "x",
      .obj [("_decode_error", .bool true), ("_raw_len", .int len)], "2026-06-27T05:30:00"⟩ := by
  rw [rowToEvent_stored (decodePayload_list hread (loads_promptList prompt)), hlen]
  rfl

/-- What is read of a prompt that is a number too long, were there no limit. -/
theorem loads_longPrompt (F : FloatText) :
    ∃ n, JsonText.loads F longPrompt = some (.obj [("prompt", .int n)]) := by
  have hnumber : ∃ n, JsonText.unsigned F false ('9' :: (nines maxStrDigits ++ ['}'])) =
      some (.int n, ['}']) := by
    unfold JsonText.unsigned
    rw [intPart_nines]
    exact ⟨_, rfl⟩
  obtain ⟨n, hn⟩ := hnumber
  refine ⟨n, ?_⟩
  unfold longPrompt
  generalize nines maxStrDigits ++ ['}'] = t at hn
  have hvalue : ∀ k, JsonText.scanOnce F (k + 1) (JsonText.skipWs ('9' :: t)) =
      some (.int n, ['}']) := fun _ => hn
  have hkey : JsonText.scanString (t.length + 9)
      (['p', 'r', 'o', 'm', 'p', 't', '"', ':', '9'] ++ t) =
      some (['p', 'r', 'o', 'm', 'p', 't'], ':' :: '9' :: t) := rfl
  have hcolon : JsonText.skipWs (':' :: '9' :: t) = ':' :: '9' :: t := rfl
  have hmembers : ∀ j k, JsonText.members (JsonText.scanOnce F (k + 1)) (j + 1) []
      ('"' :: (['p', 'r', 'o', 'm', 'p', 't', '"', ':', '9'] ++ t)) =
      some ([("prompt", .int n)], []) := by
    intro j k
    rw [JsonText.members]
    have hlength : (['p', 'r', 'o', 'm', 'p', 't', '"', ':', '9'] ++ t).length = t.length + 9 :=
      rfl
    rw [hlength, hkey]
    dsimp only
    rw [hcolon]
    simp only [hvalue]
    rfl
  have hscan : ∀ k, JsonText.scanOnce F (k + 2)
      ('{' :: '"' :: (['p', 'r', 'o', 'm', 'p', 't', '"', ':', '9'] ++ t)) =
        some (.obj [("prompt", .int n)], []) := by
    intro k
    show (JsonText.members (JsonText.scanOnce F (k + 1)) (t.length + 9 + 1) []
      ('"' :: (['p', 'r', 'o', 'm', 'p', 't', '"', ':', '9'] ++ t))).map _ = _
    rw [hmembers]
    rfl
  unfold JsonText.loads
  have hskip : JsonText.skipWs
      (['{', '"', 'p', 'r', 'o', 'm', 'p', 't', '"', ':', '9'] ++ t) =
      '{' :: '"' :: (['p', 'r', 'o', 'm', 'p', 't', '"', ':', '9'] ++ t) := rfl
  have hlength : (['{', '"', 'p', 'r', 'o', 'm', 'p', 't', '"', ':', '9'] ++ t).length + 1 =
      t.length + 10 + 2 := rfl
  rw [hskip, hlength, hscan]
  rfl
theorem alike_prompt (n : ℕ) (x x' : Json) :
    AlikeTo (n + 1) (.obj [("prompt", x)]) (.obj [("prompt", x')]) := by
  have hkey : "prompt" ∈ redactedKeys := by decide
  exact .cons ⟨rfl, .inl hkey⟩ .nil

/-- Neither what stands deeper than the cap, nor the length of a text that is no object,
nor whether a prompt is a number too long is hidden. -/
theorem audit_tells :
    (¬ ∀ (row : AuditRow) (ev : AuditEvent) (p : List Json.Step) (kvs : List (String × Json)),
      rowToEvent usual row = some ev → ev.payload.follow p = some (.obj kvs) →
        ∀ k ∈ redactedKeys, k ∉ kvs.map (·.1)) ∧
    (¬ ∀ text text' : List Char, TextsAlike usual text text' →
      JsonText.refuses usual text = false → JsonText.refuses usual text' = false →
        rowToEvent usual (storedRow text) = rowToEvent usual (storedRow text')) ∧
    ¬ ∀ (text text' : List Char) (kvs kvs' : Dict),
      JsonText.loads usual text = some (.obj kvs) → JsonText.loads usual text' = some (.obj kvs') →
        AlikeTo (redactDepthCap + 1) (.obj kvs) (.obj kvs') →
          rowToEvent usual (storedRow text) = rowToEvent usual (storedRow text') := by
  refine ⟨fun h => ?_, fun h => ?_, fun h => ?_⟩
  · obtain ⟨ev, hev, hfollow⟩ := deepPrompt_shown
    exact h _ ev _ _ hev hfollow "prompt" (by decide) (by decide)
  · have halike : TextsAlike usual (written (promptList "a")) (written (promptList "bc")) :=
      ⟨_, _, loads_promptList "a", loads_promptList "bc",
        .cons (alike_prompt _ _ _) .nil⟩
    have ha : JsonText.refuses usual (written (promptList "a")) = false := by decide +kernel
    have hbc : JsonText.refuses usual (written (promptList "bc")) = false := by decide +kernel
    have hsame := h _ _ halike ha hbc
    rw [rowToEvent_promptList 17 ha (by decide +kernel),
      rowToEvent_promptList 18 hbc (by decide +kernel)] at hsame
    injection hsame with hsame
    injection hsame with _ _ _ hpayload
    injection hpayload with hpayload
    injection hpayload with _ hpayload
    injection hpayload with hpayload
    injection hpayload with _ hlen
    injection hlen with hlen
    exact absurd hlen (by decide)
  · obtain ⟨n, hn⟩ := loads_longPrompt usual
    have hshort : JsonText.loads usual (written (.obj (deepPrompt 0))) = some
        (.obj (deepPrompt 0)) :=
      JsonText.loads_dumps (readable_deepPrompt 0)
    have hsame := h _ _ _ _ hshort hn (alike_prompt _ _ _)
    have hnone : rowToEvent usual (storedRow longPrompt) = none := by
      unfold rowToEvent storedRow
      dsimp only
      rw [decodePayload_refused longPrompt_ne
        (by rw [String.toList_ofList]; exact refuses_longPrompt .nans 899)]
      rfl
    rw [hnone, rowToEvent_stored (decodePayload_some (holds_written (readable_deepPrompt 0)
      (by decide +kernel)))] at hsame
    cases hsame

end Turbohaul.Audit
