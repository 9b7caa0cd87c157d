/-
# `TelemetryHooks` — the hooks of `FlapTelemetry`

The hooks keep, for each slot, when it came, when it was queued, when its prefill began
and how many keep-alives its client was sent, until an event ends the slot; the events
that are written quote these tables.  A hook that is passed a slot is passed what it
reads of it.  Times are seconds, exact.

  `on_request_arrival` … `on_slot_state_change`  `Hook`, `Observer.step`
  `_cleanup_slot`                                `SlotTables.cleanup`
  `get_status`                                   `Observer.getStatus`
  `Telling`                                      the tables, as the log has them
  `log_explains_itself`                          every event says what the log before it has

A slot is ended by `completion` and `client_disconnect` alone.  One whose sidecar does not
come up is in the tables for good, and so is one that is sent a keep-alive after its end.
-/
import Mathlib.Data.List.AList
import Mathlib.Data.List.DropRight
import Turbohaul.LiveSlots
import Turbohaul.Telemetry

namespace Turbohaul.Telemetry

open LiveMonitor (roundTo)

/-- What the hooks read of a slot. -/
structure SlotView where
  slotId : String
  threadId : String
  modelTag : String
  context : Json
  state : String
  pid : Json
  port : Json

/-- The tables of `FlapTelemetry`, by slot. -/
structure SlotTables where
  arrival : AList fun _ : String => ℚ
  queueEnter : AList fun _ : String => ℚ
  prefillStart : AList fun _ : String => ℚ
  firstTokenAt : AList fun _ : String => ℚ
  keepAlives : AList fun _ : String => ℕ

/-- `FlapTelemetry`: what is emitted, the tables, and `_last_vram_sample_iso`. -/
structure Observer where
  flap : FlapTelemetry
  slots : SlotTables
  lastVramSampleIso : Option String

/-- `FlapTelemetry()`. -/
def Observer.new : Observer := ⟨⟨⟨[], 0⟩, []⟩, ⟨∅, ∅, ∅, ∅, ∅⟩, none⟩

/-- The calls of the hooks. -/
inductive Hook
  | requestArrival (slot : SlotView)
  | queueState (queueDepth : Dict) (slot : SlotView)
  | slotAssign (slot : SlotView)
  | prefillStart (slot : SlotView)
  | firstToken (slot : SlotView) (ttftMs : ℚ)
  | generationTick (slot : SlotView) (nDecoded : ℤ) (tokS : ℚ)
  | keepAliveEmitted (slotId : String) (isQueued : Bool) (threadId : String)
  | clientDisconnect (slot : SlotView) (reason : String) (elapsedS : ℚ)
  | completion (slot : SlotView) (reason : String)
  | vramSample (vramFreeMib : Json) (processRssMib : Option ℚ) (iso : String)
  | slotStateChange (slot : SlotView) (oldState newState : String)

/-- `d.get(k, 0)`. -/
def getOrZero (d : Dict) (k : String) : Json := if d.has k then d.get k else .int 0

/-- `round(x, digits)`, as it is written. -/
def rounded (digits : ℕ) (x : ℚ) : Json := .float (.finite (roundTo digits x))

/-- `round(now - start, 2)`, or `None` of no `start`. -/
def since (now : ℚ) : Option ℚ → Json
  | some start => rounded 2 (now - start)
  | none => .null

/-- `round(x, 1) if x else None`. -/
def roundedOrNull : Option ℚ → Json
  | some x => if x = 0 then .null else rounded 1 x
  | none => .null

/-- `_slot_keep_alives.get(slot_id, 0)`. -/
def SlotTables.keepAlivesOf (s : SlotTables) (slotId : String) : ℕ :=
  (s.keepAlives.lookup slotId).getD 0

/-- `_cleanup_slot`. -/
def SlotTables.cleanup (s : SlotTables) (slotId : String) : SlotTables :=
  { arrival := s.arrival.erase slotId
    queueEnter := s.queueEnter.erase slotId
    prefillStart := s.prefillStart.erase slotId
    firstTokenAt := s.firstTokenAt.erase slotId
    keepAlives := s.keepAlives.erase slotId }

namespace Observer

/-- `_emit`. -/
def emit (eventType : String) (payload : Dict) (t : Observer) : Observer :=
  { t with flap := Telemetry.emit t.flap (eventType, payload) }

/-- The hooks, called at `now`. -/
def step (t : Observer) : ℚ × Hook → Observer
  | (now, .requestArrival slot) =>
    { t with slots.arrival := t.slots.arrival.insert slot.slotId now }.emit "request_arrival"
      [("slot_id", .str slot.slotId), ("model_tag", .str slot.modelTag),
        ("thread_id", .str slot.threadId), ("has_context", .bool slot.context.truthy)]
  | (now, .queueState queueDepth slot) =>
    { t with slots.queueEnter := t.slots.queueEnter.insert slot.slotId now }.emit "queue_enter"
      [("slot_id", .str slot.slotId), ("thread_id", .str slot.threadId),
        ("staging_depth", getOrZero queueDepth "staging_queue_depth"),
        ("staging_max", getOrZero queueDepth "staging_queue_max"),
        ("acceptance_depth", getOrZero queueDepth "acceptance_buffer_depth"),
        ("slot_state", .str slot.state)]
  | (now, .slotAssign slot) =>
    t.emit "slot_assign"
      [("slot_id", .str slot.slotId), ("thread_id", .str slot.threadId),
        ("model_tag", .str slot.modelTag),
        ("wait_in_queue_s", since now (t.slots.queueEnter.lookup slot.slotId)),
        ("pid", slot.pid), ("port", slot.port)]
  | (now, .prefillStart slot) =>
    { t with slots.prefillStart := t.slots.prefillStart.insert slot.slotId now }.emit
      "prefill_start"
      [("slot_id", .str slot.slotId), ("thread_id", .str slot.threadId),
        ("model_tag", .str slot.modelTag)]
  | (now, .firstToken slot ttftMs) =>
    { t with slots.firstTokenAt := t.slots.firstTokenAt.insert slot.slotId now }.emit "first_token"
      [("slot_id", .str slot.slotId), ("thread_id", .str slot.threadId),
        ("model_tag", .str slot.modelTag), ("ttft_ms", rounded 1 ttftMs)]
  | (now, .generationTick slot nDecoded tokS) =>
    let last := (t.slots.firstTokenAt.lookup slot.slotId).getD 0
    if 0 < last ∧ now - last < 1 then t
    else t.emit "generation_tick"
      [("slot_id", .str slot.slotId), ("thread_id", .str slot.threadId),
        ("n_decoded", .int nDecoded), ("tok_s", rounded 1 tokS)]
  | (_, .keepAliveEmitted slotId isQueued threadId) =>
    let n := t.slots.keepAlivesOf slotId + 1
    { t with slots.keepAlives := t.slots.keepAlives.insert slotId n }.emit "keep_alive"
      [("slot_id", .str slotId), ("thread_id", .str threadId), ("is_queued", .bool isQueued),
        ("count_for_slot", .int n)]
  | (_, .clientDisconnect slot reason elapsedS) =>
    -- the payload quotes the tables as they were
    { t with slots := t.slots.cleanup slot.slotId }.emit "client_disconnect"
      [("slot_id", .str slot.slotId), ("thread_id", .str slot.threadId),
        ("model_tag", .str slot.modelTag), ("reason", .str reason),
        ("elapsed_s", rounded 2 elapsedS),
        ("was_in_queue", .bool (decide (slot.slotId ∈ t.slots.queueEnter ∧
          slot.slotId ∉ t.slots.prefillStart))),
        ("keep_alives_sent", .int (t.slots.keepAlivesOf slot.slotId))]
  | (now, .completion slot reason) =>
    { t with slots := t.slots.cleanup slot.slotId }.emit "completion"
      [("slot_id", .str slot.slotId), ("thread_id", .str slot.threadId),
        ("model_tag", .str slot.modelTag), ("reason", .str reason),
        ("total_lifecycle_s", since now (t.slots.arrival.lookup slot.slotId)),
        ("keep_alives_sent", .int (t.slots.keepAlivesOf slot.slotId))]
  | (_, .vramSample vramFreeMib processRssMib iso) =>
    { t with lastVramSampleIso := some iso }.emit "resource_sample"
      [("vram_free_mib", vramFreeMib), ("process_rss_mib", roundedOrNull processRssMib),
        ("vram_sample_errors", .int 0)]
  | (_, .slotStateChange slot oldState newState) =>
    t.emit "slot_state_change"
      [("slot_id", .str slot.slotId), ("thread_id", .str slot.threadId),
        ("model_tag", .str slot.modelTag), ("old_state", .str oldState),
        ("new_state", .str newState)]

/-- The telemetry, after the calls. -/
def run (calls : List (ℚ × Hook)) : Observer := calls.foldl step new

/-- `get_status`: what of it is counted. -/
def getStatus (t : Observer) : Dict :=
  [("last_vram_sample_at", t.lastVramSampleIso.elim .null .str), ("vram_sample_errors", .int 0),
    ("active_slots_tracked", .int t.slots.arrival.keys.length),
    ("ring_buffer_size", .int t.flap.ring.buf.length)]

end Observer

/-! ## The log -/

/-- The slot that an event is of. -/
def TelemetryEvent.slotId? (e : TelemetryEvent) : Option String :=
  match e.payload.get "slot_id" with
  | .str slotId => some slotId
  | _ => none

/-- What is emitted of a slot names it first. -/
theorem slotId?_cons {eventType slotId : String} {payload : Dict} {n : ℕ} (hn : 0 < n) :
    (⟨n, eventType, ("slot_id", .str slotId) :: payload, hn⟩ : TelemetryEvent).slotId? =
      some slotId := by
  rw [TelemetryEvent.slotId?, Dict.get_cons, if_pos rfl]

/-- Whether an event is one of the slot's, of that type. -/
def TelemetryEvent.is (eventType slotId : String) (e : TelemetryEvent) : Bool :=
  e.eventType = eventType && e.slotId? = some slotId

/-- Whether an event ends a slot. -/
def TelemetryEvent.ends (slotId : String) (e : TelemetryEvent) : Bool :=
  e.is "completion" slotId || e.is "client_disconnect" slotId

/-- How many events of that type the log has of a slot since it last ended. -/
def count (eventType slotId : String) (log : List TelemetryEvent) : ℕ :=
  (log.rtakeWhile fun e => !e.ends slotId).countP (TelemetryEvent.is eventType slotId)

/-- What an event says of its slot is what the log before it has of the slot. -/
structure Explained (before : List TelemetryEvent) (slotId : String) (e : TelemetryEvent) :
    Prop where
  keepAlive : e.eventType = "keep_alive" →
    e.payload.get "count_for_slot" = .int (count "keep_alive" slotId before + 1)
  ended : e.ends slotId = true →
    e.payload.get "keep_alives_sent" = .int (count "keep_alive" slotId before)
  disconnect : e.eventType = "client_disconnect" →
    e.payload.get "was_in_queue" =
      .bool (decide (0 < count "queue_enter" slotId before ∧
        count "prefill_start" slotId before = 0))
  completion : e.eventType = "completion" →
    ((e.payload.get "total_lifecycle_s").isSome ↔ 0 < count "request_arrival" slotId before)
  assign : e.eventType = "slot_assign" →
    ((e.payload.get "wait_in_queue_s").isSome ↔ 0 < count "queue_enter" slotId before)

/-- The tables have of each slot what the log has since it last ended. -/
structure Telling (s : SlotTables) (log : List TelemetryEvent) : Prop where
  arrival (slotId : String) : slotId ∈ s.arrival ↔ 0 < count "request_arrival" slotId log
  queueEnter (slotId : String) : slotId ∈ s.queueEnter ↔ 0 < count "queue_enter" slotId log
  prefillStart (slotId : String) : slotId ∈ s.prefillStart ↔ 0 < count "prefill_start" slotId log
  keepAlives (slotId : String) : s.keepAlivesOf slotId = count "keep_alive" slotId log

theorem count_nil (eventType slotId : String) : count eventType slotId [] = 0 := by
  rw [count, List.rtakeWhile_nil, List.countP_nil]

theorem count_concat (eventType slotId : String) (log : List TelemetryEvent) (e : TelemetryEvent) :
    count eventType slotId (log ++ [e]) =
      if e.ends slotId then 0
      else count eventType slotId log + if e.is eventType slotId then 1 else 0 := by
  rw [count, List.rtakeWhile_concat]
  cases h : e.ends slotId with
  | true => rfl
  | false =>
    rw [Bool.not_false, if_pos rfl, List.countP_append, List.countP_singleton,
      if_neg Bool.false_ne_true]
    rfl

section Emitted

variable {s : SlotTables} {log : List TelemetryEvent} {e : TelemetryEvent} {slotId : String}

/-- The types that end a slot. -/
def endTypes : List String := ["completion", "client_disconnect"]

theorem ends_iff : e.ends slotId = true ↔ e.eventType ∈ endTypes ∧ e.slotId? = some slotId := by
  simp only [TelemetryEvent.ends, TelemetryEvent.is, endTypes, Bool.or_eq_true, Bool.and_eq_true,
    decide_eq_true_eq, List.mem_cons, List.not_mem_nil, or_false, or_and_right]

theorem slotId?_ne {slotId' : String} (hslot : e.slotId? = some slotId) (h : slotId' ≠ slotId) :
    e.slotId? ≠ some slotId' := by
  rw [hslot]
  intro hsame
  exact h (Option.some.inj hsame).symm

theorem not_ends (h : e.eventType ∉ endTypes ∨ e.slotId? ≠ some slotId) :
    e.ends slotId = false := by
  refine Bool.eq_false_iff.mpr fun hends => ?_
  obtain ⟨htype, hslot⟩ := ends_iff.mp hends
  rcases h with h | h
  · exact h htype
  · exact h hslot

/-- An event of another slot, or of another type, does not count. -/
theorem count_other {eventType : String} (hends : e.ends slotId = false)
    (h : e.eventType ≠ eventType ∨ e.slotId? ≠ some slotId) :
    count eventType slotId (log ++ [e]) = count eventType slotId log := by
  have his : e.is eventType slotId = false := by
    rcases h with h | h
    · rw [TelemetryEvent.is, decide_eq_false h, Bool.false_and]
    · rw [TelemetryEvent.is, decide_eq_false h, Bool.and_false]
  rw [count_concat, hends, his]
  rfl

theorem count_self (hends : e.eventType ∉ endTypes) (hslot : e.slotId? = some slotId) :
    count e.eventType slotId (log ++ [e]) = count e.eventType slotId log + 1 := by
  have his : e.is e.eventType slotId = true := by
    rw [TelemetryEvent.is, decide_eq_true rfl, decide_eq_true hslot, Bool.true_and]
  rw [count_concat, not_ends (.inl hends), his]
  rfl

theorem count_ended {eventType : String} (hends : e.eventType ∈ endTypes)
    (hslot : e.slotId? = some slotId) : count eventType slotId (log ++ [e]) = 0 := by
  rw [count_concat, ends_iff.mpr ⟨hends, hslot⟩]
  rfl

/-- A table that has the slot of the event added. -/
theorem count_added {eventType slotId' : String} {P : String → Prop}
    (hends : e.eventType ∉ endTypes) (htype : e.eventType = eventType)
    (hslot : e.slotId? = some slotId)
    (h : P slotId' ↔ 0 < count eventType slotId' log) :
    slotId' = slotId ∨ P slotId' ↔ 0 < count eventType slotId' (log ++ [e]) := by
  subst htype
  by_cases hid : slotId' = slotId
  · subst hid
    rw [count_self hends hslot]
    exact ⟨fun _ => Nat.succ_pos _, fun _ => .inl rfl⟩
  · have hne := slotId?_ne hslot hid
    rw [count_other (not_ends (.inl hends)) (.inr hne), ← h]
    exact ⟨fun h => h.resolve_left hid, .inr⟩

/-- A table that has the slot of the event taken out. -/
theorem count_erased {eventType slotId' : String} {P : String → Prop}
    (hends : e.eventType ∈ endTypes) (hslot : e.slotId? = some slotId)
    (h : P slotId' ↔ 0 < count eventType slotId' log) :
    slotId' ≠ slotId ∧ P slotId' ↔ 0 < count eventType slotId' (log ++ [e]) := by
  by_cases hid : slotId' = slotId
  · subst hid
    rw [count_ended hends hslot]
    exact ⟨fun h => absurd rfl h.1, fun h => absurd h (Nat.lt_irrefl 0)⟩
  · have hne := slotId?_ne hslot hid
    rw [count_other (not_ends (.inr hne)) (.inr hne), ← h]
    exact ⟨fun h => h.2, fun h => ⟨hid, h⟩⟩

theorem Telling.nil : Telling ⟨∅, ∅, ∅, ∅, ∅⟩ [] := by
  have hempty : ∀ eventType slotId,
      slotId ∈ (∅ : AList fun _ : String => ℚ) ↔ 0 < count eventType slotId [] := by
    intro eventType slotId
    rw [count_nil]
    exact ⟨fun h => absurd h (AList.notMem_empty slotId), fun h => absurd h (Nat.lt_irrefl 0)⟩
  refine ⟨hempty _, hempty _, hempty _, fun slotId => ?_⟩
  rw [count_nil]
  rfl

/-- The types that the tables count. -/
def countedTypes : List String := ["request_arrival", "queue_enter", "prefill_start", "keep_alive"]

/-- An event that no table is kept of. -/
theorem Telling.plain (H : Telling s log) (hends : e.eventType ∉ endTypes)
    (h : e.eventType ∉ countedTypes) : Telling s (log ++ [e]) := by
  have hsame : ∀ eventType ∈ countedTypes, ∀ slotId,
      count eventType slotId (log ++ [e]) = count eventType slotId log := by
    intro eventType hmem slotId
    refine count_other (not_ends (.inl hends)) (.inl ?_)
    exact fun htype => h (htype ▸ hmem)
  refine ⟨fun slotId => ?_, fun slotId => ?_, fun slotId => ?_, fun slotId => ?_⟩
  · rw [hsame _ (by decide)]
    exact H.arrival slotId
  · rw [hsame _ (by decide)]
    exact H.queueEnter slotId
  · rw [hsame _ (by decide)]
    exact H.prefillStart slotId
  · rw [hsame _ (by decide)]
    exact H.keepAlives slotId

/-- A table of the slots that have had an event of some type. -/
theorem mem_insert_iff {eventType : String} {t : AList fun _ : String => ℚ} {now : ℚ}
    (hends : e.eventType ∉ endTypes) (htype : e.eventType = eventType)
    (hslot : e.slotId? = some slotId)
    (h : ∀ slotId', slotId' ∈ t ↔ 0 < count eventType slotId' log) (slotId' : String) :
    slotId' ∈ t.insert slotId now ↔ 0 < count eventType slotId' (log ++ [e]) := by
  rw [AList.mem_insert]
  exact count_added hends htype hslot (h slotId')

theorem mem_erase_iff {eventType : String} {t : AList fun _ : String => ℚ}
    (hends : e.eventType ∈ endTypes) (hslot : e.slotId? = some slotId)
    (h : ∀ slotId', slotId' ∈ t ↔ 0 < count eventType slotId' log) (slotId' : String) :
    slotId' ∈ t.erase slotId ↔ 0 < count eventType slotId' (log ++ [e]) := by
  rw [AList.mem_erase]
  exact count_erased hends hslot (h slotId')

/-- An event of one type leaves the counts of the others. -/
theorem count_of_type {eventType eventType' : String} (hends : e.eventType ∉ endTypes)
    (htype : e.eventType = eventType) (hne : eventType ≠ eventType') (slotId' : String) :
    count eventType' slotId' (log ++ [e]) = count eventType' slotId' log :=
  count_other (not_ends (.inl hends)) (.inl (htype ▸ hne))

theorem Telling.arrived (H : Telling s log) (now : ℚ) (htype : e.eventType = "request_arrival")
    (hslot : e.slotId? = some slotId) :
    Telling { s with arrival := s.arrival.insert slotId now } (log ++ [e]) := by
  have hends : e.eventType ∉ endTypes := by
    rw [htype]
    decide
  refine ⟨mem_insert_iff hends htype hslot H.arrival, fun i => ?_, fun i => ?_, fun i => ?_⟩
  · rw [count_of_type hends htype (by decide)]
    exact H.queueEnter i
  · rw [count_of_type hends htype (by decide)]
    exact H.prefillStart i
  · rw [count_of_type hends htype (by decide)]
    exact H.keepAlives i

theorem Telling.queued (H : Telling s log) (now : ℚ) (htype : e.eventType = "queue_enter")
    (hslot : e.slotId? = some slotId) :
    Telling { s with queueEnter := s.queueEnter.insert slotId now } (log ++ [e]) := by
  have hends : e.eventType ∉ endTypes := by
    rw [htype]
    decide
  refine ⟨fun i => ?_, mem_insert_iff hends htype hslot H.queueEnter, fun i => ?_, fun i => ?_⟩
  · rw [count_of_type hends htype (by decide)]
    exact H.arrival i
  · rw [count_of_type hends htype (by decide)]
    exact H.prefillStart i
  · rw [count_of_type hends htype (by decide)]
    exact H.keepAlives i

theorem Telling.prefilling (H : Telling s log) (now : ℚ) (htype : e.eventType = "prefill_start")
    (hslot : e.slotId? = some slotId) :
    Telling { s with prefillStart := s.prefillStart.insert slotId now } (log ++ [e]) := by
  have hends : e.eventType ∉ endTypes := by
    rw [htype]
    decide
  refine ⟨fun i => ?_, fun i => ?_, mem_insert_iff hends htype hslot H.prefillStart, fun i => ?_⟩
  · rw [count_of_type hends htype (by decide)]
    exact H.arrival i
  · rw [count_of_type hends htype (by decide)]
    exact H.queueEnter i
  · rw [count_of_type hends htype (by decide)]
    exact H.keepAlives i

theorem Telling.keptAlive (H : Telling s log) (htype : e.eventType = "keep_alive")
    (hslot : e.slotId? = some slotId) :
    Telling { s with keepAlives := s.keepAlives.insert slotId (s.keepAlivesOf slotId + 1) }
      (log ++ [e]) := by
  have hends : e.eventType ∉ endTypes := by
    rw [htype]
    decide
  refine ⟨fun i => ?_, fun i => ?_, fun i => ?_, fun i => ?_⟩
  · rw [count_of_type hends htype (by decide)]
    exact H.arrival i
  · rw [count_of_type hends htype (by decide)]
    exact H.queueEnter i
  · rw [count_of_type hends htype (by decide)]
    exact H.prefillStart i
  · rw [SlotTables.keepAlivesOf]
    by_cases hid : i = slotId
    · subst hid
      rw [AList.lookup_insert, ← htype, count_self hends hslot, htype, ← H.keepAlives]
      rfl
    · have hne := slotId?_ne hslot hid
      rw [AList.lookup_insert_ne hid,
        count_other (not_ends (.inl hends)) (.inr hne)]
      exact H.keepAlives i

theorem Telling.ended (H : Telling s log) (hends : e.eventType ∈ endTypes)
    (hslot : e.slotId? = some slotId) : Telling (s.cleanup slotId) (log ++ [e]) := by
  refine ⟨mem_erase_iff hends hslot H.arrival, mem_erase_iff hends hslot H.queueEnter,
    mem_erase_iff hends hslot H.prefillStart, fun i => ?_⟩
  rw [SlotTables.keepAlivesOf, SlotTables.cleanup]
  by_cases hid : i = slotId
  · subst hid
    rw [AList.lookup_erase, count_ended hends hslot]
    rfl
  · have hne := slotId?_ne hslot hid
    rw [AList.lookup_erase_ne hid,
      count_other (not_ends (.inr hne)) (.inr hne)]
    exact H.keepAlives i

/-- When the first token came is not counted. -/
theorem Telling.firstToken (H : Telling s log) (firstTokenAt : AList fun _ : String => ℚ) :
    Telling { s with firstTokenAt } log :=
  ⟨H.arrival, H.queueEnter, H.prefillStart, H.keepAlives⟩

/-- The types whose events quote the tables. -/
def quotingTypes : List String := ["keep_alive", "client_disconnect", "completion", "slot_assign"]

theorem Explained.plain (h : e.eventType ∉ quotingTypes) : Explained log slotId e := by
  have hne : ∀ eventType ∈ quotingTypes, e.eventType ≠ eventType := fun eventType hmem htype =>
    h (htype ▸ hmem)
  refine ⟨fun htype => ?_, fun hends => ?_, fun htype => ?_, fun htype => ?_, fun htype => ?_⟩
  · exact absurd htype (hne _ (by decide))
  · have hsub : endTypes ⊆ quotingTypes := by decide
    exact absurd (hsub (ends_iff.mp hends).1) h
  · exact absurd htype (hne _ (by decide))
  · exact absurd htype (hne _ (by decide))
  · exact absurd htype (hne _ (by decide))

theorem Explained.counted (htype : e.eventType = "keep_alive")
    (h : e.payload.get "count_for_slot" = .int (count "keep_alive" slotId log + 1)) :
    Explained log slotId e where
  keepAlive _ := h
  ended hends := by
    have hmem := (ends_iff.mp hends).1
    rw [htype] at hmem
    exact absurd hmem (by decide)
  disconnect hne := absurd (htype.symm.trans hne) (by decide)
  completion hne := absurd (htype.symm.trans hne) (by decide)
  assign hne := absurd (htype.symm.trans hne) (by decide)

theorem Explained.assigned (htype : e.eventType = "slot_assign")
    (h : (e.payload.get "wait_in_queue_s").isSome ↔ 0 < count "queue_enter" slotId log) :
    Explained log slotId e where
  keepAlive hne := absurd (htype.symm.trans hne) (by decide)
  ended hends := by
    have hmem := (ends_iff.mp hends).1
    rw [htype] at hmem
    exact absurd hmem (by decide)
  disconnect hne := absurd (htype.symm.trans hne) (by decide)
  completion hne := absurd (htype.symm.trans hne) (by decide)
  assign _ := h

theorem Explained.disconnected (htype : e.eventType = "client_disconnect")
    (hsent : e.payload.get "keep_alives_sent" = .int (count "keep_alive" slotId log))
    (hqueue : e.payload.get "was_in_queue" =
      .bool (decide (0 < count "queue_enter" slotId log ∧ count "prefill_start" slotId log = 0))) :
    Explained log slotId e where
  keepAlive hne := absurd (htype.symm.trans hne) (by decide)
  ended _ := hsent
  disconnect _ := hqueue
  completion hne := absurd (htype.symm.trans hne) (by decide)
  assign hne := absurd (htype.symm.trans hne) (by decide)

theorem Explained.completed (htype : e.eventType = "completion")
    (hsent : e.payload.get "keep_alives_sent" = .int (count "keep_alive" slotId log))
    (htotal : (e.payload.get "total_lifecycle_s").isSome ↔ 0 < count "request_arrival" slotId log) :
    Explained log slotId e where
  keepAlive hne := absurd (htype.symm.trans hne) (by decide)
  ended _ := hsent
  disconnect hne := absurd (htype.symm.trans hne) (by decide)
  completion _ := htotal
  assign hne := absurd (htype.symm.trans hne) (by decide)

theorem isSome_since (now : ℚ) (start : Option ℚ) : (since now start).isSome ↔ start.isSome := by
  cases start with
  | none => exact ⟨fun h => h, fun h => h⟩
  | some x => exact ⟨fun _ => rfl, fun _ => rfl⟩

/-- Every event of the log says what the log before it has. -/
def Explains (log : List TelemetryEvent) : Prop :=
  ∀ before e after slotId, log = before ++ e :: after → e.slotId? = some slotId →
    Explained before slotId e

theorem Explains.concat (H : Explains log)
    (h : ∀ slotId, e.slotId? = some slotId → Explained log slotId e) :
    Explains (log ++ [e]) := by
  intro before e' after slotId hlog hslot
  rcases List.eq_nil_or_concat after with rfl | ⟨after, last, rfl⟩
  · obtain ⟨rfl, hlast⟩ := List.append_inj' hlog rfl
    obtain rfl := List.head_eq_of_cons_eq hlast
    exact h slotId hslot
  · rw [List.concat_eq_append, ← List.cons_append, ← List.append_assoc] at hlog
    obtain ⟨hinit, -⟩ := List.append_inj' hlog rfl
    exact H before e' after slotId hinit hslot

end Emitted

namespace Observer

/-- The tables tell of the log, and so does each of its events. -/
structure Sound (t : Observer) : Prop where
  telling : Telling t.slots t.flap.lines
  explains : Explains t.flap.lines

theorem Sound.emit {t : Observer} {eventType : String} {payload : Dict}
    (hT : Telling t.slots
      (t.flap.lines ++ [⟨t.flap.ring.seq + 1, eventType, payload, Nat.succ_pos _⟩]))
    (hE : Explains t.flap.lines)
    (h : ∀ slotId,
      (⟨t.flap.ring.seq + 1, eventType, payload, Nat.succ_pos _⟩ : TelemetryEvent).slotId? =
        some slotId →
      Explained t.flap.lines slotId ⟨t.flap.ring.seq + 1, eventType, payload, Nat.succ_pos _⟩) :
    (t.emit eventType payload).Sound := by
  rw [Observer.emit]
  exact ⟨hT, hE.concat h⟩

/-- An event that neither is counted nor quotes the tables. -/
theorem Sound.plain {t : Observer} {eventType : String} {payload : Dict} (H : t.Sound)
    (hends : eventType ∉ endTypes) (hcounted : eventType ∉ countedTypes)
    (hquoting : eventType ∉ quotingTypes) : (t.emit eventType payload).Sound :=
  .emit (H.telling.plain hends hcounted) H.explains fun _ _ => .plain hquoting

theorem Sound.step {t : Observer} (H : t.Sound) (call : ℚ × Hook) : (t.step call).Sound := by
  obtain ⟨now, hook⟩ := call
  obtain ⟨hT, hE⟩ := id H
  cases hook with
  | requestArrival slot =>
    refine .emit (hT.arrived now rfl (slotId?_cons _)) hE fun _ _ => .plain ?_
    show "request_arrival" ∉ quotingTypes
    decide
  | queueState queueDepth slot =>
    refine .emit (hT.queued now rfl (slotId?_cons _)) hE fun _ _ => .plain ?_
    show "queue_enter" ∉ quotingTypes
    decide
  | slotAssign slot =>
    refine .emit (hT.plain ?_ ?_) hE fun slotId hslot => .assigned rfl ?_
    · show "slot_assign" ∉ endTypes
      decide
    · show "slot_assign" ∉ countedTypes
      decide
    · obtain rfl : slot.slotId = slotId := Option.some.inj ((slotId?_cons _).symm.trans hslot)
      have hwait : (since now (t.slots.queueEnter.lookup slot.slotId)).isSome ↔
          0 < count "queue_enter" slot.slotId t.flap.lines :=
        (isSome_since _ _).trans (AList.lookup_isSome.trans (hT.queueEnter _))
      simpa [Dict.get_cons] using hwait
  | prefillStart slot =>
    refine .emit (hT.prefilling now rfl (slotId?_cons _)) hE fun _ _ => .plain ?_
    show "prefill_start" ∉ quotingTypes
    decide
  | firstToken slot ttftMs =>
    have H' : Observer.Sound
        { t with slots.firstTokenAt := t.slots.firstTokenAt.insert slot.slotId now } :=
      ⟨hT.firstToken _, hE⟩
    exact H'.plain (by decide) (by decide) (by decide)
  | generationTick slot nDecoded tokS =>
    rw [Observer.step]
    split
    · exact H
    · exact H.plain (by decide) (by decide) (by decide)
  | keepAliveEmitted slotId isQueued threadId =>
    refine .emit (hT.keptAlive rfl (slotId?_cons _)) hE fun slotId' hslot => .counted rfl ?_
    obtain rfl : slotId = slotId' := Option.some.inj ((slotId?_cons _).symm.trans hslot)
    simp [Dict.get_cons, hT.keepAlives]
  | clientDisconnect slot reason elapsedS =>
    refine .emit (hT.ended ?_ (slotId?_cons _)) hE fun slotId hslot => .disconnected rfl ?_ ?_
    · show "client_disconnect" ∈ endTypes
      decide
    · obtain rfl : slot.slotId = slotId := Option.some.inj ((slotId?_cons _).symm.trans hslot)
      simp [Dict.get_cons, hT.keepAlives]
    · obtain rfl : slot.slotId = slotId := Option.some.inj ((slotId?_cons _).symm.trans hslot)
      have hnone : slot.slotId ∉ t.slots.prefillStart ↔
          count "prefill_start" slot.slotId t.flap.lines = 0 := by
        rw [hT.prefillStart, Nat.pos_iff_ne_zero, not_not]
      simp [Dict.get_cons, hT.queueEnter, hnone]
  | completion slot reason =>
    refine .emit (hT.ended ?_ (slotId?_cons _)) hE fun slotId hslot => .completed rfl ?_ ?_
    · show "completion" ∈ endTypes
      decide
    · obtain rfl : slot.slotId = slotId := Option.some.inj ((slotId?_cons _).symm.trans hslot)
      simp [Dict.get_cons, hT.keepAlives]
    · obtain rfl : slot.slotId = slotId := Option.some.inj ((slotId?_cons _).symm.trans hslot)
      have htotal : (since now (t.slots.arrival.lookup slot.slotId)).isSome ↔
          0 < count "request_arrival" slot.slotId t.flap.lines :=
        (isSome_since _ _).trans (AList.lookup_isSome.trans (hT.arrival _))
      simpa [Dict.get_cons] using htotal
  | vramSample vramFreeMib processRssMib iso =>
    have H' : Observer.Sound { t with lastVramSampleIso := some iso } := ⟨hT, hE⟩
    exact H'.plain (by decide) (by decide) (by decide)
  | slotStateChange slot oldState newState =>
    exact H.plain (by decide) (by decide) (by decide)

theorem Sound.run (calls : List (ℚ × Hook)) : (run calls).Sound := by
  suffices h : ∀ t : Observer, t.Sound → (calls.foldl Observer.step t).Sound from
    h _ ⟨Telling.nil, by
      intro before e after slotId h
      cases before <;> cases h⟩
  induction calls with
  | nil => exact fun t H => H
  | cons call calls ih => exact fun t H => ih _ (H.step call)

end Observer

/-- Whatever hooks are called: an event that counts the keep-alives of its slot, or says
whether and from when it was queued or had come, says what the log before it has of the
slot since it last ended; and the slots that are tracked are those that the log has come
and not ended. -/
theorem log_explains_itself (calls : List (ℚ × Hook)) :
    Explains (Observer.run calls).flap.lines ∧
      ∃ tracked : List String, tracked.Nodup ∧
        (∀ slotId, slotId ∈ tracked ↔
          0 < count "request_arrival" slotId (Observer.run calls).flap.lines) ∧
        (Observer.run calls).getStatus.get "active_slots_tracked" = .int tracked.length := by
  obtain ⟨hT, hE⟩ := Observer.Sound.run calls
  have htracked : ∀ slotId, slotId ∈ (Observer.run calls).slots.arrival.keys ↔
      0 < count "request_arrival" slotId (Observer.run calls).flap.lines := fun slotId =>
    AList.mem_keys.symm.trans (hT.arrival slotId)
  exact ⟨hE, _, AList.keys_nodup _, htracked, rfl⟩

end Turbohaul.Telemetry
