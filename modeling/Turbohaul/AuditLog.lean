/-
# `AuditLog` — `GET /v1/logging`

`api/logging.py`: the rows of `audit_events` from a cursor on, in the order of
their ids, as many as the limit and the character budget let through.

  `_redact`                      `redact`
  `_decode_payload`              `decodePayload`
  `_row_to_event`, `json.dumps`  `rowToEvent`, `encodedLen`
  the loop of `get_logging`      `fill`
  `get_logging`                  `getLogging`; none of a response is a status of 500

The page of a request leaves by three exits, and each computes its cursor in its
own way: the budget stops at a row (`next_since` is its id), the limit was
reached (one past the last id), or the first row alone is over the budget (one
past its id).  `getLogging_exact` is that all three are exact pages.

A request has no page where its cursor does not fit the database, or a payload meets
a limit of the decoder: `_decode_payload` catches a `JSONDecodeError` only.
`Answered` is that neither is so.
-/
import Turbohaul.JsonText
import Turbohaul.Paging
import Mathlib.Algebra.GroupWithZero.Nat

namespace Turbohaul.Audit

open Paging

/-- `EFFECTIVE_BUDGET`. -/
def effectiveBudget : ℕ := 20000 * 4 - 512

/-- `_LIMIT_MIN`, `_LIMIT_MAX`. -/
def limitMin : Int := 1
def limitMax : Int := 500

/-- `_REDACT_DEPTH_CAP`. -/
def redactDepthCap : ℕ := 10

/-- `EventBus.REDACTED_KEYS`. -/
def redactedKeys : List String := ["prompt", "response", "context", "stderr", "stdout", "messages"]

/-- A row of `audit_events`. -/
structure AuditRow where
  eventId : ℕ
  slotId : Option String
  eventType : String
  payloadJson : Option String
  occurredAt : String

/-- An element of `events`. -/
structure AuditEvent where
  eventId : ℕ
  slotId : Option String
  eventType : String
  payload : Json
  occurredAt : String

mutual

/-- `_redact`. -/
def redact (depth : ℕ) : Json → Json
  | .obj kvs => if depth > redactDepthCap then .obj kvs else .obj (redactItems (depth + 1) kvs)
  | .arr xs => if depth > redactDepthCap then .arr xs else .arr (redactList (depth + 1) xs)
  | x => x

def redactItems (depth : ℕ) : List (String × Json) → List (String × Json)
  | [] => []
  | (k, v) :: kvs =>
    if k ∈ redactedKeys then redactItems depth kvs
    else (k, redact depth v) :: redactItems depth kvs

def redactList (depth : ℕ) : List Json → List Json
  | [] => []
  | x :: xs => redact depth x :: redactList depth xs

end

/-- `_decode_payload`; none where it raises. -/
def decodePayload (F : Interpreter) (payloadJson : Option String) : Option Dict :=
  let sentinel (text : String) : Dict :=
    [("_decode_error", .bool true), ("_raw_len", .int text.toList.length)]
  match payloadJson with
  | none => some []
  | some text =>
    if text = "" then some []
    else if JsonText.refuses F text.toList then none
    else match JsonText.loads F text.toList with
      | some (.obj kvs) => some kvs
      | _ => some (sentinel text)

/-- `_row_to_event`. -/
def rowToEvent (F : Interpreter) (row : AuditRow) : Option AuditEvent :=
  (decodePayload F row.payloadJson).map fun payload =>
    { eventId := row.eventId
      slotId := row.slotId
      eventType := row.eventType
      payload := redact 0 (.obj payload)
      occurredAt := row.occurredAt }

/-- The event as the object that is sent. -/
def AuditEvent.json (ev : AuditEvent) : Json :=
  .obj [("event_id", .int ev.eventId),
    ("slot_id", match ev.slotId with | none => .null | some s => .str s),
    ("event_type", .str ev.eventType),
    ("payload", ev.payload),
    ("occurred_at", .str ev.occurredAt)]

/-- `len(json.dumps(ev))`. -/
def encodedLen (F : FloatText) (ev : AuditEvent) : ℕ := (JsonText.dumps F ev.json).length

/-- The filters of a request, and its limit. -/
structure AuditQuery where
  slotId : Option String
  eventType : Option String
  limit : Int

/-- The limit, clamped. -/
def AuditQuery.rows (q : AuditQuery) : ℕ :=
  (if q.limit < limitMin then limitMin else if q.limit > limitMax then limitMax else q.limit).toNat

/-- `(? IS NULL OR slot_id = ?) AND (? IS NULL OR event_type = ?)`. -/
def AuditQuery.keeps (q : AuditQuery) (row : AuditRow) : Bool :=
  (q.slotId.isNone || row.slotId = q.slotId) &&
    (q.eventType.isNone || some row.eventType = q.eventType)

/-- The `SELECT`, of a table whose rows stand in the order of their ids. -/
def AuditQuery.select (q : AuditQuery) (table : List AuditRow) (since : ℕ) : List AuditRow :=
  (table.filter fun row => decide (since ≤ row.eventId) && q.keeps row).take q.rows

/-- The loop over the rows: the events that fit after `used` characters, and the
id of the row the budget stopped at. -/
def fill (F : Interpreter) : ℕ → List AuditRow → Option (List AuditEvent × Option ℕ)
  | _, [] => some ([], none)
  | used, row :: rows => do
    let ev ← rowToEvent F row
    if used + encodedLen F ev > effectiveBudget then some ([], some ev.eventId)
    else
      let rest ← fill F (used + encodedLen F ev) rows
      some (ev :: rest.1, rest.2)

/-- The body of a response. -/
structure AuditPage where
  events : List AuditEvent
  nextSince : Option ℕ
  oversized : Bool

/-- What a parameter of a statement is below, as SQLite binds it. -/
def sqliteIntEnd : ℕ := 2 ^ 63

/-- What `get_logging` does after the loop. -/
def respond (F : Interpreter) (q : AuditQuery) (rows : List AuditRow)
    (loop : List AuditEvent × Option ℕ) : Option AuditPage :=
  let nextSince := match loop.2 with
    | some n => some n
    | none => if rows.length = q.rows then loop.1.getLast?.map (·.eventId + 1) else none
  match loop.1, rows with
  | [], row :: _ => (rowToEvent F row).map fun ev => ⟨[ev], some (row.eventId + 1), true⟩
  | events, _ => some ⟨events, nextSince, false⟩

/-- `get_logging`; none where it raises. -/
def getLogging (F : Interpreter) (q : AuditQuery) (table : List AuditRow) (since : ℕ) :
    Option AuditPage :=
  if sqliteIntEnd ≤ since then none
  else (fill F 0 (q.select table since)).bind (respond F q (q.select table since))

/-- What a reader that follows `next_since` uses of a page. -/
def AuditPage.page (p : AuditPage) : Page AuditEvent := ⟨p.events, p.nextSince⟩

/-- What it gets: a page, or nothing of a request that fails, which leaves it where it is. -/
def AuditQuery.page (q : AuditQuery) (F : Interpreter) (table : List AuditRow) (since : ℕ) :
    Page AuditEvent :=
  match getLogging F q table since with
  | some p => p.page
  | none => ⟨[], some since⟩

/-! ## Rows that decode -/

/-- The payload of a row meets no limit of the decoder. -/
def Decodes (F : Interpreter) (row : AuditRow) : Prop :=
  ∀ text, row.payloadJson = some text → JsonText.refuses F text.toList = false

/-- The cursor of a request fits the database, and the rows it selects decode. -/
def AuditQuery.Answered (q : AuditQuery) (F : Interpreter) (table : List AuditRow) (since : ℕ) :
    Prop :=
  since < sqliteIntEnd ∧ ∀ row ∈ q.select table since, Decodes F row

/-- What a row is shown as, if it decodes. -/
def AuditRow.event (F : Interpreter) (row : AuditRow) : AuditEvent :=
  (rowToEvent F row).getD ⟨row.eventId, row.slotId, row.eventType, .null, row.occurredAt⟩

@[simp] theorem AuditRow.event_eventId (F : Interpreter) (row : AuditRow) :
    (row.event F).eventId = row.eventId := by
  unfold AuditRow.event rowToEvent
  cases decodePayload F row.payloadJson <;> rfl

theorem Decodes.shown {F : Interpreter} {row : AuditRow} (h : Decodes F row) :
    rowToEvent F row = some (row.event F) := by
  have hpayload : (decodePayload F row.payloadJson).isSome := by
    unfold decodePayload
    cases hp : row.payloadJson with
    | none => rfl
    | some text =>
      dsimp only
      rw [h text hp, if_neg Bool.false_ne_true]
      split
      · rfl
      · split <;> rfl
  obtain ⟨payload, hpayload⟩ := Option.isSome_iff_exists.mp hpayload
  unfold AuditRow.event rowToEvent
  rw [hpayload]
  rfl

theorem AuditRow.event_of_some {F : Interpreter} {row : AuditRow} {ev : AuditEvent}
    (h : rowToEvent F row = some ev) : row.event F = ev := by
  unfold AuditRow.event
  rw [h]
  rfl

/-! ## The loop -/

/-- The loop shows the rows before the one it stops at, and they fit. -/
theorem fill_spec {F : Interpreter} {used : ℕ} {rows : List AuditRow} {events : List AuditEvent}
    {stop : Option ℕ} (h : fill F used rows = some (events, stop)) :
    ∃ shown left, rows = shown ++ left ∧ events = shown.map (AuditRow.event F) ∧
      stop = left.head?.map (·.eventId) ∧
      (shown ≠ [] → used + (shown.map fun row => encodedLen F (row.event F)).sum
        ≤ effectiveBudget) := by
  induction rows generalizing used events with
  | nil =>
    cases h
    exact ⟨[], [], rfl, rfl, rfl, fun h => absurd rfl h⟩
  | cons row rows ih =>
    rw [fill] at h
    obtain ⟨ev, hev, h⟩ := Option.bind_eq_some_iff.mp h
    have hrow := AuditRow.event_of_some hev
    subst hrow
    split at h
    · cases h
      exact ⟨[], row :: rows, rfl, rfl, by simp, fun h => absurd rfl h⟩
    · rename_i hfits
      obtain ⟨⟨events', stop'⟩, hrest, h⟩ := Option.bind_eq_some_iff.mp h
      cases h
      obtain ⟨shown, left, hrows, hev, hstop, hsum⟩ := ih hrest
      refine ⟨row :: shown, left, by rw [hrows, List.cons_append], by rw [hev, List.map_cons],
        hstop, fun _ => ?_⟩
      rw [List.map_cons, List.sum_cons, ← Nat.add_assoc]
      by_cases hs : shown = []
      · subst hs
        simpa using hfits
      · exact hsum hs

theorem fill_isSome {F : Interpreter} {rows : List AuditRow} (h : ∀ row ∈ rows, Decodes F row) :
    ∀ used, (fill F used rows).isSome := by
  induction rows with
  | nil =>
    intro used
    rfl
  | cons row rows ih =>
    intro used
    obtain ⟨rest, hrest⟩ := Option.isSome_iff_exists.mp
      (ih (fun row' h' => h row' (List.mem_cons_of_mem _ h')) (used + encodedLen F (row.event F)))
    rw [fill, (h row List.mem_cons_self).shown, Option.bind_eq_bind, Option.bind_some]
    split
    · rfl
    · rw [hrest]
      rfl

/-- A request is answered. -/
theorem AuditQuery.Answered.page {F : Interpreter} {q : AuditQuery} {table : List AuditRow}
    {since : ℕ} (h : q.Answered F table since) : ∃ p, getLogging F q table since = some p := by
  obtain ⟨hsince, hrows⟩ := h
  obtain ⟨⟨events, stop⟩, hfill⟩ := Option.isSome_iff_exists.mp (fill_isSome hrows 0)
  unfold getLogging
  rw [if_neg (Nat.not_le.mpr hsince), hfill, Option.bind_some]
  unfold respond
  dsimp only
  split
  · rename_i row rows hselect
    have hrow := hrows row (hselect ▸ List.mem_cons_self)
    rw [hrow.shown]
    exact ⟨_, rfl⟩
  · exact ⟨_, rfl⟩

/-- The exits of `get_logging`: the first row alone, or those the loop shows. -/
theorem getLogging_cases {F : Interpreter} {q : AuditQuery} {table : List AuditRow} {since : ℕ}
    {p : AuditPage} (h : getLogging F q table since = some p) :
    (∃ row rows, q.select table since = row :: rows ∧
      p = ⟨[row.event F], some (row.eventId + 1), true⟩) ∨
    ∃ shown left, q.select table since = shown ++ left ∧ (shown = [] → left = []) ∧
      (shown.map fun row => encodedLen F (row.event F)).sum ≤ effectiveBudget ∧
      p = ⟨shown.map (AuditRow.event F),
        match left with
        | row :: _ => some row.eventId
        | [] => if shown.length = q.rows then shown.getLast?.map (·.eventId + 1) else none,
        false⟩ := by
  unfold getLogging at h
  split at h
  · cases h
  · obtain ⟨⟨events, stop⟩, hfill, h⟩ := Option.bind_eq_some_iff.mp h
    obtain ⟨shown, left, hrows, hev, hstop, hsum⟩ := fill_spec hfill
    rw [Nat.zero_add] at hsum
    rw [hrows, hev, hstop] at h
    unfold respond at h
    cases shown with
    | nil =>
      cases left with
      | nil =>
        cases h
        exact .inr ⟨[], [], hrows, fun _ => rfl, Nat.zero_le _, rfl⟩
      | cons row left =>
        obtain ⟨ev, hrow, rfl⟩ := Option.map_eq_some_iff.mp h
        rw [← AuditRow.event_of_some hrow]
        exact .inl ⟨row, left, hrows, rfl⟩
    | cons row shown =>
      refine .inr ⟨row :: shown, left, hrows, fun h => ?_, hsum (List.cons_ne_nil _ _), ?_⟩
      · cases h
      · cases h
        cases left with
        | nil =>
          rw [List.append_nil, List.getLast?_map, Option.map_map]
          simp [Function.comp_def]
        | cons row' left => rfl

/-! ## An exact page -/

/-- The clamped limit lets a row through. -/
theorem AuditQuery.rows_pos (q : AuditQuery) : 0 < q.rows := by
  unfold AuditQuery.rows limitMin limitMax
  split
  · decide
  · split
    · decide
    · omega

theorem AuditQuery.select_prefix (q : AuditQuery) (table : List AuditRow) (since : ℕ) :
    ∃ more, ahead AuditRow.eventId q.keeps since table = q.select table since ++ more ∧
      ((q.select table since).length < q.rows → more = []) := by
  refine ⟨(ahead AuditRow.eventId q.keeps since table).drop q.rows, ?_, fun h => ?_⟩
  · exact (List.take_append_drop _ _).symm
  · rw [List.drop_eq_nil_iff]
    change (List.take _ (ahead AuditRow.eventId q.keeps since table)).length < _ at h
    rw [List.length_take] at h
    omega

/-- A page is exact whose rows are the first ahead and whose cursor, if it has one,
is past them and no further than the next. -/
theorem exact_of_shown {F : Interpreter} {q : AuditQuery} {table : List AuditRow} {since : ℕ}
    (htable : Ascending AuditRow.eventId table) {shown left : List AuditRow}
    (hsplit : ahead AuditRow.eventId q.keeps since table = shown ++ left) {next : Option ℕ}
    (hnone : next = none → left = [])
    (hsome : ∀ n, next = some n → ∃ first last, shown = first ++ [last] ∧
      (n = last.eventId + 1 ∨ ∃ row more, left = row :: more ∧ n = row.eventId)) :
    Page.Exact AuditRow.eventId q.keeps (AuditRow.event F) table since
      ⟨shown.map (AuditRow.event F), next⟩ := by
  have hasc : Ascending AuditRow.eventId (shown ++ left) := hsplit ▸ htable.filter _
  have hmem : ∀ row ∈ shown ++ left, row ∈ table ∧ since ≤ row.eventId := by
    intro row hrow
    obtain ⟨ht, hs, -⟩ := mem_ahead.mp (hsplit ▸ hrow)
    exact ⟨ht, hs⟩
  have hcross := (List.pairwise_append.mp hasc).2.2
  refine ⟨⟨shown, rfl, ?_⟩, ?_, ?_⟩
  · cases next with
    | none => rw [hsplit, hnone rfl, rest]
    | some n =>
      obtain ⟨first, last, rfl, hn⟩ := hsome n rfl
      have hlast : last ∈ first ++ [last] := List.mem_append_right _ (List.mem_singleton_self _)
      have hfirst : ∀ row ∈ first ++ [last], row.eventId ≤ last.eventId := by
        intro row hrow
        rcases List.mem_append.mp hrow with h | h
        · exact ((List.pairwise_append.mp (List.pairwise_append.mp hasc).1).2.2 _ h _
            (List.mem_singleton_self _)).le
        · rw [List.mem_singleton.mp h]
      have hge := (hmem last (List.mem_append_left _ hlast)).2
      have hrest : rest AuditRow.eventId q.keeps (some n) table = left := by
        rcases hn with rfl | ⟨row, more, rfl, rfl⟩
        · exact ahead_of_split hsplit (by omega) (fun x hx => Nat.lt_succ_of_le (hfirst x hx))
            fun y hy => hcross _ hlast _ hy
        · refine ahead_of_split hsplit (hmem row (by simp)).2
            (fun x hx => hcross x hx row (List.mem_cons_self ..)) fun y hy => ?_
          rcases List.mem_cons.mp hy with rfl | h
          · exact le_rfl
          · exact (List.rel_of_pairwise_cons (List.pairwise_append.mp hasc).2.1 h).le
      rw [hrest, hsplit]
  · intro h
    obtain ⟨n, hn⟩ := Option.isSome_iff_exists.mp h
    obtain ⟨first, last, rfl, -⟩ := hsome n hn
    simp
  · intro n hn
    obtain ⟨first, last, rfl, rfl | ⟨row, more, rfl, rfl⟩⟩ := hsome n hn
    · exact ⟨last, (hmem last (by simp)).1, le_rfl⟩
    · exact ⟨row, (hmem row (by simp)).1, Nat.le_succ _⟩

theorem getLogging_exact {F : Interpreter} {q : AuditQuery} {table : List AuditRow} {since : ℕ}
    (htable : Ascending AuditRow.eventId table) {p : AuditPage}
    (h : getLogging F q table since = some p) :
    p.page.Exact AuditRow.eventId q.keeps (AuditRow.event F) table since := by
  obtain ⟨more, hahead, hmore⟩ := q.select_prefix table since
  rcases getLogging_cases h with
    ⟨row, rows, hrows, hp⟩ | ⟨shown, left, hrows, hempty, -, hp⟩
  · rw [hp]
    have hsplit : ahead AuditRow.eventId q.keeps since table = [row] ++ (rows ++ more) := by
      rw [hahead, hrows, List.cons_append, List.singleton_append]
    refine exact_of_shown htable hsplit (by rintro ⟨⟩) ?_
    · intro n hn
      exact ⟨[], row, rfl, .inl (Option.some.inj hn).symm⟩
  · rw [hp]
    rw [hrows, List.append_assoc] at hahead
    have hlen := congrArg List.length hrows
    rw [List.length_append] at hlen
    refine exact_of_shown htable hahead ?_ ?_
    · intro hnone
      cases left with
      | cons row left => cases hnone
      | nil =>
        rw [List.nil_append]
        by_cases hq : shown.length = q.rows
        · -- the limit was reached, so a row was shown
          have hpos := q.rows_pos
          rw [← hq] at hpos
          have hnil : shown = [] := by simpa [hq] using hnone
          rw [hnil] at hpos
          exact absurd hpos (lt_irrefl 0)
        · refine hmore (Nat.lt_of_le_of_ne ?_ ?_)
          · exact List.length_take_le _ _
          · simpa [hlen] using hq
    · intro n hn
      cases left with
      | cons row left =>
        have hne : shown ≠ [] := fun h => by cases hempty h
        exact ⟨shown.dropLast, shown.getLast hne, (List.dropLast_append_getLast hne).symm,
          .inr ⟨row, left ++ more, rfl, (Option.some.inj hn).symm⟩⟩
      | nil =>
        dsimp only at hn
        split at hn
        · obtain ⟨last, hlast, rfl⟩ := Option.map_eq_some_iff.mp hn
          obtain ⟨first, rfl⟩ := List.getLast?_eq_some_iff.mp hlast
          exact ⟨first, last, rfl, .inl rfl⟩
        · cases hn

/-! ## The paging of the log -/

/-- What a page that is not marked oversized holds, and what one that is. -/
theorem getLogging_budget {F : Interpreter} {q : AuditQuery} {table : List AuditRow} {since : ℕ}
    {p : AuditPage} (h : getLogging F q table since = some p) :
    (p.oversized = false → (p.events.map (encodedLen F)).sum ≤ effectiveBudget) ∧
    (p.oversized = true → p.events.length = 1) := by
  rcases getLogging_cases h with ⟨row, rows, -, rfl⟩ | ⟨shown, left, -, -, hsum, rfl⟩
  · refine ⟨fun h => ?_, fun _ => rfl⟩
    cases h
  · refine ⟨fun _ => ?_, fun h => ?_⟩
    · rw [List.map_map]
      exact hsum
    · cases h

theorem AuditQuery.page_of_some {F : Interpreter} {q : AuditQuery} {table : List AuditRow}
    {since : ℕ} {p : AuditPage} (h : getLogging F q table since = some p) :
    q.page F table since = p.page := by
  unfold AuditQuery.page
  rw [h]

theorem page_exact {F : Interpreter} {q : AuditQuery} {table : List AuditRow} {since : ℕ}
    (htable : Ascending AuditRow.eventId table) (hmay : q.Answered F table since) :
    (q.page F table since).Exact AuditRow.eventId q.keeps (AuditRow.event F) table since := by
  obtain ⟨p, hp⟩ := hmay.page
  rw [AuditQuery.page_of_some hp]
  exact getLogging_exact htable hp

/-- The pages of the log are exact where every request of the reader is `Answered`: whatever
is appended between two requests, a reader from `since` on has at every point read matching
events in the order of their ids, once each, and when it is through all those it began with;
every request gets a page, and one that has a cursor shows an event and moves on, so that
the reader is through after finitely many requests once nothing is appended; and a page keeps
to the budget unless it is marked, and then holds one event. -/
theorem audit_paging_when (F : Interpreter) (q : AuditQuery) (table : List AuditRow)
    (htable : Ascending AuditRow.eventId table) (since : ℕ) (r : Reader AuditRow AuditEvent)
    (hr : Reads AuditRow.eventId (q.Answered F) (q.page F) ⟨table, some since, []⟩ r) :
    (∃ visited, r.seen = visited.map (AuditRow.event F) ∧ Ascending AuditRow.eventId visited ∧
      (∀ row ∈ visited, row ∈ r.log ∧ since ≤ row.eventId ∧ q.keeps row = true) ∧
      (r.cursor = none → ∀ row ∈ table, since ≤ row.eventId → q.keeps row = true →
        row ∈ visited)) ∧
    (∀ c, q.Answered F r.log c → ∃ p, getLogging F q r.log c = some p ∧
      (∀ n, p.nextSince = some n → c < n ∧ p.events ≠ []) ∧
      (p.oversized = false → (p.events.map (encodedLen F)).sum ≤ effectiveBudget) ∧
      (p.oversized = true → p.events.length = 1)) ∧
    ((∀ k c, ((Reader.ask (q.page F))^[k] r).cursor = some c → q.Answered F r.log c) →
      ∃ k, ((Reader.ask (q.page F))^[k] r).cursor = none) := by
  have hstart : Reader.Sound AuditRow.eventId (AuditRow.event F) id q.keeps table since
      ⟨table, some since, []⟩ := .start htable since
  have hsound := hstart.reads (fun _ => List.Sublist.refl _) (fun _ _ => List.Subset.refl _)
    (fun _ _ hlog hmay => page_exact hlog hmay) hr
  refine ⟨?_, fun c hmay => ?_, fun hmay => ?_⟩
  · obtain ⟨visited, hread⟩ := hsound.read
    refine ⟨visited, hread.1, hread.2.1, fun row hrow => mem_ahead.mp (hread.2.2.1 row hrow), ?_⟩
    intro hd row hrow hs hk
    obtain ⟨log, hpre, -, hall⟩ := hread.through hd
    exact hall row (mem_ahead.mpr ⟨hpre.subset hrow, hs, hk⟩)
  · obtain ⟨p, hp⟩ := hmay.page
    have hx := getLogging_exact hsound.ascending hp
    refine ⟨p, hp, fun n hn => ⟨hx.lt_next hn, hx.moves ?_⟩, getLogging_budget hp⟩
    rw [AuditPage.page, hn]
    rfl
  · exact following_ends id (fun c hlog hmay => page_exact hlog hmay) hsound.ascending hmay

/-- A page of one row, then a row is written, then the next page. -/
theorem audit_paging_when_beside_append :
    let F : Interpreter := ⟨.nans, 900⟩
    let q : AuditQuery := ⟨none, none, 1⟩
    let row (n : ℕ) : AuditRow := ⟨n, none, "slot_staged", some "\x7b\x7d", "2026-06-27T05:30:00"⟩
    let page := q.page F
    let r := Reader.ask page { Reader.ask page ⟨[row 1], some 0, []⟩ with log := [row 1, row 2] }
    r.seen.map (·.eventId) = [1, 2] ∧
      ∃ visited, r.seen = visited.map (AuditRow.event F) ∧ Ascending AuditRow.eventId visited := by
  intro F q row page r
  have hrow : ∀ n, Decodes F (row n) := by
    intro n text htext
    cases htext
    rfl
  have hrows : ∀ log since, (∀ a ∈ log, ∃ n, a = row n) →
      ∀ a ∈ q.select log since, Decodes F a := by
    intro log since hlog a ha
    obtain ⟨n, rfl⟩ := hlog a (List.mem_of_mem_filter (List.mem_of_mem_take ha))
    exact hrow n
  refine ⟨by decide +kernel, ?_⟩
  have h := audit_paging_when F q [row 1] (List.pairwise_singleton _ _) 0 r
    (.tail (.tail (.tail .refl (.ask _ fun c hc => ?_)) (.append _ (row 2) (by decide)))
      (.ask _ fun c hc => ?_))
  · obtain ⟨visited, hseen, hasc, -, -⟩ := h.1
    exact ⟨visited, hseen, hasc⟩
  · cases hc
    exact ⟨by decide, hrows _ _ (by simp)⟩
  · have hcursor : (Reader.ask page ⟨[row 1], some 0, []⟩).cursor = some 2 := by decide +kernel
    cases hcursor.symm.trans hc
    exact ⟨by decide, hrows _ _ (by simp)⟩

/-! ## Requests without a page -/

/-- A reader whose request fails stays where it is, however often it asks. -/
theorem asks_stuck {F : Interpreter} {q : AuditQuery} {table : List AuditRow} {since : ℕ}
    (h : getLogging F q table since = none) (k : ℕ) :
    (Reader.ask (q.page F))^[k] ⟨table, some since, []⟩ = ⟨table, some since, []⟩ := by
  induction k with
  | zero => rfl
  | succ k ih =>
    rw [Function.iterate_succ_apply]
    have hask : Reader.ask (q.page F) ⟨table, some since, []⟩ =
        (⟨table, some since, []⟩ : Reader AuditRow AuditEvent) := by
      unfold Reader.ask AuditQuery.page
      simp only [h, List.append_nil]
    rw [hask, ih]

/-- Nines. -/
def nines (k : ℕ) : List Char := List.replicate k '9'

theorem intPart_nines (k : ℕ) (rest : List Char) :
    JsonText.intPart ('9' :: (nines k ++ '}' :: rest)) = some ('9' :: nines k, '}' :: rest) := by
  have hdigits : ∀ c ∈ nines k, c.isDigit = true := by
    intro c hc
    rw [List.eq_of_mem_replicate hc]
    rfl
  show some ('9' :: List.takeWhile Char.isDigit (nines k ++ '}' :: rest),
    List.dropWhile Char.isDigit (nines k ++ '}' :: rest)) = _
  rw [List.takeWhile_append_of_pos hdigits, List.dropWhile_append_of_pos hdigits]
  simp [List.takeWhile, List.dropWhile]

theorem overlong_nines {k : ℕ} (hk : maxStrDigits ≤ k) (rest : List Char) :
    JsonText.overlong ('9' :: (nines k ++ '}' :: rest)) = true := by
  unfold JsonText.overlong
  rw [intPart_nines]
  show (true && true && decide (maxStrDigits < ('9' :: nines k).length)) = true
  rw [List.length_cons, nines, List.length_replicate]
  simpa using Nat.lt_succ_of_le hk

/-- A prompt of more digits than an integer may have. -/
def longPrompt : List Char :=
  ['{', '"', 'p', 'r', 'o', 'm', 'p', 't', '"', ':', '9'] ++ (nines maxStrDigits ++ ['}'])

theorem refuses_longPrompt (F : FloatText) (n : ℕ) :
    JsonText.refuses ⟨F, n + 1⟩ longPrompt = true := by
  have hlong : JsonText.overlong ('9' :: (nines maxStrDigits ++ ['}'])) = true :=
    overlong_nines le_rfl []
  unfold JsonText.refuses longPrompt
  generalize nines maxStrDigits ++ ['}'] = t at hlong
  have hnumber : JsonText.scanHit F n ('9' :: t) = true := by
    cases n <;> exact hlong
  show (JsonText.scanHit F n ('9' :: t) || _) = true
  rw [hnumber, Bool.true_or]
/-- A row that stores it. -/
def longRow : AuditRow :=
  ⟨1, none, "slot_staged", some (String.ofList longPrompt), "2026-06-27T05:30:00"⟩

theorem longPrompt_ne : String.ofList longPrompt ≠ "" := by
  intro h
  have hnil := congrArg String.toList h
  rw [String.toList_ofList, String.toList_empty] at hnil
  exact List.cons_ne_nil _ _ hnil

theorem decodePayload_refused {F : Interpreter} {text : String} (hne : text ≠ "")
    (h : JsonText.refuses F text.toList = true) : decodePayload F (some text) = none := by
  unfold decodePayload
  dsimp only
  rw [if_neg hne, if_pos h]

theorem rowToEvent_longRow (F : FloatText) (n : ℕ) : rowToEvent ⟨F, n + 1⟩ longRow = none := by
  have hnone : decodePayload ⟨F, n + 1⟩ longRow.payloadJson = none :=
    decodePayload_refused longPrompt_ne (by rw [String.toList_ofList, refuses_longPrompt])
  unfold rowToEvent
  rw [hnone]
  rfl

/-- A reader from 2^63 on, and one of a log with a prompt of 4301 digits, are never through. -/
theorem audit_paging_stuck :
    let F : Interpreter := ⟨.nans, 900⟩
    let q : AuditQuery := ⟨none, none, 200⟩
    (¬ ∀ table since, Ascending AuditRow.eventId table →
      ∃ k, ((Reader.ask (q.page F))^[k] ⟨table, some since, []⟩).cursor = none) ∧
    ∀ k, (Reader.ask (q.page F))^[k] ⟨[], some (2 ^ 63), []⟩ = ⟨[], some (2 ^ 63), []⟩ ∧
      (Reader.ask (q.page F))^[k] ⟨[longRow], some 0, []⟩ = ⟨[longRow], some 0, []⟩ := by
  intro F q
  have hsince : getLogging F q [] (2 ^ 63) = none := by
    unfold getLogging
    rw [if_pos (show sqliteIntEnd ≤ 2 ^ 63 from le_rfl)]
  have hrow : getLogging F q [longRow] 0 = none := by
    have hselect : q.select [longRow] 0 = [longRow] := rfl
    unfold getLogging
    rw [if_neg (by decide), hselect, fill, rowToEvent_longRow]
    rfl
  refine ⟨fun h => ?_, fun k => ⟨asks_stuck hsince k, asks_stuck hrow k⟩⟩
  obtain ⟨k, hk⟩ := h [longRow] 0 (List.pairwise_singleton _ _)
  rw [asks_stuck hrow k] at hk
  cases hk

end Turbohaul.Audit
