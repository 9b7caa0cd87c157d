/-
# `Telemetry` — `GET /v1/telemetry/events`

`telemetry.py` and `api/telemetry.py`: events are numbered as they are emitted, kept
in a ring buffer and appended to a file, and read back page by page from either,
`since` being the number of an event already seen.

  `_RingBuffer.append`, `_JsonlWriter.write`, `_emit`  `Ring.append`, `emit`
  `_RingBuffer.get`, `get_events`                       `Ring.get`
  `_JsonlWriter.read_recent`, `get_events_from_file`    `readRecent`, `fileEvents`

The guide's "pass as `since` for next page, null = end" holds of neither source
where a request finds much to read.  The ring keeps the newest `limit` events and
goes on after the last of them: the older ones are passed over.  The file answers
newest first and goes on after the oldest shown: all but that one are shown again,
and what lies before it is never shown.  `telemetry_paging_when` is what is left: the ring
where no request finds more than `limit`, the file where none finds more than one.
-/
import Turbohaul.Json
import Turbohaul.Paging

namespace Turbohaul.Telemetry

open Paging

/-- `RING_BUFFER_SIZE`. -/
@[irreducible] def ringBufferSize : ℕ := 10000

/-- An event: `_seq`, counted from 1 on, `event_type`, and the other items of the
payload. -/
structure TelemetryEvent where
  seq : ℕ
  eventType : String
  payload : Dict
  seq_pos : 0 < seq

/-- `_RingBuffer`. -/
structure Ring where
  buf : List TelemetryEvent
  seq : ℕ

/-- The ring, and the lines of the files, each the event it was written from. -/
structure FlapTelemetry where
  ring : Ring
  lines : List TelemetryEvent

/-- `buf[-n:]` of a list longer than `n`. -/
def lastOf {α : Type} (n : ℕ) (xs : List α) : List α := xs.drop (xs.length - n)

/-- `_RingBuffer.append`. -/
def Ring.append (ring : Ring) (eventType : String) (payload : Dict) : Ring :=
  { buf := lastOf ringBufferSize (ring.buf ++ [⟨ring.seq + 1, eventType, payload, Nat.succ_pos _⟩])
    seq := ring.seq + 1 }

/-- `_emit`. -/
def emit (t : FlapTelemetry) (e : String × Dict) : FlapTelemetry :=
  { ring := t.ring.append e.1 e.2
    lines := t.lines ++ [⟨t.ring.seq + 1, e.1, e.2, Nat.succ_pos _⟩] }

/-- The telemetry of a process, after what it has emitted. -/
def emitted (es : List (String × Dict)) : FlapTelemetry := es.foldl emit ⟨⟨[], 0⟩, []⟩

/-- The parameters of a request, as the route lets them through. -/
structure TelemetryQuery where
  eventType : Option String
  limit : ℕ
  limit_pos : 1 ≤ limit
  limit_le : limit ≤ 1000

/-- What a response holds. -/
structure TelemetryPage where
  events : List TelemetryEvent
  nextSince : Option ℕ

/-- `event_type is None or e.get("event_type") == event_type`. -/
def TelemetryQuery.ringKeeps (q : TelemetryQuery) (e : TelemetryEvent) : Bool :=
  q.eventType.isNone || some e.eventType = q.eventType

/-- `not (event_type and obj.get("event_type") != event_type)`. -/
def TelemetryQuery.fileKeeps (q : TelemetryQuery) (e : TelemetryEvent) : Bool :=
  q.eventType.isNone || q.eventType = some "" || some e.eventType = q.eventType

/-- `_RingBuffer.get`, of `get_events`. -/
def Ring.get (buf : List TelemetryEvent) (q : TelemetryQuery) (since : ℕ) : TelemetryPage :=
  let filtered := buf.filter fun e => decide (since < e.seq) && q.ringKeeps e
  let filtered := if filtered.length > q.limit then lastOf q.limit filtered else filtered
  ⟨filtered, if filtered.length = q.limit then filtered.getLast?.map (·.seq) else none⟩

/-- The loop of `read_recent`, over the lines from the newest on: the results still
to come after `n` of them. -/
def readRecent (q : TelemetryQuery) (since : ℕ) : ℕ → List TelemetryEvent → List TelemetryEvent
  | _, [] => []
  | n, e :: lines =>
    if since ≠ 0 ∧ e.seq ≤ since then readRecent q since n lines
    else if !q.fileKeeps e then readRecent q since n lines
    else if n + 1 ≥ q.limit then [e]
    else e :: readRecent q since (n + 1) lines

/-- `get_events_from_file`. -/
def fileEvents (lines : List TelemetryEvent) (q : TelemetryQuery) (since : ℕ) : TelemetryPage :=
  let events := readRecent q since 0 lines.reverse
  ⟨events, events.getLast?.map (·.seq)⟩

/-- What a reader uses of a page: the cursor that passes the event `since` names. -/
def TelemetryPage.page (p : TelemetryPage) : Page TelemetryEvent :=
  ⟨p.events, p.nextSince.map (· + 1)⟩

/-- The pages of the ring, of all that was emitted. -/
def ringPage (q : TelemetryQuery) (log : List TelemetryEvent) (c : ℕ) : Page TelemetryEvent :=
  (Ring.get (lastOf ringBufferSize log) q (c - 1)).page

/-- The pages of the file. -/
def filePage (q : TelemetryQuery) (log : List TelemetryEvent) (c : ℕ) : Page TelemetryEvent :=
  (fileEvents log q (c - 1)).page

/-! ## What is emitted -/

theorem lastOf_sublist {α : Type} (n : ℕ) (xs : List α) : (lastOf n xs).Sublist xs :=
  List.drop_sublist _ _

theorem lastOf_append {α : Type} (n : ℕ) (xs ys : List α) :
    lastOf n (lastOf n xs ++ ys) = lastOf n (xs ++ ys) := by
  simp only [lastOf, List.drop_append, List.drop_drop, List.length_append, List.length_drop]
  congr 2 <;> omega

theorem lastOf_append_subset {α : Type} (n : ℕ) (xs : List α) (x : α) :
    lastOf n (xs ++ [x]) ⊆ lastOf n xs ++ [x] := by
  rw [← lastOf_append]
  exact (lastOf_sublist n _).subset

/-- The ring holds the newest of what was emitted, the files all of it, numbered
from 1 on. -/
theorem emitted_spec (es : List (String × Dict)) :
    (emitted es).ring.buf = lastOf ringBufferSize (emitted es).lines ∧
      Ascending TelemetryEvent.seq (emitted es).lines ∧
      ∀ e ∈ (emitted es).lines, e.seq ≤ (emitted es).ring.seq := by
  suffices h : ∀ t : FlapTelemetry, t.ring.buf = lastOf ringBufferSize t.lines →
      Ascending TelemetryEvent.seq t.lines → (∀ e ∈ t.lines, e.seq ≤ t.ring.seq) →
      (es.foldl emit t).ring.buf = lastOf ringBufferSize (es.foldl emit t).lines ∧
        Ascending TelemetryEvent.seq (es.foldl emit t).lines ∧
        ∀ e ∈ (es.foldl emit t).lines, e.seq ≤ (es.foldl emit t).ring.seq from
    h _ (List.drop_nil).symm List.Pairwise.nil (by rintro _ ⟨⟩)
  induction es with
  | nil =>
    intro t hbuf hasc hle
    exact ⟨hbuf, hasc, hle⟩
  | cons e es ih =>
    intro t hbuf hasc hle
    refine ih (emit t e) ?_ ?_ ?_
    · simp only [emit, Ring.append]
      rw [hbuf, lastOf_append]
    · refine List.pairwise_append.mpr ⟨hasc, List.pairwise_singleton _ _, fun a ha b hb => ?_⟩
      rw [List.mem_singleton.mp hb]
      exact Nat.lt_succ_of_le (hle a ha)
    · intro a ha
      rcases List.mem_append.mp ha with ha | ha
      · exact (hle a ha).trans (Nat.le_succ _)
      · rw [List.mem_singleton.mp ha]
        exact le_rfl

/-! ## The two sources -/

/-- `since` is a strict bound, a cursor is not. -/
theorem filter_since (want : TelemetryEvent → Bool) (log : List TelemetryEvent) (c : ℕ) :
    (log.filter fun e => decide (c - 1 < e.seq) && want e) =
    ahead TelemetryEvent.seq want c log := by
  refine List.filter_congr fun e _ => ?_
  have hpos := e.seq_pos
  rw [decide_eq_decide.mpr (by omega : c - 1 < e.seq ↔ c ≤ e.seq)]

theorem ringPage_eq (q : TelemetryQuery) (log : List TelemetryEvent) (c : ℕ) :
    let found := ahead TelemetryEvent.seq q.ringKeeps c (lastOf ringBufferSize log)
    let shown := if found.length > q.limit then lastOf q.limit found else found
    ringPage q log c
      = ⟨shown, if shown.length = q.limit then shown.getLast?.map (·.seq + 1) else none⟩ := by
  simp only [ringPage, Ring.get, filter_since, TelemetryPage.page]
  rw [apply_ite (Option.map (· + 1)), Option.map_map, Option.map_none]
  rfl

/-- `read_recent` gives the newest lines it keeps, as many as are still asked for. -/
theorem readRecent_eq (q : TelemetryQuery) (since n : ℕ) (lines : List TelemetryEvent)
    (hn : n < q.limit) :
    readRecent q since n lines
      = (lines.filter fun e => decide (since < e.seq) && q.fileKeeps e).take (q.limit - n) := by
  induction lines generalizing n with
  | nil => rw [readRecent, List.filter_nil, List.take_nil]
  | cons e lines ih =>
    have hpos := e.seq_pos
    rw [readRecent]
    split
    · rename_i hold
      rw [ih n hn, List.filter_cons_of_neg]
      simp [hold.2]
    · rename_i hnew
      have hlt : since < e.seq := by omega
      split
      · rename_i hk
        rw [ih n hn, List.filter_cons_of_neg]
        simpa using fun _ => hk
      · rename_i hk
        have hkeep : q.fileKeeps e = true := by simpa using hk
        rw [List.filter_cons_of_pos (by simp [hlt, hkeep])]
        split
        · have hone : q.limit - n = 1 := by omega
          rw [hone, List.take_succ_cons, List.take_zero]
        · have hmore : q.limit - n = q.limit - (n + 1) + 1 := by omega
          rw [ih (n + 1) (by omega), hmore, List.take_succ_cons]

theorem filePage_eq (q : TelemetryQuery) (log : List TelemetryEvent) (c : ℕ) :
    let shown := (ahead TelemetryEvent.seq q.fileKeeps c log).reverse.take q.limit
    filePage q log c = ⟨shown, shown.getLast?.map (·.seq + 1)⟩ := by
  have hread := readRecent_eq q (c - 1) 0 log.reverse q.limit_pos
  rw [List.filter_reverse, filter_since, Nat.sub_zero] at hread
  simp only [filePage, fileEvents, TelemetryPage.page, hread, Option.map_map]
  rfl

/-- A cursor past the last of what is ahead leaves nothing. -/
theorem rest_last {want : TelemetryEvent → Bool} {log : List TelemetryEvent} {c : ℕ}
    (hlog : Ascending TelemetryEvent.seq log) {first : List TelemetryEvent} {e : TelemetryEvent}
    (h : ahead TelemetryEvent.seq want c log = first ++ [e]) :
    ahead TelemetryEvent.seq want (e.seq + 1) log = [] := by
  have hasc : Ascending TelemetryEvent.seq (ahead TelemetryEvent.seq want c log) := hlog.ahead c
  rw [h] at hasc
  have hmem : e ∈ ahead TelemetryEvent.seq want c log := by
    rw [h]
    exact List.mem_append_right _ (List.mem_singleton_self _)
  have hsplit : ahead TelemetryEvent.seq want c log = first ++ [e] ++ [] := by
    rw [h, List.append_nil]
  refine ahead_of_split hsplit
    ((mem_ahead.mp hmem).2.1.trans (Nat.le_succ _)) (fun x hx => ?_) (by rintro _ ⟨⟩)
  rcases List.mem_append.mp hx with hx | hx
  · exact Nat.lt_succ_of_lt ((List.pairwise_append.mp hasc).2.2 x hx e (List.mem_singleton_self _))
  · rw [List.mem_singleton.mp hx]
    exact Nat.lt_succ_self _

/-- A page that shows all that is ahead, in order, is exact. -/
theorem exact_of_all {want : TelemetryEvent → Bool} {log : List TelemetryEvent} {c : ℕ}
    (hlog : Ascending TelemetryEvent.seq log) {p : Page TelemetryEvent}
    (hitems : p.items = ahead TelemetryEvent.seq want c log)
    (hnext : ∀ n, p.next = some n → p.items.getLast?.map (·.seq + 1) = some n) :
    p.Exact TelemetryEvent.seq want id log c := by
  have hlast : ∀ n, p.next = some n → ∃ first e,
      ahead TelemetryEvent.seq want c log = first ++ [e] ∧ n = e.seq + 1 := by
    intro n hn
    obtain ⟨e, he, rfl⟩ := Option.map_eq_some_iff.mp (hnext n hn)
    obtain ⟨first, hfirst⟩ := List.getLast?_eq_some_iff.mp he
    exact ⟨first, e, hitems ▸ hfirst, rfl⟩
  refine ⟨⟨p.items, (List.map_id _).symm, ?_⟩, fun h => ?_, fun n hn => ?_⟩
  · cases hn : p.next with
    | none => rw [rest, hitems, List.append_nil]
    | some n =>
      obtain ⟨first, e, hall, rfl⟩ := hlast n hn
      rw [rest, rest_last hlog hall, hitems, List.append_nil]
  · obtain ⟨n, hn⟩ := Option.isSome_iff_exists.mp h
    obtain ⟨first, e, hall, -⟩ := hlast n hn
    rw [hitems, hall]
    simp
  · obtain ⟨first, e, hall, rfl⟩ := hlast n hn
    refine ⟨e, ?_, le_rfl⟩
    exact (mem_ahead.mp (hall ▸ List.mem_append_right _ (List.mem_singleton_self _) :
      e ∈ ahead TelemetryEvent.seq want c log)).1

/-- A page of the ring is exact where no more is ahead than the limit lets through. -/
theorem ringPage_exact_iff (q : TelemetryQuery) {log : List TelemetryEvent} {c : ℕ}
    (hlog : Ascending TelemetryEvent.seq log) :
    (ringPage q log c).Exact TelemetryEvent.seq q.ringKeeps id (lastOf ringBufferSize log) c ↔
      (ahead TelemetryEvent.seq q.ringKeeps c (lastOf ringBufferSize log)).length ≤ q.limit := by
  have hasc : Ascending TelemetryEvent.seq (lastOf ringBufferSize log) :=
    hlog.sublist (lastOf_sublist _ _)
  have heq := ringPage_eq q log c
  constructor
  · intro h
    by_contra hmore
    rw [not_le] at hmore
    generalize hf : ahead TelemetryEvent.seq q.ringKeeps c (lastOf ringBufferSize log) = found
      at heq hmore
    -- the newest `limit` of them are shown, and the cursor is past the newest of all
    have hlen : (lastOf q.limit found).length = q.limit := by
      rw [lastOf, List.length_drop]
      omega
    obtain ⟨first, e, rfl⟩ : ∃ first e, found = first ++ [e] :=
      ⟨_, _, (List.dropLast_append_getLast (List.ne_nil_of_length_pos (by omega))).symm⟩
    have hlast : (lastOf q.limit (first ++ [e])).getLast? = some e := by
      have hpos := q.limit_pos
      rw [lastOf, List.drop_append_of_le_length, List.getLast?_concat]
      rw [List.length_append, List.length_singleton]
      omega
    simp only [if_pos hmore, hlen, if_true, hlast, Option.map_some] at heq
    obtain ⟨shown, hitems, hsplit⟩ := h.split
    rw [List.map_id, heq] at hitems
    rw [heq, rest, rest_last hasc hf, List.append_nil, hf, ← hitems] at hsplit
    dsimp only at hsplit
    rw [hsplit] at hlen
    omega
  · intro hle
    rw [heq]
    simp only [if_neg (not_lt.mpr hle)]
    refine exact_of_all hasc rfl fun n hn => ?_
    dsimp only at hn ⊢
    split at hn
    · exact hn
    · cases hn

/-- A page of the file is exact where at most one event is ahead. -/
theorem filePage_exact_iff (q : TelemetryQuery) {log : List TelemetryEvent} {c : ℕ}
    (hlog : Ascending TelemetryEvent.seq log) :
    (filePage q log c).Exact TelemetryEvent.seq q.fileKeeps id log c ↔
      (ahead TelemetryEvent.seq q.fileKeeps c log).length ≤ 1 := by
  have heq := filePage_eq q log c
  constructor
  · intro h
    obtain ⟨shown, hitems, hsplit⟩ := h.split
    rw [List.map_id, heq] at hitems
    have hasc : Ascending TelemetryEvent.seq (ahead TelemetryEvent.seq q.fileKeeps c log) :=
      hlog.ahead c
    generalize ahead TelemetryEvent.seq q.fileKeeps c log = found at hitems hsplit hasc ⊢
    by_contra hmore
    rw [not_le] at hmore
    match found, hmore with
    | e :: more, hmore =>
      obtain ⟨mid, e', rfl⟩ : ∃ mid e', more = mid ++ [e'] :=
        ⟨_, _, (List.dropLast_append_getLast
          (List.ne_nil_of_length_pos (Nat.lt_of_succ_lt_succ hmore))).symm⟩
      -- the newest stands first on the page, the oldest first in the log
      have hlt : e.seq < e'.seq := List.rel_of_pairwise_cons hasc (by simp)
      obtain ⟨k, hk⟩ : ∃ k, q.limit = k + 1 := ⟨q.limit - 1, by have := q.limit_pos; omega⟩
      simp only [List.reverse_cons, List.reverse_append, List.reverse_nil, List.nil_append, hk,
        List.cons_append, List.take_succ_cons] at hitems
      rw [← hitems, List.cons_append] at hsplit
      rw [(List.cons.inj hsplit).1] at hlt
      exact lt_irrefl _ hlt
  · intro hle
    have hall : (ahead TelemetryEvent.seq q.fileKeeps c log).reverse.take q.limit
        = ahead TelemetryEvent.seq q.fileKeeps c log := by
      have hpos := q.limit_pos
      rw [List.take_of_length_le (by rw [List.length_reverse]; omega)]
      cases hf : ahead TelemetryEvent.seq q.fileKeeps c log with
      | nil => rfl
      | cons e rest =>
        rw [hf, List.length_cons] at hle
        rw [List.eq_nil_of_length_eq_zero (by omega : rest.length = 0)]
        rfl
    rw [heq]
    simp only [hall]
    exact exact_of_all hlog rfl fun n hn => hn

/-! ## Readers -/

/-- A reader that began at `since` has read matching events once each; and when it
is through, all that were kept of a log that extends the one it began with. -/
def ReadOnce (keep : List TelemetryEvent → List TelemetryEvent) (want : TelemetryEvent → Bool)
    (log : List TelemetryEvent) (since : ℕ) (r : Reader TelemetryEvent TelemetryEvent) : Prop :=
  r.seen.Nodup ∧ (∀ e ∈ r.seen, e ∈ r.log ∧ since < e.seq ∧ want e = true) ∧
  (r.cursor = none → ∃ log', log <+: log' ∧ log' <+: r.log ∧
    ∀ e ∈ keep log', since < e.seq → want e = true → e ∈ r.seen)

theorem readOnce_of_sound {keep : List TelemetryEvent → List TelemetryEvent}
    {want : TelemetryEvent → Bool} {log : List TelemetryEvent} {since : ℕ}
    {r : Reader TelemetryEvent TelemetryEvent}
    (h : r.Sound TelemetryEvent.seq id keep want log (since + 1)) :
    ReadOnce keep want log since r := by
  obtain ⟨visited, hread⟩ := h.read
  have hseen := hread.1
  rw [List.map_id] at hseen
  rw [ReadOnce, hseen]
  refine ⟨hread.2.1.nodup, fun e he => mem_ahead.mp (hread.2.2.1 e he), fun hd => ?_⟩
  obtain ⟨log', hpre, hpre', hall⟩ := hread.through hd
  exact ⟨log', hpre, hpre', fun e he hs hw => hall e (mem_ahead.mpr ⟨he, hs, hw⟩)⟩

/-- The reader of a process that has emitted `es`, before its first request. -/
def readerOf (es : List (String × Dict)) (since : ℕ) : Reader TelemetryEvent TelemetryEvent :=
  ⟨(emitted es).lines, some (since + 1), []⟩

/-- Whatever is emitted between the requests, a reader of the ring none of whose
requests finds more matching events than the limit lets through, and a reader of the
file none of whose requests finds more than one, has read every matching event once
when it is through; and these are the requests that are answered exactly. -/
theorem telemetry_paging_when (es : List (String × Dict)) (q : TelemetryQuery) (since : ℕ) :
    (∀ r, Reads TelemetryEvent.seq
        (fun log c => (ahead TelemetryEvent.seq q.ringKeeps c
          (lastOf ringBufferSize log)).length ≤ q.limit)
        (ringPage q) (readerOf es since) r →
      ReadOnce (lastOf ringBufferSize) q.ringKeeps (emitted es).lines since r) ∧
    (∀ r, Reads TelemetryEvent.seq
        (fun log c => (ahead TelemetryEvent.seq q.fileKeeps c log).length ≤ 1)
        (filePage q) (readerOf es since) r →
      ReadOnce id q.fileKeeps (emitted es).lines since r) ∧
    (∀ log c, Ascending TelemetryEvent.seq log →
      ((ringPage q log c).Exact TelemetryEvent.seq q.ringKeeps id (lastOf ringBufferSize log) c ↔
        (ahead TelemetryEvent.seq q.ringKeeps c (lastOf ringBufferSize log)).length ≤ q.limit) ∧
      ((filePage q log c).Exact TelemetryEvent.seq q.fileKeeps id log c ↔
        (ahead TelemetryEvent.seq q.fileKeeps c log).length ≤ 1)) := by
  have hasc := (emitted_spec es).2.1
  refine ⟨fun r hr => ?_, fun r hr => ?_, fun log c h =>
    ⟨ringPage_exact_iff q h, filePage_exact_iff q h⟩⟩
  · exact readOnce_of_sound ((Reader.Sound.start hasc (since + 1)).reads (lastOf_sublist _)
      (lastOf_append_subset _) (fun log c h hmay => (ringPage_exact_iff q h).mpr hmay) hr)
  · exact readOnce_of_sound ((Reader.Sound.start hasc (since + 1)).reads
      (fun _ => List.Sublist.refl _) (fun _ _ => List.Subset.refl _)
      (fun log c h hmay => (filePage_exact_iff q h).mpr hmay) hr)

/-- An event, then another between two requests, each read once. -/
theorem telemetry_paging_when_one_each :
    let q : TelemetryQuery := ⟨none, 1, by decide, by decide⟩
    let es : List (String × Dict) := [("queue_enter", [])]
    let e : TelemetryEvent := ⟨2, "completion", [], by decide⟩
    let r := Reader.ask (filePage q) (readerOf es 0)
    let r' := Reader.ask (filePage q) { r with log := r.log ++ [e] }
    r'.seen.map (·.seq) = [1, 2] ∧ ReadOnce id q.fileKeeps (emitted es).lines 0 r' := by
  intro q es e r r'
  refine ⟨by decide +kernel, (telemetry_paging_when es q 0).2.1 r' ?_⟩
  refine .tail (.tail (.tail .refl (.ask _ ?_)) (.append _ e ?_)) (.ask _ ?_)
  · intro c hc
    rw [← Option.some.inj hc]
    decide +kernel
  · decide +kernel
  · intro c hc
    rw [← Option.some.inj (hc : some 2 = some c)]
    decide +kernel

/-- Three events and a limit of two: the ring passes the first over.  Two events:
the file shows the second twice. -/
theorem telemetry_paging_skips_and_repeats :
    ¬ (∀ es q since r, Reads TelemetryEvent.seq (fun _ _ => True) (ringPage q)
    (readerOf es since) r →
        ReadOnce (lastOf ringBufferSize) q.ringKeeps (emitted es).lines since r) ∧
    ¬ (∀ es q since r, Reads TelemetryEvent.seq (fun _ _ => True) (filePage q)
    (readerOf es since) r →
        ReadOnce id q.fileKeeps (emitted es).lines since r) := by
  let q : TelemetryQuery := ⟨none, 2, by decide, by decide⟩
  let es : List (String × Dict) := [("queue_enter", []), ("slot_assign", []), ("completion", [])]
  constructor
  · intro h
    let r := Reader.ask (ringPage q) (Reader.ask (ringPage q) (readerOf es 0))
    have hr : Reads TelemetryEvent.seq (fun _ _ => True) (ringPage q) (readerOf es 0) r :=
      .tail (.tail .refl (.ask _ fun _ _ => trivial)) (.ask _ fun _ _ => trivial)
    have hseen : r.seen.map (·.seq) = [2, 3] := by decide +kernel
    have hlog : r.log = (emitted es).lines := by
      rw [Reader.ask_log, Reader.ask_log]
      rfl
    obtain ⟨-, -, hall⟩ := h es q 0 r hr
    obtain ⟨log', hpre, hpre', hmem⟩ := hall (by decide +kernel)
    rw [hlog] at hpre'
    rw [hpre'.eq_of_length_le hpre.length_le] at hmem
    have hkept : lastOf ringBufferSize (emitted es).lines = (emitted es).lines := by
      have hsize : (emitted es).lines.length - ringBufferSize = 0 := by decide +kernel
      rw [lastOf, hsize, List.drop_zero]
    rw [hkept] at hmem
    have hfirst : 1 ∈ r.seen.map (·.seq) :=
      List.mem_map_of_mem (hmem ⟨1, "queue_enter", [], by decide⟩ List.mem_cons_self
      (by decide) rfl)
    rw [hseen] at hfirst
    exact absurd hfirst (by decide)
  · intro h
    let r := Reader.ask (filePage q) (Reader.ask (filePage q) (readerOf (es.take 2) 0))
    have hr : Reads TelemetryEvent.seq (fun _ _ => True) (filePage q) (readerOf (es.take 2) 0) r :=
      .tail (.tail .refl (.ask _ fun _ _ => trivial)) (.ask _ fun _ _ => trivial)
    have hnodup := (h _ q 0 r hr).1
    have hseen : r.seen = [⟨2, "slot_assign", [], by decide⟩, ⟨1, "queue_enter", [], by decide⟩,
        ⟨2, "slot_assign", [], by decide⟩] := rfl
    rw [hseen] at hnodup
    exact (List.nodup_cons.mp hnodup).1 (by simp)

end Turbohaul.Telemetry
