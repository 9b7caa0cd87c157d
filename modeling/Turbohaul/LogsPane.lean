/-
# `LogsPane` — the log view of the dashboard beside the log

`useLogging.ts`: a fetch that resets shows a page from the start, one that appends
shows the page at the cursor of the last.  Every fetch makes those before it stale; a
reply that is stale is thrown away.  Meanwhile rows are appended, the filters change,
and requests fail.

  `buildUrl`              `LoggingFilters.query`, the request it stands for
  `setEvents`             `capped`
  the body of `fetchPage` `Hook.fetchPage`, and `Hook.settle` for the rest after `await`
  `loadMore`              `Step.more`
  `Shown`, `Window`       what is shown of the rows, and of those that match
  `Window.goOn`           a page goes on from a window
  `logs_show_window`

A reset that fails leaves the events of the filters before it, with their cursor, and
`loadMore` then goes on from there with the new ones: the events stay ascending, but
they are no longer what any filters let through.
-/
import Turbohaul.AuditLog

namespace Turbohaul.Audit

open Paging

/-- A space of `trim`. -/
def jsIsSpace (c : Char) : Bool :=
  let n := c.toNat
  (9 ≤ n && n ≤ 13) || n = 32 || n = 0xA0 || n = 0x1680 || (0x2000 ≤ n && n ≤ 0x200A) ||
    n = 0x2028 || n = 0x2029 || n = 0x202F || n = 0x205F || n = 0x3000 || n = 0xFEFF

/-- `s.trim()`. -/
def jsTrim (s : String) : String :=
  String.ofList (((s.toList.dropWhile jsIsSpace).reverse.dropWhile jsIsSpace).reverse)

/-- `LoggingFilters`. -/
structure LoggingFilters where
  slotId : String
  eventType : String
  limit : Int
deriving DecidableEq

/-- A filter that is sent: none if it is blank. -/
def sentFilter (s : String) : Option String := if jsTrim s = "" then none else some (jsTrim s)

/-- `buildUrl`, without the cursor. -/
def LoggingFilters.query (f : LoggingFilters) : AuditQuery :=
  ⟨sentFilter f.slotId, sentFilter f.eventType, f.limit⟩

/-- `MAX_ACCUMULATED_EVENTS`. -/
def maxAccumulatedEvents : ℕ := 2000

/-- `fetchPage` after its `await fetch`: a reply, or none yet; none of a reply is an error. -/
structure Fetch where
  epoch : ℕ
  filters : LoggingFilters
  since : ℕ
  append : Bool
  reply : Option (Option AuditPage) := none

/-- The state of the hook. -/
structure Hook where
  filters : LoggingFilters
  events : List AuditEvent := []
  nextSince : Option ℕ := some 0
  oversized : Bool := false
  loading : Bool := false
  error : Bool := false
  epoch : ℕ := 0

/-- `fetchPage` as far as its `await`. -/
def Hook.fetchPage (h : Hook) (since : ℕ) (append : Bool) : Hook × Fetch :=
  ({ h with epoch := h.epoch + 1, loading := true }, ⟨h.epoch + 1, h.filters, since, append, none⟩)

/-- The newest tail. -/
def capped (merged : List AuditEvent) : List AuditEvent :=
  if merged.length > maxAccumulatedEvents then merged.drop (merged.length - maxAccumulatedEvents)
  else merged

/-- And the rest of it, once there is a reply. -/
def Hook.settle (h : Hook) (f : Fetch) (reply : Option AuditPage) : Hook :=
  if f.epoch ≠ h.epoch then h
  else match reply with
    | none => { h with error := true, loading := false }
    | some page =>
      { h with
        events := capped (if f.append then h.events ++ page.events else page.events)
        nextSince := page.nextSince
        oversized := page.oversized
        error := false
        loading := false }

/-- `hasMore`. -/
def Hook.hasMore (h : Hook) : Bool := h.nextSince.isSome && h.events.length < maxAccumulatedEvents

/-- The hook, its fetches, and the table of the manager; the filters of all that is
shown, if they are the same, and whether a request failed. -/
structure LogsState where
  hook : Hook
  fetches : List Fetch := []
  table : List AuditRow := []
  shownFor : Option LoggingFilters := none
  failed : Bool := false

/-- A fetch starts. -/
def LogsState.fetch (s : LogsState) (filters : LoggingFilters) (since : ℕ) (append : Bool) :
    LogsState :=
  let r := { s.hook with filters }.fetchPage since append
  { s with hook := r.1, fetches := s.fetches ++ [r.2] }

/-- The filters of what is shown after a fetch has settled. -/
def LogsState.shown (s : LogsState) (f : Fetch) (reply : Option AuditPage) :
    Option LoggingFilters :=
  if f.epoch ≠ s.hook.epoch ∨ reply.isNone then s.shownFor
  else if !f.append ∨ s.shownFor = some f.filters then some f.filters
  else none

variable (F : Interpreter)

/-- What may happen.  A row gets an id past all others. -/
inductive LogsStep : LogsState → LogsState → Prop
  | log {s : LogsState} {row : AuditRow} : (∀ r ∈ s.table, r.eventId < row.eventId) →
      LogsStep s { s with table := s.table ++ [row] }
  | filter {s : LogsState} (filters : LoggingFilters) : filters ≠ s.hook.filters →
      LogsStep s (s.fetch filters 0 false)
  | refresh (s : LogsState) : LogsStep s (s.fetch s.hook.filters 0 false)
  | more {s : LogsState} {n : ℕ} : s.hook.hasMore = true → s.hook.loading = false →
      s.hook.nextSince = some n → LogsStep s (s.fetch s.hook.filters n true)
  | serve {s : LogsState} {before after : List Fetch} {f : Fetch} {page : AuditPage} :
      s.fetches = before ++ f :: after → f.reply = none →
      getLogging F f.filters.query s.table f.since = some page →
      LogsStep s { s with fetches := before ++ { f with reply := some (some page) } :: after }
  | fail {s : LogsState} {before after : List Fetch} {f : Fetch} :
      s.fetches = before ++ f :: after →
      LogsStep s { s with
        fetches := before ++ { f with reply := some none } :: after
        failed := true }
  | settle {s : LogsState} {before after : List Fetch} {f : Fetch} {reply : Option AuditPage} :
      s.fetches = before ++ f :: after → f.reply = some reply →
      LogsStep s { s with
        hook := s.hook.settle f reply
        fetches := before ++ after
        shownFor := s.shown f reply }

/-- What comes of a mount. -/
inductive LogsReachable : LogsState → Prop
  | mount (filters : LoggingFilters) (table : List AuditRow) : Ascending AuditRow.eventId table →
      LogsReachable (LogsState.fetch { hook := { filters }, table } filters 0 false)
  | step {s s' : LogsState} : LogsReachable s → LogsStep F s s' → LogsReachable s'

/-! ## What is shown -/

variable {F}

theorem capped_eq (merged : List AuditEvent) :
    capped merged = merged.drop (merged.length - maxAccumulatedEvents) := by
  rw [capped]
  split
  · rfl
  · rename_i h
    rw [Nat.sub_eq_zero_of_le (Nat.le_of_not_lt h), List.drop_zero]

theorem capped_length (merged : List AuditEvent) :
    (capped merged).length ≤ maxAccumulatedEvents := by
  rw [capped_eq, List.length_drop]
  omega

/-- The events are rows of the table, in order and each once, and before the cursor. -/
def Shown (F : Interpreter) (table : List AuditRow) (events : List AuditEvent) (next : Option ℕ) :
    Prop :=
  ∃ rows, events = rows.map (AuditRow.event F) ∧ Ascending AuditRow.eventId rows ∧ rows ⊆ table ∧
    ∀ n, next = some n → ∀ row ∈ rows, row.eventId < n

/-- The events are a run of the rows that match, without a gap; those before it were cut
off, and the cursor stands at those behind it. -/
def Window (F : Interpreter) (filters : LoggingFilters) (table : List AuditRow)
    (events : List AuditEvent) (next : Option ℕ) : Prop :=
  ∃ front shown back, table.filter filters.query.keeps = front ++ shown ++ back ∧
    events = shown.map (AuditRow.event F) ∧
    (front ≠ [] → events.length = maxAccumulatedEvents) ∧
    ∀ n, next = some n → (∀ row ∈ front ++ shown, row.eventId < n) ∧
      (∀ row ∈ back, n ≤ row.eventId) ∧ ∃ row ∈ table, n ≤ row.eventId + 1

section

variable {table t₀ : List AuditRow} {filters : LoggingFilters} {events : List AuditEvent}
  {next : Option ℕ} {row : AuditRow} {page : AuditPage} {n : ℕ}

theorem Shown.log (h : Shown F table events next) : Shown F (table ++ [row]) events next := by
  obtain ⟨rows, hrows, hasc, hsub, hlt⟩ := h
  exact ⟨rows, hrows, hasc, fun r hr => List.mem_append_left _ (hsub hr), hlt⟩

theorem Window.log (h : Window F filters table events next)
    (hrow : ∀ r ∈ table, r.eventId < row.eventId) :
    Window F filters (table ++ [row]) events next := by
  obtain ⟨front, shown, back, hsplit, hevents, hfront, hcursor⟩ := h
  refine ⟨front, shown, back ++ [row].filter filters.query.keeps, ?_, hevents, hfront, ?_⟩
  · rw [List.filter_append, hsplit, List.append_assoc]
  · intro n hn
    obtain ⟨hlt, hge, last, hlast, hreach⟩ := hcursor n hn
    refine ⟨hlt, fun r hr => ?_, last, List.mem_append_left _ hlast, hreach⟩
    rcases List.mem_append.mp hr with hr | hr
    · exact hge r hr
    · have hr' := List.mem_singleton.mp (List.mem_filter.mp hr).1
      have hlast' := hrow last hlast
      rw [hr']
      omega

theorem ahead_zero (q : AuditQuery) (table : List AuditRow) :
    ahead AuditRow.eventId q.keeps 0 table = table.filter q.keeps := by
  simp only [ahead, Nat.zero_le, decide_true, Bool.true_and]

/-- What an exact page shows lies before its cursor. -/
theorem page_lt {shown : List AuditRow} (hasc : Ascending AuditRow.eventId t₀)
    (hsplit : shown ++ rest AuditRow.eventId filters.query.keeps next t₀ =
      ahead AuditRow.eventId filters.query.keeps n t₀)
    (hn : next = some m) : ∀ row ∈ shown, row.eventId < m := by
  intro row hrow
  by_contra hge
  have hahead : row ∈ ahead AuditRow.eventId filters.query.keeps n t₀ :=
    hsplit ▸ List.mem_append_left _ hrow
  obtain ⟨hmem, -, hkeeps⟩ := mem_ahead.mp hahead
  have hagain : row ∈ rest AuditRow.eventId filters.query.keeps next t₀ := by
    rw [hn]
    exact mem_ahead.mpr ⟨hmem, Nat.le_of_not_lt hge, hkeeps⟩
  have hnodup : (shown ++ rest AuditRow.eventId filters.query.keeps next t₀).Nodup :=
    hsplit ▸ (hasc.ahead n).nodup
  exact (List.nodup_append.mp hnodup).2.2 row hrow row hagain rfl

/-- A page of the table as it was goes on from what is shown. -/
theorem Window.goOn {shown : List AuditRow} (hasc : Ascending AuditRow.eventId table)
    (hpre : t₀ <+: table)
    (hsplit : table.filter filters.query.keeps =
      shown ++ ahead AuditRow.eventId filters.query.keeps n table)
    (hlt : ∀ row ∈ shown, row.eventId < n)
    (hpage : page.page.Exact AuditRow.eventId filters.query.keeps (AuditRow.event F) t₀ n) :
    Window F filters table
    (capped (shown.map (AuditRow.event F) ++ page.events)) page.nextSince := by
  obtain ⟨t₁, rfl⟩ := hpre
  obtain ⟨shownP, hitems, hrest⟩ := hpage.split
  have hitems : page.events = shownP.map (AuditRow.event F) := hitems
  have hasc₀ := (List.pairwise_append.mp hasc).1
  have hcross := (List.pairwise_append.mp hasc).2.2
  have hahead : ahead AuditRow.eventId filters.query.keeps n (t₀ ++ t₁) =
      shownP ++ (rest AuditRow.eventId filters.query.keeps page.nextSince t₀ ++
        ahead AuditRow.eventId filters.query.keeps n t₁) := by
    rw [ahead, List.filter_append, ← List.append_assoc]
    exact congrArg (· ++ _) hrest.symm
  set all := shown ++ shownP
  set k := all.length - maxAccumulatedEvents
  refine ⟨all.take k, all.drop k, rest AuditRow.eventId filters.query.keeps page.nextSince t₀ ++
    ahead AuditRow.eventId filters.query.keeps n t₁, ?_, ?_, ?_, ?_⟩
  · rw [List.take_append_drop, hsplit, hahead, List.append_assoc]
  · rw [hitems, ← List.map_append, capped_eq, List.length_map, List.map_drop]
  · intro hne
    have hk : k ≠ 0 := by
      intro hk
      rw [hk, List.take_zero] at hne
      exact hne rfl
    rw [hitems, ← List.map_append, capped_eq, List.length_drop, List.length_map]
    exact Nat.sub_sub_self (Nat.le_of_lt (Nat.lt_of_sub_ne_zero hk))
  · intro m hm
    have hnm : n < m := hpage.lt_next hm
    obtain ⟨last, hlast, hreach⟩ := hpage.reach m hm
    refine ⟨fun row hrow => ?_, fun row hrow => ?_, last, List.mem_append_left _ hlast, hreach⟩
    · rw [List.take_append_drop] at hrow
      rcases List.mem_append.mp hrow with hrow | hrow
      · exact Nat.lt_trans (hlt row hrow) hnm
      · exact page_lt hasc₀ hrest hm row hrow
    · rcases List.mem_append.mp hrow with hrow | hrow
      · rw [hm] at hrow
        exact (mem_ahead.mp hrow).2.1
      · have hrow' := hcross last hlast row (mem_ahead.mp hrow).1
        omega

theorem Shown.goOn {rows : List AuditRow} (hasc : Ascending AuditRow.eventId table)
    (hpre : t₀ <+: table) (hrows : Ascending AuditRow.eventId rows) (hsub : rows ⊆ table)
    (hlt : ∀ row ∈ rows, row.eventId < n)
    (hpage : page.page.Exact AuditRow.eventId filters.query.keeps (AuditRow.event F) t₀ n) :
    Shown F table (capped (rows.map (AuditRow.event F) ++ page.events)) page.nextSince := by
  obtain ⟨shownP, hitems, hrest⟩ := hpage.split
  have hitems : page.events = shownP.map (AuditRow.event F) := hitems
  have hasc₀ : Ascending AuditRow.eventId t₀ := hasc.sublist hpre.sublist
  have hmem : ∀ row ∈ shownP, row ∈ t₀ ∧ n ≤ row.eventId := by
    intro row hrow
    have hrow' := mem_ahead.mp (hrest ▸ List.mem_append_left _ hrow)
    exact ⟨hrow'.1, hrow'.2.1⟩
  have hall : Ascending AuditRow.eventId (rows ++ shownP) := by
    refine List.pairwise_append.mpr ⟨hrows, ?_, fun a ha b hb => ?_⟩
    · exact (List.pairwise_append.mp (hrest ▸ hasc₀.ahead n)).1
    · exact Nat.lt_of_lt_of_le (hlt a ha) (hmem b hb).2
  set k := (rows ++ shownP).length - maxAccumulatedEvents
  refine ⟨(rows ++ shownP).drop k, ?_, hall.sublist (List.drop_sublist _ _), ?_, ?_⟩
  · rw [hitems, ← List.map_append, capped_eq, List.length_map, List.map_drop]
  · intro row hrow
    rcases List.mem_append.mp (List.mem_of_mem_drop hrow) with hrow | hrow
    · exact hsub hrow
    · exact hpre.subset (hmem row hrow).1
  · intro m hm row hrow
    rcases List.mem_append.mp (List.mem_of_mem_drop hrow) with hrow | hrow
    · exact Nat.lt_trans (hlt row hrow) (hpage.lt_next hm)
    · exact page_lt hasc₀ hrest hm row hrow

end

/-! ## The hook beside the log -/

/-- The invariant.  A fetch that is not stale is the only one of its kind; if it appends
it asks at the cursor. -/
structure LogsSound (F : Interpreter) (s : LogsState) : Prop where
  ascending : Ascending AuditRow.eventId s.table
  shown : Shown F s.table s.hook.events s.hook.nextSince
  bounded : s.hook.events.length ≤ maxAccumulatedEvents
  window : ∀ filters, s.shownFor = some filters →
    Window F filters s.table s.hook.events s.hook.nextSince
  epochs : (s.fetches.map (·.epoch)).Nodup
  past : ∀ f ∈ s.fetches, f.epoch ≤ s.hook.epoch
  replies : ∀ f ∈ s.fetches, ∀ page, f.reply = some (some page) → ∃ t₀, t₀ <+: s.table ∧
    page.page.Exact AuditRow.eventId f.filters.query.keeps (AuditRow.event F) t₀ f.since
  current : ∀ f ∈ s.fetches, f.epoch = s.hook.epoch → f.filters = s.hook.filters
  resets : ∀ f ∈ s.fetches, f.append = false → f.since = 0
  appends : ∀ f ∈ s.fetches, f.epoch = s.hook.epoch → f.append = true →
    s.hook.nextSince = some f.since ∧ s.hook.events.length < maxAccumulatedEvents ∧
      (s.failed = false → s.shownFor = some s.hook.filters)
  errors : ∀ f ∈ s.fetches, f.reply = some none → s.failed = true
  loaded : s.failed = false → s.hook.loading = false → s.shownFor = some s.hook.filters

namespace LogsSound

variable {s : LogsState}

theorem log (H : LogsSound F s) {row : AuditRow} (hrow : ∀ r ∈ s.table, r.eventId < row.eventId) :
    LogsSound F { s with table := s.table ++ [row] } where
  ascending := by
    refine List.pairwise_append.mpr ⟨H.ascending, List.pairwise_singleton _ _,
      fun r hr r' hr' => ?_⟩
    rw [List.mem_singleton.mp hr']
    exact hrow r hr
  shown := H.shown.log
  bounded := H.bounded
  window filters hfilters := (H.window filters hfilters).log hrow
  epochs := H.epochs
  past := H.past
  replies f hf page hpage := by
    obtain ⟨t₀, hpre, hexact⟩ := H.replies f hf page hpage
    exact ⟨t₀, hpre.trans (List.prefix_append _ _), hexact⟩
  current := H.current
  resets := H.resets
  appends := H.appends
  errors := H.errors
  loaded := H.loaded

/-- A fetch starts: a reset, or at the cursor when all that is loaded is shown. -/
theorem fetch (H : LogsSound F s) {filters : LoggingFilters} {since : ℕ} {append : Bool}
    (hreset : append = false → since = 0)
    (happend : append = true → filters = s.hook.filters ∧ s.hook.nextSince = some since ∧
      s.hook.events.length < maxAccumulatedEvents ∧ s.hook.loading = false) :
    LogsSound F (s.fetch filters since append) where
  ascending := H.ascending
  shown := H.shown
  bounded := H.bounded
  window := H.window
  epochs := by
    show ((s.fetches ++ [_]).map _).Nodup
    rw [List.map_append, List.nodup_append]
    refine ⟨H.epochs, List.pairwise_singleton _ _, fun e he e' he' hee => ?_⟩
    obtain ⟨f, hf, rfl⟩ := List.mem_map.mp he
    have hnew : e' = s.hook.epoch + 1 := List.mem_singleton.mp he'
    have hpast := H.past f hf
    omega
  past f hf := by
    show f.epoch ≤ s.hook.epoch + 1
    rcases List.mem_append.mp hf with hf | hf
    · exact Nat.le_succ_of_le (H.past f hf)
    · rw [List.mem_singleton.mp hf]
      exact Nat.le_refl _
  replies f hf page hpage := by
    rcases List.mem_append.mp hf with hf | hf
    · exact H.replies f hf page hpage
    · rw [List.mem_singleton.mp hf] at hpage
      cases hpage
  current f hf hepoch := by
    rcases List.mem_append.mp hf with hf | hf
    · have hpast := H.past f hf
      have hepoch : f.epoch = s.hook.epoch + 1 := hepoch
      omega
    · rw [List.mem_singleton.mp hf]
      rfl
  resets f hf hf' := by
    rcases List.mem_append.mp hf with hf | hf
    · exact H.resets f hf hf'
    · rw [List.mem_singleton.mp hf] at hf' ⊢
      exact hreset hf'
  appends f hf hepoch hf' := by
    rcases List.mem_append.mp hf with hf | hf
    · have hpast := H.past f hf
      have hepoch : f.epoch = s.hook.epoch + 1 := hepoch
      omega
    · rw [List.mem_singleton.mp hf] at hf' ⊢
      obtain ⟨hfilters, hnext, hlen, hloading⟩ := happend hf'
      refine ⟨hnext, hlen, fun hfailed => ?_⟩
      show s.shownFor = some filters
      rw [hfilters]
      exact H.loaded hfailed hloading
  errors f hf hnone := by
    rcases List.mem_append.mp hf with hf | hf
    · exact H.errors f hf hnone
    · rw [List.mem_singleton.mp hf] at hnone
      cases hnone
  loaded _ hloading := by cases hloading

theorem mount (filters : LoggingFilters) {table : List AuditRow}
    (htable : Ascending AuditRow.eventId table) :
    LogsSound F (LogsState.fetch { hook := { filters }, table } filters 0 false) where
  ascending := htable
  shown := ⟨[], rfl, .nil, List.nil_subset _, fun n _ row hrow => by cases hrow⟩
  bounded := Nat.zero_le _
  window filters hfilters := by cases hfilters
  epochs := List.pairwise_singleton _ _
  past f hf := by
    rw [List.mem_singleton.mp hf]
    exact Nat.le_refl _
  replies f hf page hpage := by
    rw [List.mem_singleton.mp hf] at hpage
    cases hpage
  current f hf _ := by
    rw [List.mem_singleton.mp hf]
    rfl
  resets f hf _ := by
    rw [List.mem_singleton.mp hf]
    rfl
  appends f hf _ happend := by
    rw [List.mem_singleton.mp hf] at happend
    cases happend
  errors f hf hnone := by
    rw [List.mem_singleton.mp hf] at hnone
    cases hnone
  loaded _ hloading := by cases hloading

/-- A request comes to an end. -/
theorem replied (H : LogsSound F s) {before after : List Fetch} {f : Fetch}
    {reply : Option (Option AuditPage)} {failed : Bool} (hf : s.fetches = before ++ f :: after)
    (hpage : ∀ page, reply = some (some page) → ∃ t₀, t₀ <+: s.table ∧
      page.page.Exact AuditRow.eventId f.filters.query.keeps (AuditRow.event F) t₀ f.since)
    (hmore : failed = false → s.failed = false) (herror : reply = some none → failed = true) :
    LogsSound F { s with fetches := before ++ { f with reply } :: after, failed } := by
  have hmem : f ∈ s.fetches := hf ▸ List.mem_append_right _ List.mem_cons_self
  have hcases : ∀ g ∈ before ++ { f with reply } :: after, g ∈ s.fetches ∨
      g = { f with reply } := by
    intro g hg
    rw [hf]
    rcases List.mem_append.mp hg with hg | hg
    · exact .inl (List.mem_append_left _ hg)
    · rcases List.mem_cons.mp hg with rfl | hg
      · exact .inr rfl
      · exact .inl (List.mem_append_right _ (List.mem_cons_of_mem _ hg))
  refine ⟨H.ascending, H.shown, H.bounded, H.window, ?_, ?_, ?_, ?_, ?_, ?_, ?_, ?_⟩
  · have hepochs := H.epochs
    rw [hf, List.map_append, List.map_cons] at hepochs
    rw [List.map_append, List.map_cons]
    exact hepochs
  · intro g hg
    rcases hcases g hg with hg | rfl
    · exact H.past g hg
    · exact H.past f hmem
  · intro g hg page hreply
    rcases hcases g hg with hg | rfl
    · exact H.replies g hg page hreply
    · exact hpage page hreply
  · intro g hg
    rcases hcases g hg with hg | rfl
    · exact H.current g hg
    · exact H.current f hmem
  · intro g hg
    rcases hcases g hg with hg | rfl
    · exact H.resets g hg
    · exact H.resets f hmem
  · intro g hg hepoch happend
    have hold : s.hook.nextSince = some g.since ∧ s.hook.events.length < maxAccumulatedEvents ∧
        (s.failed = false → s.shownFor = some s.hook.filters) := by
      rcases hcases g hg with hg | rfl
      · exact H.appends g hg hepoch happend
      · exact H.appends f hmem hepoch happend
    exact ⟨hold.1, hold.2.1, fun hfailed => hold.2.2 (hmore hfailed)⟩
  · intro g hg hnone
    rcases hcases g hg with hg | rfl
    · by_contra hfailed
      have hfalse := hmore ((Bool.not_eq_true _).mp hfailed)
      rw [H.errors g hg hnone] at hfalse
      cases hfalse
    · exact herror hnone
  · exact fun hfailed => H.loaded (hmore hfailed)

/-- What is left to settle when one fetch has: the others are stale if it was not. -/
theorem others (H : LogsSound F s) {before after : List Fetch} {f : Fetch}
    (hf : s.fetches = before ++ f :: after) :
    (before ++ after).Sublist s.fetches ∧ ((before ++ after).map (·.epoch)).Nodup ∧
      ∀ g ∈ before ++ after, g.epoch ≠ f.epoch := by
  have hsub : (before ++ after).Sublist s.fetches :=
    hf ▸ List.Sublist.append_left (List.sublist_cons_self f after) before
  have hepochs := H.epochs
  rw [hf] at hepochs
  have hperm : ((before ++ f :: after).map (·.epoch)).Perm
      (f.epoch :: (before ++ after).map (·.epoch)) :=
    List.perm_middle.map _
  have hnodup := List.nodup_cons.mp (hperm.nodup_iff.mp hepochs)
  exact ⟨hsub, hnodup.2, fun g hg heq => hnodup.1 (heq ▸ List.mem_map_of_mem hg)⟩

theorem settle (H : LogsSound F s) {before after : List Fetch} {f : Fetch}
    {reply : Option AuditPage}
    (hf : s.fetches = before ++ f :: after) (hreply : f.reply = some reply) :
    LogsSound F { s with
      hook := s.hook.settle f reply, fetches := before ++ after, shownFor := s.shown f reply } := by
  obtain ⟨hsub, hepochs, hne⟩ := H.others hf
  have hmem : f ∈ s.fetches := hf ▸ List.mem_append_right _ List.mem_cons_self
  by_cases hstale : f.epoch ≠ s.hook.epoch
  · have hhook : s.hook.settle f reply = s.hook := if_pos hstale
    have hshown : s.shown f reply = s.shownFor := if_pos (.inl hstale)
    rw [hhook, hshown]
    exact ⟨H.ascending, H.shown, H.bounded, H.window, hepochs, fun g hg => H.past g (hsub.mem hg),
      fun g hg => H.replies g (hsub.mem hg), fun g hg => H.current g (hsub.mem hg),
      fun g hg => H.resets g (hsub.mem hg), fun g hg => H.appends g (hsub.mem hg),
      fun g hg => H.errors g (hsub.mem hg), H.loaded⟩
  rw [not_not] at hstale
  have hothers : ∀ g ∈ before ++ after, g.epoch ≠ s.hook.epoch := fun g hg => hstale ▸ hne g hg
  cases reply with
  | none =>
    have hfailed := H.errors f hmem hreply
    have hhook : s.hook.settle f none = { s.hook with error := true, loading := false } :=
      if_neg (not_not_intro hstale)
    have hshown : s.shown f none = s.shownFor := if_pos (.inr rfl)
    rw [hhook, hshown]
    refine ⟨H.ascending, H.shown, H.bounded, H.window, hepochs, fun g hg => H.past g (hsub.mem hg),
      fun g hg => H.replies g (hsub.mem hg), fun g hg => H.current g (hsub.mem hg),
      fun g hg => H.resets g (hsub.mem hg), fun g hg hg' => absurd hg' (hothers g hg),
      fun g hg => H.errors g (hsub.mem hg), fun hfalse => ?_⟩
    rw [hfailed] at hfalse
    cases hfalse
  | some page =>
    have hfilters := H.current f hmem hstale
    obtain ⟨t₀, hpre, hexact⟩ := H.replies f hmem page hreply
    have hhook : s.hook.settle f (some page) = { s.hook with
        events := capped (if f.append then s.hook.events ++ page.events else page.events)
        nextSince := page.nextSince, oversized := page.oversized, error := false,
        loading := false } :=
      if_neg (not_not_intro hstale)
    have hshown : s.shown f (some page) =
        if !f.append ∨ s.shownFor = some f.filters then some f.filters else none :=
      if_neg (by rw [not_or]; exact ⟨not_not_intro hstale, Bool.false_ne_true⟩)
    -- what is shown now, and that it is of the filters of the fetch if it was before
    have hevents : Shown F s.table
          (capped (if f.append then s.hook.events ++ page.events else page.events)) page.nextSince ∧
        ((!f.append) = true ∨ s.shownFor = some f.filters → Window F f.filters s.table
          (capped (if f.append then s.hook.events ++ page.events
          else page.events)) page.nextSince) := by
      cases happend : f.append with
      | true =>
        obtain ⟨hnext, hlen, -⟩ := H.appends f hmem hstale happend
        obtain ⟨rows, hrows, hasc, hrowsub, hlt⟩ := H.shown
        rw [if_pos rfl]
        constructor
        · rw [hrows]
          exact Shown.goOn H.ascending hpre hasc hrowsub (hlt f.since hnext) hexact
        · intro hfor
          have hfor : s.shownFor = some f.filters := hfor.resolve_left Bool.false_ne_true
          obtain ⟨front, shown, back, hsplit, hview, hfront, hcursor⟩ := H.window f.filters hfor
          have hnil : front = [] := by
            by_contra hfront'
            have hfull := hfront hfront'
            omega
          subst hnil
          obtain ⟨hshownlt, hback, -⟩ := hcursor f.since hnext
          rw [List.nil_append] at hsplit hshownlt
          have hahead : ahead AuditRow.eventId f.filters.query.keeps f.since s.table = back :=
            ahead_of_split ((ahead_zero _ _).trans hsplit) (Nat.zero_le _) hshownlt hback
          rw [hview]
          exact Window.goOn H.ascending hpre (by rw [hsplit, hahead]) hshownlt hexact
      | false =>
        have hzero := H.resets f hmem happend
        rw [if_neg Bool.false_ne_true]
        rw [hzero] at hexact
        constructor
        · exact Shown.goOn H.ascending hpre (show Ascending AuditRow.eventId [] from .nil)
            (List.nil_subset _) (fun row hrow => by cases hrow) hexact
        · intro _
          have hall : s.table.filter f.filters.query.keeps =
              [] ++ ahead AuditRow.eventId f.filters.query.keeps 0 s.table := (ahead_zero _ _).symm
          exact Window.goOn H.ascending hpre hall (fun row hrow => by cases hrow) hexact
    rw [hhook, hshown]
    refine ⟨H.ascending, hevents.1, capped_length _, fun filters hfor => ?_, hepochs,
      fun g hg => H.past g (hsub.mem hg), fun g hg => H.replies g (hsub.mem hg),
      fun g hg => H.current g (hsub.mem hg), fun g hg => H.resets g (hsub.mem hg),
      fun g hg hg' => absurd hg' (hothers g hg), fun g hg => H.errors g (hsub.mem hg),
      fun hfailed _ => ?_⟩
    · change (if (!f.append) = true ∨ s.shownFor = some f.filters then some f.filters else none) =
        some filters at hfor
      split at hfor
      · rename_i hsame
        rw [← Option.some.inj hfor]
        exact hevents.2 hsame
      · cases hfor
    · show (if _ then _ else none) = some s.hook.filters
      rw [← hfilters, if_pos]
      cases happend : f.append with
      | false => exact .inl rfl
      | true =>
        obtain ⟨-, -, hfor⟩ := H.appends f hmem hstale happend
        exact .inr (hfilters ▸ hfor hfailed)

end LogsSound

theorem LogsSound.step {s s' : LogsState} (H : LogsSound F s) (hstep : LogsStep F s s') :
    LogsSound F s' := by
  cases hstep with
  | log hrow => exact H.log hrow
  | filter filters _ => exact H.fetch (fun _ => rfl) fun h => by cases h
  | refresh => exact H.fetch (fun _ => rfl) fun h => by cases h
  | more hmore hloading hnext =>
    refine H.fetch (fun h => by cases h) fun _ => ⟨rfl, hnext, ?_, hloading⟩
    rw [Hook.hasMore, Bool.and_eq_true, decide_eq_true_eq] at hmore
    exact hmore.2
  | serve hf _ hserved =>
    refine H.replied hf (fun page hpage => ?_) id fun h => by cases h
    obtain rfl := Option.some.inj (Option.some.inj hpage)
    exact ⟨s.table, List.prefix_refl _, getLogging_exact H.ascending hserved⟩
  | fail hf =>
    exact H.replied hf (fun page hpage => by cases hpage) (fun h => by cases h) fun _ => rfl
  | settle hf hreply => exact H.settle hf hreply

theorem logs_sound {s : LogsState} (hs : LogsReachable F s) : LogsSound F s := by
  induction hs with
  | mount filters table htable => exact LogsSound.mount filters htable
  | step _ hstep ih => exact ih.step hstep

/-- Whatever is clicked and typed and however the replies come, the view shows at most
2000 events of the log, ascending, none twice; and if no request failed then what is
shown when nothing is loading is, of the rows that the filters let through, a run
without a gap, from the first one on if it is shorter than that, and `loadMore` asks
for what is behind it. -/
theorem logs_show_window {s : LogsState} (hs : LogsReachable F s) :
    s.hook.events.length ≤ maxAccumulatedEvents ∧
      Shown F s.table s.hook.events s.hook.nextSince ∧
      (s.failed = false → s.hook.loading = false →
        Window F s.hook.filters s.table s.hook.events s.hook.nextSince) := by
  have H := logs_sound hs
  exact ⟨H.bounded, H.shown, fun hfailed hloading => H.window _ (H.loaded hfailed hloading)⟩

/-- The log of one row, and the page of it. -/
def oneRowTable : List AuditRow := [⟨7, some "s1", "slot_staged", none, "2026-06-27T05:30:00"⟩]

def oneRowPage (F : Interpreter) : AuditPage := ⟨oneRowTable.map (AuditRow.event F), none, false⟩

theorem getLogging_oneRow (n : ℕ) :
    getLogging ⟨.nans, n⟩ (⟨" s1 ", "", 100⟩ : LoggingFilters).query oneRowTable 0 =
      some (oneRowPage ⟨.nans, n⟩) :=
  rfl

/-- A view of it, after the page that the mount asks for. -/
def oneRow (F : Interpreter) : LogsState :=
  let filters : LoggingFilters := ⟨" s1 ", "", 100⟩
  let mounted := LogsState.fetch { hook := { filters }, table := oneRowTable } filters 0 false
  let fetch : Fetch := ⟨1, filters, 0, false, some (some (oneRowPage F))⟩
  { mounted with
    hook := mounted.hook.settle fetch (some (oneRowPage F))
    fetches := []
    shownFor := mounted.shown fetch (some (oneRowPage F)) }

theorem reachable_oneRow (n : ℕ) : LogsReachable ⟨.nans, n⟩ (oneRow ⟨.nans, n⟩) := by
  have hmount := LogsReachable.mount (F := ⟨.nans, n⟩) ⟨" s1 ", "", 100⟩ oneRowTable
    (List.pairwise_singleton _ _)
  have hserve := LogsReachable.step hmount
    (.serve (show _ = ([] : List Fetch) ++ _ :: [] from rfl) rfl
      (getLogging_oneRow n))
  exact .step hserve (.settle (show _ = ([] : List Fetch) ++ _ :: [] from rfl) rfl)

theorem logs_show_window_one :
    let F : Interpreter := ⟨.nans, 900⟩
    let s := oneRow F
    s.hook.events.map (·.eventId) = [7] ∧ s.hook.events.length ≤ maxAccumulatedEvents ∧
      Shown F s.table s.hook.events s.hook.nextSince ∧
      (s.failed = false → s.hook.loading = false →
        Window F s.hook.filters s.table s.hook.events s.hook.nextSince) := by
  intro F s
  exact ⟨by decide +kernel, logs_show_window (reachable_oneRow 900)⟩

end Turbohaul.Audit
