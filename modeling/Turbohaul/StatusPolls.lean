/-
# `StatusPolls` — how often the dashboard asks for the status

`useStatus.ts` over `subscribeWsState` of `ws.ts`, under a clock in milliseconds.  A timer
fires when it is due or up to `late` after that; the sockets, and what is said on them,
are anyone's.  Timers and sockets are lists: a handle that is overwritten leaves its timer
or socket behind.

  `connect`, `onopen`, `onerror`, `onclose`, `close`   the steps of these names
  the callback of `subscribeWsState`      `Step.event`
  `setInterval`, and the restart of it    `Step.tick`, `Step.restart`
  `Polling`, `Linked`                     what is pending of each
  `status_polled`, `state_linked`

`refresh` fetches and leaves the timers alone.
-/
import Mathlib.Algebra.Group.Nat.Defs
import Mathlib.Data.List.Basic

namespace Turbohaul.StatusPolls

/-- `POLL_INTERVAL_MS`. -/
def pollIntervalMs : ℕ := 1000

/-- `MAX_RETRY`. -/
def maxRetry : ℕ := 30000

inductive Job where
  | tick
  | restart
deriving DecidableEq

structure Timer where
  id : ℕ
  due : ℕ
  job : Job
deriving DecidableEq

/-- Why a fetch was made. -/
inductive Cause where
  | mount
  | tick
  | event
deriving DecidableEq

inductive SocketState where
  | connecting
  | opened
  | closing
deriving DecidableEq

/-- A view from its mount on: the timers of the hook, with `intervalRef` and `wsTimer`; the
sockets and the pending `connect`s of its subscription, with `ws`; and when it fetched, the
newest first, when it was unmounted, when a socket was last lost, and how many in a row. -/
structure View where
  now : ℕ := 0
  next : ℕ := 1
  timers : List Timer := [⟨0, pollIntervalMs, .tick⟩]
  intervalRef : ℕ := 0
  wsTimer : Option ℕ := none
  sockets : List (ℕ × SocketState) := [(0, .connecting)]
  ws : ℕ := 0
  connects : List ℕ := []
  retryMs : ℕ := 1000
  stopped : Bool := false
  polls : List (ℕ × Cause) := [(0, .mount)]
  unmountedAt : Option ℕ := none
  lostAt : ℕ := 0
  losses : ℕ := 0

/-- `clearTimeout`, `clearInterval`. -/
def clear (id : ℕ) (timers : List Timer) : List Timer := timers.filter (·.id ≠ id)

/-- `clearTimeout(wsTimer)`, if there is one. -/
def clear? (id? : Option ℕ) (timers : List Timer) : List Timer := id?.elim timers (clear · timers)

/-- `ws?.close()`. -/
def View.closeSocket (s : View) : View :=
  { s with sockets := s.sockets.map fun c => if c.1 = s.ws then (c.1, .closing) else c }

/-- The callback of the subscription. -/
def View.onEvent (s : View) : View :=
  { s with
    polls := (s.now, .event) :: s.polls
    timers := clear s.intervalRef (clear? s.wsTimer s.timers) ++
      [⟨s.next, s.now + pollIntervalMs, .restart⟩]
    wsTimer := some s.next
    next := s.next + 1 }

/-- A new `setInterval`. -/
def View.setInterval (s : View) : View :=
  { s with
    timers := s.timers ++ [⟨s.next, s.now + pollIntervalMs, .tick⟩]
    intervalRef := s.next
    next := s.next + 1 }

/-- `connect`. -/
def View.connect (s : View) : View :=
  if s.stopped then s
  else { s with sockets := s.sockets ++ [(s.next, .connecting)], ws := s.next, next := s.next + 1 }

/-- `ws.onclose`. -/
def View.onClose (s : View) : View :=
  if s.stopped then s
  else { s with
    connects := s.connects ++ [s.now + s.retryMs]
    retryMs := min (s.retryMs * 2) maxRetry
    lostAt := s.now
    losses := s.losses + 1 }

/-- The clean-up of the effect. -/
def View.unmount (s : View) : View :=
  { s.closeSocket with
    timers := clear? s.wsTimer (clear s.intervalRef s.timers)
    stopped := true
    unmountedAt := some s.now }

variable (late : ℕ)

/-- What may happen. -/
inductive Step : View → View → Prop
  | pass (s : View) (d : ℕ) : (∀ t ∈ s.timers, s.now + d ≤ t.due + late) →
      (∀ due ∈ s.connects, s.now + d ≤ due + late) → Step s { s with now := s.now + d }
  | tick {s : View} {before after : List Timer} {id due : ℕ} :
      s.timers = before ++ ⟨id, due, .tick⟩ :: after → due ≤ s.now →
      Step s { s with
        polls := (s.now, .tick) :: s.polls
        timers := before ++ ⟨id, s.now + pollIntervalMs, .tick⟩ :: after }
  | restart {s : View} {before after : List Timer} {id due : ℕ} :
      s.timers = before ++ ⟨id, due, .restart⟩ :: after → due ≤ s.now →
      Step s ({ s with timers := before ++ after, wsTimer := none } : View).setInterval
  | onopen {s : View} {before after : List (ℕ × SocketState)} {id : ℕ} :
      s.sockets = before ++ (id, .connecting) :: after →
      Step s { s with sockets := before ++ (id, .opened) :: after, retryMs := 1000, losses := 0 }
  | event {s : View} {id : ℕ} : (id, .opened) ∈ s.sockets → Step s s.onEvent
  | onerror (s : View) : Step s s.closeSocket
  | onclose {s : View} {before after : List (ℕ × SocketState)} {id : ℕ} {state : SocketState} :
      s.sockets = before ++ (id, state) :: after →
      Step s ({ s with sockets := before ++ after } : View).onClose
  | connect {s : View} {before after : List ℕ} {due : ℕ} :
      s.connects = before ++ due :: after → due ≤ s.now →
      Step s ({ s with connects := before ++ after } : View).connect
  | unmount {s : View} : s.unmountedAt = none → Step s s.unmount

/-- What comes of a mount. -/
inductive Reachable : View → Prop
  | mount : Reachable {}
  | step {s s' : View} : Reachable s → Step late s s' → Reachable s'

/-! ## What is pending -/

variable {late}

/-- How long after a fetch no tick comes. -/
def Cause.quiet : Cause → ℕ
  | .event => 2 * pollIntervalMs
  | _ => pollIntervalMs

/-- A fetch by a tick is well after every other. -/
def Spaced (polls : List (ℕ × Cause)) : Prop :=
  polls.Pairwise fun newer older => newer.2 = .tick → older.1 + older.2.quiet ≤ newer.1

/-- While it is mounted one timer is pending: the interval, or what restarts it. -/
inductive Polling (late : ℕ) (s : View) : Prop
  | interval {due last : ℕ} {cause : Cause} {older : List (ℕ × Cause)} :
      s.unmountedAt = none → s.timers = [⟨s.intervalRef, due, .tick⟩] → s.wsTimer = none →
      s.polls = (last, cause) :: older → (∀ p ∈ s.polls, p.1 + p.2.quiet ≤ due) →
      due ≤ last + 2 * pollIntervalMs + late → s.now ≤ due + late → Polling late s
  | restart {id due last : ℕ} {cause : Cause} {older : List (ℕ × Cause)} :
      s.unmountedAt = none → s.timers = [⟨id, due, .restart⟩] → s.wsTimer = some id →
      s.polls = (last, cause) :: older → (∀ p ∈ s.polls, p.1 + p.2.quiet ≤ due + pollIntervalMs) →
      due ≤ last + pollIntervalMs → s.now ≤ due + late → Polling late s
  | gone {t : ℕ} : s.unmountedAt = some t → s.timers = [] → (∀ p ∈ s.polls, p.1 ≤ t) →
      Polling late s

/-- The wait before the next `connect`. -/
def backoff (losses : ℕ) : ℕ := min (1000 * 2 ^ losses) maxRetry

/-- One socket is there or one `connect` pending; once it is stopped no socket is used. -/
inductive Linked (late : ℕ) (s : View) : Prop
  | socket {state : SocketState} : s.stopped = false → s.sockets = [(s.ws, state)] →
      s.connects = [] →
      Linked late s
  | waiting {due losses : ℕ} : s.stopped = false → s.sockets = [] → s.connects = [due] →
      s.losses = losses + 1 → due = s.lostAt + backoff losses → s.now ≤ due + late → Linked late s
  | stopped : s.stopped = true → (∀ c ∈ s.sockets, c.2 = .closing) →
      s.sockets.length + s.connects.length ≤ 1 → Linked late s

structure Sound (late : ℕ) (s : View) : Prop where
  polling : Polling late s
  spaced : Spaced s.polls
  past : ∀ p ∈ s.polls, p.1 ≤ s.now
  linked : Linked late s
  retry : s.retryMs = backoff s.losses
  unmounted : s.stopped = s.unmountedAt.isSome

theorem split_singleton {α : Type} {before after : List α} {x y : α}
    (h : [y] = before ++ x :: after) :
    before = [] ∧ x = y ∧ after = [] := by
  cases before with
  | nil =>
    obtain ⟨hx, hafter⟩ := List.cons.inj h
    exact ⟨rfl, hx.symm, hafter.symm⟩
  | cons z before =>
    obtain ⟨-, hrest⟩ := List.cons.inj h
    exact absurd hrest.symm (List.append_ne_nil_of_right_ne_nil _ (List.cons_ne_nil _ _))

theorem clear_self (id due : ℕ) (job : Job) : clear id [⟨id, due, job⟩] = [] := by
  rw [clear, List.filter_cons_of_neg, List.filter_nil]
  rw [decide_eq_true_eq]
  exact fun h => h rfl

theorem clear_nil (id : ℕ) : clear id [] = [] := rfl

theorem backoff_succ (losses : ℕ) : min (backoff losses * 2) maxRetry = backoff (losses + 1) := by
  rw [backoff, backoff, Nat.pow_succ, maxRetry]
  omega

/-- The subscription is as it was while the hook's own timers change. -/
theorem Linked.timers {s : View} (h : Linked late s) (timers : List Timer) (intervalRef : ℕ)
    (wsTimer : Option ℕ) (next : ℕ) (polls : List (ℕ × Cause)) :
    Linked late { s with timers, intervalRef, wsTimer, next, polls } := by
  cases h with
  | socket hs hsockets hc => exact .socket hs hsockets hc
  | waiting hs hsockets hc hn hd hnow => exact .waiting hs hsockets hc hn hd hnow
  | stopped hs hsockets hlen => exact .stopped hs hsockets hlen

/-- And the other way round. -/
theorem Polling.sockets {s : View} (h : Polling late s) (sockets : List (ℕ × SocketState)) (ws : ℕ)
    (connects : List ℕ) (next retryMs lostAt losses : ℕ) :
    Polling late { s with sockets, ws, connects, next, retryMs, lostAt, losses } := by
  cases h with
  | interval hm ht hw hp hq hl hnow => exact .interval hm ht hw hp hq hl hnow
  | restart hm ht hw hp hq hl hnow => exact .restart hm ht hw hp hq hl hnow
  | gone hm ht hp => exact .gone hm ht hp

/-- An event is followed by one timer, the one that restarts the interval. -/
theorem Polling.onEvent_timers {s : View} (h : Polling late s) :
    clear s.intervalRef (clear? s.wsTimer s.timers) = [] := by
  cases h with
  | interval _ htimers hws =>
    rw [htimers, hws]
    exact clear_self _ _ _
  | restart _ htimers hws =>
    rw [htimers, hws]
    show clear _ (clear _ _) = []
    rw [clear_self, clear_nil]
  | gone _ htimers =>
    rw [htimers]
    cases s.wsTimer with
    | none => rfl
    | some id => rfl

theorem Polling.unmount_timers {s : View} (h : Polling late s) :
    clear? s.wsTimer (clear s.intervalRef s.timers) = [] := by
  cases h with
  | interval _ htimers hws =>
    rw [htimers, hws]
    exact clear_self _ _ _
  | @restart id due _ _ _ _ htimers hws =>
    rw [htimers, hws]
    show clear _ (clear _ _) = []
    by_cases hid : id = s.intervalRef
    · rw [hid, clear_self, clear_nil]
    · rw [clear, clear, List.filter_filter]
      simp
  | gone _ htimers =>
    rw [htimers]
    cases s.wsTimer with
    | none => rfl
    | some id => rfl

namespace Sound

variable {s : View}

theorem mount : Sound late {} where
  polling := .interval rfl rfl rfl rfl (by
    intro p hp
    rewrite [List.mem_singleton.mp hp]
    exact Nat.le_refl _) (by simp only [pollIntervalMs]; omega)
      (by simp only [pollIntervalMs]; omega)
  spaced := List.pairwise_singleton _ _
  past p hp := by
    rewrite [List.mem_singleton.mp hp]
    exact Nat.le_refl _
  linked := .socket rfl rfl rfl
  retry := rfl
  unmounted := rfl

theorem pass (H : Sound late s) {d : ℕ} (htimers : ∀ t ∈ s.timers, s.now + d ≤ t.due + late)
    (hconnects : ∀ due ∈ s.connects, s.now + d ≤ due + late) :
    Sound late { s with now := s.now + d } where
  polling := by
    cases H.polling with
    | interval hm ht hw hp hq hl _ =>
      exact .interval hm ht hw hp hq hl (htimers _ (ht ▸ List.mem_singleton_self _))
    | restart hm ht hw hp hq hl _ =>
      exact .restart hm ht hw hp hq hl (htimers _ (ht ▸ List.mem_singleton_self _))
    | gone hm ht hp => exact .gone hm ht hp
  spaced := H.spaced
  past p hp := Nat.le_trans (H.past p hp) (Nat.le_add_right _ _)
  linked := by
    cases H.linked with
    | socket hs hsockets hc => exact .socket hs hsockets hc
    | waiting hs hsockets hc hn hd _ =>
      exact .waiting hs hsockets hc hn hd (hconnects _ (hc ▸ List.mem_singleton_self _))
    | stopped hs hsockets hlen => exact .stopped hs hsockets hlen
  retry := H.retry
  unmounted := H.unmounted

theorem tick (H : Sound late s) {before after : List Timer} {id due : ℕ}
    (htimers : s.timers = before ++ ⟨id, due, .tick⟩ :: after) (hdue : due ≤ s.now) :
    Sound late { s with
      polls := (s.now, .tick) :: s.polls
      timers := before ++ ⟨id, s.now + pollIntervalMs, .tick⟩ :: after } := by
  cases H.polling with
  | @interval due' last cause older hm ht hw hp hq hl _ =>
    rw [ht] at htimers
    obtain ⟨rfl, htimer, rfl⟩ := split_singleton htimers
    cases htimer
    have hspaced : ∀ p ∈ s.polls, p.1 + p.2.quiet ≤ s.now := fun p hp => Nat.le_trans (hq p hp) hdue
    refine ⟨.interval hm rfl hw rfl ?_ ?_ ?_, ?_, ?_, ?_, H.retry, H.unmounted⟩
    · intro p hp
      rcases List.mem_cons.mp hp with rfl | hp
      · exact Nat.le_refl _
      · exact Nat.le_trans (hspaced p hp) (Nat.le_add_right _ _)
    · simp only [pollIntervalMs]
      omega
    · show s.now ≤ s.now + pollIntervalMs + late
      omega
    · exact List.pairwise_cons.mpr ⟨fun p hp _ => hspaced p hp, H.spaced⟩
    · intro p hp
      rcases List.mem_cons.mp hp with rfl | hp
      · exact Nat.le_refl _
      · exact H.past p hp
    · exact H.linked.timers _ s.intervalRef s.wsTimer s.next _
  | restart _ ht =>
    rw [ht] at htimers
    obtain ⟨-, htimer, -⟩ := split_singleton htimers
    cases htimer
  | gone _ ht =>
    rw [ht] at htimers
    exact absurd htimers.symm (List.append_ne_nil_of_right_ne_nil _ (List.cons_ne_nil _ _))

theorem restart (H : Sound late s) {before after : List Timer} {id due : ℕ}
    (htimers : s.timers = before ++ ⟨id, due, .restart⟩ :: after) (hdue : due ≤ s.now) :
    Sound late ({ s with timers := before ++ after, wsTimer := none } : View).setInterval := by
  cases H.polling with
  | interval _ ht =>
    rw [ht] at htimers
    obtain ⟨-, htimer, -⟩ := split_singleton htimers
    cases htimer
  | restart hm ht hw hp hq hl hnow =>
    rw [ht] at htimers
    obtain ⟨rfl, htimer, rfl⟩ := split_singleton htimers
    cases htimer
    refine ⟨.interval hm rfl rfl hp ?_ ?_ ?_, H.spaced, H.past, H.linked.timers _ _ _ _ _, H.retry,
      H.unmounted⟩
    · intro p hp
      exact Nat.le_trans (hq p hp) (Nat.add_le_add_right hdue _)
    · simp only [pollIntervalMs] at hl ⊢
      omega
    · show s.now ≤ s.now + pollIntervalMs + late
      omega
  | gone _ ht =>
    rw [ht] at htimers
    exact absurd htimers.symm (List.append_ne_nil_of_right_ne_nil _ (List.cons_ne_nil _ _))

theorem onopen (H : Sound late s) {before after : List (ℕ × SocketState)} {id : ℕ}
    (hsockets : s.sockets = before ++ (id, .connecting) :: after) :
    Sound late
      { s with sockets := before ++ (id, .opened) :: after, retryMs := 1000, losses := 0 } where
  polling := H.polling.sockets _ s.ws s.connects s.next _ s.lostAt _
  spaced := H.spaced
  past := H.past
  linked := by
    have hmem : (id, .connecting) ∈ s.sockets :=
      hsockets ▸ List.mem_append_right _ List.mem_cons_self
    cases H.linked with
    | socket hs hone hc =>
      rw [hone] at hsockets
      obtain ⟨rfl, hsocket, rfl⟩ := split_singleton hsockets
      cases hsocket
      exact .socket hs rfl hc
    | waiting _ hnone =>
      rw [hnone] at hmem
      cases hmem
    | stopped _ hclosing =>
      have h := hclosing _ hmem
      cases h
  retry := rfl
  unmounted := H.unmounted

theorem event (H : Sound late s) {id : ℕ} (hmem : (id, .opened) ∈ s.sockets) :
    Sound late s.onEvent where
  polling := by
    have htimers : s.onEvent.timers = [⟨s.next, s.now + pollIntervalMs, .restart⟩] := by
      show clear _ _ ++ _ = _
      rw [H.polling.onEvent_timers, List.nil_append]
    have hmounted : s.unmountedAt = none := by
      cases H.linked with
      | socket hs =>
        have hsome := H.unmounted
        rw [hs] at hsome
        exact Option.isNone_iff_eq_none.mp (by rw [← Option.not_isSome, ← hsome]; rfl)
      | waiting _ hnone =>
        rw [hnone] at hmem
        cases hmem
      | stopped _ hclosing =>
        have h := hclosing _ hmem
        cases h
    refine .restart hmounted htimers rfl rfl ?_ (Nat.le_refl _) ?_
    · intro p hp
      rcases List.mem_cons.mp hp with rfl | hp
      · show s.now + 2 * pollIntervalMs ≤ s.now + pollIntervalMs + pollIntervalMs
        omega
      · have hpast := H.past p hp
        have hquiet : p.2.quiet ≤ 2 * pollIntervalMs := by
          cases p.2 with
          | mount => decide
          | tick => decide
          | event => decide
        omega
    · show s.now ≤ s.now + pollIntervalMs + late
      omega
  spaced := List.pairwise_cons.mpr ⟨(fun p _ h => by cases h), H.spaced⟩
  past p hp := by
    rcases List.mem_cons.mp hp with rfl | hp
    · exact Nat.le_refl _
    · exact H.past p hp
  linked := H.linked.timers _ _ _ _ _
  retry := H.retry
  unmounted := H.unmounted

/-- `ws?.close()` leaves as many sockets, and takes none into use. -/
theorem closed (H : Sound late s) : Linked late s.closeSocket ∧
    (∀ c ∈ s.closeSocket.sockets, c.2 = .closing) ∧
    s.closeSocket.sockets.length + s.connects.length ≤ 1 := by
  cases H.linked with
  | @socket state hs hone hc =>
    have hsockets : s.closeSocket.sockets = [(s.ws, .closing)] := by
      show s.sockets.map _ = _
      rw [hone, List.map_singleton, if_pos rfl]
    rw [hsockets, hc]
    refine ⟨.socket hs hsockets hc, fun c h => ?_, Nat.le_refl _⟩
    rw [List.mem_singleton.mp h]
  | @waiting due losses hs hnone hc hn hd hnow =>
    have hsockets : s.closeSocket.sockets = [] := by
      show s.sockets.map _ = _
      rw [hnone, List.map_nil]
    rw [hsockets, hc]
    exact ⟨.waiting hs hsockets hc hn hd hnow, (fun c h => by cases h), Nat.le_refl _⟩
  | stopped hs hclosing hlen =>
    have hsame : ∀ c ∈ s.closeSocket.sockets, c.2 = .closing := by
      intro c h
      obtain ⟨c', hc', rfl⟩ := List.mem_map.mp h
      split
      · rfl
      · exact hclosing c' hc'
    have hlen' : s.closeSocket.sockets.length + s.connects.length ≤ 1 := by
      show (s.sockets.map _).length + _ ≤ 1
      rw [List.length_map]
      exact hlen
    exact ⟨.stopped hs hsame hlen', hsame, hlen'⟩

theorem onerror (H : Sound late s) : Sound late s.closeSocket where
  polling := H.polling.sockets _ s.ws s.connects s.next s.retryMs s.lostAt s.losses
  spaced := H.spaced
  past := H.past
  linked := H.closed.1
  retry := H.retry
  unmounted := H.unmounted

theorem onclose (H : Sound late s) {before after : List (ℕ × SocketState)} {id : ℕ}
    {state : SocketState} (hsockets : s.sockets = before ++ (id, state) :: after) :
    Sound late ({ s with sockets := before ++ after } : View).onClose := by
  by_cases hstopped : s.stopped = true
  · have hsame : ({ s with sockets := before ++ after } : View).onClose =
        { s with sockets := before ++ after } := if_pos hstopped
    rw [hsame]
    refine ⟨H.polling.sockets _ s.ws s.connects s.next s.retryMs s.lostAt s.losses, H.spaced,
      H.past, ?_, H.retry, H.unmounted⟩
    cases H.linked with
    | socket hs =>
      rw [hs] at hstopped
      cases hstopped
    | waiting hs =>
      rw [hs] at hstopped
      cases hstopped
    | stopped hs hclosing hlen =>
      rw [hsockets] at hclosing hlen
      refine .stopped hs (fun c hc => hclosing c ?_) ?_
      · rcases List.mem_append.mp hc with hc | hc
        · exact List.mem_append_left _ hc
        · exact List.mem_append_right _ (List.mem_cons_of_mem _ hc)
      · rw [List.length_append, List.length_cons] at hlen
        show (before ++ after).length + s.connects.length ≤ 1
        rw [List.length_append]
        omega
  · have hlost : ({ s with sockets := before ++ after } : View).onClose =
        { s with
          sockets := before ++ after
          connects := s.connects ++ [s.now + s.retryMs]
          retryMs := min (s.retryMs * 2) maxRetry
          lostAt := s.now
          losses := s.losses + 1 } :=
      if_neg hstopped
    rw [hlost]
    refine ⟨H.polling.sockets _ s.ws _ s.next _ _ _, H.spaced, H.past, ?_, ?_, H.unmounted⟩
    · cases H.linked with
      | socket hs hone hc =>
        rw [hone] at hsockets
        obtain ⟨rfl, -, rfl⟩ := split_singleton hsockets
        refine .waiting hs rfl ?_ rfl (congrArg (s.now + ·) H.retry) ?_
        · show s.connects ++ [_] = _
          rw [hc, List.nil_append]
        · show s.now ≤ s.now + s.retryMs + late
          omega
      | waiting _ hnone =>
        rw [hnone] at hsockets
        exact absurd hsockets.symm (List.append_ne_nil_of_right_ne_nil _ (List.cons_ne_nil _ _))
      | stopped hs => exact absurd hs hstopped
    · show min (s.retryMs * 2) maxRetry = _
      rw [H.retry, backoff_succ]

theorem connect (H : Sound late s) {before after : List ℕ} {due : ℕ}
    (hconnects : s.connects = before ++ due :: after) :
    Sound late ({ s with connects := before ++ after } : View).connect := by
  by_cases hstopped : s.stopped = true
  · have hsame : ({ s with connects := before ++ after } : View).connect =
        { s with connects := before ++ after } := if_pos hstopped
    rw [hsame]
    refine ⟨H.polling.sockets s.sockets s.ws _ s.next s.retryMs s.lostAt s.losses, H.spaced, H.past,
      ?_, H.retry, H.unmounted⟩
    cases H.linked with
    | socket hs =>
      rw [hs] at hstopped
      cases hstopped
    | waiting hs =>
      rw [hs] at hstopped
      cases hstopped
    | stopped hs hclosing hlen =>
      refine .stopped hs hclosing ?_
      rw [hconnects, List.length_append, List.length_cons] at hlen
      show s.sockets.length + (before ++ after).length ≤ 1
      rw [List.length_append]
      omega
  · have hnew : ({ s with connects := before ++ after } : View).connect =
        { s with
          connects := before ++ after
          sockets := s.sockets ++ [(s.next, .connecting)]
          ws := s.next
          next := s.next + 1 } :=
      if_neg hstopped
    rw [hnew]
    refine ⟨H.polling.sockets _ _ _ _ s.retryMs s.lostAt s.losses, H.spaced, H.past, ?_, H.retry,
      H.unmounted⟩
    cases H.linked with
    | socket _ _ hc =>
      rw [hc] at hconnects
      exact absurd hconnects.symm (List.append_ne_nil_of_right_ne_nil _ (List.cons_ne_nil _ _))
    | waiting hs hnone hc =>
      rw [hc] at hconnects
      obtain ⟨rfl, -, rfl⟩ := split_singleton hconnects
      have hone : s.sockets ++ [(s.next, SocketState.connecting)] = [(s.next, .connecting)] := by
        rw [hnone, List.nil_append]
      exact .socket hs hone rfl
    | stopped hs => exact absurd hs hstopped

theorem unmount (H : Sound late s) : Sound late s.unmount where
  polling := .gone rfl H.polling.unmount_timers H.past
  spaced := H.spaced
  past := H.past
  linked := .stopped rfl H.closed.2.1 H.closed.2.2
  retry := H.retry
  unmounted := rfl

theorem step {s' : View} (H : Sound late s) (hstep : Step late s s') : Sound late s' := by
  cases hstep with
  | pass d htimers hconnects => exact H.pass htimers hconnects
  | tick htimers hdue => exact H.tick htimers hdue
  | restart htimers hdue => exact H.restart htimers hdue
  | onopen hsockets => exact H.onopen hsockets
  | event hmem => exact H.event hmem
  | onerror => exact H.onerror
  | onclose hsockets => exact H.onclose hsockets
  | connect hconnects _ => exact H.connect hconnects
  | unmount _ => exact H.unmount

end Sound

theorem reachable_sound {s : View} (hs : Reachable late s) : Sound late s := by
  induction hs with
  | mount => exact Sound.mount
  | step _ hstep ih => exact ih.step hstep

/-- While the dashboard is there the status is asked for at least every two seconds, with
the lateness of two timers; the clock asks for it no sooner than a second after it did
last, and two after an event did; and nothing does once it is gone. -/
theorem status_polled {s : View} (hs : Reachable late s) :
    (s.unmountedAt = none → s.timers.length = 1 ∧
      ∃ p ∈ s.polls, s.now ≤ p.1 + 2 * pollIntervalMs + 2 * late) ∧
    Spaced s.polls ∧
    (∀ t, s.unmountedAt = some t → s.timers = [] ∧ ∀ p ∈ s.polls, p.1 ≤ t) := by
  have H := reachable_sound hs
  refine ⟨fun hmounted => ?_, H.spaced, fun t ht => ?_⟩
  · cases H.polling with
    | @interval due last cause older _ htimers _ hp _ hl hnow =>
      refine ⟨by rw [htimers]; rfl, (last, cause), hp ▸ List.mem_cons_self, ?_⟩
      show s.now ≤ last + _ + _
      omega
    | @restart id due last cause older _ htimers _ hp _ hl hnow =>
      refine ⟨by rw [htimers]; rfl, (last, cause), hp ▸ List.mem_cons_self, ?_⟩
      show s.now ≤ last + _ + _
      simp only [pollIntervalMs] at hl ⊢
      omega
    | gone hgone =>
      rw [hmounted] at hgone
      cases hgone
  · cases H.polling with
    | interval hm =>
      rw [hm] at ht
      cases ht
    | restart hm =>
      rw [hm] at ht
      cases ht
    | gone hm htimers hp =>
      rw [hm] at ht
      cases ht
      exact ⟨htimers, hp⟩

theorem status_polled_beside_event :
    ∃ s : View, s.polls = [(2300, .tick), (300, .event), (0, .mount)] ∧
      (s.unmountedAt = none → s.timers.length = 1 ∧
        ∃ p ∈ s.polls, s.now ≤ p.1 + 2 * pollIntervalMs + 2 * 0) ∧
      Spaced s.polls ∧
      (∀ t, s.unmountedAt = some t → s.timers = [] ∧ ∀ p ∈ s.polls, p.1 ≤ t) := by
  have hopen := (Reachable.mount : Reachable 0 {}).step
    (.onopen (show _ = ([] : List (ℕ × SocketState)) ++ _ :: [] from rfl))
  have hpass := hopen.step (.pass _ 300 (by decide) (by decide))
  have hevent := hpass.step (.event (List.mem_singleton_self _))
  have hpass := hevent.step (.pass _ 1000 (by decide) (by decide))
  have hrestart :=
    hpass.step (.restart (show _ = ([] : List Timer) ++ _ :: [] from rfl) (by decide))
  have hpass := hrestart.step (.pass _ 1000 (by decide) (by decide))
  have htick := hpass.step (.tick (show _ = ([] : List Timer) ++ _ :: [] from rfl) (by decide))
  exact ⟨_, rfl, status_polled htick⟩

/-- The subscription has one socket, or waits for the next one, for a time that doubles
with each loss in a row up to half a minute; and no socket is used once it is closed. -/
theorem state_linked {s : View} (hs : Reachable late s) :
    s.sockets.length + s.connects.length ≤ 1 ∧
      (s.unmountedAt = none →
        (∃ state, s.sockets = [(s.ws, state)]) ∨
        ∃ due losses, s.connects = [due] ∧ s.losses = losses + 1 ∧
          due = s.lostAt + min (1000 * 2 ^ losses) 30000 ∧ s.now ≤ due + late) ∧
      ∀ t, s.unmountedAt = some t → ∀ c ∈ s.sockets, c.2 = .closing := by
  have H := reachable_sound hs
  have hunmounted := H.unmounted
  cases H.linked with
  | @socket state hs hone hc =>
    rw [hs] at hunmounted
    refine ⟨by rw [hone, hc]; exact Nat.le_refl _, fun _ => .inl ⟨state, hone⟩, fun t ht => ?_⟩
    rw [ht] at hunmounted
    cases hunmounted
  | @waiting due losses hs hnone hc hn hd hnow =>
    rw [hs] at hunmounted
    refine ⟨by rw [hnone, hc]; exact Nat.le_refl _, fun _ => .inr ⟨due, losses, hc, hn, hd, hnow⟩,
      fun t ht => ?_⟩
    rw [ht] at hunmounted
    cases hunmounted
  | stopped hs hclosing hlen =>
    rw [hs] at hunmounted
    refine ⟨hlen, fun hnone => ?_, fun _ _ => hclosing⟩
    rw [hnone] at hunmounted
    cases hunmounted

theorem state_linked_after_two_losses :
    ∃ s : View, s.connects = [3000] ∧ s.sockets.length + s.connects.length ≤ 1 ∧
      (s.unmountedAt = none →
        (∃ state, s.sockets = [(s.ws, state)]) ∨
        ∃ due losses, s.connects = [due] ∧ s.losses = losses + 1 ∧
          due = s.lostAt + min (1000 * 2 ^ losses) 30000 ∧ s.now ≤ due + 0) ∧
      ∀ t, s.unmountedAt = some t → ∀ c ∈ s.sockets, c.2 = .closing := by
  have hlost := (Reachable.mount : Reachable 0 {}).step
    (.onclose (show _ = ([] : List (ℕ × SocketState)) ++ _ :: [] from rfl))
  have hpass := hlost.step (.pass _ 1000 (by decide) (by decide))
  have hconnect := hpass.step (.connect (show _ = ([] : List ℕ) ++ _ :: [] from rfl) (by decide))
  have hlost :=
    hconnect.step (.onclose (show _ = ([] : List (ℕ × SocketState)) ++ _ :: [] from rfl))
  exact ⟨_, rfl, state_linked hlost⟩

end Turbohaul.StatusPolls
