/-
# `EventBus` — the events that `/ws/state` sends

Each handler of `/ws/state` has a queue in the bus.  A publish takes the subscribers as
they are when it begins and puts its event to one queue after the other; a handler
sends a snapshot and then what it gets from its queue.  `_audit` publishes from
threads, so that publishes run into each other and into the handlers.

  `safeEvent`       what `publish_nowait` leaves of an event
  `Step`            the handlers, and publishes queue by queue
  `Handler.Flowing` what becomes of what a queue accepts
  `Served`          what is put to a queue: every publish once
  `ws_client_sees`, `lost_only_when_full`

What a handler and a publish remember beside the fields of the source (`since`,
`accepted`, `dropped`, `id`, `overlaps`, `published`) is for the statements: no step
reads it.
-/
import Mathlib.Data.List.Perm.Basic
import Mathlib.Data.List.Range
import Turbohaul.AuditLog

namespace Turbohaul.Events

open Audit (redactedKeys)

/-- `safe_event`. -/
def safeEvent (event : Dict) : Dict := event.filter fun kv => kv.1 ∉ redactedKeys

/-- A `safe_event`, by the number of its publish. -/
structure Safe where
  id : ℕ
  event : Dict

/-- What a client is sent. -/
inductive Sent
  | connected (snapshot : Json)
  | event (e : Safe)

/-- Where a handler is suspended. -/
inductive Point
  | accepted
  | waiting
  | sending (e : Safe)
  | closed

/-- A handler of `/ws/state`, with `subscriber_q`. -/
structure Handler where
  point : Point := .accepted
  q : List Safe := []
  received : List Sent := []
  since : ℕ
  accepted : List Safe := []
  dropped : List Safe := []

/-- `put_nowait`, of a queue of at most 1000. -/
def Handler.putNowait (h : Handler) (e : Safe) : Handler :=
  if h.q.length < 1000 then { h with q := h.q ++ [e], accepted := h.accepted ++ [e] }
  else { h with dropped := h.dropped ++ [e] }

theorem Handler.putNowait_cases (h : Handler) (e : Safe) :
    ((h.putNowait e).accepted = h.accepted ++ [e] ∧ (h.putNowait e).dropped = h.dropped) ∨
      ((h.putNowait e).accepted = h.accepted ∧ (h.putNowait e).dropped = h.dropped ++ [e]) := by
  rw [putNowait]
  split
  · exact .inl ⟨rfl, rfl⟩
  · exact .inr ⟨rfl, rfl⟩

theorem Handler.putNowait_since (h : Handler) (e : Safe) : (h.putNowait e).since = h.since := by
  rw [putNowait]
  split
  · rfl
  · rfl

theorem Handler.putNowait_point (h : Handler) (e : Safe) : (h.putNowait e).point = h.point := by
  rw [putNowait]
  split
  · rfl
  · rfl

/-- Either way the event came to the handler. -/
theorem Handler.putNowait_ids (h : Handler) (e : Safe) :
    (((h.putNowait e).accepted ++ (h.putNowait e).dropped).map (·.id)).Perm
      ((h.accepted ++ h.dropped).map (·.id) ++ [e.id]) := by
  rw [show [e.id] = [e].map (·.id) from rfl, ← List.map_append]
  refine List.Perm.map _ ?_
  rcases h.putNowait_cases e with ⟨hacc, hdrop⟩ | ⟨hacc, hdrop⟩
  · rw [hacc, hdrop, List.append_assoc, List.append_assoc]
    exact List.perm_append_comm.append_left _
  · rw [hacc, hdrop, List.append_assoc]

/-- A publish on its way, and the subscribers it has still to serve. -/
structure Publish where
  safe : Safe
  rest : List ℕ

/-- The bus and its handlers, by their numbers. -/
structure State where
  handlers : List Handler := []
  subscribers : List ℕ := []
  publishing : List Publish := []
  published : List Dict := []
  overlaps : List (ℕ × ℕ) := []

/-- A handler is somewhere else. -/
def State.put (s : State) (i : ℕ) (h : Handler) : State :=
  { s with handlers := s.handlers.set i h }

/-- What may happen next.  A handler leaves when a send fails, and when it is cancelled. -/
inductive Step : State → State → Prop
  | connect (s : State) :
      Step s { s with
        handlers := s.handlers ++ [{ since := s.published.length }]
        subscribers := s.subscribers ++ [s.handlers.length] }
  | snapshot {s : State} {i : ℕ} {h : Handler} (snapshot : Json) :
      s.handlers[i]? = some h → h.point = .accepted →
      Step s (s.put i { h with received := h.received ++ [.connected snapshot], point := .waiting })
  | get {s : State} {i : ℕ} {h : Handler} {e : Safe} {q : List Safe} :
      s.handlers[i]? = some h → h.point = .waiting → h.q = e :: q →
      Step s (s.put i { h with q := q, point := .sending e })
  | send {s : State} {i : ℕ} {h : Handler} {e : Safe} :
      s.handlers[i]? = some h → h.point = .sending e →
      Step s (s.put i { h with received := h.received ++ [.event e], point := .waiting })
  | leave {s : State} {i : ℕ} {h : Handler} :
      s.handlers[i]? = some h → h.point ≠ .closed →
      Step s { s.put i { h with point := .closed } with subscribers := s.subscribers.erase i }
  | publish {s : State} {order : List ℕ} (event : Dict) : order.Perm s.subscribers →
      Step s { s with
        publishing := s.publishing ++ [⟨⟨s.published.length, safeEvent event⟩, order⟩]
        published := s.published ++ [event]
        overlaps := s.overlaps ++ s.publishing.map fun p => (p.safe.id, s.published.length) }
  | put {s : State} {before after : List Publish} {e : Safe} {i : ℕ} {rest : List ℕ} {h : Handler} :
      s.publishing = before ++ ⟨e, i :: rest⟩ :: after → s.handlers[i]? = some h →
      Step s { s.put i (h.putNowait e) with publishing := before ++ ⟨e, rest⟩ :: after }
  | done {s : State} {before after : List Publish} {e : Safe} :
      s.publishing = before ++ ⟨e, []⟩ :: after →
      Step s { s with publishing := before ++ after }

/-- The states of the bus. -/
inductive Reachable : State → Prop
  | init : Reachable {}
  | step {s s' : State} : Reachable s → Step s s' → Reachable s'

/-! ## One handler -/

/-- What a client has received is nothing yet, or a snapshot and then some events. -/
def Received (received : List Sent) (sent : List Safe) : Prop :=
  (received = [] ∧ sent = []) ∨ ∃ snapshot, received = .connected snapshot :: sent.map .event

/-- The event that a handler has in hand. -/
def Point.inHand : Point → List Safe
  | .sending e => [e]
  | _ => []

/-- What a queue accepts is sent, in hand or still in the queue, in this order. -/
structure Handler.Flowing (h : Handler) : Prop where
  flow : ∃ sent lost, Received h.received sent ∧ h.accepted = sent ++ lost ++ h.q ∧
    (h.point ≠ .closed → lost = h.point.inHand)
  begun : h.point = .accepted → h.received = []
  shown : h.point = .waiting ∨ (∃ e, h.point = .sending e) → h.received ≠ []
  bounded : h.q.length ≤ 1000
  full : h.dropped ≠ [] → 1000 ≤ h.accepted.length

namespace Handler.Flowing

variable {h : Handler} {e : Safe}

theorem new (since : ℕ) : ({ since := since } : Handler).Flowing where
  flow := ⟨[], [], .inl ⟨rfl, rfl⟩, rfl, fun _ => rfl⟩
  begun _ := rfl
  shown hp := by
    rcases hp with hp | ⟨e, hp⟩
    · cases hp
    · cases hp
  bounded := Nat.zero_le _
  full hd := absurd rfl hd

theorem snapshot (H : h.Flowing) (hp : h.point = .accepted) (snapshot : Json) :
    { h with received := h.received ++ [Sent.connected snapshot], point := .waiting }.Flowing where
  flow := by
    obtain ⟨sent, lost, hrec, hacc, hlost⟩ := H.flow
    have hnil := H.begun hp
    rcases hrec with ⟨-, rfl⟩ | ⟨snapshot', hrec⟩
    · refine ⟨[], lost, .inr ⟨snapshot, ?_⟩, hacc, fun _ => ?_⟩
      · rw [hnil]
        rfl
      · rw [hlost (by rw [hp]; intro hc; cases hc), hp]
        rfl
    · rw [hnil] at hrec
      cases hrec
  begun hp := by cases hp
  shown _ := List.append_ne_nil_of_right_ne_nil _ (List.cons_ne_nil _ _)
  bounded := H.bounded
  full := H.full

theorem get {q : List Safe} (H : h.Flowing) (hp : h.point = .waiting) (hq : h.q = e :: q) :
    { h with q := q, point := .sending e }.Flowing where
  flow := by
    obtain ⟨sent, lost, hrec, hacc, hlost⟩ := H.flow
    have hnone : lost = [] := by
      rw [hlost (by rw [hp]; intro hc; cases hc), hp]
      rfl
    refine ⟨sent, [e], hrec, ?_, fun _ => rfl⟩
    rw [hacc, hnone, hq, List.append_nil, List.append_assoc]
    rfl
  begun hp := by cases hp
  shown _ := H.shown (.inl hp)
  bounded := by
    have hle := H.bounded
    rw [hq, List.length_cons] at hle
    exact Nat.le_of_succ_le hle
  full := H.full

theorem send (H : h.Flowing) (hp : h.point = .sending e) :
    { h with received := h.received ++ [Sent.event e], point := .waiting }.Flowing where
  flow := by
    obtain ⟨sent, lost, hrec, hacc, hlost⟩ := H.flow
    have hone : lost = [e] := by
      rw [hlost (by rw [hp]; intro hc; cases hc), hp]
      rfl
    refine ⟨sent ++ [e], [], ?_, ?_, fun _ => rfl⟩
    · rcases hrec with ⟨hnil, -⟩ | ⟨snapshot, hrec⟩
      · exact absurd hnil (H.shown (.inr ⟨e, hp⟩))
      · refine .inr ⟨snapshot, ?_⟩
        rw [hrec, List.map_append]
        rfl
    · rw [hacc, hone, List.append_nil]
  begun hp := by cases hp
  shown _ := List.append_ne_nil_of_right_ne_nil _ (List.cons_ne_nil _ _)
  bounded := H.bounded
  full := H.full

theorem leave (H : h.Flowing) : { h with point := .closed }.Flowing where
  flow := by
    obtain ⟨sent, lost, hrec, hacc, -⟩ := H.flow
    exact ⟨sent, lost, hrec, hacc, fun hc => absurd rfl hc⟩
  begun hp := by cases hp
  shown hp := by
    rcases hp with hp | ⟨e, hp⟩
    · cases hp
    · cases hp
  bounded := H.bounded
  full := H.full

theorem putNowait (H : h.Flowing) (e : Safe) : (h.putNowait e).Flowing := by
  rw [Handler.putNowait]
  obtain ⟨sent, lost, hrec, hacc, hlost⟩ := H.flow
  split
  · rename_i hlen
    refine ⟨⟨sent, lost, hrec, ?_, hlost⟩, H.begun, H.shown, ?_, ?_⟩
    · show h.accepted ++ [e] = sent ++ lost ++ (h.q ++ [e])
      rw [hacc, List.append_assoc _ h.q]
    · rw [List.length_append, List.length_singleton]
      exact hlen
    · intro hd
      rw [List.length_append]
      exact Nat.le_add_right_of_le (H.full hd)
  · rename_i hlen
    refine ⟨⟨sent, lost, hrec, hacc, hlost⟩, H.begun, H.shown, H.bounded, fun _ => ?_⟩
    rw [hacc, List.length_append]
    omega

end Handler.Flowing

/-! ## What is put to it -/

/-- The publishes that have still to serve a handler. -/
def pendingFor (i : ℕ) (publishing : List Publish) : List ℕ :=
  (publishing.filter fun p => i ∈ p.rest).map (·.safe.id)

theorem pendingFor_cons (i : ℕ) (p : Publish) (ps : List Publish) :
    pendingFor i (p :: ps) =
      if i ∈ p.rest then p.safe.id :: pendingFor i ps else pendingFor i ps := by
  rw [pendingFor, List.filter_cons]
  by_cases hi : i ∈ p.rest
  · rw [if_pos (decide_eq_true hi), if_pos hi]
    rfl
  · rw [if_neg (by rw [decide_eq_true_eq]; exact hi), if_neg hi]
    rfl

theorem pendingFor_append (i : ℕ) (ps qs : List Publish) :
    pendingFor i (ps ++ qs) = pendingFor i ps ++ pendingFor i qs := by
  rw [pendingFor, List.filter_append, List.map_append]
  rfl

/-- The publishes that have served it or will. -/
def Handler.ids (s : State) (i : ℕ) (h : Handler) : List ℕ :=
  (h.accepted ++ h.dropped).map (·.id) ++ pendingFor i s.publishing

/-- Every publish since a handler came is put to it once, while it is there. -/
structure Served (s : State) (i : ℕ) (h : Handler) : Prop where
  nodup : (h.ids s i).Nodup
  range : ∀ k ∈ h.ids s i, h.since ≤ k ∧ k < s.published.length
  since_le : h.since ≤ s.published.length
  all : h.point ≠ .closed → ∀ k, h.since ≤ k → k < s.published.length → k ∈ h.ids s i
  safe : ∀ e ∈ h.accepted, ∃ event, s.published[e.id]? = some event ∧ e.event = safeEvent event
  order : h.accepted.Pairwise fun e f => e.id < f.id ∨ (f.id, e.id) ∈ s.overlaps

/-- The publishes on their way, and the subscribers. -/
structure Sound (s : State) : Prop where
  rest : ∀ p ∈ s.publishing, p.rest.Nodup ∧ ∀ i ∈ p.rest, i < s.handlers.length
  safe : ∀ p ∈ s.publishing,
    ∃ event, s.published[p.safe.id]? = some event ∧ p.safe.event = safeEvent event
  overlaps : ∀ p ∈ s.publishing, ∀ k, p.safe.id < k → k < s.published.length →
    (p.safe.id, k) ∈ s.overlaps
  subscribers : s.subscribers.Nodup ∧ ∀ i ∈ s.subscribers, i < s.handlers.length
  subscribed : ∀ i h, s.handlers[i]? = some h → (i ∈ s.subscribers ↔ h.point ≠ .closed)

namespace Served

variable {s s' : State} {i : ℕ} {h h' : Handler}

/-- What a step leaves of it that puts nothing to the handler. -/
theorem congr (H : Served s i h) (hpub : s'.published = s.published)
    (hover : s'.overlaps = s.overlaps)
    (hpend : pendingFor i s'.publishing = pendingFor i s.publishing)
    (hsince : h'.since = h.since) (hacc : h'.accepted = h.accepted)
    (hdrop : h'.dropped = h.dropped) (hopen : h'.point ≠ .closed → h.point ≠ .closed) :
    Served s' i h' := by
  have hids : h'.ids s' i = h.ids s i := by rw [Handler.ids, Handler.ids, hacc, hdrop, hpend]
  constructor
  · rw [hids]
    exact H.nodup
  · rw [hids, hpub, hsince]
    exact H.range
  · rw [hpub, hsince]
    exact H.since_le
  · rw [hids, hpub, hsince]
    exact fun ho => H.all (hopen ho)
  · rw [hacc, hpub]
    exact H.safe
  · rw [hacc, hover]
    exact H.order

/-- A publish begins; it will serve the handlers that are there. -/
theorem publish (H : Served s i h) {order : List ℕ} (event : Dict)
    (horder : i ∈ order ↔ h.point ≠ .closed) :
    Served { s with
      publishing := s.publishing ++ [⟨⟨s.published.length, safeEvent event⟩, order⟩]
      published := s.published ++ [event]
      overlaps := s.overlaps ++
        s.publishing.map fun p => (p.safe.id, s.published.length) } i h := by
  set s' : State := { s with
      publishing := s.publishing ++ [⟨⟨s.published.length, safeEvent event⟩, order⟩]
      published := s.published ++ [event]
      overlaps := s.overlaps ++ s.publishing.map fun p => (p.safe.id, s.published.length) }
  have hlen : s'.published.length = s.published.length + 1 := List.length_append
  have hids : h.ids s' i = h.ids s i ++ if i ∈ order then [s.published.length] else [] := by
    rw [Handler.ids, Handler.ids, List.append_assoc, pendingFor_append, pendingFor_cons]
    rfl
  constructor
  · rw [hids]
    split
    · refine List.nodup_append.mpr ⟨H.nodup, List.pairwise_singleton _ _, fun k hk l hl hkl => ?_⟩
      rw [List.mem_singleton] at hl
      have hlt := (H.range k hk).2
      omega
    · rw [List.append_nil]
      exact H.nodup
  · intro k hk
    have hle := H.since_le
    rw [hids, List.mem_append] at hk
    rw [hlen]
    rcases hk with hk | hk
    · exact ⟨(H.range k hk).1, Nat.lt_succ_of_lt (H.range k hk).2⟩
    · split at hk
      · rw [List.mem_singleton] at hk
        omega
      · cases hk
  · rw [hlen]
    exact Nat.le_succ_of_le H.since_le
  · intro ho k hsince hk
    rw [hlen] at hk
    rw [hids, if_pos (horder.mpr ho), List.mem_append, List.mem_singleton]
    by_cases hkn : k < s.published.length
    · exact .inl (H.all ho k hsince hkn)
    · exact .inr (by omega)
  · intro e he
    obtain ⟨event', hevent, heq⟩ := H.safe e he
    have hlt : e.id < s.published.length := (List.getElem?_eq_some_iff.mp hevent).1
    exact ⟨event', (List.getElem?_append_left hlt).trans hevent, heq⟩
  · exact H.order.imp fun hef => hef.imp_right (List.mem_append_left _)

/-- A publish comes to a handler: its event is in the queue or dropped. -/
theorem putNowait {before after : List Publish} {e : Safe} {rest : List ℕ}
    (S : Sound s) (H : Served s i h) (hpub : s.publishing = before ++ ⟨e, i :: rest⟩ :: after) :
    Served { s.put i (h.putNowait e) with publishing := before ++ ⟨e, rest⟩ :: after } i
      (h.putNowait e) := by
  have hmem : (⟨e, i :: rest⟩ : Publish) ∈ s.publishing := by
    rw [hpub]
    exact List.mem_append_right _ List.mem_cons_self
  set s' : State := { s.put i (h.putNowait e) with publishing := before ++ ⟨e, rest⟩ :: after }
  have hgone : i ∉ rest := (List.nodup_cons.mp (S.rest _ hmem).1).1
  have hpend : (pendingFor i s.publishing).Perm (e.id :: pendingFor i s'.publishing) := by
    show (pendingFor i s.publishing).Perm (e.id :: pendingFor i (before ++ ⟨e, rest⟩ :: after))
    rw [hpub, pendingFor_append, pendingFor_append, pendingFor_cons, pendingFor_cons,
      if_pos List.mem_cons_self, if_neg hgone]
    exact List.perm_middle
  have hids : ((h.putNowait e).ids s' i).Perm (h.ids s i) := by
    rw [Handler.ids, Handler.ids]
    refine (h.putNowait_ids e |>.append_right _).trans ?_
    rw [List.append_assoc]
    exact hpend.symm.append_left _
  -- the event came to the handler for the first time
  have hfresh : e.id ∉ h.accepted.map (·.id) := by
    intro he
    have hnodup := H.nodup
    rw [Handler.ids, List.map_append, List.append_assoc] at hnodup
    refine (List.nodup_append.mp hnodup).2.2 _ he _ (List.mem_append_right _ ?_) rfl
    exact hpend.mem_iff.mpr List.mem_cons_self
  constructor
  · exact hids.nodup_iff.mpr H.nodup
  · intro k hk
    rw [h.putNowait_since]
    exact H.range k (hids.mem_iff.mp hk)
  · rw [h.putNowait_since]
    exact H.since_le
  · rw [h.putNowait_point, h.putNowait_since]
    exact fun ho k hk hlt => hids.mem_iff.mpr (H.all ho k hk hlt)
  · intro f hf
    rcases h.putNowait_cases e with ⟨hacc, -⟩ | ⟨hacc, -⟩
    · rw [hacc, List.mem_append, List.mem_singleton] at hf
      rcases hf with hf | rfl
      · exact H.safe f hf
      · exact S.safe _ hmem
    · rw [hacc] at hf
      exact H.safe f hf
  · rcases h.putNowait_cases e with ⟨hacc, -⟩ | ⟨hacc, -⟩
    · rw [hacc]
      refine List.pairwise_append.mpr ⟨H.order, List.pairwise_singleton _ _, fun f hf g hg => ?_⟩
      rw [List.mem_singleton] at hg
      subst hg
      obtain ⟨event, hevent, -⟩ := H.safe f hf
      have hne : f.id ≠ g.id := fun heq => hfresh (heq ▸ List.mem_map_of_mem hf)
      by_cases hlt : f.id < g.id
      · exact .inl hlt
      · exact .inr (S.overlaps _ hmem f.id (by show g.id < f.id; omega)
          (List.getElem?_eq_some_iff.mp hevent).1)
    · rw [hacc]
      exact H.order

end Served

/-! ## The bus -/

/-- The invariant. -/
structure Consistent (s : State) : Prop where
  sound : Sound s
  flowing : ∀ (i : ℕ) (h : Handler), s.handlers[i]? = some h → h.Flowing
  served : ∀ (i : ℕ) (h : Handler), s.handlers[i]? = some h → Served s i h

theorem put_handlers {s : State} {i j : ℕ} {h k : Handler}
    (hk : (s.put i h).handlers[j]? = some k) :
    (j = i ∧ k = h) ∨ (j ≠ i ∧ s.handlers[j]? = some k) := by
  rw [State.put, List.getElem?_set] at hk
  by_cases hij : i = j
  · rw [if_pos hij] at hk
    split at hk
    · exact .inl ⟨hij.symm, (Option.some.inj hk).symm⟩
    · cases hk
  · rw [if_neg hij] at hk
    exact .inr ⟨fun h => hij h.symm, hk⟩

namespace Consistent

variable {s : State} {i : ℕ} {h h' : Handler}

theorem init : Consistent {} where
  sound := {
    rest := fun p hp => by cases hp
    safe := fun p hp => by cases hp
    overlaps := fun p hp => by cases hp
    subscribers := ⟨List.nodup_nil, fun i hi => by cases hi⟩
    subscribed := fun i h hi => by cases hi }
  flowing i h hi := by cases hi
  served i h hi := by cases hi

theorem connect (H : Consistent s) : Consistent { s with
    handlers := s.handlers ++ [{ since := s.published.length }]
    subscribers := s.subscribers ++ [s.handlers.length] } := by
  have hget : ∀ i h, (s.handlers ++ [{ since := s.published.length }])[i]? = some h →
      s.handlers[i]? = some h ∨ (i = s.handlers.length ∧ h = { since := s.published.length }) := by
    intro i h hi
    rw [List.getElem?_append] at hi
    split at hi
    · exact .inl hi
    · rename_i hlt
      obtain ⟨hlen, heq⟩ := List.getElem?_eq_some_iff.mp hi
      rw [List.length_singleton] at hlen
      rw [List.getElem_singleton] at heq
      exact .inr ⟨by omega, heq.symm⟩
  have hnew : ∀ p ∈ s.publishing, s.handlers.length ∉ p.rest := by
    intro p hp hmem
    exact Nat.lt_irrefl _ ((H.sound.rest p hp).2 _ hmem)
  have hlast : s.handlers.length ∉ s.subscribers := fun hmem =>
    Nat.lt_irrefl _ (H.sound.subscribers.2 _ hmem)
  refine ⟨⟨?_, H.sound.safe, H.sound.overlaps, ⟨?_, ?_⟩, ?_⟩, ?_, ?_⟩
  · intro p hp
    refine ⟨(H.sound.rest p hp).1, fun i hi => ?_⟩
    rw [List.length_append]
    exact Nat.lt_add_right 1 ((H.sound.rest p hp).2 i hi)
  · refine List.nodup_append.mpr ⟨H.sound.subscribers.1, List.pairwise_singleton _ _, ?_⟩
    intro k hk l hl hkl
    rw [List.mem_singleton] at hl
    exact hlast (hl ▸ hkl ▸ hk)
  · intro i hi
    rw [List.length_append, List.length_singleton]
    rcases List.mem_append.mp hi with hi | hi
    · exact Nat.lt_succ_of_lt (H.sound.subscribers.2 i hi)
    · rw [List.mem_singleton] at hi
      omega
  · intro i h hi
    rw [List.mem_append, List.mem_singleton]
    rcases hget i h hi with hi | ⟨rfl, rfl⟩
    · have hne : i ≠ s.handlers.length := by
        have hlt := (List.getElem?_eq_some_iff.mp hi).1
        omega
      rw [or_iff_left hne]
      exact H.sound.subscribed i h hi
    · exact iff_of_true (.inr rfl) (by intro hc; cases hc)
  · intro i h hi
    rcases hget i h hi with hi | ⟨rfl, rfl⟩
    · exact H.flowing i h hi
    · exact Handler.Flowing.new _
  · intro i h hi
    rcases hget i h hi with hi | ⟨rfl, rfl⟩
    · exact (H.served i h hi).congr rfl rfl rfl rfl rfl rfl id
    · have hids : ({ since := s.published.length } : Handler).ids s s.handlers.length = [] := by
        show pendingFor _ s.publishing = []
        rw [pendingFor, List.filter_eq_nil_iff.mpr, List.map_nil]
        intro p hp
        rw [decide_eq_true_eq]
        exact hnew p hp
      refine Served.congr (h := { since := s.published.length }) (s := s)
        ?_ rfl rfl rfl rfl rfl rfl id
      constructor
      · rw [hids]
        exact List.nodup_nil
      · rw [hids]
        intro k hk
        cases hk
      · exact Nat.le_refl _
      · intro _ k hk hlt
        exact absurd hlt (Nat.not_lt.mpr hk)
      · intro e he
        cases he
      · exact .nil

/-- A handler goes on by itself. -/
theorem put (H : Consistent s) (hi : s.handlers[i]? = some h) (hflow : h'.Flowing)
    (hsince : h'.since = h.since) (hacc : h'.accepted = h.accepted)
    (hdrop : h'.dropped = h.dropped) (hopen : h'.point ≠ .closed ↔ h.point ≠ .closed) :
    Consistent (s.put i h') := by
  have hlen : (s.put i h').handlers.length = s.handlers.length := List.length_set
  refine ⟨⟨?_, H.sound.safe, H.sound.overlaps, ?_, ?_⟩, ?_, ?_⟩
  · rw [hlen]
    exact H.sound.rest
  · rw [hlen]
    exact H.sound.subscribers
  · intro j k hk
    rcases put_handlers hk with ⟨rfl, rfl⟩ | ⟨-, hk⟩
    · exact (H.sound.subscribed j h hi).trans hopen.symm
    · exact H.sound.subscribed j k hk
  · intro j k hk
    rcases put_handlers hk with ⟨-, rfl⟩ | ⟨-, hk⟩
    · exact hflow
    · exact H.flowing j k hk
  · intro j k hk
    rcases put_handlers hk with ⟨rfl, rfl⟩ | ⟨-, hk⟩
    · exact (H.served j h hi).congr rfl rfl rfl hsince hacc hdrop hopen.mp
    · exact (H.served j k hk).congr rfl rfl rfl rfl rfl rfl id

theorem leave (H : Consistent s) (hi : s.handlers[i]? = some h) :
    Consistent
      { s.put i { h with point := .closed } with subscribers := s.subscribers.erase i } := by
  have hlen : (s.put i { h with point := .closed }).handlers.length = s.handlers.length :=
    List.length_set
  refine ⟨⟨?_, H.sound.safe, H.sound.overlaps, ⟨?_, ?_⟩, ?_⟩, ?_, ?_⟩
  · rw [hlen]
    exact H.sound.rest
  · exact H.sound.subscribers.1.erase i
  · intro j hj
    rw [hlen]
    exact H.sound.subscribers.2 j (List.mem_of_mem_erase hj)
  · intro j k hk
    rw [H.sound.subscribers.1.mem_erase_iff]
    rcases put_handlers hk with ⟨rfl, rfl⟩ | ⟨hne, hk⟩
    · exact iff_of_false (fun hj => hj.1 rfl) (fun hc => hc rfl)
    · rw [and_iff_right hne]
      exact H.sound.subscribed j k hk
  · intro j k hk
    rcases put_handlers hk with ⟨-, rfl⟩ | ⟨-, hk⟩
    · exact (H.flowing i h hi).leave
    · exact H.flowing j k hk
  · intro j k hk
    rcases put_handlers hk with ⟨rfl, rfl⟩ | ⟨-, hk⟩
    · exact (H.served j h hi).congr rfl rfl rfl rfl rfl rfl fun hc => absurd rfl hc
    · exact (H.served j k hk).congr rfl rfl rfl rfl rfl rfl id

theorem publish (H : Consistent s) {order : List ℕ} (event : Dict)
    (horder : order.Perm s.subscribers) :
    Consistent { s with
      publishing := s.publishing ++ [⟨⟨s.published.length, safeEvent event⟩, order⟩]
      published := s.published ++ [event]
      overlaps := s.overlaps ++ s.publishing.map fun p => (p.safe.id, s.published.length) } := by
  refine ⟨⟨?_, ?_, ?_, H.sound.subscribers, H.sound.subscribed⟩, H.flowing, ?_⟩
  · intro p hp
    rw [List.mem_append, List.mem_singleton] at hp
    rcases hp with hp | rfl
    · exact H.sound.rest p hp
    · exact ⟨horder.nodup_iff.mpr H.sound.subscribers.1,
        fun i hi => H.sound.subscribers.2 i (horder.mem_iff.mp hi)⟩
  · intro p hp
    rw [List.mem_append, List.mem_singleton] at hp
    rcases hp with hp | rfl
    · obtain ⟨event', hevent, heq⟩ := H.sound.safe p hp
      have hlt := (List.getElem?_eq_some_iff.mp hevent).1
      exact ⟨event', (List.getElem?_append_left hlt).trans hevent, heq⟩
    · exact ⟨event, List.getElem?_concat_length, rfl⟩
  · intro p hp k hlt hk
    rw [List.length_append, List.length_singleton] at hk
    rw [List.mem_append, List.mem_singleton] at hp
    rcases hp with hp | rfl
    · by_cases hkn : k < s.published.length
      · exact List.mem_append_left _ (H.sound.overlaps p hp k hlt hkn)
      · obtain rfl : k = s.published.length := by omega
        exact List.mem_append_right _ (List.mem_map_of_mem hp)
    · exact absurd hlt (by show ¬ s.published.length < k; omega)
  · intro i h hi
    refine (H.served i h hi).publish event ?_
    rw [horder.mem_iff]
    exact H.sound.subscribed i h hi

/-- Publishes that stand for the same events, with no more to serve. -/
theorem narrow (S : Sound s) {publishing : List Publish}
    (hless : ∀ p ∈ publishing, ∃ p' ∈ s.publishing, p.safe = p'.safe ∧ p.rest.Sublist p'.rest) :
    Sound { s with publishing := publishing } := by
  refine ⟨?_, ?_, ?_, S.subscribers, S.subscribed⟩
  · intro p hp
    obtain ⟨p', hp', -, hrest⟩ := hless p hp
    exact ⟨(S.rest p' hp').1.sublist hrest, fun i hi => (S.rest p' hp').2 i (hrest.mem hi)⟩
  · intro p hp
    obtain ⟨p', hp', hsafe, -⟩ := hless p hp
    rw [hsafe]
    exact S.safe p' hp'
  · intro p hp
    obtain ⟨p', hp', hsafe, -⟩ := hless p hp
    rw [hsafe]
    exact S.overlaps p' hp'

theorem putNowait (H : Consistent s) {before after : List Publish} {e : Safe} {rest : List ℕ}
    (hpub : s.publishing = before ++ ⟨e, i :: rest⟩ :: after) (hi : s.handlers[i]? = some h) :
    Consistent { s.put i (h.putNowait e) with publishing := before ++ ⟨e, rest⟩ :: after } := by
  have hlen : (s.put i (h.putNowait e)).handlers.length = s.handlers.length := List.length_set
  have hnarrow : Sound { s with publishing := before ++ ⟨e, rest⟩ :: after } := by
    refine narrow H.sound fun p hp => ?_
    rw [hpub]
    rw [List.mem_append, List.mem_cons] at hp
    rcases hp with hp | rfl | hp
    · exact ⟨p, List.mem_append_left _ hp, rfl, List.Sublist.refl _⟩
    · exact ⟨_, List.mem_append_right _ List.mem_cons_self, rfl, List.sublist_cons_self _ _⟩
    · exact ⟨p, List.mem_append_right _ (List.mem_cons_of_mem _ hp), rfl, List.Sublist.refl _⟩
  refine ⟨⟨?_, hnarrow.safe, hnarrow.overlaps, ?_, ?_⟩, ?_, ?_⟩
  · rw [hlen]
    exact hnarrow.rest
  · rw [hlen]
    exact H.sound.subscribers
  · intro j k hk
    rcases put_handlers hk with ⟨rfl, rfl⟩ | ⟨-, hk⟩
    · rw [h.putNowait_point]
      exact H.sound.subscribed j h hi
    · exact H.sound.subscribed j k hk
  · intro j k hk
    rcases put_handlers hk with ⟨-, rfl⟩ | ⟨-, hk⟩
    · exact (H.flowing i h hi).putNowait e
    · exact H.flowing j k hk
  · intro j k hk
    rcases put_handlers hk with ⟨rfl, rfl⟩ | ⟨hne, hk⟩
    · exact Served.putNowait H.sound (H.served j h hi) hpub
    · refine (H.served j k hk).congr rfl rfl ?_ rfl rfl rfl id
      show pendingFor j (before ++ ⟨e, rest⟩ :: after) = pendingFor j s.publishing
      rw [hpub, pendingFor_append, pendingFor_append, pendingFor_cons, pendingFor_cons]
      simp only [List.mem_cons, or_iff_right hne]

theorem done (H : Consistent s) {before after : List Publish} {e : Safe}
    (hpub : s.publishing = before ++ ⟨e, []⟩ :: after) :
    Consistent { s with publishing := before ++ after } := by
  refine ⟨narrow H.sound fun p hp => ?_, H.flowing, fun i h hi => ?_⟩
  · refine ⟨p, ?_, rfl, List.Sublist.refl _⟩
    rw [hpub, List.mem_append, List.mem_cons]
    exact (List.mem_append.mp hp).imp_right .inr
  · refine (H.served i h hi).congr rfl rfl ?_ rfl rfl rfl id
    show pendingFor i (before ++ after) = pendingFor i s.publishing
    rw [hpub, pendingFor_append, pendingFor_append, pendingFor_cons, if_neg List.not_mem_nil]

theorem step {s' : State} (H : Consistent s) (hstep : Step s s') : Consistent s' := by
  cases hstep with
  | connect => exact H.connect
  | snapshot snapshot hi hp =>
    refine H.put hi ((H.flowing _ _ hi).snapshot hp snapshot) rfl rfl rfl ?_
    rw [hp]
    exact iff_of_true (by intro hc; cases hc) (by intro hc; cases hc)
  | get hi hp hq =>
    refine H.put hi ((H.flowing _ _ hi).get hp hq) rfl rfl rfl ?_
    rw [hp]
    exact iff_of_true (by intro hc; cases hc) (by intro hc; cases hc)
  | send hi hp =>
    refine H.put hi ((H.flowing _ _ hi).send hp) rfl rfl rfl ?_
    rw [hp]
    exact iff_of_true (by intro hc; cases hc) (by intro hc; cases hc)
  | leave hi _ => exact H.leave hi
  | publish event horder => exact H.publish event horder
  | put hpub hi => exact H.putNowait hpub hi
  | done hpub => exact H.done hpub

end Consistent

theorem reachable_consistent {s : State} (hs : Reachable s) : Consistent s := by
  induction hs with
  | init => exact Consistent.init
  | step _ hstep ih => exact ih.step hstep

/-- What a client has received is nothing, or a snapshot and then events in the order in
which they came to its queue: each of another publish since it connected, what the
denylist leaves of it, and the earlier publish first unless the two overlapped. -/
theorem ws_client_sees {s : State} (hs : Reachable s) {i : ℕ} {h : Handler}
    (hi : s.handlers[i]? = some h) :
    ∃ sent, Received h.received sent ∧ sent <+: h.accepted ∧ (sent.map (·.id)).Nodup ∧
      (∀ e ∈ sent, h.since ≤ e.id ∧ (∀ k ∈ redactedKeys, e.event.has k = false) ∧
        ∃ event, s.published[e.id]? = some event ∧ e.event = safeEvent event) ∧
      sent.Pairwise fun e f => e.id < f.id ∨ (f.id, e.id) ∈ s.overlaps := by
  have H := reachable_consistent hs
  obtain ⟨sent, lost, hrec, hacc, -⟩ := (H.flowing i h hi).flow
  have hserved := H.served i h hi
  have hpre : sent <+: h.accepted := by
    rw [hacc, List.append_assoc]
    exact List.prefix_append _ _
  refine ⟨sent, hrec, hpre, ?_, ?_, hserved.order.sublist hpre.sublist⟩
  · have hnodup := hserved.nodup
    rw [Handler.ids, List.map_append, List.append_assoc] at hnodup
    exact (List.nodup_append.mp hnodup).1.sublist (hpre.sublist.map _)
  · intro e he
    obtain ⟨event, hevent, heq⟩ := hserved.safe e (hpre.subset he)
    refine ⟨?_, ?_, event, hevent, heq⟩
    · refine (hserved.range e.id ?_).1
      exact List.mem_append_left _ (List.mem_map_of_mem (List.mem_append_left _ (hpre.subset he)))
    · intro k hk
      rw [heq, Dict.has, safeEvent, List.any_eq_false]
      intro kv hkv
      have hsafe := of_decide_eq_true (List.mem_filter.mp hkv).2
      rw [decide_eq_true_eq]
      rintro rfl
      exact hsafe hk

/-- A handler that was sent the second of two events, with the first in its queue. -/
def servedTwo (first second : Dict) : Handler where
  q := [⟨0, safeEvent first⟩]
  point := .waiting
  received := [.connected .null, .event ⟨1, safeEvent second⟩]
  since := 0
  accepted := [⟨1, safeEvent second⟩, ⟨0, safeEvent first⟩]

def twoEvents (first second : Dict) : State where
  handlers := [servedTwo first second]
  subscribers := [0]
  published := [first, second]
  overlaps := [(0, 1)]

/-- The publishes overlap, and the second comes to the queue before the first. -/
theorem reachable_twoEvents (first second : Dict) : Reachable (twoEvents first second) := by
  have hconnect : Reachable _ := .step .init (.connect {})
  have hsnapshot : Reachable _ := .step hconnect (.snapshot (i := 0) .null rfl rfl)
  have hfirst : Reachable _ := .step hsnapshot (.publish first (List.Perm.refl [0]))
  have hsecond : Reachable _ := .step hfirst (.publish second (List.Perm.refl [0]))
  have hput : Reachable _ := .step hsecond
    (.put (i := 0) (show _ = [_] ++ _ :: [] from rfl) rfl)
  have hdone : Reachable _ := .step hput (.done (show _ = [_] ++ _ :: [] from rfl))
  have hput' : Reachable _ := .step hdone
    (.put (i := 0) (show _ = ([] : List Publish) ++ _ :: [] from rfl) rfl)
  have hdone' : Reachable _ := .step hput'
    (.done (show _ = ([] : List Publish) ++ _ :: [] from rfl))
  have hget : Reachable _ := .step hdone' (.get (i := 0) rfl rfl rfl)
  have hsend : Reachable _ := .step hget (.send (i := 0) rfl rfl)
  exact hsend

/-- An event with a prompt. -/
def activeEvent : Dict := [("event", .str "active"), ("prompt", .str "hello")]

/-- And one without. -/
def queuedEvent : Dict := [("event", .str "queued")]

theorem ws_client_sees_two :
    ∃ sent, Received (servedTwo activeEvent queuedEvent).received sent ∧
      sent <+: (servedTwo activeEvent queuedEvent).accepted ∧ (sent.map (·.id)).Nodup ∧
      (∀ e ∈ sent, 0 ≤ e.id ∧ (∀ k ∈ redactedKeys, e.event.has k = false) ∧
        ∃ event, [activeEvent, queuedEvent][e.id]? = some event ∧ e.event = safeEvent event) ∧
      sent.Pairwise fun e f => e.id < f.id ∨ (f.id, e.id) ∈ [(0, 1)] :=
  ws_client_sees (reachable_twoEvents activeEvent queuedEvent) (i := 0) rfl

/-- While a handler is there, every publish since it connected has its event accepted or
dropped by the queue, once, or is still to come to it; what was accepted is sent, in
hand or waiting, at most 1000 of it waiting; and nothing was dropped unless 1000 were
accepted. -/
theorem lost_only_when_full {s : State} (hs : Reachable s) {i : ℕ} {h : Handler}
    (hi : s.handlers[i]? = some h) (hopen : h.point ≠ .closed) :
    ((h.accepted ++ h.dropped).map (·.id) ++ pendingFor i s.publishing).Perm
        (List.range' h.since (s.published.length - h.since)) ∧
      (∃ sent, Received h.received sent ∧ h.accepted = sent ++ h.point.inHand ++ h.q) ∧
      h.q.length ≤ 1000 ∧ (h.dropped ≠ [] → 1000 ≤ h.accepted.length) := by
  have H := reachable_consistent hs
  have hserved := H.served i h hi
  have hflow := H.flowing i h hi
  refine ⟨?_, ?_, hflow.bounded, hflow.full⟩
  · have hle := hserved.since_le
    refine (List.perm_ext_iff_of_nodup hserved.nodup List.nodup_range').mpr fun k => ?_
    rw [List.mem_range'_1]
    constructor
    · intro hk
      have hrange := hserved.range k hk
      omega
    · rintro ⟨hsince, hlt⟩
      exact hserved.all hopen k hsince (by omega)
  · obtain ⟨sent, lost, hrec, hacc, hlost⟩ := hflow.flow
    exact ⟨sent, hrec, hlost hopen ▸ hacc⟩

theorem lost_only_when_full_two :
    let h := servedTwo activeEvent queuedEvent
    ((h.accepted ++ h.dropped).map (·.id) ++ pendingFor 0 []).Perm (List.range' 0 (2 - 0)) ∧
      (∃ sent, Received h.received sent ∧ h.accepted = sent ++ h.point.inHand ++ h.q) ∧
      h.q.length ≤ 1000 ∧ (h.dropped ≠ [] → 1000 ≤ h.accepted.length) :=
  lost_only_when_full (reachable_twoEvents activeEvent queuedEvent) (i := 0) rfl
    (by intro hc; cases hc)

end Turbohaul.Events
