/-
# `LiveSupervisor` — the pollers of the residents, over the life of the task

`run` of `LiveResidentsSupervisor` from await to await, until it is cancelled or told to
stop; what it stores is that of `LivePoll`.

  `enroll`              `_tick` up to its `gather`: a poller where there is none
  `Phase.polling`       the `gather`; the polls end in any order
  `Phase.collecting`    `_gc_vanished`, and `Phase.dropping` its `aclose`
  `Phase.between`       `_refresh_vram` and the sleep
  `Phase.closing`       `_close_all`

A client counts as closed once `aclose` is called on it.
-/
import Turbohaul.LivePoll

namespace Turbohaul.LiveMonitor

/-- A poller, with a client of its own, for every model that has none. -/
def enroll : List (String × ℕ) × ℕ → List String → List (String × ℕ) × ℕ
  | st, [] => st
  | (pollers, opened), tag :: tags =>
    if tag ∈ pollers.map Prod.fst then enroll (pollers, opened) tags
    else enroll (pollers ++ [(tag, opened)], opened + 1) tags

/-- The residents that are polled, under their models. -/
def polled (w : World) : List (String × ℕ) :=
  w.modelResidents.filterMap fun r => (w.resident r).modelTag.map fun tag => (tag, r)

/-- Where the task is. -/
inductive Phase where
  | between
  | polling (residents : List ℕ) (pending : List (String × ℕ))
  | collecting (residents : List ℕ) (rest : List String)
  | dropping (residents : List ℕ) (rest : List String)
  | closing (rest : List ℕ)
  | done

/-- The task, with all that it stored; the clients that were opened, by number, and those
that were closed; the models of the last tick, when it began and the manager it met. -/
structure Task where
  phase : Phase := .between
  acts : List Act := []
  pollers : List (String × ℕ) := []
  opened : ℕ := 0
  closed : List ℕ := []
  liveTags : List String := []
  begun : ℕ := 0
  met : Option World := none

/-- The clients that are still to be closed. -/
def Task.held (s : Task) : List ℕ :=
  match s.phase with
  | .closing rest => rest
  | .done => []
  | _ => s.pollers.map Prod.snd

/-- Where a cancellation can come. -/
def Phase.waits : Phase → Bool
  | .between | .polling .. | .dropping .. => true
  | _ => false

/-- What may happen: `w` is the manager at that moment. -/
inductive TaskStep : Task → Task → Prop
  | tick {s : Task} (w : World) : s.phase = .between →
      TaskStep s { s with
        phase := .polling w.modelResidents (polled w)
        pollers := (enroll (s.pollers, s.opened) ((polled w).map Prod.fst)).1
        opened := (enroll (s.pollers, s.opened) ((polled w).map Prod.fst)).2
        liveTags := (polled w).map Prod.fst
        begun := s.acts.length
        met := some w }
  | poll {s : Task} {residents : List ℕ} {before after : List (String × ℕ)} {tag : String} {r : ℕ}
      (p : Poll) : s.phase = .polling residents (before ++ (tag, r) :: after) →
      TaskStep s { s with
        phase := .polling residents (before ++ after)
        acts := s.acts ++ [.pollOne tag r p] }
  | gathered {s : Task} {residents : List ℕ} : s.phase = .polling residents [] →
      TaskStep s { s with phase := .collecting residents (s.pollers.map Prod.fst) }
  | keep {s : Task} {residents : List ℕ} {tag : String} {rest : List String} :
      s.phase = .collecting residents (tag :: rest) → tag ∈ s.liveTags →
      TaskStep s { s with phase := .collecting residents rest }
  | drop {s : Task} {residents : List ℕ} {tag : String} {rest : List String} {client : ℕ}
      {before after : List (String × ℕ)} : s.phase = .collecting residents (tag :: rest) →
      tag ∉ s.liveTags → s.pollers = before ++ (tag, client) :: after →
      TaskStep s { s with
        phase := .dropping residents rest
        acts := s.acts ++ [.drop tag]
        pollers := before ++ after
        closed := s.closed ++ [client] }
  | dropped {s : Task} {residents : List ℕ} {rest : List String} :
      s.phase = .dropping residents rest →
      TaskStep s { s with phase := .collecting residents rest }
  | mirror {s : Task} {residents : List ℕ} (w : World) : s.phase = .collecting residents [] →
      TaskStep s { s with phase := .between, acts := s.acts ++ [.mirror w residents] }
  | stop {s : Task} : s.phase.waits = true →
      TaskStep s { s with phase := .closing (s.pollers.map Prod.snd) }
  | close {s : Task} {client : ℕ} {rest : List ℕ} : s.phase = .closing (client :: rest) →
      TaskStep s { s with phase := .closing rest, closed := s.closed ++ [client] }
  | finish {s : Task} : s.phase = .closing [] →
      TaskStep s { s with phase := .done, acts := s.acts ++ [.closeAll], pollers := [] }

/-- What comes of a start. -/
inductive TaskReachable : Task → Prop
  | start : TaskReachable {}
  | step {s s' : Task} : TaskReachable s → TaskStep s s' → TaskReachable s'

/-! ## Pollers -/

section

variable {pollers : List (String × ℕ)} {opened : ℕ} {tags : List String}

theorem enroll_keys (pollers : List (String × ℕ)) (opened : ℕ) (tags : List String) :
    ∀ tag, tag ∈ (enroll (pollers, opened) tags).1.map Prod.fst ↔
      tag ∈ pollers.map Prod.fst ∨ tag ∈ tags := by
  induction tags generalizing pollers opened with
  | nil =>
    intro tag
    simp [enroll]
  | cons t tags ih =>
    intro tag
    rw [enroll]
    split
    · rename_i hmem
      rw [ih, List.mem_cons]
      constructor
      · rintro (h | h)
        · exact .inl h
        · exact .inr (.inr h)
      · rintro (h | rfl | h)
        · exact .inl h
        · exact .inl hmem
        · exact .inr h
    · rw [ih, List.map_append, List.mem_append, List.map_singleton, List.mem_singleton,
        List.mem_cons, or_assoc]

theorem enroll_nodup (h : (pollers.map Prod.fst).Nodup) :
    ((enroll (pollers, opened) tags).1.map Prod.fst).Nodup := by
  induction tags generalizing pollers opened with
  | nil => exact h
  | cons t tags ih =>
    rw [enroll]
    split
    · exact ih h
    · rename_i hnew
      refine ih ?_
      rw [List.map_append, List.nodup_append]
      refine ⟨h, List.pairwise_singleton _ _, fun a ha b hb hab => hnew ?_⟩
      have hb : b = t := List.mem_singleton.mp hb
      rwa [← hb, ← hab]

/-- Each client that is opened is that of one poller. -/
theorem enroll_clients {closed : List ℕ}
    (h : (closed ++ pollers.map Prod.snd).Perm (List.range opened)) :
    (closed ++ (enroll (pollers, opened) tags).1.map Prod.snd).Perm
      (List.range (enroll (pollers, opened) tags).2) := by
  induction tags generalizing pollers opened with
  | nil => exact h
  | cons t tags ih =>
    rw [enroll]
    split
    · exact ih h
    · refine ih ?_
      rw [List.map_append, ← List.append_assoc, List.range_succ]
      exact h.append_right _

end

/-! ## What is shown, and what is open -/

variable {L : Labels}

/-- A resident that is there to be polled for a model: registered by a key that is not the
singleton's, and not `DEAD`. -/
def Polled (w : World) (tag : String) (r : ℕ) : Prop :=
  (∃ key, (key, r) ∈ w.registry ∧ key ≠ singletonResidentKey) ∧
    (w.resident r).state ≠ .dead ∧ (w.resident r).modelTag = some tag

theorem polled_of_mem {w : World} {tr : String × ℕ} (h : tr ∈ polled w) : Polled w tr.1 tr.2 := by
  obtain ⟨r, hr, htag⟩ := List.mem_filterMap.mp h
  obtain ⟨tag, hmodel, rfl⟩ := Option.map_eq_some_iff.mp htag
  obtain ⟨e, he, rfl⟩ := List.mem_map.mp hr
  obtain ⟨hmem, hlive⟩ := List.mem_filter.mp he
  rw [Bool.and_eq_true] at hlive
  exact ⟨⟨e.1, hmem, of_decide_eq_true hlive.1⟩, of_decide_eq_true hlive.2, hmodel⟩

/-- The last tick met such a resident. -/
def Task.Met (s : Task) (tag : String) (r : ℕ) : Prop := ∃ w, s.met = some w ∧ Polled w tag r

/-- A block of the last tick: of a resident that was live when that began, and published
while its model had a live one. -/
def Fresh (L : Labels) (s : Task) (tag : String) (b : Generation Metrics) : Prop :=
  ∃ before r p after, s.acts = before ++ .pollOne tag r p :: after ∧ s.begun ≤ before.length ∧
    s.Met tag r ∧ b = (block L (.resident r) p ((supervisor L before).rates tag)).1 ∧
    ∃ r', p.after.registry.lookup tag = some r' ∧ (p.after.resident r').state ≠ .dead

/-- The blocks by model. -/
def Task.shown (L : Labels) (s : Task) : String → Option (Generation Metrics) :=
  (supervisor L s.acts).liveGenerations

/-- What is known of each phase. -/
def Task.Settled (L : Labels) (s : Task) : Prop :=
  match s.phase with
  | .between =>
    (∀ tag b, s.shown L tag = some b → tag ∈ s.liveTags ∧ Fresh L s tag b) ∧
      (∀ tag ∈ s.pollers.map Prod.fst, tag ∈ s.liveTags) ∧
      ∀ b, (supervisor L s.acts).liveGeneration = some b → ∃ tag, s.shown L tag = some b
  | .polling _ pending =>
    (∀ kr ∈ pending, kr.1 ∈ s.pollers.map Prod.fst ∧ s.Met kr.1 kr.2) ∧
      ∀ tag b, s.shown L tag = some b → tag ∈ s.liveTags →
        tag ∈ pending.map Prod.fst ∨ Fresh L s tag b
  | .collecting _ rest | .dropping _ rest =>
    (∀ tag ∈ s.pollers.map Prod.fst, tag ∈ s.liveTags ∨ tag ∈ rest) ∧
      ∀ tag b, s.shown L tag = some b → tag ∈ s.liveTags → Fresh L s tag b
  | .closing _ => True
  | .done =>
    s.pollers = [] ∧ (∀ tag, s.shown L tag = none) ∧ (supervisor L s.acts).liveGeneration = none

structure Task.Sane (L : Labels) (s : Task) : Prop where
  keys : (s.pollers.map Prod.fst).Nodup
  clients : (s.closed ++ s.held).Perm (List.range s.opened)
  begun : s.begun ≤ s.acts.length
  shown : ∀ tag b, s.shown L tag = some b → tag ∈ s.pollers.map Prod.fst
  settled : s.Settled L

section

variable {s : Task} {tag : String} {b : Generation Metrics}

theorem shown_concat (acts : List Act) (a : Act) :
    (supervisor L (acts ++ [a])).liveGenerations =
    ((supervisor L acts).act L a).liveGenerations := by
  rw [supervisor_concat]

/-- A block stays fresh in the tick that published it. -/
theorem Fresh.more {s' : Task} (h : Fresh L s tag b) {acts : List Act}
    (hacts : s'.acts = s.acts ++ acts) (hbegun : s'.begun = s.begun) (hmet : s'.met = s.met) :
    Fresh L s' tag b := by
  obtain ⟨before, r, p, after, heq, hle, ⟨w, hw, hr⟩, hrest⟩ := h
  refine ⟨before, r, p, after ++ acts, ?_, hbegun ▸ hle, ⟨w, hmet.trans hw, hr⟩, hrest⟩
  rw [hacts, heq, List.append_assoc, List.cons_append]

namespace Task.Sane

theorem start : Task.Sane L {} where
  keys := List.nodup_nil
  clients := .nil
  begun := Nat.le_refl _
  shown tag b h := by cases h
  settled := ⟨(fun tag b h => by cases h), (fun tag h => by cases h), fun b h => by cases h⟩

theorem tick (H : s.Sane L) (w : World) (hphase : s.phase = .between) :
    Task.Sane L { s with
      phase := .polling w.modelResidents (polled w)
      pollers := (enroll (s.pollers, s.opened) ((polled w).map Prod.fst)).1
      opened := (enroll (s.pollers, s.opened) ((polled w).map Prod.fst)).2
      liveTags := (polled w).map Prod.fst
      begun := s.acts.length
      met := some w } where
  keys := enroll_nodup H.keys
  clients := by
    have hclients := H.clients
    rw [Task.held, hphase] at hclients
    exact enroll_clients hclients
  begun := Nat.le_refl _
  shown tag b h := (enroll_keys _ _ _ tag).mpr (.inl (H.shown tag b h))
  settled := by
    refine ⟨fun kr hkr => ⟨?_, w, rfl, polled_of_mem hkr⟩, fun tag b _ htag => .inl htag⟩
    exact (enroll_keys _ _ _ _).mpr (.inr (List.mem_map_of_mem hkr))

theorem poll (H : s.Sane L) {residents : List ℕ} {before after : List (String × ℕ)} {r : ℕ}
    (p : Poll) (hphase : s.phase = .polling residents (before ++ (tag, r) :: after)) :
    Task.Sane L { s with
      phase := .polling residents (before ++ after)
      acts := s.acts ++ [.pollOne tag r p] } := by
  have hsettled := H.settled
  rw [Settled, hphase] at hsettled
  obtain ⟨hpending, hfresh⟩ := hsettled
  have hshown : ∀ k b, (supervisor L (s.acts ++ [.pollOne tag r p])).liveGenerations k = some b →
      (k = tag ∧ b = (block L (.resident r) p ((supervisor L s.acts).rates tag)).1 ∧
        ∃ r', p.after.registry.lookup tag = some r' ∧ (p.after.resident r').state ≠ .dead) ∨
        (k ≠ tag ∧ s.shown L k = some b) := by
    intro k b h
    rw [shown_concat] at h
    have h : (if k = tag then (p.after.liveResidentFor tag).map fun _ =>
        (block L (.resident r) p ((supervisor L s.acts).rates tag)).1 else s.shown L k) =
        some b := h
    split at h
    · rename_i hk
      obtain ⟨x, hx, rfl⟩ := Option.map_eq_some_iff.mp h
      obtain ⟨hlookup, hlive⟩ := Option.filter_eq_some_iff.mp hx
      exact .inl ⟨hk, rfl, x, hlookup, of_decide_eq_true hlive⟩
    · rename_i hk
      exact .inr ⟨hk, h⟩
  have hmem : (tag, r) ∈ before ++ (tag, r) :: after := List.mem_append_right _ List.mem_cons_self
  refine ⟨H.keys, ?_, ?_, fun k b h => ?_, fun kr hkr => ?_, fun k b h hlive => ?_⟩
  · have hclients := H.clients
    rw [held, hphase] at hclients
    exact hclients
  · show s.begun ≤ (s.acts ++ [_]).length
    rw [List.length_append]
    exact Nat.le_add_right_of_le H.begun
  · rcases hshown k b h with ⟨rfl, -, -⟩ | ⟨-, h⟩
    · exact (hpending _ hmem).1
    · exact H.shown k b h
  · refine hpending kr ?_
    rcases List.mem_append.mp hkr with hkr | hkr
    · exact List.mem_append_left _ hkr
    · exact List.mem_append_right _ (List.mem_cons_of_mem _ hkr)
  · rcases hshown k b h with ⟨rfl, hb, hp⟩ | ⟨hk, h⟩
    · exact .inr ⟨s.acts, r, p, [], rfl, H.begun, (hpending _ hmem).2, hb, hp⟩
    · rcases hfresh k b h hlive with hwait | hfresh
      · left
        rw [List.map_append, List.map_cons, List.mem_append, List.mem_cons] at hwait
        rw [List.map_append, List.mem_append]
        rcases hwait with hwait | hwait | hwait
        · exact .inl hwait
        · exact absurd hwait hk
        · exact .inr hwait
      · exact .inr (hfresh.more rfl rfl rfl)

theorem gathered (H : s.Sane L) {residents : List ℕ} (hphase : s.phase = .polling residents []) :
    Task.Sane L { s with phase := .collecting residents (s.pollers.map Prod.fst) } := by
  have hsettled := H.settled
  rw [Settled, hphase] at hsettled
  refine ⟨H.keys, ?_, H.begun, H.shown, fun tag htag => .inr htag, fun tag b h hlive => ?_⟩
  · have hclients := H.clients
    rw [held, hphase] at hclients
    exact hclients
  · rcases hsettled.2 tag b h hlive with hwait | hfresh
    · cases hwait
    · exact hfresh.more (List.append_nil _).symm rfl rfl

theorem keep (H : s.Sane L) {residents : List ℕ} {rest : List String}
    (hphase : s.phase = .collecting residents (tag :: rest)) (hlive : tag ∈ s.liveTags) :
    Task.Sane L { s with phase := .collecting residents rest } := by
  have hsettled := H.settled
  rw [Settled, hphase] at hsettled
  refine ⟨H.keys, ?_, H.begun, H.shown, fun k hk => ?_, fun k b h hlive => ?_⟩
  · have hclients := H.clients
    rw [held, hphase] at hclients
    exact hclients
  · rcases hsettled.1 k hk with hk | hk
    · exact .inl hk
    · rcases List.mem_cons.mp hk with rfl | hk
      · exact .inl hlive
      · exact .inr hk
  · exact (hsettled.2 k b h hlive).more (List.append_nil _).symm rfl rfl

theorem drop (H : s.Sane L) {residents : List ℕ} {rest : List String} {client : ℕ}
    {before after : List (String × ℕ)} (hphase : s.phase = .collecting residents (tag :: rest))
    (hpollers : s.pollers = before ++ (tag, client) :: after) :
    Task.Sane L { s with
      phase := .dropping residents rest
      acts := s.acts ++ [.drop tag]
      pollers := before ++ after
      closed := s.closed ++ [client] } := by
  have hsettled := H.settled
  rw [Settled, hphase] at hsettled
  have hkeys := H.keys
  rw [hpollers, List.map_append, List.map_cons] at hkeys
  have hperm : (before.map Prod.fst ++ tag :: after.map Prod.fst).Perm
      (tag :: (before ++ after).map Prod.fst) := by
    rw [List.map_append]
    exact List.perm_middle
  have hnodup := List.nodup_cons.mp (hperm.nodup_iff.mp hkeys)
  have hmem : ∀ k, k ∈ s.pollers.map Prod.fst ↔ k = tag ∨ k ∈ (before ++ after).map Prod.fst := by
    intro k
    rw [hpollers, List.map_append, List.map_cons]
    exact hperm.mem_iff.trans List.mem_cons
  have hshown : ∀ k b, (supervisor L (s.acts ++ [.drop tag])).liveGenerations k = some b →
      k ≠ tag ∧ s.shown L k = some b := by
    intro k b h
    rw [shown_concat] at h
    have h : (if k = tag then none else s.shown L k) = some b := h
    split at h
    · cases h
    · rename_i hk
      exact ⟨hk, h⟩
  refine ⟨hnodup.2, ?_, ?_, fun k b h => ?_, fun k hk => ?_, fun k b h hlive => ?_⟩
  · have hclients := H.clients
    rw [held, hphase, hpollers, List.map_append, List.map_cons] at hclients
    show (s.closed ++ [client] ++ (before ++ after).map Prod.snd).Perm _
    rw [List.append_assoc, List.map_append, List.singleton_append]
    exact (List.perm_middle.symm.append_left _).trans hclients
  · show s.begun ≤ (s.acts ++ [_]).length
    rw [List.length_append]
    exact Nat.le_add_right_of_le H.begun
  · obtain ⟨hk, h⟩ := hshown k b h
    exact ((hmem k).mp (H.shown k b h)).resolve_left hk
  · have hne : k ≠ tag := fun h => hnodup.1 (h ▸ hk)
    rcases hsettled.1 k ((hmem k).mpr (.inr hk)) with hlive | hrest
    · exact .inl hlive
    · exact .inr ((List.mem_cons.mp hrest).resolve_left hne)
  · obtain ⟨-, h⟩ := hshown k b h
    exact (hsettled.2 k b h hlive).more rfl rfl rfl

theorem dropped (H : s.Sane L) {residents : List ℕ} {rest : List String}
    (hphase : s.phase = .dropping residents rest) :
    Task.Sane L { s with phase := .collecting residents rest } := by
  have hsettled := H.settled
  rw [Settled, hphase] at hsettled
  have hclients := H.clients
  rw [held, hphase] at hclients
  exact ⟨H.keys, hclients, H.begun, H.shown, hsettled.1,
    fun k b h hlive => (hsettled.2 k b h hlive).more (List.append_nil _).symm rfl rfl⟩

theorem mirror (H : s.Sane L) {residents : List ℕ} (w : World)
    (hphase : s.phase = .collecting residents []) :
    Task.Sane L { s with phase := .between, acts := s.acts ++ [.mirror w residents] } := by
  have hsettled := H.settled
  rw [Settled, hphase] at hsettled
  have hclients := H.clients
  rw [held, hphase] at hclients
  have hlive : ∀ k ∈ s.pollers.map Prod.fst, k ∈ s.liveTags := by
    intro k hk
    rcases hsettled.1 k hk with h | h
    · exact h
    · cases h
  have hshown : (supervisor L (s.acts ++ [.mirror w residents])).liveGenerations = s.shown L := by
    rw [shown_concat]
    rfl
  refine ⟨H.keys, hclients, ?_, fun k b h => ?_, fun k b h => ?_, hlive, fun b h => ?_⟩
  · show s.begun ≤ (s.acts ++ [_]).length
    rw [List.length_append]
    exact Nat.le_add_right_of_le H.begun
  · have h : (supervisor L (s.acts ++ [.mirror w residents])).liveGenerations k = some b := h
    rw [hshown] at h
    exact H.shown k b h
  · have h : (supervisor L (s.acts ++ [.mirror w residents])).liveGenerations k = some b := h
    rw [hshown] at h
    have hk := hlive k (H.shown k b h)
    exact ⟨hk, (hsettled.2 k b h hk).more rfl rfl rfl⟩
  · rw [supervisor_concat] at h
    obtain ⟨k, hk⟩ := primary_mem h
    refine ⟨k, ?_⟩
    show (supervisor L (s.acts ++ [.mirror w residents])).liveGenerations k = some b
    rw [hshown]
    exact hk

theorem stop (H : s.Sane L) (hphase : s.phase.waits = true) :
    Task.Sane L { s with phase := .closing (s.pollers.map Prod.snd) } := by
  refine ⟨H.keys, ?_, H.begun, H.shown, trivial⟩
  have hclients := H.clients
  rw [held] at hclients
  cases hp : s.phase with
  | between =>
    rw [hp] at hclients
    exact hclients
  | polling residents pending =>
    rw [hp] at hclients
    exact hclients
  | dropping residents rest =>
    rw [hp] at hclients
    exact hclients
  | collecting residents rest =>
    rw [hp] at hphase
    cases hphase
  | closing rest =>
    rw [hp] at hphase
    cases hphase
  | done =>
    rw [hp] at hphase
    cases hphase

theorem close (H : s.Sane L) {client : ℕ} {rest : List ℕ}
    (hphase : s.phase = .closing (client :: rest)) :
    Task.Sane L { s with phase := .closing rest, closed := s.closed ++ [client] } := by
  refine ⟨H.keys, ?_, H.begun, H.shown, trivial⟩
  have hclients := H.clients
  rw [held, hphase] at hclients
  show (s.closed ++ [client] ++ rest).Perm _
  rwa [List.append_assoc, List.singleton_append]

theorem finish (H : s.Sane L) (hphase : s.phase = .closing []) :
    Task.Sane L { s with phase := .done, acts := s.acts ++ [.closeAll], pollers := [] } := by
  have hclients := H.clients
  rw [held, hphase] at hclients
  have hnone : supervisor L (s.acts ++ [.closeAll]) = {} := by
    rw [supervisor_concat]
    rfl
  refine ⟨List.nodup_nil, hclients, ?_, fun k b h => ?_, rfl, fun k => ?_, ?_⟩
  · show s.begun ≤ (s.acts ++ [_]).length
    rw [List.length_append]
    exact Nat.le_add_right_of_le H.begun
  · have h : (supervisor L (s.acts ++ [.closeAll])).liveGenerations k = some b := h
    rw [hnone] at h
    cases h
  · show (supervisor L (s.acts ++ [.closeAll])).liveGenerations k = none
    rw [hnone]
  · show (supervisor L (s.acts ++ [.closeAll])).liveGeneration = none
    rw [hnone]

theorem step {s' : Task} (H : s.Sane L) (hstep : TaskStep s s') : s'.Sane L := by
  cases hstep with
  | tick w h => exact H.tick w h
  | poll p h => exact H.poll p h
  | gathered h => exact H.gathered h
  | keep h hlive => exact H.keep h hlive
  | drop h _ hpollers => exact H.drop h hpollers
  | dropped h => exact H.dropped h
  | mirror w h => exact H.mirror w h
  | stop h => exact H.stop h
  | close h => exact H.close h
  | finish h => exact H.finish h

end Task.Sane

end

theorem task_sane (L : Labels) {s : Task} (hs : TaskReachable s) : s.Sane L := by
  induction hs with
  | start => exact Task.Sane.start
  | step _ hstep ih => exact ih.step hstep

/-- Every client is closed once or still held, and none is held at the end, when nothing
is shown any more.  A model that is shown has a poller; and between two ticks its block is
of the last of them: of a resident that was live when it began, and published while the
model had a live one.  The alias is one of these blocks. -/
theorem supervisor_tidy (L : Labels) {s : Task} (hs : TaskReachable s) :
    (s.closed ++ s.held).Perm (List.range s.opened) ∧
      (∀ tag b, s.shown L tag = some b → tag ∈ s.pollers.map Prod.fst) ∧
      (s.phase = .between →
        (∀ tag b, s.shown L tag = some b → tag ∈ s.liveTags ∧ Fresh L s tag b) ∧
        ∀ b, (supervisor L s.acts).liveGeneration = some b → ∃ tag, s.shown L tag = some b) ∧
      (s.phase = .done → s.held = [] ∧ (∀ tag, s.shown L tag = none) ∧
        (supervisor L s.acts).liveGeneration = none) := by
  have H := task_sane L hs
  have hsettled := H.settled
  refine ⟨H.clients, H.shown, fun hphase => ?_, fun hphase => ?_⟩
  · rw [Task.Settled, hphase] at hsettled
    exact ⟨hsettled.1, hsettled.2.2⟩
  · rw [Task.Settled, hphase] at hsettled
    refine ⟨?_, hsettled.2⟩
    rw [Task.held, hphase]

/-- A poll of the resident that serves. -/
def served : Poll where
  before := serving
  after := serving
  reply := some (decoding, 0)

theorem polled_serving : polled serving = [("m", 1)] := by decide +kernel

theorem supervisor_tidy_one :
    ∃ s : Task, s.phase = .between ∧ s.opened = 1 ∧ (s.shown twoRequests "m").isSome ∧
      (s.closed ++ s.held).Perm (List.range s.opened) ∧
      (∀ tag b, s.shown twoRequests tag = some b → tag ∈ s.pollers.map Prod.fst) ∧
      (s.phase = .between →
        (∀ tag b, s.shown twoRequests tag = some b → tag ∈ s.liveTags ∧ Fresh twoRequests s tag b) ∧
        ∀ b, (supervisor twoRequests s.acts).liveGeneration = some b →
          ∃ tag, s.shown twoRequests tag = some b) ∧
      (s.phase = .done → s.held = [] ∧ (∀ tag, s.shown twoRequests tag = none) ∧
        (supervisor twoRequests s.acts).liveGeneration = none) := by
  have htick := TaskReachable.start.step (.tick serving rfl)
  rw [polled_serving] at htick
  have hpoll := htick.step (.poll served (show _ = Phase.polling _ ([] ++ _ :: []) from rfl))
  have hgathered := hpoll.step (.gathered rfl)
  have hkeep := hgathered.step (.keep rfl (List.mem_singleton_self _))
  have hmirror := hkeep.step (.mirror serving rfl)
  exact ⟨_, rfl, rfl, by decide +kernel, supervisor_tidy twoRequests hmirror⟩

end Turbohaul.LiveMonitor
