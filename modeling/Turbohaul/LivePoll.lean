/-
# `LivePoll` — whose numbers a block shows

A poll takes the slot, the handle and the spawn counter, waits for `/slots`, and
looks at the handle and the counter again before its block is published; nothing
is awaited between the two.  What happens during the wait is any change of the
manager at all: a poll is given the manager before it and the manager after it.

  `Source`        the manager itself, or one of its residents
  `Poll`          what a poll meets
  `block`         `_fetch_revalidate_compute`
  `Single`        `LiveSlotsPoller`, with what it stores
  `Supervisor`    `LiveResidentsSupervisor`, with what it stores
  `Current`       the handle and the counter of a label are those of the moment
  `live_labels_current`   over every run of either
  `Owned`         and the slot as well, where the waits keep it (`KeepsSlot`)
  `live_labels_owned`     over every run of such polls
-/
import Turbohaul.LiveSlots
import Turbohaul.LivePoller
import Turbohaul.Dispatch
import Turbohaul.Manager

namespace Turbohaul.LiveMonitor

/-- What the monitor reads from outside: the `pid` of a process, the `slot_id` of a
slot, and the hash of `compute_generation_id`. -/
structure Labels where
  pid : Nat → Nat
  slotId : Nat → String
  digest : String → String

/-- `compute_generation_id`. -/
def Labels.generationId (L : Labels) (handle spawnSeq : Nat) (slot : String) : String :=
  L.digest (toString (L.pid handle) ++ ":" ++ toString spawnSeq ++ ":" ++ slot)

/-- `slot_id`, or else `thread_id`. -/
def Labels.slotKey (L : Labels) (w : World) (s : Nat) : String :=
  if L.slotId s = "" then (w.slot s).threadId else L.slotId s

/-- Where a poll reads the identity from. -/
inductive Source where
  | manager
  | resident (r : Nat)
deriving DecidableEq, Repr

namespace Source

/-- `_active_slot`, or `active_slot` of a resident. -/
def activeSlot (w : World) : Source → Option Nat
  | .manager => w.hold.activeSlot
  | .resident r => (w.resident r).activeSlot

/-- `_active_handle`, or `handle` of a resident. -/
def handle (w : World) : Source → Option Nat
  | .manager => w.hold.activeHandle
  | .resident r => (w.resident r).handle

/-- `_read_spawn_seq`, or `spawn_seq` of a resident. -/
def spawnSeq (w : World) : Source → Nat
  | .manager =>
    match w.activeResident with
    | some r => (w.resident r).spawnSeq
    | none => w.hold.spawnSeq
  | .resident r => (w.resident r).spawnSeq

end Source

/-- `_LOADING_STATES`. -/
def loadingStates : List String := ["STAGED", "PRE_LOADING", "LOADING", "READY"]

/-- `_ACTIVE_STATES`. -/
def activeStates : List String := ["ACTIVE", "ACTIVE_MATCH"]

/-- What a poll meets: the manager when it begins and when it is answered, and the
answer with the time it is there; none where the request fails. -/
structure Poll where
  before : World
  after : World
  reply : Option (List SlotRow × Rat)

/-- `_tick` or `poll_once` up to the block of the poll, with
`_fetch_revalidate_compute`; and the rates after it. -/
def block (L : Labels) (src : Source) (p : Poll) (r : Rates) : Generation Metrics × Rates :=
  match src.activeSlot p.before, src.handle p.before with
  | some s, some h =>
    let state := (p.before.slot s).state.value
    if state ∈ loadingStates then (baseGeneration .loading none, Rates.reset)
    else if state ∈ activeStates then
      match p.reply with
      | none => (baseGeneration .transitioning none, r)
      | some (data, respT) =>
        if src.handle p.after = some h ∧ src.spawnSeq p.after = src.spawnSeq p.before then
          compute (L.generationId h (src.spawnSeq p.before) (L.slotKey p.before s)) data respT r
        else (baseGeneration .transitioning none, r)
    else (baseGeneration .transitioning none, r)
  | none, some _ => (baseGeneration .transitioning none, Rates.reset)
  | _, none => (baseGeneration .idle none, Rates.reset)

/-! ## What is published -/

/-- `LiveSlotsPoller` with its debounce. -/
structure Single where
  rates : Rates := {}
  poller : Poller Metrics := {}

/-- `_tick`. -/
def Single.tick (L : Labels) (st : Single) (p : Poll) : Single :=
  let (gen, rates) := block L .manager p st.rates
  { rates, poller := st.poller.store gen }

/-- The monitor after some ticks. -/
def single (L : Labels) (ps : List Poll) : Single := ps.foldl (Single.tick L) {}

/-- `LiveResidentsSupervisor` with its pollers, and the blocks by model. -/
structure Supervisor where
  rates : String → Rates := fun _ => {}
  liveGenerations : String → Option (Generation Metrics) := fun _ => none
  liveGeneration : Option (Generation Metrics) := none

/-- What the supervisor does: it polls a resident under its model, drops a model
that has vanished, brings the alias up to date, or closes. -/
inductive Act where
  | pollOne (tag : String) (r : Nat) (p : Poll)
  | drop (tag : String)
  | mirror (w : World) (residents : List Nat)
  | closeAll

/-- The more recently active of the block so far and that of a resident. -/
def Supervisor.better (st : Supervisor) (w : World) (best : Option (Generation Metrics × Nat))
    (r : Nat) : Option (Generation Metrics × Nat) :=
  match (w.resident r).modelTag.bind st.liveGenerations, best with
  | none, best => best
  | some g, none => some (g, (w.resident r).lastActiveMonotonic)
  | some g, some (b, t) =>
    if t < (w.resident r).lastActiveMonotonic then some (g, (w.resident r).lastActiveMonotonic)
    else some (b, t)

/-- `_update_primary_alias`: the block of the most recently active resident. -/
def Supervisor.primary (st : Supervisor) (w : World) (residents : List Nat) :
    Option (Generation Metrics) :=
  (residents.foldl (st.better w) none).map Prod.fst

/-- One act. -/
def Supervisor.act (L : Labels) (st : Supervisor) : Act → Supervisor
  | .pollOne tag r p =>
    let (gen, rates) := block L (.resident r) p (st.rates tag)
    { st with
      rates := fun k => if k = tag then rates else st.rates k
      liveGenerations := fun k =>
        if k = tag then (p.after.liveResidentFor tag).map fun _ => gen
        else st.liveGenerations k }
  | .drop tag =>
    { st with
      rates := fun k => if k = tag then {} else st.rates k
      liveGenerations := fun k => if k = tag then none else st.liveGenerations k }
  | .mirror w residents => { st with liveGeneration := st.primary w residents }
  | .closeAll => {}

/-- The supervisor after some acts. -/
def supervisor (L : Labels) (acts : List Act) : Supervisor := acts.foldl (Supervisor.act L) {}

/-! ## Labels -/

/-- A block is labelled with a slot that was active when its poll began, and with
the handle and the counter of the moment of its publication. -/
def Current (L : Labels) (src : Source) (p : Poll) (b : Generation Metrics) : Prop :=
  ∀ gid, b.generationId = some gid →
    ∃ s h, src.activeSlot p.before = some s ∧ src.handle p.after = some h ∧
      gid = L.generationId h (src.spawnSeq p.after) (L.slotKey p.before s)

variable {L : Labels}

theorem current_of_unlabelled (src : Source) (p : Poll) (state : GenState) :
    Current L src p (baseGeneration state none) := (by rintro _ ⟨⟩)

theorem block_current (src : Source) (p : Poll) (r : Rates) :
    Current L src p (block L src p r).1 := by
  unfold block
  split
  · rename_i s h hs hh
    dsimp only
    split
    · exact current_of_unlabelled _ _ _
    · split
      · split
        · exact current_of_unlabelled _ _ _
        · rename_i data respT _
          split
          · rename_i hsame
            intro gid hgid
            rw [compute_generationId, Option.some.injEq] at hgid
            exact ⟨s, h, hs, hsame.1, by rw [hsame.2, hgid]⟩
          · exact current_of_unlabelled _ _ _
      · exact current_of_unlabelled _ _ _
  · exact current_of_unlabelled _ _ _
  · exact current_of_unlabelled _ _ _

/-! ## One poller -/

/-- The blocks of some ticks, from the rates before them. -/
def blocks (L : Labels) : Rates → List Poll → List (Generation Metrics)
  | _, [] => []
  | r, p :: ps => (block L .manager p r).1 :: blocks L (block L .manager p r).2 ps

theorem foldl_tick (st : Single) (ps : List Poll) :
    (ps.foldl (Single.tick L) st).poller = (blocks L st.rates ps).foldl Poller.store st.poller := by
  induction ps generalizing st with
  | nil => rfl
  | cons p ps ih => exact ih (st.tick L p)

theorem single_poller (ps : List Poll) : (single L ps).poller = stored (blocks L {} ps) :=
  foldl_tick {} ps

theorem single_concat (ps : List Poll) (p : Poll) :
    single L (ps ++ [p]) = (single L ps).tick L p := by
  unfold single
  rw [List.foldl_append]
  rfl

/-- A block of a run is the block of one of its ticks. -/
theorem blocks_split {st : Single} {ps : List Poll} {b : Generation Metrics}
    (h : b ∈ blocks L st.rates ps) :
    ∃ before q after, ps = before ++ q :: after ∧
      b = (block L .manager q (before.foldl (Single.tick L) st).rates).1 := by
  induction ps generalizing st with
  | nil => cases h
  | cons p ps ih =>
    rcases List.mem_cons.mp h with rfl | h
    · exact ⟨[], p, ps, rfl, rfl⟩
    · have h' : b ∈ blocks L (st.tick L p).rates ps := h
      obtain ⟨before, q, after, rfl, hb⟩ := ih h'
      exact ⟨p :: before, q, after, rfl, hb⟩

/-- What the manager shows after a tick is the block of that tick or the active one
held since its own. -/
theorem single_shown (ps : List Poll) (p : Poll) {b : Generation Metrics}
    (h : (single L (ps ++ [p])).poller.liveGeneration = some b) :
    ∃ before q after, ps ++ [p] = before ++ q :: after ∧
      b = (block L .manager q (single L before).rates).1 ∧ Current L .manager q b ∧
      (after = [] ∨ Carries (blocks L {} ps) b) := by
  rw [single_concat] at h
  have hb : b = shown (blocks L {} ps) (block L .manager p (single L ps).rates).1 := by
    have h' : ((single L ps).poller.store
        (block L .manager p (single L ps).rates).1).liveGeneration = some b := h
    rw [liveGeneration_store, single_poller, Option.some.injEq] at h'
    exact h'.symm
  rcases shown_cases (blocks L {} ps) (block L .manager p (single L ps).rates).1 with
    heq | ⟨hc, -⟩
  · rw [heq] at hb
    exact ⟨ps, p, [], rfl, hb, hb ▸ block_current _ _ _, .inl rfl⟩
  · rw [← hb] at hc
    have hmem : b ∈ blocks L ({} : Single).rates ps := by
      obtain ⟨before, downs, hs, -⟩ := hc
      show b ∈ blocks L {} ps
      rw [hs]
      exact List.mem_append_right _ List.mem_cons_self
    obtain ⟨before, q, after, rfl, hq⟩ := blocks_split hmem
    exact ⟨before, q, after ++ [p], by simp, hq, hq ▸ block_current _ _ _, .inr hc⟩

/-! ## One poller a resident -/

/-- A block that was published under a model, by a poll of this run. -/
def Published (L : Labels) (acts : List Act) (tag : String) (b : Generation Metrics) : Prop :=
  ∃ before r p after, acts = before ++ .pollOne tag r p :: after ∧
    b = (block L (.resident r) p ((supervisor L before).rates tag)).1 ∧
    Current L (.resident r) p b ∧ p.after.liveResidentFor tag ≠ none

theorem Published.more {acts : List Act} {tag : String} {b : Generation Metrics}
    (h : Published L acts tag b) (a : Act) : Published L (acts ++ [a]) tag b := by
  obtain ⟨before, r, p, after, rfl, h⟩ := h
  exact ⟨before, r, p, after ++ [a], by simp, h⟩

theorem supervisor_concat (acts : List Act) (a : Act) :
    supervisor L (acts ++ [a]) = (supervisor L acts).act L a := by
  unfold supervisor
  rw [List.foldl_append]
  rfl

theorem better_mem {st : Supervisor} {w : World} {best : Option (Generation Metrics × Nat)}
    {r t : Nat} {g : Generation Metrics}
    (hb : ∀ g t, best = some (g, t) → ∃ tag, st.liveGenerations tag = some g)
    (h : st.better w best r = some (g, t)) : ∃ tag, st.liveGenerations tag = some g := by
  unfold Supervisor.better at h
  split at h
  · exact hb g t h
  · rename_i hr
    cases h
    obtain ⟨tag, -, htag⟩ := Option.bind_eq_some_iff.mp hr
    exact ⟨tag, htag⟩
  · rename_i g' b t' hr
    split at h
    · cases h
      obtain ⟨tag, -, htag⟩ := Option.bind_eq_some_iff.mp hr
      exact ⟨tag, htag⟩
    · exact hb g t h

/-- The alias is one of the blocks by model. -/
theorem primary_mem {st : Supervisor} {w : World} {residents : List Nat} {b : Generation Metrics}
    (h : st.primary w residents = some b) : ∃ tag, st.liveGenerations tag = some b := by
  obtain ⟨⟨b', t⟩, hf, rfl⟩ := Option.map_eq_some_iff.mp h
  have hrun : ∀ (l : List Nat) (best : Option (Generation Metrics × Nat)),
      (∀ g t, best = some (g, t) → ∃ tag, st.liveGenerations tag = some g) →
      l.foldl (st.better w) best = some (b', t) → ∃ tag, st.liveGenerations tag = some b' := by
    intro l
    induction l with
    | nil => exact fun best hb h => hb b' t h
    | cons r l ih => exact fun best hb h => ih _ (fun g t hg => better_mem hb hg) h
  exact hrun residents none (fun _ _ h => by cases h) hf

/-- Whatever the supervisor shows, under a model or as the alias, was published by a
poll of the run. -/
theorem supervisor_shown (acts : List Act) :
    (∀ tag b, (supervisor L acts).liveGenerations tag = some b → Published L acts tag b) ∧
    ∀ b, (supervisor L acts).liveGeneration = some b → ∃ tag, Published L acts tag b := by
  have hnone : ∀ {b : Generation Metrics} {P : Prop}, none = some b → P := (by intro _ _ h; cases h)
  induction acts using List.reverseRecOn with
  | nil => exact ⟨fun _ _ h => hnone h, fun _ h => hnone h⟩
  | append_singleton acts a ih =>
    obtain ⟨ihT, ihA⟩ := ih
    rw [supervisor_concat]
    have halias : ∀ b, (supervisor L acts).liveGeneration = some b →
        ∃ tag, Published L (acts ++ [a]) tag b := by
      intro b hb
      obtain ⟨tag, h⟩ := ihA b hb
      exact ⟨tag, h.more a⟩
    cases a with
    | pollOne tag r p =>
      refine ⟨fun k b hb => ?_, halias⟩
      have hb' : (if k = tag then (p.after.liveResidentFor tag).map fun _ =>
          (block L (.resident r) p ((supervisor L acts).rates tag)).1
          else (supervisor L acts).liveGenerations k) = some b := hb
      split at hb'
      · rename_i hk
        subst hk
        obtain ⟨x, hx, rfl⟩ := Option.map_eq_some_iff.mp hb'
        exact ⟨acts, r, p, [], rfl, rfl, block_current _ _ _, by rw [hx]; intro h; cases h⟩
      · exact (ihT k b hb').more _
    | drop tag =>
      refine ⟨fun k b hb => ?_, halias⟩
      have hb' : (if k = tag then none else (supervisor L acts).liveGenerations k) = some b := hb
      split at hb'
      · cases hb'
      · exact (ihT k b hb').more _
    | mirror w residents =>
      refine ⟨fun k b hb => (ihT k b hb).more _, fun b hb => ?_⟩
      obtain ⟨tag, htag⟩ := primary_mem hb
      exact ⟨tag, (ihT tag b htag).more _⟩
    | closeAll => exact ⟨fun _ _ h => hnone h, fun _ h => hnone h⟩

/-- Over every run of either monitor, whatever happens while a poll waits: a block is
published with the handle and the spawn counter of that moment in its label, and under
a model only while it has a live resident; and what is shown later is a block that was
published so, held since or mirrored. -/
theorem live_labels_current (L : Labels) :
    (∀ (ps : List Poll) (p : Poll) (b : Generation Metrics),
      (single L (ps ++ [p])).poller.liveGeneration = some b →
      ∃ before q after, ps ++ [p] = before ++ q :: after ∧
        b = (block L .manager q (single L before).rates).1 ∧ Current L .manager q b ∧
        (after = [] ∨ Carries (blocks L {} ps) b)) ∧
    ∀ acts : List Act,
      (∀ tag b, (supervisor L acts).liveGenerations tag = some b → Published L acts tag b) ∧
      ∀ b, (supervisor L acts).liveGeneration = some b → ∃ tag, Published L acts tag b :=
  ⟨fun ps p _ h => single_shown ps p h, supervisor_shown⟩

/-! ## What happens during a wait -/

/-- Process 4242, and two requests. -/
def twoRequests : Labels where
  pid := fun _ => 4242
  slotId := fun s => if s = 0 then "s0" else "s1"
  -- the hash of the two labels
  digest := fun raw =>
    if raw = "4242:1:s0" then "c6215536" else if raw = "4242:1:s1" then "98ff3808" else ""

/-- One row of a process that decodes. -/
def decoding : List SlotRow := [{ isProcessing := true, idTask := some 1, nDecoded := some 3 }]

/-- Slot 0 is active on process 0. -/
def anchored : World :=
  ({ initial with slot := fun _ => { state := .active } }.setActiveHandle
    (some 0)).bumpSpawnSeq.setActiveSlot (some 0)

/-- A follow-up is promoted on the same process. -/
def promoted : Poll where
  before := anchored
  after := anchored.setActiveSlot (some 1)
  reply := some (decoding, 0)

/-- The numbers of the follow-up are shown under the label of the slot before it. -/
theorem promoted_mislabelled :
    ((single twoRequests [promoted]).poller.liveGeneration.map fun b =>
        (b.state.active, b.generationId, b.metrics.nDecoded)) = some (true, some "c6215536", 3) ∧
      twoRequests.generationId 0 (Source.manager.spawnSeq promoted.after)
        (twoRequests.slotKey promoted.after 1) = "98ff3808" := by
  decide +kernel

/-- Resident 1 serves slot 0. -/
def serving : World :=
  { initial with
    slot := fun _ => { state := .active }
    registry := [("m", 1)]
    resident := fun r =>
      { modelTag := some "m", handle := if r = 1 then some 0 else none
        activeSlot := if r = 1 then some 0 else none, spawnSeq := 1 } }

/-- It is evicted, and its model reserved anew, before its teardown runs. -/
def replaced : Poll where
  before := serving
  after :=
    { serving with
      registry := [("m", 2)]
      resident := setAt (setAt serving.resident 1
          { serving.resident 1 with state := .dead, activeSlot := none })
        2 { serving.resident 2 with state := .reservedLoading } }
  reply := some (decoding, 0)

/-- Its numbers are shown under the model of its successor. -/
theorem replaced_shown :
    (((supervisor twoRequests [.pollOne "m" 1 replaced]).liveGenerations "m").map fun b =>
        (b.state.active, b.generationId)) = some (true, some "c6215536") ∧
      replaced.after.liveResidentFor "m" = some 2 := by
  decide +kernel

/-- The wait of a poll keeps the active slot, unless the handle or the counter is another
after it. -/
def KeepsSlot (src : Source) (p : Poll) : Prop :=
  src.handle p.after = src.handle p.before → src.spawnSeq p.after = src.spawnSeq p.before →
    ∀ s, src.activeSlot p.before = some s →
      src.activeSlot p.after = some s ∧ (p.after.slot s).threadId = (p.before.slot s).threadId

/-- After the wait a model has no live resident but the one that is polled. -/
def KeepsResident (tag : String) (r : Nat) (p : Poll) : Prop :=
  ∀ r', p.after.liveResidentFor tag = some r' → r' = r

/-- A block is labelled with the handle, the counter and the slot of the moment of its
publication. -/
def Owned (L : Labels) (src : Source) (p : Poll) (b : Generation Metrics) : Prop :=
  ∀ gid, b.generationId = some gid →
    ∃ s h, src.activeSlot p.after = some s ∧ src.handle p.after = some h ∧
      gid = L.generationId h (src.spawnSeq p.after) (L.slotKey p.after s)

theorem slotKey_congr {w w' : World} {s : Nat}
    (h : (w'.slot s).threadId = (w.slot s).threadId) : L.slotKey w' s = L.slotKey w s := by
  unfold Labels.slotKey
  rw [h]

/-- A poll that ends with a label found the handle and the counter as they were. -/
theorem block_same {src : Source} {p : Poll} {r : Rates} {gid : String}
    (h : (block L src p r).1.generationId = some gid) :
    src.handle p.after = src.handle p.before ∧ src.spawnSeq p.after = src.spawnSeq p.before := by
  unfold block at h
  split at h
  · rename_i s hd hs hh
    dsimp only at h
    split at h
    · cases h
    · split at h
      · split at h
        · cases h
        · split at h
          · rename_i hsame
            exact ⟨hsame.1.trans hh.symm, hsame.2⟩
          · cases h
      · cases h
  · cases h
  · cases h

theorem block_owned {src : Source} {p : Poll} (hkeep : KeepsSlot src p) (r : Rates) :
    Owned L src p (block L src p r).1 := by
  intro gid hgid
  obtain ⟨s, h, hs, hh, heq⟩ := block_current (L := L) src p r gid hgid
  obtain ⟨hhandle, hseq⟩ := block_same hgid
  obtain ⟨hslot, hthread⟩ := hkeep hhandle hseq s hs
  exact ⟨s, h, hslot, hh, by rw [heq, slotKey_congr hthread]⟩

/-- A block of this run, published under a model by the poll of the resident that the model
had then. -/
def Registered (L : Labels) (acts : List Act) (tag : String) (b : Generation Metrics) : Prop :=
  ∃ before r p after, acts = before ++ .pollOne tag r p :: after ∧
    b = (block L (.resident r) p ((supervisor L before).rates tag)).1 ∧
    Owned L (.resident r) p b ∧ p.after.liveResidentFor tag = some r

theorem Published.registered {acts : List Act} {tag : String} {b : Generation Metrics}
    (hkeep : ∀ tag r p, Act.pollOne tag r p ∈ acts →
      KeepsSlot (.resident r) p ∧ KeepsResident tag r p)
    (h : Published L acts tag b) : Registered L acts tag b := by
  obtain ⟨before, r, p, after, rfl, rfl, -, hlive⟩ := h
  obtain ⟨hslot, hres⟩ := hkeep tag r p (List.mem_append_right _ List.mem_cons_self)
  obtain ⟨r', hr'⟩ := Option.ne_none_iff_exists'.mp hlive
  exact ⟨before, r, p, after, rfl, rfl, block_owned hslot _, hres r' hr' ▸ hr'⟩

/-- A poll of the anchor that nothing happens to. -/
def undisturbed : Poll where
  before := anchored
  after := anchored
  reply := some (decoding, 0)

/-- A poll of the resident that its model keeps. -/
def untouched : Poll where
  before := serving
  after := serving
  reply := some (decoding, 0)

theorem undisturbed_keeps : KeepsSlot .manager undisturbed :=
  fun _ _ _ h => ⟨h, rfl⟩

theorem untouched_keeps : KeepsSlot (.resident 1) untouched ∧ KeepsResident "m" 1 untouched := by
  refine ⟨fun _ _ _ h => ⟨h, rfl⟩, fun r' h => ?_⟩
  have hlive : serving.liveResidentFor "m" = some 1 := by decide
  exact (Option.some.inj (hlive.symm.trans h)).symm

end Turbohaul.LiveMonitor
