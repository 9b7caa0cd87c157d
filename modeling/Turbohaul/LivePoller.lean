/-
# `LivePoller` — what the poller shows between two ticks

`_store` of `LiveSlotsPoller` publishes the block of a tick, or holds the last
active one over a short run of down ticks.

  `Poller`        `_held_active_gen`, `_transient_ticks` and `live_generation`
  `Poller.store`  `_store`
  `shown`         the block published on a tick, after those before it
  `Carries`       an active block shown on every tick since its own
  `generation_debounced`  what is shown, over every run of ticks
-/
import Turbohaul.LiveGeneration
import Mathlib.Data.List.Induction

namespace Turbohaul.LiveMonitor

variable {μ : Type}

/-- `TRANSIENT_HOLD_TICKS`. -/
def transientHoldTicks : Nat := 3

/-- What the poller keeps from tick to tick, the published block, and how many
`generation_tick` events it has sent. -/
structure Poller (μ : Type) where
  heldActiveGen : Option (Generation μ) := none
  transientTicks : Nat := 0
  liveGeneration : Option (Generation μ) := none
  generationTicks : Nat := 0

/-- The hold of a poller on the block of a tick: what is shown, what is held
from then on, and the count of down ticks. -/
def Poller.hold (p : Poller μ) (gen : Generation μ) :
    Generation μ × Option (Generation μ) × Nat :=
  if gen.state.active then (gen, some gen, 0)
  else
    match p.heldActiveGen with
    | none => (gen, none, p.transientTicks)
    | some held =>
      if gen.generationId.isSome ∧ gen.generationId ≠ held.generationId then (gen, none, 0)
      else if p.transientTicks + 1 < transientHoldTicks then
        (held, some held, p.transientTicks + 1)
      else (gen, none, p.transientTicks + 1)

/-- `_store`. -/
def Poller.store (p : Poller μ) (gen : Generation μ) : Poller μ :=
  let (out, held, ticks) := p.hold gen
  let changed := decide (p.liveGeneration.map (·.state) ≠ some out.state)
  { heldActiveGen := held
    transientTicks := ticks
    liveGeneration := some out
    generationTicks := p.generationTicks + if out.state.active || changed then 1 else 0 }

/-- The blocks published on a run of ticks. -/
def Poller.published (p : Poller μ) : List (Generation μ) → List (Generation μ)
  | [] => []
  | gen :: gens => (p.hold gen).1 :: (p.store gen).published gens

/-- The poller after some ticks. -/
def stored (gens : List (Generation μ)) : Poller μ := gens.foldl Poller.store {}

/-- The block published on a tick, after those before it. -/
def shown (past : List (Generation μ)) (gen : Generation μ) : Generation μ :=
  ((stored past).hold gen).1

/-- A run of down ticks. -/
def Down (gens : List (Generation μ)) : Prop := ∀ gen ∈ gens, gen.state.active = false

/-- The active block `held` has been shown on every tick since its own, all of
them down. -/
def Carries (past : List (Generation μ)) (held : Generation μ) : Prop :=
  ∃ before downs, past = before ++ held :: downs ∧ held.state.active = true ∧ Down downs ∧
    (stored (before ++ [held])).published downs = List.replicate downs.length held

/-! ## One tick -/

section Hold

variable {p : Poller μ} {gen held : Generation μ}

theorem hold_active (h : gen.state.active = true) : p.hold gen = (gen, some gen, 0) :=
  if_pos h

theorem hold_free (h : gen.state.active = false) (hn : p.heldActiveGen = none) :
    p.hold gen = (gen, none, p.transientTicks) := by
  rw [Poller.hold, h, hn]
  rfl

/-- On a down tick the held block is shown once more, or the block of the tick is
and nothing is held from then on. -/
theorem hold_down (h : gen.state.active = false) (hh : p.heldActiveGen = some held) :
    (p.transientTicks + 1 < transientHoldTicks ∧
      (gen.generationId = none ∨ gen.generationId = held.generationId) ∧
      p.hold gen = (held, some held, p.transientTicks + 1)) ∨
    ∃ n, p.hold gen = (gen, none, n) := by
  rw [Poller.hold, h, hh]
  dsimp only
  rw [if_neg Bool.false_ne_true]
  split
  · exact .inr ⟨0, rfl⟩
  · rename_i hc
    split
    · rename_i ht
      refine .inl ⟨ht, ?_, rfl⟩
      by_cases hid : gen.generationId = held.generationId
      · exact .inr hid
      · refine .inl (Option.not_isSome_iff_eq_none.mp ?_)
        exact fun hs => hc ⟨hs, hid⟩
    · exact .inr ⟨_, rfl⟩

theorem held_store : (p.store gen).heldActiveGen = (p.hold gen).2.1 := rfl

theorem ticks_store : (p.store gen).transientTicks = (p.hold gen).2.2 := rfl

/-- The status shows the published block. -/
theorem liveGeneration_store : (p.store gen).liveGeneration = some (p.hold gen).1 := rfl

end Hold

/-! ## A run of down ticks -/

section Run

theorem published_append (p : Poller μ) (l l' : List (Generation μ)) :
    p.published (l ++ l') = p.published l ++ (l.foldl Poller.store p).published l' := by
  induction l generalizing p with
  | nil => rfl
  | cons gen l ih =>
    show (p.hold gen).1 :: (p.store gen).published (l ++ l') = _
    rw [ih]
    rfl

theorem stored_append (l l' : List (Generation μ)) :
    stored (l ++ l') = l'.foldl Poller.store (stored l) :=
  List.foldl_append

theorem stored_concat (l : List (Generation μ)) (gen : Generation μ) :
    stored (l ++ [gen]) = (stored l).store gen :=
  stored_append l [gen]

theorem Down.tail {gen : Generation μ} {gens : List (Generation μ)} (h : Down (gen :: gens)) :
    gen.state.active = false ∧ Down gens :=
  ⟨h gen List.mem_cons_self, fun g hg => h g (List.mem_cons_of_mem gen hg)⟩

theorem Down.concat {gen : Generation μ} {gens : List (Generation μ)} (h : Down gens)
    (hg : gen.state.active = false) : Down (gens ++ [gen]) := by
  intro g hmem
  rcases List.mem_append.mp hmem with h1 | h1
  · exact h g h1
  · rwa [List.mem_singleton.mp h1]

/-- With nothing held, down ticks show their own blocks. -/
theorem published_free {p : Poller μ} (hn : p.heldActiveGen = none) {downs : List (Generation μ)}
    (hd : Down downs) : p.published downs = downs := by
  induction downs generalizing p with
  | nil => rfl
  | cons gen downs ih =>
    obtain ⟨hg, hd⟩ := hd.tail
    have hh := hold_free hg hn
    show (p.hold gen).1 :: (p.store gen).published downs = gen :: downs
    rw [hh, ih (by rw [held_store, hh]) hd]

/-- With a block held, down ticks show it as long as the count allows, and their
own blocks from then on. -/
theorem published_held {p : Poller μ} {held : Generation μ} (hh : p.heldActiveGen = some held)
    (ht : p.transientTicks < transientHoldTicks) {downs : List (Generation μ)} (hd : Down downs) :
    ∃ k, p.transientTicks + k < transientHoldTicks ∧ k ≤ downs.length ∧
      p.published downs = List.replicate k held ++ downs.drop k := by
  induction downs generalizing p with
  | nil => exact ⟨0, ht, Nat.le_refl 0, rfl⟩
  | cons gen downs ih =>
    obtain ⟨hg, hd⟩ := hd.tail
    rcases hold_down hg hh with ⟨ht1, -, heq⟩ | ⟨n, heq⟩
    · -- shown once more
      have hh1 : (p.store gen).heldActiveGen = some held := by rw [held_store, heq]
      have hn1 : (p.store gen).transientTicks = p.transientTicks + 1 := by rw [ticks_store, heq]
      obtain ⟨k, hk, hlen, hrun⟩ := ih hh1 (by rw [hn1]; exact ht1) hd
      rw [hn1] at hk
      refine ⟨k + 1, by omega, Nat.succ_le_succ hlen, ?_⟩
      show (p.hold gen).1 :: (p.store gen).published downs = _
      rw [heq, hrun]
      rfl
    · -- the hold is over
      refine ⟨0, ht, Nat.zero_le _, ?_⟩
      show (p.hold gen).1 :: (p.store gen).published downs = gen :: downs
      rw [heq, published_free (by rw [held_store, heq]) hd]

/-- What is held has been shown since its own tick. -/
theorem carries_of_held {past : List (Generation μ)} {held : Generation μ}
    (h : (stored past).heldActiveGen = some held) : Carries past held := by
  induction past using List.reverseRecOn with
  | nil => cases h
  | append_singleton past gen ih =>
    rw [stored_concat, held_store] at h
    cases hg : gen.state.active with
    | true =>
      rw [hold_active hg, Option.some.injEq] at h
      subst h
      exact ⟨past, [], rfl, hg, (by rintro _ ⟨⟩), rfl⟩
    | false =>
      cases hn : (stored past).heldActiveGen with
      | none =>
        rw [hold_free hg hn] at h
        cases h
      | some a =>
        rcases hold_down hg hn with ⟨-, -, heq⟩ | ⟨n, heq⟩
        · rw [heq, Option.some.injEq] at h
          subst h
          obtain ⟨before, downs, rfl, ha, hd, hrun⟩ := ih hn
          refine ⟨before, downs ++ [gen], by simp, ha, hd.concat hg, ?_⟩
          rw [published_append, hrun, ← stored_append, List.append_assoc, List.singleton_append,
            List.length_append, List.length_singleton, List.replicate_succ']
          show _ ++ [((stored (before ++ a :: downs)).hold gen).1] = _
          rw [heq]
        · rw [heq] at h
          cases h

end Run

/-! ## The debounce -/

theorem shown_active {past : List (Generation μ)} {gen : Generation μ}
    (h : gen.state.active = true) : shown past gen = gen := by
  rw [shown, hold_active h]

/-- A block that is not the tick's own is the active one that was shown since. -/
theorem shown_cases (past : List (Generation μ)) (gen : Generation μ) :
    shown past gen = gen ∨
    (Carries past (shown past gen) ∧
      (gen.generationId = none ∨ gen.generationId = (shown past gen).generationId)) := by
  cases hg : gen.state.active with
  | true => exact .inl (shown_active hg)
  | false =>
    cases hh : (stored past).heldActiveGen with
    | none =>
      left
      rw [shown, hold_free hg hh]
    | some held =>
      rcases hold_down hg hh with ⟨-, hid, heq⟩ | ⟨n, heq⟩
      · have hs : shown past gen = held := by rw [shown, heq]
        rw [hs]
        exact .inr ⟨carries_of_held hh, hid⟩
      · left
        rw [shown, heq]

/-- After an active block, down ticks show it on fewer than
`TRANSIENT_HOLD_TICKS` of them, and their own blocks from then on. -/
theorem published_after_active {before downs : List (Generation μ)} {a : Generation μ}
    (ha : a.state.active = true) (hd : Down downs) :
    ∃ k ≤ transientHoldTicks - 1, k ≤ downs.length ∧
      (stored (before ++ [a])).published downs = List.replicate k a ++ downs.drop k := by
  have hh : (stored (before ++ [a])).heldActiveGen = some a := by
    rw [stored_concat, held_store, hold_active ha]
  have ht : (stored (before ++ [a])).transientTicks = 0 := by
    rw [stored_concat, ticks_store, hold_active ha]
  obtain ⟨k, hk, hlen, hrun⟩ := published_held hh (by rw [ht]; decide) hd
  rw [ht] at hk
  exact ⟨k, by omega, hlen, hrun⟩

/-- Over every run of ticks: an active block is shown on its own tick; after it,
down ticks show it for a while and then their own; it is not shown on a tick that
knows of another generation; and what is shown is the tick's own block or the
active one that was shown on every tick since. -/
theorem generation_debounced :
    (∀ (past : List (Generation μ)) (gen : Generation μ),
      (stored (past ++ [gen])).liveGeneration = some (shown past gen) ∧
      (gen.state.active = true → shown past gen = gen) ∧
      (shown past gen ≠ gen →
        gen.generationId = none ∨ gen.generationId = (shown past gen).generationId) ∧
      (shown past gen = gen ∨ Carries past (shown past gen))) ∧
    ∀ (before : List (Generation μ)) (a : Generation μ) (downs : List (Generation μ)),
      a.state.active = true → Down downs →
      ∃ k ≤ transientHoldTicks - 1, k ≤ downs.length ∧
        (stored (before ++ [a])).published downs = List.replicate k a ++ downs.drop k := by
  refine ⟨fun past gen => ⟨?_, shown_active, fun hne => ?_, ?_⟩,
    fun _ _ _ ha hd => published_after_active ha hd⟩
  · rw [stored_concat]
    exact liveGeneration_store
  · rcases shown_cases past gen with h | h
    · exact absurd h hne
    · exact h.2
  · exact (shown_cases past gen).imp_right And.left

end Turbohaul.LiveMonitor
