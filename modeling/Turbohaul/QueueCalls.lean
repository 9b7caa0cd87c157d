/-
# `QueueCalls` — what the methods of the queue do

`queue.py` keeps two deques; `TwoTier` is what they implement.  Each method is
total, since none of them suspends and the one loop shrinks the buffer, and
each has one lemma that says what it returns and which queue it leaves:

    popFirst         popHead
    replenish        refill
    drainAcceptBuf   fill
    popNextFifo      pop
    popNextAffine    `Prefers`: the head, or an entry of the warm model before it
    enqueue          push, or refused with nothing changed

`Filed` is what they rely on and keep: a slot's state is that of its tier, so
that no transition of the queue is illegal.
-/
import Turbohaul.Manager
import Turbohaul.TwoTier
import Turbohaul.Coop.Total

namespace Turbohaul

open Coop

/-! ## The queue as two tiers -/

/-- What the queue reads of a slot and never changes. -/
def Slot.label (x : Slot) : String × String × Nat := (x.modelTag, x.threadId, x.createdAt)

/-- The run-length counter. -/
def Queue.counter (q : Queue) : Nat × Option String :=
  (q.consecutiveSameModel, q.lastPoppedModelTag)

namespace World

/-- Staging and the acceptance buffer. -/
def tiers (w : World) : TwoTier Nat := ⟨w.queue.staging, w.queue.acceptBuf⟩

/-- The run-length counter after a pop. -/
def counted (w : World) : Option Nat → Nat × Option String
  | none => w.queue.counter
  | some s =>
      (if some (w.slot s).modelTag = w.queue.lastPoppedModelTag then
          w.queue.consecutiveSameModel + 1
        else 1,
        some (w.slot s).modelTag)

end World

/-- Each waiting slot is in one place, and in the state of its tier. -/
structure Filed (w : World) : Prop where
  once : w.tiers.contents.Nodup
  staged : ∀ s ∈ w.queue.staging, (w.slot s).state = .staged
  buffered : ∀ s ∈ w.queue.acceptBuf, (w.slot s).state = .acceptBuffer

/-- What taking slots out of the queue keeps. -/
structure Kept (w w' : World) : Prop where
  filed : Filed w'
  label : ∀ s, (w'.slot s).label = (w.slot s).label
  state : ∀ s, s ∉ w.queue.acceptBuf → (w'.slot s).state = (w.slot s).state
  buffer : w'.queue.acceptBuf.Sublist w.queue.acceptBuf
  closed : w'.queue.closed = w.queue.closed

theorem Filed.kept {w : World} (h : Filed w) : Kept w w :=
  ⟨h, fun _ => rfl, fun _ _ => rfl, .refl _, rfl⟩

theorem Kept.trans {a b c : World} (h : Kept a b) (h' : Kept b c) : Kept a c where
  filed := h'.filed
  label := fun s => (h'.label s).trans (h.label s)
  state := fun s hs => (h'.state s fun hb => hs (h.buffer.subset hb)).trans (h.state s hs)
  buffer := h'.buffer.trans h.buffer
  closed := h'.closed.trans h.closed

/-- Slots that differ in nothing the queue reads. -/
theorem Filed.of_same {w w' : World} (h : Filed w) (hc : w'.tiers.contents.Sublist w.tiers.contents)
    (hs : ∀ s ∈ w'.queue.staging, (w'.slot s).state = .staged)
    (hb : ∀ s ∈ w'.queue.acceptBuf, (w'.slot s).state = .acceptBuffer) : Filed w' :=
  ⟨h.once.sublist hc, hs, hb⟩

/-! ## Taking a slot out -/

theorem flagEvicted_slot (w : World) (x s : Nat) :
    ((w.flagEvicted x).slot s).label = (w.slot s).label ∧
      ((w.flagEvicted x).slot s).state = (w.slot s).state := by
  unfold World.flagEvicted
  split
  · by_cases hs : s = x
    · subst hs
      simp [World.setSlot, Slot.label]
    · simp [World.setSlot, setAt_of_ne hs]
  · exact ⟨rfl, rfl⟩

@[simp] theorem flagEvicted_queue (w : World) (x : Nat) : (w.flagEvicted x).queue = w.queue := by
  unfold World.flagEvicted
  split <;> rfl

@[simp] theorem flagEvicted_clock (w : World) (x : Nat) : (w.flagEvicted x).clock = w.clock := by
  unfold World.flagEvicted
  split <;> rfl

/-- A slot leaves staging, and is flagged if its client has left. -/
theorem kept_leave {w : World} (h : Filed w) (s : Nat) {rest : List Nat}
    (hr : rest.Sublist w.queue.staging) :
    Kept w ((w.setQueue fun q => { q with staging := rest }).flagEvicted s) := by
  have slot := flagEvicted_slot (w.setQueue fun q => { q with staging := rest }) s
  refine
    { filed := h.of_same ?_ (fun x hx => ?_) fun x hx => ?_
      label := fun x => (slot x).1
      state := fun x _ => (slot x).2
      buffer := ?_
      closed := ?_ }
  · simpa [World.tiers, TwoTier.contents, World.setQueue] using
      hr.append_right w.queue.acceptBuf
  · rw [(slot x).2]
    exact h.staged x (hr.subset (by simpa [World.setQueue] using hx))
  · rw [(slot x).2]
    exact h.buffered x (by simpa [World.setQueue] using hx)
  · simp [World.setQueue]
  · simp [World.setQueue]

variable {C : Config} {t : Nat}

theorem total_popFirst {w : World} (h : Filed w) :
    Total (system C) t popFirst
      (Gives fun x w' => (x, w'.tiers) = w.tiers.popHead ∧ Kept w w' ∧
        w'.queue.counter = w.queue.counter ∧ w'.clock = w.clock) w := by
  refine total_act ?_
  cases hs : w.queue.staging with
  | nil =>
      refine ⟨?_, h.kept, rfl, rfl⟩
      simp [World.tiers, TwoTier.popHead, hs]
  | cons x rest =>
      refine ⟨?_, kept_leave h x (by rw [hs]; exact List.sublist_cons_self x rest), ?_,
        flagEvicted_clock _ _⟩
      · simp [World.tiers, TwoTier.popHead, hs, World.setQueue]
      · simp [World.setQueue, Queue.counter]

/-! ## Refilling staging -/

theorem transition_staged (s : Nat) {x : Slot} (h : x.state = .acceptBuffer) :
    x.transition s .staged = .ok { x with state := .staged } := by
  simp [Slot.transition, h, legalTransitions]

/-- The world after one promotion. -/
def World.promoted (w : World) (s : Nat) (rest : List Nat) : World :=
  ((w.setQueue fun q => { q with acceptBuf := rest }).setSlot s fun x =>
      { x with state := .staged }).setQueue fun q => { q with staging := q.staging ++ [s] }

theorem promoteOne_act {w : World} (h : Filed w) {s : Nat} {rest : List Nat}
    (hb : w.queue.acceptBuf = s :: rest) {Q : Res sig Unit → World → Prop}
    (hq : Q (.ok ()) (w.promoted s rest)) : Total (system C) t promoteOne Q w := by
  have hs : (w.slot s).state = .acceptBuffer := h.buffered s (by rw [hb]; exact List.mem_cons_self)
  refine total_act ?_
  have ht := transition_staged s hs
  simp only [hb, World.moveTo, World.setQueue, ht]
  exact hq

/-- A promotion keeps every slot filed. -/
theorem kept_promoted {w : World} (h : Filed w) {s : Nat} {rest : List Nat}
    (hb : w.queue.acceptBuf = s :: rest) :
    Kept w (w.promoted s rest) ∧ (w.promoted s rest).tiers.contents = w.tiers.contents := by
  have contents : (w.promoted s rest).tiers.contents = w.tiers.contents := by
    simp [World.promoted, World.tiers, TwoTier.contents, World.setQueue, World.setSlot, hb]
  have self : ((w.promoted s rest).slot s) = { w.slot s with state := .staged } := by
    simp [World.promoted, World.setQueue, World.setSlot]
  have other : ∀ x, x ≠ s → (w.promoted s rest).slot x = w.slot x := by
    intro x hx
    simp [World.promoted, World.setQueue, World.setSlot, setAt_of_ne hx]
  have hin : s ∈ w.queue.acceptBuf := by rw [hb]; exact List.mem_cons_self
  have hnd : (s :: rest).Nodup := by
    rw [← hb]
    exact (List.nodup_append.mp h.once).2.1
  refine ⟨?_, contents⟩
  refine
    { filed := ⟨by rw [contents]; exact h.once, fun x hx => ?_, fun x hx => ?_⟩
      label := fun x => ?_
      state := fun x hx => ?_
      buffer := ?_
      closed := rfl }
  · by_cases hxs : x = s
    · rw [hxs, self]
    · rw [other x hxs]
      simp only [World.promoted, World.setQueue, World.setSlot, List.mem_append,
        List.mem_singleton, hxs, or_false] at hx
      exact h.staged x hx
  · have hx' : x ∈ rest := by simpa [World.promoted, World.setQueue, World.setSlot] using hx
    have hxs : x ≠ s := by
      rintro rfl
      exact (List.nodup_cons.mp hnd).1 hx'
    rw [other x hxs]
    exact h.buffered x (by rw [hb]; exact List.mem_cons_of_mem s hx')
  · by_cases hxs : x = s
    · rw [hxs, self]
      rfl
    · rw [other x hxs]
  · rw [other x]
    rintro rfl
    exact hx hin
  · rw [hb]
    exact List.sublist_cons_self s rest

theorem total_replenish {w : World} (h : Filed w) :
    Total (system C) t (replenish C)
      (Gives fun _ w' => w'.tiers = w.tiers.refill C.stagingQueueDepth ∧ Kept w w' ∧
        w'.queue.counter = w.queue.counter ∧ w'.clock = w.clock) w := by
  refine total_gets_bind (total_when (fun hc => ?_) fun hc => ?_)
  · simp only [Bool.and_eq_true, Bool.not_eq_true', List.isEmpty_eq_false_iff,
      decide_eq_true_eq] at hc
    cases hb : w.queue.acceptBuf with
    | nil => exact absurd hb hc.1
    | cons s rest =>
        refine promoteOne_act h hb ⟨?_, (kept_promoted h hb).1, rfl, rfl⟩
        simp [World.promoted, World.tiers, World.setQueue, World.setSlot, TwoTier.refill, hb, hc.2]
  · refine ⟨?_, h.kept, rfl, rfl⟩
    simp only [Bool.and_eq_false_iff, Bool.not_eq_false', List.isEmpty_iff,
      decide_eq_false_iff_not] at hc
    cases hb : w.queue.acceptBuf with
    | nil => simp [World.tiers, TwoTier.refill, hb]
    | cons s rest =>
        have hroom := hc.resolve_left (by rw [hb]; exact List.cons_ne_nil s rest)
        simp [World.tiers, TwoTier.refill, hb, hroom]

/-- Filling up is refilling once and filling up the rest. -/
theorem fill_promoted {w : World} {s : Nat} {rest : List Nat}
    (hb : w.queue.acceptBuf = s :: rest) {cap : Nat} (hroom : w.queue.staging.length < cap) :
    (w.promoted s rest).tiers.fill cap = w.tiers.fill cap := by
  obtain ⟨n, hn⟩ : ∃ n, cap - w.queue.staging.length = n + 1 :=
    ⟨cap - w.queue.staging.length - 1, by omega⟩
  have hn' : cap - (w.queue.staging.length + 1) = n := by omega
  simp [World.promoted, World.tiers, World.setQueue, World.setSlot, TwoTier.fill, hb, hn, hn']

theorem total_drainAcceptBuf {w : World} (h : Filed w) :
    Total (system C) t (drainAcceptBuf C)
      (Gives fun _ w' => w'.tiers = w.tiers.fill C.stagingQueueDepth ∧ Kept w w' ∧
        w'.queue.counter = w.queue.counter ∧ w'.clock = w.clock) w := by
  -- the loop ends because each turn shortens the buffer
  induction hn : w.queue.acceptBuf.length generalizing w with
  | zero =>
      have hb := List.length_eq_zero_iff.mp hn
      refine total_whileTrue (total_gets_bind ?_)
      rw [if_neg (by simp [hb])]
      refine total_pure ⟨?_, h.kept, rfl, rfl⟩
      simp [World.tiers, TwoTier.fill, hb]
  | succ n ih =>
      refine total_whileTrue (total_gets_bind ?_)
      cases hb : w.queue.acceptBuf with
      | nil => rw [hb] at hn; cases hn
      | cons s rest =>
          split
          · next hc =>
              have hroom : w.queue.staging.length < C.stagingQueueDepth := by simpa [hb] using hc
              have hk := (kept_promoted h hb).1
              refine total_then (promoteOne_act h hb
                (Q := Gives fun _ w' => w' = w.promoted s rest) rfl) fun _ w' hw => ?_
              subst hw
              refine total_pure ((ih hk.filed ?_).mono fun r w'' hr => ?_)
              · rw [hb] at hn
                simpa [World.promoted, World.setQueue, World.setSlot] using hn
              · refine hr.mono fun _ hr => ?_
                obtain ⟨ht, hk', hcount, hclock⟩ := hr
                exact ⟨ht.trans (fill_promoted hb hroom), hk.trans hk', hcount, hclock⟩
          · next hc =>
              have hroom : C.stagingQueueDepth ≤ w.queue.staging.length := by
                simpa [hb] using hc
              refine total_pure ⟨?_, h.kept, rfl, rfl⟩
              have hz : C.stagingQueueDepth - w.queue.staging.length = 0 := by omega
              simp [World.tiers, TwoTier.fill, hz]

/-! ## The pops -/

theorem total_updateRunLength {w : World} (h : Filed w) (x : Option Nat) :
    Total (system C) t (updateRunLength x)
      (Gives fun _ w' => w'.tiers = w.tiers ∧ Kept w w' ∧ w'.queue.counter = w.counted x ∧
        w'.clock = w.clock) w := by
  cases x with
  | none => exact total_pure ⟨rfl, h.kept, rfl, rfl⟩
  | some s =>
      refine total_modify ⟨rfl, ?_, rfl, rfl⟩
      exact ⟨⟨h.once, h.staged, h.buffered⟩, fun _ => rfl, fun _ _ => rfl, .refl _, rfl⟩

/-- The counter after a pop does not depend on what refilled staging. -/
theorem Kept.counted {w w' : World} (h : Kept w w') (hc : w'.queue.counter = w.queue.counter)
    (x : Option Nat) : w'.counted x = w.counted x := by
  cases x with
  | none => exact hc
  | some s =>
      have hm : (w'.slot s).modelTag = (w.slot s).modelTag := congrArg Prod.fst (h.label s)
      simp only [Queue.counter, Prod.mk.injEq] at hc
      simp only [World.counted, hm, hc.1, hc.2]

/-- The outcome of a pop. -/
structure Popped (w : World) (x : Option Nat) (w' : World) : Prop where
  kept : Kept w w'
  counter : w'.queue.counter = w.counted x

/-- What ends every pop: the counter is brought up to date. -/
theorem total_counted {w w₁ : World} (x : Option Nat) (hk : Kept w w₁)
    (hc : w₁.queue.counter = w.queue.counter) :
    Total (system C) t (updateRunLength x >>= fun _ => pure x)
      (Gives fun y w' => y = x ∧ w'.tiers = w₁.tiers ∧ Popped w x w' ∧ w'.clock = w₁.clock)
      w₁ := by
  refine total_then (total_updateRunLength hk.filed x) fun _ w₂ h => ?_
  obtain ⟨ht, hk', hcount, hclock⟩ := h
  exact total_pure ⟨rfl, ht, ⟨hk.trans hk', hcount.trans (hk.counted hc x)⟩, hclock⟩

theorem total_popNextFifo {w : World} (h : Filed w) :
    Total (system C) t (popNextFifo C)
      (Gives fun x w' => (x, w'.tiers) = w.tiers.pop C.stagingQueueDepth ∧ Popped w x w') w := by
  refine total_then (total_popFirst h) fun x w₁ h₁ => ?_
  obtain ⟨ht, hk, hc, -⟩ := h₁
  have hf : w.tiers.front = w.queue.staging := rfl
  cases hs : w.queue.staging with
  | cons s rest =>
      simp only [TwoTier.popHead, hf, hs, Prod.mk.injEq] at ht
      obtain ⟨rfl, ht⟩ := ht
      refine total_then (total_replenish hk.filed) fun _ w₂ h₂ => ?_
      obtain ⟨ht₂, hk₂, hc₂, -⟩ := h₂
      refine (total_counted (some s) (hk.trans hk₂) (hc₂.trans hc)).mono fun r w₃ h₃ =>
        h₃.mono fun y hy => ?_
      obtain ⟨rfl, ht₃, hp, -⟩ := hy
      refine ⟨?_, hp⟩
      simp only [TwoTier.pop, hf, hs, ht₃, ht₂, ht]
  | nil =>
      simp only [TwoTier.popHead, hf, hs, Prod.mk.injEq] at ht
      obtain ⟨rfl, ht⟩ := ht
      refine total_then (total_drainAcceptBuf hk.filed) fun _ w₂ h₂ => ?_
      obtain ⟨ht₂, hk₂, hc₂, -⟩ := h₂
      refine total_then (total_popFirst hk₂.filed) fun x w₃ h₃ => ?_
      obtain ⟨ht₃, hk₃, hc₃, -⟩ := h₃
      refine (total_counted x ((hk.trans hk₂).trans hk₃) ((hc₃.trans hc₂).trans hc)).mono
        fun r w₄ h₄ => h₄.mono fun y hy => ?_
      obtain ⟨rfl, ht₄, hp, -⟩ := hy
      refine ⟨?_, hp⟩
      simp only [TwoTier.pop, hf, hs, ht₄, ht₃, ht₂, ht]

/-- A call that is answered at once. -/
theorem total_call {o : Op} (ho : o.isAwait = false) {Q : Res sig Reply → World → Prop}
    {w : World} (hx : ∃ x, replies o x w = true)
    (h : ∀ x, replies o x w = true → Q (.ok x) (effect t o x w)) :
    Total (system C) t (Co.ask o) Q w := by
  have hal : ∀ x, allowed t o x w = replies o x w := fun x => by simp [allowed, ho]
  have hne : o ≠ .entry := by
    rintro rfl
    cases ho
  refine total_ask ?_ fun x ha => ?_
  · obtain ⟨x, hx⟩ := hx
    exact ⟨x, (hal x).trans hx⟩
  · have hw : (system C).answer t o x w = effect t o x w := by
      show answer t o x w = effect t o x w
      simp [answer, World.delivered, hne, ho]
    rw [hw]
    exact h x ((hal x).symm.trans ha)

theorem total_monotonic {α : Type} {k : Nat → Prog α} {Q : Res sig α → World → Prop} {w : World}
    (h : ∀ now, w.clock ≤ now → Total (system C) t (k now) Q { w with clock := now }) :
    Total (system C) t (monotonic >>= k) Q w := by
  refine total_seq (total_seq (total_call rfl ⟨.time w.clock, by simp [replies]⟩ fun x hx => ?_))
  cases x with
  | time now => exact total_pure (h now (by simpa [replies] using hx))
  | _ => cases hx

theorem total_mark {α : Type} {k : Unit → Prog α} {m : Mark} {Q : Res sig α → World → Prop}
    {w : World} (h : Total (system C) t (k ()) Q (w.record (.marked m))) :
    Total (system C) t (mark m >>= k) Q w := by
  refine total_seq (total_seq (total_call rfl ⟨.ok, rfl⟩ fun x hx => ?_))
  cases x with
  | ok => exact total_pure h
  | _ => cases hx

/-! ## Affinity -/

/-- Reading the clock changes nothing else. -/
theorem kept_clock {w : World} (h : Filed w) (now : Nat) : Kept w { w with clock := now } :=
  ⟨⟨h.once, h.staged, h.buffered⟩, fun _ => rfl, fun _ _ => rfl, .refl _, rfl⟩

theorem total_headStarved {w : World} (head : Nat) (tag : String) :
    Total (system C) t (headStarved C head tag)
      (Gives fun b w' => w' = { w with clock := w'.clock } ∧
        ((w.slot head).modelTag ≠ tag →
          b = decide (C.maxOtherModelWaitMs < w'.clock - (w.slot head).createdAt))) w := by
  refine total_gets_bind ?_
  split
  · exact total_monotonic fun now _ => total_pure ⟨rfl, fun _ => rfl⟩
  · next h => exact total_pure ⟨rfl, fun hne => absurd hne h⟩

theorem total_popFirstMatching {w : World} (h : Filed w) (tag : String) :
    Total (system C) t (popFirstMatching C tag)
      (Gives fun o w' => (o = none ∧ w' = w) ∨ ∃ x a b, o = some x ∧
        w.queue.staging = a ++ x :: b ∧ (∀ z ∈ a, (w.slot z).modelTag ≠ tag) ∧
        (w.slot x).modelTag = tag ∧ w'.tiers = ⟨a ++ b, w.queue.acceptBuf⟩ ∧ Kept w w' ∧
        w'.queue.counter = w.queue.counter ∧ w'.clock = w.clock) w := by
  refine total_act ?_
  split
  · exact .inl ⟨rfl, rfl⟩
  · next x hx =>
      obtain ⟨hp, a, b, htake, ha⟩ := List.find?_eq_some_iff_append.mp hx
      have hs : w.queue.staging = a ++ x :: (b ++ w.queue.staging.drop C.stagingQueueDepth) := by
        rw [← List.cons_append, ← List.append_assoc, ← htake, List.take_append_drop]
      have hne : ∀ z ∈ a, (w.slot z).modelTag ≠ tag := fun z hz => by simpa using ha z hz
      have hxa : x ∉ a := fun hx => hne x hx (by simpa using hp)
      have herase : w.queue.staging.erase x = a ++ (b ++ w.queue.staging.drop C.stagingQueueDepth)
          := by
        rw [hs, List.erase_append_right _ hxa, List.erase_cons_head, ← hs]
      refine .inr ⟨x, a, _, rfl, hs, hne, by simpa using hp, ?_,
        kept_leave h x List.erase_sublist, ?_, flagEvicted_clock _ _⟩
      · simp [World.tiers, World.setQueue, herase]
      · simp [World.setQueue, Queue.counter]

/-- What a pop with a warm model takes from a queue whose head is `head`, and
what it leaves: the head, or, unless that is forced, a slot of the warm model
behind it. -/
inductive Chosen (w : World) (tag : String) (head : Nat) (forced : Bool) :
    Nat → TwoTier Nat → Prop where
  | head {rest : List Nat} (hs : w.queue.staging = head :: rest) :
      Chosen w tag head forced head ⟨rest, w.queue.acceptBuf⟩
  | warm {a b : List Nat} {x : Nat} (hs : w.queue.staging = head :: a ++ x :: b)
      (hh : (w.slot head).modelTag ≠ tag) (hx : (w.slot x).modelTag = tag)
      (hf : forced = false) : Chosen w tag head forced x ⟨head :: a ++ b, w.queue.acceptBuf⟩

theorem Chosen.forced {w : World} {tag : String} {head x : Nat} {q : TwoTier Nat}
    (h : Chosen w tag head true x q) : x = head := by
  cases h with
  | head hs => rfl
  | warm hs hh hx hf => cases hf

theorem Chosen.of_clock {w : World} {now : Nat} {tag : String} {head x : Nat} {forced : Bool}
    {q : TwoTier Nat} (h : Chosen { w with clock := now } tag head forced x q) :
    Chosen w tag head forced x q := by
  cases h with
  | head hs => exact .head hs
  | warm hs hh hx hf => exact .warm hs hh hx hf

theorem total_forcedHead {w : World} (h : Filed w) (tag : String) {head : Nat}
    {rest : List Nat} (hs : w.queue.staging = head :: rest) (forced : Bool) :
    Total (system C) t popFirst
      (Gives fun o w' => ∃ x, o = some x ∧ Chosen w tag head forced x w'.tiers ∧ Kept w w' ∧
        w'.queue.counter = w.queue.counter ∧ w'.clock = w.clock) w := by
  refine (total_popFirst h).mono fun r w' hr => hr.mono fun o ho => ?_
  obtain ⟨ht, hk⟩ := ho
  simp only [World.tiers, TwoTier.popHead, hs, Prod.mk.injEq] at ht
  obtain ⟨rfl, ht⟩ := ht
  refine ⟨head, rfl, ?_, hk⟩
  simp only [World.tiers, ht]
  exact .head hs

theorem total_popPreferring {w : World} (h : Filed w) (tag : String) {head : Nat}
    {rest : List Nat} (hs : w.queue.staging = head :: rest) :
    Total (system C) t (popPreferring C tag)
      (Gives fun o w' => ∃ x, o = some x ∧ Chosen w tag head false x w'.tiers ∧ Kept w w' ∧
        w'.queue.counter = w.queue.counter ∧ w'.clock = w.clock) w := by
  refine total_then (total_popFirstMatching h tag) fun o w₁ h₁ => ?_
  rcases h₁ with ⟨rfl, rfl⟩ | ⟨x, a, b, rfl, hab, ha, hx, ht, hk⟩
  · exact total_forcedHead h tag hs false
  · refine total_pure ⟨x, rfl, ?_, hk⟩
    rw [ht]
    cases a with
    | nil =>
        rw [hs] at hab
        cases hab
        exact .head hs
    | cons z a =>
        have hz : head = z := by
          rw [hs] at hab
          cases hab
          rfl
        subst hz
        exact .warm hab (ha _ List.mem_cons_self) hx rfl

/-- A pop with a warm model, from a queue whose head is `head`. -/
structure Prefers (C : Config) (w : World) (tag : String) (head x : Nat) (w' : World) :
    Prop where
  chosen : ∃ forced q, Chosen w tag head forced x q ∧ w'.tiers = q.refill C.stagingQueueDepth ∧
    (forced = false → w.queue.consecutiveSameModel < C.maxConsecutiveSameModel)
  -- `w'.clock` is the reading the pop has made
  starved : (w.slot head).modelTag ≠ tag →
    C.maxOtherModelWaitMs < w'.clock - (w.slot head).createdAt → x = head

theorem total_popNextAffine {w : World} (h : Filed w) (tag : String) {head : Nat}
    {rest : List Nat} (hs : w.queue.staging = head :: rest) :
    Total (system C) t (popNextAffine C tag head)
      (Gives fun o w' => ∃ x, o = some x ∧ Prefers C w tag head x w' ∧ Popped w o w') w := by
  refine total_then (total_headStarved head tag) fun starved w₁ h₁ => ?_
  obtain ⟨hw, hstarved⟩ := h₁
  have hk₁ : Kept w w₁ := by
    rw [hw]
    exact kept_clock h _
  have hq : w₁.queue = w.queue := by rw [hw]
  have hslot : w₁.slot = w.slot := by rw [hw]
  refine total_gets_bind ?_
  -- whether the head is forced is decided before anything is taken
  let forced := starved || decide (C.maxConsecutiveSameModel ≤ w₁.queue.consecutiveSameModel)
  have hs₁ : w₁.queue.staging = head :: rest := by rw [hq, hs]
  have hpop : Total (system C) t (if forced then popFirst else popPreferring C tag)
      (Gives fun o w' => ∃ x, o = some x ∧ Chosen w₁ tag head forced x w'.tiers ∧ Kept w₁ w' ∧
        w'.queue.counter = w₁.queue.counter ∧ w'.clock = w₁.clock) w₁ := by
    cases hf : forced with
    | true => exact total_forcedHead hk₁.filed tag hs₁ true
    | false => exact total_popPreferring hk₁.filed tag hs₁
  refine total_then hpop fun o w₂ h₂ => ?_
  obtain ⟨x, rfl, hc, hk₂, hcount₂, hclock₂⟩ := h₂
  refine total_then (total_replenish hk₂.filed) fun _ w₃ h₃ => ?_
  obtain ⟨ht₃, hk₃, hcount₃, hclock₃⟩ := h₃
  have hk := (hk₁.trans hk₂).trans hk₃
  have hcount : w₃.queue.counter = w.queue.counter := by rw [hcount₃, hcount₂, hq]
  refine (total_counted (some x) hk hcount).mono fun r w₄ h₄ => h₄.mono fun y hy => ?_
  obtain ⟨rfl, ht₄, hp, hclock₄⟩ := hy
  have hclock : w₄.clock = w₁.clock := by rw [hclock₄, hclock₃, hclock₂]
  refine ⟨x, rfl, ⟨⟨forced, w₂.tiers, ?_, ht₄.trans ht₃, fun hf => ?_⟩, fun hne hold => ?_⟩, hp⟩
  · rw [hw] at hc
    exact hc.of_clock
  · have : ¬C.maxConsecutiveSameModel ≤ w₁.queue.consecutiveSameModel := by
      simp only [forced, Bool.or_eq_false_iff, decide_eq_false_iff_not] at hf
      exact hf.2
    rw [hq] at this
    omega
  · have hforced : forced = true := by
      have : starved = true := by
        rw [hstarved hne, decide_eq_true_eq, ← hclock]
        exact hold
      simp only [forced, this, Bool.true_or]
    rw [hforced] at hc
    exact hc.forced

/-- What a pop takes, along either path. -/
inductive Takes (C : Config) (w : World) (warm : Option String) :
    Option Nat → World → Prop where
  | fifo {x : Option Nat} {w' : World} (hw : warm = none ∨ w.queue.staging = [])
      (ht : (x, w'.tiers) = w.tiers.pop C.stagingQueueDepth) : Takes C w warm x w'
  | affine {tag : String} {head x : Nat} {rest : List Nat} {w' : World} (hw : warm = some tag)
      (hs : w.queue.staging = head :: rest) (hp : Prefers C w tag head x w') :
      Takes C w warm (some x) w'

theorem total_popPath {w : World} (h : Filed w) (warm : Option String) :
    Total (system C) t (popPath C warm w.queue.staging)
      (Gives fun x w' => Takes C w warm x w' ∧ Popped w x w') w := by
  have fifo : (warm = none ∨ w.queue.staging = []) → Total (system C) t (popNextFifo C)
      (Gives fun x w' => Takes C w warm x w' ∧ Popped w x w') w := fun hw =>
    (total_popNextFifo h).mono fun r w' hr => hr.mono fun x hx => ⟨.fifo hw hx.1, hx.2⟩
  cases hw : warm with
  | none =>
      subst hw
      exact fifo (.inl rfl)
  | some tag =>
      subst hw
      cases hs : w.queue.staging with
      | nil => exact fifo (.inr hs)
      | cons head rest =>
          refine (total_popNextAffine h tag hs).mono fun r w' hr => hr.mono fun o ho => ?_
          obtain ⟨x, rfl, hp, hpop⟩ := ho
          exact ⟨.affine rfl hs hp, hpop⟩

/-- The event that a pop leaves is not looked at. -/
theorem Takes.record {w w' : World} {warm : Option String} {x : Option Nat} (e : Event)
    (h : Takes C w warm x w') : Takes C w warm x (w'.record e) := by
  cases h with
  | fifo hw ht => exact .fifo hw ht
  | affine hw hs hp => exact .affine hw hs ⟨hp.chosen, hp.starved⟩

theorem Popped.record {w w' : World} {x : Option Nat} (e : Event) (h : Popped w x w') :
    Popped w x (w'.record e) :=
  ⟨⟨⟨h.kept.filed.once, h.kept.filed.staged, h.kept.filed.buffered⟩, h.kept.label, h.kept.state,
    h.kept.buffer, h.kept.closed⟩, h.counter⟩

theorem total_popNext {w : World} (h : Filed w) (warm : Option String) :
    Total (system C) t (popNext C warm)
      (Gives fun x w' => Takes C w warm x w' ∧ Popped w x w') w := by
  refine total_gets_bind (total_then (total_popPath h warm) fun x w₁ h₁ => ?_)
  cases x with
  | none => exact total_pure h₁
  | some s => exact total_mark (total_pure ⟨h₁.1.record _, h₁.2.record _⟩)

/-! ## The other methods -/

/-- A slot is taken from where it waits. -/
inductive Removed (w : World) : Option Nat → World → Prop where
  | nothing : Removed w none w
  | taken {s : Nat} {w' : World} (hs : s ∈ w.tiers.contents)
      (ht : w'.tiers.contents = w.tiers.contents.erase s) (hk : Kept w w')
      (hc : w'.queue.counter = w.queue.counter) : Removed w (some s) w'

/-- A slot leaves staging by name. -/
theorem removed_staging {w : World} (h : Filed w) {s : Nat} (hs : s ∈ w.queue.staging) :
    Removed w (some s)
      ((w.setQueue fun q => { q with staging := q.staging.erase s }).flagEvicted s) := by
  refine .taken (List.mem_append_left _ hs) ?_ (kept_leave h s List.erase_sublist) ?_
  · rw [← TwoTier.take_contents (q := w.tiers) hs]
    simp [World.tiers, World.setQueue, TwoTier.take]
  · simp [World.setQueue, Queue.counter]

theorem Removed.record {w w' : World} {s : Nat} (e : Event) (h : Removed w (some s) w') :
    Removed w (some s) (w'.record e) := by
  cases h with
  | taken hs ht hk hc =>
      have hp : Popped w none w' := ⟨hk, hc⟩
      exact .taken hs ht (hp.record e).kept hc

theorem total_popMatchedThread {w : World} (h : Filed w) (threadId modelTag : String) :
    Total (system C) t (popMatchedThread threadId modelTag) (Gives fun x => Removed w x) w := by
  rw [popMatchedThread]
  split
  · exact total_pure .nothing
  · refine total_then (M := fun x => Removed w x) (total_act ?_) fun x w₁ h₁ => ?_
    · split
      · exact .nothing
      · next s hs => exact removed_staging h (List.mem_of_find?_eq_some hs)
    · cases x with
      | none => exact total_pure h₁
      | some s => exact total_mark (total_pure (h₁.record _))

/-- A queue that has lost slots and slots that have not changed. -/
theorem kept_setQueue {w : World} (h : Filed w) {f : Queue → Queue}
    (hs : (f w.queue).staging.Sublist w.queue.staging)
    (hb : (f w.queue).acceptBuf.Sublist w.queue.acceptBuf)
    (hc : (f w.queue).closed = w.queue.closed) : Kept w (w.setQueue f) where
  filed := ⟨h.once.sublist (hs.append hb), fun s hm => h.staged s (hs.subset hm),
    fun s hm => h.buffered s (hb.subset hm)⟩
  label := fun _ => rfl
  state := fun _ _ => rfl
  buffer := hb
  closed := hc

theorem total_remove {w : World} (h : Filed w) (s : Nat) :
    Total (system C) t (remove s) (Gives fun x => Removed w x) w := by
  refine total_act ?_
  split
  · next hs =>
      have hk := kept_setQueue (f := fun q => { q with staging := q.staging.erase s }) h
        List.erase_sublist (.refl _) rfl
      exact .taken (List.mem_append_left _ hs) (TwoTier.take_contents (q := w.tiers) hs) hk rfl
  · next hs =>
      split
      · next hb =>
          have hk := kept_setQueue (f := fun q => { q with acceptBuf := q.acceptBuf.erase s }) h
            (.refl _) List.erase_sublist rfl
          exact .taken (List.mem_append_right _ hb) (List.erase_append_right _ hs).symm hk rfl
      · exact .nothing

theorem total_closeQueue (w : World) :
    Total (system C) t closeQueue
      (Gives fun ss w' => ss = w.tiers.contents ∧ w'.tiers = ⟨[], []⟩ ∧ w'.slot = w.slot) w :=
  total_act ⟨rfl, rfl, rfl⟩

/-! ## Enqueueing -/

/-- A refusal changes nothing; else the slot is at the end of its tier, in the
state of that tier. -/
inductive Enqueued (C : Config) (w : World) (s : Nat) : Res sig Unit → World → Prop where
  | closed (hc : w.queue.closed = true) :
      Enqueued C w s (.error (.raised (.queueClosed "queue closed"))) w
  | full (hs : C.stagingQueueDepth ≤ w.queue.staging.length)
      (hb : C.acceptanceBufferMax ≤ w.queue.acceptBuf.length) :
      Enqueued C w s (.error (.raised (.queueFull
        ("acceptance buffer at max " ++ toString C.acceptanceBufferMax)))) w
  | pushed {w' : World} (ht : w'.tiers = w.tiers.push C.stagingQueueDepth s)
      (hb : w.queue.staging.length < C.stagingQueueDepth ∨
        w.queue.acceptBuf.length < C.acceptanceBufferMax)
      (hf : s ∉ w.tiers.contents → Filed w') (hl : ∀ x, (w'.slot x).label = (w.slot x).label)
      (ho : ∀ x, x ≠ s → w'.slot x = w.slot x) (hc : w'.queue.counter = w.queue.counter) :
      Enqueued C w s (.ok ()) w'

/-- The slot is given a state and put into a tier. -/
theorem filed_put {w w' : World} (h : Filed w) {s : Nat} (hs : s ∉ w.tiers.contents)
    (hp : w'.tiers.contents.Perm (s :: w.tiers.contents))
    (ho : ∀ x, x ≠ s → w'.slot x = w.slot x)
    (hst : ∀ x ∈ w'.queue.staging, x ∈ w.queue.staging ∨ x = s ∧ (w'.slot s).state = .staged)
    (hbf : ∀ x ∈ w'.queue.acceptBuf,
      x ∈ w.queue.acceptBuf ∨ x = s ∧ (w'.slot s).state = .acceptBuffer) : Filed w' := by
  refine ⟨hp.nodup_iff.mpr (List.nodup_cons.mpr ⟨hs, h.once⟩), fun x hx => ?_, fun x hx => ?_⟩
  · rcases hst x hx with hx | ⟨rfl, hx⟩
    · rw [ho x]
      · exact h.staged x hx
      · rintro rfl
        exact hs (List.mem_append_left _ hx)
    · exact hx
  · rcases hbf x hx with hx | ⟨rfl, hx⟩
    · rw [ho x]
      · exact h.buffered x hx
      · rintro rfl
        exact hs (List.mem_append_right _ hx)
    · exact hx

/-- `transition`, when it is legal. -/
theorem total_transition {w : World} {s : Nat} {target : SlotState} {α : Type}
    {k : Unit → Prog α} {Q : Res sig α → World → Prop}
    (hl : target ∈ legalTransitions (w.slot s).state)
    (h : Total (system C) t (k ()) Q (w.setSlot s fun x => { x with state := target })) :
    Total (system C) t (transition s target >>= k) Q w := by
  have ht : (w.slot s).transition s target = .ok { w.slot s with state := target } := by
    simp [Slot.transition, hl]
  refine total_seq (total_act ?_)
  simp only [ht]
  exact h

/-- The slot in its new state, in one of the tiers. -/
def World.put (s : Nat) (target : SlotState) (f : Queue → Queue) (w : World) : World :=
  (w.setSlot s fun x => { x with state := target }).setQueue f

theorem put_slot (w : World) (s : Nat) (target : SlotState) (f : Queue → Queue) (x : Nat) :
    (((w.put s target f).slot x).label = (w.slot x).label) ∧
      (x ≠ s → (w.put s target f).slot x = w.slot x) ∧
      ((w.put s target f).slot s).state = target := by
  by_cases hx : x = s
  · subst hx
    simp [World.put, World.setQueue, World.setSlot, Slot.label]
  · simp [World.put, World.setQueue, World.setSlot, setAt_of_ne hx]

theorem total_enqueue {w : World} (h : Filed w) {s : Nat} (hs : (w.slot s).state = .received) :
    Total (system C) t (enqueue C s) (Enqueued C w s) w := by
  refine total_gets_bind ?_
  split
  · next hc => exact total_throw (.closed hc)
  · split
    · next hroom =>
        refine total_transition (by simp [hs, legalTransitions]) (total_modify ?_)
        have hput := put_slot w s .staged fun q => { q with staging := q.staging ++ [s] }
        have ht : (w.put s .staged fun q => { q with staging := q.staging ++ [s] }).tiers =
            w.tiers.push C.stagingQueueDepth s := by
          simp [World.put, World.tiers, World.setQueue, World.setSlot, TwoTier.push, hroom]
        refine .pushed ht (.inl hroom) (fun hn => ?_) (fun x => (hput x).1)
          (fun x => (hput x).2.1) rfl
        refine filed_put h hn (ht ▸ TwoTier.push_perm _ _ s) (fun x => (hput x).2.1)
          (fun x hx => ?_) fun x hx => .inl hx
        rcases List.mem_append.mp hx with hx | hx
        · exact .inl hx
        · exact .inr ⟨List.mem_singleton.mp hx, (hput s).2.2⟩
    · next hfull =>
        split
        · next hbf => exact total_throw (.full (by omega) hbf)
        · next hbf =>
            refine total_transition (by simp [hs, legalTransitions]) (total_modify ?_)
            have hput :=
              put_slot w s .acceptBuffer fun q => { q with acceptBuf := q.acceptBuf ++ [s] }
            have ht : (w.put s .acceptBuffer fun q =>
                { q with acceptBuf := q.acceptBuf ++ [s] }).tiers =
                w.tiers.push C.stagingQueueDepth s := by
              simp [World.put, World.tiers, World.setQueue, World.setSlot, TwoTier.push, hfull]
            refine .pushed ht (.inr (by omega)) (fun hn => ?_) (fun x => (hput x).1)
              (fun x => (hput x).2.1) rfl
            refine filed_put h hn (ht ▸ TwoTier.push_perm _ _ s) (fun x => (hput x).2.1)
              (fun x hx => .inl hx) fun x hx => ?_
            rcases List.mem_append.mp hx with hx | hx
            · exact .inl hx
            · exact .inr ⟨List.mem_singleton.mp hx, (hput s).2.2⟩

/-- A refusal changes nothing; else the slot is the head of staging. -/
inductive HeadEnqueued (w : World) (s : Nat) : Res sig Unit → World → Prop where
  | closed (hc : w.queue.closed = true) :
      HeadEnqueued w s (.error (.raised (.queueClosed "queue closed"))) w
  | pushed {w' : World} (hc : w.queue.closed = false) (ht : w'.tiers = w.tiers.pushHead s)
      (hf : s ∉ w.tiers.contents → Filed w') : HeadEnqueued w s (.ok ()) w'

theorem total_enqueueHead {w : World} (h : Filed w) {s : Nat}
    (hs : (w.slot s).state = .received ∨ (w.slot s).state = .staged) :
    Total (system C) t (enqueueHead s) (HeadEnqueued w s) w := by
  refine total_gets_bind ?_
  split
  · next hc => exact total_throw (.closed hc)
  · next hc =>
      have hopen : w.queue.closed = false := by simpa using hc
      refine total_gets_bind ?_
      have hput := put_slot w s .staged fun q => { q with staging := s :: q.staging }
      by_cases hst : (w.slot s).state = .staged
      · refine total_seq (total_when (fun hc => by simp [hst] at hc) fun _ =>
          total_mark (total_modify ?_))
        refine .pushed hopen rfl fun hn => ?_
        refine filed_put h hn (.refl _) (fun _ _ => rfl) (fun x hx => ?_) fun x hx => .inl hx
        rcases List.mem_cons.mp hx with rfl | hx
        · exact .inr ⟨rfl, hst⟩
        · exact .inl hx
      · have hrec := hs.resolve_right hst
        simp only [hrec, ne_eq, reduceCtorEq, not_false_eq_true, decide_true]
        refine total_transition (by simp [hrec, legalTransitions]) (total_mark (total_modify ?_))
        refine .pushed hopen rfl fun hn => ?_
        refine filed_put h hn (.refl _) (fun x => (hput x).2.1) (fun x hx => ?_) fun x hx => .inl hx
        rcases List.mem_cons.mp hx with rfl | hx
        · exact .inr ⟨rfl, (hput x).2.2⟩
        · exact .inl hx

end Turbohaul
