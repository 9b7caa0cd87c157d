/-
# `RequeueOrder` — the order in which slots come back to the queue

A drained inbox goes back to staging slot by slot, each at the head, so the
last one of the inbox ends up first.  Deferred slots come back from a task each,
in the order in which these wake up, and again the last one to come is the
first in staging.

    inbox [s₁, …, sₙ]            staging  sₙ, …, s₁, old
    woken  s₁, …, sₙ             staging  sₙ, …, s₁, old
-/
import Turbohaul.QueueCalls

namespace Turbohaul

open Coop

/-- `enqueue_head` takes the slot: the queue is open, and the slot is staged or
may become so. -/
def World.takesBack (w : World) (s : Nat) : Bool :=
  !w.queue.closed &&
    ((w.slot s).state = .staged || .staged ∈ legalTransitions (w.slot s).state)

/-- The queue with a slot at its head. -/
def Queue.withHead (s : Nat) (q : Queue) : Queue := { q with staging := s :: q.staging }

variable {C : Config} {t : Nat}

/-- What the queue takes back depends on its being open and on the states. -/
theorem takesBack_congr (w w' : World) (hq : w'.queue.closed = w.queue.closed) (x : Nat)
    (hs : (w'.slot x).state = (w.slot x).state) : w'.takesBack x = w.takesBack x := by
  simp only [World.takesBack, hq, hs]

/-- One head insertion: the slot is at the head, or nothing has changed. -/
inductive Inserted (w : World) (s : Nat) : Res sig Unit → World → Prop where
  | taken {w' : World} (ha : w.takesBack s = true) (hq : w'.queue = w.queue.withHead s)
      (hb : ∀ x, w'.takesBack x = w.takesBack x) : Inserted w s (.ok ()) w'
  | refused (e : Err) (ha : w.takesBack s = false) : Inserted w s (.error (.raised e)) w

theorem total_insert (w : World) (s : Nat) :
    Total (system C) t (enqueueHead s) (Inserted w s) w := by
  refine total_gets_bind ?_
  split
  · next hc => exact total_throw (.refused _ (by simp [World.takesBack, hc]))
  · next hc =>
      have hopen : w.queue.closed = false := by simpa using hc
      refine total_gets_bind ?_
      by_cases hst : (w.slot s).state = .staged
      · refine total_seq (total_when (fun h => by simp [hst] at h) fun _ =>
          total_mark (total_modify ?_))
        refine .taken (by simp [World.takesBack, hopen, hst]) rfl fun x => ?_
        exact takesBack_congr _ _ rfl x rfl
      · by_cases hl : .staged ∈ legalTransitions (w.slot s).state
        · have hw : (decide ((w.slot s).state ≠ .staged)) = true := by simpa using hst
          rw [hw]
          refine total_transition hl (total_mark (total_modify ?_))
          refine .taken (by simp [World.takesBack, hopen, hl]) rfl fun x => ?_
          by_cases hx : x = s
          · subst hx
            have hstate : ((w.put x .staged (Queue.withHead x)).slot x).state = .staged :=
              (put_slot w x .staged (Queue.withHead x) x).2.2
            have hclosed : (w.put x .staged (Queue.withHead x)).queue.closed = false := hopen
            show (w.put x .staged (Queue.withHead x)).takesBack x = w.takesBack x
            simp [World.takesBack, hstate, hclosed, hopen, hl]
          · have hslot := (put_slot w s .staged (Queue.withHead s) x).2.1 hx
            exact takesBack_congr w (w.put s .staged (Queue.withHead s)) rfl x
              (congrArg Slot.state hslot)
        · have ht : (w.slot s).transition s .staged =
              .error (.invalidTransition s (w.slot s).state .staged) := by
            simp [Slot.transition, hl]
          have hw : (decide ((w.slot s).state ≠ .staged)) = true := by simpa using hst
          rw [hw]
          refine total_seq (total_act ?_)
          simp only [ht]
          exact .refused _ (by simp [World.takesBack, hst, hl])

theorem total_fail {α : Type} {k : Unit → Prog α} {Q : Res sig α → World → Prop} {w : World}
    (site : FailSite) (s : Nat) (e : Err)
    (h : Total (system C) t (k ()) Q (w.setSlot s (Slot.fail e))) :
    Total (system C) t (failCompletionFuture site s e >>= k) Q w := by
  refine total_seq (total_seq (total_call rfl ⟨.ok, rfl⟩ fun x hx => ?_))
  cases x with
  | ok => exact total_pure h
  | _ => cases hx

theorem fail_state (w : World) (s : Nat) (e : Err) (x : Nat) :
    ((w.setSlot s (Slot.fail e)).slot x).state = (w.slot x).state := by
  by_cases hx : x = s
  · subst hx
    simp only [World.setSlot, setAt_self, Slot.fail]
    split <;> rfl
  · simp [World.setSlot, setAt_of_ne hx]

/-- The batch of an inbox, put back one by one. -/
theorem total_requeueSlots : ∀ (ss : List Nat) (w : World),
    Total (system C) t (requeueSlotsOrFail ss)
      (fun _ w' => w'.queue.staging = (ss.filter w.takesBack).reverse ++ w.queue.staging) w
  | [], w => total_pure rfl
  | s :: ss, w => by
      refine total_seq (total_attempt ((total_insert w s).mono fun r w₁ hr => ?_))
      cases hr with
      | taken ha hq hb =>
          refine (total_requeueSlots ss w₁).mono fun _ w' h => ?_
          have hf : w₁.takesBack = w.takesBack := funext hb
          rw [h, hf, hq, List.filter_cons_of_pos ha]
          simp [Queue.withHead]
      | refused e ha =>
          refine total_fail .requeueFailed s e ((total_requeueSlots ss _).mono fun _ w' h => ?_)
          have hf : (w.setSlot s (Slot.fail e)).takesBack = w.takesBack :=
            funext fun x => takesBack_congr w (w.setSlot s (Slot.fail e)) rfl x
              (fail_state w s e x)
          rw [h, hf, List.filter_cons_of_neg (by simp [ha])]
          rfl

/-! ## Deferred slots -/

/-- Nothing touches staging. -/
def Aside (w w' : World) : Prop :=
  w'.queue = w.queue ∧ ∀ s, (w'.slot s).state = (w.slot s).state

/-- The task of a deferred slot wakes up: what it does after its sleep. -/
def Woken (C : Config) (s : Nat) (w w' : World) : Prop :=
  ∃ t k log r, (requeueAfterBackoff s).run w = .await .sleep k w ∧
    Returns (system C) t ((k .ok).run w) log r w'

/-- Deferred slots whose tasks wake up in this order, while nothing else
touches staging. -/
inductive Wakes (C : Config) : List Nat → World → World → Prop where
  | nil {w w' : World} (h : Aside w w') : Wakes C [] w w'
  | cons {s : Nat} {ss : List Nat} {w w₁ w₂ w' : World} (h : Aside w w₁) (hw : Woken C s w₁ w₂)
      (hs : Wakes C ss w₂ w') : Wakes C (s :: ss) w w'

theorem Aside.takesBack {w w' : World} (h : Aside w w') : w'.takesBack = w.takesBack :=
  funext fun x => takesBack_congr _ _ (congrArg Queue.closed h.1) x (h.2 x)

theorem woken_staging {s : Nat} {w w' : World} (h : Woken C s w w') :
    w'.queue.staging = ([s].filter w.takesBack).reverse ++ w.queue.staging ∧
      w'.takesBack = w.takesBack := by
  obtain ⟨t, k, log, r, hk, hr⟩ := h
  cases hk
  refine Ends.returns (Q := fun _ (w' : World) => w'.queue.staging =
      ([s].filter w.takesBack).reverse ++ w.queue.staging ∧ w'.takesBack = w.takesBack) ?_ hr
  -- what is left when the sleep is over
  refine total_seq (total_attempt (total_seq (total_seq (total_pure (total_pure ?_)))))
  refine (total_insert w s).mono fun r w₁ hr => ?_
  cases hr with
  | taken ha hq hb =>
      refine total_pure ⟨?_, funext hb⟩
      rw [hq, List.filter_cons_of_pos ha]
      rfl
  | refused e ha =>
      refine total_seq (total_call rfl ⟨.ok, rfl⟩ fun x hx => ?_)
      cases x with
      | ok =>
          refine total_pure ⟨?_, funext fun x => takesBack_congr
            w (w.setSlot s (Slot.fail e)) rfl x (fail_state w s e x)⟩
          rw [List.filter_cons_of_neg (by simp [ha])]
          rfl
      | _ => cases hx

/-- Each slot that wakes up goes ahead of those that woke up before it. -/
theorem wakes_staging {ss : List Nat} {w w' : World} (h : Wakes C ss w w') :
    w'.queue.staging = (ss.filter w.takesBack).reverse ++ w.queue.staging := by
  induction h with
  | nil h => rw [h.1]; rfl
  | @cons s ss w w₁ w₂ w' h hw _ ih =>
      obtain ⟨hs, hb⟩ := woken_staging hw
      rw [ih, hb, hs, h.takesBack, h.1, ← List.append_assoc, ← List.reverse_append,
        ← List.filter_append]
      rfl

/-! ## The order that is kept -/

/-- A list filtered and reversed is the list itself when nothing is dropped and
it reads the same in both directions. -/
theorem filter_reverse_eq {p : Nat → Bool} {ss ds old : List Nat} (hp : ss.Perm ds) :
    (ss.filter p).reverse ++ old = ds ++ old ↔ (∀ s ∈ ds, p s = true) ∧ ss = ds.reverse := by
  rw [List.append_left_inj]
  constructor
  · intro h
    have hlen : (ss.filter p).length = ss.length := by
      rw [hp.length_eq, ← h, List.length_reverse]
    have hall := List.length_filter_eq_length_iff.mp hlen
    rw [List.filter_eq_self.mpr hall] at h
    exact ⟨fun s hs => hall s (hp.mem_iff.mpr hs), by rw [← h, List.reverse_reverse]⟩
  · rintro ⟨hall, rfl⟩
    rw [List.filter_eq_self.mpr fun s hs => hall s (List.mem_reverse.mp hs), List.reverse_reverse]

/-- `_begin_evict_locked` hands the inbox, as it stands, to one task. -/
theorem total_beginEvict (r : Nat) (w : World) :
    Total (system C) t (beginEvictLocked r)
      (fun _ w' => (w.resident r).inbox.getD [] ≠ [] →
        (w'.task w.taskCount).kind = .requeueSlots ((w.resident r).inbox.getD []) ∧
          w'.queue = w.queue) w := by
  refine total_gets_bind ?_
  refine total_bind (M := fun _ (w₁ : World) => (w.resident r).inbox.getD [] ≠ [] →
    (w₁.task w.taskCount).kind = .requeueSlots ((w.resident r).inbox.getD []) ∧
      w.taskCount < w₁.taskCount ∧ w₁.queue = w.queue) ?_ (fun _ w₁ h => ?_) fun e w₁ h hne =>
        ⟨(h hne).1, (h hne).2.2⟩
  · refine total_when (fun hc => total_modify fun _ => ?_) fun hc hne => ?_
    · simp only [World.drainInbox, World.fork, World.setResident, setAt_self, Nat.lt_succ_self,
        and_self]
    · exact absurd (by simpa using hc) hne
  · refine total_when (fun _ => ?_) fun _ hne => ⟨(h hne).1, (h hne).2.2⟩
    refine total_seq (total_modify (total_seq (total_modify (total_modify fun hne => ?_))))
    obtain ⟨hk, hlt, hq⟩ := h hne
    refine ⟨?_, hq⟩
    simp only [World.fork, World.deregister, World.setResident]
    rw [setAt_of_ne (by omega)]
    exact hk

/-- The driver's `finally` takes the inbox as it stands. -/
theorem total_claimTeardown (r : Nat) (w : World) :
    Total (system C) t (claimTeardown r)
      (fun _ w' => (w'.resident r).pendingSlots = (w.resident r).inbox.getD [] ∧
        w'.queue = w.queue) w := by
  refine total_seq (total_modify (total_gets_bind (total_when (fun _ => ?_) fun _ => ?_)))
  · refine total_seq (total_modify (total_modify ?_))
    simp [World.setResident, World.deregister]
  · simp [World.setResident]

/-- When slots come back in their order.  An inbox that is drained is handed
over as it stands, by an eviction or by the driver's `finally`; put back, it is
in its order exactly when it reads the same in both directions, so with at most
one slot.  Deferred slots are in the order in which they were deferred exactly
when their tasks wake up in the reverse order. -/
theorem requeue_keeps_order (C : Config) :
    (∀ t r w log o w', Returns (system C) t ((beginEvictLocked r).run w) log o w' →
      (w.resident r).inbox.getD [] ≠ [] →
        (w'.task w.taskCount).kind = .requeueSlots ((w.resident r).inbox.getD []) ∧
          w'.queue = w.queue) ∧
    (∀ t r w log o w', Returns (system C) t ((claimTeardown r).run w) log o w' →
      (w'.resident r).pendingSlots = (w.resident r).inbox.getD [] ∧ w'.queue = w.queue) ∧
    (∀ t ss w log o w', Returns (system C) t ((requeueSlotsOrFail ss).run w) log o w' →
      (w'.queue.staging = ss ++ w.queue.staging ↔
        (∀ s ∈ ss, w.takesBack s = true) ∧ ss = ss.reverse)) ∧
    (∀ (ds woken : List Nat) w w', woken.Perm ds → Wakes C woken w w' →
      (w'.queue.staging = ds ++ w.queue.staging ↔
        (∀ s ∈ ds, w.takesBack s = true) ∧ woken = ds.reverse)) := by
  refine ⟨fun t r w log o w' hr => (total_beginEvict r w).returns hr,
    fun t r w log o w' hr => (total_claimTeardown r w).returns hr, fun t ss w log o w' hr => ?_,
    fun ds woken w w' hp hw => ?_⟩
  · rw [(total_requeueSlots ss w).returns hr]
    exact filter_reverse_eq (.refl ss)
  · rw [wakes_staging hw]
    exact filter_reverse_eq hp

/-- A resident with two slots in its inbox. -/
def twoQueued : World :=
  { initial with
    slotCount := 3
    slot := fun _ => { state := .staged }
    queue := { staging := [0] }
    residentCount := 2
    resident := fun r => if r = 1 then
      { modelTag := some "m", inbox := some [1, 2], state := .idleEvictable } else {}
    registry := [(singletonResidentKey, 0), ("m", 1)] }

/-- An inbox of one slot comes back as it was. -/
theorem requeue_keeps_order_one :
    ∃ log o w', Returns (system {}) 0 ((requeueSlotsOrFail [1]).run twoQueued) log o w' ∧
      w'.queue.staging = [1] ++ twoQueued.queue.staging := by
  obtain ⟨log, o, w', hr⟩ := (total_requeueSlots (C := {}) (t := 0) [1] twoQueued).ends
  exact ⟨log, o, w', hr,
    ((requeue_keeps_order {}).2.2.1 0 [1] twoQueued log o w' hr).mpr (by decide)⟩

/-- What the eviction of resident 1 and the task it forks do to `twoQueued`. -/
def evictedAndRequeued : Option World :=
  (follow (system {}) 0 [] ((beginEvictLocked 1).run twoQueued)).bind fun p =>
    (follow (system {}) 1 [some .ok, some .ok] ((requeueSlotsOrFail [1, 2]).run p.2.2)).map fun q =>
    q.2.2

/-- An inbox of two slots that is evicted comes back reversed. -/
theorem evicted_inbox_is_reversed :
    ∃ log₁ o₁ w₁ log₂ o₂ w₂,
      Returns (system {}) 0 ((beginEvictLocked 1).run twoQueued) log₁ o₁ w₁ ∧
        Returns (system {}) 1 ((requeueSlotsOrFail [1, 2]).run w₁) log₂ o₂ w₂ ∧
        (twoQueued.resident 1).inbox = some [1, 2] ∧ twoQueued.queue.staging = [0] ∧
        (w₁.task 1).kind = .requeueSlots [1, 2] ∧ w₂.queue.staging = [2, 1, 0] := by
  have hrun : evictedAndRequeued.any (fun w => w.queue.staging = [2, 1, 0]) = true := by
    decide +kernel
  obtain ⟨w₂, h, hst⟩ := (Option.any_eq_true _ _).mp hrun
  obtain ⟨⟨log₁, o₁, w₁⟩, h₁, h'⟩ := Option.bind_eq_some_iff.mp h
  obtain ⟨⟨log₂, o₂, w⟩, h₂, rfl⟩ := Option.map_eq_some_iff.mp h'
  have hr := returns_of_follow h₁
  have hk := (total_beginEvict 1 twoQueued).returns hr (by decide)
  exact ⟨log₁, o₁, w₁, log₂, o₂, w, hr, returns_of_follow h₂, rfl, rfl, hk.1,
    of_decide_eq_true hst⟩

end Turbohaul
