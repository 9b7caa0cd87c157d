/-
# `QueueRuns` — runs of the queue's methods

A client of the queue calls its methods one after the other, in any order;
between two calls it may do anything that is not the queue's (`Beside`).  The
ledger of a run says which slots were accepted and which were handed back.

    conserved    what was accepted is waiting, was returned, or was cleared
    first in,    the queue is in the order of acceptance, as long as nobody is
    first out    accepted past the buffer
    overtaking   a pop with a warm model is a move of a `Lane`
-/
import Mathlib.Data.List.TakeWhile
import Mathlib.Data.Multiset.AddSub
import Turbohaul.QueueCalls

namespace Turbohaul

open Coop

/-- The calls of the queue's methods. -/
inductive QueueCall where
  | enqueue (s : Nat)
  | enqueueHead (s : Nat)
  | popNext (warm : Option String)
  | popMatchedThread (threadId modelTag : String)
  | remove (s : Nat)
  | close
deriving DecidableEq, Repr

/-- What was accepted and what was handed back, each in order; `pops` counts
the calls of `pop_next`. -/
structure Ledger where
  accepted : List Nat := []
  returned : List Nat := []
  cleared : List Nat := []
  pops : Nat := 0

variable (C : Config)

/-- A call and the slots it hands back. -/
def QueueCall.program : QueueCall → Prog (List Nat)
  | .enqueue s => do
      Turbohaul.enqueue C s
      pure []
  | .enqueueHead s => do
      Turbohaul.enqueueHead s
      pure []
  | .popNext warm => do
      let x ← Turbohaul.popNext C warm
      pure x.toList
  | .popMatchedThread threadId modelTag => do
      let x ← Turbohaul.popMatchedThread threadId modelTag
      pure x.toList
  | .remove s => do
      let x ← Turbohaul.remove s
      pure x.toList
  | .close => closeQueue

/-- What a call that has returned adds to the ledger. -/
def Ledger.book (L : Ledger) : QueueCall → Res sig (List Nat) → Ledger
  | _, .error _ => L
  | .enqueue s, .ok _ => { L with accepted := L.accepted ++ [s] }
  | .enqueueHead s, .ok _ => { L with accepted := L.accepted ++ [s] }
  | .popNext _, .ok ss => { L with returned := L.returned ++ ss, pops := L.pops + 1 }
  | .popMatchedThread _ _, .ok ss => { L with returned := L.returned ++ ss }
  | .remove _, .ok ss => { L with returned := L.returned ++ ss }
  | .close, .ok ss => { L with cleared := L.cleared ++ ss }

/-- Fresh slots are enqueued; `enqueue_head` also takes a slot back that was
popped and is still staged. -/
def QueueCall.Admissible (w : World) (L : Ledger) : QueueCall → Prop
  | .enqueue s => (w.slot s).state = .received ∧ s ∉ L.accepted
  | .enqueueHead s =>
      (w.slot s).state = .received ∧ s ∉ L.accepted ∨
        (w.slot s).state = .staged ∧ s ∈ L.returned ∧ s ∉ w.tiers.contents
  | _ => True

/-- What goes on beside the queue: it leaves the queue alone, and of the
waiting slots what the queue reads. -/
structure Beside (w w' : World) : Prop where
  queue : w'.queue = w.queue
  slot : ∀ s ∈ w.tiers.contents,
    (w'.slot s).label = (w.slot s).label ∧ (w'.slot s).state = (w.slot s).state

/-- One step of a client that makes calls of the kind `ok`. -/
inductive QueueStep (ok : World → QueueCall → Prop) : World × Ledger → World × Ledger → Prop where
  | call {w w' : World} {L : Ledger} {t : Nat} {c : QueueCall} {log : List (Op × Reply)}
      {r : Res sig (List Nat)} (hok : ok w c) (ha : c.Admissible w L)
      (h : Returns (system C) t ((c.program C).run w) log r w') :
      QueueStep ok (w, L) (w', L.book c r)
  | beside {w w' : World} {L : Ledger} (h : Beside w w') : QueueStep ok (w, L) (w', L)

/-- A run of such a client. -/
abbrev QueueRun (ok : World → QueueCall → Prop) : World × Ledger → World × Ledger → Prop :=
  Relation.ReflTransGen (QueueStep C ok)

/-! ## Executing a client -/

instance (w : World) (L : Ledger) : (c : QueueCall) → Decidable (c.Admissible w L)
  | .enqueue _ => inferInstanceAs (Decidable (_ ∧ _))
  | .enqueueHead _ => inferInstanceAs (Decidable (_ ∨ _))
  | .popNext _ | .popMatchedThread _ _ | .remove _ | .close => .isTrue trivial

/-- A list of calls, each with the replies it gets. -/
def play (ok : World → QueueCall → Prop) [∀ w c, Decidable (ok w c)] :
    List (QueueCall × List (Option Reply)) → World × Ledger → Option (World × Ledger)
  | [], a => some a
  | (c, xs) :: rest, a =>
      if ok a.1 c ∧ c.Admissible a.1 a.2 then
        (follow (system C) 0 xs ((c.program C).run a.1)).bind fun p =>
          play ok rest (p.2.2, a.2.book c p.2.1)
      else none

/-- What is played is a run. -/
theorem run_of_play {ok : World → QueueCall → Prop} [∀ w c, Decidable (ok w c)] :
    ∀ {cs : List (QueueCall × List (Option Reply))} {a b : World × Ledger},
      play C ok cs a = some b → QueueRun C ok a b
  | [], _, _, h => by
      cases h
      exact .refl
  | (c, xs) :: rest, (w, L), b, h => by
      rw [play] at h
      split at h
      · next hok =>
          obtain ⟨⟨log, r, w'⟩, hf, hp⟩ := Option.bind_eq_some_iff.mp h
          exact .head (.call hok.1 hok.2 (returns_of_follow hf)) (run_of_play hp)
      · cases h

/-- A run and a last call, from what is played. -/
theorem run_of_check (ok : World → QueueCall → Prop) [∀ w c, Decidable (ok w c)]
    (cs : List (QueueCall × List (Option Reply))) (a : World × Ledger) (c : QueueCall)
    (xs : List (Option Reply)) (p : World × Ledger → Res sig (List Nat) → World → Bool)
    (h : ((play C ok cs a).any fun b =>
      (follow (system C) 0 xs ((c.program C).run b.1)).any fun q => p b q.2.1 q.2.2) = true) :
    ∃ b log r w', QueueRun C ok a b ∧ Returns (system C) 0 ((c.program C).run b.1) log r w' ∧
      p b r w' = true := by
  obtain ⟨b, hb, h⟩ := (Option.any_eq_true _ _).mp h
  obtain ⟨⟨log, r, w'⟩, hf, hp⟩ := (Option.any_eq_true _ _).mp h
  exact ⟨b, log, r, w', run_of_play C hb, returns_of_follow hf, hp⟩

/-! ## Conservation -/

/-- Nothing is lost and nothing is there twice. -/
structure Conserved (w : World) (L : Ledger) : Prop where
  filed : Filed w
  ledger : ∀ s, L.accepted.count s =
    w.tiers.contents.count s + L.returned.count s + L.cleared.count s
  bounded : w.queue.acceptBuf.length ≤ C.acceptanceBufferMax

/-- What a call owes to its caller. -/
structure Answered (c : QueueCall) (w : World) (r : Res sig (List Nat)) (w' : World) : Prop where
  legal : ∀ i a b, r ≠ .error (.raised (.invalidTransition i a b))
  empty : ∀ warm, c = .popNext warm → r = .ok [] → w.tiers.contents = []
  refused : ∀ s e, c = .enqueue s → r = .error e → w' = w

variable {C}

theorem Conserved.beside {w w' : World} {L : Ledger} (h : Conserved C w L) (hb : Beside w w') :
    Conserved C w' L := by
  have ht : w'.tiers = w.tiers := by simp only [World.tiers, hb.queue]
  refine
    { filed := ⟨by rw [ht]; exact h.filed.once, fun s hs => ?_, fun s hs => ?_⟩
      ledger := fun s => by rw [ht]; exact h.ledger s
      bounded := by rw [hb.queue]; exact h.bounded }
  · rw [hb.queue] at hs
    rw [(hb.slot s (List.mem_append_left _ hs)).2]
    exact h.filed.staged s hs
  · rw [hb.queue] at hs
    rw [(hb.slot s (List.mem_append_right _ hs)).2]
    exact h.filed.buffered s hs

/-- A slot that was never accepted is not waiting. -/
theorem Conserved.fresh {w : World} {L : Ledger} (h : Conserved C w L) {s : Nat}
    (hs : s ∉ L.accepted) : s ∉ w.tiers.contents := by
  intro hm
  have hl := h.ledger s
  rw [List.count_eq_zero_of_not_mem hs] at hl
  have := List.count_pos_iff.mpr hm
  omega

theorem Chosen.perm {w : World} {tag : String} {head x : Nat} {forced : Bool} {q : TwoTier Nat}
    (h : Chosen w tag head forced x q) : w.tiers.contents.Perm (x :: q.contents) := by
  cases h with
  | head hs => simp [World.tiers, TwoTier.contents, hs]
  | @warm a b _ hs _ _ _ =>
      simp only [World.tiers, TwoTier.contents, hs]
      have h : (head :: a ++ x :: b).Perm (x :: (head :: a ++ b)) := List.perm_middle
      have h := h.append_right w.queue.acceptBuf
      simpa using h

/-- A pop takes one slot and keeps the others. -/
theorem Takes.perm {w w' : World} {warm : Option String} {x : Nat}
    (h : Takes C w warm (some x) w') : w.tiers.contents.Perm (x :: w'.tiers.contents) := by
  cases h with
  | fifo _ ht => rw [TwoTier.pop_some ht.symm]
  | affine _ _ hp =>
      obtain ⟨forced, q, hc, ht, -⟩ := hp.chosen
      rw [ht, TwoTier.refill_contents]
      exact hc.perm

theorem Takes.nothing {w w' : World} {warm : Option String} (hcap : 1 ≤ C.stagingQueueDepth)
    (h : Takes C w warm none w') : w.tiers.contents = [] ∧ w'.tiers.contents = [] := by
  cases h with
  | fifo _ ht => exact TwoTier.pop_none hcap ht.symm

theorem Removed.count {w w' : World} {o : Option Nat} (h : Removed w o w') (s : Nat) :
    w.tiers.contents.count s = w'.tiers.contents.count s + o.toList.count s := by
  cases h with
  | nothing => simp
  | @taken x _ hs ht hk hc =>
      have hp := (List.perm_cons_erase hs).count_eq s
      rw [ht, hp, List.count_cons]
      simp [List.count_cons]

theorem Removed.kept {w w' : World} {o : Option Nat} (hf : Filed w) (h : Removed w o w') :
    Kept w w' := by
  cases h with
  | nothing => exact hf.kept
  | taken hs ht hk hc => exact hk

/-- Slots that leave the queue are booked as returned. -/
theorem Conserved.return {w w' : World} {L : Ledger} {xs : List Nat} {n : Nat}
    (h : Conserved C w L) (hk : Kept w w')
    (hc : ∀ s, w.tiers.contents.count s = w'.tiers.contents.count s + xs.count s) :
    Conserved C w' { L with returned := L.returned ++ xs, pops := n } where
  filed := hk.filed
  ledger := fun s => by
    have hl := h.ledger s
    have hs := hc s
    simp only [List.count_append]
    omega
  bounded := Nat.le_trans hk.buffer.length_le h.bounded

variable {t : Nat}

/-- Every admissible call returns, answers as it should, and conserves. -/
theorem total_queueCall (hcap : 1 ≤ C.stagingQueueDepth) {w : World} {L : Ledger}
    (h : Conserved C w L) (c : QueueCall) (ha : c.Admissible w L) :
    Total (system C) t (c.program C)
      (fun r w' => Conserved C w' (L.book c r) ∧ Answered c w r w') w := by
  have ok : ∀ {c : QueueCall} {xs : List Nat} {w' : World},
      (∀ warm, c = .popNext warm → xs = [] → w.tiers.contents = []) →
      Answered c w (.ok xs) w' := fun he =>
    ⟨(by rintro _ _ _ ⟨⟩), fun warm hc hr => he warm hc (by cases hr; rfl), (by rintro _ _ _ ⟨⟩)⟩
  cases c with
  | enqueue s =>
      obtain ⟨hrec, hfresh⟩ := ha
      have hn := h.fresh hfresh
      refine total_bind (total_enqueue h.filed hrec) (fun u w' he => total_pure ?_)
        fun e w' he => ?_
      · cases he with
        | @pushed w' ht hb hf hl ho hc =>
            refine ⟨⟨hf hn, fun x => ?_, ?_⟩, ok (by rintro _ ⟨⟩)⟩
            · have hl := h.ledger x
              rw [ht, (TwoTier.push_perm _ _ s).count_eq]
              simp only [Ledger.book, List.count_append, List.count_cons, List.count_nil]
              omega
            · have hb' : w'.queue.acceptBuf =
                  (w.tiers.push C.stagingQueueDepth s).back := by rw [← ht]; rfl
              rw [hb', TwoTier.push]
              split
              · exact h.bounded
              · next hfull =>
                  have hroom := hb.resolve_left hfull
                  simp only [World.tiers, List.length_append, List.length_singleton]
                  omega
      · cases he with
        | closed hc => exact ⟨h, (by simp), (by simp), fun _ _ _ _ => rfl⟩
        | full hs hb => exact ⟨h, (by simp), (by simp), fun _ _ _ _ => rfl⟩
  | enqueueHead s =>
      have hst : (w.slot s).state = .received ∨ (w.slot s).state = .staged :=
        ha.imp And.left And.left
      have hn : s ∉ w.tiers.contents := ha.elim (fun ha => h.fresh ha.2) fun ha => ha.2.2
      refine total_bind (total_enqueueHead h.filed hst) (fun u w' he => total_pure ?_)
        fun e w' he => ?_
      · cases he with
        | @pushed w' hc ht hf =>
            refine ⟨⟨hf hn, fun x => ?_, ?_⟩, ok (by rintro _ ⟨⟩)⟩
            · have hl := h.ledger x
              rw [ht, TwoTier.pushHead_contents]
              simp only [Ledger.book, List.count_append, List.count_cons, List.count_nil]
              omega
            · have hb : w'.queue.acceptBuf = (w.tiers.pushHead s).back := by rw [← ht]; rfl
              rw [hb]
              exact h.bounded
      · cases he with
        | closed hc => exact ⟨h, (by simp), (by simp), (by simp)⟩
  | popNext warm =>
      refine total_then (total_popNext h.filed warm) fun x w' hx => total_pure ?_
      obtain ⟨htakes, hp⟩ := hx
      cases x with
      | none =>
          have he := htakes.nothing hcap
          exact ⟨h.return hp.kept fun s => by simp [he.1, he.2], ok fun _ _ _ => he.1⟩
      | some x =>
          refine ⟨h.return hp.kept fun s => ?_, ok fun _ _ hx => by cases hx⟩
          rw [htakes.perm.count_eq, List.count_cons]
          simp [List.count_cons]
  | popMatchedThread threadId modelTag =>
      refine total_then (total_popMatchedThread h.filed threadId modelTag)
        fun x w' hx => total_pure ?_
      exact ⟨h.return (hx.kept h.filed) hx.count, ok (by rintro _ ⟨⟩)⟩
  | remove s =>
      refine total_then (total_remove h.filed s) fun x w' hx => total_pure ?_
      exact ⟨h.return (hx.kept h.filed) hx.count, ok (by rintro _ ⟨⟩)⟩
  | close =>
      refine (total_closeQueue w).mono fun r w' hr => ?_
      obtain ⟨ss, rfl, rfl, ht, hslot⟩ := hr.ok
      have hs : w'.queue.staging = [] := congrArg TwoTier.front ht
      have hb : w'.queue.acceptBuf = [] := congrArg TwoTier.back ht
      refine ⟨⟨⟨by rw [ht]; exact .nil, (by rw [hs]; intro _ h; cases h),
        (by rw [hb]; intro _ h; cases h)⟩, fun s => ?_,
        by rw [hb]; exact Nat.zero_le _⟩, ok (by rintro _ ⟨⟩)⟩
      have hl := h.ledger s
      rw [ht]
      simp only [Ledger.book, TwoTier.contents, List.append_nil, List.count_nil,
        List.count_append] at hl ⊢
      omega

theorem conserved_step (hcap : 1 ≤ C.stagingQueueDepth) {ok : World → QueueCall → Prop}
    {a b : World × Ledger} (h : Conserved C a.1 a.2) (hs : QueueStep C ok a b) :
    Conserved C b.1 b.2 := by
  cases hs with
  | call hok ha hr => exact ((total_queueCall hcap h _ ha).returns hr).1
  | beside hb => exact h.beside hb

theorem conserved_run (hcap : 1 ≤ C.stagingQueueDepth) {ok : World → QueueCall → Prop}
    {a b : World × Ledger} (h : Conserved C a.1 a.2) (hr : QueueRun C ok a b) :
    Conserved C b.1 b.2 := by
  induction hr with
  | refl => exact h
  | tail _ hs ih => exact conserved_step hcap ih hs

theorem conserved_empty {w : World} (h : w.tiers = ⟨[], []⟩) : Conserved C w {} := by
  have hs : w.queue.staging = [] := congrArg TwoTier.front h
  have hb : w.queue.acceptBuf = [] := congrArg TwoTier.back h
  refine ⟨⟨by rw [h]; exact .nil, (by rw [hs]; intro _ h; cases h),
    (by rw [hb]; intro _ h; cases h)⟩, fun s => ?_, by rw [hb]; exact Nat.zero_le _⟩
  rw [h]
  rfl

/-- Queue conservation: whatever is called in whatever order, the slots that
were accepted are the waiting ones, the returned ones and the cleared ones. -/
theorem queue_conserves (hcap : 1 ≤ C.stagingQueueDepth) {w₀ w : World} {L : Ledger}
    (h₀ : w₀.tiers = ⟨[], []⟩) (hr : QueueRun C (fun _ _ => True) (w₀, {}) (w, L)) :
    (L.accepted : Multiset Nat) =
        (w.queue.staging : Multiset Nat) + (w.queue.acceptBuf : Multiset Nat) +
          (L.returned : Multiset Nat) + (L.cleared : Multiset Nat) ∧
      (w.queue.staging ++ w.queue.acceptBuf).Nodup ∧
      (∀ s ∈ w.queue.staging, (w.slot s).state = .staged) ∧
      (∀ s ∈ w.queue.acceptBuf, (w.slot s).state = .acceptBuffer) ∧
      w.queue.acceptBuf.length ≤ C.acceptanceBufferMax ∧
      ∀ (t : Nat) (c : QueueCall), c.Admissible w L →
        (∃ log r w', Returns (system C) t ((c.program C).run w) log r w') ∧
        ∀ log r w', Returns (system C) t ((c.program C).run w) log r w' →
          (∀ i a b, r ≠ .error (.raised (.invalidTransition i a b))) ∧
          (∀ warm, c = .popNext warm → r = .ok [] →
            w.queue.staging = [] ∧ w.queue.acceptBuf = []) ∧
          (∀ s e, c = .enqueue s → r = .error e → w' = w) := by
  have h : Conserved C w L := conserved_run hcap (conserved_empty h₀) hr
  refine ⟨?_, h.filed.once, h.filed.staged, h.filed.buffered, h.bounded, fun t c ha => ?_⟩
  · refine Multiset.ext.mpr fun s => ?_
    have hl := h.ledger s
    simp only [World.tiers, TwoTier.contents, List.count_append] at hl
    simp only [Multiset.count_add, Multiset.coe_count]
    exact hl
  · have ht := total_queueCall (t := t) hcap h c ha
    refine ⟨ht.ends, fun log r w' hret => ?_⟩
    have hans := (ht.returns hret).2
    refine ⟨hans.legal, fun warm hc he => ?_, hans.refused⟩
    exact List.append_eq_nil_iff.mp (hans.empty warm hc he)

/-- Slots of two threads; slot 0 is of thread `a` and of model `m`, the others
of thread `b` and of model `n`. -/
def twoThreads : World :=
  { initial with
    slot := fun s =>
      if s = 0 then { threadId := "a", modelTag := "m" } else { threadId := "b", modelTag := "n" } }

/-- A slot overflows into the buffer, moves up, is pushed back and removed. -/
theorem queue_conserves_overflow :
    ∃ (w : World) (L : Ledger),
      QueueRun { stagingQueueDepth := 1 } (fun _ _ => True) (twoThreads, {}) (w, L) ∧
        (L.accepted : Multiset Nat) =
          (w.queue.staging : Multiset Nat) + (w.queue.acceptBuf : Multiset Nat) +
            (L.returned : Multiset Nat) + (L.cleared : Multiset Nat) ∧
        L.accepted = [0, 1, 0] := by
  obtain ⟨b, log, r, w', hr, hret, hp⟩ := run_of_check { stagingQueueDepth := 1 }
    (fun _ _ => True)
    [(.enqueue 0, []), (.enqueue 1, []), (.popNext none, [some .ok]),
      (.enqueueHead 0, [some .ok]), (.remove 1, [])]
    (twoThreads, {}) (.popNext none) [some .ok] (fun b _ _ => b.2.accepted = [0, 1, 0])
    (by decide +kernel)
  exact ⟨b.1, b.2, hr, (queue_conserves (by decide) rfl hr).1, by simpa using hp⟩

/-! ## The order of the queue -/

/-- The calls of a client that leaves the order to the queue. -/
def QueueCall.plain : QueueCall → Prop
  | .enqueue _ | .popMatchedThread _ _ | .remove _ => True
  | .popNext warm => warm = none
  | .enqueueHead _ | .close => False

variable (C) in
/-- Nobody is enqueued past the buffer: at an `enqueue` the buffer is empty or
staging is full. -/
def inTurn (w : World) (c : QueueCall) : Prop :=
  c.plain ∧ ∀ s, c = .enqueue s →
    w.queue.acceptBuf = [] ∨ C.stagingQueueDepth ≤ w.queue.staging.length

instance : (c : QueueCall) → Decidable c.plain
  | .enqueue _ | .popMatchedThread _ _ | .remove _ => .isTrue trivial
  | .popNext _ => inferInstanceAs (Decidable (_ = _))
  | .enqueueHead _ | .close => .isFalse id

instance (w : World) (c : QueueCall) : Decidable (inTurn C w c) :=
  match c with
  | .enqueue s => decidable_of_iff
      (w.queue.acceptBuf = [] ∨ C.stagingQueueDepth ≤ w.queue.staging.length)
      ⟨fun h => ⟨trivial, fun _ _ => h⟩, fun h => h.2 s rfl⟩
  | .popNext warm => decidable_of_iff (warm = none) ⟨fun h => ⟨h, nofun⟩, fun h => h.1⟩
  | .popMatchedThread _ _ | .remove _ => .isTrue ⟨trivial, nofun⟩
  | .enqueueHead _ | .close => .isFalse fun h => h.1

/-- `x` was accepted before `y`. -/
def Ledger.before (L : Ledger) (x y : Nat) : Prop := [x, y].Sublist L.accepted

/-- The waiting slots stand in the order in which they were accepted. -/
structure InOrder (w : World) (L : Ledger) : Prop where
  once : L.accepted.Nodup
  order : w.tiers.contents.Sublist L.accepted

/-- In a list without duplicates, two entries have one order. -/
theorem not_before {x y : Nat} : ∀ {l : List Nat}, l.Nodup → [x, y].Sublist l →
    ¬[y, x].Sublist l
  | z :: l, hn, h, h' => by
      have hz := (List.nodup_cons.mp hn).1
      have hl := (List.nodup_cons.mp hn).2
      cases h with
      | cons _ h =>
          cases h' with
          | cons _ h' => exact not_before hl h h'
          | cons_cons _ h' => exact hz (h.subset (by simp))
      | cons_cons _ h =>
          cases h' with
          | cons _ h' => exact hz (h'.subset (by simp))
          | cons_cons _ h' => exact hz (h.subset (by simp))

theorem Removed.sublist {w w' : World} {o : Option Nat} (h : Removed w o w') :
    w'.tiers.contents.Sublist w.tiers.contents := by
  cases h with
  | nothing => exact .refl _
  | taken hs ht hk hc =>
      rw [ht]
      exact List.erase_sublist

/-- One step of a client that enqueues in turn. -/
theorem inOrder_step (hcap : 1 ≤ C.stagingQueueDepth) {a b : World × Ledger}
    (hc : Conserved C a.1 a.2) (h : InOrder a.1 a.2) (hs : QueueStep C (inTurn C) a b) :
    InOrder b.1 b.2 := by
  cases hs with
  | beside hb =>
      refine ⟨h.once, ?_⟩
      have ht : World.tiers _ = World.tiers _ := congrArg (fun q : Queue =>
        (⟨q.staging, q.acceptBuf⟩ : TwoTier Nat)) hb.queue
      rw [ht]
      exact h.order
  | @call w w' L t c log r hok ha hr =>
      cases c with
      | enqueue s =>
          have ht : Total (system C) t (QueueCall.program C (.enqueue s))
              (fun r w' => InOrder w' (L.book (.enqueue s) r)) w := by
            refine total_bind (total_enqueue hc.filed ha.1) (fun u w' he => total_pure ?_)
              fun e w' he => ?_
            · cases he with
              | pushed ht hb hf hl ho hc' =>
                  refine ⟨List.nodup_append.mpr ⟨h.once, by simp, fun x hx y hy hxy => ?_⟩, ?_⟩
                  · subst hxy
                    exact ha.2 (List.mem_singleton.mp hy ▸ hx)
                  · rw [ht, TwoTier.push_contents (q := w.tiers) s (hok.2 s rfl)]
                    exact h.order.append_right [s]
            · cases he with
              | closed => exact h
              | full => exact h
          exact ht.returns hr
      | popNext warm =>
          have hw : warm = none := hok.1
          subst hw
          have ht : Total (system C) t (QueueCall.program C (.popNext none))
              (fun r w' => InOrder w' (L.book (.popNext none) r)) w := by
            refine total_then (total_popNext hc.filed none) fun x w' hx => total_pure ?_
            refine ⟨h.once, ?_⟩
            cases x with
            | none =>
                rw [(hx.1.nothing hcap).2]
                exact List.nil_sublist _
            | some x =>
                cases hx.1 with
                | fifo _ ht =>
                    have hs := TwoTier.pop_some ht.symm
                    exact ((List.sublist_cons_self x _).trans (by rw [← hs])).trans h.order
                | affine hw => cases hw
          exact ht.returns hr
      | popMatchedThread threadId modelTag =>
          have ht : Total (system C) t (QueueCall.program C (.popMatchedThread threadId modelTag))
              (fun r w' => InOrder w' (L.book (.popMatchedThread threadId modelTag) r)) w :=
            total_then (total_popMatchedThread hc.filed threadId modelTag) fun x w' hx =>
              total_pure ⟨h.once, hx.sublist.trans h.order⟩
          exact ht.returns hr
      | remove s =>
          have ht : Total (system C) t (QueueCall.program C (.remove s))
              (fun r w' => InOrder w' (L.book (.remove s) r)) w :=
            total_then (total_remove hc.filed s) fun x w' hx =>
              total_pure ⟨h.once, hx.sublist.trans h.order⟩
          exact ht.returns hr
      | enqueueHead s => exact hok.1.elim
      | close => exact hok.1.elim

theorem inOrder_run (hcap : 1 ≤ C.stagingQueueDepth) {a b : World × Ledger}
    (hc : Conserved C a.1 a.2) (h : InOrder a.1 a.2) (hr : QueueRun C (inTurn C) a b) :
    InOrder b.1 b.2 := by
  induction hr with
  | refl => exact h
  | tail hr hs ih => exact inOrder_step hcap (conserved_run hcap hc hr) ih hs

/-- First in, first out over both tiers: in a run that enqueues nobody past the
buffer, a pop returns no slot while one that was accepted before it waits. -/
theorem queue_fifo (hcap : 1 ≤ C.stagingQueueDepth) {w₀ w w' : World} {L : Ledger}
    (h₀ : w₀.tiers = ⟨[], []⟩) (hr : QueueRun C (inTurn C) (w₀, {}) (w, L)) {t x : Nat}
    {log : List (Op × Reply)}
    (hp : Returns (system C) t ((QueueCall.program C (.popNext none)).run w) log (.ok [x]) w') :
    ∀ y ∈ w'.tiers.contents, ¬L.before y x := by
  have hc : Conserved C w L := conserved_run hcap (conserved_empty h₀) hr
  have hi : InOrder w L := by
    have h : InOrder w₀ {} := ⟨.nil, by rw [h₀]; exact .refl _⟩
    exact inOrder_run hcap (conserved_empty h₀) h hr
  have ht : Total (system C) t (QueueCall.program C (.popNext none))
      (fun r w' => r = .ok [x] → w.tiers.contents = x :: w'.tiers.contents) w := by
    refine total_then (total_popNext hc.filed none) fun o w' ho => total_pure fun he => ?_
    cases o with
    | none => cases he
    | some z =>
        cases he
        cases ho.1 with
        | fifo _ ht => exact TwoTier.pop_some ht.symm
        | affine hw => cases hw
  intro y hy hb
  have hs := ht.returns hp rfl
  have hxy : [x, y].Sublist L.accepted := by
    refine List.Sublist.trans ?_ hi.order
    rw [hs]
    exact (List.singleton_sublist.mpr hy).cons_cons x
  exact not_before hi.once hxy hb

/-- An overflow in turn: slot 0 is popped before slot 1. -/
theorem queue_fifo_overflow :
    ∃ (b : World × Ledger) (log : List (Op × Reply)) (w' : World),
      QueueRun { stagingQueueDepth := 1 } (inTurn { stagingQueueDepth := 1 }) (twoThreads, {}) b ∧
        Returns (system { stagingQueueDepth := 1 }) 0
          ((QueueCall.program { stagingQueueDepth := 1 } (.popNext none)).run b.1) log
          (.ok [0]) w' ∧
        1 ∈ w'.tiers.contents ∧ ∀ y ∈ w'.tiers.contents, ¬b.2.before y 0 := by
  obtain ⟨b, log, r, w', hr, hret, hp⟩ := run_of_check { stagingQueueDepth := 1 }
    (inTurn { stagingQueueDepth := 1 }) [(.enqueue 0, []), (.enqueue 1, [])] (twoThreads, {})
    (.popNext none) [some .ok]
    (fun _ r w' => decide (1 ∈ w'.tiers.contents) && r.toOption = some [0])
    (by decide +kernel)
  obtain ⟨hw, hx⟩ := Bool.and_eq_true_iff.mp hp
  cases r with
  | error e => cases hx
  | ok xs =>
      cases (by simpa [Except.toOption] using hx : xs = [0])
      exact ⟨b, log, w', hr, hret, of_decide_eq_true hw, queue_fifo (by decide) rfl hr hret⟩

/-- `pop_matched_thread` makes room in staging and does not refill it: the next
enqueue takes the place, past the buffer, and is popped first. -/
theorem newcomer_passes_buffer :
    ∃ (C : Config) (w₀ w w' : World) (L : Ledger) (log : List (Op × Reply)) (x y : Nat),
      1 ≤ C.stagingQueueDepth ∧ w₀.tiers = ⟨[], []⟩ ∧
        QueueRun C (fun _ c => c.plain) (w₀, {}) (w, L) ∧
        Returns (system C) 0 ((QueueCall.program C (.popNext none)).run w) log (.ok [x]) w' ∧
        y ∈ w'.tiers.contents ∧ L.before y x := by
  obtain ⟨b, log, r, w', hr, hret, hp⟩ := run_of_check { stagingQueueDepth := 1 }
    (fun _ c => c.plain)
    [(.enqueue 0, []), (.enqueue 1, []), (.popMatchedThread "a" "m", [some .ok]),
      (.enqueue 2, [])]
    (twoThreads, {}) (.popNext none) [some .ok]
    (fun b r w' => decide (1 ∈ w'.tiers.contents) && decide (b.2.accepted = [0, 1, 2]) &&
      r.toOption = some [2]) (by decide +kernel)
  obtain ⟨hw, hx⟩ := Bool.and_eq_true_iff.mp hp
  obtain ⟨hw, hl⟩ := Bool.and_eq_true_iff.mp hw
  cases r with
  | error e => cases hx
  | ok xs =>
      cases (by simpa [Except.toOption] using hx : xs = [2])
      refine ⟨_, _, _, w', b.2, log, 2, 1, by decide, rfl, hr, hret, of_decide_eq_true hw, ?_⟩
      rw [Ledger.before, of_decide_eq_true hl]
      decide

/-! ## Overtaking -/

/-- The calls of a client with one warm model. -/
def QueueCall.affine (W : String) : QueueCall → Prop
  | .enqueue _ => True
  | .popNext warm => warm = some W
  | _ => False

namespace World

/-- A slot with its model. -/
def tagged (w : World) (s : Nat) : Nat × String := (s, (w.slot s).modelTag)

/-- Staging and its run-length counter as a lane of tagged slots. -/
def lane (w : World) : Lane (Nat × String) String :=
  ⟨w.queue.staging.map w.tagged, w.queue.consecutiveSameModel, w.queue.lastPoppedModelTag⟩

end World

theorem lane_eq {w w' : World} {x : Nat} (front : List (Nat × String))
    (hf : w'.queue.staging.map w'.tagged = front) (hc : w'.queue.counter = w.counted (some x)) :
    w'.lane = ⟨front, w.lane.count Prod.snd (w.tagged x), some (w.tagged x).2⟩ := by
  simp only [Queue.counter, World.counted, Prod.mk.injEq] at hc
  simp only [World.lane, hf, hc.1, hc.2, Lane.count, World.tagged]
  congr

theorem tagged_eq {w w' : World} (h : ∀ s, (w'.slot s).label = (w.slot s).label) :
    w'.tagged = w.tagged := by
  funext s
  have hm : (w'.slot s).modelTag = (w.slot s).modelTag := congrArg Prod.fst (h s)
  simp only [World.tagged, hm]

/-- A pop with a warm model is a move of the lane. -/
theorem lane_pop {w w' : World} {W : String} {head x : Nat} (hp : Prefers C w W head x w')
    (hpop : Popped w (some x) w') :
    Lane.Step Prod.snd C.maxConsecutiveSameModel W w.lane (some (w.tagged x)) w'.lane := by
  obtain ⟨forced, q, hc, ht, hlt⟩ := hp.chosen
  have htag := tagged_eq hpop.kept.label
  obtain ⟨more, hmore⟩ := TwoTier.refill_front C.stagingQueueDepth q
  have hs' : w'.queue.staging = q.front ++ more := by
    rw [← hmore, ← ht]
    rfl
  cases hc with
  | @head rest hs =>
      rw [lane_eq (x := head) (rest.map w.tagged ++ more.map w.tagged) (by
        rw [htag, hs', List.map_append]) hpop.counter]
      exact .first _ (by simp [World.lane, hs])
  | @warm a b _ hs hh hx hf =>
      rw [lane_eq (x := x)
        (w.tagged head :: a.map w.tagged ++ b.map w.tagged ++ more.map w.tagged) (by
          rw [htag, hs']
          simp) hpop.counter]
      exact .prefer _ (by simp [World.lane, hs]) hh hx (hlt hf)

/-- An accepted slot joins the end of the lane, or the buffer behind it. -/
theorem lane_enqueue {w w' : World} {s : Nat} {r : Res sig Unit} {W : String}
    (h : Enqueued C w s r w') :
    Lane.Step Prod.snd C.maxConsecutiveSameModel W w.lane none w'.lane := by
  have same : Lane.Step Prod.snd C.maxConsecutiveSameModel W w.lane none w.lane := by
    have hj : Lane.Step Prod.snd C.maxConsecutiveSameModel W w.lane none
        { w.lane with front := w.lane.front ++ [] } := .join []
    simpa using hj
  cases h with
  | closed => exact same
  | full => exact same
  | pushed ht hb hf hl ho hc =>
      have htag := tagged_eq hl
      simp only [Queue.counter, Prod.mk.injEq] at hc
      have hfront : w'.queue.staging = (w.tiers.push C.stagingQueueDepth s).front := by
        rw [← ht]
        rfl
      rw [TwoTier.push] at hfront
      split at hfront
      · have hlane : w'.lane = { w.lane with front := w.lane.front ++ [w.tagged s] } := by
          simp only [World.lane, htag, hfront, World.tiers, hc.1, hc.2, List.map_append,
            List.map_cons, List.map_nil]
        rw [hlane]
        exact .join _
      · have hlane : w'.lane = w.lane := by
          simp only [World.lane, htag, hfront, World.tiers, hc.1, hc.2]
        rw [hlane]
        exact same

/-- What comes after `s` is not ahead of it. -/
theorem takeWhile_past {s : Nat} (xs : List Nat) : ∀ {l : List Nat}, s ∈ l →
    (l ++ xs).takeWhile (fun x => x ≠ s) = l.takeWhile fun x => x ≠ s
  | y :: l, h => by
      by_cases hy : y = s
      · simp [hy]
      · have hl : s ∈ l := (List.mem_cons.mp h).resolve_left fun h => hy h.symm
        have ih := takeWhile_past xs hl
        simpa [hy] using ih

/-- What was returned since `w`, and, while `s` waits, the moves of the lane. -/
structure Overtaking (C : Config) (W : String) (s : Nat) (w : World) (L : Ledger) (w' : World)
    (L' : Ledger) (more : List Nat) (bound : Nat) : Prop where
  returned : L'.returned = L.returned ++ more
  ahead : (more.takeWhile fun x => x ≠ s).length ≤ bound
  waits : s ∉ more → ∃ l, Lane.Run Prod.snd C.maxConsecutiveSameModel W w.lane l w'.lane ∧
    l.map Prod.fst = more ∧ L'.pops = L.pops + more.length

section

variable {W : String} {s : Nat} {w w' w'' : World} {L L' L'' : Ledger} {more : List Nat}
variable {a b : List (Nat × String)} (hq : w.lane.front = a ++ w.tagged s :: b)

include hq

/-- While `s` waits it is in staging, and the bound holds of all that was
returned. -/
theorem lane_waits {l : List (Nat × String)} {q : Lane (Nat × String) String}
    (hr : Lane.Run Prod.snd C.maxConsecutiveSameModel W w.lane l q) (hs : s ∉ l.map Prod.fst) :
    q.front ≠ [] ∧
      l.length ≤ a.length * (C.maxConsecutiveSameModel + 1) + C.maxConsecutiveSameModel := by
  have hx : w.tagged s ∉ l := fun h => hs (List.mem_map.mpr ⟨_, h, rfl⟩)
  refine ⟨?_, Lane.overtaken hr hq hx⟩
  obtain ⟨a', b', hf, -⟩ := Lane.potential_run hr hq hx
  rw [hf]
  simp

/-- One more entry, taken by a move of the lane. -/
theorem Overtaking.next {o : Option Nat}
    (h : Overtaking C W s w L w' L' more
      (a.length * (C.maxConsecutiveSameModel + 1) + C.maxConsecutiveSameModel))
    (hn : s ∉ more) (hr : L''.returned = L'.returned ++ o.toList)
    (hp : L''.pops = L'.pops + o.toList.length)
    (hs : Lane.Step Prod.snd C.maxConsecutiveSameModel W w'.lane (o.map w'.tagged) w''.lane) :
    Overtaking C W s w L w'' L'' (more ++ o.toList)
      (a.length * (C.maxConsecutiveSameModel + 1) + C.maxConsecutiveSameModel) := by
  obtain ⟨l, hrun, hl, hpops⟩ := h.waits hn
  have hrun' := hrun.step hs
  have hl' : (l ++ (o.map w'.tagged).toList).map Prod.fst = more ++ o.toList := by
    cases o with
    | none => simpa using hl
    | some x => simp [hl, World.tagged]
  have hlen : more.length = l.length := by rw [← hl, List.length_map]
  refine ⟨by rw [hr, h.returned, List.append_assoc], ?_, fun hn' => ⟨_, hrun', hl', ?_⟩⟩
  · by_cases hn' : s ∈ more ++ o.toList
    · -- `s` itself is taken: those ahead of it are `more`
      have ho : o = some s := by
        cases o with
        | none => exact absurd (by simpa using hn') hn
        | some x => simp_all
      subst ho
      have htake : ((more ++ [s]).takeWhile fun x => decide (x ≠ s)) = more := by
        rw [List.takeWhile_append_of_pos fun x hx => by
          simpa using fun h : x = s => hn (h ▸ hx)]
        simp
      rw [Option.toList_some, htake, hlen]
      exact (lane_waits hq hrun (by rwa [hl])).2
    · have hle := (lane_waits hq hrun' (by rwa [hl'])).2
      rw [← List.length_map (f := Prod.fst), hl'] at hle
      exact Nat.le_trans (List.takeWhile_sublist _).length_le hle
  · rw [hp, hpops, List.length_append, Nat.add_assoc]

omit hq in
/-- Once `s` has been returned, nothing is ahead of it any more. -/
theorem Overtaking.past {xs : List Nat} {n : Nat} (h : Overtaking C W s w L w' L' more n)
    (hm : s ∈ more) (hr : L''.returned = L'.returned ++ xs) :
    Overtaking C W s w L w'' L'' (more ++ xs) n := by
  refine ⟨by rw [hr, h.returned, List.append_assoc], ?_,
    fun hn => absurd (List.mem_append_left _ hm) hn⟩
  rw [takeWhile_past _ hm]
  exact h.ahead

theorem overtaking_step (hc : Conserved C w' L')
    (h : Overtaking C W s w L w' L' more
      (a.length * (C.maxConsecutiveSameModel + 1) + C.maxConsecutiveSameModel))
    (hs : QueueStep C (fun _ c => c.affine W) (w', L') (w'', L'')) :
    ∃ more', Overtaking C W s w L w'' L'' more'
      (a.length * (C.maxConsecutiveSameModel + 1) + C.maxConsecutiveSameModel) := by
  cases hs with
  | beside hb =>
      have hlane : w''.lane = w'.lane := by
        have htag : w'.queue.staging.map w''.tagged = w'.queue.staging.map w'.tagged := by
          refine List.map_congr_left fun x hx => ?_
          have hl := (hb.slot x (List.mem_append_left _ hx)).1
          have hm : (w''.slot x).modelTag = (w'.slot x).modelTag := congrArg Prod.fst hl
          simp only [World.tagged, hm]
        simp only [World.lane, hb.queue, htag]
      exact ⟨more, h.returned, h.ahead, fun hn => by rw [hlane]; exact h.waits hn⟩
  | @call _ _ _ t c log r hok ha hr =>
      cases c with
      | enqueue x =>
          have ht : Total (system C) t (QueueCall.program C (.enqueue x))
              (fun r w'' => Lane.Step Prod.snd C.maxConsecutiveSameModel W w'.lane none w''.lane)
              w' :=
            total_bind (total_enqueue hc.filed ha.1) (fun u w'' he => total_pure (lane_enqueue he))
              fun e w'' he => lane_enqueue he
          have hret : (L'.book (.enqueue x) r).returned = L'.returned ++ [] ∧
              (L'.book (.enqueue x) r).pops = L'.pops + 0 := by
            cases r <;> simp [Ledger.book]
          by_cases hm : s ∈ more
          · exact ⟨_, h.past hm hret.1⟩
          · exact ⟨_, h.next hq (o := none) hm hret.1 hret.2 (ht.returns hr)⟩
      | popNext warm =>
          have hw : warm = some W := hok
          subst hw
          have ht : Total (system C) t (QueueCall.program C (.popNext (some W)))
              (Gives fun xs w'' => ∃ o, xs = o.toList ∧ Takes C w' (some W) o w'' ∧
                Popped w' o w'') w' :=
            total_then (total_popNext hc.filed (some W)) fun o w'' ho => total_pure ⟨o, rfl, ho⟩
          obtain ⟨xs, rfl, o, rfl, htakes, hpop⟩ := (ht.returns hr).ok
          by_cases hm : s ∈ more
          · exact ⟨_, h.past hm rfl⟩
          · obtain ⟨l, hrun, hl, -⟩ := h.waits hm
            have hne := (lane_waits hq hrun (by rwa [hl])).1
            cases htakes with
            | fifo hw _ =>
                have hs := hw.resolve_left (by rintro ⟨⟩)
                exact absurd (by simp [World.lane, hs]) hne
            | @affine tag head x rest _ hw hs hp =>
                cases hw
                exact ⟨_, h.next hq (o := some x) hm rfl rfl (lane_pop hp hpop)⟩
      | enqueueHead x => exact hok.elim
      | popMatchedThread i m => exact hok.elim
      | remove x => exact hok.elim
      | close => exact hok.elim

theorem overtaking_run (hcap : 1 ≤ C.stagingQueueDepth) (hc : Conserved C w L)
    {e : World × Ledger} (hr : QueueRun C (fun _ c => c.affine W) (w, L) e) :
    ∃ more, Overtaking C W s w L e.1 e.2 more
      (a.length * (C.maxConsecutiveSameModel + 1) + C.maxConsecutiveSameModel) := by
  induction hr with
  | refl =>
      exact ⟨[], by simp, Nat.zero_le _, fun _ => ⟨[], .refl _, rfl, rfl⟩⟩
  | tail hr hs ih =>
      obtain ⟨more, h⟩ := ih
      exact overtaking_step hq (conserved_run hcap hc hr) h hs

end

/-- Bounded overtaking: with one warm model and enqueues at the tail, a slot at
position `p` of staging is returned within `(p + 1) * (c + 1)` pops, a slot at
the head is overtaken by at most `c`, and a head of another model that has
waited too long, on the clock the pop reads, is what the pop returns. -/
theorem overtaking_bounded (hcap : 1 ≤ C.stagingQueueDepth) {W : String}
    {w₀ w w' : World} {L L' : Ledger} (h₀ : w₀.tiers = ⟨[], []⟩)
    (hr₀ : QueueRun C (fun _ _ => True) (w₀, {}) (w, L))
    (hr : QueueRun C (fun _ c => c.affine W) (w, L) (w', L')) {p s : Nat}
    (hp : w.queue.staging[p]? = some s) :
    (∃ more, L'.returned = L.returned ++ more ∧
      (L.pops + (p + 1) * (C.maxConsecutiveSameModel + 1) ≤ L'.pops → s ∈ more) ∧
      (p = 0 → (more.takeWhile fun x => x ≠ s).length ≤ C.maxConsecutiveSameModel)) ∧
    ∀ t, (∃ log r w'', Returns (system C) t ((popNext C (some W)).run w') log r w'') ∧
      ∀ log x w'' head rest,
        Returns (system C) t ((popNext C (some W)).run w') log (.ok x) w'' →
        w'.queue.staging = head :: rest → (w'.slot head).modelTag ≠ W →
        C.maxOtherModelWaitMs < w''.clock - (w'.slot head).createdAt → x = some head := by
  have hc : Conserved C w L := conserved_run hcap (conserved_empty h₀) hr₀
  have hc' : Conserved C w' L' := conserved_run hcap hc hr
  refine ⟨?_, fun t => ?_⟩
  · obtain ⟨hlt, hget⟩ := List.getElem?_eq_some_iff.mp hp
    have hsplit : w.queue.staging =
        w.queue.staging.take p ++ s :: w.queue.staging.drop (p + 1) := by
      rw [← hget, List.getElem_cons_drop, List.take_append_drop]
    have hq : w.lane.front = (w.queue.staging.take p).map w.tagged ++
        w.tagged s :: (w.queue.staging.drop (p + 1)).map w.tagged := by
      rw [World.lane, ← List.map_cons, ← List.map_append, ← hsplit]
    have hlen : ((w.queue.staging.take p).map w.tagged).length = p := by
      rw [List.length_map, List.length_take, Nat.min_eq_left (Nat.le_of_lt hlt)]
    obtain ⟨more, h⟩ := overtaking_run hq hcap hc hr
    rw [hlen] at h
    refine ⟨more, h.returned, fun hpops => ?_, fun hz => ?_⟩
    · by_contra hn
      obtain ⟨l, -, -, hpops'⟩ := h.waits hn
      have hcount : L'.pops = L.pops + more.length := hpops'
      have ha := h.ahead
      rw [List.takeWhile_eq_self_iff.mpr fun x hx => by
        simpa using fun he : x = s => hn (he ▸ hx)] at ha
      rw [Nat.add_mul, Nat.one_mul] at hpops
      omega
    · have ha := h.ahead
      rwa [hz, Nat.zero_mul, Nat.zero_add] at ha
  · have ht := total_popNext (C := C) (t := t) hc'.filed (some W)
    refine ⟨ht.ends, fun log x w'' head rest hret hs hne hold => ?_⟩
    obtain ⟨htakes, -⟩ := ht.returns hret
    cases htakes with
    | fifo hw _ =>
        rw [hw.resolve_left (by rintro ⟨⟩)] at hs
        cases hs
    | affine hw hs' hp =>
        cases hw
        rw [hs] at hs'
        cases hs'
        rw [hp.starved hne hold]

instance (W : String) : (c : QueueCall) → Decidable (c.affine W)
  | .enqueue _ => .isTrue trivial
  | .popNext _ => inferInstanceAs (Decidable (_ = _))
  | .enqueueHead _ | .popMatchedThread _ _ | .remove _ | .close => .isFalse id

/-- With `c = 1` the slot of model `m` at the head is overtaken once by slots of
the warm model `n`. -/
theorem overtaking_bounded_once :
    ∃ (a b : World × Ledger) (more : List Nat),
      QueueRun { maxConsecutiveSameModel := 1 } (fun _ c => c.affine "n") a b ∧
        a.1.queue.staging[0]? = some 0 ∧ b.2.returned = a.2.returned ++ more ∧
        (more.takeWhile fun x => x ≠ 0).length ≤ 1 := by
  obtain ⟨a, log, r, w', hr₀, -, ha⟩ := run_of_check { maxConsecutiveSameModel := 1 }
    (fun _ _ => True) [(.enqueue 0, []), (.enqueue 1, []), (.enqueue 2, [])] (twoThreads, {})
    (.popNext none) [some .ok]
    (fun a _ _ => decide (a.1.queue.staging[0]? = some 0) &&
      (play { maxConsecutiveSameModel := 1 } (fun _ c => c.affine "n")
        [(.popNext (some "n"), [some (.time 0), some .ok]),
          (.popNext (some "n"), [some (.time 0), some .ok])] a).isSome) (by decide +kernel)
  obtain ⟨hs, hb⟩ := Bool.and_eq_true_iff.mp ha
  obtain ⟨b, hb⟩ := Option.isSome_iff_exists.mp hb
  have hr := run_of_play _ hb
  obtain ⟨more, hm, -, hhead⟩ := (overtaking_bounded (by decide) rfl hr₀ hr
    (of_decide_eq_true hs)).1
  exact ⟨a, b, more, hr, of_decide_eq_true hs, hm, hhead rfl⟩

end Turbohaul
