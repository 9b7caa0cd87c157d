/-
# `Fairness` — a fan-out and the slot of another model that waits behind it

The admit loops of a fan-out ask the queue for the next slot, preferring their
own model; what they cannot take they push back to the head.  The batch cap
bounds the riders that pass a waiting slot of another model, as long as no
such slot is taken out and pushed back once a rider has passed it: to take it
out sets the run length to one, and the next poll starts a batch anew.

    Fair    the riders so far are within the cap, and the counter knows of them
    Batch   the same between two pops, with the head that blocks the loop
    Took    the same after a pop, before its slot is admitted or pushed back

The fan-out `d` that is spoken of, and the number `N` of riders there were,
are fixed.  Outside of `d` the worker has nothing to keep.
-/
import Turbohaul.Batches

namespace Turbohaul

open Coop

variable (C : Config) (d : Nat × String) (N : Nat)

/-- Once more than `N` riders have joined, an admit loop takes out a slot of
another model only so that the run length stands at the batch cap. -/
def noFreshBatch : Admit (system C) where
  reply := fun t o _ w =>
    match o with
    | .mark (.popped e) =>
        decide (t ≠ workerTask) ||
          match w.drain with
          | some (_, tag) =>
              decide ((w.slot e).modelTag = tag) || decide (w.riders.length ≤ N) ||
                decide (C.maxConsecutiveSameModel ≤ w.queue.consecutiveSameModel)
          | none => true
    | _ => true

/-- Slot `x`, of another model, waits at the head of staging during the
fan-out `d`, and is not starved. -/
structure Waits (x : Nat) (w : World) : Prop where
  drain : w.drain = some d
  head : w.queue.staging.head? = some x
  other : (w.slot x).modelTag ≠ d.2
  young : w.clock - (w.slot x).createdAt ≤ C.maxOtherModelWaitMs

/-- The run length has counted all riders since there were `N`. -/
def Counted (w : World) : Prop :=
  w.riders.length ≤ N ∨
    w.queue.lastPoppedModelTag = some d.2 ∧
      w.riders.length ≤ N + w.queue.consecutiveSameModel

/-- At most `max_consecutive_same_model` riders have joined since there were
`N`, and the counter knows of them. -/
def Fair (w : World) : Prop :=
  w.riders.length ≤ N + C.maxConsecutiveSameModel ∧
    (Counted d N w ∨ C.maxConsecutiveSameModel ≤ w.queue.consecutiveSameModel)

/-- The fan-out has a head of another model behind it, and is fair so far. -/
structure Held (w : World) : Prop where
  drain : w.drain = some d
  head : ∃ x rest, w.queue.staging = x :: rest ∧ (w.slot x).modelTag ≠ d.2
  fair : Fair C d N w

variable {C d N} in
theorem Waits.held {x : Nat} {w : World} (h : Waits C d x w) (hf : Fair C d N w) :
    Held C d N w := by
  obtain ⟨rest, hr⟩ := List.head?_eq_some_iff.mp h.head
  exact ⟨h.drain, ⟨x, rest, hr, h.other⟩, hf⟩

/-- What the worker does about a waiting head. -/
def StaysFair (w w' : World) : Prop :=
  Held C d N w → w'.drain = some d → Fair C d N w'

/-- The claim about the fan-out. -/
def fairness : Outline (system C) where
  cond := noFreshBatch C N
  base := fun _ => True
  inv := fun w => Staffed w ∧ (w.drain = none ∨ w.manned)
  guar := fun u w w' => if u = some workerTask then StaysFair C d N w w' else Uncounted w w'

variable {C d N} {t : Nat} {s w : World}

theorem noFreshBatch_popped {e : Nat} {r : Reply} (hd : w.drain = some d)
    (h : (noFreshBatch C N).reply workerTask (.mark (.popped e)) r w = true) :
    (w.slot e).modelTag = d.2 ∨ w.riders.length ≤ N ∨
      C.maxConsecutiveSameModel ≤ w.queue.consecutiveSameModel := by
  simp only [noFreshBatch, hd, ne_eq, not_true_eq_false, decide_false, Bool.false_or,
    Bool.or_eq_true, decide_eq_true_eq, or_assoc] at h
  exact h

theorem guar_worker {w w' : World} (h : StaysFair C d N w w') :
    (fairness C d N).guar (some workerTask) w w' := by
  simpa only [fairness, if_pos] using h

theorem guar_other {u : Option Nat} {w w' : World} (hu : u ≠ some workerTask)
    (h : Uncounted w w') : (fairness C d N).guar u w w' := by
  simpa only [fairness, if_neg hu] using h

theorem counted_congr {w w' : World} (hf : w'.fanOuts = w.fanOuts)
    (hc : w'.queue.counter = w.queue.counter) : Counted d N w' ↔ Counted d N w := by
  have hn : w'.queue.consecutiveSameModel = w.queue.consecutiveSameModel := congrArg Prod.fst hc
  have hl : w'.queue.lastPoppedModelTag = w.queue.lastPoppedModelTag := congrArg Prod.snd hc
  rw [Counted, Counted, riders_congr hf, hn, hl]

theorem Fair.uncounted {w w' : World} (h : Fair C d N w) (hp : Uncounted w w') :
    Fair C d N w' := by
  have hn : w'.queue.consecutiveSameModel = w.queue.consecutiveSameModel :=
    congrArg Prod.fst hp.counter
  rw [Fair, counted_congr hp.fanOuts hp.counter, riders_congr hp.fanOuts, hn]
  exact h

theorem inv_uncounted {w w' : World} (hp : Uncounted w w')
    (h : Staffed w ∧ (w.drain = none ∨ w.manned)) :
    Staffed w' ∧ (w'.drain = none ∨ w'.manned) := by
  rw [drain_congr hp.fanOuts]
  exact ⟨(hp.crewed h.1).1, h.2.imp_right (hp.crewed h.1).2⟩

theorem rely_uncounted {w w' : World} (h : (fairness C d N).Rely workerTask w w') :
    Uncounted w w' := by
  refine h.keeps (R := Uncounted) Uncounted.refl (fun _ _ _ => Uncounted.trans)
    fun u w w' hu _ _ hg => ?_
  simp only [fairness] at hg
  rwa [if_neg hu] at hg

/-! ## The other tasks -/

/-- What the other tasks keep. -/
abbrev Bystands (s w : World) : Prop :=
  (Staffed w ∧ (w.drain = none ∨ w.manned)) ∧ Uncounted s w

theorem frames_bystands (ht : t ≠ workerTask) :
    Frames (fairness C d N) t Bystands Uncounted fun _ => True where
  act := fun h hi => ⟨inv_uncounted h hi.1, hi.2.trans h⟩
  ask := fun o _ _ w hi r _ _ =>
    have h := (inert_answer t o r w).uncounted
    ⟨inv_uncounted h hi.1, hi.2.trans h⟩
  await := fun o _ s w hi => by
    have h := (inert_issue t o w).uncounted
    refine ⟨⟨inv_uncounted h hi.1, guar_other (fun he => ht (Option.some.inj he)) (hi.2.trans h)⟩,
      fun w' _ hg r _ _ => ?_⟩
    · have h' := (inert_answer t o r w').uncounted
      exact ⟨inv_uncounted h' hg.1, h'⟩

/-! ## The worker outside of the fan-out -/

/-- The worker is not in the fan-out `d`, and if it has just been, that one is
over for good. -/
structure Elsewhere (d : Nat × String) (s w : World) : Prop where
  staffed : Staffed w
  manned : w.manned
  drain : w.drain ≠ some d
  past : s.drain = some d → d.1 < w.opened

theorem Elsewhere.level {w' : World} (h : Elsewhere d s w) (hl : Level w w') :
    Elsewhere d s w' where
  staffed := (hl.crewed h.staffed).1
  manned := (hl.crewed h.staffed).2 h.manned
  drain := by rw [hl.drain]; exact h.drain
  past := by rw [hl.opened]; exact h.past

theorem frames_elsewhere :
    Frames (fairness C d N) workerTask (Elsewhere d) Level fun _ => True where
  act := fun h hi => hi.level h
  ask := fun o _ _ w hi r _ _ => hi.level (inert_answer workerTask o r w).toApart.level
  await := fun o _ s w hi => by
    have h := hi.level (inert_issue workerTask o w).toApart.level
    refine ⟨⟨⟨h.staffed, .inr h.manned⟩, guar_worker fun _ hd => (h.drain hd).elim⟩,
      fun w' hw _ r _ _ => ?_⟩
    · have h' := h.level (rely_uncounted hw).toApart.level
      have hw' : Elsewhere d w' w' := ⟨h'.staffed, h'.manned, h'.drain, World.drain_lt⟩
      exact hw'.level (inert_answer workerTask o r w').toApart.level

theorem shares_elsewhere : Shares C (fairness C d N) workerTask (Elsewhere d) Level where
  frames := frames_elsewhere.fewer fun _ _ => trivial
  popMatchedThread := fun th tag => frames_elsewhere.keeps (calm_popMatchedThread th tag).lax
  hand := bare_hand (fun tag => frames_elsewhere.keeps (calm_popNext C tag).lax) fun e =>
    frames_elsewhere.keeps (calm_enqueueHead e).lax
  forceCold := fun s reason => frames_elsewhere.keeps
    ((lax_forceCold (A := Inert) s reason).mono (fun _ _ h => h.toApart.level) fun _ _ => trivial)

/-! ## The worker in the fan-out -/

/-- The fan-out is in progress. -/
structure Fanning (d : Nat × String) (w : World) : Prop where
  staffed : Staffed w
  manned : w.manned
  drain : w.drain = some d

theorem Fanning.level {w' : World} (h : Fanning d w) (hl : Level w w') : Fanning d w' :=
  ⟨(hl.crewed h.staffed).1, (hl.crewed h.staffed).2 h.manned, hl.drain.trans h.drain⟩

variable (C N) in
/-- The fan-out is in progress, and if it had to be fair when the segment began,
then `Φ` holds. -/
def During (d : Nat × String) (Φ : World → Prop) (s w : World) : Prop :=
  Fanning d w ∧ (Held C d N s → Φ w)

theorem During.mono {Φ Ψ : World → Prop} (h : During C N d Φ s w) (hm : ∀ w, Φ w → Ψ w) :
    During C N d Ψ s w := ⟨h.1, fun hs => hm w (h.2 hs)⟩

/-- A statement that keeps `Φ`. -/
theorem During.step {Φ Ψ : World → Prop} {w' : World} (h : During C N d Φ s w)
    (hl : Level w w') (hm : Φ w → Ψ w') : During C N d Ψ s w' :=
  ⟨h.1.level hl, fun hs => hm (h.2 hs)⟩

/-- What may be said of the fan-out over an await: it holds of a fan-out that has
been fair so far, and it says so. -/
structure Abiding (C : Config) (d : Nat × String) (N : Nat) (Φ : World → Prop) : Prop where
  inert : ∀ {w w'}, Inert w w' → Φ w → Φ w'
  held : ∀ {w}, Held C d N w → Φ w
  fair : ∀ {w}, Φ w → Fair C d N w

theorem frames_during {Φ : World → Prop} (L : Abiding C d N Φ) :
    Frames (fairness C d N) workerTask (During C N d Φ) Inert fun _ => True where
  act := fun h hi => hi.step h.toApart.level (L.inert h)
  ask := fun o _ _ w hi r _ _ =>
    have h := inert_answer workerTask o r w
    hi.step h.toApart.level (L.inert h)
  await := fun o _ s w hi => by
    have h := inert_issue workerTask o w
    have hw := hi.step h.toApart.level (L.inert h)
    refine ⟨⟨⟨hw.1.staffed, .inr hw.1.manned⟩, guar_worker fun hs _ => L.fair (hw.2 hs)⟩,
      fun w' hr _ r _ _ => ?_⟩
    · have hw' : During C N d Φ w' w' :=
        ⟨hw.1.level (rely_uncounted hr).toApart.level, fun hs => L.held hs⟩
      have h' := inert_answer workerTask o r w'
      exact hw'.step h'.toApart.level (L.inert h')

theorem parks_during {Φ : World → Prop} (L : Abiding C d N Φ) :
    Parks C (fairness C d N) workerTask (During C N d Φ) Inert where
  frames := (frames_during L).fewer fun _ _ => trivial
  forceCold := fun s reason => (frames_during L).keeps (lax_forceCold s reason)

theorem abiding_fair : Abiding C d N (Fair C d N) where
  inert := fun h hf => hf.uncounted h.uncounted
  held := Held.fair
  fair := id

/-! ## Between two pops -/

variable (C d N) in
/-- Whatever is popped next, the fan-out stays fair: the head blocks the loop and
the counter has counted all, or the head is of another model and is forced. -/
def Batch (b : Bool) (w : World) : Prop :=
  w.riders.length ≤ N + C.maxConsecutiveSameModel ∧
    ∃ e rest, w.queue.staging = e :: rest ∧
      ((w.slot e).sort ≠ (d.2, b) ∧ Counted d N w ∨
        (w.slot e).modelTag ≠ d.2 ∧
          C.maxConsecutiveSameModel ≤ w.queue.consecutiveSameModel)

theorem abiding_batch {b : Bool} : Abiding C d N (Batch C d N b) where
  inert := by
    rintro w w' h ⟨hr, e, rest, hq, hb⟩
    refine ⟨by rwa [riders_congr h.fanOuts], e, rest, by rw [h.queue, hq], ?_⟩
    have hm : (w'.slot e).modelTag = (w.slot e).modelTag := congrArg Prod.fst (h.sort e)
    rwa [h.sort, hm, counted_congr h.fanOuts h.uncounted.counter, h.queue]
  held := by
    rintro w ⟨-, ⟨x, rest, hq, hx⟩, hr, hc⟩
    have hs : (w.slot x).sort ≠ (d.2, b) := fun h => hx (congrArg Prod.fst h)
    exact ⟨hr, x, rest, hq, hc.imp (fun h => ⟨hs, h⟩) fun h => ⟨hx, h⟩⟩
  fair := fun ⟨hr, _, _, _, hb⟩ => ⟨hr, hb.imp And.right And.right⟩

/-! ## A pop -/

section

variable (C d N) (b : Bool)

/-- A slot taken out of staging, and not yet counted. -/
def Drawn (e : Nat) (w : World) : Prop :=
  w.riders.length ≤ N + C.maxConsecutiveSameModel ∧
    (Counted d N w ∨ (w.slot e).modelTag ≠ d.2 ∧
      C.maxConsecutiveSameModel ≤ w.queue.consecutiveSameModel) ∧
    ((w.slot e).sort = (d.2, b) →
      w.queue.consecutiveSameModel < C.maxConsecutiveSameModel)

/-- One more rider may join. -/
def Room (w : World) : Prop :=
  w.queue.lastPoppedModelTag = some d.2 ∧
    w.riders.length + 1 ≤ N + w.queue.consecutiveSameModel ∧
    w.riders.length + 1 ≤ N + C.maxConsecutiveSameModel

/-- The same, counted. -/
def Tallied (e : Nat) (w : World) : Prop :=
  w.riders.length ≤ N + C.maxConsecutiveSameModel ∧
    ((w.slot e).sort = (d.2, b) → Room C d N w) ∧
    ((w.slot e).modelTag = d.2 → Counted d N w)

/-- The same, and what is of another model leaves no fresh batch. -/
def Took (e : Nat) (w : World) : Prop :=
  w.riders.length ≤ N + C.maxConsecutiveSameModel ∧
    ((w.slot e).sort = (d.2, b) → Room C d N w) ∧
    (Counted d N w ∨ (w.slot e).modelTag ≠ d.2 ∧
      C.maxConsecutiveSameModel ≤ w.queue.consecutiveSameModel)

/-- `Φ` of the slot that was taken out.  A fan-out with a waiting head finds
one. -/
def Picked (Φ : Nat → World → Prop) : Option Nat → World → Prop
  | some e => Φ e
  | none => fun _ => False

/-- What a pop leaves. -/
def Draws (Φ : Nat → World → Prop) : Post sig (Option Nat)
  | .ok r => During C N d (Picked Φ r)
  | .error _ => During C N d (Fair C d N)

end

variable {b : Bool}

theorem Drawn.shuffle {e : Nat} {w w' : World} (h : Drawn C d N b e w)
    (hp : Shuffle w w') : Drawn C d N b e w' := by
  have hm : (w'.slot e).modelTag = (w.slot e).modelTag := congrArg Prod.fst (hp.sort e)
  have hn : w'.queue.consecutiveSameModel = w.queue.consecutiveSameModel :=
    congrArg Prod.fst hp.counter
  rw [Drawn, riders_congr hp.fanOuts, counted_congr hp.fanOuts hp.counter, hp.sort, hm, hn]
  exact h

theorem Drawn.fair {e : Nat} (h : Drawn C d N b e w) : Fair C d N w :=
  ⟨h.1, h.2.1.imp_right And.right⟩

theorem keeps_refill {r : Option Nat} :
    Keeps (fairness C d N) workerTask (During C N d (Picked (Drawn C d N b) r))
      (replenish C) := by
  have F : Frames (fairness C d N) workerTask
      (During C N d (Picked (Drawn C d N b) r)) Shuffle fun _ => False :=
    { act := fun h hi => hi.step h.toApart.level fun hp => by
        cases r with
        | none => exact hp
        | some e => exact Drawn.shuffle hp h
      ask := fun _ h => h.elim
      await := fun _ h => h.elim }
  exact F.keeps (shuffle_replenish C)

theorem wp_popFirst (h : During C N d (Batch C d N b) s w) :
    wp (fairness C d N) workerTask popFirst (Draws C d N (Drawn C d N b)) s w := by
  simp only [popFirst, wp]
  split
  · next hq =>
      refine ⟨h.1, fun hs => ?_⟩
      obtain ⟨-, e, rest, he, -⟩ := h.2 hs
      rw [hq] at he
      cases he
  · next e rest hq =>
      have hp : Shuffle w ((w.setQueue fun q => { q with staging := rest }).flagEvicted e) :=
        shuffle_popFirst w
      refine h.step hp.toApart.level fun hb => Drawn.shuffle ?_ hp
      obtain ⟨hr, x, xs, hx, hb⟩ := hb
      rw [hq] at hx
      cases hx
      refine ⟨hr, hb.imp_left And.right, fun hs => ?_⟩
      rcases hb with ⟨hne, -⟩ | ⟨hne, -⟩
      · exact absurd hs hne
      · exact absurd (congrArg Prod.fst hs) hne

theorem wp_popPreferring (h : During C N d (Batch C d N b) s w)
    (hf : w.queue.consecutiveSameModel < C.maxConsecutiveSameModel) :
    wp (fairness C d N) workerTask (popPreferring C d.2)
      (Draws C d N (Drawn C d N b)) s w := by
  simp only [popPreferring, popFirstMatching, wp_bind, wp]
  split
  · exact wp_popFirst h
  · next e he =>
      have hp : Shuffle w
          ((w.setQueue fun q => { q with staging := q.staging.erase e }).flagEvicted e) :=
        shuffle_popFirst w
      refine h.step hp.toApart.level fun hb => Drawn.shuffle ?_ hp
      obtain ⟨hr, x, xs, hx, hb⟩ := hb
      have hc : Counted d N w := by
        rcases hb with ⟨-, hc⟩ | ⟨-, hc⟩
        · exact hc
        · omega
      exact ⟨hr, .inl hc, fun _ => hf⟩

/-- The counter counts the slot that was taken out. -/
theorem wp_updateRunLength_bind {α : Type} {r : Option Nat} {k : Unit → Prog α}
    {Q : Post sig α} (h : During C N d (Picked (Drawn C d N b) r) s w)
    (hk : ∀ w, During C N d (Picked (Tallied C d N b) r) s w →
      wp (fairness C d N) workerTask (k ()) Q s w) :
    wp (fairness C d N) workerTask (updateRunLength r >>= k) Q s w := by
  cases r with
  | none => exact hk w h
  | some e =>
      have hl : Level w (w.setQueue fun q =>
          { q with
            consecutiveSameModel :=
              if some (w.slot e).modelTag = q.lastPoppedModelTag then q.consecutiveSameModel + 1
              else 1
            lastPoppedModelTag := some (w.slot e).modelTag }) := (apart_setQueue w _).level
      refine hk _ (h.step hl fun hd => ?_)
      obtain ⟨hr, hc, hs⟩ := hd
      have count : (w.slot e).modelTag = d.2 → Counted d N w → w.riders.length ≤ N ∨
          w.riders.length + 1 ≤ N + (if some (w.slot e).modelTag = w.queue.lastPoppedModelTag
            then w.queue.consecutiveSameModel + 1 else 1) := by
        intro hm hc
        refine hc.imp_right fun hc => ?_
        rw [if_pos (by rw [hc.1, hm])]
        omega
      have known : (w.slot e).modelTag = d.2 → Counted d N w := fun hm =>
        hc.resolve_right fun h => h.1 hm
      refine ⟨hr, fun he => ?_, fun hm => ?_⟩
      · have hm : (w.slot e).modelTag = d.2 := congrArg Prod.fst he
        have hk := hs he
        refine ⟨congrArg some hm, ?_, ?_⟩
        · show w.riders.length + 1 ≤ N + (if some (w.slot e).modelTag = w.queue.lastPoppedModelTag
            then w.queue.consecutiveSameModel + 1 else 1)
          rcases count hm (known hm) with h | h
          · split <;> omega
          · exact h
        · show w.riders.length + 1 ≤ N + C.maxConsecutiveSameModel
          rcases known hm with h | h <;> omega
      · rcases count hm (known hm) with h | h
        · exact .inl h
        · exact .inr ⟨congrArg some hm, Nat.le_of_succ_le h⟩

/-- The pop with a head. -/
theorem wp_popNextAffine {head : Nat} (h : During C N d (Batch C d N b) s w) :
    wp (fairness C d N) workerTask (popNextAffine C d.2 head)
      (Draws C d N (Tallied C d N b)) s w := by
  have fair : ∀ r (s w : World), During C N d (Picked (Drawn C d N b) r) s w →
      During C N d (Fair C d N) s w := fun r s w h => h.mono fun w hw => by
    cases r with
    | none => exact hw.elim
    | some e => exact hw.fair
  have F := frames_during (abiding_batch (C := C) (d := d) (N := N) (b := b))
  have starved : Only (S := sig) Inert (fun _ => True) (headStarved C head d.2) :=
    ⟨Inert.refl, fun x => only_ite.mpr ⟨fun _ => ⟨only_monotonic.mpr trivial, fun _ => trivial⟩,
      fun _ => trivial⟩⟩
  refine (F.keeps starved).seq (fun _ s w h => ?_) (fun e s w h => h.mono fun w hw =>
    abiding_batch.fair hw) h
  rw [wp_gets_bind]
  refine wp_seq (M := Draws C d N (Drawn C d N b)) ?_ (fun r s w h => ?_)
    fun e s w h => h
  · split
    · exact wp_popFirst h
    · next hf =>
        refine wp_popPreferring h ?_
        simp only [Bool.or_eq_true, decide_eq_true_eq, not_or] at hf
        omega
  · refine (Keeps.when keeps_refill).seq (fun _ s w h => ?_) (fun e s w h => fair r s w h) h
    exact wp_updateRunLength_bind h fun w h => h

theorem wp_mark_bind {α : Type} {P : Outline (system C)} {m : Mark} {k : Unit → Prog α}
    {Q : Post sig α}
    (h : P.cond.reply t (.mark m) .ok w → wp P t (k ()) Q s (w.record (.marked m))) :
    wp P t (mark m >>= k) Q s w := by
  intro r ha hc
  have ha : allowed t (.mark m) r w = true := ha
  cases r with
  | ok => exact h hc
  | _ => simp [allowed, replies, Op.isAwait] at ha

theorem wp_popNext (h : During C N d (Batch C d N b) s w) :
    wp (fairness C d N) workerTask (popNext C (some d.2))
      (Draws C d N (Took C d N b)) s w := by
  rw [popNext, wp_gets_bind]
  have path : wp (fairness C d N) workerTask (popPath C (some d.2) w.queue.staging)
      (Draws C d N (Tallied C d N b)) s w := by
    cases hq : w.queue.staging with
    | cons head rest => exact wp_popNextAffine h
    | nil =>
        -- nothing waits, so that there is nothing to keep
        have F : Frames (fairness C d N) workerTask (During C N d fun _ => False) Level
            fun _ => False :=
          { act := fun hl hi => hi.step hl id
            ask := fun _ h => h.elim
            await := fun _ h => h.elim }
        have idle : During C N d (fun _ => False) s w := by
          refine ⟨h.1, fun hs => ?_⟩
          obtain ⟨-, e, rest, he, -⟩ := h.2 hs
          rw [hq] at he
          cases he
        refine wp_mono (fun r s w h => ?_) (F.keeps (level_popNextFifo C) s w idle)
        cases r with
        | ok r => exact h.mono fun _ h => h.elim
        | error e => exact h.mono fun _ h => h.elim
  refine wp_seq path (fun r s w h => ?_) fun e s w h => h
  cases r with
  | none => exact h.mono fun _ h => h
  | some e =>
      refine wp_mark_bind fun hc => h.step (inert_record w rfl).toApart.level fun hp => ?_
      obtain ⟨hr, hs, hm⟩ := hp
      refine ⟨hr, hs, ?_⟩
      by_cases he : (w.slot e).modelTag = d.2
      · exact .inl (hm he)
      · rcases noFreshBatch_popped h.1.drain hc with hc | hc | hc
        · exact absurd hc he
        · exact .inl (.inl hc)
        · exact .inr ⟨he, hc⟩

/-! ## The slot that was taken out -/

section

variable (C d N) in
/-- What an admit loop leaves when it goes on, and when it is left. -/
def Resumes (b : Bool) {α : Type} : Post sig α
  | .ok _ => During C N d (Batch C d N b)
  | .error _ => During C N d (Fair C d N)

theorem resumes_of_batch {α : Type} {r : Res sig α}
    (h : During C N d (Batch C d N b) s w) : Resumes C d N b r s w := by
  cases r with
  | ok _ => exact h
  | error _ => exact h.mono fun _ hb => abiding_batch.fair hb

/-- After an await the fan-out has been fair, or it has nothing to keep. -/
theorem wp_sync_resumes {o : Op} (h : During C N d (Fair C d N) s w) :
    wp (fairness C d N) workerTask (sync o) (Resumes C d N b) s w := by
  have F := frames_during (abiding_fair (C := C) (d := d) (N := N))
  have hi := F.await o trivial s w h
  refine wp_seq (M := fun _ => During C N d (Batch C d N b))
    ⟨hi.1, fun w' hr hg r ha hc => ?_⟩ (fun r s w h => ?_) fun e s w h => resumes_of_batch h
  · have h' := inert_answer workerTask o r w'
    have hw := h.1.level (inert_issue workerTask o w).toApart.level
    exact ⟨(hw.level (rely_uncounted hr).toApart.level).level h'.toApart.level, fun hs =>
      abiding_batch.inert h' (abiding_batch.held hs)⟩
  · cases r with
    | raised e => exact resumes_of_batch (r := .error (.raised e)) h
    | cancelled => exact resumes_of_batch (r := .error .cancelled) h
    | timeout => exact resumes_of_batch (r := .error (.raised .timeout)) h
    | _ => exact resumes_of_batch (r := .ok ()) h

theorem wp_forceCold {e : Nat} {reason : String} (h : During C N d (Fair C d N) s w) :
    wp (fairness C d N) workerTask (forceCold e reason) (Resumes C d N b) s w := by
  have F := frames_during (abiding_fair (C := C) (d := d) (N := N))
  refine (F.keeps (lax_reapOwned e)).seq (fun _ s w h => ?_) (fun _ s w h => h) h
  rw [onSlot, wp_modify_bind]
  refine (F.keeps (only_markSlotEnded.mpr trivial)).seq (fun _ s w h => wp_sync_resumes h)
    (fun _ s w h => h) ?_
  exact F.act (inert_setSlot w e fun x => by split <;> rfl) h

/-- Without an await any assertion on the counter and the sorts will do. -/
theorem frames_brief {Φ : World → Prop} (hi : ∀ {w w'}, Inert w w' → Φ w → Φ w') :
    Frames (fairness C d N) workerTask (During C N d Φ) Inert fun _ => False where
  act := fun h hd => hd.step h.toApart.level (hi h)
  ask := fun _ h => h.elim
  await := fun _ h => h.elim

theorem inert_transition (e : Nat) (x : SlotState) :
    Only (S := sig) Inert (fun _ => False) (transition e x) := calm_transition (A := Inert) e x

theorem Room.inert {w w' : World} (hp : Inert w w') (h : Room C d N w) : Room C d N w' := by
  rw [Room, riders_congr hp.fanOuts, hp.queue]
  exact h

theorem Room.fair (h : Room C d N w) : Fair C d N w :=
  ⟨Nat.le_of_succ_le h.2.2, .inl (.inr ⟨h.1, Nat.le_of_succ_le h.2.1⟩)⟩

theorem Took.inert {e : Nat} {w w' : World} (hp : Inert w w') (h : Took C d N b e w) :
    Took C d N b e w' := by
  have hm : (w'.slot e).modelTag = (w.slot e).modelTag := congrArg Prod.fst (hp.sort e)
  have hr : Room C d N w' ↔ Room C d N w := by
    rw [Room, Room, riders_congr hp.fanOuts, hp.queue]
  rw [Took, riders_congr hp.fanOuts, counted_congr hp.fanOuts hp.uncounted.counter, hp.sort, hm,
    hp.queue, hr]
  exact h

theorem Took.fair {e : Nat} (h : Took C d N b e w) : Fair C d N w :=
  ⟨h.1, h.2.2.imp_right And.right⟩

/-- The slot goes back to where it was taken from, and blocks the loop. -/
theorem wp_enqueueHead {e : Nat} (h : During C N d (Took C d N b e) s w)
    (hne : (w.slot e).sort ≠ (d.2, b)) :
    wp (fairness C d N) workerTask (enqueueHead e) (Resumes C d N b) s w := by
  have F := frames_brief (C := C) (d := d) (N := N)
    (Φ := fun w => Took C d N b e w ∧ (w.slot e).sort ≠ (d.2, b))
    fun hp h => ⟨h.1.inert hp, by rw [hp.sort]; exact h.2⟩
  rw [enqueueHead, wp_gets_bind]
  split
  · exact h.mono fun w hw => hw.fair
  · rw [wp_gets_bind]
    have h : During C N d (fun w => Took C d N b e w ∧
        (w.slot e).sort ≠ (d.2, b)) s w := ⟨h.1, fun hs => ⟨h.2 hs, hne⟩⟩
    refine (Keeps.when (F.keeps (inert_transition e .staged))).seq (fun _ s w h => ?_)
      (fun _ s w h => h.mono fun w hw => hw.1.fair) h
    refine wp_mark_bind fun _ => ?_
    have hw := F.act (inert_record w (e := .marked (.headInsert e)) rfl) h
    have hl : Level (w.record (.marked (.headInsert e)))
        ((w.record (.marked (.headInsert e))).setQueue fun q =>
          { q with staging := e :: q.staging }) := (apart_setQueue _ _).level
    refine hw.step hl ?_
    rintro ⟨hp, hne⟩
    exact ⟨hp.1, e, _, rfl, hp.2.2.imp_left fun hc => ⟨hne, hc⟩⟩

variable (C d N) in
/-- What a promotion leaves. -/
def Promotes (b : Bool) : Post sig Bool
  | .ok true => During C N d (Room C d N)
  | r => Resumes C d N b r

theorem wp_promoteRider {e pid : Nat} (h : During C N d (Room C d N) s w) :
    wp (fairness C d N) workerTask (promoteRider e pid) (Promotes C d N b) s w := by
  have F := frames_brief (C := C) (d := d) (N := N) (Φ := Room C d N) Room.inert
  have G := frames_during (abiding_fair (C := C) (d := d) (N := N))
  rw [promoteRider, wp_gets_bind, onSlot, wp_modify_bind]
  refine wp_tryExcept ?_
  have promoted : wp (fairness C d N) workerTask
      (do
        transition e .loading
        transition e .active
        onSlot e fun x => { x with streamHandle := some pid }
        pure true : Prog Bool)
      (fun r s w => r ≠ .ok false ∧ During C N d (Room C d N) s w) s
      (w.setSlot e fun x =>
        { x with port := some (w.procs.proc pid).port, pid := some pid }) := by
    refine (F.keeps (inert_transition e .loading)).seq (fun _ s w h => ?_)
      (fun _ _ _ h => ⟨(by rintro ⟨⟩), h⟩) (F.act (inert_setSlot w e fun _ => rfl) h)
    refine (F.keeps (inert_transition e .active)).seq (fun _ s w h => ?_)
      (fun _ _ _ h => ⟨(by rintro ⟨⟩), h⟩) h
    exact ⟨(by rintro ⟨⟩), F.act (inert_setSlot w e
      (f := fun x => { x with streamHandle := some pid }) fun _ => rfl) h⟩
  refine wp_mono (fun r s w h => ?_) promoted
  cases r with
  | ok b =>
      cases b with
      | false => exact absurd rfl h.1
      | true => exact h.2
  | error x =>
      have hf := h.2.mono fun _ => Room.fair
      cases x with
      | cancelled => exact hf
      | raised x =>
          cases x with
          | invalidTransition i a c =>
              have hp : During C N d (Fair C d N) s
                  (w.setSlot e fun x => { x with pid := none }) :=
                G.act (inert_setSlot w e fun _ => rfl) hf
              refine (G.keeps (only_failCompletionFuture.mpr trivial)).seq (fun _ s w h => ?_)
                (fun _ s w h => h) hp
              rw [wp_gets_bind]
              exact wp_seq (wp_forceCold (b := b) h) (fun _ s w h => h)
                fun _ s w h => h
          | _ => exact hf

/-- Whether or not the slot is admitted, the loop may go on. -/
theorem wp_admitRider {e pid : Nat} (h : During C N d (Took C d N b e) s w) :
    wp (fairness C d N) workerTask (admitRider d.2 b pid e) (Resumes C d N b)
      s w := by
  have G := frames_during (abiding_fair (C := C) (d := d) (N := N))
  rw [admitRider, wp_gets_bind]
  split
  · next hx =>
      have hne : (w.slot e).sort ≠ (d.2, b) := by
        rw [Slot.sort, ne_eq, Prod.mk.injEq]
        simp only [Bool.or_eq_true, decide_eq_true_eq] at hx
        rcases hx with hx | hx
        · exact fun h => hx h.1
        · exact fun h => hx h.2
      exact wp_seq (wp_enqueueHead h hne) (fun _ s w h => h) fun _ s w h => h
  · next hx =>
      have hs : (w.slot e).sort = (d.2, b) := by
        simp only [Bool.or_eq_true, decide_eq_true_eq, not_or, not_not] at hx
        exact Prod.ext hx.1 hx.2
      split
      · refine (G.keeps (only_failCompletionFuture.mpr trivial)).seq (fun _ s w h => ?_)
          (fun _ s w h => h) (h.mono fun _ h => h.fair)
        exact wp_seq (wp_sync_resumes (b := b) h) (fun _ s w h => h)
          fun _ s w h => h
      · have hr : During C N d (Room C d N) s w := ⟨h.1, fun hh => (h.2 hh).2.1 hs⟩
        refine wp_mark_bind fun _ => ?_
        refine wp_seq (wp_promoteRider (b := b)
          (hr.step (inert_record w rfl).toApart.level (Room.inert (inert_record w rfl))))
          (fun promoted s w h => ?_) fun _ s w h => h
        cases promoted with
        | false => exact h
        | true =>
            have joined : During C N d (Fair C d N) s
                ((w.setHold fun h => { h with inflight := h.inflight ++ [e] }).record
                  (.joined e)) := by
              have hh : Inert w (w.setHold fun h => { h with inflight := h.inflight ++ [e] }) :=
                inert_setHold w _
              refine (h.step hh.toApart.level (Room.inert hh)).step
                ⟨rfl, rfl, crewed_same rfl rfl⟩ fun hr => ?_
              exact ⟨hr.2.2, .inl (.inr ⟨hr.1, hr.2.1⟩)⟩
            rw [if_pos rfl, wp_bind, joinInflight, wp_modify_bind, wp_modify, Post.bind_ok]
            exact wp_seq (wp_sync_resumes (b := b) joined) (fun _ s w h => h)
              fun _ s w h => h

/-! ## The admit loops -/

theorem wp_admitOnce {pid n : Nat} {kas : List (Option Int)}
    (h : During C N d (Batch C d N b) s w) :
    wp (fairness C d N) workerTask (admitOnce C d.2 b pid n kas)
      (Resumes C d N b) s w := by
  refine ⟨fun _ => During C N d (Batch C d N b), h, fun kas s w h => ?_⟩
  rw [wp_gets_bind]
  split
  · refine wp_seq (wp_popNext h) (fun r s w h => ?_) fun _ s w h => h
    cases r with
    | none => exact h.mono fun _ h => h.elim
    | some e =>
        refine wp_seq (wp_admitRider h) (fun a s w h => ?_) fun _ s w h => h
        match a with
        | none => exact h
        | some false => exact h
        | some true =>
            have F := frames_during (abiding_batch (C := C) (d := d) (N := N)
              (b := b))
            rw [wp_gets_bind]
            refine (F.keeps (only_when.mpr fun _ => (calm_handToRoute e pid).lax)).seq
              (fun _ s w h => ?_) (fun _ s w h => h.mono fun _ => abiding_batch.fair) h
            exact h
  · exact h

theorem wp_admitNonstreamingRiders {pid n : Nat}
    (h : During C N d (Batch C d N false) s w) :
    wp (fairness C d N) workerTask (admitNonstreamingRiders C d.2 pid n)
      (Resumes C d N false) s w := by
  refine ⟨fun _ => During C N d (Batch C d N false), h, fun admitted s w h => ?_⟩
  rw [wp_gets_bind]
  split
  · refine wp_seq (wp_popNext h) (fun r s w h => ?_) fun _ s w h => h
    cases r with
    | none => exact h.mono fun _ h => h.elim
    | some e =>
        refine wp_seq (wp_admitRider h) (fun a s w h => ?_) fun _ s w h => h
        match a with
        | none => exact h
        | some false => exact h
        | some true => exact h
  · exact h

/-! ## The drains -/

theorem wp_drainNonstreamingRiders {anchor pid n : Nat}
    (h : During C N d (Batch C d N false) s w) :
    wp (fairness C d N) workerTask (drainNonstreamingRiders C anchor d.2 pid n)
      (fun _ => During C N d (Fair C d N)) s w := by
  have L := abiding_batch (C := C) (d := d) (N := N) (b := false)
  have F := frames_during L
  have G := frames_during (abiding_fair (C := C) (d := d) (N := N))
  have start : ∀ pid riders, Keeps (fairness C d N) workerTask
      (During C N d (Batch C d N false)) (startCompletions pid riders) := fun pid riders =>
    F.keeps (calm_startCompletions pid riders).lax
  rw [drainNonstreamingRiders, wp_gets_bind]
  refine (start _ _).seq (fun _ s w h => wp_tryFinally ?_)
    (fun _ s w h => h.mono fun _ => L.fair) h
  -- however the drain ends, its `finally` keeps what is known
  refine wp_mono (Q := Resumes C d N false) (fun r s w h => ?_) ?_
  · have hf : During C N d (Fair C d N) s w := by
      cases r with
      | ok _ => exact h.mono fun _ => L.fair
      | error _ => exact h
    refine wp_mono (fun r' s w h => ?_) (G.keeps calm_abortCompletions.lax s w hf)
    cases r' <;> exact h
  · refine wp_seq (wp_admitNonstreamingRiders h) (fun more s w h => ?_) fun _ s w h => h
    refine (start _ _).seq (fun _ s w h => ?_) (fun _ s w h => h.mono fun _ => L.fair) h
    rw [wp_gets_bind]
    refine ⟨fun _ => During C N d (Batch C d N false), h, fun pending s w h => ?_⟩
    dsimp only
    split
    · exact h
    · refine (F.keeps (only_waitFirst.mpr trivial)).seq (fun done s w h => ?_)
        (fun _ s w h => h.mono fun _ => L.fair) h
      rw [wp_gets_bind]
      refine (Keeps.forEach (fun x => keeps_settleCompleted (parks_during L) anchor done x) _).seq
        (fun _ s w h => ?_) (fun _ s w h => h.mono fun _ => L.fair) h
      refine wp_seq (wp_admitNonstreamingRiders h) (fun more s w h => ?_) fun _ s w h => h
      refine (start _ _).seq (fun _ s w h => ?_) (fun _ s w h => h.mono fun _ => L.fair) h
      exact h

/-- What a fan-out leaves: it was another one, or it was fair. -/
def Fanned (C : Config) (d : Nat × String) (N : Nat) (s w : World) : Prop :=
  Elsewhere d s w ∨ During C N d (Fair C d N) s w

/-- A fan-out that is `d` from here on. -/
theorem Elsewhere.opens {tag : String} {Φ : World → Prop} (h : Elsewhere d s w)
    (hd : (w.opened, tag) = d) : During C N d Φ s (w.record (.fanOut tag)) := by
  have ht : Crewed w (w.record (.fanOut tag)) := crewed_same rfl rfl
  refine ⟨⟨(ht h.staffed).1, (ht h.staffed).2 h.manned, ?_⟩, fun hs => ?_⟩
  · rw [World.drain_open, hd]
  · have hlt := h.past hs.drain
    rw [← hd] at hlt
    exact absurd hlt (Nat.lt_irrefl _)

/-- A fan-out that is not `d`. -/
theorem Elsewhere.opensOther {tag : String} (h : Elsewhere d s w)
    (hd : (w.opened, tag) ≠ d) : Elsewhere d s (w.record (.fanOut tag)) := by
  have ht : Crewed w (w.record (.fanOut tag)) := crewed_same rfl rfl
  refine ⟨(ht h.staffed).1, (ht h.staffed).2 h.manned, ?_, fun hs => ?_⟩
  · rw [World.drain_open]
    exact fun h => hd (Option.some.inj h)
  · have hlt := h.past hs
    have : (w.record (.fanOut tag)).opened = w.opened + 1 := List.countP_cons_of_pos rfl
    omega

theorem wp_fanOutAndDrain {anchor pid n : Nat} (h : Elsewhere d s w) :
    wp (fairness C d N) workerTask (fanOutAndDrain C anchor pid n) (fun _ => Fanned C d N)
      s w := by
  have E := frames_elsewhere (C := C) (d := d) (N := N)
  rw [fanOutAndDrain, wp_gets_bind]
  generalize w.slot anchor = x
  have bound : Only (S := sig) Inert (fun _ => True)
      (onSlot anchor fun x => { x with streamHandle := some pid }) := fun w =>
    inert_setSlot w anchor (f := fun x => { x with streamHandle := some pid }) fun _ => rfl
  refine (E.keeps (calm_seatAnchor anchor).lax).seq (fun _ s w h => ?_) (fun _ s w h => .inl h) h
  rw [wp_modify_bind]
  by_cases hd : (w.opened, x.modelTag) = d
  · have L := abiding_batch (C := C) (d := d) (N := N) (b := x.clientMeta.stream)
    have F := frames_during L
    have h := h.opens (C := C) (N := N) (Φ := Batch C d N x.clientMeta.stream) hd
    have ht : x.modelTag = d.2 := congrArg Prod.snd hd
    rw [ht] at h ⊢
    generalize x.clientMeta.stream = b at *
    have leave : ∀ s w : World, During C N d (Batch C d N b) s w →
        Fanned C d N s w := fun s w h => .inr (h.mono fun _ => L.fair)
    refine (F.keeps bound).seq (fun _ s w h => ?_) (fun _ => leave) h
    refine (F.keeps (only_when.mpr fun _ => (calm_handToRoute anchor pid).lax)).seq
      (fun _ s w h => ?_) (fun _ => leave) h
    have admitted : wp (fairness C d N) workerTask
        (observed .admitAborted (admitOnce C d.2 b pid n [x.clientMeta.keepAliveS]))
        (Resumes C d N b) s w := by
      have G := frames_during (abiding_fair (C := C) (d := d) (N := N))
      refine wp_mono (m := admitOnce C d.2 b pid n [x.clientMeta.keepAliveS])
        (fun r s w h => ?_) (wp_admitOnce h)
      cases r with
      | ok kas => exact h
      | error e =>
          refine (G.keeps (only_mark.mpr trivial)).seq (fun _ s w h => ?_) (fun _ s w h => h) h
          exact h
    refine wp_seq admitted (fun kas s w h => ?_) fun _ s w h => .inr h
    refine (F.keeps (calm_modify (calm_setLatestKeepAlive _)).lax).seq
      (fun _ s w h => ?_) (fun _ => leave) h
    cases b with
    | true =>
        exact wp_mono (fun _ s w h => .inr h) (keeps_drainStreamed (parks_during abiding_fair)
          anchor s w (h.mono fun _ => L.fair))
    | false => exact wp_mono (fun _ s w h => .inr h) (wp_drainNonstreamingRiders h)
  · have S := shares_elsewhere (C := C) (d := d) (N := N)
    refine wp_mono (fun _ s w h => .inl h) (?_ : wp (fairness C d N) workerTask _
      (fun _ => Elsewhere d) s _)
    refine Keeps.bind (E.keeps (bound.mono (fun _ _ h => h.toApart.level) fun _ h => h))
      (fun _ => .bind (.when (E.keeps (calm_handToRoute anchor pid).lax)) fun _ =>
        .bind (keeps_observed S.toParks (keeps_admitOnce S _ _ pid n _)) fun kas =>
        .bind (E.keeps (calm_modify (calm_setLatestKeepAlive _)).lax) fun _ =>
        Keeps.ite (keeps_drainStreamed S.toParks anchor)
          (keeps_drainNonstreamingRiders S anchor _ pid n)) s _ (h.opensOther hd)

/-! ## The worker's turns -/

theorem keeps_serveAnchor_elsewhere (e pid : Nat) :
    Keeps (fairness C d N) workerTask (Elsewhere d) (serveAnchor C e pid) := by
  intro s w h
  have E := frames_elsewhere (C := C) (d := d) (N := N)
  rw [serveAnchor, wp_gets_bind]
  split
  · refine wp_tryFinally (wp_mono (fun r s w h => ?_) (wp_fanOutAndDrain h))
    -- the end of the fan-out is noted, whichever it was
    have closed : Elsewhere d s (w.record (.fannedOut w.drained)) := by
      have ht : Crewed w (w.record (.fannedOut w.drained)) := crewed_same rfl rfl
      have hd : (w.record (.fannedOut w.drained)).drain ≠ some d := by
        show none ≠ some d
        intro h
        cases h
      rcases h with h | h
      · exact ⟨(ht h.staffed).1, (ht h.staffed).2 h.manned, hd, h.past⟩
      · exact ⟨(ht h.1.staffed).1, (ht h.1.staffed).2 h.1.manned, hd, fun _ =>
          World.drain_lt (w := w) h.1.drain⟩
    cases r <;> exact closed
  · refine Keeps.ite (E.keeps ?_) (E.keeps ?_) s w h
    · exact ⟨(calm_handToRoute (A := Level) e pid).lax, fun _ =>
        ⟨only_streamDone.mpr trivial, fun _ => (calm_setResult (A := Level) e _).lax⟩⟩
    · exact ⟨only_completeFn.mpr trivial, fun _ => (calm_setResult (A := Level) e _).lax⟩

theorem serves_elsewhere : Serves C (fairness C d N) workerTask (Elsewhere d) Inert where
  frames :=
    have E := frames_elsewhere (C := C) (d := d) (N := N)
    ⟨fun h => E.act h.toApart.level, E.ask, E.await⟩
  serveAnchor := keeps_serveAnchor_elsewhere
  linger := fun e _ => keeps_linger shares_elsewhere.toWarm
    (frames_elsewhere.keeps (calm_enterGrace (A := Level) e).lax)

theorem turns_elsewhere :
    Turns C (fairness C d N) workerTask (Elsewhere d) Inert fun _ => Elsewhere d :=
  turns_of_serves serves_elsewhere (fun tag => frames_elsewhere.keeps (calm_popNext C tag).lax)
    fun x => frames_elsewhere.keeps fun w =>
      (inert_setHold w fun h => { h with workerSlot := x }).toApart.level

/-! ## Runs -/

theorem fresh_new {k : Kind} (h : fresh w t = some k) :
    t < w.taskCount ∧ (w.task t).started = false := by
  unfold fresh at h
  split at h
  · next hc =>
      simp only [Bool.and_eq_true, decide_eq_true_eq, Bool.not_eq_true'] at hc
      exact hc.1
  · cases h

theorem manned_entry (r : Reply) (w : World) : (answer workerTask .entry r w).manned := by
  unfold answer World.delivered
  rw [if_pos rfl]
  simp [World.manned, World.setTask]

theorem fairness_verified (hcap : C.maxParallelSidecars ≤ 1) :
    (fairness C d N).Verified initial where
  init := ⟨⟨Nat.one_pos, fun t ht => by
    rw [Nat.lt_one_iff.mp ht]
    exact ⟨fun _ => rfl, fun _ => rfl⟩⟩, .inl rfl⟩
  start := fun t w k r hg hf _ _ => by
    obtain ⟨⟨hst, hd⟩, -⟩ := hg
    have hk : (w.task t).kind = k := fresh_kind hf
    obtain ⟨hlt, hnew⟩ := fresh_new hf
    have hr := inert_answer t .entry r w
    by_cases ht : t = workerTask
    · subst ht
      have hw : k = .worker := hk.symm.trans ((hst.only _ hlt).mpr rfl)
      have hnone : w.drain = none := hd.resolve_right fun hm => by
        rw [World.manned, hnew] at hm
        cases hm
      subst hw
      have here : Elsewhere d w (answer workerTask .entry r w) := by
        refine ⟨(hr.crewed hst).1, manned_entry r w, ?_, fun h => ?_⟩
        · rw [drain_congr hr.fanOuts, hnone]
          intro h
          cases h
        · rw [hnone] at h
          cases h
      have body : Keeps (fairness C d N) workerTask (Elsewhere d)
          (taskBody C workerTask .worker r) := by
        unfold taskBody
        refine Keeps.ite (.throw _) ?_
        have hc : ¬2 ≤ C.maxParallelSidecars := by omega
        simp only [program, workerLoop, hc, if_false]
        exact keeps_serialLoop turns_elsewhere
      refine wp_mono (fun x s w' hx => ?_) (body w _ here)
      have hf := hx.level (inert_finished workerTask x w').toApart.level
      exact ⟨⟨hf.staffed, .inr hf.manned⟩, guar_worker fun _ hd => (hf.drain hd).elim⟩
    · have hw : k ≠ .worker := fun h => ht ((hst.only t hlt).mp (hk.trans h))
      have B := frames_bystands (C := C) (d := d) (N := N) ht
      have body : Keeps (fairness C d N) t Bystands (taskBody C t k r) := by
        unfold taskBody
        refine Keeps.ite (.throw _) ((errands_uncounted B).program ?_ hw fun r _ => captures r)
        cases k <;> trivial
      refine wp_mono (fun x s w' hx => ?_) (body w _ ⟨inv_uncounted hr.uncounted ⟨hst, hd⟩,
        hr.uncounted⟩)
      have hf := (inert_finished t x w').uncounted
      exact ⟨inv_uncounted hf hx.1, guar_other (fun he => ht (Option.some.inj he))
        (hx.2.trans hf)⟩
  env := fun e w w' hg _ h => by
    have hp := (inert_envStep h).uncounted
    exact ⟨inv_uncounted hp hg.1, guar_other (by rintro ⟨⟩) hp⟩

/-- In every run at cap 1 in which, once more than `N` riders have joined, no
admit loop takes a slot of another model out and leaves the run length below the
batch cap: while a slot of another model waits at the head of staging during a
fan-out and is not starved, at most `max_consecutive_same_model` riders join
that fan-out. -/
theorem riders_within_cap (C : Config) (hcap : C.maxParallelSidecars ≤ 1) (d : Nat × String)
    (N x : Nat) (c c' : Loop sig) (h : Reachable C (noFreshBatch C N) c)
    (hc : c.current = none) (hn : c.world.riders.length ≤ N)
    (h' : Loop.Within (noFreshBatch C N) (Waits C d x) c c') (hc' : c'.current = none) :
    c'.world.riders.length ≤ N + C.maxConsecutiveSameModel := by
  have hf := (fairness C d N).within (fairness_verified hcap) (fun _ _ _ => trivial)
    (p := Waits C d x) (H := Fair C d N) ?_ h hc h' hc' ⟨by omega, .inl (.inl hn)⟩
  · exact hf.1
  · intro u w w' _ _ hw hw' hg hfair
    by_cases hu : u = some workerTask
    · simp only [fairness, if_pos hu] at hg
      exact hg (hw.held hfair) hw'.drain
    · simp only [fairness, if_neg hu] at hg
      exact hfair.uncounted hg

end

/-! ## A fresh batch -/

instance (C : Config) (d : Nat × String) (x : Nat) (w : World) : Decidable (Waits C d x w) :=
  decidable_of_iff (w.drain = some d ∧ w.queue.staging.head? = some x ∧
      (w.slot x).modelTag ≠ d.2 ∧ w.clock - (w.slot x).createdAt ≤ C.maxOtherModelWaitMs)
    ⟨fun h => ⟨h.1, h.2.1, h.2.2.1, h.2.2.2⟩, fun h => ⟨h.drain, h.head, h.other, h.young⟩⟩

/-- A batch cap of two. -/
def pairBatches : Config := { safetyEnabled := false, maxConsecutiveSameModel := 2 }

/-- A sidecar with room for eight. -/
def roomy : Manifest := { flags := { parallel := some 8 } }

/-- A request is staged by its task. -/
def staged (t : Nat) (tag : String) : List (Move (system pairBatches)) :=
  [.env (.request (.submitAndWait { modelTag := tag, threadId := "t", watched := false })),
    .start t .ok, .answer (.time 0), .answer (.time 0), .answer .ok]

/-- Slots 0 to 5 are staged, slot 1 alone of model b.  Slot 0 is the anchor of a
fan-out, and slot 2 has joined it. -/
def fanOutBegun : List (Move (system pairBatches)) :=
  staged 1 "a" ++ staged 2 "b" ++ staged 3 "a" ++ staged 4 "a" ++ staged 5 "a" ++ staged 6 "a" ++
  [.start 0 .ok, .go, .answer .ok, .answer .ok, .answer (.manifest roomy), .resume 0 .ok,
    .answer (.handle 0), .resume 0 (.healthy true), .resume 0 .ok, .go, .answer (.time 0),
    .answer .ok, .answer .ok]

/-- Slot 1 is taken out since the batch is full, and pushed back.  Then slots 3
and 4 join. -/
def batchJoins : List (Move (system pairBatches)) :=
  [.resume 0 .ok, .go, .answer (.time 0), .answer .ok, .answer .ok, .go, .answer (.time 0),
    .answer .ok, .answer .ok, .resume 0 .ok, .go, .answer (.time 0), .answer .ok, .answer .ok]

/-- The same happens again, and slot 5 joins with the next poll. -/
def batchGrows : List (Move (system pairBatches)) :=
  [.resume 0 .ok, .go, .answer (.time 0), .answer .ok, .answer .ok, .go, .resume 0 (.done []),
    .go, .answer (.time 0), .answer .ok, .answer .ok]

/-- What the two schedules show of the states they reach. -/
theorem within_of_check {C : Config} (A : Admit (system C)) (p : World → Prop)
    [DecidablePred p] (ms ms' : List (Move (system C))) (n n' : Nat)
    (h : ((Loop.exec A ms { world := initial }).any fun c =>
      c.current.isNone && decide (c.world.riders.length = n) &&
        (Loop.execWithin A (fun w => decide (p w)) ms' c).any fun c' =>
          c'.current.isNone && decide (c'.world.riders.length = n')) = true) :
    ∃ c c', Reachable C A c ∧ c.current = none ∧ c.world.riders.length = n ∧
      Loop.Within A p c c' ∧ c'.current = none ∧ c'.world.riders.length = n' := by
  obtain ⟨c, hc, hp⟩ := Loop.reach_of_check h
  simp only [Bool.and_eq_true, Option.isNone_iff_eq_none, decide_eq_true_eq,
    Option.any_eq_true] at hp
  obtain ⟨⟨hn, hr⟩, c', hw, hn', hr'⟩ := hp
  have hp : (fun w => decide (p w) = true) = p := by
    funext w
    exact decide_eq_true_eq
  exact ⟨c, c', hc, hn, hr, hp ▸ Loop.within_of_exec hw, hn', hr'⟩

/-- The condition is met up to the second time that slot 1 is taken out. -/
theorem riders_within_cap_pair : ∃ c' : Loop sig, c'.world.riders.length = 4 ∧
    c'.world.riders.length ≤ 2 + pairBatches.maxConsecutiveSameModel := by
  obtain ⟨c, c', hc, hn, hr, hw, hn', hr'⟩ := within_of_check
    (noFreshBatch pairBatches 2) (Waits pairBatches (0, "a") 1) fanOutBegun batchJoins 2 4
    (by decide +kernel)
  exact ⟨c', hr', riders_within_cap pairBatches (by decide) (0, "a") 2 1 c c' hc hn (by omega) hw
    hn'⟩

/-- Without the condition the cap does not bound them: three riders join while
slot 1 waits, with a cap of two. -/
theorem fresh_batch : ¬∀ (C : Config), C.maxParallelSidecars ≤ 1 → ∀ (d : Nat × String) (x : Nat)
    (c c' : Loop sig), Reachable C (Admit.any _) c → c.current = none →
    Loop.Within (Admit.any (system C)) (Waits C d x) c c' → c'.current = none →
    c'.world.riders.length ≤ c.world.riders.length + C.maxConsecutiveSameModel := by
  intro h
  obtain ⟨c, c', hc, hn, hr, hw, hn', hr'⟩ := within_of_check
    (Admit.any _) (Waits pairBatches (0, "a") 1) fanOutBegun (batchJoins ++ batchGrows) 2 5
    (by decide +kernel)
  have := h pairBatches (by decide) (0, "a") 1 c c' hc hn hw hn'
  rw [hr, hr'] at this
  exact absurd this (by decide)

end Turbohaul
