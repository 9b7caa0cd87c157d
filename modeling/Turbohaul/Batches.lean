/-
# `Batches` — what a fan-out in progress can be told by

`fanOut modelTag` and `fannedOut` bracket a fan-out in the trace, and `joined`
counts its riders.  Five classes of statements, each contained in the next, by
what they leave alone:

    Inert       the queue, and what follows
    Shuffle     what the admit loops read of a slot, and what follows
    Uncounted   the run-length counter, and what follows
    Apart       the fan-outs of the trace, and the worker's task
    Level       which fan-out is in progress, and the worker's task

`Inert` is what all programs are written in but the queue's and the fan-out's
own; `Uncounted` is what all tasks but the worker keep; `Level` is what a
fan-out is written in, between its start and its end.
-/
import Turbohaul.Walk
import Turbohaul.QueueCalls

namespace Turbohaul

open Coop

/-! ## The fan-out in progress -/

/-- The start of a fan-out. -/
def Event.opens : Event → Bool
  | .fanOut _ => true
  | _ => false

/-- The number and the model of the fan-out that is in progress at the head of
a trace. -/
def drainOf : List Event → Option (Nat × String)
  | [] => none
  | .fanOut tag :: es => some (es.countP Event.opens, tag)
  | .fannedOut _ :: _ => none
  | _ :: es => drainOf es

/-- What the admit loops read of a slot. -/
def Slot.sort (x : Slot) : String × Bool := (x.modelTag, x.clientMeta.stream)

namespace World

/-- The fan-out in progress. -/
def drain (w : World) : Option (Nat × String) := drainOf w.trace

/-- The fan-outs that have started. -/
def opened (w : World) : Nat := w.trace.countP Event.opens

/-- What the trace says about fan-outs. -/
def fanOuts (w : World) : List Event := w.trace.filter Event.isFanOut

end World

theorem drainOf_filter : ∀ es : List Event, drainOf (es.filter Event.isFanOut) = drainOf es
  | [] => rfl
  | e :: es => by
      have hc : (es.filter Event.isFanOut).countP Event.opens = es.countP Event.opens := by
        rw [List.countP_filter]
        congr 1
        funext x
        cases x <;> rfl
      have ih := drainOf_filter es
      cases e <;> simp only [List.filter_cons, Event.isFanOut, if_true, Bool.false_eq_true,
        if_false, drainOf, ih, hc]

theorem drainOf_lt : ∀ {es : List Event} {d : Nat × String}, drainOf es = some d →
    d.1 < es.countP Event.opens
  | e :: es, d, h => by
      have ih : drainOf es = some d → d.1 < (e :: es).countP Event.opens := fun h =>
        Nat.lt_of_lt_of_le (drainOf_lt h) (List.Sublist.countP_le (List.sublist_cons_self e es))
      cases e with
      | fanOut tag =>
          cases h
          simp [List.countP_cons, Event.opens]
      | fannedOut b => cases h
      | _ => exact ih h

theorem World.drain_lt {w : World} {d : Nat × String} (h : w.drain = some d) : d.1 < w.opened :=
  drainOf_lt h

/-- A fan-out that starts is not one that was in progress before. -/
theorem World.drain_open {w : World} (tag : String) :
    (w.record (.fanOut tag)).drain = some (w.opened, tag) := rfl

section

variable {w w' : World} (h : w'.fanOuts = w.fanOuts)

include h

theorem drain_congr : w'.drain = w.drain := by
  rw [World.drain, ← drainOf_filter]
  exact (congrArg drainOf h).trans (drainOf_filter _)

theorem opened_congr : w'.opened = w.opened := by
  have hf : ∀ es : List Event,
      (es.filter Event.isFanOut).countP Event.opens = es.countP Event.opens := fun es => by
    rw [List.countP_filter]
    congr 1
    funext x
    cases x <;> rfl
  rw [World.opened, ← hf]
  exact (congrArg (List.countP Event.opens) h).trans (hf _)

theorem riders_congr : w'.riders = w.riders := by
  have hf : ∀ es : List Event,
      (es.filter Event.isFanOut).filterMap Event.rider = es.filterMap Event.rider := fun es => by
    rw [List.filterMap_filter]
    congr 1
    funext x
    cases x <;> rfl
  rw [World.riders, ← hf]
  exact (congrArg (List.filterMap Event.rider) h).trans (hf _)

end

/-! ## The worker's task -/

/-- There is one worker. -/
structure Staffed (w : World) : Prop where
  pos : 0 < w.taskCount
  only : ∀ t < w.taskCount, (w.task t).kind = .worker ↔ t = workerTask

/-- The worker has started. -/
def World.manned (w : World) : Prop := (w.task workerTask).started = true

/-- The one worker stays, and does not start twice. -/
def Crewed (w w' : World) : Prop := Staffed w → Staffed w' ∧ (w.manned → w'.manned)

theorem Crewed.refl (w : World) : Crewed w w := fun h => ⟨h, id⟩

theorem Crewed.trans {a b c : World} (h : Crewed a b) (h' : Crewed b c) : Crewed a c := fun ha =>
  have hb := h ha
  have hc := h' hb.1
  ⟨hc.1, fun hm => hc.2 (hb.2 hm)⟩

theorem crewed_same {w w' : World} (ht : w'.task = w.task) (hc : w'.taskCount = w.taskCount) :
    Crewed w w' := fun h =>
  ⟨⟨by rw [hc]; exact h.pos, by rw [hc, ht]; exact h.only⟩, by
    rw [World.manned, World.manned, ht]
    exact id⟩

theorem crewed_setTask (w : World) (t : Nat) {f : TaskRec → TaskRec}
    (hk : ∀ k, (f k).kind = k.kind) (hs : ∀ k, k.started = true → (f k).started = true) :
    Crewed w (w.setTask t f) := by
  refine fun h => ⟨⟨h.pos, fun u hu => ?_⟩, fun hm => ?_⟩
  · rw [← h.only u hu]
    rcases eq_or_ne u t with rfl | hne
    · simp [World.setTask, hk]
    · simp [World.setTask, setAt_of_ne hne]
  · rw [World.manned] at hm ⊢
    rcases eq_or_ne workerTask t with rfl | hne
    · simpa [World.setTask] using hs _ hm
    · simpa [World.setTask, setAt_of_ne hne] using hm

theorem crewed_fork (w : World) {k : Kind} (hk : k ≠ .worker) : Crewed w (w.fork k) := by
  refine fun h => ⟨⟨Nat.succ_pos _, fun u hu => ?_⟩, fun hm => ?_⟩
  · rcases eq_or_ne u w.taskCount with rfl | hne
    · have hpos := h.pos
      simp only [World.fork, setAt_self, hk, false_iff, workerTask]
      omega
    · simp only [World.fork, setAt_of_ne hne] at hu ⊢
      exact h.only u (by omega)
  · have hne : workerTask ≠ w.taskCount := Nat.ne_of_lt h.pos
    show (setAt w.task w.taskCount { kind := k } workerTask).started = true
    rwa [setAt_of_ne hne]

/-! ## The classes -/

/-- A statement that neither starts nor ends a fan-out. -/
structure Level (w w' : World) : Prop where
  drain : w'.drain = w.drain
  opened : w'.opened = w.opened
  crewed : Crewed w w'

/-- A statement that notes nothing about fan-outs. -/
structure Apart (w w' : World) : Prop where
  fanOuts : w'.fanOuts = w.fanOuts
  crewed : Crewed w w'

/-- Nor counts a pop. -/
structure Uncounted (w w' : World) : Prop extends Apart w w' where
  counter : w'.queue.counter = w.queue.counter

/-- Nor changes what the admit loops read of a slot. -/
structure Shuffle (w w' : World) : Prop extends Uncounted w w' where
  sort : ∀ s, (w'.slot s).sort = (w.slot s).sort

/-- Nor moves a slot about in the queue. -/
structure Inert (w w' : World) : Prop extends Apart w w' where
  queue : w'.queue = w.queue
  sort : ∀ s, (w'.slot s).sort = (w.slot s).sort

theorem Apart.level {w w' : World} (h : Apart w w') : Level w w' :=
  ⟨drain_congr h.fanOuts, opened_congr h.fanOuts, h.crewed⟩

theorem Inert.uncounted {w w' : World} (h : Inert w w') : Uncounted w w' :=
  ⟨h.toApart, by rw [h.queue]⟩

theorem Inert.shuffle {w w' : World} (h : Inert w w') : Shuffle w w' := ⟨h.uncounted, h.sort⟩

theorem Apart.refl (w : World) : Apart w w := ⟨rfl, .refl w⟩

theorem Apart.trans {a b c : World} (h : Apart a b) (h' : Apart b c) : Apart a c :=
  ⟨h'.fanOuts.trans h.fanOuts, h.crewed.trans h'.crewed⟩

theorem Uncounted.refl (w : World) : Uncounted w w := ⟨.refl w, rfl⟩

theorem Uncounted.trans {a b c : World} (h : Uncounted a b) (h' : Uncounted b c) : Uncounted a c :=
  ⟨h.toApart.trans h'.toApart, h'.counter.trans h.counter⟩

theorem Shuffle.trans {a b c : World} (h : Shuffle a b) (h' : Shuffle b c) : Shuffle a c :=
  ⟨h.toUncounted.trans h'.toUncounted, fun s => (h'.sort s).trans (h.sort s)⟩

theorem Inert.refl (w : World) : Inert w w := ⟨.refl w, rfl, fun _ => rfl⟩

theorem Inert.trans {a b c : World} (h : Inert a b) (h' : Inert b c) : Inert a c :=
  ⟨h.toApart.trans h'.toApart, h'.queue.trans h.queue, fun s => (h'.sort s).trans (h.sort s)⟩

theorem inert_same {w w' : World} (hf : w'.fanOuts = w.fanOuts) (hq : w'.queue = w.queue)
    (hs : w'.slot = w.slot) (ht : w'.task = w.task) (hc : w'.taskCount = w.taskCount) :
    Inert w w' :=
  ⟨⟨hf, crewed_same ht hc⟩, hq, fun _ => by rw [hs]⟩

theorem inert_setSlot (w : World) (s : Nat) {f : Slot → Slot} (hf : ∀ x, (f x).sort = x.sort) :
    Inert w (w.setSlot s f) := by
  refine ⟨⟨rfl, crewed_same rfl rfl⟩, rfl, fun x => ?_⟩
  rcases eq_or_ne x s with rfl | hx
  · simp [World.setSlot, hf]
  · simp [World.setSlot, setAt_of_ne hx]

theorem inert_setResident (w : World) (r : Nat) (f : Resident → Resident) :
    Inert w (w.setResident r f) := inert_same rfl rfl rfl rfl rfl

theorem inert_mirror (w : World) (f : Resident → Resident) : Inert w (w.mirror f) := by
  unfold World.mirror
  split
  · exact inert_setResident w _ f
  · exact .refl w

theorem inert_setHold (w : World) (f : Holder → Holder) : Inert w (w.setHold f) :=
  inert_same rfl rfl rfl rfl rfl

theorem inert_record (w : World) {e : Event} (he : e.isFanOut = false) :
    Inert w (w.record e) :=
  inert_same (by simp [World.fanOuts, World.record, he]) rfl rfl rfl rfl

theorem inert_setTask (w : World) (t : Nat) {f : TaskRec → TaskRec}
    (hk : ∀ k, (f k).kind = k.kind) (hs : ∀ k, k.started = true → (f k).started = true) :
    Inert w (w.setTask t f) :=
  ⟨⟨rfl, crewed_setTask w t hk hs⟩, rfl, fun _ => rfl⟩

theorem inert_fork (w : World) {k : Kind} (hk : k ≠ .worker) : Inert w (w.fork k) :=
  ⟨⟨rfl, crewed_fork w hk⟩, rfl, fun _ => rfl⟩

theorem inert_cancelTask (w : World) (t : Nat) : Inert w (w.cancelTask t) :=
  inert_setTask w t (fun k => by split <;> rfl) fun k h => by split <;> exact h

theorem inert_cancelAll {α : Type} (f : α → Nat) : ∀ (xs : List α) (w : World),
    Inert w (xs.foldl (fun w x => w.cancelTask (f x)) w)
  | [], w => .refl w
  | x :: xs, w => (inert_cancelTask w (f x)).trans (inert_cancelAll f xs _)

theorem inert_exits : ∀ (ps : List Nat) (w : World),
    Inert w (ps.foldl (fun w p => w.processExit p) w)
  | [], w => .refl w
  | p :: ps, w =>
      have h : Inert w (w.processExit p) := inert_same rfl rfl rfl rfl rfl
      h.trans (inert_exits ps _)

theorem Kind.helper_ne_worker {k : Kind} (h : k.helper = true) : k ≠ .worker := by
  rintro rfl
  cases h

theorem sort_of_given {x y : Slot} (h : x.given = y.given) : x.sort = y.sort := by
  rw [Slot.sort, Slot.sort, show x.modelTag = y.modelTag from congrArg Given.modelTag h,
    show x.clientMeta = y.clientMeta from congrArg Given.clientMeta h]

instance : ErrandVocabulary Inert where
  refl := Inert.refl
  slot := fun w s _ hf => inert_setSlot w s fun x => sort_of_given (hf.given x)
  occupied := fun w _ => (inert_setHold w _).trans (inert_mirror _ _)
  dispatched := fun w s pid =>
    (inert_setSlot w s (f := fun x => { x with streamHandle := some pid }.setReady)
      fun _ => rfl).trans (inert_record _ rfl)
  holder := fun w _ _ => inert_setHold w _
  mirrored := fun w _ _ _ _ => (inert_setHold w _).trans (inert_mirror _ _)
  resident := fun w r _ _ => inert_setResident w r _
  value := fun w t _ => inert_setTask w t (fun _ => rfl) fun _ h => h
  helper := fun w _ hk => inert_fork w (Kind.helper_ne_worker hk)
  startInFlight := fun w r _ _ hk =>
    (inert_fork w (Kind.helper_ne_worker hk)).trans (inert_setResident _ r _)
  cancelInFlight := fun w r => inert_cancelAll Prod.fst _ w
  activeHandle := fun w _ => (inert_setHold w _).trans (inert_mirror _ _)
  idleHolder := fun w _ _ _ => (inert_setHold w _).trans (inert_mirror _ _)
  detached := fun w k hk => inert_fork w (by rintro rfl; cases hk)
  stop := fun _ => inert_same rfl rfl rfl rfl rfl
  cancelWorker := fun w => inert_cancelTask w workerTask
  cancelDrivers := fun w => inert_cancelAll (fun t => t) _ w
  cancelBg := fun w _ => inert_cancelAll (fun t => t) _ w
  lasts := fun w r _ _ => inert_setResident w r _
  timed := fun w _ => inert_setHold w _
  graced := fun w e he => inert_record w (by cases e <;> first | rfl | cases he)

instance : CaptureVocabulary Inert where
  latest := fun w _ => (inert_setHold w _).trans (inert_mirror _ _)
  captured := fun w r _ => inert_setResident w r _

instance : SeatVocabulary Inert where
  inflight := fun w _ => inert_setHold w _
  anchored := fun w _ => inert_setHold w _
  startRider := fun w _ _ hk =>
    (inert_fork w (Kind.helper_ne_worker (Kind.isRider_helper hk))).trans (inert_setHold _ _)
  cancelRider := fun w s => by
    unfold World.cancelRider
    split
    · exact inert_cancelTask w _
    · exact .refl w

/-! ## Operations -/

theorem inert_issue (t : Nat) (o : Op) (w : World) : Inert w (issue t o w) := by
  cases o with
  | complete site s p => exact inert_record w rfl
  | inboxGetTimed r => exact inert_setResident w r fun x => { x with getter := .waiting }
  | sigterm p | reapPid p => exact inert_same rfl rfl rfl rfl rfl
  | _ => exact .refl w

theorem sort_fail (e : Err) (x : Slot) : (x.fail e).sort = x.sort := by
  unfold Slot.fail
  split <;> rfl

theorem inert_effect (t : Nat) (o : Op) (r : Reply) (w : World) : Inert w (effect t o r w) := by
  cases o with
  | mark m =>
      cases r <;> first
        | exact .refl w
        | exact inert_record w rfl
  | fail site s e =>
      cases r <;> first
        | exact .refl w
        | exact inert_setSlot w s (sort_fail e)
  | future s =>
      cases r <;> first
        | exact .refl w
        | exact inert_setSlot w s (sort_fail _)
  | orphanReap known =>
      cases r <;> first
        | exact .refl w
        | exact inert_exits _ w
  | spawn s port tag n =>
      cases r <;> first
        | exact inert_record w rfl
        | exact (inert_record w (e := .spawning s port _) rfl).trans
            (inert_same rfl rfl rfl rfl rfl)
  | complete site s p | streamDone site s p =>
      cases r <;> first
        | exact .refl w
        | exact inert_record w rfl
  | _ => cases r <;> exact inert_same rfl rfl rfl rfl rfl

theorem inert_answer (t : Nat) (o : Op) (r : Reply) (w : World) : Inert w (answer t o r w) := by
  refine (inert_effect t o r w).trans ?_
  show Inert _ ((effect t o r w).delivered t o)
  unfold World.delivered
  split
  · exact inert_setTask _ t (fun _ => rfl) fun _ _ => rfl
  · split
    · exact inert_setTask _ t (fun _ => rfl) fun _ h => h
    · exact .refl _

theorem inert_finished (t : Nat) (r : Res sig Unit) (w : World) : Inert w (finished t r w) := by
  have h : Inert w (w.setTask t fun k => { k with outcome := some (outcomeOf r) }) :=
    inert_setTask w t (fun _ => rfl) fun _ h => h
  unfold finished
  dsimp only
  split
  · exact h.trans (inert_fork _ (by rintro ⟨⟩))
  · exact h

theorem inert_envStep {e : Env} {w w' : World} (h : envStep e w = some w') : Inert w w' := by
  cases e with
  | request k =>
      simp only [envStep, Option.ite_none_right_eq_some, Option.some.injEq] at h
      obtain ⟨hk, rfl⟩ := h
      exact inert_fork w (by rintro rfl; cases hk)
  | shutdown =>
      simp only [envStep, Option.ite_none_right_eq_some, Option.some.injEq] at h
      obtain ⟨-, rfl⟩ := h
      exact (inert_fork w (k := .shutdown) (by rintro ⟨⟩)).trans (inert_same rfl rfl rfl rfl rfl)
  | exit pid =>
      cases h
      exact inert_same rfl rfl rfl rfl rfl
  | disconnect s =>
      cases h
      have hs : Inert w (w.setSlot s fun x =>
          { x with disconnectEvent := x.disconnectEvent.map fun _ => true }) :=
        inert_setSlot w s fun _ => rfl
      unfold World.disconnect
      dsimp only
      split
      · exact hs.trans (inert_record _ rfl)
      · exact hs
  | cancelRoute t =>
      simp only [envStep, Option.ite_none_right_eq_some, Option.some.injEq] at h
      obtain ⟨-, rfl⟩ := h
      exact inert_cancelTask w t
  | innerGet r =>
      simp only [envStep, World.innerGet] at h
      split at h
      · cases h
        exact inert_setResident w r _
      · cases h

/-! ## The queue -/

theorem inert_flagEvicted (w : World) (s : Nat) : Inert w (w.flagEvicted s) := by
  unfold World.flagEvicted
  split
  · exact inert_setSlot w s fun _ => rfl
  · exact .refl w

theorem apart_setQueue (w : World) (f : Queue → Queue) : Apart w (w.setQueue f) :=
  ⟨rfl, crewed_same rfl rfl⟩

theorem uncounted_setQueue (w : World) {f : Queue → Queue}
    (hf : (f w.queue).counter = w.queue.counter) : Uncounted w (w.setQueue f) :=
  ⟨apart_setQueue w f, hf⟩

theorem shuffle_setQueue (w : World) {f : Queue → Queue}
    (hf : (f w.queue).counter = w.queue.counter) : Shuffle w (w.setQueue f) :=
  ⟨uncounted_setQueue w hf, fun _ => rfl⟩

theorem apart_alloc (t : Nat) (x : Slot) (w : World) : Apart w (w.alloc t x) :=
  have slots : Apart w
      { w with slot := setAt w.slot w.slotCount x, slotCount := w.slotCount + 1 } :=
    ⟨rfl, crewed_same rfl rfl⟩
  slots.trans (inert_setTask _ t (f := fun k => { k with slot := some w.slotCount })
    (fun _ => rfl) fun _ h => h).toApart

theorem Level.trans {a b c : World} (h : Level a b) (h' : Level b c) : Level a c :=
  ⟨h'.drain.trans h.drain, h'.opened.trans h.opened, h.crewed.trans h'.crewed⟩

instance : CaptureVocabulary Level where
  latest := fun w v => (CaptureVocabulary.latest (A := Inert) w v).toApart.level
  captured := fun w r v => (CaptureVocabulary.captured (A := Inert) w r v).toApart.level

instance : ResidentVocabulary Level := .mono fun _ _ (h : Inert _ _) => h.toApart.level

instance : GraceVocabulary Level := .mono fun _ _ (h : Inert _ _) => h.toApart.level

instance : QueueVocabulary Level where
  trans := Level.trans
  queue := fun w f => (apart_setQueue w f).level
  flagged := fun w s => (inert_flagEvicted w s).toApart.level
  alloc := fun w t x => (apart_alloc t x w).level
  attached := fun w s => (inert_setSlot w s (f := Slot.attachEvents) fun _ => rfl).toApart.level

instance : JoinVocabulary Level where
  inflight := fun w f => (SeatVocabulary.inflight (A := Inert) w f).toApart.level
  anchored := fun w xs => (SeatVocabulary.anchored (A := Inert) w xs).toApart.level
  startRider := fun w _ s hk => (SeatVocabulary.startRider (A := Inert) w s hk).toApart.level
  cancelRider := fun w s => (SeatVocabulary.cancelRider (A := Inert) w s).toApart.level
  joined := fun _ _ => ⟨rfl, rfl, crewed_same rfl rfl⟩
  undrained := fun _ _ => ⟨rfl, rfl, crewed_same rfl rfl⟩

theorem shuffle_popFirst (w : World) {s : Nat} {rest : List Nat} :
    Shuffle w ((w.setQueue fun q => { q with staging := rest }).flagEvicted s) :=
  have h : Shuffle w (w.setQueue fun q => { q with staging := rest }) := shuffle_setQueue w rfl
  h.trans (inert_flagEvicted _ s).shuffle

theorem inert_moveTo (s : Nat) (x : SlotState) (w : World) : Inert w (w.moveTo s x).2 := by
  unfold World.moveTo
  split
  · next y hy =>
      rw [transition_eq_ok hy]
      exact inert_setSlot w s (f := fun y => { y with state := x }) fun _ => rfl
  · exact .refl w

theorem shuffle_promoteOne : Only (S := sig) Shuffle (fun _ => False) promoteOne := by
  intro w
  dsimp only
  split
  · exact (Inert.refl w).shuffle
  · next s rest _ =>
      have hq : Shuffle w (w.setQueue fun q => { q with acceptBuf := rest }) :=
        shuffle_setQueue w rfl
      have h := hq.trans (inert_moveTo s .staged _).shuffle
      split
      · next w' hm =>
          rw [hm] at h
          have ht : Shuffle w' (w'.setQueue fun q => { q with staging := q.staging ++ [s] }) :=
            shuffle_setQueue w' rfl
          exact h.trans ht
      · exact h

theorem shuffle_replenish (C : Config) :
    Only (S := sig) Shuffle (fun _ => False) (replenish C) :=
  ⟨fun w => (Inert.refl w).shuffle, fun _ => only_when.mpr fun _ => shuffle_promoteOne⟩

/-- The FIFO path awaits and asks nothing. -/
theorem level_popNextFifo (C : Config) :
    Only (S := sig) Level (fun _ => False) (popNextFifo C) := by
  have refill : Only (S := sig) Level (fun _ => False) (replenish C) :=
    (shuffle_replenish C).mono (fun _ _ h => h.toApart.level) fun _ h => h
  have promote : Only (S := sig) Level (fun _ => False) promoteOne :=
    shuffle_promoteOne.mono (fun _ _ h => h.toApart.level) fun _ h => h
  have tally : ∀ r, Only (S := sig) Level (fun _ => False) (updateRunLength r) := fun r => by
    cases r with
    | none => trivial
    | some s => exact calm_updateRunLength (A := Level) (some s)
  refine ⟨calm_popFirst, fun r => ?_⟩
  cases r with
  | some s => exact ⟨refill, fun _ => ⟨tally _, fun _ => trivial⟩⟩
  | none =>
      refine ⟨only_whileTrue.mpr ⟨fun w => (Apart.refl w).level, fun q => only_ite.mpr
        ⟨fun _ => ⟨promote, fun _ => trivial⟩, fun _ => trivial⟩⟩, fun _ => ?_⟩
      exact ⟨calm_popFirst, fun r => ⟨tally r, fun _ => trivial⟩⟩

/-! ## What the other tasks do to the queue and the registry -/

/-- The program leaves the run-length counter and the fan-outs alone. -/
abbrev Uncounts {α : Type} (m : Prog α) : Prop := Only (S := sig) Uncounted (fun _ => True) m

theorem Calm.uncounts {α : Type} {m : Prog α} (h : Calm Inert m) : Uncounts m :=
  h.mono (fun _ _ h => h.uncounted) fun _ _ => trivial

theorem uncounts_setQueue {f : Queue → Queue} (hf : ∀ q, (f q).counter = q.counter) :
    Uncounts (Co.modify (World.setQueue f)) := fun w => uncounted_setQueue w (hf _)

theorem uncounts_popMatchedThread (threadId tag : String) :
    Uncounts (popMatchedThread threadId tag) := by
  refine only_ite.mpr ⟨fun _ => trivial, fun _ => ⟨fun w => ?_, fun r => ?_⟩⟩
  · dsimp only
    split
    · exact .refl w
    · next s _ =>
        have h : Uncounted w (w.setQueue fun q => { q with staging := q.staging.erase s }) :=
          uncounted_setQueue w rfl
        exact h.trans (inert_flagEvicted _ s).uncounted
  · cases r with
    | none => trivial
    | some s => exact ⟨only_mark.mpr trivial, fun _ => trivial⟩

theorem uncounts_enqueue (C : Config) (s : Nat) : Uncounts (enqueue C s) :=
  ⟨Uncounted.refl, fun _ => only_ite.mpr ⟨fun _ => trivial, fun _ => only_ite.mpr
    ⟨fun _ => ⟨(calm_transition s _).uncounts, fun _ => uncounts_setQueue fun _ => rfl⟩,
      fun _ => only_ite.mpr ⟨fun _ => trivial, fun _ =>
        ⟨(calm_transition s _).uncounts, fun _ => uncounts_setQueue fun _ => rfl⟩⟩⟩⟩⟩

theorem uncounts_enqueueHead (s : Nat) : Uncounts (enqueueHead s) :=
  ⟨Uncounted.refl, fun _ => only_ite.mpr ⟨fun _ => trivial, fun _ => ⟨Uncounted.refl, fun _ =>
    ⟨only_when.mpr fun _ => (calm_transition s _).uncounts, fun _ => ⟨only_mark.mpr trivial,
      fun _ => uncounts_setQueue fun _ => rfl⟩⟩⟩⟩⟩

theorem uncounts_closeQueue : Uncounts closeQueue := fun w =>
  uncounted_setQueue w (f := fun q => { q with closed := true, acceptBuf := [], staging := [] }) rfl

theorem inert_drainInbox (r : Nat) (w : World) : Inert w (w.drainInbox r) := by
  have h : Inert w (w.setResident r fun x => { x with inbox := some [] }) :=
    inert_setResident w r _
  exact h.trans (inert_fork _ (by rintro ⟨⟩))

theorem inert_dead (r : Nat) (w : World) :
    Inert w (w.setResident r fun x => { x with state := .dead }) :=
  inert_setResident w r _

theorem inert_deregister (r : Nat) (w : World) : Inert w (w.deregister r) :=
  inert_same rfl rfl rfl rfl rfl

theorem uncounts_beginEvict (r : Nat) : Uncounts (beginEvictLocked r) :=
  ⟨Uncounted.refl, fun _ => ⟨only_when.mpr fun _ w => (inert_drainInbox r w).uncounted, fun _ =>
    only_when.mpr fun _ => ⟨fun w => (inert_dead r w).uncounted, fun _ =>
      ⟨fun w => (inert_deregister r w).uncounted, fun _ w =>
        (inert_fork w (k := .evictTeardown r) (by rintro ⟨⟩)).uncounted⟩⟩⟩⟩

theorem uncounts_onResident (r : Nat) (f : Resident → Resident) : Uncounts (onResident r f) :=
  fun w => (inert_setResident w r f).uncounted

theorem uncounts_claimTeardown (r : Nat) : Uncounts (claimTeardown r) :=
  only_bind.mpr ⟨uncounts_onResident r _, fun _ => ⟨Uncounted.refl, fun _ =>
    only_when.mpr fun _ => ⟨fun w => (inert_dead r w).uncounted, fun _ w =>
      (inert_deregister r w).uncounted⟩⟩⟩

theorem uncounted_alloc (t : Nat) (x : Slot) (w : World) : Uncounted w (w.alloc t x) :=
  ⟨apart_alloc t x w, rfl⟩

/-- An assertion that no such statement breaks is kept by all tasks but the
worker. -/
theorem errands_uncounted {C : Config} {P : Outline (system C)} {t : Nat}
    {I : World → World → Prop} (F : Frames P t I Uncounted fun _ => True) :
    Errands C P t I Inert fun _ => True where
  frames := ⟨fun h => F.act h.uncounted, F.ask, F.await⟩
  popMatchedThread := fun th tag => F.keeps (uncounts_popMatchedThread th tag)
  enqueue := fun s => F.keeps (uncounts_enqueue C s)
  enqueueHead := fun s => F.keeps (uncounts_enqueueHead s)
  closeQueue := F.keeps uncounts_closeQueue
  allocSlot := fun x _ => F.keeps fun w => uncounted_alloc t x w
  attachEvents := fun s => F.keeps fun w =>
    (inert_setSlot w s (f := Slot.attachEvents) fun _ => rfl).uncounted
  beginEvict := fun r => F.keeps (uncounts_beginEvict r)
  claimTeardown := fun r => F.keeps (uncounts_claimTeardown r)

end Turbohaul
