/-
# `Windows` — who decides how long a sidecar may idle

The idle window of a sidecar is computed from the `keep_alive_s` of the slots it
has served.  It is captured in `_latest_keep_alive_s` at cap 1, and in the field
of that name of the resident at cap 2; which slots a fan-out has served, the
trace tells.

    Mute     a statement that touches neither of these, nor what was asked for
    Tends    and submits, reserves and starts tasks at most, and captures what
             the requests for residents of its own ask for

`Mute` is what most programs are written in.  `Tends` is what all tasks keep
but the serial worker: a driver has one resident of its own, the others have
none.
-/
import Turbohaul.Batches
import Turbohaul.Coop.Turn

namespace Turbohaul

open Coop

/-! ## What windows depend on -/

/-- What was asked for, and what of it was captured. -/
structure Wishes where
  fanOuts : List Event
  slotCount : Nat
  clientMeta : Nat → ClientMeta
  latest : Option Int
  residentCount : Nat
  idling : Nat → Idling

def World.wishes (w : World) : Wishes :=
  { fanOuts := w.fanOuts
    slotCount := w.slotCount
    clientMeta := fun s => (w.slot s).clientMeta
    latest := w.hold.latestKeepAliveS
    residentCount := w.residentCount
    idling := fun r => (w.resident r).idling }

/-- Tasks are started at most, and no worker. -/
structure SameTasks (w w' : World) : Prop where
  count : w.taskCount ≤ w'.taskCount
  kind : ∀ t < w.taskCount, (w'.task t).kind = (w.task t).kind
  new : ∀ t < w'.taskCount, w.taskCount ≤ t → (w'.task t).kind ≠ .worker

theorem SameTasks.trans {a b c : World} (h : SameTasks a b) (h' : SameTasks b c) :
    SameTasks a c where
  count := Nat.le_trans h.count h'.count
  kind := fun t ht => (h'.kind t (Nat.lt_of_lt_of_le ht h.count)).trans (h.kind t ht)
  new := fun t ht hn => by
    rcases Nat.lt_or_ge t b.taskCount with hb | hb
    · rw [h'.kind t hb]
      exact h.new t hb hn
    · exact h'.new t ht hb

theorem sameTasks_same {w w' : World} (hk : w'.task = w.task) (hc : w'.taskCount = w.taskCount) :
    SameTasks w w' :=
  ⟨Nat.le_of_eq hc.symm, fun _ _ => by rw [hk], fun t ht hn => by
    rw [hc] at ht
    exact absurd ht (Nat.not_lt.mpr hn)⟩

theorem SameTasks.refl (w : World) : SameTasks w w := sameTasks_same rfl rfl

/-- The table of tasks with one more at its end. -/
theorem sameTasks_new {w w' : World} {k : TaskRec} (hk : w'.task = setAt w.task w.taskCount k)
    (hc : w'.taskCount = w.taskCount + 1) (hw : k.kind ≠ .worker) : SameTasks w w' := by
  refine ⟨by rw [hc]; exact Nat.le_succ _, fun t ht => ?_, fun t ht hn => ?_⟩
  · rw [hk, setAt_of_ne (Nat.ne_of_lt ht)]
  · have he : t = w.taskCount := by omega
    rw [hk, he, setAt_self]
    exact hw

/-- A statement that touches no wish and no capture. -/
structure Mute (w w' : World) : Prop where
  wishes : w'.wishes = w.wishes
  tasks : SameTasks w w'

/-- A statement that may also submit a slot or reserve a resident, and capture
for the residents `own`. -/
structure Tends (own : Nat → Prop) (w w' : World) : Prop where
  fanOuts : w'.fanOuts = w.fanOuts
  slotCount : w.slotCount ≤ w'.slotCount
  clientMeta : ∀ s < w.slotCount, (w'.slot s).clientMeta = (w.slot s).clientMeta
  latest : w'.hold.latestKeepAliveS = w.hold.latestKeepAliveS
  residentCount : w.residentCount ≤ w'.residentCount
  sleep : ∀ r < w.residentCount,
    (w'.resident r).sleepIdleSeconds = (w.resident r).sleepIdleSeconds
  idling : ∀ r < w.residentCount, ¬own r → (w'.resident r).idling = (w.resident r).idling
  tasks : SameTasks w w'

theorem Mute.refl (w : World) : Mute w w := ⟨rfl, .refl w⟩

theorem Mute.trans {a b c : World} (h : Mute a b) (h' : Mute b c) : Mute a c :=
  ⟨h'.wishes.trans h.wishes, h.tasks.trans h'.tasks⟩

theorem Mute.clientMeta {w w' : World} (h : Mute w w') (s : Nat) :
    (w'.slot s).clientMeta = (w.slot s).clientMeta :=
  congrFun (congrArg Wishes.clientMeta h.wishes) s

theorem Mute.latest {w w' : World} (h : Mute w w') :
    w'.hold.latestKeepAliveS = w.hold.latestKeepAliveS := congrArg Wishes.latest h.wishes

theorem Mute.idling {w w' : World} (h : Mute w w') (r : Nat) :
    (w'.resident r).idling = (w.resident r).idling := congrFun (congrArg Wishes.idling h.wishes) r

theorem Mute.fanOuts {w w' : World} (h : Mute w w') : w'.fanOuts = w.fanOuts :=
  congrArg Wishes.fanOuts h.wishes

variable {own : Nat → Prop}

theorem Mute.tends {w w' : World} (h : Mute w w') : Tends own w w' where
  fanOuts := h.fanOuts
  slotCount := Nat.le_of_eq (congrArg Wishes.slotCount h.wishes).symm
  clientMeta := fun s _ => h.clientMeta s
  latest := h.latest
  residentCount := Nat.le_of_eq (congrArg Wishes.residentCount h.wishes).symm
  sleep := fun r _ => congrArg Idling.sleepIdleSeconds (h.idling r)
  idling := fun r _ _ => h.idling r
  tasks := h.tasks

theorem Tends.refl (w : World) : Tends own w w := (Mute.refl w).tends

theorem Tends.trans {a b c : World} (h : Tends own a b) (h' : Tends own b c) : Tends own a c where
  fanOuts := h'.fanOuts.trans h.fanOuts
  slotCount := Nat.le_trans h.slotCount h'.slotCount
  clientMeta := fun s hs =>
    (h'.clientMeta s (Nat.lt_of_lt_of_le hs h.slotCount)).trans (h.clientMeta s hs)
  latest := h'.latest.trans h.latest
  residentCount := Nat.le_trans h.residentCount h'.residentCount
  sleep := fun r hr =>
    (h'.sleep r (Nat.lt_of_lt_of_le hr h.residentCount)).trans (h.sleep r hr)
  idling := fun r hr hd =>
    (h'.idling r (Nat.lt_of_lt_of_le hr h.residentCount) hd).trans (h.idling r hr hd)
  tasks := h.tasks.trans h'.tasks

/-! ## Mute statements -/

theorem mute_same {w w' : World} (hf : w'.fanOuts = w.fanOuts) (hn : w'.slotCount = w.slotCount)
    (hs : w'.slot = w.slot) (hh : w'.hold = w.hold) (hc : w'.residentCount = w.residentCount)
    (hr : w'.resident = w.resident) (hk : w'.task = w.task) (ht : w'.taskCount = w.taskCount) :
    Mute w w' := by
  refine ⟨?_, sameTasks_same hk ht⟩
  simp only [World.wishes, hf, hn, hs, hh, hc, hr]

theorem mute_setSlot (w : World) (s : Nat) {f : Slot → Slot}
    (hf : ∀ x, (f x).clientMeta = x.clientMeta) : Mute w (w.setSlot s f) := by
  refine ⟨?_, sameTasks_same rfl rfl⟩
  have h : (fun x => ((w.setSlot s f).slot x).clientMeta) = fun x => (w.slot x).clientMeta := by
    funext x
    rcases eq_or_ne x s with rfl | hx
    · simp [World.setSlot, hf]
    · simp [World.setSlot, setAt_of_ne hx]
  exact congrArg (fun m => ({ w.wishes with clientMeta := m } : Wishes)) h

theorem mute_setResident (w : World) (r : Nat) {f : Resident → Resident}
    (hf : ∀ x, (f x).idling = x.idling) : Mute w (w.setResident r f) := by
  refine ⟨?_, sameTasks_same rfl rfl⟩
  have h : (fun d => ((w.setResident r f).resident d).idling) =
      fun d => (w.resident d).idling := by
    funext d
    rcases eq_or_ne d r with rfl | hd
    · simp [World.setResident, hf]
    · simp [World.setResident, setAt_of_ne hd]
  exact congrArg (fun i => ({ w.wishes with idling := i } : Wishes)) h

theorem mute_mirror (w : World) {f : Resident → Resident} (hf : ∀ x, (f x).idling = x.idling) :
    Mute w (w.mirror f) := by
  unfold World.mirror
  split
  · exact mute_setResident w _ hf
  · exact .refl w

theorem mute_setHold (w : World) {f : Holder → Holder}
    (hf : (f w.hold).latestKeepAliveS = w.hold.latestKeepAliveS) : Mute w (w.setHold f) :=
  ⟨congrArg (fun v => ({ w.wishes with latest := v } : Wishes)) hf, sameTasks_same rfl rfl⟩

theorem mute_setProcs (w : World) (f : Procs → Procs) : Mute w (w.setProcs f) :=
  mute_same rfl rfl rfl rfl rfl rfl rfl rfl

theorem mute_setQueue (w : World) (f : Queue → Queue) : Mute w (w.setQueue f) :=
  mute_same rfl rfl rfl rfl rfl rfl rfl rfl

theorem mute_record (w : World) {e : Event} (he : e.isFanOut = false) : Mute w (w.record e) :=
  mute_same (by simp [World.fanOuts, World.record, he]) rfl rfl rfl rfl rfl rfl rfl

theorem mute_setTask (w : World) (t : Nat) {f : TaskRec → TaskRec}
    (hf : ∀ k, (f k).kind = k.kind) : Mute w (w.setTask t f) := by
  refine ⟨rfl, ⟨Nat.le_refl _, fun u _ => ?_, fun u hu hn => absurd hu (Nat.not_lt.mpr hn)⟩⟩
  rcases eq_or_ne u t with rfl | hu
  · simp [World.setTask, hf]
  · simp [World.setTask, setAt_of_ne hu]

theorem mute_fork (w : World) {k : Kind} (hk : k ≠ .worker) : Mute w (w.fork k) :=
  ⟨rfl, sameTasks_new rfl rfl hk⟩

theorem mute_cancelTask (w : World) (t : Nat) : Mute w (w.cancelTask t) :=
  mute_setTask w t fun k => by split <;> rfl

theorem mute_cancelAll {α : Type} (f : α → Nat) : ∀ (xs : List α) (w : World),
    Mute w (xs.foldl (fun w x => w.cancelTask (f x)) w)
  | [], w => .refl w
  | x :: xs, w => (mute_cancelTask w (f x)).trans (mute_cancelAll f xs _)

theorem mute_exits : ∀ (ps : List Nat) (w : World),
    Mute w (ps.foldl (fun w p => w.processExit p) w)
  | [], w => .refl w
  | p :: ps, w =>
      have h : Mute w (w.processExit p) := mute_setProcs w _
      h.trans (mute_exits ps _)

theorem mute_flagEvicted (w : World) (s : Nat) : Mute w (w.flagEvicted s) := by
  unfold World.flagEvicted
  split
  · exact mute_setSlot w s fun _ => rfl
  · exact .refl w

theorem clientMeta_of_given {x y : Slot} (h : x.given = y.given) : x.clientMeta = y.clientMeta :=
  congrArg Given.clientMeta h

instance : ErrandVocabulary Mute where
  refl := Mute.refl
  slot := fun w s _ hf => mute_setSlot w s fun x => clientMeta_of_given (hf.given x)
  occupied := fun w _ => (mute_setHold w rfl).trans (mute_mirror _ fun _ => rfl)
  dispatched := fun w s pid =>
    (mute_setSlot w s (f := fun x => { x with streamHandle := some pid }.setReady)
      fun _ => rfl).trans (mute_record _ rfl)
  holder := fun w _ hf => mute_setHold w (hf.latestKeepAliveS _)
  mirrored := fun w _ _ hf hg =>
    (mute_setHold w (hf.latestKeepAliveS _)).trans (mute_mirror _ hg.idling)
  resident := fun w r _ hf => mute_setResident w r hf.idling
  value := fun w t _ => mute_setTask w t fun _ => rfl
  helper := fun w _ hk => mute_fork w (Kind.helper_ne_worker hk)
  startInFlight := fun w r _ s hk =>
    (mute_fork w (Kind.helper_ne_worker hk)).trans (mute_setResident _ r
      (f := fun x => { x with tasks := (w.taskCount, s) :: x.tasks }) fun _ => rfl)
  cancelInFlight := fun w r => mute_cancelAll Prod.fst _ w
  activeHandle := fun w _ => (mute_setHold w rfl).trans (mute_mirror _ fun _ => rfl)
  idleHolder := fun w _ _ _ => (mute_setHold w rfl).trans (mute_mirror _ fun _ => rfl)
  detached := fun w k hk => mute_fork w (by rintro rfl; cases hk)
  stop := fun _ => mute_same rfl rfl rfl rfl rfl rfl rfl rfl
  cancelWorker := fun w => mute_cancelTask w workerTask
  cancelDrivers := fun w => mute_cancelAll (fun t => t) _ w
  cancelBg := fun w _ => mute_cancelAll (fun t => t) _ w
  lasts := fun w r _ hf => mute_setResident w r hf.idling
  timed := fun w _ => mute_setHold w rfl
  graced := fun w e he => mute_record w (by cases e <;> first | rfl | cases he)

instance : SeatVocabulary Mute where
  inflight := fun w _ => mute_setHold w rfl
  anchored := fun w _ => mute_setHold w rfl
  startRider := fun w _ _ hk =>
    (mute_fork w (Kind.helper_ne_worker (Kind.isRider_helper hk))).trans (mute_setHold _ rfl)
  cancelRider := fun w s => by
    unfold World.cancelRider
    split
    · exact mute_cancelTask w _
    · exact .refl w

instance : PopVocabulary Mute where
  trans := Mute.trans
  flagged := mute_flagEvicted
  leaves := fun w _ _ => mute_setQueue w _
  drops := fun w _ _ _ => mute_setQueue w _
  promotes := fun w s _ _ => ((mute_setQueue w _).trans (mute_setSlot _ s (f := fun x =>
    { x with state := .staged }) fun _ => rfl)).trans (mute_setQueue _ _)
  counts := fun w _ _ => mute_setQueue w _

/-! ## Operations -/

theorem mute_issue (t : Nat) (o : Op) (w : World) : Mute w (issue t o w) := by
  cases o with
  | complete site s p => exact mute_record w rfl
  | inboxGetTimed r =>
      exact mute_setResident w r (f := fun x => { x with getter := .waiting }) fun _ => rfl
  | sigterm p | reapPid p => exact mute_same rfl rfl rfl rfl rfl rfl rfl rfl
  | _ => exact .refl w

theorem clientMeta_fail (e : Err) (x : Slot) : (x.fail e).clientMeta = x.clientMeta :=
  clientMeta_of_given ((mild_fail e).given x)

theorem mute_effect (t : Nat) (o : Op) (r : Reply) (w : World) : Mute w (effect t o r w) := by
  cases o with
  | mark m =>
      cases r <;> first
        | exact .refl w
        | exact mute_record w rfl
  | fail site s e =>
      cases r <;> first
        | exact .refl w
        | exact mute_setSlot w s (clientMeta_fail e)
  | future s =>
      cases r <;> first
        | exact .refl w
        | exact mute_setSlot w s (clientMeta_fail _)
  | orphanReap known =>
      cases r <;> first
        | exact .refl w
        | exact mute_exits _ w
  | spawn s port tag n =>
      cases r <;> first
        | exact mute_record w rfl
        | exact (mute_record w (e := .spawning s port _) rfl).trans
            (mute_same rfl rfl rfl rfl rfl rfl rfl rfl)
  | complete site s p | streamDone site s p =>
      cases r <;> first
        | exact .refl w
        | exact mute_record w rfl
  | inboxGet d =>
      cases r <;> first
        | exact .refl w
        | exact mute_setResident w d (f := fun x => { x with inbox := x.inbox.map List.tail })
            fun _ => rfl
  | inboxGetTimed d =>
      cases r <;>
        exact mute_setResident w d (f := fun x => { x with getter := .idle }) fun _ => rfl
  | _ => cases r <;> exact mute_same rfl rfl rfl rfl rfl rfl rfl rfl

theorem mute_answer (t : Nat) (o : Op) (r : Reply) (w : World) : Mute w (answer t o r w) := by
  refine (mute_effect t o r w).trans ?_
  show Mute _ ((effect t o r w).delivered t o)
  unfold World.delivered
  split
  · exact mute_setTask _ t fun _ => rfl
  · split
    · exact mute_setTask _ t fun _ => rfl
    · exact .refl _

theorem mute_finished (t : Nat) (r : Res sig Unit) (w : World) : Mute w (finished t r w) := by
  have h : Mute w (w.setTask t fun k => { k with outcome := some (outcomeOf r) }) :=
    mute_setTask w t fun _ => rfl
  unfold finished
  dsimp only
  split
  · exact h.trans (mute_fork _ (by rintro ⟨⟩))
  · exact h

theorem mute_envStep {e : Env} {w w' : World} (h : envStep e w = some w') : Mute w w' := by
  cases e with
  | request k =>
      simp only [envStep, Option.ite_none_right_eq_some, Option.some.injEq] at h
      obtain ⟨hk, rfl⟩ := h
      exact mute_fork w (by rintro rfl; cases hk)
  | shutdown =>
      simp only [envStep, Option.ite_none_right_eq_some, Option.some.injEq] at h
      obtain ⟨-, rfl⟩ := h
      exact (mute_fork w (k := .shutdown) (by rintro ⟨⟩)).trans
        (mute_same rfl rfl rfl rfl rfl rfl rfl rfl)
  | exit pid =>
      cases h
      exact mute_setProcs w _
  | disconnect s =>
      cases h
      have hs : Mute w (w.setSlot s fun x =>
          { x with disconnectEvent := x.disconnectEvent.map fun _ => true }) :=
        mute_setSlot w s fun _ => rfl
      unfold World.disconnect
      dsimp only
      split
      · exact hs.trans (mute_record _ rfl)
      · exact hs
  | cancelRoute t =>
      simp only [envStep, Option.ite_none_right_eq_some, Option.some.injEq] at h
      obtain ⟨-, rfl⟩ := h
      exact mute_cancelTask w t
  | innerGet r =>
      simp only [envStep, World.innerGet] at h
      split at h
      · cases h
        exact mute_setResident w r fun _ => rfl
      · cases h

/-! ## Submissions, evictions and reservations -/

theorem tends_alloc (t : Nat) (x : Slot) (w : World) : Tends own w (w.alloc t x) := by
  have slots : Tends own w
      { w with slot := setAt w.slot w.slotCount x, slotCount := w.slotCount + 1 } :=
    { fanOuts := rfl
      slotCount := Nat.le_succ _
      clientMeta := fun s hs => by
        show (setAt w.slot w.slotCount x s).clientMeta = _
        rw [setAt_of_ne (Nat.ne_of_lt hs)]
      latest := rfl
      residentCount := Nat.le_refl _
      sleep := fun _ _ => rfl
      idling := fun _ _ _ => rfl
      tasks := sameTasks_same rfl rfl }
  exact slots.trans (mute_setTask _ t (f := fun k => { k with slot := some w.slotCount })
    fun _ => rfl).tends

theorem mute_deregister (r : Nat) (w : World) : Mute w (w.deregister r) :=
  mute_same rfl rfl rfl rfl rfl rfl rfl rfl

theorem lax_beginEvictLocked (r : Nat) : Lax Mute (beginEvictLocked r) := by
  have drains : ∀ w : World, Mute w (w.drainInbox r) := fun w =>
    (mute_setResident w r (f := fun x => { x with inbox := some [] }) fun _ => rfl).trans
      (mute_fork _ (by rintro ⟨⟩))
  exact ⟨Mute.refl, fun x => ⟨only_when.mpr fun _ => drains, fun _ => only_when.mpr fun _ =>
    ⟨fun w => mute_setResident w r (f := fun x => { x with state := .dead }) fun _ => rfl,
      fun _ => ⟨mute_deregister r, fun _ w => mute_fork w (by rintro ⟨⟩)⟩⟩⟩⟩

theorem lax_claimTeardown (r : Nat) : Lax Mute (claimTeardown r) :=
  ⟨fun w => mute_setResident w r (f := fun x =>
      { x with
        tornDown := true
        handle := none
        bootingPid := none
        pendingSlots := x.inbox.getD []
        inbox := x.inbox.map fun _ => [] }) fun _ => rfl,
    fun _ => ⟨Mute.refl, fun _ => only_when.mpr fun _ =>
      ⟨fun w => mute_setResident w r (f := fun x => { x with state := .dead }) fun _ => rfl,
        fun _ => mute_deregister r⟩⟩⟩

theorem tends_reserve (tag : String) (x : Resident) (w : World) :
    Tends own w (w.reserve tag x) where
  fanOuts := rfl
  slotCount := Nat.le_refl _
  clientMeta := fun _ _ => rfl
  latest := rfl
  residentCount := Nat.le_succ _
  sleep := fun r hr => by
    show (setAt w.resident w.residentCount _ r).sleepIdleSeconds = _
    rw [setAt_of_ne (Nat.ne_of_lt hr)]
  idling := fun r hr _ => by
    show (setAt w.resident w.residentCount _ r).idling = _
    rw [setAt_of_ne (Nat.ne_of_lt hr)]
  tasks := sameTasks_new rfl rfl (by rintro ⟨⟩)

theorem ErrandVocabulary.mono {A B : World → World → Prop} [V : ErrandVocabulary A]
    (h : ∀ w w', A w w' → B w w') : ErrandVocabulary B where
  toVocabulary := V.toVocabulary.mono h
  helper := fun w _ hk => h _ _ (V.helper w hk)
  startInFlight := fun w r _ s hk => h _ _ (V.startInFlight w r s hk)
  cancelInFlight := fun w r => h _ _ (V.cancelInFlight w r)
  activeHandle := fun w x => h _ _ (V.activeHandle w x)
  idleHolder := fun w x tag expires => h _ _ (V.idleHolder w x tag expires)
  detached := fun w _ hk => h _ _ (V.detached w hk)
  stop := fun w => h _ _ (V.stop w)
  cancelWorker := fun w => h _ _ (V.cancelWorker w)
  cancelDrivers := fun w => h _ _ (V.cancelDrivers w)
  cancelBg := fun w ts => h _ _ (V.cancelBg w ts)
  lasts := fun w r _ hf => h _ _ (V.lasts w r hf)
  timed := fun w f => h _ _ (V.timed w f)
  graced := fun w _ he => h _ _ (V.graced w he)

instance : ErrandVocabulary (Tends own) := .mono fun _ _ => Mute.tends

instance : QueueVocabulary (Tends own) where
  trans := Tends.trans
  queue := fun w f => (mute_setQueue w f).tends
  flagged := fun w s => (mute_flagEvicted w s).tends
  alloc := fun w t x => tends_alloc t x w
  attached := fun w s => (mute_setSlot w s (f := Slot.attachEvents) fun _ => rfl).tends

/-- The captures of a driver. -/
theorem captures_tends {d : Nat} (hd : own d) : Captures (Tends own) d := fun v w =>
  have other : ∀ r, r ≠ d →
      (w.setResident d fun x => { x with latestKeepAliveS := v }).resident r = w.resident r :=
    fun r hr => setAt_of_ne hr
  { fanOuts := rfl
    slotCount := Nat.le_refl _
    clientMeta := fun _ _ => rfl
    latest := rfl
    residentCount := Nat.le_refl _
    sleep := fun r _ => by
      rcases eq_or_ne r d with rfl | hr
      · simp [World.setResident]
      · rw [other r hr]
    idling := fun r _ hr => by rw [other r fun h => hr (h ▸ hd)]
    tasks := sameTasks_same rfl rfl }

/-! ## Statements that start no worker -/

instance : ErrandVocabulary SameTasks := .mono fun _ _ => Mute.tasks

instance : QueueVocabulary SameTasks where
  trans := SameTasks.trans
  queue := fun w f => (mute_setQueue w f).tasks
  flagged := fun w s => (mute_flagEvicted w s).tasks
  alloc := fun w t x =>
    have h : Tends (fun _ => False) w (w.alloc t x) := tends_alloc t x w
    h.tasks
  attached := fun _ _ => sameTasks_same rfl rfl

instance : CaptureVocabulary SameTasks where
  latest := fun w v => by
    unfold World.setLatestKeepAlive World.mirror
    split <;> exact sameTasks_same rfl rfl
  captured := fun _ _ _ => sameTasks_same rfl rfl

instance : WalkVocabulary SameTasks where
  inflight := fun _ _ => sameTasks_same rfl rfl
  anchored := fun _ _ => sameTasks_same rfl rfl
  startRider := fun w _ s hk => (SeatVocabulary.startRider (A := Mute) w s hk).tasks
  cancelRider := fun w s => (SeatVocabulary.cancelRider (A := Mute) w s).tasks
  noted := fun _ _ _ => sameTasks_same rfl rfl
  seated := fun _ _ => sameTasks_same rfl rfl

/-! ## Programs of a class that has submissions, evictions and reservations -/

section

variable {C : Config} {A : World → World → Prop} [V : ErrandVocabulary A] [Q : QueueVocabulary A]
  (hm : ∀ w w', Mute w w' → A w w') (hr : ∀ tag x w, A w (w.reserve tag x))

include hm hr

omit Q in
theorem lax_routeOrReserve (s : Nat) : Lax A (routeOrReserve C s) := by
  have evict : ∀ r, Lax A (beginEvictLocked r) := fun r =>
    (lax_beginEvictLocked r).mono hm fun _ => id
  have reserve : Lax A (reserveAndStart C s) :=
    ⟨V.refl, fun x => ⟨(calm_readModelFootprint _).lax, fun fp =>
      ⟨(calm_vramAdmits fp).lax, fun b => only_ite.mpr
        ⟨fun _ => ⟨only_mark.mpr trivial, fun _ => ⟨V.refl, fun port =>
          ⟨only_monotonic.mpr trivial, fun now => hr _ _⟩⟩⟩,
          fun _ => only_failCompletionFuture.mpr trivial⟩⟩⟩⟩
  refine ⟨V.refl, fun x => ?_⟩
  obtain ⟨r, live, victim⟩ := x
  cases r with
  | some r => exact (calm_routeHit r s).lax
  | none =>
      refine only_ite.mpr ⟨fun _ => ?_, fun _ => reserve⟩
      cases victim with
      | none => exact (calm_deferUnroutable s).lax
      | some v => exact ⟨evict v, fun _ => reserve⟩

variable {P : Outline (system C)} {t : Nat} {I : World → World → Prop}
  (F : Frames P t I A fun _ => True)

include F

omit V hr in
/-- A class that has them is what all tasks but the worker are written in. -/
theorem errands_of_class : Errands C P t I A fun _ => True where
  frames := F
  popMatchedThread := fun th tag => F.keeps (calm_popMatchedThread th tag).lax
  enqueue := fun s => F.keeps (calm_enqueue C s).lax
  enqueueHead := fun s => F.keeps (calm_enqueueHead s).lax
  closeQueue := F.keeps calm_closeQueue.lax
  allocSlot := fun x _ => F.keeps (calm_allocSlot t x).lax
  attachEvents := fun s => F.keeps fun w =>
    hm _ _ (mute_setSlot w s (f := Slot.attachEvents) fun _ => rfl)
  beginEvict := fun r => F.keeps ((lax_beginEvictLocked r).mono hm fun _ => id)
  claimTeardown := fun r => F.keeps ((lax_claimTeardown r).mono hm fun _ => id)

/-- And the dispatcher is. -/
theorem keeps_dispatcher : Keeps P t I (dispatchLoop C) :=
  keeps_routingLoop F (fun tag => F.keeps (calm_popNext C tag).lax)
    fun s => F.keeps (lax_routeOrReserve hm hr s)

end

/-! ## The segments of every task -/

/-- Task `u` drives resident `r`. -/
def World.drives (w : World) (u : Option Nat) (r : Nat) : Prop :=
  ∃ t, u = some t ∧ (w.task t).kind = .driver r

/-- There is no worker but the first task. -/
def OneWorker (w : World) : Prop := ∀ t < w.taskCount, (w.task t).kind = .worker → t = workerTask

theorem OneWorker.step {w w' : World} (h : OneWorker w) (ht : SameTasks w w') : OneWorker w' := by
  intro t hlt hk
  rcases Nat.lt_or_ge t w.taskCount with hw | hw
  · exact h t hw ((ht.kind t hw).symm.trans hk)
  · exact absurd hk (ht.new t hlt hw)

/-- All tasks keep the same, each with the residents of its own, but for the
serial worker. -/
def tending (C : Config) : Outline (system C) where
  cond := Admit.any _
  base := fun _ => True
  inv := OneWorker
  guar := fun u w w' => SameTasks w w' ∧
    ((u = some workerTask → 2 ≤ C.maxParallelSidecars) → Tends (w.drives u) w w')

section

variable {C : Config} {t : Nat} {k : Kind} {s w : World}

theorem rely_sameTasks {w w' : World} (h : (tending C).Rely t w w') : SameTasks w w' := by
  refine h.keeps (R := SameTasks) SameTasks.refl (fun _ _ _ => SameTasks.trans) ?_
  intro u w w' _ _ _ hg
  exact hg.1

theorem frames_oneWorker (hc : C.maxParallelSidecars < 2) :
    Frames (tending C) workerTask (fun s w => OneWorker w ∧ SameTasks s w) SameTasks
      fun _ => True where
  act := fun h hi => ⟨hi.1.step h, hi.2.trans h⟩
  ask := fun o _ _ w hi r _ _ =>
    have h := (mute_answer workerTask o r w).tasks
    ⟨hi.1.step h, hi.2.trans h⟩
  await := fun o _ s w hi => by
    have h := (mute_issue workerTask o w).tasks
    refine ⟨⟨hi.1.step h, hi.2.trans h, fun hw => ?_⟩, fun w' _ hg r _ _ => ?_⟩
    · exact absurd (hw rfl) (Nat.not_le.mpr hc)
    · have h' := (mute_answer workerTask o r w').tasks
      exact ⟨hg.1.step h', h'⟩

/-- The task is of kind `k`, and has tended its own residents at most. -/
structure AtTask (t : Nat) (k : Kind) (s w : World) : Prop where
  one : OneWorker w
  lt : t < s.taskCount
  kind : (s.task t).kind = k
  tends : Tends (fun r => k = .driver r) s w

theorem AtTask.step {w' : World} (h : AtTask t k s w)
    (ht : Tends (fun r => k = .driver r) w w') : AtTask t k s w' :=
  ⟨h.one.step ht.tasks, h.lt, h.kind, h.tends.trans ht⟩

/-- What the task owes when it suspends. -/
theorem AtTask.guar (h : AtTask t k s w) : (tending C).guar (some t) s w := by
  refine ⟨h.tends.tasks, fun _ => ?_⟩
  have own : s.drives (some t) = fun r => k = .driver r := by
    funext r
    refine propext ⟨?_, fun hr => ⟨t, rfl, h.kind.trans hr⟩⟩
    rintro ⟨u, hu, hr⟩
    rw [← h.kind, Option.some.inj hu]
    exact hr
  rw [own]
  exact h.tends

theorem AtTask.rely {w' : World} (h : AtTask t k s w) (hr : (tending C).Rely t w w')
    (hg : (tending C).Good w') : AtTask t k w' w' := by
  have ht := rely_sameTasks hr
  have hlt : t < w.taskCount := Nat.lt_of_lt_of_le h.lt h.tends.tasks.count
  refine ⟨hg.1, Nat.lt_of_lt_of_le hlt ht.count, ?_, .refl w'⟩
  rw [ht.kind t hlt, h.tends.tasks.kind t h.lt]
  exact h.kind

theorem frames_atTask :
    Frames (tending C) t (AtTask t k) (Tends fun r => k = .driver r) fun _ => True where
  act := fun h hi => hi.step h
  ask := fun o _ _ w hi r _ _ => hi.step (mute_answer t o r w).tends
  await := fun o _ s w hi => by
    have h := hi.step (mute_issue t o w).tends
    exact ⟨⟨h.one, h.guar⟩, fun w' hr hg r _ _ =>
      (h.rely hr hg).step (mute_answer t o r w').tends⟩

/-- A worker at cap 1 starts no other. -/
theorem keeps_serialWorker (hc : C.maxParallelSidecars < 2) :
    Keeps (tending C) workerTask (fun s w => OneWorker w ∧ SameTasks s w)
      (program C workerTask .worker) := by
  have F := frames_oneWorker hc
  have hm : ∀ w w', Mute w w' → SameTasks w w' := fun _ _ => Mute.tasks
  have hr : ∀ tag x w, SameTasks w (w.reserve tag x) := fun tag x w =>
    have h : Tends (fun _ => False) w (w.reserve tag x) := tends_reserve tag x w
    h.tasks
  exact keeps_workerLoop
    { toErrands := errands_of_class hm F
      popNext := fun tag => F.keeps (calm_popNext C tag).lax
      routeOrReserve := fun s => F.keeps (lax_routeOrReserve hm hr s) }

/-- All other tasks tend their own residents, the dispatcher among them. -/
theorem keeps_atTask (h : k = .worker → 2 ≤ C.maxParallelSidecars) :
    Keeps (tending C) t (AtTask t k) (program C t k) := by
  have F := frames_atTask (C := C) (t := t) (k := k)
  have hm : ∀ w w', Mute w w' → Tends (fun r => k = .driver r) w w' := fun _ _ => Mute.tends
  by_cases hw : k = .worker
  · rw [hw] at F hm ⊢
    show Keeps _ _ _ (workerLoop C)
    rw [workerLoop, if_pos (h hw)]
    exact keeps_dispatcher hm (fun tag x w => tends_reserve tag x w) F
  · refine (errands_of_class hm F).program ?_ hw fun r hr => captures_tends hr
    cases k <;> trivial

theorem fresh_lt {k : Kind} (h : fresh w t = some k) : t < w.taskCount := by
  unfold fresh at h
  split at h
  · next hc =>
      simp only [Bool.and_eq_true, decide_eq_true_eq] at hc
      exact hc.1.1
  · cases h

theorem tending_verified (C : Config) : (tending C).Verified initial where
  init := fun t ht _ => Nat.lt_one_iff.mp ht
  start := fun t w k r hg hf _ _ => by
    have hk : (w.task t).kind = k := fresh_kind hf
    have hlt := fresh_lt hf
    by_cases hs : k = .worker ∧ C.maxParallelSidecars < 2
    · obtain ⟨hw, hc⟩ := hs
      have ht : t = workerTask := hg.1 t hlt (hk.trans hw)
      subst ht hw
      have body : Keeps (tending C) workerTask (fun s w => OneWorker w ∧ SameTasks s w)
          (taskBody C workerTask .worker r) := by
        unfold taskBody
        exact Keeps.ite (.throw _) (keeps_serialWorker hc)
      have h := (mute_answer workerTask .entry r w).tasks
      refine wp_mono (fun x s w' hx => ?_) (body w _ ⟨hg.1.step h, h⟩)
      have hf := (mute_finished workerTask x w').tasks
      exact ⟨hx.1.step hf, hx.2.trans hf, fun h2 => absurd (h2 rfl) (Nat.not_le.mpr hc)⟩
    · have body : Keeps (tending C) t (AtTask t k) (taskBody C t k r) := by
        unfold taskBody
        exact Keeps.ite (.throw _) (keeps_atTask fun hw => Nat.not_lt.mp fun hc => hs ⟨hw, hc⟩)
      refine wp_mono (fun x s w' hx => ?_)
        (body w _ ⟨hg.1.step (mute_answer t .entry r w).tasks, hlt, hk,
          (mute_answer t .entry r w).tends⟩)
      have h := hx.step (mute_finished t x w').tends
      exact ⟨h.one, h.guar⟩
  env := fun e w w' hg _ h =>
    have h := mute_envStep h
    ⟨hg.1.step h.tasks, h.tasks, fun _ => h.tends⟩

end

/-- In every run, a turn of any task but the serial worker submits, reserves and
starts tasks at most, and captures for the resident it drives. -/
theorem turn_tends (C : Config) {t : Nat} {c c' : Loop sig} (h : Reachable C (Admit.any _) c)
    (ht : Loop.Turn (Admit.any (system C)) t c c') (hc' : c'.current = none)
    (hw : t = workerTask → 2 ≤ C.maxParallelSidecars) :
    Tends (c.world.drives (some t)) c.world c'.world :=
  ((tending C).turn (tending_verified C) (fun _ _ _ => trivial) h ht hc').2
    fun hu => hw (Option.some.inj hu)

end Turbohaul
