/-
# `Quiet` — statements that leave the sidecars alone

Who owns which sidecar is decided by few statements: the spawns, the reaps,
and the assignments to `_active_handle`, to the idle holder, to a resident's
handle and to the registry.  All others are quiet.  `processes` is the part of
the world that a quiet statement does not change, and `Quiet` says so of one
statement; `Only Quiet QuietOp m` says it of a whole program.

`Tame` is what any statement keeps about asyncio's tasks: the bookkeeping of
the drains names tasks that touch no sidecar, and only tasks that may be asked
to cancel are.
-/
import Turbohaul.Vocabulary

namespace Turbohaul

open Coop

/-! ## Tasks -/

/-- Tasks that somebody cancels: the quiet ones, the background ones, and the
ones `shutdown` stops. -/
def Kind.cancellable : Kind → Bool
  | .shutdown | .idleTeardown | .shieldedSigterm _ => false
  | _ => true

/-- The task table has only grown, by quiet tasks. -/
structure TasksGrow (w w' : World) : Prop where
  count : w.taskCount ≤ w'.taskCount
  kind : ∀ t < w.taskCount, (w'.task t).kind = (w.task t).kind
  started : ∀ t < w.taskCount, (w.task t).started = true → (w'.task t).started = true
  outcome : ∀ t < w.taskCount, (w'.task t).outcome = (w.task t).outcome
  new : ∀ t < w'.taskCount, w.taskCount ≤ t →
    (w'.task t).kind.quiet = true ∧ (w'.task t).outcome = none

theorem TasksGrow.refl (w : World) : TasksGrow w w :=
  ⟨Nat.le_refl _, fun _ _ => rfl, fun _ _ h => h, fun _ _ => rfl, fun t h h' => absurd h (by omega)⟩

/-- What is kept about tasks by every statement. -/
structure Tame (w : World) : Prop where
  riders : ∀ e ∈ w.hold.riderTasks, e.2 < w.taskCount ∧ (w.task e.2).kind.quiet = true
  inFlight : ∀ r, ∀ e ∈ (w.resident r).tasks,
    e.1 < w.taskCount ∧ (w.task e.1).kind.quiet = true
  drivers : ∀ r t, (w.resident r).driverTask = some t →
    t < w.taskCount ∧ (w.task t).kind = .driver r
  cancel : ∀ t, (w.task t).cancelRequested = true → (w.task t).kind.cancellable = true
  worker : 0 < w.taskCount ∧ (w.task workerTask).kind = .worker
  onlyWorker : ∀ t < w.taskCount, (w.task t).kind = .worker → t = workerTask

theorem Kind.quiet_cancellable {k : Kind} (h : k.quiet = true) : k.cancellable = true := by
  cases k <;> first | rfl | cases h

/-! ## The part of the world the sidecars live in -/

/-- Spawns, among the events. -/
def Event.isSpawn : Event → Bool
  | .spawning _ _ _ => true
  | _ => false

/-- What a quiet statement does not change. -/
structure Processes where
  spawned : Nat
  reaped : Nat → Bool
  port : Nat → Nat
  reaping : List (Nat × Nat)
  begun : List Nat
  broken : List Nat
  active : Option Nat
  idle : Option Nat
  spawns : List Event
  registry : List (String × Nat)
  residentCount : Nat
  lease : Nat → Lease
  stopEvent : Bool

def World.processes (w : World) : Processes :=
  { spawned := w.procs.spawned
    reaped := fun p => (w.procs.proc p).reaped
    port := fun p => (w.procs.proc p).port
    reaping := w.procs.reaping
    begun := w.procs.begun
    broken := w.procs.broken
    active := w.hold.activeHandle
    idle := w.hold.idleHandle
    spawns := w.trace.filter Event.isSpawn
    registry := w.registry
    residentCount := w.residentCount
    lease := fun r => (w.resident r).lease
    stopEvent := w.stopEvent }

/-- What a quiet statement does: nothing to the sidecars, and only new quiet
tasks. -/
structure Unmoved (w w' : World) : Prop where
  processes : w'.processes = w.processes
  tasks : TasksGrow w w'
  tame : Tame w'

/-- A statement that leaves the sidecars alone. -/
def Quiet (w w' : World) : Prop := Tame w → Unmoved w w'

theorem Quiet.refl (w : World) : Quiet w w := fun T => ⟨rfl, .refl w, T⟩

theorem TasksGrow.trans {a b c : World} (h : TasksGrow a b) (h' : TasksGrow b c) :
    TasksGrow a c where
  count := Nat.le_trans h.count h'.count
  kind := fun t ht => (h'.kind t (Nat.lt_of_lt_of_le ht h.count)).trans (h.kind t ht)
  started := fun t ht hs => h'.started t (Nat.lt_of_lt_of_le ht h.count) (h.started t ht hs)
  outcome := fun t ht =>
    (h'.outcome t (Nat.lt_of_lt_of_le ht h.count)).trans (h.outcome t ht)
  new := fun t ht hn => by
    by_cases hb : t < b.taskCount
    · rw [h'.kind t hb, h'.outcome t hb]
      exact h.new t hb hn
    · exact h'.new t ht (by omega)

theorem Quiet.trans {a b c : World} (h : Quiet a b) (h' : Quiet b c) : Quiet a c := fun T =>
  have hb := h T
  have hc := h' hb.tame
  ⟨hc.processes.trans hb.processes, hb.tasks.trans hc.tasks, hc.tame⟩

/-! ## Quiet assignments -/

/-- A task table that has grown stays tame when the drains' notes name only
old entries or quiet tasks. -/
theorem Quiet.note {w w₁ w' : World} (h : Quiet w w₁) (hp : w'.processes = w₁.processes)
    (ht : w'.task = w₁.task) (hc : w'.taskCount = w₁.taskCount)
    (hr : ∀ e ∈ w'.hold.riderTasks, e ∈ w₁.hold.riderTasks ∨
      e.2 < w₁.taskCount ∧ (w₁.task e.2).kind.quiet = true)
    (hf : ∀ r, ∀ e ∈ (w'.resident r).tasks, e ∈ (w₁.resident r).tasks ∨
      e.1 < w₁.taskCount ∧ (w₁.task e.1).kind.quiet = true) : Quiet w w' := by
  intro T
  obtain ⟨hp₁, ht₁, T₁⟩ := h T
  have hd : ∀ r, (w'.resident r).driverTask = (w₁.resident r).driverTask := fun r =>
    congrArg (fun x : Processes => (x.lease r).driverTask) hp
  refine ⟨hp.trans hp₁, ?_, ?_⟩
  · exact
      { count := hc ▸ ht₁.count
        kind := by rw [ht]; exact ht₁.kind
        started := by rw [ht]; exact ht₁.started
        outcome := by rw [ht]; exact ht₁.outcome
        new := by rw [ht, hc]; exact ht₁.new }
  · exact
      { riders := fun e he => by
          rw [hc, ht]
          exact (hr e he).elim (T₁.riders e) id
        inFlight := fun r e he => by
          rw [hc, ht]
          exact (hf r e he).elim (T₁.inFlight r e) id
        drivers := fun r t => by
          rw [hd, hc, ht]
          exact T₁.drivers r t
        cancel := by rw [ht]; exact T₁.cancel
        worker := by rw [hc, ht]; exact T₁.worker
        onlyWorker := by rw [hc, ht]; exact T₁.onlyWorker }

/-- An assignment that changes neither the task table nor what the sidecars
and the drains look at. -/
theorem Quiet.of_same {w w' : World} (hp : w'.processes = w.processes)
    (ht : w'.task = w.task) (hc : w'.taskCount = w.taskCount)
    (hr : ∀ e ∈ w'.hold.riderTasks, e ∈ w.hold.riderTasks)
    (hf : ∀ r, ∀ e ∈ (w'.resident r).tasks, e ∈ (w.resident r).tasks) : Quiet w w' :=
  (Quiet.refl w).note hp ht hc (fun e he => .inl (hr e he)) fun r e he => .inl (hf r e he)

theorem quiet_setSlot (w : World) (s : Nat) (f : Slot → Slot) : Quiet w (w.setSlot s f) :=
  .of_same rfl rfl rfl (fun _ => id) fun _ _ => id

theorem quiet_setQueue (w : World) (f : Queue → Queue) : Quiet w (w.setQueue f) :=
  .of_same rfl rfl rfl (fun _ => id) fun _ _ => id

/-- An event that is not a spawn. -/
theorem quiet_record (w : World) (e : Event) (he : e.isSpawn = false) : Quiet w (w.record e) :=
  .of_same (by simp [World.processes, World.record, he]) rfl rfl (fun _ => id) fun _ _ => id

/-- An assignment to the holder, other than to its two handles. -/
theorem quiet_setHold (w : World) (f : Holder → Holder)
    (ha : (f w.hold).activeHandle = w.hold.activeHandle)
    (hi : (f w.hold).idleHandle = w.hold.idleHandle)
    (hr : ∀ e ∈ (f w.hold).riderTasks, e ∈ w.hold.riderTasks) : Quiet w (w.setHold f) :=
  .of_same (by simp [World.processes, World.setHold, ha, hi]) rfl rfl hr fun _ _ => id

theorem lease_setResident {w : World} {r : Nat} {f : Resident → Resident}
    (hl : (f (w.resident r)).lease = (w.resident r).lease) :
    (w.setResident r f).processes = w.processes := by
  have : (fun q => ((w.setResident r f).resident q).lease) = fun q => (w.resident q).lease := by
    funext q
    by_cases hq : q = r
    · subst hq
      simp [World.setResident, hl]
    · simp [World.setResident, setAt_of_ne hq]
  simp only [World.processes, this]
  rfl

/-- An assignment to a resident that keeps its lease. -/
theorem quiet_setResident (w : World) (r : Nat) (f : Resident → Resident)
    (hl : (f (w.resident r)).lease = (w.resident r).lease)
    (ht : ∀ e ∈ (f (w.resident r)).tasks, e ∈ (w.resident r).tasks) :
    Quiet w (w.setResident r f) := by
  refine .of_same (lease_setResident hl) rfl rfl (fun _ => id) fun q e he => ?_
  by_cases hq : q = r
  · subst hq
    simp only [World.setResident, setAt_self] at he
    exact ht e he
  · simpa [World.setResident, setAt_of_ne hq] using he

/-- The mirror of an assignment that keeps the lease. -/
theorem quiet_mirror (w : World) (f : Resident → Resident)
    (hl : ∀ x : Resident, (f x).lease = x.lease)
    (ht : ∀ x : Resident, ∀ e ∈ (f x).tasks, e ∈ x.tasks) : Quiet w (w.mirror f) := by
  unfold World.mirror
  split
  · exact quiet_setResident w _ f (hl _) (ht _)
  · exact .refl w

/-- A change to one task's record that keeps its kind and its outcome, and does
not undo its start. -/
theorem quiet_setTask (w : World) (t : Nat) (f : TaskRec → TaskRec)
    (hk : (f (w.task t)).kind = (w.task t).kind)
    (ho : (f (w.task t)).outcome = (w.task t).outcome)
    (hs : (w.task t).started = true → (f (w.task t)).started = true)
    (hc : Tame w → (f (w.task t)).cancelRequested = true →
      (w.task t).kind.cancellable = true) : Quiet w (w.setTask t f) := by
  intro T
  have kind : ∀ u, ((w.setTask t f).task u).kind = (w.task u).kind := by
    intro u
    by_cases hu : u = t
    · subst hu
      simp [World.setTask, hk]
    · simp [World.setTask, setAt_of_ne hu]
  have outcome : ∀ u, ((w.setTask t f).task u).outcome = (w.task u).outcome := by
    intro u
    by_cases hu : u = t
    · subst hu
      simp [World.setTask, ho]
    · simp [World.setTask, setAt_of_ne hu]
  have started : ∀ u, (w.task u).started = true → ((w.setTask t f).task u).started = true := by
    intro u h
    by_cases hu : u = t
    · subst hu
      simp [World.setTask, hs h]
    · simp [World.setTask, setAt_of_ne hu, h]
  refine ⟨rfl, ⟨Nat.le_refl _, fun u _ => kind u, fun u _ => started u, fun u _ => outcome u,
    fun u h h' => absurd h (by simp only [World.setTask]; omega)⟩, ?_⟩
  refine
    { riders := fun e he => ⟨(T.riders e he).1, by rw [kind]; exact (T.riders e he).2⟩
      inFlight := fun r e he =>
        ⟨(T.inFlight r e he).1, by rw [kind]; exact (T.inFlight r e he).2⟩
      drivers := fun r u h => ⟨(T.drivers r u h).1, by rw [kind]; exact (T.drivers r u h).2⟩
      cancel := fun u h => ?_
      worker := ⟨T.worker.1, by rw [kind]; exact T.worker.2⟩
      onlyWorker := fun u h hk' => T.onlyWorker u h (by rwa [kind] at hk') }
  rw [kind]
  by_cases hu : u = t
  · subst hu
    simp only [World.setTask, setAt_self] at h
    exact hc T h
  · simp only [World.setTask, setAt_of_ne hu] at h
    exact T.cancel u h

/-- `task.cancel()`, of a task that may be cancelled. -/
theorem quiet_cancelTask (w : World) (t : Nat)
    (hc : Tame w → (w.task t).kind.cancellable = true) : Quiet w (w.cancelTask t) := by
  refine quiet_setTask w t _ ?_ ?_ ?_ fun T _ => hc T
  · split <;> rfl
  · split <;> rfl
  · split <;> exact fun h => h

/-- Cancelling several tasks, each of which may be cancelled. -/
theorem quiet_cancelAll {α : Type} (f : α → Nat) : ∀ (xs : List α) (w : World),
    (Tame w → ∀ x ∈ xs, f x < w.taskCount ∧ (w.task (f x)).kind.cancellable = true) →
    Quiet w (xs.foldl (fun w x => w.cancelTask (f x)) w)
  | [], w, _ => .refl w
  | x :: xs, w, h => fun T =>
      have hx := quiet_cancelTask w (f x) fun T => (h T x List.mem_cons_self).2
      have hq := quiet_cancelAll f xs (w.cancelTask (f x)) fun _ y hy => by
        obtain ⟨hlt, hk⟩ := h T y (List.mem_cons_of_mem x hy)
        exact ⟨Nat.lt_of_lt_of_le hlt (hx T).tasks.count, by rwa [(hx T).tasks.kind _ hlt]⟩
      hx.trans hq T

/-- `create_task`, of a quiet task. -/
theorem quiet_fork (w : World) (k : Kind) (hk : k.quiet = true) : Quiet w (w.fork k) := by
  intro T
  have old : ∀ t < w.taskCount, (w.fork k).task t = w.task t := by
    intro t ht
    simp only [World.fork]
    exact setAt_of_ne (by omega)
  refine ⟨rfl, ⟨Nat.le_succ _, fun t ht => by rw [old t ht], fun t ht h => by rwa [old t ht],
    fun t ht => by rw [old t ht], fun t ht hn => ?_⟩, ?_⟩
  · have : t = w.taskCount := by
      simp only [World.fork] at ht
      omega
    subst this
    simp [World.fork, hk]
  · refine
      { riders := fun e he => ?_
        inFlight := fun r e he => ?_
        drivers := fun r t h => ?_
        cancel := fun t h => ?_
        worker := ⟨Nat.succ_pos _, by rw [old workerTask T.worker.1]; exact T.worker.2⟩
        onlyWorker := fun t ht h => ?_ }
    · have he' := T.riders e he
      exact ⟨Nat.lt_succ_of_lt he'.1, by rw [old _ he'.1]; exact he'.2⟩
    · have he' := T.inFlight r e he
      exact ⟨Nat.lt_succ_of_lt he'.1, by rw [old _ he'.1]; exact he'.2⟩
    · have h' := T.drivers r t h
      exact ⟨Nat.lt_succ_of_lt h'.1, by rw [old _ h'.1]; exact h'.2⟩
    · by_cases ht : t = w.taskCount
      · subst ht
        simp [World.fork] at h
      · simp only [World.fork, setAt_of_ne ht] at h ⊢
        exact T.cancel t h
    · by_cases ht' : t = w.taskCount
      · subst ht'
        simp only [World.fork, setAt_self] at h
        subst h
        cases hk
      · simp only [World.fork, setAt_of_ne ht'] at h ht
        exact T.onlyWorker t (by omega) h

theorem quiet_startRider (w : World) (k : Kind) (s : Nat) (hk : k.quiet = true) :
    Quiet w (w.startRider k s) := by
  refine (quiet_fork w k hk).note rfl rfl rfl (fun e he => ?_) fun _ _ => .inl
  rcases List.mem_cons.mp he with rfl | he
  · exact .inr ⟨Nat.lt_succ_self _, by simp [World.fork, hk]⟩
  · exact .inl he

theorem quiet_startInFlight (w : World) (r : Nat) (k : Kind) (s : Nat) (hk : k.quiet = true) :
    Quiet w (w.startInFlight r k s) := by
  refine (quiet_fork w k hk).note (lease_setResident rfl) rfl rfl (fun _ => .inl)
    fun q e he => ?_
  by_cases hq : q = r
  · subst hq
    simp only [World.startInFlight, World.setResident, setAt_self, List.mem_cons] at he
    rcases he with rfl | he
    · exact .inr ⟨Nat.lt_succ_self _, by simp [World.fork, hk]⟩
    · exact .inl he
  · simp only [World.startInFlight, World.setResident, setAt_of_ne hq] at he
    exact .inl he

/-- A key that is looked up is in the list. -/
theorem mem_of_lookup {α β : Type} [BEq α] [LawfulBEq α] {k : α} {v : β} :
    ∀ {xs : List (α × β)}, xs.lookup k = some v → (k, v) ∈ xs
  | (a, b) :: xs, h => by
      rw [List.lookup_cons] at h
      split at h
      · next hk =>
          cases h
          rw [eq_of_beq hk]
          exact List.mem_cons_self
      · exact List.mem_cons_of_mem _ (mem_of_lookup h)

theorem quiet_cancelRider (w : World) (s : Nat) : Quiet w (w.cancelRider s) := by
  unfold World.cancelRider
  split
  · next t ht =>
      exact quiet_cancelTask w t fun T => Kind.quiet_cancellable (T.riders _ (mem_of_lookup ht)).2
  · exact .refl w

theorem quiet_cancelInFlight (w : World) (r : Nat) : Quiet w (w.cancelInFlight r) :=
  quiet_cancelAll Prod.fst _ w fun T e he =>
    ⟨(T.inFlight r e he).1, Kind.quiet_cancellable (T.inFlight r e he).2⟩

/-! ## Quiet operations -/

theorem quiet_processExit (w : World) (p : Nat) : Quiet w (w.processExit p) := by
  refine .of_same ?_ rfl rfl (fun _ => id) fun _ _ => id
  have : ∀ q, ((w.processExit p).procs.proc q).reaped = (w.procs.proc q).reaped ∧
      ((w.processExit p).procs.proc q).port = (w.procs.proc q).port := by
    intro q
    by_cases hq : q = p
    · subst hq
      simp [World.processExit, World.setProcs]
    · simp [World.processExit, World.setProcs, setAt_of_ne hq]
  simp only [World.processes, fun q => (this q).1, fun q => (this q).2]
  rfl

theorem quiet_exits : ∀ (ps : List Nat) (w : World),
    Quiet w (ps.foldl (fun w p => w.processExit p) w)
  | [], w => .refl w
  | p :: ps, w => (quiet_processExit w p).trans (quiet_exits ps _)

theorem quiet_issue {o : Op} (ho : QuietOp o) (t : Nat) (w : World) : Quiet w (issue t o w) := by
  cases o with
  | sigterm p => exact ho.elim
  | reapPid p => exact ho.elim
  | complete site s p => exact quiet_record w _ rfl
  | inboxGetTimed r =>
      exact quiet_setResident w r (fun x => { x with getter := .waiting }) rfl fun _ h => h
  | _ => exact .refl w

theorem quiet_effect {o : Op} (ho : QuietOp o) (t : Nat) (r : Reply) (w : World) :
    Quiet w (effect t o r w) := by
  cases o with
  | spawn s port tag n => exact ho.elim
  | sigterm p => exact ho.elim
  | reapPid p => exact ho.elim
  | mark m =>
      cases r <;> first
        | exact .refl w
        | exact quiet_record w _ rfl
  | fail site s e =>
      cases r <;> first
        | exact .refl w
        | exact quiet_setSlot w s _
  | monotonic => cases r <;> exact .of_same rfl rfl rfl (fun _ h => h) fun _ _ h => h
  | upsertSlot s => cases r <;> exact .of_same rfl rfl rfl (fun _ h => h) fun _ _ h => h
  | markSlotEnded s x => cases r <;> exact .of_same rfl rfl rfl (fun _ h => h) fun _ _ h => h
  | audit s x => cases r <;> exact .of_same rfl rfl rfl (fun _ h => h) fun _ _ h => h
  | orphanReap known =>
      cases r <;> first
        | exact .refl w
        | exact quiet_exits _ w
  | complete site s p =>
      cases r <;> first
        | exact .refl w
        | exact quiet_record w _ rfl
  | streamDone site s p =>
      cases r <;> first
        | exact .refl w
        | exact quiet_record w _ rfl
  | future s =>
      cases r <;> first
        | exact .refl w
        | exact quiet_setSlot w s _
  | inboxGet q =>
      cases r <;> first
        | exact .refl w
        | exact quiet_setResident w q (fun x => { x with inbox := x.inbox.map List.tail }) rfl
            fun _ h => h
  | inboxGetTimed q =>
      cases r <;> exact quiet_setResident w q (fun x => { x with getter := .idle }) rfl
        fun _ h => h
  | _ => exact .refl w

theorem quiet_delivered (t : Nat) (o : Op) (w : World) : Quiet w (w.delivered t o) := by
  unfold World.delivered
  split
  · exact quiet_setTask _ t _ rfl rfl (fun _ => rfl) fun _ h => by cases h
  · split
    · exact quiet_setTask _ t _ rfl rfl (fun h => h) fun _ h => by cases h
    · exact .refl w

theorem quiet_answer {o : Op} (ho : QuietOp o) (t : Nat) (r : Reply) (w : World) :
    Quiet w (answer t o r w) :=
  (quiet_effect ho t r w).trans (quiet_delivered t o _)

/-- An assertion that quiet steps keep, and that implies what a suspension
owes and survives what the others do. -/
theorem frames_quiet {C : Config} {P : Outline (system C)} {t : Nat}
    {I : World → World → Prop} (hq : ∀ {s w w'}, Quiet w w' → I s w → I s w')
    (hs : ∀ {s w}, I s w → P.inv w ∧ P.guar (some t) s w)
    (hr : ∀ {s w w'}, I s w → P.Rely t w w' → P.Good w' → I w' w') :
    Frames P t I Quiet QuietOp where
  act := hq
  ask := fun _ ho _ w h r _ _ => hq (quiet_answer ho t r w) h
  await := fun _ ho _ w h =>
    have hi := hq (quiet_issue ho t w) h
    ⟨hs hi, fun w' hw hg r _ _ => hq (quiet_answer ho t r w') (hr hi hw hg)⟩

end Turbohaul
