/-
# `SingleWorker` — the serial worker and its one sidecar

Where the worker stands is said by what it holds (`Stance`):

    empty     no active handle: between two slots, and until a sidecar is there
    vacant    and no idle holder either: ready to spawn
    holding   the idle holder is taken or gone: a slot is being served
    anyhow    the slot is over, and its `finally` has to sort it out

A cancellation may lose a sidecar: the swap of a model lets go of the idle
holder before it waits for the SIGTERM.  The worker then ends without another
suspension, so that nobody sees it (`Lost`).
-/
import Turbohaul.SingleSteps

namespace Turbohaul

open Coop

variable {C : Config}

/-- Every shielded SIGTERM is over. -/
def World.Calm (w : World) : Prop :=
  ∀ t < w.taskCount, ∀ p, (w.task t).kind = .shieldedSigterm p → w.taskDone t = true

/-- What may be held, as the active handle and by the idle holder.  The idle
holder may be cleared at any time, and the handle may be let go of. -/
structure Stance where
  holds : Option Nat → Option Nat → Prop
  clear : ∀ {a i}, holds a i → holds a none
  drop : ∀ {a i}, holds a i → holds none i

namespace Stance

def empty : Stance := ⟨fun a _ => a = none, id, fun _ => rfl⟩
def vacant : Stance := ⟨fun a i => a = none ∧ i = none, fun h => ⟨h.1, rfl⟩, fun h => ⟨rfl, h.2⟩⟩
def holding : Stance := ⟨fun _ i => i = none, fun _ => rfl, id⟩
def anyhow : Stance := ⟨fun _ _ => True, id, id⟩

end Stance

/-- The worker is calm and stands so. -/
def Stands (Φ : Stance) (w : World) : Prop :=
  w.Calm ∧ Φ.holds w.hold.activeHandle w.hold.idleHandle

/-- The worker's assertion. -/
def AtWork (Φ : Stance) (s w : World) : Prop :=
  Own workerTask s w ∧ w.Kept ∧ Stands Φ w

/-- The worker is about to end, and may have lost a sidecar. -/
def Lost (s w : World) : Prop :=
  Own workerTask s w ∧ w.Calm ∧ (w.Kept ∨ w.hold.activeHandle = none)

/-- One assertion for a cancellation, another for every other outcome. -/
def Unless {α : Type} (A B : World → World → Prop) : Post sig α
  | .error .cancelled => B
  | _ => A

theorem AtWork.mono {Φ Ψ : Stance} (h : ∀ {a i}, Φ.holds a i → Ψ.holds a i) {s w : World}
    (H : AtWork Φ s w) : AtWork Ψ s w := ⟨H.1, H.2.1, H.2.2.1, h H.2.2.2⟩

theorem AtWork.anyhow {Φ : Stance} {s w : World} (H : AtWork Φ s w) : AtWork .anyhow s w :=
  H.mono fun _ => trivial

theorem AtWork.lost {Φ : Stance} {s w : World} (H : AtWork Φ s w) : Lost s w :=
  ⟨H.1, H.2.2.1, .inl H.2.1⟩

theorem AtWork.owned {Φ : Stance} {s w : World} (H : AtWork Φ s w) : w.Owned :=
  H.2.1.resolve_left (by rw [H.1.undone]; intro h; cases h)

theorem calm_passive {w w' : World} (hp : Passive workerTask w w') (hc : w.Calm) : w'.Calm := by
  intro t ht p hk
  by_cases ho : t < w.taskCount
  · rw [hp.kind t ho] at hk
    exact hp.done ho (hc t ho p hk)
  · exact absurd hk ((hp.bystander rfl).shields t ht (by omega) p)

theorem local_stands (Φ : Stance) : Local workerTask (Stands Φ) where
  passive := by
    intro w w' S hp h
    have hb := hp.bystander rfl
    refine ⟨calm_passive hp h.1, ?_⟩
    rw [hb.active]
    rcases hb.idle with e | e
    · rw [e]
      exact h.2
    · rw [e]
      exact Φ.clear h.2

/-- Quiet programs leave the worker where it stands. -/
theorem frames_stands (Φ : Stance) :
    Frames (single C) workerTask (AtWork Φ) Quiet QuietOp :=
  frames_own (local_stands Φ)

theorem mayReap_worker {w : World} (T : Tame w) : w.mayReap workerTask := by
  rw [World.mayReap, T.worker.2]
  trivial

/-! ## Letting go of the active handle -/

/-- The active sidecar is gone, or the idle holder has it. -/
def World.spent (w : World) : Prop :=
  ∀ p, w.hold.activeHandle = some p →
    (w.procs.proc p).reaped = true ∨ w.hold.idleHandle = some p

theorem atWork_letGo {Φ : Stance} {s w : World} (H : AtWork Φ s w) (hs : w.spent) :
    AtWork Φ s (w.setActiveHandle none) ∧ (w.setActiveHandle none).hold.activeHandle = none := by
  have hold : (w.setActiveHandle none).hold = { w.hold with activeHandle := none } := by
    simp [World.setActiveHandle, World.setHold]
  have procs : (w.setActiveHandle none).procs = w.procs := by
    simp [World.setActiveHandle, World.setHold]
  have task : (w.setActiveHandle none).task = w.task := by
    simp [World.setActiveHandle, World.setHold]
  have count : (w.setActiveHandle none).taskCount = w.taskCount := by
    simp [World.setActiveHandle, World.setHold]
  refine ⟨⟨own_setActiveHandle H.1 none (by rintro _ ⟨⟩), .inr fun p hp => ?_, ?_, ?_⟩,
    by rw [hold]⟩
  · rw [World.undead, procs] at hp
    rw [procs, hold]
    rcases H.owned p hp with ha | hi | hr
    · rcases hs p ha with hd | hi
      · rw [hp.2] at hd
        cases hd
      · exact .inr (.inl hi)
    · exact .inr (.inl hi)
    · exact .inr (.inr hr)
  · simp only [World.Calm, World.taskDone, task, count]
    exact H.2.2.1
  · rw [hold]
    exact Φ.drop H.2.2.2

/-- The SIGTERM of the active sidecar, however it ends. -/
theorem wp_sigterm_active {Φ : Stance} {p : Nat} {Q : Post sig Unit} {s w : World}
    (H : AtWork Φ s w) (ha : w.hold.activeHandle = some p)
    (hok : ∀ s w, AtWork Φ s w → w.hold.activeHandle = some p →
      (w.procs.proc p).reaped = true → Q (.ok ()) s w)
    (hca : ∀ s w, AtWork Φ s w → Q (.error .cancelled) s w) :
    wp (single C) workerTask (sigterm p) Q s w := by
  refine wp_sigterm H.1 (H.2.1.but p) (mayReap_worker H.1.single.tame) ?_ ?_
  · intro s' w' O hk hp hr
    have hs := (local_stands Φ).passive H.1.single hp H.2.2
    exact hok s' w' ⟨O, hk, hs⟩ ((hp.bystander rfl).active.trans ha) hr
  · intro _ s' w' O hk hp
    have hs := (local_stands Φ).passive H.1.single hp H.2.2
    exact hca s' w' ⟨O, hk.kept (.inl ((hp.bystander rfl).active.trans ha)), hs⟩

theorem keeps_reapOwned (Φ : Stance) (s : Nat) :
    Keeps (single C) workerTask (AtWork Φ) (reapOwned s) := by
  intro s₀ w H
  simp only [reapOwned, wp_gets_bind]
  split
  · next pid h =>
      have ha : w.hold.activeHandle = some pid := (Prod.mk.inj h).2
      refine wp_tryExcept (wp_sigterm_active H ha (fun s w H ha hr => ?_) fun s w H => H)
      exact (atWork_letGo H fun q hq => .inl (by
        rw [ha] at hq
        cases hq
        exact hr)).1
  · exact H

theorem keeps_forceCold (Φ : Stance) (s : Nat) (reason : String) :
    Keeps (single C) workerTask (AtWork Φ) (forceCold s reason) := by
  have F := frames_stands (C := C) Φ
  exact .bind (keeps_reapOwned Φ s) fun _ => .bind (F.keeps (isQuiet_onSlot _ _)) fun _ =>
    .bind (F.keeps (only_markSlotEnded.mpr trivial)) fun _ =>
    F.keeps (only_auditEventOnlyAsync.mpr trivial)

/-- The worker stands so, and the active sidecar is gone. -/
def Gone (Φ : Stance) (w : World) : Prop :=
  Stands Φ w ∧ ∀ p, w.hold.activeHandle = some p → (w.procs.proc p).reaped = true

theorem local_gone (Φ : Stance) : Local workerTask (Gone Φ) where
  passive := by
    intro w w' S hp h
    refine ⟨(local_stands Φ).passive S hp h.1, fun p ha => ?_⟩
    rw [(hp.bystander rfl).active] at ha
    exact hp.reaped p (S.handles p (.inl ha)) (h.2 p ha)

theorem keeps_teardown (Φ : Stance) (s : Nat) (reason : String) :
    Keeps (single C) workerTask (AtWork Φ) (teardown C s reason) := by
  intro s₀ w H
  have F := frames_own (C := C) (local_gone Φ)
  have he : ∀ (_ : Exc Err) s w, (Own workerTask s w ∧ w.Kept ∧ Gone Φ w) → AtWork Φ s w :=
    fun _ _ _ h => ⟨h.1, h.2.1, h.2.2.1⟩
  simp only [teardown, wp_gets_bind]
  split
  · exact H
  · next pid ha =>
      refine wp_sigterm_active H ha (fun s₁ w₁ H₁ ha₁ hr₁ => ?_) fun s w H => H
      refine F.seq he (calm_gets _) (fun x => F.seq he (calm_computeExpectedDropMib _)
        fun drop => F.seq he (isQuiet_sync (o := .vramVerify drop) trivial) fun _ =>
        F.seq he (calm_orphanReapers C) fun _ => F.seq he (only_markSlotEnded.mpr trivial) fun _ =>
        F.seq he (only_auditEventOnlyAsync.mpr trivial) fun _ s w h => ?_) s₁ w₁
        ⟨H₁.1, H₁.2.1, H₁.2.2, fun q hq => ?_⟩
      · exact (atWork_letGo (he .cancelled s w h) fun q hq => .inl (h.2.2.2 q hq)).1
      · rw [ha₁] at hq
        cases hq
        exact hr₁

/-! ## The idle holder -/

theorem clearIdleHolder_hold (w : World) : w.clearIdleHolder.hold =
    { w.hold with idleHandle := none, idleModelTag := none, idleExpiresAt := none } := by
  simp [World.clearIdleHolder, World.setIdleHolder, World.setHold]

theorem setIdleHolder_procs (w : World) (h tag e) : (w.setIdleHolder h tag e).procs = w.procs := by
  simp [World.setIdleHolder, World.setHold]

theorem setIdleHolder_taskCount (w : World) (h tag e) :
    (w.setIdleHolder h tag e).taskCount = w.taskCount := by
  simp [World.setIdleHolder, World.setHold]

theorem setIdleHolder_task (w : World) (h tag e) : (w.setIdleHolder h tag e).task = w.task := by
  simp [World.setIdleHolder, World.setHold]

theorem calm_clearIdleHolder {w : World} (h : w.Calm) : w.clearIdleHolder.Calm := by
  simp only [World.Calm, World.taskDone, World.clearIdleHolder, setIdleHolder_task,
    setIdleHolder_taskCount]
  exact h

/-- Clearing the idle holder leaves its sidecar to whoever cleared it. -/
theorem keptBut_clearIdleHolder {w : World} {p : Nat} (hk : w.Kept)
    (hp : w.hold.idleHandle = some p) : w.clearIdleHolder.KeptBut p := by
  refine hk.imp (fun h => ?_) fun ho q hq => ?_
  · rw [World.taskDone, World.clearIdleHolder, setIdleHolder_task]
    exact h
  · rw [World.undead, World.clearIdleHolder, setIdleHolder_procs] at hq
    rw [clearIdleHolder_hold, World.clearIdleHolder, setIdleHolder_procs]
    rcases ho q hq with ha | hi | hr
    · exact .inr (.inl ha)
    · rw [hp] at hi
      cases hi
      exact .inl rfl
    · exact .inr (.inr (.inr hr))

/-- `_teardown_idle_holder`, in any task that may reap.  `L` is what the task
knows, `L'` what it knows once the holder is cleared.  Only a cancellation of
the SIGTERM can lose the sidecar. -/
theorem wp_teardownIdleHolder {t : Nat} {L L' : World → Prop} (hL' : Local t L')
    (hc : ∀ w, L w → L' w.clearIdleHolder) (hn : ∀ w, L w → w.hold.idleHandle = none → L' w)
    (hm : ∀ s w, Own t s w → L' w → w.mayReap t) {s w : World} (O : Own t s w) (hk : w.Kept)
    (hl : L w) :
    wp (single C) t (teardownIdleHolder C)
      (Unless (fun s w => Own t s w ∧ w.Kept ∧ L' w) fun s w =>
        Own t s w ∧ L' w ∧ (w.Kept ∨ (w.task t).kind.cancellable = true)) s w := by
  have F := frames_own (C := C) hL'
  have he : ∀ e s w, (Own t s w ∧ w.Kept ∧ L' w) →
      Unless (α := Unit) (fun s w => Own t s w ∧ w.Kept ∧ L' w) (fun s w =>
        Own t s w ∧ L' w ∧ (w.Kept ∨ (w.task t).kind.cancellable = true)) (.error e) s w := by
    intro e s w h
    cases e with
    | raised e => exact h
    | cancelled => exact ⟨h.1, h.2.2, .inl h.2.1⟩
  simp only [teardownIdleHolder, wp_gets_bind]
  split
  · next h => exact ⟨O, hk, hn w hl h⟩
  · next held h =>
      rw [wp_modify_bind]
      have O₁ := own_clearIdleHolder O
      have l₁ := hc w hl
      refine wp_sigterm O₁ (keptBut_clearIdleHolder hk h) (hm _ _ O₁ l₁) ?_ ?_
      · intro s' w' O' hk' hp _
        exact F.seq he (calm_computeExpectedDropMib _) (fun drop =>
          F.seq he (isQuiet_sync (o := .vramVerify drop) trivial) fun _ =>
          F.seq he (calm_orphanReapers C) fun _ s w h => wp_mono (fun r s w hr => by
            match r with
            | .ok a => exact hr
            | .error e => exact he e s w hr) (F.keeps (only_auditEventOnlyAsync.mpr trivial) s w h))
          s' w' ⟨O', hk', hL'.passive O₁.single hp l₁⟩
      · intro hcan s' w' O' _ hp
        refine ⟨O', hL'.passive O₁.single hp l₁, .inr ?_⟩
        rw [hp.kind t O₁.lt]
        exact hcan

/-! ## Acquiring a sidecar -/

/-- The worker has a sidecar in hand that is not yet the active handle. -/
def InHand (pid : Nat) (s w : World) : Prop :=
  Own workerTask s w ∧ w.Calm ∧ w.hold.idleHandle = none ∧
    (∀ q, w.undead q → q = pid ∨ ∃ t, (t, q) ∈ w.procs.reaping) ∧ pid < w.procs.spawned

/-- Nothing is being reaped where the worker spawns, unless a detached idle
teardown is. -/
theorem no_reaps {s w : World} (H : AtWork .vacant s w)
    (hi : ∀ e ∈ w.procs.reaping, (w.task e.1).kind ≠ .idleTeardown) : w.procs.reaping = [] := by
  refine List.eq_nil_iff_forall_not_mem.mpr fun e he => ?_
  obtain ⟨hlt, -, hd, hr⟩ := H.1.single.reapers e he
  rw [World.mayReap] at hr
  split at hr
  · next hk =>
      have := H.1.single.tame.onlyWorker _ hlt hk
      exact H.1.free e.2 (this ▸ he)
  · next hk => exact hi e he hk
  · next p hk =>
      rw [H.2.2.1 e.1 hlt p hk] at hd
      cases hd
  · rw [H.1.undone] at hr
    cases hr
  · exact hr

/-- The call of `_spawn`, where nothing is being reaped. -/
theorem atWork_callSpawn {s w : World} (H : AtWork .vacant s w) (hr : w.procs.reaping = [])
    (slot port : Nat) : AtWork .vacant s (w.callSpawn slot port) := by
  have O := H.1
  refine ⟨⟨⟨?_, O.single.serial, O.single.once, O.single.handles, O.single.reapers,
    O.single.shields, O.single.asleep, fun a b rs he => ?_⟩, ?_, O.lt, O.started, O.undone, O.free⟩,
    H.2.1, H.2.2⟩
  · exact O.single.tame.of_same rfl rfl rfl fun _ => ⟨rfl, rfl⟩
  · rcases List.mem_cons.mp he with he | he
    · cases he
      rw [hr]
      rfl
    · exact O.single.alone a b rs he
  · exact ⟨O.step.count, O.step.kind, O.step.started, O.step.outcome, O.step.entries,
      O.step.reaped, O.step.spawned, fun hu => absurd rfl hu⟩

/-- The spawn, where nothing else is undead. -/
theorem inHand_addSidecar {s w : World} (H : AtWork .vacant s w) (hr : w.procs.reaping = [])
    (port : Nat) (tag : String) (n : Nat) :
    InHand w.procs.spawned s (w.addSidecar port tag n) := by
  have S := H.1.single
  have gone : ∀ q, ¬ w.undead q := by
    intro q hq
    rcases H.owned q hq with ha | hi | ⟨t, ht⟩
    · rw [H.2.2.2.1] at ha
      cases ha
    · rw [H.2.2.2.2] at hi
      cases hi
    · rw [hr] at ht
      cases ht
  have old : ∀ q < w.procs.spawned,
      ((w.addSidecar port tag n).procs.proc q) = w.procs.proc q := fun q hq =>
    setAt_of_ne (Nat.ne_of_lt hq)
  have only : ∀ q, (w.addSidecar port tag n).undead q → q = w.procs.spawned := by
    rintro q ⟨hq, hd⟩
    by_contra hne
    have hlt : q < w.procs.spawned := by
      simp only [World.addSidecar, World.setProcs] at hq
      omega
    rw [old q hlt] at hd
    exact gone q ⟨hlt, hd⟩
  refine ⟨⟨?_, ?_, H.1.lt, H.1.started, H.1.undone, H.1.free⟩, H.2.2.1, H.2.2.2.2,
    fun q hq => .inl (only q hq), Nat.lt_succ_self _⟩
  · exact
      { tame := S.tame.of_same rfl rfl rfl fun _ => ⟨rfl, rfl⟩
        serial := S.serial
        once := fun p q hp hq => (only p hp).trans (only q hq).symm
        handles := fun p hp => Nat.lt_succ_of_lt (S.handles p hp)
        reapers := S.reapers
        shields := fun t ht p hk => by
          obtain ⟨h₁, h₂⟩ := S.shields t ht p hk
          refine ⟨Nat.lt_succ_of_lt h₁, fun hd => ?_⟩
          rw [old p h₁]
          exact h₂ hd
        asleep := S.asleep
        alone := S.alone }
  · exact H.1.step.trans
      { count := Nat.le_refl _
        kind := fun _ _ => rfl
        started := fun _ _ h => h
        outcome := fun _ _ _ => rfl
        entries := fun _ _ _ _ => Iff.rfl
        reaped := fun p hp h => by rw [old p hp]; exact h
        spawned := Nat.le_succ _
        bystander := absurd rfl }

/-- The worker takes what it has spawned. -/
theorem atWork_takeHandle {pid : Nat} {s w : World} (H : InHand pid s w) :
    AtWork .holding s (w.setActiveHandle (some pid)) := by
  have hold : (w.setActiveHandle (some pid)).hold = { w.hold with activeHandle := some pid } := by
    simp [World.setActiveHandle, World.setHold]
  have procs : (w.setActiveHandle (some pid)).procs = w.procs := by
    simp [World.setActiveHandle, World.setHold]
  have task : (w.setActiveHandle (some pid)).task = w.task := by
    simp [World.setActiveHandle, World.setHold]
  have count : (w.setActiveHandle (some pid)).taskCount = w.taskCount := by
    simp [World.setActiveHandle, World.setHold]
  refine ⟨own_setActiveHandle H.1 _ fun p hp => by cases hp; exact H.2.2.2.2, .inr ?_, ?_, ?_⟩
  · intro q hq
    rw [World.undead, procs] at hq
    rw [hold, procs]
    rcases H.2.2.2.1 q hq with rfl | hr
    · exact .inl rfl
    · exact .inr (.inr hr)
  · simp only [World.Calm, World.taskDone, task, count]
    exact H.2.1
  · rw [hold]
    exact H.2.2.1

theorem Unmoved.inHand {pid : Nat} {s w w' : World} (h : Unmoved w w')
    (H : InHand pid s w) : InHand pid s w' :=
  ⟨h.own H.1, calm_passive (h.passive _) H.2.1, h.idle.trans H.2.2.1,
    fun q hq => by rw [h.reaping]; exact H.2.2.2.1 q ((h.undead q).mp hq),
    by rw [h.spawned]; exact H.2.2.2.2⟩

theorem delivered_call {t : Nat} {o : Op} {w : World} (ho : o.isAwait = false) :
    w.delivered t o = w := by
  have he : o ≠ .entry := by
    rintro rfl
    cases ho
  simp [World.delivered, he, ho]

/-- The rule of `self._spawn(...)`. -/
theorem wp_spawn {slot port n : Nat} {tag : String} {Q : Post sig Nat} {s w : World}
    (H : AtWork .vacant s w) (hok : ∀ pid s w, InHand pid s w → Q (.ok pid) s w)
    (he : ∀ e s w, AtWork .vacant s w → Q (.error e) s w) :
    wp (single C) workerTask (spawn slot port tag n) Q s w := by
  intro r ha had
  have hr := no_reaps H fun e he => of_decide_eq_true (List.all_eq_true.mp had e he)
  have H' := atWork_callSpawn H hr slot port
  have hd : ∀ w : World, w.delivered workerTask (.spawn slot port tag n) = w := fun w =>
    delivered_call rfl
  cases r with
  | handle pid =>
      have hpid : pid = w.procs.spawned := of_decide_eq_true ha
      subst hpid
      simp only [system, answer, effect, hd]
      exact hok _ _ _ (inHand_addSidecar H' hr port tag n)
  | raised e =>
      simp only [system, answer, effect, hd]
      exact he _ _ _ H'
  | _ => cases ha

/-- What the worker has when `acquire` is over. -/
def Acquired : Post sig (Option (Nat × Bool))
  | .ok (some _) => AtWork .holding
  | .error .cancelled => Lost
  | _ => AtWork .anyhow

theorem AtWork.acquired {Φ : Stance} {s w : World} (H : AtWork Φ s w) (e : Exc Err) :
    Acquired (.error e) s w := by
  cases e with
  | raised e => exact H.anyhow
  | cancelled => exact H.lost

theorem takeHandle_bind {pid : Nat} {k : Unit → Prog (Option (Nat × Bool))}
    (hk : ∀ s w, AtWork .holding s w → wp (single C) workerTask (k ()) Acquired s w)
    {s w : World} (H : InHand pid s w) :
    wp (single C) workerTask (takeHandle pid >>= k) Acquired s w := by
  have F := frames_stands (C := C) .holding
  exact F.seq (fun e s w H => H.acquired e) (calm_modify calm_bumpSpawnSeq) (fun _ => hk) _ _
    (atWork_takeHandle H)

theorem wp_spawnActive {slot port n : Nat} {tag : String} {s w : World}
    (H : AtWork .vacant s w) :
    wp (single C) workerTask (spawnActive slot port tag n) Acquired s w := by
  have F := frames_stands (C := C) .holding
  refine wp_spawn H (fun pid s w H => ?_) fun e s w H => H.acquired e
  have hq : Quiet w (w.setSlot slot fun x =>
      { x with port := some (w.procs.proc pid).port, pid := some pid }) := quiet_setSlot _ _ _
  refine takeHandle_bind (fun s w H => ?_) ((hq H.1.single.tame).inHand H)
  refine F.seq (fun e s w H => H.acquired e) (only_waitHealthy.mpr trivial) ?_ s w H
  exact fun _ _ _ H => H

theorem wp_coldSpawn {slot port n : Nat} {tag : String} {s w : World} (H : AtWork .empty s w) :
    wp (single C) workerTask (coldSpawn C slot port tag n) Acquired s w := by
  have F := frames_stands (C := C) .vacant
  have rest : ∀ s w, AtWork .vacant s w →
      wp (single C) workerTask (do
        let failed ← preSpawnGates C tag
        if failed.isEmpty then spawnActive slot port tag n
        else do
          refuseGates slot failed
          pure none) Acquired s w := by
    refine F.seq (fun e s w H => H.acquired e) (calm_preSpawnGates C tag) fun failed s w H => ?_
    split
    · exact wp_spawnActive H
    · refine F.seq (fun e s w H => H.acquired e) (calm_refuseGates _ _) ?_ s w H
      exact fun _ _ _ H => H.anyhow
  simp only [coldSpawn, wp_gets_bind]
  by_cases hi : w.hold.idleHandle.isSome = true
  · rw [hi]
    refine wp_seq (wp_teardownIdleHolder (L := Stands .empty) (local_stands .vacant) ?_ ?_ ?_
      H.1 H.2.1 H.2.2) (fun _ s w H => rest s w H) fun e s w H => ?_
    · intro w hl
      refine ⟨calm_clearIdleHolder hl.1, ?_⟩
      rw [clearIdleHolder_hold]
      exact ⟨hl.2, rfl⟩
    · exact fun w hl hn => ⟨hl.1, hl.2, hn⟩
    · exact fun s w O _ => mayReap_worker O.single.tame
    · cases e with
      | raised e => exact AtWork.anyhow H
      | cancelled => exact ⟨H.1, H.2.1.1, .inr H.2.1.2.1⟩
  · rw [Bool.not_eq_true] at hi
    rw [hi]
    exact rest s w ⟨H.1, H.2.1, H.2.2.1, H.2.2.2, Option.isNone_iff_eq_none.mp (by simpa using hi)⟩

/-- The warm path takes the idle holder's sidecar. -/
theorem wp_inherit {slot held : Nat} {s w : World} (H : AtWork .empty s w)
    (hi : w.hold.idleHandle = some held) :
    wp (single C) workerTask (inherit slot held) Acquired s w := by
  have F := frames_stands (C := C) .holding
  have hh : InHand held s w.clearIdleHolder := by
    refine ⟨own_clearIdleHolder H.1, calm_clearIdleHolder H.2.2.1, by rw [clearIdleHolder_hold],
      fun q hq => ?_, ?_⟩
    · rw [World.undead, World.clearIdleHolder, setIdleHolder_procs] at hq
      rw [World.clearIdleHolder, setIdleHolder_procs]
      rcases H.owned q hq with ha | hq' | hr
      · rw [H.2.2.2] at ha
        cases ha
      · rw [hi] at hq'
        cases hq'
        exact .inl rfl
      · exact .inr hr
    · rw [World.clearIdleHolder, setIdleHolder_procs]
      exact H.1.single.handles held (.inr hi)
  have hq : ∀ w, Quiet w (w.setSlot slot fun x =>
      { x with port := some (w.procs.proc held).port, pid := some held }) :=
    fun w => quiet_setSlot w _ _
  refine takeHandle_bind (fun s w H => ?_) ((hq _ hh.1.single.tame).inHand hh)
  refine F.seq (fun e s w H => H.acquired e) (only_auditAsync.mpr trivial) ?_ s w H
  exact fun _ _ _ H => H

/-- The clock is read without a suspension. -/
theorem wp_monotonic {P : Outline (system C)} {t : Nat} {Q : Post sig Nat} {s w : World}
    (T : Tame w) (h : ∀ now w', Unmoved w w' → Q (.ok now) s w') :
    wp P t monotonic Q s w := by
  intro r ha _
  cases r with
  | time now => exact h now _ (quiet_answer (o := .monotonic) trivial t (.time now) w T)
  | _ => cases ha

/-- The warm path is taken with the idle holder as it was read. -/
theorem wp_warmInherit {tag : String} {k : Option Nat → Prog (Option (Nat × Bool))}
    (hs : ∀ held s w, AtWork .empty s w → w.hold.idleHandle = some held →
      wp (single C) workerTask (k (some held)) Acquired s w)
    (hn : ∀ s w, AtWork .empty s w → wp (single C) workerTask (k none) Acquired s w)
    {s w : World} (H : AtWork .empty s w) :
    wp (single C) workerTask (warmInherit tag >>= k) Acquired s w := by
  rw [wp_bind, warmInherit, wp_gets_bind]
  split
  · next held expires hh _ =>
      split
      · rw [wp_bind]
        refine wp_monotonic H.1.single.tame fun now w' hu => ?_
        have H' := (frames_stands (C := C) .empty).act (fun _ => hu) H
        show wp (single C) workerTask (k (if now < expires then some held else none)) Acquired s w'
        split
        · exact hs held s w' H' (hu.idle.trans hh)
        · exact hn s w' H'
      · exact hn s w H
  · exact hn s w H

theorem wp_acquire {slot : Nat} {m : Option Manifest} {s w : World} (H : AtWork .empty s w) :
    wp (single C) workerTask (acquire C slot m) Acquired s w := by
  have F := frames_stands (C := C) .empty
  have he : ∀ (e : Exc Err) s w, AtWork .empty s w → Acquired (.error e) s w :=
    fun e s w H => H.acquired e
  refine F.seq he (calm_gets _) (fun port => F.seq he (calm_transition _ _) fun _ =>
    F.seq he (only_auditAsync.mpr trivial) fun _ => F.seq he (calm_gets _) fun x s w H => ?_) s w H
  exact wp_warmInherit (fun held s w H hi => wp_inherit H hi) (fun s w H => wp_coldSpawn H) H

/-! ## Serving, and leaving the grace window -/

theorem keeps_loadingFail (Φ : Stance) (s : Nat) :
    Keeps (single C) workerTask (AtWork Φ) (loadingFail C s) := by
  have F := frames_stands (C := C) Φ
  exact .bind (F.keeps (calm_transition _ _)) fun _ => .bind (F.keeps (only_auditAsync.mpr trivial))
    fun _ => .bind (F.keeps (calm_transition _ _)) fun _ => .bind (keeps_teardown Φ s _)
    fun _ => F.keeps (isQuiet_failCompletionFuture _ _ _)

/-- The worker stands so, and the handle it has read is a sidecar's. -/
def Known (Φ : Stance) (h : Option Nat) (w : World) : Prop :=
  Stands Φ w ∧ ∀ p, h = some p → p < w.procs.spawned

theorem local_known (Φ : Stance) (h : Option Nat) : Local workerTask (Known Φ h) where
  passive := fun S hp hl => ⟨(local_stands Φ).passive S hp hl.1, fun p he =>
    Nat.lt_of_lt_of_le (hl.2 p he) hp.spawned⟩

/-- What is handed to the idle holder stays somebody's. -/
theorem atWork_setIdleHolder {h : Option Nat} {tag : Option String} {e : Option Nat}
    {s w : World} (H : AtWork .holding s w) (hh : ∀ p, h = some p → p < w.procs.spawned) :
    AtWork .anyhow s (w.setIdleHolder h tag e) := by
  have hold : (w.setIdleHolder h tag e).hold =
      { w.hold with idleHandle := h, idleModelTag := tag, idleExpiresAt := e } := by
    simp [World.setIdleHolder, World.setHold]
  refine ⟨own_setIdleHolder H.1 h tag e hh, .inr fun p hp => ?_, ?_, trivial⟩
  · rw [World.undead, setIdleHolder_procs] at hp
    rw [hold, setIdleHolder_procs]
    rcases H.owned p hp with ha | hi | hr
    · exact .inl ha
    · rw [H.2.2.2] at hi
      cases hi
    · exact .inr (.inr hr)
  · simp only [World.Calm, World.taskDone, setIdleHolder_task, setIdleHolder_taskCount]
    exact H.2.2.1

theorem wp_leaveGrace {slot : Nat} {s w : World} (H : AtWork .holding s w) :
    wp (single C) workerTask (leaveGrace C slot) (fun _ => AtWork .anyhow) s w := by
  have F := frames_stands (C := C) .holding
  have he : ∀ (_ : Exc Err) s w, AtWork .holding s w → AtWork .anyhow s w :=
    fun _ _ _ H => H.anyhow
  refine F.seq he (calm_transition _ _) (fun _ s w H => ?_) s w H
  simp only [wp_gets_bind]
  have F' := frames_own (C := C) (local_known .holding w.hold.activeHandle)
  have he' : ∀ (_ : Exc Err) s w', (Own workerTask s w' ∧ w'.Kept ∧
      Known .holding w.hold.activeHandle w') → AtWork .anyhow s w' :=
    fun _ _ _ H => AtWork.anyhow ⟨H.1, H.2.1, H.2.2.1⟩
  refine F'.seq he' (calm_modify fun w => calm_setLatestKeepAlive none w) (fun _ => ?_) s w
    ⟨H.1, H.2.1, H.2.2, fun p hp => H.1.single.handles p (.inl hp)⟩
  intro s₁ w₁ H₁
  split
  · refine F'.seq he' (only_monotonic.mpr trivial) (fun now s₂ w₂ H₂ => ?_) s₁ w₁ H₁
    rw [wp_modify_bind]
    have F'' := frames_stands (C := C) .anyhow
    exact Keeps.bind (F''.keeps (only_auditEventOnlyAsync.mpr trivial))
      (fun _ => F''.keeps (only_markSlotEnded.mpr trivial)) _ _
      (atWork_setIdleHolder ⟨H₂.1, H₂.2.1, H₂.2.2.1⟩ H₂.2.2.2)
  · have H₃ : AtWork .anyhow s₁ w₁ := he' .cancelled _ _ H₁
    refine Keeps.bind (keeps_teardown .anyhow _ _) (fun _ => ?_) _ _ H₃
    have F'' := frames_stands (C := C) .anyhow
    exact .bind (F''.keeps (only_monotonic.mpr trivial)) fun now =>
      .bind (F''.keeps (calm_modify fun w =>
      quiet_setHold w _ rfl rfl fun _ h => h)) fun _ =>
      F''.keeps (only_auditEventOnlyAsync.mpr trivial)

theorem wp_activate {slot pid : Nat} {s w : World} (H : AtWork .holding s w) :
    wp (single C) workerTask (activate C slot pid) (fun _ => AtWork .anyhow) s w := by
  have F := frames_stands (C := C) .holding
  have hc := keeps_forceCold (C := C) .holding
  have he : ∀ (_ : Exc Err) s w, AtWork .holding s w → AtWork .anyhow s w :=
    fun _ _ _ H => H.anyhow
  refine F.seq he (calm_transition _ _) (fun _ => F.seq he (only_auditAsync.mpr trivial) fun _ =>
    F.seq he (calm_gets _) fun x => F.seq he (calm_modify fun w =>
      calm_setLatestKeepAlive _ w) fun _ s w H => ?_) s w H
  refine (keeps_serveAnchor (shares_of_quiet F hc) slot pid).seq (fun _ => ?_) he H
  refine F.seq he (calm_enterGrace _) fun _ s w H => ?_
  exact (keeps_graceWindow (shares_of_quiet F hc).toWarm slot pid).seq
    (fun _ s w H => wp_leaveGrace H) he H

/-- The slot is over, or the worker is. -/
abbrev Over (α : Type) : Post sig α := Unless (AtWork .anyhow) Lost

theorem AtWork.over {α : Type} {Φ : Stance} {s w : World} (H : AtWork Φ s w) (r : Res sig α) :
    Over α r s w := by
  match r with
  | .ok _ => exact H.anyhow
  | .error (.raised _) => exact H.anyhow
  | .error .cancelled => exact H.lost

theorem wp_processBody {slot : Nat} {s w : World} (H : AtWork .empty s w) :
    wp (single C) workerTask (processBody C slot) (Over Unit) s w := by
  have F := frames_stands (C := C) .empty
  have he : ∀ (e : Exc Err) s w, AtWork .empty s w → Over Unit (.error e) s w :=
    fun e _ _ H => H.over _
  refine F.seq he (calm_gets _) (fun x => F.seq he (only_readManifest?.mpr trivial) fun m =>
    F.seq he (calm_gets _) fun h s w H => ?_) s w H
  split
  · exact wp_mono (fun r _ _ H => H.over r) (F.keeps (calm_refuseNoManifest slot) s w H)
  · refine wp_seq (wp_acquire H) (fun a s w H => ?_) fun e s w H => ?_
    · match a with
      | none => exact AtWork.over (Φ := .anyhow) H (.ok ())
      | some (pid, healthy) =>
          have H : AtWork .holding s w := H
          dsimp only
          split
          · exact wp_mono (fun r _ _ H => H.over r) (wp_activate H)
          · exact wp_mono (fun r _ _ H => H.over r) (keeps_loadingFail .holding slot s w H)
    · cases e with
      | raised e => exact H
      | cancelled => exact H

/-! ## The `finally` of a slot -/

/-- One shielded SIGTERM of `p` may be running, in task `t`; the active handle
is `p`. -/
def Shielding (t p : Nat) (w : World) : Prop :=
  w.hold.activeHandle = some p ∧ t < w.taskCount ∧ (w.task t).kind = .shieldedSigterm p ∧
    ∀ u < w.taskCount, u ≠ t → ∀ q, (w.task u).kind = .shieldedSigterm q → w.taskDone u = true

theorem local_shielding (t p : Nat) : Local workerTask (Shielding t p) where
  passive := by
    rintro w w' S hp ⟨ha, ht, hk, hc⟩
    have hb := hp.bystander rfl
    refine ⟨hb.active.trans ha, Nat.lt_of_lt_of_le ht hp.count, (hp.kind t ht).trans hk, ?_⟩
    intro u hu hne q hq
    by_cases ho : u < w.taskCount
    · rw [hp.kind u ho] at hq
      exact hp.done ho (hc u ho hne q hq)
    · exact absurd hq (hb.shields u hu (by omega) q)

theorem taskDone_delivered (t u : Nat) (o : Op) (w : World) :
    (w.delivered t o).taskDone u = w.taskDone u := by
  have set : ∀ f : TaskRec → TaskRec, (∀ k, (f k).outcome = k.outcome) →
      (w.setTask t f).taskDone u = w.taskDone u := by
    intro f hf
    by_cases hu : u = t
    · subst hu
      simp [World.taskDone, World.setTask, hf]
    · simp [World.taskDone, World.setTask, setAt_of_ne hu]
  unfold World.delivered
  split
  · exact set _ fun _ => rfl
  · split
    · exact set _ fun _ => rfl
    · rfl

/-- The rule of waiting for tasks. -/
theorem wp_join {t : Nat} {L : World → Prop} (hL : Local t L) {ts : List Nat} {Q : Post sig Unit}
    (hok : ∀ s w, (Own t s w ∧ w.Kept ∧ L w) → (∀ u ∈ ts, w.taskDone u = true) → Q (.ok ()) s w)
    (hc : ∀ s w, (Own t s w ∧ w.Kept ∧ L w) → Q (.error .cancelled) s w) {s w : World}
    (H : Own t s w ∧ w.Kept ∧ L w) : wp (single C) t (sync (.join ts)) Q s w := by
  obtain ⟨hs, hk⟩ := (frames_own hL).await (.join ts) trivial s w H
  refine ⟨hs, fun w' hr hg r ha had => ?_⟩
  have H' := hk w' hr hg r ha had
  rcases allowed_cases ha with ⟨rfl, -⟩ | hrep
  · exact hc _ _ H'
  · cases r with
    | ok =>
        refine hok _ _ H' fun u hu => ?_
        have hd := List.all_eq_true.mp hrep u hu
        exact (taskDone_delivered t u _ w').trans hd
    | _ => cases hrep

theorem AtWork.empty {Φ : Stance} {s w : World} (H : AtWork Φ s w)
    (ha : w.hold.activeHandle = none) : AtWork .empty s w := ⟨H.1, H.2.1, H.2.2.1, ha⟩

theorem atWork_done {s w : World} (H : AtWork .anyhow s w) (hs : w.spent) :
    AtWork .empty s (w.setActiveHandle none) :=
  have h := atWork_letGo H hs
  h.1.empty h.2

/-- The shield: a task of its own reaps, and the worker waits for it. -/
theorem wp_shield {pid : Nat} {s w : World} (H : AtWork .anyhow s w)
    (ha : w.hold.activeHandle = some pid) :
    wp (single C) workerTask
      (Co.suppress do
        shieldedSigterm pid
        Co.modify (World.setActiveHandle none))
      (Unless (AtWork .empty) (Own workerTask)) s w := by
  have old : ∀ u < w.taskCount, (w.fork (.shieldedSigterm pid)).task u = w.task u := fun u hu =>
    setAt_of_ne (by omega)
  refine wp_tryExcept ?_
  rw [wp_bind, shieldedSigterm]
  show wp (single C) workerTask _ _ s (w.fork (.shieldedSigterm pid))
  rw [wp_bind]
  refine wp_join (local_shielding w.taskCount pid) (fun s w' H' hd => ?_) (fun s w' H' => H'.1)
    ⟨own_fork H.1 (by rintro ⟨⟩) rfl fun p hp => ?_, .inr fun p hp => H.owned p hp, ha,
      Nat.lt_succ_self _, congrArg TaskRec.kind (setAt_self w.task w.taskCount _),
      fun u hu hne q hq => ?_⟩
  · obtain ⟨O, hk, ha', ht, hkd, hc⟩ := H'
    have hdone : w'.taskDone w.taskCount = true := hd _ (List.mem_singleton.mpr rfl)
    obtain ⟨ho, hr⟩ := (O.single.shields _ ht pid hkd).2 hdone
    show wp (single C) workerTask _ _ s w'
    rw [wp_gets_bind]
    simp only [ho]
    refine atWork_done ⟨O, hk, fun u hu q hq => ?_, trivial⟩ fun q hq => .inl ?_
    · by_cases hu' : u = w.taskCount
      · rw [hu']
        exact hdone
      · exact hc u hu hu' q hq
    · rw [ha'] at hq
      cases hq
      exact hr
  · cases hp
    exact ⟨rfl, H.1.single.handles _ (.inl ha)⟩
  · have hlt : u < w.taskCount := by
      simp only [World.fork] at hu
      omega
    rw [old u hlt] at hq
    rw [World.taskDone, old u hlt]
    exact H.2.2.1 u hlt q hq

/-- The `finally` of `_process_slot` leaves nothing behind, unless it is
cancelled. -/
theorem wp_processFinally {s w : World} (H : AtWork .anyhow s w) :
    wp (single C) workerTask processFinally (Unless (AtWork .empty) (Own workerTask)) s w := by
  have hu := calm_setActiveSlot (A := Quiet) none w H.1.single.tame
  have H₁ := (frames_stands (C := C) .anyhow).act (fun _ => hu) H
  rw [processFinally, wp_gets_bind, wp_modify_bind]
  split
  · next pid ha =>
      split
      · next hi => exact atWork_done H₁ fun q hq => .inr (by
          rw [hu.active, ha] at hq
          cases hq
          exact hu.idle.trans hi)
      · exact wp_shield H₁ (hu.active.trans ha)
  · next ha =>
      refine atWork_done H₁ fun q hq => ?_
      rw [hu.active, ha] at hq
      cases hq

/-- What `processFinally` does after a cancellation. -/
theorem wp_processFinally_lost {s w : World} (H : Lost s w) :
    wp (single C) workerTask processFinally
      (fun r s w => match r with
        | .error (.raised _) => AtWork .empty s w
        | _ => Own workerTask s w) s w := by
  by_cases hk : w.Kept
  · refine wp_mono (fun r s w h => ?_) (wp_processFinally ⟨H.1, hk, H.2.1, trivial⟩)
    match r with
    | .ok _ => exact And.left h
    | .error (.raised _) => exact h
    | .error .cancelled => exact h
  · have ha := H.2.2.resolve_left hk
    have hu := calm_setActiveSlot (A := Quiet) none w H.1.single.tame
    have O₁ := hu.own H.1
    rw [processFinally, wp_gets_bind, wp_modify_bind]
    simp only [ha]
    exact own_setActiveHandle O₁ none (by rintro _ ⟨⟩)

/-- The worker is between two slots, or over. -/
abbrev Between (α : Type) : Post sig α := Unless (AtWork .empty) (Own workerTask)

theorem AtWork.between {α : Type} {s w : World} (H : AtWork .empty s w) (r : Res sig α) :
    Between α r s w := by
  match r with
  | .ok _ => exact H
  | .error (.raised _) => exact H
  | .error .cancelled => exact H.1

theorem wp_processSlot {slot : Nat} {s w : World} (H : AtWork .empty s w) :
    wp (single C) workerTask (processSlot C slot) (Between Unit) s w := by
  have F := frames_stands (C := C) .empty
  have he : ∀ (e : Exc Err) s w, AtWork .empty s w → Between Unit (.error e) s w :=
    fun e _ _ H => H.between _
  refine F.seq he (calm_modify fun w => calm_setActiveSlot _ w) (fun _ => F.seq he
    (calm_modify fun w => calm_setLatestKeepAlive _ w) fun _ s w H => ?_) s w H
  refine wp_tryFinally (wp_mono ?_ (wp_processBody H))
  intro r s w H
  match r with
  | .ok a =>
      refine wp_mono (fun r s w h => ?_) (wp_processFinally H)
      match r with
      | .ok _ => exact h
      | .error (.raised _) => exact h
      | .error .cancelled => exact h
  | .error (.raised e) =>
      refine wp_mono (fun r s w h => ?_) (wp_processFinally H)
      match r with
      | .ok _ => exact h
      | .error (.raised _) => exact h
      | .error .cancelled => exact h
  | .error .cancelled =>
      refine wp_mono (fun r s w h => ?_) (wp_processFinally_lost H)
      match r with
      | .ok _ => exact h
      | .error (.raised _) => exact h
      | .error .cancelled => exact h

/-! ## The loop -/

theorem keeps_recover (slot : Nat) (e : Err) :
    Keeps (single C) workerTask (AtWork .empty) (recover C slot e) := by
  have F := frames_stands (C := C) .empty
  exact .bind (F.keeps (only_mark.mpr trivial)) fun _ =>
    .bind (F.keeps (isQuiet_failCompletionFuture _ _ _)) fun _ =>
    .bind (F.keeps (calm_gets _)) fun h =>
    .bind (.when (.suppress (keeps_teardown .empty _ _))) fun _ => keeps_forceCold .empty _ _

theorem wp_processTurn {slot : Nat} {s w : World} (H : AtWork .empty s w) :
    wp (single C) workerTask (processTurn C slot) (Between Unit) s w := by
  have F := frames_stands (C := C) .empty
  have he : ∀ (e : Exc Err) s w, AtWork .empty s w → Between Unit (.error e) s w :=
    fun e _ _ H => H.between _
  have inHand : ∀ v, IsQuiet (Co.modify (World.setHold fun h => { h with workerSlot := v })) :=
    fun v => calm_modify fun w => quiet_setHold w _ rfl rfl fun _ h => h
  refine F.seq he (calm_gets _) (fun h => F.seq he (only_mark.mpr trivial) fun _ =>
    F.seq he (inHand _) fun _ s w H => ?_) s w H
  refine wp_seq (M := Between Unit) (wp_tryExcept (wp_mono ?_ (wp_processSlot H)))
    (fun _ s w H => ?_) (fun e s w H => ?_)
  · intro r s w H
    match r with
    | .ok _ => exact H
    | .error (.raised e) =>
        exact wp_mono (fun r s w H => H.between r) (keeps_recover slot e s w H)
    | .error .cancelled => exact H
  · exact wp_mono (fun r s w H => H.between r) (F.keeps (inHand none) s w H)
  · cases e <;> exact H

/-- A detached teardown of the idle holder changes nothing yet. -/
theorem keeps_detach : Keeps (single C) workerTask (AtWork .empty)
    (fireAndForget .idleTeardown) := by
  intro s w H
  have old : ∀ u < w.taskCount, (w.fork .idleTeardown).task u = w.task u := fun u hu =>
    setAt_of_ne (by omega)
  refine ⟨own_fork H.1 (by simp) rfl (by simp), .inr fun p hp => H.owned p hp, fun u hu p hp => ?_,
    H.2.2.2⟩
  by_cases ho : u < w.taskCount
  · rw [old u ho] at hp
    rw [World.taskDone, old u ho]
    exact H.2.2.1 u ho p hp
  · have : u = w.taskCount := by
      simp only [World.fork] at hu
      omega
    subst this
    simp only [World.fork, setAt_self] at hp
    cases hp

theorem keeps_idleTick : Keeps (single C) workerTask (AtWork .empty) idleTick := by
  have F := frames_stands (C := C) .empty
  refine .bind (F.keeps (calm_gets _)) fun h => ?_
  split
  · exact .bind (F.keeps (only_monotonic.mpr trivial)) fun now => .when <|
      .bind (F.keeps (calm_modify fun w => calm_setIdleExpiresAt none w)) fun _ => keeps_detach
  · exact .pure _

theorem keeps_evictedTurn (slot : Nat) :
    Keeps (single C) workerTask (AtWork .empty) (evictedTurn slot) := by
  have F := frames_stands (C := C) .empty
  exact .bind (F.keeps (isQuiet_failCompletionFuture _ _ _)) fun _ =>
    .bind (.suppress (F.keeps (only_auditEventOnlyAsync.mpr trivial))) fun _ =>
    .bind (F.keeps calm_countEviction) fun _ => keeps_idleTick

theorem wp_workerTurn {s w : World} (H : AtWork .empty s w) :
    wp (single C) workerTask (workerTurn C) (Between Unit) s w := by
  have F := frames_stands (C := C) .empty
  have he : ∀ (e : Exc Err) s w, AtWork .empty s w → Between Unit (.error e) s w :=
    fun e _ _ H => H.between _
  refine F.seq he (calm_gets _) (fun warm => F.seq he (calm_popNext C warm)
    fun a s w H => ?_) s w H
  cases a with
  | none =>
      exact wp_mono (fun r s w H => H.between r)
        (Keeps.bind keeps_idleTick (fun _ => F.keeps (only_sleep.mpr trivial)) s w H)
  | some slot =>
      refine F.seq he (calm_gets _) (fun x s w H => ?_) s w H
      split
      · exact wp_mono (fun r s w H => H.between r) (keeps_evictedTurn slot s w H)
      · exact wp_processTurn H

theorem wp_serialLoop {s w : World} (H : AtWork .empty s w) :
    wp (single C) workerTask (serialLoop C) (Between Unit) s w := by
  refine ⟨fun _ => AtWork .empty, H, fun _ s w H => ?_⟩
  refine wp_seq (m := _) (M := Between Bool) ?_ (fun again s w H => ?_) fun e s w H => ?_
  · rw [wp_gets_bind]
    split
    · exact H
    · refine wp_seq (wp_workerTurn H) (fun _ s w H => H) fun e s w H => ?_
      cases e <;> exact H
  · cases again <;> exact H
  · cases e <;> exact H

end Turbohaul
