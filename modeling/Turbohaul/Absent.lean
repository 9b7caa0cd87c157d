/-
# `Absent` — slots that nobody has in hand

A slot that its client has submitted is in one place after the other: in the queue,
among the riders of the serial worker, in an inbox or in a driver's hand, with a task
that is to complete it or to bring it back.  From each of them it may be served.
`InHand` says that a slot is in such a place, or has been popped or served before.

    Shed    a statement that puts no slot where it was not
    Idle    a program that is made of such statements, and pops and serves nothing

Most of the manager is idle.
-/
import Turbohaul.Coop.Finds
import Turbohaul.Manager
import Turbohaul.SidecarVocabulary

namespace Turbohaul

open Coop

/-! ## Places -/

/-- The slot that an event takes out of the queue or an inbox, or serves. -/
def Event.takes : Event → Option Nat
  | .dispatched s _ | .completing s _ => some s
  | .marked (.popped s) | .marked (.matched s) | .marked (.fromInbox s) => some s
  | _ => none

/-- The slot that an operation takes or serves. -/
def Op.takes : Op → Option Nat
  | .complete _ s _ => some s
  | .mark m => (Event.marked m).takes
  | _ => none

/-- The task completes the slot, or brings it back to the queue. -/
def Kind.carries (s : Nat) : Kind → Prop
  | .completeFn i _ | .completeOne i _ | .requeueAfterBackoff i => i = s
  | .requeueSlots ss => s ∈ ss
  | _ => False

/-- The slot waits at the resident, or its driver has it. -/
def Resident.holds (s : Nat) (x : Resident) : Prop :=
  s ∈ x.inbox.getD [] ∨ x.getter = .taken s ∨ x.hand = some s ∨ s ∈ x.pendingSlots

/-- The slot is in some place, or has been taken before. -/
def World.InHand (w : World) (s : Nat) : Prop :=
  s ∈ w.queue.staging ∨ s ∈ w.queue.acceptBuf ∨ s ∈ w.hold.inflight ∨
    (∃ r, (w.resident r).holds s) ∨ (∃ t, (w.task t).kind.carries s) ∨
    ∃ e ∈ w.trace, e.takes = some s

/-- Nobody has the slot, and nobody has had it. -/
def Absent (s : Nat) (w : World) : Prop := ¬ w.InHand s

/-- A statement that puts no slot where it was not. -/
def Shed (w w' : World) : Prop := ∀ s, w'.InHand s → w.InHand s

theorem Shed.refl (w : World) : Shed w w := fun _ h => h

theorem Shed.trans {a b c : World} (h : Shed a b) (h' : Shed b c) : Shed a c :=
  fun s hs => h s (h' s hs)

theorem Shed.absent {s : Nat} {w w' : World} (h : Shed w w') (ha : Absent s w) : Absent s w' :=
  fun hs => ha (h s hs)

/-! ## Assignments -/

/-- A statement that changes none of the places. -/
theorem shed_same {w w' : World} (hq : w'.queue = w.queue) (hi : w'.hold.inflight = w.hold.inflight)
    (hr : w'.resident = w.resident) (ht : w'.task = w.task) (he : w'.trace = w.trace) :
    Shed w w' := by
  intro s h
  rwa [World.InHand, hq, hi, hr, ht, he] at h

theorem shed_setHold (w : World) {f : Holder → Holder}
    (h : (f w.hold).inflight ⊆ w.hold.inflight) : Shed w (w.setHold f) := by
  rintro s (hs | hs | hs | hs)
  · exact .inl hs
  · exact .inr (.inl hs)
  · exact .inr (.inr (.inl (h hs)))
  · exact .inr (.inr (.inr hs))

theorem shed_setResident (w : World) (r : Nat) {f : Resident → Resident}
    (h : ∀ s, (f (w.resident r)).holds s → (w.resident r).holds s) :
    Shed w (w.setResident r f) := by
  rintro s (hs | hs | hs | ⟨d, hd⟩ | hs)
  · exact .inl hs
  · exact .inr (.inl hs)
  · exact .inr (.inr (.inl hs))
  · refine .inr (.inr (.inr (.inl ⟨d, ?_⟩)))
    rcases eq_or_ne d r with rfl | hne
    · simp only [World.setResident, setAt_self] at hd
      exact h s hd
    · simpa only [World.setResident, setAt_of_ne hne] using hd
  · exact .inr (.inr (.inr (.inr hs)))

theorem shed_mirror (w : World) {f : Resident → Resident} (h : ∀ x s, (f x).holds s → x.holds s) :
    Shed w (w.mirror f) := by
  unfold World.mirror
  split
  · exact shed_setResident w _ (h _)
  · exact .refl w

/-- A change to a task's record that keeps its kind. -/
theorem shed_setTask (w : World) (t : Nat) {f : TaskRec → TaskRec}
    (h : ∀ k, (f k).kind = k.kind) : Shed w (w.setTask t f) := by
  rintro s (hs | hs | hs | hs | ⟨u, hu⟩ | hs)
  · exact .inl hs
  · exact .inr (.inl hs)
  · exact .inr (.inr (.inl hs))
  · exact .inr (.inr (.inr (.inl hs)))
  · refine .inr (.inr (.inr (.inr (.inl ⟨u, ?_⟩))))
    rcases eq_or_ne u t with rfl | hne
    · simpa only [World.setTask, setAt_self, h] using hu
    · simpa only [World.setTask, setAt_of_ne hne] using hu
  · exact .inr (.inr (.inr (.inr (.inr hs))))

/-- A new task, with the slots it carries. -/
theorem inHand_fork {w : World} {k : Kind} {s : Nat} (h : (w.fork k).InHand s) :
    k.carries s ∨ w.InHand s := by
  rcases h with hs | hs | hs | hs | ⟨u, hu⟩ | hs
  · exact .inr (.inl hs)
  · exact .inr (.inr (.inl hs))
  · exact .inr (.inr (.inr (.inl hs)))
  · exact .inr (.inr (.inr (.inr (.inl hs))))
  · rcases eq_or_ne u w.taskCount with rfl | hne
    · simp only [World.fork, setAt_self] at hu
      exact .inl hu
    · simp only [World.fork, setAt_of_ne hne] at hu
      exact .inr (.inr (.inr (.inr (.inr (.inl ⟨u, hu⟩)))))
  · exact .inr (.inr (.inr (.inr (.inr (.inr hs)))))

theorem shed_fork (w : World) {k : Kind} (h : ∀ s, ¬ k.carries s) : Shed w (w.fork k) :=
  fun s hs => (inHand_fork hs).resolve_left (h s)

theorem inHand_record {w : World} {e : Event} {s : Nat} (h : (w.record e).InHand s) :
    e.takes = some s ∨ w.InHand s := by
  rcases h with hs | hs | hs | hs | hs | ⟨e', he', hs⟩
  · exact .inr (.inl hs)
  · exact .inr (.inr (.inl hs))
  · exact .inr (.inr (.inr (.inl hs)))
  · exact .inr (.inr (.inr (.inr (.inl hs))))
  · exact .inr (.inr (.inr (.inr (.inr (.inl hs)))))
  · rcases List.mem_cons.mp he' with rfl | he'
    · exact .inl hs
    · exact .inr (.inr (.inr (.inr (.inr (.inr ⟨e', he', hs⟩)))))

theorem shed_record (w : World) {e : Event} (h : e.takes = none) : Shed w (w.record e) :=
  fun s hs => (inHand_record hs).resolve_left (by rw [h]; rintro ⟨⟩)

theorem shed_cancelTask (w : World) (t : Nat) : Shed w (w.cancelTask t) :=
  shed_setTask w t fun k => by split <;> rfl

/-- Cancelling several tasks. -/
theorem shed_cancelAll {α : Type} (f : α → Nat) : ∀ (xs : List α) (w : World),
    Shed w (xs.foldl (fun w x => w.cancelTask (f x)) w)
  | [], w => .refl w
  | x :: xs, w => (shed_cancelTask w (f x)).trans (shed_cancelAll f xs _)

theorem shed_exits : ∀ (ps : List Nat) (w : World),
    Shed w (ps.foldl (fun w p => w.processExit p) w)
  | [], w => .refl w
  | p :: ps, w =>
    Shed.trans (b := w.processExit p) (shed_same rfl rfl rfl rfl rfl) (shed_exits ps _)

/-! ## Operations -/

theorem inHand_issue {t : Nat} {o : Op} {w : World} {s : Nat} (h : (issue t o w).InHand s) :
    o.takes = some s ∨ w.InHand s := by
  cases o with
  | complete site i pid => exact inHand_record h
  | sigterm p | reapPid p => exact .inr (shed_same rfl rfl rfl rfl rfl s h)
  | inboxGetTimed r =>
    refine .inr (shed_setResident w r (f := fun x => { x with getter := .waiting }) ?_ s h)
    rintro i (hi | hi | hi)
    · exact .inl hi
    · cases hi
    · exact .inr (.inr hi)
  | _ => exact .inr h

theorem inHand_effect {t : Nat} {o : Op} {r : Reply} {w : World} {s : Nat}
    (h : (effect t o r w).InHand s) : o.takes = some s ∨ w.InHand s := by
  cases o with
  | mark m =>
    cases r <;> first
      | exact .inr h
      | exact inHand_record h
  | spawn i port tag n =>
    have hcall : Shed w (w.callSpawn i port) := shed_record w rfl
    cases r <;> exact .inr (hcall s h)
  | orphanReap known =>
    cases r <;> first
      | exact .inr h
      | exact .inr (shed_exits _ w s h)
  | complete site i pid =>
    cases r <;> first
      | exact .inr h
      | exact .inr (shed_record w rfl s h)
  | streamDone site i pid =>
    cases r <;> first
      | exact .inr h
      | exact .inr (shed_record w rfl s h)
  | inboxGet q =>
    cases r <;> first
      | exact .inr h
      | refine .inr (shed_setResident w q (f := fun x => { x with inbox := x.inbox.map List.tail })
          ?_ s h)
        rintro i (hi | hi)
        · refine .inl ?_
          cases hx : (w.resident q).inbox with
          | none => simp only [hx, Option.map_none, Option.getD_none, List.not_mem_nil] at hi
          | some xs =>
            simp only [hx, Option.map_some, Option.getD_some] at hi
            exact List.mem_of_mem_tail hi
        · exact .inr hi
  | inboxGetTimed q =>
    have hidle : Shed w (w.setResident q fun x => { x with getter := .idle }) := by
      refine shed_setResident w q ?_
      rintro i (hi | hi | hi)
      · exact .inl hi
      · cases hi
      · exact .inr (.inr hi)
    cases r <;> exact .inr (hidle s h)
  | _ => cases r <;> exact .inr (shed_same rfl rfl rfl rfl rfl s h)

theorem shed_delivered (t : Nat) (o : Op) (w : World) : Shed w (w.delivered t o) := by
  unfold World.delivered
  split
  · exact shed_setTask w t fun _ => rfl
  · split
    · exact shed_setTask w t fun _ => rfl
    · exact .refl w

theorem inHand_answer {t : Nat} {o : Op} {r : Reply} {w : World} {s : Nat}
    (h : (answer t o r w).InHand s) : o.takes = some s ∨ w.InHand s :=
  inHand_effect (shed_delivered t o _ s h)

/-! ## Idle programs -/

/-- Operations that take no slot and serve none. -/
def IdleOp (o : Op) : Prop :=
  match o.takes with
  | none => True
  | some _ => False

/-- The program puts no slot anywhere, and neither pops nor serves one. -/
abbrev Idle {α : Type} (m : Prog α) : Prop := Only (S := sig) Shed IdleOp m

section

@[simp] theorem idle_gets {α : Type} (f : World → α) : Idle (Co.gets f) := Shed.refl

@[simp] theorem shed_setSlot (w : World) (s : Nat) (f : Slot → Slot) : Shed w (w.setSlot s f) :=
  shed_same rfl rfl rfl rfl rfl

@[simp] theorem idle_onSlot (s : Nat) (f : Slot → Slot) : Idle (onSlot s f) :=
  fun w => shed_setSlot w s f

@[simp] theorem idle_setResult (s : Nat) (c : Completion) : Idle (setResult s c) := idle_onSlot _ _

@[simp] theorem idle_transition (s : Nat) (target : SlotState) : Idle (transition s target) := by
  refine only_update Shed.refl fun w w' h => ?_
  split at h
  · cases h
    exact shed_setSlot w s _
  · cases h

/-- An assignment to the holder, and to the active resident with it. -/
theorem shed_mirrored (w : World) {f : Holder → Holder} {g : Resident → Resident}
    (hf : (f w.hold).inflight = w.hold.inflight) (hg : ∀ x s, (g x).holds s → x.holds s) :
    Shed w ((w.setHold f).mirror g) :=
  (shed_setHold w (by rw [hf]; exact List.Subset.refl _)).trans (shed_mirror _ hg)

@[simp] theorem shed_setActiveSlot (s : Option Nat) (w : World) : Shed w (w.setActiveSlot s) :=
  shed_mirrored w rfl fun _ _ h => h

@[simp] theorem shed_setActiveHandle (h : Option Nat) (w : World) : Shed w (w.setActiveHandle h) :=
  shed_mirrored w rfl fun _ _ h => h

@[simp] theorem shed_setIdleHolder (h : Option Nat) (tag : Option String) (expires : Option Nat)
    (w : World) : Shed w (w.setIdleHolder h tag expires) :=
  shed_mirrored w rfl fun _ _ h => h

@[simp] theorem shed_clearIdleHolder (w : World) : Shed w w.clearIdleHolder :=
  shed_setIdleHolder none none none w

@[simp] theorem shed_setIdleExpiresAt (v : Option Nat) (w : World) :
    Shed w (w.setIdleExpiresAt v) := shed_mirrored w rfl fun _ _ h => h

@[simp] theorem shed_setLatestKeepAlive (v : Option Int) (w : World) :
    Shed w (w.setLatestKeepAlive v) := shed_mirrored w rfl fun _ _ h => h

@[simp] theorem shed_bumpSpawnSeq (w : World) : Shed w w.bumpSpawnSeq :=
  shed_mirrored w rfl fun _ _ h => h

theorem idle_onResident (r : Nat) {f : Resident → Resident}
    (h : ∀ x s, (f x).holds s → x.holds s) : Idle (onResident r f) :=
  fun w => shed_setResident w r (h _)

/-! ### The sidecars -/

variable (C : Config)

@[simp] theorem idle_computeExpectedDropMib (tag : String) :
    Idle (computeExpectedDropMib tag) := by
  refine ⟨only_readManifest?.mpr trivial, fun m => ?_⟩
  cases m <;> trivial

@[simp] theorem idle_orphanReapers : Idle (orphanReapers C) := by
  simp [orphanReapers, IdleOp, Op.takes]

@[simp] theorem idle_teardown (s : Nat) (reason : String) : Idle (teardown C s reason) := by
  refine ⟨Shed.refl, fun h => ?_⟩
  dsimp only
  split
  · trivial
  · simp [IdleOp, Op.takes]

@[simp] theorem idle_teardownIdleHolder : Idle (teardownIdleHolder C) := by
  refine ⟨Shed.refl, fun h => ?_⟩
  dsimp only
  split
  · trivial
  · simp [IdleOp, Op.takes]

@[simp] theorem idle_forceCold (s : Nat) (reason : String) : Idle (forceCold s reason) := by
  have reap : Idle (reapOwned s) := by
    refine ⟨Shed.refl, fun w => ?_⟩
    dsimp only
    split
    · simp [IdleOp, Op.takes]
    · trivial
  simp [forceCold, IdleOp, Op.takes, reap]

@[simp] theorem idle_bindSidecar (s pid : Nat) : Idle (bindSidecar s pid) :=
  fun w => shed_setSlot w s _

@[simp] theorem idle_takeHandle (pid : Nat) : Idle (takeHandle pid) := by
  simp [takeHandle]

@[simp] theorem idle_refuseNoManifest (s : Nat) : Idle (refuseNoManifest s) := by
  simp [refuseNoManifest, IdleOp, Op.takes]

@[simp] theorem idle_acquire (s : Nat) (m : Option Manifest) : Idle (acquire C s m) := by
  have warm (tag : String) : Idle (warmInherit tag) := by
    refine ⟨Shed.refl, fun h => ?_⟩
    dsimp only
    split
    · simp [IdleOp, Op.takes]
    · trivial
  have cold (port : Nat) (tag : String) (n : Nat) : Idle (coldSpawn C s port tag n) := by
    simp [coldSpawn, preSpawnGates, spawnActive, refuseGates, IdleOp, Op.takes]
  refine ⟨Shed.refl, fun port => ⟨idle_transition s _,
    fun _ => ⟨only_auditAsync.mpr trivial, fun _ =>
    ⟨Shed.refl, fun x => ⟨warm _, fun held => ?_⟩⟩⟩⟩⟩
  cases held with
  | some held => simp [inherit, IdleOp, Op.takes]
  | none => exact cold _ _ _

@[simp] theorem idle_loadingFail (s : Nat) : Idle (loadingFail C s) := by
  simp [loadingFail, IdleOp, Op.takes]

@[simp] theorem idle_shieldedSigterm (pid : Nat) : Idle (shieldedSigterm pid) := by
  refine ⟨fun w => shed_fork w fun _ => id, fun t => ⟨only_sync.mpr trivial, fun _ =>
    ⟨Shed.refl, fun o => ?_⟩⟩⟩
  dsimp only
  split <;> trivial

@[simp] theorem idle_processFinally : Idle processFinally := by
  refine ⟨Shed.refl, fun h => ⟨fun w => shed_setActiveSlot none w, fun _ => ?_⟩⟩
  dsimp only
  split <;> simp

@[simp] theorem idle_idleTick : Idle idleTick := by
  refine ⟨Shed.refl, fun h => ?_⟩
  dsimp only
  split
  · have fork (w : World) : Shed w (w.fork .idleTeardown) := shed_fork w fun _ => id
    simp [IdleOp, Op.takes, fork]
  · trivial

@[simp] theorem idle_evictedTurn (s : Nat) : Idle (evictedTurn s) := by
  have count (w : World) :
      Shed w (w.setHold fun h => { h with evictionCount := h.evictionCount + 1 }) :=
    shed_setHold w (List.Subset.refl _)
  simp [evictedTurn, IdleOp, Op.takes, count]

@[simp] theorem idle_recover (s : Nat) (e : Err) : Idle (recover C s e) := by
  simp [recover, IdleOp, Op.takes, Event.takes]

/-! ### Follow-ups and the grace window -/

@[simp] theorem idle_promoteFollowUp (s matched pid : Nat) :
    Idle (promoteFollowUp s matched pid) := by
  refine ⟨idle_bindSidecar _ _, fun _ => ⟨shed_setActiveSlot _, fun _ => only_tryExcept.mpr
    ⟨?_, fun e => ?_⟩⟩⟩
  · simp [IdleOp, Op.takes]
  · cases e <;> simp [IdleOp, Op.takes]

@[simp] theorem idle_followUpCancelled (s : Nat) : Idle (followUpCancelled s) := by
  refine ⟨Shed.refl, fun y => ⟨only_when.mpr fun _ => idle_onSlot _ _, fun _ =>
    ⟨only_failCompletionFuture.mpr trivial, fun _ => ⟨only_tryExcept.mpr
      ⟨idle_transition s _, fun e => ?_⟩, fun _ => ?_⟩⟩⟩⟩
  · cases e <;> trivial
  · simp [IdleOp, Op.takes]

@[simp] theorem idle_restartForFollowup : Idle (restartForFollowup C) := by
  have restart (now : Nat) (w : World) :
      Shed w (w.setHold fun x => { x with grace := x.grace.restart now }) :=
    shed_setHold w (List.Subset.refl _)
  simp [restartForFollowup, IdleOp, Op.takes, restart]

@[simp] theorem idle_followUpGrace (s : Nat) (b : Bool) (deadline : Nat) :
    Idle (followUpGrace C s b deadline) := by
  simp [followUpGrace, extendGrace, IdleOp, Op.takes]

@[simp] theorem idle_enterGrace (s : Nat) : Idle (enterGrace s) := by
  have start (now : Nat) (w : World) : Shed w (w.setHold fun h =>
      { h with grace := h.grace.start now (w.slot s).threadId (w.slot s).modelTag }) :=
    shed_setHold w (List.Subset.refl _)
  have note (w : World) : Shed w (w.record .graceStarted) := shed_record w rfl
  have undrained (w : World) : Shed w (w.record (.undrained s)) := shed_record w rfl
  simp [enterGrace, IdleOp, Op.takes, Event.takes, start, note, undrained]

@[simp] theorem idle_leaveGrace (s : Nat) : Idle (leaveGrace C s) := by
  have idle (now : Nat) (tag : String) (w : World) :
      Shed w (w.setHold fun h => { h with idle := ⟨some now, some tag⟩ }) :=
    shed_setHold w (List.Subset.refl _)
  simp [leaveGrace, IdleOp, Op.takes, idle]

/-! ### Riders on their way out -/

@[simp] theorem idle_promoteRider (s pid : Nat) : Idle (promoteRider s pid) := by
  refine ⟨Shed.refl, fun port => ⟨idle_onSlot _ _, fun _ => only_tryExcept.mpr ⟨?_, fun e => ?_⟩⟩⟩
  · simp
  · cases e <;> simp [IdleOp, Op.takes]

@[simp] theorem idle_clearInflight : Idle clearInflight := fun w =>
  shed_setHold w (List.nil_subset _)

@[simp] theorem idle_parkRider (anchor s : Nat) : Idle (parkRider anchor s) := by
  have leave (w : World) :
      Shed w (w.setHold fun h => { h with inflight := h.inflight.erase s }) :=
    shed_setHold w List.erase_subset
  simp [parkRider, leaveInflight, leave]

@[simp] theorem idle_startWaiters (riders : List Nat) : Idle (startWaiters riders) := by
  refine only_forEach (fun s => ?_) riders
  refine ⟨Shed.refl, fun x => only_ite.mpr ⟨fun _ => ?_, fun _ w => ?_⟩⟩
  · exact only_assertionError.mpr trivial
  · exact (shed_fork w fun _ => id).trans (shed_setHold _ (List.Subset.refl _))

@[simp] theorem idle_settleStreamed (anchor : Nat) (done : List Nat) (s : Nat) :
    Idle (settleStreamed anchor done s) := by
  refine ⟨Shed.refl, fun w => ?_⟩
  cases w with
  | none => trivial
  | some w => simp

@[simp] theorem idle_cancelAndWait (s : Nat) : Idle (cancelAndWait s) := by
  refine ⟨Shed.refl, fun t => ?_⟩
  cases t with
  | none => trivial
  | some t =>
    refine ⟨fun w => ?_, fun _ => only_suppressAll.mpr (only_sync.mpr trivial)⟩
    show Shed w (w.cancelRider s)
    unfold World.cancelRider
    split
    · exact shed_cancelTask w _
    · exact .refl w

@[simp] theorem idle_drainStreamed (anchor : Nat) : Idle (drainStreamed anchor) := by
  have unwind : Idle unwindStreamed :=
    ⟨Shed.refl, fun h => ⟨only_forEach (fun s => idle_onSlot s _) _, fun _ =>
      ⟨only_forEach idle_cancelAndWait _, fun _ => idle_clearInflight⟩⟩⟩
  refine ⟨Shed.refl, fun h => ⟨only_observed trivial (idle_startWaiters _), fun _ =>
    ⟨Shed.refl, fun ws => only_tryFinally.mpr ⟨only_observed trivial fun pending =>
      only_ite.mpr ⟨fun _ => trivial, fun _ => ?_⟩, unwind⟩⟩⟩⟩
  exact ⟨only_waitFirst.mpr trivial, fun done => ⟨Shed.refl, fun h =>
    ⟨only_forEach (idle_settleStreamed anchor done) _, fun _ => trivial⟩⟩⟩

@[simp] theorem idle_settleCompleted (anchor : Nat) (done : List Nat) (s : Nat) :
    Idle (settleCompleted anchor done s) := by
  have answer (o : Option Outcome) (v : Option Completion) : Idle (answerRider s o v) := by
    unfold answerRider
    split <;> simp [IdleOp, Op.takes]
  refine ⟨Shed.refl, fun w => ?_⟩
  match w with
  | none => trivial
  | some (t, o, v) => simp [answer]

@[simp] theorem idle_abortCompletions : Idle abortCompletions := by
  refine ⟨Shed.refl, fun h => ⟨only_forEach (fun s => ?_) _, fun _ => idle_clearInflight⟩⟩
  exact ⟨idle_cancelAndWait s, fun _ => only_failCompletionFuture.mpr trivial⟩

@[simp] theorem idle_noteFannedOut : Idle noteFannedOut := fun w => shed_record w rfl

/-! ### The residents -/

@[simp] theorem idle_reapClaimed (handle bootingPid : Option Nat) :
    Idle (reapClaimed handle bootingPid) := by
  refine ⟨Shed.refl, fun alive => ?_⟩
  dsimp only
  split <;> simp [reapResidentHandle, reapBootingPid, IdleOp, Op.takes]

@[simp] theorem idle_evictTeardown (r : Nat) : Idle (evictTeardown r) := by
  have claim : Idle (onResident r fun x =>
      { x with tornDown := true, handle := none, bootingPid := none }) :=
    idle_onResident r fun _ _ h => h
  simp [evictTeardown, claim]

@[simp] theorem idle_spawnForResident (r s : Nat) : Idle (spawnForResident C r s) := by
  have booting (v : Option Nat) : Idle (onResident r fun x => { x with bootingPid := v }) :=
    idle_onResident r fun _ _ h => h
  have up (pid : Nat) : Idle (onResident r fun x =>
      { x with
        handle := some pid
        bootingPid := none
        state := .active
        spawnSeq := x.spawnSeq + 1 }) := idle_onResident r fun _ _ h => h
  simp [spawnForResident, bootResident, runSpawnSafetyGate, reapResidentHandle, IdleOp, Op.takes,
    booting, up]

@[simp] theorem idle_awaitStreamedSlot (s : Nat) : Idle (awaitStreamedSlot s) := by
  simp [awaitStreamedSlot, IdleOp, Op.takes]

@[simp] theorem idle_settleFanOut (r t : Nat) : Idle (settleFanOut r t) := by
  refine ⟨Shed.refl, fun w => ?_⟩
  dsimp only
  split
  · trivial
  · refine ⟨idle_onResident r fun _ _ h => h, fun _ => ?_⟩
    dsimp only
    split <;> simp [IdleOp, Op.takes]

@[simp] theorem idle_interruptFanOut (r : Nat) : Idle (interruptFanOut r) :=
  ⟨Shed.refl, fun _ => ⟨fun w => shed_cancelAll Prod.fst _ w, fun _ =>
    ⟨only_forEach (fun _ => only_failCompletionFuture.mpr trivial) _, fun _ =>
      idle_onResident r fun _ _ h => h⟩⟩⟩

@[simp] theorem idle_restartResidentGrace (r : Nat) : Idle (restartResidentGrace C r) := by
  have restart (now : Nat) :
      Idle (onResident r fun x => { x with grace := x.grace.restart now }) :=
    idle_onResident r fun _ _ h => h
  simp [restartResidentGrace, IdleOp, Op.takes, restart]

@[simp] theorem idle_newDeadline (b : Bool) (deadline : Nat) : Idle (newDeadline C b deadline) := by
  simp [newDeadline, IdleOp, Op.takes]

/-! ### Routing, shutdown and the routes -/

@[simp] theorem idle_readModelFootprint (tag : String) : Idle (readModelFootprint tag) := by
  refine ⟨only_readManifest?.mpr trivial, fun m => ?_⟩
  cases m <;> trivial

@[simp] theorem idle_vramAdmits (fp : Footprint) : Idle (vramAdmits fp) := by
  refine ⟨Shed.refl, fun b => only_ite.mpr ⟨fun _ => trivial, fun _ =>
    ⟨only_vramBudget.mpr trivial, fun free => ⟨Shed.refl, fun x => ?_⟩⟩⟩⟩
  cases free <;> trivial

@[simp] theorem idle_handleEvictedSlot (s : Nat) : Idle (handleEvictedSlot s) := by
  have fork (w : World) : Shed w (w.fork (.auditEvicted s)) := shed_fork w fun _ => id
  have count (w : World) :
      Shed w (w.setHold fun h => { h with evictionCount := h.evictionCount + 1 }) :=
    shed_setHold w (List.Subset.refl _)
  simp [handleEvictedSlot, IdleOp, Op.takes, fork, count]

theorem idle_stopWorker : Idle stopWorker := by
  refine ⟨Shed.refl, fun b => only_when.mpr fun _ =>
    ⟨fun w => shed_cancelTask w _, fun _ => ⟨only_sync.mpr trivial, fun _ =>
      ⟨Shed.refl, fun o => ?_⟩⟩⟩⟩
  dsimp only
  split <;> trivial

theorem idle_stopDrivers : Idle stopDrivers :=
  ⟨only_mark.mpr trivial, fun _ => ⟨Shed.refl, fun _ =>
    ⟨fun w => shed_cancelAll (fun t => t) _ w, fun _ => only_when.mpr fun _ =>
      only_sync.mpr trivial⟩⟩⟩

theorem idle_drainBgTasks : Idle drainBgTasks :=
  ⟨Shed.refl, fun _ => only_when.mpr fun _ => only_tryExcept.mpr ⟨only_sync.mpr trivial,
    fun _ => ⟨fun w => shed_cancelAll (fun t => t) _ w, fun _ => only_sync.mpr trivial⟩⟩⟩

@[simp] theorem idle_streamDoneWaiter (s : Nat) : Idle (streamDoneWaiter s) := by
  simp [streamDoneWaiter, IdleOp, Op.takes]

@[simp] theorem idle_awaitReady (s : Nat) : Idle (awaitReady s) := by
  simp only [awaitReady, only_bind, only_monotonic, only_loop, only_ite, only_pure,
    only_tryExcept, only_sync, IdleOp, Op.takes, implies_true, and_true, true_and]
  intro _ _ _ _ e
  cases e <;> trivial

@[simp] theorem idle_routeUpstream (s : Nat) : Idle (routeUpstream s) := by
  refine ⟨Shed.refl, fun x => ?_⟩
  dsimp only
  split
  · trivial
  · exact only_tryExcept.mpr ⟨only_sync.mpr trivial, fun _ => trivial⟩

end

end Turbohaul
