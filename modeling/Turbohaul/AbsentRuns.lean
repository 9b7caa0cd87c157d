/-
# `AbsentRuns` — a slot that is never submitted past the queue stays absent

A run in which no `upsert_slot` of the slot is answered is one in which its `submit`
never comes to its writes: it has not been called, or it was refused.  In such a run
the slot is absent throughout.  Wherever a task gets a slot, from a pop, from an
inbox, from a set or from what it was started with, it gets another one, and so it
is another one that it serves or puts somewhere.
-/
import Turbohaul.Absent

namespace Turbohaul

open Coop

/-- No write of the slot's row is answered to `submit`. -/
def unwritten (C : Config) (b : Nat) : Admit (system C) where
  reply := fun _ o _ _ =>
    match o with
    | .upsertSlot s => s ≠ b
    | _ => true

/-- The slot is absent. -/
def absence (C : Config) (b : Nat) : Outline (system C) where
  cond := unwritten C b
  base := fun _ => True
  inv := Absent b
  guar := fun _ _ _ => True

/-- The program of task `t` keeps the slot absent, and its value satisfies `Φ`. -/
abbrev Spots (C : Config) (b t : Nat) {α : Type} (Φ : α → Prop) (m : Prog α) : Prop :=
  Finds (absence C b) t (Absent b) Φ m

/-- The program of task `t` keeps the slot absent. -/
abbrev Avoids (C : Config) (b t : Nat) {α : Type} (m : Prog α) : Prop :=
  Spots C b t (fun _ => True) m

variable {C : Config} {b t : Nat}

theorem frames_absence : Frames (absence C b) t (fun _ w => Absent b w) Shed
    (fun o => o.takes ≠ some b) where
  act := fun h ha => h.absent ha
  ask := fun _ ho _ _ ha _ _ _ hs => (inHand_answer hs).elim ho ha
  await := fun _ ho _ _ ha =>
    ⟨⟨fun hs => (inHand_issue hs).elim ho ha, trivial⟩, fun _ _ hg _ _ _ hs =>
      (inHand_answer hs).elim ho hg.1⟩

/-- An idle program. -/
theorem Avoids.idle {α : Type} {m : Prog α} (h : Idle m) : Avoids C b t m := by
  refine .of_keeps ((frames_absence.fewer fun o ho => ?_).keeps h)
  unfold IdleOp at ho
  split at ho
  · next hn =>
    rw [hn]
    intro h
    cases h
  · exact ho.elim

/-- A program whose operations take other slots. -/
theorem Avoids.of_only {α : Type} {m : Prog α}
    (h : Only (S := sig) Shed (fun o => o.takes ≠ some b) m) : Avoids C b t m :=
  .of_keeps (frames_absence.keeps h)

theorem Avoids.mark {m : Mark} (h : (Event.marked m).takes ≠ some b) : Avoids C b t (mark m) :=
  .of_only (only_mark.mpr h)

theorem Avoids.modify {f : World → World} (h : ∀ w, Absent b w → Absent b (f w)) :
    Avoids C b t (Co.modify f) := Finds.modify h

theorem Avoids.bind {α β : Type} {m : Prog α} {k : α → Prog β} {Φ : β → Prop}
    (hm : Avoids C b t m) (hk : ∀ a, Spots C b t Φ (k a)) : Spots C b t Φ (m >>= k) :=
  Finds.bind hm fun a _ => hk a

theorem Avoids.forEach {γ : Type} {f : γ → Prog Unit} {xs : List γ}
    (h : ∀ x ∈ xs, Avoids C b t (f x)) : Avoids C b t (Co.forEach f xs) :=
  .of_keeps (Keeps.forEach_mem fun x hx => (h x hx).keeps)

theorem Avoids.loop {α β : Type} {x : β} {body : β → Prog (β ⊕ α)}
    (h : ∀ x, Avoids C b t (body x)) : Avoids C b t (.loop x body) :=
  Finds.loop (Ψ := fun _ => True) trivial fun x _ =>
    (h x).mono fun _ _ => ⟨fun _ _ => trivial, fun _ _ => trivial⟩

theorem Avoids.whileTrue {body : Prog Bool} (h : Avoids C b t body) :
    Avoids C b t (Co.whileTrue body) :=
  Avoids.loop fun _ => Avoids.bind (m := body) h fun _ => .pure trivial

theorem Avoids.observed {α : Type} {k : Mark} {m : Prog α} {Φ : α → Prop}
    (hk : (Event.marked k).takes = none) (hm : Spots C b t Φ m) :
    Spots C b t Φ (observed k m) := by
  refine Finds.bind hm.attempt fun r hr => ?_
  cases r with
  | ok a => exact .pure (hr a rfl)
  | error e =>
    refine (Avoids.mark ?_).bind fun _ => .throw e
    rw [hk]
    intro h
    cases h

theorem Avoids.completeFn {site : Site} {s pid : Nat} (hs : s ≠ b) :
    Avoids C b t (completeFn site s pid) :=
  .of_only (only_completeFn.mpr fun h => hs (Option.some.inj h))

theorem Avoids.handToRoute {s pid : Nat} (hs : s ≠ b) : Avoids C b t (handToRoute s pid) := by
  refine .modify fun w ha hh => ?_
  rcases inHand_record hh with h | h
  · exact hs (Option.some.inj h)
  · exact ha (shed_setSlot w s _ b h)

/-! ## The queue -/

theorem shed_setQueue (w : World) {f : Queue → Queue} (hs : (f w.queue).staging ⊆ w.queue.staging)
    (hb : (f w.queue).acceptBuf ⊆ w.queue.acceptBuf) : Shed w (w.setQueue f) := by
  rintro s (h | h | h)
  · exact .inl (hs h)
  · exact .inr (.inl (hb h))
  · exact .inr (.inr h)

theorem shed_flagEvicted (s : Nat) (w : World) : Shed w (w.flagEvicted s) := by
  unfold World.flagEvicted
  split
  · exact shed_setSlot w s _
  · exact .refl w

theorem spots_popFirst : Spots C b t (fun r => r ≠ some b) popFirst := by
  refine .act fun w ha => ?_
  dsimp only
  split
  · exact ⟨ha, by rintro _ ⟨⟩; rintro ⟨⟩⟩
  · next s rest hs =>
    have hne : s ≠ b := by
      rintro rfl
      exact ha (.inl (by rw [hs]; exact List.mem_cons_self))
    refine ⟨Shed.absent (.trans (shed_setQueue w ?_ (List.Subset.refl _))
      (shed_flagEvicted s _)) ha, ?_⟩
    · rw [hs]
      exact List.subset_cons_self s rest
    · rintro _ ⟨⟩ h
      exact hne (Option.some.inj h)

theorem spots_popFirstMatching (tag : String) :
    Spots C b t (fun r => r ≠ some b) (popFirstMatching C tag) := by
  refine .act fun w ha => ?_
  dsimp only
  split
  · exact ⟨ha, by rintro _ ⟨⟩; rintro ⟨⟩⟩
  · next s hs =>
    have hmem : s ∈ w.queue.staging := List.mem_of_mem_take (List.mem_of_find?_eq_some hs)
    have hne : s ≠ b := by
      rintro rfl
      exact ha (.inl hmem)
    refine ⟨Shed.absent (.trans (shed_setQueue w List.erase_subset (List.Subset.refl _))
      (shed_flagEvicted s _)) ha, ?_⟩
    rintro _ ⟨⟩ h
    exact hne (Option.some.inj h)

/-- The slot that is promoted was in the buffer. -/
theorem idle_promoteOne : Idle promoteOne := by
  intro w
  dsimp only
  split
  · exact .refl w
  · next s rest hb =>
    have hdrop : Shed w (w.setQueue fun q => { q with acceptBuf := rest }) :=
      shed_setQueue w (List.Subset.refl _) (by rw [hb]; exact List.subset_cons_self s rest)
    unfold World.moveTo
    generalize hx : Slot.transition s .staged _ = r
    cases r with
    | error e => exact hdrop
    | ok x =>
      rintro i (h | h | h)
      · rcases List.mem_append.mp h with h | h
        · exact .inl h
        · rw [List.mem_singleton.mp h]
          exact .inr (.inl (by rw [hb]; exact List.mem_cons_self))
      · exact hdrop i (.inr (.inl h))
      · exact .inr (.inr h)

theorem idle_replenish : Idle (replenish C) :=
  ⟨Shed.refl, fun _ => only_when.mpr fun _ => idle_promoteOne⟩

theorem idle_drainAcceptBuf : Idle (drainAcceptBuf C) :=
  only_whileTrue.mpr ⟨Shed.refl, fun _ => only_ite.mpr
    ⟨fun _ => ⟨idle_promoteOne, fun _ => trivial⟩, fun _ => trivial⟩⟩

theorem idle_updateRunLength (s : Option Nat) : Idle (updateRunLength s) := by
  cases s with
  | none => trivial
  | some s => exact fun w => shed_setQueue w (List.Subset.refl _) (List.Subset.refl _)

theorem idle_headStarved (s : Nat) (tag : String) : Idle (headStarved C s tag) := by
  simp [headStarved, IdleOp, Op.takes]

theorem spots_popNextFifo : Spots C b t (fun r => r ≠ some b) (popNextFifo C) := by
  refine .bind spots_popFirst fun r hr => ?_
  cases r with
  | some s =>
    exact (Avoids.idle idle_replenish).bind fun _ =>
      (Avoids.idle (idle_updateRunLength _)).bind fun _ => .pure hr
  | none =>
    exact (Avoids.idle idle_drainAcceptBuf).bind fun _ => .bind spots_popFirst fun r hr =>
      (Avoids.idle (idle_updateRunLength r)).bind fun _ => .pure hr

theorem spots_popPreferring (tag : String) :
    Spots C b t (fun r => r ≠ some b) (popPreferring C tag) := by
  refine Finds.bind (spots_popFirstMatching tag) fun r hr => ?_
  cases r with
  | some s => exact .pure hr
  | none => exact spots_popFirst

theorem spots_popPath (tag : Option String) (staging : List Nat) :
    Spots C b t (fun r => r ≠ some b) (popPath C tag staging) := by
  unfold popPath
  split
  · refine (Avoids.idle (idle_headStarved _ _)).bind fun starved =>
      (Avoids.idle (idle_gets _)).bind fun q => .bind (Φ := fun r => r ≠ some b) ?_ fun r hr => ?_
    · exact .ite (fun _ => spots_popFirst) fun _ => spots_popPreferring _
    · exact (Avoids.idle (only_when.mpr fun _ => idle_replenish)).bind fun _ =>
        (Avoids.idle (idle_updateRunLength r)).bind fun _ => .pure hr
  · exact spots_popNextFifo

/-- What a pop returns is another slot. -/
theorem spots_popNext (tag : Option String) :
    Spots C b t (fun r => r ≠ some b) (popNext C tag) := by
  refine (Avoids.idle (idle_gets _)).bind fun q => .bind (spots_popPath tag _) fun r hr => ?_
  cases r with
  | none => exact .pure hr
  | some s => exact (Avoids.mark (m := .popped s) hr).bind fun _ => .pure hr

theorem spots_popMatchedThread (threadId tag : String) :
    Spots C b t (fun r => r ≠ some b) (popMatchedThread threadId tag) := by
  refine .ite (fun _ => .pure (by rintro ⟨⟩)) fun _ =>
    .bind (Φ := fun r => r ≠ some b) (.act fun w ha => ?_)
    fun r hr => ?_
  · dsimp only
    split
    · exact ⟨ha, by rintro _ ⟨⟩; rintro ⟨⟩⟩
    · next s hs =>
      have hne : s ≠ b := by
        rintro rfl
        exact ha (.inl (List.mem_of_find?_eq_some hs))
      refine ⟨Shed.absent (.trans (shed_setQueue w List.erase_subset (List.Subset.refl _))
        (shed_flagEvicted s _)) ha, ?_⟩
      rintro _ ⟨⟩ h
      exact hne (Option.some.inj h)
  · cases r with
    | none => exact .pure hr
    | some s => exact (Avoids.mark (m := .matched s) hr).bind fun _ => .pure hr

/-- Another slot comes into the queue. -/
theorem absent_push {s : Nat} (hs : s ≠ b) {w : World} {f : Queue → Queue}
    (hf : ∀ i, i ∈ (f w.queue).staging ∨ i ∈ (f w.queue).acceptBuf →
      i = s ∨ i ∈ w.queue.staging ∨ i ∈ w.queue.acceptBuf) (ha : Absent b w) :
    Absent b (w.setQueue f) := by
  rintro (h | h | h)
  · rcases hf b (.inl h) with h | h | h
    · exact hs h.symm
    · exact ha (.inl h)
    · exact ha (.inr (.inl h))
  · rcases hf b (.inr h) with h | h | h
    · exact hs h.symm
    · exact ha (.inl h)
    · exact ha (.inr (.inl h))
  · exact ha (.inr (.inr h))

theorem avoids_enqueue {s : Nat} (hs : s ≠ b) : Avoids C b t (enqueue C s) := by
  refine (Avoids.idle (idle_gets _)).bind fun q => .ite (fun _ => .throw _) fun _ =>
    .ite (fun _ => ?_) fun _ => .ite (fun _ => .throw _) fun _ => ?_
  · refine (Avoids.idle (idle_transition s _)).bind fun _ => .modify fun w =>
      absent_push hs fun i hi => ?_
    simpa only [List.mem_append, List.mem_singleton, or_assoc, or_comm, or_left_comm] using hi
  · refine (Avoids.idle (idle_transition s _)).bind fun _ => .modify fun w =>
      absent_push hs fun i hi => ?_
    simpa only [List.mem_append, List.mem_singleton, or_assoc, or_comm, or_left_comm] using hi

theorem avoids_enqueueHead {s : Nat} (hs : s ≠ b) : Avoids C b t (enqueueHead s) := by
  refine (Avoids.idle (idle_gets _)).bind fun q => .ite (fun _ => .throw _) fun _ =>
    (Avoids.idle (idle_gets _)).bind fun x =>
    (Avoids.idle (only_when.mpr fun _ => idle_transition s _)).bind fun _ =>
    (Avoids.mark (m := .headInsert s) (by rintro ⟨⟩)).bind fun _ =>
    .modify fun w => absent_push hs fun i hi => ?_
  simpa only [List.mem_cons, or_assoc] using hi

theorem idle_closeQueue : Idle closeQueue :=
  fun w => shed_setQueue w (List.nil_subset _) (List.nil_subset _)

/-! ## The serial worker -/

/-- Another slot comes among the riders. -/
theorem absent_setInflight {s : Nat} (hs : s ≠ b) {w : World} {f : Holder → Holder}
    (hf : ∀ i ∈ (f w.hold).inflight, i = s ∨ i ∈ w.hold.inflight) (ha : Absent b w) :
    Absent b (w.setHold f) := by
  rintro (h | h | h | h)
  · exact ha (.inl h)
  · exact ha (.inr (.inl h))
  · rcases hf b h with h | h
    · exact hs h.symm
    · exact ha (.inr (.inr (.inl h)))
  · exact ha (.inr (.inr (.inr h)))

theorem avoids_admitRider (tag : String) (streaming : Bool) (pid : Nat) {extra : Nat}
    (hs : extra ≠ b) : Avoids C b t (admitRider tag streaming pid extra) := by
  have join : Avoids C b t (joinInflight extra) := by
    refine (Avoids.modify fun w => absent_setInflight hs fun i hi => ?_).bind
      fun _ => Avoids.idle fun w => shed_record w rfl
    exact (List.mem_append.mp hi).symm.imp_left List.mem_singleton.mp
  refine (Avoids.idle (idle_gets _)).bind fun x => .ite (fun _ => ?_) fun _ => .ite (fun _ => ?_)
    fun _ => ?_
  · exact (avoids_enqueueHead hs).bind fun _ => .pure trivial
  · exact Avoids.idle ⟨only_failCompletionFuture.mpr trivial, fun _ => ⟨only_auditAsync.mpr trivial,
      fun _ => trivial⟩⟩
  · refine (Avoids.mark (m := .rider extra) (by rintro ⟨⟩)).bind fun _ =>
      (Avoids.idle (idle_promoteRider extra pid)).bind fun promoted => .ite (fun _ => ?_)
        fun _ => .pure trivial
    exact join.bind fun _ => Avoids.idle ⟨only_auditAsync.mpr trivial, fun _ => trivial⟩

theorem avoids_admitOnce (tag : String) (streaming : Bool) (pid n : Nat)
    (kas : List (Option Int)) : Avoids C b t (admitOnce C tag streaming pid n kas) := by
  refine Avoids.loop fun kas => ?_
  refine (Avoids.idle (idle_gets _)).bind fun h => .ite (fun _ => ?_) fun _ => .pure trivial
  refine Finds.bind (spots_popNext _) fun r hr => ?_
  cases r with
  | none => exact .pure trivial
  | some extra =>
    have hs : extra ≠ b := fun h => hr (congrArg some h)
    refine (avoids_admitRider tag streaming pid hs).bind fun a => ?_
    match a with
    | none => exact .pure trivial
    | some false => exact .pure trivial
    | some true =>
      exact (Avoids.idle (idle_gets _)).bind fun x =>
        (Finds.when fun _ => Avoids.handToRoute hs).bind fun _ _ => .pure trivial

/-- The riders that are admitted are other slots. -/
theorem spots_admitNonstreamingRiders (tag : String) (pid n : Nat) :
    Spots C b t (fun xs => b ∉ xs) (admitNonstreamingRiders C tag pid n) := by
  refine .loop (Ψ := fun xs => b ∉ xs) List.not_mem_nil fun admitted ha => ?_
  have stop : Spots C b t (fun r : List Nat ⊕ List Nat =>
      (∀ xs, r = .inl xs → b ∉ xs) ∧ ∀ xs, r = .inr xs → b ∉ xs) (pure (.inr admitted)) :=
    .pure ⟨(by rintro _ ⟨⟩), by rintro _ ⟨⟩; exact ha⟩
  refine (Avoids.idle (idle_gets _)).bind fun h => .ite (fun _ => ?_) fun _ => stop
  refine Finds.bind (spots_popNext _) fun r hr => ?_
  cases r with
  | none => exact stop
  | some extra =>
    have hs : extra ≠ b := fun h => hr (congrArg some h)
    refine (avoids_admitRider tag false pid hs).bind fun a => ?_
    match a with
    | none => exact stop
    | some false => exact .pure ⟨by rintro _ ⟨⟩; exact ha, (by rintro _ ⟨⟩)⟩
    | some true =>
      refine .pure ⟨?_, (by rintro _ ⟨⟩)⟩
      rintro _ ⟨⟩ h
      rcases List.mem_append.mp h with h | h
      · exact ha h
      · exact hs (List.mem_singleton.mp h).symm

theorem avoids_startCompletions (pid : Nat) {riders : List Nat} (hr : b ∉ riders) :
    Avoids C b t (startCompletions pid riders) := by
  refine Avoids.forEach fun s hs => .modify fun w ha h => ?_
  rcases inHand_fork (shed_setHold _ (List.Subset.refl _) b h) with h | h
  · have hsb : s = b := h
    exact hr (hsb ▸ hs)
  · exact ha h

theorem avoids_drainNonstreamingRiders (anchor : Nat) (tag : String) (pid n : Nat) :
    Avoids C b t (drainNonstreamingRiders C anchor tag pid n) := by
  refine Finds.bind (Φ := fun h : Holder => b ∉ h.inflight)
    (.gets fun w ha h => ha (.inr (.inr (.inl h)))) fun h hi =>
      (avoids_startCompletions pid hi).bind fun _ =>
      .tryFinally ?_ (Avoids.idle idle_abortCompletions).keeps
  refine Finds.bind (spots_admitNonstreamingRiders tag pid n) fun more hm =>
    (avoids_startCompletions pid hm).bind fun _ => (Avoids.idle (idle_gets _)).bind fun tasks =>
    Avoids.loop fun pending => ?_
  refine .ite (fun _ => .pure trivial) fun _ => (Avoids.idle (only_waitFirst.mpr trivial)).bind
    fun done => (Avoids.idle (idle_gets _)).bind fun h =>
    (Avoids.idle (only_forEach (idle_settleCompleted anchor done) _)).bind fun _ =>
    Finds.bind (spots_admitNonstreamingRiders tag pid n) fun more hm =>
    (avoids_startCompletions pid hm).bind fun _ => (Avoids.idle (idle_gets _)).bind fun ts =>
    .pure trivial

theorem avoids_fanOutAndDrain {anchor : Nat} (hs : anchor ≠ b) (pid n : Nat) :
    Avoids C b t (fanOutAndDrain C anchor pid n) := by
  have seat : Avoids C b t (seatAnchor anchor) := by
    refine (Avoids.modify fun w => absent_setInflight hs fun i hi => ?_).bind
      fun _ => Avoids.idle fun w => shed_record w rfl
    exact .inl (List.mem_singleton.mp hi)
  refine (Avoids.idle (idle_gets _)).bind fun x => seat.bind fun _ =>
    Avoids.bind (Avoids.idle fun w => shed_record w rfl) fun _ =>
    (Avoids.idle (idle_onSlot _ _)).bind fun _ =>
    Avoids.bind (Finds.when fun _ => Avoids.handToRoute hs) fun _ =>
    Avoids.bind (Avoids.observed rfl (avoids_admitOnce _ _ pid n _)) fun kas =>
    Avoids.bind (Avoids.idle fun w => shed_setLatestKeepAlive _ w) fun _ =>
    .ite (fun _ => ?_) fun _ => ?_
  · exact Avoids.idle (idle_drainStreamed anchor)
  · exact avoids_drainNonstreamingRiders anchor _ pid n

theorem avoids_streamed {site : Site} {s pid : Nat} (hs : s ≠ b) :
    Avoids C b t (do
      handToRoute s pid
      streamDone site s pid
      setResult s .streamed) :=
  (Avoids.handToRoute hs).bind fun _ => Avoids.idle ⟨only_streamDone.mpr trivial, fun _ =>
    idle_setResult s _⟩

theorem avoids_completed {site : Site} {s pid : Nat} (hs : s ≠ b) :
    Avoids C b t (do
      let x ← completeFn site s pid
      setResult s (.upstream x)) :=
  (Avoids.completeFn hs).bind fun _ => Avoids.idle (idle_setResult s _)

theorem avoids_serveAnchor {s : Nat} (hs : s ≠ b) (pid : Nat) :
    Avoids C b t (serveAnchor C s pid) :=
  (Avoids.idle (idle_gets _)).bind fun _ => .ite
    (fun _ => .tryFinally (avoids_fanOutAndDrain hs pid _) (Avoids.idle idle_noteFannedOut).keeps)
    fun _ => .ite (fun _ => avoids_streamed hs) fun _ => avoids_completed hs

theorem avoids_serveFollowUp {s : Nat} (hs : s ≠ b) (pid : Nat) :
    Avoids C b t (serveFollowUp s pid) := by
  have complete : Avoids C b t (completeFollowUp s pid) := by
    refine (Avoids.idle (idle_gets _)).bind fun y => .ite (fun _ => .ite (fun _ => ?_) fun _ => ?_)
      fun _ => avoids_completed hs
    · exact Avoids.idle (only_assertionError.mpr trivial)
    · exact avoids_streamed hs
  refine Finds.bind complete.attempt fun r _ => ?_
  match r with
  | .ok _ => exact Avoids.idle ⟨fun w => shed_record w rfl, fun _ => trivial⟩
  | .error .cancelled => exact Avoids.idle ⟨idle_followUpCancelled s, fun _ => trivial⟩
  | .error (.raised e) =>
    exact Avoids.idle ⟨only_failCompletionFuture.mpr trivial, fun _ => trivial⟩

theorem avoids_followUp (anchor : Nat) {s : Nat} (hs : s ≠ b) (pid deadline : Nat) :
    Avoids C b t (followUp C anchor s pid deadline) := by
  refine (Avoids.idle (idle_promoteFollowUp _ _ _)).bind fun promoted => .ite (fun _ => ?_)
    fun _ => .pure trivial
  refine (avoids_serveFollowUp hs pid).bind fun completed => Avoids.idle ?_
  simp [IdleOp, Op.takes]

theorem avoids_graceWindow (s pid : Nat) : Avoids C b t (graceWindow C s pid) := by
  refine (Avoids.idle (idle_gets _)).bind fun x => (Avoids.idle (only_monotonic.mpr trivial)).bind
    fun start => Avoids.loop fun deadline => ?_
  refine (Avoids.idle (only_monotonic.mpr trivial)).bind fun now =>
    (Avoids.idle (idle_gets _)).bind fun stop => .ite (fun _ => ?_) fun _ => .pure trivial
  refine Finds.bind (spots_popMatchedThread _ _) fun r hr => ?_
  cases r with
  | none => exact Avoids.idle ⟨only_sleep.mpr trivial, fun _ => trivial⟩
  | some matched =>
    exact (avoids_followUp s (fun h => hr (congrArg some h)) pid deadline).bind fun _ =>
      .pure trivial

theorem avoids_processSlot {s : Nat} (hs : s ≠ b) : Avoids C b t (processSlot C s) := by
  have active (pid : Nat) : Avoids C b t (activate C s pid) :=
    (Avoids.idle (idle_transition s _)).bind fun _ =>
      (Avoids.idle (only_auditAsync.mpr trivial)).bind fun _ =>
      (Avoids.idle (idle_gets _)).bind fun _ =>
      Avoids.bind (Avoids.idle fun w => shed_setLatestKeepAlive _ w) fun _ =>
      (avoids_serveAnchor hs pid).bind fun _ => (Avoids.idle (idle_enterGrace s)).bind fun _ =>
      (avoids_graceWindow s pid).bind fun _ => Avoids.idle (idle_leaveGrace C s)
  refine Avoids.bind (Avoids.idle fun w => shed_setActiveSlot _ w) fun _ =>
    Avoids.bind (Avoids.idle fun w => shed_setLatestKeepAlive _ w) fun _ =>
    .tryFinally ?_ (Avoids.idle idle_processFinally).keeps
  refine (Avoids.idle (idle_gets _)).bind fun x =>
    (Avoids.idle (only_readManifest?.mpr trivial)).bind fun m => (Avoids.idle (idle_gets _)).bind
    fun h => .ite (fun _ => Avoids.idle (idle_refuseNoManifest s)) fun _ =>
      (Avoids.idle (idle_acquire C s m)).bind fun a => ?_
  match a with
  | none => exact .pure trivial
  | some (pid, healthy) =>
    exact .ite (fun _ => active pid) fun _ => Avoids.idle (idle_loadingFail C s)

theorem avoids_serialLoop : Avoids C b t (serialLoop C) := by
  have seat (x : Option Nat) : Avoids C b t (Co.modify (World.setHold fun h =>
      { h with workerSlot := x })) := Avoids.idle fun w => shed_setHold w (List.Subset.refl _)
  have turn : Avoids C b t (workerTurn C) := by
    refine (Avoids.idle (idle_gets _)).bind fun warm => Finds.bind (spots_popNext _) fun r hr => ?_
    cases r with
    | none => exact Avoids.idle ⟨idle_idleTick, fun _ => only_sleep.mpr trivial⟩
    | some s =>
      have hs : s ≠ b := fun h => hr (congrArg some h)
      refine (Avoids.idle (idle_gets _)).bind fun x => .ite
        (fun _ => Avoids.idle (idle_evictedTurn s)) fun _ =>
        (Avoids.idle (idle_gets _)).bind fun h =>
        (Avoids.mark (m := .turn s h.inflight.isEmpty) (by rintro ⟨⟩)).bind fun _ =>
        (seat _).bind fun _ =>
        (Finds.tryExcept (avoids_processSlot hs) fun e => Avoids.idle (idle_recover C s e)).bind
          fun _ _ => seat _
  exact Avoids.whileTrue <| (Avoids.idle (idle_gets _)).bind fun stop =>
    .ite (fun _ => .pure trivial) fun _ => turn.bind fun _ => .pure trivial

/-! ## The residents -/

theorem absent_setResident {r : Nat} {f : Resident → Resident} {w : World} (ha : Absent b w)
    (hf : ¬ (f (w.resident r)).holds b) : Absent b (w.setResident r f) := by
  rintro (h | h | h | ⟨d, hd⟩ | h)
  · exact ha (.inl h)
  · exact ha (.inr (.inl h))
  · exact ha (.inr (.inr (.inl h)))
  · rcases eq_or_ne d r with rfl | hne
    · simp only [World.setResident, setAt_self] at hd
      exact hf hd
    · simp only [World.setResident, setAt_of_ne hne] at hd
      exact ha (.inr (.inr (.inr (.inl ⟨d, hd⟩))))
  · exact ha (.inr (.inr (.inr (.inr h))))

theorem Absent.resident {w : World} (ha : Absent b w) (r : Nat) : ¬ (w.resident r).holds b :=
  fun h => ha (.inr (.inr (.inr (.inl ⟨r, h⟩))))

theorem Absent.fork {w : World} (ha : Absent b w) {k : Kind} (hk : ¬ k.carries b) :
    Absent b (w.fork k) := fun h => (inHand_fork h).elim hk ha

theorem avoids_requeueSlotsOrFail : ∀ {ss : List Nat}, b ∉ ss →
    Avoids C b t (requeueSlotsOrFail ss)
  | [], _ => .pure trivial
  | s :: rest, hb => by
    have hs : s ≠ b := by
      rintro rfl
      exact hb List.mem_cons_self
    have hrest : b ∉ rest := fun h => hb (List.mem_cons_of_mem s h)
    refine Finds.bind (avoids_enqueueHead hs).attempt fun r _ => ?_
    match r with
    | .ok _ => exact avoids_requeueSlotsOrFail hrest
    | .error .cancelled =>
      exact (Avoids.idle (only_forEach (fun _ => only_failCompletionFuture.mpr trivial) _)).bind
        fun _ => .throw _
    | .error (.raised e) =>
      exact (Avoids.idle (only_failCompletionFuture.mpr trivial)).bind fun _ =>
        avoids_requeueSlotsOrFail hrest

theorem avoids_requeueAfterBackoff {s : Nat} (hs : s ≠ b) :
    Avoids C b t (requeueAfterBackoff s) := by
  have back : Avoids C b t (do
      sleep
      enqueueHead s) :=
    (Avoids.idle (only_sleep.mpr trivial)).bind fun _ => avoids_enqueueHead hs
  refine Finds.bind back.attempt fun r _ => ?_
  match r with
  | .ok _ => exact .pure trivial
  | .error .cancelled =>
    exact (Avoids.idle (only_failCompletionFuture.mpr trivial)).bind fun _ => .throw _
  | .error (.raised e) => exact Avoids.idle (only_failCompletionFuture.mpr trivial)

/-- The inbox goes with a task that is to bring it back. -/
theorem absent_drainInbox {r : Nat} {w : World} (ha : Absent b w) : Absent b (w.drainInbox r) := by
  refine Absent.fork (absent_setResident ha ?_) fun h => ha.resident r (.inl h)
  rintro (h | h)
  · cases h
  · exact ha.resident r (.inr h)

theorem avoids_beginEvictLocked (r : Nat) : Avoids C b t (beginEvictLocked r) := by
  have dead : Idle (onResident r fun x => { x with state := .dead }) :=
    idle_onResident r fun _ _ h => h
  have gone (w : World) : Shed w (w.deregister r) := shed_same rfl rfl rfl rfl rfl
  have teardown (w : World) : Shed w (w.fork (.evictTeardown r)) := shed_fork w fun _ => id
  refine (Avoids.idle (idle_gets _)).bind fun x => Avoids.bind (Finds.when fun _ =>
    .modify fun w ha => absent_drainInbox ha) fun _ => Avoids.idle ?_
  simp [dead, gone, teardown]

theorem avoids_reapDeadResident (r : Nat) : Avoids C b t (reapDeadResident r) := by
  refine (Avoids.idle (idle_gets _)).bind fun x => Avoids.bind (Avoids.idle ?_) fun _ =>
    avoids_beginEvictLocked r
  refine only_forEach (fun s => ?_) _
  exact ⟨only_failCompletionFuture.mpr trivial, fun _ => idle_onSlot s _⟩

theorem avoids_completeOneSlot {s : Nat} (hs : s ≠ b) (pid : Nat) :
    Avoids C b t (completeOneSlot s pid) := by
  refine Finds.bind (Avoids.completeFn hs).attempt fun r _ => ?_
  match r with
  | .ok x => exact Avoids.idle (idle_setResult s _)
  | .error .cancelled => exact .throw _
  | .error (.raised e) => exact Avoids.idle (only_failCompletionFuture.mpr trivial)

theorem avoids_launch (r pid : Nat) {s : Nat} (hs : s ≠ b) : Avoids C b t (launch r pid s) := by
  refine (Avoids.idle (idle_onSlot s _)).bind fun _ =>
    Avoids.bind (Avoids.idle (idle_onResident r fun _ _ h => h)) fun _ =>
    (Avoids.idle (idle_gets _)).bind fun x =>
    Avoids.bind (Finds.when fun _ => Avoids.handToRoute hs) fun _ =>
    .modify fun w ha => absent_setResident (ha.fork ?_) (ha.resident r)
  split
  · exact id
  · exact hs

theorem avoids_inboxGetNowait (r : Nat) {s : Nat} (hs : s ≠ b) :
    Avoids C b t (inboxGetNowait r s) := by
  refine Avoids.bind (.modify fun w ha => absent_setResident ha ?_) fun _ =>
    Avoids.mark (m := .fromInbox s) fun h => hs (Option.some.inj h)
  rintro (h | h)
  · refine ha.resident r (.inl ?_)
    cases hx : (w.resident r).inbox with
    | none => simp only [hx, Option.map_none, Option.getD_none, List.not_mem_nil] at h
    | some xs =>
      simp only [hx, Option.map_some, Option.getD_some] at h
      exact List.mem_of_mem_tail h
  · exact ha.resident r (.inr h)

theorem spots_resident (r : Nat) :
    Spots C b t (fun x => ¬ x.holds b) (Co.gets fun w : World => w.resident r) :=
  .gets fun _ ha => ha.resident r

theorem avoids_admitFromInbox (r pid n : Nat) : Avoids C b t (admitFromInbox r pid n) := by
  refine Avoids.whileTrue <| Finds.bind (spots_resident r) fun x hx => ?_
  dsimp only
  split
  · next extra rest hi =>
    have hs : extra ≠ b := by
      rintro rfl
      exact hx (.inl (by rw [hi]; exact List.mem_cons_self))
    refine .ite (fun _ => ?_) fun _ => .pure trivial
    refine (avoids_inboxGetNowait r hs).bind fun _ => (Avoids.idle (idle_gets _)).bind fun y =>
      .ite (fun _ => ?_) fun _ => (avoids_launch r pid hs).bind fun _ => .pure trivial
    exact (Avoids.idle (only_failCompletionFuture.mpr trivial)).bind fun _ => .pure trivial
  · exact .pure trivial

theorem avoids_fanOutOnResident (r : Nat) {anchor : Nat} (hs : anchor ≠ b) (pid n : Nat) :
    Avoids C b t (fanOutOnResident r anchor pid n) := by
  refine Avoids.bind (Avoids.idle (idle_onResident r fun _ _ h => h)) fun _ => .tryFinally ?_
    (Avoids.idle (idle_interruptFanOut r)).keeps
  refine (avoids_launch r pid hs).bind fun _ => (avoids_admitFromInbox r pid n).bind fun _ =>
    Avoids.whileTrue <| (Avoids.idle (idle_gets _)).bind fun x => .ite (fun _ => .pure trivial)
      fun _ => (Avoids.idle (only_waitFirst.mpr trivial)).bind fun done =>
        (Avoids.idle (only_forEach (idle_settleFanOut r) _)).bind fun _ =>
        (avoids_admitFromInbox r pid n).bind fun _ => .pure trivial

theorem avoids_residentFollowUp (r s : Nat) {matched : Nat} (hs : matched ≠ b)
    (pid deadline : Nat) : Avoids C b t (residentFollowUp C r s matched pid deadline) := by
  have occupy (v : Option Nat) : Idle (onResident r fun x => { x with activeSlot := v }) :=
    idle_onResident r fun _ _ h => h
  have complete : Avoids C b t (completeResidentFollowUp r matched pid) :=
    (Avoids.idle (idle_transition matched _)).bind fun _ =>
      (Avoids.idle (idle_transition matched _)).bind fun _ => (Avoids.idle (idle_gets _)).bind
      fun y => Avoids.bind (Avoids.idle (idle_onResident r fun _ _ h => h)) fun _ =>
        .ite (fun _ => avoids_streamed hs) fun _ => avoids_completed hs
  refine (Avoids.idle (idle_bindSidecar matched pid)).bind fun _ =>
    (Avoids.idle (occupy _)).bind fun _ => Avoids.bind (.tryExcept complete fun e =>
      Avoids.idle (only_failCompletionFuture.mpr trivial)) fun _ => Avoids.idle ?_
  simp [IdleOp, Op.takes, occupy]

theorem avoids_residentGrace (r s pid : Nat) : Avoids C b t (residentGrace C r s pid) := by
  refine (Avoids.idle (idle_gets _)).bind fun x => (Avoids.idle (only_monotonic.mpr trivial)).bind
    fun start => Avoids.loop fun deadline => ?_
  refine (Avoids.idle (only_monotonic.mpr trivial)).bind fun now =>
    (Avoids.idle (idle_gets _)).bind fun stop => .ite (fun _ => ?_) fun _ => .pure trivial
  refine Finds.bind (spots_popMatchedThread _ _) fun m hm => ?_
  cases m with
  | none => exact Avoids.idle ⟨only_sleep.mpr trivial, fun _ => trivial⟩
  | some matched =>
    exact (avoids_residentFollowUp r s (fun h => hm (congrArg some h)) pid deadline).bind fun _ =>
      .pure trivial

theorem avoids_serveOnResident (r : Nat) {s : Nat} (hs : s ≠ b) (pid : Nat) :
    Avoids C b t (serveOnResident C r s pid) := by
  have anchor : Avoids C b t (serveResidentAnchor r s pid) :=
    (Avoids.idle (idle_gets _)).bind fun w => .ite
      (fun _ => avoids_fanOutOnResident r hs pid _)
      fun _ => .ite (fun _ => avoids_streamed hs) fun _ => avoids_completed hs
  refine (Avoids.idle (idle_gets _)).bind fun x =>
    (Avoids.idle (only_when.mpr fun _ => idle_transition s _)).bind fun _ =>
    (Avoids.idle (idle_transition s _)).bind fun _ =>
    (Avoids.idle (only_auditAsync.mpr trivial)).bind fun _ =>
    Avoids.bind (Avoids.idle (idle_onResident r fun _ _ h => h)) fun _ => anchor.bind fun _ =>
    (Avoids.idle (idle_transition s _)).bind fun _ =>
    (Avoids.idle (only_monotonic.mpr trivial)).bind fun now =>
    Avoids.bind (Avoids.idle (idle_onResident r fun _ _ h => h)) fun _ =>
    (Avoids.idle (only_auditAsync.mpr trivial)).bind fun _ =>
    (avoids_residentGrace r s pid).bind fun _ => (Avoids.idle (idle_transition s _)).bind fun _ =>
    Avoids.idle ?_
  simp

theorem avoids_takeInHand (r : Nat) {s : Nat} (hs : s ≠ b) : Avoids C b t (takeInHand r s) := by
  refine .modify fun w ha => absent_setResident ha ?_
  rintro (h | h | h | h)
  · exact ha.resident r (.inl h)
  · exact ha.resident r (.inr (.inl h))
  · exact hs (Option.some.inj h)
  · exact ha.resident r (.inr (.inr (.inr h)))

/-- A suspension on an operation, and what is known of its answer. -/
theorem spots_await {o : Op} (ho : o.takes ≠ some b) {Φ : Reply → Prop}
    (hx : ∀ w x, Absent b w → allowed t o x w = true → Φ x) : Spots C b t Φ (Co.await o) := by
  intro s w ha
  refine ⟨⟨fun hs => (inHand_issue hs).elim ho ha, trivial⟩, fun w' _ hg x hal _ =>
    ⟨fun hs => (inHand_answer hs).elim ho hg.1, ?_⟩⟩
  rintro _ ⟨⟩
  exact hx w' x hg.1 hal

/-- What comes out of the inbox is another slot. -/
theorem spots_inboxGet (r : Nat) : Spots C b t (fun s => s ≠ b)
    (Co.await (.inboxGet r) >>= Reply.value fun | .item s => some s | _ => none) := by
  refine Finds.bind (Φ := fun x => x = .cancelled ∨ ∃ s, x = .item s ∧ s ≠ b)
    (spots_await (o := .inboxGet r) (by rintro ⟨⟩) fun w x ha hx => ?_) fun x hx => ?_
  · rcases allowed_cases hx with ⟨hc, -⟩ | h
    · exact .inl hc
    · cases x with
      | item s =>
        refine .inr ⟨s, rfl, ?_⟩
        rintro rfl
        exact ha.resident r (.inl (List.mem_of_mem_head? (of_decide_eq_true h)))
      | _ => cases h
  · rcases hx with rfl | ⟨s, rfl, hs⟩
    · exact .throw _
    · exact .pure hs

theorem spots_firstSlot (r : Nat) : Spots C b t (fun s => s ≠ b) (firstSlot r) := by
  refine Finds.bind (spots_resident r) fun x hx => ?_
  split
  · next s rest hi =>
    have hs : s ≠ b := by
      rintro rfl
      exact hx (.inl (by rw [hi]; exact List.mem_cons_self))
    exact (avoids_inboxGetNowait r hs).bind fun _ => (avoids_takeInHand r hs).bind fun _ => .pure hs
  · refine Finds.bind (spots_inboxGet r) fun s hs => ?_
    exact (Avoids.mark (m := .fromInbox s) fun h => hs (Option.some.inj h)).bind fun _ =>
      (avoids_takeInHand r hs).bind fun _ => .pure hs

theorem avoids_nextSlot (r : Nat) : Avoids C b t (nextSlot r) := by
  refine Finds.bind (Φ := fun x => ∀ s, x = .item s → s ≠ b)
    (spots_await (o := .inboxGetTimed r) (by rintro ⟨⟩) fun w x ha hx => ?_) fun x hx => ?_
  · rintro s rfl rfl
    rcases allowed_cases hx with ⟨hc, -⟩ | h
    · cases hc
    · exact ha.resident r (.inr (.inl (of_decide_eq_true h)))
  · split
    · next s =>
      have hs := hx s rfl
      exact (Avoids.mark (m := .fromInbox s) fun h => hs (Option.some.inj h)).bind fun _ =>
        (avoids_takeInHand r hs).bind fun _ => .pure trivial
    · exact .throw _
    · exact .pure trivial

theorem avoids_idleTimeout (r : Nat) : Avoids C b t (idleTimeout r) := by
  refine Finds.bind (spots_resident r) fun x hx => ?_
  split
  · exact .ite (fun _ => (avoids_beginEvictLocked r).bind fun _ => .pure trivial)
      fun _ => .pure trivial
  · next s rest hi =>
    have hs : s ≠ b := by
      rintro rfl
      exact hx (.inl (by rw [hi]; exact List.mem_cons_self))
    exact (avoids_inboxGetNowait r hs).bind fun _ => (avoids_takeInHand r hs).bind fun _ =>
      .pure trivial

theorem avoids_parkResident (r idle : Nat) : Avoids C b t (parkResident r idle) := by
  refine (Avoids.idle (idle_gets _)).bind fun x => .ite (fun _ => .pure trivial) fun _ =>
    (Avoids.idle (only_monotonic.mpr trivial)).bind fun now =>
    Avoids.bind (Avoids.idle (idle_onResident r fun _ _ h => h)) fun _ => .ite
      (fun _ => (avoids_beginEvictLocked r).bind fun _ => .pure trivial) fun _ =>
    (Avoids.idle (only_monotonic.mpr trivial)).bind fun now =>
    Avoids.bind (Avoids.idle (idle_onResident r fun _ _ h => h)) fun _ =>
    (avoids_nextSlot r).bind fun s => ?_
  cases s with
  | some s => exact .pure trivial
  | none => exact avoids_idleTimeout r

theorem avoids_driveTurn (r pid idle : Nat) : Avoids C b t (driveTurn C r pid idle) := by
  refine Finds.bind (Φ := fun w : Bool × Resident => ¬ w.2.holds b)
    (.gets fun _ ha => ha.resident r) fun w hw => ?_
  split
  · next s _ hh =>
    have hs : s ≠ b := by
      rintro rfl
      exact hw (.inr (.inr (.inl hh)))
    refine .ite (fun _ => .pure trivial) fun _ =>
      (Avoids.idle (only_monotonic.mpr trivial)).bind fun now =>
      Avoids.bind (Avoids.idle (idle_onResident r fun _ _ h => h)) fun _ =>
      (avoids_serveOnResident r hs pid).bind fun _ => avoids_parkResident r idle
  · exact .pure trivial

theorem avoids_driveBody (r : Nat) : Avoids C b t (driveBody C r) := by
  refine Finds.bind (spots_firstSlot r) fun s _ =>
    (Avoids.idle (idle_spawnForResident C r s)).bind fun pid => ?_
  cases pid with
  | none => exact .pure trivial
  | some pid => exact (Avoids.idle (idle_gets _)).bind fun x =>
      Avoids.whileTrue (avoids_driveTurn r pid _)

/-- The slots of the inbox are pending with the driver. -/
theorem idle_claimTeardown (r : Nat) : Idle (claimTeardown r) := by
  have claim : Idle (onResident r fun x =>
      { x with
        tornDown := true
        handle := none
        bootingPid := none
        pendingSlots := x.inbox.getD []
        inbox := x.inbox.map fun _ => [] }) := by
    refine idle_onResident r fun x s h => ?_
    rcases h with h | h | h | h
    · cases hx : x.inbox <;> rw [hx] at h <;> cases h
    · exact .inr (.inl h)
    · exact .inr (.inr (.inl h))
    · exact .inl h
  have dead : Idle (onResident r fun x => { x with state := .dead }) :=
    idle_onResident r fun _ _ h => h
  have gone (w : World) : Shed w (w.deregister r) := shed_same rfl rfl rfl rfl rfl
  simp [claimTeardown, claim, dead, gone]

theorem avoids_driveFinally (r : Nat) : Avoids C b t (driveFinally r) := by
  refine (Avoids.idle (idle_gets _)).bind fun x => .when fun _ =>
    (Avoids.idle (idle_claimTeardown r)).bind fun _ => (Avoids.idle (idle_reapClaimed _ _)).bind
    fun _ => Finds.bind (spots_resident r) fun y hy =>
    Avoids.bind (Avoids.idle (idle_onResident r ?_)) fun _ =>
    (avoids_requeueSlotsOrFail fun h => hy (.inr (.inr (.inr h)))).bind fun _ =>
    (Avoids.idle (idle_gets _)).bind fun y => ?_
  · rintro _ _ (h | h | h | h)
    · exact .inl h
    · exact .inr (.inl h)
    · exact .inr (.inr (.inl h))
    · cases h
  · split
    · exact Avoids.idle (only_when.mpr fun _ => only_failCompletionFuture.mpr trivial)
    · exact .pure trivial

theorem avoids_driveResident (r : Nat) : Avoids C b t (driveResident C r) :=
  .tryFinally (avoids_driveBody r) (avoids_driveFinally r).keeps

/-! ## The dispatcher -/

theorem avoids_deferUnroutable {s : Nat} (hs : s ≠ b) : Avoids C b t (deferUnroutable s) := by
  refine (Avoids.idle (idle_onSlot s _)).bind fun _ => (Avoids.idle (idle_gets _)).bind fun x =>
    .ite (fun _ => ?_) fun _ => .modify fun w ha => ha.fork hs
  exact Avoids.idle (only_failCompletionFuture.mpr trivial)

/-- A resident that does not have the slot is registered, and its driver created. -/
theorem absent_reserve {w : World} (ha : Absent b w) (tag : String) {x : Resident}
    (hx : ¬ x.holds b) : Absent b (w.reserve tag x) := by
  rintro (h | h | h | ⟨r, h⟩ | ⟨u, h⟩ | h)
  · exact ha (.inl h)
  · exact ha (.inr (.inl h))
  · exact ha (.inr (.inr (.inl h)))
  · rcases eq_or_ne r w.residentCount with rfl | hne
    · simp only [World.reserve, setAt_self] at h
      exact hx h
    · simp only [World.reserve, setAt_of_ne hne] at h
      exact ha.resident r h
  · rcases eq_or_ne u w.taskCount with rfl | hne
    · simp only [World.reserve, setAt_self] at h
      exact h
    · simp only [World.reserve, setAt_of_ne hne] at h
      exact ha (.inr (.inr (.inr (.inr (.inl ⟨u, h⟩)))))
  · exact ha (.inr (.inr (.inr (.inr (.inr h)))))

theorem avoids_reserveAndStart {s : Nat} (hs : s ≠ b) : Avoids C b t (reserveAndStart C s) := by
  refine (Avoids.idle (idle_gets _)).bind fun x => (Avoids.idle (idle_readModelFootprint _)).bind
    fun fp => (Avoids.idle (idle_vramAdmits fp)).bind fun admits => .ite (fun _ => ?_) fun _ =>
      Avoids.idle (only_failCompletionFuture.mpr trivial)
  refine (Avoids.mark (m := .reserving s) (by rintro ⟨⟩)).bind fun _ =>
    (Avoids.idle (idle_gets _)).bind
    fun port => (Avoids.idle (only_monotonic.mpr trivial)).bind fun now =>
    .modify fun w ha => absent_reserve ha _ ?_
  rintro (h | h | h | h)
  · exact hs (List.mem_singleton.mp h).symm
  · cases h
  · cases h
  · cases h

theorem avoids_routeHit (r : Nat) {s : Nat} (hs : s ≠ b) : Avoids C b t (routeHit r s) := by
  refine (Avoids.idle (only_monotonic.mpr trivial)).bind fun now => .modify fun w ha =>
    absent_setResident ha ?_
  rintro (h | h)
  · refine ha.resident r (.inl ?_)
    cases hx : (w.resident r).inbox with
    | none => simp only [hx, Option.map_none, Option.getD_none, List.not_mem_nil] at h
    | some q =>
      simp only [hx, Option.map_some, Option.getD_some] at h
      exact (List.mem_append.mp h).resolve_right fun h => hs (List.mem_singleton.mp h).symm
  · exact ha.resident r (.inr h)

theorem avoids_routeOrReserve {s : Nat} (hs : s ≠ b) : Avoids C b t (routeOrReserve C s) := by
  refine (Avoids.idle (idle_gets _)).bind fun w => ?_
  split
  · next r _ _ => exact avoids_routeHit r hs
  · next live victim =>
    refine .ite (fun _ => ?_) fun _ => avoids_reserveAndStart hs
    cases victim with
    | none => exact avoids_deferUnroutable hs
    | some v => exact (avoids_beginEvictLocked v).bind fun _ => avoids_reserveAndStart hs

theorem avoids_dispatchTurn : Avoids C b t (dispatchTurn C) := by
  refine (Avoids.idle (idle_gets _)).bind fun warm => Finds.bind (spots_popNext _) fun r hr => ?_
  cases r with
  | none => exact Avoids.idle (only_sleep.mpr trivial)
  | some s =>
    have hs : s ≠ b := fun h => hr (congrArg some h)
    refine (Avoids.idle (idle_gets _)).bind fun x => .ite
      (fun _ => Avoids.idle (idle_handleEvictedSlot s)) fun _ =>
      .tryExcept (avoids_routeOrReserve hs) fun e => ?_
    exact (Avoids.mark (m := .caught s) (by rintro ⟨⟩)).bind fun _ =>
      Avoids.idle (only_failCompletionFuture.mpr trivial)

theorem avoids_workerLoop : Avoids C b t (workerLoop C) := by
  refine .ite (fun _ => Avoids.whileTrue <| (Avoids.idle (idle_gets _)).bind fun stop => ?_)
    fun _ => avoids_serialLoop
  exact .ite (fun _ => .pure trivial) fun _ => avoids_dispatchTurn.bind fun _ => .pure trivial

/-! ## Shutdown and the completions -/

theorem avoids_shutdown : Avoids C b t (shutdown C) := by
  have observers : Idle (sync .observers) := only_sync.mpr trivial
  refine Avoids.bind (Avoids.idle fun w => shed_same rfl rfl rfl rfl rfl) fun _ =>
    (Avoids.idle observers).bind fun _ => (Avoids.idle idle_stopWorker).bind fun _ =>
    (Avoids.idle idle_stopDrivers).bind fun _ => (Avoids.idle idle_drainBgTasks).bind fun _ =>
    (Avoids.idle observers).bind fun _ => (Avoids.idle idle_closeQueue).bind
    fun cleared => Avoids.idle ⟨?_, fun _ => ⟨Shed.refl, fun h => only_when.mpr fun _ =>
      only_suppress.mpr (idle_teardownIdleHolder C)⟩⟩
  exact only_forEach (fun s => only_failCompletionFuture.mpr trivial) _

theorem avoids_completionTask {s : Nat} (hs : s ≠ b) (pid : Nat) :
    Avoids C b t (completionTask t s pid) :=
  Avoids.bind (Avoids.completeFn hs) fun _ => Avoids.idle fun w => shed_setTask w t fun _ => rfl

end Turbohaul
