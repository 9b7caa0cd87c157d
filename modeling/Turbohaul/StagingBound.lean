/-
# `StagingBound` — how long staging may get

`enqueue` and the refills from the acceptance buffer look at `staging_max`
before they append.  `enqueue_head` does not: a follow-up inside the grace
window, a candidate that a fan-out pushes back, and a slot that comes back from
a backoff or from a drained inbox go to the head of staging whatever its
length.  Staging keeps its bound in a run exactly as long as each of these
finds room.
-/
import Turbohaul.Walk

namespace Turbohaul

open Coop

variable (C : Config)

/-- Staging holds at most `staging_max` slots. -/
def World.bounded (w : World) : Prop := w.queue.staging.length ≤ C.stagingQueueDepth

/-- Each insertion at the head finds room in staging. -/
def roomyHeads : Admit (system C) where
  reply := fun _ o _ w =>
    match o with
    | .mark (.headInsert _) => decide (w.queue.staging.length < C.stagingQueueDepth)
    | _ => true

/-- The claim about staging. -/
abbrev bounds : Outline (system C) := upholding C (roomyHeads C) (World.bounded C) fun _ _ => True

variable {C} {t : Nat}

abbrev Bounded (C : Config) : World → World → Prop := fun _ w => w.bounded C ∧ True

theorem upheld_bounded : Upheld (World.bounded C) fun _ _ => True where
  refl := fun _ => trivial
  trans := fun _ _ _ _ _ => trivial
  plain := fun h hw => ⟨by rw [World.bounded, h.queue]; exact hw, trivial⟩

theorem frames_bounded : Frames (bounds C) t (Bounded C) Plain fun _ => True :=
  frames_upheld upheld_bounded

/-- A statement after which staging is not longer. -/
def Shrinks (w w' : World) : Prop := w'.queue.staging.length ≤ w.queue.staging.length

theorem frames_shrinks : Frames (bounds C) t (Bounded C) Shrinks fun _ => True where
  act := fun h hi => ⟨Nat.le_trans h hi.1, trivial⟩
  ask := frames_bounded.ask
  await := frames_bounded.await

theorem Shrinks.refl (w : World) : Shrinks w w := Nat.le_refl _

theorem queue_flagEvicted (s : Nat) (w : World) : (w.flagEvicted s).queue = w.queue := by
  unfold World.flagEvicted
  split <;> rfl

/-! ## Taking slots out -/

theorem shrinks_popFirst : Only (S := sig) Shrinks (fun _ => True) popFirst := by
  intro w
  dsimp only
  split
  · exact .refl w
  · next s rest hs =>
      rw [Shrinks, queue_flagEvicted, hs]
      exact Nat.le_succ _

theorem shrinks_popFirstMatching (tag : String) :
    Only (S := sig) Shrinks (fun _ => True) (popFirstMatching C tag) := by
  intro w
  dsimp only
  split
  · exact .refl w
  · rw [Shrinks, queue_flagEvicted]
    exact List.length_erase_le

theorem shrinks_updateRunLength (x : Option Nat) :
    Only (S := sig) Shrinks (fun _ => True) (updateRunLength x) := by
  cases x with
  | none => trivial
  | some s => exact fun w => Nat.le_refl _

theorem shrinks_popMatchedThread (threadId tag : String) :
    Only (S := sig) Shrinks (fun _ => True) (popMatchedThread threadId tag) := by
  refine only_ite.mpr ⟨fun _ => trivial, fun _ => ⟨fun w => ?_, fun r => ?_⟩⟩
  · dsimp only
    split
    · exact .refl w
    · rw [Shrinks, queue_flagEvicted]
      exact List.length_erase_le
  · cases r with
    | none => trivial
    | some s => exact ⟨only_mark.mpr trivial, fun _ => trivial⟩

/-! ## Putting slots in -/

/-- A promotion lengthens staging by one at most. -/
theorem wp_promoteOne {s w : World} (h : w.queue.staging.length < C.stagingQueueDepth) :
    wp (bounds C) t promoteOne (fun _ => Bounded C) s w := by
  refine ⟨?_, trivial⟩
  dsimp only
  split
  · exact Nat.le_of_lt h
  · next x rest _ =>
      have hq : ((w.setQueue fun q => { q with acceptBuf := rest }).moveTo x .staged).2.queue =
          { w.queue with acceptBuf := rest } := by
        unfold World.moveTo
        split <;> rfl
      split
      · next w' hm =>
          rw [hm] at hq
          show (w'.queue.staging ++ [x]).length ≤ _
          rw [hq, List.length_append]
          exact h
      · show List.length (World.queue _).staging ≤ _
        rw [hq]
        exact Nat.le_of_lt h

theorem keeps_replenish : Keeps (bounds C) t (Bounded C) (replenish C) := by
  intro s w h
  rw [replenish, wp_gets_bind, wp_when]
  split
  · next hc => exact wp_promoteOne (of_decide_eq_true (Bool.and_eq_true_iff.mp hc).2)
  · exact h

theorem keeps_drainAcceptBuf : Keeps (bounds C) t (Bounded C) (drainAcceptBuf C) := by
  refine .whileTrue fun s w h => ?_
  rw [wp_gets_bind]
  split
  · next hc =>
      exact wp_seq (wp_promoteOne (of_decide_eq_true (Bool.and_eq_true_iff.mp hc).2))
        (fun _ _ _ h => h) fun _ _ _ h => h
  · exact h

theorem keeps_popNext (tag : Option String) : Keeps (bounds C) t (Bounded C) (popNext C tag) := by
  have F := frames_shrinks (C := C) (t := t)
  have read : ∀ {α : Type} (f : World → α), Keeps (bounds C) t (Bounded C) (Co.gets f) :=
    fun _ _ _ h => h
  have fifo : Keeps (bounds C) t (Bounded C) (popNextFifo C) := by
    refine .bind (F.keeps shrinks_popFirst) fun r => ?_
    cases r with
    | some s =>
        exact .bind keeps_replenish fun _ => .bind (F.keeps (shrinks_updateRunLength _)) fun _ =>
          .pure _
    | none =>
        exact .bind keeps_drainAcceptBuf fun _ => .bind (F.keeps shrinks_popFirst) fun _ =>
          .bind (F.keeps (shrinks_updateRunLength _)) fun _ => .pure _
  have starved : ∀ tag head, Keeps (bounds C) t (Bounded C) (headStarved C head tag) := fun _ _ =>
    .bind (read _) fun _ => Keeps.ite (.bind (F.keeps (only_monotonic.mpr trivial)) fun _ =>
      .pure _) (.pure _)
  have preferring : ∀ tag, Keeps (bounds C) t (Bounded C) (popPreferring C tag) := fun tag => by
    refine .bind (F.keeps (shrinks_popFirstMatching tag)) fun r => ?_
    cases r with
    | some s => exact .pure _
    | none => exact F.keeps shrinks_popFirst
  refine .bind (read _) fun q => .bind ?_ fun r => ?_
  · unfold popPath
    split
    · exact .bind (starved _ _) fun _ => .bind (read _) fun _ =>
        .bind (Keeps.ite (F.keeps shrinks_popFirst) (preferring _)) fun _ =>
        .bind (.when keeps_replenish) fun _ => .bind (F.keeps (shrinks_updateRunLength _))
        fun _ => .pure _
    · exact fifo
  · cases r with
    | none => exact .pure _
    | some s => exact .bind (F.keeps (only_mark.mpr trivial)) fun _ => .pure _

/-- A transition does not touch the queue. -/
theorem keeps_transition {P : Outline (system C)} (H : Queue → Prop) (s : Nat) (x : SlotState) :
    Keeps P t (fun _ w => H w.queue) (transition s x) := by
  intro s₀ w h
  show H _
  dsimp only
  cases (w.slot s).transition s x <;> exact h

theorem keeps_enqueue (s : Nat) : Keeps (bounds C) t (Bounded C) (enqueue C s) := by
  intro s₀ w h
  rw [enqueue, wp_gets_bind]
  split
  · exact h
  · split
    · next hlt =>
        refine wp_seq (keeps_transition (fun q => q.staging.length < C.stagingQueueDepth) s _ s₀ w
          hlt) (fun _ s₁ w₁ h₁ => ⟨?_, trivial⟩) fun _ s₁ w₁ h₁ => ⟨Nat.le_of_lt h₁, trivial⟩
        show (w₁.queue.staging ++ [s]).length ≤ _
        rw [List.length_append]
        exact h₁
    · split
      · exact h
      · exact wp_seq (keeps_transition (fun q => q.staging.length ≤ C.stagingQueueDepth) s _ s₀ w
          h.1) (fun _ _ _ h₁ => ⟨h₁, trivial⟩) fun _ _ _ h₁ => ⟨h₁, trivial⟩

theorem keeps_enqueueHead (s : Nat) : Keeps (bounds C) t (Bounded C) (enqueueHead s) := by
  intro s₀ w h
  rw [enqueueHead, wp_gets_bind]
  split
  · exact h
  · rw [wp_gets_bind]
    have hm : Keeps (bounds C) t (fun _ w => w.queue.staging.length ≤ C.stagingQueueDepth)
        (Co.when ((w.slot s).state ≠ .staged) (transition s .staged)) :=
      .when (keeps_transition (fun q => q.staging.length ≤ C.stagingQueueDepth) s _)
    refine wp_seq (hm s₀ w h.1) (fun _ s₁ w₁ h₁ => ?_) fun _ _ _ h₁ => ⟨h₁, trivial⟩
    -- the insertion is admitted when it finds room
    intro r ha hr
    have hlt : w₁.queue.staging.length < C.stagingQueueDepth := of_decide_eq_true hr
    cases r with
    | ok => exact ⟨hlt, trivial⟩
    | _ => cases ha

/-! ## The walk -/

theorem shrinks_beginEvict (r : Nat) :
    Only (S := sig) Shrinks (fun _ => True) (beginEvictLocked r) :=
  ⟨Shrinks.refl, fun _ => ⟨only_when.mpr fun _ => Shrinks.refl, fun _ => only_when.mpr fun _ =>
    ⟨Shrinks.refl, fun _ => ⟨Shrinks.refl, fun _ => Shrinks.refl⟩⟩⟩⟩

theorem shrinks_claimTeardown (r : Nat) :
    Only (S := sig) Shrinks (fun _ => True) (claimTeardown r) :=
  ⟨Shrinks.refl, fun _ => ⟨Shrinks.refl, fun _ => only_when.mpr fun _ =>
    ⟨Shrinks.refl, fun _ => Shrinks.refl⟩⟩⟩

theorem keeps_reserveAndStart (s : Nat) :
    Keeps (bounds C) t (Bounded C) (reserveAndStart C s) := by
  have F := frames_shrinks (C := C) (t := t)
  have G := frames_bounded (C := C) (t := t)
  refine .bind (F.keeps Shrinks.refl) fun x =>
    .bind (G.keeps (Calm.lax (calm_readModelFootprint _)))
    fun fp => .bind (G.keeps (Calm.lax (calm_vramAdmits fp))) fun admits => Keeps.ite ?_
    (F.keeps (only_failCompletionFuture.mpr trivial))
  exact .bind (F.keeps (only_mark.mpr trivial)) fun _ => .bind (F.keeps Shrinks.refl) fun port =>
    .bind (F.keeps (only_monotonic.mpr trivial)) fun now => F.keeps Shrinks.refl

theorem keeps_routeOrReserve (s : Nat) :
    Keeps (bounds C) t (Bounded C) (routeOrReserve C s) := by
  have F := frames_shrinks (C := C) (t := t)
  have G := frames_bounded (C := C) (t := t)
  refine .bind (F.keeps Shrinks.refl) fun w => ?_
  split
  · exact G.keeps (Calm.lax (calm_routeHit _ s))
  · refine Keeps.ite ?_ (keeps_reserveAndStart s)
    split
    · exact G.keeps (Calm.lax (calm_deferUnroutable s))
    · exact .bind (F.keeps (shrinks_beginEvict _)) fun _ => keeps_reserveAndStart s

theorem walks_bounded : Walks C (bounds C) t (Bounded C) Plain fun _ => True where
  frames := frames_bounded
  popNext := keeps_popNext
  popMatchedThread := fun th tag => frames_shrinks.keeps (shrinks_popMatchedThread th tag)
  enqueue := keeps_enqueue
  enqueueHead := keeps_enqueueHead
  closeQueue := frames_shrinks.keeps fun _ => Nat.zero_le _
  allocSlot := fun _ _ => frames_shrinks.keeps Shrinks.refl
  attachEvents := fun s => frames_bounded.keeps fun w => plain_setSlot w s fun _ => rfl
  beginEvict := fun r => frames_shrinks.keeps (shrinks_beginEvict r)
  claimTeardown := fun r => frames_shrinks.keeps (shrinks_claimTeardown r)
  routeOrReserve := keeps_routeOrReserve

/-- In every run whose insertions at the head all find room in staging, staging
holds at most `staging_max` slots whenever the event loop has control. -/
theorem staging_bounded (C : Config) (c : Loop sig) (h : Reachable C (roomyHeads C) c)
    (hc : c.current = none) : c.world.queue.staging.length ≤ C.stagingQueueDepth := by
  have V : (bounds C).Verified initial := upholding_verified upheld_bounded (Nat.zero_le _)
    (fun _ => walks_bounded) (fun t w _ => by
      cases (w.task t).kind <;> trivial) fun _ _ hw _ _ => ⟨hw, trivial⟩
  exact (bounds C).sound V (fun _ _ _ => trivial) h hc

/-! ## A head that finds no room -/

/-- Staging holds one slot. -/
def narrowConfig : Config := { stagingQueueDepth := 1, safetyEnabled := false }

/-- A request arrives in task `t` as others do, or inside the grace window. -/
def arrives (modelTag threadId : String) (t : Nat) (replies : List Reply) :
    List (Move (system narrowConfig)) :=
  [.env (.request (.submitAndWait { modelTag, threadId, watched := false })), .start t .ok,
    .answer (.time 0), .answer (.time 0)] ++ (replies.map fun r => .answer r) ++ [.resume t .ok]

/-- One request is served and its sidecar is in the grace window. -/
def inGrace : List (Move (system narrowConfig)) :=
  arrives "a" "t" 1 [.ok] ++
  [.start 0 .ok, .go, .answer .ok, .answer .ok, .answer (.manifest {}), .resume 0 .ok,
    .answer (.handle 0), .resume 0 (.healthy true), .resume 0 .ok, .resume 0 (.completion 7),
    .answer (.time 0), .resume 0 .ok, .answer (.time 0), .go, .answer (.time 0)]

/-- A request of another thread fills staging, and a follow-up goes to its
head. -/
theorem follow_up_overflows_staging : ∃ c, Reachable narrowConfig (Admit.any _) c ∧
    c.current.isNone = true ∧ c.world.queue.staging = [2, 1] ∧
    ¬c.world.queue.staging.length ≤ narrowConfig.stagingQueueDepth := by
  have h : (Loop.exec (Admit.any _)
      (inGrace ++ arrives "b" "u" 2 [.ok] ++ arrives "a" "t" 3 [.ok, .time 0, .ok])
      { world := initial }).any (fun c =>
        decide (c.current.isNone = true ∧ c.world.queue.staging = [2, 1] ∧
          ¬c.world.queue.staging.length ≤ narrowConfig.stagingQueueDepth)) = true := by
    decide +kernel
  obtain ⟨c, hc, hp⟩ := Loop.reach_of_check h
  exact ⟨c, hc, of_decide_eq_true hp⟩

/-- A follow-up that comes alone finds room. -/
theorem staging_bounded_followUp : ∃ c, Reachable narrowConfig (roomyHeads narrowConfig) c ∧
    c.world.queue.staging = [1] ∧
    c.world.queue.staging.length ≤ narrowConfig.stagingQueueDepth := by
  have h : (Loop.exec (roomyHeads narrowConfig)
      (inGrace ++ arrives "a" "t" 2 [.ok, .time 0, .ok]) { world := initial }).any (fun c =>
        decide (c.current.isNone = true ∧ c.world.queue.staging = [1])) = true := by
    decide +kernel
  obtain ⟨c, hc, hp⟩ := Loop.reach_of_check h
  obtain ⟨hn, hs⟩ := of_decide_eq_true hp
  exact ⟨c, hc, hs, staging_bounded narrowConfig c hc (Option.isNone_iff_eq_none.mp hn)⟩

end Turbohaul
