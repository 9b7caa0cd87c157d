/-
# `Sharing` — the slots that share one sidecar

From the moment the serial worker has its sidecar until it leaves the grace
window, the sidecar is shared by the anchor, its riders and its follow-ups.
What happens meanwhile is written in the vocabulary of the riders, with four
programs more: the two pops, the push-back, and `_force_cold`, which alone may
reap.  So an assertion that these keep is kept all the way.  The follow-ups of
the grace window have nothing to do with the rider set.
-/
import Turbohaul.QuietPrograms

namespace Turbohaul

open Coop

/-- The assertion is kept by the quiet operations and by `_force_cold`. -/
structure Parks (C : Config) (P : Outline (system C)) (t : Nat) (I A : World → World → Prop) :
    Prop where
  frames : Frames P t I A QuietOp
  forceCold : ∀ s reason, Keeps P t I (forceCold s reason)

/-- The assertion is kept by all that is done in the grace window. -/
structure Warm (C : Config) (P : Outline (system C)) (t : Nat) (I A : World → World → Prop) :
    Prop extends Parks C P t I A where
  popMatchedThread : ∀ threadId tag, Keeps P t I (popMatchedThread threadId tag)

/-- What a pop leaves: a slot in hand, or nothing. -/
def Pops (I : World → World → Prop) (H : Nat → World → World → Prop) : Post sig (Option Nat)
  | .ok (some e) => H e
  | _ => I

theorem pops_bare {I : World → World → Prop} {r : Res sig (Option Nat)} {s w : World}
    (h : I s w) : Pops I (fun _ => I) r s w := by
  match r with
  | .ok (some e) => exact h
  | .ok none => exact h
  | .error _ => exact h

/-- The assertion is kept by a pop and by a push-back, between which something
more may be known of the slot in hand. -/
structure Hand (C : Config) (P : Outline (system C)) (t : Nat) (I : World → World → Prop)
    (H : Nat → World → World → Prop) : Prop where
  popNext : ∀ tag s w, I s w → wp P t (popNext C tag) (Pops I H) s w
  enqueueHead : ∀ e s w, H e s w → wp P t (enqueueHead e) (fun _ => I) s w
  free : ∀ {e s w}, H e s w → I s w

/-- The assertion is kept by all that is done while a sidecar is shared. -/
structure Shares (C : Config) (P : Outline (system C)) (t : Nat) (I A : World → World → Prop) :
    Prop extends Warm C P t I A where
  hand : ∃ H, Hand C P t I H

/-- Nothing more is known of the slot in hand. -/
theorem bare_hand {C : Config} {P : Outline (system C)} {t : Nat} {I : World → World → Prop}
    (hp : ∀ tag, Keeps P t I (popNext C tag)) (he : ∀ e, Keeps P t I (enqueueHead e)) :
    ∃ H, Hand C P t I H := by
  exact ⟨fun _ => I, fun tag s w h => wp_mono (fun _ _ _ h => pops_bare h) (hp tag s w h), he, id⟩

/-- The queue is quiet. -/
theorem shares_of_quiet {C : Config} {P : Outline (system C)} {t : Nat} {I : World → World → Prop}
    (F : Frames P t I Quiet QuietOp) (hc : ∀ s reason, Keeps P t I (forceCold s reason)) :
    Shares C P t I Quiet where
  frames := F
  popMatchedThread := fun th tag => F.keeps (calm_popMatchedThread th tag)
  forceCold := hc
  hand := bare_hand (fun tag => F.keeps (calm_popNext C tag)) fun e => F.keeps (calm_enqueueHead e)

variable {C : Config} {P : Outline (system C)} {t : Nat} {I A : World → World → Prop}

/-! ## The slot that a pop takes out -/

/-- What is left of a pop, once a slot may have been taken out. -/
theorem wp_popped {H : Nat → World → World → Prop} {m : Prog Unit} (hI : Keeps P t I m)
    (hH : ∀ e, Keeps P t (H e) m)
    {r : Option Nat} {s w : World} (h : Pops I H (.ok r) s w) (free : ∀ {e s w}, H e s w → I s w) :
    wp P t (m >>= fun _ => pure r) (Pops I H) s w := by
  cases r with
  | none =>
      refine hI.seq (fun _ s w h => ?_) (fun _ _ _ h => h) h
      exact h
  | some e =>
      refine (hH e).seq (fun _ s w h => ?_) (fun _ _ _ h => free h) h
      exact h

section

variable {H : Nat → World → World → Prop} [V : PopVocabulary A] (F : Frames P t I A QuietOp)
variable (G : ∀ e, Frames P t (H e) A QuietOp)
variable (take : ∀ {e xs s w}, I s w → w.queue.staging.Perm (e :: xs) →
  xs.Sublist w.queue.staging → H e s (w.setQueue fun q => { q with staging := xs }))

include G take

theorem wp_popFirst_hand {s w : World} (h : I s w) : wp P t popFirst (Pops I H) s w := by
  simp only [popFirst, wp]
  split
  · exact h
  · next e rest hs =>
      have hp : w.queue.staging.Perm (e :: rest) := by rw [hs]
      exact (G e).act (V.flagged _ e) (take h hp (by rw [hs]; exact List.sublist_cons_self e rest))

theorem wp_popFirstMatching_hand {tag : String} {s w : World} (h : I s w) :
    wp P t (popFirstMatching C tag) (Pops I H) s w := by
  simp only [popFirstMatching, wp]
  split
  · exact h
  · next e he =>
      have hm : e ∈ w.queue.staging := List.mem_of_mem_take (List.mem_of_find?_eq_some he)
      exact (G e).act (V.flagged _ e)
        (take h (List.perm_cons_erase hm) List.erase_sublist)

include F

/-- What a pop takes out of staging is in hand when it returns. -/
theorem wp_popNext_hand (free : ∀ {e s w}, H e s w → I s w) (tag : Option String) {s w : World}
    (h : I s w) : wp P t (popNext C tag) (Pops I H) s w := by
  have tally : ∀ (r : Option Nat) {s w : World}, Pops I H (.ok r) s w →
      wp P t (updateRunLength r >>= fun _ => pure r) (Pops I H) s w := fun r _ _ h =>
    wp_popped (F.keeps (calm_updateRunLength r)) (fun e => (G e).keeps (calm_updateRunLength r))
      h free
  have fifo : ∀ {s w}, I s w → wp P t (popNextFifo C) (Pops I H) s w := by
    intro s w h
    refine wp_seq (wp_popFirst_hand G take h) (fun r s w h => ?_) fun _ s w h => h
    cases r with
    | some e =>
        refine ((G e).keeps (calm_replenish C)).seq (fun _ s w h => tally (some e) h)
          (fun _ s w h => free h) h
    | none =>
        refine (F.keeps (calm_drainAcceptBuf C)).seq (fun _ s w h => ?_) (fun _ s w h => h) h
        exact wp_seq (wp_popFirst_hand G take h) (fun r s w h => tally r h) fun _ s w h => h
  have preferring : ∀ (tag : String) {s w}, I s w →
      wp P t (popPreferring C tag) (Pops I H) s w := by
    intro tag s w h
    refine wp_seq (wp_popFirstMatching_hand G take h) (fun r s w h => ?_) fun _ s w h => h
    cases r with
    | some e => exact h
    | none => exact wp_popFirst_hand G take h
  have path : wp P t (popPath C tag w.queue.staging) (Pops I H) s w := by
    unfold popPath
    split
    · next tag head _ _ =>
        refine (F.keeps (calm_headStarved C head tag)).seq (fun starved s w h => ?_)
          (fun _ s w h => h) h
        rw [wp_gets_bind]
        have pop : ∀ forced : Bool, wp P t (if forced then popFirst else popPreferring C tag)
            (Pops I H) s w := fun forced => by
          cases forced with
          | true => exact wp_popFirst_hand G take h
          | false => exact preferring tag h
        refine wp_seq (pop _) (fun r s w h => ?_) fun _ s w h => h
        cases r with
        | some e =>
            exact ((G e).keeps (calm_replenish C)).seq (fun _ s w h => tally (some e) h)
              (fun _ s w h => free h) h
        | none => exact tally none h
    · exact fifo h
  rw [popNext, wp_gets_bind]
  refine wp_seq path (fun r s w h => ?_) fun _ s w h => h
  cases r with
  | some e =>
      refine ((G e).keeps (only_mark.mpr trivial)).seq (fun _ s w h => ?_)
        (fun _ s w h => free h) h
      exact h
  | none => exact h

end

/-! ## Riders on their way out -/

section

variable (L : Parks C P t I A)

include L

theorem keeps_observed {α : Type} {k : Mark} {m : Prog α} (hm : Keeps P t I m) :
    Keeps P t I (observed k m) := by
  refine .bind (.attempt hm) fun r => ?_
  cases r with
  | ok _ => exact .pure _
  | error _ => exact .bind (L.frames.keeps (only_mark.mpr trivial)) fun _ => .throw _

section

variable [V : Vocabulary A]

theorem keeps_promoteRider (extra pid : Nat) : Keeps P t I (promoteRider extra pid) := by
  refine .bind (L.frames.keeps (calm_gets _)) fun port =>
    .bind (L.frames.keeps (calm_silent _ (fun _ => rfl) fun _ => rfl))
    fun _ => .tryExcept (L.frames.keeps ?_) fun e => ?_
  · exact ⟨calm_transition _ _, fun _ => ⟨calm_transition _ _, fun _ =>
      ⟨calm_silent _ (fun _ => rfl) fun _ => rfl, fun _ => trivial⟩⟩⟩
  · cases e with
    | invalidTransition i a b =>
        exact .bind (L.frames.keeps (calm_silent _ (fun _ => rfl) fun _ => rfl)) fun _ =>
          .bind (L.frames.keeps (only_failCompletionFuture.mpr trivial)) fun _ =>
          .bind (L.frames.keeps (calm_gets _)) fun x => .bind (L.forceCold _ _) fun _ => .pure _
    | _ => exact .throw _

end

variable [V : SeatVocabulary A]

theorem keeps_parkRider (anchor s : Nat) : Keeps P t I (parkRider anchor s) :=
  .bind (.when (.bind (L.frames.keeps (calm_silent _ (fun _ => rfl) fun _ => rfl)) fun _ =>
  L.forceCold _ _)) fun _ =>
    L.frames.keeps (calm_leaveInflight _)

theorem keeps_settleStreamed (anchor : Nat) (done : List Nat) (s : Nat) :
    Keeps P t I (settleStreamed anchor done s) := by
  refine .bind (L.frames.keeps (calm_gets _)) fun w => ?_
  cases w with
  | none => exact .pure _
  | some w =>
      exact .when (.bind (.when (L.frames.keeps (calm_setDone _))) fun _ =>
        .bind (L.frames.keeps (calm_setResult _ _)) fun _ => keeps_parkRider L anchor s)

theorem keeps_drainStreamed (anchor : Nat) : Keeps P t I (drainStreamed anchor) := by
  refine .bind (L.frames.keeps (calm_gets _)) fun h =>
    .bind (L.frames.keeps (only_observed trivial (calm_startWaiters _)))
    fun _ => .bind (L.frames.keeps (calm_gets _)) fun ws => .tryFinally
      (keeps_observed L (.loop fun pending => Keeps.ite (.pure _) ?_))
      (L.frames.keeps calm_unwindStreamed)
  exact .bind (L.frames.keeps (only_waitFirst.mpr trivial)) fun done =>
    .bind (L.frames.keeps (calm_gets _))
    fun h => .bind (.forEach (keeps_settleStreamed L anchor done) _) fun _ => .pure _

theorem keeps_settleCompleted (anchor : Nat) (done : List Nat) (s : Nat) :
    Keeps P t I (settleCompleted anchor done s) := by
  refine .bind (L.frames.keeps (calm_gets _)) fun w => ?_
  match w with
  | none => exact .pure _
  | some (u, o, v) =>
      exact .when (.bind (L.frames.keeps (calm_answerRider s o v)) fun _ =>
        keeps_parkRider L anchor s)

end

/-! ## Follow-ups -/

section

variable (L : Warm C P t I A) [V : GraceVocabulary A] [K : CaptureVocabulary A]

include L

theorem keeps_promoteFollowUp (s matched pid : Nat) :
    Keeps P t I (promoteFollowUp s matched pid) := by
  have active : ∀ x, Keeps P t I (Co.modify (World.setActiveSlot x)) := fun x =>
    L.frames.keeps (calm_modify fun w => calm_setActiveSlot x w)
  refine .bind (L.frames.keeps (calm_bindSidecar _ _)) fun _ => .bind (active _) fun _ =>
    .tryExcept (L.frames.keeps ?_) fun e => ?_
  · exact ⟨calm_transition _ _, fun _ => ⟨only_auditAsync.mpr trivial, fun _ =>
      ⟨calm_transition _ _, fun _ => ⟨calm_gets _, fun y =>
        ⟨calm_modify fun w => calm_setLatestKeepAlive _ w, fun _ => trivial⟩⟩⟩⟩⟩
  · cases e with
    | invalidTransition i a b =>
        exact .bind (L.frames.keeps (only_failCompletionFuture.mpr trivial)) fun _ =>
          .bind (L.frames.keeps (calm_gets _)) fun y => .bind (L.forceCold _ _) fun _ =>
          .bind (active _) fun _ => .pure _
    | _ => exact .throw _

theorem keeps_followUp (s matched pid deadline : Nat) :
    Keeps P t I (followUp C s matched pid deadline) := by
  refine .bind (keeps_promoteFollowUp L s matched pid) fun promoted =>
    Keeps.ite (L.frames.keeps ?_) (.pure _)
  exact ⟨calm_serveFollowUp _ _, fun completed => ⟨calm_transition _ _, fun _ =>
    ⟨calm_followUpGrace C _ _ _, fun d => ⟨calm_transition _ _, fun _ =>
      ⟨only_auditAsync.mpr trivial, fun _ => ⟨only_markSlotEnded.mpr trivial, fun _ =>
        ⟨calm_modify fun w => calm_setActiveSlot _ w, fun _ => trivial⟩⟩⟩⟩⟩⟩⟩

theorem keeps_graceWindow (s pid : Nat) : Keeps P t I (graceWindow C s pid) := by
  refine .bind (L.frames.keeps (calm_gets _)) fun x =>
    .bind (L.frames.keeps (only_monotonic.mpr trivial)) fun start =>
    .loop fun deadline => .bind (L.frames.keeps (only_monotonic.mpr trivial)) fun now =>
    .bind (L.frames.keeps (calm_gets _)) fun stop => Keeps.ite ?_ (.pure _)
  refine .bind (L.popMatchedThread _ _) fun m => ?_
  cases m with
  | some matched => exact .bind (keeps_followUp L s matched pid deadline) fun _ => .pure _
  | none => exact .bind (L.frames.keeps (only_sleep.mpr trivial)) fun _ => .pure _

end

/-! ## The fan-out -/

section

variable (L : Shares C P t I A)

include L

section

variable [V : JoinVocabulary A]

omit L in
theorem wp_admitInHand (L : Parks C P t I A) {H : Nat → World → World → Prop}
    (D : Hand C P t I H) (tag : String) (streaming : Bool) (pid : Nat) {extra : Nat} {s w : World}
    (h : H extra s w) : wp P t (admitRider tag streaming pid extra) (fun _ => I) s w := by
  rw [admitRider, wp_gets_bind]
  split
  · exact wp_seq (D.enqueueHead extra s w h) (fun _ s w h => h) fun _ s w h => h
  · split
    · refine L.frames.keeps ?_ s w (D.free h)
      exact ⟨only_failCompletionFuture.mpr trivial, fun _ => ⟨only_auditAsync.mpr trivial,
        fun _ => trivial⟩⟩
    · refine Keeps.bind (L.frames.keeps (only_mark.mpr trivial))
        (fun _ => .bind (keeps_promoteRider L extra pid) fun promoted =>
          Keeps.ite (L.frames.keeps ?_) (.pure _)) s w (D.free h)
      exact ⟨calm_joinInflight _, fun _ => ⟨only_auditAsync.mpr trivial, fun _ => trivial⟩⟩

omit V in
/-- A pop, and what is done about the slot in hand. -/
theorem keeps_candidate {α : Type} {tag : Option String} {k : Option Nat → Prog α}
    (hk : ∀ {H}, Hand C P t I H → ∀ e s w, H e s w → wp P t (k (some e)) (fun _ => I) s w)
    (hn : Keeps P t I (k none)) : Keeps P t I (popNext C tag >>= k) := by
  obtain ⟨H, D⟩ := L.hand
  intro s w h
  refine wp_seq (D.popNext tag s w h) (fun r s w h => ?_) fun e s w h => h
  cases r with
  | none => exact hn s w h
  | some e => exact hk D e s w h

theorem keeps_admitOnce (tag : String) (streaming : Bool) (pid n : Nat)
    (kas : List (Option Int)) : Keeps P t I (admitOnce C tag streaming pid n kas) := by
  refine .loop fun kas => .bind (L.frames.keeps (calm_gets _)) fun h => Keeps.ite ?_ (.pure _)
  refine keeps_candidate L (fun D extra s w h => ?_) (.pure _)
  refine wp_seq (wp_admitInHand L.toParks D tag streaming pid h) (fun a s w h => ?_)
    fun _ s w h => h
  match a with
  | none => exact h
  | some false => exact h
  | some true =>
      exact Keeps.bind (L.frames.keeps (calm_gets _)) (fun x =>
        .bind (.when (L.frames.keeps (calm_handToRoute _ _))) fun _ => .pure _) s w h

theorem keeps_admitNonstreamingRiders (tag : String) (pid n : Nat) :
    Keeps P t I (admitNonstreamingRiders C tag pid n) := by
  refine .loop fun admitted => .bind (L.frames.keeps (calm_gets _)) fun h => Keeps.ite ?_ (.pure _)
  refine keeps_candidate L (fun D extra s w h => ?_) (.pure _)
  refine wp_seq (wp_admitInHand L.toParks D tag false pid h) (fun a s w h => ?_) fun _ s w h => h
  match a with
  | none => exact h
  | some false => exact h
  | some true => exact h

theorem keeps_drainNonstreamingRiders (anchor : Nat) (tag : String) (pid n : Nat) :
    Keeps P t I (drainNonstreamingRiders C anchor tag pid n) := by
  have more := keeps_admitNonstreamingRiders (C := C) L tag pid n
  refine .bind (L.frames.keeps (calm_gets _)) fun h =>
    .bind (L.frames.keeps (calm_startCompletions _ _))
    fun _ => .tryFinally ?_ (L.frames.keeps calm_abortCompletions)
  refine .bind more fun xs => .bind (L.frames.keeps (calm_startCompletions _ _)) fun _ =>
    .bind (L.frames.keeps (calm_gets _)) fun ts => .loop fun pending => Keeps.ite (.pure _) ?_
  exact .bind (L.frames.keeps (only_waitFirst.mpr trivial)) fun done =>
    .bind (L.frames.keeps (calm_gets _))
    fun h => .bind (.forEach (keeps_settleCompleted L.toParks anchor done) _) fun _ =>
    .bind more fun xs => .bind (L.frames.keeps (calm_startCompletions _ _)) fun _ =>
    .bind (L.frames.keeps (calm_tasksOf _)) fun ts => .pure _

end

variable [V : RiderVocabulary A] [K : CaptureVocabulary A]

theorem keeps_fanOutAndDrain (anchor pid n : Nat) :
    Keeps P t I (fanOutAndDrain C anchor pid n) := by
  refine .bind (L.frames.keeps (calm_gets _)) fun x => .bind (L.frames.keeps (calm_seatAnchor _))
    fun _ => .bind (L.frames.keeps fun w => V.noted w rfl) fun _ =>
    .bind (L.frames.keeps (calm_silent _ (fun _ => rfl) fun _ => rfl)) fun _ =>
    .bind (.when (L.frames.keeps (calm_handToRoute _ _))) fun _ =>
    .bind (keeps_observed L.toParks (keeps_admitOnce L _ _ pid n _)) fun kas =>
    .bind (L.frames.keeps (calm_modify (calm_setLatestKeepAlive _))) fun _ =>
    Keeps.ite (keeps_drainStreamed L.toParks anchor)
    (keeps_drainNonstreamingRiders L anchor _ pid n)

theorem keeps_serveAnchor (s pid : Nat) : Keeps P t I (serveAnchor C s pid) := by
  refine .bind (L.frames.keeps (calm_gets _)) fun w => Keeps.ite
    (.tryFinally (keeps_fanOutAndDrain L s pid _) (L.frames.keeps calm_noteFannedOut))
    (Keeps.ite (L.frames.keeps ?_) (L.frames.keeps ?_))
  · exact ⟨calm_handToRoute _ _, fun _ => ⟨only_streamDone.mpr trivial, fun _ =>
      calm_setResult _ _⟩⟩
  · exact ⟨only_completeFn.mpr trivial, fun _ => calm_setResult _ _⟩

end

end Turbohaul
