/-
# `Turns` — the serial worker, turn by turn

An assertion that is kept by all statements of a class, by the pops and the
push-back, by the service of an anchor and by the step into the grace window, is
kept by the whole of `worker_loop` at cap 1; and one that is kept by the closing
of the queue is kept by `shutdown`.
-/
import Turbohaul.SidecarVocabulary
import Turbohaul.Sharing

namespace Turbohaul

open Coop

/-- What the turn of a slot is made of. -/
structure Serves (C : Config) (P : Outline (system C)) (t : Nat) (I A : World → World → Prop) :
    Prop where
  frames : Frames P t I A fun _ => True
  serveAnchor : ∀ s pid, Keeps P t I (serveAnchor C s pid)
  linger : ∀ s pid, Keeps P t I (enterGrace s >>= fun _ => graceWindow C s pid)

/-- What the turns of the serial worker are made of: between the pop and the
turn of the slot something more may be known of it. -/
structure Turns (C : Config) (P : Outline (system C)) (t : Nat) (I A : World → World → Prop)
    (H : Nat → World → World → Prop) : Prop where
  frames : Frames P t I A fun _ => True
  popNext : ∀ tag s w, I s w → wp P t (popNext C tag) (Pops I H) s w
  free : ∀ {e s w}, H e s w → I s w
  turn : ∀ e s w, H e s w → wp P t (processTurn C e) (fun _ => I) s w

section

variable {C : Config} {P : Outline (system C)} {t : Nat} {I A : World → World → Prop}

/-- The grace window, when all that is done in it is kept. -/
theorem keeps_linger [GraceVocabulary A] [CaptureVocabulary A] (W : Warm C P t I A) {s pid : Nat}
    (h : Keeps P t I (enterGrace s)) :
    Keeps P t I (enterGrace s >>= fun _ => graceWindow C s pid) :=
  .bind h fun _ => keeps_graceWindow W s pid

variable [V : SidecarVocabulary A] [K : CaptureVocabulary A]

section

variable (T : Serves C P t I A)

include T

omit V K in
theorem Serves.calm : Frames P t I A QuietOp := T.frames.fewer fun _ _ => trivial

theorem keeps_activate (s pid : Nat) : Keeps P t I (activate C s pid) := by
  have F := T.calm
  exact .bind (F.keeps (calm_transition s _)) fun _ =>
    .bind (F.keeps (only_auditAsync.mpr trivial)) fun _ => .bind (F.keeps (calm_gets _)) fun _ =>
    .bind (F.keeps (calm_modify (calm_setLatestKeepAlive _))) fun _ =>
    .bind (T.serveAnchor s pid) fun _ =>
    .assoc (T.linger s pid) fun _ => T.frames.keeps (lax_leaveGrace C s)

theorem keeps_processBody (s : Nat) : Keeps P t I (processBody C s) := by
  have F := T.calm
  refine .bind (F.keeps (calm_gets _)) fun x =>
    .bind (F.keeps (only_readManifest?.mpr trivial)) fun m => .bind (F.keeps (calm_gets _))
    fun h => Keeps.ite (F.keeps (calm_refuseNoManifest s))
      (.bind (T.frames.keeps (lax_acquire C s m)) fun a => ?_)
  match a with
  | none => exact .pure _
  | some (pid, healthy) =>
      exact Keeps.ite (keeps_activate T s pid) (T.frames.keeps (lax_loadingFail C s))

theorem keeps_processSlot (s : Nat) : Keeps P t I (processSlot C s) := by
  have F := T.calm
  exact .bind (F.keeps (calm_modify (calm_setActiveSlot _))) fun _ =>
    .bind (F.keeps (calm_modify (calm_setLatestKeepAlive _))) fun _ =>
    .tryFinally (keeps_processBody T s) (T.frames.keeps lax_processFinally)

end

/-- Nothing more is known of the slot in turn. -/
theorem turns_of_serves (T : Serves C P t I A) (hp : ∀ tag, Keeps P t I (popNext C tag))
    (seat : ∀ x, Keeps P t I (Co.modify (World.setHold fun h => { h with workerSlot := x }))) :
    Turns C P t I A fun _ => I where
  frames := T.frames
  popNext := fun tag s w h => wp_mono (fun _ _ _ h => pops_bare h) (hp tag s w h)
  free := id
  turn := fun e => by
    have F := T.calm
    have body : Keeps P t I (processTurn C e) :=
      .bind (F.keeps (calm_gets _)) fun h => .bind (F.keeps (only_mark.mpr trivial)) fun _ =>
        .bind (seat _) fun _ => .bind (.tryExcept (keeps_processSlot T e) fun x =>
          T.frames.keeps (lax_recover C e x)) fun _ => seat _
    exact body

omit K in
theorem keeps_serialLoop {H : Nat → World → World → Prop} (T : Turns C P t I A H) :
    Keeps P t I (serialLoop C) := by
  have F := T.frames.fewer (L := QuietOp) fun _ _ => trivial
  refine .whileTrue (.bind (F.keeps (calm_gets _)) fun stop => Keeps.ite (.pure _)
    (.bind (.bind (F.keeps (calm_gets _)) fun warm s w h => ?_) fun _ => .pure _))
  refine wp_seq (T.popNext warm s w h) (fun r s w h => ?_) fun _ s w h => h
  cases r with
  | none =>
      exact Keeps.bind (T.frames.keeps lax_idleTick)
        (fun _ => F.keeps (only_sleep.mpr trivial)) s w h
  | some e =>
      rw [wp_gets_bind]
      split
      · exact T.frames.keeps (lax_evictedTurn e) s w (T.free h)
      · exact T.turn e s w h

omit V K in
theorem keeps_shutdown [V : ShutdownVocabulary A] (F : Frames P t I A fun _ => True)
    (hc : Keeps P t I closeQueue) :
    Keeps P t I (shutdown C) :=
  .bind (F.keeps V.stop) fun _ => .bind (F.keeps (only_sync.mpr trivial)) fun _ =>
    .bind (F.keeps lax_stopWorker) fun _ => .bind (F.keeps lax_stopDrivers) fun _ =>
    .bind (F.keeps lax_drainBgTasks) fun _ => .bind (F.keeps (only_sync.mpr trivial)) fun _ =>
    .bind hc fun _ =>
    .bind (.forEach (fun _ => F.keeps (only_failCompletionFuture.mpr trivial)) _) fun _ =>
    .bind (F.keeps V.refl) fun _ => .when (.suppress (F.keeps (lax_teardownIdleHolder C)))

end

end Turbohaul
