/-
# `SidecarVocabulary` — programs that spawn and reap

A class of assignments that also has those to the active handle and to the idle
holder, and the cancellations of `shutdown`, has all that the serial worker
does beside its pops and its fan-out, whatever operations it calls (`Lax`).
-/
import Turbohaul.Vocabulary

namespace Turbohaul

open Coop

/-- The program is written in the class; its operations are any. -/
abbrev Lax (A : World → World → Prop) {α : Type} (m : Prog α) : Prop :=
  Only (S := sig) A (fun _ => True) m

theorem Calm.lax {A : World → World → Prop} {α : Type} {m : Prog α} (h : Calm A m) : Lax A m :=
  h.mono (fun _ _ h => h) fun _ _ => trivial

/-- The tasks the serial worker detaches for a reap. -/
def Kind.isDetached : Kind → Bool
  | .idleTeardown | .shieldedSigterm _ => true
  | _ => false

/-- A vocabulary of `shutdown`. -/
class ShutdownVocabulary (A : World → World → Prop) : Prop extends MeekVocabulary A where
  idleHolder : ∀ w h tag expires, A w (w.setIdleHolder h tag expires)
  stop : ∀ w, A w { w with stopEvent := true }
  cancelWorker : ∀ w, A w (w.cancelTask workerTask)
  cancelDrivers : ∀ w, A w w.cancelDrivers
  cancelBg : ∀ w ts, A w (w.cancelBg ts)

/-- A vocabulary in which it is of no importance who holds a sidecar. -/
class SidecarVocabulary (A : World → World → Prop) : Prop extends Vocabulary A,
    ShutdownVocabulary A where
  activeHandle : ∀ w h, A w (w.setActiveHandle h)
  detached : ∀ w {k : Kind}, k.isDetached = true → A w (w.fork k)

/-! ## Shutdown -/

section

variable {A : World → World → Prop} [V : ShutdownVocabulary A] (C : Config)

theorem lax_teardownIdleHolder : Lax A (teardownIdleHolder C) := by
  refine ⟨V.refl, fun h => ?_⟩
  dsimp only
  split
  · trivial
  · exact ⟨fun w => V.idleHolder w _ _ _, fun _ => ⟨only_sigterm.mpr trivial, fun _ =>
      ⟨(calm_computeExpectedDropMib _).lax, fun _ => ⟨only_sync.mpr trivial, fun _ =>
        ⟨(calm_orphanReapers C).lax, fun _ => only_auditEventOnlyAsync.mpr trivial⟩⟩⟩⟩⟩

theorem lax_drainBgTasks : Lax A drainBgTasks :=
  ⟨V.refl, fun _ => only_when.mpr fun _ => only_tryExcept.mpr ⟨only_sync.mpr trivial,
    fun _ => ⟨fun w => V.cancelBg w _, fun _ => only_sync.mpr trivial⟩⟩⟩

theorem lax_stopWorker : Lax A stopWorker := by
  refine ⟨V.refl, fun b => only_when.mpr fun _ =>
    ⟨V.cancelWorker, fun _ => ⟨only_sync.mpr trivial, fun _ =>
      ⟨V.refl, fun o => ?_⟩⟩⟩⟩
  dsimp only
  split <;> trivial

theorem lax_stopDrivers : Lax A stopDrivers :=
  ⟨only_mark.mpr trivial, fun _ => ⟨V.refl, fun _ =>
    ⟨V.cancelDrivers, fun _ => only_when.mpr fun _ => only_sync.mpr trivial⟩⟩⟩

end

/-! ## Sidecars -/

variable {A : World → World → Prop} [V : SidecarVocabulary A] (C : Config)

theorem lax_teardown (s : Nat) (reason : String) : Lax A (teardown C s reason) := by
  refine ⟨V.refl, fun h => ?_⟩
  dsimp only
  split
  · trivial
  · exact ⟨only_sigterm.mpr trivial, fun _ => ⟨V.refl, fun x =>
      ⟨(calm_computeExpectedDropMib _).lax, fun _ => ⟨only_sync.mpr trivial, fun _ =>
        ⟨(calm_orphanReapers C).lax, fun _ => ⟨only_markSlotEnded.mpr trivial, fun _ =>
          ⟨only_auditEventOnlyAsync.mpr trivial, fun _ w => V.activeHandle w none⟩⟩⟩⟩⟩⟩⟩

theorem lax_reapOwned (s : Nat) : Lax A (reapOwned s) := by
  refine ⟨V.refl, fun w => ?_⟩
  dsimp only
  split
  · exact only_suppress.mpr ⟨only_sigterm.mpr trivial, fun _ w => V.activeHandle w none⟩
  · trivial

theorem lax_forceCold (s : Nat) (reason : String) : Lax A (forceCold s reason) :=
  ⟨lax_reapOwned s, fun _ => ⟨fun w => V.slot w s (mild_park _), fun _ =>
    ⟨only_markSlotEnded.mpr trivial, fun _ => only_auditEventOnlyAsync.mpr trivial⟩⟩⟩

theorem lax_takeHandle (pid : Nat) : Lax A (takeHandle pid) :=
  ⟨fun w => V.activeHandle w _, fun _ => calm_bumpSpawnSeq⟩

theorem lax_inherit (s held : Nat) : Lax A (inherit s held) :=
  ⟨fun w => V.idleHolder w _ _ _, fun _ => ⟨(calm_bindSidecar s held).lax, fun _ =>
    ⟨lax_takeHandle held, fun _ => ⟨only_auditAsync.mpr trivial, fun _ => trivial⟩⟩⟩⟩

theorem lax_spawnActive (s port : Nat) (tag : String) (n : Nat) :
    Lax A (spawnActive s port tag n) :=
  ⟨only_spawn.mpr trivial, fun pid => ⟨(calm_bindSidecar s pid).lax, fun _ =>
    ⟨lax_takeHandle pid, fun _ => ⟨only_waitHealthy.mpr trivial, fun _ => trivial⟩⟩⟩⟩

theorem lax_coldSpawn (s port : Nat) (tag : String) (n : Nat) :
    Lax A (coldSpawn C s port tag n) :=
  ⟨V.refl, fun _ => ⟨only_when.mpr fun _ => lax_teardownIdleHolder C, fun _ =>
    ⟨(calm_preSpawnGates C tag).lax, fun _ => only_ite.mpr
      ⟨fun _ => lax_spawnActive s port tag n, fun _ => ⟨(calm_refuseGates s _).lax,
        fun _ => trivial⟩⟩⟩⟩⟩

theorem lax_acquire (s : Nat) (m : Option Manifest) : Lax A (acquire C s m) := by
  refine ⟨V.refl, fun port => ⟨(calm_transition s _).lax, fun _ =>
    ⟨only_auditAsync.mpr trivial, fun _ => ⟨V.refl, fun x =>
      ⟨(calm_warmInherit _).lax, fun held => ?_⟩⟩⟩⟩⟩
  cases held with
  | some held => exact lax_inherit s held
  | none => exact lax_coldSpawn C s port _ _

theorem lax_loadingFail (s : Nat) : Lax A (loadingFail C s) :=
  ⟨(calm_transition s _).lax, fun _ => ⟨only_auditAsync.mpr trivial, fun _ =>
    ⟨(calm_transition s _).lax, fun _ => ⟨lax_teardown C s _, fun _ =>
      only_failCompletionFuture.mpr trivial⟩⟩⟩⟩

theorem lax_leaveGrace [CaptureVocabulary A] (s : Nat) : Lax A (leaveGrace C s) := by
  refine ⟨(calm_transition s _).lax, fun _ => ⟨V.refl, fun w =>
    ⟨calm_setLatestKeepAlive none, fun _ => only_ite.mpr ⟨fun _ => ?_, fun _ => ?_⟩⟩⟩⟩
  · exact ⟨only_monotonic.mpr trivial, fun _ => ⟨fun w => V.idleHolder w _ _ _, fun _ =>
      ⟨only_auditEventOnlyAsync.mpr trivial, fun _ => only_markSlotEnded.mpr trivial⟩⟩⟩
  · exact ⟨lax_teardown C s _, fun _ => ⟨only_monotonic.mpr trivial, fun now =>
      ⟨fun w' => V.holder w' (f := fun h => { h with idle := ⟨some now, some w.2⟩ })
        {}, fun _ => only_auditEventOnlyAsync.mpr trivial⟩⟩⟩

theorem lax_shieldedSigterm (pid : Nat) : Lax A (shieldedSigterm pid) := by
  refine ⟨fun w => V.detached w (k := .shieldedSigterm pid) rfl, fun t =>
    ⟨only_sync.mpr trivial, fun _ => ⟨V.refl, fun o => ?_⟩⟩⟩
  dsimp only
  split <;> trivial

theorem lax_processFinally : Lax A processFinally := by
  refine ⟨V.refl, fun h => ⟨calm_setActiveSlot none, fun _ => ?_⟩⟩
  dsimp only
  split
  · exact only_ite.mpr ⟨fun _ w => V.activeHandle w none, fun _ => only_suppress.mpr
      ⟨lax_shieldedSigterm _, fun _ w => V.activeHandle w none⟩⟩
  · exact fun w => V.activeHandle w none

theorem lax_idleTick : Lax A idleTick := by
  refine ⟨V.refl, fun h => ?_⟩
  dsimp only
  split
  · exact ⟨only_monotonic.mpr trivial, fun _ => only_when.mpr fun _ =>
      ⟨calm_setIdleExpiresAt none, fun _ w => V.detached w (k := .idleTeardown) rfl⟩⟩
  · trivial

theorem lax_evictedTurn (s : Nat) : Lax A (evictedTurn s) :=
  ⟨only_failCompletionFuture.mpr trivial, fun _ => ⟨only_suppress.mpr
    (only_auditEventOnlyAsync.mpr trivial), fun _ => ⟨calm_countEviction.lax, fun _ =>
      lax_idleTick⟩⟩⟩

theorem lax_recover (s : Nat) (e : Err) : Lax A (recover C s e) :=
  ⟨only_mark.mpr trivial, fun _ => ⟨only_failCompletionFuture.mpr trivial, fun _ =>
    ⟨V.refl, fun _ => ⟨only_when.mpr fun _ => only_suppress.mpr (lax_teardown C s _),
      fun _ => lax_forceCold s _⟩⟩⟩⟩

end Turbohaul
