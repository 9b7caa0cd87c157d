/-
# `Statements` — what each statement does to an assertion-free class

For every statement of `Calls`, when it is made of the assignments and the
operations of a class (`Only A K`): a statement that calls one operation is
exactly when the operation is of the class, an assignment exactly when every
instance of it is.
-/
import Turbohaul.Calls
import Turbohaul.Coop.Keeps

namespace Turbohaul

open Coop

variable {A : World → World → Prop} {K : Op → Prop} {α : Type}

/-! ## Operations -/

@[simp] theorem only_value [Inhabited α] (f : Reply → Option α) (r : Reply) :
    Only (S := sig) A K (r.value f) := by
  cases r <;> trivial

@[simp] theorem only_run {o : Op} : Only (S := sig) A K (run o) ↔ K o :=
  ⟨fun h => h.1, fun h => ⟨h, fun r => by cases r <;> trivial⟩⟩

@[simp] theorem only_sync {o : Op} : Only (S := sig) A K (sync o) ↔ K o :=
  ⟨fun h => h.1, fun h => ⟨h, fun r => by cases r <;> trivial⟩⟩

@[simp] theorem only_mark {m : Mark} : Only (S := sig) A K (mark m) ↔ K (.mark m) := only_run

@[simp] theorem only_assertionError {msg : String} :
    Only (S := sig) A K (assertionError msg : Prog α) ↔ K (.mark .asserting) :=
  ⟨fun h => h.1.1, fun h => ⟨only_mark.mpr h, fun _ => trivial⟩⟩

theorem only_observed {k : Mark} {m : Prog α} (hk : K (.mark k)) (hm : Only (S := sig) A K m) :
    Only (S := sig) A K (observed k m) := by
  refine ⟨hm, fun r => ?_⟩
  cases r with
  | ok _ => trivial
  | error _ => exact ⟨only_mark.mpr hk, fun _ => trivial⟩

@[simp] theorem only_monotonic : Only (S := sig) A K monotonic ↔ K .monotonic :=
  ⟨fun h => h.1, fun h => ⟨h, fun _ => only_value _ _⟩⟩

@[simp] theorem only_readManifest? {tag : String} :
    Only (S := sig) A K (readManifest? tag) ↔ K (.readManifest tag) := by
  refine ⟨fun h => h.1, fun h => ⟨h, fun r => ?_⟩⟩
  cases r with
  | raised e => cases e <;> trivial
  | _ => trivial

@[simp] theorem only_vramBudget {m : String} {g : Nat} :
    Only (S := sig) A K (vramBudget m g) ↔ K (.vramBudget m g) :=
  ⟨fun h => h.1, fun h => ⟨h, fun _ => only_value _ _⟩⟩

@[simp] theorem only_spawn {s port n : Nat} {tag : String} :
    Only (S := sig) A K (spawn s port tag n) ↔ K (.spawn s port tag n) :=
  ⟨fun h => h.1, fun h => ⟨h, fun _ => only_value _ _⟩⟩

@[simp] theorem only_safetyGates {m : Manifest} :
    Only (S := sig) A K (safetyGates m) ↔ K (.safetyGates m) :=
  ⟨fun h => h.1, fun h => ⟨h, fun _ => only_value _ _⟩⟩

@[simp] theorem only_waitHealthy {p : Nat} :
    Only (S := sig) A K (waitHealthy p) ↔ K (.waitHealthy p) :=
  ⟨fun h => h.1, fun h => ⟨h, fun _ => only_value _ _⟩⟩

@[simp] theorem only_completeFn {x : Site} {s p : Nat} :
    Only (S := sig) A K (completeFn x s p) ↔ K (.complete x s p) :=
  ⟨fun h => h.1, fun h => ⟨h, fun _ => only_value _ _⟩⟩

@[simp] theorem only_waitFirst {ts : List Nat} {b : Bool} :
    Only (S := sig) A K (waitFirst ts b) ↔ K (.waitFirst ts b) :=
  ⟨fun h => h.1, fun h => ⟨h, fun _ => only_value _ _⟩⟩

@[simp] theorem only_sleep : Only (S := sig) A K sleep ↔ K .sleep := only_sync

@[simp] theorem only_auditAsync {s : Nat} {e : String} :
    Only (S := sig) A K (auditAsync s e) ↔ K (.audit s e) := only_sync

@[simp] theorem only_auditEventOnlyAsync {s : Option Nat} {e : String} :
    Only (S := sig) A K (auditEventOnlyAsync s e) ↔ K (.auditEventOnly s e) := only_sync

@[simp] theorem only_markSlotEnded {s : Nat} {e : String} :
    Only (S := sig) A K (markSlotEnded s e) ↔ K (.markSlotEnded s e) := only_run

@[simp] theorem only_sigterm {p : Nat} : Only (S := sig) A K (sigterm p) ↔ K (.sigterm p) :=
  only_sync

@[simp] theorem only_streamDone {x : Site} {s p : Nat} :
    Only (S := sig) A K (streamDone x s p) ↔ K (.streamDone x s p) := by
  rw [streamDone, only_tryExcept, only_sync]
  exact ⟨fun h => h.1, fun h => ⟨h, fun e => by cases e <;> trivial⟩⟩

@[simp] theorem only_failCompletionFuture {x : FailSite} {s : Nat} {e : Err} :
    Only (S := sig) A K (failCompletionFuture x s e) ↔ K (.fail x s e) := only_run

/-! ## Assignments -/

@[simp] theorem only_fireAndForget {k : Kind} :
    Only (S := sig) A K (fireAndForget k) ↔ ∀ w, A w (w.fork k) := Iff.rfl

end Turbohaul
