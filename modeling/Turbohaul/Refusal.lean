/-
# `Refusal` — a reservation that the VRAM gate refuses

    below the cap   footprint, gate, refusal: the residents are as they were
    at the cap      the victim is evicted first, and stays evicted

Nothing of `_route_or_reserve` suspends, so the call is followed from its start
to its return, whatever the manifest and the probe answer.
-/
import Turbohaul.PortReserve
import Turbohaul.QueueCalls
import Turbohaul.Statements

namespace Turbohaul

open Coop

variable {C : Config} {t : Nat}

/-- Registry, residents, tasks and queue are as they were: nobody evicted, no
inbox drained, no task scheduled, no port or budget changed. -/
def Undisturbed (w w' : World) : Prop :=
  w'.registry = w.registry ∧ w'.resident = w.resident ∧ w'.taskCount = w.taskCount ∧
    w'.task = w.task ∧ w'.queue = w.queue

theorem Undisturbed.trans {a b c : World} (h : Undisturbed a b) (h' : Undisturbed b c) :
    Undisturbed a c :=
  ⟨h'.1.trans h.1, h'.2.1.trans h.2.1, h'.2.2.1.trans h.2.2.1, h'.2.2.2.1.trans h.2.2.2.1,
    h'.2.2.2.2.trans h.2.2.2.2⟩

/-- The gate has refused the slot: its future gets the exception. -/
def RefusedAtGate (s : Nat) (log : List (Op × Reply)) : Prop :=
  ∃ e, (.fail .vramRefused s e, .ok) ∈ log

/-- The refusal, as a test on the calls that were made. -/
def refuses (s : Nat) (log : List (Op × Reply)) : Bool :=
  log.any fun
    | (.fail .vramRefused x _, .ok) => x = s
    | _ => false

theorem refusedAtGate_of_refuses {s : Nat} {log : List (Op × Reply)} (h : refuses s log = true) :
    RefusedAtGate s log := by
  obtain ⟨e, he, hm⟩ := List.any_eq_true.mp h
  split at hm
  · next x err =>
      obtain rfl := of_decide_eq_true hm
      exact ⟨err, he⟩
  · cases hm

/-- What the gate consults. -/
def Consults : Op → Prop
  | .readManifest _ | .vramBudget _ _ => True
  | _ => False

/-- Any call but the refusal's. -/
def NotRefusal : Op → Prop
  | .fail .vramRefused _ _ => False
  | _ => True

theorem not_refused {s : Nat} {log : List (Op × Reply)} (h : ∀ e ∈ log, NotRefusal e.1) :
    ¬RefusedAtGate s log := fun ⟨_, he⟩ => h _ he

theorem Consults.notRefusal {o : Op} (h : Consults o) : NotRefusal o := by
  cases o with
  | fail site s e => cases h
  | _ => trivial

theorem undisturbed_consult {o : Op} (r : Reply) (w : World) (h : Consults o) :
    Undisturbed w (answer t o r w) := by
  cases o <;> first | exact ⟨rfl, rfl, rfl, rfl, rfl⟩ | cases h

/-- A program that makes no refusal. -/
theorem returns_noRefusal {α : Type} {m : Prog α} {s : Nat} {w w' : World}
    {log : List (Op × Reply)} {r : Res sig α}
    (hm : Only (S := sig) (fun _ _ => True) NotRefusal m)
    (h : Returns (system C) t (m.run w) log r w') : ¬RefusedAtGate s log :=
  not_refused (Only.returns (R := fun _ _ => True) (fun _ => trivial) (fun _ _ _ _ _ => trivial)
    (fun _ _ _ => trivial) (fun _ _ _ _ => trivial) h
    (Only.stop (fun _ => trivial) (fun _ _ _ _ _ => trivial) (fun _ _ _ => trivial) hm w)).2

/-- A program that only consults. -/
theorem returns_consults {α : Type} {m : Prog α} {w w' : World} {log : List (Op × Reply)}
    {r : Res sig α} (hm : Only (S := sig) Undisturbed Consults m)
    (h : Returns (system C) t (m.run w) log r w') :
    Undisturbed w w' ∧ ∀ s, ¬RefusedAtGate s log := by
  have hr : ∀ w, Undisturbed w w := fun _ => ⟨rfl, rfl, rfl, rfl, rfl⟩
  have hstop : OnlyStop (S := sig) Undisturbed Consults Undisturbed w (m.run w) :=
    Only.stop (S := sig) (R := Undisturbed) hr (fun _ _ _ => Undisturbed.trans) (fun _ _ h => h)
      hm w
  obtain ⟨hR, hlog⟩ := Only.returns (R := Undisturbed) hr (fun _ _ _ => Undisturbed.trans)
    (fun _ _ h => h) (fun _ x w ho => undisturbed_consult x w ho) h hstop
  exact ⟨hR, fun s => not_refused fun e he => (hlog e he).notRefusal⟩

theorem consults_footprint (tag : String) :
    Only (S := sig) Undisturbed Consults (readModelFootprint tag) := by
  refine ⟨only_readManifest?.mpr trivial, fun m => ?_⟩
  cases m <;> trivial

theorem consults_vramAdmits (fp : Footprint) :
    Only (S := sig) Undisturbed Consults (vramAdmits fp) := by
  have hr : ∀ w, Undisturbed w w := fun _ => ⟨rfl, rfl, rfl, rfl, rfl⟩
  refine ⟨hr, fun b => only_ite.mpr ⟨fun _ => trivial, fun _ => ⟨only_vramBudget.mpr trivial,
    fun free => ⟨hr, fun x => ?_⟩⟩⟩⟩
  cases free <;> trivial

/-- A sequence of which the first half makes no refusal. -/
theorem refused_in_second {α β : Type} {m : Prog α} {k : α → Prog β} {s : Nat} {w w' : World}
    {log : List (Op × Reply)} {r : Res sig β}
    (hm : ∀ {log r w'}, Returns (system C) t (m.run w) log r w' → ¬RefusedAtGate s log)
    (h : Returns (system C) t ((m >>= k).run w) log r w') (hs : RefusedAtGate s log) :
    ∃ a w₁ log₁ log₂, Returns (system C) t (m.run w) log₁ (.ok a) w₁ ∧
      Returns (system C) t ((k a).run w₁) log₂ r w' ∧ RefusedAtGate s log₂ := by
  rcases returns_bind h rfl with ⟨e, -, h₁⟩ | ⟨a, w₁, log₁, log₂, h₁, h₂, rfl⟩
  · exact absurd hs (hm h₁)
  · obtain ⟨e, he⟩ := hs
    rcases List.mem_append.mp he with he | he
    · exact absurd ⟨e, he⟩ (hm h₁)
    · exact ⟨a, w₁, log₁, log₂, h₁, h₂, e, he⟩

/-- The reservation itself: a refusal leaves everything as it was. -/
theorem refused_reservation {s : Nat} {w w' : World} {log : List (Op × Reply)}
    {r : Res sig Unit} (h : Returns (system C) t ((reserveAndStart C s).run w) log r w')
    (hs : RefusedAtGate s log) : Undisturbed w w' := by
  obtain ⟨fp, w₁, l₁, l₂, h₁, h₂, hs⟩ := refused_in_second
    (fun h => (returns_consults (consults_footprint _) h).2 s) (returns_gets_bind.mp h) hs
  obtain ⟨admits, w₂, l₃, l₄, h₃, h₄, hs⟩ := refused_in_second
    (fun h => (returns_consults (consults_vramAdmits fp) h).2 s) h₂ hs
  have hw := (returns_consults (consults_footprint _) h₁).1.trans
    (returns_consults (consults_vramAdmits fp) h₃).1
  cases admits with
  | true =>
      refine absurd hs (returns_noRefusal ?_ h₄)
      exact only_bind.mpr ⟨only_mark.mpr trivial, fun _ => ⟨fun _ => trivial, fun _ =>
        ⟨only_monotonic.mpr trivial, fun _ _ => trivial⟩⟩⟩
  | false =>
      refine hw.trans (Total.returns (Q := fun _ w' => Undisturbed w₂ w') ?_ h₄)
      refine total_seq (total_call rfl ⟨.ok, rfl⟩ fun x hx => ?_)
      cases x with
      | ok => exact total_pure ⟨rfl, rfl, rfl, rfl, rfl⟩
      | _ => cases hx

/-- The victim of an eviction is idle. -/
theorem lruIdleEvictable_idle {w : World} {v : Nat} (h : w.lruIdleEvictable = some v) :
    (w.resident v).state = .idleEvictable := by
  have hm := (List.mem_filter.mp (firstBy_mem h)).2
  simp only [Bool.and_eq_true, decide_eq_true_eq] at hm
  exact hm.1.1

/-- An eviction leaves its victim dead. -/
theorem total_beginEvict_dead {v : Nat} {w : World} (h : (w.resident v).state = .idleEvictable) :
    Total (system C) t (beginEvictLocked v)
      (Gives fun _ (w' : World) => (w'.resident v).state = .dead) w := by
  refine total_gets_bind (total_then (M := fun _ _ => True) ?_ fun _ w₁ _ => ?_)
  · exact total_when (fun _ => total_modify trivial) fun _ => trivial
  · refine total_when (fun _ => ?_) fun hd => ?_
    · refine total_seq (total_modify (total_seq (total_modify (total_modify ?_))))
      simp [World.fork, World.deregister, World.setResident, Gives]
    · simp [h] at hd

theorem notRefusal_beginEvict (v : Nat) :
    Only (S := sig) (fun _ _ => True) NotRefusal (beginEvictLocked v) :=
  ⟨fun _ => trivial, fun _ => ⟨only_when.mpr fun _ _ => trivial, fun _ => only_when.mpr fun _ =>
    ⟨fun _ => trivial, fun _ => ⟨fun _ => trivial, fun _ _ => trivial⟩⟩⟩⟩

/-- A refused slot has changed nothing exactly when the residents were fewer
than the cap: at the cap the victim has been evicted before the gate was asked,
and it is dead although nothing takes its place. -/
theorem refusal_undisturbed (C : Config) (t s : Nat) (w w' : World) (log : List (Op × Reply))
    (r : Res sig Unit) (h : Returns (system C) t ((routeOrReserve C s).run w) log r w')
    (hs : RefusedAtGate s log) :
    Undisturbed w w' ↔ w.modelResidents.length < C.maxParallelSidecars := by
  have h := returns_gets_bind.mp h
  cases hl : w.liveResidentFor (w.slot s).modelTag with
  | some d =>
      simp only [hl] at h
      refine absurd hs (returns_noRefusal (m := routeHit d s) ?_ h)
      exact ⟨only_monotonic.mpr trivial, fun _ _ => trivial⟩
  | none =>
      simp only [hl] at h
      split at h
      · next hcap =>
          refine iff_of_false ?_ (by omega)
          cases hv : w.lruIdleEvictable with
          | none =>
              rw [hv] at h
              refine absurd hs (returns_noRefusal (m := deferUnroutable s) ?_ h)
              exact ⟨fun _ => trivial, fun _ => ⟨fun _ => trivial, fun x => only_ite.mpr
                ⟨fun _ => only_failCompletionFuture.mpr trivial, fun _ _ => trivial⟩⟩⟩
          | some v =>
              rw [hv] at h
              obtain ⟨_, w₁, l₁, l₂, h₁, h₂, hs⟩ := refused_in_second (m := beginEvictLocked v)
                (returns_noRefusal (notRefusal_beginEvict v)) h hs
              have hidle := lruIdleEvictable_idle hv
              have hdead : (w₁.resident v).state = .dead :=
                (total_beginEvict_dead hidle).returns h₁
              intro hw
              rw [← (refused_reservation h₂ hs).2.1, hw.2.1, hidle] at hdead
              cases hdead
      · next hcap => exact iff_of_true (refused_reservation h hs) (by omega)

/-- A manager whose one model resident is still booting on card 0. -/
def oneBooting : World :=
  initial.reserve "a" (newResident 0 "a" 11500 { splitMode := "none" } 0)

/-- Below the cap a refused slot changes nothing. -/
theorem refusal_undisturbed_below : ∃ log r w',
    Returns (system { maxParallelSidecars := 2 }) 0
      ((routeOrReserve { maxParallelSidecars := 2 } 1).run oneBooting) log r w' ∧
    RefusedAtGate 1 log ∧ Undisturbed oneBooting w' := by
  have hrun : (follow (system { maxParallelSidecars := 2 }) 0
    [some (.raised .fileNotFound), some .ok]
      ((routeOrReserve { maxParallelSidecars := 2 } 1).run oneBooting)).any
        (fun p => refuses 1 p.1) = true := by decide +kernel
  obtain ⟨⟨log, r, w'⟩, hf, hlog⟩ := (Option.any_eq_true _ _).mp hrun
  have hr := returns_of_follow hf
  have hs := refusedAtGate_of_refuses hlog
  exact ⟨log, r, w', hr, hs, (refusal_undisturbed _ 0 1 oneBooting w' log r hr hs).mpr
    (by decide)⟩

/-! ## A victim that is evicted for nothing -/

/-- Two residents, no grace window. -/
def idleConfig : Config := { maxParallelSidecars := 2, graceSeconds := 0, safetyEnabled := false }

/-- A model pinned to a card. -/
def pinned (gpu : Nat) : Manifest := { flags := { splitMode := some "none", mainGpu := some gpu } }

/-- A request for a model arrives in task `t` and waits for its future. -/
def submitted (modelTag : String) (t : Nat) : List (Move (system idleConfig)) :=
  [.env (.request (.submitAndWait { modelTag, threadId := modelTag, watched := false })),
    .start t .ok, .answer (.time 0), .answer (.time 0), .answer .ok, .resume t .ok]

/-- The resident of model a has served its request and is parked idle, that of
model b is booting, and a slot of model c has been popped. -/
def idleAndBooting : List (Move (system idleConfig)) :=
  submitted "a" 1 ++
  [.start 0 .ok, .go, .answer .ok, .answer (.manifest (pinned 0)), .answer (.mib (some 0)),
    .answer .ok, .answer (.time 0), .go, .go, .start 2 .ok, .answer .ok, .answer (.manifest {}),
    .answer (.handle 0), .resume 2 (.healthy true), .go, .answer (.time 0), .resume 2 .ok,
    .resume 2 (.completion 7), .answer (.time 0), .resume 2 .ok, .answer (.time 0), .go,
    .answer (.time 0), .answer (.time 0), .answer (.time 0)] ++
  submitted "b" 3 ++
  [.resume 0 .ok, .go, .answer (.time 0), .answer .ok, .answer (.manifest (pinned 1)),
    .answer (.mib (some 0)), .answer .ok, .answer (.time 0), .go, .go] ++
  submitted "c" 5 ++ [.resume 0 .ok, .go, .answer (.time 0)]

/-- The world in which the worker routes the slot it has popped. -/
def routingWorld (c : Loop sig) : Option World :=
  match c.current with
  | some (0, .ask (.mark (.popped s)) _ w) => some (answer 0 (.mark (.popped s)) .ok w)
  | _ => none

/-- The gate refuses slot 2, since its model has no manifest and would be split
over all cards, and the idle resident of model a is gone. -/
theorem refused_and_evicted : ∃ c w log r w',
    Reachable idleConfig (Admit.any _) c ∧ routingWorld c = some w ∧
    Returns (system idleConfig) 0 ((routeOrReserve idleConfig 2).run w) log r w' ∧
    RefusedAtGate 2 log ∧ ("a", 1) ∈ w.registry ∧ ("a", 1) ∉ w'.registry ∧
    ¬Undisturbed w w' := by
  have hrun : ((Loop.exec (Admit.any _) idleAndBooting { world := initial }).any fun c =>
      (routingWorld c).any fun w =>
        (follow (system idleConfig) 0 [some (.raised .fileNotFound), some .ok]
          ((routeOrReserve idleConfig 2).run w)).any fun p =>
            refuses 2 p.1 && decide (("a", 1) ∈ w.registry ∧ ("a", 1) ∉ p.2.2.registry)) =
      true := by decide +kernel
  obtain ⟨c, hc, h⟩ := Loop.reach_of_check hrun
  obtain ⟨w, hw, h⟩ := (Option.any_eq_true _ _).mp h
  obtain ⟨⟨log, r, w'⟩, hf, h⟩ := (Option.any_eq_true _ _).mp h
  obtain ⟨hlog, hreg⟩ := Bool.and_eq_true_iff.mp h
  obtain ⟨hin, hout⟩ := of_decide_eq_true hreg
  exact ⟨c, w, log, r, w', hc, hw, returns_of_follow hf, refusedAtGate_of_refuses hlog, hin, hout,
    fun h => hout (h.1 ▸ hin)⟩

end Turbohaul
