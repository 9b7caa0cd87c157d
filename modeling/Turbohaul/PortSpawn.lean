/-
# `PortSpawn` — the two statements that give a port away

A driver spawns on the port of its resident, which has been free since the
reservation; the dispatcher reserves the lowest port that no registered
resident holds.  What the second needs beyond the invariant is the condition
`freshPorts`: that no unreaped sidecar is on that port.
-/
import Turbohaul.PortRuns

namespace Turbohaul

open Coop

variable {C : Config}

/-! ## What a task knows -/

theorem fixed_true (t : Nat) (r : Option Nat) : Fixed t r fun _ => True :=
  ⟨fun _ _ _ => trivial, fun _ _ _ _ => trivial⟩

/-- The driver of `d` has not spawned. -/
def Unspawned (t d : Nat) (w : World) : Prop :=
  (w.resident d).driverTask = some t ∧ w.pristine d

theorem fixed_unspawned (t d : Nat) : Fixed t none (Unspawned t d) where
  steady := fun _ h hl => ⟨(h.seat d).2.trans hl.1, h.pristine (by rintro ⟨⟩) hl.2⟩
  rely := fun P hd h hl => ⟨(h.seat d (P.driven hl.1).1).trans hl.1, h.pristine d hl.1 hd hl.2⟩

/-- A driver may tear down its own resident. -/
theorem Aboard.own {t d : Nat} {s w : World} (A : Aboard t s w)
    (hd : (w.resident d).driverTask = some t) : Berth t (some d) (fun _ => True) s w := by
  refine ⟨A, fun e he => ?_, fun e he => ?_, trivial⟩
  · cases he
    exact (A.ports.driven hd).1
  · cases he
    exact .inl hd

/-- A task that tears down nobody. -/
theorem Aboard.plain {t : Nat} {s w : World} (A : Aboard t s w) :
    Berth t none (fun _ => True) s w :=
  ⟨A, (by rintro _ ⟨⟩), (by rintro _ ⟨⟩), trivial⟩

/-! ## The spawn -/

theorem steadily_callSpawn (r : Option Nat) (s port : Nat) (w : World) :
    Steadily r w (w.callSpawn s port) :=
  steady_same rfl rfl rfl rfl rfl rfl rfl (fun _ => rfl) fun _ h => h

/-- A sidecar on the port of one resident leaves the port of another free. -/
theorem pristine_addSidecar {w : World} (P : Ports w) {d r port : Nat} (tag : String) (n : Nat)
    (hd : w.pristine d) (hp : (w.resident d).port = some port) (hr : w.pristine r)
    (hne : r ≠ d) : (w.addSidecar port tag n).pristine r := by
  obtain ⟨⟨key, hk⟩, -⟩ := hd
  obtain ⟨⟨key', hk'⟩, hl, a, ha, hfree⟩ := hr
  refine ⟨⟨key', hk'⟩, hl, a, ha, fun q hq => ?_⟩
  by_cases h : q = w.procs.spawned
  · subst h
    have self : ((w.addSidecar port tag n).procs.proc w.procs.spawned).port = port := by
      simp [World.addSidecar, World.setProcs]
    rw [self]
    rintro rfl
    exact hne (P.apart _ hk' _ hk _ ha hp)
  · have old : (w.addSidecar port tag n).procs.proc q = w.procs.proc q := setAt_of_ne h
    obtain ⟨hlt, hu⟩ := hq
    rw [old] at hu ⊢
    change q < w.procs.spawned + 1 at hlt
    exact hfree q ⟨by omega, hu⟩

/-- A new sidecar on the port of a pristine resident. -/
theorem ports_addSidecar {w : World} (P : Ports w) {d port : Nat} (tag : String) (n : Nat)
    (hd : w.pristine d) (hp : (w.resident d).port = some port)
    (hs : ∀ u, (w.resident d).driverTask = some u → (w.task u).started = true) :
    Ports (w.addSidecar port tag n) := by
  obtain ⟨-, -, a, ha, hfree⟩ := id hd
  have hpa : a = port := Option.some.inj (ha.symm.trans hp)
  subst hpa
  have self : (w.addSidecar a tag n).procs.proc w.procs.spawned =
      { port := a, modelTag := tag, parallel := n, alive := true } := setAt_self _ _ _
  have old : ∀ q, q ≠ w.procs.spawned →
      (w.addSidecar a tag n).procs.proc q = w.procs.proc q := fun q hq => setAt_of_ne hq
  have undead : ∀ q, q ≠ w.procs.spawned → (w.addSidecar a tag n).undead q → w.undead q := by
    rintro q hq ⟨hlt, hr⟩
    rw [old q hq] at hr
    exact ⟨by change q < w.procs.spawned + 1 at hlt; omega, hr⟩
  refine
    { tame := P.tame.of_same rfl rfl rfl fun _ => ⟨rfl, rfl⟩
      drivers := P.drivers
      listed := P.listed
      unborn := P.unborn
      keyed := P.keyed
      apart := P.apart
      distinct := fun p q hp' hq' => ?_
      waiting := fun r u hu hst hn => ?_
      orphan := P.orphan }
  · by_cases h₁ : p = w.procs.spawned <;> by_cases h₂ : q = w.procs.spawned
    · exact fun _ => h₁.trans h₂.symm
    · subst h₁
      rw [self, old q h₂]
      exact fun h => absurd h.symm (hfree q (undead q h₂ hq'))
    · subst h₂
      rw [self, old p h₁]
      exact fun h => absurd h (hfree p (undead p h₁ hp'))
    · rw [old p h₁, old q h₂]
      exact P.distinct p q (undead p h₁ hp') (undead q h₂ hq')
  · refine pristine_addSidecar P tag n hd hp (P.waiting r u hu hst hn) ?_
    rintro rfl
    cases (hs u hu).symm.trans hst

/-- `_spawn` of the driver of `d`: the resident is no longer pristine, whatever
the reply. -/
theorem wp_spawn_port {t d port sl n : Nat} {tag : String} {Q : Post sig Nat} {s w : World}
    (H : Berth t none (Unspawned t d) s w) (hp : (w.resident d).port = some port)
    (hq : ∀ r s w, Berth t (some d) (fun _ => True) s w → Q r s w) :
    wp (ports C) t (spawn sl port tag n) Q s w := by
  obtain ⟨A, -, -, hown, hpr⟩ := H
  have hs : ∀ u, (w.resident d).driverTask = some u → (w.task u).started = true := by
    intro u hu
    rw [hown] at hu
    cases hu
    exact A.started
  have called :=
    (steadily_callSpawn none sl port w A.ports.tame).aboard (t := t) (by rintro _ ⟨⟩) A
  have failed : Berth t (some d) (fun _ => True) s (w.callSpawn sl port) := called.own hown
  have spawned : Berth t (some d) (fun _ => True) s
      ((w.callSpawn sl port).addSidecar port tag n) := by
    refine Aboard.own (t := t) ⟨A.before, ports_addSidecar called.ports tag n hpr hp hs,
      called.step.trans A.before ?_, A.lt, A.started, A.undone⟩ hown
    exact ⟨Nat.le_refl _, fun _ _ => rfl, fun _ _ h => h, fun _ _ _ => rfl, Nat.le_refl _,
      fun _ _ => rfl, fun _ _ h => h, fun r u hu hne _ hr =>
        pristine_addSidecar called.ports tag n hpr hp hr fun h => hne (by
          rw [h] at hu
          exact hown.symm.trans hu)⟩
  intro x _ _
  cases x with
  | handle p => exact hq _ _ _ spawned
  | raised e => exact hq _ _ _ failed
  | cancelled => exact hq _ _ _ failed
  | _ => exact hq _ _ _ failed

/-! ## The driver -/

/-- A driver that has not spawned may give up its resident. -/
theorem Unspawned.down {t d : Nat} {s w : World} (H : Berth t none (Unspawned t d) s w) :
    Berth t (some d) (fun _ => True) s w :=
  H.1.own H.2.2.2.1

theorem wp_bootResident {t d sl n : Nat} {tag : String} {s w : World}
    (H : Berth t none (Unspawned t d) s w) :
    wp (ports C) t (bootResident d sl tag n)
      (fun _ s w => Berth t (some d) (fun _ => True) s w) s w := by
  have F := frames_berth (C := C) (fixed_true t (some d))
  have port : (w.resident d).port = some ((w.resident d).port.getD 0) := by
    obtain ⟨-, -, a, ha, -⟩ := H.2.2.2.2
    rw [ha]
    rfl
  rw [bootResident, wp_gets_bind, wp_bind]
  refine wp_spawn_port H port fun r s w H => ?_
  cases r with
  | error e => exact H
  | ok pid =>
      have he : ∀ (e : Exc Err) s w, Berth t (some d) (fun _ => True) s w →
          Berth t (some d) (fun _ => True) s w := fun _ _ _ => id
      refine F.seq he ?_ (fun _ => F.seq he ((calm_bindSidecar sl pid).steady _) fun _ =>
        F.seq he (only_waitHealthy.mpr trivial) fun healthy => ?_) s w H
      · exact isSteady_onResident d (fun _ => ⟨rfl, rfl⟩) (fun _ _ h => h) fun _ h => h
      · split
        · refine F.seq he ?_ fun _ _ _ h => h
          exact isSteady_onResident d (fun _ => ⟨rfl, rfl⟩) (fun _ _ h => h) fun _ _ =>
            (by rintro ⟨⟩)
        · refine F.seq he ((isQuiet_failCompletionFuture _ sl _).steady _) fun _ =>
            F.seq he ?_ fun _ => F.seq he (isSteady_gets _ _) fun alive => F.seq he
              (only_when.mpr fun _ => only_suppress.mpr (isSteady_sync _ trivial)) fun _ _ _ h => h
          exact isSteady_onResident d (fun _ => ⟨rfl, rfl⟩) (fun _ _ h => h) fun _ h => h

theorem wp_spawnForResident {t d sl : Nat} {s w : World}
    (H : Berth t none (Unspawned t d) s w) :
    wp (ports C) t (spawnForResident C d sl)
      (fun _ s w => Berth t (some d) (fun _ => True) s w) s w := by
  have F := frames_berth (C := C) (fixed_unspawned t d)
  have he : ∀ (e : Exc Err) s w, Berth t none (Unspawned t d) s w →
      Berth t (some d) (fun _ => True) s w := fun _ _ _ => Unspawned.down
  rw [spawnForResident, wp_gets_bind]
  refine F.seq he (only_readManifest?.mpr trivial) (fun m => F.seq he ?_ fun ok s w H => ?_)
    s w H
  · exact only_ite.mpr ⟨fun _ => (calm_runSpawnSafetyGate _).steady none, fun _ => trivial⟩
  · split
    · exact wp_bootResident H
    · refine F.seq he ((isQuiet_failCompletionFuture _ _ _).steady none) (fun _ s w H => ?_) s w H
      exact Unspawned.down H

theorem wp_driveResident {t d : Nat} {s w : World} (H : Berth t none (Unspawned t d) s w) :
    wp (ports C) t (driveResident C d)
      (fun _ s w => Berth t (some d) (fun _ => True) s w) s w := by
  have F := frames_berth (C := C) (fixed_unspawned t d)
  have F' := frames_berth (C := C) (fixed_true t (some d))
  have body : wp (ports C) t (driveBody C d)
      (fun _ s w => Berth t (some d) (fun _ => True) s w) s w := by
    refine F.seq (fun _ _ _ => Unspawned.down) ((calm_firstSlot d).steady none)
      (fun sl s w H => ?_) s w H
    refine wp_seq (wp_spawnForResident H) (fun pid s w H => ?_) fun _ _ _ h => h
    cases pid with
    | none => exact H
    | some pid =>
        exact F'.seq (fun _ _ _ h => h) (isSteady_gets _ _) (fun x => F'.keeps
          (only_whileTrue.mpr (isSteady_driveTurn d pid _))) s w H
  refine wp_tryFinally (wp_mono (fun r s w H => ?_) body)
  refine wp_mono (fun r' s w H => ?_) (F'.keeps (isSteady_driveFinally d) s w H)
  cases r' <;> exact H

end Turbohaul
