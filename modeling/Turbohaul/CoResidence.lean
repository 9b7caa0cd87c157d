/-
# `CoResidence` — which models are loaded side by side

At cap 2 and above the registry maps each model to its resident.  A reservation
looks at the siblings that are there at that moment; after it, residents only
come up, go idle, and leave.  What is upheld over a run is

    listed   registered residents exist
    keys     one resident a tag
    own      under its own tag
    alive    none of them is dead
    room     at most `max_parallel_sidecars`
    apart    two of them have `split_mode` none, on different cards

of all entries but the singleton's, and a resident that has left does not come
back.
-/
import Turbohaul.PortReserve
import Turbohaul.Refusal
import Turbohaul.Walk

namespace Turbohaul

open Coop

/-! ## Statements that move nobody -/

/-- A statement that neither registers, nor evicts, nor kills a resident. -/
structure Housed (w w' : World) : Prop where
  registry : w'.registry = w.registry
  residentCount : w'.residentCount = w.residentCount
  modelTag : ∀ r, (w'.resident r).modelTag = (w.resident r).modelTag
  splitMode : ∀ r, (w'.resident r).splitMode = (w.resident r).splitMode
  mainGpu : ∀ r, (w'.resident r).mainGpu = (w.resident r).mainGpu
  dead : ∀ r, (w'.resident r).state = .dead → (w.resident r).state = .dead

theorem Plain.housed {w w' : World} (h : Plain w w') : Housed w w' :=
  ⟨h.registry, h.residentCount, h.modelTag, h.splitMode, h.mainGpu, h.dead⟩

theorem Housed.refl (w : World) : Housed w w := (Plain.refl w).housed

theorem Housed.trans {a b c : World} (h : Housed a b) (h' : Housed b c) : Housed a c where
  registry := h'.registry.trans h.registry
  residentCount := h'.residentCount.trans h.residentCount
  modelTag := fun r => (h'.modelTag r).trans (h.modelTag r)
  splitMode := fun r => (h'.splitMode r).trans (h.splitMode r)
  mainGpu := fun r => (h'.mainGpu r).trans (h.mainGpu r)
  dead := fun r hd => h.dead r (h'.dead r hd)

/-- A statement that leaves registry and residents as they are. -/
theorem housed_same {w w' : World} (hg : w'.registry = w.registry)
    (hc : w'.residentCount = w.residentCount) (hr : w'.resident = w.resident) : Housed w w' :=
  ⟨hg, hc, fun _ => by rw [hr], fun _ => by rw [hr], fun _ => by rw [hr], fun _ h => by
    rwa [hr] at h⟩

instance : ResidentVocabulary Housed := .mono fun _ _ => Plain.housed

instance : GraceVocabulary Housed := .mono fun _ _ => Plain.housed

instance : QueueVocabulary Housed where
  trans := Housed.trans
  queue := fun _ _ => housed_same rfl rfl rfl
  flagged := fun w s => by
    unfold World.flagEvicted
    split <;> exact housed_same rfl rfl rfl
  alloc := fun _ _ _ => housed_same rfl rfl rfl
  attached := fun _ _ => housed_same rfl rfl rfl

/-! ## The invariant -/

/-- `split_mode` none, as the gate compares it. -/
def Resident.pinned (x : Resident) : Prop := x.splitMode.toLower = "none"

/-- The two residents are kept apart: each on a card of its own. -/
def Resident.apart (x y : Resident) : Prop := x.pinned ∧ y.pinned ∧ x.mainGpu ≠ y.mainGpu

/-- The entries of the registry, less the singleton's. -/
def World.placed (w : World) : List (String × Nat) :=
  w.registry.filter fun e => e.1 ≠ singletonResidentKey

/-- Co-residence. -/
structure CoResident (C : Config) (w : World) : Prop where
  listed : ∀ e ∈ w.registry, e.2 < w.residentCount
  keys : (w.registry.map Prod.fst).Nodup
  own : ∀ e ∈ w.placed, (w.resident e.2).modelTag = some e.1
  alive : ∀ e ∈ w.placed, (w.resident e.2).state ≠ .dead
  room : w.placed.length ≤ C.maxParallelSidecars
  apart : w.placed.Pairwise fun e d => (w.resident e.2).apart (w.resident d.2)

/-- Nobody comes back to the registry: who is there was there, or is new. -/
structure NoReturn (w w' : World) : Prop where
  count : w.residentCount ≤ w'.residentCount
  entry : ∀ e ∈ w'.registry, e ∈ w.registry ∨ w.residentCount ≤ e.2

theorem NoReturn.refl (w : World) : NoReturn w w := ⟨Nat.le_refl _, fun _ h => .inl h⟩

theorem NoReturn.trans {a b c : World} (h : NoReturn a b) (h' : NoReturn b c) : NoReturn a c where
  count := Nat.le_trans h.count h'.count
  entry := fun e he =>
    (h'.entry e he).elim (h.entry e) fun hn => .inr (Nat.le_trans h.count hn)

variable {C : Config} {w w' : World}

theorem Housed.noReturn (h : Housed w w') : NoReturn w w' :=
  ⟨Nat.le_of_eq h.residentCount.symm, fun _ he => .inl (h.registry ▸ he)⟩

theorem Housed.placed (h : Housed w w') : w'.placed = w.placed := by
  rw [World.placed, h.registry, World.placed]

theorem Housed.apart (h : Housed w w') {r d : Nat}
    (ha : (w.resident r).apart (w.resident d)) : (w'.resident r).apart (w'.resident d) := by
  simpa only [Resident.apart, Resident.pinned, h.splitMode, h.mainGpu] using ha

theorem CoResident.housed (J : CoResident C w) (h : Housed w w') : CoResident C w' where
  listed := by rw [h.registry, h.residentCount]; exact J.listed
  keys := by rw [h.registry]; exact J.keys
  own := fun e he => (h.modelTag e.2).trans (J.own e (h.placed ▸ he))
  alive := fun e he hd => J.alive e (h.placed ▸ he) (h.dead e.2 hd)
  room := by rw [h.placed]; exact J.room
  apart := by
    rw [h.placed]
    exact J.apart.imp h.apart

theorem mem_placed {e : String × Nat} :
    e ∈ w.placed ↔ e ∈ w.registry ∧ e.1 ≠ singletonResidentKey := by
  simp [World.placed]

/-- All registered residents but the singleton are live ones. -/
theorem CoResident.modelResidents (J : CoResident C w) :
    w.modelResidents = w.placed.map Prod.snd := by
  refine congrArg (List.map Prod.snd) (List.filter_congr fun e he => ?_)
  by_cases hk : e.1 = singletonResidentKey
  · simp [hk]
  · simp [hk, J.alive e (mem_placed.mpr ⟨he, hk⟩)]

/-! ## Leaving -/

/-- The resident dies and is deregistered. -/
def World.retire (r : Nat) (w : World) : World :=
  (w.setResident r fun x => { x with state := .dead }).deregister r

theorem retire_resident (r d : Nat) :
    (w.retire r).resident d =
      if d = r then { w.resident r with state := .dead } else w.resident d := by
  unfold World.retire World.deregister World.setResident setAt
  rfl

theorem retire_registry (r : Nat) : (w.retire r).registry = w.registry.filter fun e =>
    !(some e.1 = (w.resident r).modelTag && e.2 = r) := by
  simp [World.retire, World.deregister, World.setResident]

theorem retire_sublist (r : Nat) : (w.retire r).registry.Sublist w.registry := by
  rw [retire_registry]
  exact List.filter_sublist

theorem retire_placed (r : Nat) : (w.retire r).placed.Sublist w.placed :=
  (retire_sublist r).filter _

theorem retire_apart {r a b : Nat} (h : (w.resident a).apart (w.resident b)) :
    ((w.retire r).resident a).apart ((w.retire r).resident b) := by
  have same : ∀ d, ((w.retire r).resident d).splitMode = (w.resident d).splitMode ∧
      ((w.retire r).resident d).mainGpu = (w.resident d).mainGpu := fun d => by
    rw [retire_resident]
    split
    · next hd => exact hd ▸ ⟨rfl, rfl⟩
    · exact ⟨rfl, rfl⟩
  simpa only [Resident.apart, Resident.pinned, same] using h

/-- Whoever is left is somebody else. -/
theorem CoResident.ne_retired (J : CoResident C w) {r : Nat} {e : String × Nat}
    (he : e ∈ (w.retire r).placed) : e.2 ≠ r := by
  rintro rfl
  have hw := J.own e ((retire_placed _).subset he)
  have hm := (mem_placed.mp he).1
  rw [retire_registry, List.mem_filter] at hm
  simp [hw] at hm

theorem CoResident.retire (J : CoResident C w) (r : Nat) : CoResident C (w.retire r) where
  listed := fun e he => J.listed e ((retire_sublist r).subset he)
  keys := J.keys.sublist ((retire_sublist r).map _)
  own := fun e he => by
    rw [retire_resident, if_neg (J.ne_retired he)]
    exact J.own e ((retire_placed r).subset he)
  alive := fun e he => by
    rw [retire_resident, if_neg (J.ne_retired he)]
    exact J.alive e ((retire_placed r).subset he)
  room := Nat.le_trans (retire_placed r).length_le J.room
  apart := (J.apart.sublist (retire_placed r)).imp retire_apart

theorem retire_noReturn (r : Nat) : NoReturn w (w.retire r) :=
  ⟨Nat.le_refl _, fun _ he => .inl ((retire_sublist r).subset he)⟩

/-- It makes room. -/
theorem CoResident.retire_room (J : CoResident C w) {r : Nat} (h : r ∈ w.modelResidents) :
    (w.retire r).placed.length < C.maxParallelSidecars := by
  rw [J.modelResidents] at h
  obtain ⟨e, he, rfl⟩ := List.mem_map.mp h
  refine Nat.lt_of_lt_of_le (Nat.lt_of_le_of_ne (retire_placed _).length_le fun hl => ?_) J.room
  have hs := (retire_placed (w := w) e.2).eq_of_length hl
  exact J.ne_retired (hs ▸ he) rfl

/-! ## Arriving -/

/-- There is room for a resident of this footprint under this tag. -/
structure RoomFor (C : Config) (tag : String) (fp : Footprint) (w : World) : Prop where
  unplaced : ∀ e ∈ w.placed, e.1 ≠ tag
  room : w.placed.length < C.maxParallelSidecars
  isolated : w.isolated fp = true

theorem placed_reserve {tag : String} {x : Resident} (h : ∀ e ∈ w.placed, e.1 ≠ tag) :
    (w.reserve tag x).placed =
      w.placed ++ if tag = singletonResidentKey then [] else [(tag, w.residentCount)] := by
  have hp : (w.registry.filter fun e => e.1 ≠ tag).filter (fun e => e.1 ≠ singletonResidentKey) =
      w.placed := by
    rw [List.filter_comm]
    exact List.filter_eq_self.mpr fun e he => by simpa using h e he
  show List.filter _ (_ ++ [_]) = _
  rw [List.filter_append, hp]
  congr 1
  by_cases hk : tag = singletonResidentKey <;> simp [hk]

theorem CoResident.reserve (J : CoResident C w) {tag : String} (fp : Footprint) {x : Resident}
    (H : RoomFor C tag fp w) (hm : x.modelTag = some tag) (hs : x.state ≠ .dead)
    (hp : x.splitMode = fp.splitMode) (hg : x.mainGpu = fp.mainGpu) :
    CoResident C (w.reserve tag x) := by
  have hpl := placed_reserve (x := x) H.unplaced
  have old : ∀ e ∈ w.placed, (w.reserve tag x).resident e.2 = w.resident e.2 := fun e he =>
    reserve_old (Nat.ne_of_lt (J.listed e (mem_placed.mp he).1))
  have mem : ∀ e ∈ (w.reserve tag x).placed, e ∈ w.placed ∨ e = (tag, w.residentCount) := by
    intro e he
    rw [hpl, List.mem_append] at he
    refine he.imp_right fun h => ?_
    split at h
    · cases h
    · exact List.mem_singleton.mp h
  refine ⟨fun e he => ?_, ?_, fun e he => ?_, fun e he => ?_, ?_, ?_⟩
  · rcases mem_reserve.mp he with ⟨h, -⟩ | rfl
    · exact Nat.lt_succ_of_lt (J.listed e h)
    · exact Nat.lt_succ_self _
  · show (List.map _ (_ ++ [_])).Nodup
    rw [List.map_append, List.nodup_append]
    refine ⟨J.keys.sublist (List.filter_sublist.map _), List.nodup_singleton _, ?_⟩
    rintro a ha b hb rfl
    obtain ⟨e, he, rfl⟩ := List.mem_map.mp ha
    have hne := (List.mem_filter.mp he).2
    simp only [List.map_cons, List.map_nil, List.mem_singleton] at hb
    simp [hb] at hne
  · rcases mem e he with h | rfl
    · rw [old e h]
      exact J.own e h
    · rw [reserve_new]
      exact hm
  · rcases mem e he with h | rfl
    · rw [old e h]
      exact J.alive e h
    · rw [reserve_new]
      exact hs
  · rw [hpl, List.length_append]
    have := H.room
    split <;> simp <;> omega
  · rw [hpl, List.pairwise_append]
    refine ⟨?_, ?_, fun e he d hd => ?_⟩
    · refine J.apart.imp_of_mem fun he hd ha => ?_
      rw [old _ he, old _ hd]
      exact ha
    · split
      · exact .nil
      · exact List.pairwise_singleton _ _
    -- the gate has looked at each of the siblings
    · have hd : d = (tag, w.residentCount) := by
        split at hd
        · cases hd
        · exact List.mem_singleton.mp hd
      subst hd
      have hi := H.isolated
      rw [World.isolated, J.modelResidents, Bool.or_eq_true] at hi
      rcases hi with hi | hi
      · have hne : w.placed = [] := by simpa using hi
        rw [hne] at he
        cases he
      · simp only [Bool.and_eq_true, decide_eq_true_eq, List.all_map, List.all_eq_true,
          Function.comp_apply] at hi
        obtain ⟨hn, hsib⟩ := hi
        rw [old e he, reserve_new]
        refine ⟨(hsib e he).1, ?_, ?_⟩
        · show x.splitMode.toLower = "none"
          rw [hp]
          exact hn
        · show _ ≠ x.mainGpu
          rw [hg]
          exact (hsib e he).2

theorem reserve_noReturn {tag : String} {x : Resident} : NoReturn w (w.reserve tag x) :=
  ⟨Nat.le_succ _, fun e he => (mem_reserve.mp he).elim (fun h => .inl h.1) fun h => by
    subst h
    exact .inr (Nat.le_refl _)⟩

/-- A tag without a live resident is not placed. -/
theorem CoResident.unplaced (J : CoResident C w) {tag : String}
    (h : w.liveResidentFor tag = none) : ∀ e ∈ w.placed, e.1 ≠ tag := by
  rintro ⟨key, r⟩ he rfl
  have hr := (mem_placed.mp he).1
  cases hk : w.registry.lookup key with
  | none => exact absurd (List.lookup_eq_none_iff.mp hk _ hr) (by simp)
  | some d =>
      have hd : (key, d) ∈ w.placed := mem_placed.mpr ⟨mem_of_lookup hk, (mem_placed.mp he).2⟩
      simp only [World.liveResidentFor, hk, Option.filter_eq_none_iff, Option.some.injEq,
        forall_eq', decide_eq_true_eq, not_not] at h
      exact J.alive _ hd h

/-! ## The programs that move residents -/

theorem upheld_housing : Upheld (CoResident C) NoReturn where
  refl := NoReturn.refl
  trans := fun _ _ _ => NoReturn.trans
  plain := fun h J => ⟨J.housed h.housed, h.housed.noReturn⟩

/-- The claim about the registry. -/
abbrev housing (C : Config) : Outline (system C) :=
  upholding C (Admit.any _) (CoResident C) NoReturn

/-- What a running task keeps. -/
abbrev House (C : Config) : World → World → Prop := fun s w => CoResident C w ∧ NoReturn s w

theorem House.housed {s : World} (H : House C s w) (h : Housed w w') : House C s w' :=
  ⟨H.1.housed h, H.2.trans h.noReturn⟩

theorem House.retire {s : World} (H : House C s w) (r : Nat) : House C s (w.retire r) :=
  ⟨H.1.retire r, H.2.trans (retire_noReturn r)⟩

variable {t : Nat}

theorem frames_house : Frames (housing C) t (House C) Plain fun _ => True :=
  frames_upheld upheld_housing

theorem frames_housed : Frames (housing C) t (House C) Housed fun _ => True where
  act := fun h H => H.housed h
  ask := frames_house.ask
  await := frames_house.await

/-- What `_begin_evict_locked` does: it drains the inbox, and unless the
resident was dead, it retires it. -/
def Evicts (r : Nat) (w w' : World) : Prop :=
  ∃ w₁, Housed w w₁ ∧ w₁.slot = w.slot ∧
    ((w.resident r).state = .dead ∧ w' = w₁ ∨
      (w.resident r).state ≠ .dead ∧ w' = (w₁.retire r).fork (.evictTeardown r))

theorem wp_beginEvictLocked {P : Outline (system C)} {r : Nat} {Q : Post sig Unit} {s : World}
    (h : ∀ w', Evicts r w w' → Q (.ok ()) s w') : wp P t (beginEvictLocked r) Q s w := by
  have rest : ∀ w₁, Housed w w₁ → w₁.slot = w.slot →
      wp P t (Co.when ((w.resident r).state ≠ .dead) (do
        onResident r fun x => { x with state := .dead }
        Co.modify (World.deregister r)
        fireAndForget (.evictTeardown r))) Q s w₁ := by
    intro w₁ h₁ hs
    rw [wp_when]
    split
    · next hd => exact h _ ⟨w₁, h₁, hs, .inr ⟨of_decide_eq_true hd, rfl⟩⟩
    · next hd => exact h _ ⟨w₁, h₁, hs, .inl ⟨by simpa using hd, rfl⟩⟩
  rw [beginEvictLocked, wp_gets_bind, wp_bind, wp_when]
  split
  · refine rest _ ?_ rfl
    exact ((plain_setResident w r (f := fun x => { x with inbox := some [] })
      ⟨fun _ => rfl, fun _ => rfl, fun _ => rfl, fun _ h => h⟩).trans
        (plain_fork _ rfl)).housed
  · exact rest w (.refl w) rfl

theorem housed_fork (w : World) (k : Kind) : Housed w (w.fork k) := housed_same rfl rfl rfl

theorem House.evicts {s : World} {r : Nat} (H : House C s w) (h : Evicts r w w') :
    House C s w' := by
  obtain ⟨w₁, h₁, -, ⟨-, rfl⟩ | ⟨-, rfl⟩⟩ := h
  · exact H.housed h₁
  · exact ((H.housed h₁).retire r).housed (housed_fork _ _)

theorem keeps_beginEvict (r : Nat) : Keeps (housing C) t (House C) (beginEvictLocked r) :=
  fun _ _ H => wp_beginEvictLocked fun _ h => H.evicts h

theorem keeps_claimTeardown (r : Nat) : Keeps (housing C) t (House C) (claimTeardown r) := by
  refine .bind (frames_house.keeps (lax_onResident r
    ⟨⟨fun _ => rfl, fun _ => rfl, fun _ => rfl, fun _ h => h⟩, fun _ => rfl⟩)) fun _ =>
    .bind (frames_housed.keeps Housed.refl) fun live => ?_
  intro s w H
  rw [wp_when]
  split
  · exact H.retire r
  · exact H

/-- Where there is room but for the gate, the reservation is safe. -/
theorem wp_reserve {sl : Nat} {s : World} (H : House C s w)
    (hu : ∀ e ∈ w.placed, e.1 ≠ (w.slot sl).modelTag)
    (hr : w.placed.length < C.maxParallelSidecars) :
    wp (housing C) t (reserveAndStart C sl) (fun _ => House C) s w := by
  rw [reserveAndStart, wp_gets_bind]
  refine wp_readModelFootprint fun r => ?_
  cases r with
  | error e => exact H
  | ok fp =>
    refine wp_vramAdmits fun r hi => ?_
    cases r with
    | error e => exact H
    | ok admits =>
      show wp (housing C) t (if admits = true then _ else _) _ s w
      split
      · next ha =>
        subst ha
        intro r hr _
        cases r with
        | ok =>
            intro r hr _
            cases r with
            | time now =>
                have hw : Housed w { w.record (.marked (.reserving sl)) with clock := now } :=
                  housed_same rfl rfl rfl
                have H' := H.housed hw
                refine ⟨H'.1.reserve fp ⟨?_, ?_, hi rfl⟩ rfl (by rintro ⟨⟩) rfl rfl,
                  H'.2.trans reserve_noReturn⟩
                · exact hu
                · assumption
            | _ => cases hr
        | _ => cases hr
      · exact frames_house.keeps (only_failCompletionFuture.mpr trivial) s w H

theorem keeps_route (sl : Nat) : Keeps (housing C) t (House C) (routeOrReserve C sl) := by
  intro s w H
  rw [routeOrReserve, wp_gets_bind]
  cases hlive : w.liveResidentFor (w.slot sl).modelTag with
  | some r => exact frames_house.keeps (Calm.lax (calm_routeHit r sl)) s w H
  | none =>
    have hu := H.1.unplaced hlive
    have hlen : w.modelResidents.length = w.placed.length := by
      rw [H.1.modelResidents, List.length_map]
    dsimp only
    split
    · cases hv : w.lruIdleEvictable with
      | none => exact frames_house.keeps (Calm.lax (calm_deferUnroutable sl)) s w H
      | some v =>
          -- the victim is live, so that its leaving makes room
          have hm := List.mem_filter.mp (firstBy_mem hv)
          have hstate : (w.resident v).state ≠ .dead := by
            have := hm.2
            simp only [Bool.and_eq_true, decide_eq_true_eq] at this
            rw [this.1.1]
            intro h
            cases h
          rw [wp_bind]
          refine wp_beginEvictLocked fun w' h => ?_
          have H' := H.evicts h
          obtain ⟨w₁, h₁, hs, ⟨hd, -⟩ | ⟨-, rfl⟩⟩ := h
          · exact absurd hd hstate
          · have hv₁ : v ∈ w₁.modelResidents := by
              rw [(H.1.housed h₁).modelResidents, h₁.placed, ← H.1.modelResidents]
              exact hm.1
            refine wp_reserve H' (fun e he => ?_) ?_
            · show e.1 ≠ (w₁.slot sl).modelTag
              rw [hs]
              exact hu e (h₁.placed ▸ (retire_placed v).subset he)
            · exact (H.1.housed h₁).retire_room hv₁
    · next hlt => exact wp_reserve H hu (by omega)

theorem walks_housing : Walks C (housing C) t (House C) Plain fun _ => True where
  frames := frames_house
  popNext := fun tag => frames_housed.keeps (Calm.lax (calm_popNext C tag))
  popMatchedThread := fun th tag => frames_housed.keeps (Calm.lax (calm_popMatchedThread th tag))
  enqueue := fun s => frames_housed.keeps (Calm.lax (calm_enqueue C s))
  enqueueHead := fun s => frames_housed.keeps (Calm.lax (calm_enqueueHead s))
  closeQueue := frames_housed.keeps (Calm.lax calm_closeQueue)
  allocSlot := fun x _ => frames_housed.keeps (Calm.lax (calm_allocSlot t x))
  attachEvents := fun s => frames_house.keeps fun w => plain_setSlot w s fun _ => rfl
  beginEvict := keeps_beginEvict
  claimTeardown := keeps_claimTeardown
  routeOrReserve := keeps_route

theorem coResident_initial : CoResident C initial where
  listed := by decide
  keys := by decide
  own := by decide
  alive := by decide
  room := Nat.zero_le _
  apart := by
    have h : initial.placed = [] := by decide
    rw [h]
    exact .nil

theorem housing_verified (C : Config) : (housing C).Verified initial :=
  upholding_verified upheld_housing coResident_initial (fun _ => walks_housing)
    (fun t w _ => by cases (w.task t).kind <;> trivial)
    fun k w J _ _ => ⟨J.housed (housed_fork w k), (housed_fork w k).noReturn⟩

/-- In every run, whenever the event loop has control, at most
`max_parallel_sidecars` model residents are live, one a model, under its tag;
any two of them are pinned to different cards; and none that is dead is
registered, then or later. -/
theorem co_residence (C : Config) (c : Loop sig) (h : Reachable C (Admit.any _) c)
    (hc : c.current = none) :
    c.world.modelResidents.length ≤ C.maxParallelSidecars ∧
      (c.world.registry.map Prod.fst).Nodup ∧
      (∀ e ∈ c.world.placed, (c.world.resident e.2).modelTag = some e.1) ∧
      (c.world.modelResidents.Pairwise fun r d =>
        (c.world.resident r).apart (c.world.resident d)) ∧
      (∀ e ∈ c.world.placed, (c.world.resident e.2).state ≠ .dead) ∧
      ∀ r < c.world.residentCount, (c.world.resident r).state = .dead →
        ∀ c', Loop.Reach (Admit.any (system C)) c c' → c'.current = none →
          ∀ e ∈ c'.world.placed, e.2 ≠ r := by
  have V := housing_verified C
  have J : CoResident C c.world := (housing C).sound V (fun _ _ _ => trivial) h hc
  refine ⟨?_, J.keys, J.own, ?_, J.alive, fun r hr hd c' h' hc' => ?_⟩
  · rw [J.modelResidents, List.length_map]
    exact J.room
  · rw [J.modelResidents, List.pairwise_map]
    exact J.apart
  · have kept : (housing C).Kept fun w =>
        r < w.residentCount ∧ ∀ e ∈ w.placed, e.2 ≠ r := by
      intro _ w w' _ _ (hg : NoReturn w w') ⟨hlt, ha⟩
      refine ⟨Nat.lt_of_lt_of_le hlt hg.count, fun e he => ?_⟩
      obtain ⟨hreg, hk⟩ := mem_placed.mp he
      rcases hg.entry e hreg with ho | hn
      · exact ha e (mem_placed.mpr ⟨ho, hk⟩)
      · omega
    have absent : ∀ e ∈ c.world.placed, e.2 ≠ r := by
      rintro e he rfl
      exact J.alive e he hd
    exact ((housing C).onward V (fun _ _ _ => trivial) kept h hc h' hc' ⟨hr, absent⟩).2

/-- Two models are reserved, each pinned to a card. -/
def sideBySide : List (Move (system idleConfig)) :=
  submitted "a" 1 ++
  [.start 0 .ok, .go, .answer .ok, .answer (.manifest (pinned 0)), .answer (.mib (some 0)),
    .answer .ok, .answer (.time 0), .go, .go] ++
  submitted "b" 3 ++
  [.resume 0 .ok, .go, .answer (.time 0), .answer .ok, .answer (.manifest (pinned 1)),
    .answer (.mib (some 0)), .answer .ok, .answer (.time 0), .go, .go]

theorem co_residence_pair : ∃ c, Reachable idleConfig (Admit.any _) c ∧
    c.world.modelResidents = [1, 2] ∧ c.world.modelResidents.length ≤ 2 ∧
    (c.world.resident 1).apart (c.world.resident 2) := by
  have h : (Loop.exec (Admit.any _) sideBySide { world := initial }).any (fun c =>
      decide (c.current.isNone = true ∧ c.world.modelResidents = [1, 2])) = true := by
    decide +kernel
  obtain ⟨c, hc, hp⟩ := Loop.reach_of_check h
  obtain ⟨hn, hm⟩ := of_decide_eq_true hp
  have := co_residence idleConfig c hc (Option.isNone_iff_eq_none.mp hn)
  refine ⟨c, hc, hm, this.1, ?_⟩
  have hpair := this.2.2.2.1
  rw [hm] at hpair
  exact (List.pairwise_cons.mp hpair).1 2 (by decide)

end Turbohaul
