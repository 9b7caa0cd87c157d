/-
# `IdleWindow` — the window a fan-out leaves to its sidecar

Every rider of a fan-out may ask for a `keep_alive`; the sidecar then idles for one
window.  At cap 1 the window is computed from the longest `keep_alive_s` among the
riders of the one-shot admit loop, and those that join while the fan-out is being
drained are not asked.  At cap 2 it is computed from the anchor's alone.

    Provided    what a rider asks for is provided for by what the others gave
    Asked       what the admit loop has collected so far
    Captured    what is captured stays, while riders join
    idle_window_honours_iff

`max` is taken of the seconds as they were parsed, where a negative number is less
than any other, while the window computed from it is the longest there is.
-/
import Turbohaul.KeepAlive
import Turbohaul.Windows

namespace Turbohaul

open Coop

/-! ## What is asked for -/

namespace World

/-- The `keep_alive_s` of a slot. -/
def wish (w : World) (s : Nat) : Option Int := (w.slot s).clientMeta.keepAliveS

/-- What some slots explicitly ask for. -/
def asked (w : World) (ss : List Nat) : List Int := ss.filterMap w.wish

/-- The slots put into `_inflight` since then. -/
def ridersSince (w w₀ : World) : List Nat := w.riders.take (w.riders.length - w₀.riders.length)

end World

/-- The window is no shorter than any that is asked for. -/
def Honours (window default : Nat) (asked : List Int) : Prop :=
  ∀ v ∈ asked, idleWindowSeconds (some v) default ≤ window

/-- Somebody gives a number of seconds that lasts as long; or all that give one give a
negative one; or nobody gives any, and the default lasts as long. -/
def Provided (default : Nat) (given : List Int) (v : Int) : Prop :=
  (given = [] ∧ idleWindowSeconds (some v) default ≤ default) ∨
  (given ≠ [] ∧ ∀ u ∈ given, u < 0) ∨
  ∃ u ∈ given, 0 ≤ u ∧
    idleWindowSeconds (some v) default ≤ idleWindowSeconds (some u) default

instance (window default : Nat) (asked : List Int) : Decidable (Honours window default asked) :=
  inferInstanceAs (Decidable (∀ v ∈ asked, idleWindowSeconds (some v) default ≤ window))

theorem idleWindowSeconds_le (v : Int) (d : Nat) :
    idleWindowSeconds (some v) d ≤ keepAliveMaxS := by
  rw [idleWindowSeconds]
  split
  · exact Nat.le_refl _
  · exact Nat.min_le_right _ _

theorem idleWindowSeconds_neg {v : Int} (h : v < 0) (d : Nat) :
    idleWindowSeconds (some v) d = keepAliveMaxS := by
  rw [idleWindowSeconds, if_pos h]

theorem idleWindowSeconds_mono {u v : Int} (hu : 0 ≤ u) (h : u ≤ v) (d : Nat) :
    idleWindowSeconds (some u) d ≤ idleWindowSeconds (some v) d := by
  rw [idleWindowSeconds, idleWindowSeconds, if_neg (Int.not_lt.mpr hu),
    if_neg (Int.not_lt.mpr (Int.le_trans hu h))]
  omega

/-- The window of the largest number given lasts as long exactly when the request is
provided for. -/
theorem le_window_max_iff (given : List Int) (v : Int) (d : Nat) :
    idleWindowSeconds (some v) d ≤ idleWindowSeconds given.max? d ↔ Provided d given v := by
  cases hm : given.max? with
  | none =>
      have hg : given = [] := List.max?_eq_none_iff.mp hm
      constructor
      · intro h
        exact .inl ⟨hg, h⟩
      · rintro (⟨-, h⟩ | ⟨h, -⟩ | ⟨u, hu, -⟩)
        · exact h
        · exact absurd hg h
        · rw [hg] at hu
          cases hu
  | some m =>
      obtain ⟨hmem, hmax⟩ := List.max?_eq_some_iff.mp hm
      have hne : given ≠ [] := List.ne_nil_of_mem hmem
      rcases Int.lt_or_le m 0 with hneg | hpos
      · have hall : ∀ u ∈ given, u < 0 := fun u hu => Int.lt_of_le_of_lt (hmax u hu) hneg
        refine iff_of_true ?_ (.inr (.inl ⟨hne, hall⟩))
        rw [idleWindowSeconds_neg hneg]
        exact idleWindowSeconds_le v d
      · constructor
        · intro h
          exact .inr (.inr ⟨m, hmem, hpos, h⟩)
        · rintro (⟨hg, -⟩ | ⟨-, hall⟩ | ⟨u, hu, hu₀, h⟩)
          · exact absurd hg hne
          · exact absurd (hall m hmem) (Int.not_lt.mpr hpos)
          · exact Nat.le_trans h (idleWindowSeconds_mono hu₀ (hmax u hu) d)

theorem provided_reverse {d : Nat} {given : List Int} {v : Int} :
    Provided d given.reverse v ↔ Provided d given v := by
  simp [Provided]

/-- The two clamps are one function. -/
theorem idleSeconds_eq (v : Option Int) (d : Nat) : idleSeconds v d = idleWindowSeconds v d := rfl

/-! ## The parts of a fan-out -/

/-- `_fan_out_and_drain` up to the end of its admit loop: the anchor, and what the
admitted gave. -/
def admitAll (C : Config) (anchor pid n : Nat) : Prog (Slot × List (Option Int)) := do
  let x ← Co.gets fun w : World => w.slot anchor
  let streaming := x.clientMeta.stream
  seatAnchor anchor
  Co.modify (World.record (.fanOut x.modelTag))
  onSlot anchor fun x => { x with streamHandle := some pid }
  Co.when (streaming && x.streamReadyEvent.isSome) (handToRoute anchor pid)
  let kas ← observed .admitAborted
    (admitOnce C x.modelTag streaming pid n [x.clientMeta.keepAliveS])
  pure (x, kas)

/-- And from there to its end. -/
def drainAll (C : Config) (anchor pid n : Nat) (a : Slot × List (Option Int)) : Prog Unit := do
  Co.modify (World.setLatestKeepAlive (maxKeepAlive a.2))
  if a.1.clientMeta.stream then drainStreamed anchor
  else drainNonstreamingRiders C anchor a.1.modelTag pid n

/-- What follows a fan-out of the slot, up to the moment when its idle window is
computed. -/
def graceAfter (C : Config) (s pid : Nat) : Prog Unit := do
  enterGrace s
  graceWindow C s pid

/-- A fan-out, up to the moment when its idle window is computed. -/
def fanOutToIdle (C : Config) (s pid n : Nat) : Prog Unit := do
  fanOutAndDrain C s pid n
  graceAfter C s pid

/-! ## What the other tasks leave alone -/

/-- Nobody else puts a slot into `_inflight`, changes what a rider asks for, or captures
it. -/
structure Untouched (w w' : World) : Prop where
  riders : w'.riders = w.riders
  wish : ∀ s ∈ w.riders, w'.wish s = w.wish s
  latest : w'.hold.latestKeepAliveS = w.hold.latestKeepAliveS

/-- What tends at most leaves it alone, as long as the riders have been submitted. -/
theorem Tends.untouched {own : Nat → Prop} {w w' : World} (h : Tends own w w')
    (hk : ∀ s ∈ w.riders, s < w.slotCount) : Untouched w w' where
  riders := riders_congr h.fanOuts
  wish := fun s hs => congrArg ClientMeta.keepAliveS (h.clientMeta s (hk s hs))
  latest := h.latest

theorem Mute.riders {w w' : World} (h : Mute w w') : w'.riders = w.riders := riders_congr h.fanOuts

theorem Mute.wish {w w' : World} (h : Mute w w') : w'.wish = w.wish := by
  funext s
  exact congrArg ClientMeta.keepAliveS (h.clientMeta s)

theorem Mute.untouched {w w' : World} (h : Mute w w') : Untouched w w' :=
  ⟨h.riders, fun s _ => congrFun h.wish s, h.latest⟩

/-- In every run a turn of any task but the serial worker leaves a fan-out alone. -/
theorem turn_untouched (C : Config) {t : Nat} {c c' : Loop sig}
    (h : Reachable C (Admit.any _) c) (ht : Loop.Turn (Admit.any (system C)) t c c')
    (hc' : c'.current = none) (hw : t = workerTask → 2 ≤ C.maxParallelSidecars)
    (hk : ∀ s ∈ c.world.riders, s < c.world.slotCount) : Untouched c.world c'.world :=
  (turn_tends C h ht hc' hw).untouched hk

/-- A follow-up is taken from the queue. -/
def takesFollowUp : Op → Bool
  | .mark (.matched _) => true
  | _ => false

variable {C : Config} {t : Nat}

/-- The serial worker among the others, without follow-ups. -/
abbrev fanning (C : Config) (t : Nat) : Outline (system C) :=
  among (system C) takesFollowUp Untouched t

theorem frames_mute {J : World → Prop} {E : World → World → Prop}
    (act : ∀ w w', Mute w w' → J w → J w') (others : ∀ w w', E w w' → J w → J w') :
    Frames (among (system C) takesFollowUp E t) t (fun _ => J) Mute fun _ => True :=
  frames_among act (fun o w _ => act _ _ (mute_issue t o w))
    (fun o x w _ => act _ _ (mute_answer t o x w)) others

/-! ## The admit loop -/

/-- Since `w₀` some slots have joined, whose wishes are collected, and then `late`, whose
wishes are not yet. -/
def Asked (w₀ : World) (late : List Nat) (kas : List (Option Int)) (w : World) : Prop :=
  ∃ rs, w.riders = late ++ (rs ++ w₀.riders) ∧ kas = rs.reverse.map w.wish

theorem Asked.step {w₀ w w' : World} {late : List Nat} {kas : List (Option Int)}
    (h : Asked w₀ late kas w) (hr : w'.riders = w.riders)
    (hw : ∀ s ∈ w.riders, w'.wish s = w.wish s) : Asked w₀ late kas w' := by
  obtain ⟨rs, he, rfl⟩ := h
  refine ⟨rs, hr.trans he, List.map_congr_left fun s hs => ?_⟩
  have hm : s ∈ w.riders := by
    rw [he]
    simp [List.mem_reverse.mp hs]
  exact (hw s hm).symm

theorem Asked.mute {w₀ w w' : World} {late : List Nat} {kas : List (Option Int)}
    (h : Asked w₀ late kas w) (hm : Mute w w') : Asked w₀ late kas w' :=
  h.step hm.riders fun s _ => congrFun hm.wish s

/-- A slot that joins is late. -/
theorem Asked.join {w₀ w : World} {kas : List (Option Int)} (h : Asked w₀ [] kas w) (s : Nat)
    (f : Holder → Holder) : Asked w₀ [s] kas ((w.setHold f).record (.joined s)) := by
  obtain ⟨rs, he, rfl⟩ := h
  exact ⟨rs, congrArg (s :: ·) he, rfl⟩

/-- And is no longer once its wish is collected. -/
theorem Asked.collect {w₀ w : World} {kas : List (Option Int)} {s : Nat}
    (h : Asked w₀ [s] kas w) : Asked w₀ [] (kas ++ [w.wish s]) w := by
  obtain ⟨rs, he, rfl⟩ := h
  exact ⟨s :: rs, he, by simp⟩

theorem frames_asked {w₀ : World} {late : List Nat} {kas : List (Option Int)} :
    Frames (fanning C t) t (fun _ => Asked w₀ late kas) Mute fun _ => True :=
  frames_mute (fun _ _ h hi => hi.mute h) fun _ _ h hi => hi.step h.riders h.wish

/-- The rider has joined, and its wish is collected next. -/
def Admitted (w₀ : World) (kas : List (Option Int)) (extra : Nat) : Post sig (Option Bool)
  | .ok (some true) => fun _ => Asked w₀ [extra] kas
  | .ok _ => fun _ => Asked w₀ [] kas
  | .error _ => fun _ _ => True

theorem lax_enqueueHead (s : Nat) : Lax Mute (enqueueHead s) := by
  refine ⟨Mute.refl, fun q => only_ite.mpr ⟨fun _ => trivial, fun _ => ⟨Mute.refl, fun x =>
    ⟨only_when.mpr fun _ => (calm_transition s _).lax, fun _ => ⟨only_mark.mpr trivial, fun _ =>
      fun w => mute_setQueue w fun q => { q with staging := s :: q.staging }⟩⟩⟩⟩⟩

theorem parks_mute {J : World → Prop} {P : Outline (system C)}
    (F : Frames P t (fun _ => J) Mute fun _ => True) : Parks C P t (fun _ => J) Mute where
  frames := F.fewer fun _ _ => trivial
  forceCold := fun s reason => F.keeps (lax_forceCold s reason)

theorem wp_admitRider_asked {w₀ : World} {kas : List (Option Int)} (tag : String) (streaming : Bool)
    (pid extra : Nat) {s w : World} (h : Asked w₀ [] kas w) :
    wp (fanning C t) t (admitRider tag streaming pid extra) (Admitted w₀ kas extra) s w := by
  have F : Frames (fanning C t) t (fun _ => Asked w₀ [] kas) Mute fun _ => True := frames_asked
  rw [admitRider, wp_gets_bind]
  split
  · refine (F.keeps (lax_enqueueHead extra)).seq (fun _ s w h => ?_) (fun _ _ _ _ => trivial) h
    exact h
  · split
    · refine (F.keeps (only_failCompletionFuture.mpr trivial)).seq (fun _ s w h => ?_)
        (fun _ _ _ _ => trivial) h
      refine (F.keeps (only_auditAsync.mpr trivial)).seq (fun _ s w h => ?_)
        (fun _ _ _ _ => trivial) h
      exact h
    · refine (F.keeps (only_mark.mpr trivial)).seq (fun _ s w h => ?_)
        (fun _ _ _ _ => trivial) h
      refine (keeps_promoteRider (parks_mute F) extra pid).seq (fun promoted s w h => ?_)
        (fun _ _ _ _ => trivial) h
      cases promoted with
      | false => exact h
      | true =>
          have G : Frames (fanning C t) t (fun _ => Asked w₀ [extra] kas) Mute fun _ => True :=
            frames_asked
          refine (G.keeps (only_auditAsync.mpr trivial)).seq (fun _ s w h => ?_)
            (fun _ _ _ _ => trivial) (h.join extra fun h =>
              { h with inflight := h.inflight ++ [extra] })
          exact h

/-- What is collected is what the slots ask for that have joined. -/
def Collected (w₀ : World) : Post sig (List (Option Int))
  | .ok kas => fun _ => Asked w₀ [] kas
  | .error _ => fun _ _ => True

theorem wp_admitOnce_asked {w₀ : World} (tag : String) (streaming : Bool) (pid n : Nat)
    {kas : List (Option Int)} {s w : World} (h : Asked w₀ [] kas w) :
    wp (fanning C t) t (admitOnce C tag streaming pid n kas) (Collected w₀) s w := by
  refine ⟨fun kas _ => Asked w₀ [] kas, h, fun kas s w h => ?_⟩
  have F : Frames (fanning C t) t (fun _ => Asked w₀ [] kas) Mute fun _ => True := frames_asked
  rw [wp_gets_bind]
  split
  · refine wp_seq (wp_popNext_hand (F.fewer fun _ _ => trivial) (H := fun _ _ => Asked w₀ [] kas)
      (fun _ => F.fewer fun _ _ => trivial) ?_ id (some tag) h) (fun r s w h => ?_)
      fun _ _ _ _ => trivial
    · intro e xs s w h _ _
      exact h.mute (mute_setQueue w _)
    · cases r with
      | none => exact h
      | some extra =>
          refine wp_seq (wp_admitRider_asked tag streaming pid extra h) (fun a s w h => ?_)
            fun _ _ _ _ => trivial
          match a, h with
          | none, h => exact h
          | some false, h => exact h
          | some true, h =>
              have G : Frames (fanning C t) t (fun _ => Asked w₀ [] (kas ++ [w.wish extra])) Mute
                  fun _ => True := frames_asked
              rw [wp_gets_bind]
              refine (Keeps.when (G.keeps (calm_handToRoute extra pid).lax)).seq
                (fun _ s w h => ?_) (fun _ _ _ _ => trivial) h.collect
              exact h
  · exact h

theorem wp_observed {α : Type} {P : Outline (system C)} {k : Mark} {m : Prog α} {Q : Post sig α}
    {s w : World} (hQ : ∀ e s w, Q (.error e) s w) (h : wp P t m Q s w) :
    wp P t (observed k m) Q s w := by
  refine wp_mono (m := m) (fun r s w hr => ?_) h
  cases r with
  | ok a => exact hr
  | error e =>
      intro x _ _
      cases x <;> exact hQ _ _ _

/-- The same of all that is done up to the end of the admit loop. -/
def Gathered (w₀ : World) : Post sig (Slot × List (Option Int))
  | .ok a => fun _ => Asked w₀ [] a.2
  | .error _ => fun _ _ => True

theorem wp_admitAll (anchor pid n : Nat) (w₀ : World) :
    wp (fanning C t) t (admitAll C anchor pid n) (Gathered w₀) w₀ w₀ := by
  have F : Frames (fanning C t) t (fun _ => Asked w₀ [] [w₀.wish anchor]) Mute fun _ => True :=
    frames_asked
  have seated : Asked w₀ [] [w₀.wish anchor] ((w₀.setHold fun h =>
      { h with inflight := [anchor], riderTasks := [] }).record (.joined anchor)) :=
    ⟨[anchor], rfl, rfl⟩
  rw [admitAll, wp_gets_bind]
  refine wp_seq (m := seatAnchor anchor) (M := fun _ _ => Asked w₀ [] [w₀.wish anchor]) seated
    (fun _ s w h => ?_) fun _ _ _ _ => trivial
  rw [wp_modify_bind]
  have noted : Asked w₀ [] [w₀.wish anchor] (w.record (.fanOut (w₀.slot anchor).modelTag)) :=
    h.step rfl fun _ _ => rfl
  have handle : Lax Mute (onSlot anchor fun x => { x with streamHandle := some pid }) :=
    fun w => mute_setSlot w anchor (f := fun x => { x with streamHandle := some pid }) fun _ => rfl
  refine (F.keeps handle).seq (fun _ s w h => ?_) (fun _ _ _ _ => trivial) noted
  refine (Keeps.when (F.keeps (calm_handToRoute anchor pid).lax)).seq (fun _ s w h => ?_)
    (fun _ _ _ _ => trivial) h
  refine wp_seq (M := Collected w₀)
    (wp_observed (fun _ _ _ => trivial) (wp_admitOnce_asked _ _ pid n h)) (fun kas s w h => ?_)
    fun _ _ _ _ => trivial
  exact h

/-! ## The drain and the grace window -/

/-- Slots may join; what was asked for and what was captured stays. -/
structure Joins (w w' : World) : Prop where
  riders : ∃ rs, w'.riders = rs ++ w.riders
  wish : w'.wish = w.wish
  latest : w'.hold.latestKeepAliveS = w.hold.latestKeepAliveS

theorem Mute.joins {w w' : World} (h : Mute w w') : Joins w w' :=
  ⟨⟨[], h.riders⟩, h.wish, h.latest⟩

instance : JoinVocabulary Joins where
  toVocabulary := Vocabulary.mono (A := Mute) fun _ _ => Mute.joins
  inflight := fun w f => (SeatVocabulary.inflight (A := Mute) w f).joins
  anchored := fun w xs => (SeatVocabulary.anchored (A := Mute) w xs).joins
  startRider := fun w _ s hk => (SeatVocabulary.startRider (A := Mute) w s hk).joins
  cancelRider := fun w s => (SeatVocabulary.cancelRider (A := Mute) w s).joins
  joined := fun _ s => ⟨⟨[s], rfl⟩, rfl, rfl⟩
  undrained := fun _ _ => ⟨⟨[], rfl⟩, rfl, rfl⟩

instance : GraceVocabulary Joins := .mono (A := Mute) fun _ _ => Mute.joins

/-- The riders of `w₁` ask for what they asked for, and `v` is captured. -/
structure Captured (w₁ : World) (v : Option Int) (w : World) : Prop where
  riders : ∃ rs, w.riders = rs ++ w₁.riders
  wish : ∀ s ∈ w₁.riders, w.wish s = w₁.wish s
  latest : w.hold.latestKeepAliveS = v

theorem Captured.joins {w₁ w w' : World} {v : Option Int} (h : Captured w₁ v w)
    (hj : Joins w w') : Captured w₁ v w' := by
  obtain ⟨rs, hr⟩ := h.riders
  obtain ⟨rs', hr'⟩ := hj.riders
  refine ⟨⟨rs' ++ rs, ?_⟩, fun s hs => ?_, hj.latest.trans h.latest⟩
  · rw [hr', hr, List.append_assoc]
  · rw [hj.wish]
    exact h.wish s hs

theorem Captured.untouched {w₁ w w' : World} {v : Option Int} (h : Captured w₁ v w)
    (hu : Untouched w w') : Captured w₁ v w' := by
  obtain ⟨rs, hr⟩ := h.riders
  refine ⟨⟨rs, hu.riders.trans hr⟩, fun s hs => ?_, hu.latest.trans h.latest⟩
  have hm : s ∈ w.riders := by
    rw [hr]
    exact List.mem_append_right rs hs
  exact (hu.wish s hm).trans (h.wish s hs)

theorem captured_set (v : Option Int) (w : World) : Captured w v (w.setLatestKeepAlive v) := by
  unfold World.setLatestKeepAlive World.mirror
  split <;> exact ⟨⟨[], rfl⟩, fun _ _ => rfl, rfl⟩

theorem frames_captured {w₁ : World} {v : Option Int} :
    Frames (fanning C t) t (fun _ => Captured w₁ v) Joins fun _ => True :=
  frames_among (fun _ _ h hi => hi.joins h) (fun o w _ hi => hi.joins (mute_issue t o w).joins)
    (fun o x w _ hi => hi.joins (mute_answer t o x w).joins) fun _ _ h hi => hi.untouched h

theorem frames_captured_mute {w₁ : World} {v : Option Int} :
    Frames (fanning C t) t (fun _ => Captured w₁ v) Mute fun _ => True :=
  frames_mute (fun _ _ h hi => hi.joins h.joins) fun _ _ h hi => hi.untouched h

theorem shares_captured {w₁ : World} {v : Option Int} :
    Shares C (fanning C t) t (fun _ => Captured w₁ v) Joins := by
  have F : Frames (fanning C t) t (fun _ => Captured w₁ v) Joins fun _ => True := frames_captured
  have G : Frames (fanning C t) t (fun _ => Captured w₁ v) Mute fun _ => True :=
    frames_captured_mute
  exact
    { frames := F.fewer fun _ _ => trivial
      forceCold := fun s reason => G.keeps (lax_forceCold s reason)
      popMatchedThread := fun th tag => G.keeps (calm_popMatchedThread th tag).lax
      hand := bare_hand (fun tag => G.keeps (calm_popNext C tag).lax)
        fun e => G.keeps (lax_enqueueHead e) }

theorem wp_drainAll (anchor pid n : Nat) (a : Slot × List (Option Int)) (w₁ : World) :
    wp (fanning C t) t (drainAll C anchor pid n a)
      (fun _ _ => Captured w₁ (maxKeepAlive a.2)) w₁ w₁ := by
  have L : Shares C (fanning C t) t (fun _ => Captured w₁ (maxKeepAlive a.2)) Joins :=
    shares_captured
  rw [drainAll, wp_modify_bind]
  exact Keeps.ite (keeps_drainStreamed L.toParks anchor)
    (keeps_drainNonstreamingRiders L anchor _ pid n) _ _ (captured_set _ w₁)

/-- No follow-up is there. -/
def NoFollowUp (J : World → Prop) : Post sig (Option Nat)
  | .ok (some _) => fun _ _ => False
  | .ok none => fun _ => J
  | .error _ => fun _ => J

/-- Where no follow-up is taken, none is found. -/
theorem wp_popMatchedThread {J : World → Prop} {E : World → World → Prop}
    (F : Frames (among (system C) takesFollowUp E t) t (fun _ => J) Mute fun _ => True)
    (th tag : String) {s w : World} (h : J w) :
    wp (among (system C) takesFollowUp E t) t (popMatchedThread th tag) (NoFollowUp J) s w := by
  rw [popMatchedThread]
  split
  · exact h
  · refine wp_seq (m := Co.act _) (M := fun _ _ => J) ?_ (fun found s w h => ?_)
      fun _ _ _ h => h
    · refine F.keeps (m := Co.act _) ?_ s w h
      intro w
      dsimp only
      split
      · exact .refl w
      · exact (mute_setQueue w _).trans (mute_flagEvicted _ _)
    · cases found with
      | none => exact h
      | some e =>
          intro x _ hx
          cases hx

/-- And what is done about one is not reached. -/
theorem keeps_unmatched {J : World → Prop} {E : World → World → Prop} {α : Type}
    {k : Option Nat → Prog α}
    (F : Frames (among (system C) takesFollowUp E t) t (fun _ => J) Mute fun _ => True)
    (th tag : String) (hk : Keeps (among (system C) takesFollowUp E t) t (fun _ => J) (k none)) :
    Keeps (among (system C) takesFollowUp E t) t (fun _ => J) (popMatchedThread th tag >>= k) := by
  intro s w h
  refine wp_seq (wp_popMatchedThread F th tag h) (fun found s w h => ?_) fun _ _ _ h => h
  cases found with
  | some m => exact h.elim
  | none => exact hk s w h

theorem keeps_graceAfter {w₁ : World} {v : Option Int} (s pid : Nat) :
    Keeps (fanning C t) t (fun _ => Captured w₁ v) (graceAfter C s pid) := by
  have F : Frames (fanning C t) t (fun _ => Captured w₁ v) Joins fun _ => True := frames_captured
  have G : Frames (fanning C t) t (fun _ => Captured w₁ v) Mute fun _ => True :=
    frames_captured_mute
  refine .bind (F.keeps (calm_enterGrace s).lax) fun _ => .bind (G.keeps Mute.refl) fun x =>
    .bind (G.keeps (only_monotonic.mpr trivial)) fun start => .loop fun deadline =>
    .bind (G.keeps (only_monotonic.mpr trivial)) fun now => .bind (G.keeps Mute.refl) fun stop =>
    Keeps.ite (keeps_unmatched G _ _ ?_) (.pure _)
  exact .bind (G.keeps (only_sleep.mpr trivial)) fun _ => .pure _

/-! ## On a resident -/

/-- Nobody else captures for the resident, or changes what its anchor asks for. -/
structure Uncaptured (r s : Nat) (w w' : World) : Prop where
  latest : (w'.resident r).latestKeepAliveS = (w.resident r).latestKeepAliveS
  wish : w'.wish s = w.wish s

/-- What tends to other residents at most leaves them alone. -/
theorem Tends.uncaptured {own : Nat → Prop} {r s : Nat} {w w' : World} (h : Tends own w w')
    (hr : r < w.residentCount) (hown : ¬own r) (hs : s < w.slotCount) : Uncaptured r s w w' where
  latest := congrArg Idling.latestKeepAliveS (h.idling r hr hown)
  wish := congrArg ClientMeta.keepAliveS (h.clientMeta s hs)

theorem Mute.uncaptured {r s : Nat} {w w' : World} (h : Mute w w') : Uncaptured r s w w' :=
  ⟨congrArg Idling.latestKeepAliveS (h.idling r), congrFun h.wish s⟩

/-- In every run a turn of any task but its driver leaves a fan-out of a resident alone. -/
theorem turn_uncaptured (C : Config) {t r s : Nat} {c c' : Loop sig}
    (h : Reachable C (Admit.any _) c) (ht : Loop.Turn (Admit.any (system C)) t c c')
    (hc' : c'.current = none) (hC : 2 ≤ C.maxParallelSidecars)
    (hr : r < c.world.residentCount) (hd : ¬c.world.drives (some t) r)
    (hs : s < c.world.slotCount) : Uncaptured r s c.world c'.world :=
  (turn_tends C h ht hc' fun _ => hC).uncaptured hr hd hs

/-- The resident has captured what its anchor asks for. -/
structure AnchorsOwn (r s : Nat) (v : Option Int) (w : World) : Prop where
  latest : (w.resident r).latestKeepAliveS = v
  wish : w.wish s = v

theorem frames_anchorsOwn {r s : Nat} {v : Option Int} :
    Frames (among (system C) takesFollowUp (Uncaptured r s) t) t (fun _ => AnchorsOwn r s v) Mute
      fun _ => True := by
  refine frames_mute (fun w w' h hi => ⟨?_, ?_⟩) fun w w' h hi => ⟨?_, ?_⟩
  · rw [← hi.latest]
    exact congrArg Idling.latestKeepAliveS (h.idling r)
  · rw [h.wish]
    exact hi.wish
  · exact h.latest.trans hi.latest
  · exact h.wish.trans hi.wish

theorem frames_wish {r s : Nat} {v : Option Int} :
    Frames (among (system C) takesFollowUp (Uncaptured r s) t) t (fun _ w => w.wish s = v) Mute
      fun _ => True :=
  frames_mute (fun _ _ h hi => by rw [h.wish, hi]) fun _ _ h hi => h.wish.trans hi

theorem keeps_residentGraceOnly {r s : Nat} {v : Option Int} (pid : Nat) :
    Keeps (among (system C) takesFollowUp (Uncaptured r s) t) t (fun _ => AnchorsOwn r s v)
      (residentGrace C r s pid) := by
  have F := frames_anchorsOwn (C := C) (t := t) (r := r) (s := s) (v := v)
  refine .bind (F.keeps Mute.refl) fun x => .bind (F.keeps (only_monotonic.mpr trivial))
    fun start => .loop fun deadline => .bind (F.keeps (only_monotonic.mpr trivial)) fun now =>
    .bind (F.keeps Mute.refl) fun stop => Keeps.ite (keeps_unmatched F _ _ ?_) (.pure _)
  exact .bind (F.keeps (only_sleep.mpr trivial)) fun _ => .pure _

/-- A call of `_serve_on_resident` leaves what its anchor asked for. -/
def LeavesOwn (r s : Nat) (v : Option Int) : Post sig Unit
  | .ok _ => fun _ => AnchorsOwn r s v
  | .error _ => fun _ _ => True

theorem wp_serveOnResident (r s pid : Nat) (w₀ : World) :
    wp (among (system C) takesFollowUp (Uncaptured r s) t) t (serveOnResident C r s pid)
      (LeavesOwn r s (w₀.wish s)) w₀ w₀ := by
  have F := frames_wish (C := C) (t := t) (r := r) (s := s) (v := w₀.wish s)
  have G := frames_anchorsOwn (C := C) (t := t) (r := r) (s := s) (v := w₀.wish s)
  rw [serveOnResident, wp_gets_bind]
  refine (Keeps.when (F.keeps (calm_transition s _).lax)).seq (fun _ s' w h => ?_)
    (fun _ _ _ _ => trivial) rfl
  refine (F.keeps (calm_transition _ _).lax).seq (fun _ s' w h => ?_) (fun _ _ _ _ => trivial) h
  refine (F.keeps (only_auditAsync.mpr trivial)).seq (fun _ s' w h => ?_)
    (fun _ _ _ _ => trivial) h
  have captured : AnchorsOwn r s (w₀.wish s) (w.setResident r fun y =>
      { y with latestKeepAliveS := (w₀.slot s).clientMeta.keepAliveS }) :=
    ⟨by simp [World.setResident, World.wish], h⟩
  refine wp_seq (m := onResident r _) (M := fun _ _ => AnchorsOwn r s (w₀.wish s)) captured
    (fun _ s' w h => ?_) fun _ _ _ _ => trivial
  refine wp_mono (Q := fun _ _ => AnchorsOwn r s (w₀.wish s)) (fun x s' w hx => ?_) ?_
  · cases x with
    | ok _ => exact hx
    | error _ => trivial
  · refine (?_ : Keeps _ _ (fun _ => AnchorsOwn r s (w₀.wish s)) _) s' w h
    refine .bind (G.keeps (calm_serveResidentAnchor r s pid).lax) fun _ =>
      .bind (G.keeps (calm_transition s _).lax) fun _ =>
      .bind (G.keeps (only_monotonic.mpr trivial)) fun now =>
      .bind (G.keeps (lax_onResident r ?_)) fun _ =>
      .bind (G.keeps (only_auditAsync.mpr trivial)) fun _ =>
      .bind (keeps_residentGraceOnly pid) fun _ => .bind (G.keeps (calm_transition s _).lax)
      fun _ => .bind (G.keeps Mute.refl) fun y => .when (.throw _)
    exact ⟨⟨fun _ => rfl, fun _ => rfl, fun _ => rfl, fun _ h => h⟩, fun _ => rfl⟩

/-- The slots a resident took from its inbox and served. -/
def taken (os : List (Op × Reply)) : List Nat :=
  (os.filterMap fun
    | (.mark (.fromInbox e), _) => some e
    | _ => none).filter fun e => !os.any fun
    | (.fail .fanOutEvicted x _, _) => x == e
    | _ => false

/-! ## The parts of an episode -/

theorem splits_fanOut {E : World → World → Prop} (anchor pid n : Nat) :
    Splits (system C) E t (fanOutAndDrain C anchor pid n) (admitAll C anchor pid n)
      (drainAll C anchor pid n) :=
  .bind fun x => .bind fun _ => .bind fun _ => .bind fun _ => .bind fun _ => .bind fun kas =>
    .pure (l := drainAll C anchor pid n) (x, kas)

/-- No follow-up is taken among the calls. -/
def FollowsNobody (os : List (Op × Reply)) : Prop :=
  ∀ o x, (o, x) ∈ os → takesFollowUp o = false

/-- The riders of the whole fan-out, and which of them the admit loop asked. -/
theorem asked_captured {w w₁ w' : World} {kas : List (Option Int)} (ha : Asked w [] kas w₁)
    (hc : Captured w₁ (maxKeepAlive kas) w') :
    w'.hold.latestKeepAliveS = (w'.asked (w₁.ridersSince w)).reverse.max? := by
  obtain ⟨rs, hr, rfl⟩ := ha
  have hs : w₁.ridersSince w = rs := by
    rw [World.ridersSince, hr]
    simp
  have hw : rs.reverse.map w₁.wish = rs.reverse.map w'.wish := by
    refine List.map_congr_left fun s hm => (hc.wish s ?_).symm
    rw [hr]
    simp [List.mem_reverse.mp hm]
  rw [hc.latest, maxKeepAlive, hs, hw, World.asked, List.filterMap_map, ← List.filterMap_reverse]
  rfl

/-- A rider is given the window it asks for exactly when it is provided for: at cap 1 by
what the riders of the one-shot admit loop gave, at cap 2 by what the anchor gave alone.
Both caps compute the same window from the same number. -/
theorem idle_window_honours_iff (C : Config) :
    (∀ (t s pid n : Nat) (w w' : World) (os : List (Op × Reply)),
      Episode (system C) Untouched t (fanOutToIdle C s pid n) w os (.ok ()) w' →
      FollowsNobody os → ∃ a os₁ os₂ os₃ w₁ w₂, os = os₁ ++ (os₂ ++ os₃) ∧
        Episode (system C) Untouched t (admitAll C s pid n) w os₁ (.ok a) w₁ ∧
        Episode (system C) Untouched t (drainAll C s pid n a) w₁ os₂ (.ok ()) w₂ ∧
        Episode (system C) Untouched t (graceAfter C s pid) w₂ os₃ (.ok ()) w' ∧
        (Honours (idleSeconds w'.hold.latestKeepAliveS C.idleHotLoadSeconds)
            C.idleHotLoadSeconds (w'.asked (w'.ridersSince w)) ↔
          ∀ v ∈ w'.asked (w'.ridersSince w),
            Provided C.idleHotLoadSeconds (w'.asked (w₁.ridersSince w)) v)) ∧
    (∀ (t r s pid default : Nat) (w w' : World) (os : List (Op × Reply)),
      Episode (system C) (Uncaptured r s) t (serveOnResident C r s pid) w os (.ok ()) w' →
      FollowsNobody os →
        (Honours (idleWindowSeconds (w'.resident r).latestKeepAliveS default) default
            (w'.asked (s :: taken os)) ↔
          ∀ v ∈ w'.asked (taken os),
            idleWindowSeconds (some v) default ≤ idleWindowSeconds (w.wish s) default)) ∧
    ∀ v default, idleSeconds v default = idleWindowSeconds v default := by
  refine ⟨fun t s pid n w w' os h hf => ?_, fun t r s pid default w w' os h hf => ?_,
    idleSeconds_eq⟩
  · obtain ⟨os₀, os₃, ⟨⟩, w₂, rfl, h₀, h₃⟩ := Splits.here.parts h
    obtain ⟨os₁, os₂, a, w₁, rfl, h₁, h₂⟩ := (splits_fanOut s pid n).parts h₀
    have f₁ : FollowsNobody os₁ := fun o x hx => hf o x (by simp [hx])
    have f₂ : FollowsNobody os₂ := fun o x hx => hf o x (by simp [hx])
    have f₃ : FollowsNobody os₃ := fun o x hx => hf o x (by simp [hx])
    obtain ⟨_, ha⟩ := among_episode h₁ f₁ (wp_admitAll s pid n w)
    obtain ⟨_, hd⟩ := among_episode h₂ f₂ (wp_drainAll s pid n a w₁)
    obtain ⟨_, hc⟩ := among_episode h₃ f₃ (keeps_graceAfter s pid _ _ hd)
    refine ⟨a, os₁, os₂, os₃, w₁, w₂, List.append_assoc _ _ _, h₁, h₂, h₃, ?_⟩
    rw [idleSeconds_eq, asked_captured ha hc]
    exact forall₂_congr fun v _ => (le_window_max_iff _ v _).trans provided_reverse
  · obtain ⟨_, hl, hw⟩ := among_episode h hf (wp_serveOnResident r s pid w)
    have hs : w'.asked (s :: taken os) = (w.wish s).toList ++ w'.asked (taken os) := by
      rw [World.asked, List.filterMap_cons, hw]
      cases w.wish s <;> rfl
    rw [hl, hs]
    constructor
    · intro h v hv
      exact h v (List.mem_append_right _ hv)
    · intro h v hv
      rcases List.mem_append.mp hv with hv | hv
      · exact Nat.le_of_eq (by rw [Option.mem_toList.mp hv])
      · exact h v hv

/-! ## Riders at both caps -/

/-- The slot `0` on its sidecar, and others in the queue that ask for so much. -/
def fanOutOf (kas : List (Option Int)) : World where
  slotCount := kas.length
  slot := fun s =>
    { modelTag := "a"
      state := if s = 0 then .active else .staged
      clientMeta := { keepAliveS := kas[s]?.join }
      completionFuture := .pending }
  queue := { staging := List.range' 1 (kas.length - 1) }
  hold := { activeHandle := some 0, activeSlot := some 0 }
  taskCount := 1

/-- The resident `0` with the slot `0` in hand, and the slot `1` in its inbox. -/
def residentOf (kas : List (Option Int)) : World where
  slotCount := kas.length
  slot := fun s =>
    { modelTag := "a"
      state := .staged
      clientMeta := { keepAliveS := kas[s]?.join }
      completionFuture := .pending }
  procs := { spawned := 1, proc := fun _ => { modelTag := "a", parallel := 2, alive := true } }
  residentCount := 1
  resident := fun _ =>
    { modelTag := some "a", handle := some 0, state := .active, inbox := some [1] }
  registry := [("a", 0)]
  taskCount := 2

/-- The other tasks keep still, but for what no window depends on. -/
def KeepsStill : Option ((World → World) × Reply) → Prop
  | none => True
  | some (g, _) => ∀ w, Mute w (g w)

/-- A rider is done. -/
def riderDone (u : Nat) (w : World) : World :=
  w.setTask u fun k => { k with outcome := some .returned }

theorem mute_riderDone (u : Nat) (w : World) : Mute w (riderDone u w) :=
  mute_setTask w u fun _ => rfl

/-- Two slots ride at once. -/
def rideTogether : List (Option ((World → World) × Reply)) :=
  [none, some (id, .ok), some (id, .ok), some (id, .ok), none, none, none,
    some (fun w => riderDone 1 (riderDone 2 w), .done [2, 1]), some (id, .ok), some (id, .ok)]

/-- And another joins when they are done. -/
def rideLate : List (Option ((World → World) × Reply)) :=
  [none, some (id, .ok), some (id, .ok), some (id, .ok), none, none, none,
    some (riderDone 3, .done [3]), some (id, .ok), some (id, .ok)]

/-- The queue is empty, and the grace window passes. -/
def nobodyFollows : List (Option ((World → World) × Reply)) :=
  [none, none, none, some (id, .time 0), some (id, .ok), some (id, .time 0), none,
    some (id, .time 30000)]

/-- Two slots on a resident, and its grace window. -/
def rideResident : List (Option ((World → World) × Reply)) :=
  [some (id, .ok), none, some (id, .ok), none, none,
    some (fun w => riderDone 2 (riderDone 3 w), .done [3, 2]), none, none, some (id, .time 0),
    some (id, .ok), some (id, .time 0), none, some (id, .time 30000)]

theorem keepsStill_rideTogether : ∀ c ∈ rideTogether ++ nobodyFollows, KeepsStill c := by
  have h : ∀ w, Mute w (riderDone 1 (riderDone 2 w)) := fun w =>
    (mute_riderDone 2 w).trans (mute_riderDone 1 _)
  simp [rideTogether, nobodyFollows, KeepsStill, Mute.refl, h]

theorem keepsStill_rideLate :
    ∀ c ∈ rideTogether ++ (rideLate ++ nobodyFollows), KeepsStill c := by
  have h : ∀ w, Mute w (riderDone 1 (riderDone 2 w)) := fun w =>
    (mute_riderDone 2 w).trans (mute_riderDone 1 _)
  simp [rideTogether, rideLate, nobodyFollows, KeepsStill, Mute.refl, mute_riderDone, h]

theorem keepsStill_rideResident : ∀ c ∈ rideResident, KeepsStill c := by
  have h : ∀ w, Mute w (riderDone 2 (riderDone 3 w)) := fun w =>
    (mute_riderDone 3 w).trans (mute_riderDone 2 _)
  simp [rideResident, KeepsStill, Mute.refl, h]

/-- The call returned, no follow-up was taken, and the world it left is such. -/
def leaves (p : List (Op × Reply) → World → Bool) :
    List (Op × Reply) × Res sig Unit × World → Bool
  | (os, .ok _, w) => (os.all fun c => !takesFollowUp c.1) && p os w
  | _ => false

/-- What a call shows that is enacted while the others keep still. -/
theorem call_of_check {E : World → World → Prop} {m : Prog Unit} {w : World}
    {cs : List (Option ((World → World) × Reply))} {p : List (Op × Reply) → World → Bool}
    (hE : ∀ w w', Mute w w' → E w w') (hs : ∀ c ∈ cs, KeepsStill c)
    (h : (enact (system C) t cs (m.run w)).any (leaves p) = true) :
    ∃ os w', Episode (system C) E t m w os (.ok ()) w' ∧ FollowsNobody os ∧ p os w' = true := by
  have hcue : ∀ g x, some (g, x) ∈ cs → ∀ w, E w (g w) := fun g x hx w =>
    have hg : ∀ w, Mute w (g w) := hs _ hx
    hE _ _ (hg w)
  obtain ⟨os, r, w', he, hp⟩ := episode_of_check (S := sig) (Y := system C) (t := t) (m := m)
    (w := w) (p := leaves p) hcue h
  cases r with
  | error _ => cases hp
  | ok _ =>
      obtain ⟨hf, hp⟩ := Bool.and_eq_true_iff.mp hp
      refine ⟨os, w', he, fun o x hx => ?_, hp⟩
      simpa using List.all_eq_true.mp hf (o, x) hx

/-- The anchor asks for a minute and the rider for half of one. -/
theorem idle_window_honours_iff_pair :
    (∃ (w₁ w' : World) (os₁ : List (Op × Reply)) (a : Slot × List (Option Int)),
      Episode (system {}) Untouched 0 (admitAll {} 0 0 2) (fanOutOf [some 60, some 30]) os₁
        (.ok a) w₁ ∧
      w'.asked (w'.ridersSince (fanOutOf [some 60, some 30])) = [30, 60] ∧
      ∀ v ∈ [30, 60], Provided 600 (w'.asked (w₁.ridersSince (fanOutOf [some 60, some 30]))) v) ∧
    ∃ (w' : World) (os : List (Op × Reply)), taken os = [1] ∧
      (w'.resident 0).latestKeepAliveS = some 60 ∧
      ∀ v ∈ w'.asked (taken os), idleWindowSeconds (some v) 600 ≤ 60 := by
  have h := idle_window_honours_iff {}
  constructor
  · have hp : (enact (system {}) 0 (rideTogether ++ nobodyFollows)
        ((fanOutToIdle {} 0 0 2).run (fanOutOf [some 60, some 30]))).any (leaves fun _ w =>
          decide (w.asked (w.ridersSince (fanOutOf [some 60, some 30])) = [30, 60] ∧
            Honours (idleSeconds w.hold.latestKeepAliveS 600) 600 [30, 60])) = true := by
      decide +kernel
    obtain ⟨os, w', he, hf, hw⟩ := call_of_check (fun _ _ => Mute.untouched)
      keepsStill_rideTogether hp
    obtain ⟨hasked, hh⟩ := of_decide_eq_true hw
    obtain ⟨a, os₁, -, -, w₁, -, -, h₁, -, -, hiff⟩ := h.1 0 0 0 2 _ w' os he hf
    rw [hasked] at hiff
    exact ⟨w₁, w', os₁, a, h₁, hasked, hiff.mp hh⟩
  · have hp : (enact (system {}) 1 rideResident
        ((serveOnResident {} 0 0 0).run (residentOf [some 60, some 30]))).any (leaves fun os w =>
          decide (taken os = [1] ∧ (w.resident 0).latestKeepAliveS = some 60 ∧
            Honours 60 600 (w.asked (0 :: taken os)))) = true := by
      decide +kernel
    obtain ⟨os, w', he, hf, hw⟩ := call_of_check (fun _ _ => Mute.uncaptured)
      keepsStill_rideResident hp
    obtain ⟨ht, hl, hh⟩ := of_decide_eq_true hw
    have hiff := h.2.1 1 0 0 0 600 _ w' os he hf
    rw [hl] at hiff
    exact ⟨w', os, ht, hl, hiff.mp hh⟩

/-- At cap 1 a rider that joins while the fan-out is being drained asks for half an hour and
gets the default of ten minutes; one that asks for `-5m`, which stands for the longest
window there is, gets the anchor's half a minute.  At cap 2 no rider is asked. -/
theorem riders_not_honoured :
    (¬ ∀ (t s pid n : Nat) (w w' : World) (os : List (Op × Reply)),
      Episode (system {}) Untouched t (fanOutToIdle {} s pid n) w os (.ok ()) w' →
      FollowsNobody os → Honours (idleSeconds w'.hold.latestKeepAliveS 600) 600
        (w'.asked (w'.ridersSince w))) ∧
    (∃ (os : List (Op × Reply)) (w' : World),
      Episode (system {}) Untouched 0 (fanOutToIdle {} 0 0 2) (fanOutOf [some 30, some (-300)]) os
        (.ok ()) w' ∧
      KeepAlive.parseKeepAlive (.str "-5m") = .ok (some (-300)) ∧
      idleSeconds w'.hold.latestKeepAliveS 600 = 30) ∧
    ¬ ∀ (t r s pid : Nat) (w w' : World) (os : List (Op × Reply)),
      Episode (system {}) (Uncaptured r s) t (serveOnResident {} r s pid) w os (.ok ()) w' →
      FollowsNobody os → Honours (idleWindowSeconds (w'.resident r).latestKeepAliveS 600) 600
        (w'.asked (s :: taken os)) := by
  refine ⟨fun h => ?_, ?_, fun h => ?_⟩
  · have hp : (enact (system {}) 0 (rideTogether ++ (rideLate ++ nobodyFollows))
        ((fanOutToIdle {} 0 0 2).run (fanOutOf [none, none, some 1800]))).any (leaves fun _ w =>
          decide (¬ Honours (idleSeconds w.hold.latestKeepAliveS 600) 600
            (w.asked (w.ridersSince (fanOutOf [none, none, some 1800]))))) = true := by
      decide +kernel
    obtain ⟨os, w', he, hf, hw⟩ := call_of_check (fun _ _ => Mute.untouched)
      keepsStill_rideLate hp
    exact of_decide_eq_true hw (h _ _ _ _ _ _ _ he hf)
  · have hp : (enact (system {}) 0 (rideTogether ++ nobodyFollows)
        ((fanOutToIdle {} 0 0 2).run (fanOutOf [some 30, some (-300)]))).any (leaves fun _ w =>
          decide (idleSeconds w.hold.latestKeepAliveS 600 = 30)) = true := by
      decide +kernel
    obtain ⟨os, w', he, hf, hw⟩ := call_of_check (fun _ _ => Mute.untouched)
      keepsStill_rideTogether hp
    exact ⟨os, w', he, by decide +kernel, of_decide_eq_true hw⟩
  · have hp : (enact (system {}) 1 rideResident
        ((serveOnResident {} 0 0 0).run (residentOf [none, some 1800]))).any (leaves fun os w =>
          decide (¬ Honours (idleWindowSeconds (w.resident 0).latestKeepAliveS 600) 600
            (w.asked (0 :: taken os)))) = true := by
      decide +kernel
    obtain ⟨os, w', he, hf, hw⟩ := call_of_check (fun _ _ => Mute.uncaptured)
      keepsStill_rideResident hp
    exact of_decide_eq_true hw (h _ _ _ _ _ _ _ he hf)

end Turbohaul
