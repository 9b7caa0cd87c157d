/-
# `StreamEviction` — a client that leaves while its slot is queued

`disconnect_event` is set by the watcher's poll alone, and `stream_gen` cancels
the watcher whenever it ends.  So the event is sure to be set after the cleanup
exactly as far as a poll has found the client gone before the generator ends,
be it cancelled or be it tired of waiting for a slot.  A slot that has been
announced is out of the queue for good, and needs no event.

    Sure      the event is set, or the slot has been announced
    Inv       a generator that is asked to cancel, or has cleaned up, is sure
    Grows     nobody clears either event

The watcher owes nothing to its cancellation; `stream_gen` owes `Sure` at each
of its exits.
-/
import Turbohaul.StreamWatch

namespace Turbohaul.Stream

open Coop

/-- What is claimed of a state: once `stream_gen` has cleaned up, a slot that
is still queued for a client that has left carries a set event, and the pop
that takes it out flags it. -/
def Evicts (w : World) : Prop :=
  w.cleanedUp → w.gone = true → w.queued = true →
    w.slot.disconnectEvent = some true ∧
    ∀ w', env .pop w = some w' → w'.slot.isEvicted = true

/-- The slot is announced or a poll has found its client gone. -/
def World.settledFor (w : World) : Bool := w.seen || decide w.announced

/-- The generator is neither cancelled nor out of patience before that. -/
def polledFirst : Admit system where
  reply := fun _ o _ w =>
    match o with
    | .slotReadyTimeout => w.settledFor
    | _ => true
  env := fun e w =>
    match e with
    | .cancelBody => w.settledFor
    | _ => true

/-- The slot will not be popped without being flagged. -/
def Sure (w : World) : Prop := w.slot.disconnectEvent = some true ∨ w.announced

structure Inv (w : World) : Prop where
  out : w.announced → w.queued = false
  seen : w.seen = true → w.slot.disconnectEvent = some true
  cancelled : w.body.cancelRequested = true → Sure w
  cleaned : w.cleanedUp → Sure w

/-- Both events stay set. -/
structure Grows (w w' : World) : Prop where
  event : w.slot.disconnectEvent = some true → w'.slot.disconnectEvent = some true
  announced : w.announced → w'.announced

theorem Grows.refl (w : World) : Grows w w := ⟨id, id⟩

theorem Grows.trans {a b c : World} (h : Grows a b) (h' : Grows b c) : Grows a c :=
  ⟨fun x => h'.event (h.event x), fun x => h'.announced (h.announced x)⟩

theorem Sure.grows {w w' : World} (h : Sure w) (hg : Grows w w') : Sure w' :=
  h.imp hg.event hg.announced

theorem Inv.evicts {w : World} (h : Inv w) : Evicts w := by
  intro hcleaned _ hq
  have he : w.slot.disconnectEvent = some true := by
    rcases h.cleaned hcleaned with he | ha
    · exact he
    · rw [h.out ha] at hq
      cases hq
  refine ⟨he, fun w' hw => ?_⟩
  simp only [env, hq, if_true, Slot.disconnected, he, decide_true, Option.some.injEq] at hw
  subst hw
  rfl

/-- A poll has settled it, or the announcement has. -/
theorem Inv.sure {w : World} (h : Inv w) (hs : w.settledFor = true) : Sure w := by
  rcases Bool.or_eq_true_iff.mp hs with hs | hs
  · exact .inl (h.seen hs)
  · exact .inr (of_decide_eq_true hs)

/-- The claim about the request. -/
def evicting : Outline system where
  cond := polledFirst
  base := fun _ => True
  inv := Inv
  guar := fun _ => Grows

/-- What a segment keeps. -/
abbrev Kept (s w : World) : Prop := Inv w ∧ Grows s w

/-- What `stream_gen` keeps once it is sure. -/
abbrev KeptSure (s w : World) : Prop := Kept s w ∧ Sure w

variable {t : Nat} {s w : World}

/-- Operations whose replies leave the world alone. -/
def Op.silent : Op → Prop
  | .entry | .isDisconnected => False
  | _ => True

theorem answer_silent {o : Op} (ho : o.silent) (t : Nat) (r : Reply) (w : World) :
    answer t o r w = w := by
  cases o <;> first
    | exact ho.elim
    | rfl

/-- While a task is suspended the events stay set. -/
theorem rely_grows {w w' : World} (h : evicting.Rely t w w') : Grows w w' :=
  h.keeps (R := Grows) Grows.refl (fun _ _ _ => Grows.trans) fun _ _ _ _ _ _ hg => hg

/-! ## The generator -/

/-- A generator that is cancelled is sure. -/
def OnCancel {α : Type} : Post sig α := fun r s w => Kept s w ∧ (r = .error .cancelled → Sure w)

theorem cancelled_of_allowed {o : Op} (h : allowed 1 o .cancelled w = true) :
    w.body.cancelRequested = true := by
  cases o <;> first
    | exact h
    | cases h

theorem wp_sync {o : Op} (ho : o.silent) (h : Kept s w) :
    wp evicting 1 (sync o) (fun r s w =>
      OnCancel r s w ∧ ∀ e, r = .error (.raised e) → allowed 1 o (.raised e) w = true) s w := by
  refine ⟨h, fun w' _ hgood r ha _ => ?_⟩
  have hk : Kept w' w' := ⟨hgood.1, .refl w'⟩
  change wp evicting 1 _ _ w' (answer 1 o r w')
  rw [answer_silent ho]
  cases r with
  | raised e => exact ⟨⟨hk, (by rintro ⟨⟩)⟩, fun e' he => by cases he; exact ha⟩
  | cancelled =>
    exact ⟨⟨hk, fun _ => hgood.1.cancelled (cancelled_of_allowed ha)⟩, (by rintro _ ⟨⟩)⟩
  | ok => exact ⟨⟨hk, (by simp)⟩, (by simp)⟩
  | bool b => exact ⟨⟨hk, (by simp)⟩, (by simp)⟩
  | time now => exact ⟨⟨hk, (by simp)⟩, (by simp)⟩

theorem frames_sure : Frames evicting 1 KeptSure (fun w w' => Inv w → Sure w → Kept w w')
    Op.silent where
  act := fun {s w w'} hA h =>
    have hk := hA h.1.1 h.2
    ⟨⟨hk.1, h.1.2.trans hk.2⟩, h.2.grows hk.2⟩
  ask := fun o ho s w h r _ _ => by
    change KeptSure s (answer 1 o r w)
    rwa [answer_silent ho]
  await := fun o ho s w h => by
    refine ⟨h.1, fun w' hr hgood r _ _ => ?_⟩
    change KeptSure w' (answer 1 o r w')
    rw [answer_silent ho]
    exact ⟨⟨hgood.1, .refl w'⟩, h.2.grows (rely_grows hr)⟩

/-- Statements that change neither the slot nor the state of the generator. -/
theorem kept_of_same {w w' : World} (hs : w'.slot = w.slot) (hq : w'.queued = w.queued)
    (hseen : w'.seen = w.seen) (hb : w'.body.cancelRequested = w.body.cancelRequested)
    (h : Inv w) : Kept w w' := by
  refine ⟨⟨fun ha => ?_, fun hx => ?_, fun hx => ?_, fun hx => ?_⟩, ⟨fun hx => ?_, fun hx => ?_⟩⟩
  · rw [hq]
    exact h.out (by rwa [World.announced, hs] at ha)
  · rw [hs]
    exact h.seen (hseen ▸ hx)
  · rw [Sure, World.announced, hs]
    exact h.cancelled (hb ▸ hx)
  · rw [Sure, World.announced, hs]
    exact h.cleaned (by rwa [World.cleanedUp, hs] at hx)
  · rwa [hs]
  · rwa [World.announced, hs]

/-- The events are set only. -/
theorem kept_setDone (h : Inv w) (hs : Sure w) : Kept w (w.setSlot Slot.setDone) :=
  ⟨⟨h.out, h.seen, fun _ => hs, fun _ => hs⟩, ⟨id, id⟩⟩

section Sure

abbrev Tame {α : Type} (m : Prog α) : Prop :=
  Only (S := sig) (fun w w' => Inv w → Sure w → Kept w w') Op.silent m

theorem tame_sync {o : Op} (ho : o.silent) : Tame (sync o) :=
  ⟨ho, fun r => by cases r <;> trivial⟩

theorem tame_op {o : Op} (ho : o.silent) :
    Tame (sync o >>= fun _ => (pure () : Prog Unit)) :=
  ⟨tame_sync ho, fun _ => trivial⟩

theorem tame_yieldFrame (f : Frame) : Tame (yieldFrame f) :=
  tame_op trivial

theorem tame_endWith (f : Frame) : Tame (endWith f) :=
  ⟨tame_yieldFrame f, fun _ => tame_yieldFrame _⟩

theorem keeps_relay : Keeps evicting 1 KeptSure relay := by
  refine .bind (fun _ _ h => h) fun _ => ?_
  split
  · exact frames_sure.keeps (tame_endWith _)
  · exact frames_sure.keeps (tame_op trivial)

theorem keeps_cleanUp : Keeps evicting 1 KeptSure cleanUp :=
  .bind (frames_sure.keeps fun _ h _ => kept_of_same rfl rfl rfl rfl h) fun _ =>
    .bind (.suppressAll (frames_sure.keeps (tame_op (o := .joinWatcher) trivial))) fun _ =>
      frames_sure.keeps fun _ h hs => kept_setDone h hs

/-- Once the generator is sure, so are the frames it ends with. -/
theorem keeps_giveUp (h : Kept s w) :
    wp evicting 1 giveUp (fun _ => KeptSure) s w := by
  intro r _ hr
  have hs : KeptSure s w := ⟨h, h.1.sure hr⟩
  exact Keeps.bind (.suppressAll (frames_sure.keeps (tame_op (o := .joinReady) trivial)))
    (fun _ => frames_sure.keeps (tame_endWith _)) s w hs

end Sure

/-- A read of the outside changes nothing. -/
theorem wp_loopTime_bind {α : Type} {k : Nat → Prog α} {Q : Post sig α}
    (h : ∀ now, wp evicting t (k now) Q s w) : wp evicting t (loopTime >>= k) Q s w := by
  intro r ha _
  cases r with
  | time now => exact h now
  | _ => cases ha

theorem wp_readyDone_bind {α : Type} {k : Bool → Prog α} {Q : Post sig α}
    (h : ∀ b, (b = true → w.announced) → wp evicting t (k b) Q s w) :
    wp evicting t (readyDone >>= k) Q s w := by
  intro r ha _
  cases r with
  | bool b =>
      refine h b fun hb => ?_
      subst hb
      exact of_decide_eq_true ha
  | _ => cases ha

theorem wp_yieldFrame (f : Frame) (h : Kept s w) :
    wp evicting 1 (yieldFrame f) (fun r s w => Kept s w ∧ ((∃ e, r = .error e) → Sure w)) s w := by
  refine wp_seq (wp_sync trivial h) (fun _ s w h => ⟨h.1.1, (by simp)⟩) fun e s w h => ⟨h.1.1, ?_⟩
  rintro -
  cases e with
  | cancelled => exact h.1.2 rfl
  | raised e => exact Bool.noConfusion (h.2 e rfl)

/-- A heartbeat ends with an exception only when the generator is cancelled. -/
theorem wp_heartbeat (h : Kept s w) :
    wp evicting 1 heartbeat (fun r s w => Kept s w ∧ ((∃ e, r = .error e) → Sure w)) s w := by
  refine wp_tryExcept (wp_seq (wp_sync trivial h) (fun _ s w h => ⟨h.1.1, (by simp)⟩) fun e s w h =>
    ?_)
  cases e with
  | cancelled => exact ⟨h.1.1, fun _ => h.1.2 rfl⟩
  | raised e =>
      cases e with
      | waitTimeout =>
          refine wp_readyDone_bind fun b _ => ?_
          cases b with
          | true => exact ⟨h.1.1, (by simp)⟩
          | false => exact wp_yieldFrame .keepAlive h.1.1
      | network text => exact Bool.noConfusion (h.2 _ rfl)
      | upstreamTimeout text => exact Bool.noConfusion (h.2 _ rfl)
      | other text => exact Bool.noConfusion (h.2 _ rfl)

/-- The wait for the slot ends sure, whichever way it ends. -/
theorem wp_awaitReady (h : Kept s w) : wp evicting 1 awaitReady (fun _ => KeptSure) s w := by
  refine wp_loopTime_bind fun start => ⟨fun _ => Kept, h, fun _ s w h => ?_⟩
  refine wp_readyDone_bind fun done hdone => ?_
  cases done with
  | true => exact ⟨h, .inr (hdone rfl)⟩
  | false =>
      refine wp_loopTime_bind fun now => ?_
      split
      · exact wp_seq (keeps_giveUp h) (fun _ _ _ h => h) fun _ _ _ h => h
      · exact wp_seq (wp_heartbeat h) (fun _ _ _ h => h.1) fun e _ _ h => ⟨h.1, h.2 ⟨e, rfl⟩⟩

theorem wp_streamGen (h : Kept s w) : wp evicting 1 streamGen (fun _ => Kept) s w := by
  have hbody : wp evicting 1 (Co.tryExcept (awaitReady >>= fun ready => Co.when ready relay)
      fun e => endWith e.frame) (fun _ => KeptSure) s w := by
    have hm : wp evicting 1 (awaitReady >>= fun ready => Co.when ready relay)
        (fun _ => KeptSure) s w :=
      wp_seq (wp_awaitReady h) (fun ready s w h => Keeps.when keeps_relay s w h) fun _ _ _ h => h
    refine wp_tryExcept (wp_mono ?_ hm)
    intro r s w h
    match r with
    | .ok () => exact h
    | .error (.raised e) => exact frames_sure.keeps (tame_endWith _) s w h
    | .error .cancelled => exact h
  refine wp_tryFinally (wp_mono ?_ hbody)
  intro r s w h
  refine wp_mono ?_ (keeps_cleanUp s w h)
  intro r' s w h
  cases r' with
  | ok _ => exact h.1
  | error e => exact h.1

/-! ## The watcher -/

theorem kept_setDisconnect (h : Kept s w) (seen : Bool) :
    Kept s ({ w with seen }).setDisconnect :=
  ⟨⟨h.1.out, fun _ => rfl, fun _ => .inl rfl, fun _ => .inl rfl⟩,
    ⟨fun _ => rfl, h.2.announced⟩⟩

/-- A poll that finds the client gone has to be followed by setting the event. -/
theorem wp_isDisconnected (h : Kept s w) :
    wp evicting 0 isDisconnected (fun r s w =>
      match r with
      | .ok true => Kept s w.setDisconnect
      | _ => Kept s w) s w := by
  refine ⟨h, fun w' _ hgood r ha _ => ?_⟩
  have hk : Kept w' w' := ⟨hgood.1, .refl w'⟩
  cases r with
  | bool b =>
      cases b with
      | true => exact kept_setDisconnect hk _
      | false => exact kept_of_same rfl rfl (Bool.or_false _) rfl hgood.1
  | raised e => exact hk
  | cancelled => exact hk
  | ok => cases ha
  | time now => cases ha

theorem keeps_watchDisconnect : Keeps evicting 0 Kept watchDisconnect := by
  refine .whileTrue fun s w h => ?_
  rw [wp_gets_bind]
  split
  · exact h
  · have hpoll : wp evicting 0 (Co.tryExcept isDisconnected fun _ => pure false) (fun r s w =>
        match r with
        | .ok true => Kept s w.setDisconnect
        | _ => Kept s w) s w := by
      refine wp_tryExcept (wp_mono ?_ (wp_isDisconnected h))
      intro r s w h
      match r with
      | .ok b => exact h
      | .error (.raised e) => exact h
      | .error .cancelled => exact h
    refine wp_seq hpoll (fun gone s w h => ?_) fun _ _ _ h => h
    cases gone with
    | true => exact h
    | false =>
        refine ⟨h, fun w' _ hgood r ha _ => ?_⟩
        have hk : Kept w' w' := ⟨hgood.1, .refl w'⟩
        cases r <;> exact hk

/-! ## All runs -/

theorem kept_env {e : Env} {w w' : World} (h : Inv w) (hc : polledFirst.env e w = true)
    (he : env e w = some w') : Kept w w' := by
  cases e with
  | tick ms =>
      cases he
      exact kept_of_same rfl rfl rfl rfl h
  | leave =>
      cases he
      exact kept_of_same rfl rfl rfl rfl h
  | cancelBody =>
      simp only [env, Option.ite_none_right_eq_some, Option.some.injEq] at he
      obtain ⟨-, rfl⟩ := he
      exact ⟨⟨h.out, h.seen, fun _ => h.sure hc, h.cleaned⟩, ⟨id, id⟩⟩
  | pop =>
      simp only [env, Option.ite_none_right_eq_some, Option.some.injEq] at he
      obtain ⟨-, rfl⟩ := he
      split
      · exact ⟨⟨fun _ => rfl, h.seen, h.cancelled, h.cleaned⟩, ⟨id, id⟩⟩
      · exact ⟨⟨fun _ => rfl, h.seen, h.cancelled, h.cleaned⟩, ⟨id, id⟩⟩
  | pushBack =>
      simp only [env, Option.ite_none_left_eq_some, Option.some.injEq, not_or] at he
      obtain ⟨⟨-, hn⟩, rfl⟩ := he
      exact ⟨⟨fun ha => absurd ha hn, h.seen, h.cancelled, h.cleaned⟩, ⟨id, id⟩⟩
  | announce handle =>
      simp only [env, Option.ite_none_left_eq_some, Option.some.injEq] at he
      obtain ⟨hq, rfl⟩ := he
      have hg : Grows w (w.setSlot fun x => { x with streamHandle := handle }.setReady) := by
        refine ⟨id, fun ha => ?_⟩
        rw [World.announced] at ha
        simp [World.announced, World.setSlot, Slot.setReady, ha]
      exact ⟨⟨fun _ => Bool.eq_false_iff.mpr hq, h.seen, fun hx => (h.cancelled hx).grows hg,
        fun hx => (h.cleaned hx).grows hg⟩, hg⟩

theorem kept_setTask {f : TaskState → TaskState}
    (hf : ∀ k, (f k).cancelRequested = k.cancelRequested) (h : Inv w) :
    Kept w (w.setTask t f) := by
  unfold World.setTask
  split
  · exact kept_of_same rfl rfl rfl rfl h
  · exact kept_of_same rfl rfl rfl (hf _) h

theorem ends_of_kept {r : Res sig Unit} (h : Kept s w) : evicting.Ends t r s w :=
  have hk : Kept w (system.finished t r w) :=
    kept_setTask (f := fun k => { k with ended := true }) (fun _ => rfl) h.1
  ⟨hk.1, h.2.trans hk.2⟩

theorem evicting_verified : evicting.Verified ({} : World) where
  init := ⟨(by rintro ⟨⟩), (by rintro ⟨⟩), (by rintro ⟨⟩), (by rintro ⟨⟩)⟩
  start := fun t w k r hgood hf _ _ => by
    have hk : Kept w (answer t .entry r w) :=
      kept_setTask (f := fun k => { k with started := true }) (fun _ => rfl) hgood.1
    have done : ∀ (r : Res sig Unit) s w, Kept s w → evicting.Ends t r s w :=
      fun _ _ _ => ends_of_kept
    change wp evicting t (program k r) _ w (answer t .entry r w)
    -- the watcher is task 0 and the generator is task 1
    have hkind : (t = 0 ∧ k = .watcher) ∨ (t = 1 ∧ k = .body) := by
      match t, hf with
      | 0, hf =>
          simp only [system] at hf
          split at hf <;> cases hf
          exact .inl ⟨rfl, rfl⟩
      | 1, hf =>
          simp only [system] at hf
          split at hf <;> cases hf
          exact .inr ⟨rfl, rfl⟩
    rcases hkind with ⟨rfl, rfl⟩ | ⟨rfl, rfl⟩
    · cases r with
      | cancelled => exact done _ _ _ hk
      | _ => exact wp_mono done (keeps_watchDisconnect _ _ hk)
    · cases r with
      | cancelled => exact done _ _ _ hk
      | _ => exact wp_mono done (wp_streamGen hk)
  env := fun e w w' hgood hc he => kept_env hgood.1 hc he

/-- In every run in which a poll finds the client gone before the generator is
cancelled or gives up, unless the slot has been announced by then, a slot that
is still queued after the cleanup is evicted by the pop that takes it out. -/
theorem leaver_evicted (c : Loop sig) (h : Reachable polledFirst c) (hc : c.current = none) :
    Evicts c.world :=
  (evicting.sound evicting_verified (fun _ _ _ => trivial) h hc).evicts

/-! ## The cancellation that comes first -/

/-- The client leaves between two polls, and the server cancels the generator
before the second. -/
def cancelledFirst : List (Move system) :=
  [.start 0 .ok, .go, .resume 0 (.bool false), .start 1 .ok, .answer (.time 0), .go,
    .answer (.bool false), .answer (.time 0), .env .leave, .env .cancelBody,
    .resume 1 .cancelled, .resume 0 .cancelled, .resume 1 .ok]

/-- The event stays unset, and the pop does not flag the slot. -/
theorem leaver_not_evicted : ∃ c, Reachable (Admit.any _) c ∧ c.current.isNone = true ∧
    c.world.body.ended = true ∧ c.world.slot.disconnectEvent = some false ∧
    (env .pop c.world).any (fun w => w.slot.isEvicted) = false ∧ ¬Evicts c.world := by
  have h : (Loop.exec (Admit.any _) cancelledFirst { world := {} }).any (fun c =>
      decide (c.current.isNone = true ∧ c.world.body.ended = true ∧
        c.world.slot.disconnectEvent = some false ∧
        (env .pop c.world).any (fun w => w.slot.isEvicted) = false ∧
        c.world.cleanedUp ∧ c.world.gone = true ∧ c.world.queued = true)) = true := by
    decide +kernel
  obtain ⟨c, hc, hp⟩ := Loop.reach_of_check h
  obtain ⟨hn, hb, he, hpop, hd, hg, hq⟩ := of_decide_eq_true hp
  refine ⟨c, hc, hn, hb, he, hpop, fun hev => ?_⟩
  rw [(hev hd hg hq).1] at he
  cases he

/-- The poll comes first. -/
def polled : List (Move system) :=
  [.start 0 .ok, .go, .start 1 .ok, .answer (.time 0), .go, .answer (.bool false),
    .answer (.time 0), .env .leave, .resume 0 (.bool true), .env .cancelBody,
    .resume 1 .cancelled, .resume 1 .ok]

theorem leaver_evicted_polled : ∃ c, Reachable polledFirst c ∧ c.world.cleanedUp ∧
    c.world.gone = true ∧ c.world.queued = true ∧ Evicts c.world := by
  have h : (Loop.exec polledFirst polled { world := {} }).any (fun c =>
      decide (c.current.isNone = true ∧ c.world.cleanedUp ∧ c.world.gone = true ∧
        c.world.queued = true)) = true := by
    decide +kernel
  obtain ⟨c, hc, hp⟩ := Loop.reach_of_check h
  obtain ⟨hn, hd, hg, hq⟩ := of_decide_eq_true hp
  exact ⟨c, hc, hd, hg, hq, leaver_evicted c hc (Option.isNone_iff_eq_none.mp hn)⟩

end Turbohaul.Stream
