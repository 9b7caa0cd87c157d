/-
# `LivePane` — the live boxes of the dashboard

`useLiveStream.ts`: the frames of one connection become one box for each loaded
model, or for the generation where the backend omits the tag.  An idle frame flips
nothing by itself: it arms a timer, which any other frame disarms.

  `GenPane`, `Panes`   a box; the boxes, and whether the timer is armed
  `Panes.onFrame`      a frame of the stream
  `Panes.onTimeout`    the timer
  `Told`               the frames a handler sends, without a tag
  `tells_resume`       it sends no others
  `pane_shows_generation`

With one resident the pollers publish no tag, and then there is one box: it shows
what the handler has read, and reads done once the handler said so.
-/
import Turbohaul.LiveViewers

namespace Turbohaul.LiveMonitor

open LiveOutput

/-- `GenPane`, less its clock and the token rates, which no frame of the handler
carries. -/
structure GenPane where
  paneKey : String
  generationId : String
  modelTag : Option String
  text : Text
  done : Bool

/-- The boxes by their keys, and the pending flip to done. -/
structure Panes where
  panes : String → Option GenPane := fun _ => none
  idleTimer : Bool := false

/-- What reaches the dashboard: something of the stream, or the timer. -/
inductive PaneEvent where
  | sent (x : Sent)
  | timeout

namespace Panes

/-- The body of the loop on a frame. -/
def onFrame (s : Panes) (frame : Frame) : Panes :=
  if frame.idle then { s with idleTimer := true }
  else
    match frame.generationId with
    | none => s
    | some genId =>
      if genId = "" then s
      else
        let paneKey := frame.modelTag.getD genId
        let existing := s.panes paneKey
        if frame.reset then
          let kept : String → Option GenPane := fun k =>
            if frame.modelTag.isNone then (s.panes k).filter (·.modelTag.isSome) else s.panes k
          { panes := Function.update kept paneKey (some
              { paneKey, generationId := genId, modelTag := frame.modelTag, text := frame.text
                done := frame.done })
            idleTimer := false }
        else
          { panes := Function.update s.panes paneKey (some
              { paneKey, generationId := genId
                modelTag := frame.modelTag.or (existing.bind (·.modelTag))
                text := ((existing.map (·.text)).getD []) ++ frame.text
                done := frame.done })
            idleTimer := false }

/-- The timer fires, if it is armed. -/
def onTimeout (s : Panes) : Panes :=
  if s.idleTimer then
    { panes := fun k => (s.panes k).map fun p => { p with done := true }, idleTimer := false }
  else s

def on (s : Panes) : PaneEvent → Panes
  | .sent (.data f) => s.onFrame f
  | .sent .keepAlive => s
  | .timeout => s.onTimeout

/-- The boxes after some events. -/
def view (events : List PaneEvent) : Panes := events.foldl on {}

end Panes

/-- What came of the stream. -/
def streamOf (events : List PaneEvent) : List Sent :=
  events.filterMap fun e => match e with
    | .sent x => some x
    | .timeout => none

/-! ## What a handler says -/

/-- What a handler has sent, without tags: nothing, or the generation it told of last
and whether it said that it is done. -/
inductive Told : List Sent → Option (String × Bool) → Prop
  | nil : Told [] none
  | beat {sent : List Sent} {x : Option (String × Bool)} :
      Told sent x → Told (sent ++ [.keepAlive]) x
  | reset {sent : List Sent} {x : Option (String × Bool)} {gid : String} (replay : Text) :
      Told sent x → gid ≠ "" →
      Told (sent ++ [.data { generationId := some gid, text := replay, reset := true }])
        (some (gid, false))
  | idle {sent : List Sent} {x : Option (String × Bool)} :
      Told sent x →
      Told (sent ++ [.data { generationId := none, reset := true, idle := true }]) none
  | piece {sent : List Sent} {gid : String} (piece : Text) :
      Told sent (some (gid, false)) →
      Told (sent ++ [.data { generationId := some gid, text := piece }]) (some (gid, false))
  | done {sent : List Sent} {gid : String} :
      Told sent (some (gid, false)) →
      Told (sent ++ [.data { generationId := some gid, done := true }]) (some (gid, true))

/-- A handler with a queue has told of its generation. -/
def Handler.Tells (h : Handler) : Prop :=
  ∃ x, Told h.sent x ∧ ∀ q, h.q = some q →
    ∃ gid, h.cur = some gid ∧ x = some (gid, decide (h.point = .finishing))

/-- One resident: the alias is all that is published. -/
def Anchors.Single (a : Anchors) : Prop := a.liveGenerations = []

theorem Anchors.Single.tagFor {a : Anchors} (ha : a.Single) (gid : String) :
    a.tagFor gid = none := by
  rw [Anchors.tagFor, ha]
  split
  · rfl
  · rfl

namespace Handler

variable {a : Anchors} {b : LiveOutput} {h : Handler}

theorem Tells.drop (H : h.Tells) (b : LiveOutput) :
    (h.drop b).2.q = none ∧ (h.drop b).2.sent = h.sent := by
  obtain ⟨x, -, hlink⟩ := H
  cases hq : h.q with
  | none => simp only [Handler.drop, hq, and_self]
  | some q =>
    obtain ⟨gid, hcur, -⟩ := hlink q hq
    simp only [Handler.drop, hq, hcur, and_self]

/-- Without a queue it may have told anything. -/
theorem tells_of_none {x : Option (String × Bool)} (ht : Told h.sent x) (hq : h.q = none) :
    h.Tells := by
  refine ⟨x, ht, fun q hs => ?_⟩
  rw [hq] at hs
  cases hs

theorem Tells.leave (H : h.Tells) : (h.leave b).2.Tells := by
  obtain ⟨hq, hsent⟩ := H.drop b
  obtain ⟨x, ht, -⟩ := H
  exact tells_of_none (x := x) (by show Told (h.drop b).2.sent x; rw [hsent]; exact ht) hq

/-- It goes on, its queue in hand and not done. -/
theorem Tells.going (H : h.Tells) (hp : h.point ≠ .finishing) {point : Point}
    (hpoint : point ≠ .finishing) : Handler.Tells { h with point } := by
  obtain ⟨x, ht, hlink⟩ := H
  refine ⟨x, ht, fun q hq => ?_⟩
  obtain ⟨gid, hcur, rfl⟩ := hlink q hq
  exact ⟨gid, hcur, by rw [decide_eq_false hp, decide_eq_false hpoint]⟩

theorem Tells.listen (H : h.Tells) (hp : h.point ≠ .finishing) : h.listen.Tells := by
  refine H.going hp ?_
  split
  · intro hc
    cases hc
  · intro hc
    cases hc

theorem Tells.beat (H : h.Tells) (hp : h.point ≠ .finishing) : h.beat.Tells := by
  obtain ⟨x, ht, hlink⟩ := H
  refine ⟨x, ht.beat, fun q hq => ?_⟩
  obtain ⟨gid, hcur, rfl⟩ := hlink q hq
  exact ⟨gid, hcur, by rw [decide_eq_false hp]; rfl⟩

theorem Tells.follow (H : h.Tells) (ha : a.Single) (hq : h.q = none) {gid : String}
    (hgid : gid ≠ "") : (h.follow a gid b).2.Tells := by
  obtain ⟨x, ht, -⟩ := H
  have hsay : ∀ (q : Option Nat × Text) (done0 : Bool), Handler.Tells (Handler.say
      { generationId := some gid, text := q.2, reset := true, modelTag := a.tagFor gid }
      (.opened done0) { h with cur := some gid, q := q.1 }) := by
    intro q done0
    rw [ha.tagFor]
    exact ⟨_, ht.reset q.2 hgid, fun _ _ => ⟨gid, rfl, rfl⟩⟩
  unfold Handler.follow
  split
  · exact hsay (_, _) _
  · have hl : Handler.Tells { h with cur := some gid } := tells_of_none (x := x) ht hq
    exact hl.leave

theorem Tells.read (H : h.Tells) (ha : a.Single) (hp : h.point ≠ .finishing) {q : Nat}
    (hq : h.q = some q) : (h.read a q b).2.Tells := by
  obtain ⟨x, ht, hlink⟩ := H
  obtain ⟨gid, hcur, rfl⟩ := hlink q hq
  rw [decide_eq_false hp] at ht
  have htag : h.cur.bind a.tagFor = none := by
    rw [hcur]
    exact ha.tagFor gid
  unfold Handler.read
  dsimp only
  rw [htag, hcur]
  split
  · exact ⟨_, ht, fun _ _ => ⟨gid, hcur, by rw [decide_eq_false hp]⟩⟩
  · exact ⟨_, ht.done, fun _ _ => ⟨gid, hcur, rfl⟩⟩
  · rename_i piece _
    exact ⟨_, ht.piece piece, fun _ _ => ⟨gid, hcur, rfl⟩⟩

theorem Tells.turn (H : h.Tells) (ha : a.Single) (hp : h.point ≠ .finishing) :
    (h.turn a b).2.Tells := by
  obtain ⟨hq, hsent⟩ := H.drop b
  have hdrop : (h.drop b).2.Tells := by
    obtain ⟨x, ht, -⟩ := H
    exact tells_of_none (x := x) (by rw [hsent]; exact ht) hq
  have hrest : ∀ anchor, ((h.drop b).2.rest anchor).Tells := by
    intro anchor
    obtain ⟨x, ht, -⟩ := hdrop
    exact tells_of_none ht.idle hq
  unfold Handler.turn
  dsimp only
  split
  · exact H.listen hp
  · split
    · split
      · rename_i hgid
        exact hdrop.follow ha hq hgid
      · exact hrest _
    · exact hrest _

/-- A handler sends only what may be told. -/
theorem tells_resume (H : h.Tells) (ha : a.Single) (timeout : Bool) :
    (h.resume a timeout b).2.Tells := by
  obtain ⟨hq, hsent⟩ := H.drop b
  have hdrop : ∀ point, Handler.Tells { (h.drop b).2 with point } := by
    intro point
    obtain ⟨x, ht, -⟩ := H
    exact tells_of_none (x := x) (by show Told (h.drop b).2.sent x; rw [hsent]; exact ht) hq
  unfold Handler.resume
  split
  · rename_i hp
    exact H.turn ha (by rw [hp]; intro hc; cases hc)
  · rename_i hp
    exact H.turn ha (by rw [hp]; intro hc; cases hc)
  · rename_i hp
    exact H.turn ha (by rw [hp]; intro hc; cases hc)
  · rename_i hp
    split
    · exact hdrop _
    · exact H.listen (by rw [hp]; intro hc; cases hc)
  · rename_i hp
    exact H.listen (by rw [hp]; intro hc; cases hc)
  · rename_i hp
    split
    · exact H
    · rename_i q hs
      split
      · exact H.beat (by rw [hp]; intro hc; cases hc)
      · exact H.read ha (by rw [hp]; intro hc; cases hc) hs
  · exact hdrop _
  · rename_i hp
    exact H.beat (by rw [hp]; intro hc; cases hc)
  · exact H

end Handler

/-- What the pollers publish along some steps is the alias only. -/
def SingleResidency (ticks : List Tick) : Prop := ∀ a, .publish a ∈ ticks → a.Single

theorem tells_run (T : Codec) (maxKeys : Int) (tailBytes : Nat) {ticks : List Tick}
    (hs : SingleResidency ticks) :
    (Monitor.run T maxKeys tailBytes ticks).anchors.Single ∧
      ∀ i, ((Monitor.run T maxKeys tailBytes ticks).handlers i).Tells := by
  have hfresh : ∀ modelTag point, Handler.Tells { modelTag, point } := by
    intro modelTag point
    exact Handler.tells_of_none .nil rfl
  induction ticks using List.reverseRecOn with
  | nil => exact ⟨rfl, fun _ => hfresh none .closed⟩
  | append_singleton ticks tick ih =>
    obtain ⟨ha, hall⟩ := ih fun a hmem => hs a (List.mem_append_left _ hmem)
    have hrun : Monitor.run T maxKeys tailBytes (ticks ++ [tick]) =
        (Monitor.run T maxKeys tailBytes ticks).step T tick := List.foldl_append
    rw [hrun]
    generalize Monitor.run T maxKeys tailBytes ticks = m at ha hall ⊢
    have hput : ∀ i h', Handler.Tells h' → ∀ j, (Function.update m.handlers i h' j).Tells := by
      intro i h' hh j
      by_cases hj : j = i
      · subst hj
        rw [Function.update_self]
        exact hh
      · rw [Function.update_of_ne hj]
        exact hall j
    cases tick with
    | feed gid bytes => exact ⟨ha, hall⟩
    | markDone gid => exact ⟨ha, hall⟩
    | publish a =>
      exact ⟨hs a (List.mem_append_right _ List.mem_cons_self), hall⟩
    | connect modelTag => exact ⟨ha, hput _ _ (hfresh modelTag .start)⟩
    | resume i timeout => exact ⟨ha, hput _ _ (Handler.tells_resume (hall i) ha timeout)⟩
    | leave i => exact ⟨ha, hput _ _ (hall i).leave⟩

/-! ## What the dashboard makes of it -/

/-- One box, with all that was told of its generation, and no flip pending. -/
structure Boxed (gid : String) (text : Text) (done : Bool) (s : Panes) : Prop where
  box : s.panes gid = some
    { paneKey := gid, generationId := gid, modelTag := none, text, done }
  alone : ∀ k, k ≠ gid → s.panes k = none
  disarmed : s.idleTimer = false

/-- The boxes after what was told: none has a tag. -/
structure Shows (sent : List Sent) (x : Option (String × Bool)) (s : Panes) : Prop where
  untagged : ∀ k p, s.panes k = some p → p.modelTag = none
  boxed : ∀ gid done, x = some (gid, done) → Boxed gid (textOf sent) done s

theorem Shows.timeout {sent : List Sent} {x : Option (String × Bool)} {s : Panes}
    (H : Shows sent x s) : Shows sent x s.onTimeout := by
  unfold Panes.onTimeout
  split
  · rename_i harmed
    refine ⟨fun k p hp => ?_, fun gid done hx => ?_⟩
    · obtain ⟨p', hp', rfl⟩ := Option.map_eq_some_iff.mp hp
      exact H.untagged k p' hp'
    · rw [(H.boxed gid done hx).disarmed] at harmed
      cases harmed
  · exact H

theorem shows_timeouts {sent : List Sent} {x : Option (String × Bool)} {later : List PaneEvent}
    (hl : streamOf later = []) {s : Panes} (H : Shows sent x s) :
    Shows sent x (later.foldl Panes.on s) := by
  induction later generalizing s with
  | nil => exact H
  | cons e later ih =>
    cases e with
    | sent y => cases hl
    | timeout => exact ih hl H.timeout

/-- The last thing of the stream, with some timeouts after it. -/
theorem streamOf_concat {events : List PaneEvent} {sent : List Sent} {e : Sent}
    (h : streamOf events = sent ++ [e]) :
    ∃ past later, events = past ++ .sent e :: later ∧ streamOf past = sent ∧
      streamOf later = [] := by
  obtain ⟨past, rest, rfl, hpast, hrest⟩ := List.filterMap_eq_append_iff.mp h
  obtain ⟨early, x, later, rfl, hearly, hx, hlater⟩ := List.filterMap_eq_cons_iff.mp hrest
  have hx' : x = .sent e := by
    cases x with
    | sent y => exact congrArg PaneEvent.sent (Option.some.inj hx)
    | timeout => cases hx
  refine ⟨past ++ early, later, by rw [hx', List.append_assoc], ?_, hlater⟩
  have hnone : streamOf early = [] := List.filterMap_eq_nil_iff.mpr hearly
  show (past ++ early).filterMap _ = sent
  rw [List.filterMap_append, hpast]
  show sent ++ streamOf early = sent
  rw [hnone, List.append_nil]

/-- One more thing of the stream. -/
theorem shows_next {sent : List Sent} {x y : Option (String × Bool)} {e : Sent}
    (ih : ∀ events, streamOf events = sent → Shows sent x (Panes.view events))
    (hstep : ∀ s, Shows sent x s → Shows (sent ++ [e]) y (s.on (.sent e))) :
    ∀ events, streamOf events = sent ++ [e] → Shows (sent ++ [e]) y (Panes.view events) := by
  intro events h
  obtain ⟨past, later, rfl, hpast, hlater⟩ := streamOf_concat h
  have hview : Panes.view (past ++ .sent e :: later) =
      later.foldl Panes.on ((Panes.view past).on (.sent e)) := by
    rw [Panes.view, List.foldl_append, List.foldl_cons]
    rfl
  rw [hview]
  exact shows_timeouts hlater (hstep _ (ih past hpast))

/-- A box is replaced or made, the others being gone. -/
theorem boxed_update {gid : String} {text : Text} {done : Bool} {panes : String → Option GenPane}
    (halone : ∀ k, k ≠ gid → panes k = none) :
    Boxed gid text done
      { panes := Function.update panes gid (some
          { paneKey := gid, generationId := gid, modelTag := none, text, done })
        idleTimer := false } := by
  refine ⟨Function.update_self _ _ _, fun k hk => ?_, rfl⟩
  show Function.update panes gid _ k = none
  rw [Function.update_of_ne hk]
  exact halone k hk

theorem Boxed.shows {gid : String} {text : Text} {done : Bool} {sent : List Sent} {s : Panes}
    (H : Boxed gid text done s) (ht : textOf sent = text) : Shows sent (some (gid, done)) s := by
  refine ⟨fun k p hp => ?_, fun gid' done' hx => ?_⟩
  · by_cases hk : k = gid
    · rw [hk, H.box, Option.some.injEq] at hp
      rw [← hp]
    · rw [H.alone k hk] at hp
      cases hp
  · cases hx
    rw [ht]
    exact H

/-- A piece, or the end, of the generation told of. -/
theorem Boxed.onFrame {gid : String} {text : Text} {s : Panes} (H : Boxed gid text false s)
    (hgid : gid ≠ "") (more : Text) (done : Bool) :
    Boxed gid (text ++ more) done (s.onFrame { generationId := some gid, text := more, done }) := by
  have hframe : s.onFrame { generationId := some gid, text := more, done } =
      { panes := Function.update s.panes gid (some
          { paneKey := gid, generationId := gid, modelTag := none, text := text ++ more, done })
        idleTimer := false } := by
    simp [Panes.onFrame, hgid, H.box]
  rw [hframe]
  exact boxed_update H.alone

theorem Told.gid_ne {sent : List Sent} {gid : String} {done : Bool}
    (ht : Told sent (some (gid, done))) : gid ≠ "" := by
  generalize hx : some (gid, done) = x at ht
  induction ht generalizing gid done with
  | nil => cases hx
  | beat _ ih => exact ih hx
  | reset _ _ hgid _ =>
    cases hx
    exact hgid
  | idle _ _ => cases hx
  | piece _ _ ih =>
    cases hx
    exact ih rfl
  | done _ ih =>
    cases hx
    exact ih rfl

/-- The boxes show what was told, whenever the timer fires. -/
theorem shows_told {sent : List Sent} {x : Option (String × Bool)} (ht : Told sent x) :
    ∀ events, streamOf events = sent → Shows sent x (Panes.view events) := by
  induction ht with
  | nil =>
    intro events h
    refine shows_timeouts h ⟨?_, ?_⟩
    · intro _ _ hp
      cases hp
    · intro _ _ hx
      cases hx
  | beat _ ih =>
    refine shows_next ih fun s H => ⟨H.untagged, fun gid done hx => ?_⟩
    rw [textOf_append]
    exact H.boxed gid done hx
  | @reset sent x gid replay _ hgid ih =>
    refine shows_next ih fun s H => Boxed.shows ?_ (textOf_append _ _)
    have hframe : s.on (.sent (.data
        { generationId := some gid, text := replay, reset := true })) =
        { panes := Function.update (fun k => (s.panes k).filter (·.modelTag.isSome)) gid (some
            { paneKey := gid, generationId := gid, modelTag := none, text := replay
              done := false })
          idleTimer := false } := by
      simp [Panes.on, Panes.onFrame, hgid]
    rw [hframe]
    refine boxed_update fun k _ => ?_
    cases hp : s.panes k with
    | none => rfl
    | some p => simp [H.untagged k p hp]
  | idle _ ih =>
    refine shows_next ih fun s H => ⟨H.untagged, fun gid done hx => ?_⟩
    cases hx
  | @piece sent gid piece ht ih =>
    refine shows_next ih fun s H => Boxed.shows ?_ (textOf_append _ _)
    exact (H.boxed gid false rfl).onFrame ht.gid_ne piece false
  | @done sent gid ht ih =>
    refine shows_next ih fun s H => Boxed.shows ?_ (textOf_append _ _)
    exact (H.boxed gid false rfl).onFrame ht.gid_ne [] true

/-- With one resident the dashboard has one box while its handler has a queue: the
text of the generation it follows, up to what the queue still holds, and done exactly
once the handler has said so. -/
theorem pane_shows_generation (T : Codec) (maxKeys : Int) (tailBytes : Nat) (ticks : List Tick)
    (hs : SingleResidency ticks) (i q : Nat) (events : List PaneEvent) :
    let m := Monitor.run T maxKeys tailBytes ticks
    (m.handlers i).q = some q → streamOf events = (m.handlers i).sent →
    ∃ gid pane, (m.handlers i).cur = some gid ∧ (Panes.view events).panes gid = some pane ∧
      (∀ k, k ≠ gid → (Panes.view events).panes k = none) ∧
      (pane.done = true ↔ (m.handlers i).point = .finishing) ∧
      ((m.output.queues q).overflows = 0 →
        pane.text ++ (m.output.queues q).pending <:+ (m.output.appendedTo gid).flatten ∧
        ∃ buf, m.output.buf? gid = some buf ∧
          buf.tail <:+ pane.text ++ (m.output.queues q).pending) := by
  intro m hq hsent
  obtain ⟨x, ht, hlink⟩ := (tells_run T maxKeys tailBytes hs).2 i
  obtain ⟨gid, hcur, rfl⟩ := hlink q hq
  have hbox := (shows_told ht events hsent).boxed gid _ rfl
  obtain ⟨gid', buf, hcur', hbuf, -, htext⟩ :=
    (Monitor.sane_run T maxKeys tailBytes ticks).sent_pending hq
  obtain rfl : gid = gid' := Option.some.inj (hcur.symm.trans hcur')
  refine ⟨gid, _, hcur, hbox.box, hbox.alone, decide_eq_true_iff, fun hroom => ?_⟩
  exact ⟨(htext hroom).2, buf, hbuf, (htext hroom).1⟩

theorem single_firstFrame : SingleResidency Monitor.firstFrame := by
  intro a ha
  simp only [Monitor.firstFrame, List.mem_cons, List.not_mem_nil, or_false, reduceCtorEq,
    Tick.publish.injEq] at ha
  rw [ha]
  rfl

theorem pane_shows_first_frame :
    ∃ gid pane,
      ((Monitor.run asciiCodec 8 16384 Monitor.firstFrame).handlers 0).cur = some gid ∧
      (Panes.view (((Monitor.run asciiCodec 8 16384 Monitor.firstFrame).handlers 0).sent.map
        .sent)).panes gid = some pane := by
  have hq : ((Monitor.run asciiCodec 8 16384 Monitor.firstFrame).handlers 0).q = some 0 := by
    decide +kernel
  have hsent : streamOf (((Monitor.run asciiCodec 8 16384 Monitor.firstFrame).handlers 0).sent.map
      .sent) = ((Monitor.run asciiCodec 8 16384 Monitor.firstFrame).handlers 0).sent := by
    decide +kernel
  obtain ⟨gid, pane, hcur, hpane, -⟩ := pane_shows_generation asciiCodec 8 16384 Monitor.firstFrame
    single_firstFrame 0 0 _ hq hsent
  exact ⟨gid, pane, hcur, hpane⟩

end Turbohaul.LiveMonitor
