/-
# What the viewers of live output show

A handler and the tee meet in a queue: the tee appends, the handler reads and
yields.  What a viewer shows, and then what its queue still holds, is the replay it
began with and every piece since.  Nothing of another generation comes in between,
whatever the anchors do meanwhile.

  `Truthful`      a buffer's tail is the end of what was appended
  `Onward`        what the calls of others leave of a queue
  `Feeds`         a queue goes on from its replay
  `Subscribed`    a queue is in the subscribers of a generation
  `Watching`      a viewer shows what its handler has read
  `Sane`          the invariant of the monitor
  `sane_step`     every step keeps it
  `Departed`      a handler that has ended holds no queue
  `viewer_shows_generation`, `tee_served_within_viewers`
-/
import Turbohaul.LiveStream
import Turbohaul.LiveText
import Mathlib.Data.List.Perm.Subperm

namespace Turbohaul.LiveMonitor

namespace LiveOutput

variable {T : Codec} {b b' b'' : LiveOutput} {gid : String} {q : Nat}

/-! ## The tail -/

/-- Every tail is the end of what was appended to its generation. -/
def Truthful (b : LiveOutput) : Prop :=
  ∀ gid buf, b.buf? gid = some buf → buf.tail <:+ (b.appendedTo gid).flatten

/-- Appending keeps the end of the tail. -/
theorem tail_appendAll (pieces : List Text) {t : Text} {carry : Bytes}
    (h : b.text? gid = some (t, carry)) :
    ∃ t', (b.appendAll gid pieces).text? gid = some (t', carry) ∧ t' <:+ t ++ pieces.flatten := by
  induction pieces generalizing b t with
  | nil => exact ⟨t, h, by simp⟩
  | cons piece pieces ih =>
    have h1 : (b.append gid piece).text? gid =
        some (lastChars b.tailBytes (t ++ piece), carry) := by
      rw [text?_append, h]
      rfl
    obtain ⟨t', ht, hs⟩ := ih h1
    refine ⟨t', ht, hs.trans ?_⟩
    rw [List.flatten_cons, ← List.append_assoc]
    exact List.suffix_append_self_iff.mpr (lastChars_suffix _ _)

/-- What a chunk appends, and the tail after it. -/
theorem feed_text (T : Codec) (H : Sound b) (gid : String) (bytes : Bytes) :
    ∃ pieces, (b.feed T gid bytes).1.appendedTo gid = b.appendedTo gid ++ pieces ∧
      ∀ buf, (b.feed T gid bytes).1.buf? gid = some buf →
        buf.tail <:+ ((b.text? gid).getD ([], [])).1 ++ pieces.flatten := by
  rcases get_cases H gid true with ⟨b', heq, hgot, -⟩ | ⟨h, -, -⟩ | ⟨-, hn, -, heq⟩
  · obtain ⟨buf, hb, -⟩ := hgot.found
    have hi : Idle gid b b' := hgot.idle
    have htext : b'.text? gid = some (buf.tail, buf.carry) := by rw [text?, hb]; rfl
    rw [feed, heq]
    dsimp only
    generalize ((b'.buf? gid).map (·.carry)).getD [] ++ bytes = carry
    rw [frameLoop_eq T gid (Nat.le_refl _), ← hi.text _ htext]
    obtain ⟨t', ht, hs⟩ := tail_appendAll (piecesOf T carry) htext
    refine ⟨piecesOf T carry, ?_, fun buf' hb' => ?_⟩
    · show (b'.appendAll gid _).appendedTo gid = _
      rw [appendedTo_appendAll, hi.appended]
    · rw [buf?_setBuf_self] at hb'
      obtain ⟨buf₀, hb₀, rfl⟩ := Option.map_eq_some_iff.mp hb'
      rw [text?, hb₀, Option.map_some, Option.some.injEq, Prod.mk.injEq] at ht
      show buf₀.tail <:+ _
      rw [ht.1]
      exact hs
  · cases h
  · rw [feed, heq]
    refine ⟨[], (List.append_nil _).symm, fun buf hb => ?_⟩
    rw [hn] at hb
    cases hb

theorem truthful_exec (T : Codec) (H : Sound b) (hb : Truthful b) (c : Call) :
    Truthful (b.exec T c).1 := by
  intro gid buf hbuf
  have hold : ((b.text? gid).getD ([], [])).1 <:+ (b.appendedTo gid).flatten := by
    cases h : b.buf? gid with
    | none => rw [text?, h]; exact List.nil_suffix
    | some buf₀ => rw [text?, h]; exact hb gid buf₀ h
  by_cases hc : ∃ bytes, c = .feed gid bytes
  · obtain ⟨bytes, rfl⟩ := hc
    obtain ⟨pieces, happ, htail⟩ := feed_text T H gid bytes
    show buf.tail <:+ ((b.feed T gid bytes).1.appendedTo gid).flatten
    rw [happ, List.flatten_append]
    exact (htail buf hbuf).trans (List.suffix_append_self_iff.mpr hold)
  · have hi := idle_exec T H fun bytes (h : _ = Call.feed gid bytes) => hc ⟨bytes, h⟩
    have hx := hi.text (buf.tail, buf.carry) (by rw [text?, hbuf]; rfl)
    rw [hi.appended]
    rw [← hx] at hold
    exact hold

/-! ## A queue, while others call -/

/-- It has accepted more, and was read no further. -/
structure Onward (q : Nat) (b b' : LiveOutput) : Prop where
  accepted : (b.queues q).accepted <+: (b'.queues q).accepted
  taken : (b'.queues q).taken = (b.queues q).taken
  overflows : (b.queues q).overflows ≤ (b'.queues q).overflows

theorem Onward.of_eq (h : b'.queues q = b.queues q) : Onward q b b' := by
  refine ⟨?_, ?_, ?_⟩
  · rewrite [h]
    exact List.prefix_refl _
  · rw [h]
  · rewrite [h]
    exact Nat.le_refl _

theorem Onward.trans (h : Onward q b b') (h' : Onward q b' b'') : Onward q b b'' :=
  ⟨h.accepted.trans h'.accepted, h'.taken.trans h.taken, Nat.le_trans h.overflows h'.overflows⟩

theorem onward_putAll (subs : List Nat) (x : Option Text) : Onward q b (b.putAll subs x) := by
  have hq : (b.putAll subs x).queues q =
      if q ∈ subs then (b.queues q).put x else b.queues q := rfl
  split at hq
  · have hput : (b.queues q).accepted <+: ((b.queues q).put x).accepted ∧
        ((b.queues q).put x).taken = (b.queues q).taken ∧
        (b.queues q).overflows ≤ ((b.queues q).put x).overflows := by
      unfold SubQueue.put
      split
      · exact ⟨List.prefix_refl _, rfl, Nat.le_succ _⟩
      · exact ⟨List.prefix_append _ _, rfl, Nat.le_refl _⟩
    exact ⟨hq ▸ hput.1, hq ▸ hput.2.1, hq ▸ hput.2.2⟩
  · exact .of_eq hq

theorem onward_append (g : String) (piece : Text) : Onward q b (b.append g piece) := by
  have h : Onward q b ((b.setBuf g fun buf =>
      { buf with tail := lastChars b.tailBytes (buf.tail ++ piece) }).putAll
        (((b.buf? g).map (·.subs)).getD []) (some piece)) :=
    Onward.trans (show Onward q b (b.setBuf g _) from .of_eq rfl) (onward_putAll _ _)
  exact ⟨h.accepted, h.taken, h.overflows⟩

theorem onward_frameLoop (T : Codec) (g : String) (fuel : Nat) (carry : Bytes) :
    Onward q b (frameLoop T g fuel carry b).2 := by
  induction fuel generalizing carry b with
  | zero => exact .of_eq rfl
  | succ fuel ih =>
    rw [frameLoop]
    split
    · exact .of_eq rfl
    · split
      · exact ih _
      · exact (onward_append g _).trans (ih _)

theorem Got.onward {g : String} (h : Got b g b') : Onward q b b' := .of_eq (by rw [h.only])

theorem onward_exec (T : Codec) (H : Sound b) (hq : q < b.queueCount) {c : Call}
    (hc : c ≠ .take q) : Onward q b (b.exec T c).1 := by
  cases c with
  | feed g bytes =>
    show Onward q b (b.feed T g bytes).1
    rcases get_cases H g true with ⟨b', heq, hgot, -⟩ | ⟨h, -, -⟩ | ⟨-, -, -, heq⟩
    · rw [feed, heq]
      exact hgot.onward.trans ((onward_frameLoop T g _ _).trans (.of_eq rfl))
    · cases h
    · rw [feed, heq]
      exact .of_eq rfl
  | subscribe g create =>
    show Onward q b (b.subscribe g create).1
    rcases get_cases H g create with ⟨b', heq, hgot, -⟩ | ⟨-, hn, heq⟩ | ⟨-, -, -, heq⟩
    · obtain ⟨buf, hb, -⟩ := hgot.found
      simp only [subscribe, heq, hb]
      split
      · exact hgot.onward
      · have hne : q ≠ b'.queueCount := by
          rw [hgot.only]
          exact Nat.ne_of_lt hq
        exact hgot.onward.trans (.of_eq (if_neg hne))
    · simp only [subscribe, heq, hn]
      exact .of_eq rfl
    · simp only [subscribe, heq]
      exact .of_eq rfl
  | unsubscribe g q' =>
    show Onward q b (b.unsubscribe g q')
    rw [unsubscribe]
    split
    · exact .of_eq rfl
    · dsimp only
      split
      · exact .of_eq rfl
      · exact .of_eq rfl
  | markDone g =>
    show Onward q b (b.markDone g)
    rw [markDone]
    split
    · exact .of_eq rfl
    · exact Onward.trans (show Onward q b (b.setBuf g _) from .of_eq rfl) (onward_putAll _ _)
  | take q' =>
    have hne : q ≠ q' := by
      rintro rfl
      exact hc rfl
    exact .of_eq (if_neg hne)

/-! ## From the replay on -/

/-- A queue follows a generation from its replay on; while it never was full, it has
the whole tail. -/
structure Feeds (gid : String) (q : Nat) (before : List Text) (replay : Text) (b : LiveOutput) :
    Prop extends Follows gid q before b where
  replayed : replay <:+ before.flatten
  read : (b.queues q).taken ≤ (b.queues q).accepted.length
  tail : (b.queues q).overflows = 0 → ∀ buf, b.buf? gid = some buf →
    buf.tail <:+ replay ++ ((b.queues q).accepted.filterMap id).flatten

section

variable {before : List Text} {replay : Text}

theorem Feeds.exec (T : Codec) (H : Sound b) (F : Feeds gid q before replay b) {c : Call}
    (hc : c ≠ .unsubscribe gid q) (ht : c ≠ .take q) :
    Feeds gid q before replay (b.exec T c).1 := by
  have F' := F.toFollows.exec T H hc
  have hon := onward_exec T H F.made ht
  refine ⟨F', F.replayed, ?_, fun hroom buf hbuf => ?_⟩
  · rw [hon.taken]
    exact Nat.le_trans F.read hon.accepted.length_le
  have hroom₀ : (b.queues q).overflows = 0 := Nat.le_zero.mp (hroom ▸ hon.overflows)
  obtain ⟨buf₀, hbuf₀, -⟩ := F.joined
  have htail := F.tail hroom₀ buf₀ hbuf₀
  have hnow := F'.received hroom
  by_cases hfeed : ∃ bytes, c = .feed gid bytes
  · obtain ⟨bytes, rfl⟩ := hfeed
    obtain ⟨pieces, happ, hnew⟩ := feed_text T H gid bytes
    have hacc : ((b.feed T gid bytes).1.queues q).accepted.filterMap id =
        (b.queues q).accepted.filterMap id ++ pieces := by
      refine (List.append_right_inj before).mp ?_
      rw [← List.append_assoc, ← F.received hroom₀, ← happ]
      exact hnow.symm
    show buf.tail <:+ replay ++ (((b.feed T gid bytes).1.queues q).accepted.filterMap id).flatten
    have hlast := hnew buf hbuf
    rw [text?, hbuf₀] at hlast
    rw [hacc, List.flatten_append, ← List.append_assoc]
    exact hlast.trans (List.suffix_append_self_iff.mpr htail)
  · have hi := idle_exec T H fun bytes (h : _ = Call.feed gid bytes) => hfeed ⟨bytes, h⟩
    have hacc : ((b.exec T c).1.queues q).accepted.filterMap id =
        (b.queues q).accepted.filterMap id := by
      refine (List.append_right_inj before).mp ?_
      rw [← F.received hroom₀, ← hi.appended]
      exact hnow.symm
    have hx := hi.text (buf.tail, buf.carry) (by rw [text?, hbuf]; rfl)
    rw [text?, hbuf₀] at hx
    rw [hacc, show buf.tail = buf₀.tail from congrArg Prod.fst hx]
    exact htail

/-- Its handler reads an item. -/
theorem Feeds.take (T : Codec) (H : Sound b) (F : Feeds gid q before replay b) {x : Option Text}
    (hx : (b.queues q).next? = some x) :
    Feeds gid q before replay (b.take q) ∧
      ((b.take q).queues q).accepted.take ((b.take q).queues q).taken =
        (b.queues q).accepted.take (b.queues q).taken ++ [x] := by
  obtain ⟨hlt, hget⟩ := List.getElem?_eq_some_iff.mp hx
  have hq : (b.take q).queues q = { b.queues q with taken := (b.queues q).taken + 1 } := by
    show (if q = q then { b.queues q with
      taken := min ((b.queues q).taken + 1) (b.queues q).accepted.length } else _) = _
    rw [if_pos rfl, Nat.min_eq_left hlt]
  refine ⟨⟨F.toFollows.exec T H (c := .take q) (by rintro ⟨⟩), F.replayed, ?_, ?_⟩, ?_⟩
  · rw [hq]
    exact hlt
  · rw [hq]
    exact F.tail
  · rw [hq, ← hget]
    exact List.take_succ_eq_append_getElem hlt

end

/-! ## Who is subscribed -/

/-- A queue is in the subscribers of a generation. -/
def Subscribed (b : LiveOutput) (gid : String) (q : Nat) : Prop :=
  ∃ buf, b.buf? gid = some buf ∧ q ∈ buf.subs

theorem Alike.subscribed (h : Alike b b') (hs : Subscribed b' gid q) : Subscribed b gid q := by
  obtain ⟨buf', hb', hq⟩ := hs
  obtain ⟨buf, hb, heq⟩ := subs_of_map h.subs hb'
  exact ⟨buf, hb, heq ▸ hq⟩

theorem Got.subscribed {g : String} (h : Got b g b') (hs : Subscribed b' gid q) :
    Subscribed b gid q := by
  obtain ⟨buf', hb', hq⟩ := hs
  by_cases hg : gid = g
  · subst hg
    obtain ⟨buf, hb, hold | ⟨-, rfl⟩⟩ := h.found
    · rw [hb', Option.some.injEq] at hb
      exact ⟨buf', hb ▸ hold, hq⟩
    · rw [hb', Option.some.injEq] at hb
      rw [hb] at hq
      cases hq
  · exact ⟨buf', h.known gid buf' hg hb', hq⟩

/-- Subscribers come by `subscribe`, and go by `unsubscribe`. -/
theorem subscribed_exec (T : Codec) (H : Sound b) {c : Call}
    (hs : Subscribed (b.exec T c).1 gid q) :
    (Subscribed b gid q ∧ c ≠ .unsubscribe gid q) ∨
      ∃ create replay done0, c = .subscribe gid create ∧
        (b.subscribe gid create).2 = .ok (some q, replay, done0) := by
  cases c with
  | feed g bytes =>
    refine .inl ⟨?_, by intro h; cases h⟩
    change Subscribed (b.feed T g bytes).1 gid q at hs
    rcases get_cases H g true with ⟨b', heq, hgot, -⟩ | ⟨h, -, -⟩ | ⟨-, -, -, heq⟩
    · rw [feed, heq] at hs
      refine hgot.subscribed (Alike.subscribed ?_ hs)
      exact (alike_frameLoop T g _ _).trans (alike_setBuf g fun _ => rfl)
    · cases h
    · rw [feed, heq] at hs
      exact hs
  | subscribe g create =>
    change Subscribed (b.subscribe g create).1 gid q at hs
    rcases get_cases H g create with ⟨b', heq, hgot, -⟩ | ⟨-, hn, heq⟩ | ⟨-, -, -, heq⟩
    · obtain ⟨buf, hb, -⟩ := hgot.found
      by_cases hfull : maxSubsPerGen ≤ buf.subs.length
      · simp only [subscribe, heq, hb, if_pos hfull] at hs
        exact .inl ⟨hgot.subscribed hs, by intro h; cases h⟩
      · have hsub : b.subscribe g create = ({ b'.setBuf g fun buf =>
              { buf with subs := b'.queueCount :: buf.subs } with
            queues := fun q' => if q' = b'.queueCount then {} else b'.queues q'
            queueCount := b'.queueCount + 1 }, .ok (some b'.queueCount, buf.tail, buf.done)) := by
          simp only [subscribe, heq, hb, if_neg hfull]
        rw [hsub] at hs
        obtain ⟨buf', hb', hq⟩ := hs
        have hb'' : (b'.setBuf g fun buf =>
            { buf with subs := b'.queueCount :: buf.subs }).buf? gid = some buf' := hb'
        rcases buf?_setBuf_cases hb'' with ⟨rfl, buf₀, hb₀, rfl⟩ | ⟨-, hb₀⟩
        · rcases List.mem_cons.mp hq with rfl | hq
          · exact .inr ⟨create, _, _, rfl, congrArg Prod.snd hsub⟩
          · exact .inl ⟨hgot.subscribed ⟨buf₀, hb₀, hq⟩, by intro h; cases h⟩
        · exact .inl ⟨hgot.subscribed ⟨buf', hb₀, hq⟩, by intro h; cases h⟩
    · simp only [subscribe, heq, hn] at hs
      exact .inl ⟨hs, by intro h; cases h⟩
    · simp only [subscribe, heq] at hs
      exact .inl ⟨hs, by intro h; cases h⟩
  | unsubscribe g q' =>
    change Subscribed (b.unsubscribe g q') gid q at hs
    refine .inl ?_
    rw [unsubscribe] at hs
    split at hs
    · rename_i hnone
      refine ⟨hs, ?_⟩
      rintro h
      cases h
      obtain ⟨buf, hb, -⟩ := hs
      rw [hnone] at hb
      cases hb
    · rename_i buf hb
      dsimp only at hs
      split at hs
      · obtain ⟨buf', hb', hq⟩ := hs
        have hne : gid ≠ g := by
          rintro rfl
          rw [show buf? _ gid = Lru.get? (Lru.erase b.buffers gid) gid from rfl,
            Lru.get?_erase_self] at hb'
          cases hb'
        refine ⟨⟨buf', (Lru.get?_erase_of_ne b.buffers hne).symm.trans hb', hq⟩, ?_⟩
        intro h
        cases h
        exact hne rfl
      · obtain ⟨buf', hb', hq⟩ := hs
        rcases buf?_setBuf_cases hb' with ⟨rfl, buf₀, hb₀, rfl⟩ | ⟨hne, hb₀⟩
        · obtain ⟨hmem, hkeep⟩ := List.mem_filter.mp hq
          refine ⟨⟨buf, hb, hmem⟩, ?_⟩
          intro h
          cases h
          simp at hkeep
        · refine ⟨⟨buf', hb₀, hq⟩, ?_⟩
          intro h
          cases h
          exact hne rfl
  | markDone g =>
    exact .inl ⟨(alike_markDone g).subscribed hs, by intro h; cases h⟩
  | take q' => exact .inl ⟨hs, by intro h; cases h⟩

/-- A new queue is empty, and was not there before. -/
theorem queues_subscribe {create : Bool} {replay : Text} {done0 : Bool} (H : Sound b)
    (h : (b.subscribe gid create).2 = .ok (some q, replay, done0)) :
    q = b.queueCount ∧ (b.subscribe gid create).1.queues q = {} := by
  rcases get_cases H gid create with ⟨b', heq, hgot, -⟩ | ⟨-, hn, heq⟩ | ⟨-, -, -, heq⟩
  · obtain ⟨buf, hb, -⟩ := hgot.found
    simp only [subscribe, heq, hb] at h ⊢
    split at h
    · cases h
    · rename_i hfull
      rw [if_neg hfull]
      cases h
      refine ⟨?_, if_pos rfl⟩
      rw [hgot.only]
  · simp only [subscribe, heq, hn] at h
    cases h
  · simp only [subscribe, heq] at h
    cases h

end LiveOutput

open LiveOutput

/-! ## One viewer -/

/-- What was read of a queue. -/
def SubQueue.readText (q : SubQueue) : Text := ((q.accepted.take q.taken).filterMap id).flatten

theorem SubQueue.read_pending (q : SubQueue) :
    q.readText ++ q.pending = (q.accepted.filterMap id).flatten := by
  rw [readText, pending, ← List.flatten_append, ← List.filterMap_append, List.take_append_drop]

/-- A viewer with a queue shows its replay and what was read since. -/
def Watching (b : LiveOutput) (h : Handler) : Prop :=
  ∀ q, h.q = some q → ∃ gid before replay, h.cur = some gid ∧ Feeds gid q before replay b ∧
    textOf h.sent = replay ++ (b.queues q).readText

/-- A call that is its handler's own. -/
def Call.IsOf (q : Nat) : Call → Prop
  | .unsubscribe _ q' | .take q' => q' = q
  | _ => False

variable {T : Codec} {b : LiveOutput} {h h' : Handler}

theorem watching_none (hq : h.q = none) : Watching b h := by
  intro q hs
  rw [hq] at hs
  cases hs

theorem Watching.still (W : Watching b h) (hq : h'.q = h.q) (hcur : h'.cur = h.cur)
    (hsent : textOf h'.sent = textOf h.sent) : Watching b h' := by
  intro q hs
  obtain ⟨gid, before, replay, hc, F, ht⟩ := W q (hq ▸ hs)
  exact ⟨gid, before, replay, hcur.trans hc, F, hsent.trans ht⟩

/-- The calls of others leave a viewer what it shows. -/
theorem Watching.exec (T : Codec) (H : Sound b) (W : Watching b h) {c : Call}
    (hc : ∀ q, h.q = some q → ¬ c.IsOf q) : Watching (b.exec T c).1 h := by
  intro q hq
  obtain ⟨gid, before, replay, hcur, F, ht⟩ := W q hq
  have hun : c ≠ .unsubscribe gid q := by
    rintro rfl
    exact hc q hq rfl
  have htake : c ≠ .take q := by
    rintro rfl
    exact hc q hq rfl
  refine ⟨gid, before, replay, hcur, F.exec T H hun htake, ?_⟩
  have hon := onward_exec T H F.made htake
  obtain ⟨more, hmore⟩ := hon.accepted
  rw [ht, SubQueue.readText, SubQueue.readText, hon.taken, ← hmore,
    List.take_append_of_le_length F.read]

theorem textOf_append (sent : List Sent) (x : Sent) :
    textOf (sent ++ [x]) = x.onto (textOf sent) :=
  List.foldl_append

/-- A viewer that has left its queue. -/
theorem Watching.dropped (W : Watching b h) : (h.drop b).2.q = none := by
  cases hq : h.q with
  | none => simp only [Handler.drop, hq]
  | some q =>
    obtain ⟨gid, -, -, hcur, -⟩ := W q hq
    simp only [Handler.drop, hq, hcur]

/-! ## The monitor -/

namespace Monitor

variable {m : Monitor} {n : Int} {i : Nat}

/-- The buffers are as they should be, each viewer shows what it has read, no two
share a queue, and every subscribed queue has its viewer. -/
structure Sane (n : Int) (m : Monitor) : Prop where
  bound : m.output.maxKeys = n
  sound : Sound m.output
  numbered : Numbered m.output
  truthful : Truthful m.output
  watching : ∀ i, Watching m.output (m.handlers i)
  apart : ∀ i j q, (m.handlers i).q = some q → (m.handlers j).q = some q → i = j
  owned : ∀ g q, Subscribed m.output g q →
    ∃ i, (m.handlers i).q = some q ∧ (m.handlers i).cur = some g
  unopened : ∀ i, m.count ≤ i → m.handlers i = { point := .closed }

theorem put_put (r r' : LiveOutput × Handler) : (m.put i r).put i r' = m.put i r' := by
  simp [put]

theorem put_self : m.put i (m.output, m.handlers i) = m := by
  simp [put]

theorem handlers_put_self (r : LiveOutput × Handler) : (m.put i r).handlers i = r.2 := by
  simp [put]

theorem handlers_put_of_ne {j : Nat} (hj : j ≠ i) (r : LiveOutput × Handler) :
    (m.put i r).handlers j = m.handlers j := by
  simp [put, hj]

/-- The buffers are still as they should be, with nothing changed for the other
viewers, and the handler has no queue of theirs and all subscribed ones that are not. -/
theorem Sane.put (S : Sane n m) (hi : i < m.count) {b : LiveOutput} (hbound : b.maxKeys = n)
    (hs : Sound b) (hn : Numbered b) (ht : Truthful b)
    (hothers : ∀ j, j ≠ i → Watching b (m.handlers j)) (hw : Watching b h')
    (hfree : ∀ j, j ≠ i → ∀ q, (m.handlers j).q = some q → h'.q ≠ some q)
    (hown : ∀ g q, Subscribed b g q → (∃ j, j ≠ i ∧ (m.handlers j).q = some q ∧
      (m.handlers j).cur = some g) ∨ (h'.q = some q ∧ h'.cur = some g)) :
    Sane n (m.put i (b, h')) := by
  have hat : (m.put i (b, h')).handlers i = h' := handlers_put_self _
  have hof : ∀ j, j ≠ i → (m.put i (b, h')).handlers j = m.handlers j := by
    intro j hj
    exact handlers_put_of_ne hj _
  refine ⟨hbound, hs, hn, ht, ?_, ?_, ?_, ?_⟩
  · intro j
    by_cases hj : j = i
    · rw [hj, hat]
      exact hw
    · rw [hof j hj]
      exact hothers j hj
  · intro j k q hq hq'
    by_cases hj : j = i
    · by_cases hk : k = i
      · rw [hj, hk]
      · rw [hj, hat] at hq
        rw [hof k hk] at hq'
        exact absurd hq (hfree k hk q hq')
    · by_cases hk : k = i
      · rw [hk, hat] at hq'
        rw [hof j hj] at hq
        exact absurd hq' (hfree j hj q hq)
      · rw [hof j hj] at hq
        rw [hof k hk] at hq'
        exact S.apart j k q hq hq'
  · intro g q hsub
    rcases hown g q hsub with ⟨j, hj, hq, hcur⟩ | hmine
    · exact ⟨j, by rw [hof j hj]; exact ⟨hq, hcur⟩⟩
    · exact ⟨i, by rw [hat]; exact hmine⟩
  · intro j hj
    have hne : j ≠ i := Nat.ne_of_gt (Nat.lt_of_lt_of_le hi hj)
    rw [hof j hne]
    exact S.unopened j hj

/-- A handler makes a call of its own, and goes on as `h'`. -/
theorem Sane.call (S : Sane n m) (hi : i < m.count) (T : Codec) {c : Call}
    (hc : ∀ q, c.IsOf q → (m.handlers i).q = some q) (hw : Watching (m.output.exec T c).1 h')
    (hnew : ∀ q, h'.q = some q → (m.handlers i).q = some q ∨ m.output.queueCount ≤ q)
    (hown : ∀ g q, Subscribed (m.output.exec T c).1 g q →
      (Subscribed m.output g q ∧ ((m.handlers i).q = some q → (m.handlers i).cur ≠ some g)) ∨
        (h'.q = some q ∧ h'.cur = some g)) :
    Sane n (m.put i ((m.output.exec T c).1, h')) := by
  have hkeep := spares_exec T S.sound c
  refine S.put hi (hkeep.maxKeys.trans S.bound) hkeep.sound (numbered_exec T S.sound S.numbered c)
    (truthful_exec T S.sound S.truthful c) ?_ hw ?_ ?_
  · intro j hj
    refine (S.watching j).exec T S.sound fun q hq hof => ?_
    exact hj (S.apart j i q hq (hc q hof))
  · intro j hj q hq hq'
    rcases hnew q hq' with hold | hle
    · exact hj (S.apart j i q hq hold)
    · obtain ⟨gid, before, replay, -, F, -⟩ := S.watching j q hq
      exact absurd F.made (Nat.not_lt.mpr hle)
  · intro g q hs
    rcases hown g q hs with ⟨hold, hne⟩ | hmine
    · obtain ⟨j, hq, hcur⟩ := S.owned g q hold
      refine .inl ⟨j, ?_, hq, hcur⟩
      rintro rfl
      exact hne hq hcur
    · exact .inr hmine

/-- A handler makes no call: it keeps its queue, or has none. -/
theorem Sane.stay (S : Sane n m) (hi : i < m.count) (hw : Watching m.output h')
    (hq : h'.q = (m.handlers i).q)
    (hcur : (m.handlers i).q.isSome → h'.cur = (m.handlers i).cur) :
    Sane n (m.put i (m.output, h')) := by
  refine S.put hi S.bound S.sound S.numbered S.truthful (fun j _ => S.watching j) hw ?_ ?_
  · intro j hj q hqj hq'
    exact hj (S.apart j i q hqj (hq ▸ hq'))
  · intro g q hs
    obtain ⟨j, hqj, hcj⟩ := S.owned g q hs
    by_cases hj : j = i
    · subst hj
      exact .inr ⟨hq.trans hqj, (hcur (by rw [hqj]; rfl)).trans hcj⟩
    · exact .inl ⟨j, hj, hqj, hcj⟩

/-- It yields a heartbeat, or waits. -/
theorem Sane.still (S : Sane n m) (hi : i < m.count) (hq : h'.q = (m.handlers i).q)
    (hcur : h'.cur = (m.handlers i).cur)
    (hsent : textOf h'.sent = textOf (m.handlers i).sent) : Sane n (m.put i (m.output, h')) :=
  S.stay hi ((S.watching i).still hq hcur hsent) hq fun _ => hcur

/-- It leaves its queue. -/
theorem Sane.drop (S : Sane n m) (hi : i < m.count) :
    Sane n (m.put i ((m.handlers i).drop m.output)) := by
  cases hq : (m.handlers i).q with
  | none =>
    have hd : (m.handlers i).drop m.output = (m.output, m.handlers i) := by
      simp only [Handler.drop, hq]
    rw [hd, put_self]
    exact S
  | some q =>
    obtain ⟨gid, before, replay, hcur, F, -⟩ := S.watching i q hq
    have hd : (m.handlers i).drop m.output =
        ((m.output.exec ⟨fun _ => none, fun _ => [], .nans⟩ (.unsubscribe gid q)).1,
          { m.handlers i with q := none }) := by
      simp only [Handler.drop, hq, hcur]
      rfl
    rw [hd]
    refine S.call hi _ ?_ (watching_none rfl) ?_ ?_
    · intro q' hof
      rw [hq]
      exact congrArg some hof
    · intro q' hq'
      cases hq'
    · intro g q' hs
      rcases subscribed_exec _ S.sound hs with ⟨hold, hne⟩ | ⟨create, replay, done0, hc, -⟩
      · refine .inl ⟨hold, fun hq' hcur' => hne ?_⟩
        rw [hq, Option.some.injEq] at hq'
        rw [hcur, Option.some.injEq] at hcur'
        rw [hq', hcur']
      · cases hc

/-- It follows a generation. -/
theorem Sane.follow (S : Sane n m) (hi : i < m.count) (hq : (m.handlers i).q = none)
    (a : Anchors) (gid : String) :
    Sane n (m.put i ((m.handlers i).follow a gid m.output)) := by
  have hex : (m.output.exec blankCodec (.subscribe gid true)).1 =
      (m.output.subscribe gid true).1 := rfl
  have hof : ∀ q, (Call.subscribe gid true).IsOf q → (m.handlers i).q = some q := by
    intro q h
    exact h.elim
  cases hs : m.output.subscribe gid true with
  | mk b r =>
    have hb : b = (m.output.exec blankCodec (.subscribe gid true)).1 := by rw [hex, hs]
    cases r with
    | error e =>
      have hf : (m.handlers i).follow a gid m.output =
          (b, { m.handlers i with cur := some gid, point := .closed }) := by
        simp only [Handler.follow, hs, Handler.leave, Handler.drop, hq]
      rw [hf, hb]
      refine S.call hi _ hof (watching_none hq) ?_ ?_
      · intro q hq'
        exact .inl hq'
      · intro g q hsub
        rcases subscribed_exec _ S.sound hsub with ⟨hold, -⟩ | ⟨create, replay, done0, hc, hres⟩
        · refine .inl ⟨hold, fun hq' => ?_⟩
          rw [hq] at hq'
          cases hq'
        · cases hc
          rw [hs] at hres
          cases hres
    | ok r =>
      obtain ⟨q, replay, done0⟩ := r
      have hf : (m.handlers i).follow a gid m.output =
          (b, Handler.say
            { generationId := some gid, text := replay, reset := true, modelTag := a.tagFor gid }
            (.opened done0) { m.handlers i with cur := some gid, q := q }) := by
        simp only [Handler.follow, hs]
      rw [hf, hb]
      refine S.call hi _ hof ?_ ?_ ?_
      · intro q' hq'
        obtain rfl : q = some q' := hq'
        have hres : (m.output.subscribe gid true).2 = .ok (some q', replay, done0) := by rw [hs]
        obtain ⟨F, carry, htext⟩ := follows_subscribe S.sound S.numbered hres
        obtain ⟨-, hnew⟩ := queues_subscribe S.sound hres
        refine ⟨gid, _, replay, rfl, ⟨F, ?_, ?_, ?_⟩, ?_⟩
        · cases hbuf : m.output.buf? gid with
          | none =>
            rw [text?, hbuf] at htext
            cases htext
            exact List.nil_suffix
          | some buf =>
            rw [text?, hbuf] at htext
            cases htext
            exact S.truthful gid buf hbuf
        · rw [hex, hnew]
          exact Nat.le_refl _
        · intro _ buf hbuf
          have hi := idle_exec blankCodec S.sound
            (show ∀ bytes, Call.subscribe gid true ≠ .feed gid bytes by intro _ h; cases h)
          have hx := hi.text (buf.tail, buf.carry) (by rw [text?]; exact hbuf ▸ rfl)
          rw [htext] at hx
          rw [show buf.tail = replay from congrArg Prod.fst hx, hex, hnew]
          show replay <:+ replay ++ []
          rewrite [List.append_nil]
          exact List.suffix_refl _
        · rw [hex, hnew]
          show textOf (_ ++ [_]) = replay ++ []
          rw [textOf_append, List.append_nil]
          rfl
      · intro q' hq'
        obtain rfl : q = some q' := hq'
        have hres : (m.output.subscribe gid true).2 = .ok (some q', replay, done0) := by rw [hs]
        exact .inr (Nat.le_of_eq (queues_subscribe S.sound hres).1.symm)
      · intro g q' hsub
        rcases subscribed_exec _ S.sound hsub with ⟨hold, -⟩ | ⟨create, replay', done0', hc, hres⟩
        · refine .inl ⟨hold, fun hq' => ?_⟩
          rw [hq] at hq'
          cases hq'
        · cases hc
          rw [hs] at hres
          cases hres
          exact .inr ⟨rfl, rfl⟩

/-- It reads its queue. -/
theorem Sane.read (S : Sane n m) (hi : i < m.count) {q : Nat} (hq : (m.handlers i).q = some q)
    (a : Anchors) : Sane n (m.put i ((m.handlers i).read a q m.output)) := by
  obtain ⟨gid, before, replay, hcur, F, ht⟩ := S.watching i q hq
  have hown : ∀ x, (m.output.queues q).next? = some x → ∀ f point,
      (Sent.data f).onto (textOf (m.handlers i).sent) =
        textOf (m.handlers i).sent ++ ([x].filterMap id).flatten →
      Sane n (m.put i (m.output.take q, (m.handlers i).say f point)) := by
    intro x hx f point hsay
    obtain ⟨F', htake⟩ := F.take blankCodec S.sound hx
    refine S.call hi blankCodec (c := .take q) ?_ ?_ ?_ ?_
    · rintro q' rfl
      exact hq
    · intro q' hq'
      obtain rfl : q = q' := Option.some.inj (hq.symm.trans hq')
      have hread : ((m.output.take q).queues q).readText =
          (m.output.queues q).readText ++ ([x].filterMap id).flatten := by
        rw [SubQueue.readText, htake, List.filterMap_append, List.flatten_append]
        rfl
      refine ⟨gid, before, replay, hcur, F', ?_⟩
      show textOf (_ ++ [_]) = replay ++ ((m.output.take q).queues q).readText
      rw [textOf_append, hsay, ht, hread, List.append_assoc]
    · intro q' hq'
      exact .inl hq'
    · intro g q' hs
      obtain ⟨j, hqj, hcj⟩ := S.owned g q' hs
      by_cases hj : j = i
      · subst hj
        exact .inr ⟨hqj, hcj⟩
      · refine .inl ⟨hs, fun hq' => ?_⟩
        exact absurd (S.apart j i q' hqj hq') hj
  cases hx : (m.output.queues q).next? with
  | none =>
    have hr : (m.handlers i).read a q m.output = (m.output, m.handlers i) := by
      simp only [Handler.read, hx]
    rw [hr, put_self]
    exact S
  | some x =>
    cases x with
    | none =>
      have hr : (m.handlers i).read a q m.output = (m.output.take q, Handler.say
          { generationId := (m.handlers i).cur, done := true,
            modelTag := (m.handlers i).cur.bind a.tagFor } .finishing (m.handlers i)) := by
        simp only [Handler.read, hx]
      rw [hr]
      exact hown none hx _ _ rfl
    | some piece =>
      have hr : (m.handlers i).read a q m.output = (m.output.take q, Handler.say
          { generationId := (m.handlers i).cur, text := piece,
            modelTag := (m.handlers i).cur.bind a.tagFor } .passed (m.handlers i)) := by
        simp only [Handler.read, hx]
      rw [hr]
      refine hown (some piece) hx _ _ ?_
      show _ ++ piece = _ ++ ([piece].flatten)
      rw [List.flatten_cons, List.flatten_nil, List.append_nil]

/-- After a drop it goes on in some way that keeps the invariant. -/
theorem Sane.dropped (S : Sane n m) (hi : i < m.count)
    (k : LiveOutput → Handler → LiveOutput × Handler)
    (hk : ∀ m' : Monitor, Sane n m' → i < m'.count → (m'.handlers i).q = none →
      Sane n (m'.put i (k m'.output (m'.handlers i)))) :
    Sane n (m.put i (k ((m.handlers i).drop m.output).1 ((m.handlers i).drop m.output).2)) := by
  have hd := S.drop hi
  have h := hk _ hd hi (by rw [handlers_put_self]; exact (S.watching i).dropped)
  rw [handlers_put_self, put_put] at h
  exact h

theorem Sane.turn (S : Sane n m) (hi : i < m.count) :
    Sane n (m.put i ((m.handlers i).turn m.anchors m.output)) := by
  have hrest : ∀ anchor, Sane n (m.put i (((m.handlers i).drop m.output).1,
      ((m.handlers i).drop m.output).2.rest anchor)) := by
    intro anchor
    refine S.dropped hi (fun b h => (b, h.rest anchor)) fun m' S' hi' hq => ?_
    refine S'.stay hi' (watching_none hq) rfl fun hs => ?_
    rw [hq] at hs
    cases hs
  unfold Handler.turn
  dsimp only
  split
  · exact S.still hi rfl rfl rfl
  · split
    · split
      · exact S.dropped hi (fun b h => h.follow m.anchors _ b) fun m' S' hi' hq =>
          S'.follow hi' hq m.anchors _
      · exact hrest _
    · exact hrest _

theorem Sane.resume (S : Sane n m) (hi : i < m.count) (timeout : Bool) :
    Sane n (m.put i ((m.handlers i).resume m.anchors timeout m.output)) := by
  have hsay : ∀ h' : Handler, h'.q = (m.handlers i).q → h'.cur = (m.handlers i).cur →
      textOf h'.sent = textOf (m.handlers i).sent → Sane n (m.put i (m.output, h')) := by
    intro h' hq hcur hsent
    exact S.still hi hq hcur hsent
  have hbeat : Sane n (m.put i (m.output, (m.handlers i).beat)) :=
    hsay _ rfl rfl (textOf_append _ _)
  have hstop : ∀ point, Sane n (m.put i (((m.handlers i).drop m.output).1,
      { ((m.handlers i).drop m.output).2 with point })) := by
    intro point
    refine S.dropped hi (fun b h => (b, { h with point })) fun m' S' hi' _ => ?_
    exact S'.still hi' rfl rfl rfl
  unfold Handler.resume
  split
  · exact S.turn hi
  · exact S.turn hi
  · exact S.turn hi
  · split
    · exact hstop _
    · exact hsay _ rfl rfl rfl
  · exact hsay _ rfl rfl rfl
  · split
    · exact hsay _ rfl rfl rfl
    · rename_i q hq
      split
      · exact hbeat
      · exact S.read hi hq m.anchors
  · exact hstop _
  · exact hbeat
  · exact hsay _ rfl rfl rfl

/-- Every step keeps the invariant. -/
theorem sane_step (T : Codec) (S : Sane n m) (tick : Tick) : Sane n (m.step T tick) := by
  have hcall : ∀ c : Call, (∀ q, ¬ c.IsOf q) → (∀ g create, c ≠ .subscribe g create) →
      Sane n { m with output := (m.output.exec T c).1 } := by
    intro c hc hsub
    have hkeep := spares_exec T S.sound c
    refine ⟨hkeep.maxKeys.trans S.bound, hkeep.sound, numbered_exec T S.sound S.numbered c,
      truthful_exec T S.sound S.truthful c, ?_, S.apart, ?_, S.unopened⟩
    · intro i
      exact (S.watching i).exec T S.sound fun q _ => hc q
    · intro g q hs
      rcases subscribed_exec T S.sound hs with ⟨hold, -⟩ | ⟨create, replay, done0, heq, -⟩
      · exact S.owned g q hold
      · exact absurd heq (hsub g create)
  cases tick with
  | feed gid bytes => exact hcall (.feed gid bytes) (fun _ h => h) (by intro _ _ h; cases h)
  | markDone gid => exact hcall (.markDone gid) (fun _ h => h) (by intro _ _ h; cases h)
  | publish a =>
    exact ⟨S.bound, S.sound, S.numbered, S.truthful, S.watching, S.apart, S.owned, S.unopened⟩
  | connect modelTag =>
    have hnew : Sane n { m with count := m.count + 1 } := by
      refine ⟨S.bound, S.sound, S.numbered, S.truthful, S.watching, S.apart, S.owned, ?_⟩
      intro i hle
      exact S.unopened i (Nat.le_of_succ_le hle)
    have hq : (m.handlers m.count).q = none := by rw [S.unopened m.count (Nat.le_refl _)]
    refine hnew.stay (Nat.lt_succ_self m.count)
      (show Watching m.output { modelTag } from watching_none rfl) hq.symm ?_
    intro hs
    change (m.handlers m.count).q.isSome at hs
    rw [hq] at hs
    cases hs
  | resume i timeout =>
    by_cases hi : i < m.count
    · exact S.resume hi timeout
    · show Sane n (m.put i ((m.handlers i).resume m.anchors timeout m.output))
      have hp : (m.handlers i).resume m.anchors timeout m.output = (m.output, m.handlers i) := by
        rw [S.unopened i (Nat.not_lt.mp hi)]
        rfl
      rw [hp, put_self]
      exact S
  | leave i =>
    by_cases hi : i < m.count
    · refine S.dropped hi (fun b h => (b, { h with point := .closed })) fun m' S' hi' _ => ?_
      exact S'.still hi' rfl rfl rfl
    · show Sane n (m.put i ((m.handlers i).leave m.output))
      have hp : (m.handlers i).leave m.output = (m.output, m.handlers i) := by
        rw [S.unopened i (Nat.not_lt.mp hi)]
        rfl
      rw [hp, put_self]
      exact S

theorem sane_run (T : Codec) (maxKeys : Int) (tailBytes : Nat) (ticks : List Tick) :
    Sane maxKeys (run T maxKeys tailBytes ticks) := by
  have hstart : Sane maxKeys { output := { maxKeys, tailBytes } } := by
    refine ⟨rfl, sound_new maxKeys tailBytes, ?_, ?_, ?_, ?_, ?_, ?_⟩
    · intro _ _ h
      cases h
    · intro _ _ h
      cases h
    · intro _
      exact watching_none rfl
    · intro _ _ _ h
      cases h
    · rintro _ _ ⟨_, h, -⟩
      cases h
    · intro _ _
      rfl
  unfold run
  induction ticks using List.reverseRecOn with
  | nil => exact hstart
  | append_singleton ticks tick ih =>
    rw [List.foldl_append]
    exact sane_step T ih tick

/-! ## Viewers that have left -/

/-- A handler that has ended holds no queue. -/
def Departed (h : Handler) : Prop := h.point = .closed → h.q = none

/-- A suspended one has not ended. -/
theorem departed_of_ne (hp : h.point ≠ .closed) : Departed h := fun hc => absurd hc hp

/-- The `finally` gives the queue back. -/
theorem departed_leave (W : Watching b h) : Departed (h.leave b).2 := by
  intro _
  show (h.drop b).2.q = none
  exact W.dropped

theorem departed_follow (a : Anchors) (gid : String) (hq : h.q = none) :
    Departed (h.follow a gid b).2 := by
  unfold Handler.follow
  split
  · exact departed_of_ne (by simp [Handler.say])
  · exact departed_leave (watching_none hq)

theorem departed_listen : Departed h.listen := by
  refine departed_of_ne ?_
  unfold Handler.listen
  dsimp only
  split <;> simp

theorem departed_turn (W : Watching b h) (a : Anchors) : Departed (h.turn a b).2 := by
  unfold Handler.turn
  dsimp only
  split
  · exact departed_listen
  · split
    · split
      · exact departed_follow a _ W.dropped
      · exact departed_of_ne (by simp [Handler.rest, Handler.say])
    · exact departed_of_ne (by simp [Handler.rest, Handler.say])

theorem departed_read (D : Departed h) (a : Anchors) (q : Nat) : Departed (h.read a q b).2 := by
  unfold Handler.read
  dsimp only
  split
  · exact D
  · exact departed_of_ne (by simp [Handler.say])
  · exact departed_of_ne (by simp [Handler.say])

theorem departed_resume (W : Watching b h) (D : Departed h) (a : Anchors) (timeout : Bool) :
    Departed (h.resume a timeout b).2 := by
  unfold Handler.resume
  split
  · exact departed_turn W a
  · exact departed_turn W a
  · exact departed_turn W a
  · split <;> exact departed_listen
  · exact departed_listen
  · split
    · exact D
    · split
      · exact departed_of_ne (by simp [Handler.beat])
      · exact departed_read D a _
  · exact departed_of_ne (by simp)
  · exact departed_of_ne (by simp [Handler.beat])
  · exact D

/-- Every step leaves those that have ended without a queue. -/
theorem departed_step (T : Codec) (S : Sane n m) (D : ∀ i, Departed (m.handlers i)) (tick : Tick) :
    ∀ i, Departed ((m.step T tick).handlers i) := by
  have hput : ∀ i r, Departed r.2 → ∀ j, Departed ((m.put i r).handlers j) := by
    intro i r hr j
    by_cases hj : j = i
    · rw [hj, handlers_put_self]
      exact hr
    · rw [handlers_put_of_ne hj]
      exact D j
  cases tick with
  | feed | markDone | publish => exact D
  | connect modelTag => exact hput m.count (m.output, { modelTag }) fun _ => rfl
  | resume i timeout =>
    exact hput i _ (departed_resume (S.watching i) (D i) m.anchors timeout)
  | leave i => exact hput i _ (departed_leave (S.watching i))

theorem departed_run (T : Codec) (maxKeys : Int) (tailBytes : Nat) (ticks : List Tick) :
    ∀ i, Departed ((run T maxKeys tailBytes ticks).handlers i) := by
  induction ticks using List.reverseRecOn with
  | nil => exact fun _ _ => rfl
  | append_singleton ticks tick ih =>
    have hs : run T maxKeys tailBytes (ticks ++ [tick]) =
        (run T maxKeys tailBytes ticks).step T tick := List.foldl_append
    rw [hs]
    exact departed_step T (sane_run T maxKeys tailBytes ticks) ih tick

/-! ## What a viewer shows -/

/-- What a viewer has been sent and what its queue holds, beside the buffer. -/
theorem Sane.sent_pending (S : Sane n m) {q : Nat} (hq : (m.handlers i).q = some q) :
    ∃ gid buf, (m.handlers i).cur = some gid ∧ m.output.buf? gid = some buf ∧ q ∈ buf.subs ∧
      ((m.output.queues q).overflows = 0 →
        buf.tail <:+ textOf (m.handlers i).sent ++ (m.output.queues q).pending ∧
        textOf (m.handlers i).sent ++ (m.output.queues q).pending <:+
          (m.output.appendedTo gid).flatten) := by
  obtain ⟨gid, before, replay, hcur, F, ht⟩ := S.watching i q hq
  obtain ⟨buf, hbuf, hmem⟩ := F.joined
  refine ⟨gid, buf, hcur, hbuf, hmem, fun hroom => ?_⟩
  rw [ht, List.append_assoc, SubQueue.read_pending]
  refine ⟨F.tail hroom buf hbuf, ?_⟩
  rw [F.received hroom, List.flatten_append]
  exact List.suffix_append_self_iff.mpr F.replayed

/-- What a viewer shows, and then what its queue holds, is text of the generation it
follows up to its very end: the whole tail at least, unless the queue was full. -/
theorem viewer_shows_generation (T : Codec) (maxKeys : Int) (tailBytes : Nat) (ticks : List Tick)
    (i q : Nat) :
    let m := run T maxKeys tailBytes ticks
    (m.handlers i).q = some q →
    ∃ gid buf, (m.handlers i).cur = some gid ∧ m.output.buf? gid = some buf ∧ q ∈ buf.subs ∧
      ((m.output.queues q).overflows = 0 →
        buf.tail <:+ textOf (m.handlers i).sent ++ (m.output.queues q).pending ∧
        textOf (m.handlers i).sent ++ (m.output.queues q).pending <:+
          (m.output.appendedTo gid).flatten) := by
  intro m hq
  exact (sane_run T maxKeys tailBytes ticks).sent_pending hq

/-- A viewer comes before the generation's first frame. -/
def firstFrame : List Tick :=
  [.publish { liveGeneration := some "gen" }, .connect none, .resume 0 false, .resume 0 false,
    .feed "gen"
      "data: \x7b\"choices\":[\x7b\"delta\":\x7b\"content\":\"hi\"\x7d\x7d]\x7d\n\n".toUTF8.toList,
    .resume 0 false]

theorem viewer_shows_first_frame :
    ∃ gid buf, ((run asciiCodec 8 16384 firstFrame).handlers 0).cur = some gid ∧
      (run asciiCodec 8 16384 firstFrame).output.buf? gid = some buf ∧ 0 ∈ buf.subs ∧
      (((run asciiCodec 8 16384 firstFrame).output.queues 0).overflows = 0 →
        buf.tail <:+ textOf ((run asciiCodec 8 16384 firstFrame).handlers 0).sent ++
          ((run asciiCodec 8 16384 firstFrame).output.queues 0).pending ∧
        textOf ((run asciiCodec 8 16384 firstFrame).handlers 0).sent ++
          ((run asciiCodec 8 16384 firstFrame).output.queues 0).pending <:+
          ((run asciiCodec 8 16384 firstFrame).output.appendedTo gid).flatten) :=
  viewer_shows_generation asciiCodec 8 16384 firstFrame 0 0 (by decide +kernel)

example : textOf ((run asciiCodec 8 16384 firstFrame).handlers 0).sent = "hi".toList := by
  decide +kernel

/-- A watched generation has a viewer of its own. -/
theorem Sane.watchedCount_le (S : Sane n m) : m.output.watchedCount ≤ m.viewers := by
  let holders := (List.range m.count).filter fun i => (m.handlers i).q.isSome
  let watched := (m.output.buffers.filter fun e => GenBuf.watched e.2).map Prod.fst
  have hnodup : watched.Nodup := S.sound.distinct.sublist (List.filter_sublist.map _)
  have hsub : watched ⊆ holders.filterMap fun i => (m.handlers i).cur := by
    intro g hg
    obtain ⟨e, he, rfl⟩ := List.mem_map.mp hg
    obtain ⟨hmem, hw⟩ := List.mem_filter.mp he
    have hget : m.output.buf? e.1 = some e.2 := Lru.get?_of_mem S.sound.distinct hmem
    cases hs : e.2.subs with
    | nil =>
      rw [GenBuf.watched, hs] at hw
      cases hw
    | cons q subs =>
      obtain ⟨i, hq, hcur⟩ := S.owned e.1 q ⟨e.2, hget, by rw [hs]; exact List.mem_cons_self⟩
      refine List.mem_filterMap.mpr ⟨i, List.mem_filter.mpr ⟨List.mem_range.mpr ?_, ?_⟩, hcur⟩
      · by_contra hi
        rw [S.unopened i (Nat.not_lt.mp hi)] at hq
        cases hq
      · rw [hq]
        rfl
  calc m.output.watchedCount = watched.length := by
        rw [List.length_map]
        exact List.countP_eq_length_filter
    _ ≤ (holders.filterMap fun i => (m.handlers i).cur).length :=
        (List.subperm_of_subset hnodup hsub).length_le
    _ ≤ holders.length := List.length_filterMap_le _ _
    _ = m.viewers := List.countP_eq_length_filter.symm

/-- A subscribed queue is that of a handler which has not ended. -/
theorem Sane.owner (S : Sane n m) (D : ∀ i, Departed (m.handlers i)) {g : String} {q : Nat}
    (hs : Subscribed m.output g q) :
    ∃ i, i < m.count ∧ (m.handlers i).point ≠ .closed ∧ (m.handlers i).q = some q ∧
      (m.handlers i).cur = some g := by
  obtain ⟨i, hq, hcur⟩ := S.owned g q hs
  have hthere : ¬ (m.handlers i).q = none := by
    rw [hq]
    exact Option.some_ne_none q
  refine ⟨i, ?_, fun hc => hthere (D i hc), hq, hcur⟩
  by_contra hi
  exact hthere (by rw [S.unopened i (Nat.not_lt.mp hi)])

/-- No queue outlives its viewer: a subscribed one is that of a handler which has not
ended, and one that has ended holds none.  So with fewer viewers than buffers the tee
of every generation is fed, and loses no watched one its buffer. -/
theorem tee_served_within_viewers (T : Codec) (maxKeys : Int) (tailBytes : Nat)
    (ticks : List Tick) :
    let m := run T maxKeys tailBytes ticks
    (∀ gid q, Subscribed m.output gid q →
      ∃ i, i < m.count ∧ (m.handlers i).point ≠ .closed ∧ (m.handlers i).q = some q ∧
        (m.handlers i).cur = some gid) ∧
      (∀ i, (m.handlers i).point = .closed → (m.handlers i).q = none) ∧
      m.output.watchedCount ≤ m.viewers ∧
      ((m.viewers : Int) < maxKeys →
        ∀ gid bytes, Served T m.output (.feed gid bytes)) := by
  intro m
  have S := sane_run T maxKeys tailBytes ticks
  have D := departed_run T maxKeys tailBytes ticks
  refine ⟨fun gid q hs => S.owner D hs, D, S.watchedCount_le, fun hlt gid bytes => ?_⟩
  refine (served_iff_room T S.sound (.feed gid bytes)).mpr fun _ _ => .inr ?_
  show (m.output.watchedCount : Int) < m.output.maxKeys
  rw [S.bound]
  exact Int.lt_of_le_of_lt (Int.ofNat_le.mpr S.watchedCount_le) hlt

end Monitor

end Turbohaul.LiveMonitor
