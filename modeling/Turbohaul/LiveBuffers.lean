/-
# Which buffers a live output keeps

A new generation's buffer is the newest one and nobody watches it yet.  The
eviction that follows its creation spares watched buffers only, so where as many
are watched as may be kept, it drops the one just created, and `move_to_end`
raises on it.  The comment at the end of the eviction says what was meant: `all
remaining have subscribers`.

  `Sound`       no generation has two buffers, and there are at most `max_keys`
  `Alike`       the same buffers with the same subscribers
  `get_cases`   what `_get` does
  `Served`      what is asked of a call
  `live_output_served_iff`
-/
import Turbohaul.LiveOutput

namespace Turbohaul.LiveMonitor

namespace LiveOutput

variable {b b' b'' : LiveOutput}

/-- The bound holds, and no generation has two buffers. -/
structure Sound (b : LiveOutput) : Prop where
  distinct : Lru.Distinct b.buffers
  bounded : (b.buffers.length : Int) ≤ max 0 b.maxKeys

/-- The same buffers, with the same subscribers. -/
structure Alike (b b' : LiveOutput) : Prop where
  maxKeys : b'.maxKeys = b.maxKeys
  keys : b'.buffers.map Prod.fst = b.buffers.map Prod.fst
  subs : ∀ gid, (b'.buf? gid).map (·.subs) = (b.buf? gid).map (·.subs)

/-- Who is watched in the one is watched in the other. -/
def Watches (b b' : LiveOutput) (gid : String) : Prop :=
  ∀ buf, b.buf? gid = some buf → buf.watched = true →
    ∃ buf', b'.buf? gid = some buf' ∧ buf'.watched = true

theorem Watches.trans {gid : String} (h : Watches b b' gid) (h' : Watches b' b'' gid) :
    Watches b b'' gid := by
  intro buf hb hw
  obtain ⟨buf', hb', hw'⟩ := h buf hb hw
  exact h' buf' hb' hw'

/-! ## The same buffers -/

theorem Alike.refl (b : LiveOutput) : Alike b b := ⟨rfl, rfl, fun _ => rfl⟩

theorem Alike.trans (h : Alike b b') (h' : Alike b' b'') : Alike b b'' :=
  ⟨h'.maxKeys.trans h.maxKeys, h'.keys.trans h.keys, fun gid => (h'.subs gid).trans (h.subs gid)⟩

theorem Alike.sound (h : Alike b b') (H : Sound b) : Sound b' := by
  have hlen : b'.buffers.length = b.buffers.length := by
    simpa using congrArg List.length h.keys
  refine ⟨?_, ?_⟩
  · have hd := H.distinct
    rwa [Lru.Distinct, ← h.keys] at hd
  · rw [hlen, h.maxKeys]
    exact H.bounded

theorem Alike.isSome (h : Alike b b') (gid : String) :
    (b'.buf? gid).isSome = (b.buf? gid).isSome := by
  simpa using congrArg Option.isSome (h.subs gid)

theorem Alike.watches (h : Alike b b') (gid : String) : Watches b b' gid := by
  intro buf hb hw
  have hs := h.subs gid
  rw [hb] at hs
  obtain ⟨buf', hb', heq⟩ := Option.map_eq_some_iff.mp hs
  refine ⟨buf', hb', ?_⟩
  rwa [GenBuf.watched, heq]

theorem buf?_setBuf_self (b : LiveOutput) (gid : String) (f : GenBuf → GenBuf) :
    (b.setBuf gid f).buf? gid = (b.buf? gid).map f :=
  Lru.get?_modify_self b.buffers gid f

theorem buf?_setBuf_of_ne (b : LiveOutput) {gid gid' : String} (h : gid' ≠ gid)
    (f : GenBuf → GenBuf) : (b.setBuf gid f).buf? gid' = b.buf? gid' :=
  Lru.get?_modify_of_ne b.buffers h f

theorem alike_setBuf (gid : String) {f : GenBuf → GenBuf} (hf : ∀ buf, (f buf).subs = buf.subs) :
    Alike b (b.setBuf gid f) := by
  refine ⟨rfl, Lru.keys_modify _ _ _, fun gid' => ?_⟩
  by_cases h : gid' = gid
  · rw [h, buf?_setBuf_self, Option.map_map]
    cases b.buf? gid with
    | none => rfl
    | some buf => exact congrArg some (hf buf)
  · rw [buf?_setBuf_of_ne b h]

theorem alike_append (gid : String) (piece : Text) : Alike b (b.append gid piece) := by
  have h : Alike b (b.setBuf gid fun buf =>
      { buf with tail := lastChars b.tailBytes (buf.tail ++ piece) }) :=
    alike_setBuf gid fun _ => rfl
  exact ⟨h.maxKeys, h.keys, h.subs⟩

theorem alike_frameLoop (T : Codec) (gid : String) (fuel : Nat) (carry : Bytes) :
    Alike b (frameLoop T gid fuel carry b).2 := by
  induction fuel generalizing carry b with
  | zero => exact .refl b
  | succ fuel ih =>
    rw [frameLoop]
    split
    · exact .refl b
    · split
      · exact ih _
      · exact (alike_append gid _).trans (ih _)

theorem alike_markDone (gid : String) : Alike b (b.markDone gid) := by
  rw [markDone]
  split
  · exact .refl b
  · have h : Alike b (b.setBuf gid fun buf => { buf with done := true }) :=
      alike_setBuf gid fun _ => rfl
    exact ⟨h.maxKeys, h.keys, h.subs⟩

theorem alike_take (q : Nat) : Alike b (b.take q) := ⟨rfl, rfl, fun _ => rfl⟩

/-! ## `_get` -/

/-- A use of a generation's buffer. -/
theorem get_of_some {gid : String} {buf : GenBuf} (h : b.buf? gid = some buf) (create : Bool) :
    b.get gid create =
      ({ b with buffers := Lru.erase b.buffers gid ++ [(gid, buf)] }, .ok true) := by
  have hm : Lru.moveToEnd b.buffers gid = some (Lru.erase b.buffers gid ++ [(gid, buf)]) :=
    Lru.moveToEnd_some h
  simp only [get, h, Option.isNone_some, Bool.false_and, Bool.false_eq_true, if_false, hm]

theorem get_of_unknown {gid : String} (h : b.buf? gid = none) :
    b.get gid false = (b, .ok false) := by
  simp [get, h]

/-- A new buffer, where fewer than `max_keys` are watched. -/
theorem get_new {gid : String} (H : Sound b) (h : b.buf? gid = none)
    (hw : (b.watchedCount : Int) < b.maxKeys) :
    b.get gid true =
      ({ b with
        buffers := Lru.erase (Lru.add GenBuf.watched b.maxKeys b.buffers gid {}) gid ++
          [(gid, {})] }, .ok true) := by
  have hm := Lru.moveToEnd_some (Lru.get?_add_self (v := {}) H.bounded rfl hw h)
  simp only [get, h, Option.isNone_none, Bool.and_true, if_true, Bool.not_true, Bool.and_false,
    Bool.false_eq_true, if_false, hm]

/-- Otherwise it is dropped again, and nothing has changed. -/
theorem get_raises {gid : String} (H : Sound b) (h : b.buf? gid = none)
    (hw : b.maxKeys ≤ b.watchedCount) : b.get gid true = (b, .error ()) := by
  have hsame : Lru.add GenBuf.watched b.maxKeys b.buffers gid {} = b.buffers :=
    Lru.add_of_full H.bounded rfl hw
  have hm : Lru.moveToEnd b.buffers gid = none := by
    have hk : Lru.get? b.buffers gid = none := h
    rw [Lru.moveToEnd, hk]
    rfl
  simp only [get, h, Option.isNone_none, Bool.and_true, if_true, Bool.not_true, Bool.and_false,
    Bool.false_eq_true, if_false, hsame, hm]

/-- What `_get` leaves where it gives a buffer. -/
structure Got (b : LiveOutput) (gid : String) (b' : LiveOutput) : Prop where
  sound : Sound b'
  only : b' = { b with buffers := b'.buffers }
  found : ∃ buf, b'.buf? gid = some buf ∧
    (b.buf? gid = some buf ∨ (b.buf? gid = none ∧ buf = {}))
  watched : ∀ g buf, b.buf? g = some buf → buf.watched = true → b'.buf? g = some buf
  known : ∀ g buf, g ≠ gid → b'.buf? g = some buf → b.buf? g = some buf

theorem Got.isSome {gid : String} (h : Got b gid b') : (b'.buf? gid).isSome := by
  obtain ⟨buf, hb, -⟩ := h.found
  rw [hb]
  rfl

theorem Got.maxKeys {gid : String} (h : Got b gid b') : b'.maxKeys = b.maxKeys := by
  rw [h.only]

theorem Got.watches {gid : String} (h : Got b gid b') (g : String) : Watches b b' g :=
  fun buf hb hw => ⟨buf, h.watched g buf hb hw, hw⟩

theorem got_old {gid : String} {buf : GenBuf} (H : Sound b) (h : b.buf? gid = some buf) :
    Got b gid { b with buffers := Lru.erase b.buffers gid ++ [(gid, buf)] } := by
  have hget := Lru.get?_moved h
  refine ⟨⟨H.distinct.moved buf, ?_⟩, rfl, ⟨buf, (hget gid).trans h, .inl h⟩, ?_, ?_⟩
  · have hlt := Lru.length_erase_lt h
    have hb := H.bounded
    simp only [List.length_append, List.length_cons, List.length_nil]
    omega
  · intro g buf' hb _
    exact (hget g).trans hb
  · intro g buf' _ hb
    exact (hget g).symm.trans hb

theorem got_new {gid : String} (H : Sound b) (h : b.buf? gid = none)
    (hw : (b.watchedCount : Int) < b.maxKeys) :
    Got b gid
      { b with
        buffers := Lru.erase (Lru.add GenBuf.watched b.maxKeys b.buffers gid {}) gid ++
          [(gid, {})] } := by
  have hv : GenBuf.watched {} = false := rfl
  have hadd := Lru.get?_add_self H.bounded hv hw h
  have hd := H.distinct.add H.bounded hv h
  have hlen := Lru.length_add gid H.bounded hv
  have hget := Lru.get?_moved hadd
  refine ⟨⟨hd.moved {}, ?_⟩, rfl, ⟨{}, (hget gid).trans hadd, .inr ⟨h, rfl⟩⟩, ?_, ?_⟩
  · have hlt := Lru.length_erase_lt hadd
    simp only [List.length_append, List.length_cons, List.length_nil]
    omega
  · intro g buf' hb hw'
    exact (hget g).trans (Lru.get?_add_of_pinned H.bounded hv H.distinct hb hw')
  · intro g buf' hg hb
    exact Lru.get?_of_add H.bounded hv H.distinct hg ((hget g).symm.trans hb)

/-- What `_get` does: it gives a buffer, old or new; there is none and none is
wanted; or it raises. -/
theorem get_cases (H : Sound b) (gid : String) (create : Bool) :
    (∃ b', b.get gid create = (b', .ok true) ∧ Got b gid b' ∧
      (create = true → (b.buf? gid).isSome ∨ (b.watchedCount : Int) < b.maxKeys)) ∨
    (create = false ∧ b.buf? gid = none ∧ b.get gid create = (b, .ok false)) ∨
    (create = true ∧ b.buf? gid = none ∧ b.maxKeys ≤ b.watchedCount ∧
      b.get gid create = (b, .error ())) := by
  cases h : b.buf? gid with
  | some buf => exact .inl ⟨_, get_of_some h create, got_old H h, fun _ => .inl rfl⟩
  | none =>
    cases create with
    | false => exact .inr (.inl ⟨rfl, rfl, get_of_unknown h⟩)
    | true =>
      by_cases hw : (b.watchedCount : Int) < b.maxKeys
      · exact .inl ⟨_, get_new H h hw, got_new H h hw, fun _ => .inr hw⟩
      · exact .inr (.inr ⟨rfl, rfl, Int.not_lt.mp hw, get_raises H h (Int.not_lt.mp hw)⟩)

/-! ## One call -/

/-- A call that gives its generation a buffer. -/
def Creates : Call → String → Prop
  | .feed gid _, g => gid = g
  | .subscribe gid true, g => gid = g
  | _, _ => False

/-- A call that leaves the watched buffers, up to the one it unsubscribes from,
and the bound. -/
structure Spares (b : LiveOutput) (c : Call) (b' : LiveOutput) : Prop where
  sound : Sound b'
  maxKeys : b'.maxKeys = b.maxKeys
  watches : ∀ gid, (∀ q, c ≠ .unsubscribe gid q) → Watches b b' gid

theorem Alike.spares {c : Call} (h : Alike b b') (H : Sound b) : Spares b c b' :=
  ⟨h.sound H, h.maxKeys, fun gid _ => h.watches gid⟩

theorem Got.spares {gid : String} {c : Call} (hg : Got b gid b') (h : Alike b' b'') :
    Spares b c b'' :=
  ⟨h.sound hg.sound, h.maxKeys.trans hg.maxKeys,
    fun g _ => (hg.watches g).trans (h.watches g)⟩

/-- `feed`: it raises exactly if there is no buffer and no room for one. -/
theorem feed_cases (T : Codec) (H : Sound b) (gid : String) (bytes : Bytes) :
    Spares b (.feed gid bytes) (b.feed T gid bytes).1 ∧
    (((b.feed T gid bytes).2 = .ok () ∧ ((b.feed T gid bytes).1.buf? gid).isSome ∧
        ((b.buf? gid).isSome ∨ (b.watchedCount : Int) < b.maxKeys)) ∨
      ((b.feed T gid bytes).2 = .error () ∧ b.buf? gid = none ∧ b.maxKeys ≤ b.watchedCount)) := by
  rcases get_cases H gid true with ⟨b', heq, hg, hroom⟩ | ⟨h, -, -⟩ | ⟨-, hn, hw, heq⟩
  · have hall : Alike b' (b.feed T gid bytes).1 := by
      rw [feed, heq]
      exact (alike_frameLoop T gid _ _).trans (alike_setBuf gid fun _ => rfl)
    refine ⟨hg.spares hall, .inl ⟨?_, ?_, hroom rfl⟩⟩
    · rw [feed, heq]
    · rw [hall.isSome]
      exact hg.isSome
  · cases h
  · have hb : b.feed T gid bytes = (b, .error ()) := by rw [feed, heq]
    rw [hb]
    exact ⟨(Alike.refl b).spares H, .inr ⟨rfl, hn, hw⟩⟩

theorem watches_join (gid : String) (q : Nat) (g : String) :
    Watches b (b.setBuf gid fun buf => { buf with subs := q :: buf.subs }) g := by
  intro buf hb hw
  by_cases h : g = gid
  · subst h
    rw [buf?_setBuf_self, hb]
    exact ⟨_, rfl, rfl⟩
  · rw [buf?_setBuf_of_ne b h]
    exact ⟨buf, hb, hw⟩

theorem isSome_setBuf (gid g : String) (f : GenBuf → GenBuf) :
    ((b.setBuf gid f).buf? g).isSome = (b.buf? g).isSome := by
  by_cases h : g = gid
  · rw [h, buf?_setBuf_self, Option.isSome_map]
  · rw [buf?_setBuf_of_ne b h]

theorem Sound.setBuf (H : Sound b) (gid : String) (f : GenBuf → GenBuf) :
    Sound (b.setBuf gid f) := by
  refine ⟨H.distinct.modify gid f, ?_⟩
  show ((Lru.modify b.buffers gid f).length : Int) ≤ max 0 b.maxKeys
  rw [Lru.length_modify]
  exact H.bounded

/-- `subscribe`: it raises exactly if it may create a buffer, there is none and no
room for one. -/
theorem subscribe_cases (H : Sound b) (gid : String) (create : Bool) (T : Codec) :
    Spares b (.subscribe gid create) (b.exec T (.subscribe gid create)).1 ∧
    (((b.exec T (.subscribe gid create)).2 = .ok () ∧
        (create = true → ((b.exec T (.subscribe gid create)).1.buf? gid).isSome ∧
          ((b.buf? gid).isSome ∨ (b.watchedCount : Int) < b.maxKeys))) ∨
      ((b.exec T (.subscribe gid create)).2 = .error () ∧ create = true ∧ b.buf? gid = none ∧
        b.maxKeys ≤ b.watchedCount)) := by
  rcases get_cases H gid create with ⟨b', heq, hg, hroom⟩ | ⟨hc, hn, heq⟩ | ⟨hc, hn, hw, heq⟩
  · obtain ⟨buf, hb, -⟩ := hg.found
    have hex : b.exec T (.subscribe gid create) =
        if maxSubsPerGen ≤ buf.subs.length then (b', .ok ())
        else ({ b'.setBuf gid fun buf => { buf with subs := b'.queueCount :: buf.subs } with
          queues := fun q => if q = b'.queueCount then {} else b'.queues q
          queueCount := b'.queueCount + 1 }, .ok ()) := by
      simp only [exec, subscribe, heq, hb]
      split
      · rfl
      · rfl
    rw [hex]
    split
    · exact ⟨hg.spares (.refl b'), .inl ⟨rfl, fun h => ⟨hg.isSome, hroom h⟩⟩⟩
    · have Hs := hg.sound.setBuf gid fun buf => { buf with subs := b'.queueCount :: buf.subs }
      have hsome := (isSome_setBuf (b := b') gid gid fun buf =>
        { buf with subs := b'.queueCount :: buf.subs }).trans hg.isSome
      refine ⟨⟨⟨Hs.distinct, Hs.bounded⟩, hg.maxKeys, fun g _ => ?_⟩,
        .inl ⟨rfl, fun h => ⟨hsome, hroom h⟩⟩⟩
      exact (hg.watches g).trans (watches_join gid b'.queueCount g)
  · have hex : b.exec T (.subscribe gid create) = (b, .ok ()) := by
      simp only [exec, subscribe, heq, hn]
      rfl
    rw [hex]
    exact ⟨(Alike.refl b).spares H, .inl ⟨rfl, fun h => absurd (hc.symm.trans h) (by rintro ⟨⟩)⟩⟩
  · have hex : b.exec T (.subscribe gid create) = (b, .error ()) := by
      simp only [exec, subscribe, heq]
      rfl
    rw [hex]
    exact ⟨(Alike.refl b).spares H, .inr ⟨rfl, hc, hn, hw⟩⟩

theorem spares_unsubscribe (H : Sound b) (gid : String) (q : Nat) :
    Spares b (.unsubscribe gid q) (b.unsubscribe gid q) := by
  have hother : ∀ g, (∀ q', Call.unsubscribe gid q ≠ .unsubscribe g q') → g ≠ gid := by
    rintro g h rfl
    exact h q rfl
  rw [unsubscribe]
  split
  · exact (Alike.refl b).spares H
  · rename_i buf hb
    dsimp only
    split
    · refine ⟨⟨H.distinct.erase gid, ?_⟩, rfl, fun g hg buf' hb' hw => ?_⟩
      · have hle := Lru.length_erase_le b.buffers gid
        have hbound := H.bounded
        show ((Lru.erase b.buffers gid).length : Int) ≤ max 0 b.maxKeys
        omega
      · exact ⟨buf', (Lru.get?_erase_of_ne b.buffers (hother g hg)).trans hb', hw⟩
    · refine ⟨H.setBuf gid _, rfl, fun g hg buf' hb' hw => ?_⟩
      exact ⟨buf', (buf?_setBuf_of_ne b (hother g hg) _).trans hb', hw⟩

/-- What a call leaves. -/
theorem spares_exec (T : Codec) (H : Sound b) (c : Call) : Spares b c (b.exec T c).1 := by
  cases c with
  | feed gid bytes => exact (feed_cases T H gid bytes).1
  | subscribe gid create => exact (subscribe_cases H gid create T).1
  | unsubscribe gid q => exact spares_unsubscribe H gid q
  | markDone gid => exact (alike_markDone gid).spares H
  | take q => exact (alike_take q).spares H

/-! ## Runs -/

/-- What is asked of a call: it gives its generation a buffer without raising, no
watched buffer goes, and there are not too many. -/
structure Served (T : Codec) (b : LiveOutput) (c : Call) : Prop where
  buffered : ∀ gid, Creates c gid →
    (b.exec T c).2 = .ok () ∧ ((b.exec T c).1.buf? gid).isSome
  watched : ∀ gid, (∀ q, c ≠ .unsubscribe gid q) → Watches b (b.exec T c).1 gid
  bounded : ((b.exec T c).1.buffers.length : Int) ≤
    max b.maxKeys ((b.exec T c).1.watchedCount + 1)

/-- The generation of a call that creates has a buffer, or there is room for one. -/
def Room (b : LiveOutput) (c : Call) : Prop :=
  ∀ gid, Creates c gid → (b.buf? gid).isSome ∨ (b.watchedCount : Int) < b.maxKeys

theorem creates_iff_room (T : Codec) (H : Sound b) (c : Call) :
    (∀ gid, Creates c gid → (b.exec T c).2 = .ok () ∧ ((b.exec T c).1.buf? gid).isSome) ↔
      Room b c := by
  have hno {gid : String} (hn : b.buf? gid = none) (hw : b.maxKeys ≤ b.watchedCount) :
      ¬ ((b.buf? gid).isSome ∨ (b.watchedCount : Int) < b.maxKeys) := by
    rw [hn]
    rintro (h | h)
    · cases h
    · omega
  cases c with
  | feed gid bytes =>
    rcases (feed_cases T H gid bytes).2 with ⟨hok, hs, hroom⟩ | ⟨herr, hn, hw⟩
    · constructor
      · rintro - g rfl
        exact hroom
      · rintro - g rfl
        exact ⟨hok, hs⟩
    · constructor
      · intro h
        have hok : (b.feed T gid bytes).2 = .ok () := (h gid rfl).1
        rw [herr] at hok
        cases hok
      · intro h
        exact absurd (h gid rfl) (hno hn hw)
  | subscribe gid create =>
    rcases (subscribe_cases H gid create T).2 with ⟨hok, hs⟩ | ⟨herr, hc, hn, hw⟩
    · cases create with
      | false => exact ⟨fun _ _ h => h.elim, fun _ _ h => h.elim⟩
      | true =>
        obtain ⟨hs, hroom⟩ := hs rfl
        constructor
        · rintro - g rfl
          exact hroom
        · rintro - g rfl
          exact ⟨hok, hs⟩
    · subst hc
      constructor
      · intro h
        have hok := (h gid rfl).1
        rw [herr] at hok
        cases hok
      · intro h
        exact absurd (h gid rfl) (hno hn hw)
  | unsubscribe gid q => exact ⟨fun _ _ h => h.elim, fun _ _ h => h.elim⟩
  | markDone gid => exact ⟨fun _ _ h => h.elim, fun _ _ h => h.elim⟩
  | take q => exact ⟨fun _ _ h => h.elim, fun _ _ h => h.elim⟩

theorem served_iff_room (T : Codec) (H : Sound b) (c : Call) : Served T b c ↔ Room b c := by
  have hs := spares_exec T H c
  refine ⟨fun h => (creates_iff_room T H c).mp h.buffered,
    fun h => ⟨(creates_iff_room T H c).mpr h, hs.watches, ?_⟩⟩
  have hb := hs.sound.bounded
  rw [hs.maxKeys] at hb
  omega

theorem sound_new (maxKeys : Int) (tailBytes : Nat) : Sound { maxKeys, tailBytes } :=
  ⟨List.nodup_nil, Int.le_max_left 0 maxKeys⟩

theorem sound_run (T : Codec) (H : Sound b) (calls : List Call) : Sound (b.run T calls) := by
  induction calls generalizing b with
  | nil => exact H
  | cons c calls ih => exact ih (spares_exec T H c).sound

/-- Every call of a run is served as it should be exactly if at each of them that
gives a generation a buffer there is one already, or fewer than `max_keys` are
watched. -/
theorem live_output_served_iff (T : Codec) (maxKeys : Int) (tailBytes : Nat) (calls : List Call) :
    (∀ past c rest, calls = past ++ c :: rest →
      Served T (run T { maxKeys, tailBytes } past) c) ↔
    ∀ past c rest, calls = past ++ c :: rest → Room (run T { maxKeys, tailBytes } past) c := by
  have H (past : List Call) := sound_run T (sound_new maxKeys tailBytes) past
  constructor
  · intro h past c rest heq
    exact (served_iff_room T (H past) c).mp (h past c rest heq)
  · intro h past c rest heq
    exact (served_iff_room T (H past) c).mpr (h past c rest heq)

/-- Eight generations, each with a subscriber. -/
def eightWatched : List Call :=
  ["gen-0", "gen-1", "gen-2", "gen-3", "gen-4", "gen-5", "gen-6", "gen-7"].map (.subscribe · true)

/-- Nothing is decoded. -/
def blankCodec : Codec := ⟨fun _ => none, fun _ => [], .nans⟩

/-- With eight generations watched, the tee of a ninth is not fed. -/
theorem ninth_generation_raises :
    ¬ ∀ (T : Codec) (maxKeys : Int) (tailBytes : Nat) (calls past : List Call) (c : Call)
      (rest : List Call), calls = past ++ c :: rest →
        Served T (run T { maxKeys, tailBytes } past) c := by
  intro h
  have hserved := h blankCodec maxLiveKeys textTailBytes _ eightWatched (.feed "gen-8" []) [] rfl
  have hraised : (exec blankCodec
      (run blankCodec { maxKeys := maxLiveKeys, tailBytes := textTailBytes } eightWatched)
      (.feed "gen-8" [])).2.isOk = false := by decide +kernel
  have hok := (hserved.buffered "gen-8" rfl).1
  rw [hok] at hraised
  cases hraised

end LiveOutput

end Turbohaul.LiveMonitor
