/-
# The text of a generation does not depend on the chunks

The tee feeds a stream of frames as its chunks arrive.  What a generation's buffer
holds afterwards is a function of the stream: the pieces of its frames were
appended, the tail is the end of them, and what is left of the stream waits.  A
subscriber gets the tail of what was before it, and every piece after.

  `sse`           the splitter of the stream
  `piecesOf`      the pieces of the frames of a stream
  `fedBytes`      what a run fed to a generation
  `Unevicted`     its buffer stays once it was fed
  `Holds`         what the buffer holds, as a function of the stream
  `Follows`       what a subscriber's queue holds
  `tee_ignores_chunks`
-/
import Turbohaul.LiveBuffers
import Turbohaul.Framing
import Mathlib.Data.List.Induction

namespace Turbohaul.LiveMonitor

open Framing

/-! ## The splitter -/

theorem splitFrame_append {s f r : Bytes} (t : Bytes) (h : splitFrame s = some (f, r)) :
    splitFrame (s ++ t) = some (f, r ++ t) := by
  fun_induction splitFrame s generalizing f with
  | case1 a b rest hd =>
    cases h
    exact if_pos hd
  | case2 a b rest hd ih =>
    obtain ⟨⟨f', r'⟩, hs, heq⟩ := Option.map_eq_some_iff.mp h
    cases heq
    have hs' : splitFrame (b :: (rest ++ t)) = some (f', r' ++ t) := ih hs
    show (if a = 10 ∧ b = 10 then some ([], rest ++ t)
      else (splitFrame (b :: (rest ++ t))).map fun p => (a :: p.1, p.2)) = _
    rw [if_neg hd, hs']
    rfl
  | case3 s hs => cases h

theorem splitFrame_length {s f r : Bytes} (h : splitFrame s = some (f, r)) :
    s.length = f.length + 2 + r.length := by
  fun_induction splitFrame s generalizing f with
  | case1 a b rest hd =>
    cases h
    simp only [List.length_cons, List.length_nil]
    omega
  | case2 a b rest hd ih =>
    obtain ⟨⟨f', r'⟩, hs, heq⟩ := Option.map_eq_some_iff.mp h
    cases heq
    have hlen := ih hs
    simp only [List.length_cons] at hlen ⊢
    omega
  | case3 s hs => cases h

theorem splitFrame_straddle {s t f r : Bytes} (h : splitFrame s = none)
    (ht : splitFrame (s ++ t) = some (f, r)) : s.length < f.length + 2 := by
  fun_induction splitFrame s generalizing f with
  | case1 a b rest hd => cases h
  | case2 a b rest hd ih =>
    have ht' : (splitFrame (b :: (rest ++ t))).map (fun p => (a :: p.1, p.2)) = some (f, r) := by
      rw [← ht]
      exact (if_neg hd).symm
    obtain ⟨⟨f', r'⟩, hs, heq⟩ := Option.map_eq_some_iff.mp ht'
    cases heq
    have hlt := ih (Option.map_eq_none_iff.mp h) hs
    simp only [List.length_cons] at hlt ⊢
    omega
  | case3 s hs =>
    rcases s with _ | ⟨a, _ | ⟨b, s⟩⟩
    · simp
    · simp
    · exact absurd rfl (hs a b s)

/-- The frames of the stream end in `\\n\\n`. -/
def sse : Splitter UInt8 where
  split := splitFrame
  width := 2
  width_pos := by decide
  append := splitFrame_append
  length := splitFrame_length
  straddle := splitFrame_straddle

/-- The pieces of the frames of a stream. -/
def piecesOf (T : Codec) (stream : Bytes) : List Text :=
  (sse.frames stream).1.filterMap (consumeFrame T)

/-! ## The tail -/

theorem lastChars_append (n : Nat) (s t : Text) :
    lastChars n (lastChars n s ++ t) = lastChars n (s ++ t) := by
  unfold lastChars
  by_cases hn : n = 0
  · rw [if_pos hn, if_pos hn, if_pos hn]
  · rw [if_neg hn, if_neg hn, if_neg hn]
    simp only [List.length_append, List.length_drop]
    rw [← List.drop_append_of_le_length (Nat.sub_le _ _), List.drop_drop]
    congr 1
    omega

theorem lastChars_suffix (n : Nat) (s : Text) : lastChars n s <:+ s := by
  unfold lastChars
  split
  · exact List.suffix_refl s
  · exact List.drop_suffix _ s

theorem lastChars_suffix_append (n : Nat) (s t : Text) :
    lastChars n (s ++ t) <:+ lastChars n s ++ t := by
  rw [← lastChars_append]
  exact lastChars_suffix n _

namespace LiveOutput

variable {T : Codec} {gid : String} {b b' b'' : LiveOutput}

/-- The pieces appended to a generation. -/
def appendedTo (b : LiveOutput) (gid : String) : List Text :=
  b.appended.filterMap fun e => if e.1 = gid then some e.2 else none

/-- What a call feeds to a generation. -/
def fed (gid : String) : Call → Bytes
  | .feed g bytes => if g = gid then bytes else []
  | _ => []

/-- What some calls feed to it. -/
def fedBytes (gid : String) (calls : List Call) : Bytes := calls.flatMap (fed gid)

/-- Once it was fed, its buffer stays. -/
def Unevicted (T : Codec) (b : LiveOutput) (gid : String) (calls : List Call) : Prop :=
  ∀ past rest, calls = past ++ rest → (∃ bytes, .feed gid bytes ∈ past) →
    ((b.run T past).buf? gid).isSome

/-! ## Calls that feed another generation -/

/-- The tail and the carry of a buffer. -/
def text? (b : LiveOutput) (gid : String) : Option (Text × Bytes) :=
  (b.buf? gid).map fun buf => (buf.tail, buf.carry)

/-- The text of a generation is what it was. -/
structure Quiet (gid : String) (b b' : LiveOutput) : Prop where
  tailBytes : b'.tailBytes = b.tailBytes
  appended : b'.appendedTo gid = b.appendedTo gid
  text : b'.text? gid = b.text? gid

/-- The text of a generation is what it was, or that of a new buffer, if it still
has one. -/
structure Idle (gid : String) (b b' : LiveOutput) : Prop where
  tailBytes : b'.tailBytes = b.tailBytes
  appended : b'.appendedTo gid = b.appendedTo gid
  text : ∀ x, b'.text? gid = some x → x = (b.text? gid).getD ([], [])

theorem Quiet.refl (gid : String) (b : LiveOutput) : Quiet gid b b := ⟨rfl, rfl, rfl⟩

theorem Quiet.trans (h : Quiet gid b b') (h' : Quiet gid b' b'') : Quiet gid b b'' :=
  ⟨h'.tailBytes.trans h.tailBytes, h'.appended.trans h.appended, h'.text.trans h.text⟩

theorem Idle.quiet (h : Idle gid b b') (h' : Quiet gid b' b'') : Idle gid b b'' :=
  ⟨h'.tailBytes.trans h.tailBytes, h'.appended.trans h.appended,
    fun x hx => h.text x (h'.text ▸ hx)⟩

theorem Quiet.idle (h : Quiet gid b b') : Idle gid b b' := by
  refine ⟨h.tailBytes, h.appended, fun x hx => ?_⟩
  rw [← h.text, hx]
  rfl

/-- A change of a buffer that spares its text. -/
theorem quiet_setBuf (g : String) {f : GenBuf → GenBuf}
    (hf : ∀ buf, (f buf).tail = buf.tail ∧ (f buf).carry = buf.carry) :
    Quiet gid b (b.setBuf g f) := by
  refine ⟨rfl, rfl, ?_⟩
  by_cases h : gid = g
  · rw [text?, text?, h, buf?_setBuf_self, Option.map_map]
    cases b.buf? g with
    | none => rfl
    | some buf => exact congrArg some (Prod.ext (hf buf).1 (hf buf).2)
  · rw [text?, text?, buf?_setBuf_of_ne b h]

/-- A change of another generation's buffer. -/
theorem quiet_setBuf_of_ne {g : String} (h : gid ≠ g) (f : GenBuf → GenBuf) :
    Quiet gid b (b.setBuf g f) :=
  ⟨rfl, rfl, by rw [text?, text?, buf?_setBuf_of_ne b h]⟩

theorem quiet_append {g : String} (h : gid ≠ g) (piece : Text) :
    Quiet gid b (b.append g piece) := by
  have hq : Quiet gid b (b.setBuf g fun buf =>
      { buf with tail := lastChars b.tailBytes (buf.tail ++ piece) }) := quiet_setBuf_of_ne h _
  refine ⟨rfl, ?_, hq.text⟩
  show (b.appended ++ [(g, piece)]).filterMap _ = b.appended.filterMap _
  rw [List.filterMap_append]
  simp [Ne.symm h]

theorem quiet_frameLoop {g : String} (h : gid ≠ g) (fuel : Nat) (carry : Bytes) :
    Quiet gid b (frameLoop T g fuel carry b).2 := by
  induction fuel generalizing carry b with
  | zero => exact .refl gid b
  | succ fuel ih =>
    rw [frameLoop]
    split
    · exact .refl gid b
    · split
      · exact ih _
      · exact (quiet_append h _).trans (ih _)

theorem Got.idle {g : String} (h : Got b g b') : Idle gid b b' := by
  refine ⟨by rw [h.only], by rw [h.only]; rfl, fun x hx => ?_⟩
  obtain ⟨buf', hb', rfl⟩ := Option.map_eq_some_iff.mp hx
  by_cases hg : gid = g
  · subst hg
    obtain ⟨buf, hb, hold | ⟨hnew, rfl⟩⟩ := h.found
    · rw [hb', Option.some.injEq] at hb
      rw [text?, hold, hb]
      rfl
    · rw [hb', Option.some.injEq] at hb
      rw [text?, hnew, hb]
      rfl
  · rw [text?, h.known gid buf' hg hb']
    rfl

/-- A call that does not feed a generation leaves its text. -/
theorem idle_exec (T : Codec) (H : Sound b) {c : Call} (hc : ∀ bytes, c ≠ .feed gid bytes) :
    Idle gid b (b.exec T c).1 := by
  cases c with
  | feed g bytes =>
    have hg : gid ≠ g := by
      rintro rfl
      exact hc bytes rfl
    show Idle gid b (b.feed T g bytes).1
    rcases get_cases H g true with ⟨b', heq, hgot, -⟩ | ⟨h, -, -⟩ | ⟨-, -, -, heq⟩
    · rw [feed, heq]
      exact hgot.idle.quiet ((quiet_frameLoop hg _ _).trans (quiet_setBuf_of_ne hg _))
    · cases h
    · rw [feed, heq]
      exact (Quiet.refl gid b).idle
  | subscribe g create =>
    show Idle gid b (b.subscribe g create).1
    rcases get_cases H g create with ⟨b', heq, hgot, -⟩ | ⟨-, hn, heq⟩ | ⟨-, -, -, heq⟩
    · obtain ⟨buf, hb, -⟩ := hgot.found
      simp only [subscribe, heq, hb]
      split
      · exact hgot.idle
      · have hq : Quiet gid b' (b'.setBuf g fun buf =>
            { buf with subs := b'.queueCount :: buf.subs }) :=
          quiet_setBuf g fun _ => ⟨rfl, rfl⟩
        exact hgot.idle.quiet ⟨hq.tailBytes, hq.appended, hq.text⟩
    · simp only [subscribe, heq, hn]
      exact (Quiet.refl gid b).idle
    · simp only [subscribe, heq]
      exact (Quiet.refl gid b).idle
  | unsubscribe g q =>
    show Idle gid b (b.unsubscribe g q)
    rw [unsubscribe]
    split
    · exact (Quiet.refl gid b).idle
    · rename_i buf hb
      dsimp only
      split
      · refine ⟨rfl, rfl, fun x hx => ?_⟩
        by_cases h : gid = g
        · rw [text?, h] at hx
          rw [show buf? _ g = Lru.get? (Lru.erase b.buffers g) g from rfl, Lru.get?_erase_self]
            at hx
          cases hx
        · have hsame : Lru.get? (Lru.erase b.buffers g) gid = b.buf? gid :=
            Lru.get?_erase_of_ne b.buffers h
          rw [text?, ← hsame]
          rw [text?, buf?] at hx
          rw [hx]
          rfl
      · have hq : Quiet gid b (b.setBuf g fun buf' =>
            { buf' with subs := buf.subs.filter (· ≠ q) }) := quiet_setBuf g fun _ => ⟨rfl, rfl⟩
        exact hq.idle
  | markDone g =>
    show Idle gid b (b.markDone g)
    rw [markDone]
    split
    · exact (Quiet.refl gid b).idle
    · have hq : Quiet gid b (b.setBuf g fun buf => { buf with done := true }) :=
        quiet_setBuf g fun _ => ⟨rfl, rfl⟩
      exact Quiet.idle ⟨hq.tailBytes, hq.appended, hq.text⟩
  | take q => exact Quiet.idle ⟨rfl, rfl, rfl⟩

/-! ## What the buffer holds -/

/-- The pieces of the frames of the stream were appended; the buffer has the end of
them and what is left of the stream. -/
structure Holds (T : Codec) (gid : String) (n : Nat) (stream : Bytes) (b : LiveOutput) :
    Prop where
  size : b.tailBytes = n
  appended : b.appendedTo gid = piecesOf T stream
  text : ∀ x, b.text? gid = some x →
    x = (lastChars b.tailBytes (piecesOf T stream).flatten, (sse.frames stream).2)
  start : b.text? gid = none → stream = []

theorem piecesOf_append (T : Codec) (s t : Bytes) :
    piecesOf T (s ++ t) = piecesOf T s ++ piecesOf T ((sse.frames s).2 ++ t) := by
  rw [piecesOf, sse.frames_append, List.filterMap_append]
  rfl

theorem rest_append (s t : Bytes) :
    (sse.frames (s ++ t)).2 = (sse.frames ((sse.frames s).2 ++ t)).2 := by
  rw [sse.frames_append]

theorem lastChars_nil (n : Nat) : lastChars n [] = [] := by
  unfold lastChars
  split
  · rfl
  · exact List.drop_nil

/-- What a buffer holds, or would hold when new. -/
theorem Holds.getD {n : Nat} {stream : Bytes} (h : Holds T gid n stream b) :
    (b.text? gid).getD ([], []) =
      (lastChars b.tailBytes (piecesOf T stream).flatten, (sse.frames stream).2) := by
  cases hx : b.text? gid with
  | some x => exact h.text x hx
  | none =>
    obtain rfl := h.start hx
    show ([], []) = (lastChars b.tailBytes [], [])
    rw [lastChars_nil]

theorem Holds.idle {n : Nat} {stream : Bytes} (h : Holds T gid n stream b) (hi : Idle gid b b')
    (hs : b'.text? gid = none → stream = []) : Holds T gid n stream b' := by
  refine ⟨hi.tailBytes.trans h.size, hi.appended.trans h.appended, fun x hx => ?_, hs⟩
  rw [hi.text x hx, h.getD, hi.tailBytes]

/-- Pieces, appended one after the other. -/
def appendAll (b : LiveOutput) (gid : String) (pieces : List Text) : LiveOutput :=
  pieces.foldl (fun b piece => b.append gid piece) b

/-- The loop appends the pieces of the frames of the carry. -/
theorem frameLoop_eq (T : Codec) (gid : String) {fuel : Nat} {carry : Bytes}
    (h : carry.length ≤ fuel) :
    frameLoop T gid fuel carry b =
      ((sse.frames carry).2, b.appendAll gid (piecesOf T carry)) := by
  induction fuel generalizing carry b with
  | zero =>
    obtain rfl := List.length_eq_zero_iff.mp (Nat.le_zero.mp h)
    rfl
  | succ fuel ih =>
    rw [frameLoop]
    cases hs : splitFrame carry with
    | none =>
      have hf : sse.frames carry = ([], carry) := sse.frames_of_none hs
      rw [piecesOf, hf]
      rfl
    | some p =>
      have hlen := splitFrame_length hs
      have hf : sse.frames carry = (p.1 :: (sse.frames p.2).1, (sse.frames p.2).2) :=
        sse.frames_of_some hs
      have hp : piecesOf T carry =
          (consumeFrame T p.1).elim (piecesOf T p.2) fun piece => piece :: piecesOf T p.2 := by
        rw [piecesOf, hf, List.filterMap_cons]
        cases consumeFrame T p.1 with
        | none => rfl
        | some piece => rfl
      dsimp only
      rw [ih (by omega), hp, hf]
      cases consumeFrame T p.1 with
      | none => rfl
      | some piece => rfl

theorem appendedTo_append (b : LiveOutput) (gid : String) (piece : Text) :
    (b.append gid piece).appendedTo gid = b.appendedTo gid ++ [piece] := by
  show (b.appended ++ [(gid, piece)]).filterMap _ = b.appended.filterMap _ ++ [piece]
  rw [List.filterMap_append]
  simp

theorem text?_append (b : LiveOutput) (gid : String) (piece : Text) :
    (b.append gid piece).text? gid =
      (b.text? gid).map fun x => (lastChars b.tailBytes (x.1 ++ piece), x.2) := by
  show ((b.setBuf gid fun buf =>
    { buf with tail := lastChars b.tailBytes (buf.tail ++ piece) }).buf? gid).map _ = _
  rw [buf?_setBuf_self, text?, Option.map_map, Option.map_map]
  rfl

theorem tailBytes_appendAll (b : LiveOutput) (gid : String) (pieces : List Text) :
    (b.appendAll gid pieces).tailBytes = b.tailBytes := by
  induction pieces generalizing b with
  | nil => rfl
  | cons piece pieces ih => exact ih (b.append gid piece)

theorem appendedTo_appendAll (b : LiveOutput) (gid : String) (pieces : List Text) :
    (b.appendAll gid pieces).appendedTo gid = b.appendedTo gid ++ pieces := by
  induction pieces generalizing b with
  | nil => exact (List.append_nil _).symm
  | cons piece pieces ih =>
    show ((b.append gid piece).appendAll gid pieces).appendedTo gid = _
    rw [ih, appendedTo_append, List.append_assoc]
    rfl

theorem text?_appendAll (b : LiveOutput) (gid : String) (pieces : List Text) {s : Text}
    {carry : Bytes} (h : b.text? gid = some (lastChars b.tailBytes s, carry)) :
    (b.appendAll gid pieces).text? gid =
      some (lastChars b.tailBytes (s ++ pieces.flatten), carry) := by
  induction pieces generalizing b s with
  | nil => rw [List.flatten_nil, List.append_nil]; exact h
  | cons piece pieces ih =>
    have h1 : (b.append gid piece).text? gid =
        some (lastChars (b.append gid piece).tailBytes (s ++ piece), carry) := by
      rw [text?_append, h]
      exact congrArg (fun t => some (t, carry)) (lastChars_append b.tailBytes s piece)
    rw [List.flatten_cons, ← List.append_assoc]
    exact ih (b.append gid piece) h1

/-- A chunk of the stream. -/
theorem Holds.feed {n : Nat} {stream bytes : Bytes} (H : Sound b) (h : Holds T gid n stream b)
    (hfit : (sse.frames (stream ++ bytes)).2.length ≤ carryMaxBytes)
    (hs : ((b.feed T gid bytes).1.buf? gid).isSome) :
    Holds T gid n (stream ++ bytes) (b.feed T gid bytes).1 := by
  rcases get_cases H gid true with ⟨b', heq, hgot, -⟩ | ⟨h, -, -⟩ | ⟨-, hn, -, heq⟩
  · obtain ⟨buf, hb, -⟩ := hgot.found
    have hi : Idle gid b b' := hgot.idle
    have htext : b'.text? gid =
        some (lastChars b'.tailBytes (piecesOf T stream).flatten, (sse.frames stream).2) := by
      have hx : b'.text? gid = some (buf.tail, buf.carry) := by rw [text?, hb]; rfl
      rw [hx, hi.text _ hx, h.getD, hi.tailBytes]
    have hcarry : ((b'.buf? gid).map (·.carry)).getD [] = (sse.frames stream).2 := by
      rw [text?, hb, Option.map_some, Option.some.injEq, Prod.mk.injEq] at htext
      rw [hb]
      exact htext.2
    have hrest : (sse.frames ((sse.frames stream).2 ++ bytes)).2.length ≤ carryMaxBytes := by
      rw [← rest_append]
      exact hfit
    rw [LiveOutput.feed, heq]
    dsimp only
    rw [hcarry, frameLoop_eq T gid (Nat.le_refl _)]
    refine ⟨?_, ?_, fun x hx => ?_, fun hx => ?_⟩
    · exact (tailBytes_appendAll b' gid _).trans (hi.tailBytes.trans h.size)
    · show (b'.appendAll gid _).appendedTo gid = _
      rw [appendedTo_appendAll, hi.appended, h.appended, ← piecesOf_append]
    · have htail := text?_appendAll b' gid (piecesOf T ((sse.frames stream).2 ++ bytes)) htext
      rw [text?, buf?_setBuf_self, Option.map_map] at hx
      obtain ⟨buf', hb', rfl⟩ := Option.map_eq_some_iff.mp hx
      rw [text?, hb', Option.map_some, Option.some.injEq, Prod.mk.injEq] at htail
      show (buf'.tail, if carryMaxBytes < _ then [] else _) = _
      rw [htail.1, if_neg (Nat.not_lt.mpr hrest), ← List.flatten_append, ← piecesOf_append,
        ← rest_append]
      show (lastChars b'.tailBytes _, _) = (lastChars (b'.appendAll gid _).tailBytes _, _)
      rw [tailBytes_appendAll]
    · have htail := text?_appendAll b' gid (piecesOf T ((sse.frames stream).2 ++ bytes)) htext
      rw [text?, buf?_setBuf_self, Option.map_map, Option.map_eq_none_iff] at hx
      rw [text?, hx] at htail
      cases htail
  · cases h
  · have hb : b.feed T gid bytes = (b, .error ()) := by rw [LiveOutput.feed, heq]
    rw [hb, hn] at hs
    cases hs

/-! ## Runs -/

theorem run_append (T : Codec) (b : LiveOutput) (calls calls' : List Call) :
    b.run T (calls ++ calls') = (b.run T calls).run T calls' :=
  List.foldl_append

theorem fedBytes_append (gid : String) (calls calls' : List Call) :
    fedBytes gid (calls ++ calls') = fedBytes gid calls ++ fedBytes gid calls' :=
  List.flatMap_append

theorem fedBytes_of_none {calls : List Call} (h : ¬ ∃ bytes, .feed gid bytes ∈ calls) :
    fedBytes gid calls = [] := by
  rw [fedBytes, List.flatMap_eq_nil_iff]
  intro c hc
  cases c with
  | feed g bytes =>
    refine if_neg ?_
    rintro rfl
    exact h ⟨bytes, hc⟩
  | _ => rfl

theorem Unevicted.before {calls past rest : List Call} (h : Unevicted T b gid calls)
    (heq : calls = past ++ rest) : Unevicted T b gid past := by
  intro past' rest' heq' hfed
  exact h past' (rest' ++ rest) (by rw [heq, heq', List.append_assoc]) hfed

theorem Unevicted.start {calls : List Call} (h : Unevicted T b gid calls)
    (hn : (b.run T calls).text? gid = none) : fedBytes gid calls = [] := by
  refine fedBytes_of_none fun hfed => ?_
  have hs := h calls [] (List.append_nil calls).symm hfed
  rw [Option.map_eq_none_iff.mp hn] at hs
  cases hs

/-- What a generation's buffer holds after a run. -/
theorem holds_run (T : Codec) (gid : String) (maxKeys : Int) (tailBytes : Nat) (calls : List Call)
    (hu : Unevicted T { maxKeys, tailBytes } gid calls)
    (hfit : sse.Fits carryMaxBytes (fedBytes gid calls)) :
    Holds T gid tailBytes (fedBytes gid calls) (run T { maxKeys, tailBytes } calls) := by
  have hwait : ∀ past rest, calls = past ++ rest →
      (sse.frames (fedBytes gid past)).2.length ≤ carryMaxBytes := by
    rintro past rest rfl
    rw [fedBytes_append] at hfit
    exact hfit.carried
  clear hfit
  induction calls using List.reverseRecOn with
  | nil => exact ⟨rfl, rfl, (by rintro _ ⟨⟩), fun _ => rfl⟩
  | append_singleton past c ih =>
    have hpast := ih (hu.before rfl) fun past' rest heq =>
      hwait past' (rest ++ [c]) (by rw [heq, List.append_assoc])
    have H := sound_run T (sound_new maxKeys tailBytes) past
    have hrest := hwait (past ++ [c]) [] (List.append_nil _).symm
    rw [fedBytes_append, run_append]
    rw [fedBytes_append] at hrest
    have hone : fedBytes gid [c] = fed gid c := List.append_nil _
    rw [hone] at hrest ⊢
    show Holds T gid tailBytes _ (exec T _ c).1
    by_cases hc : ∃ bytes, c = .feed gid bytes
    · obtain ⟨bytes, rfl⟩ := hc
      have hs := hu (past ++ [.feed gid bytes]) [] (List.append_nil _).symm
        ⟨bytes, List.mem_append_right past List.mem_cons_self⟩
      rw [run_append] at hs
      have hfed : fed gid (.feed gid bytes) = bytes := if_pos rfl
      rw [hfed] at hrest ⊢
      exact hpast.feed H hrest hs
    · have hfed : fed gid c = [] := by
        rw [← hone]
        refine fedBytes_of_none ?_
        rintro ⟨bytes, hmem⟩
        exact hc ⟨bytes, (List.mem_singleton.mp hmem).symm⟩
      rw [hfed, List.append_nil]
      refine hpast.idle (idle_exec T H fun bytes h => hc ⟨bytes, h⟩) fun hn => ?_
      have hnone : fedBytes gid (past ++ [c]) = [] := by
        refine hu.start ?_
        rw [run_append]
        exact hn
      rw [fedBytes_append] at hnone
      exact (List.append_eq_nil_iff.mp hnone).1

/-! ## A subscriber -/

/-- Subscribers have queues that were made. -/
def Numbered (b : LiveOutput) : Prop :=
  ∀ g buf, b.buf? g = some buf → ∀ q ∈ buf.subs, q < b.queueCount

/-- A queue watches a generation, and no other; it has what was appended since,
unless it was full. -/
structure Follows (gid : String) (q : Nat) (before : List Text) (b : LiveOutput) : Prop where
  made : q < b.queueCount
  joined : ∃ buf, b.buf? gid = some buf ∧ q ∈ buf.subs
  alone : ∀ g buf, b.buf? g = some buf → q ∈ buf.subs → g = gid
  received : (b.queues q).overflows = 0 →
    b.appendedTo gid = before ++ (b.queues q).accepted.filterMap id

section Follow

variable {q : Nat} {before : List Text}

theorem Got.numbered {g : String} (h : Got b g b') (H : Numbered b) : Numbered b' := by
  have hc : b'.queueCount = b.queueCount := by rw [h.only]
  intro g' buf hb q hq
  rw [hc]
  by_cases hg : g' = g
  · subst hg
    obtain ⟨buf', hb', hold | ⟨-, rfl⟩⟩ := h.found
    · rw [hb, Option.some.injEq] at hb'
      subst hb'
      exact H g' buf hold q hq
    · rw [hb, Option.some.injEq] at hb'
      subst hb'
      cases hq
  · exact H g' buf (h.known g' buf hg hb) q hq

theorem Got.follows {g : String} (h : Got b g b') (F : Follows gid q before b) :
    Follows gid q before b' := by
  obtain ⟨buf, hb, hq⟩ := F.joined
  refine ⟨by rw [h.only]; exact F.made, ⟨buf, h.watched gid buf hb ?_, hq⟩, ?_, ?_⟩
  · cases hs : buf.subs with
    | nil => rw [hs] at hq; cases hq
    | cons x l => rw [GenBuf.watched, hs]; rfl
  · intro g' buf' hb' hq'
    by_cases hg : g' = g
    · subst hg
      obtain ⟨buf'', hb'', hold | ⟨-, rfl⟩⟩ := h.found
      · rw [hb', Option.some.injEq] at hb''
        subst hb''
        exact F.alone g' buf' hold hq'
      · rw [hb', Option.some.injEq] at hb''
        subst hb''
        cases hq'
    · exact F.alone g' buf' (h.known g' buf' hg hb') hq'
  · rw [h.only]
    exact F.received

/-- The same subscribers, queues and pieces. -/
structure Tuned (b b' : LiveOutput) : Prop where
  subs : ∀ g, (b'.buf? g).map (·.subs) = (b.buf? g).map (·.subs)
  queues : b'.queues = b.queues
  queueCount : b'.queueCount = b.queueCount
  appended : b'.appended = b.appended

theorem tuned_setBuf (g : String) {f : GenBuf → GenBuf} (hf : ∀ buf, (f buf).subs = buf.subs) :
    Tuned b (b.setBuf g f) :=
  ⟨(alike_setBuf g hf).subs, rfl, rfl, rfl⟩

theorem subs_of_map {g : String} {buf' : GenBuf}
    (h : ∀ g, (b'.buf? g).map (·.subs) = (b.buf? g).map (·.subs)) (hb : b'.buf? g = some buf') :
    ∃ buf, b.buf? g = some buf ∧ buf.subs = buf'.subs := by
  have hg := h g
  rw [hb] at hg
  exact Option.map_eq_some_iff.mp hg.symm

theorem Tuned.numbered (h : Tuned b b') (H : Numbered b) : Numbered b' := by
  intro g buf hb q hq
  obtain ⟨buf', hb', hs⟩ := subs_of_map h.subs hb
  rw [h.queueCount]
  exact H g buf' hb' q (hs ▸ hq)

/-- A step that keeps the subscribers, and treats the queue as it treats the
generation's pieces. -/
theorem Follows.step (F : Follows gid q before b)
    (hsubs : ∀ g, (b'.buf? g).map (·.subs) = (b.buf? g).map (·.subs))
    (hc : b'.queueCount = b.queueCount)
    (hr : (b'.queues q).overflows = 0 →
      b'.appendedTo gid = before ++ (b'.queues q).accepted.filterMap id) :
    Follows gid q before b' := by
  obtain ⟨buf, hb, hq⟩ := F.joined
  refine ⟨hc ▸ F.made, ?_, fun g buf' hb' hq' => ?_, hr⟩
  · obtain ⟨buf', hb', hs⟩ := subs_of_map (fun g => (hsubs g).symm) hb
    exact ⟨buf', hb', hs ▸ hq⟩
  · obtain ⟨buf'', hb'', hs⟩ := subs_of_map hsubs hb'
    exact F.alone g buf'' hb'' (hs ▸ hq')

theorem Tuned.follows (h : Tuned b b') (F : Follows gid q before b) : Follows gid q before b' := by
  refine F.step h.subs h.queueCount ?_
  rw [h.queues, appendedTo, h.appended]
  exact F.received

/-- The subscribers of a generation include its followers only. -/
theorem Follows.mem_subs (F : Follows gid q before b) (g : String) :
    q ∈ ((b.buf? g).map (·.subs)).getD [] ↔ g = gid := by
  constructor
  · intro h
    cases hb : b.buf? g with
    | none => rw [hb] at h; cases h
    | some buf => rw [hb] at h; exact F.alone g buf hb h
  · rintro rfl
    obtain ⟨buf, hb, hq⟩ := F.joined
    rw [hb]
    exact hq

theorem Follows.append (F : Follows gid q before b) (g : String) (piece : Text) :
    Follows gid q before (b.append g piece) := by
  refine F.step (alike_append g piece).subs rfl ?_
  have hqueue : (b.append g piece).queues q =
      if q ∈ ((b.buf? g).map (·.subs)).getD [] then (b.queues q).put (some piece)
      else b.queues q := rfl
  rw [hqueue]
  by_cases hg : g = gid
  · subst hg
    rw [if_pos ((F.mem_subs g).mpr rfl), appendedTo_append, SubQueue.put]
    split
    · intro h
      cases h
    · intro h
      rw [F.received h, List.filterMap_append, List.append_assoc]
      rfl
  · rw [if_neg (fun h => hg ((F.mem_subs g).mp h)),
      (quiet_append (b := b) (Ne.symm hg) piece).appended]
    exact F.received

theorem Follows.frameLoop (F : Follows gid q before b) (T : Codec) (g : String) (fuel : Nat)
    (carry : Bytes) : Follows gid q before (LiveOutput.frameLoop T g fuel carry b).2 := by
  induction fuel generalizing carry b with
  | zero => exact F
  | succ fuel ih =>
    rw [LiveOutput.frameLoop]
    split
    · exact F
    · split
      · exact ih F _
      · exact ih (F.append g _) _

theorem numbered_append (H : Numbered b) (g : String) (piece : Text) :
    Numbered (b.append g piece) := by
  intro g' buf hb q hq
  obtain ⟨buf', hb', hs⟩ := subs_of_map (alike_append g piece).subs hb
  exact H g' buf' hb' q (hs ▸ hq)

theorem numbered_frameLoop (H : Numbered b) (T : Codec) (g : String) (fuel : Nat) (carry : Bytes) :
    Numbered (LiveOutput.frameLoop T g fuel carry b).2 := by
  induction fuel generalizing carry b with
  | zero => exact H
  | succ fuel ih =>
    rw [LiveOutput.frameLoop]
    split
    · exact H
    · split
      · exact ih H _
      · exact ih (numbered_append H g _) _

/-- A buffer with other subscribers. -/
theorem buf?_setBuf_cases {g g' : String} {f : GenBuf → GenBuf} {buf' : GenBuf}
    (h : (b.setBuf g f).buf? g' = some buf') :
    (g' = g ∧ ∃ buf, b.buf? g = some buf ∧ buf' = f buf) ∨ (g' ≠ g ∧ b.buf? g' = some buf') := by
  by_cases hg : g' = g
  · subst hg
    rw [buf?_setBuf_self] at h
    obtain ⟨buf, hb, rfl⟩ := Option.map_eq_some_iff.mp h
    exact .inl ⟨rfl, buf, hb, rfl⟩
  · rw [buf?_setBuf_of_ne b hg] at h
    exact .inr ⟨hg, h⟩

theorem numbered_exec (T : Codec) (H : Sound b) (N : Numbered b) (c : Call) :
    Numbered (b.exec T c).1 := by
  cases c with
  | feed g bytes =>
    show Numbered (b.feed T g bytes).1
    rcases get_cases H g true with ⟨b', heq, hgot, -⟩ | ⟨h, -, -⟩ | ⟨-, -, -, heq⟩
    · rw [feed, heq]
      refine Tuned.numbered (tuned_setBuf g ?_) (numbered_frameLoop (hgot.numbered N) T g _ _)
      intro _
      rfl
    · cases h
    · rw [feed, heq]
      exact N
  | subscribe g create =>
    show Numbered (b.subscribe g create).1
    rcases get_cases H g create with ⟨b', heq, hgot, -⟩ | ⟨-, hn, heq⟩ | ⟨-, -, -, heq⟩
    · obtain ⟨buf, hb, -⟩ := hgot.found
      have N' := hgot.numbered N
      simp only [subscribe, heq, hb]
      split
      · exact N'
      · intro g' buf' hb' q hq
        show q < b'.queueCount + 1
        have hb'' : (b'.setBuf g fun buf =>
            { buf with subs := b'.queueCount :: buf.subs }).buf? g' = some buf' := hb'
        rcases buf?_setBuf_cases hb'' with ⟨rfl, buf₀, hb₀, rfl⟩ | ⟨-, hb₀⟩
        · rcases List.mem_cons.mp hq with rfl | hq
          · exact Nat.lt_succ_self _
          · exact Nat.lt_succ_of_lt (N' _ buf₀ hb₀ q hq)
        · exact Nat.lt_succ_of_lt (N' g' buf' hb₀ q hq)
    · simp only [subscribe, heq, hn]
      exact N
    · simp only [subscribe, heq]
      exact N
  | unsubscribe g q =>
    show Numbered (b.unsubscribe g q)
    rw [unsubscribe]
    split
    · exact N
    · rename_i buf hb
      dsimp only
      split
      · intro g' buf' hb' q' hq'
        by_cases hg : g' = g
        · subst hg
          rw [show buf? _ g' = Lru.get? (Lru.erase b.buffers g') g' from rfl,
            Lru.get?_erase_self] at hb'
          cases hb'
        · exact N g' buf' ((Lru.get?_erase_of_ne b.buffers hg).symm.trans hb') q' hq'
      · intro g' buf' hb' q' hq'
        rcases buf?_setBuf_cases hb' with ⟨rfl, buf₀, hb₀, rfl⟩ | ⟨-, hb₀⟩
        · exact N g' buf hb q' (List.mem_filter.mp hq').1
        · exact N g' buf' hb₀ q' hq'
  | markDone g =>
    show Numbered (b.markDone g)
    rw [markDone]
    split
    · exact N
    · have ht : Tuned b (b.setBuf g fun buf => { buf with done := true }) :=
        tuned_setBuf g fun _ => rfl
      exact ht.numbered N
  | take q => exact N

theorem filterMap_put (q : SubQueue) (h : (q.put none).overflows = 0) :
    q.overflows = 0 ∧ (q.put none).accepted.filterMap id = q.accepted.filterMap id := by
  rw [SubQueue.put] at h ⊢
  split at h
  · cases h
  · rename_i hf
    rw [if_neg hf]
    refine ⟨h, ?_⟩
    rw [List.filterMap_append]
    exact List.append_nil _

/-- A follower stays one, up to its own `unsubscribe`. -/
theorem Follows.exec (T : Codec) (H : Sound b) (F : Follows gid q before b) {c : Call}
    (hc : c ≠ .unsubscribe gid q) : Follows gid q before (b.exec T c).1 := by
  cases c with
  | feed g bytes =>
    show Follows gid q before (b.feed T g bytes).1
    rcases get_cases H g true with ⟨b', heq, hgot, -⟩ | ⟨h, -, -⟩ | ⟨-, -, -, heq⟩
    · rw [LiveOutput.feed, heq]
      refine Tuned.follows (tuned_setBuf g ?_) ((hgot.follows F).frameLoop T g _ _)
      intro _
      rfl
    · cases h
    · rw [LiveOutput.feed, heq]
      exact F
  | subscribe g create =>
    show Follows gid q before (b.subscribe g create).1
    rcases get_cases H g create with ⟨b', heq, hgot, -⟩ | ⟨-, hn, heq⟩ | ⟨-, -, -, heq⟩
    · obtain ⟨buf, hb, -⟩ := hgot.found
      have F' := hgot.follows F
      simp only [subscribe, heq, hb]
      split
      · exact F'
      · have hne : q ≠ b'.queueCount := Nat.ne_of_lt F'.made
        obtain ⟨buf', hb', hq'⟩ := F'.joined
        refine ⟨Nat.lt_succ_of_lt F'.made, ?_, ?_, ?_⟩
        · show ∃ buf'', (b'.setBuf g fun buf =>
            { buf with subs := b'.queueCount :: buf.subs }).buf? gid = some buf'' ∧ q ∈ buf''.subs
          by_cases hg : gid = g
          · subst hg
            rw [buf?_setBuf_self, hb']
            exact ⟨_, rfl, List.mem_cons_of_mem _ hq'⟩
          · rw [buf?_setBuf_of_ne b' hg]
            exact ⟨buf', hb', hq'⟩
        · intro g' buf'' hb'' hq''
          have hb''' : (b'.setBuf g fun buf =>
              { buf with subs := b'.queueCount :: buf.subs }).buf? g' = some buf'' := hb''
          rcases buf?_setBuf_cases hb''' with ⟨rfl, buf₀, hb₀, rfl⟩ | ⟨-, hb₀⟩
          · rcases List.mem_cons.mp hq'' with h | h
            · exact absurd h hne
            · exact F'.alone _ buf₀ hb₀ h
          · exact F'.alone g' buf'' hb₀ hq''
        · show ((if q = b'.queueCount then {} else b'.queues q : SubQueue)).overflows = 0 →
            b'.appendedTo gid = before ++
              (if q = b'.queueCount then {} else b'.queues q : SubQueue).accepted.filterMap id
          rw [if_neg hne]
          exact F'.received
    · simp only [subscribe, heq, hn]
      exact F
    · simp only [subscribe, heq]
      exact F
  | unsubscribe g q' =>
    show Follows gid q before (b.unsubscribe g q')
    rw [unsubscribe]
    split
    · exact F
    · rename_i buf hb
      dsimp only
      obtain ⟨buf', hb', hq⟩ := F.joined
      have hstays : g = gid → q ∈ buf.subs.filter (· ≠ q') := by
        rintro rfl
        rw [hb, Option.some.injEq] at hb'
        subst hb'
        refine List.mem_filter.mpr ⟨hq, ?_⟩
        have hne : q ≠ q' := by
          rintro rfl
          exact hc rfl
        simpa using hne
      split
      · rename_i hd
        have hg : gid ≠ g := by
          rintro rfl
          have hempty : (buf.subs.filter (· ≠ q')).isEmpty = true := (Bool.and_eq_true_iff.mp hd).2
          rw [List.isEmpty_iff.mp hempty] at hstays
          cases hstays rfl
        refine ⟨F.made, ⟨buf', (Lru.get?_erase_of_ne b.buffers hg).trans hb', hq⟩, ?_, F.received⟩
        intro g' buf'' hb'' hq''
        by_cases hg' : g' = g
        · subst hg'
          rw [show buf? _ g' = Lru.get? (Lru.erase b.buffers g') g' from rfl,
            Lru.get?_erase_self] at hb''
          cases hb''
        · exact F.alone g' buf'' ((Lru.get?_erase_of_ne b.buffers hg').symm.trans hb'') hq''
      · refine ⟨F.made, ?_, ?_, F.received⟩
        · by_cases hg : gid = g
          · subst hg
            rw [buf?_setBuf_self, hb]
            exact ⟨_, rfl, hstays rfl⟩
          · rw [buf?_setBuf_of_ne b hg]
            exact ⟨buf', hb', hq⟩
        · intro g' buf'' hb'' hq''
          rcases buf?_setBuf_cases hb'' with ⟨rfl, buf₀, hb₀, rfl⟩ | ⟨-, hb₀⟩
          · exact F.alone g' buf hb (List.mem_filter.mp hq'').1
          · exact F.alone g' buf'' hb₀ hq''
  | markDone g =>
    show Follows gid q before (b.markDone g)
    rw [markDone]
    split
    · exact F
    · rename_i buf hb
      have ha : Alike b (b.setBuf g fun buf => { buf with done := true }) :=
        alike_setBuf g fun _ => rfl
      refine F.step ha.subs rfl ?_
      show (if q ∈ buf.subs then (b.queues q).put none else b.queues q).overflows = 0 →
        b.appendedTo gid = before ++
          (if q ∈ buf.subs then (b.queues q).put none else b.queues q).accepted.filterMap id
      split
      · intro h
        obtain ⟨h0, heq⟩ := filterMap_put _ h
        rw [heq]
        exact F.received h0
      · exact F.received
  | take q' =>
    refine F.step (fun _ => rfl) rfl ?_
    show (if q = q' then { b.queues q' with taken := _ } else b.queues q : SubQueue).overflows = 0 →
      b.appendedTo gid = before ++ (if q = q' then { b.queues q' with taken := _ }
        else b.queues q : SubQueue).accepted.filterMap id
    by_cases h : q = q'
    · rw [if_pos h, ← h]
      exact F.received
    · rw [if_neg h]
      exact F.received

theorem numbered_run (T : Codec) (H : Sound b) (N : Numbered b) (calls : List Call) :
    Numbered (b.run T calls) := by
  induction calls generalizing b with
  | nil => exact N
  | cons c calls ih => exact ih (spares_exec T H c).sound (numbered_exec T H N c)

theorem Follows.run (T : Codec) (H : Sound b) (F : Follows gid q before b) {calls : List Call}
    (hc : .unsubscribe gid q ∉ calls) : Follows gid q before (b.run T calls) := by
  induction calls generalizing b with
  | nil => exact F
  | cons c calls ih =>
    refine ih (spares_exec T H c).sound (F.exec T H ?_) fun h => hc (List.mem_cons_of_mem c h)
    rintro rfl
    exact hc List.mem_cons_self

/-- A subscriber is given the tail, and follows from then on. -/
theorem follows_subscribe {create : Bool} {replay : Text} {done : Bool} (H : Sound b)
    (N : Numbered b) (h : (b.subscribe gid create).2 = .ok (some q, replay, done)) :
    Follows gid q (b.appendedTo gid) (b.subscribe gid create).1 ∧
      ∃ carry, (b.text? gid).getD ([], []) = (replay, carry) := by
  rcases get_cases H gid create with ⟨b', heq, hgot, -⟩ | ⟨-, hn, heq⟩ | ⟨-, -, -, heq⟩
  · obtain ⟨buf, hb, hold⟩ := hgot.found
    have N' := hgot.numbered N
    simp only [subscribe, heq, hb] at h ⊢
    split at h
    · cases h
    · rename_i hfull
      rw [if_neg hfull]
      cases h
      refine ⟨⟨Nat.lt_succ_self _, ?_, ?_, fun _ => ?_⟩, buf.carry, ?_⟩
      · show ∃ buf', (b'.setBuf gid fun buf =>
          { buf with subs := b'.queueCount :: buf.subs }).buf? gid = some buf' ∧ _ ∈ buf'.subs
        rw [buf?_setBuf_self, hb]
        exact ⟨_, rfl, List.mem_cons_self⟩
      · intro g buf' hb' hq
        have hb'' : (b'.setBuf gid fun buf =>
            { buf with subs := b'.queueCount :: buf.subs }).buf? g = some buf' := hb'
        rcases buf?_setBuf_cases hb'' with ⟨rfl, -⟩ | ⟨-, hb₀⟩
        · rfl
        · exact absurd (N' g buf' hb₀ _ hq) (Nat.lt_irrefl _)
      · show b'.appendedTo gid = b.appendedTo gid ++ List.filterMap id
          (if b'.queueCount = b'.queueCount then {} else b'.queues b'.queueCount :
          SubQueue).accepted
        rw [if_pos rfl, hgot.idle.appended]
        exact (List.append_nil _).symm
      · have hx := hgot.idle.text (buf.tail, buf.carry) (by rw [text?, hb]; rfl)
        exact hx.symm
  · simp only [subscribe, heq, hn] at h
    cases h
  · simp only [subscribe, heq] at h
    cases h

end Follow

/-- What a run of calls leaves of the stream fed to a generation, however it was
cut: its pieces were appended, the tail is the end of them, and what is left
waits.  A subscriber whose queue never was full was given the end of the pieces
before it and all pieces after. -/
theorem tee_ignores_chunks (T : Codec) (gid : String) (maxKeys : Int) (tailBytes : Nat)
    (calls : List Call) (hu : Unevicted T { maxKeys, tailBytes } gid calls)
    (hfit : sse.Fits carryMaxBytes (fedBytes gid calls)) :
    (run T { maxKeys, tailBytes } calls).appendedTo gid = piecesOf T (fedBytes gid calls) ∧
    (∀ buf, (run T { maxKeys, tailBytes } calls).buf? gid = some buf →
      buf.tail = lastChars tailBytes (piecesOf T (fedBytes gid calls)).flatten ∧
      buf.carry = (sse.frames (fedBytes gid calls)).2) ∧
    ∀ past create later q replay done, calls = past ++ .subscribe gid create :: later →
      ((run T { maxKeys, tailBytes } past).subscribe gid create).2 = .ok (some q, replay, done) →
      .unsubscribe gid q ∉ later →
      ((run T { maxKeys, tailBytes } calls).queues q).overflows = 0 →
      ∃ before after, piecesOf T (fedBytes gid calls) = before ++ after ∧
        replay = lastChars tailBytes before.flatten ∧
        ((run T { maxKeys, tailBytes } calls).queues q).accepted.filterMap id = after ∧
        lastChars tailBytes (piecesOf T (fedBytes gid calls)).flatten <:+
          replay ++ after.flatten := by
  have h := holds_run T gid maxKeys tailBytes calls hu hfit
  refine ⟨h.appended, fun buf hb => ?_, ?_⟩
  · have hx := h.text (buf.tail, buf.carry) (by rw [text?, hb]; rfl)
    rw [h.size, Prod.mk.injEq] at hx
    exact hx
  · intro past create later q replay done heq hsub hstay hroom
    have H := sound_run T (sound_new maxKeys tailBytes) past
    have N := numbered_run T (sound_new maxKeys tailBytes) (by intro _ _ h; cases h) past
    have hpast := holds_run T gid maxKeys tailBytes past (hu.before heq) (by
      rw [heq, fedBytes_append] at hfit
      exact hfit.before)
    obtain ⟨F, carry, htail⟩ := follows_subscribe H N hsub
    have F' := F.run T (spares_exec T H (.subscribe gid create)).sound hstay
    have hrun : run T { maxKeys, tailBytes } calls =
        ((run T { maxKeys, tailBytes } past).exec T (.subscribe gid create)).1.run T later := by
      rw [heq, run_append]
      rfl
    rw [← hrun] at F'
    have hall := F'.received hroom
    rw [h.appended, hpast.appended] at hall
    rw [hpast.getD, hpast.size, Prod.mk.injEq] at htail
    refine ⟨_, _, hall, htail.1.symm, rfl, ?_⟩
    rw [hall, List.flatten_append, ← htail.1]
    exact lastChars_suffix_append _ _ _

/-- `Unevicted` on a run, prefix by prefix. -/
theorem unevicted_of_check {calls : List Call}
    (h : ∀ n ≤ calls.length, ((b.run T (calls.take n)).buf? gid).isSome ∨
      (calls.take n).all fun c => match c with
        | .feed g _ => g ≠ gid
        | _ => true) :
    Unevicted T b gid calls := by
  rintro past rest rfl ⟨bytes, hmem⟩
  have hn := h past.length (by simp)
  rw [List.take_left] at hn
  rcases hn with hs | hall
  · exact hs
  · have hne := List.all_eq_true.mp hall _ hmem
    simp at hne

/-- ASCII text, read as it is. -/
def asciiCodec : Codec where
  loads bytes := JsonText.loads .nans
    (bytes.map fun b => Char.ofNat b.toNat)
  str
    | .str s => s.toList
    | _ => []
  floats := .nans

/-- A frame whose delimiter is cut, with a subscriber before its second chunk. -/
def cutFrame : List Call :=
  [.feed "gen"
      "data: \x7b\"choices\":[\x7b\"delta\":\x7b\"content\":\"hi\"\x7d\x7d]\x7d\n".toUTF8.toList,
    .subscribe "gen" true, .feed "gen" [], .feed "gen" [10, 100]]

theorem tee_ignores_chunks_cut :
    (run asciiCodec { maxKeys := 8, tailBytes := 16384 } cutFrame).appendedTo "gen" =
      piecesOf asciiCodec (fedBytes "gen" cutFrame) :=
  (tee_ignores_chunks asciiCodec "gen" 8 16384 cutFrame
    (unevicted_of_check (by decide +kernel)) (by decide +kernel)).1

example : (run asciiCodec {} cutFrame).appendedTo "gen" = ["hi".toList] := by decide +kernel

end LiveOutput

end Turbohaul.LiveMonitor
