/-
# `LiveOutput` — the text plane of the live monitor

`LiveOutputBuffer`: a bounded buffer of output text for each generation, fed by
the streaming tee and watched over queues.

  `consumeFrame`   `_consume_frame`: the text a frame of the stream adds
  `GenBuf`         `_GenBuf`
  `LiveOutput`     `LiveOutputBuffer`, with the queues of its subscribers
  `exec`           a call of one of its methods, or a read of a queue

`appended` is every piece that was appended, in order, and `overflows` counts the
pieces a queue lost; no method reads them.
-/
import Turbohaul.Lru
import Turbohaul.JsonText

namespace Turbohaul.LiveMonitor

abbrev Bytes := List UInt8

abbrev Text := List Char

/-- `MAX_LIVE_KEYS`. -/
def maxLiveKeys : Int := 8

/-- `TEXT_TAIL_BYTES`. -/
def textTailBytes : Nat := 16384

/-- `MAX_SUBS_PER_GEN`. -/
def maxSubsPerGen : Nat := 32

/-- `CARRY_MAX_BYTES`. -/
def carryMaxBytes : Nat := 65536

/-- `maxsize` of a subscriber's queue. -/
def queueMax : Nat := 512

/-! ## Frames -/

/-- What `_consume_frame` takes from the standard library: `json.loads` on bytes,
none where it raises, `str` of a value, and the text of a float. -/
structure Codec where
  loads : Bytes → Option Json
  str : Json → Text
  floats : FloatText

section Frame

variable (T : Codec)

/-- `bytes.isspace` of one byte. -/
def isByteSpace (b : UInt8) : Bool := b = 32 || (9 ≤ b && b ≤ 13)

/-- `line.strip()` on bytes. -/
def stripBytes (line : Bytes) : Bytes :=
  ((line.dropWhile isByteSpace).reverse.dropWhile isByteSpace).reverse

/-- `x or {}`, then `x.get`: none where `x` is true and no dictionary. -/
def orDict (x : Json) : Option Dict :=
  if x.truthy then match x with
    | .obj d => some d
    | _ => none
  else some []

/-- `x or []`, then a loop that calls `get` on what it draws: what a string or a
dictionary gives has no `get`, and a number gives nothing. -/
def orList (x : Json) : Option (List Json) :=
  if x.truthy then match x with
    | .arr l => some l
    | _ => none
  else some []

/-- The pieces of one entry of `delta.tool_calls`. -/
def toolPieces : Json → Option (List Text)
  | .obj tc => (orDict (Dict.get tc "function")).map fun fn =>
      let name := Dict.get fn "name"
      let arg := Dict.get fn "arguments"
      (if name.truthy then ["\n→ tool_call: ".toList ++ T.str name ++ [' ']] else []) ++
        match arg with
        | .null => []
        | .str s => [s.toList]
        | arg => [JsonText.dumps T.floats arg]
  | _ => none

/-- The pieces of one entry of `choices`. -/
def choicePieces : Json → Option (List Text)
  | .obj choice => (orDict (Dict.get choice "delta")).bind fun delta =>
      let c := Dict.get delta "content"
      let rc := Dict.get delta "reasoning_content"
      (orList (Dict.get delta "tool_calls")).bind fun tcs =>
        (tcs.mapM (toolPieces T)).map fun tools =>
          (if c.truthy then [T.str c] else []) ++ (if rc.truthy then [T.str rc] else []) ++
            tools.flatten
  | _ => none

/-- The pieces of one line of a frame; none where the loop raises. -/
def linePieces (rawLine : Bytes) : Option (List Text) :=
  let line := stripBytes rawLine
  if "data:".toUTF8.toList.isPrefixOf line then
    let payload := stripBytes (line.drop 5)
    if payload = [] ∨ payload = "[DONE]".toUTF8.toList then some []
    else
      match T.loads payload with
      | none => some []
      | some (.obj obj) => (orList (Dict.get obj "choices")).bind fun choices =>
          (choices.mapM (choicePieces T)).map List.flatten
      | some _ => none
  else some []

/-- `_consume_frame`: the text that is appended, if any.  A frame on which the
loop raises adds none. -/
def consumeFrame (frame : Bytes) : Option Text :=
  match (frame.splitOn 10).mapM (linePieces T) with
  | none => none
  | some pieces => if pieces.flatten = [] then none else some pieces.flatten.flatten

end Frame

/-! ## Buffers -/

/-- `_GenBuf`; `subs` names the queues of its subscribers. -/
structure GenBuf where
  tail : Text := []
  carry : Bytes := []
  done : Bool := false
  subs : List Nat := []
deriving DecidableEq

/-- Somebody watches. -/
def GenBuf.watched (buf : GenBuf) : Bool := !buf.subs.isEmpty

/-- A subscriber's `asyncio.Queue`: what it accepted, in order, how much of that was
read, and how often it was full.  `None` is the done sentinel. -/
structure SubQueue where
  accepted : List (Option Text) := []
  taken : Nat := 0
  overflows : Nat := 0
deriving DecidableEq

/-- `q.full()`. -/
def SubQueue.full (q : SubQueue) : Bool := decide (queueMax ≤ q.accepted.length - q.taken)

/-- `put_nowait`, with `QueueFull` suppressed. -/
def SubQueue.put (q : SubQueue) (x : Option Text) : SubQueue :=
  if q.full then { q with overflows := q.overflows + 1 }
  else { q with accepted := q.accepted ++ [x] }

/-- `LiveOutputBuffer`. -/
structure LiveOutput where
  maxKeys : Int := maxLiveKeys
  tailBytes : Nat := textTailBytes
  buffers : List (String × GenBuf) := []
  queues : Nat → SubQueue := fun _ => {}
  queueCount : Nat := 0
  appended : List (String × Text) := []

/-- `s[-n:]`. -/
def lastChars (n : Nat) (s : Text) : Text := if n = 0 then s else s.drop (s.length - n)

/-- The leftmost `\n\n` and what stands around it: `carry.split(b"\n\n", 1)`. -/
def splitFrame : Bytes → Option (Bytes × Bytes)
  | a :: b :: rest =>
    if a = 10 ∧ b = 10 then some ([], rest)
    else (splitFrame (b :: rest)).map fun p => (a :: p.1, p.2)
  | _ => none

namespace LiveOutput

/-- The buffer of a generation. -/
def buf? (b : LiveOutput) (gid : String) : Option GenBuf := Lru.get? b.buffers gid

/-- How many buffers are watched. -/
def watchedCount (b : LiveOutput) : Nat := Lru.pins GenBuf.watched b.buffers

def setBuf (b : LiveOutput) (gid : String) (f : GenBuf → GenBuf) : LiveOutput :=
  { b with buffers := Lru.modify b.buffers gid f }

/-- `_get`: whether there is a buffer, which then is the newest.  `move_to_end`
raises a `KeyError` if `_evict` has dropped what was just created. -/
def get (b : LiveOutput) (gid : String) (create : Bool) : LiveOutput × Except Unit Bool :=
  let created :=
    if (b.buf? gid).isNone && create then
      { b with buffers := Lru.add GenBuf.watched b.maxKeys b.buffers gid {} }
    else b
  if (b.buf? gid).isNone && !create then (b, .ok false)
  else
    match Lru.moveToEnd created.buffers gid with
    | none => (created, .error ())
    | some buffers => ({ created with buffers }, .ok true)

/-- `q.put_nowait` on each queue of a set. -/
def putAll (b : LiveOutput) (subs : List Nat) (x : Option Text) : LiveOutput :=
  { b with queues := fun q => if q ∈ subs then (b.queues q).put x else b.queues q }

/-- `_append`. -/
def append (b : LiveOutput) (gid : String) (piece : Text) : LiveOutput :=
  let subs := ((b.buf? gid).map (·.subs)).getD []
  let b := b.setBuf gid fun buf => { buf with tail := lastChars b.tailBytes (buf.tail ++ piece) }
  { b.putAll subs (some piece) with appended := b.appended ++ [(gid, piece)] }

/-- The loop of `feed` on a carry; each pass takes a frame off it. -/
def frameLoop (T : Codec) (gid : String) : Nat → Bytes → LiveOutput → Bytes × LiveOutput
  | 0, carry, b => (carry, b)
  | fuel + 1, carry, b =>
    match splitFrame carry with
    | none => (carry, b)
    | some (frame, rest) =>
      frameLoop T gid fuel rest (match consumeFrame T frame with
        | none => b
        | some piece => b.append gid piece)

/-- `feed`. -/
def feed (T : Codec) (b : LiveOutput) (gid : String) (sseBytes : Bytes) :
    LiveOutput × Except Unit Unit :=
  match b.get gid true with
  | (b, .error e) => (b, .error e)
  | (b, .ok false) => (b, .ok ())
  | (b, .ok true) =>
    let carry := ((b.buf? gid).map (·.carry)).getD [] ++ sseBytes
    let (rest, b) := frameLoop T gid carry.length carry b
    (b.setBuf gid fun buf =>
      { buf with carry := if carryMaxBytes < rest.length then [] else rest }, .ok ())

/-- `subscribe`: the queue, the replay tail and `done`. -/
def subscribe (b : LiveOutput) (gid : String) (allowCreate : Bool) :
    LiveOutput × Except Unit (Option Nat × Text × Bool) :=
  match b.get gid allowCreate with
  | (b, .error e) => (b, .error e)
  | (b, .ok _) =>
    match b.buf? gid with
    | none => (b, .ok (none, [], true))
    | some buf =>
      if maxSubsPerGen ≤ buf.subs.length then (b, .ok (none, buf.tail, buf.done))
      else
        let q := b.queueCount
        ({ b.setBuf gid fun buf => { buf with subs := q :: buf.subs } with
            queues := fun q' => if q' = q then {} else b.queues q'
            queueCount := q + 1 }, .ok (some q, buf.tail, buf.done))

/-- `unsubscribe`. -/
def unsubscribe (b : LiveOutput) (gid : String) (q : Nat) : LiveOutput :=
  match b.buf? gid with
  | none => b
  | some buf =>
    let subs := buf.subs.filter (· ≠ q)
    if buf.done && subs.isEmpty then { b with buffers := Lru.erase b.buffers gid }
    else b.setBuf gid fun buf => { buf with subs }

/-- `mark_done`. -/
def markDone (b : LiveOutput) (gid : String) : LiveOutput :=
  match b.buf? gid with
  | none => b
  | some buf => (b.setBuf gid fun buf => { buf with done := true }).putAll buf.subs none

/-- A subscriber reads its queue: `q.get()`. -/
def take (b : LiveOutput) (q : Nat) : LiveOutput :=
  let read := { b.queues q with
    taken := min ((b.queues q).taken + 1) (b.queues q).accepted.length }
  { b with queues := fun q' => if q' = q then read else b.queues q' }

end LiveOutput

/-- A call of a method, or a read of a queue. -/
inductive Call where
  | feed (gid : String) (sseBytes : Bytes)
  | subscribe (gid : String) (allowCreate : Bool)
  | unsubscribe (gid : String) (q : Nat)
  | markDone (gid : String)
  | take (q : Nat)

namespace LiveOutput

/-- The state after a call, and whether it raised. -/
def exec (T : Codec) (b : LiveOutput) : Call → LiveOutput × Except Unit Unit
  | .feed gid sseBytes => b.feed T gid sseBytes
  | .subscribe gid allowCreate => ((b.subscribe gid allowCreate).1,
      (b.subscribe gid allowCreate).2.map fun _ => ())
  | .unsubscribe gid q => (b.unsubscribe gid q, .ok ())
  | .markDone gid => (b.markDone gid, .ok ())
  | .take q => (b.take q, .ok ())

/-- The state after some calls; one that raised leaves what it did. -/
def run (T : Codec) (b : LiveOutput) (calls : List Call) : LiveOutput :=
  calls.foldl (fun b c => (b.exec T c).1) b

end LiveOutput

end Turbohaul.LiveMonitor
