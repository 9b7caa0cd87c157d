/-
# `LiveStream` — `GET /ui/live/output/stream`

`api/live_stream.py`.  A viewer's handler follows the generation that is current,
and switches when the anchor does.  It runs between two suspensions, which are its
`yield`s and its awaits; the tee, the pollers and the other viewers run meanwhile.

  `Anchors`          the generation ids the pollers publish
  `Frame`, `Sent`    what `_sse` encodes, and what a viewer is sent
  `Point`            where a handler is suspended
  `Handler.turn`     its loop, from the head to the next suspension
  `Handler.resume`   from a suspension to the next one
  `Handler.leave`    the client goes, or `subscribe` raises: the `finally`
  `Monitor`          the buffers, the anchors and all handlers

`Handler.sent` is everything the handler has yielded; it does not read it.
-/
import Turbohaul.LiveOutput
import Mathlib.Logic.Function.Basic

namespace Turbohaul.LiveMonitor

/-- The generation ids in `live_generation` and in `live_generations`. -/
structure Anchors where
  liveGeneration : Option String := none
  liveGenerations : List (String × Option String) := []

namespace Anchors

/-- `_current_anchor`. -/
def current (a : Anchors) (modelTag : Option String) : Option String :=
  match modelTag with
  | some tag => if tag ≠ "" then (a.liveGenerations.lookup tag).join else a.liveGeneration
  | none => a.liveGeneration

/-- `_tag_for_gid`. -/
def tagFor (a : Anchors) (gid : String) : Option String :=
  if gid = "" then none else (a.liveGenerations.find? fun e => e.2 = some gid).map (·.1)

end Anchors

/-- A frame. -/
structure Frame where
  generationId : Option String
  text : Text := []
  done : Bool := false
  reset : Bool := false
  idle : Bool := false
  modelTag : Option String := none
deriving DecidableEq

/-- What is yielded: a frame, or the heartbeat. -/
inductive Sent where
  | data (f : Frame)
  | keepAlive
deriving DecidableEq

/-- Where a handler is suspended.  `passed` is the `yield` of a piece or of a
heartbeat, after which the loop goes round; `opened` and `finishing` are those of a
reset and of a done frame. -/
inductive Point where
  | start
  | opened (done0 : Bool)
  | idled
  | waiting
  | passed
  | finishing
  | resting
  | sleeping
  | closed
deriving DecidableEq

/-- The queue `q` and the generation `cur` of `gen`, and where it stands. -/
structure Handler where
  modelTag : Option String := none
  cur : Option String := none
  q : Option Nat := none
  point : Point := .start
  sent : List Sent := []
deriving DecidableEq

/-- The next item of a queue. -/
def SubQueue.next? (q : SubQueue) : Option (Option Text) := q.accepted[q.taken]?

namespace Handler

/-- A frame is yielded. -/
def say (f : Frame) (point : Point) (h : Handler) : Handler :=
  { h with sent := h.sent ++ [.data f], point }

/-- The heartbeat is yielded. -/
def beat (h : Handler) : Handler := { h with sent := h.sent ++ [.keepAlive], point := .passed }

/-- `if q is not None and cur is not None: unsubscribe(cur, q); q = None`. -/
def drop (b : LiveOutput) (h : Handler) : LiveOutput × Handler :=
  match h.q, h.cur with
  | some q, some gid => (b.unsubscribe gid q, { h with q := none })
  | _, _ => (b, h)

/-- The `finally`. -/
def leave (b : LiveOutput) (h : Handler) : LiveOutput × Handler :=
  ((h.drop b).1, { (h.drop b).2 with point := .closed })

/-- Down to `q.get()`, or to the sleep of an idle handler. -/
def listen (h : Handler) : Handler :=
  { h with point := if h.q.isSome then .waiting else .sleeping }

/-- The new generation is followed. -/
def follow (a : Anchors) (gid : String) (b : LiveOutput) (h : Handler) : LiveOutput × Handler :=
  match b.subscribe gid true with
  | (b, .ok (q, replay, done0)) =>
    (b, { h with cur := some gid, q }.say
      { generationId := some gid, text := replay, reset := true, modelTag := a.tagFor gid }
      (.opened done0))
  | (b, .error _) => { h with cur := some gid }.leave b

/-- There is none. -/
def rest (anchor : Option String) (h : Handler) : Handler :=
  { h with cur := anchor }.say { generationId := none, reset := true, idle := true } .idled

/-- The loop, from its head. -/
def turn (a : Anchors) (b : LiveOutput) (h : Handler) : LiveOutput × Handler :=
  let anchor := a.current h.modelTag
  if anchor = h.cur then (b, h.listen)
  else
    match anchor with
    | some gid =>
      if gid ≠ "" then (h.drop b).2.follow a gid (h.drop b).1
      else ((h.drop b).1, (h.drop b).2.rest anchor)
    | none => ((h.drop b).1, (h.drop b).2.rest anchor)

/-- The queue is read; an empty one leaves the handler where it is. -/
def read (a : Anchors) (q : Nat) (b : LiveOutput) (h : Handler) : LiveOutput × Handler :=
  let tag := h.cur.bind a.tagFor
  match (b.queues q).next? with
  | none => (b, h)
  | some none =>
    (b.take q, h.say { generationId := h.cur, done := true, modelTag := tag } .finishing)
  | some (some piece) =>
    (b.take q, h.say { generationId := h.cur, text := piece, modelTag := tag } .passed)

/-- From a suspension to the next one.  `timeout` says how `wait_for(q.get())` ends. -/
def resume (a : Anchors) (timeout : Bool) (b : LiveOutput) (h : Handler) : LiveOutput × Handler :=
  match h.point with
  | .start | .passed | .resting => h.turn a b
  | .opened done0 => if done0 then ((h.drop b).1, (h.drop b).2.listen) else (b, h.listen)
  | .idled => (b, h.listen)
  | .waiting =>
    match h.q with
    | none => (b, h)
    | some q => if timeout then (b, h.beat) else h.read a q b
  | .finishing => ((h.drop b).1, { (h.drop b).2 with point := .resting })
  | .sleeping => (b, h.beat)
  | .closed => (b, h)

end Handler

/-- The buffers, what the pollers published, and the handlers opened so far:
`0, …, count - 1`. -/
structure Monitor where
  output : LiveOutput
  anchors : Anchors := {}
  count : Nat := 0
  handlers : Nat → Handler := fun _ => { point := .closed }

/-- A step: of the tee, of the pollers, of a client or of a handler. -/
inductive Tick where
  | feed (gid : String) (sseBytes : Bytes)
  | markDone (gid : String)
  | publish (a : Anchors)
  | connect (modelTag : Option String)
  | resume (i : Nat) (timeout : Bool)
  | leave (i : Nat)

namespace Monitor

/-- A handler has run. -/
def put (m : Monitor) (i : Nat) (r : LiveOutput × Handler) : Monitor :=
  { m with output := r.1, handlers := Function.update m.handlers i r.2 }

def step (T : Codec) (m : Monitor) : Tick → Monitor
  | .feed gid sseBytes => { m with output := (m.output.feed T gid sseBytes).1 }
  | .markDone gid => { m with output := m.output.markDone gid }
  | .publish a => { m with anchors := a }
  | .connect modelTag =>
    { m with count := m.count + 1, handlers := Function.update m.handlers m.count { modelTag } }
  | .resume i timeout => m.put i ((m.handlers i).resume m.anchors timeout m.output)
  | .leave i => m.put i ((m.handlers i).leave m.output)

/-- The monitor of a manager that has just started, after some steps. -/
def run (T : Codec) (maxKeys : Int) (tailBytes : Nat) (ticks : List Tick) : Monitor :=
  ticks.foldl (step T) { output := { maxKeys, tailBytes } }

/-- How many handlers hold a queue. -/
def viewers (m : Monitor) : Nat := (List.range m.count).countP fun i => (m.handlers i).q.isSome

end Monitor

/-- What a frame makes of the text a viewer shows: a reset replaces it, a piece is
appended, and an idle frame leaves it. -/
def Sent.onto (text : Text) : Sent → Text
  | .keepAlive => text
  | .data f => if f.idle then text else if f.reset then f.text else text ++ f.text

/-- The text a viewer shows. -/
def textOf (sent : List Sent) : Text := sent.foldl Sent.onto []

/-- What a queue still holds. -/
def SubQueue.pending (q : SubQueue) : Text := ((q.accepted.drop q.taken).filterMap id).flatten

end Turbohaul.LiveMonitor
