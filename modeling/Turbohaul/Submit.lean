/-
# `Submit` — requests on their way in, and the routes that wait for them

`submit` and its two callers, and the two routes that own the upstream
connection of their slot.  A route waits for `stream_ready_event`, talks to
the sidecar, and sets `stream_done_event` however that ends.

The bytes a route pipes, its heartbeats and its HTTP errors are left out: what
the manager sees of a route is when it submits, waits and reports.
-/
import Turbohaul.Queue

namespace Turbohaul

open Coop

variable (C : Config)

/-- `Slot.new`, with the attributes `submit` sets before the slot is queued. -/
def newSlot (q : Request) (threadId : String) (now : Nat) (wait : Bool) : Slot :=
  { modelTag := q.modelTag
    threadId
    clientMeta := q.clientMeta
    createdAt := now
    completionFuture := if wait then .pending else .absent
    disconnectEvent := if q.watched then some false else none }

/-- A new slot, the local of task `t`. -/
def World.alloc (t : Nat) (x : Slot) (w : World) : World :=
  { w with slot := setAt w.slot w.slotCount x, slotCount := w.slotCount + 1 }.setTask t
    fun k => { k with slot := some w.slotCount }

/-- Allocate the slot. -/
def allocSlot (t : Nat) (x : Slot) : Prog Nat :=
  .act fun w => (.ok w.slotCount, w.alloc t x)

/-- A follow-up inside the grace window jumps the queue. -/
def enqueueFresh (s : Nat) (followUp : Bool) : Prog Unit := do
  if followUp then do
    enqueueHead s
    let _ ← restartForFollowup C
    pure ()
  else enqueue C s

/-- `submit`, in task `t`. -/
def submit (t : Nat) (q : Request) (wait : Bool) : Prog Nat := do
  let stop ← Co.gets fun w : World => w.stopEvent
  if stop then
    Co.raise (.queueClosed
      "TurbohaulManager is shutting down — new submissions are refused.")
  else do
    let threadId := if q.threadId = "" then C.deriveThreadId q.prompt q.modelTag else q.threadId
    let created ← monotonic
    let s ← allocSlot t (newSlot q threadId created wait)
    let now ← monotonic
    let g ← Co.gets fun w : World => w.hold.grace
    enqueueFresh C s (g.isMatch C now threadId q.modelTag)
    run (.upsertSlot s)
    auditEventOnlyAsync (some s) "submit"
    pure s

/-- `submit_and_wait`. -/
def submitAndWait (t : Nat) (q : Request) : Prog Unit := do
  let s ← submit C t q true
  sync (.future s)
  let x ← Co.gets fun w : World => w.slot s
  match x.completionFuture with
  | .failed e => Co.raise e
  | _ => pure ()

/-- The events of a slot that its route serves. -/
def Slot.attachEvents (x : Slot) : Slot :=
  { x with streamReadyEvent := some false, streamDoneEvent := some false, streamHandle := none }

/-- `submit_for_streaming`.  The events are attached when `submit` has
returned. -/
def submitForStreaming (t : Nat) (q : Request) : Prog Nat := do
  let s ← submit C t q true
  onSlot s Slot.attachEvents
  pure s

/-- `_SLOT_READY_TIMEOUT_S`, the same number on both routes. -/
def slotReadyTimeoutS : Nat := 7200

/-- The upstream connection of a slot that is ready. -/
def routeUpstream (s : Nat) : Prog Unit := do
  let x ← Co.gets fun w : World => w.slot s
  match x.streamHandle with
  | none => pure ()
  | some pid => Co.tryExcept (sync (.upstream s pid)) fun _ => pure ()

/-- The ready wait of `stream_gen`: heartbeats until the deadline. -/
def awaitReady (s : Nat) : Prog Bool := do
  let start ← monotonic
  let deadline := start + 1000 * slotReadyTimeoutS
  .loop () fun _ => do
    let now ← monotonic
    if deadline ≤ now then pure (.inr false)
    else
      Co.tryExcept
        (do
          sync (.streamReady s)
          pure (.inr true))
        fun
          | .timeout => pure (.inl ())
          | e => Co.raise e

/-- The chat route's `stream_gen`. -/
def streamRoute (t : Nat) (q : Request) : Prog Unit := do
  let s ← submitForStreaming C t q
  Co.tryFinally
    (do
      let ready ← awaitReady s
      Co.when ready (routeUpstream s))
    (onSlot s Slot.setDone)

/-- `post_embeddings`. -/
def embeddingsRoute (t : Nat) (q : Request) : Prog Unit := do
  let s ← submitForStreaming C t q
  Co.tryFinally
    (do
      sync (.streamReady s)
      routeUpstream s)
    (onSlot s Slot.setDone)

end Turbohaul
