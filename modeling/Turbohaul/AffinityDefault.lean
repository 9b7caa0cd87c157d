/-
# `AffinityDefault` — the affinity settings a queue has by default

With `max_consecutive_same_model = 1` and `max_other_model_wait_s = 0` the
docstring of `pop_next` promises strict FIFO, whatever model is warm.  Nothing is
assumed of the slots here: they may be enqueued twice, in any state, and be changed
from outside between the calls, so a refill may be an illegal transition.

  `Stock`            the queue and its slots
  `World.stock`      the stock of a world
  `computes_…`       each method computes a function of the stock
  `affine_eq_fifo`   a pop with a warm model computes what a cold one does
  `Lockstep`         one client of two queues, the second asked without the models
  `affinity_default_is_fifo`
-/
import Turbohaul.QueueRuns

namespace Turbohaul

open Coop

/-- The queue and its slots. -/
structure Stock where
  queue : Queue
  slot : Nat → Slot

namespace Stock

/-- `disconnect_event` tested on a slot that was taken out. -/
def flag (s : Nat) (st : Stock) : Stock :=
  if (st.slot s).disconnected then
    { st with slot := setAt st.slot s { st.slot s with isEvicted := true } }
  else st

/-- The head of staging. -/
def takeHead (st : Stock) : Option Nat × Stock :=
  match st.queue.staging with
  | [] => (none, st)
  | s :: rest => (some s, { st with queue := { st.queue with staging := rest } }.flag s)

/-- The head of the buffer moves to the tail of staging. -/
def promote (st : Stock) : Res sig Unit × Stock :=
  match st.queue.acceptBuf with
  | [] => (.ok (), st)
  | s :: rest =>
    let st' := { st with queue := { st.queue with acceptBuf := rest } }
    match (st.slot s).transition s .staged with
    | .ok x =>
      (.ok (), ⟨{ st'.queue with staging := st'.queue.staging ++ [s] }, setAt st.slot s x⟩)
    | .error e => (.error (.raised e), st')

/-- There is an entry to move up, and room for it. -/
def movable (C : Config) (st : Stock) : Bool :=
  !st.queue.acceptBuf.isEmpty && st.queue.staging.length < C.stagingQueueDepth

/-- One entry moves up. -/
def refill (C : Config) (st : Stock) : Res sig Unit × Stock :=
  if st.movable C then st.promote else (.ok (), st)

/-- At most `n` entries move up. -/
def fill (C : Config) : Nat → Stock → Res sig Unit × Stock
  | 0, st => (.ok (), st)
  | n + 1, st =>
    if st.movable C then
      match st.promote with
      | (.ok (), st') => st'.fill C n
      | r => r
    else (.ok (), st)

/-- The run-length counter is brought up to date. -/
def count : Option Nat → Stock → Stock
  | none, st => st
  | some s, st =>
    { st with
      queue :=
        { st.queue with
          consecutiveSameModel :=
            if some (st.slot s).modelTag = st.queue.lastPoppedModelTag then
              st.queue.consecutiveSameModel + 1
            else 1
          lastPoppedModelTag := some (st.slot s).modelTag } }

/-- A refill, and then the counter. -/
def close (x : Option Nat) : Res sig Unit × Stock → Res sig (Option Nat) × Stock
  | (.ok (), st) => (.ok x, st.count x)
  | (.error e, st) => (.error e, st)

/-- A slot is accepted, into the tier that has room for it. -/
def enqueue (C : Config) (s : Nat) (st : Stock) : Res sig Unit × Stock :=
  if st.queue.closed then (.error (.raised (.queueClosed "queue closed")), st)
  else if st.queue.staging.length < C.stagingQueueDepth then
    match (st.slot s).transition s .staged with
    | .ok x =>
      (.ok (), ⟨{ st.queue with staging := st.queue.staging ++ [s] }, setAt st.slot s x⟩)
    | .error e => (.error (.raised e), st)
  else if C.acceptanceBufferMax ≤ st.queue.acceptBuf.length then
    (.error (.raised (.queueFull ("acceptance buffer at max " ++ toString C.acceptanceBufferMax))),
      st)
  else
    match (st.slot s).transition s .acceptBuffer with
    | .ok x =>
      (.ok (), ⟨{ st.queue with acceptBuf := st.queue.acceptBuf ++ [s] }, setAt st.slot s x⟩)
    | .error e => (.error (.raised e), st)

/-- A pop of the head. -/
def pop (C : Config) (st : Stock) : Res sig (Option Nat) × Stock :=
  match st.takeHead with
  | (some s, st') => close (some s) (st'.refill C)
  | (none, st') =>
    match st'.fill C st'.queue.acceptBuf.length with
    | (.ok (), st'') => (.ok st''.takeHead.1, st''.takeHead.2.count st''.takeHead.1)
    | (.error e, st'') => (.error e, st'')

end Stock

namespace World

/-- The queue and its slots. -/
def stock (w : World) : Stock := ⟨w.queue, w.slot⟩

theorem stock_flagEvicted (s : Nat) (w : World) : (w.flagEvicted s).stock = w.stock.flag s := by
  unfold flagEvicted Stock.flag
  show (if (w.slot s).disconnected then _ else w).stock = if (w.slot s).disconnected then _ else _
  split
  · rfl
  · rfl

end World

/-! ## What each method computes -/

/-- A program that does not suspend computes this from the stock. -/
def Computes (C : Config) (t : Nat) {α : Type} (m : Prog α) (w : World)
    (out : Res sig α × Stock) : Prop :=
  Total (system C) t m (fun r w' => (r, w'.stock) = out) w

variable {C : Config} {t : Nat}

theorem Computes.then {α β : Type} {m : Prog α} {k : α → Prog β} {w : World}
    {out : Res sig α × Stock} {out' : Res sig β × Stock} (hm : Computes C t m w out)
    (hk : ∀ a w', out = (.ok a, w'.stock) → Computes C t (k a) w' out')
    (he : ∀ e st, out = (.error e, st) → out' = (.error e, st)) : Computes C t (m >>= k) w out' :=
  total_bind hm (fun a w' h => hk a w' h.symm) fun e _ h => (he e _ h.symm).symm

theorem computes_popFirst (w : World) :
    Computes C t popFirst w (.ok w.stock.takeHead.1, w.stock.takeHead.2) := by
  refine total_act ?_
  have hs : w.stock.queue.staging = w.queue.staging := rfl
  unfold Stock.takeHead
  rw [hs]
  cases w.queue.staging with
  | nil => rfl
  | cons s rest => exact Prod.ext rfl (World.stock_flagEvicted s _)

theorem computes_promoteOne (w : World) : Computes C t promoteOne w w.stock.promote := by
  refine total_act ?_
  have hb : w.stock.queue.acceptBuf = w.queue.acceptBuf := rfl
  have hs : w.stock.slot = w.slot := rfl
  unfold Stock.promote
  rw [hb]
  cases w.queue.acceptBuf with
  | nil => rfl
  | cons s rest =>
    cases ht : (w.slot s).transition s .staged with
    | ok x =>
      simp only [World.moveTo, World.setQueue, hs, ht]
      rfl
    | error e =>
      simp only [World.moveTo, World.setQueue, hs, ht]
      rfl

/-- A test of the stock, and a part that is skipped. -/
theorem computes_when {c : Bool} {m : Prog Unit} {w : World} {out : Res sig Unit × Stock}
    (h : Computes C t m w out) :
    Computes C t (Co.when c m) w (if c then out else (.ok (), w.stock)) := by
  refine total_when (fun hc => ?_) fun hc => ?_
  · rw [if_pos hc]
    exact h
  · rw [if_neg (by rw [hc]; exact Bool.false_ne_true)]

theorem computes_replenish (w : World) : Computes C t (replenish C) w (w.stock.refill C) :=
  total_gets_bind (computes_when (computes_promoteOne w))

theorem promote_shortens {st st' : Stock} (h : st.promote = (.ok (), st'))
    (hb : st.queue.acceptBuf ≠ []) :
    st.queue.acceptBuf.length = st'.queue.acceptBuf.length + 1 := by
  unfold Stock.promote at h
  split at h
  · rename_i hnil
    exact absurd hnil hb
  · rename_i s rest hcons
    rw [hcons]
    dsimp only at h
    split at h
    · cases h
      rfl
    · cases h

theorem computes_drainAcceptBuf (w : World) :
    Computes C t (drainAcceptBuf C) w (w.stock.fill C w.stock.queue.acceptBuf.length) := by
  induction hn : w.stock.queue.acceptBuf.length generalizing w with
  | zero =>
    have hb : w.queue.acceptBuf = [] := List.length_eq_zero_iff.mp hn
    refine total_whileTrue (total_gets_bind ?_)
    rw [if_neg (by simp [hb])]
    exact total_pure rfl
  | succ n ih =>
    have hb : w.stock.queue.acceptBuf ≠ [] := by
      intro h
      rw [h] at hn
      cases hn
    refine total_whileTrue (total_gets_bind ?_)
    show Total (system C) t (if w.stock.movable C = true then _ else _) _ w
    unfold Stock.fill
    split
    · refine total_bind (computes_promoteOne w) (fun _ w' h => ?_) fun e w' h => ?_
      · have hlen := promote_shortens h.symm hb
        rw [← h]
        exact total_pure (ih w' (by omega))
      · rw [← h]
    · exact total_pure rfl

theorem computes_updateRunLength (x : Option Nat) (w : World) :
    Computes C t (updateRunLength x) w (.ok (), w.stock.count x) := by
  cases x with
  | none => exact total_pure rfl
  | some s => exact total_modify rfl

/-- What ends every pop. -/
theorem computes_close {m : Prog Unit} {w : World} {out : Res sig Unit × Stock} (x : Option Nat)
    (h : Computes C t m w out) :
    Computes C t (m >>= fun _ => updateRunLength x >>= fun _ => pure x) w
      (Stock.close x out) := by
  refine h.then (fun _ w' hw => ?_) fun e st he => ?_
  · rw [hw]
    refine (computes_updateRunLength x w').then (fun _ w'' hw' => ?_) (by intro _ _ h; cases h)
    obtain ⟨-, hst⟩ := Prod.mk.inj hw'
    exact total_pure (by rw [← hst]; rfl)
  · rw [he]
    rfl

theorem computes_popNextFifo (w : World) : Computes C t (popNextFifo C) w (w.stock.pop C) := by
  refine (computes_popFirst w).then (fun x w' hw => ?_) (by intro _ _ h; cases h)
  obtain ⟨hx, hst⟩ := Prod.mk.inj hw
  have htake : w.stock.takeHead = (x, w'.stock) := Prod.ext (Except.ok.inj hx) hst
  unfold Stock.pop
  rw [htake]
  cases x with
  | some s => exact computes_close (some s) (computes_replenish w')
  | none =>
    dsimp only
    refine (computes_drainAcceptBuf w').then (fun _ w'' hw' => ?_) fun e st he => ?_
    · rw [hw']
      refine (computes_popFirst w'').then (fun y v hv => ?_) (by intro _ _ h; cases h)
      obtain ⟨hy, hst'⟩ := Prod.mk.inj hv
      obtain rfl := Except.ok.inj hy
      refine (computes_updateRunLength _ v).then (fun _ v' hv' => ?_) (by intro _ _ h; cases h)
      obtain ⟨-, hst''⟩ := Prod.mk.inj hv'
      refine total_pure ?_
      dsimp only
      rw [← hst'', hst']
    · rw [he]

theorem computes_enqueue (s : Nat) (w : World) :
    Computes C t (enqueue C s) w (w.stock.enqueue C s) := by
  have hs : w.stock.slot s = w.slot s := rfl
  have hmove : ∀ (target : SlotState) (f : Queue → Queue),
      Computes C t (transition s target >>= fun _ => Co.modify (World.setQueue f)) w
        (match (w.slot s).transition s target with
        | .ok x => (.ok (), ⟨f w.queue, setAt w.slot s x⟩)
        | .error e => (.error (.raised e), w.stock)) := by
    intro target f
    refine total_seq (total_act ?_)
    cases ht : (w.slot s).transition s target with
    | ok x =>
      simp only [ht]
      exact total_modify rfl
    | error e =>
      simp only [ht]
      rfl
  refine total_gets_bind ?_
  unfold Stock.enqueue
  show Total (system C) t (if w.stock.queue.closed = true then _ else _) _ w
  split
  · exact total_throw rfl
  · show Total (system C) t
      (if w.stock.queue.staging.length < C.stagingQueueDepth then _ else _) _ w
    split
    · exact hmove .staged _
    · show Total (system C) t
        (if C.acceptanceBufferMax ≤ w.stock.queue.acceptBuf.length then _ else _) _ w
      split
      · exact total_throw rfl
      · exact hmove .acceptBuffer _

/-! ## A warm model -/

/-- The reading of the clock is past the creation of the head: an other-model head
has waited too long. -/
theorem total_starved {w : World} {head : Nat} {tag : String} (h0 : C.maxOtherModelWaitMs = 0)
    (hclock : (w.slot head).createdAt < w.clock) :
    Total (system C) t (headStarved C head tag)
      (Gives fun b w' => w'.stock = w.stock ∧ ((w.slot head).modelTag ≠ tag → b = true)) w := by
  refine total_gets_bind ?_
  split
  · refine total_monotonic fun now hnow => total_pure ⟨rfl, fun _ => ?_⟩
    rw [decide_eq_true_eq, h0]
    omega
  · rename_i hsame
    exact total_pure ⟨rfl, fun hne => absurd hne hsame⟩

/-- If the head is of the warm model, it is what the warm model takes. -/
theorem computes_popPreferring {w : World} {head : Nat} {rest : List Nat} {tag : String}
    (hs : w.queue.staging = head :: rest) (htag : (w.slot head).modelTag = tag) :
    Computes C t (popPreferring C tag) w (.ok w.stock.takeHead.1, w.stock.takeHead.2) := by
  have htake : w.stock.takeHead = (some head,
      ({ w.stock with queue := { w.queue with staging := rest } } : Stock).flag head) := by
    have hs' : w.stock.queue.staging = head :: rest := hs
    unfold Stock.takeHead
    rw [hs']
    rfl
  cases hd : C.stagingQueueDepth with
  | zero =>
    -- the scan is as long as staging may be
    have hnone : Total (system C) t (popFirstMatching C tag)
        (Gives fun o w' => o = none ∧ w' = w) w := by
      refine total_act ?_
      simp only [hd, List.take_zero, List.find?_nil]
      exact ⟨rfl, rfl⟩
    refine total_then hnone fun o w' h => ?_
    obtain ⟨rfl, rfl⟩ := h
    exact computes_popFirst w'
  | succ n =>
    have hsome : Computes C t (popFirstMatching C tag) w
        (.ok w.stock.takeHead.1, w.stock.takeHead.2) := by
      have hfind : ((head :: rest).take (n + 1)).find? (fun s => (w.slot s).modelTag = tag) =
          some head := by
        rw [List.take_succ_cons, List.find?_cons_of_pos (by rw [htag]; exact decide_eq_true rfl)]
      refine total_act ?_
      rw [hs, hd, hfind, htake]
      dsimp only
      rw [World.stock_flagEvicted]
      simp only [World.setQueue, hs, List.erase_cons_head]
      rfl
    refine hsome.then (fun o w' h => ?_) (by intro _ _ h; cases h)
    obtain ⟨ho, hst⟩ := Prod.mk.inj h
    obtain rfl := Except.ok.inj ho
    rw [htake] at hst ⊢
    exact total_pure (by rw [← hst])

/-- With the defaults a warm model changes nothing: the head is forced, or the warm
model's own. -/
theorem affine_eq_fifo (h0 : C.maxOtherModelWaitMs = 0) {w : World} {head : Nat}
    {rest : List Nat} (tag : String)
    (hs : w.queue.staging = head :: rest) (hclock : (w.slot head).createdAt < w.clock) :
    Computes C t (popNextAffine C tag head) w (w.stock.pop C) := by
  refine total_then (total_starved h0 hclock) fun starved w₁ h => ?_
  obtain ⟨hst, hstarved⟩ := h
  have hq : w₁.queue = w.queue := congrArg Stock.queue hst
  have hslot : w₁.slot = w.slot := congrArg Stock.slot hst
  refine total_gets_bind ?_
  have hs₁ : w₁.queue.staging = head :: rest := by rw [hq, hs]
  have htake : ∃ st, w₁.stock.takeHead = (some head, st) := by
    have hs' : w₁.stock.queue.staging = head :: rest := hs₁
    unfold Stock.takeHead
    rw [hs']
    exact ⟨_, rfl⟩
  obtain ⟨st, htake⟩ := htake
  have hpop : Computes C t
      (if starved || decide (C.maxConsecutiveSameModel ≤ w₁.queue.consecutiveSameModel)
        then popFirst
        else popPreferring C tag) w₁ (.ok w₁.stock.takeHead.1, w₁.stock.takeHead.2) := by
    split
    · exact computes_popFirst w₁
    · rename_i hforced
      have htag : (w₁.slot head).modelTag = tag := by
        by_contra hne
        rw [hslot] at hne
        rw [hstarved hne] at hforced
        exact hforced rfl
      exact computes_popPreferring hs₁ htag
  rw [htake] at hpop
  refine hpop.then (fun o w₂ hw => ?_) (by intro _ _ h; cases h)
  obtain ⟨ho, hst₂⟩ := Prod.mk.inj hw
  obtain rfl := Except.ok.inj ho
  have hst' : st = w₂.stock := hst₂
  rw [← hst, Stock.pop, htake]
  dsimp only
  rw [hst']
  exact computes_close (some head) (computes_replenish w₂)

/-- `mark` leaves the stock. -/
theorem Computes.marked {m : Prog (Option Nat)} {w : World} {out : Res sig (Option Nat) × Stock}
    (h : Computes C t m w out) :
    Computes C t
      (do
        match ← m with
        | some s => do
            mark (.popped s)
            pure (some s)
        | none => pure none) w out := by
  refine h.then (fun o w' hw => ?_) fun e st he => he
  rw [hw]
  cases o with
  | none => exact total_pure rfl
  | some s => exact total_mark (total_pure rfl)

theorem computes_popNext_cold (w : World) : Computes C t (popNext C none) w (w.stock.pop C) :=
  total_gets_bind (Computes.marked (computes_popNextFifo w))

theorem computes_popNext (h0 : C.maxOtherModelWaitMs = 0) {w : World} (warm : Option String)
    (hclock : ∀ s ∈ w.queue.staging, (w.slot s).createdAt < w.clock) :
    Computes C t (popNext C warm) w (w.stock.pop C) := by
  refine total_gets_bind (Computes.marked ?_)
  cases warm with
  | none => exact computes_popNextFifo w
  | some tag =>
    cases hs : w.queue.staging with
    | nil => exact computes_popNextFifo w
    | cons head rest =>
      exact affine_eq_fifo h0 tag hs (hclock head (by rw [hs]; exact List.mem_cons_self))

/-! ## Two queues in lockstep -/

/-- A call of `enqueue` or of `pop_next`. -/
inductive FeedCall where
  | enqueue (s : Nat)
  | popNext (warm : Option String)
deriving DecidableEq, Repr

variable (C) in
/-- A call, and the slot it hands back. -/
def FeedCall.program : FeedCall → Prog (Option Nat)
  | .enqueue s => do
      Turbohaul.enqueue C s
      pure none
  | .popNext warm => Turbohaul.popNext C warm

/-- The same call without a warm model. -/
def FeedCall.cold : FeedCall → FeedCall
  | .enqueue s => .enqueue s
  | .popNext _ => .popNext none

/-- At a pop the clock is past the creation of every slot in staging. -/
def FeedCall.Timely (w : World) : FeedCall → Prop
  | .enqueue _ => True
  | .popNext _ => ∀ s ∈ w.queue.staging, (w.slot s).createdAt < w.clock

variable (C) in
/-- One client of two queues: it makes the same calls of both, the second time
without the warm models, and keeps what each returns or raises.  Between the calls
anything may happen that leaves the queues alone and the slots the same. -/
inductive Lockstep : World × World → List (Res sig (Option Nat)) → List (Res sig (Option Nat)) →
    World × World → Prop where
  | start (a : World × World) : Lockstep a [] [] a
  | call {a : World × World} {rs ss : List (Res sig (Option Nat))} {w v w' v' : World}
      {t : Nat} {c : FeedCall} {log log' : List (Op × Reply)} {r r' : Res sig (Option Nat)}
      (h : Lockstep a rs ss (w, v)) (hc : c.Timely w)
      (hw : Returns (system C) t ((c.program C).run w) log r w')
      (hv : Returns (system C) t ((c.cold.program C).run v) log' r' v') :
      Lockstep a (rs ++ [r]) (ss ++ [r']) (w', v')
  | beside {a : World × World} {rs ss : List (Res sig (Option Nat))} {w v w' v' : World}
      (h : Lockstep a rs ss (w, v)) (hw : w'.queue = w.queue) (hv : v'.queue = v.queue)
      (hs : w'.slot = v'.slot) : Lockstep a rs ss (w', v')

/-- What a call computes from the stock. -/
def FeedCall.outcome (C : Config) (st : Stock) : FeedCall → Res sig (Option Nat) × Stock
  | .enqueue s => ((st.enqueue C s).1.map fun _ => none, (st.enqueue C s).2)
  | .popNext _ => st.pop C

theorem computes_feed_enqueue (s : Nat) (w : World) :
    Computes C t ((FeedCall.enqueue s).program C) w (FeedCall.outcome C w.stock (.enqueue s)) := by
  refine (computes_enqueue s w).then (fun _ w' hw => ?_) fun e st he => ?_
  · refine total_pure ?_
    show _ = ((w.stock.enqueue C s).1.map fun _ => none, (w.stock.enqueue C s).2)
    rw [hw]
    rfl
  · show ((w.stock.enqueue C s).1.map fun _ => none, (w.stock.enqueue C s).2) = _
    rw [he]
    rfl

theorem computes_call (h0 : C.maxOtherModelWaitMs = 0) {w : World} {c : FeedCall}
    (hc : c.Timely w) : Computes C t (c.program C) w (c.outcome C w.stock) := by
  cases c with
  | enqueue s => exact computes_feed_enqueue s w
  | popNext warm => exact computes_popNext h0 warm hc

theorem computes_cold (w : World) (c : FeedCall) :
    Computes C t (c.cold.program C) w (c.outcome C w.stock) := by
  cases c with
  | enqueue s => exact computes_feed_enqueue s w
  | popNext warm => exact computes_popNext_cold w

/-- One call leaves both queues alike. -/
theorem lockstep_call (h0 : C.maxOtherModelWaitMs = 0) {w v w' v' : World} {c : FeedCall}
    {log log' : List (Op × Reply)} {r r' : Res sig (Option Nat)} (hst : w.stock = v.stock)
    (hc : c.Timely w) (hw : Returns (system C) t ((c.program C).run w) log r w')
    (hv : Returns (system C) t ((c.cold.program C).run v) log' r' v') :
    r = r' ∧ w'.stock = v'.stock := by
  have h : (r, w'.stock) = c.outcome C w.stock := (computes_call h0 hc).returns hw
  have h' : (r', v'.stock) = c.outcome C v.stock := (computes_cold v c).returns hv
  rw [hst, ← h'] at h
  exact Prod.mk.inj h

theorem lockstep_same (h0 : C.maxOtherModelWaitMs = 0) {a b : World × World}
    {rs ss : List (Res sig (Option Nat))} (ha : a.1.stock = a.2.stock)
    (h : Lockstep C a rs ss b) : rs = ss ∧ b.1.stock = b.2.stock := by
  induction h with
  | start => exact ⟨rfl, ha⟩
  | call _ hc hw hv ih =>
    obtain ⟨hrs, hst⟩ := ih
    obtain ⟨hr, hst'⟩ := lockstep_call h0 hst hc hw hv
    exact ⟨by rw [hrs, hr], hst'⟩
  | @beside rs ss w v w' v' _ hw hv hs ih =>
    obtain ⟨hrs, hst⟩ := ih
    have hq : w.queue = v.queue := congrArg Stock.queue hst
    refine ⟨hrs, ?_⟩
    show (⟨w'.queue, w'.slot⟩ : Stock) = ⟨v'.queue, v'.slot⟩
    rw [hw, hv, hs, hq]

/-- Strict FIFO by default: two queues that begin alike return the same and are left
alike, call by call, whatever models are named to the first; and every call returns.
The wait alone decides it, for any bound on the run length. -/
theorem affinity_default_is_fifo (h0 : C.maxOtherModelWaitMs = 0) :
    (∀ {w w' v' : World} {rs ss : List (Res sig (Option Nat))},
      Lockstep C (w, w) rs ss (w', v') →
        rs = ss ∧ w'.queue.staging = v'.queue.staging ∧
          w'.queue.acceptBuf = v'.queue.acceptBuf) ∧
    ∀ (w : World) (c : FeedCall) (t : Nat), c.Timely w →
      (∃ log r w', Returns (system C) t ((c.program C).run w) log r w') ∧
        ∃ log r w', Returns (system C) t ((c.cold.program C).run w) log r w' := by
  refine ⟨fun h => ?_, fun w c t hc => ⟨(computes_call h0 hc).ends, (computes_cold w c).ends⟩⟩
  obtain ⟨hrs, hst⟩ := lockstep_same h0 rfl h
  have hq := congrArg Stock.queue hst
  exact ⟨hrs, congrArg Queue.staging hq, congrArg Queue.acceptBuf hq⟩

/-! ## Executing a client of both -/

instance (w : World) : (c : FeedCall) → Decidable (c.Timely w)
  | .enqueue _ => .isTrue trivial
  | .popNext _ => inferInstanceAs (Decidable (∀ s ∈ _, _))

variable (C) in
/-- A list of calls, each with the replies it gets from either queue. -/
def playBoth : List (FeedCall × List (Option Reply) × List (Option Reply)) →
    List (Res sig (Option Nat)) × List (Res sig (Option Nat)) × World × World →
    Option (List (Res sig (Option Nat)) × List (Res sig (Option Nat)) × World × World)
  | [], p => some p
  | (c, xs, ys) :: rest, (rs, ss, w, v) =>
    if c.Timely w then
      (follow (system C) 0 xs ((c.program C).run w)).bind fun p =>
        (follow (system C) 0 ys ((c.cold.program C).run v)).bind fun q =>
          playBoth rest (rs ++ [p.2.1], ss ++ [q.2.1], p.2.2, q.2.2)
    else none

theorem lockstep_of_play {a : World × World} :
    ∀ {cs : List (FeedCall × List (Option Reply) × List (Option Reply))}
      {rs ss rs' ss' : List (Res sig (Option Nat))} {w v w' v' : World},
      Lockstep C a rs ss (w, v) → playBoth C cs (rs, ss, w, v) = some (rs', ss', w', v') →
      Lockstep C a rs' ss' (w', v') := by
  intro cs
  induction cs with
  | nil =>
    intro rs ss rs' ss' w v w' v' h hp
    cases hp
    exact h
  | cons c cs ih =>
    intro rs ss rs' ss' w v w' v' h hp
    obtain ⟨c, xs, ys⟩ := c
    rw [playBoth] at hp
    split at hp
    · rename_i hc
      obtain ⟨⟨log, r, w₁⟩, hw, hp⟩ := Option.bind_eq_some_iff.mp hp
      obtain ⟨⟨log', r', v₁⟩, hv, hp⟩ := Option.bind_eq_some_iff.mp hp
      exact ih (.call h hc (returns_of_follow hw) (returns_of_follow hv)) hp
    · cases hp

/-- Slots of two models, created before the clock. -/
def twoModels : World :=
  { initial with
    clock := 5
    slot := fun s => { modelTag := if s = 1 then "n" else "m" } }

/-- The default settings. -/
def byDefault : Config := { maxConsecutiveSameModel := 1, maxOtherModelWaitMs := 0 }

/-- The second model is warm, and is served second. -/
theorem affinity_default_is_fifo_inst :
    ∃ (w v : World) (rs ss : List (Res sig (Option Nat))),
      Lockstep byDefault (twoModels, twoModels) rs ss (w, v) ∧
        rs.map Except.toOption = [some none, some none, some none, some (some 0), some (some 1)] ∧
        rs = ss ∧ w.queue.staging = v.queue.staging ∧ w.queue.acceptBuf = v.queue.acceptBuf := by
  have hplay : ((playBoth byDefault
      [(.enqueue 0, [], []), (.enqueue 1, [], []), (.enqueue 2, [], []),
        (.popNext (some "n"), [some (.time 5), some .ok], [some .ok]),
        (.popNext (some "n"), [some .ok], [some .ok])]
      ([], [], twoModels, twoModels)).any fun p => p.1.map Except.toOption =
        [some none, some none, some none, some (some 0), some (some 1)]) = true := by
    decide +kernel
  obtain ⟨⟨rs, ss, w, v⟩, hp, hrs⟩ := (Option.any_eq_true _ _).mp hplay
  have h := lockstep_of_play (.start (twoModels, twoModels)) hp
  exact ⟨w, v, rs, ss, h, of_decide_eq_true hrs, (affinity_default_is_fifo rfl).1 h⟩

end Turbohaul
