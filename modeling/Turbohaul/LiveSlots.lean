/-
# `LiveSlots` — what a reply of `/slots` says

`_compute` and `_derive` of `LiveSlotsPoller`: the rows that are processing, the
rate over all of them, and the block that is shown.  Times are seconds, rates
tokens a second; a row is what llama-server answers for one of its slots.
-/
import Turbohaul.LiveGeneration
import Mathlib.Data.Rat.Floor

namespace Turbohaul.LiveMonitor

/-- `STALL_AFTER_S`. -/
def stallAfterS : Rat := 2

/-- `STALE_GAP_S`. -/
def staleGapS : Rat := 5

/-- `EWMA_ALPHA`. -/
def ewmaAlpha : Rat := 2 / 5

/-- `round(x, digits)`. -/
def roundTo (digits : Nat) (x : Rat) : Rat :=
  let y := x * 10 ^ digits
  let n := y.floor
  let up : Bool := 1 / 2 < y - n || (y - n = 1 / 2 && n % 2 = 1)
  (if up then n + 1 else n) / 10 ^ digits

/-- A row of `/slots`; the fields of `next_token[0]` and `params` are in it. -/
structure SlotRow where
  isProcessing : Bool := false
  idTask : Option Int := none
  stream : Bool := false
  nDecoded : Option Int := none
  nRemain : Option Int := none
  hasNextToken : Bool := false
  nPromptTokens : Option Int := none
  nPromptTokensProcessed : Option Int := none
  nCtx : Option Int := none
  maxTokens : Option Int := none
  nPredict : Option Int := none
deriving DecidableEq, Repr

/-- The baseline of a task. -/
structure Sample where
  lastNDecoded : Int
  lastT : Rat
  maxTokens : Option Int
  lastChangeT : Rat

/-- `_samples`, `_agg_ewma` and `_agg_gen_id`. -/
structure Rates where
  samples : Option Int → Option Sample := fun _ => none
  aggEwma : Option Rat := none
  aggGenId : Option String := none

/-- `_reset_samples`. -/
def Rates.reset : Rates := {}

/-- The rates and counters of a block. -/
structure Metrics where
  tokS : Option Rat
  tokSInstant : Rat := 0
  nDecoded : Int := 0
  maxTokens : Option Int := none
  nRemain : Option Int := none
  nPromptTokens : Int := 0
  nCtx : Option Int := none
  promptProgress : Option Rat := none
  pct : Option Rat := none
  etaS : Option Rat := none
  stalled : Bool := false
  streaming : Bool := false
  riders : Nat := 0
deriving DecidableEq, Repr

/-- `_base_generation`. -/
def baseGeneration (state : GenState) (generationId : Option String) : Generation Metrics :=
  { state
    generationId
    metrics :=
      { tokS :=
          match state with
          | .idle | .stalled | .finishing => some 0
          | _ => none } }

/-- The row whose numbers are shown. -/
structure Headline where
  nDecoded : Int
  nRemain : Option Int
  nPrompt : Option Int
  nPromptProc : Option Int
  nCtx : Option Int
  maxTokens : Option Int
  nPredict : Option Int
  hasNext : Bool
  lastChangeT : Rat

/-- The accumulators of the loop over the rows. -/
structure Tally where
  rates : Rates
  totalInst : Rat := 0
  didReset : Bool := false
  streaming : Bool := false
  headline : Option Headline := none

/-- The sample of a task after a row, and the rate since the last one. -/
def Sample.next (nDecoded : Int) (maxTokens : Option Int) (respT : Rat) (smp : Option Sample) :
    Sample × Rat × Bool × Bool :=
  match smp with
  | some smp =>
    if nDecoded < smp.lastNDecoded ∨ maxTokens ≠ smp.maxTokens then
      (⟨nDecoded, respT, maxTokens, respT⟩, 0, true, false)
    else
      let dt := respT - smp.lastT
      let dn := max 0 (nDecoded - smp.lastNDecoded)
      (⟨nDecoded, respT, smp.maxTokens, if 0 < dn then respT else smp.lastChangeT⟩,
        if 1 / 1000 < dt then dn / dt else 0, false, decide (staleGapS < dt))
  | none => (⟨nDecoded, respT, maxTokens, respT⟩, 0, true, false)

/-- One row of the loop. -/
def Tally.row (respT : Rat) (t : Tally) (s : SlotRow) : Tally :=
  let t := { t with streaming := t.streaming || s.stream }
  match s.nDecoded with
  | none => t
  | some nDecoded =>
    let (smp, inst, reset, stale) :=
      Sample.next nDecoded s.maxTokens respT (t.rates.samples s.idTask)
    let headline : Headline :=
      { nDecoded
        nRemain := s.nRemain
        nPrompt := s.nPromptTokens
        nPromptProc := s.nPromptTokensProcessed
        nCtx := s.nCtx
        maxTokens := s.maxTokens
        nPredict := s.nPredict
        hasNext := s.hasNextToken
        lastChangeT := smp.lastChangeT }
    { t with
      rates :=
        { t.rates with
          samples := fun k => if k = s.idTask then some smp else t.rates.samples k
          aggEwma := if stale then none else t.rates.aggEwma }
      totalInst := t.totalInst + inst
      didReset := t.didReset || reset
      headline :=
        match t.headline with
        | some hd => if hd.nDecoded < nDecoded then some headline else some hd
        | none => some headline }

/-- A number that is there and above zero. -/
def positive? : Option Int → Option Int
  | some n => if 0 < n then some n else none
  | none => none

/-- A rate as it is shown. -/
def shownRate (x : Rat) : Rat := roundTo 1 (min (max x 0) 10000)

/-- State, `tok_s`, `prompt_progress` and `stalled` of a block. -/
def deriveState (hd : Headline) (totalInst respT : Rat) (aggEwma : Option Rat) :
    GenState × Option Rat × Option Rat × Bool :=
  let prefill : Option Rat :=
    match hd.nPrompt, hd.nPromptProc with
    | some prompt, some processed =>
      if hd.nDecoded = 0 ∧ prompt ≠ 0 ∧ processed < prompt then
        some (roundTo 3 (processed / max 1 prompt))
      else none
    | _, _ => none
  match prefill with
  | some progress => (.prefill, none, some progress, false)
  | none =>
    if totalInst = 0 ∧ stallAfterS ≤ respT - hd.lastChangeT then
      if !hd.hasNext then (.finishing, some 0, none, false)
      else if 0 < hd.nDecoded then (.stalled, some 0, none, true)
      else (.generating, none, none, false)
    else (.generating, aggEwma.map shownRate, none, false)

/-- `_derive`. -/
def derive (generationId : String) (hd : Headline) (totalInst : Rat) (streaming : Bool)
    (riders : Nat) (respT : Rat) (aggEwma : Option Rat) : Generation Metrics :=
  let maxTokens := positive? hd.maxTokens
  let effectiveMax := maxTokens.orElse fun _ => positive? hd.nPredict
  let (state, tokS, promptProgress, stalled) := deriveState hd totalInst respT aggEwma
  let nRemain := hd.nRemain.filter fun n => 0 ≤ n
  { state
    generationId := some generationId
    metrics :=
      { tokS
        tokSInstant := shownRate totalInst
        nDecoded := hd.nDecoded
        maxTokens
        nRemain
        nPromptTokens := hd.nPrompt.getD 0
        nCtx := hd.nCtx
        promptProgress
        pct := effectiveMax.map fun m => roundTo 1 (min (max (hd.nDecoded / m * 100) 0) 100)
        etaS :=
          match effectiveMax, aggEwma, nRemain with
          | some m, some rate, some n =>
            if 0 < rate ∧ n ≤ m then some (roundTo 1 (n / rate)) else none
          | _, _, _ => none
        stalled
        streaming
        riders } }

/-- The rate over all rows, smoothed; a boundary of a generation starts it anew. -/
def Rates.smooth (generationId : String) (didReset : Bool) (totalInst : Rat) (r : Rates) : Rates :=
  let r := if didReset || r.aggGenId ≠ some generationId then
      { r with aggEwma := none, aggGenId := some generationId }
    else r
  { r with
    aggEwma :=
      match r.aggEwma with
      | none => if 0 < totalInst then some totalInst else none
      | some e => some (ewmaAlpha * totalInst + (1 - ewmaAlpha) * e) }

/-- `_compute`: the block of a reply, and the rates after it. -/
def compute (generationId : String) (data : List SlotRow) (respT : Rat) (r : Rates) :
    Generation Metrics × Rates :=
  let proc := data.filter (·.isProcessing)
  if proc = [] then (baseGeneration .idle (some generationId), Rates.reset)
  else
    let t := proc.foldl (Tally.row respT) { rates := r }
    let liveTasks := proc.map (·.idTask)
    let r := { t.rates with samples := fun k => if k ∈ liveTasks then t.rates.samples k else none }
    match t.headline with
    | none => (baseGeneration .transitioning (some generationId), r)
    | some hd =>
      let r := r.smooth generationId t.didReset t.totalInst
      (derive generationId hd t.totalInst t.streaming proc.length respT r.aggEwma, r)

/-- Whatever a reply says, its block is labelled as it was asked to be. -/
theorem compute_generationId (generationId : String) (data : List SlotRow) (respT : Rat)
    (r : Rates) : (compute generationId data respT r).1.generationId = some generationId := by
  unfold compute
  dsimp only
  split
  · rfl
  · split
    · rfl
    · rfl

end Turbohaul.LiveMonitor
