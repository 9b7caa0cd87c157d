/-
# `LiveGeneration` — the block a poll of `/slots` gives
-/
import Turbohaul.World

namespace Turbohaul.LiveMonitor

/-- The `state` of a generation block. -/
inductive GenState where
  | idle | transitioning | loading | generating | prefill | finishing | stalled
deriving DecidableEq, Repr

/-- `_ACTIVE_GEN_STATES`. -/
def GenState.active : GenState → Bool
  | .generating | .prefill | .finishing | .stalled | .loading => true
  | .idle | .transitioning => false

/-- A generation block, with its rates and counters. -/
structure Generation (μ : Type) where
  state : GenState
  generationId : Option String
  metrics : μ

end Turbohaul.LiveMonitor
