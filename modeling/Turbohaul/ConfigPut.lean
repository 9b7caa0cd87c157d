/-
# `ConfigPut` — the runtime configuration and `PUT /api/config`

`QueueConfig`, `PullConfig` and `MonitorConfig` of `config.py` as tables of
their fields, the handler of `api/config_put.py`, and the values that
`TurbohaulManager.__init__` copies into the queue and the timers.  What
pydantic makes of a value of a field's type is a parameter.

  `QueueConfig(**d)`  `validateSection queueFields`
  `put_config`        `putConfig`
  `__init__`          `Manager.new`
-/
import Turbohaul.Json
import Turbohaul.PyString

namespace Turbohaul.Config

/-- The type of a field with its bounds: `ge` and `le`, or `gt` and `le`. -/
inductive Kind
  | int (ge : Int) (le : Option Int)
  | float (ge : Rat) (le : Option Rat)
  | floatGt (gt : Rat) (le : Option Rat)
  | bool
  | str
  | strList

/-- A value of the field's type. -/
def Kind.typed : Kind → Json → Bool
  | .int _ _, .int _ => true
  | .float _ _, .float _ => true
  | .floatGt _ _, .float _ => true
  | .bool, .bool _ => true
  | .str, .str _ => true
  | .strList, .arr xs => xs.all fun | .str _ => true | _ => false
  | _, _ => false

/-- What pydantic does with a value for a field: coerce it to the type, whose own
values it leaves as they are; whether NaN is within bounds; and the text of a
`ValidationError`. -/
structure Pydantic where
  coerce : Kind → Json → Option Json
  coerce_typed : ∀ k v, k.typed v = true → coerce k v = some v
  typed_coerce : ∀ k j v, coerce k j = some v → k.typed v = true
  nanWithin : Bool
  errorText : Dict → String

/-- The bounds, on a value of the type; `nan` is whether NaN is within them. -/
def Kind.within (nan : Bool) : Kind → Json → Bool
  | .int ge le, .int n => decide (ge ≤ n) && le.all (n ≤ ·)
  | .float ge le, .float x =>
    match x with
    | .finite q => decide (ge ≤ q) && le.all (q ≤ ·)
    | .inf => le.isNone
    | .negInf => false
    | .nan => nan
  | .floatGt gt le, .float x =>
    match x with
    | .finite q => decide (gt < q) && le.all (q ≤ ·)
    | .inf => le.isNone
    | .negInf => false
    | .nan => nan
  | _, _ => true

structure Field where
  name : String
  kind : Kind
  default : Json

/-- A field of `int` type, and one of `float` type. -/
def Field.int (name : String) (default ge : Int) (le : Option Int := none) : Field :=
  ⟨name, .int ge le, .int default⟩

def Field.float (name : String) (default ge : Rat) (le : Option Rat := none) : Field :=
  ⟨name, .float ge le, .float (.finite default)⟩

/-- `QueueConfig`. -/
def queueFields : List Field :=
  [ .int "max_parallel_sidecars" 1 1 (some 32),
    .int "staging_queue_depth" 100 1 (some 10000),
    .int "acceptance_buffer_max" 10000 1,
    .int "max_consecutive_same_model" 3 1 (some 1000),
    .float "max_other_model_wait_s" 20 0 (some 3600),
    .int "grace_seconds" 30 0 (some 3600),
    .int "idle_hot_load_seconds" 600 0 (some 86400),
    ⟨"safety_enabled", .bool, .bool true⟩,
    .int "safety_min_free_ram_mib" 1024 0,
    .int "safety_min_free_vram_mib" 512 0,
    .float "safety_max_load_per_core" (9 / 10) 0,
    .float "safety_max_iowait_percent" 30 0 (some 100),
    .float "safety_iowait_sample_window_s" (2 / 5) (1 / 20) (some 5),
    .int "max_grace_extensions" 5 0 (some 1000),
    .int "loading_health_timeout_s" 600 10 (some 7200),
    .int "drained_sigterm_window_active_s" 15 1 (some 300),
    .int "drained_sigterm_window_cold_s" 5 1 (some 300),
    .int "background_sweep_interval_s" 60 1 (some 86400),
    .int "background_sweep_min_age_s" 86400 60 (some 2592000) ]

/-- `PullConfig`. -/
def pullFields : List Field :=
  [ ⟨"hf_api_key_env", .str, .str "HF_API_KEY"⟩,
    ⟨"hf_host_allowlist", .strList, .arr [.str "huggingface.co", .str "hf.co",
      .str "cdn-lfs.huggingface.co", .str "cdn-lfs-us-1.hf.co", .str "cdn-lfs-eu-1.hf.co"]⟩,
    ⟨"pull_url_https_only", .bool, .bool true⟩,
    .int "pull_concurrency" 2 1 (some 16),
    .int "pull_chunk_size_mb" 64 1 (some 1024),
    .int "per_stream_max_bytes" 107374182400 1 ]

/-- `MonitorConfig`. -/
def monitorFields : List Field :=
  [ ⟨"enabled", .bool, .bool true⟩,
    ⟨"poll_interval_s", .floatGt 0 (some 60), .float (.finite 1)⟩ ]

/-- A field's value is coerced, and then it must be within the bounds. -/
def Pydantic.validate (P : Pydantic) (k : Kind) (j : Json) : Option Json :=
  (P.coerce k j).filter (k.within P.nanWithin)

/-- The value a section's field gets of its input: its default where absent. -/
def Pydantic.fieldValue (P : Pydantic) (d : Dict) (f : Field) : Option Json :=
  if d.has f.name then P.validate f.kind (d.get f.name) else some f.default

/-- `QueueConfig(**d)` and its siblings, which forbid other keys. -/
def Pydantic.validateSection (P : Pydantic) (fields : List Field) (d : Dict) : Option Dict :=
  if d.all (fun kv => decide (kv.1 ∈ fields.map (·.name))) &&
      fields.all (fun f => (P.fieldValue d f).isSome) then
    some (fields.map fun f => (f.name, (P.fieldValue d f).getD .null))
  else none

/-- `RuntimeConfig`. -/
structure Runtime where
  queue : Dict
  pull : Dict
  monitor : Dict

/-- `RuntimeConfig(**merged)`, of its three sections. -/
def Pydantic.validateRuntime (P : Pydantic) (queue pull monitor : Dict) : Option Runtime :=
  match P.validateSection queueFields queue, P.validateSection pullFields pull,
    P.validateSection monitorFields monitor with
  | some queue, some pull, some monitor => some ⟨queue, pull, monitor⟩
  | _, _, _ => none

/-- What the queue and the timers hold of the configuration. -/
structure Parts where
  queueStagingMax : Json
  queueAcceptanceMax : Json
  queueMaxConsecutiveSameModel : Json
  queueMaxOtherModelWaitS : Json
  graceGraceSeconds : Json
  graceMaxExtensions : Json
  idleIdleSeconds : Json

/-- The values of a runtime configuration for the queue and the timers. -/
def Runtime.parts (r : Runtime) : Parts where
  queueStagingMax := r.queue.get "staging_queue_depth"
  queueAcceptanceMax := r.queue.get "acceptance_buffer_max"
  queueMaxConsecutiveSameModel := r.queue.get "max_consecutive_same_model"
  queueMaxOtherModelWaitS := r.queue.get "max_other_model_wait_s"
  graceGraceSeconds := r.queue.get "grace_seconds"
  graceMaxExtensions := r.queue.get "max_grace_extensions"
  idleIdleSeconds := r.queue.get "idle_hot_load_seconds"

structure Manager where
  runtime : Runtime
  parts : Parts

/-- `TurbohaulManager.__init__`. -/
def Manager.new (runtime : Runtime) : Manager := ⟨runtime, runtime.parts⟩

/-- `HTTPException`. -/
structure HttpError where
  status : Nat
  detail : String

/-- The answer to an accepted request. -/
structure Applied where
  appliedSections : List String
  current : Runtime
  restartRequired : Bool := false

def bootSections : List String := ["server", "storage", "runtime", "ui"]

/-- `sorted` of distinct strings. -/
def pySorted (xs : List String) : List String := xs.mergeSort (fun a b => decide (a ≤ b))

/-- `repr` of a list of strings. -/
def pyReprList (xs : List String) : String := "[" ++ ", ".intercalate (xs.map pyRepr) ++ "]"

/-- The keys of a dictionary. -/
def keys (d : Dict) : List String := (d.map (·.1)).dedup

/-- What a payload gives for a section. -/
def patchOf (payload : Dict) (section_ : String) : Dict :=
  match payload.get section_ with
  | .obj d => d
  | _ => []

/-- The first section of the payload that is no object. -/
def badSection (payload : Dict) : Option String :=
  (payload.find? fun kv => match kv.2 with | .obj _ => false | _ => true).map (·.1)

/-- `put_config`. -/
def putConfig (P : Pydantic) (m : Manager) (payload : Dict) :
    Except HttpError Applied × Manager :=
  let bootAttempts := (keys payload).filter (· ∈ bootSections)
  let unknown := (keys payload).filter (· ∉ ["queue", "pull"])
  if bootAttempts ≠ [] then
    (.error ⟨403, "sections " ++ pyReprList (pySorted bootAttempts) ++
      " are BOOT-ONLY; restart manager to change (v0.2 §7.1 - prevents binary-swap attack class)"⟩,
      m)
  else if unknown ≠ [] then
    (.error ⟨400, "unknown section(s): " ++ pyReprList (pySorted unknown)⟩, m)
  else match badSection payload with
    | some s => (.error ⟨400, "section " ++ s ++ " must be object"⟩, m)
    | none =>
      let queue := m.runtime.queue.update (patchOf payload "queue")
      let pull := m.runtime.pull.update (patchOf payload "pull")
      match P.validateRuntime queue pull m.runtime.monitor with
      | none => (.error ⟨400, P.errorText payload⟩, m)
      | some newRuntime =>
        let parts :=
          if payload.has "queue" then
            { m.parts with
              graceGraceSeconds := newRuntime.queue.get "grace_seconds"
              graceMaxExtensions := newRuntime.queue.get "max_grace_extensions"
              idleIdleSeconds := newRuntime.queue.get "idle_hot_load_seconds" }
          else m.parts
        (.ok { appliedSections := pySorted (keys payload), current := newRuntime },
          ⟨newRuntime, parts⟩)

/-- A run of requests, the first first. -/
def putAll (P : Pydantic) (m : Manager) (payloads : List Dict) : Manager :=
  payloads.foldl (fun m payload => (putConfig P m payload).2) m

end Turbohaul.Config
