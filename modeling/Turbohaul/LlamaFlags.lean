/-
# `LlamaFlags` — the closed list of flags

The flags of `llama-server` that a manifest may set, and `_validate_flag_value` and its
neighbours of `manifest.py`, as `Manifest._flags_allowlist` runs them over a dictionary
whose keys are texts.  A value is what YAML or JSON gives; of one that is no boolean,
number or text only the type and the `repr` are read, into errors.

  `SAFE_LLAMA_FLAGS`, `_STRING_ENUMS`, `_BOUNDS`  `safeLlamaFlags`, `flagStringEnums`,
                                                  `flagBounds`
  `DENIED_FLAGS`, `_suffix_guard_check`           `deniedFlags`, `suffixGuardCheck`
  `_validate_flag_value`                          `validateFlagValue`, by cases of the key
  `_validate_parallel_ctx`                        `validateParallelCtx`
  `Manifest._flags_allowlist`                     `flagsAllowlist`
-/
import Turbohaul.Json

namespace Turbohaul

/-! ## Numbers -/

/-- `x < y` of floats: a NaN is on neither side of anything. -/
def PyFloat.lt : PyFloat → PyFloat → Bool
  | .finite p, .finite q => p < q
  | .negInf, .finite _ => true
  | .negInf, .inf => true
  | .finite _, .inf => true
  | _, _ => false

/-- `x <= y` of floats. -/
def PyFloat.le (x y : PyFloat) : Bool := x.lt y || (decide (x = y) && decide (x ≠ .nan))

namespace LlamaFlags

inductive Num
  | int (n : Int)
  | float (x : PyFloat)
deriving DecidableEq

/-- An integer and a float are compared as they are. -/
def Num.value : Num → PyFloat
  | .int n => .finite n
  | .float x => x

def Num.lt (x y : Num) : Bool := x.value.lt y.value

def Num.le (x y : Num) : Bool := x.value.le y.value

/-- A value: of any other the type, its `repr` and whether it is truthy. -/
inductive FlagValue
  | bool (b : Bool)
  | num (x : Num)
  | text (s : String)
  | other (type repr : String) (truthy : Bool)
deriving DecidableEq

/-- `type(value).__name__`. -/
def FlagValue.typeName : FlagValue → String
  | .bool _ => "bool"
  | .num (.int _) => "int"
  | .num (.float _) => "float"
  | .text _ => "str"
  | .other type _ _ => type

/-- `repr` of a finite float, which is a numeral, and of a text. -/
structure ValueText where
  float : Rat → String
  text : String → String
  /-- A numeral begins with a digit, or with one after a minus sign. -/
  numeral : ∀ q, (∃ c s, (float q).toList = c :: s ∧ c.isDigit = true) ∨
    ∃ c s, (float q).toList = '-' :: c :: s ∧ c.isDigit = true

/-- `str` of a number. -/
def Num.str (T : ValueText) : Num → String
  | .int n => toString n
  | .float .nan => "nan"
  | .float .inf => "inf"
  | .float .negInf => "-inf"
  | .float (.finite q) => T.float q

def FlagValue.repr (T : ValueText) : FlagValue → String
  | .bool b => if b then "True" else "False"
  | .num x => x.str T
  | .text s => T.text s
  | .other _ r _ => r

/-- `str(value)`. -/
def FlagValue.str (T : ValueText) : FlagValue → String
  | .text s => s
  | v => v.repr T

/-! ## The tables -/

/-- The types the table names. -/
inductive PyType
  | int
  | float
  | bool
  | str
deriving DecidableEq

def PyType.name : PyType → String
  | .int => "int"
  | .float => "float"
  | .bool => "bool"
  | .str => "str"

/-- `isinstance(value, t)`: a boolean is an integer. -/
def FlagValue.isInstance (v : FlagValue) (t : PyType) : Bool :=
  match v, t with
  | .bool _, .bool => true
  | .bool _, .int => true
  | .num (.int _), .int => true
  | .num (.float _), .float => true
  | .text _, .str => true
  | _, _ => false

/-- The type a flag expects, or several. -/
inductive Expected
  | one (t : PyType)
  | tuple (ts : List PyType)
deriving DecidableEq

/-- `SAFE_LLAMA_FLAGS`. -/
def safeLlamaFlags : List (String × Expected) :=
  [("ctx_size", .one .int), ("n_gpu_layers", .tuple [.int, .str]), ("threads", .one .int),
    ("threads_batch", .one .int), ("threads_http", .one .int), ("parallel", .one .int),
    ("batch_size", .one .int), ("ubatch_size", .one .int), ("n_predict", .one .int),
    ("keep", .one .int), ("flash_attn", .tuple [.bool, .str]), ("mlock", .one .bool),
    ("no_mmap", .one .bool), ("numa", .one .str), ("swa_full", .one .bool),
    ("no_perf", .one .bool), ("sleep_idle_seconds", .one .int), ("cache_reuse", .one .int),
    ("no_context_shift", .one .bool), ("slot_prompt_similarity", .one .float),
    ("warmup", .one .bool), ("check_tensors", .one .bool), ("repack", .one .bool),
    ("op_offload", .one .bool), ("no_host", .one .bool), ("direct_io", .one .bool),
    ("cont_batching", .one .bool), ("cache_type_k", .one .str), ("cache_type_v", .one .str),
    ("kv_offload", .one .bool), ("no_kv_offload", .one .bool), ("kv_unified", .one .bool),
    ("cache_idle_slots", .one .bool), ("cache_prompt", .one .bool), ("cache_ram", .one .int),
    ("ctx_checkpoints", .one .int), ("checkpoint_every_n_tokens", .one .int),
    ("rope_scaling", .one .str), ("rope_scale", .one .float), ("rope_freq_base", .one .float),
    ("rope_freq_scale", .one .float), ("yarn_orig_ctx", .one .int),
    ("yarn_ext_factor", .one .float), ("yarn_attn_factor", .one .float),
    ("yarn_beta_slow", .one .float), ("yarn_beta_fast", .one .float), ("cpu_moe", .one .bool),
    ("n_cpu_moe", .one .int), ("split_mode", .one .str), ("main_gpu", .one .int),
    ("fit", .one .str), ("fit_ctx", .one .int), ("temp", .one .float), ("top_k", .one .int),
    ("top_p", .one .float), ("min_p", .one .float), ("typical_p", .one .float),
    ("top_n_sigma", .one .float), ("repeat_penalty", .one .float), ("repeat_last_n", .one .int),
    ("presence_penalty", .one .float), ("frequency_penalty", .one .float), ("seed", .one .int),
    ("mirostat", .one .int), ("mirostat_lr", .one .float), ("mirostat_ent", .one .float),
    ("xtc_probability", .one .float), ("xtc_threshold", .one .float),
    ("dynatemp_range", .one .float), ("dynatemp_exp", .one .float),
    ("dry_multiplier", .one .float), ("dry_base", .one .float), ("dry_allowed_length", .one .int),
    ("dry_penalty_last_n", .one .int), ("adaptive_target", .one .float),
    ("adaptive_decay", .one .float), ("ignore_eos", .one .bool), ("chat_template", .one .str),
    ("jinja", .one .bool), ("skip_chat_parsing", .one .bool), ("special", .one .bool),
    ("spm_infill", .one .bool), ("reasoning_format", .one .str), ("reasoning", .one .str),
    ("reasoning_budget", .one .int), ("spec_type", .one .str), ("spec_draft_n_max", .one .int),
    ("spec_draft_n_min", .one .int), ("spec_draft_p_min", .one .float),
    ("spec_draft_p_split", .one .float), ("spec_draft_ngl", .one .int),
    ("spec_draft_backend_sampling", .one .bool), ("metrics", .one .bool), ("slots", .one .bool),
    ("props", .one .bool), ("embeddings", .one .bool), ("reranking", .one .bool),
    ("pooling", .one .str), ("offline", .one .bool), ("verbose", .one .bool),
    ("log_disable", .one .bool), ("log_colors", .one .str), ("log_prefix", .one .bool),
    ("log_timestamps", .one .bool), ("log_verbosity", .one .int)]

/-- `SAFE_LLAMA_FLAG_STRING_ENUMS`. -/
def flagStringEnums : List (String × List String) :=
  let cacheTypes := ["f32", "f16", "bf16", "q8_0", "q4_0", "q4_1", "iq4_nl", "q5_0", "q5_1",
    "turbo2", "turbo3", "turbo4"]
  [("numa", ["none", "distribute", "isolate", "numactl"]), ("cache_type_k", cacheTypes),
    ("cache_type_v", cacheTypes), ("rope_scaling", ["none", "linear", "yarn"]),
    ("split_mode", ["none", "layer", "row", "tensor"]), ("fit", ["on", "off"]),
    ("reasoning_format", ["none", "deepseek", "deepseek-legacy", "auto"]),
    ("reasoning", ["on", "off", "auto"]), ("pooling", ["none", "mean", "cls", "last", "rank"]),
    ("log_colors", ["on", "off", "auto"]), ("spec_type", ["draft-mtp"])]

/-- `_FLASH_ATTN_STR_VALUES`. -/
def flashAttnStrValues : List String := ["on", "off", "auto", "enabled", "disabled"]

/-- `_N_GPU_LAYERS_STR_VALUES`. -/
def nGpuLayersStrValues : List String := ["all", "auto"]

/-- `SAFE_CHAT_TEMPLATE_NAMES`. -/
def safeChatTemplateNames : List String :=
  ["chatml", "llama2", "llama3", "llama3.1", "llama3.2", "llama3.3", "gemma", "gemma2", "gemma3",
    "gemma4", "mistral", "mistral-v1", "mistral-v3", "mistral-v3-tekken", "mistral-v7", "phi3",
    "phi4", "deepseek", "deepseek2", "deepseek-r1", "qwen", "qwen2", "qwen2.5", "qwen3",
    "qwen3.5", "qwen3.6", "command-r", "command-r-plus", "vicuna", "alpaca", "zephyr", "chatglm3",
    "chatglm4", "openchat", "orion", "yi", "monarch", "smollm", "minicpm", "exaone3",
    "rwkv-world", "granite", "qwen3-thinking", "qwq", "default"]

/-- `SAFE_LLAMA_FLAG_BOUNDS`. -/
def flagBounds : List (String × Num × Num) :=
  [("ctx_size", .int 1, .int 2000000), ("n_gpu_layers", .int (-1), .int 999),
    ("n_predict", .int (-1), .int 1000000), ("threads", .int (-1), .int 256),
    ("threads_batch", .int (-1), .int 256), ("threads_http", .int (-1), .int 256),
    ("parallel", .int 1, .int 256), ("batch_size", .int 1, .int 65536),
    ("ubatch_size", .int 1, .int 65536), ("keep", .int (-1), .int 65536),
    ("sleep_idle_seconds", .int (-1), .int 86400), ("cache_reuse", .int 0, .int 65536),
    ("n_cpu_moe", .int 0, .int 256), ("main_gpu", .int 0, .int 16),
    ("fit_ctx", .int 1, .int 2000000), ("cache_ram", .int 0, .int 262144),
    ("ctx_checkpoints", .int 0, .int 1024),
    ("checkpoint_every_n_tokens", .int 1, .int 1000000),
    ("yarn_orig_ctx", .int 0, .int 2000000),
    ("temp", .float (.finite 0), .float (.finite 10)), ("top_k", .int 0, .int 10000),
    ("top_p", .float (.finite 0), .float (.finite 1)),
    ("min_p", .float (.finite 0), .float (.finite 1)),
    ("typical_p", .float (.finite 0), .float (.finite 1)),
    ("top_n_sigma", .float (.finite (-1)), .float (.finite 100)),
    ("repeat_penalty", .float (.finite 0), .float (.finite 10)),
    ("repeat_last_n", .int (-1), .int 65536),
    ("presence_penalty", .float (.finite (-10)), .float (.finite 10)),
    ("frequency_penalty", .float (.finite (-10)), .float (.finite 10)),
    ("seed", .int (-1), .int 9223372036854775807), ("mirostat", .int 0, .int 2),
    ("mirostat_lr", .float (.finite 0), .float (.finite 1)),
    ("mirostat_ent", .float (.finite 0), .float (.finite 100)),
    ("xtc_probability", .float (.finite 0), .float (.finite 1)),
    ("xtc_threshold", .float (.finite 0), .float (.finite 1)),
    ("dynatemp_range", .float (.finite 0), .float (.finite 10)),
    ("dynatemp_exp", .float (.finite 0), .float (.finite 10)),
    ("dry_multiplier", .float (.finite 0), .float (.finite 10)),
    ("dry_base", .float (.finite 1), .float (.finite 10)),
    ("dry_allowed_length", .int 0, .int 65536), ("dry_penalty_last_n", .int (-1), .int 65536),
    ("adaptive_target", .float (.finite (-1)), .float (.finite 100)),
    ("adaptive_decay", .float (.finite 0), .float (.finite 1)),
    ("slot_prompt_similarity", .float (.finite 0), .float (.finite 1)),
    ("rope_scale", .float (.finite 0), .float (.finite 1000)),
    ("rope_freq_base", .float (.finite 0), .float (.finite 10000000)),
    ("rope_freq_scale", .float (.finite 0), .float (.finite 100)),
    ("yarn_ext_factor", .float (.finite (-1)), .float (.finite 100)),
    ("yarn_attn_factor", .float (.finite (-1)), .float (.finite 100)),
    ("yarn_beta_slow", .float (.finite (-1)), .float (.finite 100)),
    ("yarn_beta_fast", .float (.finite (-1)), .float (.finite 100)),
    ("reasoning_budget", .int (-1), .int 1000000), ("log_verbosity", .int 0, .int 4),
    ("spec_draft_n_max", .int 0, .int 64), ("spec_draft_n_min", .int 0, .int 64),
    ("spec_draft_p_min", .float (.finite 0), .float (.finite 1)),
    ("spec_draft_p_split", .float (.finite 0), .float (.finite 1)),
    ("spec_draft_ngl", .int (-1), .int 999)]

/-- `DENIED_FLAGS`. -/
def deniedFlags : List String :=
  ["mmproj", "lora", "lora_base", "lora_scaled", "grammar_file", "json_schema_file", "log_file",
    "slot_save_path", "chat_template_file", "in_prefix_file", "in_suffix_file", "hf_token",
    "override_kv", "cache_prompt_file", "binary_override", "model", "alias", "rpc", "host",
    "port", "model_draft", "model_url", "model_url_draft", "hf_repo", "hf_repo_draft", "hf_file",
    "hf_repo_v", "hf_file_v", "docker_repo", "api_key", "api_key_file", "ssl_key_file",
    "ssl_cert_file", "lookup_cache_static", "lookup_cache_dynamic", "model_vocoder",
    "webui_config_file", "webui_mcp_proxy", "path", "media_path", "models_dir", "models_preset",
    "control_vector", "control_vector_scaled", "tools", "grammar", "tensor_split", "samplers",
    "dry_sequence_breaker", "chat_template_kwargs", "reasoning_budget_message", "fit_target"]

/-- The ends of `_SUFFIX_GUARD_PATTERNS`, and the beginnings. -/
def guardedSuffixes : List String := ["_file", "_path", "_dir", "_url", "_repo", "_key"]

def guardedPrefixes : List String :=
  ["hf_", "lora", "control_vector", "lookup_cache_", "ssl_", "api_key", "slot_save_", "webui_",
    "docker_"]

/-- `PER_SLOT_CTX_FLOOR`. -/
def perSlotCtxFloor : Int := 8192

/-! ## The validators -/

/-- A list or a sorted set of texts, as it is printed. -/
def listText (T : ValueText) (xs : List String) : String :=
  "[" ++ ", ".intercalate (xs.map T.text) ++ "]"

def sortedText (T : ValueText) (xs : List String) : String :=
  listText T (xs.mergeSort fun a b => decide (a ≤ b))

/-- `re.match` of a pattern that ends in `$`, which also stands before a last newline. -/
def matchesLine (p : List Char → Bool) (s : String) : Bool :=
  p s.toList || (s.toList.getLast? == some '\n' && p s.toList.dropLast)

/-- `_suffix_guard_check`, with the pattern that matches. -/
def suffixGuardCheck (T : ValueText) (key : String) : Except String Unit :=
  let ends (sfx : String) : Bool := matchesLine
    (fun cs => sfx.toList.isSuffixOf cs && (cs.take (cs.length - sfx.length)).all (· ≠ '\n')) key
  let rejected (pattern : String) : Except String Unit :=
    .error ("llama_server_flags." ++ key ++ " is rejected by suffix-pattern forward-defense " ++
      "guard (matches " ++ T.text pattern ++ "). If this flag is genuinely safe value-only, add " ++
      "to _SUFFIX_GUARD_EXCEPTIONS with an audit trail.")
  match guardedSuffixes.find? ends with
  | some sfx => rejected (".*" ++ sfx ++ "$")
  | none =>
    match guardedPrefixes.find? fun pre => pre.toList.isPrefixOf key.toList with
    | some pre => rejected ("^" ++ pre)
    | none => .ok ()

/-- `flash_attn`: a boolean or one of some texts. -/
def validateFlashAttn (T : ValueText) (value : FlagValue) : Except String Unit :=
  let rejected : Except String Unit :=
    .error ("llama_server_flags.flash_attn expects bool or str in " ++
      sortedText T flashAttnStrValues ++ ", got " ++ value.typeName ++ ": " ++ value.repr T)
  match value with
  | .bool _ => .ok ()
  | .text s => if s.toLower ∈ flashAttnStrValues then .ok () else rejected
  | _ => rejected

/-- `n_gpu_layers`: an integer within its bounds or one of some texts. -/
def validateNGpuLayers (T : ValueText) (value : FlagValue) : Except String Unit :=
  let rejected : Except String Unit :=
    .error ("n_gpu_layers expects int or str in " ++ sortedText T nGpuLayersStrValues ++
      ", got " ++ value.repr T)
  match value with
  | .bool _ => .error "llama_server_flags.n_gpu_layers expects int or str, got bool"
  | .num (.int n) =>
    match flagBounds.lookup "n_gpu_layers" with
    | none => .ok ()
    | some (lo, hi) =>
      if (Num.int n).lt lo then .error ("n_gpu_layers " ++ toString n ++ " < min " ++ lo.str T)
      else if hi.lt (.int n) then .error ("n_gpu_layers " ++ toString n ++ " > max " ++ hi.str T)
      else .ok ()
  | .text s => if s.toLower ∈ nGpuLayersStrValues then .ok () else rejected
  | _ => rejected

/-- `"{%" in value or "{{" in value`. -/
def hasJinja : List Char → Bool
  | '\x7b' :: '%' :: _ => true
  | '\x7b' :: '\x7b' :: _ => true
  | _ :: s => hasJinja s
  | [] => false

/-- `_check_jinja_injection`. -/
def checkJinjaInjection (value : String) : Except String Unit :=
  if hasJinja value.toList then
    .error ("chat_template contains Jinja constructs (\x7b% or \x7b\x7b). Reject — " ++
      "non-sandboxed Jinja could SSTI. Use a built-in template name from " ++
      "SAFE_CHAT_TEMPLATE_NAMES (" ++ toString safeChatTemplateNames.length ++
      " options) or DENIED_FLAGS.chat_template_file for custom Jinja.")
  else .ok ()

/-- `[A-Za-z0-9_.\-]`. -/
def templateChar (c : Char) : Bool := c.isAlphanum || c = '_' || c = '.' || c = '-'

/-- `chat_template`: a known name, or a text like one. -/
def validateChatTemplate (T : ValueText) (value : FlagValue) : Except String Unit :=
  match value with
  | .text s =>
    match checkJinjaInjection s with
    | .error e => .error e
    | .ok () =>
      if s ∈ safeChatTemplateNames then .ok ()
      else if s.length > 256 then
        .error ("chat_template value too long (" ++ toString s.length ++
          " chars; max 256 for non-built-in names). Use a built-in name or chat_template_file.")
      else if matchesLine (fun cs => !cs.isEmpty && cs.all templateChar) s then .ok ()
      else .error ("chat_template value " ++ T.text s ++ " has invalid chars; must be " ++
        "alphanumeric + . _ - only (or use built-in enum name)")
  | _ => .error ("chat_template expects str, got " ++ value.typeName)

/-- A flag whose values are listed. -/
def validateEnum (T : ValueText) (key : String) (listed : List String) (value : FlagValue) :
    Except String Unit :=
  match value with
  | .text s =>
    if s ∈ listed then .ok ()
    else .error ("llama_server_flags." ++ key ++ "=" ++ T.text s ++ " not in allowed enum " ++
      sortedText T listed)
  | _ => .error ("llama_server_flags." ++ key ++ " expects str enum, got " ++ value.typeName)

/-- The type of a value, where it is not listed. -/
def validateType (T : ValueText) (key : String) (value : FlagValue) :
    Expected → Except String Unit
  | .tuple ts =>
    if ts.any value.isInstance then .ok ()
    else .error ("llama_server_flags." ++ key ++ " expects one of " ++
      listText T (ts.map PyType.name) ++ ", got " ++ value.typeName)
  | .one expected =>
    let rejected : Except String Unit := .error ("llama_server_flags." ++ key ++ " expects " ++
      expected.name ++ ", got " ++ value.typeName)
    match expected, value with
    | .bool, .bool _ => .ok ()
    | .bool, _ => rejected
    | .int, .bool _ => .error ("llama_server_flags." ++ key ++ " expects int, got bool (Python " ++
        "bool-is-int coerce explicitly rejected)")
    | .float, .num (.int _) => .ok ()
    | _, _ => if value.isInstance expected then .ok () else rejected

/-- The bounds of a number: it is not below the one and not above the other. -/
def validateBounds (T : ValueText) (key : String) (value : FlagValue) : Except String Unit :=
  match flagBounds.lookup key, value with
  | some (lo, hi), .num x =>
    if x.lt lo then
      .error ("llama_server_flags." ++ key ++ "=" ++ x.str T ++ " below min " ++ lo.str T)
    else if hi.lt x then
      .error ("llama_server_flags." ++ key ++ "=" ++ x.str T ++ " above max " ++ hi.str T)
    else .ok ()
  | _, _ => .ok ()

/-- `_validate_flag_value`, of a key that expects `expected`. -/
def validateFlagValue (T : ValueText) (key : String) (expected : Expected) (value : FlagValue) :
    Except String Unit :=
  if key = "flash_attn" then validateFlashAttn T value
  else if key = "n_gpu_layers" then validateNGpuLayers T value
  else if key = "chat_template" then validateChatTemplate T value
  else match flagStringEnums.lookup key with
    | some listed => validateEnum T key listed value
    | none =>
      match validateType T key value expected with
      | .error e => .error e
      | .ok () => validateBounds T key value

/-- A dictionary of flags. -/
structure FlagsDict where
  items : List (String × FlagValue)
  keys : (items.map (·.1)).Nodup

/-- `flags.get(key)`. -/
def FlagsDict.get (flags : FlagsDict) (key : String) : Option FlagValue := flags.items.lookup key

/-- `bool(flags.get("kv_unified", False))`. -/
def FlagValue.truthy : FlagValue → Bool
  | .bool b => b
  | .num x => decide (x.value ≠ .finite 0)
  | .text s => s ≠ ""
  | .other _ _ truthy => truthy

/-- `_validate_parallel_ctx`. -/
def validateParallelCtx (flags : FlagsDict) : Except String Unit :=
  match flags.get "parallel" with
  | some (.num (.int parallel)) =>
    if parallel ≤ 1 then .ok ()
    else if !((flags.get "kv_unified").any FlagValue.truthy) then
      .error ("llama_server_flags: parallel=" ++ toString parallel ++ " requires kv_unified: " ++
        "true (a unified KV pool keeps the cache accounting exact and flat across concurrent " ++
        "slots). Add 'kv_unified: true'.")
    else
      match flags.get "ctx_size" with
      | some (.num (.int ctxSize)) =>
        let perSlot := ctxSize.fdiv parallel
        if ctxSize.fmod parallel ≠ 0 then
          .error ("llama_server_flags: ctx_size=" ++ toString ctxSize ++ " is not divisible by " ++
            "parallel=" ++ toString parallel ++ "; the per-slot KV window would be silently " ++
            "truncated. Choose a ctx_size that divides evenly across " ++ toString parallel ++
            " slots.")
        else if perSlot < perSlotCtxFloor then
          .error ("llama_server_flags: ctx_size=" ++ toString ctxSize ++ " split across " ++
            "parallel=" ++ toString parallel ++ " gives " ++ toString perSlot ++
            " tokens/slot, below the PER_SLOT_CTX_FLOOR=" ++ toString perSlotCtxFloor ++
            ". Raise ctx_size or lower parallel.")
        else .ok ()
      | _ => .ok ()
  | _ => .ok ()

/-- The loop of `Manifest._flags_allowlist`. -/
def checkFlags (T : ValueText) : List (String × FlagValue) → Except String Unit
  | [] => .ok ()
  | (key, value) :: items =>
    if key ∈ deniedFlags then
      .error ("llama_server_flags." ++ key ++
        " is explicitly denied (path-traversal/RCE class). See v0.2 §8.1.")
    else match suffixGuardCheck T key with
      | .error e => .error e
      | .ok () =>
        match safeLlamaFlags.lookup key with
        | none => .error ("llama_server_flags." ++ key ++ " is not in the closed allowlist. See " ++
            "v0.2 §8.1 - unknown flags REJECTED. Allowlist currently has " ++
            toString safeLlamaFlags.length ++ " entries.")
        | some expected =>
          match validateFlagValue T key expected value with
          | .error e => .error e
          | .ok () => checkFlags T items

/-- `Manifest._flags_allowlist`. -/
def flagsAllowlist (T : ValueText) (flags : FlagsDict) : Except String Unit :=
  match checkFlags T flags.items with
  | .error e => .error e
  | .ok () => validateParallelCtx flags

end LlamaFlags

end Turbohaul
