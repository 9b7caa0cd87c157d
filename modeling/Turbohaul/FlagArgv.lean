/-
# `FlagArgv` — the flags on the command line

`flags_to_argv` of `manifest.py`, and the two readers of what it gives: `llama-server`
takes each flag with as many values as it has, and `spawn_sidecar` looks for the first
token `--parallel` and reads the next one as the width.  A value that looks like the flag
misleads the second; `chat_template` is the only flag that accepts one.

  `flags_to_argv`                   `flagsToArgv`
  `spawn_sidecar`, where it pins    `pinnedParallel`
  `readArgv`                        the tokens read by arity
  `normalised`                      what they should be read as
  `Shadowed`                        a width that the second reader does not see
  `flags_argv_iff`
-/
import Turbohaul.FlagBounds
import Turbohaul.KeepAlive
import Mathlib.Algebra.Group.Nat.Defs
import Mathlib.Data.List.Nodup

namespace Turbohaul.LlamaFlags

/-- `"--" + key.replace("_", "-")`. -/
def cliKey (key : String) : String :=
  "--" ++ String.ofList (key.toList.map fun c => if c = '_' then '-' else c)

/-- What a flag adds. -/
def argvOf (T : ValueText) (key : String) (value : FlagValue) : List String :=
  if key = "flash_attn" then
    match value with
    | .bool b => [cliKey key, if b then "on" else "off"]
    | v => [cliKey key, (v.str T).toLower]
  else
    match value with
    | .bool b => if b then [cliKey key] else []
    | v => [cliKey key, v.str T]

/-- `flags_to_argv`. -/
def flagsToArgv (T : ValueText) : List (String × FlagValue) → Except String (List String)
  | [] => .ok []
  | (key, value) :: items =>
    if key ∉ safeLlamaFlags.map (·.1) ∨ key ∈ deniedFlags then
      .error ("flag " ++ key ++ " blocked at argv-build (allowlist enforcement)")
    else
      match flagsToArgv T items with
      | .error e => .error e
      | .ok argv => .ok (argvOf T key value ++ argv)

/-- The width that `spawn_sidecar` pins. -/
def pinnedParallel : List String → Int
  | tok :: v :: argv =>
    if tok = "--parallel" then
      match KeepAlive.pyInt v.toList with
      | some n => max 1 n
      | none => 1
    else pinnedParallel (v :: argv)
  | _ => 1

/-! ## Reading by arity -/

/-- The flag of a token, and whether it is a switch. -/
def flagOf (tok : String) : Option (String × Bool) :=
  (safeLlamaFlags.find? fun e => cliKey e.1 = tok).map fun e => (e.1, decide (e.2 = .one .bool))

/-- The tokens from left to right, where `value` reads the text of a flag's value. -/
def readArgv (value : String → String → FlagValue) :
    List String → Option (List (String × FlagValue))
  | [] => some []
  | [tok] =>
    match flagOf tok with
    | some (key, true) => some [(key, .bool true)]
    | _ => none
  | tok :: v :: argv =>
    match flagOf tok with
    | some (key, true) => (readArgv value (v :: argv)).map ((key, .bool true) :: ·)
    | some (key, false) => (readArgv value argv).map ((key, value key v) :: ·)
    | none => none

/-- What `flash_attn` is given as. -/
def flashAttnText (T : ValueText) : FlagValue → String
  | .bool b => if b then "on" else "off"
  | v => (v.str T).toLower

/-- The dictionary without its switches that are off, and with a text for `flash_attn`. -/
def normalised (T : ValueText) (items : List (String × FlagValue)) : List (String × FlagValue) :=
  items.filterMap fun kv =>
    if kv.1 = "flash_attn" then some (kv.1, .text (flashAttnText T kv.2))
    else if kv.2 = .bool false then none
    else some kv

/-- `flags["parallel"]`, or 1. -/
def parallelOf (items : List (String × FlagValue)) : Int :=
  match items.lookup "parallel" with
  | some (.num (.int n)) => n
  | _ => 1

/-- A width other than 1 after a template that is called like the flag. -/
def Shadowed (items : List (String × FlagValue)) : Prop :=
  ∃ before after n, items = before ++ ("chat_template", .text "--parallel") :: after ∧
    ("parallel", .num (.int n)) ∈ after ∧ n ≠ 1

/-! ## The tokens of flags -/

/-- A key has underscores where its token has dashes. -/
theorem key_plain : ∀ e ∈ safeLlamaFlags, '-' ∉ e.1.toList := by
  decide +kernel

theorem cliKey_toList (key : String) : (cliKey key).toList =
    '-' :: '-' :: key.toList.map fun c => if c = '_' then '-' else c := by
  rw [cliKey, String.toList_append, String.toList_ofList, String.toList_ofList]
  rfl

theorem dashed_inj {l m : List Char} (hl : '-' ∉ l) (hm : '-' ∉ m)
    (h : (l.map fun c => if c = '_' then '-' else c) = m.map fun c => if c = '_' then '-' else c) :
    l = m := by
  let back (c : Char) : Char := if c = '-' then '_' else c
  have hback : ∀ l : List Char, '-' ∉ l →
      (l.map fun c => if c = '_' then '-' else c).map back = l := by
    intro l hl
    rw [List.map_map]
    refine (List.map_congr_left fun c hc => ?_).trans (List.map_id l)
    have hne : c ≠ '-' := fun heq => hl (heq ▸ hc)
    by_cases hu : c = '_'
    · subst hu
      rfl
    · simp [back, hu, hne]
  rw [← hback l hl, ← hback m hm, h]

theorem cliKey_inj {a b : String × Expected} (ha : a ∈ safeLlamaFlags) (hb : b ∈ safeLlamaFlags)
    (h : cliKey a.1 = cliKey b.1) : a.1 = b.1 := by
  have hlist := congrArg String.toList h
  rw [cliKey_toList, cliKey_toList, List.cons_inj_right, List.cons_inj_right] at hlist
  exact String.toList_inj.mp (dashed_inj (key_plain a ha) (key_plain b hb) hlist)

/-- A flag's token is its own. -/
theorem flagOf_cliKey {key : String} {expected : Expected}
    (h : safeLlamaFlags.lookup key = some expected) :
    flagOf (cliKey key) = some (key, decide (expected = .one .bool)) := by
  have hmem : (key, expected) ∈ safeLlamaFlags := lookup_mem h
  obtain ⟨before, after, heq, hbefore⟩ := List.lookup_eq_some_iff.mp h
  have hfind : safeLlamaFlags.find? (fun e => decide (cliKey e.1 = cliKey key)) =
      some (key, expected) := by
    rw [heq, List.find?_append, List.find?_eq_none.mpr, Option.none_or]
    · exact List.find?_cons_of_pos (by simp)
    · intro e he hsame
      have hin : e ∈ safeLlamaFlags := by
        rw [heq]
        exact List.mem_append_left _ he
      have hkey := cliKey_inj hin hmem (of_decide_eq_true hsame)
      exact absurd hkey.symm (by simpa using hbefore e he)
  rw [flagOf, hfind]
  rfl

theorem cliKey_eq_parallel {key : String} {expected : Expected}
    (h : safeLlamaFlags.lookup key = some expected) (hp : cliKey key = "--parallel") :
    key = "parallel" := by
  have hself := flagOf_cliKey h
  rw [hp, show flagOf "--parallel" = some ("parallel", false) from by decide +kernel] at hself
  exact (congrArg Prod.fst (Option.some.inj hself)).symm

/-- `int` does not read a flag. -/
theorem pyInt_cliKey (key : String) : KeepAlive.pyInt (cliKey key).toList = none := by
  rw [cliKey_toList, KeepAlive.pyInt, KeepAlive.numeral?_signs]

/-! ## What is accepted -/

theorem tuple_special : ∀ e ∈ safeLlamaFlags, (∀ t, e.2 ≠ .one t) → e.1 ∈ specialKeys := by
  have h : ∀ e ∈ safeLlamaFlags, e.1 ∈ specialKeys ∨
      e.2 ∈ [Expected.one .int, .one .float, .one .bool, .one .str] := by decide +kernel
  intro e he hne
  rcases h e he with h | h
  · exact h
  · simp only [List.mem_cons, List.not_mem_nil, or_false] at h
    rcases h with h | h | h | h
    all_goals exact absurd h (hne _)

/-- The texts are listed, or special. -/
theorem str_listed : ∀ e ∈ safeLlamaFlags, e.2 = .one .str →
    e.1 ∈ specialKeys ∨ (flagStringEnums.lookup e.1).isSome = true := by
  decide +kernel

theorem listed_str : ∀ e ∈ safeLlamaFlags, (flagStringEnums.lookup e.1).isSome = true →
    e.2 = .one .str := by
  decide +kernel

theorem listed_no_flag : ∀ l ∈ flagStringEnums, "--parallel" ∉ l.2 := by
  decide +kernel

/-- A number does not look like a flag. -/
theorem num_str_ne (T : ValueText) (x : Num) : x.str T ≠ "--parallel" := by
  have hflag : "--parallel".toList = '-' :: '-' :: "parallel".toList := by decide
  intro h
  have hlist := congrArg String.toList h
  rw [hflag] at hlist
  cases x with
  | int n =>
    have hdigit : ∀ (n : Nat) (c : Char), c ∈ n.repr.toList → c ≠ '-' := by
      rintro n _ hc rfl
      rw [Nat.toList_repr] at hc
      exact absurd (Nat.isDigit_of_mem_toDigits (by decide) (by decide) hc) (by decide)
    cases n with
    | ofNat n =>
      have hl : n.repr.toList = '-' :: '-' :: "parallel".toList := hlist
      exact hdigit n '-' (by rw [hl]; exact List.mem_cons_self) rfl
    | negSucc n =>
      have hl : ("-" ++ (n + 1).repr).toList = '-' :: '-' :: "parallel".toList := hlist
      rw [String.toList_append] at hl
      have htail : (n + 1).repr.toList = '-' :: "parallel".toList := List.tail_eq_of_cons_eq hl
      exact hdigit (n + 1) '-' (by rw [htail]; exact List.mem_cons_self) rfl
  | float x =>
    cases x with
    | nan => exact absurd (show "nan" = "--parallel" from h) (by decide)
    | inf => exact absurd (show "inf" = "--parallel" from h) (by decide)
    | negInf => exact absurd (show "-inf" = "--parallel" from h) (by decide)
    | finite q =>
      rcases T.numeral q with ⟨c, s, hq, hc⟩ | ⟨c, s, hq, hc⟩
      · obtain ⟨rfl, -⟩ := List.cons.inj (hq.symm.trans hlist)
        exact absurd hc (by decide)
      · obtain ⟨-, htail⟩ := List.cons.inj (hq.symm.trans hlist)
        obtain ⟨rfl, -⟩ := List.cons.inj htail
        exact absurd hc (by decide)

/-- An accepted value, by the way its flag is written. -/
inductive Written (T : ValueText) (key : String) (expected : Expected) : FlagValue → Prop
  | flashAttn {v : FlagValue} : key = "flash_attn" → expected ≠ .one .bool →
      flashAttnText T v ∈ flashAttnStrValues → Written T key expected v
  | switch (b : Bool) : key ≠ "flash_attn" → expected = .one .bool →
      Written T key expected (.bool b)
  | valued {v : FlagValue} : key ≠ "flash_attn" → expected ≠ .one .bool → (∀ b, v ≠ .bool b) →
      (v.str T = "--parallel" → key = "chat_template" ∧ v = .text "--parallel") →
      Written T key expected v

theorem Written.num {T : ValueText} {key : String} {expected : Expected} (x : Num)
    (hkey : key ≠ "flash_attn") (hexpected : expected ≠ .one .bool) :
    Written T key expected (.num x) :=
  .valued hkey hexpected (by rintro _ ⟨⟩) fun h => absurd h (num_str_ne T x)

theorem Written.text {T : ValueText} {key : String} {expected : Expected} {s : String}
    (hkey : key ≠ "flash_attn") (hexpected : expected ≠ .one .bool) (hs : s ≠ "--parallel") :
    Written T key expected (.text s) :=
  .valued hkey hexpected (by rintro _ ⟨⟩) fun h => absurd h hs

theorem written_flashAttn {T : ValueText} {expected : Expected} {v : FlagValue}
    (hexpected : expected ≠ .one .bool) (h : validateFlashAttn T v = .ok ()) :
    Written T "flash_attn" expected v := by
  refine .flashAttn rfl hexpected ?_
  cases v with
  | bool b =>
    show (if b then "on" else "off") ∈ flashAttnStrValues
    cases b <;> decide
  | num x => cases h
  | other type repr truthy => cases h
  | text s =>
    rw [validateFlashAttn] at h
    split at h
    · assumption
    · cases h

theorem written_nGpuLayers {T : ValueText} {expected : Expected} {v : FlagValue}
    (hexpected : expected ≠ .one .bool) (h : validateNGpuLayers T v = .ok ()) :
    Written T "n_gpu_layers" expected v := by
  cases v with
  | bool b => cases h
  | num x => exact .num x (by decide) hexpected
  | other type repr truthy => cases h
  | text s =>
    refine .text (by decide) hexpected ?_
    rintro rfl
    rw [validateNGpuLayers] at h
    split at h
    · rename_i hmem
      exact absurd hmem (by decide +kernel)
    · cases h

theorem written_chatTemplate {T : ValueText} {expected : Expected} {v : FlagValue}
    (hexpected : expected ≠ .one .bool) (h : validateChatTemplate T v = .ok ()) :
    Written T "chat_template" expected v := by
  cases v with
  | bool b => cases h
  | num x => cases h
  | other type repr truthy => cases h
  | text s =>
    exact .valued (by decide) hexpected (by rintro _ ⟨⟩) fun hs => ⟨rfl, congrArg _ hs⟩

theorem written_type {T : ValueText} {key : String} {expected : Expected} {v : FlagValue}
    (he : (key, expected) ∈ safeLlamaFlags) (hkey : key ∉ specialKeys)
    (hl : flagStringEnums.lookup key = none) (h : validateType T key v expected = .ok ()) :
    Written T key expected v := by
  have hflash : key ≠ "flash_attn" := by
    rintro rfl
    exact hkey (by decide)
  cases expected with
  | tuple ts => exact absurd (tuple_special _ he (by rintro _ ⟨⟩)) hkey
  | one t =>
    cases t with
    | bool =>
      obtain ⟨b, rfl⟩ := type_bool h
      exact .switch b hflash rfl
    | int =>
      obtain ⟨n, rfl⟩ := type_int h
      exact .num _ hflash (by decide)
    | float =>
      cases v with
      | num x => exact .num x hflash (by decide)
      | bool b => cases h
      | text s => cases h
      | other type repr truthy => cases h
    | str =>
      rcases str_listed _ he rfl with h | h
      · exact absurd h hkey
      · rw [hl] at h
        cases h

theorem written_of_valid {T : ValueText} {key : String} {expected : Expected} {v : FlagValue}
    (he : safeLlamaFlags.lookup key = some expected)
    (h : validateFlagValue T key expected v = .ok ()) : Written T key expected v := by
  have hmem := lookup_mem he
  by_cases hspecial : key ∈ specialKeys
  · have hexpected : expected ≠ .one .bool := by
      have htable : ∀ key ∈ specialKeys, safeLlamaFlags.lookup key ≠ some (.one .bool) := by
        decide +kernel
      rintro rfl
      exact htable key hspecial he
    simp only [specialKeys, List.mem_cons, List.not_mem_nil, or_false] at hspecial
    rcases hspecial with rfl | rfl | rfl
    · exact written_flashAttn hexpected h
    · exact written_nGpuLayers hexpected h
    · exact written_chatTemplate hexpected h
  · cases hl : flagStringEnums.lookup key with
    | none => exact written_type hmem hspecial hl (validate_type hspecial hl h)
    | some listed =>
      obtain ⟨s, hs, rfl⟩ := validate_listed hl h
      have hstr : expected = .one .str := listed_str _ hmem (by rw [hl]; rfl)
      refine .text ?_ (by rw [hstr]; decide) ?_
      · rintro rfl
        exact hspecial (by decide)
      · rintro rfl
        exact listed_no_flag _ (lookup_mem hl) hs

/-! ## One flag -/

theorem argvOf_flashAttn (T : ValueText) (v : FlagValue) :
    argvOf T "flash_attn" v = [cliKey "flash_attn", flashAttnText T v] := by
  cases v with
  | bool b => rfl
  | num x => rfl
  | text s => rfl
  | other type repr truthy => rfl

theorem argvOf_switch {key : String} (T : ValueText) (h : key ≠ "flash_attn") (b : Bool) :
    argvOf T key (.bool b) = if b then [cliKey key] else [] :=
  if_neg h

theorem argvOf_valued {key : String} (T : ValueText) {v : FlagValue} (h : key ≠ "flash_attn")
    (hbool : ∀ b, v ≠ .bool b) : argvOf T key v = [cliKey key, v.str T] := by
  unfold argvOf
  rw [if_neg h]
  cases v with
  | bool b => exact absurd rfl (hbool b)
  | num x => rfl
  | text s => rfl
  | other type repr truthy => rfl

theorem normalised_cons (T : ValueText) (kv : String × FlagValue)
    (items : List (String × FlagValue)) :
    normalised T (kv :: items) = normalised T [kv] ++ normalised T items := by
  rw [normalised, normalised, normalised, ← List.filterMap_append]
  rfl

theorem normalised_switch {key : String} (T : ValueText) (h : key ≠ "flash_attn") (b : Bool) :
    normalised T [(key, .bool b)] = if b then [(key, .bool b)] else [] := by
  rw [normalised, List.filterMap_cons, if_neg h]
  cases b with
  | true => rfl
  | false => rfl

theorem normalised_valued {key : String} (T : ValueText) {v : FlagValue} (h : key ≠ "flash_attn")
    (hbool : ∀ b, v ≠ .bool b) : normalised T [(key, v)] = [(key, v)] := by
  rw [normalised, List.filterMap_cons, if_neg h, if_neg (hbool false)]
  rfl

theorem readArgv_switch {value : String → String → FlagValue} {tok key : String}
    (h : flagOf tok = some (key, true)) (argv : List String) :
    readArgv value (tok :: argv) = (readArgv value argv).map ((key, .bool true) :: ·) := by
  cases argv with
  | nil =>
    unfold readArgv
    rw [h]
    rfl
  | cons v argv =>
    rw [readArgv]
    rw [h]

theorem readArgv_valued {value : String → String → FlagValue} {tok key : String}
    (h : flagOf tok = some (key, false)) (v : String) (argv : List String) :
    readArgv value (tok :: v :: argv) = (readArgv value argv).map ((key, value key v) :: ·) := by
  rw [readArgv]
  rw [h]

theorem pinned_one (tok : String) : pinnedParallel [tok] = 1 := by
  rw [pinnedParallel]
  intro _ _ _ h
  cases h

theorem pinned_flag (v : String) (argv : List String) :
    pinnedParallel ("--parallel" :: v :: argv) =
      match KeepAlive.pyInt v.toList with
      | some n => max 1 n
      | none => 1 := by
  rw [pinnedParallel, if_pos rfl]

theorem pinned_skip {tok : String} (h : tok ≠ "--parallel") (argv : List String) :
    pinnedParallel (tok :: argv) = pinnedParallel argv := by
  cases argv with
  | nil => rfl
  | cons v argv => rw [pinnedParallel, if_neg h]

/-- The value is read back, where `value` reads it. -/
theorem readArgv_argvOf {T : ValueText} {value : String → String → FlagValue} {key : String}
    {expected : Expected} {v : FlagValue} (he : safeLlamaFlags.lookup key = some expected)
    (hw : Written T key expected v)
    (hvalue : ∀ kv ∈ normalised T [(key, v)], (∀ b, kv.2 ≠ .bool b) →
      value kv.1 (kv.2.str T) = kv.2) (argv : List String) :
    readArgv value (argvOf T key v ++ argv) =
      (readArgv value argv).map (normalised T [(key, v)] ++ ·) := by
  have hflag := flagOf_cliKey he
  cases hw with
  | switch b hkey hexpected =>
    rw [decide_eq_true hexpected] at hflag
    rw [argvOf_switch T hkey, normalised_switch T hkey]
    cases b with
    | true => exact readArgv_switch hflag argv
    | false => exact Option.map_id'.symm
  | flashAttn hkey hexpected hmem =>
    subst hkey
    rw [decide_eq_false hexpected] at hflag
    have hn : normalised T [("flash_attn", v)] = [("flash_attn", .text (flashAttnText T v))] := rfl
    rw [hn] at hvalue ⊢
    have hread : value "flash_attn" (flashAttnText T v) = .text (flashAttnText T v) :=
      hvalue _ List.mem_cons_self (by rintro _ ⟨⟩)
    rw [argvOf_flashAttn, List.cons_append, List.cons_append, List.nil_append,
      readArgv_valued hflag, hread]
    rfl
  | valued hkey hexpected hbool hflagged =>
    rw [decide_eq_false hexpected] at hflag
    rw [normalised_valued T hkey hbool] at hvalue ⊢
    have hread : value key (v.str T) = v := hvalue _ List.mem_cons_self hbool
    rw [argvOf_valued T hkey hbool, List.cons_append, List.cons_append, List.nil_append,
      readArgv_valued hflag, hread]
    rfl

/-- Only the flag itself, and a template that is called like it, are seen by the scan. -/
theorem pinned_argvOf {T : ValueText} {key : String} {expected : Expected} {v : FlagValue}
    (he : safeLlamaFlags.lookup key = some expected) (hw : Written T key expected v)
    (hkey : key ≠ "parallel") (hv : (key, v) ≠ ("chat_template", .text "--parallel"))
    (argv : List String) : pinnedParallel (argvOf T key v ++ argv) = pinnedParallel argv := by
  have htok : cliKey key ≠ "--parallel" := fun h => hkey (cliKey_eq_parallel he h)
  cases hw with
  | switch b hflash hexpected =>
    rw [argvOf_switch T hflash]
    cases b with
    | true => exact pinned_skip htok argv
    | false => rfl
  | flashAttn hflash hexpected hmem =>
    subst hflash
    have hne : flashAttnText T v ≠ "--parallel" := by
      intro h
      rw [h] at hmem
      exact absurd hmem (by decide)
    rw [argvOf_flashAttn]
    exact (pinned_skip htok _).trans (pinned_skip hne argv)
  | valued hflash hexpected hbool hflagged =>
    have hne : v.str T ≠ "--parallel" := by
      intro h
      obtain ⟨hk, hs⟩ := hflagged h
      exact hv (by rw [hk, hs])
    rw [argvOf_valued T hflash hbool]
    exact (pinned_skip htok _).trans (pinned_skip hne argv)

/-! ## The width -/

theorem decimal?_ascii {c : Char} (h : c.isDigit = true) :
    KeepAlive.decimal? c = some (c.toNat - 48) := by
  obtain ⟨hlo, hhi⟩ := Char.isDigit_iff_toNat.mp h
  rw [KeepAlive.decimal?, KeepAlive.decimalZeros, List.find?_cons_of_pos]
  · rfl
  · rw [Bool.and_eq_true, decide_eq_true_eq, decide_eq_true_eq]
    exact ⟨hlo, Nat.lt_of_le_of_lt hhi (by decide)⟩

theorem mapM_decimal?_ascii {ds : List Char} (h : ∀ c ∈ ds, c.isDigit = true) :
    ds.mapM KeepAlive.decimal? = some (ds.map (·.toNat - 48)) := by
  induction ds with
  | nil => rfl
  | cons c ds ih =>
    rw [List.mapM_cons, decimal?_ascii (h c List.mem_cons_self),
      ih fun c hc => h c (List.mem_cons_of_mem _ hc)]
    rfl

/-- `int` reads what `str` writes. -/
theorem pyInt_toDigits {n : Nat} (h : n < 10 ^ maxStrDigits) :
    KeepAlive.pyInt (Nat.toDigits 10 n) = some (n : Int) := by
  have hascii : ∀ c ∈ Nat.toDigits 10 n, c.isDigit = true := fun c hc =>
    Nat.isDigit_of_mem_toDigits (by decide) (by decide) hc
  have hdigit : ∀ c ∈ Nat.toDigits 10 n, KeepAlive.pyIsDigit c = true := fun c hc =>
    KeepAlive.decimal?_isDigit (decimal?_ascii (hascii c hc))
  have hvalue : KeepAlive.valueOf ((Nat.toDigits 10 n).map (·.toNat - 48)) = n := by
    rw [KeepAlive.valueOf, List.foldl_map]
    exact Nat.ofDigitChars_ten_toDigits
  have hlength : (Nat.toDigits 10 n).length ≤ maxStrDigits :=
    (Nat.length_toDigits_le_iff (by decide) (by decide)).mpr h
  rw [KeepAlive.pyInt, KeepAlive.numeral?_digits Nat.toDigits_ne_nil hdigit,
    mapM_decimal?_ascii hascii]
  show (if maxStrDigits < ((Nat.toDigits 10 n).map (·.toNat - 48)).length then none
    else some (KeepAlive.valueOf ((Nat.toDigits 10 n).map (·.toNat - 48)) : Int)) = some (n : Int)
  rw [List.length_map, if_neg (Nat.not_lt.mpr hlength), hvalue]

theorem int_le {a b : Int} (h : (Num.int a).le (.int b) = true) : a ≤ b := by
  have hcast : PyFloat.le (.finite a) (.finite b) = true := h
  rw [PyFloat.le, Bool.or_eq_true] at hcast
  rcases hcast with hlt | heq
  · exact Int.le_of_lt (Rat.intCast_lt_intCast.mp (of_decide_eq_true hlt))
  · obtain ⟨heq, -⟩ := (Bool.and_eq_true _ _).mp heq
    exact Int.le_of_eq (Rat.intCast_inj.mp (PyFloat.finite.inj (of_decide_eq_true heq)))

theorem valid_parallel {T : ValueText} {expected : Expected} {v : FlagValue}
    (he : safeLlamaFlags.lookup "parallel" = some expected)
    (h : validateFlagValue T "parallel" expected v = .ok ()) :
    ∃ n : Nat, v = .num (.int n) ∧ 1 ≤ n ∧ n ≤ 256 := by
  have hexpected : expected = .one .int := by
    rw [show safeLlamaFlags.lookup "parallel" = some (.one .int) from by decide +kernel] at he
    exact (Option.some.inj he).symm
  subst hexpected
  obtain ⟨n, rfl⟩ := type_int (validate_type (by decide) (by decide +kernel) h)
  obtain ⟨hlo, hhi⟩ := validate_within (show flagBounds.lookup "parallel" =
    some (.int 1, .int 256) from by decide +kernel)
    (show (Num.int n).value ≠ .nan from (by rintro ⟨⟩)) h
  have hlo := int_le hlo
  have hhi := int_le hhi
  obtain ⟨m, rfl⟩ := Int.eq_ofNat_of_zero_le (Int.le_trans (by decide) hlo)
  exact ⟨m, rfl, by omega, by omega⟩

theorem pinned_parallel (T : ValueText) {n : Nat} (hlo : 1 ≤ n) (hhi : n ≤ 256)
    (argv : List String) :
    pinnedParallel (argvOf T "parallel" (.num (.int n)) ++ argv) = n := by
  have hint : KeepAlive.pyInt (toString (n : Int)).toList = some (n : Int) := by
    have hbig : n < 10 ^ maxStrDigits :=
      Nat.lt_of_lt_of_le (Nat.lt_of_le_of_lt hhi (by decide : 256 < 10 ^ 3))
        (Nat.pow_le_pow_right (by decide) (by decide))
    show KeepAlive.pyInt n.repr.toList = _
    rw [Nat.toList_repr, pyInt_toDigits hbig]
  have hbool : ∀ b, FlagValue.num (.int n) ≠ .bool b := (by rintro _ ⟨⟩)
  rw [argvOf_valued T (by decide) hbool]
  have htok : cliKey "parallel" = "--parallel" := by decide +kernel
  rw [htok, List.cons_append, List.cons_append, List.nil_append, pinned_flag]
  show (match KeepAlive.pyInt (toString (n : Int)).toList with
    | some n => max 1 n
    | none => 1) = (n : Int)
  rw [hint]
  show max 1 (n : Int) = n
  omega

/-! ## A dictionary of flags -/

/-- A flag that the allowlist lets pass. -/
def Passes (T : ValueText) (kv : String × FlagValue) : Prop :=
  ∃ expected, safeLlamaFlags.lookup kv.1 = some expected ∧
    validateFlagValue T kv.1 expected kv.2 = .ok ()

theorem Passes.written {T : ValueText} {kv : String × FlagValue} (h : Passes T kv) :
    ∃ expected, safeLlamaFlags.lookup kv.1 = some expected ∧ Written T kv.1 expected kv.2 := by
  obtain ⟨expected, he, hvalid⟩ := h
  exact ⟨expected, he, written_of_valid he hvalid⟩

theorem flagsToArgv_ok {T : ValueText} {items : List (String × FlagValue)}
    (h : ∀ kv ∈ items, kv.1 ∉ deniedFlags ∧ Passes T kv) :
    flagsToArgv T items = .ok (items.flatMap fun kv => argvOf T kv.1 kv.2) := by
  induction items with
  | nil => rfl
  | cons kv items ih =>
    obtain ⟨key, v⟩ := kv
    obtain ⟨hdenied, expected, he, -⟩ := h _ List.mem_cons_self
    have hlisted : key ∈ safeLlamaFlags.map (·.1) := List.mem_map_of_mem (lookup_mem he)
    rw [flagsToArgv, if_neg (fun hor => hor.elim (· hlisted) hdenied),
      ih fun kv hkv => h kv (List.mem_cons_of_mem _ hkv)]
    rfl

/-- The reader by arity gets back what was given. -/
theorem readArgv_items {T : ValueText} {value : String → String → FlagValue}
    {items : List (String × FlagValue)} (h : ∀ kv ∈ items, Passes T kv)
    (hvalue : ∀ kv ∈ normalised T items, (∀ b, kv.2 ≠ .bool b) → value kv.1 (kv.2.str T) = kv.2) :
    readArgv value (items.flatMap fun kv => argvOf T kv.1 kv.2) = some (normalised T items) := by
  induction items with
  | nil => rfl
  | cons kv items ih =>
    obtain ⟨key, v⟩ := kv
    obtain ⟨expected, he, hw⟩ := (h _ List.mem_cons_self).written
    rw [normalised_cons] at hvalue ⊢
    have hhead := readArgv_argvOf he hw fun kv hkv => hvalue kv (List.mem_append_left _ hkv)
    have htail := ih (fun kv hkv => h kv (List.mem_cons_of_mem _ hkv))
      fun kv hkv => hvalue kv (List.mem_append_right _ hkv)
    rw [List.flatMap_cons, hhead, htail]
    rfl

/-- The tokens begin with a flag. -/
theorem argv_head {T : ValueText} {items : List (String × FlagValue)}
    (h : ∀ kv ∈ items, Passes T kv) :
    (items.flatMap fun kv => argvOf T kv.1 kv.2) = [] ∨
      ∃ key argv, (items.flatMap fun kv => argvOf T kv.1 kv.2) = cliKey key :: argv := by
  induction items with
  | nil => exact .inl rfl
  | cons kv items ih =>
    obtain ⟨key, v⟩ := kv
    obtain ⟨expected, -, hw⟩ := (h _ List.mem_cons_self).written
    have htail := ih fun kv hkv => h kv (List.mem_cons_of_mem _ hkv)
    rw [List.flatMap_cons]
    cases hw with
    | switch b hflash hexpected =>
      rw [argvOf_switch T hflash]
      cases b with
      | true => exact .inr ⟨key, _, rfl⟩
      | false => exact htail
    | flashAttn hflash hexpected hmem =>
      obtain rfl : key = "flash_attn" := hflash
      rw [argvOf_flashAttn]
      exact .inr ⟨_, _, rfl⟩
    | valued hflash hexpected hbool hflagged =>
      rw [argvOf_valued T hflash hbool]
      exact .inr ⟨_, _, rfl⟩

/-- After a template that is called like the flag, the scan reads the next flag. -/
theorem pinned_template {T : ValueText} {items : List (String × FlagValue)}
    (h : ∀ kv ∈ items, Passes T kv) :
    pinnedParallel (argvOf T "chat_template" (.text "--parallel") ++
      items.flatMap fun kv => argvOf T kv.1 kv.2) = 1 := by
  have hbool : ∀ b, FlagValue.text "--parallel" ≠ .bool b := (by rintro _ ⟨⟩)
  rw [argvOf_valued T (by decide) hbool, List.cons_append, List.cons_append, List.nil_append,
    pinned_skip (by decide +kernel)]
  rcases argv_head h with hnil | ⟨key, argv, hcons⟩
  · rw [hnil]
    exact pinned_one _
  · rw [hcons]
    show pinnedParallel ("--parallel" :: cliKey key :: argv) = 1
    rw [pinned_flag, pyInt_cliKey]

/-- Another width than 1 is asked for. -/
def Widened (items : List (String × FlagValue)) : Prop :=
  ∃ n, ("parallel", .num (.int n)) ∈ items ∧ n ≠ 1

theorem shadowed_cons (kv : String × FlagValue) (items : List (String × FlagValue)) :
    Shadowed (kv :: items) ↔
      kv = ("chat_template", .text "--parallel") ∧ Widened items ∨ Shadowed items := by
  constructor
  · rintro ⟨before, after, n, heq, hmem, hn⟩
    cases before with
    | nil =>
      obtain ⟨rfl, rfl⟩ := List.cons.inj heq
      exact .inl ⟨rfl, n, hmem, hn⟩
    | cons kv' before =>
      obtain ⟨-, rfl⟩ := List.cons.inj heq
      exact .inr ⟨before, after, n, rfl, hmem, hn⟩
  · rintro (⟨rfl, n, hmem, hn⟩ | ⟨before, after, n, rfl, hmem, hn⟩)
    · exact ⟨[], items, n, rfl, hmem, hn⟩
    · exact ⟨kv :: before, after, n, rfl, hmem, hn⟩

theorem Shadowed.widened {items : List (String × FlagValue)} (h : Shadowed items) :
    Widened items := by
  obtain ⟨before, after, n, rfl, hmem, hn⟩ := h
  exact ⟨n, List.mem_append_right _ (List.mem_cons_of_mem _ hmem), hn⟩

theorem parallelOf_cons_ne {key : String} (h : key ≠ "parallel") (v : FlagValue)
    (items : List (String × FlagValue)) : parallelOf ((key, v) :: items) = parallelOf items := by
  rw [parallelOf, List.lookup_cons, beq_false_of_ne h.symm, parallelOf]

/-- Where the scan reads 1, that is right unless another width is asked for. -/
theorem parallelOf_eq_one_iff {T : ValueText} {items : List (String × FlagValue)}
    (hkeys : (items.map (·.1)).Nodup) (h : ∀ kv ∈ items, Passes T kv) :
    1 = parallelOf items ↔ ¬ Widened items := by
  cases hp : items.lookup "parallel" with
  | none =>
    rw [parallelOf, hp]
    refine ⟨fun _ => ?_, fun _ => rfl⟩
    rintro ⟨n, hmem, -⟩
    have hall := List.lookup_eq_none_iff.mp hp _ hmem
    exact absurd hall (by simp)
  | some v =>
    have hmem := lookup_mem hp
    obtain ⟨expected, he, hvalid⟩ := h _ hmem
    obtain ⟨n, rfl, -⟩ := valid_parallel he hvalid
    rw [parallelOf, hp]
    constructor
    · rintro hone ⟨m, hm, hne⟩
      have hsame := List.inj_on_of_nodup_map hkeys hm hmem rfl
      obtain rfl : m = n := by
        cases hsame
        rfl
      exact hne hone.symm
    · intro hwidened
      by_contra hne
      exact hwidened ⟨n, hmem, fun hn => hne hn.symm⟩

/-- The scan reads the width that is given, unless it is shadowed. -/
theorem pinned_items {T : ValueText} {items : List (String × FlagValue)}
    (hkeys : (items.map (·.1)).Nodup) (h : ∀ kv ∈ items, Passes T kv) :
    pinnedParallel (items.flatMap fun kv => argvOf T kv.1 kv.2) = parallelOf items ↔
      ¬ Shadowed items := by
  induction items with
  | nil =>
    refine ⟨fun _ => ?_, fun _ => rfl⟩
    intro hs
    obtain ⟨n, hmem, -⟩ := hs.widened
    exact absurd hmem List.not_mem_nil
  | cons kv items ih =>
    obtain ⟨key, v⟩ := kv
    rw [List.map_cons, List.nodup_cons] at hkeys
    have htail : ∀ kv ∈ items, Passes T kv := fun kv hkv => h kv (List.mem_cons_of_mem _ hkv)
    obtain ⟨expected, he, hvalid⟩ := h _ List.mem_cons_self
    rw [List.flatMap_cons, shadowed_cons]
    by_cases hkey : key = "parallel"
    · subst hkey
      obtain ⟨n, rfl, hlo, hhi⟩ := valid_parallel he hvalid
      rw [pinned_parallel T hlo hhi]
      refine ⟨fun _ => ?_, fun _ => rfl⟩
      rintro (⟨heq, -⟩ | hs)
      · have hkey : "parallel" = "chat_template" := congrArg Prod.fst heq
        exact absurd hkey (by decide)
      · obtain ⟨m, hmem, -⟩ := hs.widened
        exact hkeys.1 (List.mem_map.mpr ⟨_, hmem, rfl⟩)
    rw [parallelOf_cons_ne hkey]
    by_cases htemplate : (key, v) = ("chat_template", .text "--parallel")
    · obtain ⟨rfl, rfl⟩ := Prod.mk.inj htemplate
      rw [pinned_template htail, parallelOf_eq_one_iff hkeys.2 htail, not_iff_not]
      exact ⟨fun hw => .inl ⟨rfl, hw⟩, fun hor => hor.elim (·.2) Shadowed.widened⟩
    · rw [pinned_argvOf he (written_of_valid he hvalid) hkey htemplate, ih hkeys.2 htail,
        not_iff_not]
      exact ⟨.inr, fun hor => hor.resolve_left fun hl => htemplate hl.1⟩

/-- An accepted dictionary is read back from the command line, and the width that is
pinned is the one given exactly if no template called like the flag stands before it. -/
theorem flags_argv_iff (T : ValueText) (flags : FlagsDict) (h : flagsAllowlist T flags = .ok ())
    (value : String → String → FlagValue)
    (hvalue : ∀ kv ∈ normalised T flags.items, (∀ b, kv.2 ≠ .bool b) →
      value kv.1 (kv.2.str T) = kv.2) :
    ∃ argv, flagsToArgv T flags.items = .ok argv ∧
      readArgv value argv = some (normalised T flags.items) ∧
      (pinnedParallel argv = parallelOf flags.items ↔ ¬ Shadowed flags.items) := by
  have hitems := checkFlags_ok (allowlist_ok h).1
  have hpasses : ∀ kv ∈ flags.items, Passes T kv := fun kv hkv => (hitems kv hkv).2
  exact ⟨_, flagsToArgv_ok hitems, readArgv_items hpasses hvalue, pinned_items flags.keys hpasses⟩

theorem flags_argv_iff_twoSlots :
    ∃ argv, flagsToArgv plainText twoSlots.items = .ok argv ∧
      readArgv (fun key _ => (twoSlots.get key).getD (.bool true)) argv =
        some (normalised plainText twoSlots.items) ∧
      (pinnedParallel argv = parallelOf twoSlots.items ↔ ¬ Shadowed twoSlots.items) :=
  flags_argv_iff plainText twoSlots (by rfl) _ (by decide +kernel)

/-- A template that is called like the flag, before four slots. -/
def shadowedSlots : FlagsDict where
  items := [("chat_template", .text "--parallel"), ("kv_unified", .bool true),
    ("ctx_size", .num (.int 32768)), ("parallel", .num (.int 4))]
  keys := by decide

theorem width_shadowed :
    ¬ ∀ (T : ValueText) (flags : FlagsDict) (argv : List String),
      flagsAllowlist T flags = .ok () → flagsToArgv T flags.items = .ok argv →
        pinnedParallel argv = parallelOf flags.items := by
  intro h
  have hpinned := h plainText shadowedSlots _ (by rfl) (by rfl)
  exact absurd hpinned (by decide +kernel)

end Turbohaul.LlamaFlags
