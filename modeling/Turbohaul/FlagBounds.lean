/-
# `FlagBounds` — what an accepted dictionary of flags holds

A number is refused where it is below the one bound or above the other, and a NaN is
neither.  Otherwise what is accepted is as the tables say.

  `FlagValue.Within`   between the bounds of its key
  `WithinTables`       what is asked of an accepted dictionary
  `flags_within_iff`   it holds of one exactly if no bounded value is a NaN
-/
import Turbohaul.LlamaFlags
import Mathlib.Algebra.Order.Ring.Unbundled.Rat

namespace Turbohaul.LlamaFlags

/-- Both bounds hold, of a number. -/
def FlagValue.Within (lo hi : Num) (v : FlagValue) : Prop :=
  ∀ x, v = .num x → lo.le x = true ∧ x.le hi = true

/-- What is accepted should be so. -/
structure WithinTables (flags : FlagsDict) : Prop where
  allowed : ∀ kv ∈ flags.items, kv.1 ∈ safeLlamaFlags.map (·.1) ∧ kv.1 ∉ deniedFlags
  bounded : ∀ kv ∈ flags.items, ∀ lo hi, flagBounds.lookup kv.1 = some (lo, hi) →
    kv.2.Within lo hi
  listed : ∀ kv ∈ flags.items, ∀ values, flagStringEnums.lookup kv.1 = some values →
    ∃ s ∈ values, kv.2 = .text s
  slots : ∀ parallel : Int, flags.get "parallel" = some (.num (.int parallel)) → 1 < parallel →
    flags.get "kv_unified" = some (.bool true) ∧
      ∀ v, flags.get "ctx_size" = some v →
        ∃ perSlot ≥ perSlotCtxFloor, v = .num (.int (perSlot * parallel))

theorem lookup_mem {α : Type} {key : String} {v : α} {l : List (String × α)}
    (h : l.lookup key = some v) : (key, v) ∈ l := by
  obtain ⟨before, after, heq, -⟩ := List.lookup_eq_some_iff.mp h
  rw [heq]
  exact List.mem_append_right _ List.mem_cons_self

/-- A number that is no NaN and not on the wrong side of a bound is on the right one. -/
theorem le_of_not_lt_float {x y : PyFloat} (hx : x ≠ .nan) (hy : y ≠ .nan)
    (h : y.lt x = false) : x.le y = true := by
  cases x with
  | nan => exact absurd rfl hx
  | inf =>
    cases y with
    | nan => exact absurd rfl hy
    | inf => rfl
    | negInf => exact absurd h (by decide)
    | finite q => cases h
  | negInf =>
    cases y with
    | nan => exact absurd rfl hy
    | inf => rfl
    | negInf => rfl
    | finite q => rfl
  | finite p =>
    cases y with
    | nan => exact absurd rfl hy
    | inf => rfl
    | negInf => cases h
    | finite q =>
      have hle : p ≤ q := not_lt.mp (of_decide_eq_false h)
      rcases lt_or_eq_of_le hle with hlt | rfl
      · simp [PyFloat.le, PyFloat.lt, hlt]
      · simp [PyFloat.le]

theorem not_nan_le (y : PyFloat) : PyFloat.le y .nan = false := by
  cases y <;> rfl

/-! ## One value -/

/-- The bounds are numbers. -/
theorem bounds_not_nan : ∀ b ∈ flagBounds, b.2.1.value ≠ .nan ∧ b.2.2.value ≠ .nan := by
  decide +kernel

/-- The keys with a validator of their own. -/
def specialKeys : List String := ["flash_attn", "n_gpu_layers", "chat_template"]

theorem special_not_listed : ∀ key ∈ specialKeys, flagStringEnums.lookup key = none := by
  decide +kernel

/-- A number on neither wrong side. -/
theorem within_of_not_lt {key : String} {lo hi x : Num}
    (hb : flagBounds.lookup key = some (lo, hi)) (hx : x.value ≠ .nan) (hlo : ¬ x.lt lo = true)
    (hhi : ¬ hi.lt x = true) : lo.le x = true ∧ x.le hi = true := by
  have hnan := bounds_not_nan (key, lo, hi) (lookup_mem hb)
  exact ⟨le_of_not_lt_float hnan.1 hx (Bool.eq_false_iff.mpr hlo),
    le_of_not_lt_float hx hnan.2 (Bool.eq_false_iff.mpr hhi)⟩

theorem validateBounds_within {T : ValueText} {key : String} {lo hi x : Num}
    (hb : flagBounds.lookup key = some (lo, hi)) (hx : x.value ≠ .nan)
    (h : validateBounds T key (.num x) = .ok ()) : lo.le x = true ∧ x.le hi = true := by
  unfold validateBounds at h
  rw [hb] at h
  dsimp only at h
  split at h
  · cases h
  · split at h
    · cases h
    · rename_i hlo hhi
      exact within_of_not_lt hb hx hlo hhi

theorem validateNGpuLayers_within {T : ValueText} {lo hi x : Num}
    (hb : flagBounds.lookup "n_gpu_layers" = some (lo, hi)) (hx : x.value ≠ .nan)
    (h : validateNGpuLayers T (.num x) = .ok ()) : lo.le x = true ∧ x.le hi = true := by
  cases x with
  | float x => cases h
  | int n =>
    unfold validateNGpuLayers at h
    rw [hb] at h
    dsimp only at h
    split at h
    · cases h
    · split at h
      · cases h
      · rename_i hlo hhi
        exact within_of_not_lt hb hx hlo hhi

/-- An accepted value of a flag that has bounds is between them, unless it is a NaN. -/
theorem validate_within {T : ValueText} {key : String} {expected : Expected} {lo hi x : Num}
    (hb : flagBounds.lookup key = some (lo, hi)) (hx : x.value ≠ .nan)
    (h : validateFlagValue T key expected (.num x) = .ok ()) :
    lo.le x = true ∧ x.le hi = true := by
  unfold validateFlagValue at h
  split at h
  · cases h
  split at h
  · rename_i hkey
    subst hkey
    exact validateNGpuLayers_within hb hx h
  split at h
  · cases h
  split at h
  · cases h
  · split at h
    · cases h
    · exact validateBounds_within hb hx h

theorem validate_listed {T : ValueText} {key : String} {expected : Expected} {v : FlagValue}
    {listed : List String} (hl : flagStringEnums.lookup key = some listed)
    (h : validateFlagValue T key expected v = .ok ()) : ∃ s ∈ listed, v = .text s := by
  have hkey : key ∉ specialKeys := by
    intro hmem
    rw [special_not_listed key hmem] at hl
    cases hl
  simp only [specialKeys, List.mem_cons, List.not_mem_nil, or_false, not_or] at hkey
  rw [validateFlagValue, if_neg hkey.1, if_neg hkey.2.1, if_neg hkey.2.2, hl] at h
  dsimp only at h
  unfold validateEnum at h
  split at h
  · split at h
    · rename_i s hs
      exact ⟨s, hs, rfl⟩
    · cases h
  · cases h

/-- An accepted value of a flag that is neither special nor listed has its type. -/
theorem validate_type {T : ValueText} {key : String} {expected : Expected} {v : FlagValue}
    (hkey : key ∉ specialKeys)
    (hl : flagStringEnums.lookup key = none) (h : validateFlagValue T key expected v = .ok ()) :
    validateType T key v expected = .ok () := by
  simp only [specialKeys, List.mem_cons, List.not_mem_nil, or_false, not_or] at hkey
  rw [validateFlagValue, if_neg hkey.1, if_neg hkey.2.1, if_neg hkey.2.2, hl] at h
  dsimp only at h
  split at h
  · cases h
  · assumption

theorem type_int {T : ValueText} {key : String} {v : FlagValue}
    (h : validateType T key v (.one .int) = .ok ()) : ∃ n, v = .num (.int n) := by
  cases v with
  | bool b => cases h
  | text s => cases h
  | other type repr truthy => cases h
  | num x =>
    cases x with
    | int n => exact ⟨n, rfl⟩
    | float x => cases h

theorem type_bool {T : ValueText} {key : String} {v : FlagValue}
    (h : validateType T key v (.one .bool) = .ok ()) : ∃ b, v = .bool b := by
  cases v with
  | bool b => exact ⟨b, rfl⟩
  | text s => cases h
  | other type repr truthy => cases h
  | num x => exact absurd h (by cases x <;> intro h <;> cases h)

/-! ## The dictionary -/

/-- What the loop has checked. -/
theorem checkFlags_ok {T : ValueText} {items : List (String × FlagValue)}
    (h : checkFlags T items = .ok ()) : ∀ kv ∈ items, kv.1 ∉ deniedFlags ∧
      ∃ expected, safeLlamaFlags.lookup kv.1 = some expected ∧
        validateFlagValue T kv.1 expected kv.2 = .ok () := by
  induction items with
  | nil => exact (by rintro _ ⟨⟩)
  | cons kv items ih =>
    obtain ⟨key, value⟩ := kv
    rw [checkFlags] at h
    split at h
    · cases h
    split at h
    · cases h
    split at h
    · cases h
    split at h
    · cases h
    rename_i hdenied _ _ _ expected hexpected _ hvalue
    refine List.forall_mem_cons.mpr ⟨⟨hdenied, expected, hexpected, hvalue⟩, ih h⟩

theorem allowlist_ok {T : ValueText} {flags : FlagsDict} (h : flagsAllowlist T flags = .ok ()) :
    checkFlags T flags.items = .ok () ∧ validateParallelCtx flags = .ok () := by
  unfold flagsAllowlist at h
  split at h
  · cases h
  · exact ⟨‹_›, h⟩

theorem FlagsDict.mem_of_get {flags : FlagsDict} {key : String} {v : FlagValue}
    (h : flags.get key = some v) : (key, v) ∈ flags.items :=
  lookup_mem h

/-- An accepted dictionary has the type of a flag that the table gives. -/
theorem get_type {T : ValueText} {flags : FlagsDict} (h : flagsAllowlist T flags = .ok ())
    {key : String} {v : FlagValue} (hv : flags.get key = some v)
    (hkey : key ∉ specialKeys)
    (hl : flagStringEnums.lookup key = none) {expected : Expected}
    (hexpected : safeLlamaFlags.lookup key = some expected) :
    validateType T key v expected = .ok () := by
  obtain ⟨-, e, he, hvalid⟩ := checkFlags_ok (allowlist_ok h).1 _ (FlagsDict.mem_of_get hv)
  obtain rfl := Option.some.inj (he.symm.trans hexpected)
  exact validate_type hkey hl hvalid

theorem parallel_slots {T : ValueText} {flags : FlagsDict} (h : flagsAllowlist T flags = .ok ())
    {parallel : Int} (hp : flags.get "parallel" = some (.num (.int parallel)))
    (hlt : 1 < parallel) :
    flags.get "kv_unified" = some (.bool true) ∧ ∀ v, flags.get "ctx_size" = some v →
      ∃ perSlot ≥ perSlotCtxFloor, v = .num (.int (perSlot * parallel)) := by
  have hctx := (allowlist_ok h).2
  rw [validateParallelCtx, hp] at hctx
  dsimp only at hctx
  rw [if_neg (Int.not_le.mpr hlt)] at hctx
  split at hctx
  · cases hctx
  rename_i hkv
  constructor
  · cases hu : flags.get "kv_unified" with
    | none =>
      rw [hu] at hkv
      exact absurd rfl hkv
    | some v =>
      obtain ⟨b, rfl⟩ := type_bool
        (get_type h hu (by decide) (by decide +kernel) (by decide +kernel))
      rw [hu] at hkv
      cases b with
      | true => rfl
      | false => exact absurd rfl hkv
  · intro v hv
    obtain ⟨n, rfl⟩ := type_int (get_type h hv (by decide) (by decide +kernel) (by decide +kernel))
    rw [hv] at hctx
    dsimp only at hctx
    split at hctx
    · cases hctx
    · split at hctx
      · cases hctx
      · rename_i hmod hfloor
        refine ⟨n.fdiv parallel, Int.not_lt.mp hfloor, ?_⟩
        have hdiv := Int.fmod_add_fdiv_mul n parallel
        rw [Decidable.not_not.mp hmod, Int.zero_add] at hdiv
        rw [hdiv]

/-- An accepted dictionary is as the tables say exactly if no flag with bounds is a NaN. -/
theorem flags_within_iff (T : ValueText) (flags : FlagsDict) (h : flagsAllowlist T flags = .ok ()) :
    WithinTables flags ↔
      ∀ kv ∈ flags.items, kv.1 ∈ flagBounds.map (·.1) → kv.2 ≠ .num (.float .nan) := by
  have hitems := checkFlags_ok (allowlist_ok h).1
  constructor
  · intro hwithin kv hkv hbounded hnan
    obtain ⟨⟨k, lo, hi⟩, hb, hk⟩ := List.mem_map.mp hbounded
    have hsome : (flagBounds.lookup kv.1).isSome = true :=
      List.lookup_isSome_iff.mpr ⟨(k, lo, hi), hb, by simp [← hk]⟩
    obtain ⟨⟨lo', hi'⟩, hlookup⟩ := Option.isSome_iff_exists.mp hsome
    have hle := (hwithin.bounded kv hkv lo' hi' hlookup _ hnan).1
    rw [Num.le, show (Num.float .nan).value = .nan from rfl, not_nan_le] at hle
    cases hle
  · intro hnan
    refine ⟨?_, ?_, ?_, fun parallel hp hlt => parallel_slots h hp hlt⟩
    · intro kv hkv
      obtain ⟨hdenied, expected, hexpected, -⟩ := hitems kv hkv
      exact ⟨List.mem_map_of_mem (lookup_mem hexpected), hdenied⟩
    · rintro ⟨key, v⟩ hkv lo hi hb x rfl
      obtain ⟨-, expected, -, hvalid⟩ := hitems _ hkv
      have hmem : key ∈ flagBounds.map (·.1) := List.mem_map_of_mem (lookup_mem hb)
      refine validate_within hb (fun hx => ?_) hvalid
      cases x with
      | int n => cases hx
      | float x => exact hnan _ hkv hmem (congrArg (fun x => FlagValue.num (.float x)) hx)
    · intro kv hkv values hl
      obtain ⟨-, expected, -, hvalid⟩ := hitems kv hkv
      exact validate_listed hl hvalid

/-- Every finite float is printed as a zero, and texts as they are. -/
def plainText : ValueText := ⟨fun _ => "0.0", id, fun _ => .inl ⟨'0', ['.', '0'], rfl, rfl⟩⟩

def twoSlots : FlagsDict where
  items := [("ctx_size", .num (.int 32768)), ("parallel", .num (.int 2)),
    ("kv_unified", .bool true), ("temp", .num (.float (.finite 0)))]
  keys := by decide

theorem flags_within_iff_twoSlots :
    WithinTables twoSlots ↔
      ∀ kv ∈ twoSlots.items, kv.1 ∈ flagBounds.map (·.1) → kv.2 ≠ .num (.float .nan) :=
  flags_within_iff plainText twoSlots (by rfl)

def nanTemp : FlagsDict where
  items := [("temp", .num (.float .nan))]
  keys := by decide

theorem nan_accepted :
    ¬ ∀ (T : ValueText) (flags : FlagsDict), flagsAllowlist T flags = .ok () →
      WithinTables flags := by
  intro h
  have hwithin := h plainText nanTemp (by rfl)
  have hle := (hwithin.bounded _ List.mem_cons_self (.float (.finite 0)) (.float (.finite 10))
    (by decide +kernel) _ rfl).1
  exact absurd hle (by decide)

end Turbohaul.LlamaFlags
