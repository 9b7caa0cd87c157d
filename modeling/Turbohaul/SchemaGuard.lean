/-
# `SchemaGuard` — the check of a `json_schema`

`_validate_json_schema` of `api/chat_completion.py` and the four walkers it calls.  Each
goes through every dictionary and every list of the schema, so that what three of them
look for is found wherever it stands.  The fourth looks for `type` being the string
`"object"` with no `additionalProperties` at all: a `type` that is a list passes, and so
does an `additionalProperties` that permits.

  `_schema_depth`, `_schema_property_count`    `schemaDepth`, `schemaPropertyCount`
  `_schema_has_ref`                            `schemaHasRef`
  `_schema_missing_additional_properties_guard`
                                               `schemaMissingGuard`
  `_validate_json_schema`                      `validateJsonSchema`
  `Subschema`, `AdmitsObjects`                 where a schema has schemas, and which of
                                               them admit objects
  `Declares`                                   a property that is declared somewhere
  `GuardHolds`                                 what is asked of a schema that passes
  `schema_guard_iff`                           and when it is so
-/
import Turbohaul.JsonText
import Turbohaul.JsonPath
import Mathlib.Data.List.Perm.Subperm
import Mathlib.Data.List.Nodup
import Mathlib.Data.Nat.Basic
import Mathlib.Order.Lattice

namespace Turbohaul.SchemaGuard

/-- `_SCHEMA_MAX_BYTES`, `_SCHEMA_MAX_DEPTH`, `_SCHEMA_MAX_PROPERTIES`. -/
def schemaMaxBytes : ℕ := 65536
def schemaMaxDepth : ℕ := 16
def schemaMaxProperties : ℕ := 64

mutual

/-- `_schema_depth`. -/
def schemaDepth (depth : ℕ) : Json → ℕ
  | .obj kvs => if depth > schemaMaxDepth then depth else max depth (depthOfItems (depth + 1) kvs)
  | .arr xs => if depth > schemaMaxDepth then depth else max depth (depthOfList (depth + 1) xs)
  | _ => depth

def depthOfItems (depth : ℕ) : List (String × Json) → ℕ
  | [] => 0
  | (_, v) :: kvs => max (schemaDepth depth v) (depthOfItems depth kvs)

def depthOfList (depth : ℕ) : List Json → ℕ
  | [] => 0
  | x :: xs => max (schemaDepth depth x) (depthOfList depth xs)

end

/-- The names under `properties`, if it is a dictionary. -/
def propertyNames (kvs : Dict) : List String :=
  match kvs.get "properties" with
  | .obj props => props.map (·.1)
  | _ => []

mutual

/-- `_schema_property_count`. -/
def schemaPropertyCount : Json → ℕ
  | .obj kvs => (propertyNames kvs).length + countOfItems kvs
  | .arr xs => countOfList xs
  | _ => 0

def countOfItems : List (String × Json) → ℕ
  | [] => 0
  | (_, v) :: kvs => schemaPropertyCount v + countOfItems kvs

def countOfList : List Json → ℕ
  | [] => 0
  | x :: xs => schemaPropertyCount x + countOfList xs

end

mutual

/-- `_schema_has_ref`. -/
def schemaHasRef : Json → Bool
  | .obj kvs => Dict.has kvs "$ref" || refInItems kvs
  | .arr xs => refInList xs
  | _ => false

def refInItems : List (String × Json) → Bool
  | [] => false
  | (_, v) :: kvs => schemaHasRef v || refInItems kvs

def refInList : List Json → Bool
  | [] => false
  | x :: xs => schemaHasRef x || refInList xs

end

/-- `x == "object"`. -/
def isObjectType : Json → Bool
  | .str s => s = "object"
  | _ => false

mutual

/-- `_schema_missing_additional_properties_guard`. -/
def schemaMissingGuard : Json → Bool
  | .obj kvs =>
    (isObjectType (Dict.get kvs "type") && !Dict.has kvs "additionalProperties") ||
      missingInItems kvs
  | .arr xs => missingInList xs
  | _ => false

def missingInItems : List (String × Json) → Bool
  | [] => false
  | (_, v) :: kvs => schemaMissingGuard v || missingInItems kvs

def missingInList : List Json → Bool
  | [] => false
  | x :: xs => schemaMissingGuard x || missingInList xs

end

/-- The `jsonschema` package: whether it is there, and the type of the exception that
`Draft202012Validator(schema)` raises, if it does; and the floats of `json.dumps`. -/
structure SchemaLib where
  available : Bool
  compile : Dict → Option String
  floats : FloatText

/-- `_validate_json_schema`: the reason, or nothing where it is ok.  `json.dumps` fails on
no value of a request. -/
def validateJsonSchema (L : SchemaLib) (rf : Dict) : Option String :=
  if !L.available then some "jsonschema_lib_unavailable"
  else match rf.get "json_schema" with
    | .obj envelope =>
      match Dict.get envelope "schema" with
      | .obj schema =>
        let schemaBytes := (JsonText.dumps L.floats (.obj schema)).length
        if schemaBytes > schemaMaxBytes then
          some ("schema_size_exceeded:" ++ toString schemaBytes)
        else if schemaDepth 0 (.obj schema) > schemaMaxDepth then some "schema_depth_exceeded"
        else if schemaPropertyCount (.obj schema) > schemaMaxProperties then
          some "schema_property_count_exceeded"
        else if schemaHasRef (.obj schema) then some "schema_contains_ref_unsupported"
        else if schemaMissingGuard (.obj schema) then
          some "schema_missing_additionalProperties_guard"
        else match L.compile schema with
          | some type => some ("schema_compile_failed:" ++ type)
          | none => none
      | _ => some "missing_or_malformed_schema_field"
    | _ => some "missing_or_malformed_json_schema_field"

/-- `rf["json_schema"]["schema"]`. -/
def schemaOf (rf : Dict) : Option Dict :=
  match rf.get "json_schema" with
  | .obj envelope =>
    match Dict.get envelope "schema" with
    | .obj schema => some schema
    | _ => none
  | _ => none

theorem validate_none {L : SchemaLib} {rf : Dict} (h : validateJsonSchema L rf = none) :
    ∃ schema, schemaOf rf = some schema ∧ schemaDepth 0 (.obj schema) ≤ schemaMaxDepth ∧
      schemaPropertyCount (.obj schema) ≤ schemaMaxProperties ∧
      schemaHasRef (.obj schema) = false ∧ schemaMissingGuard (.obj schema) = false := by
  unfold validateJsonSchema at h
  unfold schemaOf
  split at h
  · cases h
  split at h
  · split at h
    · rename_i schema _
      dsimp only at h
      split at h
      · cases h
      split at h
      · cases h
      split at h
      · cases h
      split at h
      · cases h
      split at h
      · cases h
      rename_i hdepth hcount href hguard
      exact ⟨schema, rfl, Nat.not_lt.mp hdepth, Nat.not_lt.mp hcount,
        Bool.eq_false_iff.mpr href, Bool.eq_false_iff.mpr hguard⟩
    · cases h
  · cases h

/-! ## The walkers -/

theorem le_depthOfItems {depth : ℕ} {kvs : List (String × Json)} {k : String} {v : Json}
    (h : (k, v) ∈ kvs) : schemaDepth depth v ≤ depthOfItems depth kvs := by
  induction kvs with
  | nil => exact absurd h List.not_mem_nil
  | cons kv kvs ih =>
    obtain ⟨k', v'⟩ := kv
    rw [depthOfItems]
    rcases List.mem_cons.mp h with he | h
    · obtain ⟨rfl, rfl⟩ := Prod.mk.inj he
      exact le_max_left _ _
    · exact (ih h).trans (le_max_right _ _)

theorem le_depthOfList {depth : ℕ} {xs : List Json} {x : Json} (h : x ∈ xs) :
    schemaDepth depth x ≤ depthOfList depth xs := by
  induction xs with
  | nil => exact absurd h List.not_mem_nil
  | cons y xs ih =>
    rw [depthOfList]
    rcases List.mem_cons.mp h with rfl | h
    · exact le_max_left _ _
    · exact (ih h).trans (le_max_right _ _)

theorem le_schemaDepth (depth : ℕ) (x : Json) : depth ≤ schemaDepth depth x := by
  cases x with
  | obj kvs =>
    rw [schemaDepth]
    split
    · exact le_rfl
    · exact le_max_left _ _
  | arr xs =>
    rw [schemaDepth]
    split
    · exact le_rfl
    · exact le_max_left _ _
  | null | bool _ | int _ | float _ | str _ => exact le_rfl

theorem schemaDepth_child {depth : ℕ} {x y : Json} {s : Json.Step}
    (hx : schemaDepth depth x ≤ schemaMaxDepth) (h : x.child s = some y) :
    schemaDepth (depth + 1) y ≤ schemaMaxDepth := by
  have hdepth : ¬ depth > schemaMaxDepth := Nat.not_lt.mpr ((le_schemaDepth depth x).trans hx)
  rcases Json.child_mem h with ⟨kvs, k, rfl, -, hmem⟩ | ⟨xs, i, rfl, -, hi⟩
  · rw [schemaDepth, if_neg hdepth] at hx
    exact (le_depthOfItems hmem).trans ((le_max_right _ _).trans hx)
  · rw [schemaDepth, if_neg hdepth] at hx
    exact (le_depthOfList (List.mem_of_getElem? hi)).trans ((le_max_right _ _).trans hx)

/-- Nothing lies deeper than what was measured. -/
theorem follow_depth (p : List Json.Step) : ∀ {depth : ℕ} {x y : Json},
    schemaDepth depth x ≤ schemaMaxDepth → x.follow p = some y →
      depth + p.length ≤ schemaMaxDepth := by
  induction p with
  | nil =>
    intro depth x y hx _
    exact (le_schemaDepth depth x).trans hx
  | cons s p ih =>
    intro depth x y hx h
    rw [Json.follow_cons, Option.bind_eq_some_iff] at h
    obtain ⟨z, hz, hy⟩ := h
    have := ih (schemaDepth_child hx hz) hy
    rw [List.length_cons]
    omega

theorem ref_of_item {kvs : List (String × Json)} {k : String} {v : Json} (h : (k, v) ∈ kvs)
    (hnone : refInItems kvs = false) : schemaHasRef v = false := by
  induction kvs with
  | nil => exact absurd h List.not_mem_nil
  | cons kv kvs ih =>
    obtain ⟨k', v'⟩ := kv
    rw [refInItems, Bool.or_eq_false_iff] at hnone
    rcases List.mem_cons.mp h with he | h
    · obtain ⟨rfl, rfl⟩ := Prod.mk.inj he
      exact hnone.1
    · exact ih h hnone.2

theorem ref_of_element {xs : List Json} {x : Json} (h : x ∈ xs) (hnone : refInList xs = false) :
    schemaHasRef x = false := by
  induction xs with
  | nil => exact absurd h List.not_mem_nil
  | cons y xs ih =>
    rw [refInList, Bool.or_eq_false_iff] at hnone
    rcases List.mem_cons.mp h with rfl | h
    · exact hnone.1
    · exact ih h hnone.2

theorem ref_child {x y : Json} {s : Json.Step} (hx : schemaHasRef x = false)
    (h : x.child s = some y) : schemaHasRef y = false := by
  rcases Json.child_mem h with ⟨kvs, k, rfl, -, hmem⟩ | ⟨xs, i, rfl, -, hi⟩
  · rw [schemaHasRef, Bool.or_eq_false_iff] at hx
    exact ref_of_item hmem hx.2
  · exact ref_of_element (List.mem_of_getElem? hi) hx

theorem ref_follow (p : List Json.Step) : ∀ {x y : Json},
    schemaHasRef x = false → x.follow p = some y → schemaHasRef y = false := by
  induction p with
  | nil =>
    intro x y hx h
    exact Option.some.inj h ▸ hx
  | cons s p ih =>
    intro x y hx h
    rw [Json.follow_cons, Option.bind_eq_some_iff] at h
    obtain ⟨z, hz, hy⟩ := h
    exact ih (ref_child hx hz) hy

theorem missing_of_item {kvs : List (String × Json)} {k : String} {v : Json} (h : (k, v) ∈ kvs)
    (hnone : missingInItems kvs = false) : schemaMissingGuard v = false := by
  induction kvs with
  | nil => exact absurd h List.not_mem_nil
  | cons kv kvs ih =>
    obtain ⟨k', v'⟩ := kv
    rw [missingInItems, Bool.or_eq_false_iff] at hnone
    rcases List.mem_cons.mp h with he | h
    · obtain ⟨rfl, rfl⟩ := Prod.mk.inj he
      exact hnone.1
    · exact ih h hnone.2

theorem missing_of_element {xs : List Json} {x : Json} (h : x ∈ xs)
    (hnone : missingInList xs = false) : schemaMissingGuard x = false := by
  induction xs with
  | nil => exact absurd h List.not_mem_nil
  | cons y xs ih =>
    rw [missingInList, Bool.or_eq_false_iff] at hnone
    rcases List.mem_cons.mp h with rfl | h
    · exact hnone.1
    · exact ih h hnone.2

/-! ## Properties that are declared -/

/-- At the end of the path a dictionary has `properties`, and the name is one of them. -/
def Declares (x : Json) (d : List Json.Step × String) : Prop :=
  ∃ kvs, x.follow d.1 = some (.obj kvs) ∧ d.2 ∈ propertyNames kvs

mutual

/-- All that is declared, as often as it is counted. -/
def declared : Json → List (List Json.Step × String)
  | .obj kvs => (propertyNames kvs).map (fun n => ([], n)) ++ declaredInItems kvs
  | .arr xs => declaredInList 0 xs
  | _ => []

def declaredInItems : List (String × Json) → List (List Json.Step × String)
  | [] => []
  | (k, v) :: kvs =>
    (declared v).map (fun d => (.key k :: d.1, d.2)) ++ declaredInItems kvs

def declaredInList (i : ℕ) : List Json → List (List Json.Step × String)
  | [] => []
  | x :: xs => (declared x).map (fun d => (.index i :: d.1, d.2)) ++ declaredInList (i + 1) xs

end

theorem length_declaredInItems {kvs : List (String × Json)}
    (h : ∀ kv ∈ kvs, (declared kv.2).length = schemaPropertyCount kv.2) :
    (declaredInItems kvs).length = countOfItems kvs := by
  induction kvs with
  | nil => rfl
  | cons kv kvs ih =>
    obtain ⟨k, v⟩ := kv
    rw [declaredInItems, countOfItems, List.length_append, List.length_map,
      h (k, v) List.mem_cons_self, ih fun kv hkv => h kv (List.mem_cons_of_mem _ hkv)]

theorem length_declaredInList {xs : List Json}
    (h : ∀ x ∈ xs, (declared x).length = schemaPropertyCount x) :
    ∀ i, (declaredInList i xs).length = countOfList xs := by
  induction xs with
  | nil =>
    intro i
    rfl
  | cons x xs ih =>
    intro i
    rw [declaredInList, countOfList, List.length_append, List.length_map,
      h x List.mem_cons_self, ih fun x hx => h x (List.mem_cons_of_mem _ hx)]

theorem length_declared (x : Json) : (declared x).length = schemaPropertyCount x := by
  induction x using Json.induction with
  | null | bool _ | int _ | float _ | str _ => rfl
  | arr xs ih => exact length_declaredInList ih 0
  | obj kvs ih =>
    rw [declared, schemaPropertyCount, List.length_append, List.length_map,
      length_declaredInItems ih]

theorem mem_declaredInItems {kvs : List (String × Json)} {k : String} {v : Json}
    (h : (k, v) ∈ kvs) {d : List Json.Step × String} (hd : d ∈ declared v) :
    (.key k :: d.1, d.2) ∈ declaredInItems kvs := by
  induction kvs with
  | nil => exact absurd h List.not_mem_nil
  | cons kv kvs ih =>
    obtain ⟨k', v'⟩ := kv
    rw [declaredInItems]
    rcases List.mem_cons.mp h with he | h
    · obtain ⟨rfl, rfl⟩ := Prod.mk.inj he
      exact List.mem_append_left _ (List.mem_map_of_mem (f := fun d => (_ :: d.1, d.2)) hd)
    · exact List.mem_append_right _ (ih h)

theorem mem_declaredInList {xs : List Json} {x : Json} {d : List Json.Step × String}
    (hd : d ∈ declared x) : ∀ {i j : ℕ}, xs[i]? = some x →
      (.index (j + i) :: d.1, d.2) ∈ declaredInList j xs := by
  induction xs with
  | nil =>
    intro i j h
    cases h
  | cons y xs ih =>
    intro i j h
    rw [declaredInList]
    cases i with
    | zero =>
      obtain rfl : y = x := Option.some.inj h
      exact List.mem_append_left _ (List.mem_map_of_mem (f := fun d => (_ :: d.1, d.2)) hd)
    | succ i =>
      have hmem := ih (i := i) (j := j + 1) h
      rw [Nat.add_right_comm, Nat.add_assoc] at hmem
      exact List.mem_append_right _ hmem

theorem mem_declared (p : List Json.Step) {n : String} : ∀ {x : Json},
    Declares x (p, n) → (p, n) ∈ declared x := by
  induction p with
  | nil =>
    rintro x ⟨kvs, hx, hn⟩
    obtain rfl : x = .obj kvs := Option.some.inj hx
    rw [declared]
    exact List.mem_append_left _ (List.mem_map_of_mem (f := fun n => ([], n)) hn)
  | cons s p ih =>
    rintro x ⟨kvs, hx, hn⟩
    rw [Json.follow_cons, Option.bind_eq_some_iff] at hx
    obtain ⟨y, hy, hp⟩ := hx
    have hmem := ih ⟨kvs, hp, hn⟩
    rcases Json.child_mem hy with ⟨items, k, rfl, rfl, hitem⟩ | ⟨xs, i, rfl, rfl, hi⟩
    · rw [declared]
      exact List.mem_append_right _ (mem_declaredInItems hitem hmem)
    · rw [declared]
      have hindex := mem_declaredInList (j := 0) hmem hi
      rw [Nat.zero_add] at hindex
      exact hindex

/-- No more is declared than is counted. -/
theorem length_le_count {x : Json} {ds : List (List Json.Step × String)} (hds : ds.Nodup)
    (h : ∀ d ∈ ds, Declares x d) : ds.length ≤ schemaPropertyCount x := by
  rw [← length_declared]
  exact (hds.subperm fun d hd => mem_declared d.1 (h d hd)).length_le

/-! ## Schemas inside of a schema -/

/-- The keywords whose value is a schema. -/
def schemaKeywords : List String :=
  ["additionalProperties", "propertyNames", "unevaluatedProperties", "items", "contains",
    "unevaluatedItems", "not", "if", "then", "else", "contentSchema"]

/-- The keywords whose value is a list of schemas. -/
def listKeywords : List String := ["allOf", "anyOf", "oneOf", "prefixItems"]

/-- The keywords whose value has schemas under names. -/
def namedKeywords : List String :=
  ["properties", "patternProperties", "$defs", "definitions", "dependentSchemas"]

/-- A schema inside of a schema, which is one of its own. -/
inductive Subschema (root : Json) : Json → Prop
  | root : Subschema root root
  | keyword {kvs : Dict} {k : String} {x : Json} : Subschema root (.obj kvs) →
      k ∈ schemaKeywords → (k, x) ∈ kvs → Subschema root x
  | listed {kvs : Dict} {k : String} {xs : List Json} {x : Json} : Subschema root (.obj kvs) →
      k ∈ listKeywords → (k, .arr xs) ∈ kvs → x ∈ xs → Subschema root x
  | named {kvs defs : Dict} {k name : String} {x : Json} : Subschema root (.obj kvs) →
      k ∈ namedKeywords → (k, .obj defs) ∈ kvs → (name, x) ∈ defs → Subschema root x

/-- The walker has been there. -/
theorem Subschema.guarded {root x : Json} (h : Subschema root x)
    (hroot : schemaMissingGuard root = false) : schemaMissingGuard x = false := by
  have item : ∀ {kvs : Dict} {k : String} {y : Json}, schemaMissingGuard (.obj kvs) = false →
      (k, y) ∈ kvs → schemaMissingGuard y = false := by
    intro kvs k y hkvs hmem
    rw [schemaMissingGuard, Bool.or_eq_false_iff] at hkvs
    exact missing_of_item hmem hkvs.2
  induction h with
  | root => exact hroot
  | keyword _ _ hmem ih => exact item ih hmem
  | listed _ _ hmem hx ih => exact missing_of_element hx (item ih hmem)
  | named _ _ hmem hx ih => exact item (item ih hmem) hx

/-- `type` names objects, alone or in a list. -/
def AdmitsObjects (kvs : Dict) : Prop :=
  kvs.get "type" = .str "object" ∨ ∃ types, kvs.get "type" = .arr types ∧ .str "object" ∈ types

/-- `additionalProperties` is false. -/
def Closed (kvs : Dict) : Prop := kvs.get "additionalProperties" = .bool false

/-- What the guard is for. -/
structure GuardHolds (schema : Json) : Prop where
  depth : ∀ p x, schema.follow p = some x → p.length ≤ schemaMaxDepth
  properties : ∀ ds : List (List Json.Step × String), ds.Nodup → (∀ d ∈ ds, Declares schema d) →
    ds.length ≤ schemaMaxProperties
  ref : ∀ p kvs, schema.follow p = some (.obj kvs) → Dict.has kvs "$ref" = false
  closed : ∀ kvs, Subschema schema (.obj kvs) → AdmitsObjects kvs → Closed kvs

/-- What the guard does not see: an `additionalProperties` that is there and permits, and
a `type` that is a list. -/
structure Unseen (kvs : Dict) : Prop where
  opened : ¬ Closed kvs
  how : (kvs.get "type" = .str "object" ∧ kvs.has "additionalProperties" = true) ∨
    ∃ types, kvs.get "type" = .arr types ∧ .str "object" ∈ types

/-- An accepted schema is as the guard wants it exactly if there is nothing unseen in it. -/
theorem schema_guard_iff (L : SchemaLib) (rf : Dict) (h : validateJsonSchema L rf = none) :
    ∃ schema, schemaOf rf = some schema ∧
      (GuardHolds (.obj schema) ↔
        ∀ kvs, Subschema (.obj schema) (.obj kvs) → ¬ Unseen kvs) := by
  obtain ⟨schema, hschema, hdepth, hcount, href, hguard⟩ := validate_none h
  refine ⟨schema, hschema, fun hholds kvs hsub hunseen => ?_, fun hseen => ⟨?_, ?_, ?_, ?_⟩⟩
  · refine hunseen.opened (hholds.closed kvs hsub ?_)
    rcases hunseen.how with ⟨htype, -⟩ | hlist
    · exact .inl htype
    · exact .inr hlist
  · intro p x hp
    have := follow_depth p hdepth hp
    omega
  · intro ds hnodup hds
    exact (length_le_count hnodup hds).trans hcount
  · intro p kvs hp
    have hkvs := ref_follow p href hp
    rw [schemaHasRef, Bool.or_eq_false_iff] at hkvs
    exact hkvs.1
  · intro kvs hsub hadmits
    by_contra hopen
    rcases hadmits with htype | hlist
    · refine hseen kvs hsub ⟨hopen, .inl ⟨htype, ?_⟩⟩
      have hkvs := hsub.guarded hguard
      rw [schemaMissingGuard, Bool.or_eq_false_iff, htype] at hkvs
      simpa [isObjectType] using hkvs.1
    · exact hseen kvs hsub ⟨hopen, .inr hlist⟩

/-- A `response_format` with a schema, and a library that compiles all. -/
def formatOf (schema : Dict) : Dict :=
  [("type", .str "json_schema"), ("json_schema", .obj [("schema", .obj schema)])]

def lenient : SchemaLib := ⟨true, fun _ => none, .nans⟩

theorem schema_guard_iff_closed :
    ∃ schema, schemaOf (formatOf [("type", .str "object"), ("additionalProperties", .bool false)]) =
        some schema ∧
      (GuardHolds (.obj schema) ↔
        ∀ kvs, Subschema (.obj schema) (.obj kvs) → ¬ Unseen kvs) :=
  schema_guard_iff lenient
  (formatOf [("type", .str "object"), ("additionalProperties", .bool false)])
    (by decide +kernel)

/-- An object or null, and any property. -/
def nullable : Dict := [("type", .arr [.str "object", .str "null"])]

theorem nullable_object_passes :
    ¬ ∀ (L : SchemaLib) (rf schema : Dict), validateJsonSchema L rf = none →
      schemaOf rf = some schema → GuardHolds (.obj schema) := by
  intro h
  have hholds := h lenient (formatOf nullable) nullable (by decide +kernel) rfl
  have hclosed := hholds.closed nullable .root (.inr ⟨_, rfl, List.mem_cons_self⟩)
  cases hclosed

end Turbohaul.SchemaGuard
