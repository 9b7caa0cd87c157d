/-
# JSON values as Python holds them

What `json.loads` gives, with integers and floats apart as Python keeps them,
and a dictionary as the list of its items in order.
-/
import Mathlib.Data.List.Basic

namespace Turbohaul

/-- A float, up to the sign of zero. -/
inductive PyFloat
  | nan
  | inf
  | negInf
  | finite (q : Rat)
deriving DecidableEq

inductive Json
  | null
  | bool (b : Bool)
  | int (n : Int)
  | float (x : PyFloat)
  | str (s : String)
  | arr (xs : List Json)
  | obj (kvs : List (String × Json))

/-- A dictionary. -/
abbrev Dict := List (String × Json)

/-- `type(x).__name__`. -/
def Json.typeName : Json → String
  | .null => "NoneType"
  | .bool _ => "bool"
  | .int _ => "int"
  | .float _ => "float"
  | .str _ => "str"
  | .arr _ => "list"
  | .obj _ => "dict"

/-- `bool(x)`. -/
def Json.truthy : Json → Bool
  | .null => false
  | .bool b => b
  | .int n => n ≠ 0
  | .float x => x ≠ .finite 0
  | .str s => s ≠ ""
  | .arr xs => !xs.isEmpty
  | .obj kvs => !kvs.isEmpty

/-- `x is not None`. -/
def Json.isSome : Json → Bool
  | .null => false
  | _ => true

theorem Json.eq_null_of_not_isSome {x : Json} (h : ¬ x.isSome = true) : x = .null := by
  cases x <;> first | rfl | exact absurd rfl h

/-- The integer a value is. -/
def Json.int? : Json → Option Int
  | .int n => some n
  | _ => none

/-- `d.get(k)`. -/
def Dict.get : Dict → String → Json
  | [], _ => .null
  | (k', v) :: d, k => if k' = k then v else Dict.get d k

/-- `k in d`. -/
def Dict.has (d : Dict) (k : String) : Bool := d.any (·.1 = k)

/-- `d[k] = v`. -/
def Dict.set : Dict → String → Json → Dict
  | [], k, v => [(k, v)]
  | (k', v') :: d, k, v => if k' = k then (k, v) :: d else (k', v') :: Dict.set d k v

/-- `{**d, **e}`; the first item of `e` with a key counts. -/
def Dict.update (d e : Dict) : Dict := e.foldr (fun kv d => d.set kv.1 kv.2) d

@[simp] theorem Dict.get_nil (k : String) : Dict.get [] k = .null := rfl

theorem Dict.get_cons (k' k : String) (v : Json) (d : Dict) :
    Dict.get ((k', v) :: d) k = if k' = k then v else d.get k := rfl

@[simp] theorem Dict.get_set_self (d : Dict) (k : String) (v : Json) : (d.set k v).get k = v := by
  induction d with
  | nil => simp [Dict.set, Dict.get]
  | cons kv d ih =>
    obtain ⟨k', v'⟩ := kv
    simp only [Dict.set]
    split
    · simp [Dict.get]
    · rename_i h
      simp [Dict.get, h, ih]

theorem Dict.get_set_ne {d : Dict} {k k' : String} {v : Json} (h : k' ≠ k) :
    (d.set k v).get k' = d.get k' := by
  induction d with
  | nil => simp [Dict.set, Dict.get, h.symm]
  | cons kv d ih =>
    obtain ⟨k₀, v₀⟩ := kv
    simp only [Dict.set]
    split
    · rename_i e
      subst e
      simp [Dict.get, h.symm]
    · simp only [Dict.get, ih]

/-- A key that is new goes to the end. -/
theorem Dict.set_new {d : Dict} {k : String} (h : k ∉ d.map (·.1)) (v : Json) :
    d.set k v = d ++ [(k, v)] := by
  induction d with
  | nil => rfl
  | cons kv d ih =>
    obtain ⟨k', v'⟩ := kv
    rw [List.map_cons, List.mem_cons, not_or] at h
    rw [Dict.set, if_neg (Ne.symm h.1), ih h.2, List.cons_append]

/-- A key that is there stays where it is. -/
theorem Dict.map_set_old {d : Dict} {k : String} (h : k ∈ d.map (·.1)) (v : Json) :
    (d.set k v).map (·.1) = d.map (·.1) := by
  induction d with
  | nil => exact absurd h List.not_mem_nil
  | cons kv d ih =>
    obtain ⟨k', v'⟩ := kv
    rw [Dict.set]
    split
    · rename_i hk
      rw [List.map_cons, List.map_cons, hk]
    · rename_i hk
      rw [List.map_cons, List.mem_cons] at h
      rw [List.map_cons, List.map_cons, ih (h.resolve_left (Ne.symm hk))]

theorem Dict.has_cons (k' k : String) (v : Json) (d : Dict) :
    Dict.has ((k', v) :: d) k = (decide (k' = k) || d.has k) := rfl

theorem Dict.get_of_not_has {d : Dict} {k : String} (h : d.has k = false) : d.get k = .null := by
  induction d with
  | nil => rfl
  | cons kv d ih =>
    obtain ⟨k', v⟩ := kv
    rw [Dict.has_cons, Bool.or_eq_false_iff, decide_eq_false_iff_not] at h
    rw [Dict.get_cons, if_neg h.1, ih h.2]

theorem Dict.has_set (d : Dict) (k k' : String) (v : Json) :
    (d.set k v).has k' = (d.has k' || decide (k = k')) := by
  induction d with
  | nil => simp [Dict.set, Dict.has]
  | cons kv d ih =>
    obtain ⟨k₀, v₀⟩ := kv
    simp only [Dict.set]
    split
    · rename_i h
      subst h
      simp only [Dict.has_cons]
      cases decide (k₀ = k') <;> simp
    · simp only [Dict.has_cons, ih, Bool.or_assoc]

/-- An updated dictionary has the items of the update, and keeps the others. -/
theorem Dict.get_update (d e : Dict) (k : String) :
    (d.update e).get k = if e.has k then e.get k else d.get k := by
  induction e with
  | nil => rfl
  | cons kv e ih =>
    obtain ⟨k', v⟩ := kv
    have hu : d.update ((k', v) :: e) = (d.update e).set k' v := rfl
    rw [hu, Dict.has_cons, Dict.get_cons]
    by_cases h : k' = k
    · subst h
      simp
    · rw [Dict.get_set_ne (Ne.symm h), ih]
      simp [h]

theorem Dict.has_update (d e : Dict) (k : String) :
    (d.update e).has k = (d.has k || e.has k) := by
  induction e with
  | nil => simp [Dict.update, Dict.has]
  | cons kv e ih =>
    obtain ⟨k', v⟩ := kv
    have hu : d.update ((k', v) :: e) = (d.update e).set k' v := rfl
    rw [hu, Dict.has_set, ih, Dict.has_cons]
    rw [Bool.or_assoc, Bool.or_comm (Dict.has e k)]

/-- A property of the keys. -/
theorem Dict.all_set (q : String → Bool) (d : Dict) (k : String) (v : Json) :
    (d.set k v).all (fun kv => q kv.1) = (d.all (fun kv => q kv.1) && q k) := by
  induction d with
  | nil => simp [Dict.set]
  | cons kv d ih =>
    obtain ⟨k', v'⟩ := kv
    simp only [Dict.set]
    split
    · rename_i h
      subst h
      simp only [List.all_cons]
      cases q k' <;> simp
    · simp only [List.all_cons, ih, Bool.and_assoc]

theorem Dict.all_update (q : String → Bool) (d e : Dict) :
    (d.update e).all (fun kv => q kv.1) =
      (d.all (fun kv => q kv.1) && e.all (fun kv => q kv.1)) := by
  induction e with
  | nil => simp [Dict.update]
  | cons kv e ih =>
    have hu : d.update (kv :: e) = (d.update e).set kv.1 kv.2 := rfl
    rw [hu, Dict.all_set, ih, List.all_cons, Bool.and_assoc, Bool.and_comm (q kv.1)]

/-- The items of a dictionary made of a list of keys. -/
theorem Dict.get_map {α : Type} {name : α → String} (fs : List α) (v : α → Json)
    (hn : (fs.map name).Nodup) {f : α} (hf : f ∈ fs) :
    Dict.get (fs.map fun f => (name f, v f)) (name f) = v f := by
  induction fs with
  | nil => exact absurd hf List.not_mem_nil
  | cons g fs ih =>
    rw [List.map_cons, List.nodup_cons] at hn
    rw [List.map_cons, Dict.get_cons]
    rcases List.mem_cons.mp hf with rfl | hf
    · simp
    · have hne : name g ≠ name f := fun h => hn.1 (h ▸ List.mem_map_of_mem hf)
      rw [if_neg hne, ih hn.2 hf]

theorem Dict.has_map {α : Type} {name : α → String} (fs : List α) (v : α → Json) (k : String) :
    Dict.has (fs.map fun f => (name f, v f)) k = decide (k ∈ fs.map name) := by
  induction fs with
  | nil => rfl
  | cons g fs ih =>
    rw [List.map_cons, Dict.has_cons, ih, List.map_cons]
    simp [eq_comm]

end Turbohaul
