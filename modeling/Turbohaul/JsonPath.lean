/-
# Places in a JSON value

A place is reached from the root by steps: a key of an object, an index of an array.

  `Json.child`, `Json.follow`  what is one step away, what is at the end of a path
  `Json.shape`                 what a value is, whatever is inside of it
  `Json.induction`             a value by what its arrays and objects hold
-/
import Turbohaul.Json

namespace Turbohaul

inductive Json.Step
  | key (k : String)
  | index (i : ℕ)
deriving DecidableEq

/-- What is one step away; the first item of a repeated key counts. -/
def Json.child : Json → Json.Step → Option Json
  | .obj kvs, .key k => kvs.lookup k
  | .arr xs, .index i => xs[i]?
  | _, _ => none

/-- What is at the end of a path. -/
def Json.follow : Json → List Json.Step → Option Json
  | x, [] => some x
  | x, s :: p => (x.child s).bind fun y => y.follow p

inductive Json.Shape
  | leaf (x : Json)
  | list (n : ℕ)
  | dict

/-- A value up to what is inside of it: a list is its length. -/
def Json.shape : Json → Json.Shape
  | .arr xs => .list xs.length
  | .obj _ => .dict
  | x => .leaf x

@[simp] theorem Json.follow_nil (x : Json) : x.follow [] = some x := rfl

theorem Json.follow_cons (x : Json) (s : Json.Step) (p : List Json.Step) :
    x.follow (s :: p) = (x.child s).bind fun y => y.follow p := rfl

theorem Json.follow_append (x : Json) (p q : List Json.Step) :
    x.follow (p ++ q) = (x.follow p).bind fun y => y.follow q := by
  induction p generalizing x with
  | nil => rfl
  | cons s p ih =>
    rw [List.cons_append, Json.follow_cons, Json.follow_cons, Option.bind_assoc]
    exact congrArg (Option.bind _) (funext ih)

/-- A key of an object leads somewhere. -/
theorem Json.lookup_isSome {kvs : List (String × Json)} {k : String} (h : k ∈ kvs.map (·.1)) :
    (kvs.lookup k).isSome = true := by
  induction kvs with
  | nil => exact absurd h List.not_mem_nil
  | cons kv kvs ih =>
    rw [List.lookup_cons]
    split
    · rfl
    · rename_i hne
      rw [List.map_cons, List.mem_cons] at h
      exact ih (h.resolve_left (beq_eq_false_iff_ne.mp hne))

/-- What is one step away is held. -/
theorem Json.child_mem {x y : Json} {s : Json.Step} (h : x.child s = some y) :
    (∃ kvs k, x = .obj kvs ∧ s = .key k ∧ (k, y) ∈ kvs) ∨
      ∃ xs i, x = .arr xs ∧ s = .index i ∧ xs[i]? = some y := by
  unfold Json.child at h
  split at h
  · rename_i kvs k
    obtain ⟨before, after, rfl, -⟩ := List.lookup_eq_some_iff.mp h
    exact .inl ⟨_, k, rfl, rfl, List.mem_append_right _ List.mem_cons_self⟩
  · rename_i xs i
    exact .inr ⟨xs, i, rfl, rfl, h⟩
  · cases h

/-- A value by what its arrays and objects hold. -/
@[elab_as_elim]
theorem Json.induction {motive : Json → Prop} (null : motive .null) (bool : ∀ b, motive (.bool b))
    (int : ∀ n, motive (.int n)) (float : ∀ x, motive (.float x)) (str : ∀ s, motive (.str s))
    (arr : ∀ xs : List Json, (∀ x ∈ xs, motive x) → motive (.arr xs))
    (obj : ∀ kvs : List (String × Json), (∀ kv ∈ kvs, motive kv.2) → motive (.obj kvs)) :
    ∀ x, motive x
  | .null => null
  | .bool b => bool b
  | .int n => int n
  | .float x => float x
  | .str s => str s
  | .arr xs => arr xs fun x _ => Json.induction null bool int float str arr obj x
  | .obj kvs => obj kvs fun kv _ => Json.induction null bool int float str arr obj kv.2
termination_by x => sizeOf x
decreasing_by
  · rename_i h
    have := List.sizeOf_lt_of_mem h
    simp only [Json.arr.sizeOf_spec]
    omega
  · rename_i h
    have := List.sizeOf_lt_of_mem h
    obtain ⟨k, v⟩ := kv
    simp only [Prod.mk.sizeOf_spec, Json.obj.sizeOf_spec] at this ⊢
    omega

end Turbohaul
