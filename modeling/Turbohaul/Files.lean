/-
# `Files` — paths that link to file bodies

A file system as POSIX has it: a path links to a body, and a body that is open is
written whether or not a path still links to it.  So a file whose path is taken away
while it is written does not come back, and a rename gives the body another path.

  `create`   `open` with `O_CREAT` and `O_EXCL`
  `append`   a write to an open file
  `rename`   `os.replace`
  `unlink`   `os.unlink`, which here does nothing where there is no file
-/
import Mathlib.Data.List.AList

namespace Turbohaul

/-- The paths with their bodies, and the contents of those; the bodies from `next` on
are free. -/
structure Files (π β : Type) [DecidableEq π] where
  links : AList fun _ : π => ℕ
  data : ℕ → List β
  next : ℕ
  bound : ∀ p i, links.lookup p = some i → i < next

namespace Files

variable {π β : Type} [DecidableEq π]

/-- What a reader of `p` finds. -/
def read (fs : Files π β) (p : π) : Option (List β) := (fs.links.lookup p).map fs.data

/-- A new file, and its body; none where there is a file. -/
def create (fs : Files π β) (p : π) : Option (Files π β × ℕ) :=
  if p ∈ fs.links then none
  else some (⟨fs.links.insert p fs.next, fun i => if i = fs.next then [] else fs.data i,
    fs.next + 1, fun q i h => by
      by_cases hq : q = p
      · subst hq
        rw [AList.lookup_insert] at h
        exact Option.some.inj h ▸ Nat.lt_succ_self _
      · rw [AList.lookup_insert_ne hq] at h
        exact Nat.lt_succ_of_lt (fs.bound q i h)⟩, fs.next)

/-- Bytes at the end of a body. -/
def append (fs : Files π β) (fd : ℕ) (bytes : List β) : Files π β :=
  { fs with data := fun i => if i = fd then fs.data i ++ bytes else fs.data i }

/-- The file at `p` at `q` instead, whatever was there; none where there is none. -/
def rename (fs : Files π β) (p q : π) : Option (Files π β) :=
  match h : fs.links.lookup p with
  | none => none
  | some i => some { fs with
      links := (fs.links.erase p).insert q i
      bound := fun r j hr => by
        by_cases hq : r = q
        · subst hq
          rw [AList.lookup_insert] at hr
          exact Option.some.inj hr ▸ fs.bound p i h
        · rw [AList.lookup_insert_ne hq] at hr
          by_cases hp : r = p
          · subst hp
            rw [AList.lookup_erase] at hr
            cases hr
          · rw [AList.lookup_erase_ne hp] at hr
            exact fs.bound r j hr }

/-- No file at `p`. -/
def unlink (fs : Files π β) (p : π) : Files π β :=
  { fs with
    links := fs.links.erase p
    bound := fun q i h => by
      by_cases hp : q = p
      · subst hp
        rw [AList.lookup_erase] at h
        cases h
      · rw [AList.lookup_erase_ne hp] at h
        exact fs.bound q i h }

/-- The body that `p` links to. -/
def body (fs : Files π β) (p : π) : Option ℕ := fs.links.lookup p

theorem read_eq (fs : Files π β) (p : π) : fs.read p = (fs.body p).map fs.data := rfl

theorem read_eq_none {fs : Files π β} {p : π} : fs.read p = none ↔ fs.body p = none :=
  Option.map_eq_none_iff

section
variable {fs fs' : Files π β} {p q : π} {fd i : ℕ} {bytes : List β}

theorem create_spec (h : fs.create p = some (fs', fd)) :
    fs.body p = none ∧ fd = fs.next ∧ fs'.next = fs.next + 1 ∧ fs'.body p = some fd ∧
      fs'.data fd = [] ∧ (∀ q ≠ p, fs'.body q = fs.body q) ∧ ∀ i ≠ fd, fs'.data i = fs.data i := by
  rw [create] at h
  split at h
  · cases h
  · rename_i hp
    obtain ⟨rfl, rfl⟩ := Prod.mk.inj (Option.some.inj h)
    refine ⟨AList.lookup_eq_none.mpr hp, rfl, rfl, AList.lookup_insert _, if_pos rfl, ?_, ?_⟩
    · intro q hq
      exact AList.lookup_insert_ne hq
    · intro i hi
      exact if_neg hi

@[simp] theorem body_append (p : π) : (fs.append fd bytes).body p = fs.body p := rfl

@[simp] theorem data_append_self : (fs.append fd bytes).data fd = fs.data fd ++ bytes := if_pos rfl

theorem data_append_ne (h : i ≠ fd) : (fs.append fd bytes).data i = fs.data i := if_neg h

theorem rename_eq_none : fs.rename p q = none ↔ fs.body p = none := by
  rw [rename, body]
  split
  · rename_i h
    simp [h]
  · rename_i h
    simp [h]

theorem rename_spec (h : fs.rename p q = some fs') :
    fs'.data = fs.data ∧ fs'.next = fs.next ∧ fs'.body q = fs.body p ∧ fs.body p ≠ none ∧
      (p ≠ q → fs'.body p = none) ∧ ∀ r, r ≠ p → r ≠ q → fs'.body r = fs.body r := by
  rw [rename] at h
  split at h
  · cases h
  · rename_i i hi
    obtain rfl := Option.some.inj h
    refine ⟨rfl, rfl, ?_, ?_, ?_, ?_⟩
    · exact (AList.lookup_insert _).trans hi.symm
    · exact fun hn => absurd (hi.symm.trans hn) (by rintro ⟨⟩)
    · intro hpq
      exact (AList.lookup_insert_ne hpq).trans (AList.lookup_erase _ _)
    · intro r hp hq
      exact (AList.lookup_insert_ne hq).trans (AList.lookup_erase_ne hp)

@[simp] theorem data_unlink : (fs.unlink p).data = fs.data := rfl

@[simp] theorem body_unlink_self : (fs.unlink p).body p = none := AList.lookup_erase _ _

theorem body_unlink_ne (h : q ≠ p) : (fs.unlink p).body q = fs.body q := AList.lookup_erase_ne h

theorem read_create_ne (h : fs.create p = some (fs', fd)) (hq : q ≠ p) :
    fs'.read q = fs.read q := by
  obtain ⟨-, rfl, -, -, -, hbody, hdata⟩ := create_spec h
  rw [read_eq, read_eq, hbody q hq]
  refine Option.map_congr fun i hi => ?_
  exact hdata i (Nat.ne_of_lt (fs.bound q i hi))

theorem read_rename_ne {r : π} (h : fs.rename p q = some fs') (hp : r ≠ p) (hq : r ≠ q) :
    fs'.read r = fs.read r := by
  obtain ⟨hdata, -, -, -, -, hbody⟩ := rename_spec h
  rw [read_eq, read_eq, hbody r hp hq, hdata]

theorem read_unlink_ne (h : q ≠ p) : (fs.unlink p).read q = fs.read q := by
  rw [read_eq, read_eq, body_unlink_ne h, data_unlink]

theorem read_unlink_self : (fs.unlink p).read p = none :=
  read_eq_none.mpr body_unlink_self

/-- What an unlinking leaves. -/
theorem body_of_unlink (h : (fs.unlink p).body q = some i) : fs.body q = some i ∧ q ≠ p := by
  have hne : q ≠ p := by
    rintro rfl
    rw [body_unlink_self] at h
    cases h
  exact ⟨(body_unlink_ne hne).symm.trans h, hne⟩

end

end Files

end Turbohaul
