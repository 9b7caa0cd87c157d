/-
# `FileTree` — paths, directories and symbolic links

A file system as a tree whose links are resolved by name.  Two readings of a path: the
real path, worked out link by link without asking whether what it passes exists, and
the walk of the system, which fails where something is missing or no directory, or
after too many links.  A path is plain if there is no link on it; every real path is,
and on a plain path the walk finds what the tree has there.

  `Tree.find`     what is at a plain path
  `Tree.real`     the real path, within a nesting of links
  `Tree.LeadsTo`  it has this real path; it has none if a loop of links is met
  `Tree.walk`     the walk, within a number of links
  `real_plain`    every real path is plain
  `walk_of_plain` on a plain path the walk comes to what is there
  `real_of_walk`  where the walk comes to something, it is at the real path
-/
import Mathlib.Tactic.Common

namespace FileTree

/-- What a path may lead to. -/
inductive Node (β : Type)
  | file (content : List β)
  | dir (entries : List (String × Node β))
  | link (target : String)
  | other

/-- The entries of `/`. -/
abbrev Tree (β : Type) := List (String × Node β)

variable {β : Type}

/-- Why a walk fails: `ENOENT` and `ENOTDIR`, or `ELOOP`. -/
inductive Errno
  | noent
  | loop
deriving DecidableEq

/-- The names of a path. -/
def parts (path : String) : List String := (path.toList.splitOn '/').map String.ofList

/-- Those that do not stay where they are. -/
def goesOn (name : String) : Bool := name ≠ "" ∧ name ≠ "."

/-- The names of a path, without those that stay where they are. -/
def names (path : String) : List String := (parts path).filter goesOn

def isAbs (path : String) : Bool := path.toList.head? = some '/'

def Node.child : Node β → String → Option (Node β)
  | .dir entries, name => entries.lookup name
  | _, _ => none

def Node.find (node : Node β) : List String → Option (Node β)
  | [] => some node
  | name :: rest => (node.child name).bind fun child => child.find rest

namespace Tree

variable (t : Tree β)

/-- What is at a path if no link is followed. -/
def find (path : List String) : Option (Node β) := (Node.dir t).find path

/-- The rest of a path from a real path on, where `onLink` resolves the links. -/
def realWith (onLink : List String → String → Option (List String)) :
    List String → List String → Option (List String)
  | path, [] => some path
  | path, name :: rest =>
    if name = ".." then realWith onLink path.dropLast rest
    else match find t (path ++ [name]) with
      | some (.link target) => (onLink path target).bind fun path => realWith onLink path rest
      | _ => realWith onLink (path ++ [name]) rest

/-- The real path, where links lead to links up to some depth. -/
def real : ℕ → List String → List String → Option (List String)
  | 0, _, _ => none
  | depth + 1, path, rest =>
    realWith t (fun path target => real depth (if isAbs target then [] else path) (names target))
      path rest

/-- The real path of a path, if no loop of links is met on it. -/
def LeadsTo (path goal : List String) : Prop := ∃ depth, real t depth [] path = some goal

/-- The walk from a directory on, where `onLink` goes on behind a link. -/
def walkWith (follow : Bool) (onLink : List String → List String → Except Errno (List String)) :
    List String → List String → Except Errno (List String)
  | path, [] => .ok path
  | path, name :: rest =>
    if name = ".." then walkWith follow onLink path.dropLast rest
    else match find t (path ++ [name]) with
      | none => .error .noent
      | some (.dir _) => walkWith follow onLink (path ++ [name]) rest
      | some (.link target) =>
        if rest = [] ∧ !follow then .ok (path ++ [name])
        else onLink (if isAbs target then [] else path) (names target ++ rest)
      | some _ => if rest = [] then .ok (path ++ [name]) else .error .noent

/-- The walk, over so many links at most; a link at the end is followed or not. -/
def walk (follow : Bool) : ℕ → List String → List String → Except Errno (List String)
  | 0 => walkWith t follow fun _ _ => .error .loop
  | links + 1 => walkWith t follow (walk follow links)

end Tree

theorem Node.find_append (node : Node β) (path rest : List String) :
    node.find (path ++ rest) = (node.find path).bind fun node => node.find rest := by
  induction path generalizing node with
  | nil => rfl
  | cons name path ih =>
    rw [List.cons_append, Node.find, Node.find]
    cases node.child name with
    | none => rfl
    | some child => exact ih child

/-- No link is on the path, and it does not go up. -/
structure Plain (t : Tree β) (path : List String) : Prop where
  link : ∀ before, before <+: path → ∀ target, t.find before ≠ some (.link target)
  up : ".." ∉ path

namespace Plain

variable {t : Tree β} {path rest : List String} {name : String}

theorem nil : Plain t [] where
  link before hbefore target := by
    rw [List.prefix_nil.mp hbefore]
    intro h
    cases h
  up := List.not_mem_nil

theorem of_prefix (H : Plain t (path ++ rest)) : Plain t path where
  link before hbefore := H.link before (hbefore.trans (List.prefix_append _ _))
  up h := H.up (List.mem_append_left _ h)

theorem dropLast (H : Plain t path) : Plain t path.dropLast where
  link before hbefore := H.link before (hbefore.trans (List.dropLast_prefix _))
  up h := H.up (List.dropLast_subset _ h)

theorem snoc (H : Plain t path) (hname : name ≠ "..")
    (hlink : ∀ target, t.find (path ++ [name]) ≠ some (.link target)) :
    Plain t (path ++ [name]) where
  link before hbefore := by
    rw [List.prefix_concat_iff] at hbefore
    rcases hbefore with rfl | hbefore
    · exact hlink
    · exact H.link before hbefore
  up h := by
    rw [List.mem_append, List.mem_singleton] at h
    exact h.elim H.up fun h => hname h.symm

end Plain

section

variable {t : Tree β}

/-! ## One name -/

section

variable {onLink : List String → String → Option (List String)} {path rest : List String}
  {name target : String}

theorem realWith_up : t.realWith onLink path (".." :: rest) =
    t.realWith onLink path.dropLast rest := by
  rw [Tree.realWith, if_pos rfl]

theorem realWith_link (hname : name ≠ "..")
    (hlink : t.find (path ++ [name]) = some (.link target)) :
    t.realWith onLink path (name :: rest) =
      (onLink path target).bind fun path => t.realWith onLink path rest := by
  rw [Tree.realWith, if_neg hname, hlink]

theorem realWith_on (hname : name ≠ "..")
    (hlink : ∀ target, t.find (path ++ [name]) ≠ some (.link target)) :
    t.realWith onLink path (name :: rest) = t.realWith onLink (path ++ [name]) rest := by
  rw [Tree.realWith, if_neg hname]
  split
  · rename_i target h
    exact absurd h (hlink target)
  · rfl

end

/-! ## Plain paths -/

theorem realWith_plain {onLink : List String → String → Option (List String)}
    (honLink : ∀ path target real, Plain t path → onLink path target = some real → Plain t real)
    (rest : List String) : ∀ {path real : List String}, Plain t path →
      t.realWith onLink path rest = some real → Plain t real := by
  induction rest with
  | nil =>
    intro path real H h
    exact Option.some.inj h ▸ H
  | cons name rest ih =>
    intro path real H h
    by_cases hname : name = ".."
    · subst hname
      rw [realWith_up] at h
      exact ih H.dropLast h
    by_cases hlink : ∃ target, t.find (path ++ [name]) = some (.link target)
    · obtain ⟨target, hlink⟩ := hlink
      rw [realWith_link hname hlink] at h
      obtain ⟨path', hpath', h⟩ := Option.bind_eq_some_iff.mp h
      exact ih (honLink _ _ _ H hpath') h
    · rw [not_exists] at hlink
      rw [realWith_on hname hlink] at h
      exact ih (H.snoc hname hlink) h

/-- A real path is plain. -/
theorem real_plain (depth : ℕ) : ∀ {path rest real : List String}, Plain t path →
    t.real depth path rest = some real → Plain t real := by
  induction depth with
  | zero =>
    intro path rest real _ h
    cases h
  | succ depth ih =>
    intro path rest real H h
    refine realWith_plain (fun path target real H h => ?_) rest H h
    split at h
    · exact ih Plain.nil h
    · exact ih H h

/-- Where no link is followed, the walk comes to what is there, or nothing is. -/
theorem walkWith_find (follow : Bool)
    (onLink : List String → List String → Except Errno (List String))
    (rest : List String) : ∀ {path : List String} {entries : List (String × Node β)},
      t.find path = some (.dir entries) → ".." ∉ rest →
      (∀ before, before <+: path ++ rest → (before = path ++ rest → follow = true) →
        ∀ target, t.find before ≠ some (.link target)) →
      (t.walkWith follow onLink path rest = .ok (path ++ rest)) ∨
        (t.walkWith follow onLink path rest = .error .noent ∧ t.find (path ++ rest) = none) := by
  induction rest with
  | nil =>
    intro path entries _ _ _
    rw [List.append_nil]
    exact .inl rfl
  | cons name rest ih =>
    intro path entries hdir hup hlinks
    have hname : name ≠ ".." := fun h => hup (h ▸ List.mem_cons_self)
    have hassoc : path ++ name :: rest = path ++ [name] ++ rest := by
      rw [List.append_assoc]
      rfl
    have hfind : t.find (path ++ name :: rest) =
        (t.find (path ++ [name])).bind fun node => node.find rest := by
      rw [hassoc]
      exact Node.find_append _ _ _
    rw [Tree.walkWith, if_neg hname]
    rw [hassoc] at hlinks
    split
    · rename_i hnone
      exact .inr ⟨rfl, by rw [hfind, hnone, Option.bind_none]⟩
    · rename_i hdir'
      rw [hassoc]
      exact ih hdir' (fun h => hup (List.mem_cons_of_mem _ h)) hlinks
    · rename_i target hlink
      have hlast : path ++ [name] = path ++ [name] ++ rest ∧ follow ≠ true := by
        by_contra h
        rw [not_and_not_right] at h
        exact hlinks _ (List.prefix_append _ _) h target hlink
      have hrest : rest = [] := List.self_eq_append_right.mp hlast.1
      subst hrest
      have hfollow : follow = false := (Bool.not_eq_true _).mp hlast.2
      rw [if_pos ⟨rfl, by rw [hfollow]; rfl⟩]
      exact .inl rfl
    · rename_i node hdir' hlink' hnode
      split
      · rename_i hrest
        subst hrest
        exact .inl rfl
      · rename_i hrest
        obtain ⟨name', rest', rfl⟩ := List.exists_cons_of_ne_nil hrest
        have hchild : node.child name' = none := by
          cases node with
          | dir entries => exact absurd rfl (hdir' entries)
          | file content => rfl
          | link target => rfl
          | other => rfl
        refine .inr ⟨rfl, ?_⟩
        rw [hfind, hnode, Option.bind_some, Node.find, hchild, Option.bind_none]

theorem walk_eq (follow : Bool) (links : ℕ) :
    ∃ onLink, t.walk follow links = t.walkWith follow onLink := by
  cases links with
  | zero => exact ⟨_, rfl⟩
  | succ links => exact ⟨_, rfl⟩

/-- On a plain path the walk comes to what is there. -/
theorem walk_plain (follow : Bool) (links : ℕ) {path : List String} (H : Plain t path) :
    t.walk follow links [] path = .ok path ∨
      (t.walk follow links [] path = .error .noent ∧ t.find path = none) := by
  obtain ⟨onLink, hwalk⟩ := walk_eq (t := t) follow links
  rw [hwalk]
  exact walkWith_find follow onLink path rfl H.up fun before hbefore _ => H.link before hbefore

theorem walk_of_plain (follow : Bool) (links : ℕ) {path : List String} (H : Plain t path) :
    (t.walk follow links [] path).toOption.bind t.find = t.find path := by
  rcases walk_plain follow links H with hwalk | ⟨hwalk, hnone⟩
  · rw [hwalk]
    rfl
  · rw [hwalk, hnone]
    rfl

/-- And one name further, where a link at the end is not followed. -/
theorem walk_of_plain_snoc (links : ℕ) {path : List String} {name : String} (H : Plain t path)
    (hname : name ≠ "..") :
    (t.walk false links [] (path ++ [name])).toOption.bind t.find = t.find (path ++ [name]) := by
  obtain ⟨onLink, hwalk⟩ := walk_eq (t := t) false links
  have hup : ".." ∉ path ++ [name] := by
    intro h
    rw [List.mem_append, List.mem_singleton] at h
    exact h.elim H.up fun h => hname h.symm
  have hlinks : ∀ before, before <+: [] ++ (path ++ [name]) →
      (before = [] ++ (path ++ [name]) → false = true) →
      ∀ target, t.find before ≠ some (.link target) := by
    intro before hbefore hlast
    rw [List.nil_append, List.prefix_concat_iff] at hbefore
    rcases hbefore with rfl | hbefore
    · cases hlast rfl
    · exact H.link before hbefore
  rw [hwalk]
  rcases walkWith_find false onLink (path ++ [name]) rfl hup hlinks with hok | ⟨herror, hnone⟩
  · rw [hok]
    rfl
  · rw [herror]
    exact hnone.symm

/-! ## Both readings -/

theorem realWith_append (onLink : List String → String → Option (List String))
    (front rest : List String) : ∀ path : List String,
      t.realWith onLink path (front ++ rest) =
        (t.realWith onLink path front).bind fun path => t.realWith onLink path rest := by
  induction front with
  | nil =>
    intro path
    rfl
  | cons name front ih =>
    intro path
    rw [List.cons_append]
    by_cases hname : name = ".."
    · subst hname
      rw [realWith_up, realWith_up]
      exact ih _
    by_cases hlink : ∃ target, t.find (path ++ [name]) = some (.link target)
    · obtain ⟨target, hlink⟩ := hlink
      rw [realWith_link hname hlink, realWith_link hname hlink]
      cases onLink path target with
      | none => rfl
      | some path' => exact ih path'
    · rw [not_exists] at hlink
      rw [realWith_on hname hlink, realWith_on hname hlink]
      exact ih _

theorem real_append (depth : ℕ) (path front rest : List String) :
    t.real depth path (front ++ rest) =
      (t.real depth path front).bind fun path => t.real depth path rest := by
  cases depth with
  | zero => rfl
  | succ depth => exact realWith_append _ front rest path

theorem realWith_mono {onLink onLink' : List String → String → Option (List String)}
    (hmore : ∀ path target real, onLink path target = some real → onLink' path target = some real)
    (rest : List String) : ∀ {path real : List String},
      t.realWith onLink path rest = some real → t.realWith onLink' path rest = some real := by
  induction rest with
  | nil => exact fun h => h
  | cons name rest ih =>
    intro path real h
    by_cases hname : name = ".."
    · subst hname
      rw [realWith_up] at h ⊢
      exact ih h
    by_cases hlink : ∃ target, t.find (path ++ [name]) = some (.link target)
    · obtain ⟨target, hlink⟩ := hlink
      rw [realWith_link hname hlink] at h ⊢
      obtain ⟨path', hpath', h⟩ := Option.bind_eq_some_iff.mp h
      exact Option.bind_eq_some_iff.mpr ⟨path', hmore _ _ _ hpath', ih h⟩
    · rw [not_exists] at hlink
      rw [realWith_on hname hlink] at h ⊢
      exact ih h

/-- A real path that is found is found with more depth. -/
theorem real_succ (depth : ℕ) : ∀ {path rest real : List String},
    t.real depth path rest = some real → t.real (depth + 1) path rest = some real := by
  induction depth with
  | zero =>
    intro path rest real h
    cases h
  | succ depth ih =>
    intro path rest real h
    exact realWith_mono (fun path target real h => ih h) rest h

theorem real_mono {depth depth' : ℕ} (hle : depth ≤ depth') {path rest real : List String}
    (h : t.real depth path rest = some real) : t.real depth' path rest = some real := by
  induction hle with
  | refl => exact h
  | step _ ih => exact real_succ _ ih

theorem realWith_of_walkWith {onLink : List String → List String → Except Errno (List String)}
    {resolve : List String → String → Option (List String)}
    (honLink : ∀ path target rest real,
      onLink (if isAbs target then [] else path) (names target ++ rest) = .ok real →
      (resolve path target).bind (fun path => t.realWith resolve path rest) = some real)
    (rest : List String) : ∀ {path real : List String},
      t.walkWith true onLink path rest = .ok real → t.realWith resolve path rest = some real := by
  induction rest with
  | nil =>
    intro path real h
    exact congrArg some (Except.ok.inj h)
  | cons name rest ih =>
    intro path real h
    rw [Tree.walkWith] at h
    split at h
    · rename_i hname
      subst hname
      rw [realWith_up]
      exact ih h
    rename_i hname
    split at h
    · cases h
    · rename_i hdir
      rw [realWith_on hname (by rw [hdir]; intro target h; cases h)]
      exact ih h
    · rename_i target hlink
      rw [Bool.not_true, if_neg (by intro h; cases h.2)] at h
      rw [realWith_link hname hlink]
      exact honLink _ _ _ _ h
    · rename_i node _ hlink hnode
      rw [realWith_on hname (by rw [hnode]; exact fun target h => hlink target (Option.some.inj h))]
      split at h
      · rename_i hrest
        subst hrest
        exact congrArg some (Except.ok.inj h)
      · cases h

/-- Where the walk comes to something, it is at the real path. -/
theorem real_of_walk (links : ℕ) : ∀ {path rest real : List String},
    t.walk true links path rest = .ok real → t.real (links + 1) path rest = some real := by
  induction links with
  | zero =>
    intro path rest real h
    exact realWith_of_walkWith (fun path target rest real h => by cases h) rest h
  | succ links ih =>
    intro path rest real h
    refine realWith_of_walkWith (fun path target rest real h => ?_) rest h
    have hreal := ih h
    rw [real_append] at hreal
    obtain ⟨path', hpath', hrest⟩ := Option.bind_eq_some_iff.mp hreal
    exact Option.bind_eq_some_iff.mpr ⟨path', hpath', real_succ _ hrest⟩

theorem leadsTo_plain {path goal : List String} (h : t.LeadsTo path goal) : Plain t goal := by
  obtain ⟨depth, h⟩ := h
  exact real_plain depth Plain.nil h

/-- There is one real path at most. -/
theorem real_unique {depth depth' : ℕ} {path rest real real' : List String}
    (h : t.real depth path rest = some real) (h' : t.real depth' path rest = some real') :
    real = real' := by
  have hmax := real_mono (Nat.le_max_left depth depth') h
  have hmax' := real_mono (Nat.le_max_right depth depth') h'
  exact Option.some.inj (hmax.symm.trans hmax')

end

end FileTree
