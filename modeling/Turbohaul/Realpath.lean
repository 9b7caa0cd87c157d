/-
# `Realpath` — `os.path.realpath` of Python 3.11

`_joinrealpath`, not strict, and `abspath`.  Links are resolved one by one, with a
cache.  A link that is met while it is being resolved is a loop: what has been resolved
is returned then with the rest of the path as it stands, and `abspath` takes each `..`
of that rest back by name, whatever is in front of it.

  `Seen`                the cache
  `Tree.joinRealpath`   `_joinrealpath`, within a depth of recursion
  `normpath`, `Tree.realpath`
  `joinRealpath_of_real`, `realpath_of_leadsTo`
                        where no loop is met it is the real path
  `realpath_of_plain`   and of a plain path the path itself

Two slashes at the head of a link's target are one here.
-/
import Turbohaul.FileTree
import Mathlib.Logic.Function.Basic

namespace FileTree

/-- `seen`: a link that is being resolved, or is. -/
abbrev Seen := List String → Option (Option (List String))

/-- `join(path, rest)`; a rest that begins with a slash is a path of its own. -/
def joinRest (path : List String) : List String → List String
  | "" :: name :: rest => "" :: name :: rest
  | rest => path ++ rest

/-- The loop of `normpath`. -/
def normName (path : List String) (name : String) : List String :=
  if !goesOn name then path else if name = ".." then path.dropLast else path ++ [name]

/-- `abspath` of an absolute path. -/
def normpath (path : List String) : List String := path.foldl normName []

namespace Tree

variable {β : Type} (t : Tree β)

/-- The loop of `_joinrealpath`, where `onLink` resolves a link: the cache, the path and
whether it is resolved. -/
def joinRealpathWith (onLink : Seen → List String → String → Option (Seen × List String × Bool)) :
    Seen → List String → List String → Option (Seen × List String × Bool)
  | seen, path, [] => some (seen, path, true)
  | seen, path, name :: rest =>
    if !goesOn name then joinRealpathWith onLink seen path rest
    else if name = ".." then joinRealpathWith onLink seen path.dropLast rest
    else
      let newpath := path ++ [name]
      match find t newpath with
      | some (.link target) =>
        match seen newpath with
        | some (some path) => joinRealpathWith onLink seen path rest
        | some none => some (seen, joinRest newpath rest, false)
        | none =>
          match onLink (Function.update seen newpath (some none)) path target with
          | none => none
          | some (seen, path, ok) =>
            if !ok then some (seen, joinRest path rest, false)
            else joinRealpathWith onLink (Function.update seen newpath (some (some path))) path rest
      | _ => joinRealpathWith onLink seen newpath rest

/-- `_joinrealpath`; none where it recurses too deep. -/
def joinRealpath : ℕ → Seen → List String → List String → Option (Seen × List String × Bool)
  | 0, _, _, _ => none
  | depth + 1, seen, path, rest =>
    joinRealpathWith t (fun seen path target =>
      joinRealpath depth seen (if isAbs target then [] else path) (parts target)) seen path rest

/-- `realpath` of an absolute path. -/
def realpath (depth : ℕ) (path : List String) : Option (List String) :=
  (t.joinRealpath depth (fun _ => none) [] path).map fun r => normpath r.2.1

/-- The real path of a link's target. -/
def targetReal (depth : ℕ) (link : List String) (target : String) : Option (List String) :=
  t.real depth (if isAbs target then [] else link.dropLast) (names target)

end Tree

variable {β : Type} {t : Tree β}

/-! ## `abspath` -/

/-- A name that `abspath` keeps. -/
def Kept (name : String) : Prop := goesOn name = true ∧ name ≠ ".."

theorem foldl_kept (rest : List String) : ∀ {path : List String}, (∀ name ∈ rest, Kept name) →
    rest.foldl normName path = path ++ rest := by
  induction rest with
  | nil =>
    intro path _
    rw [List.foldl_nil, List.append_nil]
  | cons name rest ih =>
    intro path h
    obtain ⟨hgoes, hup⟩ := h name List.mem_cons_self
    have hstep : normName path name = path ++ [name] := by
      rw [normName, hgoes, Bool.not_true, if_neg Bool.false_ne_true, if_neg hup]
    rw [List.foldl_cons, hstep, ih fun name hname => h name (List.mem_cons_of_mem _ hname),
      List.append_assoc]
    rfl

theorem normpath_kept {path : List String} (h : ∀ name ∈ path, Kept name) : normpath path = path :=
  foldl_kept path h

/-- No name of a normal path goes up. -/
theorem normpath_up (path : List String) : ".." ∉ normpath path := by
  have hall : ∀ (rest : List String) {path : List String}, ".." ∉ path →
      ".." ∉ rest.foldl normName path := by
    intro rest
    induction rest with
    | nil => exact fun h => h
    | cons name rest ih =>
      intro path h
      refine ih ?_
      unfold normName
      split
      · exact h
      · split
        · exact fun hmem => h (List.dropLast_subset _ hmem)
        · rename_i hup
          intro hmem
          rcases List.mem_append.mp hmem with hmem | hmem
          · exact h hmem
          · exact hup (List.mem_singleton.mp hmem).symm
  exact hall path List.not_mem_nil

theorem goesOn_names {path : String} : ∀ name ∈ names path, goesOn name = true :=
  fun _ hname => (List.mem_filter.mp hname).2

theorem realWith_kept {onLink : List String → String → Option (List String)}
    (honLink : ∀ path target real, (∀ name ∈ path, Kept name) → onLink path target = some real →
      ∀ name ∈ real, Kept name)
    (rest : List String) : ∀ {path real : List String}, (∀ name ∈ path, Kept name) →
      (∀ name ∈ rest, goesOn name = true) → t.realWith onLink path rest = some real →
      ∀ name ∈ real, Kept name := by
  induction rest with
  | nil =>
    intro path real H _ h
    exact Option.some.inj h ▸ H
  | cons name rest ih =>
    intro path real H hrest h
    have hrest' : ∀ name ∈ rest, goesOn name = true :=
      fun name hname => hrest name (List.mem_cons_of_mem _ hname)
    by_cases hname : name = ".."
    · subst hname
      rw [realWith_up] at h
      exact ih (fun name hname => H name (List.dropLast_subset _ hname)) hrest' h
    by_cases hlink : ∃ target, t.find (path ++ [name]) = some (.link target)
    · obtain ⟨target, hlink⟩ := hlink
      rw [realWith_link hname hlink] at h
      obtain ⟨path', hpath', h⟩ := Option.bind_eq_some_iff.mp h
      exact ih (honLink _ _ _ H hpath') hrest' h
    · rw [not_exists] at hlink
      rw [realWith_on hname hlink] at h
      refine ih (fun name' hname' => ?_) hrest' h
      rcases List.mem_append.mp hname' with hname' | hname'
      · exact H name' hname'
      · rw [List.mem_singleton.mp hname']
        exact ⟨hrest name List.mem_cons_self, hname⟩

/-- A real path is normal. -/
theorem real_kept (depth : ℕ) : ∀ {path rest real : List String}, (∀ name ∈ path, Kept name) →
    (∀ name ∈ rest, goesOn name = true) → t.real depth path rest = some real →
    ∀ name ∈ real, Kept name := by
  induction depth with
  | zero =>
    intro path rest real _ _ h
    cases h
  | succ depth ih =>
    intro path rest real H hrest h
    refine realWith_kept (fun path target real H h => ?_) rest H hrest h
    split at h
    · exact ih (fun _ hname => absurd hname List.not_mem_nil) goesOn_names h
    · exact ih H goesOn_names h

/-! ## Where no loop is met -/

/-- What the cache holds are real paths. -/
def Known (t : Tree β) (seen : Seen) : Prop :=
  ∀ link real, seen link = some (some real) →
    ∃ target depth, t.find link = some (.link target) ∧ t.targetReal depth link target = some real

/-- The links that are being resolved go deeper than this. -/
def Deeper (t : Tree β) (depth : ℕ) (seen : Seen) : Prop :=
  ∀ link target, seen link = some none → t.find link = some (.link target) →
    t.targetReal depth link target = none

theorem known_start : Known t fun _ => none := by
  intro _ _ h
  cases h

theorem deeper_start (depth : ℕ) : Deeper t depth fun _ => none := by
  intro _ _ h
  cases h

theorem Deeper.of_le {depth depth' : ℕ} {seen : Seen} (D : Deeper t depth seen)
    (hle : depth' ≤ depth) : Deeper t depth' seen := by
  intro link target hseen hlink
  cases h : t.targetReal depth' link target with
  | none => rfl
  | some real =>
    have hreal : t.targetReal depth link target = some real := real_mono hle h
    rw [D link target hseen hlink] at hreal
    cases hreal

theorem Deeper.of_pending {depth : ℕ} {seen seen' : Seen} (D : Deeper t depth seen)
    (h : ∀ link, seen' link = some none → seen link = some none) : Deeper t depth seen' :=
  fun link target hseen hlink => D link target (h link hseen) hlink

section Cache

variable {seen : Seen} {link : List String} {target : String} {real : List String} {depth : ℕ}

theorem Known.pend (K : Known t seen) : Known t (Function.update seen link (some none)) := by
  intro link' real hlinked
  by_cases heq : link' = link
  · rw [heq, Function.update_self] at hlinked
    cases hlinked
  · rw [Function.update_of_ne heq] at hlinked
    exact K link' real hlinked

theorem Known.resolved (K : Known t seen) (hlink : t.find link = some (.link target))
    (hreal : t.targetReal depth link target = some real) :
    Known t (Function.update seen link (some (some real))) := by
  intro link' real' hlinked
  by_cases heq : link' = link
  · subst heq
    rw [Function.update_self, Option.some.injEq, Option.some.injEq] at hlinked
    exact ⟨target, depth, hlink, hlinked ▸ hreal⟩
  · rw [Function.update_of_ne heq] at hlinked
    exact K link' real' hlinked

/-- A link is being resolved whose target is within less depth than itself. -/
theorem Deeper.pend (D : Deeper t depth seen) {least : ℕ} (hle : least ≤ depth)
    (hlink : t.find link = some (.link target))
    (hnone : t.targetReal least link target = none) :
    Deeper t least (Function.update seen link (some none)) := by
  intro link' target' hpending hlinked
  by_cases heq : link' = link
  · subst heq
    rw [hlink] at hlinked
    exact Node.link.inj (Option.some.inj hlinked) ▸ hnone
  · rw [Function.update_of_ne heq] at hpending
    exact (D.of_le hle) link' target' hpending hlinked

/-- When it is, no other is being resolved than before. -/
theorem pending_resolved {seen' : Seen} {link' : List String}
    (hpending : ∀ link', seen' link' = some none →
      Function.update seen link (some none) link' = some none)
    (h : Function.update seen' link (some (some real)) link' = some none) :
    seen link' = some none := by
  by_cases heq : link' = link
  · rw [heq, Function.update_self] at h
    cases h
  · rw [Function.update_of_ne heq] at h
    have hold := hpending link' h
    rwa [Function.update_of_ne heq] at hold

end Cache

/-- The depth at which a real path is first found. -/
theorem exists_least {path rest real : List String} : ∀ {depth : ℕ},
    t.real depth path rest = some real →
    ∃ least, least < depth ∧ t.real least path rest = none ∧
      t.real (least + 1) path rest = some real := by
  intro depth
  induction depth with
  | zero =>
    intro h
    cases h
  | succ depth ih =>
    intro h
    cases hless : t.real depth path rest with
    | none => exact ⟨depth, Nat.lt_succ_self depth, hless, h⟩
    | some real' =>
      obtain rfl := real_unique hless h
      obtain ⟨least, hlt, hnone, hsome⟩ := ih hless
      exact ⟨least, Nat.lt_succ_of_lt hlt, hnone, hsome⟩

/-- Where there is a real path no loop is met, and it is what is returned: a link that is
met while it is being resolved would have to be resolved before itself. -/
theorem joinRealpath_of_real (recursion : ℕ) : ∀ {depth : ℕ} {seen : Seen}
    {path rest real : List String} {r : Seen × List String × Bool}, Known t seen →
    Deeper t depth seen → t.real (depth + 1) path (rest.filter goesOn) = some real →
    t.joinRealpath recursion seen path rest = some r →
    r.2 = (real, true) ∧ Known t r.1 ∧ ∀ link, r.1 link = some none → seen link = some none := by
  induction recursion with
  | zero =>
    intro depth seen path rest real r _ _ _ h
    cases h
  | succ recursion ihr =>
    intro depth seen path rest
    induction rest generalizing seen path with
    | nil =>
      intro real r K _ hreal h
      have hpath : path = real := Option.some.inj hreal
      rw [← Option.some.inj h, hpath]
      exact ⟨rfl, K, fun _ hlink => hlink⟩
    | cons name rest ih =>
      intro real r K D hreal h
      rw [Tree.joinRealpath, Tree.joinRealpathWith] at h
      by_cases hgoes : goesOn name = true
      swap
      · rw [(Bool.not_eq_true _).mp hgoes, Bool.not_false, if_pos rfl] at h
        rw [List.filter_cons_of_neg hgoes] at hreal
        exact ih K D hreal h
      rw [hgoes, Bool.not_true, if_neg Bool.false_ne_true] at h
      rw [List.filter_cons_of_pos hgoes, Tree.real] at hreal
      by_cases hname : name = ".."
      · subst hname
        rw [if_pos rfl] at h
        rw [realWith_up] at hreal
        exact ih K D hreal h
      rw [if_neg hname] at h
      dsimp only at h
      by_cases hlink : ∃ target, t.find (path ++ [name]) = some (.link target)
      swap
      · rw [not_exists] at hlink
        rw [realWith_on hname hlink] at hreal
        split at h
        · rename_i target hfind
          exact absurd hfind (hlink target)
        · exact ih K D hreal h
      obtain ⟨target, hlink⟩ := hlink
      rw [realWith_link hname hlink] at hreal
      obtain ⟨path', htarget, hrest⟩ := Option.bind_eq_some_iff.mp hreal
      have htarget' : t.targetReal depth (path ++ [name]) target = some path' := by
        rw [Tree.targetReal, List.dropLast_concat]
        exact htarget
      rw [hlink] at h
      dsimp only at h
      cases hseen : seen (path ++ [name]) with
      | some cached =>
        rw [hseen] at h
        cases cached with
        | none =>
          rw [D _ target hseen hlink] at htarget'
          cases htarget'
        | some cached =>
          obtain ⟨target', depth', hlink', hcached⟩ := K _ _ hseen
          obtain rfl : target = target' := by
            rw [hlink] at hlink'
            exact Node.link.inj (Option.some.inj hlink')
          obtain rfl := real_unique hcached htarget'
          exact ih K D hrest h
      | none =>
        rw [hseen] at h
        dsimp only at h
        obtain ⟨least, hlt, hnone, hsome⟩ := exists_least htarget
        split at h
        · cases h
        rename_i seen' path'' ok hinner
        have hnone' : t.targetReal least (path ++ [name]) target = none := by
          rw [Tree.targetReal, List.dropLast_concat]
          exact hnone
        obtain ⟨hr, hK', hpending⟩ :=
          ihr K.pend (D.pend (Nat.le_of_lt hlt) hlink hnone') hsome hinner
        obtain ⟨rfl, rfl⟩ := Prod.mk.inj hr
        rw [Bool.not_true, if_neg Bool.false_ne_true] at h
        obtain ⟨hres, hknown, hleft⟩ := ih (hK'.resolved hlink htarget')
          (D.of_pending fun _ => pending_resolved hpending) hrest h
        exact ⟨hres, hknown, fun link hlinked => pending_resolved hpending (hleft link hlinked)⟩

/-- Where no loop of links is met `realpath` is the real path. -/
theorem realpath_of_leadsTo {recursion : ℕ} {path goal path' : List String}
    (hpath : ∀ name ∈ path, goesOn name = true) (h : t.LeadsTo path goal)
    (h' : t.realpath recursion path = some path') : path' = goal := by
  obtain ⟨r, hr, rfl⟩ := Option.map_eq_some_iff.mp h'
  obtain ⟨depth, h⟩ := h
  cases depth with
  | zero => cases h
  | succ depth =>
    have hfilter : path.filter goesOn = path := List.filter_eq_self.mpr hpath
    have hreal : t.real (depth + 1) [] (path.filter goesOn) = some goal := by rw [hfilter, h]
    obtain ⟨heq, -, -⟩ := joinRealpath_of_real recursion known_start (deeper_start depth) hreal hr
    rw [heq]
    exact normpath_kept (real_kept _ (fun _ hname => absurd hname List.not_mem_nil) hpath h)

/-- A plain path is left as it is. -/
theorem realpath_of_plain {recursion : ℕ} {path : List String} (hrecursion : 0 < recursion)
    (hpath : ∀ name ∈ path, goesOn name = true) (H : Plain t path) :
    t.realpath recursion path = some path := by
  have hall : ∀ (onLink : Seen → List String → String → Option (Seen × List String × Bool))
      (rest path : List String), (∀ name ∈ rest, goesOn name = true) → Plain t (path ++ rest) →
      t.joinRealpathWith onLink (fun _ => none) path rest =
        some (fun _ => none, path ++ rest, true) := by
    intro onLink rest
    induction rest with
    | nil =>
      intro path _ _
      rw [List.append_nil]
      rfl
    | cons name rest ih =>
      intro path hrest H
      have hname : name ≠ ".." := fun h => H.up (List.mem_append_right _ (h ▸ List.mem_cons_self))
      have hassoc : path ++ name :: rest = path ++ [name] ++ rest := by
        rw [List.append_assoc]
        rfl
      rw [hassoc] at H ⊢
      rw [Tree.joinRealpathWith, hrest name List.mem_cons_self, Bool.not_true,
        if_neg Bool.false_ne_true, if_neg hname]
      dsimp only
      split
      · rename_i target hlink
        exact absurd hlink (H.of_prefix.link _ (List.prefix_refl _) target)
      · exact ih _ (fun name hname => hrest name (List.mem_cons_of_mem _ hname)) H
  obtain ⟨n, rfl⟩ := Nat.exists_eq_succ_of_ne_zero (Nat.ne_of_gt hrecursion)
  have hkept : ∀ name ∈ path, Kept name :=
    fun name hname => ⟨hpath name hname, fun h => H.up (h ▸ hname)⟩
  rw [Tree.realpath, Tree.joinRealpath, hall _ path [] hpath H, Option.map_some, List.nil_append,
    normpath_kept hkept]

end FileTree
