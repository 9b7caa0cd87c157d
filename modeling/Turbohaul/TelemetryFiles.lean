/-
# `TelemetryFiles` — the rotating files of the telemetry

`_JsonlWriter` of `telemetry.py`.  Before a line is written the open file is measured,
and a large one gives way to a new one, named by the second; the oldest names are then
deleted while there are more than `max_files`.

  `LogFile`, `JsonlWriter`       a file; the directory and the open path
  `openNew`, `prune`             `_open_new`, `_prune`
  `JsonlWriter.write`            `write`; none where `stat` raises
  `readLines`                    the lines `read_recent` goes through
  `openNew_spec`, `prune_eq`     what is opened, what is left
  `isOpen_rotate_iff`            when a rotation deletes the file it has just opened
  `Tidy`                         the invariant under a clock that does not step back
  `readLines_eq`                 what is read where the times are in the order of the names
  `jsonl_keeps_newest`, `rotated_page_eq`

The names sort as the seconds they are made of.  What an unlinked file still receives
is lost, so `write` to one changes nothing; deleting, writing and reading do not fail
here, and a directory holds no other file of that pattern.
-/
import Turbohaul.Telemetry
import Mathlib.Algebra.GroupWithZero.Nat
import Mathlib.Order.Defs.LinearOrder

namespace Turbohaul.Telemetry

variable {κ α : Type} [LinearOrder κ]

/-- A file: its name, which the clock gave, and its lines. -/
structure LogFile (κ α : Type) where
  name : κ
  lines : List α

/-- `st_size`, of lines of some sizes. -/
def LogFile.size (bytes : α → ℕ) (f : LogFile κ α) : ℕ := (f.lines.map bytes).sum

/-- `_JsonlWriter`: the directory as `sorted(glob(…))` lists it, and `_current_path`. -/
structure JsonlWriter (κ α : Type) where
  dir : List (LogFile κ α)
  currentPath : κ

/-- `_open_new` on the directory: a file of that name is opened for appending. -/
def openNew (now : κ) : List (LogFile κ α) → List (LogFile κ α)
  | [] => [⟨now, []⟩]
  | f :: dir =>
    if now = f.name then f :: dir
    else if now < f.name then ⟨now, []⟩ :: f :: dir
    else f :: openNew now dir

/-- `_prune`: the loop over the sorted names. -/
def prune (maxFiles : ℕ) : List (LogFile κ α) → List (LogFile κ α)
  | [] => []
  | f :: dir => if maxFiles < (f :: dir).length then prune maxFiles dir else f :: dir

/-- What the directory holds, oldest name first. -/
def linesOf (dir : List (LogFile κ α)) : List α := dir.flatMap LogFile.lines

namespace JsonlWriter

/-- `__init__` on a directory. -/
def new (dir : List (LogFile κ α)) (now : κ) : JsonlWriter κ α := ⟨openNew now dir, now⟩

/-- The file at `_current_path`. -/
def current? (w : JsonlWriter κ α) : Option (LogFile κ α) :=
  w.dir.find? fun f => f.name = w.currentPath

/-- `_rotate`. -/
def rotate (maxFiles : ℕ) (now : κ) (w : JsonlWriter κ α) : JsonlWriter κ α :=
  ⟨prune maxFiles (openNew now w.dir), now⟩

/-- A line goes into the open file. -/
def append (line : α) (w : JsonlWriter κ α) : JsonlWriter κ α :=
  { w with dir := w.dir.map fun f =>
      if f.name = w.currentPath then { f with lines := f.lines ++ [line] } else f }

/-- `write`; none where `stat` finds no file. -/
def write (bytes : α → ℕ) (maxBytes maxFiles : ℕ) (w : JsonlWriter κ α) (x : κ × α) :
    Option (JsonlWriter κ α) :=
  w.current?.map fun f =>
    (if maxBytes < f.size bytes then w.rotate maxFiles x.1 else w).append x.2

/-- Some writes, each at its second. -/
def writeAll (bytes : α → ℕ) (maxBytes maxFiles : ℕ) (w : JsonlWriter κ α) (xs : List (κ × α)) :
    Option (JsonlWriter κ α) :=
  xs.foldlM (write bytes maxBytes maxFiles) w

end JsonlWriter

/-! ## The directory -/

/-- The names ascend. -/
def Sorted (dir : List (LogFile κ α)) : Prop := dir.Pairwise fun f g => f.name < g.name

/-- A name has one file. -/
theorem Sorted.one_of_name {dir : List (LogFile κ α)} {f g : LogFile κ α} (hs : Sorted dir)
    (hf : f ∈ dir) (hg : g ∈ dir) (hname : f.name = g.name) : f = g := by
  induction dir with
  | nil => cases hf
  | cons e dir ih =>
    obtain ⟨he, hd⟩ := List.pairwise_cons.mp hs
    rcases List.mem_cons.mp hf with rfl | hf'
    · rcases List.mem_cons.mp hg with rfl | hg'
      · rfl
      · exact absurd hname (ne_of_lt (he g hg'))
    · rcases List.mem_cons.mp hg with rfl | hg'
      · exact absurd hname.symm (ne_of_lt (he f hf'))
      · exact ih hd hf' hg'

omit [LinearOrder κ] in
theorem prune_eq (maxFiles : ℕ) (dir : List (LogFile κ α)) :
    prune maxFiles dir = dir.drop (dir.length - maxFiles) := by
  induction dir with
  | nil => rw [prune, List.drop_nil]
  | cons f dir ih =>
    rw [prune]
    split
    · rename_i h
      rw [List.length_cons] at h
      have hlen : (f :: dir).length - maxFiles = dir.length - maxFiles + 1 := by
        rw [List.length_cons]
        omega
      rw [ih, hlen, List.drop_succ_cons]
    · rename_i h
      rw [Nat.sub_eq_zero_of_le (Nat.not_lt.mp h), List.drop_zero]

omit [LinearOrder κ] in
theorem linesOf_suffix {dir dir' : List (LogFile κ α)} (h : dir <:+ dir') :
    linesOf dir <:+ linesOf dir' := by
  obtain ⟨older, rfl⟩ := h
  rw [linesOf, linesOf, List.flatMap_append]
  exact List.suffix_append _ _

theorem filter_suffix (start : κ) {dir : List (LogFile κ α)} (h : Sorted dir) :
    (dir.filter fun f => start ≤ f.name) <:+ dir := by
  induction dir with
  | nil => exact List.suffix_refl _
  | cons f dir ih =>
    obtain ⟨hf, hd⟩ := List.pairwise_cons.mp h
    by_cases hstart : start ≤ f.name
    · rewrite [List.filter_eq_self.mpr]
      · exact List.suffix_refl _
      · intro g hg
        rcases List.mem_cons.mp hg with rfl | hg
        · exact decide_eq_true hstart
        · exact decide_eq_true (le_of_lt (lt_of_le_of_lt hstart (hf g hg)))
    · rw [List.filter_cons_of_neg (by simpa using hstart)]
      exact List.IsSuffix.trans (ih hd) (List.suffix_cons f dir)

theorem mem_openNew {now : κ} {dir : List (LogFile κ α)} {f : LogFile κ α}
    (h : f ∈ openNew now dir) : f ∈ dir ∨ f = ⟨now, []⟩ := by
  induction dir with
  | nil => exact .inr (List.mem_singleton.mp h)
  | cons g dir ih =>
    rw [openNew] at h
    split at h
    · exact .inl h
    · split at h
      · rcases List.mem_cons.mp h with rfl | h
        · exact .inr rfl
        · exact .inl h
      · rcases List.mem_cons.mp h with rfl | h
        · exact .inl List.mem_cons_self
        · exact (ih h).imp_left (List.mem_cons_of_mem g)

theorem linesOf_openNew (now : κ) (dir : List (LogFile κ α)) :
    linesOf (openNew now dir) = linesOf dir := by
  induction dir with
  | nil => rfl
  | cons f dir ih =>
    rw [openNew]
    split
    · rfl
    · split
      · rfl
      · show f.lines ++ linesOf (openNew now dir) = f.lines ++ linesOf dir
        rw [ih]

theorem sorted_openNew (now : κ) {dir : List (LogFile κ α)} (h : Sorted dir) :
    Sorted (openNew now dir) := by
  induction dir with
  | nil => exact List.pairwise_singleton _ _
  | cons f dir ih =>
    obtain ⟨hf, hd⟩ := List.pairwise_cons.mp h
    rw [openNew]
    split
    · exact h
    · rename_i hne
      split
      · rename_i hlt
        refine List.pairwise_cons.mpr ⟨fun g hg => ?_, h⟩
        rcases List.mem_cons.mp hg with rfl | hg
        · exact hlt
        · exact lt_trans hlt (hf g hg)
      · rename_i hle
        refine List.pairwise_cons.mpr ⟨fun g hg => ?_, ih hd⟩
        rcases mem_openNew hg with hg | rfl
        · exact hf g hg
        · exact lt_of_le_of_ne (not_lt.mp hle) (Ne.symm hne)

/-- What is opened stands after the older names and before the newer ones. -/
theorem openNew_spec (now : κ) {dir : List (LogFile κ α)} (h : Sorted dir) :
    ∃ older f newer, openNew now dir = older ++ f :: newer ∧ f.name = now ∧
      newer = dir.filter (fun g => now < g.name) ∧
      (older ++ f :: newer).length ≤ dir.length + 1 ∧
      dir.length ≤ (older ++ f :: newer).length := by
  induction dir with
  | nil => exact ⟨[], ⟨now, []⟩, [], rfl, rfl, rfl, Nat.le_refl _, Nat.zero_le _⟩
  | cons f dir ih =>
    obtain ⟨hf, hd⟩ := List.pairwise_cons.mp h
    have hall : ∀ g ∈ dir, now < f.name ∨ now = f.name → now < g.name := by
      intro g hg hle
      rcases hle with hlt | rfl
      · exact lt_trans hlt (hf g hg)
      · exact hf g hg
    rw [openNew]
    split
    · rename_i heq
      refine ⟨[], f, dir, rfl, heq.symm, ?_, Nat.le_succ _, Nat.le_refl _⟩
      rw [List.filter_cons_of_neg (by simp [heq]), List.filter_eq_self.mpr]
      intro g hg
      exact decide_eq_true (hall g hg (.inr heq))
    · split
      · rename_i hlt
        refine ⟨[], ⟨now, []⟩, f :: dir, rfl, rfl, ?_, Nat.le_refl _, Nat.le_succ _⟩
        rw [List.filter_cons_of_pos (by simpa using hlt), List.filter_eq_self.mpr]
        intro g hg
        exact decide_eq_true (hall g hg (.inl hlt))
      · rename_i hle
        obtain ⟨older, f', newer, heq, hname, hnewer, hlen, hlen'⟩ := ih hd
        refine ⟨f :: older, f', newer, by rw [heq, List.cons_append], hname, ?_, ?_, ?_⟩
        · rw [List.filter_cons_of_neg (by simpa using not_lt.mp hle)]
          exact hnewer
        · exact Nat.succ_le_succ hlen
        · exact Nat.succ_le_succ hlen'

/-! ## Losing the open file -/

namespace JsonlWriter

variable {bytes : α → ℕ} {maxBytes maxFiles : ℕ} {w w' : JsonlWriter κ α}

/-- The open file is in the directory still. -/
def IsOpen (w : JsonlWriter κ α) : Prop := ∃ f ∈ w.dir, f.name = w.currentPath

theorem isSome_current? : w.current?.isSome ↔ w.IsOpen := by
  rw [current?, List.find?_isSome]
  simp [IsOpen]

/-- A rotation keeps its own file exactly if fewer than `max_files` are newer. -/
theorem isOpen_rotate_iff (hs : Sorted w.dir) (now : κ) :
    (w.rotate maxFiles now).IsOpen ↔ (w.dir.filter fun g => now < g.name).length < maxFiles := by
  obtain ⟨older, f, newer, heq, hname, hnewer, -⟩ := openNew_spec now hs
  have hsorted := sorted_openNew now hs
  rw [heq] at hsorted
  have hdir : (w.rotate maxFiles now).dir =
      (older ++ f :: newer).drop ((older ++ f :: newer).length - maxFiles) := by
    rw [rotate, prune_eq, heq]
  have hlen : (older ++ f :: newer).length = older.length + (newer.length + 1) := by
    rw [List.length_append, List.length_cons]
  rw [← hnewer]
  constructor
  · rintro ⟨g, hg, hgname⟩
    rw [hdir] at hg
    by_contra hge
    -- then the newer ones alone fill the directory
    have hcut : (older ++ f :: newer).length - maxFiles =
        older.length + (1 + (newer.length - maxFiles)) := by omega
    rw [hcut, ← List.drop_drop, List.drop_left, ← List.drop_drop] at hg
    have hmem : g ∈ newer := List.mem_of_mem_drop hg
    have hlt := List.rel_of_pairwise_cons (List.pairwise_append.mp hsorted).2.1 hmem
    rw [hname, show g.name = now from hgname] at hlt
    exact lt_irrefl _ hlt
  · intro hlt
    refine ⟨f, ?_, hname⟩
    rw [hdir]
    have hcut : (older ++ f :: newer).length - maxFiles ≤ older.length := by omega
    rw [List.drop_append_of_le_length hcut]
    exact List.mem_append_right _ List.mem_cons_self

/-- Once it is gone no line is written any more. -/
theorem write_eq_none_iff {x : κ × α} :
    w.write bytes maxBytes maxFiles x = none ↔ ¬ w.IsOpen := by
  rw [write, Option.map_eq_none_iff, ← isSome_current?, Option.isSome_iff_ne_none, not_not]

/-! ## A clock that does not step back -/

/-- The invariant, of a process that began at `start` and has written `written`. -/
structure Tidy (bytes : α → ℕ) (maxBytes maxFiles : ℕ) (start : κ) (before written : List α)
    (w : JsonlWriter κ α) : Prop where
  sorted : Sorted w.dir
  last : ∃ older f, w.dir = older ++ [f] ∧ f.name = w.currentPath
  began : start ≤ w.currentPath
  suffix : linesOf w.dir <:+ before ++ written
  all_or : linesOf w.dir = before ++ written ∨ maxFiles ≤ w.dir.length
  own_or : (∀ f ∈ w.dir, start ≤ f.name) ∨
    written <:+ linesOf (w.dir.filter fun f => start ≤ f.name)
  full : ∀ f ∈ w.dir, start ≤ f.name → f.name ≠ w.currentPath → maxBytes < f.size bytes

variable {start now : κ} {before written : List α}

/-- A name that is not older than the newest stands last, or is the newest. -/
theorem openNew_newest {dir : List (LogFile κ α)} (hs : Sorted dir)
    (hle : ∀ f ∈ dir, f.name ≤ now) :
    (openNew now dir = dir ∧ ∃ older f, dir = older ++ [f] ∧ f.name = now) ∨
      (openNew now dir = dir ++ [⟨now, []⟩] ∧ ∀ f ∈ dir, f.name < now) := by
  induction dir with
  | nil => exact .inr ⟨rfl, by intro f h; cases h⟩
  | cons f dir ih =>
    obtain ⟨hf, hd⟩ := List.pairwise_cons.mp hs
    rw [openNew]
    split
    · rename_i heq
      have hnil : dir = [] := by
        cases dir with
        | nil => rfl
        | cons g dir =>
          have hlt := hf g List.mem_cons_self
          rw [← heq] at hlt
          exact absurd (hle g (List.mem_cons_of_mem f List.mem_cons_self)) (not_le.mpr hlt)
      exact .inl ⟨rfl, [], f, by rw [hnil, List.nil_append], heq.symm⟩
    · rename_i hne
      have hlt : f.name < now := lt_of_le_of_ne (hle f List.mem_cons_self) (Ne.symm hne)
      rw [if_neg (not_lt.mpr (le_of_lt hlt))]
      rcases ih hd fun g hg => hle g (List.mem_cons_of_mem f hg) with
        ⟨heq, older, g, hdir, hname⟩ | ⟨heq, hall⟩
      · exact .inl ⟨by rw [heq], f :: older, g, by rw [hdir, List.cons_append], hname⟩
      · refine .inr ⟨by rw [heq, List.cons_append], fun g hg => ?_⟩
        rcases List.mem_cons.mp hg with rfl | hg
        · exact hlt
        · exact hall g hg

/-- The newest of an ascending directory. -/
theorem le_newest {older : List (LogFile κ α)} {f g : LogFile κ α} (hs : Sorted (older ++ [f]))
    (hg : g ∈ older ++ [f]) : g.name ≤ f.name := by
  rcases List.mem_append.mp hg with hg | hg
  · exact le_of_lt ((List.pairwise_append.mp hs).2.2 g hg f List.mem_cons_self)
  · rw [List.mem_singleton.mp hg]

/-- A new file is opened beside the ones there are. -/
theorem Tidy.opened (h : w.Tidy bytes maxBytes maxFiles start before written)
    (hle : w.currentPath ≤ now)
    (hbig : ∀ f ∈ w.dir, f.name = w.currentPath → maxBytes < f.size bytes) :
    (JsonlWriter.mk (openNew now w.dir) now).Tidy bytes maxBytes maxFiles start before written := by
  obtain ⟨older, f, hdir, hname⟩ := h.last
  have hnew : ∀ g ∈ w.dir, g.name ≤ now := by
    intro g hg
    refine le_trans ?_ (hname ▸ hle)
    have hs := h.sorted
    rw [hdir] at hg hs
    exact le_newest hs hg
  have hfull : ∀ g ∈ w.dir, start ≤ g.name → maxBytes < g.size bytes := by
    intro g hg hstart
    by_cases hcur : g.name = w.currentPath
    · exact hbig g hg hcur
    · exact h.full g hg hstart hcur
  rcases openNew_newest h.sorted hnew with ⟨heq, hlast⟩ | ⟨heq, hall⟩
  · rw [heq]
    exact ⟨h.sorted, hlast, le_trans h.began hle, h.suffix, h.all_or, h.own_or,
      fun g hg hstart _ => hfull g hg hstart⟩
  · have hlines : linesOf (w.dir ++ [⟨now, []⟩]) = linesOf w.dir := heq ▸ linesOf_openNew now w.dir
    refine ⟨heq ▸ sorted_openNew now h.sorted, ⟨w.dir, ⟨now, []⟩, heq, rfl⟩,
      le_trans h.began hle, ?_, ?_, ?_, ?_⟩
    · show linesOf (openNew now w.dir) <:+ before ++ written
      rw [heq, hlines]
      exact h.suffix
    · show linesOf (openNew now w.dir) = before ++ written ∨ maxFiles ≤ (openNew now w.dir).length
      rw [heq, hlines, List.length_append]
      exact h.all_or.imp_right fun hlen => Nat.le_trans hlen (Nat.le_add_right _ _)
    · rcases h.own_or with hown | hown
      · refine .inl fun g hg => ?_
        rcases mem_openNew hg with hg | rfl
        · exact hown g hg
        · exact le_trans h.began hle
      · refine .inr ?_
        show written <:+ linesOf ((openNew now w.dir).filter fun f => start ≤ f.name)
        rw [heq, List.filter_append, linesOf, List.flatMap_append]
        have hnil : (([⟨now, []⟩] : List (LogFile κ α)).filter fun f => start ≤ f.name).flatMap
            LogFile.lines = [] := by
          rw [List.filter_cons]
          split
          · rfl
          · rfl
        rw [hnil, List.append_nil]
        exact hown
    · intro g hg hstart hcur
      rcases mem_openNew hg with hg | rfl
      · exact hfull g hg hstart
      · exact absurd rfl hcur

/-- The oldest files are deleted. -/
theorem Tidy.pruned (h : w.Tidy bytes maxBytes maxFiles start before written)
    (hpos : 0 < maxFiles) :
    (JsonlWriter.mk (prune maxFiles w.dir) w.currentPath).Tidy
      bytes maxBytes maxFiles start before written := by
  obtain ⟨older, f, hdir, hname⟩ := h.last
  have hsub : ∀ g ∈ prune maxFiles w.dir, g ∈ w.dir := by
    intro g hg
    rw [prune_eq] at hg
    exact List.mem_of_mem_drop hg
  have hsuffix : prune maxFiles w.dir <:+ w.dir := by
    rw [prune_eq]
    exact List.drop_suffix _ _
  refine ⟨?_, ?_, h.began, List.IsSuffix.trans (linesOf_suffix hsuffix) h.suffix, ?_, ?_,
    fun g hg => h.full g (hsub g hg)⟩
  · exact List.Pairwise.sublist hsuffix.sublist h.sorted
  · -- the last is kept, one at least being allowed
    refine ⟨older.drop ((older ++ [f]).length - maxFiles), f, ?_, hname⟩
    show prune maxFiles w.dir = _
    rw [prune_eq, hdir, List.drop_append_of_le_length]
    rw [List.length_append, List.length_singleton]
    omega
  · show linesOf (prune maxFiles w.dir) = before ++ written ∨
      maxFiles ≤ (prune maxFiles w.dir).length
    rw [prune_eq, List.length_drop]
    by_cases hlen : maxFiles ≤ w.dir.length
    · exact .inr (by omega)
    · rw [Nat.sub_eq_zero_of_le (by omega), List.drop_zero]
      exact .inl (h.all_or.resolve_right hlen)
  · by_cases hown : ∀ g ∈ prune maxFiles w.dir, start ≤ g.name
    · exact .inl hown
    · -- an older one is left, so that none of the process's own is gone
      refine .inr ?_
      have hown' := h.own_or.resolve_left fun hall => hown fun g hg => hall g (hsub g hg)
      obtain ⟨gone, hgone⟩ := hsuffix
      have hcut : (w.dir.filter fun f => start ≤ f.name) =
          (prune maxFiles w.dir).filter fun f => start ≤ f.name := by
        conv_lhs => rw [← hgone, List.filter_append]
        refine List.append_left_eq_self.mpr (List.filter_eq_nil_iff.mpr ?_)
        intro d hd hstart
        refine hown fun g hg => le_trans (of_decide_eq_true hstart) (le_of_lt ?_)
        have hs := h.sorted
        rw [← hgone] at hs
        exact (List.pairwise_append.mp hs).2.2 d hd g hg
      exact hcut ▸ hown'

/-- A line is appended to the last file. -/
theorem Tidy.append (h : w.Tidy bytes maxBytes maxFiles start before written) (line : α) :
    (w.append line).Tidy bytes maxBytes maxFiles start before (written ++ [line]) := by
  obtain ⟨older, f, hdir, hname⟩ := h.last
  have hs := h.sorted
  rw [hdir] at hs
  have hlt : ∀ g ∈ older, g.name < w.currentPath := by
    intro g hg
    exact hname ▸ (List.pairwise_append.mp hs).2.2 g hg f List.mem_cons_self
  have hstart : start ≤ f.name := hname ▸ h.began
  have happend : (w.append line).dir = older ++ [{ f with lines := f.lines ++ [line] }] := by
    show w.dir.map _ = _
    rw [hdir, List.map_append, List.map_singleton, if_pos hname]
    refine congrArg (· ++ [_]) ((List.map_congr_left fun g hg => ?_).trans (List.map_id older))
    exact if_neg (ne_of_lt (hlt g hg))
  have hlines : linesOf (w.append line).dir = linesOf w.dir ++ [line] := by
    rw [happend, hdir]
    simp [linesOf]
  have hnames : ∀ g ∈ (w.append line).dir,
      g ∈ older ∨ g = { f with lines := f.lines ++ [line] } := by
    intro g hg
    rw [happend] at hg
    exact (List.mem_append.mp hg).imp_right List.mem_singleton.mp
  refine ⟨?_, ⟨older, _, happend, hname⟩, h.began, ?_, ?_, ?_, ?_⟩
  · rw [happend]
    obtain ⟨ho, -, hof⟩ := List.pairwise_append.mp hs
    refine List.pairwise_append.mpr ⟨ho, List.pairwise_singleton _ _, fun g hg d hd => ?_⟩
    rw [List.mem_singleton.mp hd]
    exact hof g hg f List.mem_cons_self
  · rw [hlines, ← List.append_assoc]
    obtain ⟨gone, hgone⟩ := h.suffix
    exact ⟨gone, by rw [← hgone, List.append_assoc]⟩
  · rw [hlines, ← List.append_assoc]
    refine h.all_or.imp (fun hall => by rw [hall]) fun hlen => ?_
    show maxFiles ≤ (w.dir.map _).length
    rw [List.length_map]
    exact hlen
  · refine h.own_or.imp (fun hown g hg => ?_) fun hown => ?_
    · rcases hnames g hg with hg | rfl
      · exact hown g (hdir ▸ List.mem_append_left _ hg)
      · exact hstart
    · obtain ⟨others, hothers⟩ := hown
      refine ⟨others, ?_⟩
      rw [hdir, List.filter_append, List.filter_cons_of_pos (by exact decide_eq_true hstart)]
        at hothers
      rw [happend, List.filter_append, List.filter_cons_of_pos (by exact decide_eq_true hstart),
        ← List.append_assoc, hothers]
      simp [linesOf]
  · intro g hg hstart' hcur
    rcases hnames g hg with hg | rfl
    · exact h.full g (hdir ▸ List.mem_append_left _ hg) hstart' hcur
    · exact absurd hname hcur

/-- A write succeeds, whether it rotates or not. -/
theorem Tidy.write (h : w.Tidy bytes maxBytes maxFiles start before written)
    (hpos : 0 < maxFiles) (hle : w.currentPath ≤ now) (line : α) :
    ∃ w', w.write bytes maxBytes maxFiles (now, line) = some w' ∧
      w'.Tidy bytes maxBytes maxFiles start before (written ++ [line]) ∧ w'.currentPath ≤ now := by
  obtain ⟨older, f, hdir, hname⟩ := h.last
  have hmem : f ∈ w.dir := hdir ▸ List.mem_append_right _ List.mem_cons_self
  have honly : ∀ g ∈ w.dir, g.name = w.currentPath → g = f := by
    intro g hg hg'
    exact h.sorted.one_of_name hg hmem (hg'.trans hname.symm)
  have hcur : w.current? = some f := by
    obtain ⟨c, hc⟩ := Option.isSome_iff_exists.mp (isSome_current?.mpr ⟨f, hmem, hname⟩)
    have hc' := honly c (List.mem_of_find?_eq_some hc) (by simpa using List.find?_some hc)
    rw [hc, hc']
  have hwrite : w.write bytes maxBytes maxFiles (now, line) =
      some ((if maxBytes < f.size bytes then w.rotate maxFiles now else w).append line) := by
    rw [JsonlWriter.write, hcur]
    rfl
  refine ⟨_, hwrite, ?_⟩
  split
  · rename_i hbig
    refine ⟨((h.opened hle fun g hg hg' => ?_).pruned hpos).append line, le_refl now⟩
    exact honly g hg hg' ▸ hbig
  · exact ⟨h.append line, hle⟩

theorem Tidy.new {dir : List (LogFile κ α)} (hs : Sorted dir) (hle : ∀ f ∈ dir, f.name ≤ start) :
    (JsonlWriter.new dir start).Tidy bytes maxBytes maxFiles start (linesOf dir) [] := by
  have hlines := linesOf_openNew start dir
  have hlast : ∃ older f, openNew start dir = older ++ [f] ∧ f.name = start := by
    rcases openNew_newest hs hle with ⟨heq, hlast⟩ | ⟨heq, -⟩
    · rw [heq]
      exact hlast
    · exact ⟨dir, ⟨start, []⟩, heq, rfl⟩
  refine ⟨sorted_openNew start hs, hlast, le_refl start, ?_, ?_, .inr (List.nil_suffix), ?_⟩
  · rw [List.append_nil, ← hlines]
    exact List.suffix_refl _
  · rw [List.append_nil]
    exact .inl hlines
  · intro f hf hstart hne
    refine absurd (le_antisymm ?_ hstart) hne
    rcases mem_openNew hf with hf | rfl
    · exact hle f hf
    · exact le_refl start

/-- The invariant, over some writes. -/
theorem Tidy.writeAll {xs : List (κ × α)} (hpos : 0 < maxFiles)
    (h : w.Tidy bytes maxBytes maxFiles start before written)
    (hclock : (w.currentPath :: xs.map Prod.fst).Pairwise (· ≤ ·)) :
    ∃ w', w.writeAll bytes maxBytes maxFiles xs = some w' ∧
      w'.Tidy bytes maxBytes maxFiles start before (written ++ xs.map Prod.snd) := by
  induction xs generalizing w written with
  | nil => exact ⟨w, rfl, by rw [List.map_nil, List.append_nil]; exact h⟩
  | cons x xs ih =>
    obtain ⟨hle, hxs⟩ := List.pairwise_cons.mp hclock
    obtain ⟨w', hwrite, h', hle'⟩ := h.write hpos (hle x.1 List.mem_cons_self) x.2
    have hclock' : (w'.currentPath :: xs.map Prod.fst).Pairwise (· ≤ ·) := by
      obtain ⟨hx, hrest⟩ := List.pairwise_cons.mp hxs
      exact List.pairwise_cons.mpr ⟨fun t ht => le_trans hle' (hx t ht), hrest⟩
    obtain ⟨w'', hall, h''⟩ := ih h' hclock'
    refine ⟨w'', ?_, ?_⟩
    · rw [JsonlWriter.writeAll, List.foldlM_cons, hwrite]
      exact hall
    · rw [List.map_cons, ← List.singleton_append, ← List.append_assoc]
      exact h''

omit [LinearOrder κ] in
/-- Files but the last that are full. -/
theorem le_bytes_of_full {older : List (LogFile κ α)} {f : LogFile κ α}
    (hfull : ∀ g ∈ older, maxBytes < g.size bytes) :
    older.length * (maxBytes + 1) ≤ ((linesOf (older ++ [f])).map bytes).sum := by
  induction older with
  | nil => exact Nat.zero_mul (maxBytes + 1) ▸ Nat.zero_le _
  | cons g older ih =>
    have hg : maxBytes + 1 ≤ (g.lines.map bytes).sum := hfull g List.mem_cons_self
    have hrest := ih fun d hd => hfull d (List.mem_cons_of_mem g hd)
    rw [List.cons_append, linesOf, List.flatMap_cons, ← linesOf, List.map_append, List.sum_append,
      List.length_cons, Nat.succ_mul]
    omega

/-- What the process wrote is there, or the files it left are full. -/
theorem Tidy.written_or (h : w.Tidy bytes maxBytes maxFiles start before written) :
    written <:+ linesOf w.dir ∨
      (maxFiles - 1) * (maxBytes + 1) ≤ ((linesOf w.dir).map bytes).sum := by
  rcases h.all_or with hall | hlen
  · exact .inl ⟨before, hall.symm⟩
  · rcases h.own_or with hown | hown
    · obtain ⟨older, f, hdir, hname⟩ := h.last
      have hs := h.sorted
      rw [hdir] at hs
      refine .inr (Nat.le_trans (Nat.mul_le_mul_right _ ?_)
        (hdir ▸ le_bytes_of_full fun g hg => ?_))
      · rw [hdir, List.length_append, List.length_singleton] at hlen
        omega
      · have hlt := (List.pairwise_append.mp hs).2.2 g hg f List.mem_cons_self
        have hmem : g ∈ w.dir := hdir ▸ List.mem_append_left _ hg
        exact h.full g hmem (hown g hmem) (ne_of_lt (hname ▸ hlt))
    · exact .inl (List.IsSuffix.trans hown (linesOf_suffix (filter_suffix start h.sorted)))

theorem length_write {x : κ × α} {n : ℕ} (h : w.write bytes maxBytes maxFiles x = some w')
    (hn : w.dir.length ≤ max n maxFiles) : w'.dir.length ≤ max n maxFiles := by
  rw [JsonlWriter.write, Option.map_eq_some_iff] at h
  obtain ⟨f, -, rfl⟩ := h
  show (List.map _ _).length ≤ _
  rw [List.length_map]
  split
  · show (prune maxFiles _).length ≤ _
    rw [prune_eq, List.length_drop]
    omega
  · exact hn

theorem length_writeAll {xs : List (κ × α)} {n : ℕ}
    (h : w.writeAll bytes maxBytes maxFiles xs = some w')
    (hn : w.dir.length ≤ max n maxFiles) : w'.dir.length ≤ max n maxFiles := by
  induction xs generalizing w with
  | nil => exact Option.some.inj h ▸ hn
  | cons x xs ih =>
    rw [JsonlWriter.writeAll, List.foldlM_cons] at h
    obtain ⟨w'', hwrite, hrest⟩ := Option.bind_eq_some_iff.mp h
    exact ih hrest (length_write hwrite hn)

end JsonlWriter

/-- Under a clock that does not step back every write succeeds, and the files hold the
newest lines: all this process wrote, or `max_files - 1` full files of it. -/
theorem jsonl_keeps_newest {bytes : α → ℕ} {maxBytes maxFiles : ℕ} {dir : List (LogFile κ α)}
    {start : κ} {xs : List (κ × α)} (hs : Sorted dir) (hdir : ∀ f ∈ dir, f.name ≤ start)
    (hpos : 0 < maxFiles) (hclock : (start :: xs.map Prod.fst).Pairwise (· ≤ ·)) :
    ∃ w, (JsonlWriter.new dir start).writeAll bytes maxBytes maxFiles xs = some w ∧
      linesOf w.dir <:+ linesOf dir ++ xs.map Prod.snd ∧
      (xs.map Prod.snd <:+ linesOf w.dir ∨
        (maxFiles - 1) * (maxBytes + 1) ≤ ((linesOf w.dir).map bytes).sum) ∧
      w.dir.length ≤ max (dir.length + 1) maxFiles := by
  have hnew : (JsonlWriter.new dir start).Tidy bytes maxBytes maxFiles start (linesOf dir) [] :=
    JsonlWriter.Tidy.new hs hdir
  obtain ⟨w, hall, h⟩ := hnew.writeAll hpos hclock
  rw [List.nil_append] at h
  refine ⟨w, hall, h.suffix, h.written_or, JsonlWriter.length_writeAll hall ?_⟩
  obtain ⟨older, f, newer, heq, -, -, hlen, -⟩ := openNew_spec start hs
  show (openNew start dir).length ≤ _
  rw [heq]
  omega

/-- Three lines of three bytes, five to a file and one file kept. -/
theorem jsonl_keeps_last :
    ∃ w, (JsonlWriter.new [⟨0, ['z']⟩] 1).writeAll (fun _ => 3) 5 1
        [(1, 'a'), (2, 'b'), (4, 'c')] = some w ∧
      linesOf w.dir <:+ linesOf [(⟨0, ['z']⟩ : LogFile ℕ Char)] ++ ['a', 'b', 'c'] ∧
      (['a', 'b', 'c'] <:+ linesOf w.dir ∨
        (1 - 1) * (5 + 1) ≤ ((linesOf w.dir).map fun _ => 3).sum) ∧
      w.dir.length ≤ max ([(⟨0, ['z']⟩ : LogFile ℕ Char)].length + 1) 1 :=
  jsonl_keeps_newest (List.pairwise_singleton _ _)
    (by intro f h; rw [List.mem_singleton.mp h]; exact Nat.zero_le 1) Nat.one_pos (by decide)

/-! ## What is read from the files -/

/-- A page of the newest lines that is full is that page of all of them. -/
theorem fileEvents_suffix {kept lines : List TelemetryEvent} (h : kept <:+ lines)
    (q : TelemetryQuery) (since : ℕ)
    (hfull : (fileEvents kept q since).events.length = q.limit) :
    fileEvents kept q since = fileEvents lines q since := by
  obtain ⟨older, rfl⟩ := h
  have hpos := q.limit_pos
  have hread : readRecent q since 0 kept.reverse = readRecent q since 0
      (older ++ kept).reverse := by
    have hlen : (readRecent q since 0 kept.reverse).length = q.limit := hfull
    rw [readRecent_eq q since 0 _ hpos] at hlen ⊢
    rw [readRecent_eq q since 0 _ hpos, List.reverse_append, List.filter_append,
      List.take_append_of_le_length]
    rw [List.length_take] at hlen
    omega
  rw [fileEvents, fileEvents, hread]

/-- The lines that `read_recent` goes through: the files as `glob` lists them, sorted by
their `st_mtime`. -/
def readLines {τ : Type} [LinearOrder τ] (mtime : κ → τ) (files : List (LogFile κ α)) : List α :=
  linesOf (files.mergeSort fun f g => mtime f.name ≤ mtime g.name)

/-- Where the times are in the order of the names, the lines are read in that order. -/
theorem readLines_eq {τ : Type} [LinearOrder τ] {mtime : κ → τ} {dir files : List (LogFile κ α)}
    (hs : Sorted dir) (hlist : files.Perm dir)
    (hm : ∀ f ∈ dir, ∀ g ∈ dir, f.name < g.name → mtime f.name < mtime g.name) :
    readLines mtime files = linesOf dir := by
  have hdir : dir.Pairwise fun f g => mtime f.name < mtime g.name :=
    List.Pairwise.imp_of_mem (fun hf hg hlt => hm _ hf _ hg hlt) hs
  have hsorted : (files.mergeSort fun f g => mtime f.name ≤ mtime g.name).Pairwise
      fun f g => mtime f.name ≤ mtime g.name := by
    refine List.Pairwise.imp (fun h => of_decide_eq_true h) (List.pairwise_mergeSort ?_ ?_ files)
    · intro f g h hfg hgh
      exact decide_eq_true (le_trans (of_decide_eq_true hfg) (of_decide_eq_true hgh))
    · intro f g
      rcases le_total (mtime f.name) (mtime g.name) with h | h <;> simp [h]
  refine congrArg linesOf (List.Perm.eq_of_pairwise ?_ hsorted (hdir.imp le_of_lt)
    ((List.mergeSort_perm files _).trans hlist))
  intro f g hf hg hle hge
  have hf' : f ∈ dir := hlist.mem_iff.mp (List.mem_mergeSort.mp hf)
  have hname : f.name = g.name := by
    -- an earlier name would have an earlier time
    by_contra hne
    rcases lt_or_gt_of_ne hne with hlt | hgt
    · exact absurd hge (not_le.mpr (hm f hf' g hg hlt))
    · exact absurd hle (not_le.mpr (hm g hg f hf' hgt))
  exact hs.one_of_name hf' hg hname

/-- A full page from the files is the page there would be had none been deleted, as long
as their times of modification are in the order of their names. -/
theorem rotated_page_eq {bytes : TelemetryEvent → ℕ} {maxBytes maxFiles : ℕ}
    {dir : List (LogFile κ TelemetryEvent)} {start : κ} {xs : List (κ × TelemetryEvent)}
    (hs : Sorted dir) (hdir : ∀ f ∈ dir, f.name ≤ start) (hpos : 0 < maxFiles)
    (hclock : (start :: xs.map Prod.fst).Pairwise (· ≤ ·)) :
    ∃ w, (JsonlWriter.new dir start).writeAll bytes maxBytes maxFiles xs = some w ∧
      ∀ (τ : Type) [LinearOrder τ] (mtime : κ → τ) (files : List (LogFile κ TelemetryEvent)),
        files.Perm w.dir →
        (∀ f ∈ w.dir, ∀ g ∈ w.dir, f.name < g.name → mtime f.name < mtime g.name) →
        ∀ (q : TelemetryQuery) (since : ℕ),
          (fileEvents (readLines mtime files) q since).events.length = q.limit →
            fileEvents (readLines mtime files) q since
              = fileEvents (linesOf dir ++ xs.map Prod.snd) q since := by
  have hnew : (JsonlWriter.new dir start).Tidy bytes maxBytes maxFiles start (linesOf dir) [] :=
    JsonlWriter.Tidy.new hs hdir
  obtain ⟨w, hall, h⟩ := hnew.writeAll hpos hclock
  rw [List.nil_append] at h
  refine ⟨w, hall, fun τ _ mtime files hlist hm q since hfull => ?_⟩
  rw [readLines_eq h.sorted hlist hm] at hfull ⊢
  exact fileEvents_suffix h.suffix q since hfull

theorem rotated_page_of_two :
    ∃ w, (JsonlWriter.new [] 0).writeAll (fun _ => 3) 2 1
        [(0, ⟨1, "queue_enter", [], Nat.one_pos⟩), (1, ⟨2, "slot_assign", [], Nat.two_pos⟩)] =
          some w ∧
      ∀ (τ : Type) [LinearOrder τ] (mtime : ℕ → τ) (files : List (LogFile ℕ TelemetryEvent)),
        files.Perm w.dir →
        (∀ f ∈ w.dir, ∀ g ∈ w.dir, f.name < g.name → mtime f.name < mtime g.name) →
        ∀ (q : TelemetryQuery) (since : ℕ),
          (fileEvents (readLines mtime files) q since).events.length = q.limit →
            fileEvents (readLines mtime files) q since
              = fileEvents (linesOf ([] : List (LogFile ℕ TelemetryEvent)) ++
                  [⟨1, "queue_enter", [], Nat.one_pos⟩, ⟨2, "slot_assign", [], Nat.two_pos⟩])
                  q since :=
  rotated_page_eq List.Pairwise.nil (by intro f h; cases h) Nat.one_pos (by decide)

end Turbohaul.Telemetry
