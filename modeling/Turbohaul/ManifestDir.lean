/-
# `ManifestDir` — tags and the files of the manifests root

`validate_tag`, `_safe_manifest_path` and `list_manifests` of `manifest.py`, and the three
functions over one tag as what they do to the directory.  A path is its names from the
root of the file system; what is a symbolic link, and where that leads, is a parameter.
A root that is not there has no entries.

  `TAG_RE.match`          `tagRe`, which lets a last newline pass
  `Path.suffix`, `.stem`  by the last dot
  `os.replace`            the temporary file at the tag's name
  `Corresponds`           what is asked of a tag
  `corresponds_iff`       it holds exactly of those that do not end in such a newline
-/
import Turbohaul.ManifestStore
import Mathlib.Data.List.AList
import Mathlib.Data.String.Basic

namespace Turbohaul.ManifestStore

/-! ## Paths -/

abbrev Path := List String

/-- The names in a text, as a path has them. -/
def segments (s : String) : Path :=
  ((s.toList.splitOn '/').map String.ofList).filter fun x => x ≠ "" ∧ x ≠ "."

/-- `root / s`: an absolute text stands for itself. -/
def join (root : Path) (s : String) : Path :=
  if s.toList.head? = some '/' then segments s else root ++ segments s

/-- `str` of a path. -/
def pathText (p : Path) : String := "/" ++ "/".intercalate p

/-- What a name leads to, where a symbolic link leads to another path. -/
def enter (links : Path → Option Path) (dir : Path) (name : String) : Path :=
  if name = ".." then dir.dropLast else (links (dir ++ [name])).getD (dir ++ [name])

/-- `p.resolve()`. -/
def resolve (links : Path → Option Path) (p : Path) : Path := p.foldl (enter links) []

/-- A path with its directory resolved. -/
def locate (links : Path → Option Path) (p : Path) : Path :=
  match p.getLast? with
  | none => []
  | some name => resolve links p.dropLast ++ [name]

/-- `p.is_symlink()`, of a path whose directory is resolved. -/
def isSymlink (links : Path → Option Path) (p : Path) : Bool := (links p).isSome

/-- `validate_tag`. -/
def validateTag (tag : String) : Except String Unit :=
  if tagRe tag then .ok () else .error (tagError tag)

/-- The name of a tag's file. -/
def fileName (tag : String) : String := tag ++ ".yaml"

/-- `_safe_manifest_path`. -/
def safeManifestPath (links : Path → Option Path) (root : Path) (tag : String) :
    Except String Path :=
  match validateTag tag with
  | .error e => .error e
  | .ok () =>
    let targetUnresolved := join root (fileName tag)
    let target := resolve links targetUnresolved
    let rootReal := resolve links root
    if !rootReal.isPrefixOf target then
      .error ("manifest path " ++ pathText target ++ " escapes manifests root " ++
        pathText rootReal)
    else if isSymlink links (locate links targetUnresolved) || isSymlink links target then
      .error "manifest path is a symlink - refusing (v0.2 §8.1 safety)"
    else .ok target

/-! ## The directory -/

/-- The entries of the root, with their texts: all of them regular files. -/
abbrev Dir (τ : Type) := AList fun _ : String => τ

variable {β τ : Type}

/-- `p.suffix`. -/
def pathSuffix (name : String) : String :=
  match rfind ['.'] name.toList with
  | some i => if 0 < i ∧ i < name.length - 1 then String.ofList (name.toList.drop i) else ""
  | none => ""

/-- `p.stem`. -/
def pathStem (name : String) : String :=
  match rfind ['.'] name.toList with
  | some i => if 0 < i ∧ i < name.length - 1 then String.ofList (name.toList.take i) else name
  | none => name

/-- The tag of an entry, if it is one. -/
def entryTag (name : String) : Option String :=
  if pathSuffix name = ".yaml" ∧ name.toList.head? ≠ some '.' then
    if tagRe (pathStem name) then some (pathStem name) else none
  else none

/-- `list_manifests`. -/
def listManifests (dir : Dir τ) : List String :=
  (dir.keys.filterMap entryTag).mergeSort fun a b => decide (a ≤ b)

/-- The name of a temporary file. -/
def tmpName (random : String) : String := ".tmp_" ++ random ++ ".yaml"

/-- What lies at a name. -/
def Dir.at (dir : Dir τ) (name : String) : FileState τ :=
  match dir.lookup name with
  | none => .absent
  | some text => .file text

/-- The name of the last entry of a path. -/
def pathName (p : Path) : String := p.getLast?.getD ""

/-- The checks of `write_manifest_atomic`, with the manifest that is to be written. -/
def admission (K : Codec β τ) (disk : Disk) (f : FileState τ) (m : Doc β)
    (ifMatch : Option String) :
    Except Failure (Doc β) :=
  match f with
  | .absent => .ok m
  | .symlink refusal => .error (.validation refusal)
  | .file _ =>
    match readManifest K disk f with
    | .error e => .error e
    | .ok existing =>
      let actual := etag existing.revision
      match ifMatch with
      | none =>
        .error (.concurrency ("If-Match header required for manifest update " ++
          "(current ETag is " ++ actual ++ ")"))
      | some e =>
        if e ≠ actual then
          .error (.concurrency ("If-Match " ++ pyRepr e ++ " does not match current ETag " ++
            pyRepr actual))
        else .ok (m.bump existing)

/-- The writing: the directories that are seen, the last of them the one that is left. -/
def Dir.replace (K : Codec β τ) (disk : Disk) (random : String) (dir : Dir τ) (name : String)
    (m : Doc β) : Except Failure (Doc β) × List (Dir τ) :=
  let written := dir.insert (tmpName random) (K.dump m)
  let renamed := (written.erase (tmpName random)).insert name (K.dump m)
  match disk with
  | .writeFails => (.error .other, [written, written.erase (tmpName random)])
  | .syncFails => (.error .other, [written, renamed])
  | _ => (.ok m, [written, renamed])

variable (links : Path → Option Path) (root : Path)

/-- `read_manifest` of a tag. -/
def Dir.read (K : Codec β τ) (disk : Disk) (dir : Dir τ) (tag : String) : Except Failure (Doc β) :=
  match safeManifestPath links root tag with
  | .error d => .error (.validation d)
  | .ok target => readManifest K disk (dir.at (pathName target))

/-- `write_manifest_atomic` of a manifest of a tag. -/
def Dir.write (K : Codec β τ) (disk : Disk) (random : String) (dir : Dir τ) (tag : String)
    (m : Doc β) (ifMatch : Option String) : Except Failure (Doc β) × List (Dir τ) :=
  match safeManifestPath links root tag with
  | .error d => (.error (.validation d), [dir])
  | .ok target =>
    match admission K disk (dir.at (pathName target)) m ifMatch with
    | .error e => (.error e, [dir])
    | .ok m' => dir.replace K disk random (pathName target) m'

/-- `delete_manifest` of a tag. -/
def Dir.delete (disk : Disk) (dir : Dir τ) (tag : String) : Except Failure Bool × Dir τ :=
  match safeManifestPath links root tag with
  | .error d => (.error (.validation d), dir)
  | .ok target =>
    match deleteManifest disk (dir.at (pathName target)) with
    | (r, .absent) => (r, dir.erase (pathName target))
    | (r, _) => (r, dir)

/-! ## What is asked -/

/-- One to 64 characters, the first in `[a-z0-9]` and the rest in `[a-z0-9._-]`. -/
def ProperTag (tag : String) : Prop :=
  ∃ c cs, tag.toList = c :: cs ∧ tagHead c = true ∧ cs.length ≤ 63 ∧ ∀ x ∈ cs, tagTail x = true

/-- The tags that are listed, and what lies there, are the same but for one tag. -/
def SameBut (tag : String) (dir dir' : Dir τ) : Prop :=
  ∀ t ≠ tag, (t ∈ listManifests dir' ↔ t ∈ listManifests dir) ∧
    (tagRe t = true → dir'.at (fileName t) = dir.at (fileName t))

/-- Reading, writing and deleting a tag read, write and delete its entry. -/
structure Corresponds (K : Codec β τ) (dir : Dir τ) (tag : String) : Prop where
  accepted : validateTag tag = .ok () ↔ ProperTag tag
  child : ProperTag tag →
    safeManifestPath links root tag = .ok (resolve links root ++ [tag ++ ".yaml"])
  distinct : ∀ t p, safeManifestPath links root t = .ok p →
    safeManifestPath links root tag = .ok p → t = tag
  listed : tag ∈ listManifests dir ↔ ProperTag tag ∧ tag ++ ".yaml" ∈ dir
  sorted : (listManifests dir).Pairwise (· < ·)
  found : ∀ disk, ProperTag tag →
    (dir.read links root K disk tag = .error .notFound ↔ tag ∉ listManifests dir)
  read : ∀ disk, ∀ dir' : Dir τ, dir'.at (fileName tag) = dir.at (fileName tag) →
    dir'.read links root K disk tag = dir.read links root K disk tag
  writes : ∀ disk random m ifMatch,
    ∀ dir' ∈ (dir.write links root K disk random tag m ifMatch).2, SameBut tag dir dir'
  written : ∀ disk random m ifMatch m',
    (dir.write links root K disk random tag m ifMatch).1 = .ok m' →
    ∃ left, (dir.write links root K disk random tag m ifMatch).2.getLast? = some left ∧
      tag ∈ listManifests left ∧ left.at (fileName tag) = .file (K.dump m')
  deletes : ∀ disk, SameBut tag dir (dir.delete links root disk tag).2
  deleted : ∀ disk b, (dir.delete links root disk tag).1 = .ok b →
    (b = true ↔ tag ∈ listManifests dir) ∧ tag ∉ listManifests (dir.delete links root disk tag).2

/-! ## Tags -/

variable {links root}

theorem tagTail_newline : tagTail '\n' = false := by decide

theorem proper_of_body {c : Char} {cs : List Char} {tag : String} (htag : tag.toList = c :: cs)
    (h : (tagHead c && decide (cs.length ≤ 63) && cs.all tagTail) = true) : ProperTag tag := by
  rw [Bool.and_eq_true, Bool.and_eq_true, decide_eq_true_eq] at h
  exact ⟨c, cs, htag, h.1.1, h.1.2, List.all_eq_true.mp h.2⟩

/-- The expression takes proper tags, and those with a newline after them. -/
theorem tagRe_iff {tag : String} :
    tagRe tag = true ↔ ProperTag tag ∨ ∃ t, ProperTag t ∧ tag = t ++ "\n" := by
  constructor
  · intro h
    unfold tagRe at h
    split at h
    · cases h
    · rename_i c cs htag
      by_cases hlast : cs.getLast? = some '\n'
      · obtain ⟨body, rfl⟩ := List.getLast?_eq_some_iff.mp hlast
        rw [if_pos hlast, List.dropLast_concat] at h
        refine .inr ⟨String.ofList (c :: body), proper_of_body String.toList_ofList h, ?_⟩
        rw [← String.toList_inj, htag, String.toList_append, String.toList_ofList]
        rfl
      · rw [if_neg hlast] at h
        exact .inl (proper_of_body htag h)
  · have hbody : ∀ {c : Char} {cs : List Char}, tagHead c = true → cs.length ≤ 63 →
        (∀ x ∈ cs, tagTail x = true) →
        (tagHead c && decide (cs.length ≤ 63) && cs.all tagTail) = true := by
      intro c cs hc hlen hcs
      rw [hc, decide_eq_true hlen, List.all_eq_true.mpr hcs]
      rfl
    rintro (⟨c, cs, htag, hc, hlen, hcs⟩ | ⟨t, ⟨c, cs, ht, hc, hlen, hcs⟩, rfl⟩)
    · have hlast : cs.getLast? ≠ some '\n' := by
        intro h
        have hnewline := hcs _ (List.mem_of_getLast? h)
        rw [tagTail_newline] at hnewline
        cases hnewline
      rw [tagRe, htag]
      dsimp only
      rw [if_neg hlast]
      exact hbody hc hlen hcs
    · have htag : (t ++ "\n").toList = c :: (cs ++ ['\n']) := by
        rw [String.toList_append, ht]
        rfl
      rw [tagRe, htag]
      dsimp only
      rw [if_pos List.getLast?_concat, List.dropLast_concat]
      exact hbody hc hlen hcs

theorem not_proper_newline (t : String) : ¬ ProperTag (t ++ "\n") := by
  rintro ⟨c, cs, htag, hc, -, hcs⟩
  have hlast : (c :: cs).getLast? = some '\n' := by
    rw [← htag, String.toList_append]
    exact List.getLast?_concat
  rcases List.mem_cons.mp (List.mem_of_getLast? hlast) with rfl | hmem
  · exact absurd hc (by decide)
  · have hnewline := hcs _ hmem
    rw [tagTail_newline] at hnewline
    cases hnewline

/-- What the expression takes begins like a tag and has no slash. -/
theorem tagRe_chars {tag : String} (h : tagRe tag = true) :
    (∃ c cs, tag.toList = c :: cs ∧ tagHead c = true) ∧ '/' ∉ tag.toList := by
  have hproper : ∀ {t : String}, ProperTag t →
      (∃ c cs, t.toList = c :: cs ∧ tagHead c = true) ∧ '/' ∉ t.toList := by
    rintro t ⟨c, cs, ht, hc, -, hcs⟩
    refine ⟨⟨c, cs, ht, hc⟩, ?_⟩
    rw [ht]
    intro hmem
    rcases List.mem_cons.mp hmem with rfl | hmem
    · exact absurd hc (by decide)
    · exact absurd (hcs _ hmem) (by decide)
  rcases tagRe_iff.mp h with hp | ⟨t, hp, rfl⟩
  · exact hproper hp
  · obtain ⟨⟨c, cs, ht, hc⟩, hslash⟩ := hproper hp
    rw [String.toList_append]
    refine ⟨⟨c, cs ++ ['\n'], by rw [ht]; rfl, hc⟩, fun hmem => ?_⟩
    rcases List.mem_append.mp hmem with hmem | hmem
    · exact hslash hmem
    · exact absurd hmem (by decide)

theorem validateTag_ok {tag : String} : validateTag tag = .ok () ↔ tagRe tag = true := by
  rw [validateTag]
  cases tagRe tag with
  | true => exact ⟨fun _ => rfl, fun _ => rfl⟩
  | false => exact ⟨(by rintro ⟨⟩), (by rintro ⟨⟩)⟩

/-! ## The file of a tag -/

theorem fileName_inj {t tag : String} : fileName t = fileName tag ↔ t = tag :=
  String.append_left_inj ".yaml"

theorem fileName_toList (tag : String) : (fileName tag).toList = tag.toList ++ ".yaml".toList :=
  String.toList_append

/-- A tag's file is one name. -/
theorem segments_fileName {tag : String} (h : tagRe tag = true) :
    segments (fileName tag) = [fileName tag] := by
  obtain ⟨⟨c, cs, htag, hc⟩, hslash⟩ := tagRe_chars h
  have hall : '/' ∉ (fileName tag).toList := by
    rw [fileName_toList]
    intro hmem
    rcases List.mem_append.mp hmem with hmem | hmem
    · exact hslash hmem
    · exact absurd hmem (by decide)
  have hne : ∀ x : String, x.toList.length ≤ 5 → fileName tag ≠ x := by
    rintro x hx rfl
    rw [fileName_toList, htag, List.length_append] at hx
    have hsuffix : ".yaml".toList.length = 5 := by decide
    rw [hsuffix, List.length_cons] at hx
    omega
  rw [segments, List.splitOn_eq_singleton hall, List.map_singleton, String.ofList_toList]
  exact List.filter_eq_self.mpr fun x hx => by
    rw [List.mem_singleton.mp hx]
    exact decide_eq_true ⟨hne "" (by decide), hne "." (by decide)⟩

theorem fileName_ne_parent (tag : String) : fileName tag ≠ ".." := by
  intro h
  have hyaml : ".yaml".toList.getLast? = some 'l' := by decide
  have hdots : "..".toList.getLast? = some '.' := by decide
  have hlast := congrArg List.getLast? (congrArg String.toList h)
  rw [fileName_toList, List.getLast?_append, hyaml, hdots, Option.some_or] at hlast
  exact absurd hlast (by decide)

theorem join_fileName {tag : String} (h : tagRe tag = true) :
    join root (fileName tag) = root ++ [fileName tag] := by
  obtain ⟨⟨c, cs, htag, hc⟩, -⟩ := tagRe_chars h
  rw [join, segments_fileName h, if_neg]
  rw [fileName_toList, htag]
  rintro heq
  obtain rfl : c = '/' := Option.some.inj heq
  exact absurd hc (by decide)

/-- An accepted tag is at the entry of its name, which is no link. -/
theorem safeManifestPath_ok {tag : String} {p : Path} :
    safeManifestPath links root tag = .ok p ↔
      tagRe tag = true ∧ links (resolve links root ++ [fileName tag]) = none ∧
        p = resolve links root ++ [fileName tag] := by
  rw [safeManifestPath]
  cases htag : tagRe tag with
  | false =>
    rw [validateTag, htag]
    exact ⟨(by simp), (by simp)⟩
  | true =>
    rw [validateTag_ok.mpr htag]
    have hlocate : locate links (root ++ [fileName tag]) =
        resolve links root ++ [fileName tag] := by
      rw [locate, List.getLast?_concat, List.dropLast_concat]
    have htarget : resolve links (root ++ [fileName tag]) =
        (links (resolve links root ++ [fileName tag])).getD
          (resolve links root ++ [fileName tag]) := by
      rw [resolve, List.foldl_append, List.foldl_cons, List.foldl_nil, enter,
        if_neg (fileName_ne_parent tag)]
      rfl
    dsimp only
    rw [join_fileName htag, hlocate, htarget, isSymlink]
    cases hl : links (resolve links root ++ [fileName tag]) with
    | some p' =>
      dsimp only [Option.isSome_some, Bool.true_or]
      split
      · exact ⟨(by simp), (by simp)⟩
      · exact ⟨(by simp), (by simp)⟩
    | none =>
      have hprefix :
          (resolve links root).isPrefixOf (resolve links root ++ [fileName tag]) = true :=
        List.isPrefixOf_iff_prefix.mpr (List.prefix_append _ _)
      rw [Option.getD_none, hprefix, isSymlink, hl]
      show Except.ok (resolve links root ++ [fileName tag]) = Except.ok p ↔ _
      rw [Except.ok.injEq]
      exact ⟨fun h => ⟨rfl, rfl, h.symm⟩, fun h => h.2.2.symm⟩

theorem pathName_concat (p : Path) (name : String) : pathName (p ++ [name]) = name := by
  rw [pathName, List.getLast?_concat]
  rfl

/-! ## Suffix and stem -/

theorem rfind_yaml {t : String} : rfind ['.'] (fileName t).toList = some t.toList.length := by
  have hyaml : rfind ['.'] ".yaml".toList = some 0 := by decide
  rw [fileName_toList, rfind_append hyaml, Nat.add_zero]

/-- A name with the suffix is the stem with the suffix. -/
theorem eq_fileName {name : String} (h : pathSuffix name = ".yaml") :
    name = fileName (pathStem name) := by
  unfold pathSuffix at h
  unfold pathStem
  split at h
  · split at h
    · rename_i hin
      rw [if_pos hin, fileName, ← h, ← String.ofList_append, List.take_append_drop,
        String.ofList_toList]
    · exact absurd h (by decide)
  · exact absurd h (by decide)

theorem suffix_fileName {t : String} (h : t ≠ "") :
    pathSuffix (fileName t) = ".yaml" ∧ pathStem (fileName t) = t := by
  have hpos : 0 < t.toList.length := by
    rw [List.length_pos_iff]
    intro hnil
    exact h (String.toList_eq_nil_iff.mp hnil)
  have hlen : (fileName t).length = t.toList.length + 5 := by
    rw [← String.length_toList, fileName_toList, List.length_append]
    rfl
  have hin : 0 < t.toList.length ∧ t.toList.length < (fileName t).length - 1 := by omega
  rw [pathSuffix, pathStem, rfind_yaml]
  dsimp only
  rw [if_pos hin, if_pos hin, fileName_toList, List.drop_left, List.take_left,
    String.ofList_toList, String.ofList_toList]
  exact ⟨rfl, rfl⟩

/-! ## The listing -/

/-- An entry is that of a tag, if it is its file. -/
theorem entryTag_iff {name t : String} :
    entryTag name = some t ↔ tagRe t = true ∧ name = fileName t := by
  constructor
  · intro h
    unfold entryTag at h
    split at h
    · rename_i hsuffix
      split at h
      · rename_i htag
        obtain rfl := Option.some.inj h
        exact ⟨htag, eq_fileName hsuffix.1⟩
      · cases h
    · cases h
  · rintro ⟨htag, rfl⟩
    obtain ⟨⟨c, cs, hcs, hc⟩, -⟩ := tagRe_chars htag
    have hne : t ≠ "" := by
      rintro rfl
      cases hcs
    obtain ⟨hsuffix, hstem⟩ := suffix_fileName hne
    have hdot : (fileName t).toList.head? ≠ some '.' := by
      rw [fileName_toList, hcs]
      intro heq
      obtain rfl : c = '.' := Option.some.inj heq
      exact absurd hc (by decide)
    rw [entryTag, if_pos ⟨hsuffix, hdot⟩, hstem, if_pos htag]

theorem mem_listManifests {dir : Dir τ} {t : String} :
    t ∈ listManifests dir ↔ tagRe t = true ∧ fileName t ∈ dir := by
  rw [listManifests, List.mem_mergeSort, List.mem_filterMap]
  constructor
  · rintro ⟨name, hname, h⟩
    obtain ⟨htag, rfl⟩ := entryTag_iff.mp h
    exact ⟨htag, AList.mem_keys.mpr hname⟩
  · rintro ⟨htag, hmem⟩
    exact ⟨_, AList.mem_keys.mp hmem, entryTag_iff.mpr ⟨htag, rfl⟩⟩

theorem listManifests_sorted (dir : Dir τ) : (listManifests dir).Pairwise (· < ·) := by
  have hnodup : (listManifests dir).Nodup := by
    rw [listManifests, (List.mergeSort_perm _ _).nodup_iff]
    refine dir.keys_nodup.filterMap fun a b t ha hb => ?_
    rw [(entryTag_iff.mp ha).2, (entryTag_iff.mp hb).2]
  have hle : (listManifests dir).Pairwise fun a b => decide (a ≤ b) = true := by
    refine List.pairwise_mergeSort (fun a b c hab hbc => ?_) (fun a b => ?_) _
    · exact decide_eq_true (le_trans (of_decide_eq_true hab) (of_decide_eq_true hbc))
    · rw [Bool.or_eq_true, decide_eq_true_eq, decide_eq_true_eq]
      exact le_total a b
  refine List.Pairwise.imp₂ (fun a b hab hne => ?_) hle hnodup
  exact lt_of_le_of_ne (of_decide_eq_true hab) hne

/-! ## What lies at a name -/

theorem at_eq_absent {dir : Dir τ} {name : String} : dir.at name = .absent ↔ name ∉ dir := by
  rw [← AList.lookup_eq_none, Dir.at]
  cases dir.lookup name with
  | none => exact ⟨fun _ => rfl, fun _ => rfl⟩
  | some text => exact ⟨(by rintro ⟨⟩), (by rintro ⟨⟩)⟩

theorem at_insert (dir : Dir τ) (name : String) (text : τ) :
    Dir.at (dir.insert name text) name = .file text := by
  rw [Dir.at, AList.lookup_insert]

theorem at_insert_ne {dir : Dir τ} {name other : String} (h : other ≠ name) (text : τ) :
    Dir.at (dir.insert name text) other = dir.at other := by
  rw [Dir.at, AList.lookup_insert_ne h, Dir.at]

theorem at_erase_ne {dir : Dir τ} {name other : String} (h : other ≠ name) :
    Dir.at (dir.erase name) other = dir.at other := by
  rw [Dir.at, AList.lookup_erase_ne h, Dir.at]

/-- A temporary file begins with a dot, the file of a tag does not. -/
theorem fileName_ne_tmp {t : String} (h : tagRe t = true) (random : String) :
    fileName t ≠ tmpName random := by
  obtain ⟨⟨c, cs, hcs, hc⟩, -⟩ := tagRe_chars h
  intro heq
  have hhead := congrArg List.head? (congrArg String.toList heq)
  rw [fileName_toList, hcs, tmpName, String.toList_append, String.toList_append] at hhead
  obtain rfl : c = '.' := Option.some.inj hhead
  exact absurd hc (by decide)

theorem listed_iff {dir : Dir τ} {t : String} :
    t ∈ listManifests dir ↔ tagRe t = true ∧ dir.at (fileName t) ≠ .absent := by
  rw [mem_listManifests, Ne, at_eq_absent, not_not]

theorem sameBut_of_at {tag : String} {dir dir' : Dir τ}
    (h : ∀ t ≠ tag, tagRe t = true → dir'.at (fileName t) = dir.at (fileName t)) :
    SameBut tag dir dir' := by
  intro t ht
  refine ⟨?_, h t ht⟩
  rw [listed_iff, listed_iff]
  exact and_congr_right fun htag => by rw [h t ht htag]

theorem SameBut.refl (tag : String) (dir : Dir τ) : SameBut tag dir dir :=
  sameBut_of_at fun _ _ _ => rfl

/-! ## The three functions -/

/-- The checks, and then the writing. -/
theorem writeManifestAtomic_eq (K : Codec β τ) (disk : Disk) (f : FileState τ) (m : Doc β)
    (ifMatch : Option String) :
    writeManifestAtomic K disk f m ifMatch =
      match admission K disk f m ifMatch with
      | .error e => (.error e, f)
      | .ok m' => replace K disk f m' := by
  cases f with
  | absent => rfl
  | symlink refusal => rfl
  | file text =>
    rw [writeManifestAtomic, admission]
    cases readManifest K disk (.file text) with
    | error e => rfl
    | ok existing =>
      cases ifMatch with
      | none => rfl
      | some e =>
        dsimp only
        split
        · rfl
        · rfl

theorem replace_sameBut (K : Codec β τ) (disk : Disk) (random : String) (dir : Dir τ) (tag : String)
    (m : Doc β) :
    ∀ dir' ∈ (dir.replace K disk random (fileName tag) m).2, SameBut tag dir dir' := by
  have hwritten : SameBut tag dir (dir.insert (tmpName random) (K.dump m)) :=
    sameBut_of_at fun t _ htag => at_insert_ne (fileName_ne_tmp htag random) _
  have herased : SameBut tag dir
      ((dir.insert (tmpName random) (K.dump m)).erase (tmpName random)) :=
    sameBut_of_at fun t _ htag => by
      rw [at_erase_ne (fileName_ne_tmp htag random), at_insert_ne (fileName_ne_tmp htag random)]
  have hrenamed : SameBut tag dir (((dir.insert (tmpName random) (K.dump m)).erase
      (tmpName random)).insert (fileName tag) (K.dump m)) :=
    sameBut_of_at fun t ht htag => by
      have hne : fileName t ≠ fileName tag := fun h => ht (fileName_inj.mp h)
      rw [at_insert_ne hne, at_erase_ne (fileName_ne_tmp htag random),
        at_insert_ne (fileName_ne_tmp htag random)]
  have hall : ∀ {a b dir' : Dir τ}, SameBut tag dir a → SameBut tag dir b → dir' ∈ [a, b] →
      SameBut tag dir dir' := by
    intro a b dir' ha hb hmem
    rcases List.mem_pair.mp hmem with rfl | rfl
    · exact ha
    · exact hb
  intro dir' hdir
  cases disk with
  | fine => exact hall hwritten hrenamed hdir
  | readFails => exact hall hwritten hrenamed hdir
  | writeFails => exact hall hwritten herased hdir
  | syncFails => exact hall hwritten hrenamed hdir

/-- The entry that is left is what the writing of one file leaves. -/
theorem replace_left (K : Codec β τ) (disk : Disk) (random : String) (dir : Dir τ) {tag : String}
    (htag : tagRe tag = true) (m : Doc β) :
    (dir.replace K disk random (fileName tag) m).1 =
        (replace K disk (dir.at (fileName tag)) m).1 ∧
      ∃ left, (dir.replace K disk random (fileName tag) m).2.getLast? = some left ∧
        left.at (fileName tag) = (replace K disk (dir.at (fileName tag)) m).2 := by
  have hne := fileName_ne_tmp htag random
  cases disk with
  | fine => exact ⟨rfl, _, rfl, at_insert _ _ _⟩
  | readFails => exact ⟨rfl, _, rfl, at_insert _ _ _⟩
  | writeFails => exact ⟨rfl, _, rfl, (at_erase_ne hne).trans (at_insert_ne hne _)⟩
  | syncFails => exact ⟨rfl, _, rfl, at_insert _ _ _⟩

section
variable {tag : String} (hpath : safeManifestPath links root tag =
  .ok (resolve links root ++ [fileName tag]))

include hpath

theorem read_eq (K : Codec β τ) (disk : Disk) (dir : Dir τ) :
    dir.read links root K disk tag = readManifest K disk (dir.at (fileName tag)) := by
  rw [Dir.read, hpath]
  dsimp only
  rw [pathName_concat]

theorem write_eq (K : Codec β τ) (disk : Disk) (random : String) (dir : Dir τ) (m : Doc β)
    (ifMatch : Option String) : dir.write links root K disk random tag m ifMatch =
      match admission K disk (dir.at (fileName tag)) m ifMatch with
      | .error e => (.error e, [dir])
      | .ok m' => dir.replace K disk random (fileName tag) m' := by
  rw [Dir.write, hpath]
  dsimp only
  rw [pathName_concat]

/-- Writing a tag writes its file as one file is written. -/
theorem write_refines (K : Codec β τ) (disk : Disk) (random : String) (dir : Dir τ) (m : Doc β)
    (ifMatch : Option String) :
    (dir.write links root K disk random tag m ifMatch).1 =
        (writeManifestAtomic K disk (dir.at (fileName tag)) m ifMatch).1 ∧
      ∃ left, (dir.write links root K disk random tag m ifMatch).2.getLast? = some left ∧
        left.at (fileName tag) =
          (writeManifestAtomic K disk (dir.at (fileName tag)) m ifMatch).2 := by
  rw [write_eq hpath, writeManifestAtomic_eq]
  cases admission K disk (dir.at (fileName tag)) m ifMatch with
  | error e => exact ⟨rfl, dir, rfl, rfl⟩
  | ok m' => exact replace_left K disk random dir (safeManifestPath_ok.mp hpath).1 m'

/-- Deleting a tag deletes its file as one file is deleted. -/
theorem delete_refines (disk : Disk) (dir : Dir τ) :
    (dir.delete links root disk tag).1 = (deleteManifest disk (dir.at (fileName tag))).1 ∧
      (dir.delete links root disk tag).2.at (fileName tag) =
        (deleteManifest disk (dir.at (fileName tag))).2 := by
  rw [Dir.delete, hpath]
  dsimp only
  rw [pathName_concat]
  have herased : Dir.at (dir.erase (fileName tag)) (fileName tag) = .absent := by
    rw [Dir.at, AList.lookup_erase]
  cases hat : dir.at (fileName tag) with
  | absent => exact ⟨rfl, herased⟩
  | symlink refusal => exact ⟨rfl, hat⟩
  | file text =>
    by_cases hdisk : disk = .writeFails
    · rw [deleteManifest, if_pos hdisk]
      exact ⟨rfl, hat⟩
    · rw [deleteManifest, if_neg hdisk]
      exact ⟨rfl, herased⟩

end

theorem write_sameBut (K : Codec β τ) (disk : Disk) (random : String) (dir : Dir τ) (tag : String)
    (m : Doc β) (ifMatch : Option String) :
    ∀ dir' ∈ (dir.write links root K disk random tag m ifMatch).2, SameBut tag dir dir' := by
  have hself : ∀ dir' ∈ [dir], SameBut tag dir dir' := by
    intro dir' hdir
    rw [List.mem_singleton.mp hdir]
    exact SameBut.refl tag dir
  cases hpath : safeManifestPath links root tag with
  | error d =>
    rw [Dir.write, hpath]
    exact hself
  | ok p =>
    obtain ⟨-, -, rfl⟩ := safeManifestPath_ok.mp hpath
    rw [write_eq hpath]
    cases admission K disk (dir.at (fileName tag)) m ifMatch with
    | error e => exact hself
    | ok m' => exact replace_sameBut K disk random dir tag m'

theorem delete_sameBut (disk : Disk) (dir : Dir τ) (tag : String) :
    SameBut tag dir (dir.delete links root disk tag).2 := by
  have herased : SameBut tag dir (dir.erase (fileName tag)) :=
    sameBut_of_at fun t ht _ => at_erase_ne fun h => ht (fileName_inj.mp h)
  cases hpath : safeManifestPath links root tag with
  | error d =>
    rw [Dir.delete, hpath]
    exact SameBut.refl tag dir
  | ok p =>
    obtain ⟨-, -, rfl⟩ := safeManifestPath_ok.mp hpath
    rw [Dir.delete, hpath]
    dsimp only
    rw [pathName_concat]
    split
    · exact herased
    · exact SameBut.refl tag dir

/-- A manifest that is written is there. -/
theorem written_at {K : Codec β τ} {disk : Disk} {f : FileState τ} {m m' : Doc β}
    {ifMatch : Option String} (h : (writeManifestAtomic K disk f m ifMatch).1 = .ok m') :
    (writeManifestAtomic K disk f m ifMatch).2 = .file (K.dump m') := by
  rw [writeManifestAtomic_eq] at h ⊢
  cases ha : admission K disk f m ifMatch with
  | error e =>
    rw [ha] at h
    cases h
  | ok a =>
    rw [ha] at h
    cases disk with
    | fine =>
      obtain rfl := Except.ok.inj h
      rfl
    | readFails =>
      obtain rfl := Except.ok.inj h
      rfl
    | writeFails => cases h
    | syncFails => cases h

theorem found_iff (K : Codec β τ) (disk : Disk) (f : FileState τ) :
    readManifest K disk f = .error .notFound ↔ f = .absent := by
  refine ⟨fun h => ?_, fun h => by rw [h]; rfl⟩
  cases f with
  | absent => rfl
  | symlink refusal => cases h
  | file text =>
    rw [readManifest] at h
    split at h
    · cases h
    · split at h
      · cases h
      · cases h
      · cases h

/-- The tags are those of the claimed form, and stand for the entries of the listing, exactly
but for those that end in a newline. -/
theorem corresponds_iff (links : Path → Option Path) (root : Path)
    (hregular : ∀ name, links (resolve links root ++ [name]) = none) (K : Codec β τ) (dir : Dir τ)
    (tag : String) :
    Corresponds links root K dir tag ↔ ¬ ∃ t, ProperTag t ∧ tag = t ++ "\n" := by
  constructor
  · rintro h ⟨t, ht, rfl⟩
    exact not_proper_newline t
      (h.accepted.mp (validateTag_ok.mpr (tagRe_iff.mpr (.inr ⟨t, ht, rfl⟩))))
  · intro hnewline
    have hproper : tagRe tag = true ↔ ProperTag tag :=
      tagRe_iff.trans (or_iff_left hnewline)
    have hpath : tagRe tag = true →
        safeManifestPath links root tag = .ok (resolve links root ++ [fileName tag]) :=
      fun htag => safeManifestPath_ok.mpr ⟨htag, hregular _, rfl⟩
    have hok : ∀ {t p}, safeManifestPath links root t = .ok p →
        tagRe t = true ∧ p = resolve links root ++ [fileName t] := fun h =>
      ⟨(safeManifestPath_ok.mp h).1, (safeManifestPath_ok.mp h).2.2⟩
    constructor
    case accepted => exact validateTag_ok.trans hproper
    case child => exact fun h => hpath (hproper.mpr h)
    case distinct =>
      intro t p ht htag
      have hsame := (hok ht).2.symm.trans (hok htag).2
      exact fileName_inj.mp (List.cons.inj (List.append_cancel_left hsame)).1
    case listed => exact mem_listManifests.trans (and_congr_left fun _ => hproper)
    case sorted => exact listManifests_sorted dir
    case found =>
      intro disk h
      rw [read_eq (hpath (hproper.mpr h)), found_iff, listed_iff, not_and, not_not]
      exact ⟨fun hat _ => hat, fun hat => hat (hproper.mpr h)⟩
    case read =>
      intro disk dir' hat
      cases htag : safeManifestPath links root tag with
      | error d => rw [Dir.read, Dir.read, htag]
      | ok p =>
        obtain ⟨-, rfl⟩ := hok htag
        rw [read_eq htag, read_eq htag, hat]
    case writes => exact fun disk random m ifMatch => write_sameBut K disk random dir tag m ifMatch
    case written =>
      intro disk random m ifMatch m' h
      cases htag : safeManifestPath links root tag with
      | error d =>
        rw [Dir.write, htag] at h
        cases h
      | ok p =>
        obtain ⟨hre, rfl⟩ := hok htag
        obtain ⟨hresult, left, hleft, hat⟩ := write_refines htag K disk random dir m ifMatch
        rw [written_at (hresult.symm.trans h)] at hat
        refine ⟨left, hleft, listed_iff.mpr ⟨hre, ?_⟩, hat⟩
        rw [hat]
        intro h
        cases h
    case deletes => exact fun disk => delete_sameBut disk dir tag
    case deleted =>
      intro disk b h
      cases htag : safeManifestPath links root tag with
      | error d =>
        rw [Dir.delete, htag] at h
        cases h
      | ok p =>
        obtain ⟨hre, rfl⟩ := hok htag
        obtain ⟨hresult, hat⟩ := delete_refines htag disk dir
        rw [hresult] at h
        rw [listed_iff, listed_iff, hat]
        cases hf : dir.at (fileName tag) with
        | absent =>
          rw [hf] at h
          obtain rfl := Except.ok.inj h
          exact ⟨⟨(by rintro ⟨⟩), fun h => absurd rfl h.2⟩, fun h => absurd rfl h.2⟩
        | symlink refusal =>
          rw [hf] at h
          cases h
        | file text =>
          rw [hf, deleteManifest] at h
          split at h
          · cases h
          · rename_i hdisk
            obtain rfl := Except.ok.inj h
            rw [deleteManifest, if_neg hdisk]
            exact ⟨⟨fun _ => ⟨hre, (by rintro ⟨⟩)⟩, fun _ => rfl⟩, fun h => absurd rfl h.2⟩

/-- Texts that are the manifests themselves. -/
def plainCodec : Codec Unit (Doc Unit) := ⟨fun m => .ok m, id, fun _ => rfl⟩

theorem corresponds_iff_one :
    Corresponds (fun _ => none) ["data", "manifests"] plainCodec
        (AList.singleton "llama3.yaml" ⟨1, by decide, ()⟩) "llama3" ↔
      ¬ ∃ t, ProperTag t ∧ "llama3" = t ++ "\n" :=
  corresponds_iff _ _ (fun _ => rfl) _ _ _

theorem newline_accepted : ¬ ∀ tag, validateTag tag = .ok () ↔ ProperTag tag := by
  intro h
  exact not_proper_newline "abc" ((h "abc\n").mp (by decide +kernel))

end Turbohaul.ManifestStore
