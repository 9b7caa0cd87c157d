/-
# `Import` — files taken into the blob store: `api/import_.py`

`POST /api/import` takes a path, and what it may lead to is decided by names: the path
is refused if it is not absolute, begins like a system directory, is a link, or has a
real path that is not below that of `import_allowed_root`.  The file is opened later,
without following a link at its end, and streamed into the store.  `DELETE /api/delete`
takes a blob away again.

  `_validate_import_path`  `validateImportPath`
  `_stream_local_file`     `streamLocalFile`
  `import_local`           `importLocal`; the tree of the check and that of the opening
  `delete_blob_route`      `deleteBlobRoute`
  `writeStreamAtomic_spec` when a stream becomes a blob, and what it leaves alone
  `validate_inside`        what passes the check
  `import_inside`, `import_then_delete`
-/
import Turbohaul.BlobRuns
import Turbohaul.EventBus
import Turbohaul.Json
import Turbohaul.PyString
import Turbohaul.Realpath

namespace Turbohaul.Blobs

variable {sha256 : Bytes → String}

/-- What becomes a blob: a whole stream within the limit whose hash is the one expected. -/
structure Fits (sha256 : Bytes → String) (raises : Option String) (bytes : Bytes)
    (expected : Option String) (limit : ℕ) : Prop where
  raises : raises = none
  limit : bytes.length ≤ limit
  hex : sha256Re (sha256 bytes) = true
  expected : ∀ e ∈ expected, e = sha256 bytes

/-- The outcome of a write, and what it does to the other files; the temporary one is gone. -/
def Written (sha256 : Bytes → String) (tmp : Path) (bytes : Bytes) (fs fs' : Store) : Prop :=
  fs'.read (.blob (prefixOf 2 (sha256 bytes)) (sha256 bytes)) = some bytes ∧
    fs'.read tmp = none ∧ ∀ q, q ≠ tmp → q ≠ .blob (prefixOf 2 (sha256 bytes)) (sha256 bytes) →
    fs'.read q = fs.read q

def Left (tmp : Path) (fs fs' : Store) : Prop := ∀ q, q ≠ tmp → fs'.read q = fs.read q

theorem Left.unlink (tmp : Path) (fs : Store) : Left tmp fs (fs.unlink tmp) :=
  fun _ hq => Files.read_unlink_ne hq

/-- With the whole stream hashed and in the file. -/
theorem place_spec {w : Writer} {fs : Store} {chunks : List Bytes} (H : Own ⟨w, chunks⟩ fs)
    (hbody : fs.body w.tmp = some w.fd) (hhex : sha256Re (sha256 w.hashed) = true) :
    Written sha256 w.tmp w.hashed fs (w.place sha256 fs).1 ∧
      (w.place sha256 fs).2 = .ok (sha256 w.hashed, w.bytesWritten) := by
  set final : Path := .blob (prefixOf 2 (sha256 w.hashed)) (sha256 w.hashed)
  have hfinal : finalPath (sha256 w.hashed) = .ok final := if_pos hhex
  have hne : final ≠ w.tmp := blob_ne_incoming _ _ _
  cases hrename : fs.rename w.tmp final with
  | none =>
    rw [Files.rename_eq_none, hbody] at hrename
    cases hrename
  | some fs₁ =>
    have hplace : w.place sha256 fs =
        (fs₁.unlink w.tmp, .ok (sha256 w.hashed, w.bytesWritten)) := by
      rw [Writer.place, hfinal]
      dsimp only
      rw [hrename]
    obtain ⟨hdata, -, hto, -, -, -⟩ := Files.rename_spec hrename
    rw [hplace]
    refine ⟨⟨?_, Files.read_unlink_self, fun q hq hqf => ?_⟩, rfl⟩
    · show (fs₁.unlink w.tmp).read final = some w.hashed
      rw [Files.read_unlink_ne hne, Files.read_eq, hto, hbody, hdata, Option.map_some]
      exact congrArg some H.written
    · show (fs₁.unlink w.tmp).read q = fs.read q
      rw [Files.read_unlink_ne hq, Files.read_rename_ne hrename hq hqf]

theorem finish_spec {w : Writer} {fs : Store} {chunks : List Bytes} (H : Own ⟨w, chunks⟩ fs)
    (hbody : fs.body w.tmp = some w.fd) (hfits : Fits sha256 none w.hashed w.expected w.limit) :
    Written sha256 w.tmp w.hashed fs (w.finish sha256 fs).1 ∧
      (w.finish sha256 fs).2 = .ok (sha256 w.hashed, w.bytesWritten) := by
  rw [Writer.finish]
  cases hexp : w.expected with
  | none => exact place_spec H hbody hfits.hex
  | some e =>
    obtain rfl := hfits.expected e hexp
    dsimp only
    rw [hfits.hex, Bool.not_true, if_neg Bool.false_ne_true, if_neg (not_not_intro rfl)]
    exact place_spec H hbody hfits.hex

theorem finish_raises {w : Writer} {fs : Store} {chunks : List Bytes} (H : Own ⟨w, chunks⟩ fs)
    (hfits : ¬ Fits sha256 none w.hashed w.expected w.limit) :
    Left w.tmp fs (w.finish sha256 fs).1 ∧ ∃ e, (w.finish sha256 fs).2 = .error e := by
  by_cases hhex : sha256Re (sha256 w.hashed) = true
  · have hexp : ¬ ∀ e ∈ w.expected, e = sha256 w.hashed :=
      fun hexp => hfits ⟨rfl, H.fits, hhex, hexp⟩
    rw [Writer.finish]
    cases hsome : w.expected with
    | none =>
      rw [hsome] at hexp
      exact absurd (fun e he => by cases he) hexp
    | some e =>
      dsimp only
      split
      · exact ⟨Left.unlink _ _, _, rfl⟩
      · split
        · exact ⟨Left.unlink _ _, _, rfl⟩
        · rename_i heq
          rw [not_not] at heq
          refine absurd (fun e' he' => ?_) hexp
          rw [hsome] at he'
          exact (Option.some.inj he').symm.trans heq.symm
  · rcases Writer.finish_cases (show w.finish sha256 fs = _ from rfl) with ⟨e, hfs, he⟩ | hplaced
    · exact ⟨hfs ▸ Left.unlink _ _, e, he⟩
    · obtain ⟨final, -, hfinal, -⟩ := hplaced
      rw [finalPath, if_neg hhex] at hfinal
      cases hfinal

/-- The loop over the chunks. -/
theorem writeChunks_spec (raises : Option String) (chunks : List Bytes) :
    ∀ {w : Writer} {fs : Store} {before : List Bytes}, Own ⟨w, before⟩ fs →
      fs.body w.tmp = some w.fd →
      let bytes := w.hashed ++ chunks.flatten
      let r := writeChunks sha256 w fs raises chunks
      (Fits sha256 raises bytes w.expected w.limit →
        Written sha256 w.tmp bytes fs r.1 ∧ r.2 = .ok (sha256 bytes, bytes.length)) ∧
      (¬ Fits sha256 raises bytes w.expected w.limit →
        Left w.tmp fs r.1 ∧ ∃ e, r.2 = .error e) := by
  induction chunks with
  | nil =>
    intro w fs before H hbody
    dsimp only
    rw [List.flatten_nil, List.append_nil]
    cases raises with
    | some e => exact ⟨fun h => absurd h.raises (by rintro ⟨⟩), fun _ => ⟨Left.unlink _ _, _, rfl⟩⟩
    | none =>
      refine ⟨fun h => ?_, fun h => finish_raises H h⟩
      rw [← H.counted]
      exact finish_spec H hbody h
  | cons chunk chunks ih =>
    intro w fs before H hbody
    have hcounted : w.bytesWritten = w.hashed.length := H.counted
    dsimp only
    rw [writeChunks, List.flatten_cons]
    split
    · rename_i hempty
      subst hempty
      rw [List.nil_append]
      exact ih H hbody
    split
    · rename_i hover
      refine ⟨fun h => ?_, fun _ => ⟨Left.unlink _ _, _, rfl⟩⟩
      have hlimit := h.limit
      rw [List.length_append, List.length_append, ← hcounted] at hlimit
      omega
    · rename_i hfits
      have htook := H.took (.inr (Nat.le_of_not_lt hfits))
      obtain ⟨hplaced, hleft⟩ := ih htook hbody
      have hhashed : (w.took chunk).hashed ++ chunks.flatten =
          w.hashed ++ (chunk ++ chunks.flatten) :=
        List.append_assoc _ _ _
      have hread : ∀ q, q ≠ w.tmp → (fs.append w.fd chunk).read q = fs.read q :=
        fun q hq => H.read_append chunk hq
      rw [hhashed] at hplaced hleft
      refine ⟨fun h => ?_, fun h => ?_⟩
      · obtain ⟨⟨hblob, htmp, hothers⟩, hok⟩ := hplaced h
        exact ⟨⟨hblob, htmp, fun q hq hqf => (hothers q hq hqf).trans (hread q hq)⟩, hok⟩
      · obtain ⟨hothers, herror⟩ := hleft h
        exact ⟨fun q hq => (hothers q hq).trans (hread q hq), herror⟩

theorem writeStreamAtomic_spec (fs : Store) (token : String) (source : Source)
    (expected : Option String) (limit : ℕ) :
    let bytes := source.chunks.flatten
    let r := writeStreamAtomic sha256 fs token source expected limit
    (fs.body (incomingPath token) = none ∧ Fits sha256 source.raises bytes expected limit →
      Written sha256 (incomingPath token) bytes fs r.1 ∧ r.2 = .ok (sha256 bytes, bytes.length)) ∧
    (¬ (fs.body (incomingPath token) = none ∧ Fits sha256 source.raises bytes expected limit) →
      Left (incomingPath token) fs r.1 ∧ ∃ e, r.2 = .error e) := by
  dsimp only
  rw [writeStreamAtomic]
  cases hcreate : fs.create (incomingPath token) with
  | none =>
    have htaken : fs.body (incomingPath token) ≠ none := by
      rw [Files.create] at hcreate
      split at hcreate
      · rename_i hmem
        exact fun h => AList.lookup_eq_none.mp h hmem
      · cases hcreate
    rw [Writer.start, hcreate]
    exact ⟨fun h => absurd h.1 htaken, fun _ => ⟨Left.unlink _ _, _, rfl⟩⟩
  | some created =>
    obtain ⟨fs', fd⟩ := created
    have hstart : Writer.start fs token expected limit =
        (fs', .inr ⟨token, fd, [], 0, expected, limit⟩) := by
      rw [Writer.start, hcreate]
    obtain ⟨hfree, -, -, hbody, -⟩ := Files.create_spec hcreate
    have hread : ∀ q, q ≠ incomingPath token → fs'.read q = fs.read q :=
      fun q hq => Files.read_create_ne hcreate hq
    obtain ⟨hplaced, hleft⟩ := writeChunks_spec source.raises source.chunks (Own.start hstart) hbody
    rw [hstart]
    refine ⟨fun h => ?_, fun h => ?_⟩
    · obtain ⟨⟨hblob, htmp, hothers⟩, hok⟩ := hplaced h.2
      exact ⟨⟨hblob, htmp, fun q hq hqf => (hothers q hq hqf).trans (hread q hq)⟩, hok⟩
    · obtain ⟨hothers, herror⟩ := hleft fun hfits => h ⟨hfree, hfits⟩
      exact ⟨fun q hq => (hothers q hq).trans (hread q hq), herror⟩

end Turbohaul.Blobs

namespace Turbohaul.Import

open Blobs FileTree

abbrev Disk := FileTree.Tree UInt8

/-- `DENIED_PATH_PREFIXES`. -/
def deniedPathPrefixes : List String :=
  ["/proc/", "/sys/", "/dev/", "/etc/", "/root/", "/var/run/", "/var/lib/dpkg/", "/boot/"]

/-- `GGUF_MAGIC`. -/
def ggufMagic : Bytes := [0x47, 0x47, 0x55, 0x46]

/-- `s.startswith(before)`. -/
def startsWith (s before : String) : Bool := before.toList.isPrefixOf s.toList

/-- `s.removeprefix(before)`. -/
def removePrefix (s before : String) : String :=
  if startsWith s before then String.ofList (s.toList.drop before.toList.length) else s

/-- `repr` of bytes. -/
def bytesRepr (bytes : Bytes) : String :=
  let quote := if bytes.contains 39 && !bytes.contains 34 then '"' else '\''
  let escape (b : UInt8) : String :=
    let c := Char.ofNat b.toNat
    if c = quote ∨ c = '\\' then String.ofList ['\\', c]
    else if c = '\t' then "\\t"
    else if c = '\n' then "\\n"
    else if c = '\r' then "\\r"
    else if b < 32 ∨ 127 ≤ b then
      "\\x" ++ String.ofList [Nat.digitChar (b.toNat / 16), Nat.digitChar (b.toNat % 16)]
    else c.toString
  "b" ++ quote.toString ++ String.join (bytes.map escape) ++ quote.toString

/-- `str` of a resolved path. -/
def pathText (path : List String) : String := "/" ++ String.intercalate "/" path

/-- How many links the system follows in a walk. -/
def maxLinks : ℕ := 40

/-- `stat` and `lstat` of a path. -/
def stat (disk : Disk) (path : List String) : Option (Node UInt8) :=
  (disk.walk true maxLinks [] path).toOption.bind disk.find

def lstat (disk : Disk) (path : List String) : Option (Node UInt8) :=
  (disk.walk false maxLinks [] path).toOption.bind disk.find

/-- What becomes of a request: `ImportSafetyError`, another exception, or an answer. -/
inductive Failed
  | safety (message : String)
  | raised

/-- `Path.resolve` of an absolute path, which asks the system for what it comes to; none
where it raises: it recurses deeper than `depth`, or the system meets too many links. -/
def resolve (depth : ℕ) (disk : Disk) (path : List String) : Option (List String) :=
  (disk.realpath depth path).bind fun path =>
    match disk.walk true maxLinks [] path with
    | .error .loop => none
    | _ => some path

/-- `_validate_import_path`, of absolute roots. -/
def validateImportPath (depth : ℕ) (disk : Disk) (importAllowedRoot : String) (candidate : Json) :
    Except Failed (List String) :=
  match candidate with
  | .str candidate =>
    if candidate = "" then .error (.safety "\x60path\x60 must be non-empty string")
    else if !startsWith candidate "/" then .error (.safety "path must be absolute")
    else match deniedPathPrefixes.find? (startsWith candidate) with
      | some denied =>
        .error (.safety ("path " ++ pyRepr candidate ++ " starts with denied prefix " ++ denied))
      | none =>
        match lstat disk (names candidate) with
        | some (.link _) =>
          .error (.safety ("path " ++ candidate ++ " is a symlink (rejected per v0.2 §9.2)"))
        | _ =>
          match resolve depth disk (names candidate),
              resolve depth disk (names importAllowedRoot) with
          | some resolved, some rootResolved =>
            if ¬ rootResolved <+: resolved then
              .error (.safety ("path " ++ candidate ++ " escapes import_allowed_root " ++
                pathText rootResolved))
            else match stat disk resolved with
              | none => .error (.safety ("path " ++ candidate ++ " does not exist"))
              | some (.file _) => .ok resolved
              | some _ => .error (.safety ("path " ++ candidate ++ " is not a regular file"))
          | _, _ => .error .raised
  | _ => .error (.safety "\x60path\x60 must be non-empty string")

/-- `os.open` with `O_NOFOLLOW`, of a file that can be read; none where it or the first
read raises. -/
def openFile (disk : Disk) (path : List String) : Option Bytes :=
  match lstat disk path with
  | some (.file content) => some content
  | _ => none

/-- The reads of a file, so many bytes each. -/
def readAll (chunkSize : ℕ) : ℕ → Bytes → List Bytes
  | 0, _ => []
  | _ + 1, [] => []
  | reads + 1, bytes => bytes.take chunkSize :: readAll chunkSize reads (bytes.drop chunkSize)

/-- `_stream_local_file`, of what the opening gives. -/
def streamLocalFile (opened : Option Bytes) : Source :=
  match opened with
  | none => ⟨[], some "OSError"⟩
  | some content =>
    let head := content.take 4
    if head.length < 4 ∨ head ≠ ggufMagic then
      ⟨[], some ("file does not start with GGUF magic (saw " ++ bytesRepr head ++ ")")⟩
    else ⟨head :: readAll (64 * 1024) content.length (content.drop 4), none⟩

/-- An answer, an `HTTPException`, or an exception that no route expects. -/
inductive Response
  | answer (body : Dict)
  | httpException (status : ℕ) (detail : String)
  | raised

/-- The fields of the configuration that are read. -/
structure ImportConfig where
  importAllowedRoot : String
  perStreamMaxBytes : ℕ

def importFailed (pullId reason : String) : Dict :=
  [("event", .str "import_failed"), ("pull_id", .str pullId), ("reason", .str reason)]

/-- The answer to what `write_stream_atomic` gives, and the event before it; `opened` is
whether the file was, `typed` whether `expected_sha256` is one that `re` can match. -/
def importOutcome (pullId : String) (opened typed : Bool) : Outcome → List Dict × Response
  | .ok (sha, bytesWritten) =>
    ([[("event", .str "import_complete"), ("pull_id", .str pullId), ("sha256", .str sha),
        ("bytes_written", .int bytesWritten)]],
      .answer [("pull_id", .str pullId), ("status", .str "complete"), ("sha256", .str sha),
        ("bytes_written", .int bytesWritten), ("source", .str "local-import")])
  | .error (.source e) =>
    if opened then ([importFailed pullId "magic-check"], .httpException 400 e) else ([], .raised)
  | .error (.sizeExceeded e) => ([importFailed pullId "size-exceeded"], .httpException 413 e)
  | .error (.hashMismatch e) => ([importFailed pullId "hash-mismatch"], .httpException 400 e)
  | .error (.blobError e) =>
    if typed then ([importFailed pullId "blob-error"], .httpException 500 e) else ([], .raised)
  | .error (.integrity e) => ([importFailed pullId "blob-error"], .httpException 500 e)
  | .error .fileExists | .error .fileNotFound => ([], .raised)

/-- `expected_sha256` of a payload; what is no text fails where a text that is no hash does. -/
def expectedSha256 (payload : Dict) : Option String :=
  match payload.get "expected_sha256" with
  | .null => none
  | .str expected => some expected
  | _ => some ""

def isTyped (payload : Dict) : Bool :=
  match payload.get "expected_sha256" with
  | .null | .str _ => true
  | _ => false

variable (sha256 : Bytes → String)

/-- `import_local`, with the disk when the path is checked and when the file is opened,
and what `secrets` gives for the pull and for the temporary file: the store, the events
that are published and the answer. -/
def importLocal (depth : ℕ) (disk disk' : Disk) (config : ImportConfig) (pull token : String)
    (fs : Store) (payload : Dict) : Store × List Dict × Response :=
  match validateImportPath depth disk config.importAllowedRoot (payload.get "path") with
  | .error (.safety e) => (fs, [], .httpException 400 e)
  | .error .raised => (fs, [], .raised)
  | .ok safePath =>
    let pullId := "import-" ++ pull
    let started : Dict := [("event", .str "import_started"), ("pull_id", .str pullId),
      ("path_basename", .str (safePath.getLast?.getD ""))]
    let opened := openFile disk' safePath
    let written := writeStreamAtomic sha256 fs token (streamLocalFile opened)
      (expectedSha256 payload) config.perStreamMaxBytes
    let outcome := importOutcome pullId opened.isSome (isTyped payload) written.2
    (written.1, started :: outcome.1, outcome.2)

/-- The `sha256` of a request to delete, or its `digest`; none where that is no text. -/
def deletedSha (payload : Dict) : Option Json :=
  if (payload.get "sha256").truthy then some (payload.get "sha256")
  else if !payload.has "digest" then some (.str "")
  else match payload.get "digest" with
    | .str digest => some (.str (removePrefix digest "sha256:"))
    | _ => none

/-- `delete_blob_route`. -/
def deleteBlobRoute (fs : Store) (payload : Dict) : Store × Response :=
  match deletedSha payload with
  | some (.str sha) =>
    if sha = "" then
      (fs, .httpException 400 "\x60sha256\x60 (or \x60digest: sha256:...\x60) required")
    else match deleteBlob fs sha with
      | (fs, .error (.blobError e)) => (fs, .httpException 400 e)
      | (fs, .error _) => (fs, .raised)
      | (fs, .ok false) => (fs, .httpException 404 ("blob not found: sha256:" ++ sha))
      | (fs, .ok true) => (fs, .answer [("status", .str "deleted"), ("sha256", .str sha)])
  | _ => (fs, .raised)

/-! ## What passes the check -/

theorem stat_of_plain {disk : Disk} {path : List String} (H : Plain disk path) :
    stat disk path = disk.find path :=
  walk_of_plain true maxLinks H

theorem lstat_of_plain {disk : Disk} {path : List String} (H : Plain disk path) :
    lstat disk path = disk.find path :=
  walk_of_plain false maxLinks H

theorem realpath_of_resolve {depth : ℕ} {disk : Disk} {path resolved : List String}
    (h : resolve depth disk path = some resolved) : disk.realpath depth path = some resolved := by
  obtain ⟨path', hpath', h⟩ := Option.bind_eq_some_iff.mp h
  split at h
  · cases h
  · rw [hpath', ← h]

theorem resolve_up {depth : ℕ} {disk : Disk} {path resolved : List String}
    (h : resolve depth disk path = some resolved) : ".." ∉ resolved := by
  obtain ⟨r, -, rfl⟩ := Option.map_eq_some_iff.mp (realpath_of_resolve h)
  exact normpath_up _

/-- Where no loop of links is met a path is resolved to its real path. -/
theorem resolve_of_leadsTo {depth : ℕ} {disk : Disk} {path resolved goal : List String}
    (h : resolve depth disk path = some resolved) (hpath : ∀ name ∈ path, goesOn name = true)
    (hgoal : disk.LeadsTo path goal) : resolved = goal :=
  realpath_of_leadsTo hpath hgoal (realpath_of_resolve h)

/-- A plain path is resolved to itself. -/
theorem resolve_of_plain {depth : ℕ} {disk : Disk} {path : List String} (hdepth : 0 < depth)
    (hpath : ∀ name ∈ path, goesOn name = true) (H : Plain disk path) :
    resolve depth disk path = some path := by
  rw [resolve, realpath_of_plain hdepth hpath H, Option.bind_some]
  rcases walk_plain true maxLinks H with hwalk | ⟨hwalk, -⟩
  · rw [hwalk]
  · rw [hwalk]

/-- Where the system follows a path anywhere, no loop is met, and it comes to what is at
the real path. -/
theorem leadsTo_of_stat {disk : Disk} {path : List String} {node : Node UInt8}
    (hstat : stat disk path = some node) :
    ∃ goal, disk.LeadsTo path goal ∧ disk.find goal = some node := by
  obtain ⟨goal, hwalk, hfind⟩ := Option.bind_eq_some_iff.mp hstat
  cases hok : disk.walk true maxLinks [] path with
  | error e =>
    rw [hok] at hwalk
    cases hwalk
  | ok goal' =>
    rw [hok] at hwalk
    obtain rfl : goal' = goal := Option.some.inj hwalk
    exact ⟨goal', ⟨maxLinks + 1, real_of_walk maxLinks hok⟩, hfind⟩

/-- A path that passes is by its names below the resolved root, and it leads to a file.
Where no loop of links is met on the candidate it is the real path of that, with no link
on it; none is met if the system follows the candidate anywhere. -/
theorem validate_inside {depth : ℕ} {disk : Disk} {root : String} {candidate : Json}
    {path : List String} (h : validateImportPath depth disk root candidate = .ok path) :
    ∃ text rootResolved content, candidate = .str text ∧
      resolve depth disk (names root) = some rootResolved ∧ rootResolved <+: path ∧
      ".." ∉ path ∧ stat disk path = some (.file content) ∧
      (∀ goal, disk.LeadsTo (names text) goal →
        path = goal ∧ Plain disk path ∧ disk.find path = some (.file content)) ∧
      ∀ node, stat disk (names text) = some node →
        disk.LeadsTo (names text) path ∧ node = .file content := by
  unfold validateImportPath at h
  split at h
  · rename_i text
    split at h
    · cases h
    split at h
    · cases h
    split at h
    · cases h
    split at h
    · cases h
    split at h
    · rename_i resolved rootResolved hresolved hroot
      split at h
      · cases h
      rename_i hbelow
      rw [not_not] at hbelow
      split at h
      · cases h
      · rename_i content hstat
        obtain rfl := Except.ok.inj h
        have hreal : ∀ goal, disk.LeadsTo (names text) goal →
            resolved = goal ∧ Plain disk resolved ∧ disk.find resolved = some (.file content) := by
          intro goal hgoal
          obtain rfl := resolve_of_leadsTo hresolved goesOn_names hgoal
          have H := leadsTo_plain hgoal
          rw [stat_of_plain H] at hstat
          exact ⟨rfl, H, hstat⟩
        refine ⟨text, rootResolved, content, rfl, hroot, hbelow, resolve_up hresolved, hstat,
          hreal, fun node hnode => ?_⟩
        obtain ⟨goal, hgoal, hfind⟩ := leadsTo_of_stat hnode
        obtain ⟨rfl, -, hfile⟩ := hreal goal hgoal
        exact ⟨hgoal, Option.some.inj (hfind.symm.trans hfile)⟩
      · cases h
    · cases h
  · cases h

/-- What is opened is no link itself: where no directory on the way has become one
either, it is the file at the path. -/
theorem openFile_inside {disk : Disk} {path : List String} {content : Bytes}
    (h : openFile disk path = some content) (hne : path ≠ []) (hup : ".." ∉ path)
    (H : Plain disk path.dropLast) : disk.find path = some (.file content) := by
  have hname : path.getLast hne ≠ ".." := fun heq => hup (heq ▸ List.getLast_mem hne)
  have hwalk := walk_of_plain_snoc maxLinks H hname
  rw [List.dropLast_append_getLast hne] at hwalk
  rw [openFile, lstat, hwalk] at h
  split at h
  · rename_i content' hfind
    rw [hfind, Option.some.inj h]
  · cases h

theorem readAll_flatten {chunkSize : ℕ} (hsize : 0 < chunkSize) (reads : ℕ) :
    ∀ {bytes : Bytes}, bytes.length ≤ reads → (readAll chunkSize reads bytes).flatten = bytes := by
  induction reads with
  | zero =>
    intro bytes h
    rw [List.length_eq_zero_iff.mp (Nat.le_zero.mp h)]
    rfl
  | succ reads ih =>
    intro bytes h
    cases bytes with
    | nil => rfl
    | cons b bytes =>
      rw [readAll, List.flatten_cons, ih, List.take_append_drop]
      · rw [List.length_drop]
        omega
      · intro h
        cases h

/-- A file is streamed whole if it begins with the magic, and else not at all. -/
theorem streamLocalFile_cases (opened : Option Bytes) :
    (∃ content, opened = some content ∧ ggufMagic <+: content ∧
      (streamLocalFile opened).raises = none ∧
      (streamLocalFile opened).chunks.flatten = content) ∨
    ((∀ content, opened = some content → ¬ ggufMagic <+: content) ∧
      (streamLocalFile opened).raises ≠ none) := by
  cases opened with
  | none =>
    refine .inr ⟨?_, ?_⟩
    · intro content h
      cases h
    · intro h
      cases h
  | some content =>
    have hmagic : ggufMagic <+: content ↔ content.take 4 = ggufMagic := by
      rw [List.prefix_iff_eq_take]
      exact eq_comm
    rw [streamLocalFile]
    split
    · rename_i hbad
      refine .inr ⟨fun content' h => ?_, by intro h; cases h⟩
      rw [← Option.some.inj h, hmagic]
      intro heq
      rw [heq] at hbad
      exact hbad.elim (by decide) fun hne => hne rfl
    · rename_i hgood
      rw [not_or, not_not] at hgood
      refine .inl ⟨content, rfl, hmagic.mpr hgood.2, rfl, ?_⟩
      rw [List.flatten_cons, readAll_flatten (by decide), List.take_append_drop]
      rw [List.length_drop]
      omega

/-! ## The routes -/

/-- Only a blob that was written is answered with a body. -/
theorem importOutcome_answer {pullId : String} {opened typed : Bool} {outcome : Outcome}
    {body : Dict} (h : (importOutcome pullId opened typed outcome).2 = .answer body) :
    ∃ sha bytesWritten, outcome = .ok (sha, bytesWritten) ∧
      body = [("pull_id", .str pullId), ("status", .str "complete"), ("sha256", .str sha),
        ("bytes_written", .int bytesWritten), ("source", .str "local-import")] := by
  unfold importOutcome at h
  split at h
  · rename_i sha bytesWritten
    exact ⟨sha, bytesWritten, rfl, (Response.answer.inj h).symm⟩
  · split at h
    · cases h
    · cases h
  · cases h
  · cases h
  · split at h
    · cases h
    · cases h
  · cases h
  · cases h
  · cases h

/-- What an import takes in.  Its path is by its names below the resolved root, and led
to a file when it was checked.  Where no loop of links is met on the requested path, as
none is if the system follows that anywhere, it is the real path of it, with no link on
it; and so is the root where none is met on the allowed one.  The bytes begin with the
magic, fit, and have the expected hash; they are what is at the path when it is opened,
unless there is a link on the way then; and they are now the blob of their hash, every
other blob as it was.  If nothing is taken in all blobs are as they were. -/
theorem import_inside (sha256 : Bytes → String) (depth : ℕ) (disk disk' : Disk)
    (config : ImportConfig) (pull token : String) (fs : Store) (payload : Dict) :
    let r := importLocal sha256 depth disk disk' config pull token fs payload
    (∃ text root path content content', payload.get "path" = .str text ∧
      resolve depth disk (names config.importAllowedRoot) = some root ∧
      (∀ goal, disk.LeadsTo (names config.importAllowedRoot) goal → root = goal) ∧
      root <+: path ∧ stat disk path = some (.file content) ∧
      (∀ goal, disk.LeadsTo (names text) goal →
        path = goal ∧ Plain disk path ∧ disk.find path = some (.file content)) ∧
      (∀ node, stat disk (names text) = some node →
        disk.LeadsTo (names text) path ∧ node = .file content) ∧
      (Plain disk' path.dropLast → disk'.find path = some (.file content')) ∧
      ggufMagic <+: content' ∧
      Fits sha256 none content' (expectedSha256 payload) config.perStreamMaxBytes ∧
      Written sha256 (incomingPath token) content' fs r.1 ∧
      r.2.2 = .answer [("pull_id", .str ("import-" ++ pull)), ("status", .str "complete"),
        ("sha256", .str (sha256 content')), ("bytes_written", .int content'.length),
        ("source", .str "local-import")]) ∨
    (∀ body, r.2.2 ≠ .answer body) ∧ Left (incomingPath token) fs r.1 := by
  dsimp only
  unfold importLocal
  split
  · exact .inr ⟨(fun body h => by cases h), fun q _ => rfl⟩
  · exact .inr ⟨(fun body h => by cases h), fun q _ => rfl⟩
  rename_i path hvalid
  obtain ⟨text, root, content, htext, hroot, hbelow, hup, hfile, hreal, hstat⟩ :=
    validate_inside hvalid
  obtain ⟨hplaced, hleft⟩ := @writeStreamAtomic_spec sha256 fs token
    (streamLocalFile (openFile disk' path)) (expectedSha256 payload) config.perStreamMaxBytes
  by_cases hfits : fs.body (incomingPath token) = none ∧
      Fits sha256 (streamLocalFile (openFile disk' path)).raises
        (streamLocalFile (openFile disk' path)).chunks.flatten (expectedSha256 payload)
        config.perStreamMaxBytes
  · obtain ⟨hwritten, hok⟩ := hplaced hfits
    rcases streamLocalFile_cases (openFile disk' path) with
      ⟨content', hopen, hmagic, hraises, hflat⟩ | ⟨-, hraises⟩
    · have hne : path ≠ [] := by
        rintro rfl
        cases hfile
      have hfits' := hfits.2
      rw [hraises, hflat] at hfits'
      rw [hflat] at hwritten hok
      refine .inl ⟨text, root, path, content, content', htext, hroot, ?_, hbelow, hfile, hreal,
        hstat, openFile_inside hopen hne hup, hmagic, hfits', hwritten, ?_⟩
      · exact fun goal hgoal => resolve_of_leadsTo hroot goesOn_names hgoal
      dsimp only
      rw [hok]
      rfl
    · exact absurd hfits.2.raises hraises
  · obtain ⟨hsame, e, herror⟩ := hleft hfits
    refine .inr ⟨fun body h => ?_, hsame⟩
    obtain ⟨sha, bytesWritten, hok, -⟩ := importOutcome_answer h
    rw [herror] at hok
    cases hok

/-- The docstring of `_validate_import_path` has it refuse what escapes by links.  Behind
a loop of links it does not look: `loop/..` is taken back by name, the rest is still a
path with a link on it, and so is what is opened. -/
example :
    let disk : Disk := [("outside", .dir [("m.gguf", .file ggufMagic)]),
      ("models", .dir [("loop", .link "loop"), ("out", .link "../outside")])]
    (validateImportPath 2 disk "/models" (.str "/models/loop/../out/m.gguf")).toOption =
        some ["models", "out", "m.gguf"] ∧
      openFile disk ["models", "out", "m.gguf"] = some ggufMagic ∧
      (validateImportPath 2 disk "/models" (.str "/models/out/m.gguf")).toOption = none := by
  decide +kernel

theorem safeEvent_failed {pullId reason : String} {event : Dict}
    (h : event ∈ [importFailed pullId reason]) : Events.safeEvent event = event := by
  rw [List.mem_singleton] at h
  rw [h]
  rfl

/-- The bus takes nothing from the events of an import. -/
theorem import_events_safe (sha256 : Bytes → String) (depth : ℕ) (disk disk' : Disk)
    (config : ImportConfig) (pull token : String) (fs : Store) (payload : Dict) :
    ∀ event ∈ (importLocal sha256 depth disk disk' config pull token fs payload).2.1,
      Events.safeEvent event = event := by
  unfold importLocal
  split
  · intro event hevent
    cases hevent
  · intro event hevent
    cases hevent
  intro event hevent
  rcases List.mem_cons.mp hevent with rfl | hevent
  · rfl
  unfold importOutcome at hevent
  split at hevent
  · rw [List.mem_singleton] at hevent
    rw [hevent]
    rfl
  · split at hevent
    · exact safeEvent_failed hevent
    · cases hevent
  · exact safeEvent_failed hevent
  · exact safeEvent_failed hevent
  · split at hevent
    · exact safeEvent_failed hevent
    · cases hevent
  · exact safeEvent_failed hevent
  · cases hevent
  · cases hevent

/-- A plain path below the root that begins like no denied one passes. -/
theorem validate_of_plain {depth : ℕ} {disk : Disk} {root text : String}
    {rootResolved : List String} {content : Bytes} (hdepth : 0 < depth)
    (hroot : resolve depth disk (names root) = some rootResolved)
    (hbelow : rootResolved <+: names text) (H : Plain disk (names text))
    (hfind : disk.find (names text) = some (.file content)) (habs : startsWith text "/" = true)
    (hdenied : deniedPathPrefixes.find? (startsWith text) = none) :
    validateImportPath depth disk root (.str text) = .ok (names text) := by
  have hempty : text ≠ "" := by
    rintro rfl
    cases habs
  have hreal : resolve depth disk (names text) = some (names text) :=
    resolve_of_plain hdepth goesOn_names H
  unfold validateImportPath
  dsimp only
  rw [if_neg hempty, habs, Bool.not_true, if_neg Bool.false_ne_true, hdenied]
  dsimp only
  rw [lstat_of_plain H, hfind]
  dsimp only
  rw [hreal, hroot]
  dsimp only
  rw [if_neg (not_not_intro hbelow), stat_of_plain H, hfind]

/-- A request for a model file below the root, by a plain path. -/
structure Importable (sha256 : Bytes → String) (depth : ℕ) (disk : Disk) (config : ImportConfig)
    (payload : Dict) (text : String) (content : Bytes) : Prop where
  path : payload.get "path" = .str text
  below : ∃ root, resolve depth disk (names config.importAllowedRoot) = some root ∧
    root <+: names text
  plain : Plain disk (names text)
  file : disk.find (names text) = some (.file content)
  absolute : startsWith text "/" = true
  allowed : deniedPathPrefixes.find? (startsWith text) = none
  magic : ggufMagic <+: content
  fits : Fits sha256 none content (expectedSha256 payload) config.perStreamMaxBytes

theorem deleteBlobRoute_of_mem {fs : Store} {payload : Dict} {sha : String} {content : Bytes}
    (hdelete : deletedSha payload = some (.str sha)) (hhex : sha256Re sha = true)
    (hread : fs.read (.blob (prefixOf 2 sha) sha) = some content) :
    deleteBlobRoute fs payload = (fs.unlink (.blob (prefixOf 2 sha) sha),
      .answer [("status", .str "deleted"), ("sha256", .str sha)]) := by
  have hne : sha ≠ "" := by
    rintro rfl
    revert hhex
    decide
  have hmem : Path.blob (prefixOf 2 sha) sha ∈ fs.links := by
    by_contra hnot
    rw [Files.read_eq, show fs.body _ = none from AList.lookup_eq_none.mpr hnot] at hread
    cases hread
  have hdeleted : deleteBlob fs sha = (fs.unlink (.blob (prefixOf 2 sha) sha), .ok true) := by
    rw [deleteBlob, finalPath, if_pos hhex]
    exact if_pos hmem
  rw [deleteBlobRoute, hdelete]
  dsimp only
  rw [if_neg hne, hdeleted]

/-- A model file is imported, and deleting it takes its blob away and nothing else: no
other file of the store has come, gone or changed. -/
theorem import_then_delete {sha256 : Bytes → String} {depth : ℕ} {disk : Disk}
    {config : ImportConfig} {text : String} {payload payload' : Dict} {content : Bytes}
    (hdepth : 0 < depth)
    (H : Importable sha256 depth disk config payload text content)
    (hdelete : deletedSha payload' = some (.str (sha256 content))) (pull : String) {token : String}
    {fs : Store} (hfree : fs.body (incomingPath token) = none) :
    let blob := Path.blob (prefixOf 2 (sha256 content)) (sha256 content)
    let r := importLocal sha256 depth disk disk config pull token fs payload
    let r' := deleteBlobRoute r.1 payload'
    r.2.2 = .answer [("pull_id", .str ("import-" ++ pull)), ("status", .str "complete"),
        ("sha256", .str (sha256 content)), ("bytes_written", .int content.length),
        ("source", .str "local-import")] ∧
      r.1.read blob = some content ∧
      r'.2 = .answer [("status", .str "deleted"), ("sha256", .str (sha256 content))] ∧
      r'.1.read blob = none ∧ ∀ q, q ≠ blob → r'.1.read q = fs.read q := by
  obtain ⟨root, hroot, hbelow⟩ := H.below
  have hvalid := validate_of_plain hdepth hroot hbelow H.plain H.file H.absolute H.allowed
  have hopen : openFile disk (names text) = some content := by
    rw [openFile, lstat_of_plain H.plain, H.file]
  have hwritten : Written sha256 (incomingPath token) content fs
        (importLocal sha256 depth disk disk config pull token fs payload).1 ∧
      (importLocal sha256 depth disk disk config pull token fs payload).2.2 =
        .answer [("pull_id", .str ("import-" ++ pull)), ("status", .str "complete"),
          ("sha256", .str (sha256 content)), ("bytes_written", .int content.length),
          ("source", .str "local-import")] := by
    rw [importLocal, H.path, hvalid]
    dsimp only
    rw [hopen]
    rcases streamLocalFile_cases (some content) with ⟨content', hsome, -, hraises, hflat⟩
      | ⟨hnot, -⟩
    · obtain rfl := Option.some.inj hsome
      obtain ⟨hplaced, -⟩ := @writeStreamAtomic_spec sha256 fs token
        (streamLocalFile (some content)) (expectedSha256 payload) config.perStreamMaxBytes
      rw [hraises, hflat] at hplaced
      obtain ⟨hwritten, hok⟩ := hplaced ⟨hfree, H.fits⟩
      rw [hok]
      exact ⟨hwritten, rfl⟩
    · exact absurd H.magic (hnot content rfl)
  obtain ⟨⟨hblob, htmp, hothers⟩, hanswer⟩ := hwritten
  dsimp only
  rw [deleteBlobRoute_of_mem hdelete H.fits.hex hblob]
  refine ⟨hanswer, hblob, rfl, Files.read_unlink_self, fun q hqb => ?_⟩
  rw [Files.read_unlink_ne hqb]
  by_cases hq : q = incomingPath token
  · rw [hq, htmp, Files.read_eq_none.mpr hfree]
  · exact hothers q hq hqb

/-- One file of four bytes, deleted by its digest. -/
theorem import_then_delete_one :
    let disk : Disk := [("models", .dir [("m.gguf", .file ggufMagic)])]
    let r := importLocal plainDigest 1 disk disk ⟨"/models", 4⟩ "0" "0" emptySystem.fs
      [("path", .str "/models/m.gguf")]
    let r' := deleteBlobRoute r.1 [("digest", .str ("sha256:" ++ plainDigest ggufMagic))]
    r.2.2 = .answer [("pull_id", .str "import-0"), ("status", .str "complete"),
        ("sha256", .str (plainDigest ggufMagic)), ("bytes_written", .int 4),
        ("source", .str "local-import")] ∧
      r'.2 = .answer [("status", .str "deleted"), ("sha256", .str (plainDigest ggufMagic))] := by
  have hnames : names "/models/m.gguf" = [] ++ ["models"] ++ ["m.gguf"] := by decide +kernel
  have hroot : names "/models" = ["models"] := by decide +kernel
  have hdigest : removePrefix ("sha256:" ++ plainDigest ggufMagic) "sha256:" =
      plainDigest ggufMagic := by
    decide +kernel
  have H : Importable plainDigest 1 [("models", .dir [("m.gguf", .file ggufMagic)])] ⟨"/models", 4⟩
      [("path", .str "/models/m.gguf")] "/models/m.gguf" ggufMagic := by
    refine ⟨rfl, ⟨["models"], ?_, ?_⟩, ?_, ?_, ?_, ?_, List.prefix_refl _, ⟨rfl, ?_, ?_, ?_⟩⟩
    · rw [resolve, hroot]
      rfl
    · rw [hnames]
      exact List.prefix_append _ _
    · rw [hnames]
      refine (Plain.nil.snoc (by decide) ?_).snoc (by decide) ?_
      · intro target h
        cases h
      · intro target h
        cases h
    · rw [hnames]
      rfl
    · decide +kernel
    · decide +kernel
    · exact Nat.le_refl _
    · decide +kernel
    · intro e he
      cases he
  have hdelete : deletedSha [("digest", .str ("sha256:" ++ plainDigest ggufMagic))] =
      some (.str (plainDigest ggufMagic)) := congrArg (fun s => some (Json.str s)) hdigest
  have h := import_then_delete Nat.one_pos H hdelete "0"
    (show emptySystem.fs.body (incomingPath "0") = none from rfl)
  exact ⟨h.1, h.2.2.1⟩

end Turbohaul.Import
