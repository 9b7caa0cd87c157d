/-
# `ManifestStore` — the manifest file of one tag, and its three routes

`read_manifest`, `write_manifest_atomic` and `delete_manifest` of `manifest.py`
over the file of one tag, and the routes of `api/manifests.py` over them.  A
manifest is its revision and the rest of its fields; YAML and pydantic are a
`Codec`, which gives back what it dumped, and `construct`, which makes a
manifest of a payload or refuses it.

  `FileState`            what lies at `<tag>.yaml`
  `writeManifestAtomic`  the read, the check and the write of a PUT
  `Api.serve`            one request, with the fault the disk has for it
  `Api.history`          what a run of requests leaves, the newest first
-/
import Turbohaul.PyString
import Turbohaul.Register

namespace Turbohaul.ManifestStore

open Register

/-- The first character of a tag. -/
def tagHead (c : Char) : Bool := ('a' ≤ c && c ≤ 'z') || ('0' ≤ c && c ≤ '9')

/-- A later character of a tag. -/
def tagTail (c : Char) : Bool := tagHead c || c = '.' || c = '_' || c = '-'

/-- `TAG_RE.match`: `$` also stands before a last newline. -/
def tagRe (tag : String) : Bool :=
  match tag.toList with
  | [] => false
  | c :: cs =>
    let body := if cs.getLast? = some '\n' then cs.dropLast else cs
    tagHead c && decide (body.length ≤ 63) && body.all tagTail

/-- The text of `validate_tag`'s error. -/
def tagError (tag : String) : String :=
  "tag " ++ pyRepr tag ++ " fails regex ^[a-z0-9][a-z0-9._-]\x7b0,63\x7d$ - " ++
    "ASCII lowercase only, no path separators, no traversal, max 64 chars"

/-- A manifest: its revision, and its other fields. -/
structure Doc (β : Type) where
  revision : Nat
  revision_pos : 1 ≤ revision
  rest : β
deriving DecidableEq

/-- `manifest.model_copy(update={"revision": existing.revision + 1})`. -/
def Doc.bump {β : Type} (m existing : Doc β) : Doc β :=
  { m with revision := existing.revision + 1, revision_pos := Nat.le_add_left 1 _ }

/-- Why a text gives no manifest: its root is no mapping but the type named, or
the parser or the model refuses it. -/
inductive LoadError
  | notMapping (type : String)
  | invalid
deriving DecidableEq, Repr

/-- `yaml.safe_load` with `Manifest(**data)`, and `model_dump` with
`yaml.safe_dump`. -/
structure Codec (β τ : Type) where
  load : τ → Except LoadError (Doc β)
  dump : Doc β → τ
  load_dump : ∀ m, load (dump m) = .ok m

/-- What lies at the path of the tag; a symbolic link, with the text
`_safe_manifest_path` refuses it with. -/
inductive FileState (τ : Type)
  | absent
  | symlink (refusal : String)
  | file (text : τ)
deriving DecidableEq

/-- The exceptions of the three functions, as the routes tell them apart. -/
inductive Failure
  | notFound
  | validation (detail : String)
  | concurrency (detail : String)
  | other
deriving DecidableEq, Repr

/-- What the disk does to a request: nothing, or an `OSError` on reading, before
the replacement, or on the `fsync` of the directory after it. -/
inductive Disk
  | fine
  | readFails
  | writeFails
  | syncFails
deriving DecidableEq, Repr

variable {β τ π : Type}

/-- `f'"{m.revision}"'`. -/
def etag (revision : Nat) : String := "\"" ++ Nat.repr revision ++ "\""

theorem etag_inj {a b : Nat} : etag a = etag b ↔ a = b := by
  refine ⟨fun h => ?_, fun h => by rw [h]⟩
  rw [etag, etag, String.append_left_inj, String.append_right_inj] at h
  have hd : Nat.toDigits 10 a = Nat.toDigits 10 b := by
    simpa only [Nat.repr, String.ofList_inj] using h
  simpa using congrArg (Nat.ofDigitChars 10 · 0) hd

/-- `read_manifest`. -/
def readManifest (K : Codec β τ) (disk : Disk) : FileState τ → Except Failure (Doc β)
  | .absent => .error .notFound
  | .symlink refusal => .error (.validation refusal)
  | .file text =>
    if disk = .readFails then .error .other
    else match K.load text with
      | .ok m => .ok m
      | .error (.notMapping type) =>
        .error (.validation ("manifest root must be mapping, got " ++ type))
      | .error .invalid => .error .other

/-- The write of `write_manifest_atomic`, from the serialising on. -/
def replace (K : Codec β τ) (disk : Disk) (f : FileState τ) (m : Doc β) :
    Except Failure (Doc β) × FileState τ :=
  match disk with
  | .writeFails => (.error .other, f)
  | .syncFails => (.error .other, .file (K.dump m))
  | _ => (.ok m, .file (K.dump m))

/-- `write_manifest_atomic`. -/
def writeManifestAtomic (K : Codec β τ) (disk : Disk) (f : FileState τ) (m : Doc β)
    (ifMatch : Option String) : Except Failure (Doc β) × FileState τ :=
  match f with
  | .absent => replace K disk f m
  | .symlink refusal => (.error (.validation refusal), f)
  | .file _ =>
    match readManifest K disk f with
    | .error e => (.error e, f)
    | .ok existing =>
      let actual := etag existing.revision
      match ifMatch with
      | none =>
        (.error (.concurrency ("If-Match header required for manifest update " ++
          "(current ETag is " ++ actual ++ ")")), f)
      | some e =>
        if e ≠ actual then
          (.error (.concurrency ("If-Match " ++ pyRepr e ++ " does not match current ETag " ++
            pyRepr actual)), f)
        else replace K disk f (m.bump existing)

/-- `delete_manifest`. -/
def deleteManifest (disk : Disk) : FileState τ → Except Failure Bool × FileState τ
  | .absent => (.ok false, .absent)
  | .symlink refusal => (.error (.validation refusal), .symlink refusal)
  | .file text => if disk = .writeFails then (.error .other, .file text) else (.ok true, .absent)

inductive Request (π : Type)
  | get
  | put (payload : π) (ifMatch : Option String)
  | delete
deriving DecidableEq, Repr

/-- An answer: a manifest read or written, with its ETag; a deletion; an error. -/
inductive Response (β : Type)
  | manifest (m : Doc β) (etag : String)
  | written (m : Doc β) (etag : String)
  | deleted
  | error (status : Nat) (detail : String)
deriving DecidableEq

/-- What the routes run over: the tag of the URL, the codec, and
`Manifest(**payload)` with `model_tag` set to the tag, or its refusal. -/
structure Api (β τ π : Type) where
  tag : String
  codec : Codec β τ
  construct : String → π → Except String (Doc β)

/-- An exception no route catches. -/
def internalError : Response β := .error 500 "Internal Server Error"

/-- `manifest not found: {tag}`. -/
def notFound (tag : String) : Response β := .error 404 ("manifest not found: " ++ tag)

/-- `get_manifest`. -/
def Api.getManifest (A : Api β τ π) (disk : Disk) (f : FileState τ) : Response β :=
  if !tagRe A.tag then .error 400 (tagError A.tag)
  else match readManifest A.codec disk f with
    | .ok m => .manifest m (etag m.revision)
    | .error .notFound => notFound A.tag
    | .error (.validation d) => .error 400 d
    | .error _ => internalError

/-- `put_manifest`. -/
def Api.putManifest (A : Api β τ π) (disk : Disk) (f : FileState τ) (payload : π)
    (ifMatch : Option String) : Response β × FileState τ :=
  if !tagRe A.tag then (.error 400 (tagError A.tag), f)
  else match A.construct A.tag payload with
    | .error d => (.error 400 d, f)
    | .ok m =>
      match writeManifestAtomic A.codec disk f m ifMatch with
      | (.ok written, f') => (.written written (etag written.revision), f')
      | (.error (.concurrency d), f') => (.error 412 d, f')
      | (.error (.validation d), f') => (.error 400 d, f')
      | (.error _, f') => (internalError, f')

/-- `delete_manifest_route`. -/
def Api.deleteManifestRoute (A : Api β τ π) (disk : Disk) (f : FileState τ) :
    Response β × FileState τ :=
  if !tagRe A.tag then (.error 400 (tagError A.tag), f)
  else match deleteManifest disk f with
    | (.ok true, f') => (.deleted, f')
    | (.ok false, f') => (notFound A.tag, f')
    | (.error _, f') => (internalError, f')

/-- One request, read, checked and written in one step. -/
def Api.serve (A : Api β τ π) (f : FileState τ) (x : Request π × Disk) :
    Response β × FileState τ :=
  match x.1 with
  | .get => (A.getManifest x.2 f, f)
  | .put payload ifMatch => A.putManifest x.2 f payload ifMatch
  | .delete => A.deleteManifestRoute x.2 f

/-- The file after a run of requests, the newest first. -/
def Api.fileAfter (A : Api β τ π) (f : FileState τ) : List (Request π × Disk) → FileState τ
  | [] => f
  | x :: xs => (A.serve (A.fileAfter f xs) x).2

/-- The manifest and the ETag an answer carries. -/
def Response.shown : Response β → Option (String × Doc β)
  | .manifest m e => some (e, m)
  | .written m e => some (e, m)
  | _ => none

/-- What a request leaves in the history: what its answer carries, and whether
the file was replaced or removed. -/
def Api.record [DecidableEq τ] (A : Api β τ π) (f : FileState τ) (x : Request π × Disk) :
    Entry String (Doc β) :=
  { shown := (A.serve f x).1.shown, changed := decide ((A.serve f x).2 ≠ f) }

/-- The history of a run of requests, the newest first. -/
def Api.history [DecidableEq τ] (A : Api β τ π) (f : FileState τ) :
    List (Request π × Disk) → List (Entry String (Doc β))
  | [] => []
  | x :: xs => A.record (A.fileAfter f xs) x :: A.history f xs

end Turbohaul.ManifestStore
