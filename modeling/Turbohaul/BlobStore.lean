/-
# `BlobStore` — blobs named by their hash

`blob_store.py`.  A stream is written to a file of its own under `incoming`, which
takes the name of its hash when the stream has ended and everything about it is in
order.  Two functions do this, for an iterator and for an asynchronous one; of the
second a chunk is a turn of the event loop.

  `_final_path`               `finalPath`
  `write_stream_atomic`       `writeChunks`, `writeStreamAtomic`
  `write_stream_atomic_async` `Writer.start`, `Writer.resume`, `writeStreamAtomicAsync`
  `delete_blob`               `deleteBlob`
  `gc_stale_incoming`         `gcStaleIncoming`
  `list_blobs`                `listBlobs`
  `verify_blob_on_stage`      `verifyBlobOnStage`
-/
import Turbohaul.Files
import Mathlib.Data.List.Sort
import Mathlib.Data.Rat.Defs

namespace Turbohaul.Blobs

abbrev Bytes := List UInt8

/-- The paths below `sha256`. -/
inductive Path
  | incoming (name : String)
  | blob (shard name : String)
deriving DecidableEq

abbrev Store := Files Path UInt8

/-- What a writer raises: a `BlobError` of its own, what its source raised, or an
`OSError`. -/
inductive Failure
  | blobError (message : String)
  | sizeExceeded (message : String)
  | hashMismatch (message : String)
  | integrity (message : String)
  | source (message : String)
  | fileExists
  | fileNotFound
deriving DecidableEq

/-- `s[:n]`. -/
def prefixOf (n : ℕ) (s : String) : String := String.ofList (s.toList.take n)

def isHexDigit (c : Char) : Bool := ('0' ≤ c && c ≤ '9') || ('a' ≤ c && c ≤ 'f')

/-- A match of `SHA256_RE`; `$` also stands before a line break at the end. -/
def sha256Re (s : String) : Bool :=
  let digits := if s.toList.getLast? = some '\n' then s.toList.dropLast else s.toList
  digits.length = 64 && digits.all isHexDigit

/-- `_final_path`. -/
def finalPath (sha256 : String) : Except Failure Path :=
  if sha256Re sha256 then .ok (.blob (prefixOf 2 sha256) sha256)
  else .error (.blobError ("invalid sha256 hex: " ++ prefixOf 32 sha256 ++ "..."))

/-- `make_incoming_path`, of a token of `secrets`. -/
def incomingPath (token : String) : Path := .incoming ("pull_" ++ token ++ ".tmp")

/-! ## Writers -/

/-- A writer whose file is open: the chunks hashed so far, and its arguments. -/
structure Writer where
  token : String
  fd : ℕ
  hashed : Bytes
  bytesWritten : ℕ
  expected : Option String
  limit : ℕ
deriving DecidableEq

/-- `(sha256_hex, bytes_written)`, or what is raised. -/
abbrev Outcome := Except Failure (String × ℕ)

def Writer.tmp (w : Writer) : Path := incomingPath w.token

/-- A chunk in the file. -/
def Writer.took (w : Writer) (chunk : Bytes) : Writer :=
  { w with hashed := w.hashed ++ chunk, bytesWritten := w.bytesWritten + chunk.length }

/-- What is raised for a chunk that is too much. -/
def Writer.exceeded (w : Writer) (chunk : Bytes) : Failure :=
  .sizeExceeded ("stream exceeded per_stream_max_bytes (" ++ toString w.limit ++ "); have " ++
    toString (w.bytesWritten + chunk.length) ++ " bytes")

variable (sha256 : Bytes → String)

/-- The rename, and the `finally` that takes the file away if it is still there. -/
def Writer.place (w : Writer) (fs : Store) : Store × Outcome :=
  match finalPath (sha256 w.hashed) with
  | .error e => (fs.unlink w.tmp, .error e)
  | .ok final =>
    match fs.rename w.tmp final with
    | none => (fs.unlink w.tmp, .error .fileNotFound)
    | some fs => (fs.unlink w.tmp, .ok (sha256 w.hashed, w.bytesWritten))

/-- What follows the loop over the chunks. -/
def Writer.finish (w : Writer) (fs : Store) : Store × Outcome :=
  let computed := sha256 w.hashed
  match w.expected with
  | none => w.place sha256 fs
  | some expected =>
    if !sha256Re expected then
      (fs.unlink w.tmp,
        .error (.blobError ("expected_sha256 not valid hex: " ++ prefixOf 32 expected ++ "...")))
    else if computed ≠ expected then
      (fs.unlink w.tmp, .error (.hashMismatch ("computed " ++ prefixOf 16 computed ++
        "... != expected " ++ prefixOf 16 expected ++ "...")))
    else w.place sha256 fs

/-- The `os.open` of both functions.  Where the path is taken the `finally` takes that
file away. -/
def Writer.start (fs : Store) (token : String) (expected : Option String) (limit : ℕ) :
    Store × (Failure ⊕ Writer) :=
  match fs.create (incomingPath token) with
  | none => (fs.unlink (incomingPath token), .inl .fileExists)
  | some (fs, fd) => (fs, .inr ⟨token, fd, [], 0, expected, limit⟩)

/-- A source: its chunks, and what it raises in place of ending. -/
structure Source where
  chunks : List Bytes
  raises : Option String

/-- The loop of `write_stream_atomic` over the chunks that are left. -/
def writeChunks (w : Writer) (fs : Store) (raises : Option String) : List Bytes → Store × Outcome
  | [] =>
    match raises with
    | some e => (fs.unlink w.tmp, .error (.source e))
    | none => w.finish sha256 fs
  | chunk :: chunks =>
    if chunk = [] then writeChunks w fs raises chunks
    else if w.bytesWritten + chunk.length > w.limit then
      (fs.unlink w.tmp, .error (w.exceeded chunk))
    else writeChunks (w.took chunk) (fs.append w.fd chunk) raises chunks

/-- `write_stream_atomic`. -/
def writeStreamAtomic (fs : Store) (token : String) (source : Source) (expected : Option String)
    (limit : ℕ) : Store × Outcome :=
  match Writer.start fs token expected limit with
  | (fs, .inl e) => (fs, .error e)
  | (fs, .inr w) => writeChunks sha256 w fs source.raises source.chunks

/-- What the asynchronous source gives next. -/
inductive Item
  | chunk (bytes : Bytes)
  | stop
  | raised (e : String)
deriving DecidableEq

/-- A turn of `write_stream_atomic_async`. -/
def Writer.resume (w : Writer) (fs : Store) : Item → Store × (Outcome ⊕ Writer)
  | .chunk bytes =>
    if bytes = [] then (fs, .inr w)
    else if w.bytesWritten + bytes.length > w.limit then
      (fs.unlink w.tmp, .inl (.error (w.exceeded bytes)))
    else (fs.append w.fd bytes, .inr (w.took bytes))
  | .raised e => (fs.unlink w.tmp, .inl (.error (.source e)))
  | .stop =>
    match w.finish sha256 fs with
    | (fs, outcome) => (fs, .inl outcome)

/-- The items of a source. -/
def Source.items (source : Source) : List Item :=
  source.chunks.map Item.chunk ++ [match source.raises with
    | some e => .raised e
    | none => .stop]

/-- The turns of a writer that is left alone. -/
def Writer.turns : Store × (Outcome ⊕ Writer) → List Item → Store × (Outcome ⊕ Writer)
  | (fs, .inr w), item :: items => Writer.turns (w.resume sha256 fs item) items
  | s, _ => s

/-- `write_stream_atomic_async`, left alone. -/
def writeStreamAtomicAsync (fs : Store) (token : String) (source : Source)
    (expected : Option String) (limit : ℕ) : Store × (Outcome ⊕ Writer) :=
  match Writer.start fs token expected limit with
  | (fs, .inl e) => (fs, .inl (.error e))
  | (fs, .inr w) => Writer.turns sha256 (fs, .inr w) source.items

/-! ## The rest of the store -/

/-- `delete_blob`. -/
def deleteBlob (fs : Store) (sha : String) : Store × Except Failure Bool :=
  match finalPath sha with
  | .error e => (fs, .error e)
  | .ok path => if path ∈ fs.links then (fs.unlink path, .ok true) else (fs, .ok false)

/-- The names under `incoming`. -/
def incomingNames (fs : Store) : List String :=
  fs.links.keys.filterMap fun
    | .incoming name => some name
    | .blob _ _ => none

/-- `gc_stale_incoming`; `mtime` is what `stat` says of a name. -/
def gcStaleIncoming (now maxAge : ℚ) (mtime : String → ℚ) (fs : Store) : Store × ℕ :=
  (incomingNames fs).foldl (fun (s : Store × ℕ) name =>
    if now - mtime name > maxAge then (s.1.unlink (.incoming name), s.2 + 1) else s) (fs, 0)

/-- `list_blobs`. -/
def listBlobs (fs : Store) : List String :=
  (fs.links.keys.filterMap fun
    | .blob shard name =>
      if shard.length = 2 && sha256Re name then some name else none
    | .incoming _ => none).insertionSort fun a b => a ≤ b

/-- `verify_blob_on_stage`. -/
def verifyBlobOnStage (fs : Store) (expected : String) : Except Failure Bool :=
  match finalPath expected with
  | .error e => .error e
  | .ok path =>
    match fs.read path with
    | none => .error (.integrity ("blob missing at stage time: " ++ expected))
    | some bytes =>
      let actual := sha256 bytes
      if actual ≠ expected then
        .error (.integrity ("blob hash drift: on-disk " ++ prefixOf 16 actual ++
          "... != expected " ++ prefixOf 16 expected ++ "..."))
      else .ok true

/-! ## Left alone, the two writers are one -/

variable {sha256}

theorem Writer.turns_over (fs : Store) (outcome : Outcome) (items : List Item) :
    Writer.turns sha256 (fs, .inl outcome) items = (fs, .inl outcome) := by
  cases items <;> rfl

theorem Writer.turns_chunks (w : Writer) (fs : Store) (raises : Option String)
    (chunks : List Bytes) :
    Writer.turns sha256 (fs, .inr w) (Source.items ⟨chunks, raises⟩)
      = ((writeChunks sha256 w fs raises chunks).1,
      .inl (writeChunks sha256 w fs raises chunks).2) := by
  induction chunks generalizing w fs with
  | nil => cases raises <;> rfl
  | cons chunk chunks ih =>
    show Writer.turns sha256 (w.resume sha256 fs (.chunk chunk)) (Source.items ⟨chunks, raises⟩) = _
    rw [Writer.resume, writeChunks]
    split
    · exact ih w fs
    · split
      · exact Writer.turns_over _ _ _
      · exact ih _ _

/-- For the same chunks the two functions give the same result and leave the same store. -/
theorem writeStreamAtomicAsync_eq (fs : Store) (token : String) (source : Source)
    (expected : Option String) (limit : ℕ) :
    writeStreamAtomicAsync sha256 fs token source expected limit
      = ((writeStreamAtomic sha256 fs token source expected limit).1,
        .inl (writeStreamAtomic sha256 fs token source expected limit).2) := by
  rw [writeStreamAtomicAsync, writeStreamAtomic]
  cases h : Writer.start fs token expected limit with
  | mk fs' r =>
    cases r with
    | inl e => rfl
    | inr w => exact Writer.turns_chunks w fs' source.raises source.chunks

end Turbohaul.Blobs
