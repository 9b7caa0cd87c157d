/-
# `UiServe` — the files of the dashboard: `_serve` of `api/main.py`

`/ui/{full_path}` is answered with the file that the path leads to below the static
directory, links followed, and else with `index.html`.  The file is opened when the
answer is sent, after it was looked up.

  `_ui_security_headers`  `uiSecurityHeaders`
  `_serve`                `serve`; the tree of the look-up and that of the sending
  `ui_serves_inside`      what is sent lies below the directory
  `serve_asset`           and what lies there is sent
-/
import Turbohaul.Import
import Turbohaul.ManifestDir

namespace Turbohaul.Ui

open Blobs FileTree Import

/-- `_CSP_HEADER`. -/
def cspHeader : String :=
  "default-src 'self'; script-src 'self'; style-src 'self' 'unsafe-inline'; " ++
  "img-src 'self' data: blob:; connect-src 'self' ws: wss:; font-src 'self' data:; " ++
  "frame-ancestors 'none'; base-uri 'self'; form-action 'self'; object-src 'none'"

/-- `_ui_security_headers`. -/
def uiSecurityHeaders : List (String × String) :=
  [("Content-Security-Policy", cspHeader), ("X-Content-Type-Options", "nosniff"),
    ("X-Frame-Options", "DENY"), ("Referrer-Policy", "same-origin")]

/-- `_HASHED_ASSET_EXTENSIONS`. -/
def hashedAssetExtensions : List String :=
  [".js", ".css", ".svg", ".png", ".jpg", ".jpeg", ".gif", ".ico", ".webp", ".woff", ".woff2"]

def immutable : String × String := ("Cache-Control", "public, max-age=31536000, immutable")

def revalidate : String × String := ("Cache-Control", "no-cache, must-revalidate")

/-- A file that is sent, an `HTTPException`, or an exception. -/
inductive UiResponse
  | file (path : List String) (content : Bytes) (headers : List (String × String))
  | httpException (status : ℕ) (detail : String)
  | raised
  deriving DecidableEq

/-- `candidate.is_file()`. -/
def isFile (disk : Disk) (path : List String) : Bool :=
  match stat disk path with
  | some (.file _) => true
  | _ => false

/-- `FileResponse`, when it is sent. -/
def fileResponse (disk : Disk) (path : List String) (headers : List (String × String)) :
    UiResponse :=
  match stat disk path with
  | some (.file content) => .file path content headers
  | _ => .raised

/-- `ui_root / full_path`. -/
def joined (uiRoot : List String) (fullPath : String) : List String :=
  if isAbs fullPath then names fullPath else uiRoot ++ names fullPath

/-- Whether the name is that of a hashed asset. -/
def isHashedAsset (path : List String) : Bool :=
  (ManifestStore.pathSuffix (path.getLast?.getD "")).toLower ∈ hashedAssetExtensions

def cacheControl (path : List String) : String × String :=
  if isHashedAsset path then immutable else revalidate

/-- `index_html`, or none of it. -/
def serveIndex (uiRoot : List String) (disk disk' : Disk) : UiResponse :=
  if !isFile disk (uiRoot ++ ["index.html"]) then
    .httpException 404 "UI bundle is enabled but index.html is missing."
  else fileResponse disk' (uiRoot ++ ["index.html"]) (uiSecurityHeaders ++ [revalidate])

/-- `_serve`, with the disk when the path is looked up and when the file is sent. -/
def serve (depth : ℕ) (uiRoot : List String) (disk disk' : Disk) (fullPath : String) : UiResponse :=
  if fullPath = "" then serveIndex uiRoot disk disk'
  else match resolve depth disk (joined uiRoot fullPath) with
    | none => .raised
    | some candidate =>
      if uiRoot <+: candidate ∧ isFile disk candidate then
        fileResponse disk' candidate (uiSecurityHeaders ++ [cacheControl candidate])
      else serveIndex uiRoot disk disk'

/-! ## What is sent -/

variable {depth : ℕ} {uiRoot : List String} {disk disk' : Disk} {fullPath : String}

theorem isFile_plain {path : List String} (H : Plain disk path) :
    isFile disk path = true ↔ ∃ content, disk.find path = some (.file content) := by
  rw [isFile, stat_of_plain H]
  split
  · rename_i content h
    exact ⟨fun _ => ⟨content, h⟩, fun _ => rfl⟩
  · rename_i h
    refine ⟨(fun h => by cases h), fun ⟨content, hfind⟩ => ?_⟩
    exact absurd hfind (h content)

theorem fileResponse_file {path path' : List String} {content : Bytes}
    {headers headers' : List (String × String)}
    (h : fileResponse disk path headers = .file path' content headers') :
    path' = path ∧ headers' = headers ∧ stat disk path = some (.file content) := by
  unfold fileResponse at h
  split at h
  · rename_i content' hstat
    cases h
    exact ⟨rfl, rfl, hstat⟩
  · cases h

theorem serveIndex_file {path : List String} {content : Bytes} {headers : List (String × String)}
    (h : serveIndex uiRoot disk disk' = .file path content headers) :
    path = uiRoot ++ ["index.html"] ∧ headers = uiSecurityHeaders ++ [revalidate] := by
  unfold serveIndex at h
  split at h
  · cases h
  · obtain ⟨hpath, hheaders, -⟩ := fileResponse_file h
    exact ⟨hpath, hheaders⟩

/-- What is sent carries the headers, and is `index.html`, to be asked for anew each time,
or a file that was found by a path whose names are below the directory.  Where no loop of
links is met on the requested path, as none is if the system follows it anywhere, that is
its real path, with no link on it.  What is sent is what lies there when it is, unless
there is a link on the path by then, and only a hashed asset is kept. -/
theorem ui_serves_inside (hroot : ∀ name ∈ uiRoot, goesOn name = true) {path : List String}
    {content : Bytes} {headers : List (String × String)}
    (h : serve depth uiRoot disk disk' fullPath = .file path content headers) :
    uiSecurityHeaders <+: headers ∧
      ((path = uiRoot ++ ["index.html"] ∧ headers = uiSecurityHeaders ++ [revalidate]) ∨
        (uiRoot <+: path ∧ isFile disk path = true ∧
          (∀ goal, disk.LeadsTo (joined uiRoot fullPath) goal →
            path = goal ∧ Plain disk path ∧ ∃ content', disk.find path = some (.file content')) ∧
          ((stat disk (joined uiRoot fullPath)).isSome →
            disk.LeadsTo (joined uiRoot fullPath) path) ∧
          (Plain disk' path → disk'.find path = some (.file content)) ∧
          (immutable ∈ headers → isHashedAsset path = true))) := by
  have hindex : serveIndex uiRoot disk disk' = .file path content headers →
      uiSecurityHeaders <+: headers ∧
        path = uiRoot ++ ["index.html"] ∧ headers = uiSecurityHeaders ++ [revalidate] := by
    intro h
    obtain ⟨hpath, hheaders⟩ := serveIndex_file h
    exact ⟨hheaders ▸ List.prefix_append _ _, hpath, hheaders⟩
  unfold serve at h
  split at h
  · obtain ⟨hbegins, hfile⟩ := hindex h
    exact ⟨hbegins, .inl hfile⟩
  split at h
  · cases h
  rename_i candidate hreal
  split at h
  · rename_i hinside
    obtain ⟨hbelow, hfile⟩ := hinside
    obtain ⟨rfl, rfl, hstat⟩ := fileResponse_file h
    have hgoes : ∀ name ∈ joined uiRoot fullPath, goesOn name = true := by
      unfold joined
      split
      · exact goesOn_names
      · intro name hname
        exact (List.mem_append.mp hname).elim (hroot name) (goesOn_names name)
    have hgoal : ∀ goal, disk.LeadsTo (joined uiRoot fullPath) goal → path = goal :=
      fun goal hgoal => resolve_of_leadsTo hreal hgoes hgoal
    refine ⟨List.prefix_append _ _, .inr ⟨hbelow, hfile, fun goal hleads => ?_, fun hsome => ?_,
      fun H' => ?_, fun hkept => ?_⟩⟩
    · obtain rfl := hgoal goal hleads
      have H := leadsTo_plain hleads
      exact ⟨rfl, H, (isFile_plain H).mp hfile⟩
    · obtain ⟨node, hnode⟩ := Option.isSome_iff_exists.mp hsome
      obtain ⟨goal, hleads, -⟩ := leadsTo_of_stat hnode
      exact hgoal goal hleads ▸ hleads
    · rwa [stat_of_plain H'] at hstat
    · rw [List.mem_append, List.mem_singleton] at hkept
      rcases hkept with hkept | hkept
      · have hnone : immutable ∉ uiSecurityHeaders := by decide
        exact absurd hkept hnone
      · rw [cacheControl] at hkept
        split at hkept
        · assumption
        · exact absurd hkept (by decide)
  · obtain ⟨hbegins, hfile⟩ := hindex h
    exact ⟨hbegins, .inl hfile⟩

/-- A script below the directory is sent to be kept, a link out of it is not followed. -/
theorem ui_serves_inside_one :
    let disk : Disk := [("etc", .dir [("key", .file [7])]),
      ("ui", .dir [("index.html", .file [1]), ("app.js", .file [2]), ("out", .link "/etc/key")])]
    serve 2 ["ui"] disk disk "out" =
        .file ["ui", "index.html"] [1] (uiSecurityHeaders ++ [revalidate]) ∧
      uiSecurityHeaders <+: uiSecurityHeaders ++ [immutable] ∧
      ((["ui", "app.js"] = ["ui"] ++ ["index.html"] ∧
          uiSecurityHeaders ++ [immutable] = uiSecurityHeaders ++ [revalidate]) ∨
        (["ui"] <+: ["ui", "app.js"] ∧ isFile disk ["ui", "app.js"] = true ∧
          (∀ goal, disk.LeadsTo (joined ["ui"] "app.js") goal →
            ["ui", "app.js"] = goal ∧ Plain disk ["ui", "app.js"] ∧
              ∃ content', disk.find ["ui", "app.js"] = some (.file content')) ∧
          ((stat disk (joined ["ui"] "app.js")).isSome →
            disk.LeadsTo (joined ["ui"] "app.js") ["ui", "app.js"]) ∧
          (Plain disk ["ui", "app.js"] → disk.find ["ui", "app.js"] = some (.file [2])) ∧
          (immutable ∈ uiSecurityHeaders ++ [immutable] →
            isHashedAsset ["ui", "app.js"] = true))) := by
  intro disk
  have hroot : ∀ name ∈ ["ui"], goesOn name = true := by decide
  have hjs : serve 2 ["ui"] disk disk "app.js" =
      .file ["ui", "app.js"] [2] (uiSecurityHeaders ++ [immutable]) := by
    decide +kernel
  exact ⟨by decide +kernel, ui_serves_inside hroot hjs⟩

/-- Behind a loop of links it does not look: the same file that is refused by a link out
of the directory is sent by way of a loop. -/
example :
    let disk : Disk := [("etc", .dir [("key", .file [7])]), ("ui", .dir
      [("index.html", .file [1]), ("loop", .link "loop"), ("out", .link "/etc")])]
    serve 2 ["ui"] disk disk "out/key" =
        .file ["ui", "index.html"] [1] (uiSecurityHeaders ++ [revalidate]) ∧
      serve 2 ["ui"] disk disk "loop/../out/key" =
        .file ["ui", "out", "key"] [7] (uiSecurityHeaders ++ [revalidate]) := by
  decide +kernel

/-- A file that lies below the directory is sent, where no link is on its path. -/
theorem serve_asset {content : Bytes} (hdepth : 0 < depth)
    (hroot : ∀ name ∈ uiRoot, goesOn name = true) (hpath : fullPath ≠ "")
    (hrel : isAbs fullPath = false) (H : Plain disk (uiRoot ++ names fullPath))
    (hfile : disk.find (uiRoot ++ names fullPath) = some (.file content)) :
    serve depth uiRoot disk disk fullPath = .file (uiRoot ++ names fullPath) content
      (uiSecurityHeaders ++ [cacheControl (uiRoot ++ names fullPath)]) := by
  have hreal : resolve depth disk (joined uiRoot fullPath) = some (uiRoot ++ names fullPath) := by
    rw [joined, hrel, if_neg Bool.false_ne_true]
    refine resolve_of_plain hdepth (fun name hname => ?_) H
    exact (List.mem_append.mp hname).elim (hroot name) (goesOn_names name)
  rw [serve, if_neg hpath, hreal]
  dsimp only
  rw [if_pos ⟨List.prefix_append _ _, (isFile_plain H).mpr ⟨content, hfile⟩⟩, fileResponse,
    stat_of_plain H, hfile]

end Turbohaul.Ui
