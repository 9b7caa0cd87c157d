/-
# `ModelEditor` — manifests edited in browsers

`Models.tsx` beside the routes of the manifests.  An editor shows what a GET answered,
saves what was typed under the ETag that came with it, and then asks again.  Any number
of editors are open, each may be switched to another tag while requests of it are on
their way, requests fail, and other clients read, write and delete.

  `onChangeFlag`, `onToggleFlag`, `setRawJson`, `setRawMode`   `Edit`
  the body of the effect, and after its `await`                `Step.switch`, `Editor.load`
  `onSave`                            `Editor.toSave`, `Step.save`, and `settle` for the rest
  `Site`                              what the routes run over
  `save_replaces_base`

Nothing in an editor says which tag its manifest was read for: one that is switched and
saved before the other manifest is there puts the first over the second where the two
have the same revision (`switched_save_overwrites`).
-/
import Turbohaul.ManifestEtags
import Turbohaul.Json
import Mathlib.Logic.Function.Basic

namespace Turbohaul.ModelEditor

open ManifestStore Register

variable {β τ : Type}

/-- What `onToggleFlag` reads of an entry of `FLAGS_SCHEMA`. -/
structure FlagSpec where
  name : String
  default : Option Json

/-- The state of a `ModelEditor`; of `rawJson`, the object that `JSON.parse` makes of it.
The last two are whether it was ever switched, and what its manifest was read from. -/
structure Editor (β : Type) where
  tag : String
  manifest : Option Dict := none
  etag : String := ""
  flagValues : Dict := []
  enabledFlags : List String := []
  raw : Option Dict := none
  rawMode : Bool := false
  saving : Bool := false
  switched : Bool := false
  base : Option (String × Doc β) := none

/-- `m.llama_server_flags || {}`. -/
def flagsOf (m : Dict) : Dict :=
  match m.get "llama_server_flags" with
  | .obj flags => flags
  | _ => []

/-- What a reply of `getManifest` sets. -/
def Editor.load (e : Editor β) (m : Dict) (etag : String) : Editor β :=
  { e with
    manifest := some m
    etag
    flagValues := flagsOf m
    enabledFlags := (flagsOf m).map Prod.fst
    raw := some m }

/-- `x ?? y`. -/
def coalesce : Json → Json → Json
  | .null, y => y
  | x, _ => x

/-- `v === undefined || v === '' || v === null`. -/
def blank : Json → Bool
  | .null => true
  | .str s => s = ""
  | _ => false

/-- `newFlags`. -/
def Editor.newFlags (e : Editor β) : Dict :=
  (e.enabledFlags.map fun name => (name, e.flagValues.get name)).filter fun kv => !blank kv.2

/-- The manifest with the flags that are typed. -/
def Editor.structured (e : Editor β) (m : Dict) : Dict :=
  let ctxSize := coalesce (e.newFlags.get "ctx_size") (coalesce (m.get "context_size") (.int 4096))
  (m.set "context_size" ctxSize).set "llama_server_flags" (.obj e.newFlags)

/-- `toSave`, none where it throws. -/
def Editor.toSave (e : Editor β) (m : Dict) : Option Dict :=
  (if e.rawMode then e.raw else some (e.structured m)).map (·.set "model_tag" (.str e.tag))

/-- What is typed and clicked. -/
inductive Edit
  | changeFlag (name : String) (v : Json)
  | toggleFlag (name : String) (enable : Bool)
  | rawJson (parsed : Option Dict)
  | rawMode

/-- The handlers. -/
def Editor.edit (schema : List FlagSpec) (e : Editor β) : Edit → Editor β
  | .changeFlag name v => { e with flagValues := e.flagValues.set name v }
  | .toggleFlag name true =>
    { e with
      enabledFlags := if name ∈ e.enabledFlags then e.enabledFlags else e.enabledFlags ++ [name]
      flagValues := match (schema.find? (·.name = name)).bind (·.default) with
        | some v => if e.flagValues.has name then e.flagValues else e.flagValues.set name v
        | none => e.flagValues }
  | .toggleFlag name false => { e with enabledFlags := e.enabledFlags.filter (· ≠ name) }
  | .rawJson raw => { e with raw }
  | .rawMode => { e with rawMode := !e.rawMode }

/-- What the routes of all tags run over, and `model_dump`. -/
structure Site (β τ : Type) where
  codec : Codec β τ
  construct : String → Dict → Except String (Doc β)
  modelDump : Doc β → Dict
  files : String → FileState τ

/-- The routes of one tag. -/
def Site.api (S : Site β τ) (tag : String) : Api β τ Dict := ⟨tag, S.codec, S.construct⟩

/-- The file of a tag after requests, the newest first. -/
def Site.file (S : Site β τ) (tag : String) (xs : List (Request Dict × Disk)) : FileState τ :=
  (S.api tag).fileAfter (S.files tag) xs

/-- What a request of an editor is for: the effect, a save, or the reading after it. -/
inductive Purpose (β : Type)
  | load
  | put (payload : Dict) (ifMatch : Option String) (rawMode switched : Bool)
      (base : Option (String × Doc β))
  | reload

/-- A request of an editor on its way; its answer once there is one, none of it if it
failed. -/
structure Trip (β : Type) where
  editor : ℕ
  tag : String
  purpose : Purpose β
  answer : Option (Option (Response β)) := none

/-- The request of a save. -/
def Editor.put (e : Editor β) (i : ℕ) (payload : Dict) : Trip β where
  editor := i
  tag := e.tag
  purpose := .put payload (if e.etag = "" then none else some e.etag) e.rawMode e.switched e.base

/-- The request that is sent. -/
def Trip.request (t : Trip β) : Request Dict :=
  match t.purpose with
  | .put payload ifMatch _ _ _ => .put payload ifMatch
  | _ => .get

/-- The requests of each tag that were served, the newest first. -/
abbrev Log := String → List (Request Dict × Disk)

/-- A save that was served, after all of `before`. -/
structure Save (β : Type) where
  tag : String
  payload : Dict
  ifMatch : Option String
  disk : Disk
  before : Log
  rawMode : Bool
  switched : Bool
  base : Option (String × Doc β)

/-- The save that a trip is, if it is one. -/
def Trip.save? (t : Trip β) (disk : Disk) (before : Log) : Option (Save β) :=
  match t.purpose with
  | .put payload ifMatch rawMode switched base =>
    some ⟨t.tag, payload, ifMatch, disk, before, rawMode, switched, base⟩
  | _ => none

/-- The file that the save found. -/
def Save.found (S : Site β τ) (v : Save β) : FileState τ := S.file v.tag (v.before v.tag)

/-- What it did. -/
def Save.served (S : Site β τ) (v : Save β) : Response β × FileState τ :=
  (S.api v.tag).serve (v.found S) (.put v.payload v.ifMatch, v.disk)

/-- It was answered with success or touched the file. -/
def Save.Took (S : Site β τ) (v : Save β) : Prop :=
  (∃ m e, (v.served S).1 = .written m e) ∨ (v.served S).2 ≠ v.found S

/-- The editors that are open, their requests, and what was served, with the saves
among it. -/
structure State (β : Type) where
  editors : ℕ → Option (Editor β) := fun _ => none
  opened : ℕ := 0
  trips : List (Trip β) := []
  log : Log := fun _ => []
  saves : List (Save β) := []

/-- A request is served. -/
def State.serve (s : State β) (tag : String) (x : Request Dict × Disk) : State β :=
  { s with log := Function.update s.log tag (x :: s.log tag) }

/-- What a request of an editor is answered. -/
def Site.answer (S : Site β τ) (s : State β) (t : Trip β) (disk : Disk) : Response β :=
  ((S.api t.tag).serve (S.file t.tag (s.log t.tag)) (t.request, disk)).1

/-- It takes up the manifest that a reading of the tag was answered. -/
def Editor.take (S : Site β τ) (e : Editor β) (tag : String) : Option (Response β) → Editor β
  | some (.manifest m etag) => { e.load (S.modelDump m) etag with base := some (tag, m) }
  | _ => e

/-- A save that succeeded goes on. -/
def Editor.saved (e : Editor β) : Option (Response β) → Editor β
  | some (.written _ _) => e
  | _ => { e with saving := false }

/-- What an editor does with an answer. -/
def Editor.settle (S : Site β τ) (e : Editor β) (t : Trip β) (answer : Option (Response β)) :
    Editor β :=
  match t.purpose with
  | .load => e.take S t.tag answer
  | .put .. => e.saved answer
  | .reload => { e.take S t.tag answer with saving := false }

/-- And what it asks then. -/
def Trip.next (t : Trip β) (answer : Option (Response β)) : List (Trip β) :=
  match t.purpose, answer with
  | .put .., some (.written _ _) => [{ editor := t.editor, tag := t.tag, purpose := .reload }]
  | _, _ => []

variable (S : Site β τ) (schema : List FlagSpec)

/-- What may happen. -/
inductive Step : State β → State β → Prop
  | start (s : State β) (tag : String) :
      Step s { s with
        editors := Function.update s.editors s.opened (some { tag })
        opened := s.opened + 1
        trips := s.trips ++ [{ editor := s.opened, tag, purpose := .load }] }
  | switch {s : State β} {i : ℕ} {e : Editor β} (tag : String) :
      s.editors i = some e → tag ≠ e.tag →
      Step s { s with
        editors := Function.update s.editors i (some { e with tag, switched := true })
        trips := s.trips ++ [{ editor := i, tag, purpose := .load }] }
  | close (s : State β) (i : ℕ) : Step s { s with editors := Function.update s.editors i none }
  | edit {s : State β} {i : ℕ} {e : Editor β} (x : Edit) : s.editors i = some e →
      Step s { s with editors := Function.update s.editors i (some (e.edit schema x)) }
  | save {s : State β} {i : ℕ} {e : Editor β} {m payload : Dict} :
      s.editors i = some e → e.saving = false → e.manifest = some m → e.toSave m = some payload →
      Step s { s with
        editors := Function.update s.editors i (some { e with saving := true })
        trips := s.trips ++ [e.put i payload] }
  | serve {s : State β} {before after : List (Trip β)} {t : Trip β} (disk : Disk) :
      s.trips = before ++ t :: after → t.answer = none →
      Step s { s.serve t.tag (t.request, disk) with
        trips := before ++ { t with answer := some (some (S.answer s t disk)) } :: after
        saves := s.saves ++ (t.save? disk s.log).toList }
  | fail {s : State β} {before after : List (Trip β)} {t : Trip β} :
      s.trips = before ++ t :: after →
      Step s { s with trips := before ++ { t with answer := some none } :: after }
  | settle {s : State β} {before after : List (Trip β)} {t : Trip β}
      {answer : Option (Response β)} :
      s.trips = before ++ t :: after → t.answer = some answer →
      Step s { s with
        editors := Function.update s.editors t.editor
          ((s.editors t.editor).map (·.settle S t answer))
        trips := before ++ after ++ t.next answer }
  | other (s : State β) (tag : String) (x : Request Dict × Disk) : Step s (s.serve tag x)

/-- What comes of a site without editors. -/
inductive Reachable : State β → Prop
  | init : Reachable {}
  | step {s s' : State β} : Reachable s → Step S schema s s' → Reachable s'

/-! ## What a save replaces -/

theorem Editor.take_tag (S : Site β τ) (e : Editor β) (tag : String)
    (answer : Option (Response β)) :
    (e.take S tag answer).tag = e.tag ∧ (e.take S tag answer).switched = e.switched := by
  unfold Editor.take
  split
  · exact ⟨rfl, rfl⟩
  · exact ⟨rfl, rfl⟩

theorem Editor.saved_read (e : Editor β) (answer : Option (Response β)) :
    ∃ saving, e.saved answer = { e with saving } := by
  unfold Editor.saved
  split
  · exact ⟨e.saving, rfl⟩
  · exact ⟨false, rfl⟩

theorem Editor.settle_tag (S : Site β τ) (e : Editor β) (t : Trip β)
    (answer : Option (Response β)) :
    (e.settle S t answer).tag = e.tag ∧ (e.settle S t answer).switched = e.switched := by
  unfold Editor.settle
  split
  · exact e.take_tag S t.tag answer
  · obtain ⟨saving, h⟩ := e.saved_read answer
    rw [h]
    exact ⟨rfl, rfl⟩
  · exact e.take_tag S t.tag answer

/-- A save that took put a manifest down. -/
theorem Save.Took.puts {S : Site β τ} {v : Save β} (h : v.Took S) :
    ∃ m w, S.construct v.tag v.payload = .ok m ∧ Puts S.codec m v.ifMatch (v.found S) w ∧
      (v.served S).2 = .file (S.codec.dump w) := by
  rcases serve_cases (S.api v.tag) (v.found S) (.put v.payload v.ifMatch, v.disk) with
    ⟨hkept, hs⟩ | ⟨p, im, m, w, hx, hm, hw, hfile, -⟩ | ⟨hx, -, -⟩
  · exfalso
    rcases h with ⟨m, e, hwritten⟩ | hne
    · rcases hs with hs | ⟨_, hx, -, -⟩
      · rw [show (S.api v.tag).serve (v.found S) _ = v.served S from rfl, hwritten] at hs
        cases hs
      · cases hx
    · exact hne hkept
  · cases hx
    exact ⟨m, w, hm, hw, hfile⟩
  · cases hx

variable {S schema} [DecidableEq τ]

/-- An answer showed the manifest, under its ETag. -/
def Shows (S : Site β τ) (log : Log) (tag : String) (m : Doc β) : Prop :=
  ∃ entry ∈ (S.api tag).history (S.files tag) (log tag), entry.shown = some (etag m.revision, m)

/-- What the structured form does not keep of a manifest. -/
def typed : List String := ["model_tag", "context_size", "llama_server_flags"]

/-- What a save is made of: a manifest that was shown, its ETag, and what was typed. -/
structure Held (S : Site β τ) (log : Log) (tag : String) (payload : Dict) (ifMatch : Option String)
    (rawMode switched : Bool) (base : Option (String × Doc β)) : Prop where
  read : ∃ b, base = some b ∧ Shows S log b.1 b.2 ∧ ifMatch = some (etag b.2.revision) ∧
    (switched = false → b.1 = tag) ∧
    (rawMode = false → ∀ k, k ∉ typed → payload.get k = (S.modelDump b.2).get k)
  named : payload.get "model_tag" = .str tag

/-- What an editor shows. -/
structure Editor.Sound (S : Site β τ) (log : Log) (e : Editor β) : Prop where
  read : ∀ m, e.manifest = some m → ∃ b, e.base = some b ∧ m = S.modelDump b.2 ∧
    e.etag = ManifestStore.etag b.2.revision ∧ Shows S log b.1 b.2 ∧
    (e.switched = false → b.1 = e.tag)

/-- A request on its way. -/
structure Trip.Sound (S : Site β τ) (s : State β) (t : Trip β) : Prop where
  shown : ∀ m e, t.answer = some (some (.manifest m e)) → e = etag m.revision ∧
    Shows S s.log t.tag m
  held : ∀ payload ifMatch rawMode switched base,
    t.purpose = .put payload ifMatch rawMode switched base →
      Held S s.log t.tag payload ifMatch rawMode switched base
  own : ∀ e, s.editors t.editor = some e → e.switched = false → t.tag = e.tag
  opened : t.editor < s.opened

structure Sound (S : Site β τ) (s : State β) : Prop where
  editors : ∀ i e, s.editors i = some e → e.Sound S s.log
  unopened : ∀ i, s.opened ≤ i → s.editors i = none
  trips : ∀ t ∈ s.trips, t.Sound S s
  saves : ∀ v ∈ s.saves,
    Held S v.before v.tag v.payload v.ifMatch v.rawMode v.switched v.base ∧
      (.put v.payload v.ifMatch, v.disk) :: v.before v.tag <:+ s.log v.tag

theorem etag_ne_empty (n : ℕ) : etag n ≠ "" := by
  intro h
  have hlen := congrArg String.length h
  rw [etag, String.length_append, String.length_append] at hlen
  have hquote : "\"".length = 1 := by decide
  rw [hquote] at hlen
  simp only [String.length_empty] at hlen
  omega

section

variable {log : Log} {tag : String} {x : Request Dict × Disk} {m : Doc β}

theorem update_log (log : Log) (tag tag' : String) (x : Request Dict × Disk) :
    log tag' <:+ Function.update log tag (x :: log tag) tag' := by
  by_cases h : tag' = tag
  · subst h
    rw [Function.update_self]
    exact List.suffix_cons _ _
  · rewrite [Function.update_of_ne h]
    exact List.suffix_refl _

theorem Shows.serve (h : Shows S log tag' m) :
    Shows S (Function.update log tag (x :: log tag)) tag' m := by
  obtain ⟨entry, hentry, hshown⟩ := h
  refine ⟨entry, ?_, hshown⟩
  by_cases hne : tag' = tag
  · subst hne
    rw [Function.update_self]
    exact List.mem_cons_of_mem _ hentry
  · rwa [Function.update_of_ne hne]

/-- What is answered is in the history then. -/
theorem shows_answer {e : String} (h : ((S.api tag).serve (S.file tag (log tag)) x).1.shown = some
    (e, m)) :
    e = etag m.revision ∧ Shows S (Function.update log tag (x :: log tag)) tag m := by
  have hetag : e = etag m.revision := by
    rcases serve_cases (S.api tag) (S.file tag (log tag)) x with
      ⟨-, hs | ⟨m', -, -, hs⟩⟩ | ⟨-, -, -, w, -, -, -, -, hs | hs⟩ | ⟨-, -, hs⟩
    · rw [hs] at h
      cases h
    · rw [hs] at h
      cases h
      rfl
    · rw [hs] at h
      cases h
    · rw [hs] at h
      cases h
      rfl
    · rw [hs] at h
      cases h
  subst hetag
  refine ⟨rfl, (S.api tag).record (S.file tag (log tag)) x, ?_, h⟩
  rw [Function.update_self]
  exact List.mem_cons_self

theorem Held.serve {payload : Dict} {ifMatch : Option String} {rawMode switched : Bool}
    {base : Option (String × Doc β)} (h : Held S log tag' payload ifMatch rawMode switched base) :
    Held S (Function.update log tag (x :: log tag)) tag' payload ifMatch rawMode switched base := by
  obtain ⟨⟨b, hbase, hshows, hrest⟩, hnamed⟩ := h
  exact ⟨⟨b, hbase, hshows.serve, hrest⟩, hnamed⟩

theorem Editor.Sound.serve {e : Editor β} (h : e.Sound S log) :
    e.Sound S (Function.update log tag (x :: log tag)) where
  read m hm := by
    obtain ⟨b, hbase, hdump, hetag, hshows, hown⟩ := h.read m hm
    exact ⟨b, hbase, hdump, hetag, hshows.serve, hown⟩

end

theorem Editor.structured_get (e : Editor β) (m : Dict) {k : String} (hk : k ∉ typed) :
    (e.structured m).get k = m.get k := by
  simp only [typed, List.mem_cons, List.not_mem_nil, or_false, not_or] at hk
  rw [structured, Dict.get_set_ne hk.2.2, Dict.get_set_ne hk.2.1]

theorem get_of_mem {d : Dict} (hkeys : (d.map Prod.fst).Nodup) {kv : String × Json} (hkv : kv ∈ d) :
    (kv.1, d.get kv.1) = kv := by
  induction d with
  | nil => cases hkv
  | cons kv' d ih =>
    obtain ⟨hnew, hkeys⟩ := List.nodup_cons.mp hkeys
    rw [Dict.get_cons]
    rcases List.mem_cons.mp hkv with rfl | hkv
    · rw [if_pos rfl]
    · have hne : kv'.1 ≠ kv.1 := fun h => hnew (h ▸ List.mem_map_of_mem hkv)
      rw [if_neg hne, ih hkeys hkv]

/-- The flags that were read, if nobody typed. -/
theorem Editor.newFlags_load (e : Editor β) {m : Dict} (et : String)
    (hkeys : ((flagsOf m).map Prod.fst).Nodup) :
    (e.load m et).newFlags = (flagsOf m).filter fun kv => !blank kv.2 := by
  rw [newFlags]
  show (((flagsOf m).map Prod.fst).map _).filter _ = _
  rw [List.map_map]
  exact congrArg _ ((List.map_congr_left fun kv hkv => get_of_mem hkeys hkv).trans (List.map_id _))

/-- A manifest that was read and saved with nothing typed, but for the window: that
becomes the flag's. -/
theorem Editor.structured_untouched (e : Editor β) {m flags : Dict} (et : String)
    (hflags : m.get "llama_server_flags" = .obj flags) (hkeys : (flags.map Prod.fst).Nodup)
    (hfilled : ∀ kv ∈ flags, blank kv.2 = false) {k : String} (hk : k ≠ "context_size") :
    ((e.load m et).structured m).get k = m.get k := by
  have hof : flagsOf m = flags := by rw [flagsOf, hflags]
  have hnew : (e.load m et).newFlags = flags := by
    rw [newFlags_load e et (hof ▸ hkeys), hof]
    refine List.filter_eq_self.mpr fun kv hkv => ?_
    rw [hfilled kv hkv]
    rfl
  by_cases hflag : k = "llama_server_flags"
  · rw [hflag, structured, Dict.get_set_self, hnew, hflags]
  · rw [structured, Dict.get_set_ne hflag, Dict.get_set_ne hk]

/-- What an editor that is right about its manifest saves. -/
theorem Editor.Sound.put {e : Editor β} {log : Log} (h : e.Sound S log) {m payload : Dict}
    (hm : e.manifest = some m) (hpayload : e.toSave m = some payload) :
    Held S log e.tag payload (if e.etag = "" then none else some e.etag) e.rawMode e.switched
      e.base := by
  obtain ⟨b, hbase, rfl, hetag, hshows, hown⟩ := h.read m hm
  obtain ⟨body, hbody, rfl⟩ := Option.map_eq_some_iff.mp hpayload
  refine ⟨⟨b, hbase, hshows, ?_, hown, fun hraw k hk => ?_⟩, Dict.get_set_self _ _ _⟩
  · rw [hetag, if_neg (etag_ne_empty _)]
  · rw [hraw, if_neg Bool.false_ne_true] at hbody
    obtain rfl := Option.some.inj hbody
    have hne : k ≠ "model_tag" := fun h => hk (h ▸ List.mem_cons_self)
    rw [Dict.get_set_ne hne, structured_get e _ hk]

/-- Typing leaves what was read. -/
theorem Editor.Sound.edit {e : Editor β} {log : Log} (h : e.Sound S log) (schema : List FlagSpec)
    (x : Edit) : (e.edit schema x).Sound S log := by
  cases x with
  | changeFlag name v => exact ⟨h.read⟩
  | toggleFlag name enable =>
    cases enable with
    | true => exact ⟨h.read⟩
    | false => exact ⟨h.read⟩
  | rawJson raw => exact ⟨h.read⟩
  | rawMode => exact ⟨h.read⟩

theorem Editor.edit_tag (schema : List FlagSpec) (e : Editor β) (x : Edit) :
    (e.edit schema x).tag = e.tag ∧ (e.edit schema x).switched = e.switched := by
  cases x with
  | changeFlag name v => exact ⟨rfl, rfl⟩
  | toggleFlag name enable =>
    cases enable with
    | true => exact ⟨rfl, rfl⟩
    | false => exact ⟨rfl, rfl⟩
  | rawJson raw => exact ⟨rfl, rfl⟩
  | rawMode => exact ⟨rfl, rfl⟩

/-- An editor that is right about what it shows, and was not if it was switched. -/
theorem Editor.Sound.take {e : Editor β} {log : Log} (h : e.Sound S log) {tag : String}
    {answer : Option (Response β)} (hown : e.switched = false → tag = e.tag)
    (hshown : ∀ m et, answer = some (.manifest m et) →
      et = ManifestStore.etag m.revision ∧ Shows S log tag m) :
      (e.take S tag answer).Sound S log := by
  unfold Editor.take
  split
  · rename_i m et
    obtain ⟨het, hshows⟩ := hshown m et rfl
    exact ⟨fun _ hm => ⟨(tag, m), rfl, (Option.some.inj hm).symm, het, hshows, hown⟩⟩
  · exact h

theorem Editor.Sound.settle {e : Editor β} {s : State β} {t : Trip β} {answer : Option (Response β)}
    (h : e.Sound S s.log) (ht : t.Sound S s) (he : s.editors t.editor = some e)
    (hanswer : t.answer = some answer) : (e.settle S t answer).Sound S s.log := by
  have htake : (e.take S t.tag answer).Sound S s.log := by
    refine h.take (ht.own e he) fun m et hm => ht.shown m et ?_
    rw [hanswer, hm]
  unfold Editor.settle
  split
  · exact htake
  · obtain ⟨saving, hsaved⟩ := e.saved_read answer
    rw [hsaved]
    exact ⟨h.read⟩
  · exact ⟨htake.read⟩

theorem Trip.next_cases (t : Trip β) (answer : Option (Response β)) :
    ∀ t' ∈ t.next answer, t'.editor = t.editor ∧ t'.tag = t.tag ∧ t'.purpose = .reload ∧
      t'.answer = none := by
  intro t' ht'
  unfold next at ht'
  split at ht'
  · obtain rfl := List.mem_singleton.mp ht'
    exact ⟨rfl, rfl, rfl, rfl⟩
  · cases ht'

/-- A request keeps what is known of it in a state with the same log whose editors are
the same as far as their tags go. -/
theorem Trip.Sound.congr {s s' : State β} {t : Trip β} (h : t.Sound S s) (hlog : s'.log = s.log)
    (hopened : s.opened ≤ s'.opened)
    (heditors : ∀ e', s'.editors t.editor = some e' → e'.switched = false →
      ∃ e, s.editors t.editor = some e ∧ e.switched = false ∧ e.tag = e'.tag) : t.Sound S s' where
  shown := hlog ▸ h.shown
  held := hlog ▸ h.held
  own e' he' hswitched := by
    obtain ⟨e, he, hunswitched, htag⟩ := heditors e' he' hswitched
    exact htag ▸ h.own e he hunswitched
  opened := Nat.lt_of_lt_of_le h.opened hopened

/-- Another request is served. -/
theorem Trip.Sound.serve {s : State β} {t : Trip β} (h : t.Sound S s) (tag : String)
    (x : Request Dict × Disk) : t.Sound S (s.serve tag x) where
  shown m e hanswer := ⟨(h.shown m e hanswer).1, (h.shown m e hanswer).2.serve⟩
  held payload ifMatch rawMode switched base hput :=
    (h.held payload ifMatch rawMode switched base hput).serve
  own := h.own
  opened := h.opened

namespace Sound

variable {s : State β}

theorem init : Sound S ({} : State β) where
  editors i e he := by cases he
  unopened i _ := rfl
  trips t ht := by cases ht
  saves v hv := by cases hv

theorem opened (H : Sound S s) {i : ℕ} {e : Editor β} (he : s.editors i = some e) :
    i < s.opened := by
  by_contra hge
  rw [H.unopened i (Nat.le_of_not_lt hge)] at he
  cases he

/-- A request is served. -/
theorem serve (H : Sound S s) (tag : String) (x : Request Dict × Disk) :
    Sound S (s.serve tag x) where
  editors i e he := (H.editors i e he).serve
  unopened := H.unopened
  trips t ht := (H.trips t ht).serve tag x
  saves v hv := ⟨(H.saves v hv).1, (H.saves v hv).2.trans (update_log _ _ _ _)⟩

/-- One editor changes, and new requests are sent. -/
theorem update (H : Sound S s) {i n : ℕ} {e? : Option (Editor β)} {trips : List (Trip β)}
    (hn : s.opened ≤ n) (hi : e?.isSome → i < n) (hsound : ∀ e, e? = some e → e.Sound S s.log)
    (htag : i < s.opened → ∀ e, e? = some e → e.switched = false →
      ∃ e₀, s.editors i = some e₀ ∧ e₀.switched = false ∧ e₀.tag = e.tag)
    (htrips : ∀ t ∈ trips, t ∈ s.trips ∨
      t.Sound S { s with editors := Function.update s.editors i e?, opened := n, trips }) :
    Sound S { s with editors := Function.update s.editors i e?, opened := n, trips } where
  editors j e he := by
    have he : Function.update s.editors i e? j = some e := he
    by_cases hj : j = i
    · rw [hj, Function.update_self] at he
      exact hsound e he
    · rw [Function.update_of_ne hj] at he
      exact H.editors j e he
  unopened j hle := by
    show Function.update s.editors i e? j = none
    by_cases hj : j = i
    · rw [hj, Function.update_self]
      cases e? with
      | none => rfl
      | some e => exact absurd (hi rfl) (Nat.not_lt.mpr (hj ▸ hle))
    · rw [Function.update_of_ne hj]
      exact H.unopened j (Nat.le_trans hn hle)
  trips t ht := by
    rcases htrips t ht with hold | hnew
    · refine (H.trips t hold).congr rfl hn fun e' he' hswitched => ?_
      have he' : Function.update s.editors i e? t.editor = some e' := he'
      by_cases hj : t.editor = i
      · rw [hj, Function.update_self] at he'
        rw [hj]
        exact htag (hj ▸ (H.trips t hold).opened) e' he' hswitched
      · rw [Function.update_of_ne hj] at he'
        exact ⟨e', he', hswitched, rfl⟩
    · exact hnew
  saves := H.saves

/-- A request is answered. -/
theorem replied (H : Sound S s) {before after : List (Trip β)} {t : Trip β}
    {answer : Option (Option (Response β))} (ht : s.trips = before ++ t :: after)
    (hshown : ∀ m e, answer = some (some (.manifest m e)) →
      e = etag m.revision ∧ Shows S s.log t.tag m) :
    Sound S { s with trips := before ++ { t with answer } :: after } where
  editors := H.editors
  unopened := H.unopened
  trips t' ht' := by
    have hsound := H.trips t (ht ▸ List.mem_append_right _ List.mem_cons_self)
    rcases List.mem_append.mp ht' with hmem | hmem
    · exact (H.trips t' (ht ▸ List.mem_append_left _ hmem)).congr rfl (Nat.le_refl _)
        fun e he hswitched => ⟨e, he, hswitched, rfl⟩
    · rcases List.mem_cons.mp hmem with rfl | hmem
      · exact ⟨hshown, hsound.held, hsound.own, hsound.opened⟩
      · exact (H.trips t' (ht ▸ List.mem_append_right _ (List.mem_cons_of_mem _ hmem))).congr rfl
          (Nat.le_refl _) fun e he hswitched => ⟨e, he, hswitched, rfl⟩
  saves := H.saves

/-- A save is served. -/
theorem saved (H : Sound S s) {t : Trip β} (ht : t ∈ s.trips) {disk : Disk} {v : Save β}
    (hv : t.save? disk s.log = some v) :
    Held S v.before v.tag v.payload v.ifMatch v.rawMode v.switched v.base ∧
      (.put v.payload v.ifMatch, v.disk) :: v.before v.tag <:+
        (s.serve t.tag (t.request, disk)).log v.tag := by
  cases hpurpose : t.purpose with
  | load =>
    rw [Trip.save?, hpurpose] at hv
    cases hv
  | put payload ifMatch rawMode switched base =>
    rw [Trip.save?, hpurpose] at hv
    obtain rfl := Option.some.inj hv
    refine ⟨(H.trips t ht).held _ _ _ _ _ hpurpose, ?_⟩
    show _ <:+ Function.update s.log t.tag ((t.request, disk) :: s.log t.tag) t.tag
    rewrite [Function.update_self, Trip.request, hpurpose]
    exact List.suffix_refl _
  | reload =>
    rw [Trip.save?, hpurpose] at hv
    cases hv

theorem step {s' : State β} (H : Sound S s) (hstep : Step S schema s s') : Sound S s' := by
  cases hstep with
  | start tag =>
    refine H.update (Nat.le_succ _) (fun _ => Nat.lt_succ_self _) ?_
      (fun hlt => absurd hlt (Nat.lt_irrefl _)) fun t ht => ?_
    · intro e he
      obtain rfl := Option.some.inj he
      exact ⟨fun m hm => by cases hm⟩
    · rcases List.mem_append.mp ht with hold | hnew
      · exact .inl hold
      · obtain rfl := List.mem_singleton.mp hnew
        refine .inr ⟨(fun m e h => by cases h), (fun _ _ _ _ _ h => by cases h), ?_,
          Nat.lt_succ_self _⟩
        intro e he _
        have he : Function.update s.editors s.opened (some { tag }) s.opened = some e := he
        rw [Function.update_self] at he
        rw [← Option.some.inj he]
  | @switch i e tag he _ =>
    refine H.update (Nat.le_refl _) (fun _ => H.opened he) ?_ ?_ fun t ht => ?_
    · intro e' he'
      obtain rfl := Option.some.inj he'
      refine ⟨fun m hm => ?_⟩
      obtain ⟨b, hbase, hdump, hetag, hshows, -⟩ := (H.editors i e he).read m hm
      exact ⟨b, hbase, hdump, hetag, hshows, fun h => by cases h⟩
    · intro _ e' he' hswitched
      rw [← Option.some.inj he'] at hswitched
      cases hswitched
    · rcases List.mem_append.mp ht with hold | hnew
      · exact .inl hold
      · obtain rfl := List.mem_singleton.mp hnew
        refine .inr ⟨(fun m e h => by cases h), (fun _ _ _ _ _ h => by cases h), ?_, H.opened he⟩
        intro e' he' hswitched
        have he' : Function.update s.editors i _ i = some e' := he'
        rw [Function.update_self] at he'
        rw [← Option.some.inj he'] at hswitched
        cases hswitched
  | close i =>
    refine H.update (Nat.le_refl _) (fun h => by cases h) (fun e he => by cases he)
      (fun _ e he => by cases he) fun t ht => .inl ht
  | @edit i e x he =>
    refine H.update (Nat.le_refl _) (fun _ => H.opened he) ?_ ?_ fun t ht => .inl ht
    · intro e' he'
      obtain rfl := Option.some.inj he'
      exact (H.editors i e he).edit schema x
    · intro _ e' he' hswitched
      obtain rfl := Option.some.inj he'
      obtain ⟨htag, hswitch⟩ := e.edit_tag schema x
      exact ⟨e, he, hswitch ▸ hswitched, htag.symm⟩
  | @save i e m payload he _ hm hpayload =>
    refine H.update (Nat.le_refl _) (fun _ => H.opened he) ?_ ?_ fun t ht => ?_
    · intro e' he'
      obtain rfl := Option.some.inj he'
      exact ⟨(H.editors i e he).read⟩
    · intro _ e' he' hswitched
      obtain rfl := Option.some.inj he'
      exact ⟨e, he, hswitched, rfl⟩
    · rcases List.mem_append.mp ht with hold | hnew
      · exact .inl hold
      · obtain rfl := List.mem_singleton.mp hnew
        refine .inr ⟨(fun m e h => by cases h), ?_, ?_, H.opened he⟩
        · intro _ _ _ _ _ hput
          cases hput
          exact (H.editors i e he).put hm hpayload
        · intro e' he' _
          have he' : Function.update s.editors i _ i = some e' := he'
          rw [Function.update_self] at he'
          rw [← Option.some.inj he']
          rfl
  | @serve before after t disk ht _ =>
    have hshown : ∀ m e, some (some (S.answer s t disk)) = some (some (.manifest m e)) →
        e = etag m.revision ∧ Shows S (s.serve t.tag (t.request, disk)).log t.tag m := by
      intro m e hanswer
      refine shows_answer ?_
      show (S.answer s t disk).shown = some (e, m)
      rw [Option.some.inj (Option.some.inj hanswer)]
      rfl
    have H' := (H.serve t.tag (t.request, disk)).replied ht hshown
    refine ⟨H'.editors, H'.unopened, fun t' ht' => ?_, fun v hv => ?_⟩
    · exact (H'.trips t' ht').congr rfl (Nat.le_refl _) fun e he hswitched =>
        ⟨e, he, hswitched, rfl⟩
    · rcases List.mem_append.mp hv with hold | hnew
      · exact H'.saves v hold
      · exact H.saved (ht ▸ List.mem_append_right _ List.mem_cons_self) (Option.mem_toList.mp hnew)
  | fail ht => exact H.replied ht fun m e h => by cases h
  | @settle before after t answer ht hanswer =>
    have hsound := H.trips t (ht ▸ List.mem_append_right _ List.mem_cons_self)
    refine H.update (Nat.le_refl _) (fun _ => hsound.opened) ?_ ?_ fun t' ht' => ?_
    · intro e' he'
      obtain ⟨e, he, rfl⟩ := Option.map_eq_some_iff.mp he'
      exact (H.editors _ e he).settle hsound he hanswer
    · intro _ e' he' hswitched
      obtain ⟨e, he, rfl⟩ := Option.map_eq_some_iff.mp he'
      obtain ⟨htag, hswitch⟩ := e.settle_tag S t answer
      exact ⟨e, he, hswitch ▸ hswitched, htag.symm⟩
    · rcases List.mem_append.mp ht' with hold | hnew
      · refine .inl (ht ▸ ?_)
        rcases List.mem_append.mp hold with hmem | hmem
        · exact List.mem_append_left _ hmem
        · exact List.mem_append_right _ (List.mem_cons_of_mem _ hmem)
      · obtain ⟨heditor, htag, hpurpose, hnone⟩ := t.next_cases answer t' hnew
        refine .inr ⟨?_, ?_, ?_, heditor ▸ hsound.opened⟩
        · intro m e h
          rw [hnone] at h
          cases h
        · intro _ _ _ _ _ h
          rw [hpurpose] at h
          cases h
        · intro e' he' hswitched
          have he' : Function.update s.editors t.editor _ t'.editor = some e' := he'
          rw [heditor, Function.update_self] at he'
          obtain ⟨e, he, rfl⟩ := Option.map_eq_some_iff.mp he'
          obtain ⟨htag', hswitch⟩ := e.settle_tag S t answer
          rw [htag, htag', hsound.own e he (hswitch ▸ hswitched)]
  | other tag x => exact H.serve tag x

end Sound

theorem reachable_sound {s : State β} (hs : Reachable S schema s) : Sound S s := by
  induction hs with
  | init => exact Sound.init
  | step _ hstep ih => exact ih.step hstep

theorem careful_suffix {A : Api β τ Dict} {f : FileState τ} {xs ys : List (Request Dict × Disk)}
    (h : xs <:+ ys) (hys : A.Careful f ys) : A.Careful f xs := by
  induction ys with
  | nil =>
    obtain rfl := List.suffix_nil.mp h
    exact hys
  | cons y ys ih =>
    rcases List.suffix_cons_iff.mp h with rfl | h
    · exact hys
    · exact ih h hys.1

/-- A save that takes is of a manifest that an answer showed, but for what was typed.
What it replaces has that manifest's revision, if there is anything there; the
manifest was read for the tag it is saved for, unless the editor was switched; and then,
among requests by which no ETag comes back, it is that very manifest. -/
theorem save_replaces_base {s : State β} (hs : Reachable S schema s) {v : Save β} (hv : v ∈ s.saves)
    (htook : v.Took S) :
    ∃ base m, v.base = some base ∧ Shows S v.before base.1 base.2 ∧
      S.construct v.tag v.payload = .ok m ∧ v.payload.get "model_tag" = .str v.tag ∧
      (v.rawMode = false → ∀ k, k ∉ typed → v.payload.get k = (S.modelDump base.2).get k) ∧
      ((v.found S = .absent ∧ (v.served S).2 = .file (S.codec.dump m)) ∨
        ∃ existing, (v.found S).current S.codec = some existing ∧
          existing.revision = base.2.revision ∧
          (v.served S).2 = .file (S.codec.dump (m.bump existing))) ∧
      (v.switched = false → base.1 = v.tag) ∧
      (base.1 = v.tag → (S.api v.tag).Careful (S.files v.tag) (s.log v.tag) →
        (v.found S).current S.codec = some base.2) := by
  obtain ⟨⟨⟨base, hbase, hshows, hifMatch, hown, hkept⟩, hnamed⟩, hlog⟩ :=
    (reachable_sound hs).saves v hv
  obtain ⟨m, w, hm, hw, hfile⟩ := htook.puts
  refine ⟨base, m, hbase, hshows, hm, hnamed, hkept, ?_, hown, fun hsame hcareful => ?_⟩
  · cases hw with
    | creates habsent => exact .inl ⟨habsent, hfile⟩
    | @updates existing hcurrent hmatch =>
      rw [hifMatch] at hmatch
      exact .inr ⟨existing, hcurrent, (etag_inj.mp (Option.some.inj hmatch)).symm, hfile⟩
  · obtain ⟨hold, hput⟩ := careful_suffix hlog hcareful
    cases hw with
    | creates habsent =>
      have hnone := (hput _ _ _ rfl hm).blind habsent
      rw [hifMatch] at hnone
      cases hnone
    | @updates existing hcurrent hmatch =>
      rw [hifMatch] at hmatch
      obtain ⟨entry, hentry, hshown⟩ := hshows
      rw [hsame] at hentry
      have hexact := faithful_run hold existing hcurrent
      rw [← Option.some.inj hmatch] at hexact
      obtain ⟨newer, older, hsplit⟩ := List.append_of_mem hentry
      rw [hsplit] at hexact
      rw [hcurrent, (hexact.split newer hshown).1]

/-- A manifest with a display name. -/
def named (revision : ℕ) (name : String) : Doc String := ⟨revision + 1, Nat.succ_pos revision, name⟩

/-- Every tag has a first manifest, with the tag for its display name. -/
def twoTags : Site String (Doc String) where
  codec := ⟨.ok, id, fun _ => rfl⟩
  construct _ payload := match payload.get "display_name" with
    | .str name => .ok (named 0 name)
    | _ => .error "display_name"
  modelDump m := [("display_name", .str m.rest), ("revision", .int m.revision)]
  files tag := .file (named 0 tag)

/-- The editor of `a` with its manifest there. -/
def shown : Editor String :=
  { ({ tag := "a" } : Editor String).load (twoTags.modelDump (named 0 "a")) (etag 1) with
    base := some ("a", named 0 "a") }

theorem reachable_shown : ∃ s, Reachable twoTags [] s ∧ s.editors 0 = some shown ∧ s.trips = [] ∧
    s.log "a" = [(.get, .fine)] ∧ s.log "b" = [] := by
  have hstart := Reachable.step (Reachable.init : Reachable twoTags [] {}) (.start {} "a")
  have hserve := Reachable.step hstart
    (.serve .fine (show _ = ([] : List (Trip String)) ++ _ :: [] from rfl) rfl)
  have hshow := Reachable.step hserve
    (.settle (show _ = ([] : List (Trip String)) ++ _ :: [] from rfl) rfl)
  exact ⟨_, hshow, rfl, rfl, rfl, rfl⟩

/-- What is saved of it for a tag, and the save. -/
def payloadFor (tag : String) : Dict :=
  (shown.structured (twoTags.modelDump (named 0 "a"))).set "model_tag" (.str tag)

def saveFor (tag : String) (before : Log) : Save String :=
  ⟨tag, payloadFor tag, some (etag 1), .fine, before, false, decide (tag ≠ "a"),
  some ("a", named 0 "a")⟩

theorem saveFor_takes {tag : String} {before : Log} (htag : tag = "a" ∨ tag = "b")
    (hfile : (saveFor tag before).found twoTags = .file (named 0 tag)) :
    ((saveFor tag before).served twoTags).2 = .file (named 1 "a") := by
  rw [Save.served, hfile]
  rcases htag with rfl | rfl
  · show ((twoTags.api "a").serve _ (.put (payloadFor "a") (some (etag 1)), .fine)).2 = _
    decide +kernel
  · show ((twoTags.api "b").serve _ (.put (payloadFor "b") (some (etag 1)), .fine)).2 = _
    decide +kernel

theorem save_replaces_base_one :
    ∃ (s : State String) (v : Save String), v ∈ s.saves ∧ v.tag = "a" ∧ v.switched = false ∧
      ∃ base m, v.base = some base ∧ Shows twoTags v.before base.1 base.2 ∧
        twoTags.construct v.tag v.payload = .ok m ∧ v.payload.get "model_tag" = .str v.tag ∧
        (v.rawMode = false → ∀ k, k ∉ typed → v.payload.get k = (twoTags.modelDump base.2).get k) ∧
        ((v.found twoTags = .absent ∧ (v.served twoTags).2 = .file (twoTags.codec.dump m)) ∨
          ∃ existing, (v.found twoTags).current twoTags.codec = some existing ∧
            existing.revision = base.2.revision ∧
            (v.served twoTags).2 = .file (twoTags.codec.dump (m.bump existing))) ∧
        (v.switched = false → base.1 = v.tag) ∧
        (base.1 = v.tag → (twoTags.api v.tag).Careful (twoTags.files v.tag) (s.log v.tag) →
          (v.found twoTags).current twoTags.codec = some base.2) := by
  obtain ⟨s, hs, he, htrips, hlog, -⟩ := reachable_shown
  have hpayload : shown.toSave (twoTags.modelDump (named 0 "a")) = some (payloadFor "a") := rfl
  have hsave := hs.step (.save he rfl rfl hpayload)
  have hserve := hsave.step (.serve .fine (show _ ++ [_] = s.trips ++ _ :: [] from rfl) rfl)
  have hmem : saveFor "a" s.log ∈ s.saves ++ [saveFor "a" s.log] :=
    List.mem_append_right _ (List.mem_singleton_self _)
  have hfile : (saveFor "a" s.log).found twoTags = .file (named 0 "a") := by
    show twoTags.file "a" (s.log "a") = _
    rw [hlog]
    rfl
  refine ⟨_, saveFor "a" s.log, hmem, rfl, rfl, save_replaces_base hserve hmem (.inr ?_)⟩
  rw [saveFor_takes (.inl rfl) hfile, hfile]
  decide +kernel

/-- An editor that shows the manifest of `a`, is switched to `b`, and saves before the
manifest of `b` is there: what lies at `b` is lost, and the manifest of `a` in its place. -/
theorem switched_save_overwrites :
    ∃ (s : State String) (v : Save String), Reachable twoTags [] s ∧ v ∈ s.saves ∧ v.tag = "b" ∧
      v.base = some ("a", named 0 "a") ∧
      (v.found twoTags).current twoTags.codec = some (named 0 "b") ∧
      (v.served twoTags).2 = .file (named 1 "a") := by
  obtain ⟨s, hs, he, htrips, -, hlog⟩ := reachable_shown
  have hswitch := hs.step (.switch "b" he (by decide))
  have hpayload : Editor.toSave { shown with tag := "b", switched := true }
    (twoTags.modelDump (named 0 "a")) =
      some (payloadFor "b") := rfl
  have hsave := hswitch.step (.save (i := 0) rfl rfl rfl hpayload)
  have hserve :=
    hsave.step (.serve .fine (show _ ++ [_] = (s.trips ++ [_]) ++ _ :: [] from rfl) rfl)
  have hfile : (saveFor "b" s.log).found twoTags = .file (named 0 "b") := by
    show twoTags.file "b" (s.log "b") = _
    rw [hlog]
    rfl
  refine ⟨_, saveFor "b" s.log, hserve, List.mem_append_right _ (List.mem_singleton_self _), rfl,
    rfl, ?_, saveFor_takes (.inr rfl) hfile⟩
  rw [hfile]
  rfl

end Turbohaul.ModelEditor
