/-
# ETags over a whole history of requests

A PUT with `If-Match: e` replaces the manifest that was read together with `e`,
and nothing was written or deleted in between, as long as every ETag that a PUT
brings into being is new to the history.  The revision of a created manifest is
the payload's, so a deletion and a creation can bring an ETag back; and a PUT
with `If-Match` on a tag without a manifest is a creation like any other.

  `serve_cases`       what one request can do
  `Api.Careful`       the runs in which no ETag comes back
  `Api.NoLostUpdate`  what `If-Match` promises of one PUT after a run
-/
import Turbohaul.ManifestStore

namespace Turbohaul.ManifestStore

open Register

variable {β τ π : Type}

/-- The manifest that lies at the path. -/
def FileState.current (K : Codec β τ) : FileState τ → Option (Doc β)
  | .file text => (K.load text).toOption
  | _ => none

@[simp] theorem current_absent (K : Codec β τ) : (FileState.absent).current K = none := rfl

@[simp] theorem current_dump (K : Codec β τ) (m : Doc β) :
    (FileState.file (K.dump m)).current K = some m := by
  simp [FileState.current, K.load_dump, Except.toOption]

/-- What is read is what lies there. -/
theorem current_of_readManifest {K : Codec β τ} {disk : Disk} {f : FileState τ} {m : Doc β}
    (h : readManifest K disk f = .ok m) : f.current K = some m := by
  cases f with
  | absent => cases h
  | symlink refusal => cases h
  | file text =>
    simp only [readManifest] at h
    split at h
    · cases h
    · split at h
      · rename_i hl
        cases h
        simp [FileState.current, hl, Except.toOption]
      · cases h
      · cases h

/-- A write puts the manifest down, or leaves the file alone. -/
theorem replace_cases {K : Codec β τ} {disk : Disk} {f : FileState τ} {m : Doc β} :
    (replace K disk f m = (.error .other, f)) ∨
    ((replace K disk f m).2 = .file (K.dump m) ∧
      ((replace K disk f m).1 = .ok m ∨ (replace K disk f m).1 = .error .other)) := by
  cases disk
  · exact .inr ⟨rfl, .inl rfl⟩
  · exact .inr ⟨rfl, .inl rfl⟩
  · exact .inl rfl
  · exact .inr ⟨rfl, .inr rfl⟩

/-- What `write_manifest_atomic` puts down over `f`, and where: the manifest as
it is where there is none, and under the next revision where `If-Match` names
the one that lies there. -/
inductive Puts (K : Codec β τ) (m : Doc β) (ifMatch : Option String) : FileState τ → Doc β → Prop
  | creates {f} : f = .absent → Puts K m ifMatch f m
  | updates {f existing} : f.current K = some existing →
      ifMatch = some (etag existing.revision) → Puts K m ifMatch f (m.bump existing)

/-- `write_manifest_atomic` refuses and leaves the file alone, or puts a
manifest down. -/
theorem writeManifestAtomic_cases (K : Codec β τ) (disk : Disk) (f : FileState τ) (m : Doc β)
    (ifMatch : Option String) :
    (∃ e, writeManifestAtomic K disk f m ifMatch = (.error e, f)) ∨
    ∃ w, Puts K m ifMatch f w ∧ (writeManifestAtomic K disk f m ifMatch).2 = .file (K.dump w) ∧
      ((writeManifestAtomic K disk f m ifMatch).1 = .ok w ∨
        (writeManifestAtomic K disk f m ifMatch).1 = .error .other) := by
  cases f with
  | absent =>
    rcases @replace_cases _ _ K disk .absent m with h | ⟨h2, h1⟩
    · exact .inl ⟨.other, h⟩
    · exact .inr ⟨m, .creates rfl, h2, h1⟩
  | symlink refusal => exact .inl ⟨_, rfl⟩
  | file text =>
    simp only [writeManifestAtomic]
    split
    · exact .inl ⟨_, rfl⟩
    · rename_i existing hr
      split
      · exact .inl ⟨_, rfl⟩
      · rename_i e
        split
        · exact .inl ⟨_, rfl⟩
        · rename_i he
          have hm : some e = some (etag existing.revision) := by rw [not_not.mp he]
          rcases @replace_cases _ _ K disk (.file text) (m.bump existing) with h | ⟨h2, h1⟩
          · exact .inl ⟨.other, h⟩
          · exact .inr ⟨_, .updates (current_of_readManifest hr) hm, h2, h1⟩

/-- What one request can do: nothing but show what lies there; put a manifest
down, showing it or failing after the fact; or remove the file. -/
theorem serve_cases (A : Api β τ π) (f : FileState τ) (x : Request π × Disk) :
    ((A.serve f x).2 = f ∧ ((A.serve f x).1.shown = none ∨
      ∃ m, x.1 = .get ∧ f.current A.codec = some m ∧
        (A.serve f x).1.shown = some (etag m.revision, m))) ∨
    (∃ p im m w, x.1 = .put p im ∧ A.construct A.tag p = .ok m ∧ Puts A.codec m im f w ∧
      (A.serve f x).2 = .file (A.codec.dump w) ∧
      ((A.serve f x).1.shown = none ∨ (A.serve f x).1.shown = some (etag w.revision, w))) ∨
    (x.1 = .delete ∧ (A.serve f x).2 = .absent ∧ (A.serve f x).1.shown = none) := by
  obtain ⟨r, disk⟩ := x
  cases r with
  | get =>
    refine .inl ⟨rfl, ?_⟩
    simp only [Api.serve, Api.getManifest]
    split
    · exact .inl rfl
    · split
      · rename_i m hr
        exact .inr ⟨m, trivial, current_of_readManifest hr, rfl⟩
      all_goals exact .inl rfl
  | put p im =>
    simp only [Api.serve, Api.putManifest]
    split
    · exact .inl ⟨rfl, .inl rfl⟩
    · split
      · exact .inl ⟨rfl, .inl rfl⟩
      · rename_i m hm
        rcases writeManifestAtomic_cases A.codec disk f m im with
          ⟨e, he⟩ | ⟨w, hw, h2, h1 | h1⟩
        · rw [he]
          cases e <;> exact .inl ⟨rfl, .inl rfl⟩
        · have he : writeManifestAtomic A.codec disk f m im = (.ok w, .file (A.codec.dump w)) :=
            Prod.ext h1 h2
          rw [he]
          exact .inr (.inl ⟨p, im, m, w, rfl, hm, hw, rfl, .inr rfl⟩)
        · have he : writeManifestAtomic A.codec disk f m im =
              (.error .other, .file (A.codec.dump w)) := Prod.ext h1 h2
          rw [he]
          exact .inr (.inl ⟨p, im, m, w, rfl, hm, hw, rfl, .inl rfl⟩)
  | delete =>
    simp only [Api.serve, Api.deleteManifestRoute]
    split
    · exact .inl ⟨rfl, .inl rfl⟩
    · cases f with
      | absent => exact .inl ⟨rfl, .inl rfl⟩
      | symlink refusal => exact .inl ⟨rfl, .inl rfl⟩
      | file text =>
        simp only [deleteManifest]
        split
        · rename_i hd
          split at hd <;> cases hd
          exact .inr (.inr ⟨trivial, rfl, rfl⟩)
        · rename_i hd
          split at hd <;> cases hd
        · rename_i hd
          split at hd <;> cases hd
          exact .inl ⟨rfl, .inl rfl⟩

/-- The ETag of the manifest that lies there stands for that manifest alone. -/
def Faithful (K : Codec β τ) (f : FileState τ) (h : List (Entry String (Doc β))) : Prop :=
  ∀ m, f.current K = some m → Exact (etag m.revision) m h

/-- What a PUT asks of the state it finds: an `If-Match` only where a manifest
lies, taken from an earlier answer where it names that manifest, and a new
revision that no earlier answer has shown. -/
structure Api.PutCareful (A : Api β τ π) (f : FileState τ) (h : List (Entry String (Doc β)))
    (m : Doc β) (ifMatch : Option String) : Prop where
  blind : f = .absent → ifMatch = none
  created : f = .absent → ¬ Shown (etag m.revision) h
  held : ∀ existing, f.current A.codec = some existing →
    ifMatch = some (etag existing.revision) → Shown (etag existing.revision) h
  updated : ∀ existing, f.current A.codec = some existing →
    ifMatch = some (etag existing.revision) → ¬ Shown (etag (existing.revision + 1)) h

/-- What a careful PUT puts down has an ETag never shown. -/
theorem Puts.fresh {A : Api β τ π} {f : FileState τ} {h : List (Entry String (Doc β))}
    {m w : Doc β} {im : Option String} (hw : Puts A.codec m im f w)
    (hc : A.PutCareful f h m im) : ¬ Shown (etag w.revision) h := by
  cases hw with
  | creates habs => exact hc.created habs
  | updates hm he => exact hc.updated _ hm he

variable [DecidableEq τ]

/-- Every PUT of the run, the newest first, that carries a manifest at all, is
careful. -/
def Api.Careful (A : Api β τ π) (f : FileState τ) : List (Request π × Disk) → Prop
  | [] => True
  | x :: xs => A.Careful f xs ∧ ∀ p im m, x.1 = .put p im → A.construct A.tag p = .ok m →
      A.PutCareful (A.fileAfter f xs) (A.history f xs) m im

/-- One request of a careful run keeps the ETag faithful. -/
theorem faithful_step {A : Api β τ π} {f : FileState τ} {h : List (Entry String (Doc β))}
    {x : Request π × Disk} (hf : Faithful A.codec f h)
    (hc : ∀ p im m, x.1 = .put p im → A.construct A.tag p = .ok m → A.PutCareful f h m im) :
    Faithful A.codec (A.serve f x).2 (A.record f x :: h) := by
  intro m hm
  rcases serve_cases A f x with ⟨hk, hs⟩ | ⟨p, im, m₀, w, hx, hm₀, hw, h2, hs⟩ | ⟨-, h2, -⟩
  · rw [hk] at hm
    refine (hf m hm).keep (by simp [Api.record, hk]) fun v' hv => ?_
    rcases hs with hs | ⟨m', -, hm', hs⟩
    · simp [Api.record, hs] at hv
    · rw [hm] at hm'
      cases hm'
      simpa [Api.record, hs, eq_comm] using hv
  · obtain rfl : m = w := by simpa [h2, eq_comm] using hm
    refine Exact.fresh (hw.fresh (hc p im m₀ hx hm₀)) fun v' hv => ?_
    rcases hs with hs | hs
    · simp [Api.record, hs] at hv
    · simpa [Api.record, hs, eq_comm] using hv
  · simp [h2] at hm

/-- A careful run keeps the ETag faithful. -/
theorem faithful_run {A : Api β τ π} {f : FileState τ} {xs : List (Request π × Disk)}
    (hc : A.Careful f xs) : Faithful A.codec (A.fileAfter f xs) (A.history f xs) := by
  induction xs with
  | nil => exact fun _ _ => trivial
  | cons x xs ih => exact faithful_step (ih hc.1) hc.2

/-- What `If-Match: e` promises of a PUT after a run: if the PUT is answered
with success, or so much as touches the file, the manifest it replaces is the
one that an earlier answer showed with `e`, every answer that showed `e` showed
that manifest, and nothing was written or deleted since; and where the tag has
no manifest, a payload that makes one is refused with status 412. -/
def Api.NoLostUpdate (A : Api β τ π) (f : FileState τ) (older : List (Request π × Disk))
    (payload : π) (e : String) (disk : Disk) : Prop :=
  let now := A.fileAfter f older
  let answer := A.serve now (.put payload (some e), disk)
  ((∃ m e', answer.1 = .written m e') ∨ answer.2 ≠ now →
    ∃ m, now.current A.codec = some m ∧ Live e m (A.history f older) ∧
      Exact e m (A.history f older)) ∧
  (now = .absent → tagRe A.tag = true → (∃ m, A.construct A.tag payload = .ok m) →
    ∃ detail, answer = (.error 412 detail, now))

/-- In a careful run `If-Match` loses no update. -/
theorem put_ifMatch_noLostUpdate (A : Api β τ π) (f : FileState τ)
    (older : List (Request π × Disk)) (payload : π) (e : String) (disk : Disk)
    (hc : A.Careful f ((.put payload (some e), disk) :: older)) :
    A.NoLostUpdate f older payload e disk := by
  obtain ⟨hold, hput⟩ := hc
  refine ⟨fun htook => ?_, fun habs _ ⟨m, hm⟩ => ?_⟩
  · rcases serve_cases A (A.fileAfter f older) (.put payload (some e), disk) with
      ⟨hk, hs⟩ | ⟨p, im, m₀, w, hx, hm₀, hw, -, -⟩ | ⟨hx, -, -⟩
    · -- nothing was touched, and only a GET shows what it leaves alone
      exfalso
      rcases htook with ⟨m, e', hr⟩ | hne
      · rcases hs with hs | ⟨_, hx, -, -⟩
        · simp [hr, Response.shown] at hs
        · cases hx
      · exact hne hk
    · cases hx
      have hcp := hput _ _ _ rfl hm₀
      cases hw with
      | creates habs => exact absurd (hcp.blind habs) (by simp)
      | updates hm he =>
        have hx := faithful_run hold _ hm
        have hl := hx.live (hcp.held _ hm he)
        cases he
        exact ⟨_, hm, hl, hx⟩
    · cases hx
  · exact absurd ((hput _ _ _ rfl hm).blind habs) (by simp)

section Examples

/-- A codec that keeps the manifest itself. -/
def mirror : Codec Nat (Doc Nat) := ⟨.ok, id, fun _ => rfl⟩

/-- The routes of one tag over it; a payload is a manifest. -/
def qwen : Api Nat (Doc Nat) (Doc Nat) :=
  { tag := "qwen3-8b", codec := mirror, construct := fun _ m => .ok m }

/-- A manifest of revision `n + 1`. -/
def doc (n rest : Nat) : Doc Nat := ⟨n + 1, Nat.le_add_left 1 n, rest⟩

/-- Read, updated under the ETag read, and read again. -/
theorem put_ifMatch_noLostUpdate_qwen :
    qwen.NoLostUpdate .absent [(.get, .fine), (.put (doc 0 10) none, .fine)] (doc 0 20) (etag 1)
      .fine ∧
    (qwen.serve (.file (doc 0 10)) (.put (doc 0 20) (some (etag 1)), .fine)).1 =
      .written (doc 1 20) (etag 2) := by
  refine ⟨put_ifMatch_noLostUpdate _ _ _ _ _ _ ⟨⟨⟨trivial, ?_⟩, ?_⟩, ?_⟩, by decide⟩
  · rintro p im m ⟨⟩ ⟨⟩
    exact { blind := fun _ => rfl
            created := fun _ => not_shown_nil
            held := fun _ hm => by cases hm
            updated := fun _ hm => by cases hm }
  · rintro p im m ⟨⟩
  · rintro p im m ⟨⟩ ⟨⟩
    refine { blind := (by rintro ⟨⟩), created := (by rintro ⟨⟩), held := ?_, updated := ?_ }
    · rintro existing ⟨⟩ -
      exact ⟨_, .head _, doc 0 10, rfl⟩
    · rintro existing ⟨⟩ -
      show ¬ Shown (etag 2) [⟨some (etag 1, doc 0 10), false⟩, ⟨some (etag 1, doc 0 10), true⟩]
      simp [shown_cons, not_shown_nil, etag_inj]

/-- Deleted and created again, the tag has its old ETag: who read the first
manifest overwrites the second.  And a PUT with an ETag creates a manifest. -/
theorem put_ifMatch_loses_update :
    ¬ qwen.NoLostUpdate .absent [(.put (doc 0 20) none, .fine), (.delete, .fine), (.get, .fine),
      (.put (doc 0 10) none, .fine)] (doc 0 30) (etag 1) .fine ∧
    ¬ qwen.NoLostUpdate .absent [] (doc 0 10) (etag 7) .fine := by
  constructor
  · rintro ⟨h, -⟩
    obtain ⟨m, hm, -, hx⟩ := h (.inl ⟨doc 1 30, etag 2, by decide⟩)
    have hb : m = doc 0 20 := by
      have : FileState.current mirror (.file (doc 0 20)) = some m := hm
      cases this
      rfl
    have ha : doc 0 10 = m := (Exact.split [_, _] hx rfl).1
    subst hb
    exact absurd ha (by decide)
  · rintro ⟨-, h⟩
    obtain ⟨d, hd⟩ := h rfl (by decide) ⟨doc 0 10, rfl⟩
    have hw : qwen.serve .absent (.put (doc 0 10) (some (etag 7)), .fine) =
        (.written (doc 0 10) (etag 1), .file (doc 0 10)) := by decide
    cases hw.symm.trans hd

end Examples

end Turbohaul.ManifestStore
