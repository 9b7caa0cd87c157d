/-
# `BlobRuns` — the blob store while streams are written, deleted and collected

Any number of writers share the store with `delete_blob` and `gc_stale_incoming`, and
each may stop at any chunk.  A writer's file has a name that no other file ever has,
so its body is the writer's until the rename, whatever becomes of the name; what is
renamed is then what was hashed.

  `Step`        a turn of a writer, a deletion, a collection
  `Own`         what a writer has of the store
  `Sound`       the invariant
  `blob_store_addressed`
-/
import Turbohaul.BlobStore

namespace Turbohaul.Blobs

/-- A writer, and the chunks that its source has given. -/
structure Running where
  writer : Writer
  chunks : List Bytes

/-- A stream that became a blob. -/
structure Stored where
  name : String
  chunks : List Bytes
  limit : ℕ

/-- The store with its writers; the tokens that are spent. -/
structure System where
  fs : Store
  running : List Running
  tokens : List String
  stored : List Stored

inductive Event
  | opened (token : String)
  | turned (token : String)
  | failed (token : String) (e : Failure)
  | stored (token : String)
  | deleted (sha : String)
  | collected

/-- The chunks of an item. -/
def Item.chunks : Item → List Bytes
  | .chunk bytes => [bytes]
  | _ => []

/-- One step of the store.  A token of `secrets` was never given before. -/
inductive Step (sha256 : Bytes → String) : System → Event → System → Prop
  | start {s : System} {token : String} {expected : Option String} {limit : ℕ} {fs : Store}
      {w : Writer}
      (hnew : token ∉ s.tokens) (h : Writer.start s.fs token expected limit = (fs, .inr w)) :
      Step sha256 s (.opened token) ⟨fs, ⟨w, []⟩ :: s.running, token :: s.tokens, s.stored⟩
  | refuse {s : System} {token : String} {expected : Option String} {limit : ℕ} {fs : Store}
      {e : Failure}
      (hnew : token ∉ s.tokens) (h : Writer.start s.fs token expected limit = (fs, .inl e)) :
      Step sha256 s (.failed token e) ⟨fs, s.running, token :: s.tokens, s.stored⟩
  | turn {s : System} {before after : List Running} {r : Running} {item : Item} {fs : Store}
      {w : Writer}
      (hr : s.running = before ++ r :: after)
      (h : r.writer.resume sha256 s.fs item = (fs, .inr w)) :
      Step sha256 s (.turned r.writer.token)
        ⟨fs, before ++ ⟨w, r.chunks ++ item.chunks⟩ :: after, s.tokens, s.stored⟩
  | fail {s : System} {before after : List Running} {r : Running} {item : Item} {fs : Store}
      {e : Failure} (hr : s.running = before ++ r :: after)
      (h : r.writer.resume sha256 s.fs item = (fs, .inl (.error e))) :
      Step sha256 s (.failed r.writer.token e) ⟨fs, before ++ after, s.tokens, s.stored⟩
  | store {s : System} {before after : List Running} {r : Running} {item : Item} {fs : Store}
      {name : String} {n : ℕ} (hr : s.running = before ++ r :: after)
      (h : r.writer.resume sha256 s.fs item = (fs, .inl (.ok (name, n)))) :
      Step sha256 s (.stored r.writer.token)
        ⟨fs, before ++ after, s.tokens, ⟨name, r.chunks, r.writer.limit⟩ :: s.stored⟩
  | delete {s : System} (sha : String) :
      Step sha256 s (.deleted sha) { s with fs := (deleteBlob s.fs sha).1 }
  | collect {s : System} (now maxAge : ℚ) (mtime : String → ℚ) :
      Step sha256 s .collected { s with fs := (gcStaleIncoming now maxAge mtime s.fs).1 }

/-- The states that come of `s`. -/
inductive Reachable (sha256 : Bytes → String) (s₀ : System) : System → Prop
  | refl : Reachable sha256 s₀ s₀
  | step {s s' : System} {e : Event} (h : Reachable sha256 s₀ s) (hs : Step sha256 s e s') :
      Reachable sha256 s₀ s'

/-! ## What the functions do -/

theorem append_nil (fs : Store) (fd : ℕ) : fs.append fd [] = fs := by
  obtain ⟨links, data, next, bound⟩ := fs
  simp only [Files.append, List.append_nil, ite_self]

theorem Writer.took_nil (w : Writer) : w.took [] = w := by
  simp only [Writer.took, List.append_nil, List.length_nil, Nat.add_zero]

variable {sha256 : Bytes → String}

/-- A rename that took place. -/
def Placed (sha256 : Bytes → String) (w : Writer) (fs fs' : Store) (outcome : Outcome) : Prop :=
  ∃ final fs₁, finalPath (sha256 w.hashed) = .ok final ∧ fs.rename w.tmp final = some fs₁ ∧
    fs' = fs₁.unlink w.tmp ∧ outcome = .ok (sha256 w.hashed, w.bytesWritten)

theorem Writer.place_cases {w : Writer} {fs fs' : Store} {outcome : Outcome}
    (h : w.place sha256 fs = (fs', outcome)) :
    (∃ e, fs' = fs.unlink w.tmp ∧ outcome = .error e) ∨ Placed sha256 w fs fs' outcome := by
  rw [Writer.place] at h
  split at h
  · obtain ⟨rfl, rfl⟩ := Prod.mk.inj h
    exact .inl ⟨_, rfl, rfl⟩
  · rename_i final hfinal
    split at h
    · obtain ⟨rfl, rfl⟩ := Prod.mk.inj h
      exact .inl ⟨_, rfl, rfl⟩
    · rename_i fs₁ hrename
      obtain ⟨rfl, rfl⟩ := Prod.mk.inj h
      exact .inr ⟨final, fs₁, hfinal, hrename, rfl, rfl⟩

theorem Writer.finish_cases {w : Writer} {fs fs' : Store} {outcome : Outcome}
    (h : w.finish sha256 fs = (fs', outcome)) :
    (∃ e, fs' = fs.unlink w.tmp ∧ outcome = .error e) ∨ Placed sha256 w fs fs' outcome := by
  rw [Writer.finish] at h
  split at h
  · exact Writer.place_cases h
  · split at h
    · obtain ⟨rfl, rfl⟩ := Prod.mk.inj h
      exact .inl ⟨_, rfl, rfl⟩
    · split at h
      · obtain ⟨rfl, rfl⟩ := Prod.mk.inj h
        exact .inl ⟨_, rfl, rfl⟩
      · exact Writer.place_cases h

/-- A turn takes a chunk, or it is the last one. -/
theorem Writer.resume_cases {w : Writer} {fs fs' : Store} {item : Item} {r : Outcome ⊕ Writer}
    (h : w.resume sha256 fs item = (fs', r)) :
    (∃ bytes, item = .chunk bytes ∧ (bytes = [] ∨ w.bytesWritten + bytes.length ≤ w.limit) ∧
      fs' = fs.append w.fd bytes ∧ r = .inr (w.took bytes)) ∨
    (∃ e, fs' = fs.unlink w.tmp ∧ r = .inl (.error e)) ∨
    ∃ outcome, r = .inl outcome ∧ Placed sha256 w fs fs' outcome := by
  cases item with
  | chunk bytes =>
    rw [Writer.resume] at h
    split at h
    · rename_i hempty
      subst hempty
      obtain ⟨rfl, rfl⟩ := Prod.mk.inj h
      exact .inl ⟨[], rfl, .inl rfl, (append_nil _ _).symm, by rw [Writer.took_nil]⟩
    · split at h
      · obtain ⟨rfl, rfl⟩ := Prod.mk.inj h
        exact .inr (.inl ⟨_, rfl, rfl⟩)
      · rename_i hfits
        obtain ⟨rfl, rfl⟩ := Prod.mk.inj h
        exact .inl ⟨bytes, rfl, .inr (Nat.le_of_not_lt hfits), rfl, rfl⟩
  | stop =>
    rw [Writer.resume] at h
    cases hfinish : w.finish sha256 fs with
    | mk fs₁ outcome =>
      rw [hfinish] at h
      obtain ⟨rfl, rfl⟩ := Prod.mk.inj h
      rcases Writer.finish_cases hfinish with ⟨e, hfs, rfl⟩ | hplaced
      · exact .inr (.inl ⟨e, hfs, rfl⟩)
      · exact .inr (.inr ⟨outcome, rfl, hplaced⟩)
  | raised e =>
    obtain ⟨rfl, rfl⟩ := Prod.mk.inj h
    exact .inr (.inl ⟨_, rfl, rfl⟩)

/-! ## What a writer has of the store -/

/-- The body is the writer's own: it holds what was hashed, and only the writer's own
path links to it. -/
structure Own (r : Running) (fs : Store) : Prop where
  lt : r.writer.fd < fs.next
  written : fs.data r.writer.fd = r.writer.hashed
  linked : ∀ p, fs.body p = some r.writer.fd → p = r.writer.tmp
  body : ∀ i, fs.body r.writer.tmp = some i → i = r.writer.fd
  hashed : r.writer.hashed = r.chunks.flatten
  counted : r.writer.bytesWritten = r.writer.hashed.length
  fits : r.writer.hashed.length ≤ r.writer.limit

theorem incomingPath_inj {token token' : String} (h : incomingPath token = incomingPath token') :
    token = token' := by
  have hname := congrArg String.toList (Path.incoming.inj h)
  rw [String.toList_append, String.toList_append, String.toList_append,
    String.toList_append] at hname
  exact String.toList_inj.mp (List.append_cancel_left (List.append_cancel_right hname))

section
variable {r : Running} {fs fs' : Store}

theorem Own.append (h : Own r fs) {fd : ℕ} (hfd : r.writer.fd ≠ fd) (bytes : Bytes) :
    Own r (fs.append fd bytes) :=
  { h with written := (Files.data_append_ne hfd).trans h.written }

theorem Own.unlink (h : Own r fs) (p : Path) : Own r (fs.unlink p) :=
  { h with
    linked := fun q hq => h.linked q (Files.body_of_unlink hq).1
    body := fun i hi => h.body i (Files.body_of_unlink hi).1 }

theorem Own.create (h : Own r fs) {p : Path} {fd : ℕ} (hc : fs.create p = some (fs', fd))
    (hp : r.writer.tmp ≠ p) : Own r fs' := by
  obtain ⟨-, rfl, hnext, hbody, -, hother, hdata⟩ := Files.create_spec hc
  have hne : r.writer.fd ≠ fs.next := Nat.ne_of_lt h.lt
  refine { h with lt := ?_, written := ?_, linked := ?_, body := ?_ }
  · rw [hnext]
    exact Nat.lt_succ_of_lt h.lt
  · rw [hdata _ hne]
    exact h.written
  · intro q hq
    by_cases hqp : q = p
    · subst hqp
      exact absurd (Option.some.inj (hbody.symm.trans hq)).symm hne
    · exact h.linked q ((hother q hqp).symm.trans hq)
  · intro i hi
    exact h.body i ((hother _ hp).symm.trans hi)

theorem Own.rename (h : Own r fs) {p q : Path} (hr : fs.rename p q = some fs')
    (hp : r.writer.tmp ≠ p) (hq : r.writer.tmp ≠ q) : Own r fs' := by
  obtain ⟨hdata, hnext, hbody, -, hgone, hother⟩ := Files.rename_spec hr
  refine { h with lt := ?_, written := ?_, linked := ?_, body := ?_ }
  · rw [hnext]
    exact h.lt
  · rw [hdata]
    exact h.written
  · intro t ht
    by_cases htq : t = q
    · -- the body at `q` was at `p`, which is not this writer's
      subst htq
      exact absurd (h.linked p (hbody.symm.trans ht)).symm hp
    · by_cases htp : t = p
      · subst htp
        cases (hgone htq).symm.trans ht
      · exact h.linked t ((hother t htp htq).symm.trans ht)
  · intro i hi
    exact h.body i ((hother _ hp hq).symm.trans hi)

/-- A chunk is hashed as it is written. -/
theorem Own.took (h : Own r fs) {bytes : Bytes}
    (hfits : bytes = [] ∨ r.writer.bytesWritten + bytes.length ≤ r.writer.limit) :
    Own ⟨r.writer.took bytes, r.chunks ++ [bytes]⟩ (fs.append r.writer.fd bytes) := by
  refine ⟨h.lt, ?_, h.linked, h.body, ?_, ?_, ?_⟩
  · rw [Writer.took, Files.data_append_self, h.written]
  · rw [Writer.took, h.hashed, List.flatten_append, List.flatten_singleton]
  · rw [Writer.took, h.counted, List.length_append]
  · rw [Writer.took, List.length_append, ← h.counted]
    rcases hfits with rfl | hfits
    · rw [h.counted]
      exact h.fits
    · exact hfits

/-- A writer that has just started. -/
theorem Own.start {token : String} {expected : Option String} {limit : ℕ} {w : Writer}
    (h : Writer.start fs token expected limit = (fs', .inr w)) : Own ⟨w, []⟩ fs' := by
  rw [Writer.start] at h
  split at h
  · cases (Prod.mk.inj h).2
  · rename_i fs₁ fd hc
    obtain ⟨rfl, hw⟩ := Prod.mk.inj h
    obtain rfl := Sum.inr.inj hw
    obtain ⟨-, rfl, hnext, hbody, hdata, hother, -⟩ := Files.create_spec hc
    refine ⟨?_, hdata, ?_, ?_, rfl, rfl, Nat.zero_le _⟩
    · rw [hnext]
      exact Nat.lt_succ_self _
    · intro p hp
      by_contra hne
      have hold : fs.body p = some fs.next := (hother p hne).symm.trans hp
      exact absurd (fs.bound p _ hold) (Nat.lt_irrefl _)
    · intro i hi
      exact (Option.some.inj (hbody.symm.trans hi)).symm

end

/-! ## The invariant -/

/-- What every file in a shard is. -/
def Addressed (sha256 : Bytes → String) (stored : List Stored) (fs : Store) : Prop :=
  ∀ shard name bytes, fs.read (.blob shard name) = some bytes →
    sha256 bytes = name ∧ sha256Re name = true ∧ shard = prefixOf 2 name ∧
      ∃ st ∈ stored, st.name = name ∧ st.chunks.flatten = bytes ∧ bytes.length ≤ st.limit

/-- The invariant of the store and its writers. -/
structure Sound (sha256 : Bytes → String) (s : System) : Prop where
  own : ∀ r ∈ s.running, Own r s.fs
  token : ∀ r ∈ s.running, r.writer.token ∈ s.tokens
  apart : s.running.Pairwise fun r r' => r.writer.token ≠ r'.writer.token ∧
    r.writer.fd ≠ r'.writer.fd
  addressed : Addressed sha256 s.stored s.fs
  leftover : ∀ token ∈ s.tokens, s.fs.body (incomingPath token) ≠ none →
    ∃ r ∈ s.running, r.writer.token = token

/-- The store as no writer has touched it. -/
structure Initial (sha256 : Bytes → String) (s : System) : Prop where
  running : s.running = []
  tokens : s.tokens = []
  addressed : Addressed sha256 s.stored s.fs

theorem Initial.sound {s : System} (h : Initial sha256 s) : Sound sha256 s := by
  refine ⟨?_, ?_, ?_, h.addressed, ?_⟩
  · rw [h.running]
    intro _ h
    cases h
  · rw [h.running]
    intro _ h
    cases h
  · rw [h.running]
    exact .nil
  · rw [h.tokens]
    intro _ h
    cases h

/-- Blobs that were there before are as they were. -/
theorem Addressed.mono {stored : List Stored} {fs fs' : Store} (h : Addressed sha256 stored fs)
    (hsub : ∀ shard name bytes, fs'.read (.blob shard name) = some bytes →
      fs.read (.blob shard name) = some bytes) : Addressed sha256 stored fs' :=
  fun shard name bytes hb => h shard name bytes (hsub shard name bytes hb)

theorem read_unlink {fs : Store} {p q : Path} {bytes : Bytes}
    (h : (fs.unlink p).read q = some bytes) : fs.read q = some bytes := by
  obtain ⟨i, hi, hdata⟩ := Option.map_eq_some_iff.mp h
  exact Option.map_eq_some_iff.mpr ⟨i, (Files.body_of_unlink hi).1, hdata⟩

/-- No path but its own sees what a writer writes. -/
theorem Own.read_append {r : Running} {fs : Store} (h : Own r fs) (bytes : Bytes) {p : Path}
    (hp : p ≠ r.writer.tmp) : (fs.append r.writer.fd bytes).read p = fs.read p := by
  rw [Files.read_eq, Files.read_eq, Files.body_append]
  cases hb : fs.body p with
  | none => rfl
  | some i =>
    have hi : i ≠ r.writer.fd := by
      rintro rfl
      exact hp (h.linked p hb)
    exact congrArg some (Files.data_append_ne hi)

theorem blob_ne_incoming (shard name token : String) :
    Path.blob shard name ≠ incomingPath token := by
  intro h
  cases h

/-- Taking files away keeps the invariant. -/
theorem Sound.unlinked {s : System} (h : Sound sha256 s) {fs : Store}
    (hown : ∀ r, Own r s.fs → Own r fs)
    (hbody : ∀ p i, fs.body p = some i → s.fs.body p = some i)
    (hread : ∀ p bytes, fs.read p = some bytes → s.fs.read p = some bytes) :
    Sound sha256 { s with fs } where
  own r hr := hown r (h.own r hr)
  token := h.token
  apart := h.apart
  addressed := h.addressed.mono fun _ _ _ => hread _ _
  leftover token ht hne := by
    refine h.leftover token ht fun hn => hne ?_
    cases hb : fs.body (incomingPath token) with
    | none => rfl
    | some i => cases (hbody _ _ hb).symm.trans hn

theorem Sound.unlink {s : System} (h : Sound sha256 s) (p : Path) :
    Sound sha256 { s with fs := s.fs.unlink p } :=
  h.unlinked (fun _ ho => ho.unlink p) (fun _ _ hi => (Files.body_of_unlink hi).1)
    fun _ _ => read_unlink

theorem Sound.deleteBlob {s : System} (h : Sound sha256 s) (sha : String) :
    Sound sha256 { s with fs := (deleteBlob s.fs sha).1 } := by
  unfold Blobs.deleteBlob
  split
  · exact h
  · split
    · exact h.unlink _
    · exact h

theorem Sound.gcStaleIncoming {s : System} (h : Sound sha256 s) (now maxAge : ℚ)
    (mtime : String → ℚ) :
    Sound sha256 { s with fs := (gcStaleIncoming now maxAge mtime s.fs).1 } := by
  have hfold : ∀ (names : List String) (fs : Store) (n : ℕ), Sound sha256 { s with fs } →
      Sound sha256 { s with fs := (names.foldl (fun (s : Store × ℕ) name =>
        if now - mtime name > maxAge then (s.1.unlink (.incoming name), s.2 + 1) else s)
        (fs, n)).1 } := by
    intro names
    induction names with
    | nil => exact fun fs n hs => hs
    | cons name names ih =>
      intro fs n hs
      rw [List.foldl_cons]
      split
      · exact ih _ _ (hs.unlink _)
      · exact ih _ _ hs
  exact hfold _ _ _ h

/-! ## The steps keep it -/

section
variable {s : System} {before after : List Running} {r : Running} {fs : Store}

/-- The other writers have another file. -/
theorem Sound.others (h : Sound sha256 s) (hr : s.running = before ++ r :: after) :
    Own r s.fs ∧ r.writer.token ∈ s.tokens ∧
      (∀ r' ∈ before ++ after, Own r' s.fs ∧ r'.writer.token ∈ s.tokens ∧
        r'.writer.tmp ≠ r.writer.tmp ∧ r'.writer.fd ≠ r.writer.fd) ∧
      (before ++ after).Pairwise fun r r' =>
        r.writer.token ≠ r'.writer.token ∧ r.writer.fd ≠ r'.writer.fd := by
  have hmem : r ∈ s.running := hr ▸ List.mem_append_right _ List.mem_cons_self
  have happart := h.apart
  rw [hr, List.pairwise_middle fun h => ⟨h.1.symm, h.2.symm⟩, List.pairwise_cons] at happart
  refine ⟨h.own r hmem, h.token r hmem, fun r' hr' => ?_, happart.2⟩
  have hmem' : r' ∈ s.running := by
    rw [hr]
    exact List.Sublist.subset (List.Sublist.append_left (List.sublist_cons_self _ _) _) hr'
  obtain ⟨htoken, hfd⟩ := happart.1 r' hr'
  exact ⟨h.own r' hmem', h.token r' hmem', fun ht => htoken (incomingPath_inj ht).symm, hfd.symm⟩

theorem Sound.took (h : Sound sha256 s) (hr : s.running = before ++ r :: after) {bytes : Bytes}
    (hfits : bytes = [] ∨ r.writer.bytesWritten + bytes.length ≤ r.writer.limit) :
    Sound sha256 ⟨s.fs.append r.writer.fd bytes,
      before ++ ⟨r.writer.took bytes, r.chunks ++ [bytes]⟩ :: after, s.tokens, s.stored⟩ := by
  obtain ⟨hown, htoken, hothers, happart⟩ := h.others hr
  constructor
  · intro r' hr'
    rcases List.mem_cons.mp (List.perm_middle.subset hr') with rfl | hr'
    · exact hown.took hfits
    · exact (hothers r' hr').1.append (hothers r' hr').2.2.2 bytes
  · intro r' hr'
    rcases List.mem_cons.mp (List.perm_middle.subset hr') with rfl | hr'
    · exact htoken
    · exact (hothers r' hr').2.1
  · have hapart := h.apart
    rw [hr, List.pairwise_middle fun h => ⟨h.1.symm, h.2.symm⟩, List.pairwise_cons] at hapart
    rw [List.pairwise_middle fun h => ⟨h.1.symm, h.2.symm⟩, List.pairwise_cons]
    exact hapart
  · exact h.addressed.mono fun shard name b hb =>
      (hown.read_append bytes (blob_ne_incoming shard name _)).symm.trans hb
  · intro token ht hne
    obtain ⟨r', hr', rfl⟩ := h.leftover token ht hne
    rw [hr] at hr'
    rcases List.mem_cons.mp (List.perm_middle.subset hr') with rfl | hr'
    · exact ⟨_, List.mem_append_right _ List.mem_cons_self, rfl⟩
    · exact ⟨r', List.perm_middle.symm.subset (List.mem_cons_of_mem _ hr'), rfl⟩

/-- A token with a file is that of another writer. -/
theorem Sound.over_others (h : Sound sha256 s) (hr : s.running = before ++ r :: after)
    {token : String} (ht : token ∈ s.tokens) (hne : s.fs.body (incomingPath token) ≠ none)
    (hother : token ≠ r.writer.token) : ∃ r' ∈ before ++ after, r'.writer.token = token := by
  obtain ⟨r', hr', rfl⟩ := h.leftover token ht hne
  rw [hr] at hr'
  rcases List.mem_cons.mp (List.perm_middle.subset hr') with rfl | hr'
  · exact absurd rfl hother
  · exact ⟨r', hr', rfl⟩

theorem Sound.failed (h : Sound sha256 s) (hr : s.running = before ++ r :: after) :
    Sound sha256 ⟨s.fs.unlink r.writer.tmp, before ++ after, s.tokens, s.stored⟩ := by
  obtain ⟨-, -, hothers, happart⟩ := h.others hr
  refine ⟨fun r' hr' => (hothers r' hr').1.unlink _, fun r' hr' => (hothers r' hr').2.1, happart,
    h.addressed.mono fun _ _ _ => read_unlink, fun token ht hne => ?_⟩
  have hother : token ≠ r.writer.token := by
    rintro rfl
    exact hne Files.body_unlink_self
  refine h.over_others hr ht (fun hn => hne ?_) hother
  exact (Files.body_unlink_ne fun he => hother (incomingPath_inj he)).trans hn

theorem Sound.placed (h : Sound sha256 s) (hr : s.running = before ++ r :: after)
    {outcome : Outcome} (hp : Placed sha256 r.writer s.fs fs outcome) :
    Sound sha256 ⟨fs, before ++ after, s.tokens,
      ⟨sha256 r.writer.hashed, r.chunks, r.writer.limit⟩ :: s.stored⟩ := by
  obtain ⟨hown, -, hothers, happart⟩ := h.others hr
  obtain ⟨final, fs₁, hfinal, hrename, rfl, -⟩ := hp
  obtain ⟨hre, rfl⟩ : sha256Re (sha256 r.writer.hashed) = true ∧
      final = .blob (prefixOf 2 (sha256 r.writer.hashed)) (sha256 r.writer.hashed) := by
    rw [finalPath] at hfinal
    split at hfinal
    · exact ⟨‹_›, (Except.ok.inj hfinal).symm⟩
    · cases hfinal
  obtain ⟨hdata, -, hbody, hsome, -, hother⟩ := Files.rename_spec hrename
  constructor
  · intro r' hr'
    obtain ⟨hown', -, htmp, -⟩ := hothers r' hr'
    exact (hown'.rename hrename htmp (by rintro ⟨⟩)).unlink _
  · exact fun r' hr' => (hothers r' hr').2.1
  · exact happart
  · intro shard name bytes hb
    have hb₁ := read_unlink hb
    by_cases hpath : Path.blob shard name
        = .blob (prefixOf 2 (sha256 r.writer.hashed)) (sha256 r.writer.hashed)
    · -- the new blob is the writer's body
      obtain ⟨rfl, rfl⟩ := Path.blob.inj hpath
      rw [Files.read_eq, hbody, hdata] at hb₁
      obtain ⟨i, hi, rfl⟩ := Option.map_eq_some_iff.mp hb₁
      obtain rfl := hown.body i hi
      rw [hown.written]
      exact ⟨rfl, hre, rfl, _, List.mem_cons_self, rfl, hown.hashed.symm, hown.fits⟩
    · rw [Files.read_rename_ne hrename (blob_ne_incoming _ _ _) hpath] at hb₁
      obtain ⟨hname, hhex, hshard, st, hst, hrest⟩ := h.addressed shard name bytes hb₁
      exact ⟨hname, hhex, hshard, st, List.mem_cons_of_mem _ hst, hrest⟩
  · intro token ht hne
    have hother' : token ≠ r.writer.token := by
      rintro rfl
      exact hne Files.body_unlink_self
    have hpath : incomingPath token ≠ r.writer.tmp := fun he => hother' (incomingPath_inj he)
    refine h.over_others hr ht (fun hn => hne ?_) hother'
    exact (Files.body_unlink_ne hpath).trans ((hother _ hpath (by rintro ⟨⟩)).trans hn)

end

theorem Writer.start_cases {fs fs' : Store} {token : String} {expected : Option String} {limit : ℕ}
    {r : Failure ⊕ Writer} (h : Writer.start fs token expected limit = (fs', r)) :
    (∃ fd, fs.create (incomingPath token) = some (fs', fd) ∧
      r = .inr ⟨token, fd, [], 0, expected, limit⟩) ∨
    fs' = fs.unlink (incomingPath token) ∧ r = .inl .fileExists := by
  rw [Writer.start] at h
  split at h
  · exact .inr ⟨(Prod.mk.inj h).1.symm, (Prod.mk.inj h).2.symm⟩
  · rename_i fs₁ fd hc
    obtain ⟨rfl, rfl⟩ := Prod.mk.inj h
    exact .inl ⟨fd, hc, rfl⟩

theorem Sound.opened {s : System} (h : Sound sha256 s) {token : String} {expected : Option String}
    {limit : ℕ} {fs : Store} {w : Writer} (hnew : token ∉ s.tokens)
    (hs : Writer.start s.fs token expected limit = (fs, .inr w)) :
    Sound sha256 ⟨fs, ⟨w, []⟩ :: s.running, token :: s.tokens, s.stored⟩ := by
  have hown := Own.start hs
  rcases Writer.start_cases hs with ⟨fd, hc, hw⟩ | ⟨-, hw⟩
  swap
  · cases hw
  obtain rfl := Sum.inr.inj hw
  obtain ⟨-, rfl, -, -, -, hother, -⟩ := Files.create_spec hc
  have htmp : ∀ r ∈ s.running, r.writer.tmp ≠ incomingPath token := fun r hr he =>
    hnew (incomingPath_inj he ▸ h.token r hr)
  constructor
  · intro r hr
    rcases List.mem_cons.mp hr with rfl | hr
    · exact hown
    · exact (h.own r hr).create hc (htmp r hr)
  · intro r hr
    rcases List.mem_cons.mp hr with rfl | hr
    · exact List.mem_cons_self
    · exact List.mem_cons_of_mem _ (h.token r hr)
  · refine List.pairwise_cons.mpr ⟨fun r hr => ⟨?_, ?_⟩, h.apart⟩
    · rintro rfl
      exact hnew (h.token r hr)
    · exact (Nat.ne_of_lt (h.own r hr).lt).symm
  · exact h.addressed.mono fun shard name bytes hb =>
      (Files.read_create_ne hc (blob_ne_incoming shard name _)).symm.trans hb
  · intro token' ht hne
    rcases List.mem_cons.mp ht with rfl | ht
    · exact ⟨_, List.mem_cons_self, rfl⟩
    · have hpath : incomingPath token' ≠ incomingPath token := fun he =>
        hnew (incomingPath_inj he ▸ ht)
      obtain ⟨r, hr, hrt⟩ := h.leftover token' ht fun hn => hne ((hother _ hpath).trans hn)
      exact ⟨r, List.mem_cons_of_mem _ hr, hrt⟩

theorem Sound.refused {s : System} (h : Sound sha256 s) (token : String) :
    Sound sha256 ⟨s.fs.unlink (incomingPath token), s.running, token :: s.tokens, s.stored⟩ := by
  have hu := h.unlink (incomingPath token)
  refine ⟨hu.own, fun r hr => List.mem_cons_of_mem _ (h.token r hr), h.apart, hu.addressed, ?_⟩
  intro token' ht hne
  rcases List.mem_cons.mp ht with rfl | ht
  · exact absurd Files.body_unlink_self hne
  · exact hu.leftover token' ht hne

/-- What a turn of `r`, between `before` and `after`, leaves. -/
def System.resumed (s : System) (before after : List Running) (r : Running) (item : Item)
    (fs : Store) : Outcome ⊕ Writer → System
  | .inr w => ⟨fs, before ++ ⟨w, r.chunks ++ item.chunks⟩ :: after, s.tokens, s.stored⟩
  | .inl (.error _) => ⟨fs, before ++ after, s.tokens, s.stored⟩
  | .inl (.ok (name, _)) =>
    ⟨fs, before ++ after, s.tokens, ⟨name, r.chunks, r.writer.limit⟩ :: s.stored⟩

theorem Sound.resumed {s : System} (h : Sound sha256 s) {before after : List Running} {r : Running}
    (hr : s.running = before ++ r :: after) {item : Item} {fs : Store} {result : Outcome ⊕ Writer}
    (hs : r.writer.resume sha256 s.fs item = (fs, result)) :
    Sound sha256 (s.resumed before after r item fs result) := by
  rcases Writer.resume_cases hs with ⟨bytes, rfl, hfits, rfl, rfl⟩ | ⟨e, rfl, rfl⟩ |
    ⟨outcome, rfl, hplaced⟩
  · exact h.took hr hfits
  · exact h.failed hr
  · have hp := h.placed hr hplaced
    obtain ⟨-, -, -, -, -, rfl⟩ := hplaced
    exact hp

theorem Sound.step {s s' : System} {e : Event} (h : Sound sha256 s) (hs : Step sha256 s e s') :
    Sound sha256 s' := by
  cases hs with
  | start hnew hstart => exact h.opened hnew hstart
  | refuse hnew hstart =>
    rcases Writer.start_cases hstart with ⟨fd, -, hr⟩ | ⟨rfl, -⟩
    · cases hr
    · exact h.refused _
  | turn hr hresume => exact h.resumed hr hresume
  | fail hr hresume => exact h.resumed hr hresume
  | store hr hresume => exact h.resumed hr hresume
  | delete sha => exact h.deleteBlob sha
  | collect now maxAge mtime => exact h.gcStaleIncoming now maxAge mtime

theorem Sound.reachable {s₀ s : System} (h : Sound sha256 s₀) (hs : Reachable sha256 s₀ s) :
    Sound sha256 s := by
  induction hs with
  | refl => exact h
  | step _ hstep ih => exact ih.step hstep

/-! ## What is read of the store -/

theorem Addressed.path {stored : List Stored} {fs : Store} (h : Addressed sha256 stored fs)
    {shard name : String} {bytes : Bytes} (hb : fs.read (.blob shard name) = some bytes) :
    finalPath name = .ok (.blob shard name) := by
  obtain ⟨-, hre, rfl, -⟩ := h shard name bytes hb
  exact if_pos hre

/-- The check before staging passes for every blob there is. -/
theorem Addressed.verify {stored : List Stored} {fs : Store} (h : Addressed sha256 stored fs)
    {shard name : String} {bytes : Bytes} (hb : fs.read (.blob shard name) = some bytes) :
    verifyBlobOnStage sha256 fs name = .ok true := by
  rw [verifyBlobOnStage, h.path hb]
  dsimp only
  rw [hb]
  exact if_neg (not_not_intro (h shard name bytes hb).1)

theorem prefixOf_length {s : String} {n : ℕ} (h : n ≤ s.toList.length) :
    (prefixOf n s).length = n := by
  rw [prefixOf, ← String.length_toList, String.toList_ofList, List.length_take, min_eq_left h]

theorem sha256Re_length {s : String} (h : sha256Re s = true) : 64 ≤ s.toList.length := by
  rw [sha256Re, Bool.and_eq_true, decide_eq_true_eq] at h
  split at h
  · have hdrop : s.toList.dropLast.length = s.toList.length - 1 := List.length_dropLast
    omega
  · exact h.1.ge

/-- The listing has the name of every blob and no other. -/
theorem Addressed.mem_listBlobs {stored : List Stored} {fs : Store} (h : Addressed sha256 stored fs)
    (name : String) :
    name ∈ listBlobs fs ↔ ∃ shard bytes, fs.read (.blob shard name) = some bytes := by
  rw [listBlobs, List.mem_insertionSort, List.mem_filterMap]
  constructor
  · rintro ⟨p, hp, hname⟩
    cases p with
    | incoming => cases hname
    | blob shard name' =>
      dsimp only at hname
      split at hname
      · obtain rfl := Option.some.inj hname
        obtain ⟨i, hi⟩ := Option.isSome_iff_exists.mp (AList.lookup_isSome.mpr hp)
        exact ⟨shard, fs.data i, Option.map_eq_some_iff.mpr ⟨i, hi, rfl⟩⟩
      · cases hname
  · rintro ⟨shard, bytes, hb⟩
    obtain ⟨-, hre, rfl, -⟩ := h shard name bytes hb
    obtain ⟨i, hi, -⟩ := Option.map_eq_some_iff.mp hb
    refine ⟨.blob (prefixOf 2 name) name, AList.lookup_isSome.mp (Option.isSome_of_eq_some hi),
      if_pos ?_⟩
    rw [prefixOf_length (by have := sha256Re_length hre; omega), hre]
    rfl

/-! ## Writes that come to nothing -/

/-- A step of a writer that does not end in a blob. -/
def Event.Unfinished : Event → Prop
  | .opened _ | .turned _ | .failed _ _ => True
  | _ => False

/-- A write that has not ended in a blob has changed none. -/
theorem Sound.read_blob {s s' : System} {e : Event} (h : Sound sha256 s) (hs : Step sha256 s e s')
    (he : e.Unfinished) (shard name : String) :
    s'.fs.read (.blob shard name) = s.fs.read (.blob shard name) := by
  have hresumed {before after : List Running} {r : Running} (hr : s.running = before ++ r :: after)
      {item : Item} {fs : Store} {result : Outcome ⊕ Writer}
      (hres : r.writer.resume sha256 s.fs item = (fs, result)) (hok : ∀ p, result ≠ .inl (.ok p)) :
      fs.read (.blob shard name) = s.fs.read (.blob shard name) := by
    rcases Writer.resume_cases hres with ⟨bytes, -, -, rfl, -⟩ | ⟨-, rfl, -⟩
      | ⟨outcome, rfl, hplaced⟩
    · exact (h.others hr).1.read_append bytes (blob_ne_incoming _ _ _)
    · exact Files.read_unlink_ne (blob_ne_incoming _ _ _)
    · obtain ⟨-, -, -, -, -, rfl⟩ := hplaced
      exact absurd rfl (hok _)
  cases hs with
  | start hnew hstart =>
    rcases Writer.start_cases hstart with ⟨fd, hc, -⟩ | ⟨-, hr⟩
    · exact Files.read_create_ne hc (blob_ne_incoming _ _ _)
    · cases hr
  | refuse hnew hstart =>
    rcases Writer.start_cases hstart with ⟨fd, -, hr⟩ | ⟨rfl, -⟩
    · cases hr
    · exact Files.read_unlink_ne (blob_ne_incoming _ _ _)
  | turn hr hres => exact hresumed hr hres (by rintro _ ⟨⟩)
  | fail hr hres => exact hresumed hr hres (by rintro _ ⟨⟩)
  | store => exact absurd he id
  | delete => exact absurd he id
  | collect => exact absurd he id

/-- A write that is over. -/
def Over (token : String) (s : System) : Prop :=
  token ∈ s.tokens ∧ ∀ r ∈ s.running, r.writer.token ≠ token

theorem Over.read_tmp {s : System} {token : String} (h : Over token s) (hs : Sound sha256 s) :
    s.fs.read (incomingPath token) = none := by
  by_contra hne
  obtain ⟨r, hr, hrt⟩ := hs.leftover token h.1 fun hn => hne (Files.read_eq_none.mpr hn)
  exact h.2 r hr hrt

/-- A failure ends a write. -/
theorem Sound.over_of_failed {s s' : System} {token : String} {e : Failure} (h : Sound sha256 s)
    (hs : Step sha256 s (.failed token e) s') : Over token s' := by
  cases hs with
  | refuse hnew hstart =>
    exact ⟨List.mem_cons_self, fun r hr ht => hnew (ht ▸ h.token r hr)⟩
  | fail hr hres =>
    obtain ⟨-, htoken, hothers, -⟩ := h.others hr
    exact ⟨htoken, fun r' hr' ht => (hothers r' hr').2.2.1 (congrArg incomingPath ht)⟩

theorem Over.step {s s' : System} {token : String} {e : Event} (h : Over token s)
    (hs : Step sha256 s e s') : Over token s' := by
  have hsub {before after : List Running} {r : Running} (hr : s.running = before ++ r :: after) :
      r.writer.token ≠ token ∧ ∀ r' ∈ before ++ after, r'.writer.token ≠ token := by
    have hperm : s.running.Perm (r :: (before ++ after)) := hr ▸ List.perm_middle
    exact ⟨h.2 r (hperm.symm.subset List.mem_cons_self),
      fun r' hr' => h.2 r' (hperm.symm.subset (List.mem_cons_of_mem _ hr'))⟩
  cases hs with
  | start hnew hstart =>
    refine ⟨List.mem_cons_of_mem _ h.1, fun r hr => ?_⟩
    rcases List.mem_cons.mp hr with rfl | hr
    · rcases Writer.start_cases hstart with ⟨fd, -, hw⟩ | ⟨-, hw⟩
      · obtain rfl := Sum.inr.inj hw
        rintro rfl
        exact hnew h.1
      · cases hw
    · exact h.2 r hr
  | refuse hnew hstart => exact ⟨List.mem_cons_of_mem _ h.1, h.2⟩
  | turn hr hres =>
    refine ⟨h.1, fun r' hr' => ?_⟩
    rcases List.mem_cons.mp (List.perm_middle.subset hr') with rfl | hr'
    · rcases Writer.resume_cases hres with ⟨bytes, -, -, -, hw⟩ | ⟨_, -, hw⟩ | ⟨outcome, hw, -⟩
      · obtain rfl := Sum.inr.inj hw
        exact (hsub hr).1
      · cases hw
      · cases hw
    · exact (hsub hr).2 r' hr'
  | fail hr hres => exact ⟨h.1, (hsub hr).2⟩
  | store hr hres => exact ⟨h.1, (hsub hr).2⟩
  | delete sha => exact h
  | collect now maxAge mtime => exact h

theorem Over.reachable {s s' : System} {token : String} (h : Over token s)
    (hs : Reachable sha256 s s') : Over token s' := by
  induction hs with
  | refl => exact h
  | step _ hstep ih => exact ih.step hstep

/-- The store is content-addressed, whatever its writers, deletions and collections do
and in whatever order: each blob has its hash for a name and the first two digits of it
for a shard, and came from a stream within its limit; a write that fails changes no
blob and leaves no file; and left alone the two writers do the same. -/
theorem blob_store_addressed {s₀ s : System} (h₀ : Initial sha256 s₀) (h : Reachable sha256 s₀ s) :
    Addressed sha256 s.stored s.fs ∧
    (∀ e s', Step sha256 s e s' → e.Unfinished →
      ∀ shard name, s'.fs.read (.blob shard name) = s.fs.read (.blob shard name)) ∧
    (∀ token e s', Step sha256 s (.failed token e) s' →
      ∀ s'', Reachable sha256 s' s'' → s''.fs.read (incomingPath token) = none) ∧
    ∀ fs token source expected limit,
      writeStreamAtomicAsync sha256 fs token source expected limit
        = ((writeStreamAtomic sha256 fs token source expected limit).1,
          .inl (writeStreamAtomic sha256 fs token source expected limit).2) := by
  have hs := h₀.sound.reachable h
  refine ⟨hs.addressed, fun e s' hstep he => hs.read_blob hstep he, ?_, writeStreamAtomicAsync_eq⟩
  intro token e s' hstep s'' hreach
  exact ((hs.over_of_failed hstep).reachable hreach).read_tmp ((hs.step hstep).reachable hreach)

/-- A store without files. -/
def emptySystem : System := ⟨⟨∅, fun _ => [], 0, fun _ _ h => absurd h nofun⟩, [], [], []⟩

/-- A digest of all streams. -/
def plainDigest (_ : Bytes) : String := String.ofList (List.replicate 64 'a')

/-- One stream of one byte is written. -/
theorem blob_store_addressed_one :
    ∃ s, Reachable plainDigest emptySystem s ∧ s.fs.read (.blob "aa" (plainDigest [])) = some [71] ∧
      Addressed plainDigest s.stored s.fs := by
  have hinitial : Initial plainDigest emptySystem := ⟨rfl, rfl, (by rintro _ _ _ ⟨⟩)⟩
  have hopened := Reachable.step (.refl : Reachable plainDigest emptySystem _)
    (@Step.start plainDigest emptySystem "0" none 1 _ _ (by rintro ⟨⟩) rfl)
  have hturned := hopened.step (@Step.turn plainDigest _ [] [] _ (.chunk [71]) _ _ rfl rfl)
  have hstored := hturned.step (@Step.store plainDigest _ [] [] _ .stop _ _ _ rfl rfl)
  exact ⟨_, hstored, rfl, (blob_store_addressed hinitial hstored).1⟩

end Turbohaul.Blobs
