/-
# `BinaryPin` — which binary is run

`verify_binary` hashes what is at the path, opens the path again and hashes that, and
keeps the descriptor; a spawn executes the descriptor's file, or without one what is at
the path then.  Between any two calls of the system the path may come to name another
file or none, and any file may be written in place.

  `verify_binary_sha256`     `Point.hashing`
  `open_and_verify_binary`   `Point.pinning`; `os.read` is `Chunk`
  `spawn_sidecar`            `Step.spawn`
  `pinned_binary_runs`

A start goes on where `verify_binary` answers false, with no descriptor
(`mismatch_still_runs`); and a file written in place is not what was hashed
(`overwritten_binary_runs`).
-/
import Mathlib.Data.List.Basic
import Mathlib.Logic.Function.Basic

namespace Turbohaul.BinaryPin

abbrev Bytes := List UInt8

/-- What `os.read` returns behind what was read: some bytes, a mebibyte at most. -/
def Chunk (content read chunk : Bytes) : Prop :=
  chunk ≠ [] ∧ chunk.length ≤ 1024 * 1024 ∧ chunk <+: content.drop read.length

/-- Where `verify_binary` is; a descriptor is the number of the file that it is of. -/
inductive Point where
  | started
  | hashing (file : ℕ) (read : Bytes)
  | checked
  | pinning (fd : ℕ) (read : Bytes)
  | returned (ok : Bool)
  | raised
  | shut

/-- A program that was run: its bytes, whether from the descriptor, and whether its file
had been written since that was opened. -/
structure Exec where
  program : Bytes
  pinned : Bool
  written : Bool

/-- The manager and the file system. -/
structure State where
  path : Option ℕ
  content : ℕ → Bytes
  point : Point := .started
  binaryFd : Option ℕ := none
  opened : List ℕ := []
  written : ℕ → Bool := fun _ => false
  execs : List Exec := []

/-- `os.close`. -/
def State.close (s : State) (fd : ℕ) : State := { s with opened := s.opened.erase fd }

/-- The descriptor of an earlier call is given back. -/
def State.unpin (s : State) : State :=
  match s.binaryFd with
  | some fd => { s.close fd with binaryFd := none }
  | none => s

/-- The file that a spawn executes. -/
def State.program (s : State) : Option ℕ := s.binaryFd.or s.path

variable (digest : Bytes → String) (expected : String)

/-- What may happen: to the files, and in the manager. -/
inductive Step : State → State → Prop
  | rename (s : State) (path : Option ℕ) : Step s { s with path }
  | write (s : State) (file : ℕ) (bytes : Bytes) :
      Step s { s with
        content := Function.update s.content file bytes
        written := Function.update s.written file true }
  | skip {s : State} : s.point = .started → expected = "" →
      Step s { s.unpin with point := .returned true }
  | missing {s : State} : s.point = .started → expected ≠ "" → s.path = none →
      Step s { s with point := .returned false }
  | hash {s : State} {file : ℕ} : s.point = .started → expected ≠ "" → s.path = some file →
      Step s { s with point := .hashing file [] }
  | hashRead {s : State} {file : ℕ} {read chunk : Bytes} : s.point = .hashing file read →
      Chunk (s.content file) read chunk → Step s { s with point := .hashing file (read ++ chunk) }
  | hashed {s : State} {file : ℕ} {read : Bytes} : s.point = .hashing file read →
      (s.content file).length ≤ read.length → digest read = expected →
      Step s { s.unpin with point := .checked }
  | mismatch {s : State} {file : ℕ} {read : Bytes} : s.point = .hashing file read →
      (s.content file).length ≤ read.length → digest read ≠ expected →
      Step s { s with point := .returned false }
  | gone {s : State} : s.point = .checked → s.path = none →
      Step s { s with point := .returned false }
  | pin {s : State} {fd : ℕ} : s.point = .checked → s.path = some fd →
      Step s { s with
        point := .pinning fd []
        opened := fd :: s.opened
        written := Function.update s.written fd false }
  | pinRead {s : State} {fd : ℕ} {read chunk : Bytes} : s.point = .pinning fd read →
      Chunk (s.content fd) read chunk → Step s { s with point := .pinning fd (read ++ chunk) }
  | pinned {s : State} {fd : ℕ} {read : Bytes} : s.point = .pinning fd read →
      (s.content fd).length ≤ read.length → digest read = expected →
      Step s { s with point := .returned true, binaryFd := some fd }
  | drifted {s : State} {fd : ℕ} {read : Bytes} : s.point = .pinning fd read →
      (s.content fd).length ≤ read.length → digest read ≠ expected →
      Step s { s.close fd with point := .returned false }
  | failed {s : State} {fd : ℕ} {read : Bytes} : s.point = .pinning fd read →
      Step s { s.close fd with point := .raised }
  | unread {s : State} {file : ℕ} {read : Bytes} : s.point = .hashing file read →
      Step s { s with point := .raised }
  | vanished {s : State} : s.point = .started ∨ s.point = .checked → s.path = none →
      Step s { s with point := .raised }
  | again {s : State} {ok : Bool} : s.point = .returned ok → Step s { s with point := .started }
  | spawn {s : State} {ok : Bool} {file : ℕ} : s.point = .returned ok → s.program = some file →
      Step s { s with
        execs := s.execs ++ [⟨s.content file, s.binaryFd.isSome, s.written file⟩] }
  | shutdown {s : State} {ok : Bool} : s.point = .returned ok →
      Step s { s.unpin with point := .shut }

/-- What comes of a start. -/
inductive Reachable : State → Prop
  | start (path : Option ℕ) (content : ℕ → Bytes) : Reachable { path, content }
  | step {s s' : State} : Reachable s → Step digest expected s s' → Reachable s'

/-! ## What is held, and what is run -/

variable {digest expected}

/-- The descriptor that is being hashed. -/
def Point.fd? : Point → Option ℕ
  | .pinning fd _ => some fd
  | _ => none

structure Sound (digest : Bytes → String) (expected : String) (s : State) : Prop where
  opened : s.opened = (s.point.fd?.or s.binaryFd).toList
  single : s.point.fd?.isSome → s.binaryFd = none
  free : s.point = .checked ∨ s.point = .shut → s.binaryFd = none
  read : ∀ fd read, s.point = .pinning fd read → s.written fd = false → read <+: s.content fd
  pinned : ∀ fd, s.binaryFd = some fd → s.written fd = false → digest (s.content fd) = expected
  held : s.point = .returned true → expected ≠ "" → s.binaryFd.isSome
  execs : ∀ e ∈ s.execs, e.pinned = true → e.written = false → digest e.program = expected

theorem Chunk.prefix {content read chunk : Bytes} (h : Chunk content read chunk)
    (hread : read <+: content) : read ++ chunk <+: content := by
  obtain ⟨rest, rfl⟩ := hread
  obtain ⟨-, -, hchunk⟩ := h
  rw [List.drop_left] at hchunk
  exact (List.prefix_append_right_inj read).mpr hchunk

/-- What is left when a descriptor was given back. -/
theorem unpin_eq (s : State) (h : s.opened = s.binaryFd.toList) :
    s.unpin = { s with binaryFd := none, opened := [] } := by
  unfold State.unpin
  cases hfd : s.binaryFd with
  | none =>
    rw [hfd] at h
    have h : s.opened = [] := h
    show s = { s with binaryFd := none, opened := [] }
    rw [← hfd, ← h]
  | some fd =>
    rw [hfd] at h
    show { s with opened := s.opened.erase fd, binaryFd := none } =
      { s with binaryFd := none, opened := [] }
    rw [h]
    simp

namespace Sound

variable {s : State}

theorem start (path : Option ℕ) (content : ℕ → Bytes) :
    Sound digest expected { path, content } where
  opened := rfl
  single h := rfl
  free h := rfl
  read fd read h := by cases h
  pinned fd h := by cases h
  held h := by cases h
  execs e h := by cases h

/-- The manager goes on without a descriptor in hand. -/
theorem goOn (H : Sound digest expected s) (hfd : s.point.fd? = none) {point : Point}
    (hpoint : point.fd? = none) (hfree : point = .checked ∨ point = .shut → s.binaryFd = none)
    (hheld : point = .returned true → expected ≠ "" → s.binaryFd.isSome) :
    Sound digest expected { s with point } where
  opened := by
    have hopened := H.opened
    rw [hfd] at hopened
    show s.opened = (point.fd?.or s.binaryFd).toList
    rwa [hpoint]
  single h := by
    have h : point.fd?.isSome := h
    rw [hpoint] at h
    cases h
  free := hfree
  read fd read h := by
    have h : point = .pinning fd read := h
    rw [h] at hpoint
    cases hpoint
  pinned := H.pinned
  held := hheld
  execs := H.execs

/-- And gives back the one it had. -/
theorem unpinned (H : Sound digest expected s) (hfd : s.point.fd? = none) {point : Point}
    (hpoint : point.fd? = none) (hheld : point = .returned true → expected = "") :
    Sound digest expected { s.unpin with point } := by
  have hopened := H.opened
  rw [hfd, Option.none_or] at hopened
  rw [unpin_eq s hopened]
  refine ⟨?_, fun _ => rfl, fun _ => rfl, fun fd read h => ?_, (fun fd h => by cases h),
    fun h hne => ?_, H.execs⟩
  · show [] = (point.fd?.or none).toList
    rw [hpoint]
    rfl
  · have h : point = .pinning fd read := h
    rw [h] at hpoint
    cases hpoint
  · exact absurd (hheld h) hne

/-- The descriptor in hand is given back. -/
theorem closed (H : Sound digest expected s) {fd : ℕ} {read : Bytes}
    (hat : s.point = .pinning fd read)
    {point : Point} (hpoint : point.fd? = none) (hheld : point ≠ .returned true) :
    Sound digest expected { s.close fd with point } := by
  have hopened := H.opened
  have hnone : s.binaryFd = none := H.single (by rw [hat]; rfl)
  rw [hat, hnone] at hopened
  refine ⟨?_, fun _ => hnone, fun _ => hnone, fun fd' read' h => ?_, H.pinned,
    fun h => absurd h hheld, H.execs⟩
  · show s.opened.erase fd = (point.fd?.or s.binaryFd).toList
    rw [hopened, hpoint, hnone]
    simp [Point.fd?]
  · have h : point = .pinning fd' read' := h
    rw [h] at hpoint
    cases hpoint

theorem step {s' : State} (H : Sound digest expected s) (hstep : Step digest expected s s') :
    Sound digest expected s' := by
  cases hstep with
  | rename path => exact ⟨H.opened, H.single, H.free, H.read, H.pinned, H.held, H.execs⟩
  | write file bytes =>
    refine ⟨H.opened, H.single, H.free, fun fd read hat hwritten => ?_, fun fd hfd hwritten => ?_,
      H.held, H.execs⟩
    · have hwritten : Function.update s.written file true fd = false := hwritten
      show read <+: Function.update s.content file bytes fd
      by_cases hne : fd = file
      · rw [hne, Function.update_self] at hwritten
        cases hwritten
      · rw [Function.update_of_ne hne] at hwritten ⊢
        exact H.read fd read hat hwritten
    · have hwritten : Function.update s.written file true fd = false := hwritten
      show digest (Function.update s.content file bytes fd) = expected
      by_cases hne : fd = file
      · rw [hne, Function.update_self] at hwritten
        cases hwritten
      · rw [Function.update_of_ne hne] at hwritten ⊢
        exact H.pinned fd hfd hwritten
  | skip hat hexpected => exact H.unpinned (by rw [hat]; rfl) rfl fun _ => hexpected
  | missing hat => exact H.goOn (by rw [hat]; rfl) rfl (by simp) fun h => by cases h
  | hash hat => exact H.goOn (by rw [hat]; rfl) rfl (by simp) fun h => by cases h
  | hashRead hat => exact H.goOn (by rw [hat]; rfl) rfl (by simp) fun h => by cases h
  | hashed hat => exact H.unpinned (by rw [hat]; rfl) rfl fun h => by cases h
  | mismatch hat => exact H.goOn (by rw [hat]; rfl) rfl (by simp) fun h => by cases h
  | gone hat => exact H.goOn (by rw [hat]; rfl) rfl (by simp) fun h => by cases h
  | unread hat => exact H.goOn (by rw [hat]; rfl) rfl (by simp) fun h => by cases h
  | vanished hat =>
    have hfd : s.point.fd? = none := by
      rcases hat with hat | hat
      · rw [hat]
        rfl
      · rw [hat]
        rfl
    exact H.goOn hfd rfl (by simp) fun h => by cases h
  | again hat => exact H.goOn (by rw [hat]; rfl) rfl (by simp) fun h => by cases h
  | @pin fd hat _ =>
    have hnone := H.free (.inl hat)
    have hopened := H.opened
    rw [hat, hnone] at hopened
    refine ⟨congrArg (fd :: ·) hopened, fun _ => hnone, fun _ => hnone, fun fd' read' h _ => ?_,
      fun fd' h => ?_, (fun h => by cases h), H.execs⟩
    · cases h
      exact List.nil_prefix
    · have h : s.binaryFd = some fd' := h
      rw [hnone] at h
      cases h
  | @pinRead fd read chunk hat hchunk =>
    have hnone : s.binaryFd = none := H.single (by rw [hat]; rfl)
    have hopened := H.opened
    rw [hat] at hopened
    refine ⟨hopened, fun _ => hnone, fun _ => hnone, fun fd' read' h hwritten => ?_, H.pinned,
      (fun h => by cases h), H.execs⟩
    cases h
    exact hchunk.prefix (H.read fd read hat hwritten)
  | @pinned fd read hat hend hdigest =>
    have hopened := H.opened
    rw [hat] at hopened
    refine ⟨hopened, (fun h => by cases h), (by simp), (fun _ _ h => by cases h),
      fun fd' h hwritten => ?_, fun _ _ => rfl, H.execs⟩
    cases h
    rw [← (H.read fd read hat hwritten).eq_of_length_le hend, hdigest]
  | drifted hat => exact H.closed hat rfl fun h => by cases h
  | failed hat => exact H.closed hat rfl fun h => by cases h
  | @spawn ok file hat hprogram =>
    refine ⟨H.opened, H.single, H.free, H.read, H.pinned, H.held, fun e he hpinned hwritten => ?_⟩
    rcases List.mem_append.mp he with he | he
    · exact H.execs e he hpinned hwritten
    · rw [List.mem_singleton.mp he] at hpinned hwritten ⊢
      obtain ⟨fd, hfd⟩ := Option.isSome_iff_exists.mp hpinned
      rw [State.program, hfd] at hprogram
      obtain rfl := Option.some.inj hprogram
      exact H.pinned fd hfd hwritten
  | shutdown hat => exact H.unpinned (by rw [hat]; rfl) rfl fun h => by cases h

end Sound

theorem reachable_sound {s : State} (hs : Reachable digest expected s) :
    Sound digest expected s := by
  induction hs with
  | start path content => exact Sound.start path content
  | step _ hstep ih => exact ih.step hstep

/-- Whatever becomes of the path, a program that was run from the descriptor has the
expected digest unless its file was written in place; and once a digest is expected and
`verify_binary` has answered true the next one is run from it.  One descriptor at most
is open, and none once the manager is shut. -/
theorem pinned_binary_runs {s : State} (hs : Reachable digest expected s) :
    (∀ e ∈ s.execs, e.pinned = true → e.written = false → digest e.program = expected) ∧
      (s.point = .returned true → expected ≠ "" → ∃ fd, s.binaryFd = some fd ∧ s.program = some fd ∧
        (s.written fd = false → digest (s.content fd) = expected)) ∧
      s.opened.length ≤ 1 ∧ (s.point = .shut → s.opened = []) := by
  have H := reachable_sound hs
  refine ⟨H.execs, fun hat hne => ?_, ?_, fun hat => ?_⟩
  · obtain ⟨fd, hfd⟩ := Option.isSome_iff_exists.mp (H.held hat hne)
    refine ⟨fd, hfd, ?_, H.pinned fd hfd⟩
    rw [State.program, hfd]
    rfl
  · rw [H.opened]
    exact Option.length_toList_le
  · rw [H.opened, hat, H.free (.inr hat)]
    rfl

/-- A digest that tells two programs apart. -/
def goodOne (b : Bytes) : String := if b = [1] then "good" else "bad"

/-- The program that is expected lies at the path, is hashed and is pinned. -/
theorem reachable_pinned : ∃ s, Reachable goodOne "good" s ∧ s.point = .returned true ∧
    s.binaryFd = some 0 ∧ s.content 0 = [1] ∧ s.written 0 = false ∧ s.execs = [] := by
  have hchunk : Chunk [1] [] [1] := ⟨List.cons_ne_nil _ _, by decide, List.prefix_refl _⟩
  have hstart : Reachable goodOne "good" { path := some 0, content := fun _ => [1] } := .start _ _
  have hhash := hstart.step (.hash rfl (by decide) rfl)
  have hread := hhash.step (.hashRead rfl hchunk)
  have hhashed := hread.step (.hashed rfl (by decide) (by decide))
  have hpin := hhashed.step (.pin rfl rfl)
  have hread := hpin.step (.pinRead rfl hchunk)
  have hpinned := hread.step (.pinned rfl (by decide) (by decide))
  exact ⟨_, hpinned, rfl, rfl, rfl, rfl, rfl⟩

theorem pinned_binary_runs_renamed :
    ∃ s : State, s.path = some 1 ∧ s.execs = [⟨[1], true, false⟩] ∧
      (∀ e ∈ s.execs, e.pinned = true → e.written = false → goodOne e.program = "good") ∧
      (s.point = .returned true → "good" ≠ "" → ∃ fd, s.binaryFd = some fd ∧ s.program = some fd ∧
        (s.written fd = false → goodOne (s.content fd) = "good")) ∧
      s.opened.length ≤ 1 ∧ (s.point = .shut → s.opened = []) := by
  obtain ⟨s, hs, hat, hfd, hcontent, hwritten, hexecs⟩ := reachable_pinned
  have hrename := hs.step (.rename s (some 1))
  have hprogram : ({ s with path := some 1 } : State).program = some 0 := by
    rw [State.program, hfd]
    rfl
  have hspawn := hrename.step (.spawn hat hprogram)
  refine ⟨_, rfl, ?_, pinned_binary_runs hspawn⟩
  show s.execs ++ [⟨s.content 0, s.binaryFd.isSome, s.written 0⟩] = _
  rw [hexecs, hcontent, hfd, hwritten]
  rfl

/-- The file that is pinned is written in place, and what runs is not what was hashed. -/
theorem overwritten_binary_runs :
    ∃ s : State, Reachable goodOne "good" s ∧ s.point = .returned true ∧
      s.execs = [⟨[2], true, true⟩] ∧ goodOne [2] ≠ "good" := by
  obtain ⟨s, hs, hat, hfd, -, -, hexecs⟩ := reachable_pinned
  have hwrite := hs.step (.write s 0 [2])
  have hprogram : ({ s with
      content := Function.update s.content 0 [2]
      written := Function.update s.written 0 true } : State).program = some 0 := by
    rw [State.program, hfd]
    rfl
  have hspawn := hwrite.step (.spawn hat hprogram)
  refine ⟨_, hspawn, hat, ?_, by decide⟩
  show s.execs ++
    [⟨Function.update s.content 0 [2] 0, s.binaryFd.isSome, Function.update s.written 0 true 0⟩] = _
  rw [hexecs, hfd, Function.update_self, Function.update_self]
  rfl

/-- What lies at the path has another digest; it is run all the same, from the path. -/
theorem mismatch_still_runs :
    ∃ s : State, Reachable goodOne "good" s ∧ s.point = .returned false ∧
      s.execs = [⟨[2], false, false⟩] ∧ goodOne [2] ≠ "good" := by
  have hchunk : Chunk [2] [] [2] := ⟨List.cons_ne_nil _ _, by decide, List.prefix_refl _⟩
  have hstart : Reachable goodOne "good" { path := some 0, content := fun _ => [2] } := .start _ _
  have hhash := hstart.step (.hash rfl (by decide) rfl)
  have hread := hhash.step (.hashRead rfl hchunk)
  have hmismatch := hread.step (.mismatch rfl (by decide) (by decide))
  have hspawn := hmismatch.step (.spawn rfl (show _ = some 0 from rfl))
  exact ⟨_, hspawn, rfl, rfl, by decide⟩

end Turbohaul.BinaryPin
