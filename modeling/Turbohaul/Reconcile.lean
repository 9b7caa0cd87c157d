/-
# `Reconcile` — the slots table at boot

The `slots` table of `state.py` and what `boot_reconcile` does to it.  Rows that are
open and hold a pid are ended unless the pid is live, then open rows without a pid
unless they are `IDLE_HOT`; each is found by a `SELECT` and ended by an `UPDATE` of
its own, at a time of its own.

  `known_active_pids`         `knownActivePids`
  `mark_slot_ended`           `markSlotEnded`
  `reconcile_orphaned_slots`  `reconcileOrphanedSlots`
  `Open`, `Orphaned`          what is to be closed, and what is left open wrongly
  `markRows_spec`             a loop of updates, as a relation of the rows before and after
  `reconcile_spec`            and the two one after the other
-/
import Mathlib.Data.List.Forall2
import Mathlib.Data.List.Nodup
import Mathlib.Tactic.Common

namespace Turbohaul.Reconcile

/-- A row of `slots`. -/
structure SlotRow where
  slotId : String
  modelTag : String
  threadId : Option String
  state : String
  port : Option Int
  pid : Option Int
  createdAt : String
  updatedAt : String
  endedAt : Option String
  endReason : Option String
  extensionCount : Int
  clientMetaJson : Option String
deriving DecidableEq

/-- The table: `slot_id` is its primary key, which every writer binds to a text. -/
@[ext]
structure SlotsTable where
  rows : List SlotRow
  primaryKey : (rows.map (·.slotId)).Nodup

/-- `SELECT … WHERE`. -/
def SlotsTable.select (t : SlotsTable) (p : SlotRow → Bool) : List SlotRow := t.rows.filter p

/-- What `mark_slot_ended` sets. -/
def SlotRow.ended (row : SlotRow) (now reason : String) : SlotRow :=
  { row with state := "COLD", endedAt := some now, endReason := some reason, updatedAt := now }

/-- `UPDATE slots SET … WHERE slot_id=?`, of one row. -/
def SlotRow.mark (now slotId reason : String) (row : SlotRow) : SlotRow :=
  if row.slotId = slotId then row.ended now reason else row

theorem SlotRow.mark_slotId (now slotId reason : String) (row : SlotRow) :
    (row.mark now slotId reason).slotId = row.slotId := by
  unfold SlotRow.mark
  split <;> rfl

/-- `mark_slot_ended`. -/
def SlotsTable.markSlotEnded (t : SlotsTable) (now slotId reason : String) : SlotsTable where
  rows := t.rows.map (SlotRow.mark now slotId reason)
  primaryKey := by
    have hid : (fun row : SlotRow => row.slotId) ∘ SlotRow.mark now slotId reason = (·.slotId) :=
      funext (SlotRow.mark_slotId now slotId reason)
    rw [List.map_map, hid]
    exact t.primaryKey

/-- `state NOT IN ('POPPED', 'COLD') AND ended_at IS NULL`. -/
def SlotRow.active (row : SlotRow) : Bool :=
  row.state ∉ ["POPPED", "COLD"] && row.endedAt.isNone

/-- `known_active_pids`: no pid is 0. -/
def SlotsTable.knownActivePids (t : SlotsTable) : List Int :=
  ((t.select fun row => row.pid.isSome && row.active).filterMap (·.pid)).filter (· ≠ 0)

/-- A loop over rows that marks those that are to go, each at the time its mark is
made, and counts. -/
def markRows (now : ℕ → String) (reason : String) (goes : SlotRow → Bool) :
    List SlotRow → ℕ × SlotsTable → ℕ × SlotsTable
  | [], s => s
  | row :: rows, s =>
    markRows now reason goes rows
      (if goes row then (s.1 + 1, s.2.markSlotEnded (now s.1) row.slotId reason) else s)

/-- `row["pid"] not in live_pids`. -/
def SlotRow.dead (live : Int → Bool) (row : SlotRow) : Bool := !row.pid.any live

/-- `reconcile_orphaned_slots`: how many rows were marked, and the table; `now n` is
the time of the mark after `n` others. -/
def SlotsTable.reconcileOrphanedSlots (t : SlotsTable) (now : ℕ → String) (live : Int → Bool) :
    ℕ × SlotsTable :=
  let rows := t.select fun row => row.pid.isSome && row.active
  let s := markRows now "boot-reconcile-orphaned-pid" (SlotRow.dead live) rows (0, t)
  let rows := s.2.select fun row =>
    row.pid.isNone && row.state ∉ ["POPPED", "COLD", "IDLE_HOT"] && row.endedAt.isNone
  markRows now "boot-reconcile-pre-active-orphan" (fun _ => true) rows s

/-- The table after `boot_reconcile`, and how many rows were marked; `alive` is
`check_alive`. -/
def SlotsTable.bootReconcile (t : SlotsTable) (now : ℕ → String) (alive : Int → Bool) :
    ℕ × SlotsTable :=
  let livePids := t.knownActivePids.filter alive
  t.reconcileOrphanedSlots now fun pid => livePids.contains pid

/-! ## One loop -/

/-- What the marks on some rows make of a row. -/
def Marked (reason : String) (goes : SlotRow → Prop) (old new : SlotRow) : Prop :=
  (goes old ∧ ∃ time, new = old.ended time reason) ∨ (¬ goes old ∧ new = old)

theorem markRows_forall₂ (now : ℕ → String) (reason : String) (goes : SlotRow → Bool)
    (rows : List SlotRow) : ∀ s : ℕ × SlotsTable,
      (markRows now reason goes rows s).1 = s.1 + (rows.filter goes).length ∧
      List.Forall₂ (Marked reason fun row => row.slotId ∈ (rows.filter goes).map (·.slotId))
        s.2.rows (markRows now reason goes rows s).2.rows := by
  induction rows with
  | nil =>
    intro s
    exact ⟨rfl, List.forall₂_same.mpr fun row _ => .inr ⟨List.not_mem_nil, rfl⟩⟩
  | cons row rows ih =>
    intro s
    rw [markRows]
    by_cases hgoes : goes row = true
    · rw [if_pos hgoes, List.filter_cons_of_pos hgoes, List.map_cons, List.length_cons]
      obtain ⟨hn, hrows⟩ := ih (s.1 + 1, s.2.markSlotEnded (now s.1) row.slotId reason)
      refine ⟨by rw [hn]; omega, ?_⟩
      rw [SlotsTable.markSlotEnded, List.forall₂_map_left_iff] at hrows
      refine hrows.imp fun old new h => ?_
      rw [Marked, SlotRow.mark_slotId] at h
      -- a row that is marked twice is marked, at the later time
      by_cases hid : old.slotId = row.slotId
      · left
        refine ⟨hid ▸ List.mem_cons_self, ?_⟩
        rw [SlotRow.mark, if_pos hid] at h
        rcases h with ⟨-, time, rfl⟩ | ⟨-, rfl⟩
        · exact ⟨time, rfl⟩
        · exact ⟨_, rfl⟩
      · rw [SlotRow.mark, if_neg hid] at h
        rw [Marked, List.mem_cons, or_iff_right hid]
        exact h
    · rw [if_neg hgoes, List.filter_cons_of_neg hgoes]
      exact ih s

/-- The rows of a table with given ids. -/
theorem SlotsTable.mem_ids {t : SlotsTable} (p : SlotRow → Bool) {row : SlotRow}
    (hrow : row ∈ t.rows) : row.slotId ∈ (t.rows.filter p).map (·.slotId) ↔ p row = true := by
  constructor
  · intro h
    obtain ⟨row', hrow', hid⟩ := List.mem_map.mp h
    obtain ⟨hmem, hp⟩ := List.mem_filter.mp hrow'
    rw [← List.inj_on_of_nodup_map t.primaryKey hmem hrow hid]
    exact hp
  · intro h
    exact List.mem_map_of_mem (List.mem_filter.mpr ⟨hrow, h⟩)

/-- A loop over the rows that a `SELECT` gives marks those of the table that the
`SELECT` and the loop both pick. -/
theorem markRows_spec (now : ℕ → String) (reason : String) (goes picks : SlotRow → Bool)
    (s : ℕ × SlotsTable) :
    (markRows now reason goes (s.2.select picks) s).1 =
        s.1 + s.2.rows.countP (fun row => goes row && picks row) ∧
      List.Forall₂ (Marked reason fun row => (goes row && picks row) = true)
        s.2.rows (markRows now reason goes (s.2.select picks) s).2.rows := by
  obtain ⟨hn, hrows⟩ := markRows_forall₂ now reason goes (s.2.select picks) s
  rw [SlotsTable.select, List.filter_filter] at hn hrows
  refine ⟨by rw [SlotsTable.select, hn, List.countP_eq_length_filter], ?_⟩
  rw [List.forall₂_iff_get] at hrows ⊢
  refine ⟨hrows.1, fun i h₁ h₂ => ?_⟩
  have h := hrows.2 i h₁ h₂
  rw [Marked, SlotsTable.mem_ids _ (List.get_mem _ _)] at h
  exact h

/-! ## Both -/

/-- Open: not ended, and neither popped nor cold. -/
def SlotRow.Open (row : SlotRow) : Prop :=
  row.endedAt = none ∧ row.state ≠ "POPPED" ∧ row.state ≠ "COLD"

/-- May stay open: its pid is live, or it has none and is hot. -/
def SlotRow.Kept (live : Int → Bool) (row : SlotRow) : Prop :=
  (∃ pid, row.pid = some pid ∧ live pid = true) ∨ (row.pid = none ∧ row.state = "IDLE_HOT")

/-- What becomes of a row: it is ended if it is open and may not stay so. -/
def Reconciled (live : Int → Bool) (old new : SlotRow) : Prop :=
  ((old.Open ∧ ¬ old.Kept live) ∧ ∃ time reason, new = old.ended time reason) ∨
    (¬ (old.Open ∧ ¬ old.Kept live) ∧ new = old)

/-- Two loops of which the second picks no row that is ended are one. -/
theorem marked_trans {r₁ r₂ : String} {p₁ p₂ : SlotRow → Bool}
    (hended : ∀ (row : SlotRow) time, p₂ (row.ended time r₁) = false) {old mid : List SlotRow}
    (h₁ : List.Forall₂ (Marked r₁ fun row => p₁ row = true) old mid) :
    ∀ {new : List SlotRow}, List.Forall₂ (Marked r₂ fun row => p₂ row = true) mid new →
      old.countP p₁ + mid.countP p₂ = old.countP (fun row => p₁ row || p₂ row) ∧
      List.Forall₂ (fun o n => ((p₁ o || p₂ o) = true ∧ ∃ time reason, n = o.ended time reason) ∨
        (¬ (p₁ o || p₂ o) = true ∧ n = o)) old new := by
  induction h₁ with
  | nil =>
    intro new h₂
    cases h₂
    exact ⟨rfl, .nil⟩
  | @cons o m _ _ hom _ ih =>
    intro new h₂
    obtain _ | ⟨hmn, h₂⟩ := h₂
    obtain ⟨hcount, hrows⟩ := ih h₂
    simp only [List.countP_cons]
    rcases hom with ⟨ho, time, rfl⟩ | ⟨ho, rfl⟩
    · rcases hmn with ⟨hm, -⟩ | ⟨-, rfl⟩
      · exact absurd hm (by rw [hended]; intro h; cases h)
      · refine ⟨?_, .cons (.inl ⟨by rw [ho]; rfl, time, r₁, rfl⟩) hrows⟩
        rw [ho, hended, Bool.true_or, if_pos rfl, if_neg Bool.false_ne_true, ← hcount]
        omega
    · rw [Bool.not_eq_true] at ho
      refine ⟨?_, .cons ?_ hrows⟩
      · simp only [ho, Bool.false_or, Bool.false_eq_true, if_false]
        omega
      · simp only [ho, Bool.false_or]
        rcases hmn with ⟨hm, time, rfl⟩ | ⟨hm, rfl⟩
        · exact .inl ⟨hm, time, r₂, rfl⟩
        · exact .inr ⟨hm, rfl⟩

/-- The rows that one of the two passes picks. -/
def orphaned (live : Int → Bool) (row : SlotRow) : Bool :=
  (row.dead live && (row.pid.isSome && row.active)) ||
    (row.pid.isNone && row.state ∉ ["POPPED", "COLD", "IDLE_HOT"] && row.endedAt.isNone)

theorem orphaned_iff (live : Int → Bool) (row : SlotRow) :
    orphaned live row = true ↔ row.Open ∧ ¬ row.Kept live := by
  unfold orphaned SlotRow.dead SlotRow.active SlotRow.Open SlotRow.Kept
  cases row.pid <;> cases row.endedAt <;> simp <;> tauto

theorem reconcile_spec (now : ℕ → String) (live : Int → Bool) (t : SlotsTable) :
    (t.reconcileOrphanedSlots now live).1 = t.rows.countP (orphaned live) ∧
      List.Forall₂ (Reconciled live) t.rows (t.reconcileOrphanedSlots now live).2.rows := by
  obtain ⟨hn₁, h₁⟩ := markRows_spec now "boot-reconcile-orphaned-pid" (SlotRow.dead live)
    (fun row => row.pid.isSome && row.active) (0, t)
  obtain ⟨hn₂, h₂⟩ := markRows_spec now "boot-reconcile-pre-active-orphan" (fun _ => true)
    (fun row => row.pid.isNone && row.state ∉ ["POPPED", "COLD", "IDLE_HOT"] && row.endedAt.isNone)
    (markRows now "boot-reconcile-orphaned-pid" (SlotRow.dead live)
      (t.select fun row => row.pid.isSome && row.active) (0, t))
  simp only [Bool.true_and] at hn₂ h₂
  obtain ⟨hcount, hrows⟩ := marked_trans (fun row time => by simp [SlotRow.ended]) h₁ h₂
  rw [hn₁, Nat.zero_add] at hn₂
  refine ⟨hn₂.trans hcount, hrows.imp fun old new h => ?_⟩
  have hiff := orphaned_iff live old
  unfold orphaned at hiff
  rw [hiff] at h
  exact h

/-! ## At boot -/

theorem Reconciled.slotId {live : Int → Bool} {old new : SlotRow} (h : Reconciled live old new) :
    new.slotId = old.slotId := by
  rcases h with ⟨-, time, reason, rfl⟩ | ⟨-, rfl⟩
  · rfl
  · rfl

/-- A row that is open afterwards was open and may stay so. -/
theorem Reconciled.kept {live : Int → Bool} {old new : SlotRow} (h : Reconciled live old new)
    (hopen : new.Open) : new.Kept live := by
  rcases h with ⟨-, time, reason, rfl⟩ | ⟨h, rfl⟩
  · cases hopen.1
  · by_contra hkept
    exact h ⟨hopen, hkept⟩

/-- It is changed exactly if it is ended. -/
theorem Reconciled.ne_iff {live : Int → Bool} {old new : SlotRow} (h : Reconciled live old new) :
    orphaned live old = true ↔ old ≠ new := by
  rw [orphaned_iff]
  rcases h with ⟨h, time, reason, rfl⟩ | ⟨h, rfl⟩
  · refine iff_of_true h fun he => ?_
    have hended := congrArg SlotRow.endedAt he
    rw [h.1.1] at hended
    cases hended
  · exact iff_of_false h fun hne => hne rfl

/-- Both count the rows that change. -/
theorem countP_changed {live : Int → Bool} {old new : List SlotRow}
    (h : List.Forall₂ (Reconciled live) old new) :
    old.countP (orphaned live) = (old.zip new).countP fun rows => rows.1 ≠ rows.2 := by
  induction h with
  | nil => rfl
  | @cons o n _ _ hon _ ih =>
    rw [List.zip_cons_cons, List.countP_cons, List.countP_cons, ih]
    simp only [hon.ne_iff, decide_eq_true_eq]

theorem open_kept {now : ℕ → String} {live : Int → Bool} {t : SlotsTable} {row : SlotRow}
    (hrow : row ∈ (t.reconcileOrphanedSlots now live).2.rows) (hopen : row.Open) :
    row.Kept live := by
  obtain ⟨hlen, h⟩ := List.forall₂_iff_get.mp (reconcile_spec now live t).2
  obtain ⟨i, rfl⟩ := List.mem_iff_get.mp hrow
  have hi : i.val < t.rows.length := by
    rw [hlen]
    exact i.isLt
  exact (h i hi i.isLt).kept hopen

/-- Where nothing is orphaned nothing is done. -/
theorem reconcile_idle {now : ℕ → String} {live : Int → Bool} {t : SlotsTable}
    (h : ∀ row ∈ t.rows, row.Open → row.Kept live) :
    t.reconcileOrphanedSlots now live = (0, t) := by
  obtain ⟨hn, hrows⟩ := reconcile_spec now live t
  have hnone : ∀ row ∈ t.rows, ¬ orphaned live row = true := fun row hrow ho =>
    ((orphaned_iff live row).mp ho).2 (h row hrow ((orphaned_iff live row).mp ho).1)
  rw [List.countP_eq_zero.mpr hnone] at hn
  have hsame : t.rows = (t.reconcileOrphanedSlots now live).2.rows := by
    rw [← List.forall₂_eq_eq_eq]
    rw [List.forall₂_iff_get] at hrows ⊢
    refine ⟨hrows.1, fun i h₁ h₂ => ?_⟩
    by_contra hne
    exact hnone _ (List.get_mem _ ⟨i, h₁⟩) ((hrows.2 i h₁ h₂).ne_iff.mpr hne)
  exact Prod.ext hn (SlotsTable.ext hsame.symm)

/-- A reconciled table: what is open in it has a pid that is live, or none and is
`IDLE_HOT`; the rows of live pids, those already ended and those popped or cold are as
they were; the count is of the rows that changed; and to reconcile it once more does
nothing. -/
theorem reconcile_leaves_live (now now' : ℕ → String) (live : Int → Bool) (t : SlotsTable) :
    let r := t.reconcileOrphanedSlots now live
    (∀ row ∈ r.2.rows, row.endedAt = none → row.state ∉ ["POPPED", "COLD"] →
      (∃ pid, row.pid = some pid ∧ live pid = true) ∨ (row.pid = none ∧ row.state = "IDLE_HOT")) ∧
    List.Forall₂ (fun old new => new.slotId = old.slotId ∧
      ((∃ pid, old.pid = some pid ∧ live pid = true) ∨ old.endedAt ≠ none ∨
        old.state ∈ ["POPPED", "COLD"] → new = old)) t.rows r.2.rows ∧
    r.1 = (t.rows.zip r.2.rows).countP (fun rows => rows.1 ≠ rows.2) ∧
    r.2.reconcileOrphanedSlots now' live = (0, r.2) := by
  intro r
  obtain ⟨hn, hrows⟩ := reconcile_spec now live t
  refine ⟨?_, ?_, hn.trans (countP_changed hrows), reconcile_idle fun _ => open_kept⟩
  · intro row hrow hended hstate
    rw [List.mem_pair, not_or] at hstate
    exact open_kept hrow ⟨hended, hstate⟩
  · refine hrows.imp fun old new h => ⟨h.slotId, fun hkeep => ?_⟩
    rcases h with ⟨⟨hopen, hkept⟩, -⟩ | ⟨-, rfl⟩
    · rw [List.mem_pair] at hkeep
      rcases hkeep with hlive | hended | hpopped | hcold
      · exact absurd (.inl hlive) hkept
      · exact absurd hopen.1 hended
      · exact absurd hpopped hopen.2.1
      · exact absurd hcold hopen.2.2
    · rfl

/-- What `boot_reconcile` leaves open runs, or is `IDLE_HOT` without a pid. -/
theorem boot_leaves_alive (now : ℕ → String) (alive : Int → Bool) (t : SlotsTable) {row : SlotRow}
    (hrow : row ∈ (t.bootReconcile now alive).2.rows) (hopen : row.Open) : row.Kept alive := by
  rcases open_kept hrow hopen with ⟨pid, hpid, hlive⟩ | hidle
  · rw [List.contains_iff_mem, List.mem_filter] at hlive
    exact .inl ⟨pid, hpid, hlive.2⟩
  · exact .inr hidle

end Turbohaul.Reconcile
