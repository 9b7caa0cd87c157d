/-
# `SlotRows` — the rows of the slots table over time

`upsert_slot` and `mark_slot_ended` are the only statements that write the table.  No
caller gives an upsert an `ended_at`, and an upsert writes all the columns but the key,
`model_tag` and `created_at`: it opens a row again that was ended before.

  `SlotsTable.upsertSlot`   `upsert_slot`, of what `submit` and `_audit` give it
  `rows_history`            what a row is after any writes
  `SlotsTable.runOneSweep`  `_run_one_sweep`; the `SELECT` may give its rows in any order
  `sweeper_keeps_up`        sweeps among any other writes

A row is open at the end exactly if an upsert was the last to write it.
-/
import Mathlib.Data.List.Induction
import Mathlib.Data.String.Basic
import Turbohaul.Reconcile

namespace Turbohaul.Reconcile

/-- What the callers of `upsert_slot` give it. -/
structure SlotValues where
  slotId : String
  modelTag : String
  threadId : Option String
  state : String
  port : Option Int := none
  pid : Option Int := none
  extensionCount : Int := 0
  clientMetaJson : String

/-- The row that is inserted. -/
def SlotValues.row (v : SlotValues) (now : String) : SlotRow :=
  { slotId := v.slotId, modelTag := v.modelTag, threadId := v.threadId, state := v.state
    port := v.port, pid := v.pid, createdAt := now, updatedAt := now, endedAt := none
    endReason := none, extensionCount := v.extensionCount
    clientMetaJson := some v.clientMetaJson }

/-- `ON CONFLICT(slot_id) DO UPDATE SET …`. -/
def SlotValues.over (v : SlotValues) (now : String) (row : SlotRow) : SlotRow :=
  { v.row now with modelTag := row.modelTag, createdAt := row.createdAt }

/-- The row with an id. -/
def SlotsTable.find (t : SlotsTable) (slotId : String) : Option SlotRow :=
  t.rows.find? fun row => row.slotId = slotId

/-- `upsert_slot`. -/
def SlotsTable.upsertSlot (t : SlotsTable) (now : String) (v : SlotValues) : SlotsTable where
  rows :=
    if v.slotId ∈ t.rows.map (·.slotId) then
      t.rows.map fun row => if row.slotId = v.slotId then v.over now row else row
    else t.rows ++ [v.row now]
  primaryKey := by
    split
    · have hid : (fun row : SlotRow => row.slotId) ∘
          (fun row => if row.slotId = v.slotId then v.over now row else row) = (·.slotId) := by
        funext row
        by_cases hrow : row.slotId = v.slotId
        · simp only [Function.comp_apply, if_pos hrow]
          exact hrow.symm
        · simp only [Function.comp_apply, if_neg hrow]
      rw [List.map_map, hid]
      exact t.primaryKey
    · rename_i hnew
      rw [List.map_append, List.nodup_append]
      refine ⟨t.primaryKey, List.nodup_singleton _, fun a ha b hb hab => hnew ?_⟩
      rw [List.map_singleton, List.mem_singleton] at hb
      exact (hab.trans hb : a = v.slotId) ▸ ha

/-- A statement that writes the table. -/
inductive SlotWrite
  | upsert (now : String) (v : SlotValues)
  | ended (now slotId reason : String)

/-- The row it writes. -/
def SlotWrite.slotId : SlotWrite → String
  | .upsert _ v => v.slotId
  | .ended _ slotId _ => slotId

def SlotsTable.write (t : SlotsTable) : SlotWrite → SlotsTable
  | .upsert now v => t.upsertSlot now v
  | .ended now slotId reason => t.markSlotEnded now slotId reason

def SlotsTable.writeAll (t : SlotsTable) (ws : List SlotWrite) : SlotsTable := ws.foldl write t

/-! ## One write -/

theorem find_slotId {t : SlotsTable} {id : String} {row : SlotRow} (h : t.find id = some row) :
    row.slotId = id := by
  simpa using List.find?_some h

theorem find_isSome {t : SlotsTable} {id : String} :
    (t.find id).isSome ↔ id ∈ t.rows.map (·.slotId) := by
  rw [SlotsTable.find, List.find?_isSome, List.mem_map]
  simp only [decide_eq_true_eq]

/-- An update of rows that keeps the key. -/
theorem find?_map_slotId {f : SlotRow → SlotRow} (hf : ∀ row, (f row).slotId = row.slotId)
    (rows : List SlotRow) (id : String) :
    (rows.map f).find? (fun row => row.slotId = id) =
      (rows.find? fun row => row.slotId = id).map f := by
  have hid : (fun row : SlotRow => decide (row.slotId = id)) ∘ f = fun row =>
      decide (row.slotId = id) := by
    funext row
    rw [Function.comp_apply, hf]
  rw [List.find?_map, hid]

theorem find_mark (t : SlotsTable) (now slotId reason id : String) :
    (t.markSlotEnded now slotId reason).find id =
      if id = slotId then (t.find id).map (·.ended now reason) else t.find id := by
  rw [SlotsTable.find, SlotsTable.markSlotEnded,
    find?_map_slotId (SlotRow.mark_slotId now slotId reason), ← SlotsTable.find]
  cases hfind : t.find id with
  | none => rw [Option.map_none, Option.map_none, ite_self]
  | some row =>
    rw [Option.map_some, Option.map_some, SlotRow.mark, find_slotId hfind]
    split
    · rfl
    · rfl

theorem find_upsert (t : SlotsTable) (now id : String) (v : SlotValues) :
    (t.upsertSlot now v).find id =
      if id = v.slotId then some (((t.find id).map (v.over now)).getD (v.row now))
      else t.find id := by
  rw [SlotsTable.find, SlotsTable.upsertSlot]
  dsimp only
  split
  · rename_i hold
    have hf : ∀ row : SlotRow,
        (if row.slotId = v.slotId then v.over now row else row).slotId = row.slotId := by
      intro row
      split
      · rename_i hrow
        exact hrow.symm
      · rfl
    rw [find?_map_slotId hf, ← SlotsTable.find]
    cases hfind : t.find id with
    | none =>
      have hne : id ≠ v.slotId := by
        rintro rfl
        rw [← find_isSome, hfind] at hold
        cases hold
      rw [if_neg hne, Option.map_none]
    | some row =>
      rw [Option.map_some, find_slotId hfind]
      split
      · rfl
      · rfl
  · rename_i hnew
    rw [List.find?_append, ← SlotsTable.find]
    by_cases hid : id = v.slotId
    · subst hid
      have hnone : t.find v.slotId = none := by
        rw [← Option.not_isSome_iff_eq_none, find_isSome]
        exact hnew
      rw [if_pos rfl, hnone, Option.none_or, Option.map_none, Option.getD_none]
      exact List.find?_cons_of_pos (decide_eq_true rfl)
    · have hno : List.find? (fun row => decide (row.slotId = id)) [v.row now] = none := by
        rw [List.find?_cons_of_neg, List.find?_nil]
        exact fun h => hid (of_decide_eq_true h).symm
      rw [if_neg hid, hno, Option.or_none]

/-- What a write makes of its row. -/
def SlotWrite.apply : SlotWrite → Option SlotRow → Option SlotRow
  | .upsert now v, row => some ((row.map (v.over now)).getD (v.row now))
  | .ended now _ reason, row => row.map (·.ended now reason)

/-- And of the row with an id. -/
def SlotWrite.on (w : SlotWrite) (id : String) (row : Option SlotRow) : Option SlotRow :=
  if id = w.slotId then w.apply row else row

theorem find_write (t : SlotsTable) (w : SlotWrite) (id : String) :
    (t.write w).find id = w.on id (t.find id) := by
  cases w with
  | upsert now v => exact find_upsert t now id v
  | ended now slotId reason => exact find_mark t now slotId reason id

/-! ## Any writes -/

/-- The columns that no later write changes. -/
def SlotRow.born (row : SlotRow) : String × String := (row.modelTag, row.createdAt)

/-- Those that a write gives a row that is new. -/
def SlotWrite.bears (id : String) : SlotWrite → Option (String × String)
  | .upsert now v => if id = v.slotId then some (v.modelTag, now) else none
  | .ended _ _ _ => none

/-- The last of some writes that writes a row. -/
def lastOn (id : String) (ws : List SlotWrite) : Option SlotWrite :=
  (ws.filter fun w => id = w.slotId).getLast?

/-- What the last write leaves. -/
def LeftBy (old : Option SlotRow) : Option SlotWrite → SlotRow → Prop
  | none, row => old = some row
  | some (.upsert now v), row => row = v.over now row
  | some (.ended now _ reason), row => row = row.ended now reason

theorem lastOn_append (id : String) (ws : List SlotWrite) (w : SlotWrite) :
    lastOn id (ws ++ [w]) = if id = w.slotId then some w else lastOn id ws := by
  rw [lastOn, List.filter_append]
  split
  · rename_i hid
    have hw : List.filter (fun w => decide (id = w.slotId)) [w] = [w] := by
      rw [List.filter_cons_of_pos (by rw [decide_eq_true_eq]; exact hid), List.filter_nil]
    rw [hw, List.getLast?_concat]
  · rename_i hid
    rw [List.filter_cons_of_neg (by rw [decide_eq_true_eq]; exact hid), List.filter_nil,
      List.append_nil, lastOn]

/-- One write makes a row if there is none, and never changes what a row was born with. -/
theorem SlotWrite.on_born (w : SlotWrite) (id : String) (row : Option SlotRow) :
    (w.on id row).map SlotRow.born = (row.map SlotRow.born).or (w.bears id) := by
  rw [SlotWrite.on]
  cases w with
  | upsert now v =>
    rw [SlotWrite.bears]
    show Option.map SlotRow.born (if id = v.slotId then _ else row) = _
    split
    · cases row with
      | none => rfl
      | some row => rfl
    · rw [Option.or_none]
  | ended now slotId reason =>
    rw [SlotWrite.bears, Option.or_none]
    split
    · cases row with
      | none => rfl
      | some row => rfl
    · rfl

theorem SlotWrite.apply_left {w : SlotWrite} {row : Option SlotRow} {new : SlotRow}
    (old : Option SlotRow) (h : w.apply row = some new) : LeftBy old (some w) new := by
  cases w with
  | upsert now v =>
    show new = v.over now new
    rw [← Option.some.inj h]
    cases row with
    | none => rfl
    | some row => rfl
  | ended now slotId reason =>
    show new = new.ended now reason
    obtain ⟨row', -, rfl⟩ := Option.map_eq_some_iff.mp h
    rfl

/-- After any writes there is a row exactly if there was one or one of them was an
upsert of it, with the tag and the time of the earlier row or else of the first upsert;
and its other columns are those of the last upsert unless a mark came after, which
leaves it `COLD` and ended. -/
theorem rows_history (t : SlotsTable) (ws : List SlotWrite) (id : String) :
    ((t.writeAll ws).find id).map SlotRow.born =
        ((t.find id).map SlotRow.born).or (ws.findSome? (SlotWrite.bears id)) ∧
      ∀ row, (t.writeAll ws).find id = some row → LeftBy (t.find id) (lastOn id ws) row := by
  -- by the last write
  induction ws using List.reverseRec with
  | nil => exact ⟨(Option.or_none).symm, fun row hrow => hrow⟩
  | append_singleton ws w ih =>
    obtain ⟨hborn, hleft⟩ := ih
    have hfind : (t.writeAll (ws ++ [w])).find id = w.on id ((t.writeAll ws).find id) := by
      rw [SlotsTable.writeAll, List.foldl_append, ← SlotsTable.writeAll]
      exact find_write (t.writeAll ws) w id
    rw [hfind, lastOn_append]
    constructor
    · rw [SlotWrite.on_born, hborn, Option.or_assoc, List.findSome?_append,
        List.findSome?_singleton]
    · intro row hrow
      split
      · rename_i hid
        rw [SlotWrite.on, if_pos hid] at hrow
        exact SlotWrite.apply_left (t.find id) hrow
      · rename_i hid
        rw [SlotWrite.on, if_neg hid] at hrow
        exact hleft row hrow

/-! ## The sweeper -/

/-- What the sweeper selects. -/
def SlotRow.stale (cutoff : String) (row : SlotRow) : Bool :=
  row.state = "STAGED" && row.createdAt < cutoff && row.pid.isNone && row.endedAt.isNone

/-- The order in which a `SELECT` gives its rows. -/
structure SelectOrder where
  rows : List SlotRow → List SlotRow
  perm : ∀ picked, (rows picked).Perm picked

/-- `_run_one_sweep`: how many rows it finalized, and the table. -/
def SlotsTable.runOneSweep (t : SlotsTable) (cutoff : String) (now : ℕ → String)
    (order : SelectOrder) : ℕ × SlotsTable :=
  let staleSlotIds := (order.rows (t.select (SlotRow.stale cutoff))).take 100
  markRows now "background_sweeper_evicted" (fun _ => true) staleSlotIds (0, t)

theorem SlotRow.stale_mono {first last : String} (h : first ≤ last) {row : SlotRow}
    (hrow : row.stale first = true) : row.stale last = true := by
  simp only [SlotRow.stale, Bool.and_eq_true, decide_eq_true_eq] at hrow ⊢
  exact ⟨⟨⟨hrow.1.1.1, lt_of_lt_of_le hrow.1.1.2 h⟩, hrow.1.2⟩, hrow.2⟩

theorem SlotRow.stale_ended (cutoff now reason : String) (row : SlotRow) :
    (row.ended now reason).stale cutoff = false := by
  rw [SlotRow.stale, SlotRow.ended, Option.isNone_some, Bool.and_false]

/-- Rows that are marked are no longer stale, and no other becomes so. -/
theorem countP_marked {reason : String} {goes : SlotRow → Prop} [DecidablePred goes]
    (cutoff : String) {old new : List SlotRow} (h : List.Forall₂ (Marked reason goes) old new) :
    new.countP (SlotRow.stale cutoff) =
      old.countP fun row => !decide (goes row) && row.stale cutoff := by
  induction h with
  | nil => rfl
  | @cons o n _ _ hon _ ih =>
    rw [List.countP_cons, List.countP_cons, ih]
    rcases hon with ⟨hgoes, time, rfl⟩ | ⟨hgoes, rfl⟩
    · rw [SlotRow.stale_ended, decide_eq_true hgoes, Bool.not_true, Bool.false_and]
    · rw [decide_eq_false hgoes, Bool.not_false, Bool.true_and]

/-- The rows of a batch are different stale rows of the table. -/
theorem batch_of (t : SlotsTable) (cutoff : String) (order : SelectOrder) :
    let batch := (order.rows (t.select (SlotRow.stale cutoff))).take 100
    batch.length = min 100 (t.rows.countP (SlotRow.stale cutoff)) ∧
      (batch.map (·.slotId)).Nodup ∧
      ∀ row ∈ batch, row ∈ t.rows ∧ row.stale cutoff = true := by
  have hperm := order.perm (t.select (SlotRow.stale cutoff))
  have hids : ((t.select (SlotRow.stale cutoff)).map (·.slotId)).Nodup :=
    t.primaryKey.sublist (List.filter_sublist.map _)
  refine ⟨?_, ?_, ?_⟩
  · rw [List.length_take, hperm.length_eq, SlotsTable.select, List.countP_eq_length_filter]
  · exact ((hperm.map _).nodup_iff.mpr hids).sublist ((List.take_sublist _ _).map _)
  · intro row hrow
    exact List.mem_filter.mp (hperm.mem_iff.mp (List.mem_of_mem_take hrow))

/-- A sweep finalizes all the stale rows up to a hundred, and leaves the others: rows
that are stale at a later time are fewer by as many. -/
theorem runOneSweep_countP (t : SlotsTable) (now : ℕ → String) (order : SelectOrder)
    {cutoff last : String} (hlast : cutoff ≤ last) :
    (t.runOneSweep cutoff now order).1 = min 100 (t.rows.countP (SlotRow.stale cutoff)) ∧
      (t.runOneSweep cutoff now order).2.rows.countP (SlotRow.stale last) +
        (t.runOneSweep cutoff now order).1 = t.rows.countP (SlotRow.stale last) := by
  obtain ⟨hlen, hids, hmem⟩ := batch_of t cutoff order
  rw [SlotsTable.runOneSweep]
  set batch := (order.rows (t.select (SlotRow.stale cutoff))).take 100
  obtain ⟨hn, hrows⟩ :=
    markRows_forall₂ now "background_sweeper_evicted" (fun _ => true) batch (0, t)
  rw [List.filter_true] at hn hrows
  rw [hn, countP_marked last hrows, Nat.zero_add]
  refine ⟨hlen, ?_⟩
  -- the rows of the batch, as a list and as rows of the table
  have hbatch : batch.Perm (t.rows.filter fun row =>
      decide (row.slotId ∈ batch.map (·.slotId)) && row.stale last) := by
    rw [List.perm_ext_iff_of_nodup hids.of_map ((t.primaryKey.of_map).filter _)]
    intro row
    rw [List.mem_filter, Bool.and_eq_true, decide_eq_true_eq]
    constructor
    · intro hrow
      exact ⟨(hmem row hrow).1, List.mem_map_of_mem hrow,
        SlotRow.stale_mono hlast (hmem row hrow).2⟩
    · rintro ⟨hrow, hid, -⟩
      obtain ⟨row', hrow', heq⟩ := List.mem_map.mp hid
      rw [← List.inj_on_of_nodup_map t.primaryKey (hmem row' hrow').1 hrow heq]
      exact hrow'
  rw [hbatch.length_eq, ← List.countP_eq_length_filter, Nat.add_comm,
    List.countP_eq_countP_filter_add t.rows (SlotRow.stale last)
      (fun row => decide (row.slotId ∈ batch.map (·.slotId))),
    List.countP_filter, List.countP_filter]
  simp only [Bool.and_comm]

/-! ## Sweeps among other writes -/

/-- An upsert of a row that waits for a process: what a submit writes. -/
def SlotWrite.stages : SlotWrite → Bool
  | .upsert _ v => v.state = "STAGED" && v.pid.isNone
  | .ended _ _ _ => false

theorem stages_of_stale {now last : String} {v : SlotValues} {row : SlotRow}
    (h : row.state = v.state ∧ row.pid = v.pid) (hrow : row.stale last = true) :
    (SlotWrite.upsert now v).stages = true := by
  simp only [SlotRow.stale, Bool.and_eq_true, decide_eq_true_eq] at hrow
  rw [SlotWrite.stages, ← h.1, ← h.2, hrow.1.1.1, hrow.1.2]
  rfl

/-- At most one row becomes stale by an upsert, and only by one that stages it. -/
theorem upsert_countP (t : SlotsTable) (now last : String) (v : SlotValues) :
    (t.upsertSlot now v).rows.countP (SlotRow.stale last) ≤
      t.rows.countP (SlotRow.stale last) + (SlotWrite.upsert now v).stages.toNat := by
  rw [SlotsTable.upsertSlot]
  dsimp only
  split
  · rw [List.countP_map]
    cases hstages : (SlotWrite.upsert now v).stages with
    | false =>
      refine List.countP_mono_left fun row _ hrow => ?_
      rw [Function.comp_apply] at hrow
      split at hrow
      · rw [stages_of_stale ⟨rfl, rfl⟩ hrow] at hstages
        cases hstages
      · exact hrow
    | true =>
      -- the row of the upsert, and the others
      rw [List.countP_eq_countP_filter_add _ _ fun row => decide (row.slotId = v.slotId),
        List.countP_eq_countP_filter_add t.rows (SlotRow.stale last)
          fun row => decide (row.slotId = v.slotId)]
      have hone : (t.rows.filter fun row => decide (row.slotId = v.slotId)).length ≤ 1 := by
        have hcount := List.nodup_iff_count_le_one.mp t.primaryKey v.slotId
        rw [List.count, List.countP_map, List.countP_eq_length_filter] at hcount
        exact hcount
      have hothers : ∀ row ∈ t.rows.filter fun row => !decide (row.slotId = v.slotId),
          ((SlotRow.stale last ∘ fun row => if row.slotId = v.slotId then v.over now row else row)
            row = true ↔ row.stale last = true) := by
        intro row hrow
        have hne := of_decide_eq_false ((Bool.not_eq_true' _).mp (List.mem_filter.mp hrow).2)
        rw [Function.comp_apply, if_neg hne]
      rw [List.countP_congr hothers, Bool.toNat_true]
      have hle := List.countP_le_length (p := SlotRow.stale last ∘ fun row : SlotRow =>
        if row.slotId = v.slotId then v.over now row else row)
        (l := t.rows.filter fun row => decide (row.slotId = v.slotId))
      omega
  · rw [List.countP_append, List.countP_singleton]
    split
    · rename_i hrow
      rw [stages_of_stale ⟨rfl, rfl⟩ hrow]
      exact Nat.le_refl _
    · exact Nat.le_add_right _ _

theorem write_countP (t : SlotsTable) (last : String) (w : SlotWrite) :
    (t.write w).rows.countP (SlotRow.stale last) ≤
      t.rows.countP (SlotRow.stale last) + w.stages.toNat := by
  cases w with
  | upsert now v => exact upsert_countP t now last v
  | ended now slotId reason =>
    show List.countP _ (t.rows.map _) ≤ _
    rw [List.countP_map]
    refine Nat.le_trans (List.countP_mono_left fun row _ hrow => ?_) (Nat.le_add_right _ _)
    rw [Function.comp_apply, SlotRow.mark] at hrow
    split at hrow
    · rw [SlotRow.stale_ended] at hrow
      cases hrow
    · exact hrow

/-- What writes the table while the manager runs. -/
inductive TableStep
  | write (w : SlotWrite)
  | sweep (cutoff : String) (now : ℕ → String) (order : SelectOrder)

def SlotsTable.step (t : SlotsTable) : TableStep → SlotsTable
  | .write w => t.write w
  | .sweep cutoff now order => (t.runOneSweep cutoff now order).2

def SlotsTable.runs (t : SlotsTable) (steps : List TableStep) : SlotsTable := steps.foldl step t

def TableStep.stages : TableStep → Bool
  | .write w => w.stages
  | .sweep _ _ _ => false

/-- The cutoffs of the sweeps. -/
def TableStep.cutoff? : TableStep → Option String
  | .write _ => none
  | .sweep cutoff _ _ => some cutoff

theorem markRows_writes (now : ℕ → String) (reason : String) (goes : SlotRow → Bool)
    (rows : List SlotRow) : ∀ s : ℕ × SlotsTable,
      ∃ ws, (markRows now reason goes rows s).2 = s.2.writeAll ws := by
  induction rows with
  | nil => exact fun s => ⟨[], rfl⟩
  | cons row rows ih =>
    intro s
    rw [markRows]
    split
    · obtain ⟨ws, hws⟩ := ih (s.1 + 1, s.2.markSlotEnded (now s.1) row.slotId reason)
      exact ⟨.ended (now s.1) row.slotId reason :: ws, hws⟩
    · exact ih s

/-- A run is some writes, so that `rows_history` tells what its rows are. -/
theorem runs_writes (steps : List TableStep) : ∀ t : SlotsTable,
    ∃ ws, t.runs steps = t.writeAll ws := by
  induction steps with
  | nil => exact fun t => ⟨[], rfl⟩
  | cons step steps ih =>
    intro t
    obtain ⟨ws, hws⟩ := ih (t.step step)
    have hstep : ∃ ws, t.step step = t.writeAll ws := by
      cases step with
      | write w => exact ⟨[w], rfl⟩
      | sweep cutoff now order => exact markRows_writes _ _ _ _ (0, t)
    obtain ⟨ws', hws'⟩ := hstep
    refine ⟨ws' ++ ws, ?_⟩
    rw [SlotsTable.writeAll, List.foldl_append]
    show (t.step step).runs steps = (t.writeAll ws').writeAll ws
    rw [← hws', hws]

/-- Sweeps whose cutoffs lie in a time span keep up with the requests if they could
finalize, a hundred at a time, the rows that are stale at its end and all that are
staged meanwhile: at some time in the run no row is stale as of its beginning. -/
theorem sweeper_keeps_up {first last : String} (hspan : first ≤ last) (steps : List TableStep) :
    ∀ t : SlotsTable,
      (∀ step ∈ steps, ∀ cutoff ∈ step.cutoff?, first ≤ cutoff ∧ cutoff ≤ last) →
      t.rows.countP (SlotRow.stale last) + steps.countP TableStep.stages ≤
        100 * (steps.filterMap TableStep.cutoff?).length →
      ∃ before, before <+: steps ∧ ∀ row ∈ (t.runs before).rows, row.stale first = false := by
  induction steps with
  | nil =>
    intro t _ hle
    have hnone : t.rows.countP (SlotRow.stale last) = 0 := Nat.le_zero.mp hle
    rw [List.countP_eq_zero] at hnone
    refine ⟨[], List.nil_prefix, fun row hrow => ?_⟩
    rw [← Bool.not_eq_true]
    exact fun hstale => hnone row hrow (SlotRow.stale_mono hspan hstale)
  | cons step steps ih =>
    intro t hcutoffs hle
    have hrest : ∀ s ∈ steps, ∀ cutoff ∈ s.cutoff?, first ≤ cutoff ∧ cutoff ≤ last :=
      fun s hs => hcutoffs s (List.mem_cons_of_mem step hs)
    cases step with
    | write w =>
      have hw := write_countP t last w
      have hstages : (TableStep.write w :: steps).countP TableStep.stages =
          steps.countP TableStep.stages + w.stages.toNat := by
        rw [List.countP_cons, TableStep.stages]
        cases w.stages with
        | false => rfl
        | true => rfl
      rw [hstages, List.filterMap_cons_none rfl] at hle
      obtain ⟨before, hpre, hdone⟩ := ih (t.write w) hrest (by omega)
      exact ⟨.write w :: before, List.cons_prefix_cons.mpr ⟨rfl, hpre⟩, hdone⟩
    | sweep cutoff now order =>
      obtain ⟨hfirst, hlast⟩ := hcutoffs _ List.mem_cons_self cutoff rfl
      obtain ⟨hn, hleft⟩ := runOneSweep_countP t now order hlast
      by_cases hfull : t.rows.countP (SlotRow.stale cutoff) ≤ 100
      · -- the sweep finalizes whatever is stale by its cutoff
        refine ⟨[.sweep cutoff now order], List.cons_prefix_cons.mpr ⟨rfl, List.nil_prefix⟩, ?_⟩
        have hnone := (runOneSweep_countP t now order (le_refl cutoff)).2
        rw [hn, Nat.min_eq_right hfull, Nat.add_eq_right, List.countP_eq_zero] at hnone
        intro row hrow
        rw [← Bool.not_eq_true]
        exact fun hstale => hnone row hrow (SlotRow.stale_mono hfirst hstale)
      · have hstages : (TableStep.sweep cutoff now order :: steps).countP TableStep.stages =
            steps.countP TableStep.stages := List.countP_cons_of_neg (by rintro ⟨⟩)
        have hsweeps : (TableStep.sweep cutoff now order :: steps).filterMap TableStep.cutoff? =
            cutoff :: steps.filterMap TableStep.cutoff? := rfl
        rw [hstages, hsweeps, List.length_cons] at hle
        obtain ⟨before, hpre, hdone⟩ := ih (t.runOneSweep cutoff now order).2 hrest (by omega)
        exact ⟨.sweep cutoff now order :: before, List.cons_prefix_cons.mpr ⟨rfl, hpre⟩, hdone⟩

/-- One row that was staged, and a sweep a day later. -/
theorem sweeper_keeps_up_with_one :
    let t := (⟨[], List.nodup_nil⟩ : SlotsTable).upsertSlot "2026-01-01T00:00:00+00:00"
      { slotId := "slot-1", modelTag := "m", threadId := none, state := "STAGED",
        clientMetaJson := "\x7b\x7d" }
    ∃ before : List TableStep,
      before <+: [.sweep "2026-01-02T00:00:00+00:00" (fun _ => "2026-01-03T00:00:00+00:00")
        ⟨id, fun _ => List.Perm.refl _⟩] ∧
      ∀ row ∈ (t.runs before).rows, row.stale "2026-01-02T00:00:00+00:00" = false :=
  sweeper_keeps_up (le_refl "2026-01-02T00:00:00+00:00") _ _ (by
    intro step hstep cutoff hcutoff
    rw [List.mem_singleton] at hstep
    subst hstep
    cases hcutoff
    exact ⟨le_refl _, le_refl _⟩) (by decide +kernel)

end Turbohaul.Reconcile
