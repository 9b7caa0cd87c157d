/-
# `Paging` — a growing log, read page by page

A log grows at its end, the keys of its items strictly increasing, and may forget
items; a reader asks for a page from a cursor on and goes on from the cursor the
page gives, until it gives none.  A page is *exact* when what it shows and what its
cursor leaves are what was ahead of the reader, in order, and the cursor passes no
key that a later item may still get.  Exact pages visit every item the log keeps
once, whatever is appended between them, and come to an end once nothing is.

  `Page.Exact`              one page
  `Step`, `Reads`           the reader and the writer, in any order
  `Reader.Sound`            what every reachable state satisfies
  `Reader.Read.through`     what a reader that is through has read
  `following_ends`          termination
-/
import Mathlib.Logic.Relation
import Mathlib.Data.List.Sort

namespace Paging

variable {α β : Type} (key : α → ℕ) (want : α → Bool) (view : α → β)

/-- The keys of a log strictly increase. -/
def Ascending (log : List α) : Prop := log.Pairwise fun a b => key a < key b

/-- What a reader at `c` wants and has not passed. -/
def ahead (c : ℕ) (log : List α) : List α := log.filter fun a => decide (c ≤ key a) && want a

/-- A page: its items, as they are shown, and the cursor of the next one, if
there is one. -/
structure Page (β : Type) where
  items : List β
  next : Option ℕ

/-- What a cursor leaves. -/
def rest (next : Option ℕ) (log : List α) : List α :=
  match next with
  | none => []
  | some n => ahead key want n log

/-- An exact page of `log` at `c`. -/
structure Page.Exact (log : List α) (c : ℕ) (p : Page β) : Prop where
  split : ∃ shown, p.items = shown.map view ∧
    shown ++ rest key want p.next log = ahead key want c log
  moves : p.next.isSome → p.items ≠ []
  reach : ∀ n, p.next = some n → ∃ a ∈ log, n ≤ key a + 1

variable {key want view}

theorem mem_ahead {c : ℕ} {log : List α} {a : α} :
    a ∈ ahead key want c log ↔ a ∈ log ∧ c ≤ key a ∧ want a := by
  simp [ahead]

theorem Ascending.ahead {log : List α} (h : Ascending key log) (c : ℕ) :
    Ascending key (ahead key want c log) := h.filter _

theorem ahead_of_le {c n : ℕ} (h : c ≤ n) (log : List α) :
    ahead key want n log = (ahead key want c log).filter fun a => decide (n ≤ key a) := by
  simp only [ahead, List.filter_filter]
  refine List.filter_congr fun a _ => ?_
  rcases Nat.lt_or_ge (key a) n with hlt | hge
  · simp [Nat.not_le.mpr hlt]
  · simp [hge, h.trans hge]

theorem Ascending.nodup {log : List α} (h : Ascending key log) : log.Nodup :=
  h.imp fun hlt he => absurd (congrArg key he) (Nat.ne_of_lt hlt)

/-- A cursor between two parts of what is ahead leaves the second. -/
theorem ahead_of_split {log xs ys : List α} {c n : ℕ} (h : ahead key want c log = xs ++ ys)
    (hc : c ≤ n) (hx : ∀ x ∈ xs, key x < n) (hy : ∀ y ∈ ys, n ≤ key y) :
    ahead key want n log = ys := by
  rw [ahead_of_le hc, h, List.filter_append]
  have hxs : xs.filter (fun a => decide (n ≤ key a)) = [] := by
    rw [List.filter_eq_nil_iff]
    intro x hmem
    simp [Nat.not_le.mpr (hx x hmem)]
  have hys : ys.filter (fun a => decide (n ≤ key a)) = ys := by
    rw [List.filter_eq_self]
    intro y hmem
    simp [hy y hmem]
  rw [hxs, hys, List.nil_append]

/-- A page leaves less than it found. -/
theorem Page.Exact.rest_lt {log : List α} {c n : ℕ} {p : Page β} (h : p.Exact key want view log c)
    (hn : p.next = some n) : (Paging.ahead key want n log).length
      < (Paging.ahead key want c log).length := by
  obtain ⟨shown, hitems, hsplit⟩ := h.split
  have hlen := congrArg List.length hsplit
  simp only [rest, hn, List.length_append] at hlen
  have hpos := List.length_pos_of_ne_nil (h.moves (by rw [hn]; rfl))
  rw [hitems, List.length_map] at hpos
  omega

/-- Strict progress. -/
theorem Page.Exact.lt_next {log : List α} {c n : ℕ} {p : Page β}
    (h : p.Exact key want view log c) (hn : p.next = some n) : c < n := by
  by_contra hle
  have hlt := h.rest_lt hn
  rw [ahead_of_le (not_lt.mp hle)] at hlt
  exact absurd (List.length_filter_le _ _) (not_le.mpr hlt)

/-! ## The reader beside the writer -/

/-- The log, the reader's cursor (`none` once it is through) and what it has read. -/
structure Reader (α β : Type) where
  log : List α
  cursor : Option ℕ
  seen : List β

/-- One request, of a reader that has a cursor. -/
def Reader.ask (page : List α → ℕ → Page β) (r : Reader α β) : Reader α β :=
  match r.cursor with
  | none => r
  | some c => { r with cursor := (page r.log c).next, seen := r.seen ++ (page r.log c).items }

theorem Reader.ask_none {page : List α → ℕ → Page β} {r : Reader α β} (h : r.cursor = none) :
    r.ask page = r := by
  unfold Reader.ask
  rw [h]

theorem Reader.ask_some {page : List α → ℕ → Page β} {r : Reader α β} {c : ℕ}
    (h : r.cursor = some c) : r.ask page
      = { r with cursor := (page r.log c).next, seen := r.seen ++ (page r.log c).items } := by
  unfold Reader.ask
  rw [h]

@[simp] theorem Reader.ask_log (page : List α → ℕ → Page β) (r : Reader α β) :
    (r.ask page).log = r.log := by
  unfold Reader.ask
  split <;> rfl

variable (key view)

/-- The writer appends an item, or the reader, where it may, asks for a page. -/
inductive Step (may : List α → ℕ → Prop) (page : List α → ℕ → Page β) :
    Reader α β → Reader α β → Prop
  | append (r : Reader α β) (a : α) (h : ∀ b ∈ r.log, key b < key a) :
      Step may page r { r with log := r.log ++ [a] }
  | ask (r : Reader α β) (h : ∀ c, r.cursor = some c → may r.log c) : Step may page r (r.ask page)

/-- Any number of steps. -/
abbrev Reads (may : List α → ℕ → Prop) (page : List α → ℕ → Page β) :
    Reader α β → Reader α β → Prop :=
  Relation.ReflTransGen (Step key may page)

/-- What has been read, in ascending order: items the reader wanted; and of the
items the log still keeps all those the cursor has passed, or, when the reader is
through, all that there were when it asked last. -/
def Reader.Read (keep : List α → List α) (want : α → Bool) (log : List α) (since : ℕ)
    (r : Reader α β) (visited : List α) : Prop :=
  r.seen = visited.map view ∧ Ascending key visited ∧
  (∀ a ∈ visited, a ∈ ahead key want since r.log) ∧
  match r.cursor with
  | some c => since ≤ c ∧ (∀ a ∈ visited, key a < c) ∧
      (∀ a ∈ ahead key want since (keep r.log), key a < c → a ∈ visited) ∧
      (c = since ∨ ∃ a ∈ r.log, c ≤ key a + 1)
  | none => ∃ log', log <+: log' ∧ log' <+: r.log ∧
      ∀ a ∈ ahead key want since (keep log'), a ∈ visited

/-- What holds of every state reached from `log` at `since`. -/
structure Reader.Sound (keep : List α → List α) (want : α → Bool) (log : List α) (since : ℕ)
    (r : Reader α β) : Prop where
  ascending : Ascending key r.log
  grown : log <+: r.log
  read : ∃ visited, r.Read key view keep want log since visited

variable {key view} {keep : List α → List α}

theorem ahead_append_left {c : ℕ} {log : List α} {a b : α} (h : b ∈ ahead key want c log) :
    b ∈ ahead key want c (log ++ [a]) := by
  obtain ⟨hmem, hrest⟩ := mem_ahead.mp h
  exact mem_ahead.mpr ⟨List.mem_append_left _ hmem, hrest⟩

theorem Reader.Sound.start {log : List α} (hlog : Ascending key log) (since : ℕ) :
    Reader.Sound key view keep want log since ⟨log, some since, []⟩ where
  ascending := hlog
  grown := List.prefix_rfl
  read := by
    refine ⟨[], rfl, List.Pairwise.nil, (by rintro _ ⟨⟩), le_rfl, (by rintro _ ⟨⟩),
      fun a ha hlt => ?_, .inl rfl⟩
    exact absurd (mem_ahead.mp ha).2.1 (not_le.mpr hlt)

theorem Reader.Sound.append (hkeep : ∀ log a, keep (log ++ [a]) ⊆ keep log ++ [a])
    {log : List α} {since : ℕ} {r : Reader α β} (h : r.Sound key view keep want log since) {a : α}
    (ha : ∀ b ∈ r.log, key b < key a) :
    Reader.Sound key view keep want log since { r with log := r.log ++ [a] } where
  ascending := List.pairwise_append.mpr ⟨h.ascending, List.pairwise_singleton _ _,
    fun b hb a' ha' => by rw [List.mem_singleton.mp ha']; exact ha b hb⟩
  grown := h.grown.trans (List.prefix_append _ _)
  read := by
    obtain ⟨visited, hseen, hasc, hwant, hread⟩ := h.read
    refine ⟨visited, hseen, hasc, fun b hb => ahead_append_left (hwant b hb), ?_⟩
    dsimp only
    cases hc : r.cursor with
    | none =>
      rw [hc] at hread
      obtain ⟨log', hpre, hpre', hall⟩ := hread
      exact ⟨log', hpre, hpre'.trans (List.prefix_append _ _), hall⟩
    | some c =>
      rw [hc] at hread
      obtain ⟨hle, hpast, hall, hreach⟩ := hread
      refine ⟨hle, hpast, fun b hb hlt => ?_, ?_⟩
      · obtain ⟨hmem, hs, hw⟩ := mem_ahead.mp hb
        rcases List.mem_append.mp (hkeep _ _ hmem) with hold | hnew
        · exact hall b (mem_ahead.mpr ⟨hold, hs, hw⟩) hlt
        · -- the appended item lies ahead of the cursor
          rw [List.mem_singleton.mp hnew] at hs hlt
          rcases hreach with rfl | ⟨b', hb', hcb⟩
          · exact absurd hs (not_le.mpr hlt)
          · exact absurd (ha b' hb') (by omega)
      · exact hreach.imp_right fun ⟨b, hb, hcb⟩ => ⟨b, List.mem_append_left _ hb, hcb⟩

variable {may : List α → ℕ → Prop} {page : List α → ℕ → Page β}

theorem Reader.Sound.ask (hkeep : ∀ log, (keep log).Sublist log)
    (hpage : ∀ log c, Ascending key log → may log c →
      (page log c).Exact key want view (keep log) c)
    {log : List α} {since : ℕ} {r : Reader α β} (h : r.Sound key view keep want log since)
    (hmay : ∀ c, r.cursor = some c → may r.log c) :
    (r.ask page).Sound key view keep want log since := by
  cases hc : r.cursor with
  | none =>
    rw [Reader.ask_none hc]
    exact h
  | some c =>
    rw [Reader.ask_some hc]
    refine ⟨h.ascending, h.grown, ?_⟩
    obtain ⟨visited, hseen, hasc, hwant, hread⟩ := h.read
    rw [hc] at hread
    obtain ⟨hle, hpast, hall, -⟩ := hread
    have hx := hpage r.log c h.ascending (hmay c hc)
    obtain ⟨shown, hitems, hsplit⟩ := hx.split
    have hkasc : Ascending key (keep r.log) := h.ascending.sublist (hkeep _)
    have hshown : ∀ a ∈ shown, a ∈ ahead key want c (keep r.log) := fun a ha =>
      hsplit ▸ List.mem_append_left _ ha
    have hparts : Ascending key (ahead key want c (keep r.log)) := hkasc.ahead c
    rw [← hsplit] at hparts
    refine ⟨visited ++ shown, ?_, ?_, ?_, ?_⟩
    · rw [List.map_append, ← hitems, ← hseen]
    · refine List.pairwise_append.mpr ⟨hasc, ?_, fun a ha b hb => ?_⟩
      · exact (List.pairwise_append.mp hparts).1
      · exact Nat.lt_of_lt_of_le (hpast a ha) (mem_ahead.mp (hshown b hb)).2.1
    · intro a ha
      rcases List.mem_append.mp ha with ha | ha
      · exact hwant a ha
      · obtain ⟨hmem, hca, hw⟩ := mem_ahead.mp (hshown a ha)
        exact mem_ahead.mpr ⟨(hkeep _).subset hmem, hle.trans hca, hw⟩
    · -- what the page neither shows nor leaves, the cursor had passed before
      have hmem : ∀ a ∈ ahead key want since (keep r.log),
          a ∉ rest key want (page r.log c).next (keep r.log) → a ∈ visited ++ shown := by
        intro a ha hnot
        obtain ⟨hk, hs, hw⟩ := mem_ahead.mp ha
        rcases Nat.lt_or_ge (key a) c with hlt | hge
        · exact List.mem_append_left _ (hall a ha hlt)
        · have hin : a ∈ ahead key want c (keep r.log) := mem_ahead.mpr ⟨hk, hge, hw⟩
          rw [← hsplit] at hin
          exact List.mem_append_right _ ((List.mem_append.mp hin).resolve_right hnot)
      dsimp only
      cases hn : (page r.log c).next with
      | none =>
        refine ⟨r.log, h.grown, List.prefix_rfl, fun a ha => hmem a ha ?_⟩
        rw [hn]
        exact List.not_mem_nil
      | some n =>
        have hlt := hx.lt_next hn
        simp only [rest, hn] at hmem hparts
        obtain ⟨a, ha, hna⟩ := hx.reach n hn
        refine ⟨hle.trans hlt.le, ?_, ?_, .inr ⟨a, (hkeep _).subset ha, hna⟩⟩
        · intro b hb
          rcases List.mem_append.mp hb with hb | hb
          · exact (hpast b hb).trans hlt
          · -- an item shown and still ahead would stand twice in what was ahead
            by_contra hge
            have hb' := hshown b hb
            obtain ⟨hk, -, hw⟩ := mem_ahead.mp hb'
            exact List.disjoint_of_nodup_append hparts.nodup hb
              (mem_ahead.mpr ⟨hk, not_lt.mp hge, hw⟩)
        · intro b hb hbn
          exact hmem b hb fun hin => absurd (mem_ahead.mp hin).2.1 (not_le.mpr hbn)

theorem Reader.Sound.reads (hsub : ∀ log, (keep log).Sublist log)
    (hkeep : ∀ log a, keep (log ++ [a]) ⊆ keep log ++ [a])
    (hpage : ∀ log c, Ascending key log → may log c →
      (page log c).Exact key want view (keep log) c)
    {log : List α} {since : ℕ} {r r' : Reader α β} (h : r.Sound key view keep want log since)
    (hr : Reads key may page r r') : r'.Sound key view keep want log since := by
  induction hr with
  | refl => exact h
  | tail _ hs ih =>
    cases hs with
    | append a ha => exact ih.append hkeep ha
    | ask hmay => exact ih.ask hsub hpage hmay

/-- A reader that is through has read all that it wants of the log it began with
and that the log kept. -/
theorem Reader.Read.through {log : List α} {since : ℕ} {r : Reader α β} {visited : List α}
    (h : r.Read key view keep want log since visited) (hd : r.cursor = none) :
    ∃ log', log <+: log' ∧ log' <+: r.log ∧ ∀ a ∈ ahead key want since (keep log'),
    a ∈ visited := by
  have hread := h.2.2.2
  rw [hd] at hread
  exact hread

/-! ## Termination -/

/-- A reader that nobody appends beside and that may ask each time is through after one
request more than there are items ahead of it. -/
theorem Reader.through_after (keep : List α → List α)
    (hpage : ∀ {log} (c), Ascending key log → may log c →
      (page log c).Exact key want view (keep log) c)
    {r : Reader α β} (hlog : Ascending key r.log)
    (hmay : ∀ k c, ((Reader.ask page)^[k] r).cursor = some c → may r.log c) {k : ℕ}
    (hk : ∀ c, r.cursor = some c → (ahead key want c (keep r.log)).length < k) :
    ((Reader.ask page)^[k] r).cursor = none := by
  induction k generalizing r with
  | zero =>
    cases hc : r.cursor with
    | none => exact hc
    | some c => exact absurd (hk c hc) (Nat.not_lt_zero _)
  | succ k ih =>
    have hmay' : ∀ k c, ((Reader.ask page)^[k] (r.ask page)).cursor = some c →
        may (r.ask page).log c := by
      intro k c h
      rw [Reader.ask_log]
      exact hmay (k + 1) c h
    rw [Function.iterate_succ_apply]
    cases hc : r.cursor with
    | none =>
      rw [Reader.ask_none hc] at hmay' ⊢
      refine ih hlog hmay' fun c h => ?_
      cases hc.symm.trans h
    | some c =>
      rw [Reader.ask_some hc] at hmay' ⊢
      refine ih hlog hmay' fun n hn => ?_
      have hlt := (hpage c hlog (hmay 0 c hc)).rest_lt hn
      exact Nat.lt_of_lt_of_le hlt (Nat.le_of_lt_succ (hk c hc))

theorem following_ends (keep : List α → List α)
    (hpage : ∀ {log} (c), Ascending key log → may log c →
      (page log c).Exact key want view (keep log) c)
    {r : Reader α β} (hlog : Ascending key r.log)
    (hmay : ∀ k c, ((Reader.ask page)^[k] r).cursor = some c → may r.log c) :
    ∃ k, ((Reader.ask page)^[k] r).cursor = none := by
  cases hc : r.cursor with
  | none => exact ⟨0, hc⟩
  | some c =>
    refine ⟨(ahead key want c (keep r.log)).length + 1,
      r.through_after keep hpage hlog hmay fun c' hc' => ?_⟩
    rw [← Option.some.inj (hc.symm.trans hc')]
    exact Nat.lt_succ_self _

end Paging
