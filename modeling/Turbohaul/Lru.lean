/-
# An ordered map that evicts

Entries stand in the order of their last use.  A new entry goes to the end, and
then the oldest entries that nothing pins are dropped while there are too many.
The new entry is one of them: where all the others are pinned, it is dropped.

  `get?`         the value under a key
  `moveToEnd`    a use
  `evict`        the loop that drops
  `add`          a new entry, then `evict`
  `pins`         how many entries are pinned
  `add_cases`    what `add` does to a map within its bound
-/
import Mathlib.Data.List.Nodup

namespace Turbohaul.Lru

variable {κ ν : Type}

/-- The value under a key. -/
def get? [DecidableEq κ] : List (κ × ν) → κ → Option ν
  | [], _ => none
  | e :: m, k => if e.1 = k then some e.2 else get? m k

/-- A map without a key. -/
def erase [DecidableEq κ] (m : List (κ × ν)) (k : κ) : List (κ × ν) :=
  m.filter fun e => decide (e.1 ≠ k)

/-- The value under a key, changed. -/
def modify [DecidableEq κ] (m : List (κ × ν)) (k : κ) (f : ν → ν) : List (κ × ν) :=
  m.map fun e => if e.1 = k then (e.1, f e.2) else e

/-- A use of a key; none if there is no such key. -/
def moveToEnd [DecidableEq κ] (m : List (κ × ν)) (k : κ) : Option (List (κ × ν)) :=
  (get? m k).map fun v => erase m k ++ [(k, v)]

/-- Drops the oldest entry that nothing pins. -/
def evictOne (pinned : ν → Bool) : List (κ × ν) → Option (List (κ × ν))
  | [] => none
  | e :: m => if pinned e.2 then (evictOne pinned m).map (e :: ·) else some m

/-- Drops such entries while there are more than `cap`, at most `fuel` times. -/
def evict (pinned : ν → Bool) (cap : Int) : Nat → List (κ × ν) → List (κ × ν)
  | 0, m => m
  | fuel + 1, m =>
    if cap < m.length then
      match evictOne pinned m with
      | none => m
      | some m' => evict pinned cap fuel m'
    else m

/-- A new entry; each pass of the loop drops one, so that there are at most as
many passes as entries. -/
def add (pinned : ν → Bool) (cap : Int) (m : List (κ × ν)) (k : κ) (v : ν) : List (κ × ν) :=
  evict pinned cap (m.length + 1) (m ++ [(k, v)])

/-- How many entries are pinned. -/
def pins (pinned : ν → Bool) (m : List (κ × ν)) : Nat := m.countP fun e => pinned e.2

/-- No key stands twice. -/
def Distinct (m : List (κ × ν)) : Prop := (m.map Prod.fst).Nodup

/-! ## Lookups -/

section Lookups

variable [DecidableEq κ]

theorem get?_append (m m' : List (κ × ν)) (k : κ) :
    get? (m ++ m') k = (get? m k).or (get? m' k) := by
  induction m with
  | nil => rfl
  | cons e m ih =>
    by_cases h : e.1 = k
    · simp only [List.cons_append, get?, if_pos h, Option.some_or]
    · simp only [List.cons_append, get?, if_neg h, ih]

theorem mem_of_get? {m : List (κ × ν)} {k : κ} {v : ν} (h : get? m k = some v) : (k, v) ∈ m := by
  induction m with
  | nil => cases h
  | cons e m ih =>
    rw [get?] at h
    split at h
    · rename_i hk
      obtain rfl := hk
      cases h
      exact List.mem_cons_self
    · exact List.mem_cons_of_mem e (ih h)

theorem get?_of_mem {m : List (κ × ν)} (hd : Distinct m) {k : κ} {v : ν} (h : (k, v) ∈ m) :
    get? m k = some v := by
  induction m with
  | nil => cases h
  | cons e m ih =>
    obtain ⟨hne, hd⟩ := List.nodup_cons.mp hd
    rcases List.mem_cons.mp h with rfl | h
    · exact if_pos rfl
    · have hek : e.1 ≠ k := fun he => hne (List.mem_map.mpr ⟨(k, v), h, he.symm⟩)
      rw [get?, if_neg hek]
      exact ih hd h

theorem get?_eq_none {m : List (κ × ν)} {k : κ} : get? m k = none ↔ ∀ e ∈ m, e.1 ≠ k := by
  induction m with
  | nil => simp [get?]
  | cons e m ih =>
    rw [get?, List.forall_mem_cons]
    split
    · rename_i h
      simp [h]
    · rename_i h
      rw [ih]
      exact ⟨fun hm => ⟨h, hm⟩, And.right⟩

theorem get?_erase_self (m : List (κ × ν)) (k : κ) : get? (erase m k) k = none := by
  rw [get?_eq_none]
  intro e he
  simpa using (List.mem_filter.mp he).2

theorem get?_erase_of_ne (m : List (κ × ν)) {k k' : κ} (h : k' ≠ k) :
    get? (erase m k) k' = get? m k' := by
  induction m with
  | nil => rfl
  | cons e m ih =>
    by_cases he : e.1 = k
    · have hne : e.1 ≠ k' := fun h' => h (h'.symm.trans he)
      rw [erase, List.filter_cons_of_neg (by simpa using he), get?, if_neg hne]
      exact ih
    · rw [erase, List.filter_cons_of_pos (by simpa using he), get?, get?]
      split
      · rfl
      · exact ih

theorem get?_modify_self (m : List (κ × ν)) (k : κ) (f : ν → ν) :
    get? (modify m k f) k = (get? m k).map f := by
  induction m with
  | nil => rfl
  | cons e m ih =>
    rw [modify, List.map_cons, get?, get?]
    by_cases he : e.1 = k
    · rw [if_pos he, if_pos he, if_pos he]
      rfl
    · rw [if_neg he, if_neg he, if_neg he]
      exact ih

theorem get?_modify_of_ne (m : List (κ × ν)) {k k' : κ} (h : k' ≠ k) (f : ν → ν) :
    get? (modify m k f) k' = get? m k' := by
  induction m with
  | nil => rfl
  | cons e m ih =>
    rw [modify, List.map_cons, get?, get?]
    by_cases he : e.1 = k
    · have hne : e.1 ≠ k' := fun h' => h (h'.symm.trans he)
      rw [if_pos he, if_neg hne, if_neg hne]
      exact ih
    · rw [if_neg he]
      split
      · rfl
      · exact ih

end Lookups

/-! ## Eviction -/

section Evict

variable {pinned : ν → Bool} {cap : Int} {m m' : List (κ × ν)}

theorem evictOne_some (h : evictOne pinned m = some m') :
    ∃ older e newer, m = older ++ e :: newer ∧ pinned e.2 = false ∧ m' = older ++ newer := by
  induction m generalizing m' with
  | nil => cases h
  | cons e m ih =>
    rw [evictOne] at h
    cases hp : pinned e.2 with
    | true =>
      rw [if_pos hp] at h
      obtain ⟨l, hl, rfl⟩ := Option.map_eq_some_iff.mp h
      obtain ⟨older, x, newer, rfl, hx, rfl⟩ := ih hl
      exact ⟨e :: older, x, newer, rfl, hx, rfl⟩
    | false =>
      rw [if_neg (by rw [hp]; exact Bool.false_ne_true), Option.some.injEq] at h
      subst h
      exact ⟨[], e, m, rfl, hp, rfl⟩

theorem evictOne_none : evictOne pinned m = none ↔ ∀ x ∈ m, pinned x.2 = true := by
  induction m with
  | nil => simp [evictOne]
  | cons e m ih =>
    rw [evictOne, List.forall_mem_cons, ← ih]
    cases hp : pinned e.2 with
    | true => simp
    | false => simp

/-- A last entry that nothing pins goes when no older one can. -/
theorem evictOne_concat {x : κ × ν} (hx : pinned x.2 = false) :
    evictOne pinned (m ++ [x]) = some (((evictOne pinned m).map (· ++ [x])).getD m) := by
  induction m with
  | nil => simp [evictOne, hx]
  | cons e m ih =>
    rw [List.cons_append, evictOne, evictOne, ih]
    cases hp : pinned e.2 with
    | true =>
      cases evictOne pinned m with
      | none => rfl
      | some l => rfl
    | false => rfl

theorem evict_of_le {fuel : Nat} (h : (m.length : Int) ≤ cap) : evict pinned cap fuel m = m := by
  cases fuel with
  | zero => rfl
  | succ fuel => exact if_neg (Int.not_lt.mpr h)

/-- What a new entry that nothing pins does to a map within its bound: there is
room; the oldest entry that nothing pins goes; or all the others are pinned, and
the new one goes. -/
theorem add_cases {k : κ} {v : ν} (hm : (m.length : Int) ≤ max 0 cap) (hv : pinned v = false) :
    ((m.length : Int) < cap ∧ add pinned cap m k v = m ++ [(k, v)]) ∨
    (∃ older e newer, m = older ++ e :: newer ∧ pinned e.2 = false ∧ (m.length : Int) = cap ∧
      add pinned cap m k v = older ++ newer ++ [(k, v)]) ∨
    ((∀ x ∈ m, pinned x.2 = true) ∧ cap ≤ m.length ∧ add pinned cap m k v = m) := by
  have hlen : (m ++ [(k, v)]).length = m.length + 1 := List.length_append
  by_cases hroom : (m.length : Int) < cap
  · refine .inl ⟨hroom, evict_of_le ?_⟩
    rw [hlen]
    exact hroom
  · right
    have hfull : cap < ((m ++ [(k, v)]).length : Int) := by rw [hlen]; omega
    have hstep : add pinned cap m k v =
        match evictOne pinned (m ++ [(k, v)]) with
        | none => m ++ [(k, v)]
        | some l => evict pinned cap m.length l := if_pos hfull
    rw [evictOne_concat hv] at hstep
    cases h : evictOne pinned m with
    | none =>
      refine .inr ⟨evictOne_none.mp h, Int.not_lt.mp hroom, ?_⟩
      rw [hstep, h]
      show evict pinned cap m.length m = m
      by_cases hcap : (m.length : Int) ≤ cap
      · exact evict_of_le hcap
      · -- a negative bound, and an empty map
        have h0 : m.length = 0 := by omega
        rw [h0]
        rfl
    | some l =>
      obtain ⟨older, e, newer, rfl, he, rfl⟩ := evictOne_some h
      have hl : (older ++ newer ++ [(k, v)]).length = (older ++ e :: newer).length := by
        simp only [List.length_append, List.length_cons, List.length_nil]
        omega
      have hpos : 0 < (older ++ e :: newer).length := List.length_pos_of_ne_nil (by simp)
      refine .inl ⟨older, e, newer, rfl, he, by omega, ?_⟩
      rw [hstep, h]
      show evict pinned cap _ (older ++ newer ++ [(k, v)]) = _
      rw [evict_of_le]
      rw [hl]
      omega

/-- A map stays within its bound. -/
theorem length_add (k : κ) {v : ν} (hm : (m.length : Int) ≤ max 0 cap) (hv : pinned v = false) :
    ((add pinned cap m k v).length : Int) ≤ max 0 cap := by
  rcases add_cases (k := k) hm hv with ⟨h, heq⟩ | ⟨older, e, newer, rfl, -, h, heq⟩ | ⟨-, -, heq⟩
  · rw [heq, List.length_append]
    simp
    omega
  · rw [heq]
    simp only [List.length_append, List.length_cons, List.length_nil] at hm ⊢
    omega
  · rwa [heq]

theorem pins_le (pinned : ν → Bool) (m : List (κ × ν)) : pins pinned m ≤ m.length :=
  List.countP_le_length

theorem pins_lt {older newer : List (κ × ν)} {e : κ × ν} (he : pinned e.2 = false) :
    pins pinned (older ++ e :: newer) < (older ++ e :: newer).length := by
  have h1 := pins_le pinned older
  have h2 := pins_le pinned newer
  simp only [pins, List.countP_append, List.countP_cons, he, List.length_append,
    List.length_cons] at *
  simp
  omega

theorem pins_all (h : ∀ x ∈ m, pinned x.2 = true) : pins pinned m = m.length :=
  List.countP_eq_length.mpr h

/-- Where as many are pinned as may be kept, the new entry goes. -/
theorem add_of_full {k : κ} {v : ν} (hm : (m.length : Int) ≤ max 0 cap) (hv : pinned v = false)
    (hp : cap ≤ pins pinned m) : add pinned cap m k v = m := by
  have hle := pins_le pinned m
  rcases add_cases (k := k) hm hv with ⟨h, -⟩ | ⟨older, e, newer, rfl, he, h, -⟩ | ⟨-, -, heq⟩
  · omega
  · have hlt : pins pinned (older ++ e :: newer) < _ := pins_lt he
    omega
  · exact heq

variable [DecidableEq κ]

/-- Every pinned entry stays. -/
theorem get?_add_of_pinned {k k' : κ} {v w : ν} (hm : (m.length : Int) ≤ max 0 cap)
    (hv : pinned v = false) (hd : Distinct m) (hw : get? m k' = some w) (hp : pinned w = true) :
    get? (add pinned cap m k v) k' = some w := by
  rcases add_cases (k := k) hm hv with ⟨-, heq⟩ | ⟨older, e, newer, rfl, he, -, heq⟩ | ⟨-, -, heq⟩
  · rw [heq, get?_append, hw]
    rfl
  · have hne : e.1 ≠ k' := by
      intro h
      have hmem : (k', e.2) ∈ older ++ e :: newer := by simp [← h]
      rw [get?_of_mem hd hmem, Option.some.injEq] at hw
      rw [hw, hp] at he
      cases he
    rw [get?_append, get?, if_neg hne, ← get?_append] at hw
    rw [heq, get?_append, hw]
    rfl
  · rw [heq, hw]

/-- Where fewer are pinned, it is there afterwards. -/
theorem get?_add_self {k : κ} {v : ν} (hm : (m.length : Int) ≤ max 0 cap) (hv : pinned v = false)
    (hp : (pins pinned m : Int) < cap) (hk : get? m k = none) :
    get? (add pinned cap m k v) k = some v := by
  rcases add_cases (k := k) hm hv with ⟨-, heq⟩ | ⟨older, e, newer, rfl, -, -, heq⟩ | ⟨ha, h, -⟩
  · rw [heq, get?_append, hk]
    exact if_pos rfl
  · rw [get?_append, Option.or_eq_none_iff, get?] at hk
    have hne : e.1 ≠ k := by
      intro he
      rw [if_pos he] at hk
      cases hk.2
    rw [if_neg hne] at hk
    rw [heq, get?_append, get?_append, hk.1, hk.2]
    exact if_pos rfl
  · rw [pins_all ha] at hp
    omega

/-- Nothing else comes in. -/
theorem get?_of_add {k k' : κ} {v w : ν} (hm : (m.length : Int) ≤ max 0 cap)
    (hv : pinned v = false) (hd : Distinct m) (hk : k' ≠ k)
    (hw : get? (add pinned cap m k v) k' = some w) : get? m k' = some w := by
  have hnew : ∀ l : List (κ × ν), get? (l ++ [(k, v)]) k' = get? l k' := by
    intro l
    rw [get?_append, get?, if_neg (Ne.symm hk)]
    exact Option.or_none
  rcases add_cases (k := k) hm hv with ⟨-, heq⟩ | ⟨older, e, newer, rfl, -, -, heq⟩ | ⟨-, -, heq⟩
  · rwa [heq, hnew] at hw
  · rw [heq, hnew] at hw
    have hmem : (k', w) ∈ older ++ e :: newer := by
      have h := mem_of_get? hw
      simp only [List.mem_append, List.mem_cons] at h ⊢
      exact h.imp_right .inr
    exact get?_of_mem hd hmem
  · rwa [heq] at hw

theorem Distinct.add {k : κ} {v : ν} (hd : Distinct m) (hm : (m.length : Int) ≤ max 0 cap)
    (hv : pinned v = false) (hk : get? m k = none) : Distinct (add pinned cap m k v) := by
  have hnew : ∀ {l : List (κ × ν)}, l.Sublist m → Distinct (l ++ [(k, v)]) := by
    intro l hl
    rw [Distinct, List.map_append, List.nodup_append]
    refine ⟨hd.sublist (hl.map _), List.nodup_singleton k, ?_⟩
    rintro a ha b hb rfl
    obtain ⟨e, he, rfl⟩ := List.mem_map.mp ha
    exact get?_eq_none.mp hk e (hl.subset he) (List.mem_singleton.mp hb)
  rcases add_cases (k := k) hm hv with ⟨-, heq⟩ | ⟨older, e, newer, rfl, -, -, heq⟩ | ⟨-, -, heq⟩
  · rw [heq]
    exact hnew (List.Sublist.refl m)
  · rw [heq]
    exact hnew (List.Sublist.append_left (List.sublist_cons_self e newer) older)
  · rwa [heq]

end Evict

/-! ## The other operations -/

section Operations

variable [DecidableEq κ] {m : List (κ × ν)}

theorem Distinct.erase (hd : Distinct m) (k : κ) : Distinct (erase m k) :=
  hd.sublist (List.filter_sublist.map _)

theorem keys_modify (m : List (κ × ν)) (k : κ) (f : ν → ν) :
    (modify m k f).map Prod.fst = m.map Prod.fst := by
  rw [modify, List.map_map]
  refine List.map_congr_left fun e _ => ?_
  show (if e.1 = k then (e.1, f e.2) else e).1 = e.1
  split
  · rfl
  · rfl

theorem Distinct.modify (hd : Distinct m) (k : κ) (f : ν → ν) : Distinct (modify m k f) := by
  rwa [Distinct, keys_modify]

theorem length_modify (m : List (κ × ν)) (k : κ) (f : ν → ν) :
    (modify m k f).length = m.length := List.length_map _

theorem length_erase_le (m : List (κ × ν)) (k : κ) : (erase m k).length ≤ m.length :=
  List.length_filter_le _ _

theorem length_erase_lt {k : κ} {v : ν} (h : get? m k = some v) :
    (erase m k).length < m.length :=
  List.length_filter_lt_length_iff_exists.mpr ⟨_, mem_of_get? h, by simp⟩

/-- What a use of a key does. -/
theorem moveToEnd_some {k : κ} {v : ν} (h : get? m k = some v) :
    moveToEnd m k = some (Lru.erase m k ++ [(k, v)]) := by
  rw [moveToEnd, h]
  rfl

theorem get?_moved {k : κ} {v : ν} (h : get? m k = some v) (k' : κ) :
    get? (Lru.erase m k ++ [(k, v)]) k' = get? m k' := by
  rw [get?_append]
  by_cases hk : k' = k
  · rw [hk, get?_erase_self, h]
    exact if_pos rfl
  · rw [get?_erase_of_ne m hk, get?, if_neg (Ne.symm hk)]
    exact Option.or_none

theorem Distinct.moved {k : κ} (hd : Distinct m) (v : ν) :
    Distinct (Lru.erase m k ++ [(k, v)]) := by
  rw [Distinct, List.map_append, List.nodup_append]
  refine ⟨hd.erase k, List.nodup_singleton k, ?_⟩
  rintro a ha b hb rfl
  obtain ⟨e, he, rfl⟩ := List.mem_map.mp ha
  exact get?_eq_none.mp (get?_erase_self m k) e he (List.mem_singleton.mp hb)

end Operations

end Turbohaul.Lru
