/-
# `KvFit` — the KV gate asks less of less

`check_kv_cache_fit` on integers of either sign, as its signature takes them;
`checkKvCacheFit` of `Safety` is the same function on what a manifest holds.

What is compared: two calls with the same split mode, main GPU, place of the KV
cache, cpu-moe flag and declared VRAM (a `Plan`).  The one asks for no more than
the other (`Ask`, ordered field by field, the quant by its scale) and reads no
less from the probes.

  `checkKvCacheFit_ofNat`   the gate of `Safety` is this one
  `Ask.vramNeed`            what a call needs of the cards, by branch
  `gate_ok_iff`             the gate admits iff its needs are met
  `estimateKvCacheMib_le`   the estimate is monotone
  `kv_gate_monotone`        and so the gate admits the one if it admits the other
-/
import Turbohaul.Safety
import Mathlib.Data.List.Forall2
import Mathlib.Algebra.Ring.Int.Defs

namespace Turbohaul

namespace KvFit

/-- `_vram_budget`, of the free MiB of every card. -/
def vramBudget (vals : Option (List Int)) (splitMode : String) (mainGpu : Int) :
    Option (Int × Int × Nat) :=
  match vals with
  | none | some [] => none
  | some (v :: vs) =>
    let vals := v :: vs
    if (if splitMode = "" then "layer" else splitMode).toLower = "none" then
      let idx := if 0 ≤ mainGpu ∧ mainGpu < vals.length then mainGpu.toNat else 0
      let free := vals.getD idx v
      some (free, free, 1)
    else some (vals.sum, vs.foldl min v, vals.length)

/-- `estimate_kv_cache_mib`. -/
def estimateKvCacheMib (ctxSize ggufSizeBytes : Int) (kvCacheQuant : String) : Int :=
  if ctxSize ≤ 0 ∨ ggufSizeBytes ≤ 0 then 0
  else
    let ggufMib := ggufSizeBytes / (1024 * 1024)
    let bytesPerTokenKb := 9 * ggufMib / 1024 * kvQuantScale kvCacheQuant / 10000
    bytesPerTokenKb * ctxSize / 1024

/-- `check_kv_cache_fit`; `memAvailableKib` is `MemAvailable` of `/proc/meminfo`. -/
def checkKvCacheFit (vals : Option (List Int)) (memAvailableKib : Option Int)
    (ctxSize ggufSizeBytes overheadMib : Int) (kvCacheQuant : String) (noKvOffload : Bool)
    (parallel : Int) (splitMode : String) (mainGpu expectedVramMib : Int) (cpuMoeOffload : Bool) :
    GateResult :=
  let fits (ok : Bool) (detail : String) : GateResult := ⟨"kv_cache_fit", ok, detail⟩
  if ctxSize ≤ 0 ∨ ggufSizeBytes ≤ 0 then fits true "passed-insufficient-input"
  else
    let p := max 1 parallel
    match vramBudget vals splitMode mainGpu with
    | none =>
      if 1 < p then
        fits false ("parallel=" ++ toString p ++
          " requires a VRAM probe; nvidia-smi unreadable, refusing blind spawn")
      else fits true "passed-no-probe"
    | some (freeMib, _, _) =>
      let ggufMib := ggufSizeBytes / (1024 * 1024)
      let kvMib := estimateKvCacheMib ctxSize ggufSizeBytes kvCacheQuant
      let parExtraMib := (p - 1) * perSlotComputeFloorMib
      let parNote :=
        if 1 < p then "; parallel=" ++ toString p ++ " (+" ++ toString parExtraMib ++
          " MiB per-slot scratch)"
        else ""
      if cpuMoeOffload ∧ 0 < expectedVramMib then
        let vramNeed := expectedVramMib + overheadMib + parExtraMib
        if freeMib < vramNeed then
          fits false ("need ~" ++ toString vramNeed ++ " MiB VRAM (expected_vram=" ++
            toString expectedVramMib ++ " [cpu-moe measured] + overhead=" ++ toString overheadMib ++
            "); only " ++ toString freeMib ++ " MiB free VRAM" ++ parNote)
        else
          fits true ("fits ~" ++ toString vramNeed ++ " MiB (expected_vram=" ++
            toString expectedVramMib ++ " [cpu-moe measured]); " ++ toString freeMib ++
            " MiB free" ++ parNote)
      else if noKvOffload then
        let vramScratchMib := overheadMib + ctxSize / 128 + parExtraMib
        let vramNeed := ggufMib + vramScratchMib
        if freeMib < vramNeed then
          fits false ("need ~" ++ toString vramNeed ++ " MiB VRAM (body=" ++ toString ggufMib ++
            " + scratch=" ++ toString vramScratchMib ++ "; KV@ctx" ++ toString ctxSize ++ "=" ++
            toString kvMib ++ " [" ++ kvCacheQuant ++ "] in host RAM); only " ++ toString freeMib ++
            " MiB free VRAM" ++ parNote)
        else
          let short := match memAvailableKib with
            | some kib => decide (kib / 1024 < kvMib)
            | none => false
          let ramMib := (memAvailableKib.getD 0) / 1024
          let ramDetail := match memAvailableKib with
            | some _ => "ram_free=" ++ toString ramMib
            | none => "ram_free=n/a"
          if short then
            fits false ("KV@ctx" ++ toString ctxSize ++ "=" ++ toString kvMib ++ " MiB [" ++
              kvCacheQuant ++ "] needs host RAM (--no-kv-offload) but only " ++ toString ramMib ++
              " MiB free RAM")
          else
            fits true ("need ~" ++ toString vramNeed ++ " MiB VRAM / " ++ toString freeMib ++
              " free (body=" ++ toString ggufMib ++ " scratch=" ++ toString vramScratchMib ++
              "; KV=" ++ toString kvMib ++ " in host RAM, " ++ ramDetail ++ ")" ++ parNote)
      else
        let totalMib := ggufMib + kvMib + overheadMib + parExtraMib
        if freeMib < totalMib then
          fits false ("need ~" ++ toString totalMib ++ " MiB (body=" ++ toString ggufMib ++
            " + KV@ctx" ++ toString ctxSize ++ "=" ++ toString kvMib ++ " [" ++ kvCacheQuant ++
            "] + overhead=" ++ toString overheadMib ++ "); only " ++ toString freeMib ++
            " MiB free" ++ parNote)
        else
          fits true ("need ~" ++ toString totalMib ++ " MiB / " ++ toString freeMib ++
            " free (body=" ++ toString ggufMib ++ " KV=" ++ toString kvMib ++ " overhead=" ++
            toString overheadMib ++ " quant=" ++ kvCacheQuant ++ ")" ++ parNote)

/-! ## The gate of `Safety` -/

theorem sum_ofNat (l : List Nat) : (l.map Int.ofNat).sum = Int.ofNat l.sum := by
  induction l with
  | nil => rfl
  | cons n l ih =>
    show Int.ofNat n + (l.map Int.ofNat).sum = Int.ofNat (n + l.sum)
    rw [ih]
    rfl

theorem min_ofNat (n m : Nat) : min (Int.ofNat n) (Int.ofNat m) = Int.ofNat (min n m) := by
  simp only [Int.ofNat_eq_natCast]
  omega

theorem foldl_min_ofNat (l : List Nat) (n : Nat) :
    (l.map Int.ofNat).foldl min (Int.ofNat n) = Int.ofNat (l.foldl min n) := by
  induction l generalizing n with
  | nil => rfl
  | cons m l ih =>
    show (l.map Int.ofNat).foldl min (min (Int.ofNat n) (Int.ofNat m)) = _
    rw [min_ofNat, ih]
    rfl

theorem getD_ofNat (l : List Nat) (i d : Nat) :
    (l.map Int.ofNat).getD i (Int.ofNat d) = Int.ofNat (l.getD i d) := by
  simp only [List.getD_eq_getElem?_getD, List.getElem?_map]
  cases l[i]? with
  | none => rfl
  | some m => rfl

theorem vramBudget_ofNat (vals : Option (List Nat)) (splitMode : String) (mainGpu : Nat) :
    vramBudget (vals.map (·.map Int.ofNat)) splitMode (Int.ofNat mainGpu) =
      (vramBudgetOf vals splitMode mainGpu).map fun b =>
      (Int.ofNat b.1, Int.ofNat b.2.1, b.2.2) := by
  rcases vals with _ | _ | ⟨v, vs⟩
  · rfl
  · rfl
  · have hi : (if 0 ≤ Int.ofNat mainGpu ∧ Int.ofNat mainGpu < ((v :: vs).map Int.ofNat).length then
        (Int.ofNat mainGpu).toNat else 0) = if mainGpu < (v :: vs).length then mainGpu else 0 := by
      simp only [List.length_map, Int.ofNat_eq_natCast, Int.toNat_natCast]
      split <;> split <;> omega
    simp only [Option.map_some, List.map_cons, vramBudget, vramBudgetOf]
    rw [← List.map_cons, hi, getD_ofNat, sum_ofNat, foldl_min_ofNat, List.length_map]
    by_cases hn : (if splitMode = "" then "layer" else splitMode).toLower = "none"
    · rw [if_pos hn, if_pos hn]
      rfl
    · rw [if_neg hn, if_neg hn]
      rfl

theorem estimateKvCacheMib_ofNat (ctxSize ggufSizeBytes : Nat) (q : String) :
    estimateKvCacheMib (Int.ofNat ctxSize) (Int.ofNat ggufSizeBytes) q =
      Int.ofNat (Turbohaul.estimateKvCacheMib ctxSize ggufSizeBytes q) := by
  have hc : (Int.ofNat ctxSize ≤ 0 ∨ Int.ofNat ggufSizeBytes ≤ 0) ↔
      (ctxSize = 0 ∨ ggufSizeBytes = 0) := by
    simp only [Int.ofNat_eq_natCast]
    omega
  simp only [estimateKvCacheMib, Turbohaul.estimateKvCacheMib, hc]
  split
  · rfl
  · rfl

theorem lt_ofNat (n m : Nat) : Int.ofNat n < Int.ofNat m ↔ n < m := Int.ofNat_lt

theorem max_one_ofNat (n : Nat) : max 1 (Int.ofNat n) = Int.ofNat (max 1 n) := by
  simp only [Int.ofNat_eq_natCast]
  omega

theorem slots_ofNat (n : Nat) :
    (Int.ofNat (max 1 n) - 1) * (perSlotComputeFloorMib : Int) =
      Int.ofNat ((max 1 n - 1) * perSlotComputeFloorMib) := by
  simp only [Int.ofNat_eq_natCast, perSlotComputeFloorMib]
  omega

theorem checkKvCacheFit_ofNat (vals : Option (List Nat)) (mem : Option Nat)
    (ctx gguf overhead : Nat) (q : String) (noKv : Bool) (parallel : Nat) (splitMode : String)
    (mainGpu expected : Nat) (moe : Bool) :
    checkKvCacheFit (vals.map (·.map Int.ofNat)) (mem.map Int.ofNat) (Int.ofNat ctx)
        (Int.ofNat gguf) (Int.ofNat overhead) q noKv (Int.ofNat parallel) splitMode
        (Int.ofNat mainGpu) (Int.ofNat expected) moe =
      Turbohaul.checkKvCacheFit vals mem ctx gguf overhead q noKv parallel splitMode mainGpu
        expected moe := by
  have hc : (Int.ofNat ctx ≤ 0 ∨ Int.ofNat gguf ≤ 0) ↔ (ctx = 0 ∨ gguf = 0) := by
    simp only [Int.ofNat_eq_natCast]
    omega
  unfold checkKvCacheFit Turbohaul.checkKvCacheFit
  rw [vramBudget_ofNat, estimateKvCacheMib_ofNat, max_one_ofNat]
  refine if_congr hc rfl ?_
  dsimp only
  rw [slots_ofNat]
  cases vramBudgetOf vals splitMode mainGpu with
  | none => exact if_congr (lt_ofNat 1 _) rfl rfl
  | some b =>
    obtain ⟨free, card, n⟩ := b
    have hn : (if 1 < Int.ofNat (max 1 parallel) then
          "; parallel=" ++ toString (Int.ofNat (max 1 parallel)) ++ " (+" ++
            toString (Int.ofNat ((max 1 parallel - 1) * perSlotComputeFloorMib)) ++
            " MiB per-slot scratch)" else "") =
        if 1 < max 1 parallel then
          "; parallel=" ++ toString (max 1 parallel) ++ " (+" ++
            toString ((max 1 parallel - 1) * perSlotComputeFloorMib) ++
            " MiB per-slot scratch)" else "" := if_congr (lt_ofNat 1 _) rfl rfl
    simp only [Option.map_some]
    rw [hn]
    refine if_congr (and_congr_right fun _ => lt_ofNat 0 _) ?_ (if_congr Iff.rfl ?_ ?_)
    · exact if_congr (lt_ofNat _ _) rfl rfl
    · refine if_congr (lt_ofNat _ _) rfl ?_
      cases mem with
      | none => rfl
      | some kib =>
        refine if_congr ?_ rfl rfl
        dsimp only [Option.map_some]
        rw [decide_eq_true_iff, decide_eq_true_iff]
        exact lt_ofNat _ _
    · exact if_congr (lt_ofNat _ _) rfl rfl

/-! ## What the gate asks -/

/-- What a call asks of the host. -/
structure Ask where
  ctxSize : Int
  ggufSizeBytes : Int
  overheadMib : Int
  kvCacheQuant : String
  parallel : Int

/-- What two calls are compared under. -/
structure Plan where
  noKvOffload : Bool
  splitMode : String
  mainGpu : Int
  expectedVramMib : Int
  cpuMoeOffload : Bool

/-- The gate, called with an ask under a plan. -/
def Plan.gate (c : Plan) (vals : Option (List Int)) (mem : Option Int) (a : Ask) : GateResult :=
  checkKvCacheFit vals mem a.ctxSize a.ggufSizeBytes a.overheadMib a.kvCacheQuant c.noKvOffload
    a.parallel c.splitMode c.mainGpu c.expectedVramMib c.cpuMoeOffload

namespace Ask

instance : LE Ask where
  le a b := a.ctxSize ≤ b.ctxSize ∧ a.ggufSizeBytes ≤ b.ggufSizeBytes ∧
    a.overheadMib ≤ b.overheadMib ∧ kvQuantScale a.kvCacheQuant ≤ kvQuantScale b.kvCacheQuant ∧
    a.parallel ≤ b.parallel

/-- The body of the model. -/
def body (a : Ask) : Int := a.ggufSizeBytes / (1024 * 1024)

/-- The KV cache. -/
def kv (a : Ask) : Int := estimateKvCacheMib a.ctxSize a.ggufSizeBytes a.kvCacheQuant

/-- The floor of the extra slots. -/
def slots (a : Ask) : Int := (max 1 a.parallel - 1) * perSlotComputeFloorMib

/-- What the cards have to hold, by branch. -/
def vramNeed (c : Plan) (a : Ask) : Int :=
  if c.cpuMoeOffload ∧ 0 < c.expectedVramMib then c.expectedVramMib + a.overheadMib + a.slots
  else if c.noKvOffload then a.body + (a.overheadMib + a.ctxSize / 128 + a.slots)
  else a.body + a.kv + a.overheadMib + a.slots

/-- The host's memory has to hold the KV cache. -/
def inHost (c : Plan) : Prop :=
  ¬ (c.cpuMoeOffload = true ∧ 0 < c.expectedVramMib) ∧ c.noKvOffload = true

instance (c : Plan) : Decidable (inHost c) := inferInstanceAs (Decidable (_ ∧ _))

end Ask

open Ask

theorem gate_ok_of_unknown {c : Plan} {vals : Option (List Int)} {mem : Option Int} {a : Ask}
    (h : a.ctxSize ≤ 0 ∨ a.ggufSizeBytes ≤ 0) : (c.gate vals mem a).ok = true := by
  unfold Plan.gate checkKvCacheFit
  rw [if_pos h]

/-- A gate that refuses below its need. -/
theorem ok_of_need {free need : Int} {n d d' : String} :
    (if free < need then (⟨n, false, d⟩ : GateResult) else ⟨n, true, d'⟩).ok = true ↔
      need ≤ free := by
  split
  · rename_i h
    exact ⟨(by rintro ⟨⟩), fun h' => absurd h (Int.not_lt.mpr h')⟩
  · rename_i h
    exact ⟨fun _ => Int.not_lt.mp h, fun _ => rfl⟩

/-- A gate that refuses below its need, or for want of something else. -/
theorem ok_of_needs {free need : Int} {short : Bool} {n d d' d'' : String} :
    (if free < need then (⟨n, false, d⟩ : GateResult)
      else if short = true then ⟨n, false, d'⟩ else ⟨n, true, d''⟩).ok = true ↔
      need ≤ free ∧ short = false := by
  cases short with
  | true =>
    rw [if_pos rfl]
    refine ⟨fun h => ?_, fun h => absurd h.2 (by rintro ⟨⟩)⟩
    split at h
    · cases h
    · cases h
  | false =>
    rw [if_neg Bool.false_ne_true, ok_of_need]
    exact (and_iff_left rfl).symm

/-- Blind, the gate admits a single slot. -/
theorem gate_ok_iff_of_blind {c : Plan} {vals : Option (List Int)} {mem : Option Int} {a : Ask}
    (hv : vramBudget vals c.splitMode c.mainGpu = none)
    (h : ¬ (a.ctxSize ≤ 0 ∨ a.ggufSizeBytes ≤ 0)) :
    (c.gate vals mem a).ok = true ↔ a.parallel ≤ 1 := by
  unfold Plan.gate checkKvCacheFit
  rw [if_neg h, hv]
  dsimp only
  rw [ok_of_need]
  omega

/-- Where the cards can be read, the gate admits what they and, if the KV cache
lives there, the host's memory can hold. -/
theorem gate_ok_iff {c : Plan} {vals : Option (List Int)} {kib : Int} {a : Ask}
    {free card : Int} {n : Nat} (hv : vramBudget vals c.splitMode c.mainGpu = some (free, card, n))
    (h : ¬ (a.ctxSize ≤ 0 ∨ a.ggufSizeBytes ≤ 0)) :
    (c.gate vals (some kib) a).ok = true ↔
      vramNeed c a ≤ free ∧ (inHost c → a.kv ≤ kib / 1024) := by
  unfold Plan.gate checkKvCacheFit
  rw [if_neg h, hv]
  dsimp only
  by_cases hm : c.cpuMoeOffload = true ∧ 0 < c.expectedVramMib
  · have hn : vramNeed c a = c.expectedVramMib + a.overheadMib + a.slots := if_pos hm
    have hh : ¬ inHost c := fun hi => hi.1 hm
    rw [if_pos hm, ok_of_need, hn]
    exact ⟨fun h1 => ⟨h1, fun hi => absurd hi hh⟩, fun h1 => h1.1⟩
  · rw [if_neg hm]
    cases hk : c.noKvOffload with
    | true =>
      have hn : vramNeed c a = a.body + (a.overheadMib + a.ctxSize / 128 + a.slots) := by
        rw [vramNeed, if_neg hm, hk]
        rfl
      have hh : inHost c := ⟨hm, hk⟩
      rw [if_pos rfl, ok_of_needs, hn, decide_eq_false_iff_not]
      exact and_congr_right fun _ => ⟨fun h1 _ => Int.not_lt.mp h1,
        fun h1 => Int.not_lt.mpr (h1 hh)⟩
    | false =>
      have hn : vramNeed c a = a.body + a.kv + a.overheadMib + a.slots := by
        rw [vramNeed, if_neg hm, hk]
        rfl
      have hh : ¬ inHost c := fun hi => absurd (hk ▸ hi.2) (by rintro ⟨⟩)
      rw [if_neg Bool.false_ne_true, ok_of_need, hn]
      exact ⟨fun h1 => ⟨h1, fun hi => absurd hi hh⟩, fun h1 => h1.1⟩

/-! ## Less is admitted -/

theorem estimateKvCacheMib_nonneg (ctxSize ggufSizeBytes : Int) (q : String) :
    0 ≤ estimateKvCacheMib ctxSize ggufSizeBytes q := by
  unfold estimateKvCacheMib
  split
  · exact Int.le_refl 0
  · rename_i h
    have hg : 0 ≤ 9 * (ggufSizeBytes / (1024 * 1024)) / 1024 := by omega
    have hs : (0 : Int) ≤ kvQuantScale q := Int.natCast_nonneg _
    have hb := Int.ediv_nonneg (Int.mul_nonneg hg hs) (by decide : (0 : Int) ≤ 10000)
    exact Int.ediv_nonneg (Int.mul_nonneg hb (by omega)) (by decide)

/-- The estimate grows with the context, the body and the scale. -/
theorem estimateKvCacheMib_le {ctx ctx' gguf gguf' : Int} {q q' : String} (hc : ctx ≤ ctx')
    (hg : gguf ≤ gguf') (hq : kvQuantScale q ≤ kvQuantScale q') :
    estimateKvCacheMib ctx gguf q ≤ estimateKvCacheMib ctx' gguf' q' := by
  by_cases h : ctx ≤ 0 ∨ gguf ≤ 0
  · -- nothing is predicted for the smaller one
    have h0 : estimateKvCacheMib ctx gguf q = 0 := if_pos h
    rw [h0]
    exact estimateKvCacheMib_nonneg ctx' gguf' q'
  · have h' : ¬ (ctx' ≤ 0 ∨ gguf' ≤ 0) := by omega
    have hbase : 9 * (gguf / (1024 * 1024)) / 1024 ≤ 9 * (gguf' / (1024 * 1024)) / 1024 := by omega
    have hbase0 : 0 ≤ 9 * (gguf' / (1024 * 1024)) / 1024 := by omega
    have hscale : (kvQuantScale q : Int) ≤ kvQuantScale q' := Int.ofNat_le.mpr hq
    have hper : 9 * (gguf / (1024 * 1024)) / 1024 * kvQuantScale q / 10000 ≤
        9 * (gguf' / (1024 * 1024)) / 1024 * kvQuantScale q' / 10000 :=
      Int.ediv_le_ediv (by decide)
        (Int.mul_le_mul hbase hscale (Int.natCast_nonneg _) hbase0)
    have hper0 : 0 ≤ 9 * (gguf' / (1024 * 1024)) / 1024 * kvQuantScale q' / 10000 :=
      Int.ediv_nonneg (Int.mul_nonneg hbase0 (Int.natCast_nonneg _)) (by decide)
    rw [estimateKvCacheMib, if_neg h, estimateKvCacheMib, if_neg h']
    exact Int.ediv_le_ediv (by decide) (Int.mul_le_mul hper hc (by omega) hper0)

theorem slots_le {a b : Ask} (h : a.parallel ≤ b.parallel) : a.slots ≤ b.slots := by
  simp only [Ask.slots, perSlotComputeFloorMib]
  omega

theorem kv_le {a b : Ask} (h : a ≤ b) : a.kv ≤ b.kv :=
  estimateKvCacheMib_le h.1 h.2.1 h.2.2.2.1

/-- Each branch's need grows with what is asked. -/
theorem vramNeed_le (c : Plan) {a b : Ask} (h : a ≤ b) : vramNeed c a ≤ vramNeed c b := by
  have hkv := kv_le h
  obtain ⟨hc, hg, ho, -, hp⟩ := h
  have hs := slots_le hp
  have hbody : a.body ≤ b.body := Int.ediv_le_ediv (by decide) hg
  have hscratch : a.ctxSize / 128 ≤ b.ctxSize / 128 := Int.ediv_le_ediv (by decide) hc
  unfold vramNeed
  split
  · omega
  · split
    · omega
    · omega

theorem sum_le {l l' : List Int} (h : List.Forall₂ (· ≤ ·) l l') : l.sum ≤ l'.sum := by
  induction h with
  | nil => exact Int.le_refl 0
  | cons hx _ ih =>
    rw [List.sum_cons, List.sum_cons]
    omega

theorem getD_le {l l' : List Int} (h : List.Forall₂ (· ≤ ·) l l') (i : Nat) {d d' : Int}
    (hd : d ≤ d') : l.getD i d ≤ l'.getD i d' := by
  induction h generalizing i with
  | nil => exact hd
  | cons hx _ ih =>
    cases i with
    | zero => exact hx
    | succ i => exact ih i

/-- More is free for the fit where every card has more. -/
theorem vramBudget_le {vals vals' : List Int} (h : List.Forall₂ (· ≤ ·) vals vals')
    (splitMode : String) (mainGpu : Int) :
    (vramBudget (some vals) splitMode mainGpu = none ∧
      vramBudget (some vals') splitMode mainGpu = none) ∨
    ∃ free card n free' card' n',
      vramBudget (some vals) splitMode mainGpu = some (free, card, n) ∧
      vramBudget (some vals') splitMode mainGpu = some (free', card', n') ∧ free ≤ free' := by
  have hlen := h.length_eq
  cases h with
  | nil => exact .inl ⟨rfl, rfl⟩
  | @cons v v' vs vs' hv hvs =>
    refine .inr ?_
    simp only [vramBudget]
    by_cases hn : (if splitMode = "" then "layer" else splitMode).toLower = "none"
    · rw [if_pos hn, if_pos hn, hlen]
      exact ⟨_, _, _, _, _, _, rfl, rfl, getD_le (.cons hv hvs) _ hv⟩
    · rw [if_neg hn, if_neg hn]
      exact ⟨_, _, _, _, _, _, rfl, rfl, sum_le (.cons hv hvs)⟩

/-- The gate admits what asks for no more, where no less can be read. -/
theorem gate_ok_of_le (c : Plan) {vals vals' : List Int} {kib kib' : Int} {a b : Ask} (h : a ≤ b)
    (hv : List.Forall₂ (· ≤ ·) vals vals') (hk : kib ≤ kib')
    (hb : (c.gate (some vals) (some kib) b).ok = true) :
    (c.gate (some vals') (some kib') a).ok = true := by
  by_cases ha : a.ctxSize ≤ 0 ∨ a.ggufSizeBytes ≤ 0
  · exact gate_ok_of_unknown ha
  · have hb' : ¬ (b.ctxSize ≤ 0 ∨ b.ggufSizeBytes ≤ 0) := by
      have h1 := h.1
      have h2 := h.2.1
      omega
    rcases vramBudget_le hv c.splitMode c.mainGpu with ⟨h1, h2⟩ | ⟨_, _, _, _, _, _, h1, h2, hf⟩
    · rw [gate_ok_iff_of_blind h1 hb'] at hb
      exact (gate_ok_iff_of_blind h2 ha).mpr (Int.le_trans h.2.2.2.2 hb)
    · obtain ⟨hneed, hram⟩ := (gate_ok_iff h1 hb').mp hb
      refine (gate_ok_iff h2 ha).mpr ⟨?_, fun hi => ?_⟩
      · exact Int.le_trans (vramNeed_le c h) (Int.le_trans hneed hf)
      · have hr : kib / 1024 ≤ kib' / 1024 := Int.ediv_le_ediv (by decide) hk
        exact Int.le_trans (kv_le h) (Int.le_trans (hram hi) hr)

/-- The KV gate is monotone, and so is the estimate it rests on. -/
theorem kv_gate_monotone (c : Plan) {vals vals' : List Int} {kib kib' : Int} {a b : Ask}
    (h : a ≤ b) (hv : List.Forall₂ (· ≤ ·) vals vals') (hk : kib ≤ kib') :
    ((c.gate (some vals) (some kib) b).ok = true →
      (c.gate (some vals') (some kib') a).ok = true) ∧
    estimateKvCacheMib a.ctxSize a.ggufSizeBytes a.kvCacheQuant ≤
      estimateKvCacheMib b.ctxSize b.ggufSizeBytes b.kvCacheQuant :=
  ⟨gate_ok_of_le c h hv hk, estimateKvCacheMib_le h.1 h.2.1 h.2.2.2.1⟩

/-- A half-quantised cache of half the context, with one slot less. -/
theorem kv_gate_monotone_inst :
    (Plan.gate ⟨true, "none", 1, 0, false⟩ (some [100, 30000]) (some 6000001)
      ⟨16384, 17179869184, 1024, "q8_0", 1⟩).ok = true ∧
    estimateKvCacheMib 16384 17179869184 "q8_0" ≤ estimateKvCacheMib 32768 17179869184 "f16" :=
  (kv_gate_monotone ⟨true, "none", 1, 0, false⟩
    (a := ⟨16384, 17179869184, 1024, "q8_0", 1⟩) (b := ⟨32768, 17179869184, 1024, "f16", 2⟩)
    ⟨by decide, by decide, by decide, by decide +kernel, by decide⟩
    (.cons (by decide : (100 : Int) ≤ 100) (.cons (by decide : (20000 : Int) ≤ 30000) .nil))
    (by decide : (6000000 : Int) ≤ 6000001)).imp (fun h => h (by decide +kernel)) id

end KvFit

end Turbohaul
