/-
# The two VRAM admissions of a lone spawn

With no other resident, the reserve gate compares the footprint of the manifest
with the budget.  The gates before the spawn look at the declared VRAM without
the floor of the extra slots, and leave the KV cache out where it lives in the
host's memory; the footprint does neither.

  `gatesAdmit`    the gates before the spawn
  `admitsLone`    `_vram_admits_locked` without siblings
  `Manifest.Covered`  what the budget has to cover besides
-/
import Turbohaul.Dispatch
import Turbohaul.Safety

namespace Turbohaul

open Coop

/-- The gates before the spawn pass. -/
def gatesAdmit (m : Manifest) (minFreeVramMib : Nat) (vals : Option (List Nat))
    (memAvailableKib : Option Nat) : Bool :=
  (spawnGates m minFreeVramMib vals memAvailableKib).all (·.ok)

/-- `_vram_admits_locked` without siblings. -/
def admitsLone (fp : Footprint) (freeFit : Option Nat) : Bool :=
  match freeFit with
  | none => true
  | some free => decide (fp.need ≤ free)

/-- With no live resident, `_vram_admits_locked` asks for the budget once, and
its answer decides. -/
theorem run_vramAdmits_lone (fp : Footprint) {w : World} (h : w.modelResidents = []) :
    ∃ k, (vramAdmits fp).run w = .ask (.vramBudget fp.splitMode fp.mainGpu) k w ∧
      ∀ x, (k (.mib x)).run w = .done (.ok (admitsLone fp x)) w := by
  have hi : w.isolated fp = true := by simp [World.isolated, h]
  simp only [vramAdmits, vramBudget, bind, pure, Co.run, Co.gets, hi, Bool.not_true,
    Bool.false_eq_true, if_false]
  refine ⟨_, rfl, fun x => ?_⟩
  cases x <;> simp [Co.run, Reply.value, h, World.reservedOn, admitsLone]

section

variable {m : Manifest} {minFree : Nat} {vals : Option (List Nat)} {mem : Option Nat}

namespace Manifest

/-- The context a manifest asks for. -/
def ctx (m : Manifest) : Nat := orNat m.flags.ctxSize m.contextSize

/-- The declared VRAM is measured with the experts in the host's memory. -/
def measured (m : Manifest) : Bool :=
  (m.flags.cpuMoe || decide (0 < m.flags.nCpuMoe)) &&
    decide (0 < m.expectedVramBytes / (1024 * 1024))

/-- The floor of the extra slots. -/
def parExtra (m : Manifest) : Nat := (max 1 (orNat m.flags.parallel 1) - 1) * perSlotComputeFloorMib

/-- The body and the KV cache. -/
def derived (m : Manifest) : Nat :=
  m.ggufSizeBytes / (1024 * 1024) +
    estimateKvCacheMib m.ctx m.ggufSizeBytes (orString m.flags.cacheTypeK "f16")

/-- What the budget `free` has to cover besides what the gates look at: the
floor of the extra slots on top of the declared VRAM, unless that is measured
and compared with it; and the KV cache, where the gates count it in the host's
memory. -/
def Covered (m : Manifest) (free : Nat) : Prop :=
  (m.measured = true ∧ 0 < m.ggufSizeBytes) ∨
    m.expectedVramBytes / (1024 * 1024) + m.parExtra ≤ free ∧
      (m.flags.noKvOffload = true → m.measured = false → m.derived + m.parExtra ≤ free)

/-- The card or cards the manifest's spawn is budgeted against. -/
def budget (m : Manifest) (vals : Option (List Nat)) : Option Nat :=
  (vramBudgetOf vals m.footprint.splitMode m.footprint.mainGpu).map (·.1)

theorem footprint_need (m : Manifest) :
    m.footprint.need = if m.measured then m.expectedVramBytes / (1024 * 1024) + m.parExtra
      else max (m.expectedVramBytes / (1024 * 1024)) m.derived + m.parExtra := rfl

theorem ctx_pos (h : 1 ≤ m.contextSize) : 0 < m.ctx := by
  simp only [ctx, orNat]
  split <;> omega

/-- Without a body there is no KV cache. -/
theorem derived_of_no_body (h : m.ggufSizeBytes = 0) : m.derived = 0 := by
  simp [derived, estimateKvCacheMib, h]

end Manifest

open Manifest

theorem checkFreeVram_ok {free card n minFree bytes gpu : Nat} {split : String}
    (hb : vramBudgetOf vals split gpu = some (free, card, n)) :
    (checkFreeVram vals minFree bytes split gpu).ok =
      decide (max minFree (bytes / (1024 * 1024)) ≤ free) := by
  simp only [checkFreeVram, hb]
  split
  · rename_i h
    exact (decide_eq_false (Nat.not_le.mpr h)).symm
  · rename_i h
    exact (decide_eq_true (Nat.not_lt.mp h)).symm

/-- What the KV gate asks of a budget that could be read. -/
theorem le_of_checkKvCacheFit {free card n ctx gguf overhead par gpu exp : Nat}
    {quant split : String}
    {noKv moe : Bool} (hb : vramBudgetOf vals split gpu = some (free, card, n)) (hc : 0 < ctx)
    (hg : 0 < gguf)
    (h : (checkKvCacheFit vals mem ctx gguf overhead quant noKv par split gpu exp moe).ok = true) :
    (moe = true → 0 < exp → exp + overhead + (max 1 par - 1) * perSlotComputeFloorMib ≤ free) ∧
    ((moe = true → exp = 0) → noKv = false →
      gguf / (1024 * 1024) + estimateKvCacheMib ctx gguf quant + overhead +
        (max 1 par - 1) * perSlotComputeFloorMib ≤ free) := by
  have hin : ¬ (ctx = 0 ∨ gguf = 0) := by omega
  simp only [checkKvCacheFit, if_neg hin, hb] at h
  split at h
  · rename_i hm
    split at h
    · cases h
    · rename_i hle
      exact ⟨fun _ _ => Nat.not_lt.mp hle, fun he _ => absurd (he hm.1) (by omega)⟩
  · rename_i hm
    refine ⟨fun h1 h2 => absurd ⟨h1, h2⟩ hm, fun _ hn => ?_⟩
    subst hn
    simp only [Bool.false_eq_true, if_false] at h
    split at h
    · cases h
    · rename_i hle
      exact Nat.not_lt.mp hle

/-- What the gates ask of a budget that could be read. -/
theorem le_of_gatesAdmit {free : Nat} (hctx : 1 ≤ m.contextSize)
    (hb : m.budget vals = some free) (hg : gatesAdmit m minFree vals mem = true) :
    m.expectedVramBytes / (1024 * 1024) ≤ free ∧
    (0 < m.ggufSizeBytes →
      (m.measured = true → m.expectedVramBytes / (1024 * 1024) + m.parExtra ≤ free) ∧
      (m.measured = false → m.flags.noKvOffload = false → m.derived + m.parExtra ≤ free)) := by
  obtain ⟨⟨f, card, n⟩, hv, rfl⟩ := Option.map_eq_some_iff.mp hb
  simp only [gatesAdmit, spawnGates, List.all_cons, List.all_nil, Bool.and_true,
    Bool.and_eq_true] at hg
  obtain ⟨h1, h2⟩ := hg
  have hv' : vramBudgetOf vals (orString m.flags.splitMode "layer") (orNat m.flags.mainGpu 0) =
      some (f, card, n) := hv
  rw [checkFreeVram_ok hv', decide_eq_true_eq] at h1
  refine ⟨Nat.le_trans (Nat.le_max_right _ _) h1, fun hgguf => ?_⟩
  obtain ⟨hmoe, hplain⟩ := le_of_checkKvCacheFit hv' (ctx_pos hctx) hgguf h2
  constructor
  · intro hm
    simp only [measured, Bool.and_eq_true, decide_eq_true_eq] at hm
    have h3 := hmoe hm.1 hm.2
    simp only [parExtra]
    omega
  · intro hm hn
    have h3 := hplain (fun h => by simpa [measured, h] using hm) hn
    simp only [parExtra, derived, ctx]
    simp only [ctx] at h3
    omega

/-- The reserve gate admits what the gates admit exactly if the budget covers
what they leave out, or could not be read. -/
theorem admitsLone_iff_covered (hctx : 1 ≤ m.contextSize)
    (hg : gatesAdmit m minFree vals mem = true) :
    admitsLone m.footprint (m.budget vals) = true ↔
      ∀ free, m.budget vals = some free → m.Covered free := by
  cases hb : m.budget vals with
  | none => simp [admitsLone]
  | some free =>
    obtain ⟨hexp, hbody⟩ := le_of_gatesAdmit hctx hb hg
    simp only [Option.some.injEq, forall_eq', Covered]
    rw [admitsLone, decide_eq_true_iff, footprint_need]
    rcases Nat.eq_zero_or_pos m.ggufSizeBytes with h0 | hpos
    · have hd := derived_of_no_body h0
      cases hm : m.measured with
      | true => simp [h0]
      | false =>
        simp only [h0, hd, Bool.false_eq_true, if_false]
        omega
    · obtain ⟨hmeas, hplain⟩ := hbody hpos
      cases hm : m.measured with
      | true => simp [hpos, hmeas hm]
      | false =>
        cases hn : m.flags.noKvOffload with
        | true => simp; omega
        | false =>
          have := hplain hm hn
          simp
          omega

/-- Turning multi-slot on refuses no model that single-slot mode would load on
the same idle host, exactly if the budget, where it can be read, covers what the
gates leave out. -/
theorem lone_spawn_agrees_iff (m : Manifest) (hctx : 1 ≤ m.contextSize) (minFree : Nat)
    (vals : Option (List Nat)) (mem : Option Nat) :
    (gatesAdmit m minFree vals mem = true → admitsLone m.footprint (m.budget vals) = true) ↔
      (gatesAdmit m minFree vals mem = true →
        ∀ free, m.budget vals = some free → m.Covered free) :=
  ⟨fun h hg => (admitsLone_iff_covered hctx hg).mp (h hg),
    fun h hg => (admitsLone_iff_covered hctx hg).mpr (h hg)⟩

end

/-- A model of 17 GiB with 256K of context, its KV cache in the host's memory. -/
def hostKv : Manifest where
  ggufSizeBytes := 18253611008
  contextSize := 2048
  flags := { ctxSize := some 262144, noKvOffload := true }

/-- A model of 14 GiB with two slots, whose declared VRAM fills the card. -/
def twoSlots : Manifest where
  expectedVramBytes := 25769803776
  ggufSizeBytes := 15032385536
  contextSize := 2048
  flags := { ctxSize := some 16384, parallel := some 2 }

theorem lone_spawn_agrees_iff_hostKv :
    (gatesAdmit hostKv 512 (some [65536]) (some 67108864) = true ∧
      admitsLone hostKv.footprint (hostKv.budget (some [65536])) = true) ∧
    ((gatesAdmit hostKv 512 (some [65536]) (some 67108864) = true →
        admitsLone hostKv.footprint (hostKv.budget (some [65536])) = true) ↔
      (gatesAdmit hostKv 512 (some [65536]) (some 67108864) = true →
        ∀ free, hostKv.budget (some [65536]) = some free → hostKv.Covered free)) :=
  ⟨by decide +kernel, lone_spawn_agrees_iff hostKv (by decide) 512 (some [65536]) (some 67108864)⟩

/-- On a card of 24 GiB the gates admit both models, and the reserve gate
refuses them. -/
theorem lone_spawn_refused :
    ¬ (gatesAdmit hostKv 512 (some [24576]) (some 67108864) = true →
      admitsLone hostKv.footprint (hostKv.budget (some [24576])) = true) ∧
    ¬ (gatesAdmit twoSlots 512 (some [24576]) (some 67108864) = true →
      admitsLone twoSlots.footprint (twoSlots.budget (some [24576])) = true) := by
  decide +kernel

end Turbohaul
