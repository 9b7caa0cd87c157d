/-
# Runs of `PUT /api/config`

A validated section keeps its values through the dump and the validation of the
next request, so a request acts on each field alone: it takes the payload's
value where there is one.  From it, requests on disjoint fields commute, and the
timers always have the values of the configuration.  The queue has those it was
built with.

  `Patches`     the payloads that are accepted
  `Manager.put` the state an accepted payload gives
  `Manager.Inv` what holds in every run
-/
import Turbohaul.ConfigPut

namespace Turbohaul.Config

variable {P : Pydantic}

/-- A validated value is valid. -/
theorem validate_idem {k : Kind} {j v : Json} (h : P.validate k j = some v) :
    P.validate k v = some v := by
  rw [Pydantic.validate, Option.filter_eq_some_iff] at h
  rw [Pydantic.validate, Option.filter_eq_some_iff]
  exact ⟨P.coerce_typed k v (P.typed_coerce k j v h.1), h.2⟩

/-- Every default is within its own bounds. -/
theorem validate_default {f : Field} (hf : f ∈ queueFields ++ pullFields ++ monitorFields) :
    P.validate f.kind f.default = some f.default := by
  have h : ∀ nan, ∀ f ∈ queueFields ++ pullFields ++ monitorFields,
      f.kind.typed f.default = true ∧ f.kind.within nan f.default = true := by decide +kernel
  rw [Pydantic.validate, P.coerce_typed _ _ (h P.nanWithin f hf).1, Option.filter_eq_some_iff]
  exact ⟨rfl, (h P.nanWithin f hf).2⟩

/-- A section as validation leaves it: the fields, each with a valid value. -/
structure Valid (P : Pydantic) (fields : List Field) (s : Dict) : Prop where
  has : ∀ k, s.has k = decide (k ∈ fields.map (·.name))
  known : s.all (fun kv => decide (kv.1 ∈ fields.map (·.name))) = true
  value : ∀ f ∈ fields, P.validate f.kind (s.get f.name) = some (s.get f.name)

/-- A table of fields with distinct names and valid defaults. -/
structure Table (P : Pydantic) (fields : List Field) : Prop where
  nodup : (fields.map (·.name)).Nodup
  default : ∀ f ∈ fields, P.validate f.kind f.default = some f.default

theorem table_queue : Table P queueFields :=
  ⟨by decide, fun _ hf => validate_default (List.mem_append_left _ (List.mem_append_left _ hf))⟩

theorem table_pull : Table P pullFields :=
  ⟨by decide, fun _ hf => validate_default (List.mem_append_left _ (List.mem_append_right _ hf))⟩

theorem table_monitor : Table P monitorFields :=
  ⟨by decide, fun _ hf => validate_default (List.mem_append_right _ hf)⟩

variable {fields : List Field}

theorem valid_map (T : Table P fields) {v : Field → Json}
    (hv : ∀ f ∈ fields, P.validate f.kind (v f) = some (v f)) :
    Valid P fields (fields.map fun f => (f.name, v f)) where
  has k := Dict.has_map fields v k
  known := by
    simp only [List.all_map, List.all_eq_true, Function.comp_apply, decide_eq_true_eq]
    exact fun f hf => List.mem_map_of_mem hf
  value f hf := by rw [Dict.get_map fields v T.nodup hf, hv f hf]

/-- What is validated is valid. -/
theorem valid_of_validateSection (T : Table P fields) {d s : Dict}
    (h : P.validateSection fields d = some s) : Valid P fields s := by
  simp only [Pydantic.validateSection] at h
  split at h
  · rename_i hc
    cases h
    simp only [Bool.and_eq_true, List.all_eq_true] at hc
    refine valid_map T fun f hf => ?_
    obtain ⟨v, hv⟩ := Option.isSome_iff_exists.mp (hc.2 f hf)
    rw [hv, Option.getD_some]
    simp only [Pydantic.fieldValue] at hv
    split at hv
    · exact validate_idem hv
    · cases hv
      exact T.default f hf
  · cases h

/-- A patch of the section that is accepted: it has known fields only, with
values that validate. -/
structure Patches (P : Pydantic) (fields : List Field) (patch : Dict) : Prop where
  known : patch.all (fun kv => decide (kv.1 ∈ fields.map (·.name))) = true
  value : ∀ f ∈ fields, patch.has f.name = true →
    (P.validate f.kind (patch.get f.name)).isSome = true

/-- The value a field has after a patch. -/
def patched (P : Pydantic) (cur patch : Dict) (f : Field) : Json :=
  if patch.has f.name then (P.validate f.kind (patch.get f.name)).getD .null else cur.get f.name

/-- The section after a patch. -/
def patchedSection (P : Pydantic) (fields : List Field) (cur patch : Dict) : Dict :=
  fields.map fun f => (f.name, patched P cur patch f)

theorem get_patchedSection (T : Table P fields) (cur patch : Dict) {f : Field} (hf : f ∈ fields) :
    (patchedSection P fields cur patch).get f.name = patched P cur patch f :=
  Dict.get_map fields _ T.nodup hf

/-- A merged field is the patch's, or stays as it is. -/
theorem fieldValue_update {cur patch : Dict} (hv : Valid P fields cur) {f : Field}
    (hf : f ∈ fields) :
    P.fieldValue (cur.update patch) f =
      if patch.has f.name then P.validate f.kind (patch.get f.name) else some (cur.get f.name) := by
  have hcur : cur.has f.name = true := by
    rw [hv.has]
    exact decide_eq_true (List.mem_map_of_mem hf)
  rw [Pydantic.fieldValue, Dict.has_update, hcur, Bool.true_or, if_pos rfl, Dict.get_update]
  split
  · rfl
  · exact hv.value f hf

/-- The validation of a merged section. -/
theorem validateSection_update {cur patch : Dict} (hv : Valid P fields cur) :
    (Patches P fields patch → P.validateSection fields (cur.update patch) =
      some (patchedSection P fields cur patch)) ∧
    (¬ Patches P fields patch → P.validateSection fields (cur.update patch) = none) := by
  have hall := Dict.all_update (fun k => decide (k ∈ fields.map (·.name))) cur patch
  rw [hv.known, Bool.true_and] at hall
  constructor
  · intro hp
    have hsome : fields.all (fun f => (P.fieldValue (cur.update patch) f).isSome) = true := by
      rw [List.all_eq_true]
      intro f hf
      rw [fieldValue_update hv hf]
      split
      · rename_i h
        exact hp.value f hf h
      · rfl
    rw [Pydantic.validateSection, hall, hp.known, hsome, Bool.and_self, if_pos rfl]
    refine congrArg some (List.map_congr_left fun f hf => ?_)
    rw [fieldValue_update hv hf, patched]
    split <;> rfl
  · intro hp
    rw [Pydantic.validateSection, hall, if_neg]
    intro h
    rw [Bool.and_eq_true] at h
    refine hp ⟨h.1, fun f hf hh => ?_⟩
    have hs := List.all_eq_true.mp h.2 f hf
    rwa [fieldValue_update hv hf, if_pos hh] at hs

/-- The section after an accepted patch is valid. -/
theorem valid_patchedSection (T : Table P fields) {cur patch : Dict} (hv : Valid P fields cur)
    (hp : Patches P fields patch) : Valid P fields (patchedSection P fields cur patch) :=
  valid_of_validateSection T ((validateSection_update hv).1 hp)

/-- Patches of disjoint fields commute. -/
theorem patchedSection_comm (T : Table P fields) {cur a b : Dict}
    (hd : ∀ f ∈ fields, a.has f.name = true → b.has f.name = true → False) :
    patchedSection P fields (patchedSection P fields cur a) b =
      patchedSection P fields (patchedSection P fields cur b) a := by
  refine List.map_congr_left fun f hf => Prod.ext rfl ?_
  simp only [patched, get_patchedSection T _ _ hf]
  cases ha : a.has f.name <;> cases hb : b.has f.name
  · rfl
  · rfl
  · rfl
  · exact absurd hb fun hb => hd f hf ha hb

/-- An empty patch changes nothing. -/
theorem patchedSection_nil (T : Table P fields) (cur : Dict) {f : Field} (hf : f ∈ fields) :
    (patchedSection P fields cur []).get f.name = cur.get f.name := by
  rw [get_patchedSection T _ _ hf]
  rfl

/-! ## One request -/

/-- A configuration as validation leaves it. -/
structure ValidRuntime (P : Pydantic) (r : Runtime) : Prop where
  queue : Valid P queueFields r.queue
  pull : Valid P pullFields r.pull
  monitor : Valid P monitorFields r.monitor

theorem validRuntime_of_validateRuntime {queue pull monitor : Dict} {r : Runtime}
    (h : P.validateRuntime queue pull monitor = some r) : ValidRuntime P r := by
  simp only [Pydantic.validateRuntime] at h
  split at h
  · rename_i hq hp hm
    cases h
    exact ⟨valid_of_validateSection table_queue hq, valid_of_validateSection table_pull hp,
      valid_of_validateSection table_monitor hm⟩
  · cases h

/-- The payloads that are accepted, whatever the configuration. -/
structure Accepts (P : Pydantic) (payload : Dict) : Prop where
  sections : ∀ k ∈ keys payload, k ∈ ["queue", "pull"]
  objects : badSection payload = none
  queue : Patches P queueFields (patchOf payload "queue")
  pull : Patches P pullFields (patchOf payload "pull")

/-- The configuration after an accepted payload. -/
def Runtime.patch (P : Pydantic) (r : Runtime) (payload : Dict) : Runtime where
  queue := patchedSection P queueFields r.queue (patchOf payload "queue")
  pull := patchedSection P pullFields r.pull (patchOf payload "pull")
  monitor := patchedSection P monitorFields r.monitor []

/-- The state after an accepted payload. -/
def Manager.put (P : Pydantic) (m : Manager) (payload : Dict) : Manager where
  runtime := m.runtime.patch P payload
  parts :=
    if payload.has "queue" then
      { m.parts with
        graceGraceSeconds := (m.runtime.patch P payload).queue.get "grace_seconds"
        graceMaxExtensions := (m.runtime.patch P payload).queue.get "max_grace_extensions"
        idleIdleSeconds := (m.runtime.patch P payload).queue.get "idle_hot_load_seconds" }
    else m.parts

theorem patches_nil : Patches P fields [] :=
  ⟨rfl, fun _ _ h => absurd h (by simp [Dict.has])⟩

/-- An accepted payload is applied. -/
theorem putConfig_of_accepts {m : Manager} {payload : Dict} (hv : ValidRuntime P m.runtime)
    (ha : Accepts P payload) :
    putConfig P m payload =
      (.ok { appliedSections := pySorted (keys payload), current := m.runtime.patch P payload },
        m.put P payload) := by
  have hboot : (keys payload).filter (· ∈ bootSections) = [] := by
    rw [List.filter_eq_nil_iff]
    intro k hk hb
    have h2 : ∀ k ∈ ["queue", "pull"], k ∉ bootSections := by decide
    exact h2 k (ha.sections k hk) (of_decide_eq_true hb)
  have hunknown : (keys payload).filter (· ∉ ["queue", "pull"]) = [] := by
    rw [List.filter_eq_nil_iff]
    intro k hk hn
    exact of_decide_eq_true hn (ha.sections k hk)
  have hmon := (validateSection_update hv.monitor).1 patches_nil
  rw [show m.runtime.monitor.update [] = m.runtime.monitor from rfl] at hmon
  simp only [putConfig, hboot, hunknown, ha.objects, Pydantic.validateRuntime,
    (validateSection_update hv.queue).1 ha.queue, (validateSection_update hv.pull).1 ha.pull, hmon,
    ne_eq, not_true_eq_false, if_false]
  rfl

/-- A payload that is not accepted changes nothing. -/
theorem putConfig_of_not_accepts {m : Manager} {payload : Dict} (hv : ValidRuntime P m.runtime)
    (ha : ¬ Accepts P payload) : ∃ e, putConfig P m payload = (.error e, m) := by
  simp only [putConfig]
  split
  · exact ⟨_, rfl⟩
  · split
    · exact ⟨_, rfl⟩
    · rename_i hu
      split
      · exact ⟨_, rfl⟩
      · rename_i hb
        split
        · exact ⟨_, rfl⟩
        · rename_i r hr
          refine absurd ⟨?_, hb, ?_, ?_⟩ ha
          · intro k hk
            by_contra hn
            rw [not_not, List.filter_eq_nil_iff] at hu
            exact hu k hk (decide_eq_true hn)
          · by_contra hq
            simp [Pydantic.validateRuntime, (validateSection_update hv.queue).2 hq] at hr
          · by_contra hp
            simp only [Pydantic.validateRuntime, (validateSection_update hv.pull).2 hp] at hr
            split at hr
            · rename_i h _
              cases h
            · cases hr

/-! ## Runs -/

/-- The fields of the queue, read at construction only. -/
def copiedOnce : List String :=
  ["staging_queue_depth", "acceptance_buffer_max", "max_consecutive_same_model",
    "max_other_model_wait_s"]

/-- What holds in every run from the configuration `r₀`: the timers have the
values of the present configuration, the queue those of `r₀`. -/
structure Manager.Inv (P : Pydantic) (r₀ : Runtime) (m : Manager) : Prop where
  valid : ValidRuntime P m.runtime
  grace : m.parts.graceGraceSeconds = m.runtime.queue.get "grace_seconds"
  extensions : m.parts.graceMaxExtensions = m.runtime.queue.get "max_grace_extensions"
  idle : m.parts.idleIdleSeconds = m.runtime.queue.get "idle_hot_load_seconds"
  staging : m.parts.queueStagingMax = r₀.queue.get "staging_queue_depth"
  acceptance : m.parts.queueAcceptanceMax = r₀.queue.get "acceptance_buffer_max"
  consecutive : m.parts.queueMaxConsecutiveSameModel = r₀.queue.get "max_consecutive_same_model"
  wait : m.parts.queueMaxOtherModelWaitS = r₀.queue.get "max_other_model_wait_s"

theorem inv_new {r : Runtime} (hv : ValidRuntime P r) : (Manager.new r).Inv P r :=
  ⟨hv, rfl, rfl, rfl, rfl, rfl, rfl, rfl⟩

/-- The invariant and the configuration determine the state. -/
theorem Manager.Inv.ext {r₀ : Runtime} {m m' : Manager} (h : m.Inv P r₀) (h' : m'.Inv P r₀)
    (hr : m.runtime = m'.runtime) : m = m' := by
  obtain ⟨r, ⟨⟩⟩ := m
  obtain ⟨r', ⟨⟩⟩ := m'
  obtain ⟨-, h1, h2, h3, h4, h5, h6, h7⟩ := h
  obtain ⟨-, h1', h2', h3', h4', h5', h6', h7'⟩ := h'
  cases hr
  simp_all

theorem inv_put {r₀ : Runtime} {m : Manager} {payload : Dict} (h : m.Inv P r₀)
    (ha : Accepts P payload) : (m.put P payload).Inv P r₀ := by
  have hv : ValidRuntime P (m.runtime.patch P payload) :=
    ⟨valid_patchedSection table_queue h.valid.queue ha.queue,
      valid_patchedSection table_pull h.valid.pull ha.pull,
      valid_patchedSection table_monitor h.valid.monitor patches_nil⟩
  simp only [Manager.put]
  cases hq : payload.has "queue" with
  | true => exact ⟨hv, rfl, rfl, rfl, h.staging, h.acceptance, h.consecutive, h.wait⟩
  | false =>
    -- the section is absent, so the values of the timers stay
    have hn : patchOf payload "queue" = [] := by
      simp [patchOf, Dict.get_of_not_has hq]
    have hsame : ∀ f ∈ queueFields,
        (m.runtime.patch P payload).queue.get f.name = m.runtime.queue.get f.name := by
      intro f hf
      rw [Runtime.patch, hn]
      exact patchedSection_nil table_queue _ hf
    have hg := hsame (.int "grace_seconds" 30 0 (some 3600)) (by simp [queueFields])
    have he := hsame (.int "max_grace_extensions" 5 0 (some 1000)) (by simp [queueFields])
    have hi := hsame (.int "idle_hot_load_seconds" 600 0 (some 86400)) (by simp [queueFields])
    exact ⟨hv, h.grace.trans hg.symm, h.extensions.trans he.symm, h.idle.trans hi.symm, h.staging,
      h.acceptance, h.consecutive, h.wait⟩

/-- One request keeps the invariant, accepted or not. -/
theorem inv_putConfig {r₀ : Runtime} {m : Manager} (h : m.Inv P r₀) (payload : Dict) :
    (putConfig P m payload).2.Inv P r₀ := by
  by_cases ha : Accepts P payload
  · rw [putConfig_of_accepts h.valid ha]
    exact inv_put h ha
  · obtain ⟨e, he⟩ := putConfig_of_not_accepts h.valid ha
    rw [he]
    exact h

theorem inv_putAll {r₀ : Runtime} {m : Manager} (h : m.Inv P r₀) (payloads : List Dict) :
    (putAll P m payloads).Inv P r₀ := by
  induction payloads generalizing m with
  | nil => exact h
  | cons p ps ih => exact ih (inv_putConfig h p)

/-- The queue and the timers have the values of the configuration. -/
def InEffect (m : Manager) : Prop := m.parts = m.runtime.parts

theorem inEffect_iff {r₀ : Runtime} {m : Manager} (h : m.Inv P r₀) :
    InEffect m ↔ ∀ name ∈ copiedOnce, m.runtime.queue.get name = r₀.queue.get name := by
  simp only [copiedOnce, List.forall_mem_cons, List.not_mem_nil, false_imp_iff, implies_true,
    and_true]
  constructor
  · intro he
    rw [← h.staging, ← h.acceptance, ← h.consecutive, ← h.wait, he]
    exact ⟨rfl, rfl, rfl, rfl⟩
  · rintro ⟨h1, h2, h3, h4⟩
    obtain ⟨r, ⟨⟩⟩ := m
    obtain ⟨-, g1, g2, g3, g4, g5, g6, g7⟩ := h
    simp_all [InEffect, Runtime.parts]

/-- Two payloads that give no field both. -/
def DisjointFields (p q : Dict) : Prop :=
  ∀ s ∈ ["queue", "pull"], ∀ k, (patchOf p s).has k = true → (patchOf q s).has k = true → False

/-- Requests on disjoint fields commute. -/
theorem patch_comm (r : Runtime) {p q : Dict} (hd : DisjointFields p q) :
    (r.patch P p).patch P q = (r.patch P q).patch P p := by
  have hq : patchedSection P queueFields (patchedSection P queueFields r.queue (patchOf p "queue"))
      (patchOf q "queue") = patchedSection P queueFields
        (patchedSection P queueFields r.queue (patchOf q "queue")) (patchOf p "queue") :=
    patchedSection_comm table_queue fun f _ => hd "queue" (by simp) f.name
  have hp : patchedSection P pullFields (patchedSection P pullFields r.pull (patchOf p "pull"))
      (patchOf q "pull") = patchedSection P pullFields
        (patchedSection P pullFields r.pull (patchOf q "pull")) (patchOf p "pull") :=
    patchedSection_comm table_pull fun f _ => hd "pull" (by simp) f.name
  simp only [Runtime.patch, hq, hp]

/-- What accepted requests promise over a run: after every prefix the queue and
the timers have the values of the configuration; a rejected request changes
nothing; and two requests on disjoint fields, accepted one after the other, are
accepted the other way round, with the same state. -/
structure TakesEffect (P : Pydantic) (r₀ : Runtime) (payloads : List Dict) : Prop where
  effect : ∀ pre, pre <+: payloads → InEffect (putAll P (.new r₀) pre)
  rejected : ∀ pre, pre <+: payloads → ∀ p e,
    (putConfig P (putAll P (.new r₀) pre) p).1 = .error e →
    (putConfig P (putAll P (.new r₀) pre) p).2 = putAll P (.new r₀) pre
  commute : ∀ pre, pre <+: payloads → ∀ p q, DisjointFields p q →
    (putConfig P (putAll P (.new r₀) pre) p).1.isOk →
    (putConfig P (putAll P (.new r₀) (pre ++ [p])) q).1.isOk →
    (putConfig P (putAll P (.new r₀) pre) q).1.isOk ∧
    (putConfig P (putAll P (.new r₀) (pre ++ [q])) p).1.isOk ∧
    putAll P (.new r₀) (pre ++ [p, q]) = putAll P (.new r₀) (pre ++ [q, p])

/-- No accepted payload of the run gives a field that the queue copied another
value than it was built with. -/
def KeepsCopied (P : Pydantic) (r₀ : Runtime) (payloads : List Dict) : Prop :=
  ∀ p ∈ payloads, Accepts P p → ∀ f ∈ queueFields, f.name ∈ copiedOnce →
    (patchOf p "queue").has f.name = true →
    P.validate f.kind ((patchOf p "queue").get f.name) = some (r₀.queue.get f.name)

theorem isOk_putConfig {m : Manager} {p : Dict} (hv : ValidRuntime P m.runtime) :
    (putConfig P m p).1.isOk = true ↔ Accepts P p := by
  by_cases ha : Accepts P p
  · simp [putConfig_of_accepts hv ha, ha, Except.isOk, Except.toBool]
  · obtain ⟨e, he⟩ := putConfig_of_not_accepts hv ha
    simp [he, ha, Except.isOk, Except.toBool]

theorem putAll_append (m : Manager) (ps qs : List Dict) :
    putAll P m (ps ++ qs) = putAll P (putAll P m ps) qs :=
  List.foldl_append

/-- What an accepted request does to a field of the queue. -/
theorem get_queue_put {m : Manager} {p : Dict} {f : Field} (hf : f ∈ queueFields) :
    (m.put P p).runtime.queue.get f.name = patched P m.runtime.queue (patchOf p "queue") f :=
  get_patchedSection table_queue _ _ hf

/-- The names of the copied fields are names of fields. -/
theorem exists_field_of_copied {name : String} (h : name ∈ copiedOnce) :
    ∃ f ∈ queueFields, f.name = name := by
  simp only [copiedOnce, List.mem_cons, List.not_mem_nil, or_false] at h
  rcases h with rfl | rfl | rfl | rfl
  · exact ⟨.int "staging_queue_depth" 100 1 (some 10000), by simp [queueFields], rfl⟩
  · exact ⟨.int "acceptance_buffer_max" 10000 1, by simp [queueFields], rfl⟩
  · exact ⟨.int "max_consecutive_same_model" 3 1 (some 1000), by simp [queueFields], rfl⟩
  · exact ⟨.float "max_other_model_wait_s" 20 0 (some 3600), by simp [queueFields], rfl⟩

/-- A run that keeps the copied fields leaves them as they were. -/
theorem copied_putAll {r₀ : Runtime} {m : Manager} {payloads : List Dict} (h : m.Inv P r₀)
    (hm : ∀ name ∈ copiedOnce, m.runtime.queue.get name = r₀.queue.get name)
    (hk : KeepsCopied P r₀ payloads) :
    ∀ name ∈ copiedOnce, (putAll P m payloads).runtime.queue.get name = r₀.queue.get name := by
  induction payloads generalizing m with
  | nil => exact hm
  | cons p ps ih =>
    refine ih (inv_putConfig h p) (fun name hname => ?_)
      fun q hq => hk q (List.mem_cons_of_mem _ hq)
    show (putConfig P m p).2.runtime.queue.get name = r₀.queue.get name
    by_cases ha : Accepts P p
    · obtain ⟨f, hf, rfl⟩ := exists_field_of_copied hname
      rw [putConfig_of_accepts h.valid ha, get_queue_put hf, patched]
      split
      · rename_i hh
        rw [hk p List.mem_cons_self ha f hf hname hh, Option.getD_some]
      · exact hm _ hname
    · obtain ⟨e, he⟩ := putConfig_of_not_accepts h.valid ha
      rw [he]
      exact hm name hname

/-- A configuration as it is loaded: what it was validated from, and the result. -/
structure Pydantic.Loaded (P : Pydantic) where
  queue : Dict
  pull : Dict
  monitor : Dict
  runtime : Runtime
  loaded : P.validateRuntime queue pull monitor = some runtime

/-- Accepted requests take effect over a run exactly if none of them gives a
copied field another value than the queue was built with. -/
theorem takesEffect_iff (P : Pydantic) (c : P.Loaded) (payloads : List Dict) :
    TakesEffect P c.runtime payloads ↔ KeepsCopied P c.runtime payloads := by
  have hnew := inv_new (validRuntime_of_validateRuntime c.loaded)
  constructor
  · intro h p hp ha f hf hname hh
    obtain ⟨pre, post, rfl⟩ := List.append_of_mem hp
    have hinv := inv_putAll hnew pre
    have he := h.effect (pre ++ [p]) ⟨post, by simp⟩
    rw [inEffect_iff (inv_putAll hnew _)] at he
    have hv := he f.name hname
    rw [putAll_append] at hv
    change (putConfig P _ p).2.runtime.queue.get f.name = _ at hv
    rw [putConfig_of_accepts hinv.valid ha, get_queue_put hf, patched, if_pos hh] at hv
    obtain ⟨v, hval⟩ := Option.isSome_iff_exists.mp (ha.queue.value f hf hh)
    rw [hval, Option.getD_some] at hv
    rw [hval, hv]
  · intro hk
    refine ⟨fun pre hpre => ?_, fun pre _ p e he => ?_, fun pre _ p q hd hp hq => ?_⟩
    · rw [inEffect_iff (inv_putAll hnew pre)]
      exact copied_putAll hnew (fun _ _ => rfl) fun p hp => hk p (hpre.subset hp)
    · have hinv := inv_putAll hnew pre
      by_cases ha : Accepts P p
      · rw [putConfig_of_accepts hinv.valid ha] at he
        cases he
      · obtain ⟨e', he'⟩ := putConfig_of_not_accepts hinv.valid ha
        rw [he']
    · have hinv := inv_putAll hnew pre
      rw [isOk_putConfig hinv.valid] at hp
      rw [isOk_putConfig (inv_putAll hnew _).valid] at hq
      refine ⟨(isOk_putConfig hinv.valid).mpr hq,
        (isOk_putConfig (inv_putAll hnew _).valid).mpr hp, ?_⟩
      refine Manager.Inv.ext (inv_putAll hnew _) (inv_putAll hnew _) ?_
      rw [putAll_append, putAll_append]
      change (putConfig P (putConfig P _ p).2 q).2.runtime =
        (putConfig P (putConfig P _ q).2 p).2.runtime
      rw [putConfig_of_accepts hinv.valid hp, putConfig_of_accepts hinv.valid hq,
        putConfig_of_accepts (inv_put hinv hp).valid hq,
        putConfig_of_accepts (inv_put hinv hq).valid hp]
      exact patch_comm _ hd

/-- A pydantic that coerces nothing. -/
def strict : Pydantic where
  coerce k v := if k.typed v then some v else none
  coerce_typed k v h := by simp [h]
  typed_coerce k j v h := by
    split at h
    · cases h
      assumption
    · cases h
  nanWithin := false
  errorText _ := ""

/-- The defaults. -/
def defaults : strict.Loaded where
  queue := []
  pull := []
  monitor := []
  runtime :=
    ⟨queueFields.map fun f => (f.name, f.default), pullFields.map fun f => (f.name, f.default),
      monitorFields.map fun f => (f.name, f.default)⟩
  loaded := rfl

/-- A configuration request that raises the staging depth. -/
def deeperStaging : Dict := [("queue", .obj [("staging_queue_depth", .int 150)])]

/-- A new staging depth is accepted, and the queue goes on with the old one. -/
theorem staging_depth_not_in_effect : ¬ TakesEffect strict defaults.runtime [deeperStaging] := by
  intro h
  have he := congrArg (·.queueStagingMax.int?) (h.effect _ (List.prefix_refl _))
  have hparts : (putAll strict (.new defaults.runtime) [deeperStaging]).parts.queueStagingMax.int? =
      some 100 := by decide +kernel
  have hruntime : (putAll strict (.new defaults.runtime)
      [deeperStaging]).runtime.parts.queueStagingMax.int? = some 150 := by decide +kernel
  exact absurd (hparts.symm.trans (he.trans hruntime)) (by decide)

end Turbohaul.Config
