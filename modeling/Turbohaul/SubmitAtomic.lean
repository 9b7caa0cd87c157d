/-
# `SubmitAtomic` — a `submit` that raises

`submit` queues its slot first and writes it down afterwards.

    turned away       the manager is stopping, or the queue refuses: nothing was done
    raised later      the write of the row, the audit write, or a cancellation at its
                      await: the slot is queued, and whoever pops it will serve it

So an exception of `submit` says that nothing has happened exactly when it is one of
the first kind.
-/
import Turbohaul.AbsentRuns
import Turbohaul.Parking
import Turbohaul.QueueCalls
import Turbohaul.Walk

namespace Turbohaul

open Coop

/-- The thread a request is filed under. -/
def Request.thread (C : Config) (q : Request) : String :=
  if q.threadId = "" then C.deriveThreadId q.prompt q.modelTag else q.threadId

/-- Neither tier has room for another slot. -/
def World.crowded (C : Config) (w : World) : Prop :=
  C.stagingQueueDepth ≤ w.queue.staging.length ∧ C.acceptanceBufferMax ≤ w.queue.acceptBuf.length

/-- The queue refuses a new slot, which is a follow-up inside the grace window or
not. -/
def World.refuses (C : Config) (followUp : Bool) (w : World) : Prop :=
  w.queue.closed = true ∨ followUp = false ∧ w.crowded C

/-- The request is turned away, the clock reading `now` when `submit` looks at the
grace window. -/
def World.turnsAway (C : Config) (q : Request) (now : Nat) (w : World) : Prop :=
  w.stopEvent = true ∨
    w.refuses C (w.hold.grace.isMatch C now (q.thread C) q.modelTag)

/-- The second reading of the clock. -/
def graceReading : List (Op × Reply) → Nat
  | _ :: (_, .time now) :: _ => now
  | _ => 0

/-- The queue and the grace timer are as they were. -/
structure AsBefore (w w' : World) : Prop where
  queue : w'.queue = w.queue
  grace : w'.hold.grace = w.hold.grace

theorem AsBefore.refl (w : World) : AsBefore w w := ⟨rfl, rfl⟩

variable {C : Config} {t : Nat}

/-! ## Filing a slot -/

theorem run_enqueueFresh_refused {w : World} {s : Nat} {followUp : Bool}
    (h : w.refuses C followUp) :
    ∃ e, (enqueueFresh C s followUp).run w = .done (.error e) w := by
  rcases h with hc | ⟨rfl, hs, hb⟩
  · cases followUp <;>
      simp [enqueueFresh, enqueueHead, enqueue, Bind.bind, Co.run, Co.gets, Co.raise, hc]
  · by_cases hc : w.queue.closed = true
    · simp [enqueueFresh, enqueue, Bind.bind, Co.run, Co.gets, Co.raise, hc]
    · simp [enqueueFresh, enqueue, Bind.bind, Co.run, Co.gets, Co.raise, hc, hb, Nat.not_lt.mpr hs]

/-- One of the tiers has got the slot. -/
structure Lodged (s : Nat) (w w' : World) : Prop where
  slot : s ∈ w'.queue.staging ∨ s ∈ w'.queue.acceptBuf
  size : w'.queue.staging.length + w'.queue.acceptBuf.length =
    w.queue.staging.length + w.queue.acceptBuf.length + 1

theorem total_fileLast {w : World} {s : Nat} (hs : (w.slot s).state = .received)
    (h : ¬ w.refuses C false) :
    Total (system C) t (enqueue C s) (Gives fun _ w' => Lodged s w w') w := by
  refine total_gets_bind ?_
  split
  · next hc => exact absurd (.inl hc) h
  · split
    · refine total_transition (by simp [hs, legalTransitions]) (total_modify ⟨?_, ?_⟩)
      · exact .inl (List.mem_append_right _ (List.mem_singleton.mpr rfl))
      · simp only [World.setQueue, World.setSlot, List.length_append, List.length_singleton]
        omega
    · next hroom =>
      split
      · next hbuf => exact absurd (.inr ⟨rfl, Nat.not_lt.mp hroom, hbuf⟩) h
      · refine total_transition (by simp [hs, legalTransitions]) (total_modify ⟨?_, ?_⟩)
        · exact .inr (List.mem_append_right _ (List.mem_singleton.mpr rfl))
        · simp only [World.setQueue, World.setSlot, List.length_append, List.length_singleton]
          omega

/-- The insertion at the head, and the restart of the grace timer after it. -/
theorem total_fileFirst {w : World} {s : Nat} (hs : (w.slot s).state = .received)
    (h : ¬ w.refuses C true) :
    Total (system C) t (do
      enqueueHead s
      let _ ← restartForFollowup C
      pure ()) (Gives fun _ w' => Lodged s w w') w := by
  have restart {w' : World} (hl : Lodged s w w') : Total (system C) t (do
      let _ ← restartForFollowup C
      pure ()) (Gives fun _ w' => Lodged s w w') w' := by
    refine total_seq (total_gets_bind ?_)
    split
    · exact total_pure (total_pure hl)
    · exact total_monotonic fun now _ =>
        total_modify_bind (total_pure (total_pure ⟨hl.slot, hl.size⟩))
  refine total_seq (total_gets_bind ?_)
  split
  · next hc => exact absurd (.inl hc) h
  · refine total_gets_bind ?_
    simp only [hs, ne_eq, reduceCtorEq, not_false_eq_true, decide_true]
    refine total_transition (by simp [hs, legalTransitions]) (total_mark (total_modify
      (restart ⟨.inl List.mem_cons_self, ?_⟩)))
    simp only [World.setQueue, World.setSlot, World.record, List.length_cons]
    omega

theorem total_enqueueFresh {w : World} {s : Nat} (hs : (w.slot s).state = .received)
    {followUp : Bool} (h : ¬ w.refuses C followUp) :
    Total (system C) t (enqueueFresh C s followUp) (Gives fun _ w' => Lodged s w w') w := by
  cases followUp with
  | true => exact total_fileFirst hs h
  | false => exact total_fileLast hs h

/-! ## One call -/

section

variable {E : World → World → Prop} {w w' : World} {os : List (Op × Reply)}

theorem episode_monotonic_bind {α : Type} {k : Nat → Prog α} {r : Res sig α}
    (h : Episode (system C) E t (monotonic >>= k) w os r w') : ∃ now os',
      os = (.monotonic, .time now) :: os' ∧
        Episode (system C) E t (k now) { w with clock := now } os' r w' := by
  have read {os : List (Op × Reply)} {r : Res sig Nat} {w' : World}
      (h : Episode (system C) E t monotonic w os r w') : ∃ now,
        os = [(.monotonic, .time now)] ∧ r = .ok now ∧ w' = { w with clock := now } := by
    rw [monotonic, episode_bind] at h
    rcases h with ⟨os₁, os₂, x, w₁, rfl, h₁, h₂⟩ | ⟨e, -, h₁⟩
    · obtain ⟨y, hy, rfl, hr, rfl⟩ := episode_ask.mp h₁
      obtain rfl := Except.ok.inj hr
      cases x with
      | time now =>
        obtain ⟨rfl, rfl, rfl⟩ := episode_pure.mp h₂
        exact ⟨now, rfl, rfl, rfl⟩
      | _ => cases hy
    · obtain ⟨_, _, _, hr, _⟩ := episode_ask.mp h₁
      cases hr
  rcases episode_bind.mp h with ⟨os₁, os₂, a, w₁, rfl, h₁, h₂⟩ | ⟨e, rfl, h₁⟩
  · obtain ⟨now, rfl, ha, rfl⟩ := read h₁
    obtain rfl := Except.ok.inj ha
    exact ⟨a, os₂, rfl, h₂⟩
  · obtain ⟨_, _, hr, _⟩ := read h₁
    cases hr

/-- The part of `submit` that comes after the allocation of the slot. -/
def fileAndRecord (C : Config) (s : Nat) (followUp : Bool) : Prog Nat := do
  enqueueFresh C s followUp
  run (.upsertSlot s)
  auditEventOnlyAsync (some s) "submit"
  pure s

/-- A call of `submit`: the manager is stopping, or the slot is allocated and then
filed. -/
theorem episode_submit {q : Request} {wait : Bool} {r : Res sig Nat}
    (h : Episode (system C) E t (submit C t q wait) w os r w') :
    (w.stopEvent = true ∧ os = [] ∧ w' = w) ∨
    w.stopEvent = false ∧ ∃ created now os' w₁,
      os = (.monotonic, .time created) :: (.monotonic, .time now) :: os' ∧
        AsBefore w w₁ ∧ (w₁.slot w.slotCount).state = .received ∧
        Episode (system C) E t (fileAndRecord C w.slotCount
          (w.hold.grace.isMatch C now (q.thread C) q.modelTag)) w₁ os' r w' := by
  replace h := episode_gets_bind.mp h
  split at h
  · next hs =>
    obtain ⟨rfl, rfl, rfl⟩ := episode_throw.mp h
    exact .inl ⟨hs, rfl, rfl⟩
  · next hs =>
    obtain ⟨created, os₁, rfl, h₁⟩ := episode_monotonic_bind h
    rcases episode_bind.mp h₁ with ⟨os₂, os₃, s, w₁, rfl, ha, h₂⟩ | ⟨e, rfl, ha⟩
    · obtain ⟨rfl, hr, rfl⟩ := episode_act.mp ha
      obtain rfl := Except.ok.inj hr
      obtain ⟨now, os₄, rfl, h₃⟩ := episode_monotonic_bind h₂
      replace h₃ := episode_gets_bind.mp h₃
      refine .inr ⟨Bool.eq_false_iff.mpr hs, created, now, os₄, _, rfl, ?_, ?_, h₃⟩
      · exact ⟨rfl, rfl⟩
      · simp [World.alloc, World.setTask, newSlot]
    · cases (episode_act.mp ha).2.1

theorem episode_file_refused {s : Nat} {followUp : Bool} {r : Res sig Nat}
    (hr : w.refuses C followUp)
    (h : Episode (system C) E t (fileAndRecord C s followUp) w os r w') :
    os = [] ∧ (∃ e, r = .error e) ∧ w' = w := by
  obtain ⟨e, he⟩ := run_enqueueFresh_refused (s := s) hr
  have hrun : (fileAndRecord C s followUp).run w = .done (.error e) w := by
    show (Co.bind (enqueueFresh C s followUp) _).run w = _
    rw [Co.run, he]
  obtain ⟨rfl, rfl, rfl⟩ := (episode_of_done hrun).mp h
  exact ⟨rfl, ⟨e, rfl⟩, rfl⟩

theorem queue_delivered (o : Op) (w : World) : (w.delivered t o).queue = w.queue := by
  unfold World.delivered
  split
  · rfl
  · split <;> rfl

/-- What is written down after the slot was filed leaves the queue alone. -/
theorem episode_record {s : Nat} {r : Res sig Nat} (hE : ∀ a b, E a b → b.queue = a.queue)
    (h : Episode (system C) E t (do
      run (.upsertSlot s)
      auditEventOnlyAsync (some s) "submit"
      pure s) w os r w') : (∃ x, (.upsertSlot s, x) ∈ os) ∧ w'.queue = w.queue := by
  have upsert (x : Reply) (w : World) : (answer t (.upsertSlot s) x w).queue = w.queue := by
    rw [answer, queue_delivered]
    cases x <;> rfl
  have audit (x : Reply) (w : World) :
      (answer t (.auditEventOnly (some s) "submit") x w).queue = w.queue := by
    rw [answer, queue_delivered]
    cases x <;> rfl
  rcases episode_bind.mp h with ⟨os₁, os₂, _, w₁, rfl, h₁, h₂⟩ | ⟨e, rfl, h₁⟩
  · obtain ⟨x, -, rfl, rfl, -⟩ := episode_run h₁
    refine ⟨⟨x, List.mem_append_left _ (List.mem_singleton.mpr rfl)⟩, ?_⟩
    rcases episode_bind.mp h₂ with ⟨os₃, os₄, _, w₂, rfl, h₃, h₄⟩ | ⟨e, rfl, h₃⟩
    · obtain ⟨-, -, rfl⟩ := episode_pure.mp h₄
      obtain ⟨y, w₃, he, -, rfl⟩ := episode_sync h₃
      exact (audit y w₃).trans ((hE _ _ he).trans (upsert x w))
    · obtain ⟨y, w₃, he, -, rfl⟩ := episode_sync h₃
      exact (audit y w₃).trans ((hE _ _ he).trans (upsert x w))
  · obtain ⟨x, -, rfl, rfl, -⟩ := episode_run h₁
    exact ⟨⟨x, List.mem_singleton.mpr rfl⟩, upsert x w⟩

theorem episode_file_lodged {s : Nat} {followUp : Bool} {r : Res sig Nat}
    (hE : ∀ a b, E a b → b.queue = a.queue) (hs : (w.slot s).state = .received)
    (hr : ¬ w.refuses C followUp)
    (h : Episode (system C) E t (fileAndRecord C s followUp) w os r w') :
    (∃ x, (.upsertSlot s, x) ∈ os) ∧ Lodged s w w' := by
  rcases episode_bind.mp h with ⟨os₁, os₂, _, w₁, rfl, h₁, h₂⟩ | ⟨e, rfl, h₁⟩
  · have hl : Lodged s w w₁ := (total_enqueueFresh hs hr).episode h₁
    obtain ⟨⟨x, hx⟩, hq⟩ := episode_record hE h₂
    exact ⟨⟨x, List.mem_append_right _ hx⟩, by rw [hq]; exact hl.slot, by rw [hq]; exact hl.size⟩
  · exact ((total_enqueueFresh hs hr).episode h₁).elim

/-! ### Turned away or not -/

theorem AsBefore.refuses {w₁ : World} (h : AsBefore w w₁) {followUp : Bool} :
    w₁.refuses C followUp ↔ w.refuses C followUp := by
  unfold World.refuses World.crowded
  rw [h.queue]

/-- A request that is turned away leaves no trace, and its caller gets an
exception. -/
theorem episode_turnedAway {q : Request} {wait : Bool} {r : Res sig Nat}
    (h : Episode (system C) E t (submit C t q wait) w os r w')
    (ht : w.turnsAway C q (graceReading os)) :
    (∀ s x, (.upsertSlot s, x) ∉ os) ∧ AsBefore w w' := by
  rcases episode_submit h with ⟨-, rfl, rfl⟩ | ⟨hs, created, now, os', w₁, rfl, hb, -, h⟩
  · exact ⟨fun _ _ => List.not_mem_nil, .refl _⟩
  · have hr : w₁.refuses C _ := hb.refuses.mpr (ht.resolve_left (by rw [hs]; rintro ⟨⟩))
    obtain ⟨rfl, -, rfl⟩ := episode_file_refused hr h
    exact ⟨fun s x hx => by simp at hx, hb⟩

/-- Any other request has its slot in the queue at the end. -/
theorem episode_lodged {q : Request} {wait : Bool} {r : Res sig Nat}
    (hE : ∀ a b, E a b → b.queue = a.queue)
    (h : Episode (system C) E t (submit C t q wait) w os r w')
    (ht : ¬ w.turnsAway C q (graceReading os)) :
    (∃ x, (.upsertSlot w.slotCount, x) ∈ os) ∧ Lodged w.slotCount w w' := by
  rcases episode_submit h with ⟨hs, -, -⟩ | ⟨hs, created, now, os', w₁, rfl, hb, hslot, h⟩
  · exact absurd (.inl hs) ht
  · obtain ⟨⟨x, hx⟩, hl⟩ :=
      episode_file_lodged hE hslot (fun hr => ht (.inr (hb.refuses.mp hr))) h
    refine ⟨⟨x, List.mem_cons_of_mem _ (List.mem_cons_of_mem _ hx)⟩, hl.slot, ?_⟩
    rw [hl.size, hb.queue]

end

/-! ## Runs -/

section

variable {b : Nat}

/-- If the program raises, the slot is absent. -/
def Recoils (C : Config) (b t : Nat) {α : Type} (m : Prog α) : Prop :=
  ∀ s w, Absent b w → wp (absence C b) t m (fun r _ w => ∀ e, r = .error e → Absent b w) s w

theorem Avoids.recoils {α : Type} {m : Prog α} (h : Avoids C b t m) : Recoils C b t m :=
  fun s w ha => wp_mono (fun _ _ _ hr _ _ => hr.1) (h s w ha)

theorem Recoils.bind {α β : Type} {m : Prog α} {k : α → Prog β} (hm : Avoids C b t m)
    (hk : ∀ a, Recoils C b t (k a)) : Recoils C b t (m >>= k) :=
  fun s w ha => wp_seq (hm s w ha) (fun a s w h => hk a s w h.1) fun _ _ _ h _ _ => h.1

theorem Recoils.ite {α : Type} {c : Prop} [Decidable c] {m n : Prog α} (hm : Recoils C b t m)
    (hn : Recoils C b t n) : Recoils C b t (if c then m else n) := by
  split
  · exact hm
  · exact hn

/-- An assignment does not raise. -/
theorem recoils_modify (f : World → World) : Recoils C b t (Co.modify f) :=
  fun _ _ _ => (by rintro _ ⟨⟩)

/-- The slot is in the queue when nothing can raise any more. -/
theorem recoils_enqueue : Recoils C b t (enqueue C b) := by
  have put (target : SlotState) (f : Queue → Queue) : Recoils C b t (do
      transition b target
      Co.modify (World.setQueue f)) :=
    .bind (Avoids.idle (idle_transition b _)) fun _ => recoils_modify _
  have refuse (e : Err) : Recoils C b t (Co.raise e : Prog Unit) := Avoids.recoils (.throw _)
  exact .bind (Avoids.idle (idle_gets _)) fun _ => .ite (refuse _)
    (.ite (put _ _) (.ite (refuse _) (put _ _)))

theorem recoils_enqueueHead : Recoils C b t (enqueueHead b) :=
  .bind (Avoids.idle (idle_gets _)) fun _ => .ite (Avoids.recoils (.throw _))
    (.bind (Avoids.idle (idle_gets _)) fun _ =>
      .bind (Avoids.idle (only_when.mpr fun _ => idle_transition b _)) fun _ =>
      .bind (Avoids.mark (m := .headInsert b) (by rintro ⟨⟩)) fun _ => recoils_modify _)

/-- The restart of the timer does not raise either. -/
theorem recoils_enqueueFresh (followUp : Bool) : Recoils C b t (enqueueFresh C b followUp) := by
  have restart (s w : World) : wp (absence C b) t (do
      let _ ← restartForFollowup C
      pure ()) (fun r _ w => ∀ e, r = .error e → Absent b w) s w := by
    rw [wp_bind, restartForFollowup, wp_gets_bind]
    split
    · intro _ h
      cases h
    · rw [wp_bind]
      intro x hx _
      cases x with
      | time now => exact (by rintro _ ⟨⟩)
      | _ => cases hx
  refine .ite (fun s w ha => ?_) recoils_enqueue
  exact wp_seq (recoils_enqueueHead s w ha) (fun _ s w _ => restart s w) fun e _ _ h _ _ => h e rfl

/-- Where nothing has raised, `submit` comes to the write of the row, which is not
answered. -/
theorem avoids_fileAndRecord (s : Nat) (followUp : Bool) :
    Avoids C b t (fileAndRecord C s followUp) := by
  have upsert : Idle (run (.upsertSlot s)) := only_run.mpr trivial
  rcases eq_or_ne s b with rfl | hs
  · intro _ w ha
    refine wp_seq (recoils_enqueueFresh followUp _ w ha) (fun _ s w _ => ?_) fun e s w h =>
      ⟨h e rfl, (by rintro _ ⟨⟩)⟩
    intro x _ hx
    exact absurd rfl (of_decide_eq_true hx)
  · have fresh : Avoids C b t (enqueueFresh C s followUp) :=
      .ite (fun _ => (avoids_enqueueHead hs).bind fun _ =>
        (Avoids.idle (idle_restartForFollowup C)).bind fun _ => .pure trivial)
        fun _ => avoids_enqueue hs
    exact fresh.bind fun _ => (Avoids.idle upsert).bind fun _ =>
      (Avoids.idle (only_auditEventOnlyAsync.mpr trivial)).bind fun _ => .pure trivial

theorem avoids_submit (q : Request) (wait : Bool) : Avoids C b t (submit C t q wait) := by
  have alloc (x : Slot) : Idle (allocSlot t x) := fun w =>
    (shed_same rfl rfl rfl rfl rfl : Shed w { w with slot := _, slotCount := _ }).trans
      (shed_setTask _ t fun _ => rfl)
  refine (Avoids.idle (idle_gets _)).bind fun stop => .ite (fun _ => .throw _) fun _ =>
    (Avoids.idle (only_monotonic.mpr trivial)).bind fun created => (Avoids.idle (alloc _)).bind
    fun s => (Avoids.idle (only_monotonic.mpr trivial)).bind fun now =>
    (Avoids.idle (idle_gets _)).bind fun g => avoids_fileAndRecord s _

theorem avoids_submitAndWait (q : Request) : Avoids C b t (submitAndWait C t q) := by
  refine (avoids_submit q true).bind fun s => Avoids.idle ⟨only_sync.mpr trivial, fun _ =>
    ⟨Shed.refl, fun x => ?_⟩⟩
  dsimp only
  split <;> trivial

theorem avoids_submitForStreaming (q : Request) : Avoids C b t (submitForStreaming C t q) :=
  (avoids_submit q true).bind fun s => (Avoids.idle (idle_onSlot s _)).bind fun _ => .pure trivial

theorem avoids_streamRoute (q : Request) : Avoids C b t (streamRoute C t q) :=
  (avoids_submitForStreaming q).bind fun s => Avoids.idle <| only_tryFinally.mpr
    ⟨⟨idle_awaitReady s, fun _ => only_when.mpr fun _ => idle_routeUpstream s⟩, idle_onSlot s _⟩

theorem avoids_embeddingsRoute (q : Request) : Avoids C b t (embeddingsRoute C t q) :=
  (avoids_submitForStreaming q).bind fun s => Avoids.idle <| only_tryFinally.mpr
    ⟨⟨only_sync.mpr trivial, fun _ => idle_routeUpstream s⟩, idle_onSlot s _⟩

/-- A task that does not carry the slot does not get it. -/
theorem avoids_program {k : Kind} (hk : ¬ k.carries b) : Avoids C b t (program C t k) := by
  cases k with
  | worker => exact avoids_workerLoop
  | shutdown => exact avoids_shutdown
  | submitAndWait q => exact avoids_submitAndWait q
  | streamRoute q => exact avoids_streamRoute q
  | embeddingsRoute q => exact avoids_embeddingsRoute q
  | idleTeardown => exact Avoids.idle (idle_teardownIdleHolder C)
  | shieldedSigterm pid => exact Avoids.idle (only_sigterm.mpr trivial)
  | completeFn s pid => exact avoids_completionTask hk pid
  | streamDoneWaiter s => exact Avoids.idle (idle_streamDoneWaiter s)
  | driver r => exact avoids_driveResident r
  | completeOne s pid => exact avoids_completeOneSlot hk pid
  | awaitStreamed s => exact Avoids.idle (idle_awaitStreamedSlot s)
  | auditEvicted s =>
    exact Avoids.idle (only_suppress.mpr (only_auditEventOnlyAsync.mpr trivial))
  | requeueAfterBackoff s => exact avoids_requeueAfterBackoff hk
  | requeueSlots ss => exact avoids_requeueSlotsOrFail hk
  | evictTeardown r => exact Avoids.idle (idle_evictTeardown r)
  | reapDead r => exact avoids_reapDeadResident r

theorem shed_finished (t : Nat) (r : Res sig Unit) (w : World) : Shed w (finished t r w) := by
  have h : Shed w (w.setTask t fun k => { k with outcome := some (outcomeOf r) }) :=
    shed_setTask w t fun _ => rfl
  unfold finished
  dsimp only
  split
  · exact h.trans (shed_fork _ fun _ => id)
  · exact h

theorem shed_envStep {e : Env} {w w' : World} (h : envStep e w = some w') : Shed w w' := by
  cases e with
  | request k =>
    simp only [envStep, Option.ite_none_right_eq_some, Option.some.injEq] at h
    obtain ⟨hk, rfl⟩ := h
    refine shed_fork w fun s => ?_
    cases k <;> first
      | exact id
      | cases hk
  | shutdown =>
    simp only [envStep, Option.ite_none_right_eq_some, Option.some.injEq] at h
    obtain ⟨-, rfl⟩ := h
    exact shed_fork w (k := .shutdown) fun _ => id
  | exit pid =>
    cases h
    exact shed_same rfl rfl rfl rfl rfl
  | disconnect s =>
    cases h
    unfold World.disconnect
    dsimp only
    split
    · exact (shed_setSlot w s _).trans (shed_record _ rfl)
    · exact shed_setSlot w s _
  | cancelRoute u =>
    simp only [envStep, Option.ite_none_right_eq_some, Option.some.injEq] at h
    obtain ⟨-, rfl⟩ := h
    exact shed_cancelTask w u
  | innerGet r =>
    simp only [envStep, World.innerGet] at h
    split at h
    · next i rest _ hi =>
      cases h
      refine shed_setResident w r ?_
      rintro s (h | h | h)
      · exact .inl (by rw [hi]; exact List.mem_cons_of_mem _ h)
      · cases h
        exact .inl (by rw [hi]; exact List.mem_cons_self)
      · exact .inr (.inr h)
    · cases h

theorem absent_initial : Absent b initial := by
  rintro (h | h | h | ⟨r, h | h | h | h⟩ | ⟨u, h⟩ | ⟨e, h, -⟩)
  · cases h
  · cases h
  · cases h
  · cases h
  · cases h
  · cases h
  · cases h
  · simp only [initial, setAt] at h
    split at h <;> exact h
  · cases h

theorem absence_verified : (absence C b).Verified initial where
  init := absent_initial
  start := fun t w k r hg hf _ _ => by
    have hk : ¬ k.carries b := by
      rw [← fresh_kind hf]
      exact fun h => hg.1 (.inr (.inr (.inr (.inr (.inl ⟨t, h⟩)))))
    have ha : Absent b (answer t .entry r w) := fun h => (inHand_answer h).elim (by rintro ⟨⟩) hg.1
    have hbody : Avoids C b t (taskBody C t k r) :=
      .ite (fun _ => .throw _) fun _ => avoids_program hk
    exact wp_mono (fun x _ w h => ⟨(shed_finished t x w).absent h.1, trivial⟩) (hbody _ _ ha)
  env := fun e w w' hg _ h => ⟨(shed_envStep h).absent hg.1, trivial⟩

/-- A slot whose row `submit` does not come to write is never in the queue, and it is
never taken and never served. -/
theorem unwritten_absent {c : Loop sig} (h : Reachable C (unwritten C b) c)
    (hc : c.current = none) : Absent b c.world :=
  (absence C b).sound absence_verified (fun _ _ _ => trivial) h hc

end

/-! ## What a failed call leaves behind -/

/-- The queue and the grace timer are as before the call, and its slot is in neither
tier. -/
structure NothingDone (w w' : World) : Prop extends AsBefore w w' where
  staging : w.slotCount ∉ w'.queue.staging
  acceptBuf : w.slotCount ∉ w'.queue.acceptBuf

/-- A call of `submit` that raises has done nothing exactly when the request was turned
away, which is when the call does not come to the write of the slot's row.  And a slot
whose row no call comes to write is in no state of the run in one of the tiers, and is
never popped and never served. -/
theorem submit_atomic_iff (C : Config) :
    (∀ (t : Nat) (q : Request) (wait : Bool) (w : World) (os : List (Op × Reply)) (e : Exc Err)
      (w' : World), w.slotCount ∉ w.queue.staging → w.slotCount ∉ w.queue.acceptBuf →
      Episode (system C) AsBefore t (submit C t q wait) w os (.error e) w' →
        (NothingDone w w' ↔ w.turnsAway C q (graceReading os)) ∧
        (w.turnsAway C q (graceReading os) ↔ ∀ s x, (.upsertSlot s, x) ∉ os)) ∧
    ∀ (b : Nat) (c : Loop sig), Reachable C (unwritten C b) c → c.current = none →
      b ∉ c.world.queue.staging ∧ b ∉ c.world.queue.acceptBuf ∧
        ∀ e ∈ c.world.trace, e.takes ≠ some b := by
  refine ⟨fun t q wait w os e w' hs hb h => ?_, fun b c hr hc => ?_⟩
  · by_cases ht : w.turnsAway C q (graceReading os)
    · obtain ⟨hu, hw⟩ := episode_turnedAway h ht
      have hdone : NothingDone w w' := ⟨hw, by rwa [hw.queue], by rwa [hw.queue]⟩
      exact ⟨iff_of_true hdone ht, iff_of_true ht hu⟩
    · obtain ⟨⟨x, hx⟩, hl⟩ := episode_lodged (fun _ _ => AsBefore.queue) h ht
      refine ⟨iff_of_false (fun hd => ?_) ht, iff_of_false ht fun hu => hu _ x hx⟩
      exact hl.slot.elim hd.staging hd.acceptBuf
  · have ha : Absent b c.world := unwritten_absent hr hc
    exact ⟨fun h => ha (.inl h), fun h => ha (.inr (.inl h)), fun e he h =>
      ha (.inr (.inr (.inr (.inr (.inr ⟨e, he, h⟩)))))⟩

/-- A request of no particular kind. -/
def plainRequest : Request := { modelTag := "a", threadId := "t", watched := false }

/-- One slot to a tier. -/
def tightConfig : Config := { stagingQueueDepth := 1, acceptanceBufferMax := 1 }

/-- Both tiers are full. -/
def fullWorld : World :=
  { initial with slotCount := 2, queue := { acceptBuf := [1], staging := [0] } }

/-- A request that is let in. -/
def letIn : List (Move (system tightConfig)) :=
  [.env (.request (.submitAndWait plainRequest)), .start 1 .ok, .answer (.time 0),
    .answer (.time 0), .answer .ok, .resume 1 .ok]

/-- A full queue turns the request down and keeps its slots; and in a run with a request
the slot that comes after it is in no tier. -/
theorem submit_atomic_iff_full :
    (∃ os e w', Episode (system tightConfig) AsBefore 1
        (submit tightConfig 1 plainRequest true) fullWorld os (.error e) w' ∧
      (NothingDone fullWorld w' ↔ fullWorld.turnsAway tightConfig plainRequest (graceReading os)) ∧
      fullWorld.turnsAway tightConfig plainRequest (graceReading os)) ∧
    ∃ c : Loop sig, (0 ∈ c.world.queue.acceptBuf ∨ 0 ∈ c.world.queue.staging) ∧
      1 ∉ c.world.queue.staging ∧ 1 ∉ c.world.queue.acceptBuf := by
  have h := submit_atomic_iff tightConfig
  constructor
  · have hrun : Episode (system tightConfig) AsBefore 1 (submit tightConfig 1 plainRequest true)
        fullWorld [(.monotonic, .time 0), (.monotonic, .time 0)]
        (.error (.raised (.queueFull _))) _ :=
      .ask rfl rfl (.ask rfl rfl (.done rfl))
    refine ⟨_, _, _, hrun, (h.1 _ _ _ _ _ _ _ (by decide) (by decide) hrun).1, ?_⟩
    exact .inr (.inr ⟨by decide, Nat.le_refl 1, Nat.le_refl 1⟩)
  · have hcheck : (Loop.exec (unwritten tightConfig 1) letIn { world := initial }).any
        (fun c : Loop sig => decide (c.current.isNone = true ∧
          (0 ∈ c.world.queue.acceptBuf ∨ 0 ∈ c.world.queue.staging))) = true := by decide +kernel
    obtain ⟨c, hc, hp⟩ := Loop.reach_of_check hcheck
    obtain ⟨hidle, hin⟩ := of_decide_eq_true hp
    obtain ⟨hs, hb, -⟩ := h.2 1 c hc (Option.isNone_iff_eq_none.mp hidle)
    exact ⟨c, hin, hs, hb⟩

/-- The safety gates are off. -/
def ungatedConfig : Config := { safetyEnabled := false }

/-- The write of the row of the first request raises, and the worker completes the
request. -/
def servedAnyway : List (Move (system ungatedConfig)) :=
  [.env (.request (.submitAndWait plainRequest)), .start 1 .ok, .answer (.time 0),
    .answer (.time 0), .answer (.raised (.injected 0)), .start 0 .ok, .go, .answer .ok,
    .answer .ok, .answer (.manifest {}), .resume 0 .ok, .answer (.handle 0),
    .resume 0 (.healthy true), .resume 0 .ok, .resume 0 (.completion 7), .answer (.time 0)]

/-- The write of the row raises, and so does `submit`, with its slot in the queue.  In
a run the worker then serves it, and nobody gets the answer. -/
theorem failed_submit_served :
    (¬ ∀ (C : Config) (t : Nat) (q : Request) (wait : Bool) (w : World) (os : List (Op × Reply))
      (e : Exc Err) (w' : World), w.slotCount ∉ w.queue.staging →
      w.slotCount ∉ w.queue.acceptBuf →
      Episode (system C) AsBefore t (submit C t q wait) w os (.error e) w' → NothingDone w w') ∧
    ∃ c : Loop sig, Reachable ungatedConfig (Admit.any _) c ∧ c.current.isNone = true ∧
      (c.world.task 1).kind = .submitAndWait plainRequest ∧ (c.world.task 1).slot = some 0 ∧
      (c.world.task 1).outcome = some (.raised (.injected 0)) ∧
      .finished 0 0 true ∈ c.world.trace := by
  constructor
  · intro h
    have he := h {} 1 plainRequest true initial
      [(.monotonic, .time 0), (.monotonic, .time 0), (.upsertSlot 0, .raised (.injected 0))]
      (.raised (.injected 0)) _ (by rintro ⟨⟩) (by rintro ⟨⟩)
      (.ask rfl rfl (.ask rfl rfl (.ask rfl rfl (.done rfl))))
    exact he.staging (by decide)
  · have h : (Loop.exec (Admit.any _) servedAnyway { world := initial }).any (fun c : Loop sig =>
        decide (c.current.isNone = true ∧
          (c.world.task 1).kind = .submitAndWait plainRequest ∧ (c.world.task 1).slot = some 0 ∧
          (c.world.task 1).outcome = some (.raised (.injected 0)) ∧
          .finished 0 0 true ∈ c.world.trace)) = true := by decide +kernel
    obtain ⟨c, hc, hp⟩ := Loop.reach_of_check h
    exact ⟨c, hc, of_decide_eq_true hp⟩

end Turbohaul
