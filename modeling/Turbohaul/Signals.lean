/-
# `Signals` — waiting for a sidecar to load, and ending it

The three loops of `subprocess_mgr.py` and `singleton.py` that look at a process until a
deadline.  What they look at goes on by itself: each trace says what is so at each time,
and what a call finds is what is so then.

  `wait_until_healthy`  `waitUntilHealthy`
  `drained_sigterm`     `drainedSigterm`
  `reap_orphan`         `reapOrphan`

The child of a manager keeps its pid until it is waited for; the orphan of another does
not, and its pid may be taken between two looks (`Pid`).
-/
import Turbohaul.Orphans
import Turbohaul.Polling
import Turbohaul.Reasoning

namespace Turbohaul.Signals

open Polling ToolCalls

/-! ## Waiting for a sidecar to load -/

/-- What a request to `/health` gives. -/
inductive HealthReply
  | unreachable
  | status (code : ℕ)
  | notJson
  | json (x : Json)

/-- A pass of the loop: the answer, and what `is_alive` says after it, if it is given. -/
structure HealthLook where
  reply : HealthReply
  isAlive : Option Bool

/-- How the wait ends before its deadline. -/
inductive Health
  | healthy
  | exited
  | schemaMismatch (message : String)
  | raised

/-- `HEALTH_OK_STATUSES`. -/
def healthOkStatuses : List String := ["ok", "ready", "healthy", "loaded"]

/-- `health_check_once`; the error is a `SchemaMismatch`. -/
def healthCheckOnce : HealthReply → Except String (Option Dict)
  | .json (.obj data) =>
    if Dict.has data "status" then .ok (some data)
    else .error "health response missing fields: \x7b'status'\x7d"
  | .json x => .error ("health response not a dict: " ++ x.typeName)
  | _ => .ok none

/-- `c.lower()`, where that is a letter of ASCII. -/
def pyLower (c : Char) : Char := if c = '\u212a' then 'k' else c.toLower

/-- Is a status one of those?  None where it has no `lower`. -/
def statusOk (data : Dict) : Option Bool :=
  match orEmpty (data.get "status") with
  | .str s => some (healthOkStatuses.contains (String.ofList (s.toList.map pyLower)))
  | _ => none

/-- A pass of the loop. -/
def healthVerdict (l : HealthLook) : Option Health :=
  match healthCheckOnce l.reply with
  | .error message => some (.schemaMismatch message)
  | .ok data =>
    match (data.map statusOk).getD (some false) with
    | none => some .raised
    | some true => some .healthy
    | some false => if l.isAlive = some false then some .exited else none

/-- `wait_until_healthy`, called at `askedAt`. -/
def waitUntilHealthy (W : Watch HealthLook) (askedAt timeout : ℕ) : Ended Health :=
  W.poll (askedAt + timeout) healthVerdict

/-- The answer of a server that has loaded. -/
def HealthReply.Ready (reply : HealthReply) : Prop :=
  ∃ data, healthCheckOnce reply = .ok (some data) ∧ statusOk data = some true

/-- The answers of a sidecar that is loading. -/
def HealthReply.Loading (reply : HealthReply) : Prop :=
  healthCheckOnce reply = .ok none ∨
    ∃ data, healthCheckOnce reply = .ok (some data) ∧ statusOk data = some false

theorem healthVerdict_none {l : HealthLook} :
    healthVerdict l = none ↔ l.reply.Loading ∧ l.isAlive ≠ some false := by
  unfold healthVerdict HealthReply.Loading
  cases hcheck : healthCheckOnce l.reply with
  | error message =>
    constructor
    · intro h
      cases h
    · rintro ⟨(h | ⟨_, h, -⟩), -⟩
      all_goals cases h
  | ok data =>
    cases data with
    | none => simp
    | some data =>
      cases hok : statusOk data with
      | none => simp [hok]
      | some b =>
        cases b with
        | true => simp [hok]
        | false => simp [hok]

theorem healthVerdict_healthy {l : HealthLook} :
    healthVerdict l = some .healthy ↔ l.reply.Ready := by
  unfold healthVerdict HealthReply.Ready
  cases hcheck : healthCheckOnce l.reply with
  | error message => simp
  | ok data =>
    cases data with
    | none => simp
    | some data =>
      cases hok : statusOk data with
      | none => simp [hok]
      | some b =>
        cases b with
        | true => simp [hok]
        | false => simp [hok]

/-- A sidecar is taken for loaded exactly if its server says so before the deadline and
before anything else ends the wait; one that has exited ends the wait at once, and one that
goes on loading has all the time there is. -/
theorem wait_until_healthy_spec (W : Watch HealthLook) (askedAt timeout : ℕ) :
    (∀ n, waitUntilHealthy W askedAt timeout = .decided .healthy n ↔
      (∀ i < n, W.clock i < askedAt + timeout ∧ (W.look i).reply.Loading ∧
        (W.look i).isAlive ≠ some false) ∧
      W.clock n < askedAt + timeout ∧ (W.look n).reply.Ready) ∧
    (∀ k, (W.look k).isAlive = some false → (waitUntilHealthy W askedAt timeout).index ≤ k) ∧
    (∀ n, waitUntilHealthy W askedAt timeout = .expired n ↔
      (∀ i < n, W.clock i < askedAt + timeout ∧ (W.look i).reply.Loading ∧
        (W.look i).isAlive ≠ some false) ∧ askedAt + timeout ≤ W.clock n) := by
  have hpassed : ∀ n, Passed W (askedAt + timeout) healthVerdict n ↔
      ∀ i < n, W.clock i < askedAt + timeout ∧ (W.look i).reply.Loading ∧
        (W.look i).isAlive ≠ some false := by
    intro n
    refine forall₂_congr fun i _ => and_congr_right fun _ => healthVerdict_none
  refine ⟨fun n => ?_, fun k hk => ?_, fun n => ?_⟩
  · rw [waitUntilHealthy, Watch.poll_eq_iff, ← hpassed n, ← healthVerdict_healthy]
    constructor
    · intro h
      cases h with
      | decided h hlt hr => exact ⟨h, hlt, hr⟩
    · rintro ⟨h, hlt, hr⟩
      exact .decided h hlt hr
  · refine (W.poll_stops _ healthVerdict).index_le (.inr ?_)
    rw [Option.isSome_iff_ne_none]
    intro hnone
    exact (healthVerdict_none.mp hnone).2 hk
  · rw [waitUntilHealthy, Watch.poll_eq_iff, ← hpassed n]
    constructor
    · intro h
      cases h with
      | expired h hlate => exact ⟨h, hlate⟩
    · rintro ⟨h, hlate⟩
      exact .expired h hlate

/-! ## Ending a sidecar -/

/-- A signal that was sent, and when. -/
inductive Signal
  | sigterm (time : ℕ)
  | sigkill (time : ℕ)
deriving DecidableEq

/-- The process group of a sidecar, from the call on.  `exited` is whether its leader has
exited by a time; `getpgid` and `killpg` fail to find it only then.  The first look is
not before the call. -/
structure GroupTrace where
  exited : ℕ → Bool
  exit_final : ∀ {s t}, s ≤ t → exited s = true → exited t = true
  askedAt : ℕ
  found : Bool
  killpg : ℕ → KillResult
  watch : Watch Unit
  settle : ℕ
  reaped : Bool
  asked_le : askedAt ≤ watch.clock 0
  found_of : found = false → exited askedAt = true
  lookup_of : ∀ {t}, killpg t = .lookupError → exited t = true

/-- What `drained_sigterm` returns, when, and the signals it sent. -/
structure Drained where
  ok : Bool
  status : String
  endedAt : ℕ
  signals : List Signal
deriving DecidableEq

/-- What `poll()` shows at each pass. -/
def GroupTrace.looks (T : GroupTrace) : Watch Bool :=
  { T.watch with look := fun n => T.exited (T.watch.clock n) }

/-- The time an active slot is given to end, or another. -/
def waitWindow (drainedWindow coldWindow : ℕ) (isActive : Bool) : ℕ :=
  if isActive then drainedWindow else coldWindow

/-- A pass of the loop. -/
def ended (exited : Bool) : Option Unit := if exited then some () else none

/-- What follows a window in which the sidecar did not exit. -/
def escalate (T : GroupTrace) (now : ℕ) : Drained :=
  let term := Signal.sigterm T.askedAt
  match T.killpg now with
  | .lookupError => ⟨true, "sigkill-already-gone", now, [term]⟩
  | .refused => ⟨false, "sigkill-permission-denied", now, [term]⟩
  | .sent =>
    let signals := [term, .sigkill now]
    if !T.exited (now + T.settle) then
      ⟨false, "sigkill-failed-still-alive", now + T.settle, signals⟩
    else if !T.reaped then ⟨false, "wait-timeout-after-sigkill", now + T.settle, signals⟩
    else ⟨true, "sigkill-clean", now + T.settle, signals⟩

/-- `drained_sigterm`. -/
def drainedSigterm (T : GroupTrace) (drainedWindow coldWindow : ℕ) (isActive : Bool) : Drained :=
  if !T.found then ⟨true, "already-gone", T.askedAt, []⟩
  else match T.killpg T.askedAt with
  | .lookupError => ⟨true, "already-gone-during-sigterm", T.askedAt, []⟩
  | .refused => ⟨false, "sigterm-failed-permission-denied", T.askedAt, []⟩
  | .sent =>
    match T.looks.poll (T.askedAt + waitWindow drainedWindow coldWindow isActive) ended with
    | .decided _ n => ⟨true, "sigterm-clean", T.watch.clock n, [.sigterm T.askedAt]⟩
    | .expired n => escalate T (T.watch.clock n)

theorem escalate_spec (T : GroupTrace) (now : ℕ) :
    ((escalate T now).ok = true → T.exited (escalate T now).endedAt = true) ∧
      .sigterm T.askedAt ∈ (escalate T now).signals ∧
      ∀ t, .sigkill t ∈ (escalate T now).signals → t = now := by
  have hkill : ∀ t, Signal.sigkill t ∈ [.sigterm T.askedAt, .sigkill now] → t = now := by
    intro t ht
    simpa using ht
  unfold escalate
  split
  · rename_i hlookup
    exact ⟨fun _ => T.lookup_of hlookup, List.mem_cons_self, fun t ht => by simp at ht⟩
  · exact ⟨(by rintro ⟨⟩), List.mem_cons_self, fun t ht => by simp at ht⟩
  · dsimp only
    split
    · exact ⟨(by rintro ⟨⟩), List.mem_cons_self, hkill⟩
    · rename_i hexited
      split
      · exact ⟨(by rintro ⟨⟩), List.mem_cons_self, hkill⟩
      · exact ⟨fun _ => by simpa using hexited, List.mem_cons_self, hkill⟩

/-- Where it answers with success the sidecar has exited.  SIGKILL follows SIGTERM, and
only after a window in which no look found the sidecar exited; without such a window, it
fails only where it may not signal. -/
theorem drained_sigterm_spec (T : GroupTrace) (drainedWindow coldWindow : ℕ) (isActive : Bool) :
    let r := drainedSigterm T drainedWindow coldWindow isActive
    let deadline := T.askedAt + waitWindow drainedWindow coldWindow isActive
    (r.ok = true → T.exited r.endedAt = true) ∧
      (∀ t, .sigkill t ∈ r.signals → .sigterm T.askedAt ∈ r.signals ∧ deadline ≤ t ∧
        ∀ i, T.watch.clock i < deadline → T.exited (T.watch.clock i) = false) ∧
      (r.ok = false → T.killpg T.askedAt = .refused ∨
        ∀ i, T.watch.clock i < deadline → T.exited (T.watch.clock i) = false) := by
  intro r deadline
  have hstops := T.looks.poll_stops deadline ended
  have hquiet : ∀ {n}, T.looks.poll deadline ended = .expired n →
      ∀ i, T.watch.clock i < deadline → T.exited (T.watch.clock i) = false := by
    intro n hpoll i hi
    rw [hpoll] at hstops
    have hnone : ended (T.exited (T.watch.clock i)) = none := hstops.undecided hi
    cases hexited : T.exited (T.watch.clock i) with
    | false => rfl
    | true =>
      rw [hexited] at hnone
      cases hnone
  have hnone : ∀ t, Signal.sigkill t ∉ ([] : List Signal) := fun _ => List.not_mem_nil
  cases hfound : T.found with
  | false =>
    have hr : r = ⟨true, "already-gone", T.askedAt, []⟩ := by simp [r, drainedSigterm, hfound]
    rw [hr]
    exact ⟨fun _ => T.found_of hfound, fun t ht => absurd ht (hnone t), (by rintro ⟨⟩)⟩
  | true =>
    cases hterm : T.killpg T.askedAt with
    | lookupError =>
      have hr : r = ⟨true, "already-gone-during-sigterm", T.askedAt, []⟩ := by
        simp [r, drainedSigterm, hfound, hterm]
      rw [hr]
      exact ⟨fun _ => T.lookup_of hterm, fun t ht => absurd ht (hnone t), (by rintro ⟨⟩)⟩
    | refused =>
      have hr : r = ⟨false, "sigterm-failed-permission-denied", T.askedAt, []⟩ := by
        simp [r, drainedSigterm, hfound, hterm]
      rw [hr]
      exact ⟨(by rintro ⟨⟩), fun t ht => absurd ht (hnone t), fun _ => .inl rfl⟩
    | sent =>
      cases hpoll : T.looks.poll deadline ended with
      | decided u n =>
        have hr : r = ⟨true, "sigterm-clean", T.watch.clock n, [.sigterm T.askedAt]⟩ := by
          simp only [r, drainedSigterm, hfound, hterm, Bool.not_true, Bool.false_eq_true, if_false]
          rw [show T.looks.poll (T.askedAt + waitWindow drainedWindow coldWindow isActive) ended =
            _ from hpoll]
        have hexited : T.exited (T.watch.clock n) = true := by
          rw [hpoll] at hstops
          cases hstops with
          | decided _ _ hsome =>
            by_contra hno
            change ended (T.exited (T.watch.clock n)) = some u at hsome
            rw [ended, if_neg hno] at hsome
            cases hsome
        rw [hr]
        exact ⟨fun _ => hexited, fun t ht => by simp at ht, (by rintro ⟨⟩)⟩
      | expired n =>
        have hlate : deadline ≤ T.watch.clock n := by
          rw [hpoll] at hstops
          cases hstops with
          | expired _ hlate => exact hlate
        have hr : r = escalate T (T.watch.clock n) := by
          simp only [r, drainedSigterm, hfound, hterm, Bool.not_true, Bool.false_eq_true, if_false]
          rw [show T.looks.poll (T.askedAt + waitWindow drainedWindow coldWindow isActive) ended =
            _ from hpoll]
        obtain ⟨hok, hsent, hkill⟩ := escalate_spec T (T.watch.clock n)
        rw [hr]
        exact ⟨hok, fun t ht => ⟨hsent, hkill t ht ▸ hlate, hquiet hpoll⟩,
          fun _ => .inr (hquiet hpoll)⟩

/-- A sidecar that ends after seven units, looked at every five. -/
def endsAtSeven : GroupTrace where
  exited t := decide (7 ≤ t)
  exit_final := by
    intro s t hle hs
    exact decide_eq_true (Nat.le_trans (of_decide_eq_true hs) hle)
  askedAt := 0
  found := true
  killpg _ := .sent
  watch := ⟨fun _ => (), fun n => 5 * n, 5, by decide, fun n => by omega⟩
  settle := 1
  reaped := true
  asked_le := Nat.zero_le _
  found_of := by
    intro h
    cases h
  lookup_of := by
    intro t h
    cases h

example : drainedSigterm endsAtSeven 15 5 true = ⟨true, "sigterm-clean", 10, [.sigterm 0]⟩ := by
  decide

example : drainedSigterm endsAtSeven 15 5 false =
    ⟨false, "sigkill-failed-still-alive", 6, [.sigterm 0, .sigkill 5]⟩ := by decide

/-! ## Reaping an orphan -/

/-- A process: its identity, whether `/proc` shows when it started, and whether the
manager may signal it.  A start time is taken for an identity. -/
structure Occupant where
  birth : ℕ
  readable : Bool
  owned : Bool
deriving DecidableEq

/-- Who has a pid at each time.  A process that is gone does not come back. -/
structure Pid where
  occupant : ℕ → Option Occupant
  same : ∀ {s t o o'}, occupant s = some o → occupant t = some o' → o.birth = o'.birth → o = o'
  gone_for_good : ∀ {s t u o}, s ≤ t → t ≤ u → occupant s = some o → occupant u = some o →
    occupant t = some o

/-- `_read_proc_starttime`. -/
def Pid.starttime (P : Pid) (t : ℕ) : Option ℕ :=
  (P.occupant t).bind fun o => if o.readable then some o.birth else none

/-- `os.kill`; a refusal is a `PermissionError`. -/
def Pid.kill (P : Pid) (t : ℕ) : KillResult :=
  match P.occupant t with
  | none => .lookupError
  | some o => if o.owned then .sent else .refused

/-- The times at which `reap_orphan` does something. -/
structure ReapTimes where
  readAt : ℕ
  termAt : ℕ
  watch : Watch Unit
  settle : ℕ
  read_le : readAt ≤ termAt
  term_le : termAt ≤ watch.clock 0

/-- How `reap_orphan` ends; the loop does not catch a `PermissionError`. -/
inductive Reaped
  | returned (ok : Bool) (status : String) (time : ℕ)
  | raised (time : ℕ)
deriving DecidableEq

/-- A pass of the loop, on what `os.kill(pid, 0)` does. -/
def signalled : KillResult → Option Bool
  | .sent => none
  | .lookupError => some true
  | .refused => some false

/-- What `os.kill(pid, 0)` does at each pass. -/
def ReapTimes.looks (T : ReapTimes) (P : Pid) : Watch KillResult :=
  { T.watch with look := fun n => P.kill (T.watch.clock n) }

/-- What follows a window in which the pid was not free. -/
def reapByForce (T : ReapTimes) (P : Pid) (pid : String) (now : ℕ) : Reaped :=
  let later := now + T.settle
  match P.kill now, P.kill later with
  | .lookupError, _ => .returned true "sigkill-clean" now
  | .refused, _ => .returned false ("permission-denied-sigkill-pid-" ++ pid) now
  | .sent, .lookupError => .returned true "sigkill-clean" later
  | .sent, .refused => .returned false ("permission-denied-sigkill-pid-" ++ pid) later
  | .sent, .sent =>
    match P.starttime T.readAt, P.starttime later with
    | some original, some current =>
      if current ≠ original then .returned true "sigkill-clean-pid-reused" later
      else .returned false "sigkill-failed-still-alive" later
    | _, _ => .returned false "sigkill-failed-still-alive" later

/-- `reap_orphan`. -/
def reapOrphan (T : ReapTimes) (P : Pid) (pid : String) (sigtermWait : ℕ) : Reaped :=
  match P.kill T.termAt with
  | .lookupError => .returned true "already-gone" T.termAt
  | .refused => .returned false ("permission-denied-sigterm-pid-" ++ pid) T.termAt
  | .sent =>
    match (T.looks P).poll (T.termAt + sigtermWait) signalled with
    | .decided true n => .returned true "sigterm-clean" (T.watch.clock n)
    | .decided false n => .raised (T.watch.clock n)
    | .expired n => reapByForce T P pid (T.watch.clock n)

theorem Pid.kill_sent {P : Pid} {t : ℕ} (h : P.kill t = .sent) :
    ∃ o, P.occupant t = some o ∧ o.owned = true := by
  unfold Pid.kill at h
  split at h
  · cases h
  · rename_i o ho
    split at h
    · rename_i howned
      exact ⟨o, ho, howned⟩
    · cases h

theorem Pid.kill_lookupError {P : Pid} {t : ℕ} (h : P.kill t = .lookupError) :
    P.occupant t = none := by
  unfold Pid.kill at h
  split at h
  · assumption
  · split at h
    all_goals cases h

theorem Pid.kill_refused {P : Pid} {t : ℕ} (h : P.kill t = .refused) :
    ∃ o, P.occupant t = some o ∧ o.owned = false := by
  unfold Pid.kill at h
  split at h
  · cases h
  · rename_i o ho
    split at h
    · cases h
    · rename_i howned
      exact ⟨o, ho, by simpa using howned⟩

/-- One that was there and is not is gone for good. -/
theorem Pid.gone {P : Pid} {s t : ℕ} {orphan : Occupant} (hst : s ≤ t)
    (hthere : P.occupant s = some orphan) (hgone : P.occupant t ≠ some orphan) :
    ∀ u, t ≤ u → P.occupant u ≠ some orphan :=
  fun _ hu hback => hgone (P.gone_for_good hst hu hthere hback)

/-- Who may not be signalled any more is another. -/
theorem Pid.refused_ne {P : Pid} {r s t : ℕ} {orphan : Occupant} (hrs : r ≤ s) (hst : s ≤ t)
    (hthere : P.occupant r = some orphan) (hsent : P.kill s = .sent)
    (hrefused : P.kill t = .refused) :
    P.occupant t ≠ some orphan := by
  intro hstill
  obtain ⟨o, ho, howned⟩ := P.kill_sent hsent
  obtain ⟨o', ho', hnot⟩ := P.kill_refused hrefused
  rw [P.gone_for_good hrs hst hthere hstill] at ho
  rw [hstill] at ho'
  rw [Option.some.inj (ho.symm.trans ho'), hnot] at howned
  cases howned

variable {T : ReapTimes} {P : Pid} {pid : String} {sigtermWait : ℕ} {orphan : Occupant}

theorem reapByForce_true {now t : ℕ} {status : String} (hnow : T.readAt ≤ now)
    (hthere : P.occupant T.readAt = some orphan)
    (h : reapByForce T P pid now = .returned true status t) :
    T.readAt ≤ t ∧ P.occupant t ≠ some orphan := by
  unfold reapByForce at h
  dsimp only at h
  have hlater : T.readAt ≤ now + T.settle := Nat.le_trans hnow (Nat.le_add_right _ _)
  split at h
  · rename_i hkill
    cases h
    rw [P.kill_lookupError hkill]
    exact ⟨hnow, (by rintro ⟨⟩)⟩
  · cases h
  · rename_i hkill
    cases h
    rw [P.kill_lookupError hkill]
    exact ⟨hlater, (by rintro ⟨⟩)⟩
  · cases h
  · split at h
    · rename_i original current horiginal hcurrent
      split at h
      · rename_i hne
        cases h
        refine ⟨hlater, fun hstill => hne ?_⟩
        rw [Pid.starttime, hthere] at horiginal
        rw [Pid.starttime, hstill] at hcurrent
        exact Option.some.inj (hcurrent.symm.trans horiginal)
      · cases h
    · cases h

/-- No refusal has the status of a process that survives. -/
theorem denied_ne {denied : String} (h : denied.toList.head? = some 'p') (pid : String) :
    denied ++ pid ≠ "sigkill-failed-still-alive" := by
  intro heq
  have hhead : (denied ++ pid).toList.head? = some 's' := by
    rw [heq]
    rfl
  rw [String.toList_append, List.head?_append, h] at hhead
  cases hhead

/-- One that survives SIGKILL is the orphan, if its start time can be told. -/
theorem reapByForce_alive {now t : ℕ} (hthere : P.occupant T.readAt = some orphan)
    (h : reapByForce T P pid now = .returned false "sigkill-failed-still-alive" t) :
    ∃ o, P.occupant t = some o ∧ (orphan.readable = true → o.readable = true → o = orphan) := by
  unfold reapByForce at h
  dsimp only at h
  split at h
  · cases h
  · exact absurd (Reaped.returned.inj h).2.1 (denied_ne (by decide) pid)
  · cases h
  · exact absurd (Reaped.returned.inj h).2.1 (denied_ne (by decide) pid)
  · rename_i hsent
    obtain ⟨o, ho, -⟩ := P.kill_sent hsent
    have horiginal : orphan.readable = true → P.starttime T.readAt = some orphan.birth := by
      intro hread
      rw [Pid.starttime, hthere, Option.bind_some, if_pos hread]
    have hcurrent : o.readable = true → P.starttime (now + T.settle) = some o.birth := by
      intro hread
      rw [Pid.starttime, ho, Option.bind_some, if_pos hread]
    split at h
    · rename_i original current horiginal' hcurrent'
      split at h
      · cases h
      · rename_i heq
        cases h
        refine ⟨o, ho, fun hread hread' => P.same ho hthere ?_⟩
        rw [horiginal hread] at horiginal'
        rw [hcurrent hread'] at hcurrent'
        rw [Option.some.inj hcurrent', Option.some.inj horiginal', not_not.mp heq]
    · rename_i hunread
      cases h
      refine ⟨o, ho, fun hread hread' => ?_⟩
      exact absurd (hcurrent hread') (hunread _ _ (horiginal hread))

/-- Where it answers with success the orphan is gone, whoever has the pid then; it raises
only where the orphan is gone and its pid another's.  What survives SIGKILL is the orphan,
as far as start times can be told. -/
theorem reap_orphan_gone (hthere : P.occupant T.readAt = some orphan) :
    (∀ status t, reapOrphan T P pid sigtermWait = .returned true status t →
      ∀ u, t ≤ u → P.occupant u ≠ some orphan) ∧
    (∀ t, reapOrphan T P pid sigtermWait = .raised t →
      (∃ other, P.occupant t = some other ∧ other.owned = false) ∧
        ∀ u, t ≤ u → P.occupant u ≠ some orphan) ∧
    (∀ t, reapOrphan T P pid sigtermWait = .returned false "sigkill-failed-still-alive" t →
      ∃ o, P.occupant t = some o ∧ (orphan.readable = true → o.readable = true → o = orphan)) := by
  have hclock : ∀ n, T.termAt ≤ T.watch.clock n := by
    intro n
    exact Nat.le_trans T.term_le (T.watch.clock_mono (Nat.zero_le n))
  unfold reapOrphan
  cases hterm : P.kill T.termAt with
  | lookupError =>
    refine ⟨fun status t h => ?_, (fun t h => by cases h), (fun t h => by cases h)⟩
    cases h
    refine P.gone T.read_le hthere ?_
    rw [P.kill_lookupError hterm]
    intro h
    cases h
  | refused =>
    refine ⟨fun status t h => ?_, fun t h => ?_, fun t h => ?_⟩
    · cases h
    · cases h
    · exact absurd (Reaped.returned.inj h).2.1 (denied_ne (by decide) pid)
  | sent =>
    dsimp only
    have hstops := (T.looks P).poll_stops (T.termAt + sigtermWait) signalled
    cases hpoll : (T.looks P).poll (T.termAt + sigtermWait) signalled with
    | decided clean n =>
      rw [hpoll] at hstops
      have hlook : signalled (P.kill (T.watch.clock n)) = some clean := by
        cases hstops with
        | decided _ _ hsome => exact hsome
      have hread : T.readAt ≤ T.watch.clock n := Nat.le_trans T.read_le (hclock n)
      cases hkill : P.kill (T.watch.clock n) with
      | sent =>
        rw [hkill] at hlook
        cases hlook
      | lookupError =>
        rw [hkill] at hlook
        cases hlook
        refine ⟨fun status t h => ?_, (fun t h => by cases h), (fun t h => by cases h)⟩
        cases h
        refine P.gone hread hthere ?_
        rw [P.kill_lookupError hkill]
        intro h
        cases h
      | refused =>
        rw [hkill] at hlook
        cases hlook
        refine ⟨(fun status t h => by cases h), fun t h => ?_, (fun t h => by cases h)⟩
        cases h
        exact ⟨P.kill_refused hkill,
          P.gone hread hthere (P.refused_ne T.read_le (hclock n) hthere hterm hkill)⟩
    | expired n =>
      refine ⟨fun status t h => ?_, fun t h => ?_, fun t h => ?_⟩
      · obtain ⟨hread, hne⟩ := reapByForce_true (Nat.le_trans T.read_le (hclock n)) hthere h
        exact P.gone hread hthere hne
      · unfold reapByForce at h
        dsimp only at h
        repeat' split at h
        all_goals cases h
      · exact reapByForce_alive hthere h

/-- An orphan that ends at SIGTERM, and whose pid is free from then on. -/
def endsAtOnce : Pid where
  occupant t := if t = 0 then some ⟨3, true, true⟩ else none
  same := by
    intro s t o o' hs ht _
    split at hs
    · split at ht
      · exact Option.some.inj (hs.symm.trans ht)
      · cases ht
    · cases hs
  gone_for_good := by
    intro s t u o hst htu hs hu
    split at hu
    · rename_i hzero
      rw [if_pos (Nat.le_zero.mp (hzero ▸ htu))]
      exact hu
    · cases hu

def promptly : ReapTimes :=
  ⟨0, 0, ⟨fun _ => (), fun n => n + 1, 1, by decide, fun n => Nat.le_refl _⟩, 1, Nat.le_refl _,
    Nat.zero_le _⟩

theorem reap_orphan_gone_at_once :
    (∀ status t, reapOrphan promptly endsAtOnce "7" 5 = .returned true status t →
      ∀ u, t ≤ u → endsAtOnce.occupant u ≠ some ⟨3, true, true⟩) ∧
    (∀ t, reapOrphan promptly endsAtOnce "7" 5 = .raised t →
      (∃ other, endsAtOnce.occupant t = some other ∧ other.owned = false) ∧
        ∀ u, t ≤ u → endsAtOnce.occupant u ≠ some ⟨3, true, true⟩) ∧
    (∀ t, reapOrphan promptly endsAtOnce "7" 5 = .returned false "sigkill-failed-still-alive" t →
      ∃ o, endsAtOnce.occupant t = some o ∧
        (true = true → o.readable = true → o = ⟨3, true, true⟩)) :=
  @reap_orphan_gone promptly endsAtOnce "7" 5 ⟨3, true, true⟩ rfl

end Turbohaul.Signals
