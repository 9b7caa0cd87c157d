/-
# `Coop.System` — many tasks on one event loop

A system is a world, the suspended tasks, and at most one task that is
running.  What the world records about the tasks (which exist, which have not
started, which were asked to cancel) is the world's own business; the system
keeps only their programs.

A run is a list of moves.  A move resumes or starts one task, answers the call
the running task is making, takes it across a loop's back edge, or is a step of
the environment.  While a task is running no other task moves and the
environment does not either: that is what cooperative scheduling means.  The
order in which suspended tasks are resumed is free.

`Reach` is reachability under a condition on the replies and on the
environment's steps (`Admit`): a property that holds of all runs is proved for
the condition `Admit.any`, and a property that holds only when the outside
behaves is proved for the condition that says so.  Conditions are decidable, so
that a schedule can be executed and checked.
-/
import Turbohaul.Coop.Program

namespace Coop

/-- A task waiting for the answer to an operation. -/
structure Susp (S : Sig) where
  op : S.Op
  cont : S.Reply → Co S Unit

/-- What a system of tasks is given by.  `allowed t o r w`: in the world `w`
the operation `o` of task `t` may be answered by `r`.  `issue` is the effect of
suspending on an operation, `answer` that of its reply, `finished` that of a
task's end.  A task that has not started waits on `entry`. -/
structure Sys (S : Sig) where
  Kind : Type
  Env : Type
  allowed : Nat → S.Op → S.Reply → S.World → Bool
  issue : Nat → S.Op → S.World → S.World
  answer : Nat → S.Op → S.Reply → S.World → S.World
  fresh : S.World → Nat → Option Kind
  entry : S.Op
  body : Nat → Kind → S.Reply → Co S Unit
  finished : Nat → Res S Unit → S.World → S.World
  env : Env → S.World → Option S.World

variable {S : Sig}

/-- A state of the event loop. -/
structure Loop (S : Sig) where
  world : S.World
  susp : Nat → Option (Susp S) := fun _ => none
  current : Option (Nat × Stop S Unit) := none

/-- One move of the event loop. -/
inductive Move (Y : Sys S) where
  | resume (t : Nat) (r : S.Reply)
  | start (t : Nat) (r : S.Reply)
  | answer (r : S.Reply)
  | go
  | env (e : Y.Env)

/-- The condition under which a run is considered. -/
structure Admit (Y : Sys S) where
  reply : Nat → S.Op → S.Reply → S.World → Bool := fun _ _ _ _ => true
  env : Y.Env → S.World → Bool := fun _ _ => true

/-- No condition. -/
def Admit.any (Y : Sys S) : Admit Y := {}

namespace Loop

variable {Y : Sys S}

/-- Replace what task `t` is suspended on. -/
def setSusp (susp : Nat → Option (Susp S)) (t : Nat) (v : Option (Susp S)) :
    Nat → Option (Susp S) :=
  fun u => if u = t then v else susp u

/-- The loop after task `t` has run to a stop.  An end and a suspension give
the loop back; a call and a back edge leave the task running. -/
def settle (Y : Sys S) (susp : Nat → Option (Susp S)) (t : Nat) : Stop S Unit → Loop S
  | .done r w => { world := Y.finished t r w, susp := setSusp susp t none }
  | .await o k w => { world := Y.issue t o w, susp := setSusp susp t (some ⟨o, k⟩) }
  | .ask o k w => { world := w, susp := setSusp susp t none, current := some (t, .ask o k w) }
  | .tau m w => { world := w, susp := setSusp susp t none, current := some (t, .tau m w) }

/-- One move, when it is possible. -/
def step (Y : Sys S) (c : Loop S) : Move Y → Option (Loop S)
  | .resume t r =>
      match c.current, c.susp t with
      | none, some ⟨o, k⟩ =>
          if Y.allowed t o r c.world then
            some (settle Y c.susp t ((k r).run (Y.answer t o r c.world)))
          else none
      | _, _ => none
  | .start t r =>
      match c.current, c.susp t, Y.fresh c.world t with
      | none, none, some kd =>
          if Y.allowed t Y.entry r c.world then
            some (settle Y c.susp t ((Y.body t kd r).run (Y.answer t Y.entry r c.world)))
          else none
      | _, _, _ => none
  | .answer r =>
      match c.current with
      | some (t, .ask o k w) =>
          if Y.allowed t o r w then
            some (settle Y c.susp t ((k r).run (Y.answer t o r w)))
          else none
      | _ => none
  | .go =>
      match c.current with
      | some (t, .tau m w) => some (settle Y c.susp t (m.run w))
      | _ => none
  | .env e =>
      match c.current with
      | none => (Y.env e c.world).map fun w => { c with world := w }
      | some _ => none

/-- Whether a move meets the condition. -/
def admits (A : Admit Y) (c : Loop S) : Move Y → Bool
  | .resume t r =>
      match c.susp t with
      | some s => A.reply t s.op r c.world
      | none => true
  | .start t r => A.reply t Y.entry r c.world
  | .answer r =>
      match c.current with
      | some (t, .ask o _ w) => A.reply t o r w
      | _ => true
  | .go => true
  | .env e => A.env e c.world

/-- A list of moves that meet the condition. -/
def exec (A : Admit Y) : List (Move Y) → Loop S → Option (Loop S)
  | [], c => some c
  | m :: ms, c => if admits A c m then (step Y c m).bind (exec A ms) else none

/-- Reachability from `c₀` by moves that meet the condition. -/
inductive Reach (A : Admit Y) (c₀ : Loop S) : Loop S → Prop where
  | refl : Reach A c₀ c₀
  | step {c c' : Loop S} (m : Move Y) :
      Reach A c₀ c → admits A c m = true → step Y c m = some c' → Reach A c₀ c'

theorem Reach.trans {A : Admit Y} {a b c : Loop S} (hab : Reach A a b) (hbc : Reach A b c) :
    Reach A a c := by
  induction hbc with
  | refl => exact hab
  | step m _ ha hs ih => exact .step m ih ha hs

/-- An executed schedule is a run. -/
theorem reach_of_exec {A : Admit Y} : ∀ {ms : List (Move Y)} {c c' : Loop S},
    exec A ms c = some c' → Reach A c c'
  | [], _, _, h => by
      cases h
      exact .refl
  | m :: ms, c, c', h => by
      rw [exec] at h
      split at h
      · next ha =>
          obtain ⟨c₁, h₁, h₂⟩ := Option.bind_eq_some_iff.mp h
          have hm : Reach A c c₁ := .step m .refl ha h₁
          exact hm.trans (reach_of_exec h₂)
      · cases h

/-- What an executed schedule shows of the state it reaches. -/
theorem reach_of_check {A : Admit Y} {ms : List (Move Y)} {c : Loop S} {p : Loop S → Bool}
    (h : (exec A ms c).any p = true) : ∃ c', Reach A c c' ∧ p c' = true := by
  cases he : exec A ms c with
  | none => rw [he] at h; cases h
  | some c' => exact ⟨c', reach_of_exec he, by rwa [he] at h⟩

/-- A run from `c₀` that satisfies `p` whenever the event loop has control. -/
inductive Within (A : Admit Y) (p : S.World → Prop) (c₀ : Loop S) : Loop S → Prop where
  | refl : (c₀.current = none → p c₀.world) → Within A p c₀ c₀
  | step {c c' : Loop S} (m : Move Y) : Within A p c₀ c → admits A c m = true →
      step Y c m = some c' → (c'.current = none → p c'.world) → Within A p c₀ c'

theorem Within.reach {A : Admit Y} {p : S.World → Prop} {c₀ c : Loop S}
    (h : Within A p c₀ c) : Reach A c₀ c := by
  induction h with
  | refl _ => exact .refl
  | step m _ ha hs _ ih => exact .step m ih ha hs

theorem Within.start {A : Admit Y} {p : S.World → Prop} {c₀ c : Loop S}
    (h : Within A p c₀ c) : c₀.current = none → p c₀.world := by
  induction h with
  | refl hp => exact hp
  | step _ _ _ _ _ ih => exact ih

theorem Within.trans {A : Admit Y} {p : S.World → Prop} {a b c : Loop S}
    (hab : Within A p a b) (hbc : Within A p b c) : Within A p a c := by
  induction hbc with
  | refl _ => exact hab
  | step m _ ha hs hp ih => exact .step m ih ha hs hp

/-- A list of moves that meet the condition and keep `p`. -/
def execWithin (A : Admit Y) (p : S.World → Bool) : List (Move Y) → Loop S → Option (Loop S)
  | [], c => if c.current.isSome || p c.world then some c else none
  | m :: ms, c =>
      if (c.current.isSome || p c.world) && admits A c m then
        (step Y c m).bind (execWithin A p ms)
      else none

theorem within_of_exec {A : Admit Y} {p : S.World → Bool} :
    ∀ {ms : List (Move Y)} {c c' : Loop S}, execWithin A p ms c = some c' →
      Within A (fun w => p w = true) c c'
  | [], c, c', h => by
      simp only [execWithin, Option.ite_none_right_eq_some, Option.some.injEq] at h
      obtain ⟨hp, rfl⟩ := h
      exact .refl fun hn => by simpa [hn] using hp
  | m :: ms, c, c', h => by
      rw [execWithin] at h
      split at h
      · next ha =>
          obtain ⟨hp, hm⟩ := Bool.and_eq_true_iff.mp ha
          obtain ⟨c₁, h₁, h₂⟩ := Option.bind_eq_some_iff.mp h
          have hrest := within_of_exec h₂
          have hc : Within A (fun w => p w = true) c c :=
            .refl fun hn => by simpa [hn] using hp
          exact (Within.step m hc hm h₁ hrest.start).trans hrest
      · cases h

end Loop

end Coop
