/-
# `Coop.Program` — cooperative tasks as programs

A cooperative task runs without interruption from one suspension to the next:
between two `await`s nothing else runs.  `Co S α` is the type of such
programs.  It is a monad, so a coroutine is translated with `do` notation, its
local variables becoming Lean variables; the state shared by all tasks is
`S.World`.

    act f       an await-free statement: it reads and writes the world, and may raise
    ask o       a synchronous call whose reply is not determined by the program
    await o     a suspension: the other tasks run, then the operation is answered
    attempt m   the outcome of `m` as a value, from which `except` and `finally` are built
    loop b f    `while`, with the loop-carried local variables as its state

Two kinds of exception leave a statement, and they are kept apart because the
handlers of the host language keep them apart: an ordinary exception
(`Exc.raised`) and the cancellation of the task (`Exc.cancelled`), which
`except Exception` does not catch.

`Co.run` executes a program from a world up to the next point where something
outside it has to decide.  It is a function, so that a concrete schedule can be
evaluated.
-/
import Mathlib.Logic.Relation

namespace Coop

/-- What leaves a statement other than its value. -/
inductive Exc (ε : Type) where
  | raised (e : ε)
  | cancelled
deriving DecidableEq, Repr

/-- The types a system of tasks is made of. -/
structure Sig where
  World : Type
  Op : Type
  Reply : Type
  Err : Type

/-- How a statement ends. -/
abbrev Res (S : Sig) (α : Type) := Except (Exc S.Err) α

/-- Programs of cooperative tasks. -/
inductive Co (S : Sig) : Type → Type 1 where
  | pure {α : Type} (a : α) : Co S α
  | throw {α : Type} (e : Exc S.Err) : Co S α
  | act {α : Type} (f : S.World → Res S α × S.World) : Co S α
  | ask (o : S.Op) : Co S S.Reply
  | await (o : S.Op) : Co S S.Reply
  | bind {α β : Type} (m : Co S α) (k : α → Co S β) : Co S β
  | attempt {α : Type} (m : Co S α) : Co S (Res S α)
  | loop {β α : Type} (b : β) (body : β → Co S (β ⊕ α)) : Co S α

/-- Where a run of a program stops: at its end, at a call, at a suspension, or
at the back edge of a loop. -/
inductive Stop (S : Sig) (α : Type) : Type 1 where
  | done (r : Res S α) (w : S.World)
  | ask (o : S.Op) (k : S.Reply → Co S α) (w : S.World)
  | await (o : S.Op) (k : S.Reply → Co S α) (w : S.World)
  | tau (m : Co S α) (w : S.World)

namespace Co

variable {S : Sig} {α β : Type}

/-- Run a program up to its next stop.  A loop stops once at each back edge, so
the recursion is structural. -/
def run : {α : Type} → Co S α → S.World → Stop S α
  | _, .pure a, w => .done (.ok a) w
  | _, .throw e, w => .done (.error e) w
  | _, .act f, w => .done (f w).1 (f w).2
  | _, .ask o, w => .ask o .pure w
  | _, .await o, w => .await o .pure w
  | _, .bind m k, w =>
      match run m w with
      | .done (.ok a) w' => run (k a) w'
      | .done (.error e) w' => .done (.error e) w'
      | .ask o c w' => .ask o (fun r => .bind (c r) k) w'
      | .await o c w' => .await o (fun r => .bind (c r) k) w'
      | .tau m' w' => .tau (.bind m' k) w'
  | _, .attempt m, w =>
      match run m w with
      | .done r w' => .done (.ok r) w'
      | .ask o c w' => .ask o (fun r => .attempt (c r)) w'
      | .await o c w' => .await o (fun r => .attempt (c r)) w'
      | .tau m' w' => .tau (.attempt m') w'
  | _, .loop b body, w =>
      .tau (.bind (body b) fun
        | .inl b' => .loop b' body
        | .inr a => .pure a) w

instance : Monad (Co S) where
  pure := .pure
  bind := .bind

/-! ## Statements -/

/-- Read a value off the world. -/
def gets (f : S.World → α) : Co S α :=
  .act fun w => (.ok (f w), w)

/-- An assignment. -/
def modify (f : S.World → S.World) : Co S Unit :=
  .act fun w => (.ok (), f w)

/-- A statement that either raises, leaving the world as it was, or assigns. -/
def update (f : S.World → Except S.Err S.World) : Co S Unit :=
  .act fun w =>
    match f w with
    | .ok w' => (.ok (), w')
    | .error e => (.error (.raised e), w)

/-- `raise e`. -/
def raise (e : S.Err) : Co S α := .throw (.raised e)

/-- `if c: m`. -/
def when (c : Bool) (m : Co S Unit) : Co S Unit :=
  if c then m else .pure ()

/-- Raise again what `attempt` caught. -/
def resume : Res S α → Co S α
  | .ok a => .pure a
  | .error e => .throw e

/-- `try: m except Exception as e: h(e)`.  Cancellation passes through. -/
def tryExcept (m : Co S α) (h : S.Err → Co S α) : Co S α :=
  .bind (.attempt m) fun
    | .error (.raised e) => h e
    | r => resume r

/-- `try: m finally: f`.  What `f` raises replaces the outcome of `m`. -/
def tryFinally (m : Co S α) (f : Co S Unit) : Co S α :=
  .bind (.attempt m) fun r => .bind f fun _ => resume r

/-- `with suppress(Exception): m`, best effort. -/
def suppress (m : Co S Unit) : Co S Unit :=
  tryExcept m fun _ => .pure ()

/-- `with suppress(CancelledError, Exception): m`. -/
def suppressAll (m : Co S Unit) : Co S Unit :=
  .bind (.attempt m) fun _ => .pure ()

/-- `while`: the body answers whether to go round again. -/
def whileTrue (body : Co S Bool) : Co S Unit :=
  .loop () fun _ => .bind body fun again => .pure (if again then .inl () else .inr ())

/-- `for x in xs: f(x)`. -/
def forEach {γ : Type} (f : γ → Co S Unit) : List γ → Co S Unit
  | [] => .pure ()
  | x :: xs => .bind (f x) fun _ => forEach f xs

end Co

end Coop
