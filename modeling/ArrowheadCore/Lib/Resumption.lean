import Mathlib.Tactic.Common

/-!
# Programs that give commands

A program gives a command and goes on with the answer to it, until it is done or throws. What a command does is
no part of the program, so that the same program can run against a state, against given answers, or in turns with
another one.
-/

namespace ArrowheadCore.Lib

/-- Programs over the commands `Cmd`; the command `c` is answered by a value of `Ans c`. -/
inductive Prog (Cmd : Type) (Ans : Cmd → Type) (ε α : Type) where
  | done (a : α)
  | raise (e : ε)
  | step (c : Cmd) (next : Ans c → Prog Cmd Ans ε α)

namespace Prog
variable {Cmd : Type} {Ans : Cmd → Type} {ε α β γ : Type}

def andThen : Prog Cmd Ans ε α → (α → Prog Cmd Ans ε β) → Prog Cmd Ans ε β
  | .done a, f => f a
  | .raise e, _ => .raise e
  | .step c next, f => .step c fun x => (next x).andThen f

instance : Monad (Prog Cmd Ans ε) where
  pure := .done
  bind := andThen

@[simp] lemma done_bind (a : α) (f : α → Prog Cmd Ans ε β) : (.done a >>= f) = f a := rfl

@[simp] lemma raise_bind (e : ε) (f : α → Prog Cmd Ans ε β) : (.raise e >>= f) = .raise e := rfl

@[simp] lemma step_bind (c : Cmd) (next : Ans c → Prog Cmd Ans ε α) (f : α → Prog Cmd Ans ε β) :
    (.step c next >>= f) = .step c fun x => next x >>= f := rfl

@[simp] lemma pure_eq (a : α) : (pure a : Prog Cmd Ans ε α) = .done a := rfl

/-! ## Given answers -/

/-- The result when the commands are answered by `answer`; `none` when the program throws. -/
def eval (answer : ∀ c, Ans c) : Prog Cmd Ans ε α → Option α
  | .done a => some a
  | .raise _ => none
  | .step c next => (next (answer c)).eval answer

/-- The commands that are given then, in order. -/
def given (answer : ∀ c, Ans c) : Prog Cmd Ans ε α → List Cmd
  | .done _ => []
  | .raise _ => []
  | .step c next => c :: (next (answer c)).given answer

section
variable (answer : ∀ c, Ans c)

@[simp] lemma eval_done (a : α) : (.done a : Prog Cmd Ans ε α).eval answer = some a := rfl

@[simp] lemma eval_bind (p : Prog Cmd Ans ε α) (f : α → Prog Cmd Ans ε β) :
    (p >>= f).eval answer = (p.eval answer).bind fun a => (f a).eval answer := by
  induction p with
  | done a => rfl
  | raise e => rfl
  | step c next ih => exact ih (answer c)

end

end Prog

end ArrowheadCore.Lib
