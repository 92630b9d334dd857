import ArrowheadCore.Db.Session
import ArrowheadCore.Lib.Resumption

/-!
# Requests as programs

What a request does with its connection, one statement at a time: `Program` is what is sent and how the answers are
used, and `run` lets the statements act on a session.
-/

namespace ArrowheadCore.Db
open Lib Lib.Sql

/-- The operations of a connection that requests use. -/
inductive Cmd where
  | fetch (statement : List UInt8)
  | fetchString (statement : List UInt8)
  | query (statement : List UInt8)
deriving DecidableEq, Repr

def Cmd.Ans : Cmd → Type
  | .fetch _ => List (List Value)
  | .fetchString _ => Option (List UInt8)
  | .query _ => Unit

def Cmd.statement : Cmd → List UInt8
  | .fetch s | .fetchString s | .query s => s

abbrev Program := Prog Cmd Cmd.Ans Exn

namespace Program
variable {α β : Type}

/-- C++ `fetch(statement)` -/
def fetch (statement : List UInt8) : Program (List (List Value)) := Prog.step (.fetch statement) .done

/-- C++ `fetch(statement, std::string&)` -/
def fetchString (statement : List UInt8) : Program (Option (List UInt8)) := Prog.step (.fetchString statement) .done

/-- C++ `query` -/
def query (statement : List UInt8) : Program Unit := Prog.step (.query statement) .done

variable (link : Link)

def exec : (c : Cmd) → DbM c.Ans
  | .fetch s => Db.fetch link s
  | .fetchString s => Db.fetchString link s
  | .query s => Db.query link s

def run : Program α → DbM α
  | .done a => pure a
  | .raise e => throwExn e
  | .step c next => exec link c >>= fun x => run (next x)

lemma bind_assoc {γ : Type} (m : DbM α) (f : α → DbM β) (g : β → DbM γ) :
    (m >>= f >>= g) = m >>= fun a => f a >>= g := by
  funext s
  cases e : m s with
  | mk r s1 =>
    cases r with
    | ok a =>
      rw [bind_of_ok e]
      cases e' : f a s1 with
      | mk r' s2 =>
        cases r' with
        | ok b => rw [bind_of_ok ((bind_of_ok e).trans e'), bind_of_ok e']
        | error x => rw [bind_of_error ((bind_of_ok e).trans e'), bind_of_error e']
    | error x => rw [bind_of_error (bind_of_error e), bind_of_error e]

lemma bind_pure (m : DbM α) : (m >>= pure) = m := by
  funext s
  cases e : m s with
  | mk r s1 =>
    cases r with
    | ok a => rw [bind_of_ok e, pure_run]
    | error x => rw [bind_of_error e]

@[simp] lemma run_bind (p : Program α) (f : α → Program β) :
    run link (p >>= f) = run link p >>= fun a => run link (f a) := by
  induction p with
  | done a => rfl
  | raise e => rfl
  | step c next ih =>
    show (exec link c >>= fun x => run link (next x >>= f)) = (exec link c >>= fun x => run link (next x)) >>= _
    rw [bind_assoc]
    exact congrArg (exec link c >>= ·) (funext ih)

@[simp] lemma run_pure (a : α) : run link (pure a) = pure a := rfl

@[simp] lemma run_done (a : α) : run link (.done a) = pure a := rfl

@[simp] lemma run_raise (e : Exn) : run link (.raise e : Program α) = throwExn e := rfl

@[simp] lemma run_fetch (s : List UInt8) : run link (fetch s) = Db.fetch link s :=
  bind_pure (Db.fetch link s)

@[simp] lemma run_fetchString (s : List UInt8) : run link (fetchString s) = Db.fetchString link s :=
  bind_pure (Db.fetchString link s)

@[simp] lemma run_query (s : List UInt8) : run link (query s) = Db.query link s :=
  bind_pure (Db.query link s)

end Program

end ArrowheadCore.Db
