import ArrowheadCore.Authorization.Rules

/-!
# Providers with interfaces in a statement

The checks of authorization rules (`core/apps/Authorization/queries`) list the requested providers with their interfaces
as alternatives of one condition.
-/

namespace ArrowheadCore.Authorization.Providers
open Lib Lib.Sql Db

/-- A provider and the interfaces that are requested of it. -/
abbrev Request := Int × List Int

/-- What one provider adds to the statement. -/
def termText (x : Request) : List UInt8 :=
  bytes " (p1.id = " ++ (to_string x.1 ++ (bytes " AND t1.interface_id IN (" ++ (valuesText x.2 ++ bytes ")")))

def provider : Expr := .col (some "p1") "id"
def interface : Expr := .col (some "t1") "interface_id"

def termTokens (x : Request) : List Token :=
  .sym .lparen :: ((Expr.tokens provider ++ Token.sym .eq :: intTokens x.1) ++
    Token.kw .and :: (Expr.tokens interface ++ Token.kw .in :: .sym .lparen ::
      (commas Value.tokens (x.2.map .int) ++ [Token.sym .rparen])) ++ [Token.sym .rparen])

def termCond (x : Request) : Cond := .and (.eq provider (.lit (.int x.1))) (.isIn interface (x.2.map .int))

def alternatives (x : Request) : List Request → Cond
  | [] => termCond x
  | y :: ys => .or (termCond x) (alternatives y ys)

/-- The texts and the tokens of all alternatives. -/
def alternativesText (x : Request) (xs : List Request) : List UInt8 :=
  termText x ++ xs.flatMap fun x => bytes " OR " ++ termText x

def alternativesTokens (x : Request) (xs : List Request) : List Token :=
  termTokens x ++ xs.flatMap fun x => Token.kw .or :: termTokens x

section
variable {x : Request} {xs : List Request}

lemma lexes_term (hx : x.2 ≠ []) : Lexes .idle (termText x) (termTokens x) .idle := by
  have close : Lexes .idle (bytes ")") [.sym .rparen] .idle := lexes_bytes (by decide)
  have mid : Lexes .idle (bytes " AND t1.interface_id IN (")
      (.kw .and :: (Expr.tokens interface ++ [Token.kw .in, .sym .lparen])) .idle := lexes_bytes (by decide)
  have head : Lexes .idle (bytes " (p1.id = ") (.sym .lparen :: (Expr.tokens provider ++ [Token.sym .eq])) .idle :=
    lexes_bytes (by decide)
  have := head.append ((mid.append ((lexes_values hx).append close)).to_string (delimits_cons _ (by decide)) x.1)
  simpa [termText, termTokens] using this

lemma lexes_alternatives (h : ∀ y ∈ x :: xs, y.2 ≠ []) :
    Lexes .idle (alternativesText x xs) (alternativesTokens x xs) .idle := by
  have or_ : Lexes .idle (bytes " OR ") [.kw .or] .idle := lexes_bytes (by decide)
  induction xs generalizing x with
  | nil => simpa [alternativesText, alternativesTokens] using lexes_term (h x (by simp))
  | cons y ys ih =>
    have rest := ih fun z hz => h z (List.mem_cons_of_mem _ hz)
    simpa [alternativesText, alternativesTokens] using (lexes_term (h x (by simp))).append (or_.append rest)

lemma derives_term (hx : x.2 ≠ []) : Derives .conj (termCond x) (termTokens x) := by
  have ids : x.2.map Value.int ≠ [] := by simpa using hx
  exact .term (.paren (.conj (.and (.eq (by simp [provider]) (by simp)) (.term (.isIn (by simp [interface]) ids (by simp))))))

lemma derives_alternatives (h : ∀ y ∈ x :: xs, y.2 ≠ []) : Derives .disj (alternatives x xs) (alternativesTokens x xs) := by
  induction xs generalizing x with
  | nil => simpa [alternatives, alternativesTokens] using Derives.conj (derives_term (h x (by simp)))
  | cons y ys ih =>
    exact .or (derives_term (h x (by simp))) (ih fun z hz => h z (List.mem_cons_of_mem _ hz))

/-- The alternatives hold for the requested pairs of a provider and an interface. -/
lemma eval_alternatives {env : Env} {p i : Int} (hp : provider.eval schema env = .int p)
    (hi : interface.eval schema env = .int i) :
    (alternatives x xs).eval schema env ↔ ∃ y ∈ x :: xs, y.1 = p ∧ i ∈ y.2 := by
  have term (y : Request) : (termCond y).eval schema env ↔ y.1 = p ∧ i ∈ y.2 := by
    have e : (termCond y).eval schema env = ((Value.int p).same (.int y.1) && y.2.any fun j => (Value.int i).same (.int j)) := by
      rw [termCond, Cond.eval, Cond.eval, Cond.eval, hp, hi, Expr.eval, List.any_map]
      rfl
    rw [e, Bool.and_eq_true, List.any_eq_true]
    simp only [Value.same, beq_iff_eq]
    constructor
    · rintro ⟨rfl, j, hj, rfl⟩
      exact ⟨rfl, hj⟩
    · rintro ⟨rfl, hj⟩
      exact ⟨rfl, i, hj, rfl⟩
  induction xs generalizing x with
  | nil => simp [alternatives, term]
  | cons y ys ih =>
    have rest : (alternatives y ys).eval schema env ↔ ∃ z ∈ y :: ys, z.1 = p ∧ i ∈ z.2 := ih
    rw [alternatives, Cond.eval, Bool.or_eq_true, term, rest]
    simp

lemma bound_alternatives {sources : List Source} (hp : provider.bound schema sources) (hi : interface.bound schema sources) :
    (alternatives x xs).bound schema sources := by
  have term (y : Request) : (termCond y).bound schema sources := by
    rw [termCond, Cond.bound, Cond.bound, Cond.bound, hp, hi, Expr.bound]
    rfl
  induction xs generalizing x with
  | nil => exact term x
  | cons y ys ih =>
    rw [alternatives, Cond.bound, term, ih]
    rfl

end

end ArrowheadCore.Authorization.Providers
