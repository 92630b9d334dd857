import Mathlib.Tactic.Common

/-!
# Runs of labelled transition systems

A system is a relation `step : σ → ℓ → σ → Prop`; the label says what is done. `Trace step s ls t` is a run
from `s` to `t` whose labels, in order, are `ls`. A trace grows at its end, so that its induction is the
invariant rule.
-/

namespace ArrowheadCore.Lib

variable {σ ℓ : Type*}

/-- From `s` the labels `ls` lead to the last argument. -/
inductive Trace (step : σ → ℓ → σ → Prop) (s : σ) : List ℓ → σ → Prop where
  | nil : Trace step s [] s
  | snoc {ls t l u} : Trace step s ls t → step t l u → Trace step s (ls ++ [l]) u

variable {step : σ → ℓ → σ → Prop} {s t : σ} {ls : List ℓ}

/-- Invariant rule: what holds at the start and is kept by every step holds at the end of every run. -/
lemma Trace.inv {I : σ → Prop} (h : Trace step s ls t) (start : I s)
    (keep : ∀ {t l u}, I t → step t l u → I u) : I t := by
  induction h with
  | nil => exact start
  | snoc _ hs ih => exact keep ih hs

/-- Invariant rule for what depends on the labels so far. -/
lemma Trace.inv_labels {I : List ℓ → σ → Prop} (h : Trace step s ls t) (start : I [] s)
    (keep : ∀ {ls t l u}, I ls t → step t l u → I (ls ++ [l]) u) : I ls t := by
  induction h with
  | nil => exact start
  | snoc _ hs ih => exact keep ih hs

end ArrowheadCore.Lib
