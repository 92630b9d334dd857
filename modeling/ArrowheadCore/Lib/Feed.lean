import Mathlib.Tactic.Common
import Mathlib.Data.List.TakeWhile

/-!
# Machines fed one symbol at a time

A machine is a function `step : σ → α → ρ × σ`: it takes one symbol in a state and gives an answer
and a next state. One answer `go` asks for more input, every other answer ends the feeding. `feed`
runs a machine over a list and gives the answer, the symbols that are left and the last state.

The rules come in the order in which a development uses them: how `feed` composes over `++`
(`feed_append_go`, `feed_append_stop`, `feed_proper_prefix`), what holds of every step of a run (`Along`)
or of one of them (`Hits`), the invariant rules, and how runs are put together (`Run`, `Halt`) and taken
apart (`Ends`) piece by piece.
-/

namespace ArrowheadCore.Lib

variable {σ α ρ : Type*} [DecidableEq ρ]

/-- Feed symbols to `step` until it answers something other than `go`. -/
def feed (step : σ → α → ρ × σ) (go : ρ) : σ → List α → ρ × List α × σ
  | s, [] => (go, [], s)
  | s, a :: as =>
    if (step s a).1 = go then feed step go (step s a).2 as
    else ((step s a).1, as, (step s a).2)

variable {step : σ → α → ρ × σ} {go : ρ}

@[simp] lemma feed_nil (s : σ) : feed step go s [] = (go, [], s) := rfl

lemma feed_cons_go {s s' : σ} {a : α} (as : List α) (h : step s a = (go, s')) :
    feed step go s (a :: as) = feed step go s' as := by
  simp [feed, h]

lemma feed_cons_stop {s s' : σ} {a : α} {r : ρ} (as : List α) (h : step s a = (r, s')) (hr : r ≠ go) :
    feed step go s (a :: as) = (r, as, s') := by
  simp [feed, h, hr]

lemma feed_go_rest {s s' : σ} {xs rest : List α} (h : feed step go s xs = (go, rest, s')) :
    rest = [] := by
  induction xs generalizing s with
  | nil => simp only [feed, Prod.mk.injEq] at h; exact h.2.1.symm
  | cons a as ih =>
    by_cases e : (step s a).1 = go
    · simp only [feed, e, if_true] at h
      exact ih h
    · simp only [feed, e, if_false, Prod.mk.injEq] at h
      exact h.1.elim

/-- A run that asks for more continues over what is appended. -/
lemma feed_append_go {s s' : σ} {xs : List α} (ys : List α) (h : feed step go s xs = (go, [], s')) :
    feed step go s (xs ++ ys) = feed step go s' ys := by
  induction xs generalizing s with
  | nil => simp only [feed, Prod.mk.injEq, true_and] at h; subst h; rfl
  | cons a as ih =>
    by_cases e : (step s a).1 = go
    · simp only [List.cons_append, feed, e, if_true] at h ⊢
      exact ih h
    · simp only [feed, e, if_false, Prod.mk.injEq] at h
      exact h.1.elim

/-- A run that has ended leaves what is appended unread. -/
lemma feed_append_stop {s s' : σ} {xs rest : List α} {r : ρ} (ys : List α)
    (h : feed step go s xs = (r, rest, s')) (hr : r ≠ go) :
    feed step go s (xs ++ ys) = (r, rest ++ ys, s') := by
  induction xs generalizing s with
  | nil =>
    simp only [feed, Prod.mk.injEq] at h
    exact absurd h.1.symm hr
  | cons a as ih =>
    by_cases e : (step s a).1 = go
    · simp only [List.cons_append, feed, e, if_true] at h ⊢
      exact ih h
    · simp only [feed, e, if_false, Prod.mk.injEq, List.cons_append] at h ⊢
      obtain ⟨h1, h2, h3⟩ := h
      exact ⟨h1, by rw [h2], h3⟩

/-- A run that ends exactly with its input asks for more on every proper prefix of it. -/
lemma feed_proper_prefix {s s' : σ} {xs ys : List α} {r : ρ}
    (h : feed step go s (xs ++ ys) = (r, [], s')) (hr : r ≠ go) (hy : ys ≠ []) :
    ∃ s1, feed step go s xs = (go, [], s1) := by
  rcases e : feed step go s xs with ⟨r1, rest, s1⟩
  by_cases h1 : r1 = go
  · subst h1
    have := feed_go_rest e
    subst this
    exact ⟨s1, rfl⟩
  · rw [feed_append_stop ys e h1] at h
    simp only [Prod.mk.injEq, List.append_eq_nil_iff] at h
    exact absurd h.2.1.2 hy

/-- A run that ends does so with one last step, taken where the run so far asked for more. -/
lemma feed_last {s s' : σ} {xs rest : List α} {r : ρ} (h : feed step go s xs = (r, rest, s'))
    (hr : r ≠ go) :
    ∃ ys a s1, xs = ys ++ a :: rest ∧ feed step go s ys = (go, [], s1) ∧ step s1 a = (r, s') := by
  induction xs generalizing s with
  | nil =>
    simp only [feed, Prod.mk.injEq] at h
    exact absurd h.1.symm hr
  | cons a as ih =>
    by_cases e : (step s a).1 = go
    · simp only [feed, e, if_true] at h
      obtain ⟨ys, b, s1, rfl, hf, hs⟩ := ih h
      refine ⟨a :: ys, b, s1, rfl, ?_, hs⟩
      rw [feed_cons_go ys (Prod.ext e rfl)]
      exact hf
    · simp only [feed, e, if_false, Prod.mk.injEq] at h
      obtain ⟨h1, rfl, h3⟩ := h
      exact ⟨[], a, s, rfl, rfl, Prod.ext h1 h3⟩

/-! ## What holds along a run -/

/-- `P` holds of the state and the symbol of every step that feeding the list takes. -/
def Along (step : σ → α → ρ × σ) (go : ρ) (P : σ → α → Prop) : σ → List α → Prop
  | _, [] => True
  | s, a :: as => P s a ∧ ((step s a).1 = go → Along step go P (step s a).2 as)

instance Along.decidable {P : σ → α → Prop} [∀ s a, Decidable (P s a)] :
    ∀ (s : σ) (xs : List α), Decidable (Along step go P s xs)
  | _, [] => .isTrue trivial
  | s, a :: as =>
    have := Along.decidable (P := P) (step s a).2 as
    inferInstanceAs (Decidable (P s a ∧ ((step s a).1 = go → Along step go P (step s a).2 as)))

/-- Along a run that asks for more, a property splits over `++`. -/
lemma along_append_go {P : σ → α → Prop} {s s' : σ} {xs : List α} (ys : List α)
    (h : feed step go s xs = (go, [], s')) :
    Along step go P s (xs ++ ys) ↔ Along step go P s xs ∧ Along step go P s' ys := by
  induction xs generalizing s with
  | nil =>
    simp only [feed, Prod.mk.injEq, true_and] at h
    subst h
    simp [Along]
  | cons a as ih =>
    by_cases e : (step s a).1 = go
    · simp only [feed, e, if_true] at h
      simp only [List.cons_append, Along, e, forall_const, ih h, and_assoc]
    · simp only [feed, e, if_false, Prod.mk.injEq] at h
      exact h.1.elim

/-- A property holds along a run iff it holds of every step that the run reaches. -/
lemma along_iff {P : σ → α → Prop} {s : σ} {xs : List α} :
    Along step go P s xs ↔
      ∀ ys a zs s', xs = ys ++ a :: zs → feed step go s ys = (go, [], s') → P s' a := by
  constructor
  · rintro h ys a zs s' rfl e
    exact ((along_append_go (a :: zs) e).1 h).2.1
  · intro h
    induction xs generalizing s with
    | nil => trivial
    | cons a as ih =>
      refine ⟨h [] a as s rfl rfl, fun e => ih ?_⟩
      rintro ys b zs s' rfl hf
      refine h (a :: ys) b zs s' rfl ?_
      rw [feed_cons_go ys (Prod.ext e rfl)]
      exact hf

/-- The run takes a step with the property `P`. -/
def Hits (step : σ → α → ρ × σ) (go : ρ) (P : σ → α → Prop) (s : σ) (xs : List α) : Prop :=
  ∃ ys a zs s', xs = ys ++ a :: zs ∧ feed step go s ys = (go, [], s') ∧ P s' a

@[simp] lemma not_hits_nil {P : σ → α → Prop} {s : σ} : ¬Hits step go P s [] := by
  rintro ⟨ys, a, zs, s', e, -⟩
  cases ys <;> cases e

lemma hits_cons {P : σ → α → Prop} {s : σ} {a : α} {as : List α} :
    Hits step go P s (a :: as) ↔
      P s a ∨ (step s a).1 = go ∧ Hits step go P (step s a).2 as := by
  constructor
  · rintro ⟨ys, b, zs, s', e, hf, hp⟩
    cases ys with
    | nil =>
      cases e
      simp only [feed, Prod.mk.injEq, true_and] at hf
      subst hf
      exact .inl hp
    | cons y ys =>
      cases e
      by_cases h : (step s a).1 = go
      · simp only [feed, h, if_true] at hf
        exact .inr ⟨h, ys, b, zs, s', rfl, hf, hp⟩
      · simp only [feed, h, if_false, Prod.mk.injEq] at hf
        exact hf.1.elim
  · rintro (hp | ⟨h, ys, b, zs, s', rfl, hf, hp⟩)
    · exact ⟨[], a, as, s, rfl, rfl, hp⟩
    · refine ⟨a :: ys, b, zs, s', rfl, ?_, hp⟩
      rw [feed_cons_go ys (Prod.ext h rfl)]
      exact hf

/-- Invariant rule over what was read: what every step keeps holds in the last state of every run. -/
lemma feed_inv_read {I : List α → σ → Prop}
    (keep : ∀ ys s a, I ys s → (step s a).1 = go → I (ys ++ [a]) (step s a).2)
    {s s' : σ} {xs : List α} (hs : I [] s) (h : feed step go s xs = (go, [], s')) : I xs s' := by
  suffices H : ∀ zs ys s, I ys s → feed step go s zs = (go, [], s') → I (ys ++ zs) s' from
    H xs [] s hs h
  intro zs
  induction zs with
  | nil =>
    intro ys s hs h
    simp only [feed, Prod.mk.injEq, true_and] at h
    rw [List.append_nil, ← h]
    exact hs
  | cons a zs ih =>
    intro ys s hs h
    by_cases e : (step s a).1 = go
    · simp only [feed, e, if_true] at h
      have := ih (ys ++ [a]) _ (keep ys s a hs e) h
      rwa [List.append_assoc, List.singleton_append] at this
    · simp only [feed, e, if_false, Prod.mk.injEq] at h
      exact h.1.elim

/-- Invariant rule: what every step keeps holds in the last state of every run. -/
lemma feed_inv {I : σ → Prop} (keep : ∀ s a, I s → (step s a).1 = go → I (step s a).2)
    {s s' : σ} {xs : List α} (hs : I s) (h : feed step go s xs = (go, [], s')) : I s' :=
  feed_inv_read (I := fun _ => I) (fun _ => keep) hs h

/-- Invariant rule with the last step: what every step keeps, whatever it answers, holds in the end. -/
lemma feed_inv_last {I : σ → Prop} (keep : ∀ s a, I s → I (step s a).2) {s : σ} (xs : List α) (hs : I s) :
    I (feed step go s xs).2.2 := by
  induction xs generalizing s with
  | nil => exact hs
  | cons a as ih =>
    by_cases e : (step s a).1 = go
    · simp only [feed, e, if_true]
      exact ih (keep s a hs)
    · simp only [feed, e, if_false]
      exact keep s a hs

/-! ## Runs in pieces

`Run` packs the two things a composed argument carries from piece to piece: where the run stands, and that
each of its steps had the property `P`. -/

/-- Feeding `xs` from `s` asks for more in `s'`, and `P` holds along the way. -/
structure Run (step : σ → α → ρ × σ) (go : ρ) (P : σ → α → Prop) (s : σ) (xs : List α) (s' : σ) :
    Prop where
  feed_eq : feed step go s xs = (go, [], s')
  along : Along step go P s xs

variable {P : σ → α → Prop}

lemma Run.nil (s : σ) : Run step go P s [] s := ⟨rfl, trivial⟩

lemma Run.one {s s' : σ} {a : α} (h : step s a = (go, s')) (hp : P s a) : Run step go P s [a] s' :=
  ⟨by rw [feed_cons_go [] h]; rfl, hp, fun _ => trivial⟩

lemma Run.append {s s1 s2 : σ} {xs ys : List α} (h1 : Run step go P s xs s1)
    (h2 : Run step go P s1 ys s2) : Run step go P s (xs ++ ys) s2 where
  feed_eq := by rw [feed_append_go ys h1.feed_eq]; exact h2.feed_eq
  along := (along_append_go ys h1.feed_eq).2 ⟨h1.along, h2.along⟩

lemma Run.cons {s s1 s2 : σ} {a : α} {xs : List α} (h : step s a = (go, s1)) (hp : P s a)
    (h2 : Run step go P s1 xs s2) : Run step go P s (a :: xs) s2 :=
  (Run.one h hp).append h2

/-- A loop that collects its input: `f ys` is the state after `ys`. -/
lemma Run.collect {f : List α → σ} {xs : List α}
    (h : ∀ ys a zs, xs = ys ++ a :: zs → step (f ys) a = (go, f (ys ++ [a])) ∧ P (f ys) a) :
    Run step go P (f []) xs (f xs) := by
  suffices H : ∀ ys zs, xs = ys ++ zs → Run step go P (f ys) zs (f xs) from H [] xs rfl
  intro ys zs e
  induction zs generalizing ys with
  | nil =>
    rw [List.append_nil] at e
    subst e
    exact .nil _
  | cons a zs ih =>
    obtain ⟨h1, h2⟩ := h ys a zs e
    exact .cons h1 h2 (ih (ys ++ [a]) (by simp [e]))

/-- Feeding from `s` ends with the last symbol of `xs`, whatever follows, and `P` holds along the way. -/
structure Halt (step : σ → α → ρ × σ) (go : ρ) (P : σ → α → Prop) (s : σ) (xs : List α) (r : ρ) (s' : σ) :
    Prop where
  feed_eq : ∀ rest, feed step go s (xs ++ rest) = (r, rest, s')
  along : ∀ rest, Along step go P s (xs ++ rest)

lemma Halt.one {s s' : σ} {a : α} {r : ρ} (h : step s a = (r, s')) (hr : r ≠ go) (hp : P s a) :
    Halt step go P s [a] r s' where
  feed_eq rest := feed_cons_stop rest h hr
  along rest := ⟨hp, fun e => absurd (by rw [h] at e; exact e) hr⟩

lemma Run.halt {s s1 s2 : σ} {r : ρ} {xs ys : List α} (h1 : Run step go P s xs s1)
    (h2 : Halt step go P s1 ys r s2) : Halt step go P s (xs ++ ys) r s2 where
  feed_eq rest := by rw [List.append_assoc, feed_append_go _ h1.feed_eq]; exact h2.feed_eq rest
  along rest := by
    rw [List.append_assoc]
    exact (along_append_go _ h1.feed_eq).2 ⟨h1.along, h2.along rest⟩

/-! ## Runs backwards

`Ends` says that feeding ends with the answer `r`, and that `P` holds along the way. Its rules take a run
apart in the order in which `Run` and `Halt` put one together. -/

/-- Feeding `xs` from `s` ends with `r` and leaves `rest`. -/
structure Ends (step : σ → α → ρ × σ) (go : ρ) (P : σ → α → Prop) (s : σ) (xs : List α) (r : ρ)
    (rest : List α) (s' : σ) : Prop where
  feed_eq : feed step go s xs = (r, rest, s')
  along : Along step go P s xs

/-- A run that ends takes a step: it goes on, or it ends right there. -/
lemma Ends.uncons {s s' : σ} {xs rest : List α} {r : ρ} (h : Ends step go P s xs r rest s') (hr : r ≠ go) :
    ∃ a zs, xs = a :: zs ∧ P s a ∧
      ((step s a).1 = go ∧ Ends step go P (step s a).2 zs r rest s' ∨
        step s a = (r, s') ∧ zs = rest) := by
  obtain ⟨hf, ha⟩ := h
  cases xs with
  | nil =>
    simp only [feed, Prod.mk.injEq] at hf
    exact absurd hf.1.symm hr
  | cons a zs =>
    obtain ⟨hp, hz⟩ := ha
    refine ⟨a, zs, rfl, hp, ?_⟩
    by_cases e : (step s a).1 = go
    · simp only [feed, e, if_true] at hf
      exact .inl ⟨e, hf, hz e⟩
    · simp only [feed, e, if_false, Prod.mk.injEq] at hf
      obtain ⟨h1, h2, h3⟩ := hf
      exact .inr ⟨Prod.ext h1 h3, h2⟩

/-- A run that ends has left a collecting loop, with a symbol outside `C`. Inside the loop a step goes on
    and keeps `I`, or has an answer other than the last one. -/
lemma Ends.span {f : List α → σ} {C : α → Bool} {I : List α → Prop} {xs rest : List α} {r : ρ} {s' : σ}
    (h : Ends step go P (f []) xs r rest s') (hr : r ≠ go) (h0 : I [])
    (loop : ∀ ys a, I ys → C a →
      step (f ys) a = (go, f (ys ++ [a])) ∧ I (ys ++ [a]) ∨
        (step (f ys) a).1 ≠ go ∧ (step (f ys) a).1 ≠ r) :
    ∃ ys a zs, xs = ys ++ a :: zs ∧ (∀ b ∈ ys, C b) ∧ I ys ∧ C a = false ∧
      Ends step go P (f ys) (a :: zs) r rest s' := by
  -- `ys` is what the loop has collected, `zs` what is still to come
  suffices H : ∀ zs ys, I ys → (∀ b ∈ ys, C b) → Ends step go P (f ys) zs r rest s' →
      ∃ ws a vs, ys ++ zs = ws ++ a :: vs ∧ (∀ b ∈ ws, C b) ∧ I ws ∧ C a = false ∧
        Ends step go P (f ws) (a :: vs) r rest s' from H xs [] h0 (by simp) h
  intro zs
  induction zs with
  | nil =>
    intro ys _ _ he
    obtain ⟨a, zs, e, -⟩ := he.uncons hr
    cases e
  | cons a zs ih =>
    intro ys hi hc he
    cases ha : C a with
    | false => exact ⟨ys, a, zs, rfl, hc, hi, ha, he⟩
    | true =>
      obtain ⟨_, _, e, hp, ⟨hgo, hz⟩ | ⟨hstop, -⟩⟩ := he.uncons hr
      · cases e
        obtain ⟨hs, hi'⟩ | ⟨hne, -⟩ := loop ys a hi ha
        · rw [hs] at hz
          have hc' : ∀ b ∈ ys ++ [a], C b := by
            intro b hb
            obtain hb | hb := List.mem_append.1 hb
            · exact hc b hb
            · rw [List.mem_singleton.1 hb]
              exact ha
          have := ih (ys ++ [a]) hi' hc' hz
          rwa [List.append_assoc, List.singleton_append] at this
        · exact absurd hgo hne
      · cases e
        obtain ⟨hs, -⟩ | ⟨-, hne⟩ := loop ys a hi ha
        · rw [hs] at hstop
          exact absurd (Prod.ext_iff.1 hstop).1.symm hr
        · exact absurd (by rw [hstop]) hne

end ArrowheadCore.Lib
