import Mathlib.Control.Monad.Writer

/-!
# Computations that are traced

A computation that ends with a result or an exception and has noted something on its way, or does not end. It is one without
the notes, and what is said of its notes is said of its steps.
-/

namespace ArrowheadCore.Lib

/-- `ε` are the exceptions and `κ` the notes; `none` is a computation that does not end. -/
abbrev Traced (ε κ : Type) : Type → Type := ExceptT ε (WriterT (List κ) Option)

namespace Traced
variable {ε κ α β : Type}

/-- The result and the notes. -/
def results (m : Traced ε κ α) : Option (Except ε α × List κ) := m

/-- The result without the notes. -/
def outcome (m : Traced ε κ α) : Option (Except ε α) := m.results.map Prod.fst

def note (k : κ) : Traced ε κ Unit := (some (.ok (), [k]) : Option (Except ε Unit × List κ))

/-- A computation that notes nothing. -/
def silent (x : Except ε α) : Traced ε κ α := (some (x, []) : Option (Except ε α × List κ))

def diverge : Traced ε κ α := (none : Option (Except ε α × List κ))

/-- A computation that notes these, if it comes to its end. -/
def noting (ks : List κ) (x : Option α) : Traced ε κ α := x.map fun a => (Except.ok a, ks)

lemma results_bind (m : Traced ε κ α) (f : α → Traced ε κ β) : (m >>= f).results = m.results.bind fun r =>
    match r.1 with
    | .ok a => (f a).results.map fun s => (s.1, r.2 ++ s.2)
    | .error e => some (.error e, r.2) := by
  match m with
  | none => rfl
  | some (.ok a, es) => rfl
  | some (.error e, es) =>
    show some (Except.error e, es ++ []) = some (.error e, es)
    rw [List.append_nil]

/-! ## Without the notes -/

@[simp] lemma outcome_pure (a : α) : (pure a : Traced ε κ α).outcome = some (.ok a) := rfl

@[simp] lemma outcome_note (k : κ) : (note k : Traced ε κ Unit).outcome = some (.ok ()) := rfl

@[simp] lemma outcome_silent (x : Except ε α) : (silent x : Traced ε κ α).outcome = some x := rfl

@[simp] lemma outcome_diverge : (diverge : Traced ε κ α).outcome = none := rfl

@[simp] lemma outcome_noting (ks : List κ) (x : Option α) : (noting ks x : Traced ε κ α).outcome = x.map .ok := by
  cases x <;> rfl

@[simp] lemma outcome_bind (m : Traced ε κ α) (f : α → Traced ε κ β) : (m >>= f).outcome = m.outcome.bind fun r =>
    match r with
    | .ok a => (f a).outcome
    | .error e => some (.error e) := by
  rw [outcome, results_bind, outcome]
  match m.results with
  | none => rfl
  | some (.ok a, es) => simp [outcome, Function.comp_def]
  | some (.error e, es) => rfl

lemma outcome_ite (c : Prop) [Decidable c] (m n : Traced ε κ α) :
    (if c then m else n).outcome = if c then m.outcome else n.outcome := apply_ite outcome c m n

/-! ## Notes -/

/-- The computation ends, a result is as `P` says, and so is what is noted as `E` says. -/
def Ends (E : κ → Prop) (m : Traced ε κ α) (P : α → Prop) : Prop :=
  ∃ r es, m.results = some (r, es) ∧ (∀ a, r = .ok a → P a) ∧ ∀ k ∈ es, E k

variable {E : κ → Prop} {P : α → Prop} {Q : β → Prop}

lemma Ends.pure {a : α} (h : P a) : Ends E (pure a : Traced ε κ α) P :=
  ⟨.ok a, [], rfl, fun _ e => Except.ok.inj e ▸ h, by simp⟩

lemma Ends.note {k : κ} (h : E k) : Ends E (note k : Traced ε κ Unit) fun _ => True :=
  ⟨.ok (), [k], rfl, fun _ _ => trivial, by simpa using h⟩

lemma Ends.silent {x : Except ε α} (h : ∀ a, x = .ok a → P a) : Ends E (silent x : Traced ε κ α) P :=
  ⟨x, [], rfl, h, by simp⟩

lemma Ends.noting {ks : List κ} {a : α} (h : P a) (hE : ∀ k ∈ ks, E k) : Ends E (noting ks (some a) : Traced ε κ α) P :=
  ⟨.ok a, ks, rfl, fun _ e => Except.ok.inj e ▸ h, hE⟩

lemma Ends.bind {m : Traced ε κ α} {f : α → Traced ε κ β} (hm : Ends E m P) (hf : ∀ a, P a → Ends E (f a) Q) :
    Ends E (m >>= f) Q := by
  obtain ⟨r, es, hr, hp, he⟩ := hm
  unfold Ends
  rw [results_bind, hr, Option.bind_some]
  cases r with
  | error x => exact ⟨.error x, es, rfl, nofun, he⟩
  | ok a =>
    obtain ⟨s, fs, hs, hq, hf⟩ := hf a (hp a rfl)
    refine ⟨s, es ++ fs, ?_, hq, List.forall_mem_append.2 ⟨he, hf⟩⟩
    simp [hs]

lemma Ends.ite {c : Prop} [Decidable c] {m n : Traced ε κ α} (hm : c → Ends E m P) (hn : ¬c → Ends E n P) :
    Ends E (if c then m else n) P := by
  split
  next h => exact hm h
  next h => exact hn h

lemma Ends.imp {m : Traced ε κ α} {P' : α → Prop} (h : Ends E m P) (hp : ∀ a, P a → P' a) : Ends E m P' := by
  obtain ⟨r, es, hr, p, he⟩ := h
  exact ⟨r, es, hr, fun a e => hp a (p a e), he⟩

lemma Ends.mono {m : Traced ε κ α} {E' : κ → Prop} (h : Ends E m P) (hE : ∀ k, E k → E' k) : Ends E' m P := by
  obtain ⟨r, es, hr, p, he⟩ := h
  exact ⟨r, es, hr, p, fun k hk => hE k (he k hk)⟩

/-- What ends has an outcome. -/
lemma Ends.outcome {m : Traced ε κ α} (h : Ends E m P) : ∃ r, m.outcome = some r ∧ ∀ a, r = .ok a → P a := by
  obtain ⟨r, es, hr, p, -⟩ := h
  exact ⟨r, by rw [Traced.outcome, hr]; rfl, p⟩

/-! ## Whether or not it ends -/

/-- If the computation ends, a result is as `P` says, and so is what is noted as `E` says. -/
def Keeps (E : κ → Prop) (m : Traced ε κ α) (P : α → Prop) : Prop :=
  ∀ r es, m.results = some (r, es) → (∀ a, r = .ok a → P a) ∧ ∀ k ∈ es, E k

/-- If the computation ends, it has noted something as `E` says. -/
def Meets (E : κ → Prop) (m : Traced ε κ α) : Prop := ∀ r es, m.results = some (r, es) → ∃ k ∈ es, E k

lemma outcome_eq_some {m : Traced ε κ α} {r : Except ε α} (h : m.outcome = some r) : ∃ es, m.results = some (r, es) := by
  obtain ⟨⟨r', es⟩, e, rfl⟩ := Option.map_eq_some_iff.1 h
  exact ⟨es, e⟩

lemma Keeps.pure {a : α} (h : P a) : Keeps E (pure a : Traced ε κ α) P := by
  rintro r es e
  cases e
  exact ⟨fun _ e => Except.ok.inj e ▸ h, by simp⟩

lemma Keeps.note {k : κ} (h : E k) : Keeps E (note k : Traced ε κ Unit) fun _ => True := by
  rintro r es e
  cases e
  exact ⟨fun _ _ => trivial, by simpa using h⟩

lemma Keeps.silent {x : Except ε α} (h : ∀ a, x = .ok a → P a) : Keeps E (silent x : Traced ε κ α) P := by
  rintro r es e
  cases e
  exact ⟨h, by simp⟩

lemma Keeps.diverge : Keeps E (diverge : Traced ε κ α) P := by
  rintro r es e
  cases e

lemma Keeps.noting {ks : List κ} {x : Option α} (h : ∀ a, x = some a → P a ∧ ∀ k ∈ ks, E k) :
    Keeps E (noting ks x : Traced ε κ α) P := by
  rintro r es e
  obtain ⟨a, rfl, e⟩ := Option.map_eq_some_iff.1 e
  cases e
  exact ⟨fun b e => Except.ok.inj e ▸ (h a rfl).1, (h a rfl).2⟩

lemma Keeps.bind {m : Traced ε κ α} {f : α → Traced ε κ β} (hm : Keeps E m P) (hf : ∀ a, P a → Keeps E (f a) Q) :
    Keeps E (m >>= f) Q := by
  rintro r es e
  rw [results_bind, Option.bind_eq_some_iff] at e
  obtain ⟨⟨x, xs⟩, hx, e⟩ := e
  obtain ⟨hp, he⟩ := hm x xs hx
  cases x with
  | error x =>
    cases e
    exact ⟨nofun, he⟩
  | ok a =>
    obtain ⟨⟨y, ys⟩, hy, e⟩ := Option.map_eq_some_iff.1 e
    cases e
    obtain ⟨hq, hf⟩ := hf a (hp a rfl) y ys hy
    exact ⟨hq, List.forall_mem_append.2 ⟨he, hf⟩⟩

lemma Keeps.ite {c : Prop} [Decidable c] {m n : Traced ε κ α} (hm : c → Keeps E m P) (hn : ¬c → Keeps E n P) :
    Keeps E (if c then m else n) P := by
  split
  next h => exact hm h
  next h => exact hn h

lemma Keeps.imp {m : Traced ε κ α} {E' : κ → Prop} {P' : α → Prop} (h : Keeps E m P) (hE : ∀ k, E k → E' k)
    (hP : ∀ a, P a → P' a) : Keeps E' m P' := fun r es e =>
  ⟨fun a ha => hP a ((h r es e).1 a ha), fun k hk => hE k ((h r es e).2 k hk)⟩

/-- A result is the outcome. -/
lemma Keeps.outcome {m : Traced ε κ α} (h : Keeps E m P) : Keeps E m fun a => P a ∧ m.outcome = some (.ok a) := by
  rintro r es e
  refine ⟨?_, (h r es e).2⟩
  rintro a rfl
  exact ⟨(h _ es e).1 a rfl, by rw [Traced.outcome, e]; rfl⟩

lemma Keeps.ends {m : Traced ε κ α} (h : Keeps E m P) {r : Except ε α} (ends : m.outcome = some r) : Ends E m P := by
  obtain ⟨es, e⟩ := outcome_eq_some ends
  exact ⟨r, es, e, (h r es e).1, (h r es e).2⟩

lemma Ends.keeps {m : Traced ε κ α} (h : Ends E m P) : Keeps E m P := by
  rintro r es e
  obtain ⟨r', es', e', p, he⟩ := h
  rw [e] at e'
  cases e'
  exact ⟨p, he⟩

lemma Meets.note {k : κ} (h : E k) : Meets E (note k : Traced ε κ Unit) := by
  rintro r es e
  cases e
  exact ⟨k, List.mem_singleton_self k, h⟩

lemma Meets.noting {ks : List κ} {k : κ} (mem : k ∈ ks) (h : E k) (x : Option α) : Meets E (noting ks x : Traced ε κ α) := by
  rintro r es e
  obtain ⟨a, rfl, e⟩ := Option.map_eq_some_iff.1 e
  cases e
  exact ⟨k, mem, h⟩

/-- What is met at first is met. -/
lemma Meets.first {m : Traced ε κ α} (h : Meets E m) (f : α → Traced ε κ β) : Meets E (m >>= f) := by
  rintro r es e
  rw [results_bind, Option.bind_eq_some_iff] at e
  obtain ⟨⟨x, xs⟩, hx, e⟩ := e
  obtain ⟨k, hk, he⟩ := h x xs hx
  cases x with
  | error x =>
    cases e
    exact ⟨k, hk, he⟩
  | ok a =>
    obtain ⟨⟨y, ys⟩, -, e⟩ := Option.map_eq_some_iff.1 e
    cases e
    exact ⟨k, List.mem_append_left _ hk, he⟩

/-- What is met behind a result is met. -/
lemma Meets.after {m : Traced ε κ α} {f : α → Traced ε κ β} {a : α} (hm : m.outcome = some (.ok a)) (h : Meets E (f a)) :
    Meets E (m >>= f) := by
  rintro r es e
  obtain ⟨xs, hx⟩ := outcome_eq_some hm
  rw [results_bind, hx] at e
  obtain ⟨⟨y, ys⟩, hy, e⟩ := Option.map_eq_some_iff.1 e
  cases e
  obtain ⟨k, hk, he⟩ := h y ys hy
  exact ⟨k, List.mem_append_right _ hk, he⟩

end Traced

end ArrowheadCore.Lib
