import Mathlib.Tactic.Common
import Mathlib.Data.List.Basic
import Mathlib.Data.List.Perm.Subperm

/-!
# Lists of nodes in a heap

Nodes refer to each other by their addresses, which are positions in the heap. A list that grows at its end is kept as a
ring: all there is of it is a pointer to its last node, and that one refers to the first. `insertAfter` puts a node
behind the last one, `cut` opens the ring, and `Listed` says what the list holds then.
-/

namespace ArrowheadCore.Lib.Ring

structure Node (α : Type) where
  val : α
  next : Option Nat
deriving DecidableEq, Repr

abbrev Heap (α : Type) := List (Node α)

section
variable {α β : Type}

def setNext (h : Heap α) (i : Nat) (p : Option Nat) : Heap α := h.modify i fun n => { n with next := p }

/-- Behind the last node, which is the only one if there is none yet. -/
def insertAfter (h : Heap α) (tail : Option Nat) (node : Nat) : Option (Heap α) :=
  match tail with
  | none => some (setNext h node (some node))
  | some t => do
    let last ← h[t]?
    return setNext (setNext h node last.next) t (some node)

/-- The pointer to the first node, which the last one no longer refers to. -/
def cut (h : Heap α) (tail : Option Nat) : Option (Option Nat × Heap α) :=
  match tail with
  | none => some (none, h)
  | some t => do
    let last ← h[t]?
    return (last.next, setNext h t none)

/-- Go from node to node to the first one that passes a test; `none` if an address or a test is not valid. -/
def search (test : α → Option Bool) : Nat → Heap α → Option Nat → Option (Option α)
  | 0, _, _ => none
  | _ + 1, _, none => some none
  | n + 1, h, some i => do
    let node ← h[i]?
    if ← test node.val then return some node.val
    search test n h node.next

/-- The pointer to the node that is `n` nodes on. -/
def advance (h : Heap α) : Nat → Option Nat → Option (Option Nat)
  | _, none => some none
  | 0, some i => some (some i)
  | n + 1, some i => do
    let node ← h[i]?
    advance h n node.next

/-- The pointer leads over these nodes to the other pointer. -/
inductive Path (h : Heap α) : Option Nat → List Nat → Option Nat → Prop
  | nil (p : Option Nat) : Path h p [] p
  | cons {i : Nat} {n : Node α} {xs : List Nat} {q : Option Nat} : h[i]? = some n → Path h n.next xs q →
    Path h (some i) (i :: xs) q

/-- The pointer to the last node of a ring. -/
structure IsRing (h : Heap α) (tail : Option Nat) (xs : List Nat) : Prop where
  last : tail = xs.getLast?
  path : Path h xs.head? xs xs.head?

/-- Nothing but these nodes has changed, and of these their successors only. -/
structure Relinked (xs : List Nat) (h h' : Heap α) : Prop where
  length : h'.length = h.length
  val : ∀ i : Nat, (h'[i]?).map Node.val = (h[i]?).map Node.val
  frame : ∀ i : Nat, i ∉ xs → h'[i]? = h[i]?

variable {h h' h'' : Heap α} {xs ys : List Nat} {p q r tail : Option Nat} {i t : Nat} {n : Node α}

/-! ## Changing a successor -/

lemma setNext_length (h : Heap α) (i : Nat) (p : Option Nat) : (setNext h i p).length = h.length := List.length_modify _ _ _

lemma setNext_get (h : Heap α) (i j : Nat) (p : Option Nat) :
    (setNext h i p)[j]? = if i = j then (h[j]?).map fun n => { n with next := p } else h[j]? := by
  rw [setNext, List.getElem?_modify]
  split
  · rfl
  · simp

lemma setNext_same (e : h[i]? = some n) (p : Option Nat) : (setNext h i p)[i]? = some { n with next := p } := by
  rw [setNext_get, if_pos rfl, e, Option.map_some]

lemma setNext_relinked (h : Heap α) (i : Nat) (p : Option Nat) : Relinked [i] h (setNext h i p) where
  length := setNext_length h i p
  val := by
    intro j
    rw [setNext_get]
    split
    · rw [Option.map_map]
      rfl
    · rfl
  frame := by
    intro j hj
    rw [setNext_get, if_neg fun e => hj (by simp [e])]

lemma Relinked.refl (h : Heap α) : Relinked [] h h := ⟨rfl, fun _ => rfl, fun _ _ => rfl⟩

lemma Relinked.trans (h1 : Relinked xs h h') (h2 : Relinked ys h' h'') : Relinked (xs ++ ys) h h'' where
  length := h2.length.trans h1.length
  val i := (h2.val i).trans (h1.val i)
  frame i hi := by
    rw [List.mem_append, not_or] at hi
    exact (h2.frame i hi.2).trans (h1.frame i hi.1)

lemma Relinked.mono (h1 : Relinked xs h h') (sub : xs ⊆ ys) : Relinked ys h h' :=
  ⟨h1.length, h1.val, fun i hi => h1.frame i fun hx => hi (sub hx)⟩

/-- What a node holds, it still holds. -/
lemma Relinked.node (h1 : Relinked xs h h') (e : h[i]? = some n) : ∃ n', h'[i]? = some n' ∧ n'.val = n.val := by
  have := h1.val i
  rw [e, Option.map_some, Option.map_eq_some_iff] at this
  exact this

/-! ## Paths -/

lemma Path.end (h1 : Path h p [] q) : p = q := by
  generalize e : ([] : List Nat) = xs at h1
  cases h1 with
  | nil => rfl
  | cons => cases e

lemma Path.append (h1 : Path h p xs q) (h2 : Path h q ys r) : Path h p (xs ++ ys) r := by
  induction h1 with
  | nil => exact h2
  | cons e _ ih => exact .cons e (ih h2)

lemma Path.split (h1 : Path h p (xs ++ ys) r) : ∃ q, Path h p xs q ∧ Path h q ys r := by
  induction xs generalizing p with
  | nil => exact ⟨p, .nil p, h1⟩
  | cons x xs ih =>
    cases h1 with
    | cons e tail =>
      obtain ⟨q, h2, h3⟩ := ih tail
      exact ⟨q, .cons e h2, h3⟩

/-- A path goes on to lead there while its nodes stay as they are. -/
lemma Path.agree (h1 : Path h p xs q) (same : ∀ i ∈ xs, h'[i]? = h[i]?) : Path h' p xs q := by
  induction h1 with
  | nil p => exact .nil p
  | cons e _ ih => exact .cons ((same _ (by simp)).trans e) (ih fun i hi => same i (by simp [hi]))

lemma Path.lt (h1 : Path h p xs q) : ∀ i ∈ xs, i < h.length := by
  induction h1 with
  | nil => simp
  | cons e _ ih =>
    rw [List.forall_mem_cons]
    exact ⟨(List.getElem?_eq_some_iff.1 e).1, ih⟩

lemma Path.head (h1 : Path h p xs q) (ne : xs ≠ []) : p = xs.head? := by
  cases h1 with
  | nil => exact absurd rfl ne
  | cons => rfl

/-! ## Rings -/

lemma IsRing.empty (h : Heap α) : IsRing h none [] := ⟨rfl, .nil none⟩

lemma IsRing.agree (h1 : IsRing h tail xs) (same : ∀ i ∈ xs, h'[i]? = h[i]?) : IsRing h' tail xs :=
  ⟨h1.last, h1.path.agree same⟩

/-- The last node of a ring refers to its first one, and the others lead there. -/
lemma IsRing.concat (h1 : IsRing h tail (ys ++ [t])) : tail = some t ∧ ∃ n, h[t]? = some n ∧
    n.next = (ys ++ [t]).head? ∧ Path h (ys ++ [t]).head? ys (some t) := by
  obtain ⟨last, path⟩ := h1
  obtain ⟨q, path1, path2⟩ := path.split
  cases path2 with
  | cons e rest => exact ⟨by simpa using last, _, e, rest.end, path1⟩

/-- The new node has become the last one. -/
lemma IsRing.insertAfter (h1 : IsRing h tail xs) (distinct : (i :: xs).Nodup) (hi : i < h.length) :
    ∃ h', insertAfter h tail i = some h' ∧ IsRing h' (some i) (xs ++ [i]) ∧ Relinked (xs ++ [i]) h h' := by
  have e : h[i]? = some h[i] := List.getElem?_eq_getElem hi
  rcases List.eq_nil_or_concat xs with rfl | ⟨ys, t, rfl⟩
  · obtain rfl : tail = none := h1.last
    refine ⟨setNext h i (some i), rfl, ⟨rfl, .cons (setNext_same e _) (.nil _)⟩, setNext_relinked h i _⟩
  · rw [List.concat_eq_append] at h1 distinct ⊢
    obtain ⟨rfl, n, et, next, path⟩ := h1.concat
    have outside : i ∉ ys ++ [t] := (List.nodup_cons.1 distinct).1
    have it : i ≠ t := fun same => outside (by simp [same])
    have notIn : t ∉ ys := by
      have := (List.nodup_cons.1 distinct).2
      rw [List.nodup_append] at this
      intro ht
      exact this.2.2 t ht t (by simp) rfl
    set h' := setNext (setNext h i n.next) t (some i) with hh'
    have r1 : Relinked ([i] ++ [t]) h h' := (setNext_relinked h i _).trans (setNext_relinked _ t _)
    have at_i : h'[i]? = some { h[i] with next := n.next } := by
      rw [hh', setNext_get, if_neg (Ne.symm it), setNext_same e]
    have at_t : h'[t]? = some { n with next := some i } := by
      rw [hh', setNext_get, if_pos rfl, setNext_get, if_neg it, et, Option.map_some]
    refine ⟨h', by simp [Ring.insertAfter, et, hh'], ⟨by simp, ?_⟩, r1.mono (by simp)⟩
    have first : (ys ++ [t] ++ [i]).head? = (ys ++ [t]).head? := by cases ys <;> rfl
    have before : Path h' (ys ++ [t]).head? ys (some t) := by
      refine path.agree fun j hj => r1.frame j ?_
      simp only [List.singleton_append, List.mem_cons, List.not_mem_nil, or_false, not_or]
      exact ⟨fun same => outside (by simp [← same, hj]), fun same => notIn (same ▸ hj)⟩
    rw [first]
    refine Path.append (before.append (.cons at_t (.nil _))) (.cons at_i ?_)
    rw [next]
    exact .nil _

/-- The ring is a list now that ends in a null pointer. -/
lemma IsRing.cut (h1 : IsRing h tail xs) (distinct : xs.Nodup) :
    ∃ h', cut h tail = some (xs.head?, h') ∧ Path h' xs.head? xs none ∧ Relinked xs h h' := by
  rcases List.eq_nil_or_concat xs with rfl | ⟨ys, t, rfl⟩
  · obtain rfl : tail = none := h1.last
    exact ⟨h, rfl, .nil none, Relinked.refl h⟩
  · rw [List.concat_eq_append] at h1 distinct ⊢
    obtain ⟨rfl, n, et, next, path⟩ := h1.concat
    have notIn : t ∉ ys := by
      rw [List.nodup_append] at distinct
      intro ht
      exact distinct.2.2 t ht t (by simp) rfl
    have r1 := setNext_relinked h t none
    refine ⟨setNext h t none, by simp [Ring.cut, et, next], ?_, r1.mono (by simp)⟩
    refine Path.append (path.agree fun j hj => r1.frame j ?_) (.cons (setNext_same et none) (.nil none))
    simpa using fun same : j = t => notIn (same ▸ hj)

end

/-! ## What a list holds -/

/-- The nodes from this pointer on to the null pointer hold these things one after the other, and lie in this part of
    the heap. -/
inductive Listed {α β : Type} (h : Heap α) (C : Nat → Prop) (P : α → β → Prop) : Option Nat → List β → Prop
  | nil : Listed h C P none []
  | cons {i : Nat} {n : Node α} {b : β} {bs : List β} : C i → h[i]? = some n → P n.val b → Listed h C P n.next bs →
    Listed h C P (some i) (b :: bs)

section
variable {α β : Type} {h h' : Heap α} {C C' : Nat → Prop} {P P' : α → β → Prop} {xs : List Nat} {bs : List β}
  {p : Option Nat}

lemma Listed.of_path (path : Path h p xs none) (inside : ∀ i ∈ xs, C i)
    (holds : List.Forall₂ (fun i b => ∃ n, h[i]? = some n ∧ P n.val b) xs bs) : Listed h C P p bs := by
  generalize e : (none : Option Nat) = last at path
  induction path generalizing bs with
  | nil =>
    cases holds
    exact e ▸ .nil
  | cons at_ _ ih =>
    cases holds with
    | cons first rest =>
      obtain ⟨n, at', hn⟩ := first
      rw [at_, Option.some.injEq] at at'
      subst at'
      exact .cons (inside _ (by simp)) at_ hn (ih (fun i hi => inside i (by simp [hi])) rest e)

lemma Listed.mono (h1 : Listed h C P p bs) (same : ∀ i, C i → h'[i]? = h[i]?) (sub : ∀ i, C i → C' i)
    (hP : ∀ a b, P a b → P' a b) : Listed h' C' P' p bs := by
  induction h1 with
  | nil => exact .nil
  | cons inside at_ hn _ ih => exact .cons (sub _ inside) ((same _ inside).trans at_) (hP _ _ hn) ih

/-- A list holds one thing only if its nodes do. -/
lemma Listed.unique (h1 : Listed h C P p bs) (one : ∀ a b b', P a b → P' a b' → b = b') {bs' : List β}
    (h2 : Listed h C' P' p bs') : bs = bs' := by
  induction h1 generalizing bs' with
  | nil =>
    cases h2
    rfl
  | cons _ at_ hn _ ih =>
    cases h2 with
    | cons _ at' hn' rest =>
      rw [at_, Option.some.injEq] at at'
      subst at'
      rw [one _ _ _ hn hn', ih rest]

/-- A search finds what a search in the list finds. -/
lemma Listed.search (h1 : Listed h C P p bs) {test : α → Option Bool} {f : β → Bool}
    (agree : ∀ a b, P a b → test a = some (f b)) {n : Nat} (hn : bs.length < n) :
    ∃ a, search test n h p = some a ∧ Option.Rel P a (bs.find? f) := by
  induction h1 generalizing n with
  | nil =>
    obtain ⟨n, rfl⟩ := Nat.exists_eq_add_of_lt hn
    exact ⟨none, by simp [Ring.search], .none⟩
  | @cons i node b bs _ at_ hb _ ih =>
    obtain ⟨n, rfl⟩ : ∃ m, n = m + 1 := ⟨n - 1, by omega⟩
    rw [List.length_cons, Nat.add_lt_add_iff_right] at hn
    simp only [Ring.search, at_, agree _ _ hb, Option.bind_eq_bind, Option.bind_some, List.find?_cons]
    cases f b with
    | true => exact ⟨some node.val, rfl, .some hb⟩
    | false => exact ih hn

end

/-! ## Lists that end -/

section
variable {α β : Type} {h : Heap α} {C : Nat → Prop} {P : α → β → Prop} {p : Option Nat} {bs : List β} {xs ys : List Nat}

lemma Listed.path (h1 : Listed h C P p bs) : ∃ xs, Path h p xs none ∧ xs.length = bs.length := by
  induction h1 with
  | nil => exact ⟨[], .nil none, rfl⟩
  | cons _ at_ _ _ ih =>
    obtain ⟨xs, path, length⟩ := ih
    exact ⟨_, .cons at_ path, congrArg (· + 1) length⟩

/-- There is one way only to the null pointer. -/
lemma Path.deterministic (h1 : Path h p xs none) (h2 : Path h p ys none) : xs = ys := by
  generalize e : (none : Option Nat) = q at h1 h2
  induction h1 generalizing ys with
  | nil =>
    subst e
    cases h2
    rfl
  | cons at_ _ ih =>
    cases h2 with
    | nil => cases e
    | cons at' rest =>
      rw [at_, Option.some.injEq] at at'
      subst at'
      rw [ih e rest]

/-- A list that ends visits no node twice. -/
lemma Path.nodup (h1 : Path h p xs none) : xs.Nodup := by
  generalize e : (none : Option Nat) = q at h1
  induction h1 with
  | nil => exact .nil
  | @cons i n xs q at_ rest ih =>
    subst e
    refine List.nodup_cons.2 ⟨fun twice => ?_, ih rfl⟩
    obtain ⟨as, bs, rfl⟩ := List.append_of_mem twice
    obtain ⟨q, -, again⟩ := rest.split
    obtain rfl : q = some i := again.head (by simp)
    have := congrArg List.length (again.deterministic (.cons at_ rest))
    simp at this
    omega

/-- A list is not longer than the heap. -/
lemma Listed.length_le (h1 : Listed h C P p bs) : bs.length ≤ h.length := by
  obtain ⟨xs, path, length⟩ := h1.path
  have inside : xs ⊆ List.range h.length := fun i hi => List.mem_range.2 (path.lt i hi)
  have := (List.Nodup.subperm path.nodup inside).length_le
  rw [List.length_range] at this
  omega

/-- The node that is `n` nodes on holds what is at this position. -/
lemma Listed.advance (h1 : Listed h C P p bs) (n : Nat) :
    ∃ q, advance h n p = some q ∧ Listed h C P q (bs.drop n) := by
  induction h1 generalizing n with
  | nil =>
    rw [List.drop_nil]
    exact ⟨none, by cases n <;> rfl, .nil⟩
  | cons inside at_ hb rest ih =>
    cases n with
    | zero => exact ⟨_, rfl, .cons inside at_ hb rest⟩
    | succ n =>
      obtain ⟨q, e, listed⟩ := ih n
      exact ⟨q, by simp only [Ring.advance, at_, Option.bind_eq_bind, Option.bind_some, e], listed⟩

end

end ArrowheadCore.Lib.Ring
