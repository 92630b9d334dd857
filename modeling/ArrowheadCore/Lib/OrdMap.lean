import Mathlib.Order.Lattice
import Mathlib.Tactic.Common

/-!
# Ordered maps

The map of the C++ library as the list of its pairs in the order of the keys, which the type keeps.
-/

namespace ArrowheadCore.Lib

variable {κ α : Type*} [LinearOrder κ]

/-- Put a value in its place; it may depend on the one that is there. -/
def upsertList (k : κ) (f : Option α → α) : List (κ × α) → List (κ × α)
  | [] => [(k, f none)]
  | (l, a) :: m =>
    if k < l then (k, f none) :: (l, a) :: m
    else if k = l then (l, f (some a)) :: m
    else (l, a) :: upsertList k f m

lemma mem_upsertList {k : κ} {f : Option α → α} {x : κ × α} {m : List (κ × α)} (h : x ∈ upsertList k f m) :
    x.1 = k ∨ x ∈ m := by
  induction m with
  | nil =>
    rw [upsertList, List.mem_singleton] at h
    exact .inl (by rw [h])
  | cons y m ih =>
    obtain ⟨l, a⟩ := y
    rw [upsertList] at h
    split_ifs at h with h1 h2
    · obtain rfl | h := List.mem_cons.1 h
      · exact .inl rfl
      · exact .inr h
    · obtain rfl | h := List.mem_cons.1 h
      · exact .inl h2.symm
      · exact .inr (List.mem_cons_of_mem _ h)
    · obtain rfl | h := List.mem_cons.1 h
      · exact .inr (List.mem_cons_self ..)
      · exact (ih h).imp_right (List.mem_cons_of_mem _)

lemma upsertList_sorted {k : κ} {f : Option α → α} {m : List (κ × α)} (h : m.Pairwise (·.1 < ·.1)) :
    (upsertList k f m).Pairwise (·.1 < ·.1) := by
  induction m with
  | nil => simp [upsertList]
  | cons y m ih =>
    obtain ⟨l, a⟩ := y
    rw [List.pairwise_cons] at h
    rw [upsertList]
    split_ifs with h1 h2
    · refine List.pairwise_cons.2 ⟨fun x hx => ?_, List.pairwise_cons.2 h⟩
      obtain rfl | hx := List.mem_cons.1 hx
      · exact h1
      · exact lt_trans h1 (h.1 x hx)
    · exact List.pairwise_cons.2 h
    · refine List.pairwise_cons.2 ⟨fun x hx => ?_, ih h.2⟩
      obtain e | hx := mem_upsertList hx
      · rw [e]
        exact lt_of_le_of_ne (not_lt.1 h1) (Ne.symm h2)
      · exact h.1 x hx

/-- C++ `std::map` -/
structure OrdMap (κ α : Type*) [LinearOrder κ] where
  entries : List (κ × α)
  sorted : entries.Pairwise (·.1 < ·.1)

namespace OrdMap

def empty : OrdMap κ α := ⟨[], .nil⟩

/-- C++ `find` -/
def lookup (m : OrdMap κ α) (k : κ) : Option α := m.entries.lookup k

def upsert (m : OrdMap κ α) (k : κ) (f : Option α → α) : OrdMap κ α :=
  ⟨upsertList k f m.entries, upsertList_sorted m.sorted⟩

/-- A key smaller than all is not found. -/
lemma lookup_of_lt {k : κ} {m : List (κ × α)} (h : ∀ x ∈ m, k < x.1) : m.lookup k = none := by
  induction m with
  | nil => rfl
  | cons y m ih =>
    have hy : k ≠ y.1 := ne_of_lt (h y (by simp))
    rw [List.lookup_cons, beq_false_of_ne hy]
    exact ih fun x hx => h x (by simp [hx])

@[simp] lemma lookup_empty (k : κ) : (empty : OrdMap κ α).lookup k = none := rfl

lemma lookup_upsert (m : OrdMap κ α) (k l : κ) (f : Option α → α) :
    (m.upsert k f).lookup l = if l = k then some (f (m.lookup k)) else m.lookup l := by
  obtain ⟨m, h⟩ := m
  show (upsertList k f m).lookup l = if l = k then some (f (m.lookup k)) else m.lookup l
  induction m with
  | nil =>
    rw [upsertList]
    split_ifs with e
    · rw [e, List.lookup_cons_self]
      rfl
    · rw [List.lookup_cons, beq_false_of_ne e]
  | cons y m ih =>
    obtain ⟨n, a⟩ := y
    rw [List.pairwise_cons] at h
    have ih := ih h.2
    rw [upsertList]
    split_ifs with h1 e h2 e e
    · have before : ((n, a) :: m).lookup k = none := by
        refine lookup_of_lt fun x hx => ?_
        obtain rfl | hx := List.mem_cons.1 hx
        · exact h1
        · exact lt_trans h1 (h.1 x hx)
      rw [e, before, List.lookup_cons_self]
    · rw [List.lookup_cons, beq_false_of_ne e]
    · rw [e, h2, List.lookup_cons_self, List.lookup_cons_self]
    · have hn : l ≠ n := fun e' => e (e'.trans h2.symm)
      rw [List.lookup_cons, beq_false_of_ne hn, List.lookup_cons, beq_false_of_ne hn]
    · have hn : l ≠ n := fun e' => h2 (e.symm.trans e')
      rw [List.lookup_cons, beq_false_of_ne hn, ih, if_pos e, List.lookup_cons, beq_false_of_ne h2]
    · rw [List.lookup_cons, List.lookup_cons, ih, if_neg e]

end OrdMap

end ArrowheadCore.Lib
