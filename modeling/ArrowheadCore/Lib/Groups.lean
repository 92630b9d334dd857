import Mathlib.Order.Lattice
import Mathlib.Data.List.TakeWhile
import Mathlib.Data.List.Nodup
import Mathlib.Tactic.Common

/-!
# Groups of consecutive items

`groups` joins consecutive items with the same key. No item is lost, and on a list that is sorted by its keys
every key has one group.
-/

namespace ArrowheadCore.Lib

variable {κ α : Type*} [DecidableEq κ]

/-- Put an item in front of the groups behind it. -/
def addToGroups (k : κ) (a : α) : List (κ × List α) → List (κ × List α)
  | [] => [(k, [a])]
  | (l, as) :: gs => if k = l then (l, a :: as) :: gs else (k, [a]) :: (l, as) :: gs

def groups : List (κ × α) → List (κ × List α)
  | [] => []
  | (k, a) :: xs => addToGroups k a (groups xs)

/-- The item `a` is in a group with the key `k`. -/
def Grouped (gs : List (κ × List α)) (k : κ) (a : α) : Prop := ∃ g ∈ gs, g.1 = k ∧ a ∈ g.2

lemma grouped_addToGroups {k l : κ} {a b : α} {gs : List (κ × List α)} :
    Grouped (addToGroups k a gs) l b ↔ (l, b) = (k, a) ∨ Grouped gs l b := by
  cases gs with
  | nil =>
    simp only [Grouped, addToGroups, List.mem_singleton, exists_eq_left, Prod.mk.injEq, List.not_mem_nil, false_and,
      exists_false, or_false]
    exact ⟨fun ⟨h1, h2⟩ => ⟨h1.symm, h2⟩, fun ⟨h1, h2⟩ => ⟨h1.symm, h2⟩⟩
  | cons g gs =>
    obtain ⟨m, as⟩ := g
    by_cases h : k = m
    · subst h
      simp only [addToGroups, if_true, Grouped, List.mem_cons, exists_eq_or_imp, Prod.mk.injEq]
      grind
    · simp only [addToGroups, h, if_false, Grouped, List.mem_cons, exists_eq_or_imp, Prod.mk.injEq]
      grind

/-- Grouping keeps exactly the items. -/
lemma grouped_groups {xs : List (κ × α)} {k : κ} {a : α} : Grouped (groups xs) k a ↔ (k, a) ∈ xs := by
  induction xs with
  | nil => simp [groups, Grouped]
  | cons x xs ih => rw [groups, grouped_addToGroups, ih, List.mem_cons]

lemma groups_head (k : κ) (a : α) (xs : List (κ × α)) : ∃ as gs, groups ((k, a) :: xs) = (k, as) :: gs := by
  rw [groups]
  cases groups xs with
  | nil => exact ⟨[a], [], rfl⟩
  | cons g gs =>
    obtain ⟨l, as⟩ := g
    by_cases h : k = l
    · exact ⟨a :: as, gs, by simp [addToGroups, h]⟩
    · exact ⟨[a], (l, as) :: gs, by simp [addToGroups, h]⟩

/-- The first group and the groups behind it. -/
lemma groups_cons (k : κ) (a : α) (xs : List (κ × α)) :
    groups ((k, a) :: xs) = (k, a :: (xs.takeWhile fun x => x.1 = k).map Prod.snd) ::
      groups (xs.dropWhile fun x => x.1 = k) := by
  induction xs generalizing a with
  | nil => rfl
  | cons x xs ih =>
    obtain ⟨l, b⟩ := x
    rw [groups]
    by_cases h : l = k
    · subst h
      rw [ih b]
      simp [addToGroups]
    · have hk : ¬k = l := fun e => h e.symm
      obtain ⟨as, gs, e⟩ := groups_head l b xs
      rw [e]
      simp [addToGroups, h, hk, e]

/-- On a sorted list the keys of the groups are sorted, without repetition. -/
lemma groups_sorted [LinearOrder κ] {xs : List (κ × α)} (h : xs.Pairwise fun x y => x.1 ≤ y.1) :
    (groups xs).Pairwise fun g g' => g.1 < g'.1 := by
  induction xs with
  | nil => exact .nil
  | cons x xs ih =>
    obtain ⟨k, a⟩ := x
    rw [List.pairwise_cons] at h
    have ih := ih h.2
    rw [groups]
    cases e : groups xs with
    | nil => simp [addToGroups]
    | cons g gs =>
      obtain ⟨l, as⟩ := g
      rw [e] at ih
      by_cases hk : k = l
      · subst hk
        simp only [addToGroups, if_true]
        exact List.pairwise_cons.2 (List.pairwise_cons.1 ih)
      · simp only [addToGroups, hk, if_false]
        refine List.pairwise_cons.2 ⟨?_, ih⟩
        -- the first key behind is at least `k`, and it is not `k`
        have hl : k < l := by
          cases xs with
          | nil => simp [groups] at e
          | cons y ys =>
            obtain ⟨m, b⟩ := y
            obtain ⟨bs, hs, e'⟩ := groups_head m b ys
            rw [e', List.cons.injEq, Prod.mk.injEq] at e
            have := h.1 (m, b) (by simp)
            rw [e.1.1] at this
            exact lt_of_le_of_ne this hk
        intro g' hg'
        obtain rfl | hg' := List.mem_cons.1 hg'
        · exact hl
        · exact hl.trans ((List.pairwise_cons.1 ih).1 g' hg')

/-- The groups one behind the other are the items in their order. -/
lemma flatMap_groups (xs : List (κ × α)) : ((groups xs).flatMap fun g => g.2.map fun a => (g.1, a)) = xs := by
  induction xs with
  | nil => rfl
  | cons x xs ih =>
    obtain ⟨k, a⟩ := x
    rw [groups]
    cases e : groups xs with
    | nil =>
      rw [e] at ih
      simp [addToGroups, ← ih]
    | cons g gs =>
      obtain ⟨l, as⟩ := g
      rw [e] at ih
      by_cases hk : k = l
      · subst hk
        simp [addToGroups, ← ih]
      · simp [addToGroups, hk, ← ih]

/-- On a sorted list no group has an item twice if and only if the list has no item twice. -/
lemma groups_nodup [LinearOrder κ] {xs : List (κ × α)} (h : xs.Pairwise fun x y => x.1 ≤ y.1) :
    (∀ g ∈ groups xs, g.2.Nodup) ↔ xs.Nodup := by
  have inj : ∀ k : κ, Function.Injective fun a : α => (k, a) := fun k a b e => (Prod.mk.inj e).2
  have disjoint : (groups xs).Pairwise fun g g' => (g.2.map fun a => (g.1, a)).Disjoint (g'.2.map fun a => (g'.1, a)) := by
    refine (groups_sorted h).imp fun {g g'} hlt => ?_
    intro x hx hx'
    obtain ⟨a, -, rfl⟩ := List.mem_map.1 hx
    obtain ⟨b, -, e⟩ := List.mem_map.1 hx'
    exact ne_of_gt hlt (Prod.mk.inj e).1
  conv_rhs => rw [← flatMap_groups xs, List.nodup_flatMap]
  constructor
  · exact fun all => ⟨fun g hg => (all g hg).map (inj g.1), disjoint⟩
  · exact fun all g hg => (all.1 g hg).of_map _

/-- The items of one key after those of the other are all items, if each has one of the keys. -/
lemma flatMap_filter_perm (f : α → κ) (as : List α) {ks : List κ} (nodup : ks.Nodup) (all : ∀ a ∈ as, f a ∈ ks) :
    (ks.flatMap fun k => as.filter fun a => f a = k).Perm as := by
  induction ks generalizing as with
  | nil =>
    have none_ : as = [] := List.eq_nil_iff_forall_not_mem.2 fun a ha => List.not_mem_nil (all a ha)
    rw [none_]
    exact .refl _
  | cons k ks ih =>
    obtain ⟨fresh, nodup⟩ := List.nodup_cons.1 nodup
    have others := ih (as.filter fun a => !decide (f a = k)) nodup fun a ha => by
      obtain ⟨ha, hk⟩ := List.mem_filter.1 ha
      exact (List.mem_cons.1 (all a ha)).resolve_left (by simpa using hk)
    have same : (ks.flatMap fun l => (as.filter fun a => !decide (f a = k)).filter fun a => f a = l) =
        ks.flatMap fun l => as.filter fun a => f a = l := by
      refine List.flatMap_congr fun l hl => ?_
      rw [List.filter_filter]
      refine List.filter_congr fun a _ => ?_
      have hne : l ≠ k := fun e => fresh (e ▸ hl)
      by_cases h : f a = l
      · simp [h, hne]
      · simp [h]
    rw [same] at others
    rw [List.flatMap_cons]
    exact (others.append_left _).trans (List.filter_append_perm _ as)

end ArrowheadCore.Lib
