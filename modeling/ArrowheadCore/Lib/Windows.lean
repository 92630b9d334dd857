import Mathlib.Data.List.Nodup
import Mathlib.Data.List.Range
import Mathlib.Tactic.Common

/-!
# Windows of a list

The windows of `n` items that begin at the items `0, 1, 2, ..` of a list. Put together they are the list again only if
they do not overlap.
-/

namespace ArrowheadCore.Lib

variable {α : Type*}

/-- Up to `n` items, from the item `p` on. -/
def window (l : List α) (n p : Nat) : List α := (l.drop p).take n

/-- The first `count` windows. -/
def windows (l : List α) (n count : Nat) : List α := (List.range count).flatMap (window l n)

lemma mem_of_mem_window {l : List α} {n p : Nat} {a : α} (h : a ∈ window l n p) : a ∈ l :=
  List.mem_of_mem_drop (List.mem_of_mem_take h)

lemma window_map {β : Type*} (f : α → β) (l : List α) (n p : Nat) : window (l.map f) n p = (window l n p).map f := by
  rw [window, window, List.map_take, List.map_drop]

lemma windows_one (l : List α) (count : Nat) : windows l 1 count = l.take count := by
  induction count with
  | zero => rfl
  | succ count ih =>
    rw [List.take_add, ← ih, windows, List.range_succ, List.flatMap_append]
    simp [windows, window]

lemma windows_short {l : List α} (h : l.length ≤ 1) {n count : Nat} (hn : 0 < n) (hc : 0 < count) :
    windows l n count = l := by
  obtain ⟨m, rfl⟩ := Nat.exists_eq_succ_of_ne_zero hc.ne'
  have first : window l n 0 = l := List.take_of_length_le (h.trans hn)
  have rest : ∀ p ∈ (List.range m).map Nat.succ, window l n p = [] := by
    intro p hp
    obtain ⟨q, -, rfl⟩ := List.mem_map.1 hp
    rw [window, List.drop_eq_nil_of_le (by omega), List.take_nil]
  rw [windows, List.range_succ_eq_map, List.flatMap_cons, first, List.flatMap_eq_nil_iff.2 rest, List.append_nil]

/-- Windows of two or more items share some, if there are two. -/
lemma windows_not_nodup {l : List α} (h : 2 ≤ l.length) {n count : Nat} (hn : 2 ≤ n) (hc : 2 ≤ count) :
    ¬(windows l n count).Nodup := by
  obtain ⟨m, rfl⟩ := Nat.exists_eq_add_of_le' hc
  obtain ⟨k, rfl⟩ := Nat.exists_eq_add_of_le' hn
  match l, h with
  | a :: b :: l, _ =>
    intro nodup
    rw [windows, List.range_succ_eq_map, List.range_succ_eq_map, List.map_cons, List.flatMap_cons, List.flatMap_cons]
      at nodup
    have shared := (List.nodup_append.1 nodup).2.2 b (by simp [window]) b (by simp [window])
    exact shared rfl

/-- One item each, or one item at all. -/
lemma windows_eq {l : List α} {n count : Nat} (hn : 0 < n) (hc : 2 ≤ count)
    (h : l.length ≤ 1 ∨ n = 1 ∧ l.length ≤ count) : windows l n count = l := by
  obtain h | ⟨rfl, h⟩ := h
  · exact windows_short h hn (by omega)
  · rw [windows_one, List.take_of_length_le h]

/-- Enough windows are the list again, in any order, if and only if each has one item or there is one only. -/
theorem windows_perm_iff {l : List α} (nodup : l.Nodup) {n count : Nat} (hn : 0 < n) (hc : 2 ≤ count) :
    (windows l n count).Perm l ↔ l.length ≤ 1 ∨ n = 1 ∧ l.length ≤ count := by
  constructor
  · intro perm
    by_cases h : l.length ≤ 1
    · exact .inl h
    · have h1 : n = 1 := by
        by_contra h1
        exact windows_not_nodup (l := l) (by omega) (by omega) hc (perm.nodup_iff.2 nodup)
      subst h1
      rw [windows_one] at perm
      have := perm.length_eq
      rw [List.length_take] at this
      exact .inr ⟨rfl, by omega⟩
  · intro h
    rw [windows_eq hn hc h]

end ArrowheadCore.Lib
