import Mathlib.Data.List.Nodup
import Mathlib.Tactic.Common

/-!
# Selecting by keys

`pick` takes, for every key of a list, the items with this key: an item comes as often as its key does. The
loops that select in this way thread a state that can fail; what they add to it is a `flatMap`.
-/

namespace ArrowheadCore.Lib

section
variable {α κ : Type*} [BEq κ] [LawfulBEq κ] (key : α → κ)

/-- For every key, in their order, the items with this key. -/
def pick (ks : List κ) (xs : List α) : List α := ks.flatMap fun k => xs.filter fun x => key x == k

variable {key} {ks : List κ} {xs ys : List α} {xss : List (List α)}

lemma mem_pick {x : α} : x ∈ pick key ks xs ↔ x ∈ xs ∧ key x ∈ ks := by
  simp only [pick, List.mem_flatMap, List.mem_filter, beq_iff_eq]
  constructor
  · rintro ⟨k, hk, hx, rfl⟩
    exact ⟨hx, hk⟩
  · rintro ⟨hx, hk⟩
    exact ⟨_, hk, hx, rfl⟩

/-- Among the items with one key no other key comes. -/
lemma count_filter_key (k l : κ) :
    ((xs.filter fun x => key x == l).map key).count k = if l == k then (xs.map key).count k else 0 := by
  induction xs with
  | nil => simp
  | cons x xs ih =>
    cases hx : key x == l with
    | true =>
      have head : (x :: xs).filter (fun x => key x == l) = x :: xs.filter fun x => key x == l :=
        List.filter_cons_of_pos hx
      rw [head, List.map_cons, List.map_cons, List.count_cons, List.count_cons, ih, eq_of_beq hx]
      cases l == k <;> simp
    | false =>
      rw [List.filter_cons_of_neg (by simp [hx]), ih, List.map_cons, List.count_cons]
      cases h : l == k with
      | true =>
        rw [← eq_of_beq h, hx]
        simp
      | false => rfl

/-- A key comes as often as it is asked for, times its items. -/
lemma count_pick (k : κ) : ((pick key ks xs).map key).count k = ks.count k * (xs.map key).count k := by
  induction ks with
  | nil => simp [pick]
  | cons l ls ih =>
    rw [pick, List.flatMap_cons, ← pick, List.map_append, List.count_append, ih, count_filter_key, List.count_cons,
      Nat.add_mul, Nat.add_comm]
    cases l == k <;> simp

lemma count_picks (k : κ) :
    ((xss.flatMap (pick key ks)).map key).count k = ks.count k * (xss.flatten.map key).count k := by
  induction xss with
  | nil => simp
  | cons xs xss ih =>
    rw [List.flatMap_cons, List.map_append, List.count_append, count_pick, ih, List.flatten_cons, List.map_append,
      List.count_append, Nat.mul_add]

/-- What is picked from several lists has different keys and lies in `ys` exactly when every item of theirs
    with a key that is asked for lies in `ys`, and its key is asked for once and is there once. -/
theorem picks_nodup_iff :
    ((xss.flatMap (pick key ks)).map key).Nodup ∧ (∀ x ∈ xss.flatMap (pick key ks), x ∈ ys) ↔
      ∀ x ∈ xss.flatten, key x ∈ ks → x ∈ ys ∧ ks.count (key x) = 1 ∧ (xss.flatten.map key).count (key x) = 1 := by
  have mem (x : α) : x ∈ xss.flatMap (pick key ks) ↔ x ∈ xss.flatten ∧ key x ∈ ks := by
    simp only [List.mem_flatMap, List.mem_flatten, mem_pick]
    grind
  rw [List.nodup_iff_count_le_one]
  simp only [count_picks]
  constructor
  · rintro ⟨once, inside⟩ x hx hk
    have h := once (key x)
    have h1 : 0 < ks.count (key x) := List.count_pos_iff.2 hk
    have h2 : 0 < (xss.flatten.map key).count (key x) := List.count_pos_iff.2 (List.mem_map_of_mem hx)
    have one := Nat.le_antisymm h (Nat.mul_pos h1 h2)
    exact ⟨inside x ((mem x).2 ⟨hx, hk⟩), Nat.eq_one_of_mul_eq_one_right one, Nat.eq_one_of_mul_eq_one_left one⟩
  · intro h
    refine ⟨fun k => ?_, fun x hx => ?_⟩
    · by_cases hk : k ∈ ks
      · by_cases hx : k ∈ xss.flatten.map key
        · obtain ⟨x, hm, rfl⟩ := List.mem_map.1 hx
          obtain ⟨-, h1, h2⟩ := h x hm hk
          exact Nat.le_of_eq (by rw [h1, h2])
        · rw [List.count_eq_zero_of_not_mem hx]
          simp
      · rw [List.count_eq_zero_of_not_mem hk]
        simp
    · obtain ⟨hx, hk⟩ := (mem x).1 hx
      exact (h x hx hk).1

end

/-- Items that add nothing may be left out. -/
lemma flatMap_ite {α β : Type*} (c : α → Prop) [DecidablePred c] (g : α → List β) (xs : List α) :
    (xs.flatMap fun x => if c x then g x else []) = (xs.filter fun x => c x).flatMap g := by
  induction xs with
  | nil => rfl
  | cons x xs ih =>
    rw [List.flatMap_cons, ih]
    by_cases h : c x <;> simp [h]

/-! ## Loops that can fail -/

section
variable {σ β γ : Type*} {f : σ → β → Option σ}

/-- What a loop adds to a part of its state. -/
lemma foldlM_append {part : σ → List γ} {g : β → List γ}
    (h : ∀ s b s', f s b = some s' → part s' = part s ++ g b) :
    ∀ {bs : List β} {s s' : σ}, bs.foldlM f s = some s' → part s' = part s ++ bs.flatMap g
  | [], _, _, e => by
    cases e
    simp
  | b :: bs, s, s', e => by
    rw [List.foldlM_cons] at e
    obtain ⟨s1, e1, e2⟩ := Option.bind_eq_some_iff.1 e
    rw [foldlM_append h e2, h s b s1 e1, List.flatMap_cons, List.append_assoc]

/-- What every turn of a loop keeps, the loop keeps. -/
lemma foldlM_invariant {P : σ → Prop} (h : ∀ s b s', P s → f s b = some s' → P s') :
    ∀ {bs : List β} {s s' : σ}, P s → bs.foldlM f s = some s' → P s'
  | [], _, _, hs, e => by
    cases e
    exact hs
  | b :: bs, s, s', hs, e => by
    rw [List.foldlM_cons] at e
    obtain ⟨s1, e1, e2⟩ := Option.bind_eq_some_iff.1 e
    exact foldlM_invariant h (h s b s1 hs e1) e2

end

end ArrowheadCore.Lib
