import Mathlib.Data.List.Forall2
import Mathlib.Tactic.Common

/-!
# Lists of results

What `mapM` gives in `Option` and in `Except`: a result for each item, or the first failure.
-/

namespace ArrowheadCore.Lib

lemma forall₂_exists_left {α β : Type} {R : α → β → Prop} {as : List α} {bs : List β} (h : List.Forall₂ R as bs)
    {b : β} (hb : b ∈ bs) : ∃ a ∈ as, R a b := by
  induction h with
  | nil => cases hb
  | @cons a b' as bs hab _ ih =>
    obtain rfl | hb := List.mem_cons.1 hb
    · exact ⟨a, List.mem_cons_self, hab⟩
    · obtain ⟨a', ha', h'⟩ := ih hb
      exact ⟨a', List.mem_cons_of_mem a ha', h'⟩

lemma forall₂_of_forall_exists {α β : Type} {R : α → β → Prop} : ∀ {as : List α}, (∀ a ∈ as, ∃ b, R a b) →
    ∃ bs, List.Forall₂ R as bs
  | [], _ => ⟨[], .nil⟩
  | a :: as, h => by
    obtain ⟨b, hb⟩ := h a (by simp)
    obtain ⟨bs, hbs⟩ := forall₂_of_forall_exists fun x (hx : x ∈ as) => h x (by simp [hx])
    exact ⟨b :: bs, .cons hb hbs⟩

lemma bind_ok {α β ε : Type} {x : Except ε α} {f : α → Except ε β} {b : β} (h : (x >>= f) = .ok b) :
    ∃ a, x = .ok a ∧ f a = .ok b := by
  cases x with
  | error e => cases h
  | ok a => exact ⟨a, rfl, h⟩

lemma mapM_some_mem {α β : Type} {f : α → Option β} : ∀ {as : List α} {bs : List β}, as.mapM f = some bs →
    List.Forall₂ (fun a b => f a = some b) as bs
  | [], bs, h => by
    cases h
    exact .nil
  | a :: as, bs, h => by
    rw [List.mapM_cons] at h
    cases ha : f a with
    | none => simp [ha] at h
    | some b =>
      cases hs : as.mapM f with
      | none => simp [ha, hs] at h
      | some bs' =>
        simp only [ha, hs, Option.bind_eq_bind, Option.bind_some, Option.pure_def, Option.some.injEq] at h
        subst h
        exact .cons ha (mapM_some_mem hs)

lemma mapM_ok_mem {α β ε : Type} {f : α → Except ε β} : ∀ {as : List α} {bs : List β}, as.mapM f = .ok bs →
    List.Forall₂ (fun a b => f a = .ok b) as bs
  | [], bs, h => by
    cases h
    exact .nil
  | a :: as, bs, h => by
    rw [List.mapM_cons] at h
    cases ha : f a with
    | error n =>
      rw [ha] at h
      cases h
    | ok b =>
      cases hs : as.mapM f with
      | error n =>
        rw [ha, hs] at h
        cases h
      | ok bs' =>
        rw [ha, hs] at h
        cases h
        exact .cons ha (mapM_ok_mem hs)

lemma mapM_some_of_forall {α β : Type} {f : α → Option β} :
    ∀ {as : List α}, (∀ a ∈ as, ∃ b, f a = some b) → ∃ bs, as.mapM f = some bs
  | [], _ => ⟨[], rfl⟩
  | a :: as, h => by
    obtain ⟨b, hb⟩ := h a (by simp)
    obtain ⟨bs, hbs⟩ := mapM_some_of_forall fun a ha => h a (List.mem_cons_of_mem _ ha)
    exact ⟨b :: bs, by simp [List.mapM_cons, hb, hbs]⟩

lemma mapM_ok_of_forall {α β ε : Type} {f : α → Except ε β} :
    ∀ {as : List α}, (∀ a ∈ as, ∃ b, f a = .ok b) → ∃ bs, as.mapM f = .ok bs
  | [], _ => ⟨[], rfl⟩
  | a :: as, h => by
    obtain ⟨b, hb⟩ := h a (by simp)
    obtain ⟨bs, hbs⟩ := mapM_ok_of_forall fun a ha => h a (List.mem_cons_of_mem _ ha)
    refine ⟨b :: bs, ?_⟩
    rw [List.mapM_cons, hb, hbs]
    rfl

end ArrowheadCore.Lib
