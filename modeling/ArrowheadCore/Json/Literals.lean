import ArrowheadCore.Json.Script
import ArrowheadCore.Json.Derived

/-!
# String literals of members and of items

`write_val` escapes the strings that `to_array` is given, `write` puts the bytes of a member string between quotes as they
are. The two literals of a string are the same if and only if the loop that escapes finds nothing to do in it.
-/

namespace ArrowheadCore.Json
open Lib JsonView Grammar

/-- The ways to write the text `s` as the value of a member. -/
inductive WritesText (key s : List UInt8) : (Out → Out) → Prop
  /-- C++ `operator<<` -/
  | shift : WritesText key s fun o => writeScalar key o (.text s)
  | write_dictionary_items {ρ : Type} {columns : Columns ρ} {r : ρ} {i : Nat} (is_null : Bool)
    (h : columns.text r i = some s) :
    WritesText key s (write_dictionary_items columns none [⟨key, .text, is_null⟩] r i)
  | addStr : WritesText key s (addStr key s)

/-- However `s` is written as a member, its literal is that of an item, and the finished document has the member. -/
def WrittenAlike (s : List UInt8) : Prop :=
  ∀ key f, Clean key → WritesText key s f →
    (∀ t, f (.ofText t) = .ofText (t ++ membersText [(key, Item.write_val (.string s))])) ∧
    parse_throw_on_error (str (f newBuilder)) .STANDARD = some (.ok (.object [(key, .string s)]))

/-- The line separators U+2028 and U+2029. -/
def separators : List (List UInt8) := [[0xe2, 0x80, 0xa8], [0xe2, 0x80, 0xa9]]

/-- No quote, backslash, control character or line separator. -/
def NoEscapes (s : List UInt8) : Prop := Clean s ∧ ∀ sep ∈ separators, ¬sep <:+: s

lemma WritesText.eq {key s : List UInt8} {f : Out → Out} (h : WritesText key s f) (t : List UInt8) :
    f (.ofText t) = .ofText (t ++ membersText [(key, bytes "\"" ++ (s ++ bytes "\""))]) := by
  cases h with
  | shift => exact addStr_eq key s t
  | @write_dictionary_items ρ columns r i is_null h =>
    have value : Header.value columns ⟨key, .text, is_null⟩ r i = .text s := by simp [Header.value, h]
    simp only [Json.write_dictionary_items, dictionary, writeItems, List.foldl_cons, List.foldl_nil, value]
    exact addStr_eq key s t
  | addStr => exact addStr_eq key s t

/-! ## Nothing to escape -/

lemma noEscapes_nil : NoEscapes [] := by simp [NoEscapes, Clean, separators]

lemma noEscapes_cons {c : UInt8} {s : List UInt8} :
    NoEscapes (c :: s) ↔ (0x1f < c.toNat ∧ c ≠ '"'.toUInt8 ∧ c ≠ '\\'.toUInt8) ∧
      (∀ sep ∈ separators, ¬sep <+: c :: s) ∧ NoEscapes s := by
  simp only [NoEscapes, Clean, List.forall_mem_cons, List.infix_cons_iff, not_or, forall_and]
  tauto

lemma length_hexEscape (c : UInt8) : (hexEscape c).length = 6 := rfl

lemma length_escapeLoop (s : List UInt8) : s.length ≤ (escapeLoop s).length := by
  have escape : ∀ {e s : List UInt8} (t : List UInt8), t.length ≤ e.length → s.length ≤ (escapeLoop s).length →
      (t ++ s).length ≤ (e ++ escapeLoop s).length := by
    intro e s t he ih
    rw [List.length_append, List.length_append]
    omega
  fun_induction escapeLoop s with
  | case1 => simp
  | case2 s ih => exact escape ['\\'.toUInt8] (by decide) ih
  | case3 s _ ih => exact escape ['"'.toUInt8] (by decide) ih
  | case4 s _ _ ih => exact escape [8] (by decide) ih
  | case5 s _ _ _ ih => exact escape [12] (by decide) ih
  | case6 s _ _ _ _ ih => exact escape [10] (by decide) ih
  | case7 s _ _ _ _ _ ih => exact escape [13] (by decide) ih
  | case8 s _ _ _ _ _ _ ih => exact escape [9] (by decide) ih
  | case9 c s _ _ _ _ _ _ _ _ ih => exact escape [c] (by rw [length_hexEscape]; simp) ih
  | case10 c _ _ _ _ _ _ _ _ a b t _ ih => exact escape [c, a, b] (by simp [bytes]) ih
  | case11 c _ _ _ _ _ _ _ _ a b t _ _ ih => exact escape [c, a, b] (by simp [bytes]) ih
  | case12 _ _ _ _ _ _ _ _ _ a b t _ _ ih => exact Nat.succ_le_succ ih
  | case13 _ _ _ _ _ _ _ _ _ s _ ih => exact Nat.succ_le_succ ih

/-- An escape is longer than what it stands for. -/
lemma escape_ne {e t : List UInt8} (s : List UInt8) (h : t.length < e.length) : e ++ escapeLoop s ≠ t ++ s := by
  intro eq
  have lengths := congrArg List.length eq
  have := length_escapeLoop s
  simp only [List.length_append] at lengths
  omega

lemma escapeLoop_eq_self (s : List UInt8) : escapeLoop s = s ↔ NoEscapes s := by
  have escape : ∀ {e : List UInt8} {c : UInt8} (s : List UInt8), 1 < e.length →
      ¬(0x1f < c.toNat ∧ c ≠ '"'.toUInt8 ∧ c ≠ '\\'.toUInt8) → (e ++ escapeLoop s = c :: s ↔ NoEscapes (c :: s)) := by
    intro e c s he hc
    refine iff_of_false (escape_ne (t := [c]) s he) fun h => hc (noEscapes_cons.1 h).1
  have same : ∀ {c : UInt8} {s : List UInt8}, 0x1f < c.toNat ∧ c ≠ '"'.toUInt8 ∧ c ≠ '\\'.toUInt8 →
      (∀ sep ∈ separators, ¬sep <+: c :: s) → (escapeLoop s = s ↔ NoEscapes s) →
      (c :: escapeLoop s = c :: s ↔ NoEscapes (c :: s)) := by
    intro c s hc hs ih
    rw [List.cons_inj_right, ih, noEscapes_cons, and_iff_right hc, and_iff_right hs]
  fun_induction escapeLoop s with
  | case1 => simp [noEscapes_nil]
  | case2 s => exact escape s (by decide) (by decide)
  | case3 s => exact escape s (by decide) (by decide)
  | case4 s => exact escape s (by decide) (by decide)
  | case5 s => exact escape s (by decide) (by decide)
  | case6 s => exact escape s (by decide) (by decide)
  | case7 s => exact escape s (by decide) (by decide)
  | case8 s => exact escape s (by decide) (by decide)
  | case9 c s _ _ _ _ _ _ _ hc => exact escape s (by rw [length_hexEscape]; decide) (by omega)
  | case10 c _ _ _ _ _ _ _ _ a b t h =>
    obtain ⟨rfl, rfl, rfl⟩ := h
    refine iff_of_false (escape_ne (t := [0xe2, 0x80, 0xa8]) t (by decide)) fun h => ?_
    exact (noEscapes_cons.1 h).2.1 [0xe2, 0x80, 0xa8] (by decide) (List.prefix_append [0xe2, 0x80, 0xa8] t)
  | case11 c _ _ _ _ _ _ _ _ a b t _ h =>
    obtain ⟨rfl, rfl, rfl⟩ := h
    refine iff_of_false (escape_ne (t := [0xe2, 0x80, 0xa9]) t (by decide)) fun h => ?_
    exact (noEscapes_cons.1 h).2.1 [0xe2, 0x80, 0xa9] (by decide) (List.prefix_append [0xe2, 0x80, 0xa9] t)
  | case12 c hb hq _ _ _ _ _ hc a b t h1 h2 ih =>
    refine same ⟨by omega, hq, hb⟩ ?_ ih
    simp only [separators, List.forall_mem_cons, List.cons_prefix_cons, List.nil_prefix, and_true, List.not_mem_nil,
      false_imp_iff, implies_true]
    grind
  | case13 c hb hq _ _ _ _ _ hc s short ih =>
    refine same ⟨by omega, hq, hb⟩ ?_ ih
    intro sep hsep hp
    have three : ∀ sep ∈ separators, sep.length = 3 := by decide
    have := hp.length_le
    rw [three sep hsep] at this
    obtain _ | ⟨a, _ | ⟨b, t⟩⟩ := s
    · simp at this
    · simp at this
    · exact short a b t rfl

/-- The literals are alike, and the document has the member, exactly for the strings that need no escape. -/
theorem writtenAlike_iff (s : List UInt8) : WrittenAlike s ↔ NoEscapes s := by
  rw [← escapeLoop_eq_self]
  constructor
  · intro h
    have e := (h [] _ (by simp [Clean]) .addStr).1 []
    rw [addStr_eq] at e
    have literals := congrArg Out.text e
    simpa [membersText, memberText, Item.write_val, quoted, eq_comm] using literals
  · intro h key f hk hf
    have literal : Item.write_val (.string s) = bytes "\"" ++ (s ++ bytes "\"") := by rw [Item.write_val, quoted, h]
    refine ⟨fun t => by rw [hf.eq, literal], ?_⟩
    have value : Value rfc 2 (objectText [(key, quoted s)] ++ []) (.object [(key, .string s)]) [] := by
      rw [show objectText [(key, quoted s)] ++ [] = _ from objectText_append [(key, quoted s)] [] []]
      exact .object (members_commaList (.cons (member_written hk (value_string (spells_quoted s))) .nil) (by simp) [])
    rw [List.append_nil] at value
    have document : Document jsonView (max_depth + 1) (objectText [(key, quoted s)]) (.object [(key, .string s)]) :=
      ⟨_, [], .refl _, (value.mono rfc_sub).le (by decide), .refl _⟩
    rw [newBuilder_eq, hf.eq, show membersText [] = [] from rfl, List.append_nil, str_membersText (by simp), ← literal]
    exact parse_of_document document .STANDARD

/-- A quote is escaped in an item and not in a member. -/
theorem not_writtenAlike_quote : ¬WrittenAlike (bytes "\"") := by
  intro h
  have e := (h [] _ (by simp [Clean]) .addStr).1 []
  exact absurd e (by decide)

end ArrowheadCore.Json
