import ArrowheadCore.Json.Accepts

/-!
# Access to the nodes of gason

Embedding of `JsonValue::child`, `JsonValue::at` and the iteration over nodes (`inc/gason/gason.cpp`, `inc/gason/gason.h`). On the
nodes and the buffer that the parser leaves, they give what the same accessors give on the tree: `jsonParse_follow` says so
of any number of them, one behind the other.
-/

namespace ArrowheadCore.Json.Gason
open Lib

/-- The C string at a position of the buffer. -/
def cString (buf : List UInt8) (s : Nat) : Option (List UInt8) :=
  if 0 ∈ buf.drop s then some (cStr (buf.drop s)) else none

/-- C++ `strncmp(it->key, key, strlen(key)) == 0`; the nodes of an array have no key to compare with. -/
def named (buf key : List UInt8) (node : Content) : Option Bool := do
  return key.isPrefixOf (← cString buf (← node.key))

def child (buf : List UInt8) (heap : Heap) (o : Cell) (key : List UInt8) : Option Cell :=
  match o with
  | .nodes _ head => do return ((← Ring.search (named buf key) (heap.length + 1) heap head).map Content.value).getD .null
  | _ => some .null

/-- C++ `at`: the iterator moves on until the index is reached. -/
def itemAt (heap : Heap) (o : Cell) (index : Nat) : Option Cell :=
  match o with
  | .nodes .array head => do
    match ← Ring.advance heap index head with
    | none => return .null
    | some i => return (← heap[i]?).val.value
  | _ => some .null

inductive Access where
  | child (key : List UInt8)
  | itemAt (index : Nat)

/-- Accessors one behind the other. -/
def follow (buf : List UInt8) (heap : Heap) : List Access → Cell → Option Cell
  | [], o => some o
  | .child key :: path, o => do follow buf heap path (← child buf heap o key)
  | .itemAt index :: path, o => do follow buf heap path (← itemAt heap o index)

/-- The same accessors on the tree. -/
def followTree : List Access → JsonValue → Option JsonValue
  | [], v => some v
  | .child key :: path, v => do followTree path (← v.child key)
  | .itemAt index :: path, v => followTree path (v.itemAt index)

/-- What an accessor gives: the null value, or one that stands for this value. -/
def Reads (toInt : List UInt8 → Int) (heap : Heap) (buf : List UInt8) (C : Nat → Prop) (o : Cell) (v : JsonValue) : Prop :=
  (o = .null ∧ v = .null) ∨ ∃ n, Represents toInt heap buf C n o v

section
variable {toInt : List UInt8 → Int} {heap : Heap} {buf : List UInt8} {C : Nat → Prop} {n i : Nat} {o : Cell} {v : JsonValue}
  {s : List UInt8}

lemma cString_at (h : StringAt buf i s) : cString buf i = some s := by
  obtain ⟨rest, e, clean⟩ := h
  have ends : cStr (0 :: rest) = [] := rfl
  rw [cString, e, if_pos (by simp), cStr_append clean, ends, List.append_nil]

theorem child_reads (h : Reads toInt heap buf C o v) (key : List UInt8) :
    Option.Rel (Reads toInt heap buf C) (child buf heap o key) (v.child key) := by
  rcases h with ⟨rfl, rfl⟩ | ⟨n, h⟩
  · exact .some (.inl ⟨rfl, rfl⟩)
  cases n with
  | zero => exact h.elim
  | succ n =>
    cases h with
    | object listed =>
      have agree : ∀ (a : Content) (m : List UInt8 × JsonValue),
          ((∃ k, a.key = some k ∧ StringAt buf k m.1) ∧ Represents toInt heap buf C n a.value m.2) →
          named buf key a = some (key.isPrefixOf m.1) := by
        rintro a m ⟨⟨k, e, at_⟩, -⟩
        rw [named, e, Option.bind_eq_bind, Option.bind_some, cString_at at_]
        rfl
      obtain ⟨a, run, found⟩ := listed.search agree (Nat.lt_succ_of_le listed.length_le)
      rw [child, JsonValue.child, run]
      generalize List.find? _ _ = x at found
      cases found with
      | none => exact .some (.inl ⟨rfl, rfl⟩)
      | some h => exact .some (.inr ⟨n, h.2⟩)
    | @array head items listed =>
      cases listed with
      | nil => exact .some (.inl ⟨rfl, rfl⟩)
      | cons _ at_ hv _ =>
        simp only [child, JsonValue.child, Ring.search, at_, named, hv.1, Option.bind_eq_bind, Option.bind_some, Option.bind_none]
        exact .none
    | true => exact .some (.inl ⟨rfl, rfl⟩)
    | false => exact .some (.inl ⟨rfl, rfl⟩)
    | number => exact .some (.inl ⟨rfl, rfl⟩)
    | string => exact .some (.inl ⟨rfl, rfl⟩)

theorem itemAt_reads (h : Reads toInt heap buf C o v) (index : Nat) :
    ∃ c, itemAt heap o index = some c ∧ Reads toInt heap buf C c (v.itemAt index) := by
  rcases h with ⟨rfl, rfl⟩ | ⟨n, h⟩
  · exact ⟨_, rfl, .inl ⟨rfl, rfl⟩⟩
  cases n with
  | zero => exact h.elim
  | succ n =>
    cases h with
    | @array head items listed =>
      obtain ⟨q, e, rest⟩ := listed.advance index
      rw [itemAt, e, JsonValue.itemAt, Option.bind_eq_bind, Option.bind_some]
      have pick : items.getD index .null = (items.drop index).head?.getD .null := by
        rw [List.head?_drop]
        rfl
      rw [pick]
      generalize items.drop index = items at rest
      cases rest with
      | nil => exact ⟨_, rfl, .inl ⟨rfl, rfl⟩⟩
      | @cons i node _ _ _ at_ hv =>
        simp only [at_, Option.bind_eq_bind, Option.bind_some]
        exact ⟨_, rfl, .inr ⟨n, hv.2⟩⟩
    | _ => exact ⟨_, rfl, .inl ⟨rfl, rfl⟩⟩

lemma follow_reads (h : Reads toInt heap buf C o v) (path : List Access) :
    Option.Rel (Reads toInt heap buf C) (follow buf heap path o) (followTree path v) := by
  induction path generalizing o v with
  | nil => exact .some h
  | cons access path ih =>
    cases access with
    | child key =>
      have one := child_reads h key
      rw [follow, followTree]
      generalize child buf heap o key = x at one
      generalize v.child key = y at one
      cases one with
      | none => exact .none
      | some h' => exact ih h'
    | itemAt index =>
      obtain ⟨c, e, h'⟩ := itemAt_reads h index
      rw [follow, followTree, e]
      exact ih h'

/-- On what the parser leaves, the accessors read the value of the text. -/
theorem jsonParse_follow {text : List UInt8} {r : Option (List UInt8)} {st : State} (h0 : 0 ∉ text)
    (run : jsonParse text = some (.OK, st, some o)) (document : Document toInt text v r) (path : List Access) :
    Option.Rel (Reads toInt st.heap st.buf fun _ => True) (follow st.buf st.heap path o) (followTree path v) := by
  obtain ⟨st', o', run', gives⟩ := (gives_iff h0).2 ((parse_iff text).2 document)
  rw [run, Option.some.injEq, Prod.mk.injEq, Prod.mk.injEq, Option.some.injEq] at run'
  obtain ⟨-, rfl, rfl⟩ := run'
  exact follow_reads (.inr gives.value) path

theorem jsonParse_follow_sloppy : ∃ st o, jsonParse (bytes "[1 2,]") = some (.OK, st, some o) ∧
    Option.Rel (Reads (strtol 10) st.heap st.buf fun _ => True) (follow st.buf st.heap [.itemAt 1] o) (some (.number 2)) := by
  have e : parse (strtol 10) (bytes "[1 2,]") = some (.OK, some (.array [.number 1, .number 2], some [])) := rfl
  obtain ⟨st, o, run, _⟩ := (gives_iff (by decide)).2 e
  exact ⟨st, o, run, jsonParse_follow (by decide) run ((parse_iff _).1 e) [.itemAt 1]⟩

end

end ArrowheadCore.Json.Gason
