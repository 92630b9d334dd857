import ArrowheadCore.Json.InPlace
import ArrowheadCore.Json.Written

/-!
# The loops that escape strings

Embedding of the three copies of the loop that writes a string literal: `write_val` and `to_array` of `JsonBuilder`
(`utils/json/JsonBuilder.h`), and the visitors for strings of `JsonView` and `JsonCView`. The copies differ in where the
text goes: to the stream, which overwrites, or behind a string. They read the string by index and look two characters
ahead, which behind the end is the terminator.

All three write the literal of `dump`, and `parse_string` reads the string from it.
-/

namespace ArrowheadCore.Json
open Lib JsonView Grammar

/-- What is written for the character at `i`, and the index of the next turn. -/
def escapeAt (value : List UInt8) (i : Nat) : List UInt8 × Nat :=
  let ch := char value i
  if ch = '\\'.toUInt8 then (bytes "\\\\", i + 1)
  else if ch = '"'.toUInt8 then (bytes "\\\"", i + 1)
  else if ch = 8 then (bytes "\\b", i + 1)
  else if ch = 12 then (bytes "\\f", i + 1)
  else if ch = 10 then (bytes "\\n", i + 1)
  else if ch = 13 then (bytes "\\r", i + 1)
  else if ch = 9 then (bytes "\\t", i + 1)
  else if ch.toNat ≤ 0x1f then (hexEscape ch, i + 1)
  else if ch = 0xe2 ∧ char value (i + 1) = 0x80 ∧ char value (i + 2) = 0xa8 then (bytes "\\u2028", i + 3)
  else if ch = 0xe2 ∧ char value (i + 1) = 0x80 ∧ char value (i + 2) = 0xa9 then (bytes "\\u2029", i + 3)
  else ([ch], i + 1)

lemma lt_ite {c : Prop} [Decidable c] {i : Nat} {a b : List UInt8 × Nat} (ha : i < a.2) (hb : i < b.2) :
    i < (if c then a else b).2 := by
  split <;> assumption

lemma lt_escapeAt (value : List UInt8) (i : Nat) : i < (escapeAt value i).2 := by
  unfold escapeAt
  repeat' apply lt_ite
  all_goals simp

/-- The loop from the index `i` on; `write` is what is done with a text. -/
def escapeFrom {σ : Type} (write : σ → List UInt8 → σ) (value : List UInt8) (i : Nat) (out : σ) : σ :=
  if i < value.length then escapeFrom write value (escapeAt value i).2 (write out (escapeAt value i).1) else out
termination_by value.length - i
decreasing_by
  have := lt_escapeAt value i
  omega

/-- C++ `write_val(const std::string &)` -/
def write_val (value : List UInt8) (o : Out) : Out :=
  (escapeFrom Out.put value 0 (o.put (bytes "\""))).put (bytes "\"")

/-- C++ `to_array(key, first, last)` of strings -/
def to_array (key : List UInt8) (items : List (List UInt8)) (o : Out) : Out :=
  let o := o.put (nameText key ++ bytes "[")
  let o := if items = [] then o else (items.foldl (fun o x => (write_val x o).put (bytes ",")) o).back
  o.put (bytes "],")

/-- C++ `JsonView::JsonNode::JsonNodeVisitor::operator()(const std::string *)` -/
def JsonView.visitString (value out : List UInt8) : List UInt8 :=
  escapeFrom (· ++ ·) value 0 (out ++ bytes "\"") ++ bytes "\""

/-- C++ `JsonCView::JsonNode::JsonNodeVisitor::operator()(const std::string *)` -/
def JsonCView.visitString (value out : List UInt8) : List UInt8 :=
  escapeFrom (· ++ ·) value 0 (out ++ bytes "\"") ++ bytes "\""

/-! ## The index and the list -/

lemma char_of_drop {value s : List UInt8} {i : Nat} (h : value.drop i = s) (k : Nat) : char value (i + k) = s.getD k 0 := by
  rw [← h, char]
  simp

/-- One turn of the loop. -/
lemma escapeLoop_drop {value : List UInt8} {i : Nat} (hi : i < value.length) :
    escapeLoop (value.drop i) = (escapeAt value i).1 ++ escapeLoop (value.drop (escapeAt value i).2) := by
  obtain ⟨ch, s, e⟩ : ∃ ch s, value.drop i = ch :: s := by
    rw [List.drop_eq_getElem_cons hi]
    exact ⟨_, _, rfl⟩
  have here : char value i = ch := char_of_drop e 0
  have one : char value (i + 1) = (ch :: s).getD 1 0 := char_of_drop e 1
  have two : char value (i + 2) = (ch :: s).getD 2 0 := char_of_drop e 2
  have next : value.drop (i + 1) = s := by
    rw [← List.drop_drop, e]
    rfl
  have last : value.drop (i + 3) = s.drop 2 := by
    rw [show i + 3 = i + 1 + 2 from rfl, ← List.drop_drop, next]
  let turn (r : List UInt8 × Nat) : List UInt8 := r.1 ++ escapeLoop (value.drop r.2)
  have one_on : ∀ t, t ++ escapeLoop s = turn (t, i + 1) := fun t => by rw [← next]
  have three_on : ∀ t, t ++ escapeLoop (s.drop 2) = turn (t, i + 3) := fun t => by rw [← last]
  -- both sides ask the same questions in the same order
  have ask : ∀ {c : Prop} [Decidable c] {x y : List UInt8} {a b : List UInt8 × Nat}, (c → x = turn a) → (¬c → y = turn b) →
      (if c then x else y) = turn (if c then a else b) := by
    intro c _ x y a b hx hy
    by_cases hc : c
    · rw [if_pos hc, if_pos hc, hx hc]
    · rw [if_neg hc, if_neg hc, hy hc]
  rw [e, escapeLoop.eq_def]
  simp only [escapeAt, here, one, two]
  refine ask (fun _ => one_on _) fun _ => ask (fun _ => one_on _) fun _ => ask (fun _ => one_on _) fun _ => ask
    (fun _ => one_on _) fun _ => ask (fun _ => one_on _) fun _ => ask (fun _ => one_on _) fun _ => ask
    (fun _ => one_on _) fun _ => ask (fun _ => one_on _) fun _ => ?_
  obtain _ | ⟨a, _ | ⟨b, t⟩⟩ := s
  · rw [if_neg (by simp), if_neg (by simp)]
    exact one_on [ch]
  · rw [if_neg (by simp), if_neg (by simp)]
    exact one_on [ch]
  · exact ask (fun _ => three_on _) fun _ => ask (fun _ => three_on _) fun _ => one_on [ch]

/-- Wherever a text goes behind the texts before it, the loop writes the escaped string there. -/
lemma escapeFrom_eq {σ : Type} {write : σ → List UInt8 → σ} (done : List UInt8 → σ)
    (hw : ∀ t s, write (done t) s = done (t ++ s)) (value : List UInt8) (i : Nat) (t : List UInt8) :
    escapeFrom write value i (done t) = done (t ++ escapeLoop (value.drop i)) := by
  fun_induction escapeFrom (fun t s => t ++ s) value i t with
  | case1 i t hi ih => rw [escapeFrom, if_pos hi, hw, ih, escapeLoop_drop hi, List.append_assoc]
  | case2 i t hi =>
    rw [escapeFrom, if_neg hi, List.drop_eq_nil_of_le (Nat.not_lt.1 hi), escapeLoop, List.append_nil]

lemma write_val_eq (value t : List UInt8) : write_val value (.ofText t) = .ofText (t ++ quoted value) := by
  rw [write_val, Out.put_ofText, escapeFrom_eq Out.ofText Out.put_ofText, Out.put_ofText, quoted, List.drop_zero]
  simp only [List.append_assoc]

lemma JsonView.visitString_eq (value out : List UInt8) : JsonView.visitString value out = out ++ quoted value := by
  have loop : escapeFrom (· ++ ·) value 0 (out ++ bytes "\"") = out ++ bytes "\"" ++ escapeLoop (value.drop 0) :=
    escapeFrom_eq id (fun _ _ => rfl) value 0 _
  rw [JsonView.visitString, loop, quoted, List.drop_zero]
  simp only [List.append_assoc]

lemma JsonCView.visitString_eq (value out : List UInt8) : JsonCView.visitString value out = out ++ quoted value :=
  JsonView.visitString_eq value out

lemma to_array_eq (key t : List UInt8) (items : List (List UInt8)) :
    to_array key items (.ofText t) = .ofText (t ++ (nameText key ++ (arrayText (items.map quoted) ++ bytes ","))) := by
  have loop : ∀ (items : List (List UInt8)) (t : List UInt8),
      items.foldl (fun o x => (write_val x o).put (bytes ",")) (.ofText t) = arrayLoop (items.map quoted) (.ofText t) := by
    intro items
    induction items with
    | nil => exact fun _ => rfl
    | cons x xs ih =>
      intro t
      rw [List.foldl_cons, write_val_eq, Out.put_ofText, ih]
      simp only [arrayLoop, List.map_cons, List.foldl_cons, Out.put_ofText]
  have object := to_arrayObj_eq key t (items.map quoted)
  simp only [to_arrayObj, Out.put_ofText, List.map_eq_nil_iff] at object
  simp only [to_array, Out.put_ofText, loop, object, membersText, memberText, List.flatMap_cons, List.flatMap_nil,
    List.append_nil, List.append_assoc]

/-! ## Reading what was written -/

lemma pos_eq_cursor (pre s : List UInt8) : pos pre = cursor (pre ++ s) s := by
  rw [cursor, pos, List.length_append, Nat.add_sub_cancel]

/-- A literal is its content between quotes. -/
def literal (content : List UInt8) : List UInt8 := bytes "\"" ++ (content ++ bytes "\"")

/-- `parse_string` reads what the content of a literal spells, wherever the literal stands. -/
lemma parse_string_literal {content s : List UInt8} (h : Spells (-1) content s) (pre rest : List UInt8) :
    parse_string (pre ++ (literal content ++ rest)) (pos (pre ++ bytes "\"")) = (s, pos (pre ++ literal content)) := by
  have quote : bytes "\"" = ['"'.toUInt8] := by decide
  have text : pre ++ (literal content ++ rest) = (pre ++ bytes "\"") ++ (content ++ '"'.toUInt8 :: rest) := by
    simp [literal, quote]
  have last : pos (pre ++ literal content) = cursor (pre ++ (literal content ++ rest)) rest := by
    rw [pos_eq_cursor _ rest, List.append_assoc]
  rw [last, text, pos_eq_cursor _ (content ++ '"'.toUInt8 :: rest)]
  exact parse_string_cursor h (List.suffix_append _ _)

lemma parse_array_quoted (items : List (List UInt8)) (method : ParseMethod) :
    parse_throw_on_error (arrayText (items.map quoted)) method = some (.ok (.array (items.map .string))) := by
  have values : List.Forall₂ (fun x v => ∀ rest, Value rfc 1 (x ++ rest) v rest) (items.map quoted)
      (items.map JsonNode.string) := by
    rw [List.forall₂_map_left_iff, List.forall₂_map_right_iff]
    exact List.forall₂_same.2 fun s _ => value_string (spells_quoted s)
  have value : Value rfc 2 (arrayText (items.map quoted) ++ []) (.array (items.map .string)) [] := by
    rw [show arrayText (items.map quoted) ++ [] = '['.toUInt8 :: (commaList (items.map quoted) ++ ']'.toUInt8 :: [])
      from arrayText_append _ [] []]
    by_cases h : items = []
    · subst h
      exact .emptyArray (skips_rfc _)
    · exact .array (items_commaList values (by simpa using h) [])
  rw [List.append_nil] at value
  exact parse_of_document ⟨_, [], .refl _, (value.mono rfc_sub).le (by decide), .refl _⟩ method

/-- For every list of strings the array that `to_array` writes is read as the list; and for every string the three loops
    write the same literal, which is also the one of `dump` and which `parse_string` of either view maps back to the
    string. -/
theorem string_literals :
    (∀ (key : List UInt8) (items : List (List UInt8)) (t : List UInt8), ∃ array,
      to_array key items (.ofText t) = .ofText (t ++ (nameText key ++ (array ++ bytes ","))) ∧
      ∀ method, parse_throw_on_error (cStr array) method = some (.ok (.array (items.map .string)))) ∧
    ∀ s : List UInt8, ∃ content, 0 ∉ content ∧
      (∀ t, write_val s (.ofText t) = .ofText (t ++ literal content)) ∧
      (∀ out, JsonView.visitString s out = out ++ literal content) ∧
      (∀ out, JsonCView.visitString s out = out ++ literal content) ∧
      (∀ format, JsonView.dump format (.string s) = literal content) ∧
      (∀ inPlace str format, JsonCView.dump inPlace str format (.string s) = literal content) ∧
      ∀ pre rest,
        JsonView.parse_string (pre ++ (literal content ++ rest)) (pos (pre ++ bytes "\"")) =
          (s, pos (pre ++ literal content)) ∧
        JsonCView.parse_string ⟨pre ++ (literal content ++ rest), pos (pre ++ bytes "\"")⟩ =
          (s, ⟨pre ++ (literal content ++ rest), pos (pre ++ literal content)⟩) := by
  constructor
  · intro key items t
    refine ⟨arrayText (items.map quoted), to_array_eq key t items, fun method => ?_⟩
    have zero : 0 ∉ arrayText (items.map quoted) := by
      refine zero_arrayText fun x hx => ?_
      obtain ⟨s, -, rfl⟩ := List.mem_map.1 hx
      have quote : 0 ∉ bytes "\"" := by decide
      simp [quoted, quote, zero_escapeLoop]
    rw [cStr_eq zero]
    exact parse_array_quoted items method
  · intro s
    have same : quoted s = literal (escapeLoop s) := rfl
    refine ⟨escapeLoop s, zero_escapeLoop s, write_val_eq s, JsonView.visitString_eq s, JsonCView.visitString_eq s,
      fun _ => by rw [JsonView.dump, same], fun _ _ _ => by rw [JsonCView.dump, same], fun pre rest => ?_⟩
    have view := parse_string_literal (spells_quoted s) pre rest
    exact ⟨view, by rw [JsonCView.parse_string, view]⟩

end ArrowheadCore.Json
