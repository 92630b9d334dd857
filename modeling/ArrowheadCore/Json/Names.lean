import ArrowheadCore.Json.Escaping

/-!
# Member names and strings

`parse_key` and `parse_string` read the same literals by different rules: a name may have control characters in it and
any four bytes behind a `\u`, and it is kept as it stands in the text. So a name is treated as the string it spells
exactly if it spells itself, or if no reader takes it.
-/

namespace ArrowheadCore.Json
open Lib JsonView Grammar

/-- C++ `JsonObject::find` of any key -/
def findKey (members : List (List UInt8 × JsonNode)) (key : List UInt8) : Option JsonNode :=
  (members.find? fun m => m.1 == key).map Prod.snd

lemma find_eq_findKey (members : List (List UInt8 × JsonNode)) (key : String) :
    find members key = findKey members (bytes key) := rfl

/-- The literal is read as a name, up to its closing quote. -/
def ReadAsName (pre content rest : List UInt8) : Prop :=
  ∃ name, parse_key (pre ++ (literal content ++ rest)) (pos (pre ++ bytes "\"")) = (name, pos (pre ++ literal content))

/-- The literal is read as the string `s`. -/
def ReadAsString (pre content rest s : List UInt8) : Prop :=
  parse_string (pre ++ (literal content ++ rest)) (pos (pre ++ bytes "\"")) = (s, pos (pre ++ literal content))

/-- The object with one member, as a text. -/
def memberDocument (content value : List UInt8) : List UInt8 :=
  bytes "\x7b" ++ (literal content ++ (bytes ":" ++ (value ++ bytes "\x7d")))

/-- Names are strings: wherever the literal stands, it is read as a name if and only if it is read as a string; and if it
    is the string `s`, an object with this name has a member under the key `s` and under no other. -/
def NameIsString (content : List UInt8) : Prop :=
  (∀ pre rest, ReadAsName pre content rest ↔ ∃ s, ReadAsString pre content rest s) ∧
  ∀ s, ReadAsString [] content [] s → ∀ value v, Document jsonView max_depth value v →
    ∃ members, parse_throw_on_error (memberDocument content value) .STANDARD = some (.ok (.object members)) ∧
      ∀ key, (findKey members key).isSome ↔ s = key

/-! ## What the readers take -/

section
variable {pre content rest s : List UInt8}

lemma literal_split (pre content rest : List UInt8) :
    pre ++ (literal content ++ rest) = pre ++ bytes "\"" ++ (content ++ '"'.toUInt8 :: rest) := by
  have quote : bytes "\"" = ['"'.toUInt8] := by decide
  simp [literal, quote]

lemma pos_literal (pre content rest : List UInt8) :
    pos (pre ++ literal content) = cursor (pre ++ (literal content ++ rest)) rest := by
  rw [pos_eq_cursor _ rest, List.append_assoc]

lemma cursor_content (pre content rest : List UInt8) :
    pos (pre ++ bytes "\"") = cursor (pre ++ (literal content ++ rest)) (content ++ '"'.toUInt8 :: rest) := by
  rw [literal_split, ← pos_eq_cursor]

lemma suffix_content (pre content rest : List UInt8) :
    content ++ '"'.toUInt8 :: rest <:+ pre ++ (literal content ++ rest) := by
  rw [literal_split]
  exact List.suffix_append _ _

/-- The rest of a text is where the cursor stands. -/
lemma cursor_injective {text a b : List UInt8} (ha : a <:+ text) (hb : b <:+ text) (h : cursor text a = cursor text b) :
    a = b := by
  have e := congrArg (fun p : JsonParser => text.drop p.i) h
  simpa only [drop_cursor ha, drop_cursor hb] using e

lemma readAsName_iff : ReadAsName pre content rest ↔ IsName content := by
  constructor
  · rintro ⟨name, h⟩
    rw [cursor_content pre content rest, pos_literal pre content rest] at h
    have hs := suffix_content pre content rest
    obtain ⟨rest', split, hn, same⟩ := parse_key_sound hs h rfl
    have behind := suffix_of_cons (suffix_of_append hs)
    have behind' : rest' <:+ pre ++ (literal content ++ rest) := by
      rw [split] at hs
      exact suffix_of_cons (suffix_of_append hs)
    obtain rfl := cursor_injective behind behind' same
    rw [List.append_cancel_right split]
    exact hn
  · intro h
    refine ⟨content, ?_⟩
    rw [cursor_content pre content rest, pos_literal pre content rest]
    exact parse_key_cursor h (suffix_content pre content rest)

lemma readAsString_iff : ReadAsString pre content rest s ↔ Spells (-1) content s := by
  constructor
  · intro h
    rw [ReadAsString, cursor_content pre content rest, pos_literal pre content rest] at h
    have hs := suffix_content pre content rest
    obtain ⟨t, rest', split, ht, same⟩ := parse_string_sound hs h rfl
    have behind := suffix_of_cons (suffix_of_append hs)
    have behind' : rest' <:+ pre ++ (literal content ++ rest) := by
      rw [split] at hs
      exact suffix_of_cons (suffix_of_append hs)
    obtain rfl := cursor_injective behind behind' same
    rw [List.append_cancel_right split]
    exact ht
  · exact fun h => parse_string_literal h pre rest

end

/-! ## Escapes are longer than what they stand for -/

lemma length_encode (n : Nat) (h : n < 0x10000) : (encode_utf8 n).length ≤ 3 := by
  show (encode_utf8 (Int.ofNat n)).length ≤ 3
  simp only [encode_utf8, if_pos h]
  split_ifs <;> simp

lemma length_encode_le (n : Int) : (encode_utf8 n).length ≤ 4 := by
  cases n with
  | ofNat n =>
    simp only [encode_utf8]
    split_ifs <;> simp
  | negSucc n => simp [encode_utf8]

/-- A literal with an escape is longer than what it spells. -/
lemma Grammar.Spells.clean_or_shorter {last : Int} {content s : List UInt8} (h : Spells last content s) :
    (Clean content ∧ s.length = (encode_utf8 last).length + content.length) ∨
      s.length < (encode_utf8 last).length + content.length := by
  have none : encode_utf8 (-1) = [] := rfl
  induction h with
  | nil last => exact .inl ⟨by simp [Clean], by simp⟩
  | @plain last c t out h1 h2 h3 _ ih =>
    rw [none, List.length_nil, Nat.zero_add] at ih
    simp only [List.length_append, List.length_cons]
    obtain ⟨clean, e⟩ | e := ih
    · refine .inl ⟨?_, by omega⟩
      simp only [Clean, List.forall_mem_cons]
      exact ⟨⟨h1, h2, h3⟩, clean⟩
    · exact .inr (by omega)
  | @short last e c t out _ _ ih =>
    rw [none, List.length_nil, Nat.zero_add] at ih
    simp only [List.length_append, List.length_cons]
    exact .inr (by omega)
  | @hex last a b c d t out digits _ ih =>
    right
    simp only [List.length_append, List.length_cons]
    rcases eq_or_ne (joinEscapes last (number 16 [a, b, c, d])).2 (-1) with pair | single
    · have le : (joinEscapes last (number 16 [a, b, c, d])).1.length ≤ (encode_utf8 last).length + 4 := by
        rw [joinEscapes]
        split
        · exact Nat.le_add_left_of_le (length_encode_le _)
        · exact Nat.le_add_right _ _
      rw [pair, none, List.length_nil, Nat.zero_add] at ih
      omega
    · have unit : joinEscapes last (number 16 [a, b, c, d]) = (encode_utf8 last, (number 16 [a, b, c, d] : Int)) := by
        rw [joinEscapes] at single ⊢
        split
        · next h => exact absurd (by rw [if_pos h]) single
        · rfl
      have less : number 16 [a, b, c, d] < 16 ^ 4 := number_lt_pow (List.all_eq_true.1 digits)
      have := length_encode (number 16 [a, b, c, d]) (by omega)
      rw [unit] at ih ⊢
      simp only at ih ⊢
      omega

/-! ## When names are strings -/

lemma spells_self_iff {content : List UInt8} : Spells (-1) content content ↔ Clean content := by
  constructor
  · intro h
    have none : encode_utf8 (-1) = [] := rfl
    obtain ⟨clean, -⟩ | less := h.clean_or_shorter
    · exact clean
    · simp [none] at less
  · exact spells_clean

/-- An object with one member is read as such, under the name that stands in the text. -/
lemma parse_memberDocument {content value : List UInt8} {v : JsonNode} (hk : IsName content)
    (hv : Document jsonView max_depth value v) :
    parse_throw_on_error (memberDocument content value) .STANDARD = some (.ok (.object [(content, v)])) := by
  obtain ⟨s1, s2, h1, h2, h3⟩ := hv
  let brace : List UInt8 := bytes "\x7d"
  have text : memberDocument content value =
      '{'.toUInt8 :: ('"'.toUInt8 :: (content ++ '"'.toUInt8 :: (':'.toUInt8 :: (value ++ brace)))) := by
    have open_ : bytes "\x7b" = ['{'.toUInt8] := by decide
    have quote : bytes "\"" = ['"'.toUInt8] := by decide
    have colon : bytes ":" = [':'.toUInt8] := by decide
    simp [memberDocument, literal, open_, quote, colon, brace]
  have member : Member jsonView (Value jsonView max_depth)
      ('"'.toUInt8 :: (content ++ '"'.toUInt8 :: (':'.toUInt8 :: (value ++ brace)))) (content, v) (s2 ++ brace) :=
    .mk (Skips.refl _) hk (Skips.refl _) (h1.append brace) (h2.append brace)
  have close : Skips jsonView (s2 ++ brace) ('}'.toUInt8 :: []) := h3.append brace
  refine parse_of_document ⟨_, [], Skips.refl _, ?_, Skips.refl _⟩ .STANDARD
  rw [text]
  exact .object (.last member close)

lemma document_null (n : Nat) : Document jsonView (n + 1) (bytes "null") .null :=
  ⟨bytes "null", [], Skips.refl _, .null [], Skips.refl _⟩

lemma clean_of_nameIsString {content : List UInt8} (h : NameIsString content) (name : IsName content) : Clean content := by
  obtain ⟨same, found⟩ := h
  obtain ⟨s, hs⟩ := (same [] []).1 (readAsName_iff.2 name)
  obtain ⟨members, parsed, only⟩ := found s hs (bytes "null") .null (document_null _)
  rw [parse_memberDocument name (document_null _)] at parsed
  obtain rfl : [(content, JsonNode.null)] = members := by simpa using parsed
  have here : s = content := (only content).1 (by simp [findKey])
  rw [readAsString_iff, here] at hs
  exact spells_self_iff.1 hs

/-- For every literal: it is the same as a name and as a string if and only if it has neither a backslash nor a control
    character, or it is no name at all. -/
theorem nameIsString_iff (content : List UInt8) : NameIsString content ↔ Clean content ∨ ¬IsName content := by
  constructor
  · intro h
    by_cases name : IsName content
    · exact .inl (clean_of_nameIsString h name)
    · exact .inr name
  · rintro (clean | none)
    · have spells := spells_clean clean
      have name := isName_of_spells spells
      refine ⟨fun pre rest => ⟨fun _ => ⟨content, readAsString_iff.2 spells⟩, fun _ => readAsName_iff.2 name⟩, ?_⟩
      intro s hs value v hv
      have itself : ReadAsString [] content [] content := readAsString_iff.2 spells
      obtain rfl : content = s := congrArg Prod.fst (itself.symm.trans hs)
      refine ⟨_, parse_memberDocument name hv, fun key => ?_⟩
      by_cases h : content = key
      · simp [findKey, h]
      · simp [findKey, h]
    · have no : ∀ s, ¬Spells (-1) content s := fun s h => none (isName_of_spells h)
      refine ⟨fun pre rest => ?_, fun s hs => absurd (readAsString_iff.1 hs) (no s)⟩
      rw [readAsName_iff]
      exact ⟨fun h => absurd h none, fun ⟨s, hs⟩ => absurd (readAsString_iff.1 hs) (no s)⟩

/-- Two spellings of a string that are two names. -/
theorem name_spelled_twice :
    ReadAsString [] (bytes "\\u0061") [] (bytes "a") ∧ ReadAsString [] (bytes "a") [] (bytes "a") ∧
    ¬NameIsString (bytes "\\u0061") := by
  refine ⟨by unfold ReadAsString; decide +kernel, by unfold ReadAsString; decide +kernel, fun h => ?_⟩
  have name : IsName (bytes "\\u0061") := .hex (a := 48) (b := 48) (c := 54) (d := 49) .nil
  have clean := clean_of_nameIsString h name
  exact absurd (clean '\\'.toUInt8 (by decide +kernel)) (by decide +kernel)

end ArrowheadCore.Json
