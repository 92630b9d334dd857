import ArrowheadCore.Json.Escaping

/-!
# Unicode escapes

The content of a string is a sequence of pieces: characters that are written as one `\u` escape or as the escapes of a
surrogate pair, bytes that stand for themselves, and short escapes. `parse_string` writes an escaped code point one step
late, in case a second half follows. Whatever the order of the pieces, it gives the UTF-8 encodings and the bytes in
that order.
-/

namespace ArrowheadCore.Json
open Lib JsonView Grammar

/-- Four hexadecimal digits of either case and their value. -/
structure CodeUnit where
  a : UInt8
  b : UInt8
  c : UInt8
  d : UInt8
  digits : [a, b, c, d].all (isDigitOf 16)

def CodeUnit.value (u : CodeUnit) : Nat := number 16 [u.a, u.b, u.c, u.d]

def CodeUnit.text (u : CodeUnit) : List UInt8 := ['\\'.toUInt8, 'u'.toUInt8, u.a, u.b, u.c, u.d]

/-- The letters of the short escapes and what they stand for. -/
def shortEscapes : List (UInt8 × UInt8) :=
  [('b'.toUInt8, 8), ('f'.toUInt8, 12), ('n'.toUInt8, 10), ('r'.toUInt8, 13), ('t'.toUInt8, 9),
    ('"'.toUInt8, '"'.toUInt8), ('\\'.toUInt8, '\\'.toUInt8), ('/'.toUInt8, '/'.toUInt8)]

/-- A part of the content of a string. -/
inductive Piece where
  /-- a scalar value up to U+FFFF -/
  | escaped (char : Char) (u : CodeUnit) (h : u.value = char.toNat)
  /-- a scalar value above U+FFFF -/
  | surrogates (char : Char) (high low : CodeUnit) (above : 0xFFFF < char.toNat)
    (hhigh : high.value = 0xD800 + (char.toNat - 0x10000) / 2 ^ 10)
    (hlow : low.value = 0xDC00 + (char.toNat - 0x10000) % 2 ^ 10)
  | raw (byte : UInt8) (h : 0x1f < byte.toNat ∧ byte ≠ '"'.toUInt8 ∧ byte ≠ '\\'.toUInt8)
  | short (letter byte : UInt8) (h : (letter, byte) ∈ shortEscapes)

/-- The piece in the literal. -/
def Piece.text : Piece → List UInt8
  | .escaped _ u _ => u.text
  | .surrogates _ high low _ _ _ => high.text ++ low.text
  | .raw byte _ => [byte]
  | .short letter _ _ => ['\\'.toUInt8, letter]

/-- What the piece stands for. -/
def Piece.bytes : Piece → List UInt8
  | .escaped char _ _ => String.utf8EncodeChar char
  | .surrogates char _ _ _ _ _ => String.utf8EncodeChar char
  | .raw byte _ => [byte]
  | .short _ byte _ => [byte]

/-! ## The encoding -/

lemma toNat_lt (char : Char) : char.toNat < 0x110000 := by
  obtain h | h := char.valid
  · exact Nat.lt_trans h (by decide)
  · exact h.2

lemma encode_utf8_char (char : Char) : encode_utf8 char.toNat = String.utf8EncodeChar char := by
  have bound := toNat_lt char
  show encode_utf8 (Int.ofNat char.toNat) = _
  have value : char.val.toNat = char.toNat := rfl
  simp only [encode_utf8, String.utf8EncodeChar, value]
  generalize char.toNat = n at bound
  by_cases h1 : n < 0x80
  · rw [if_pos h1, if_pos (Nat.le_of_lt_succ h1)]
  rw [if_neg h1, if_neg (show ¬n ≤ 0x7f by omega)]
  by_cases h2 : n < 0x800
  · rw [if_pos h2, if_pos (Nat.le_of_lt_succ h2), Nat.mod_eq_of_lt (show n / 64 < 0x20 by omega)]
    rfl
  rw [if_neg h2, if_neg (show ¬n ≤ 0x7ff by omega)]
  by_cases h3 : n < 0x10000
  · rw [if_pos h3, if_pos (Nat.le_of_lt_succ h3), Nat.mod_eq_of_lt (show n / 4096 < 0x10 by omega)]
    rfl
  · rw [if_neg h3, if_neg (show ¬n ≤ 0xffff by omega), Nat.mod_eq_of_lt (show n / 262144 < 8 by omega)]
    rfl

/-! ## The pieces one behind the other -/

/-- No first half of a pair is waiting for the second. -/
def Calm (last : Int) : Prop := ¬(0xD800 ≤ last ∧ last ≤ 0xDBFF)

/-- A code unit behind a code point that waits for nothing: that one is written, and the unit is kept. -/
lemma Grammar.Spells.unit {last : Int} (hl : Calm last) (u : CodeUnit) {s out : List UInt8} (h : Spells u.value s out) :
    Spells last (u.text ++ s) (encode_utf8 last ++ out) := by
  have join : joinEscapes last (number 16 [u.a, u.b, u.c, u.d]) = (encode_utf8 last, (u.value : Int)) := by
    rw [joinEscapes, if_neg fun h => hl ⟨h.1, h.2.1⟩, CodeUnit.value]
  have spells : Spells last (u.text ++ s) ((joinEscapes last (number 16 [u.a, u.b, u.c, u.d])).1 ++ out) :=
    .hex u.digits (by rwa [join])
  rwa [join] at spells

/-- The second half of a pair. -/
lemma Grammar.Spells.second {high : Int} (u : CodeUnit) (hh : 0xD800 ≤ high ∧ high ≤ 0xDBFF)
    (hu : 0xDC00 ≤ u.value ∧ u.value ≤ 0xDFFF) {s out : List UInt8} (h : Spells (-1) s out) :
    Spells high (u.text ++ s) (encode_utf8 ((high - 0xD800) * 2 ^ 10 + (u.value - 0xDC00) + 0x10000) ++ out) := by
  have join : joinEscapes high (number 16 [u.a, u.b, u.c, u.d]) =
      (encode_utf8 ((high - 0xD800) * 2 ^ 10 + (u.value - 0xDC00) + 0x10000), -1) := by
    rw [joinEscapes, if_pos ⟨hh.1, hh.2, by exact_mod_cast hu.1, by exact_mod_cast hu.2⟩, CodeUnit.value]
  have spells : Spells high (u.text ++ s) ((joinEscapes high (number 16 [u.a, u.b, u.c, u.d])).1 ++ out) :=
    .hex u.digits (by rwa [join])
  rwa [join] at spells

lemma shortEscape_of_mem {letter byte : UInt8} (h : (letter, byte) ∈ shortEscapes) : shortEscape letter = some byte := by
  have all : (shortEscapes.all fun e => shortEscape e.1 = some e.2) = true := by decide
  exact of_decide_eq_true (List.all_eq_true.1 all _ h)

/-- A scalar value is no half of a pair. -/
lemma calm_char (char : Char) : Calm char.toNat := by
  intro h
  have value : char.val.toNat = char.toNat := rfl
  obtain hv | hv := char.valid
  · rw [value] at hv
    omega
  · rw [value] at hv
    omega

/-- Behind a code point that waits for nothing the pieces spell what they stand for. -/
lemma spells_pieces (ps : List Piece) : ∀ last : Int, Calm last →
    Spells last (ps.flatMap Piece.text) (encode_utf8 last ++ ps.flatMap Piece.bytes) := by
  have none : Calm (-1) := by
    intro h
    omega
  induction ps with
  | nil =>
    intro last _
    rw [List.flatMap_nil, List.flatMap_nil, List.append_nil]
    exact .nil last
  | cons p ps ih =>
    intro last calm
    rw [List.flatMap_cons, List.flatMap_cons]
    cases p with
    | escaped char u h =>
      have rest := ih u.value (by rw [h]; exact calm_char char)
      rw [h, encode_utf8_char] at rest
      rw [← h] at rest
      exact .unit calm u rest
    | surrogates char high low above hhigh hlow =>
      have bound := toNat_lt char
      have whole : ((high.value : Int) - 0xD800) * 2 ^ 10 + (low.value - 0xDC00) + 0x10000 = char.toNat := by omega
      have first : (0xD800 : Int) ≤ high.value ∧ (high.value : Int) ≤ 0xDBFF := by omega
      have rest := Spells.second low first (by omega) (ih (-1) none)
      rw [whole, encode_utf8_char] at rest
      have spells := Spells.unit calm high rest
      rwa [← List.append_assoc] at spells
    | raw byte h => exact .plain h.1 h.2.1 h.2.2 (ih (-1) none)
    | short letter byte h => exact .short (shortEscape_of_mem h) (ih (-1) none)

/-- For every sequence of pieces, wherever the literal stands: `parse_string` gives the encodings and the bytes in order
    and stands behind the closing quote. -/
theorem parse_string_pieces (ps : List Piece) (pre rest : List UInt8) :
    parse_string (pre ++ (literal (ps.flatMap Piece.text) ++ rest)) (pos (pre ++ bytes "\"")) =
      (ps.flatMap Piece.bytes, pos (pre ++ literal (ps.flatMap Piece.text))) := by
  have spells := spells_pieces ps (-1) fun h => by omega
  exact parse_string_literal spells pre rest

end ArrowheadCore.Json
