import Mathlib.Data.Nat.Digits.Defs
import ArrowheadCore.Json.Acceptance
import ArrowheadCore.Json.Converted

/-!
# Texts of trees

Embedding of `JsonNode::dump` (`utils/json/JsonView.h`, and `utils/json/JsonCView.h`, which has the same text) and of
the loop that escapes a string, which is also the one of `JsonBuilder::write_val`. How a double is written is a
parameter.

A tree without doubles that was read has a text of the grammar, and that text is read as the same tree.
-/

namespace ArrowheadCore.Json
open Lib

/-- A digit of `%x`. -/
def hexDigit (n : Nat) : UInt8 := UInt8.ofNat (if n < 10 then n + 48 else n + 87)

/-- C `snprintf(buf, sizeof buf, "\\u%04x", ch)` of a control character -/
def hexEscape (ch : UInt8) : List UInt8 := bytes "\\u00" ++ [hexDigit (ch.toNat / 16), hexDigit (ch.toNat % 16)]

/-- The loop over the characters of a string. Behind its end the look-ahead reads the terminator. -/
def escapeLoop : List UInt8 → List UInt8
  | [] => []
  | ch :: s =>
    if ch = '\\'.toUInt8 then bytes "\\\\" ++ escapeLoop s
    else if ch = '"'.toUInt8 then bytes "\\\"" ++ escapeLoop s
    else if ch = 8 then bytes "\\b" ++ escapeLoop s
    else if ch = 12 then bytes "\\f" ++ escapeLoop s
    else if ch = 10 then bytes "\\n" ++ escapeLoop s
    else if ch = 13 then bytes "\\r" ++ escapeLoop s
    else if ch = 9 then bytes "\\t" ++ escapeLoop s
    else if ch.toNat ≤ 0x1f then hexEscape ch ++ escapeLoop s
    else
      match s with
      | a :: b :: t =>
        if ch = 0xe2 ∧ a = 0x80 ∧ b = 0xa8 then bytes "\\u2028" ++ escapeLoop t
        else if ch = 0xe2 ∧ a = 0x80 ∧ b = 0xa9 then bytes "\\u2029" ++ escapeLoop t
        else ch :: escapeLoop (a :: b :: t)
      | s => ch :: escapeLoop s

/-- A string in quotes. -/
def quoted (s : List UInt8) : List UInt8 := bytes "\"" ++ (escapeLoop s ++ bytes "\"")

namespace JsonView

section
variable (format : List UInt8 → List UInt8)

mutual

/-- C++ `dump` -/
def dump : JsonNode → List UInt8
  | .null => bytes "null"
  | .bool b => if b then bytes "true" else bytes "false"
  | .int z => to_string z
  | .double literal => format literal
  | .string s => quoted s
  | .array items => bytes "[" ++ (dumpItems true items ++ bytes "]")
  | .object members => bytes "\x7b" ++ (dumpMembers true members ++ bytes "\x7d")

def dumpItems (first : Bool) : List JsonNode → List UInt8
  | [] => []
  | v :: vs => (if first then [] else bytes ", ") ++ (dump v ++ dumpItems false vs)

def dumpMembers (first : Bool) : List (List UInt8 × JsonNode) → List UInt8
  | [] => []
  | m :: ms => (if first then [] else bytes ", ") ++ (dumpMember m ++ dumpMembers false ms)

def dumpMember : List UInt8 × JsonNode → List UInt8
  | (key, v) => bytes "\"" ++ (key ++ (bytes "\":" ++ dump v))

end

end

mutual

/-- A tree without doubles. -/
def NoDouble : JsonNode → Prop
  | .double _ => False
  | .array items => NoDoubles items
  | .object members => NoDoubleMembers members
  | _ => True

def NoDoubles : List JsonNode → Prop
  | [] => True
  | v :: vs => NoDouble v ∧ NoDoubles vs

def NoDoubleMembers : List (List UInt8 × JsonNode) → Prop
  | [] => True
  | m :: ms => NoDoubleMember m ∧ NoDoubleMembers ms

def NoDoubleMember : List UInt8 × JsonNode → Prop
  | (_, v) => NoDouble v

end

/-! ## Strings -/

open Grammar

lemma hexEscape_number {ch : UInt8} (h : ch.toNat ≤ 0x1f) :
    ∃ c d, hexEscape ch = '\\'.toUInt8 :: 'u'.toUInt8 :: '0'.toUInt8 :: '0'.toUInt8 :: [c, d] ∧
      ['0'.toUInt8, '0'.toUInt8, c, d].all (isDigitOf 16) ∧ number 16 ['0'.toUInt8, '0'.toUInt8, c, d] = ch.toNat := by
  refine ⟨_, _, rfl, ?_⟩
  generalize ch.toNat = n at h
  interval_cases n <;> decide

lemma encode_byte {n : Nat} (h : n < 0x80) : encode_utf8 n = [UInt8.ofNat n] := by
  show encode_utf8 (Int.ofNat n) = _
  simp only [encode_utf8, if_pos h]

/-- A code point that is no half of a pair is written as it is, whatever is escaped behind it. -/
lemma Spells.calm {last : Int} (hl : last < 0xD800) {a b c d : UInt8} (digits : [a, b, c, d].all (isDigitOf 16)) {n : Nat}
    (hn : number 16 [a, b, c, d] = n) {s out : List UInt8} (h : Spells n s out) :
    Spells last ('\\'.toUInt8 :: 'u'.toUInt8 :: a :: b :: c :: d :: s) (encode_utf8 last ++ out) := by
  have join : joinEscapes last (number 16 [a, b, c, d]) = (encode_utf8 last, (n : Int)) := by
    rw [joinEscapes, if_neg (by omega), hn]
  rw [show encode_utf8 last = (joinEscapes last (number 16 [a, b, c, d])).1 by rw [join]]
  apply Spells.hex digits
  rwa [join]

/-- An escaped string spells the string. -/
lemma spells_escapeLoop (s : List UInt8) : ∀ last : Int, last < 0xD800 → Spells last (escapeLoop s) (encode_utf8 last ++ s) := by
  fun_induction escapeLoop s with
  | case1 =>
    intro last _
    rw [List.append_nil]
    exact .nil last
  | case2 s ih => exact fun last _ => .short rfl (ih (-1) (by decide))
  | case3 s _ ih => exact fun last _ => .short rfl (ih (-1) (by decide))
  | case4 s _ _ ih => exact fun last _ => .short rfl (ih (-1) (by decide))
  | case5 s _ _ _ ih => exact fun last _ => .short rfl (ih (-1) (by decide))
  | case6 s _ _ _ _ ih => exact fun last _ => .short rfl (ih (-1) (by decide))
  | case7 s _ _ _ _ _ ih => exact fun last _ => .short rfl (ih (-1) (by decide))
  | case8 s _ _ _ _ _ _ ih => exact fun last _ => .short rfl (ih (-1) (by decide))
  | case9 ch s _ _ _ _ _ _ _ h ih =>
    intro last calm
    obtain ⟨c, d, e, digits, value⟩ := hexEscape_number h
    have byte : encode_utf8 (ch.toNat : Int) = [ch] := by
      rw [encode_byte (by omega), UInt8.ofNat_toNat]
    rw [e]
    have spells := Spells.calm calm digits value (ih ch.toNat (by omega))
    rwa [byte] at spells
  | case10 ch t _ _ _ _ _ _ _ _ a b h ih =>
    obtain ⟨rfl, rfl, rfl⟩ := h
    intro last calm
    have digits : ['2'.toUInt8, '0'.toUInt8, '2'.toUInt8, '8'.toUInt8].all (isDigitOf 16) := by decide
    exact Spells.calm calm digits (n := 0x2028) (by decide) (ih 0x2028 (by decide))
  | case11 ch t _ _ _ _ _ _ _ _ a b _ h ih =>
    obtain ⟨rfl, rfl, rfl⟩ := h
    intro last calm
    have digits : ['2'.toUInt8, '0'.toUInt8, '2'.toUInt8, '9'.toUInt8].all (isDigitOf 16) := by decide
    exact Spells.calm calm digits (n := 0x2029) (by decide) (ih 0x2029 (by decide))
  | case12 ch h1 h2 _ _ _ _ _ h3 a b t _ _ ih =>
    exact fun last _ => .plain (Nat.not_le.1 h3) h2 h1 (ih (-1) (by decide))
  | case13 ch h1 h2 _ _ _ _ _ h3 s _ ih =>
    exact fun last _ => .plain (Nat.not_le.1 h3) h2 h1 (ih (-1) (by decide))

lemma spells_quoted (s : List UInt8) : Spells (-1) (escapeLoop s) s := spells_escapeLoop s (-1) (by decide)

/-! ## Numbers -/

/-- An integer has no more characters than any text of it. -/
lemma decimal_length_le {ds : List UInt8} (hd : IsDigits ds) : (decimal (number 10 ds)).length ≤ ds.length := by
  rw [decimal, List.length_map]
  exact Nat.toDigits_length 10 _ _ (List.length_pos_iff.2 hd.1) (number_lt_pow hd.2)

lemma isInt_to_string (z : Int) : IsInt (to_string z) := by
  have digits : ∀ n, IsDigits (decimal n) := fun n => ⟨decimal_ne_nil n, decimal_digits n⟩
  have zero : ∀ n, (decimal n).head? = some '0'.toUInt8 → decimal n = ['0'.toUInt8] := by
    intro n h
    by_cases hn : n = 0
    · subst hn
      decide
    · obtain ⟨d, ds, e, -, h0⟩ := decimal_head hn
      rw [e] at h
      exact absurd (Option.some.inj h) h0
  cases z with
  | ofNat n => exact ⟨[], decimal n, rfl, .inl rfl, digits n, zero n⟩
  | negSucc n => exact ⟨['-'.toUInt8], decimal (n + 1), rfl, .inr rfl, digits _, zero _⟩

/-- The value of a short integer. -/
lemma strtol_short {sign ds : List UInt8} (hsign : sign = [] ∨ sign = ['-'.toUInt8]) (hd : IsDigits ds)
    (hn : ds.length ≤ digits10) :
    strtol 10 (sign ++ ds) = if sign = [] then (number 10 ds : Int) else -(number 10 ds : Int) := by
  have bound : number 10 ds ≤ LONG_MAX := by
    have := number_lt_pow hd.2
    have : 10 ^ ds.length ≤ 10 ^ 9 := Nat.pow_le_pow_right (by decide) hn
    unfold LONG_MAX
    omega
  have nonzero : 0 ∉ ds := by
    intro h0
    have := hd.2 0 h0
    revert this
    decide
  have alone : ds.takeWhile (isDigitOf 10) = ds := List.takeWhile_eq_self_iff.2 hd.2
  obtain ⟨d, ds', e⟩ := List.exists_cons_of_ne_nil hd.1
  have digit : isDigit d := hd.2 d (by simp [e])
  have blank : isspace d = false := isspace_of_isalnum (isalnum_of_isDigitOf (by decide) digit)
  obtain rfl | rfl := hsign
  · have plain : takeSign (ds.dropWhile isspace) = (false, ds) := by
      rw [e, List.dropWhile_cons_of_neg (by simp [blank]), takeSign, if_neg (digit_head digit).1,
        if_neg (digit_head digit).2.1]
    simp only [strtol, List.nil_append, cStr_eq nonzero, plain, alone, Nat.reduceEqDiff, if_false, if_true,
      Bool.false_eq_true]
    omega
  · have nonzero' : 0 ∉ '-'.toUInt8 :: ds := by
      rw [List.mem_cons, not_or]
      exact ⟨by decide, nonzero⟩
    have minus : takeSign (('-'.toUInt8 :: ds).dropWhile isspace) = (true, ds) := by
      rw [List.dropWhile_cons_of_neg (by decide)]
      rfl
    simp only [strtol, List.singleton_append, cStr_eq nonzero', minus, alone, Nat.reduceEqDiff, if_false, if_true,
      List.cons_ne_self]
    omega

/-- The text of a short integer is short, and of the same value. -/
lemma isNumber_to_string {s : List UInt8} (hi : IsInt s) (hn : s.length ≤ digits10) :
    IsNumber (to_string (strtol 10 s)) (.int (strtol 10 s)) := by
  have short : (to_string (strtol 10 s)).length ≤ digits10 := by
    obtain ⟨sign, ds, rfl, hsign, hd, -⟩ := hi
    have len := decimal_length_le hd
    rw [List.length_append] at hn
    rw [strtol_short hsign hd (by omega)]
    obtain rfl | rfl := hsign
    · rw [if_pos rfl]
      show (decimal (number 10 ds)).length ≤ digits10
      omega
    · rw [if_neg (by simp)]
      cases e : number 10 ds with
      | zero => decide
      | succ n =>
        rw [e] at len
        rw [show -((n + 1 : Nat) : Int) = Int.negSucc n from rfl]
        simp only [to_string, List.length_cons, List.length_nil] at hn ⊢
        omega
  have value : strtol 10 (to_string (strtol 10 s)) = strtol 10 s := by
    have ends : EndsNumber [] := by
      intro c hc
      cases hc
    have := strtol_to_string (natAbs_le_of_length short) ends
    rwa [List.append_nil] at this
  have number := IsNumber.int (isInt_to_string (strtol 10 s)) short
  rwa [value] at number

/-! ## Trees -/

section
variable {V : List UInt8 → JsonNode → List UInt8 → Prop} {s rest : List UInt8}

lemma skips_blank {c : UInt8} (hc : isBlank c) (h : Skips jsonView s rest) : Skips jsonView (c :: s) rest := by
  obtain ⟨w, rfl, hw⟩ := h
  refine ⟨c :: w, rfl, ?_⟩
  intro d hd
  obtain rfl | hd := List.mem_cons.1 hd
  · exact hc
  · exact hw d hd

lemma items_blank {c : UInt8} (hc : isBlank c) {vs : List JsonNode} (h : Items jsonView V s vs rest) :
    Items jsonView V (c :: s) vs rest := by
  cases h with
  | last h1 hv h2 => exact .last (skips_blank hc h1) hv h2
  | more h1 hv h2 h3 => exact .more (skips_blank hc h1) hv h2 h3

lemma members_blank {c : UInt8} (hc : isBlank c) {ms : List (List UInt8 × JsonNode)} (h : Members jsonView V s ms rest) :
    Members jsonView V (c :: s) ms rest := by
  have member : ∀ {m t}, Member jsonView V s m t → Member jsonView V (c :: s) m t := by
    rintro m t ⟨h1, hk, h2, h3, hv⟩
    exact .mk (skips_blank hc h1) hk h2 h3 hv
  cases h with
  | last h1 h2 => exact .last (member h1) h2
  | more h1 h2 h3 => exact .more (member h1) h2 h3

variable (format : List UInt8 → List UInt8) {D : Dialect} {V' : List UInt8 → JsonNode → List UInt8 → Prop}

lemma dumpItems_false (v : JsonNode) (vs : List JsonNode) :
    dumpItems format false (v :: vs) = ','.toUInt8 :: ' '.toUInt8 :: dumpItems format true (v :: vs) := by
  simp only [dumpItems, Bool.false_eq_true, if_false, if_true, List.nil_append]
  rfl

lemma dumpMembers_false (m : List UInt8 × JsonNode) (ms : List (List UInt8 × JsonNode)) :
    dumpMembers format false (m :: ms) = ','.toUInt8 :: ' '.toUInt8 :: dumpMembers format true (m :: ms) := by
  simp only [dumpMembers, Bool.false_eq_true, if_false, if_true, List.nil_append]
  rfl

lemma items_dump (hV : ∀ {s v rest}, V s v rest → NoDouble v → ∀ t, V' (dump format v ++ t) v t) {vs : List JsonNode}
    (h : Items D V s vs rest) (hn : NoDoubles vs) (t : List UInt8) :
    Items jsonView V' (dumpItems format true vs ++ ']'.toUInt8 :: t) vs t := by
  induction h with
  | last h1 hv h2 =>
    simp only [dumpItems, if_true, List.nil_append, List.append_nil]
    exact .last (.refl _) (hV hv hn.1 _) (.refl _)
  | @more s s1 s2 s3 rest v vs h1 hv h2 h3 ih =>
    have tail := ih hn.2
    rw [dumpItems, if_pos rfl, List.nil_append, List.append_assoc]
    cases vs with
    | nil => cases h3
    | cons w ws =>
      rw [dumpItems_false]
      exact .more (.refl _) (hV hv hn.1 _) (.refl _) (items_blank (by decide) tail)

lemma member_dump (hV : ∀ {s v rest}, V s v rest → NoDouble v → ∀ t, V' (dump format v ++ t) v t)
    (hD : ∀ k, D.name k → IsName k) {m : List UInt8 × JsonNode} (h : Member D V s m rest) (hn : NoDoubleMember m)
    (t : List UInt8) : Member jsonView V' (dumpMember format m ++ t) m t := by
  obtain ⟨h1, hk, h2, h3, hv⟩ := h
  have text : ∀ k v, dumpMember format (k, v) ++ t =
      '"'.toUInt8 :: (k ++ '"'.toUInt8 :: (':'.toUInt8 :: (dump format v ++ t))) := by
    intro k v
    have colon : bytes "\":" = ['"'.toUInt8, ':'.toUInt8] := by decide
    have quote : bytes "\"" = ['"'.toUInt8] := by decide
    simp [dumpMember, colon, quote]
  rw [text]
  exact .mk (.refl _) (hD _ hk) (.refl _) (.refl _) (hV hv hn t)

lemma members_dump (hV : ∀ {s v rest}, V s v rest → NoDouble v → ∀ t, V' (dump format v ++ t) v t)
    (hD : ∀ k, D.name k → IsName k) {ms : List (List UInt8 × JsonNode)} (h : Members D V s ms rest)
    (hn : NoDoubleMembers ms) (t : List UInt8) :
    Members jsonView V' (dumpMembers format true ms ++ '}'.toUInt8 :: t) ms t := by
  induction h with
  | last h1 h2 =>
    simp only [dumpMembers, if_true, List.nil_append, List.append_nil]
    exact .last (member_dump format hV hD h1 hn.1 _) (.refl _)
  | @more s s1 s2 rest m ms h1 h2 h3 ih =>
    have tail := ih hn.2
    rw [dumpMembers, if_pos rfl, List.nil_append, List.append_assoc]
    cases ms with
    | nil => cases h3
    | cons m' ms' =>
      rw [dumpMembers_false]
      exact .more (member_dump format hV hD h1 hn.1 _) (.refl _) (members_blank (by decide) tail)

lemma layer_dump (hV : ∀ {s v rest}, V s v rest → NoDouble v → ∀ t, V' (dump format v ++ t) v t)
    (hD : ∀ k, D.name k → IsName k) {v : JsonNode} (h : Layer D V s v rest) (hn : NoDouble v) (t : List UInt8) :
    Layer jsonView V' (dump format v ++ t) v t := by
  have bracket : bytes "]" = [']'.toUInt8] := by decide
  have brace : bytes "\x7d" = ['}'.toUInt8] := by decide
  have arrayText : ∀ vs, dump format (.array vs) ++ t = '['.toUInt8 :: (dumpItems format true vs ++ ']'.toUInt8 :: t) := by
    intro vs
    have opening : bytes "[" = ['['.toUInt8] := by decide
    simp [dump, opening, bracket]
  have objectText : ∀ ms, dump format (.object ms) ++ t =
      '{'.toUInt8 :: (dumpMembers format true ms ++ '}'.toUInt8 :: t) := by
    intro ms
    have opening : bytes "\x7b" = ['{'.toUInt8] := by decide
    simp [dump, opening, brace]
  cases h with
  | null =>
    rw [dump]
    exact .null t
  | true =>
    rw [dump]
    exact .true t
  | false =>
    rw [dump]
    exact .false t
  | number _ h =>
    cases h with
    | int hi hlen =>
      rw [dump]
      exact .number t (isNumber_to_string hi hlen)
    | double => exact hn.elim
  | @string s out _ h =>
    have text : dump format (.string out) ++ t = '"'.toUInt8 :: (escapeLoop out ++ '"'.toUInt8 :: t) := by
      have quote : bytes "\"" = ['"'.toUInt8] := by decide
      simp [dump, quoted, quote]
    rw [text]
    exact .string t (spells_quoted out)
  | emptyArray =>
    rw [arrayText]
    exact .emptyArray (.refl _)
  | array h =>
    rw [arrayText]
    rw [NoDouble] at hn
    exact .array (items_dump format hV h hn t)
  | emptyObject =>
    rw [objectText]
    exact .emptyObject (.refl _)
  | object h =>
    rw [objectText]
    rw [NoDouble] at hn
    exact .object (members_dump format hV hD h hn t)

/-- The text of a tree that was read. -/
lemma value_dump (hD : ∀ k, D.name k → IsName k) {n : Nat} {v : JsonNode} (h : Value D n s v rest) (hn : NoDouble v)
    (t : List UInt8) : Value jsonView n (dump format v ++ t) v t := by
  induction n generalizing s v rest t with
  | zero => exact h.elim
  | succ n ih => exact layer_dump format (fun h hn t => ih h hn t) hD h hn t

/-! ### Terminators -/

lemma zero_escapeLoop (s : List UInt8) : 0 ∉ escapeLoop s := by
  have word : ∀ {w t : List UInt8}, 0 ∉ w → 0 ∉ t → 0 ∉ w ++ t := fun hw ht => by simp [hw, ht]
  have hex : ∀ {ch : UInt8}, ch.toNat ≤ 0x1f → 0 ∉ hexEscape ch := by
    intro ch h
    unfold hexEscape
    generalize ch.toNat = n at h
    interval_cases n <;> decide
  have plain : ∀ {ch : UInt8} {t : List UInt8}, ¬ch.toNat ≤ 0x1f → 0 ∉ t → 0 ∉ ch :: t := by
    intro ch t hc ht h
    obtain rfl | h := List.mem_cons.1 h
    · exact hc (by decide)
    · exact ht h
  fun_induction escapeLoop s with
  | case1 => simp
  | case9 ch s _ _ _ _ _ _ _ h ih => exact word (hex h) ih
  | case12 ch h1 h2 _ _ _ _ _ h3 a b t _ _ ih => exact plain h3 ih
  | case13 ch h1 h2 _ _ _ _ _ h3 s _ ih => exact plain h3 ih
  | _ => exact word (by decide) (by assumption)

lemma zero_suffix (h : rest <:+ s) (hs : 0 ∉ s) : 0 ∉ rest := fun h0 => hs (h.subset h0)

variable (hV : ∀ {s v rest}, V s v rest → rest <:+ s)
  (hZ : ∀ {s v rest}, V s v rest → 0 ∉ s → NoDouble v → 0 ∉ dump format v)

include hV hZ

lemma zero_dumpItems {vs : List JsonNode} (h : Items D V s vs rest) (hs : 0 ∉ s) (hn : NoDoubles vs) (first : Bool) :
    0 ∉ dumpItems format first vs := by
  have comma : 0 ∉ (if first then [] else bytes ", ") := by cases first <;> decide
  induction h generalizing first with
  | last h1 hv h2 =>
    have item := hZ hv (zero_suffix (h1.suffix List.suffix_rfl) hs) hn.1
    simp [dumpItems, comma, item]
  | more h1 hv h2 h3 ih =>
    have hs1 := zero_suffix (h1.suffix List.suffix_rfl) hs
    have item := hZ hv hs1 hn.1
    have hs3 := zero_suffix ((List.suffix_cons _ _).trans (h2.suffix (hV hv))) hs1
    have tail := ih hs3 hn.2 false (by decide)
    simp [dumpItems, comma, item, tail]

omit hV in
lemma zero_dumpMember {m : List UInt8 × JsonNode} (h : Member D V s m rest) (hs : 0 ∉ s) (hn : NoDoubleMember m) :
    0 ∉ dumpMember format m := by
  cases h with
  | mk h1 hk h2 h3 hv =>
    have name := (List.suffix_cons _ _).trans (h1.suffix List.suffix_rfl)
    have key := zero_suffix name hs
    have hs1 := zero_suffix ((List.suffix_cons _ _).trans (List.suffix_append _ _)) key
    have hs2 := zero_suffix ((List.suffix_cons _ _).trans (h2.suffix List.suffix_rfl)) hs1
    have value := hZ hv (zero_suffix (h3.suffix List.suffix_rfl) hs2) hn
    have quote : 0 ∉ bytes "\"" := by decide
    have colon : 0 ∉ bytes "\":" := by decide
    rw [List.mem_append, not_or] at key
    simp [dumpMember, quote, colon, key.1, value]

lemma zero_dumpMembers {ms : List (List UInt8 × JsonNode)} (h : Members D V s ms rest) (hs : 0 ∉ s)
    (hn : NoDoubleMembers ms) (first : Bool) : 0 ∉ dumpMembers format first ms := by
  have comma : 0 ∉ (if first then [] else bytes ", ") := by cases first <;> decide
  induction h generalizing first with
  | last h1 h2 =>
    have member := zero_dumpMember format hZ h1 hs hn.1
    simp [dumpMembers, comma, member]
  | more h1 h2 h3 ih =>
    have member := zero_dumpMember format hZ h1 hs hn.1
    have hs2 := zero_suffix ((List.suffix_cons _ _).trans (h2.suffix (h1.suffix hV))) hs
    have tail := ih hs2 hn.2 false (by decide)
    simp [dumpMembers, comma, member, tail]

omit hV hZ

/-- The text of a tree has no terminator if the text that it was read from has none. -/
lemma zero_dump {n : Nat} {v : JsonNode} (h : Value D n s v rest) (hs : 0 ∉ s) (hn : NoDouble v) : 0 ∉ dump format v := by
  induction n generalizing s v rest with
  | zero => exact h.elim
  | succ n ih =>
    have brackets : 0 ∉ bytes "[" ∧ 0 ∉ bytes "]" ∧ 0 ∉ bytes "\x7b" ∧ 0 ∉ bytes "\x7d" ∧ 0 ∉ bytes "\"" := by decide
    have tail : ∀ {c : UInt8} {t : List UInt8}, 0 ∉ c :: t → 0 ∉ t := fun h h0 => h (List.mem_cons_of_mem _ h0)
    cases h with
    | null =>
      rw [dump]
      decide
    | true =>
      rw [dump]
      decide
    | false =>
      rw [dump]
      decide
    | number _ h =>
      cases h with
      | int =>
        rw [dump]
        exact zero_to_string _
      | double => exact hn.elim
    | @string s out =>
      have := zero_escapeLoop out
      simp [dump, quoted, brackets, this]
    | emptyArray => simp [dump, dumpItems, brackets]
    | array h =>
      rw [NoDouble] at hn
      have := zero_dumpItems format Value.suffix ih h (tail hs) hn Bool.true
      simp [dump, brackets, this]
    | emptyObject => simp [dump, dumpMembers, brackets]
    | object h =>
      rw [NoDouble] at hn
      have := zero_dumpMembers format Value.suffix ih h (tail hs) hn Bool.true
      simp [dump, brackets, this]

/-- The text of a tree without doubles that was read is read as that tree, with either method. -/
theorem parse_dump {strategy : ParseMethod} {v : JsonNode} (h : parse_throw_on_error s strategy = some (.ok v))
    (hn : NoDouble v) (method : ParseMethod) : parse_throw_on_error (dump format v) method = some (.ok v) := by
  have hD : ∀ k, (dialect strategy).name k → IsName k := by
    intro k hk
    cases strategy <;> exact hk
  obtain ⟨s1, s2, -, value, -⟩ := document_of_parse h
  have text := value_dump format hD value hn []
  rw [List.append_nil] at text
  exact parse_of_document ⟨_, [], .refl _, text, .refl _⟩ method

end

end JsonView

end ArrowheadCore.Json
