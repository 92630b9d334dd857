import ArrowheadCore.Json.Grammar
import ArrowheadCore.Json.Reads

/-!
# What the grammar derives is read

Here the position of the parser is what is left of the text: `cursor text s` stands in front of the suffix `s`. A
value of the grammar is read as its tree, wherever it stands and with either method, unless what follows would
continue a number.
-/

namespace ArrowheadCore.Json.JsonView
open Lib Grammar

/-- The parser in front of the suffix `s` of the text, without a failure. -/
def cursor (text s : List UInt8) : JsonParser := ⟨text.length - s.length, none⟩

section
variable {text s rest w : List UInt8} {c : UInt8}

lemma suffix_of_append (h : w ++ s <:+ text) : s <:+ text := (List.suffix_append w s).trans h

lemma suffix_of_cons (h : c :: s <:+ text) : s <:+ text := (List.suffix_cons c s).trans h

lemma drop_cursor (h : s <:+ text) : text.drop (cursor text s).i = s := (List.suffix_iff_eq_drop.1 h).symm

lemma cursor_le (text s : List UInt8) : (cursor text s).i ≤ text.length := Nat.sub_le _ _

@[simp] lemma cursor_failed (text s : List UInt8) : (cursor text s).failed = false := rfl

lemma cursor_forth (h : w ++ s <:+ text) : (cursor text (w ++ s)).forth w.length = cursor text s := by
  have := h.length_le
  rw [List.length_append] at this
  simp only [cursor, JsonParser.forth, JsonParser.mk.injEq, List.length_append, and_true]
  omega

lemma cursor_forth_one (h : c :: s <:+ text) : (cursor text (c :: s)).forth 1 = cursor text s := cursor_forth (w := [c]) h

lemma cursor_back (h : c :: s <:+ text) : (cursor text s).back = cursor text (c :: s) := by
  have := h.length_le
  rw [List.length_cons] at this
  simp only [cursor, JsonParser.back, JsonParser.mk.injEq, List.length_cons, and_true]
  omega

lemma char_cursor (h : s <:+ text) : char text (cursor text s).i = s.headD 0 := by
  have e := drop_cursor h
  rw [char, List.getD_eq_getElem?_getD, ← List.head?_drop, e]
  cases s <;> rfl

lemma skipWhile_cursor {f : UInt8 → Bool} (h : w ++ s <:+ text) (hw : ∀ c ∈ w, f c) (hs : ∀ c ∈ s.head?, f c = false) :
    skipWhile text f (cursor text (w ++ s)) = cursor text s := by
  have all : (w ++ s).takeWhile f = w := by
    rw [List.takeWhile_append_of_pos hw]
    cases s with
    | nil => simp
    | cons c cs => simp [hs c rfl]
  rw [skipWhile, drop_cursor h, all, cursor_forth h]

/-! ## Tokens -/

/-- A character that no method skips. -/
def Solid (c : UInt8) : Prop := isBlank c = false ∧ c ≠ '/'.toUInt8

instance (c : UInt8) : Decidable (Solid c) := inferInstanceAs (Decidable (_ ∧ _))

/-- The end of the text, or a character that no method skips. -/
def SolidHead (s : List UInt8) : Prop := ∀ c ∈ s.head?, Solid c

lemma SolidHead.cons (hc : Solid c) (s : List UInt8) : SolidHead (c :: s) := by
  rintro d hd
  cases hd
  exact hc

variable (strategy : ParseMethod)

lemma consume_whitespace_solid (hs : s <:+ text) (h : SolidHead s) : consume_whitespace text (cursor text s) = cursor text s :=
  skipWhile_cursor (w := []) hs (by simp) fun c hc => (h c hc).1

/-- The loop over comments ends where there is none. -/
lemma garbageLoop_solid (hs : s <:+ text) (h : SolidHead s) (n : Nat) :
    garbageLoop text (n + 1) (cursor text s) = some (cursor text s) := by
  have comment : consume_comment text (cursor text s) = (false, cursor text s) := by
    rw [consume_comment, char_cursor hs, if_neg]
    cases s with
    | nil => decide
    | cons c cs => exact (h c rfl).2
  simp [garbageLoop, comment, consume_whitespace_solid hs h]

lemma consume_garbage_cursor (hs : s <:+ text) (h : Skips jsonView s rest) (hr : SolidHead rest) :
    consume_garbage text strategy (cursor text s) = some (cursor text rest) := by
  obtain ⟨w, rfl, hw⟩ := h
  have blank : ∀ c ∈ rest.head?, isBlank c = false := fun c hc => (hr c hc).1
  have first : consume_whitespace text (cursor text (w ++ rest)) = cursor text rest := skipWhile_cursor hs hw blank
  rw [consume_garbage, first]
  split
  · exact garbageLoop_solid (suffix_of_append hs) hr text.length
  · rfl

/-- The token is the character behind the garbage. -/
lemma get_next_token_at {p : JsonParser} (hs : c :: rest <:+ text)
    (garbage : consume_garbage text strategy p = some (cursor text (c :: rest))) :
    get_next_token text strategy p = some (c, cursor text rest) := by
  have inside : (cursor text (c :: rest)).i ≠ text.length := by
    have := hs.length_le
    simp only [cursor, List.length_cons] at this ⊢
    omega
  rw [get_next_token, garbage]
  simp only [Option.bind_eq_bind, Option.bind_some, cursor_failed, Bool.false_eq_true, if_false, if_neg inside,
    char_cursor hs, List.headD_cons, cursor_forth_one hs]

lemma get_next_token_cursor (hs : s <:+ text) (h : Skips jsonView s (c :: rest)) (hc : Solid c) :
    get_next_token text strategy (cursor text s) = some (c, cursor text rest) :=
  get_next_token_at strategy (h.suffix hs) (consume_garbage_cursor strategy hs h (.cons hc rest))

/-! ## Names and strings -/

lemma forth_forth (p : JsonParser) (m n : Nat) : (p.forth m).forth n = p.forth (m + n) := by
  simp [JsonParser.forth, Nat.add_assoc]

lemma keyLoop_name {k : List UInt8} (hk : IsName k) (rest : List UInt8) (p : JsonParser) :
    keyLoop (k ++ '"'.toUInt8 :: rest) p = (true, p.forth (k.length + 1)) := by
  induction hk generalizing p with
  | nil =>
    rw [List.nil_append, keyLoop.eq_def]
    rfl
  | plain h1 h2 _ ih =>
    rw [List.cons_append, keyLoop.eq_def]
    simp only [if_neg h1, ne_eq, h2, not_false_eq_true, if_true, ih, forth_forth, List.length_cons]
    rw [Nat.add_comm 1]
  | @short e k he _ ih =>
    have quote : '\\'.toUInt8 ≠ '"'.toUInt8 := by decide
    have u : e ≠ 'u'.toUInt8 := by
      rintro rfl
      revert he
      decide
    rw [List.cons_append, List.cons_append, keyLoop.eq_def]
    simp only [if_neg quote, ne_eq, not_true_eq_false, if_false, if_neg u, he, if_true, ih, forth_forth, List.length_cons]
    rw [Nat.add_comm 2]
  | hex _ ih =>
    have quote : '\\'.toUInt8 ≠ '"'.toUInt8 := by decide
    simp only [List.cons_append]
    rw [keyLoop.eq_def]
    simp only [if_neg quote, ne_eq, not_true_eq_false, if_false, if_true, ih, forth_forth, List.length_cons]
    rw [Nat.add_comm 6]

lemma parse_key_cursor {k : List UInt8} (hk : IsName k) (hs : k ++ '"'.toUInt8 :: rest <:+ text) :
    parse_key text (cursor text (k ++ '"'.toUInt8 :: rest)) = (k, cursor text rest) := by
  have split : k ++ '"'.toUInt8 :: rest = (k ++ ['"'.toUInt8]) ++ rest := by simp
  have forth : (cursor text (k ++ '"'.toUInt8 :: rest)).forth (k.length + 1) = cursor text rest := by
    rw [split] at hs ⊢
    have := cursor_forth hs
    rwa [List.length_append, List.length_singleton] at this
  have length : (cursor text rest).i - (cursor text (k ++ '"'.toUInt8 :: rest)).i - 1 = k.length := by
    rw [← forth]
    simp [JsonParser.forth]
  simp only [parse_key, drop_cursor hs, keyLoop_name hk, forth, length, if_true, List.take_left]

lemma stringLoop_spells {last : Int} {out : List UInt8} (h : Spells last s out) (rest acc : List UInt8) (p : JsonParser) :
    stringLoop (s ++ '"'.toUInt8 :: rest) acc last p = (acc ++ out, p.forth (s.length + 1)) := by
  induction h generalizing acc p with
  | nil last =>
    rw [List.nil_append, stringLoop.eq_def]
    rfl
  | plain h0 h1 h2 _ ih =>
    rw [List.cons_append, stringLoop.eq_def]
    simp only [if_neg h1, if_neg (Nat.not_le.2 h0), ne_eq, h2, not_false_eq_true, if_true, ih, forth_forth,
      List.length_cons, List.append_assoc, List.singleton_append]
    rw [Nat.add_comm 1]
  | @short last e c s out he _ ih =>
    have quote : '\\'.toUInt8 ≠ '"'.toUInt8 := by decide
    have control : ¬('\\'.toUInt8).toNat ≤ 0x1f := by decide
    have u : e ≠ 'u'.toUInt8 := by
      rintro rfl
      cases he
    rw [List.cons_append, List.cons_append, stringLoop.eq_def]
    simp only [if_neg quote, if_neg control, ne_eq, not_true_eq_false, if_false, if_neg u, he, ih, forth_forth,
      List.length_cons, List.append_assoc, List.singleton_append]
    rw [Nat.add_comm 2]
  | hex hd _ ih =>
    have quote : '\\'.toUInt8 ≠ '"'.toUInt8 := by decide
    have control : ¬('\\'.toUInt8).toNat ≤ 0x1f := by decide
    simp only [List.cons_append]
    rw [stringLoop.eq_def]
    simp only [if_neg quote, if_neg control, ne_eq, not_true_eq_false, if_false, if_true, hd, ih, forth_forth,
      List.length_cons, List.append_assoc]
    rw [Nat.add_comm 6]

lemma parse_string_cursor {out : List UInt8} (h : Spells (-1) s out) (hs : s ++ '"'.toUInt8 :: rest <:+ text) :
    parse_string text (cursor text (s ++ '"'.toUInt8 :: rest)) = (out, cursor text rest) := by
  have split : s ++ '"'.toUInt8 :: rest = (s ++ ['"'.toUInt8]) ++ rest := by simp
  have forth : (cursor text (s ++ '"'.toUInt8 :: rest)).forth (s.length + 1) = cursor text rest := by
    rw [split] at hs ⊢
    have := cursor_forth hs
    rwa [List.length_append, List.length_singleton] at this
  rw [parse_string, drop_cursor hs, stringLoop_spells h, forth, List.nil_append]

/-! ## Numbers -/

lemma headD_of_ne_nil {s : List UInt8} (hs : s ≠ []) (rest : List UInt8) : (s ++ rest).headD 0 = s.headD 0 := by
  cases s with
  | nil => exact absurd rfl hs
  | cons c cs => rfl

lemma skip_digits {ds : List UInt8} (hd : ∀ d ∈ ds, isDigit d) (hr : EndsNumber rest) (hs : ds ++ rest <:+ text) :
    skipWhile text isDigit (cursor text (ds ++ rest)) = cursor text rest := skipWhile_cursor hs hd hr

lemma parse_digits_cursor {ds : List UInt8} (hd : IsDigits ds) (h0 : ds.head? = some '0'.toUInt8 → ds = ['0'.toUInt8])
    (hr : EndsNumber rest) (hs : ds ++ rest <:+ text) :
    parse_digits text (cursor text (ds ++ rest)) = (true, cursor text rest) := by
  obtain ⟨hne, hd⟩ := hd
  obtain ⟨d, ds, rfl⟩ := List.exists_cons_of_ne_nil hne
  rw [List.cons_append] at hs ⊢
  rw [parse_digits, char_cursor hs, List.headD_cons, cursor_forth_one hs]
  by_cases hz : d = '0'.toUInt8
  · obtain ⟨-, rfl⟩ := List.cons.inj (h0 (by rw [hz]; rfl))
    rw [List.nil_append] at hs ⊢
    simp only [if_pos hz, char_cursor (suffix_of_cons hs), isDigit_headD hr, Bool.false_eq_true, if_false]
  · have digit : isDigit d := hd d (by simp)
    rw [if_neg hz, if_pos digit, skip_digits (fun x hx => hd x (by simp [hx])) hr (suffix_of_cons hs)]

lemma digit_head {d : UInt8} (hd : isDigit d) : d ≠ '-'.toUInt8 ∧ d ≠ '+'.toUInt8 ∧ d ≠ '.'.toUInt8 := by
  refine ⟨?_, ?_, ?_⟩ <;>
  · rintro rfl
    revert hd
    decide

lemma parse_integer_cursor (h : IsInt s) (hr : EndsNumber rest) (hs : s ++ rest <:+ text) :
    parse_integer text (cursor text (s ++ rest)) = (true, cursor text rest) := by
  obtain ⟨sign, ds, rfl, hsign, hd, h0⟩ := h
  rw [parse_integer, char_cursor hs]
  obtain rfl | rfl := hsign
  · rw [List.nil_append] at hs ⊢
    obtain ⟨d, ds', rfl⟩ := List.exists_cons_of_ne_nil hd.1
    rw [List.cons_append, List.headD_cons, if_neg (digit_head (hd.2 d (by simp))).1]
    exact parse_digits_cursor hd h0 hr hs
  · rw [List.append_assoc, List.singleton_append] at hs ⊢
    rw [List.headD_cons, if_pos rfl, cursor_forth_one hs]
    exact parse_digits_cursor hd h0 hr (suffix_of_cons hs)

/-- What stands behind the integer part and behind the fraction does not continue them. -/
lemma endsNumber_exp {e : List UInt8} (he : IsExp e) (hr : Ends rest) : EndsNumber (e ++ rest) := by
  obtain rfl | ⟨mark, sign, ds, rfl, hm, -⟩ := he
  · exact hr.1
  · rintro c hc
    cases hc
    obtain rfl | rfl := hm <;> decide

lemma endsNumber_frac {f e : List UInt8} (hf : IsFrac f) (he : IsExp e) (hr : Ends rest) :
    EndsNumber (f ++ (e ++ rest)) := by
  obtain rfl | ⟨ds, rfl, -⟩ := hf
  · rw [List.nil_append]
    exact endsNumber_exp he hr
  · rintro c hc
    cases hc
    decide

lemma parse_fraction_cursor {f e : List UInt8} (hf : IsFrac f) (he : IsExp e) (hr : Ends rest)
    (hs : f ++ (e ++ rest) <:+ text) :
    parse_fraction text (cursor text (f ++ (e ++ rest))) = (true, cursor text (e ++ rest)) := by
  rw [parse_fraction, char_cursor hs]
  obtain rfl | ⟨ds, rfl, hd⟩ := hf
  · rw [List.nil_append, if_neg]
    obtain rfl | ⟨mark, sign, ds, rfl, hm, -⟩ := he
    · exact hr.2.1
    · rw [List.cons_append, List.headD_cons]
      obtain rfl | rfl := hm
      · decide
      · decide
  · obtain ⟨d, ds', e'⟩ := List.exists_cons_of_ne_nil hd.1
    have digit : isDigit d := hd.2 d (by simp [e'])
    rw [List.cons_append] at hs ⊢
    have skip := skip_digits hd.2 (endsNumber_exp he hr) (suffix_of_cons hs)
    have first : (ds ++ (e ++ rest)).headD 0 = d := by rw [e']; rfl
    rw [List.headD_cons, if_pos rfl, cursor_forth_one hs]
    simp only [char_cursor (suffix_of_cons hs), first, digit, Bool.not_true, Bool.false_eq_true, if_false, skip]

lemma parse_exponent_cursor {e : List UInt8} (he : IsExp e) (hr : Ends rest) (hs : e ++ rest <:+ text) :
    parse_exponent text (cursor text (e ++ rest)) = (true, cursor text rest) := by
  rw [parse_exponent, char_cursor hs]
  obtain rfl | ⟨mark, sign, ds, rfl, hm, hsign, hd⟩ := he
  · rw [List.nil_append, if_neg (not_or.2 ⟨hr.2.2.1, hr.2.2.2⟩)]
  · obtain ⟨d, ds', e⟩ := List.exists_cons_of_ne_nil hd.1
    have digit : isDigit d := hd.2 d (by simp [e])
    rw [List.cons_append, List.append_assoc] at hs ⊢
    have inner := suffix_of_cons hs
    have skip := skip_digits hd.2 hr.1 (suffix_of_append inner)
    have first : (ds ++ rest).headD 0 = d := by rw [e]; rfl
    have signed : (if char text (cursor text (sign ++ (ds ++ rest))).i = '+'.toUInt8 ∨
        char text (cursor text (sign ++ (ds ++ rest))).i = '-'.toUInt8 then
          (cursor text (sign ++ (ds ++ rest))).forth 1 else cursor text (sign ++ (ds ++ rest))) =
        cursor text (ds ++ rest) := by
      rw [char_cursor inner]
      obtain rfl | rfl | rfl := hsign
      · rw [List.nil_append, first, if_neg (not_or.2 ⟨(digit_head digit).2.1, (digit_head digit).1⟩)]
      · exact (if_pos (.inl rfl)).trans (cursor_forth_one inner)
      · exact (if_pos (.inr rfl)).trans (cursor_forth_one inner)
    rw [List.headD_cons, if_pos hm, cursor_forth_one hs]
    simp only [signed, char_cursor (suffix_of_append inner), first, digit, Bool.not_true, Bool.false_eq_true, if_false, skip]

/-- A number in front of a text. -/
lemma strtol_int (h : IsInt s) (hr : EndsNumber rest) : strtol 10 (s ++ rest) = strtol 10 s := by
  obtain ⟨sign, ds, rfl, hsign, hd, -⟩ := h
  have nonzero : 0 ∉ ds := by
    intro h0
    have := hd.2 0 h0
    revert this
    decide
  have digits : (ds ++ cStr rest).takeWhile (isDigitOf 10) = ds := takeWhile_digits hd.2 hr.cStr
  have alone : ds.takeWhile (isDigitOf 10) = ds := List.takeWhile_eq_self_iff.2 hd.2
  obtain ⟨d, ds', e⟩ := List.exists_cons_of_ne_nil hd.1
  have digit : isDigit d := hd.2 d (by simp [e])
  have blank : isspace d = false := isspace_of_isalnum (isalnum_of_isDigitOf (by decide) digit)
  obtain rfl | rfl := hsign
  · have plain : ∀ t, takeSign ((ds ++ t).dropWhile isspace) = (false, ds ++ t) := by
      intro t
      rw [e, List.cons_append, List.dropWhile_cons_of_neg (by simp [blank]), takeSign, if_neg (digit_head digit).1,
        if_neg (digit_head digit).2.1]
    have this := plain []
    rw [List.append_nil] at this
    simp only [strtol, List.nil_append, cStr_append nonzero, cStr_eq nonzero, plain, this, digits, alone,
      Nat.reduceEqDiff, if_false]
  · have nonzero' : 0 ∉ '-'.toUInt8 :: ds := by
      rw [List.mem_cons, not_or]
      exact ⟨by decide, nonzero⟩
    have minus : ∀ t, takeSign (('-'.toUInt8 :: t).dropWhile isspace) = (true, t) := by
      intro t
      rw [List.dropWhile_cons_of_neg (by decide)]
      rfl
    have before : cStr ('-'.toUInt8 :: (ds ++ rest)) = '-'.toUInt8 :: (ds ++ cStr rest) := cStr_append nonzero' rest
    rw [List.singleton_append, List.cons_append]
    simp only [strtol, before, cStr_eq nonzero', minus, digits, alone, Nat.reduceEqDiff, if_false]

lemma parse_number_cursor {v : JsonNode} (h : IsNumber s v) (hr : Ends rest) (hs : s ++ rest <:+ text) :
    parse_number text (cursor text (s ++ rest)) = (v, cursor text rest) := by
  have length : ∀ {a b}, a ++ b <:+ text → (cursor text b).i - (cursor text (a ++ b)).i = a.length := by
    intro a b hab
    rw [← cursor_forth hab]
    simp [JsonParser.forth]
  rw [parse_number]
  cases h with
  | int hi hn =>
    have short : char text (cursor text rest).i ≠ '.'.toUInt8 ∧ char text (cursor text rest).i ≠ 'e'.toUInt8 ∧
        char text (cursor text rest).i ≠ 'E'.toUInt8 ∧ (cursor text rest).i - (cursor text (s ++ rest)).i ≤ digits10 := by
      rw [length hs, char_cursor (suffix_of_append hs)]
      exact ⟨hr.2.1, hr.2.2.1, hr.2.2.2, hn⟩
    simp only [parse_integer_cursor hi hr.1 hs, Bool.not_true, Bool.false_eq_true, if_false, if_pos short]
    rw [drop_cursor hs, strtol_int hi hr.1]
  | @double i f e hi hf he hlong =>
    have whole := length hs
    have text0 := drop_cursor hs
    rw [List.append_assoc, List.append_assoc] at hs
    have integer := parse_integer_cursor hi (endsNumber_frac hf he hr) hs
    have notShort : ¬(char text (cursor text (f ++ (e ++ rest))).i ≠ '.'.toUInt8 ∧
        char text (cursor text (f ++ (e ++ rest))).i ≠ 'e'.toUInt8 ∧
        char text (cursor text (f ++ (e ++ rest))).i ≠ 'E'.toUInt8 ∧
        (cursor text (f ++ (e ++ rest))).i - (cursor text (i ++ (f ++ (e ++ rest)))).i ≤ digits10) := by
      rw [length hs, char_cursor (suffix_of_append hs)]
      rintro ⟨h1, h2, h3, h4⟩
      obtain rfl | ⟨ds, rfl, -⟩ := hf
      · obtain rfl | ⟨mark, sign, ds, rfl, rfl | rfl, -⟩ := he
        · exact absurd h4 (Nat.not_le.2 (hlong rfl rfl))
        · exact h2 rfl
        · exact h3 rfl
      · exact h1 rfl
    have fraction := parse_fraction_cursor hf he hr (suffix_of_append hs)
    have exponent := parse_exponent_cursor he hr (suffix_of_append (suffix_of_append hs))
    simp only [List.append_assoc] at whole text0 ⊢
    have literal : (i ++ (f ++ (e ++ rest))).take (i ++ (f ++ e)).length = i ++ (f ++ e) := by
      have split : i ++ (f ++ (e ++ rest)) = (i ++ (f ++ e)) ++ rest := by simp
      rw [split, List.take_left]
    simp only [integer, if_neg notShort, fraction, exponent, Bool.not_true, Bool.false_eq_true, if_false, whole, text0,
      literal]

/-! ## Values -/

lemma isNumber_head {v : JsonNode} (h : IsNumber s v) : ∃ c cs, s = c :: cs ∧ (c = '-'.toUInt8 ∨ isDigit c) := by
  have int : ∀ {i}, IsInt i → ∃ c cs, i = c :: cs ∧ (c = '-'.toUInt8 ∨ isDigit c) := by
    rintro i ⟨sign, ds, rfl, hsign, hd, -⟩
    obtain rfl | rfl := hsign
    · obtain ⟨d, ds', rfl⟩ := List.exists_cons_of_ne_nil hd.1
      exact ⟨d, ds', rfl, .inr (hd.2 d (by simp))⟩
    · exact ⟨_, ds, rfl, .inl rfl⟩
  cases h with
  | int h => exact int h
  | double h =>
    obtain ⟨c, cs, rfl, hc⟩ := int h
    exact ⟨c, _, rfl, hc⟩

lemma solid_number (hc : c = '-'.toUInt8 ∨ isDigit c) : Solid c ∧ c ≠ ']'.toUInt8 := by
  obtain rfl | hd := hc
  · decide
  · have other : ∀ {d}, isDigit d = false → c ≠ d := by
      rintro d h rfl
      rw [hd] at h
      cases h
    have blank : isBlank c = false := by
      simp [isBlank, other (d := ' '.toUInt8) (by decide), other (d := '\r'.toUInt8) (by decide),
        other (d := '\n'.toUInt8) (by decide), other (d := '\t'.toUInt8) (by decide)]
    exact ⟨⟨blank, other (by decide)⟩, other (by decide)⟩

/-- A value does not begin with a blank, a comment or the bracket of an array. -/
lemma layer_head {D : Dialect} {V : List UInt8 → JsonNode → List UInt8 → Prop} {v : JsonNode} (h : Layer D V s v rest) :
    ∃ c cs, s = c :: cs ∧ Solid c ∧ c ≠ ']'.toUInt8 := by
  cases h with
  | number _ h =>
    obtain ⟨c, cs, rfl, hc⟩ := isNumber_head h
    exact ⟨c, _, rfl, solid_number hc⟩
  | _ => exact ⟨_, _, rfl, by decide⟩

lemma value_head {D : Dialect} {n : Nat} {v : JsonNode} (h : Value D n s v rest) :
    ∃ c cs, s = c :: cs ∧ Solid c ∧ c ≠ ']'.toUInt8 := by
  cases n with
  | zero => exact h.elim
  | succ n => exact layer_head h

/-- Blanks and what no number goes on with. -/
lemma ends_of_skips (h : Skips jsonView s (c :: rest))
    (hc : isDigit c = false ∧ c ≠ '.'.toUInt8 ∧ c ≠ 'e'.toUInt8 ∧ c ≠ 'E'.toUInt8) : Ends s := by
  obtain ⟨w, rfl, hw⟩ := h
  cases w with
  | nil => exact ends_of_head hc rest
  | cons b bs =>
    refine ends_of_head ?_ _
    have blank := hw b (by simp)
    simp only [isBlank, Bool.or_eq_true, beq_iff_eq] at blank
    obtain ((rfl | rfl) | rfl) | rfl := blank <;> decide

lemma ends_of_skips_nil (h : Skips jsonView s []) : Ends s := by
  obtain ⟨w, rfl, hw⟩ := h
  cases w with
  | nil => exact ⟨(by intro c hc; cases hc), by decide⟩
  | cons b bs => exact ends_of_head (by
      have blank := hw b (by simp)
      simp only [isBlank, Bool.or_eq_true, beq_iff_eq] at blank
      obtain ((rfl | rfl) | rfl) | rfl := blank <;> decide) bs

end

section
variable {text : List UInt8} {strategy : ParseMethod} {D : Dialect}
  {parse : JsonParser → Option (JsonNode × JsonParser)} {V : List UInt8 → JsonNode → List UInt8 → Prop}
  {s rest : List UInt8}

/-- A dialect that the parser can read: it skips what stands between tokens, and that does not continue a number. -/
structure Readable (text : List UInt8) (strategy : ParseMethod) (D : Dialect) : Prop where
  nothing : D.blank []
  name : ∀ {k}, D.name k → IsName k
  token : ∀ {s c rest}, s <:+ text → Skips D s (c :: rest) → Solid c →
    get_next_token text strategy (cursor text s) = some (c, cursor text rest)
  ends : ∀ {s c rest}, Skips D s (c :: rest) →
    isDigit c = false ∧ c ≠ '.'.toUInt8 ∧ c ≠ 'e'.toUInt8 ∧ c ≠ 'E'.toUInt8 → Ends s

lemma readable_jsonView (text : List UInt8) (strategy : ParseMethod) : Readable text strategy jsonView :=
  ⟨by simp [jsonView, Blanks], fun h => h, get_next_token_cursor strategy, ends_of_skips⟩

lemma Readable.refl (hD : Readable text strategy D) (s : List UInt8) : Skips D s s := ⟨[], rfl, hD.nothing⟩

/-- The parser reads these values, with blanks in front of them. -/
structure Parses (text : List UInt8) (D : Dialect) (parse : JsonParser → Option (JsonNode × JsonParser))
    (V : List UInt8 → JsonNode → List UInt8 → Prop) : Prop where
  head : ∀ {s v rest}, V s v rest → ∃ c cs, s = c :: cs ∧ Solid c ∧ c ≠ ']'.toUInt8
  shorter : ∀ {s v rest}, V s v rest → rest.length < s.length
  parses : ∀ {s s1 v rest}, s <:+ text → Skips D s s1 → V s1 v rest → Ends rest →
    rest <:+ text ∧ parse (cursor text s) = some (v, cursor text rest)

/-- The loop over items, behind the token in front of which it begins. -/
lemma arrayLoop_items (hD : Readable text strategy D) (hV : Parses text D parse V) {vs : List JsonNode}
    (h : Items D V s vs rest) (hs : s <:+ text) (data : List JsonNode) {fuel : Nat} (hf : s.length ≤ fuel) :
    rest <:+ text ∧ ∃ c q, get_next_token text strategy (cursor text s) = some (c, q) ∧ c ≠ ']'.toUInt8 ∧
      arrayLoop text strategy parse fuel data q = some (.array (data ++ vs), cursor text rest) := by
  induction h generalizing data fuel with
  | @last s s1 s2 rest v h1 hv h2 =>
    obtain ⟨c, cs, rfl, solid, hc⟩ := hV.head hv
    have token := hD.token hs h1 solid
    obtain ⟨hs2, parsed⟩ := hV.parses (h1.suffix hs) (hD.refl _) hv (hD.ends h2 (by decide))
    have bracket := hD.token hs2 h2 (by decide)
    obtain ⟨n, rfl⟩ : ∃ n, fuel = n + 1 := by
      have := h1.length
      exact Nat.exists_eq_succ_of_ne_zero (by rw [List.length_cons] at this; omega)
    refine ⟨suffix_of_cons (h2.suffix hs2), c, _, token, hc, ?_⟩
    rw [arrayLoop, cursor_back (h1.suffix hs), parsed]
    simp only [Option.bind_eq_bind, Option.bind_some, cursor_failed, Bool.false_eq_true, if_false, bracket, if_true]
  | @more s s1 s2 s3 rest v vs h1 hv h2 _ ih =>
    obtain ⟨c, cs, rfl, solid, hc⟩ := hV.head hv
    have token := hD.token hs h1 solid
    obtain ⟨hs2, parsed⟩ := hV.parses (h1.suffix hs) (hD.refl _) hv (hD.ends h2 (by decide))
    have comma := hD.token hs2 h2 (by decide)
    have sep : ','.toUInt8 ≠ ']'.toUInt8 := by decide
    have l1 := h1.length
    have l2 := hV.shorter hv
    have l3 := h2.length
    rw [List.length_cons] at l1 l3
    obtain ⟨n, rfl⟩ : ∃ n, fuel = n + 1 := Nat.exists_eq_succ_of_ne_zero (by omega)
    obtain ⟨hrest, c', q, token', hc', loop⟩ :=
      ih (suffix_of_cons (h2.suffix hs2)) (data ++ [v]) (show _ ≤ n by rw [List.length_cons] at l2; omega)
    refine ⟨hrest, c, _, token, hc, ?_⟩
    rw [arrayLoop, cursor_back (h1.suffix hs), parsed]
    simp only [Option.bind_eq_bind, Option.bind_some, cursor_failed, Bool.false_eq_true, if_false, comma, if_neg sep, ne_eq,
      not_true_eq_false, token', loop]
    simp

/-- One turn of the loop over members, up to what stands behind the member. -/
lemma objectLoop_member (hD : Readable text strategy D) (hV : Parses text D parse V) {m : List UInt8 × JsonNode}
    (h : Member D V s m rest) (hs : s <:+ text) (hr : Ends rest) :
    rest <:+ text ∧ ∃ q, get_next_token text strategy (cursor text s) = some ('"'.toUInt8, q) ∧
      ∀ (data : List (List UInt8 × JsonNode)) (fuel : Nat),
        objectLoop text strategy parse (fuel + 1) '"'.toUInt8 data q = (do
          let (ch, p) ← get_next_token text strategy (cursor text rest)
          if ch = '}'.toUInt8 then some (.object (data ++ [m]), p)
          else if ch ≠ ','.toUInt8 then
            some (.null, p.fail (bytes "Expected ',' in object, got " ++ (esc ch ++ bytes ".")))
          else
            let (ch, p) ← get_next_token text strategy p
            objectLoop text strategy parse fuel ch (data ++ [m]) p) := by
  cases h with
  | mk h1 hk h2 h3 hv =>
    have token := hD.token hs h1 (by decide)
    have hs0 := suffix_of_cons (h1.suffix hs)
    have hs1 := suffix_of_cons (suffix_of_append hs0)
    have colon := hD.token hs1 h2 (by decide)
    have hs2 := suffix_of_cons (h2.suffix hs1)
    obtain ⟨hrest, parsed⟩ := hV.parses hs2 h3 hv hr
    refine ⟨hrest, _, token, fun data fuel => ?_⟩
    rw [objectLoop, parse_key_cursor (hD.name hk) hs0]
    simp only [ne_eq, not_true_eq_false, if_false, cursor_failed, Bool.false_eq_true, colon, Option.bind_eq_bind,
      Option.bind_some, parsed]

lemma objectLoop_members (hD : Readable text strategy D) (hV : Parses text D parse V)
    {ms : List (List UInt8 × JsonNode)} (h : Members D V s ms rest) (hs : s <:+ text)
    (data : List (List UInt8 × JsonNode)) {fuel : Nat} (hf : s.length ≤ fuel) :
    rest <:+ text ∧ ∃ q, get_next_token text strategy (cursor text s) = some ('"'.toUInt8, q) ∧
      objectLoop text strategy parse fuel '"'.toUInt8 data q = some (.object (data ++ ms), cursor text rest) := by
  induction h generalizing data fuel with
  | @last s s1 rest m hm h2 =>
    have l1 := hm.shorter hV.shorter
    obtain ⟨n, rfl⟩ : ∃ n, fuel = n + 1 := Nat.exists_eq_succ_of_ne_zero (by omega)
    obtain ⟨hs1, q, token, loop⟩ := objectLoop_member hD hV hm hs (hD.ends h2 (by decide))
    have bracket := hD.token hs1 h2 (by decide)
    refine ⟨suffix_of_cons (h2.suffix hs1), q, token, ?_⟩
    rw [loop, bracket]
    simp only [Option.bind_eq_bind, Option.bind_some, if_true]
  | @more s s1 s2 rest m ms hm h2 _ ih =>
    have l1 := hm.shorter hV.shorter
    have l2 := h2.length
    rw [List.length_cons] at l2
    obtain ⟨n, rfl⟩ : ∃ n, fuel = n + 1 := Nat.exists_eq_succ_of_ne_zero (by omega)
    obtain ⟨hs1, q, token, loop⟩ := objectLoop_member hD hV hm hs (hD.ends h2 (by decide))
    have comma := hD.token hs1 h2 (by decide)
    have sep : ','.toUInt8 ≠ '}'.toUInt8 := by decide
    obtain ⟨hrest, q', token', loop'⟩ := ih (suffix_of_cons (h2.suffix hs1)) (data ++ [m]) (show _ ≤ n by omega)
    refine ⟨hrest, q, token, ?_⟩
    rw [loop, comma]
    simp only [Option.bind_eq_bind, Option.bind_some, if_neg sep, ne_eq, not_true_eq_false, if_false, token', loop']
    simp

/-- A token that is the first character of a value. -/
lemma parse_json_token (hD : Readable text strategy D) {c : UInt8} {s1 : List UInt8} (hs : s <:+ text)
    (h : Skips D s (c :: s1)) (hc : Solid c) (n : Nat) :
    parse_json text strategy (n + 1) (cursor text s) =
      parse_value text strategy (parse_json text strategy n) c (cursor text s1) := by
  rw [parse_json, hD.token hs h hc]
  simp

lemma parse_word {word : String} {c : UInt8} {cs : List UInt8} (hw : bytes word = c :: cs) (res : JsonNode)
    (hs : bytes word ++ rest <:+ text) :
    expect text word res (cursor text (cs ++ rest)) = (res, cursor text rest) := by
  have length : word.length = (bytes word).length := by rw [bytes, List.length_map, String.length_toList]
  have here : (bytes word).isPrefixOf (bytes word ++ rest) = true := by simp
  have back : (cursor text (cs ++ rest)).back = cursor text (bytes word ++ rest) := by
    rw [hw, List.cons_append] at hs ⊢
    exact cursor_back hs
  simp only [expect, back, drop_cursor hs, here, if_true, length, cursor_forth hs]

/-- The values of one level more. -/
lemma parse_value_layer {n : Nat} (hD : Readable text strategy D) (hV : Parses text D (parse_json text strategy n) V)
    {s1 : List UInt8} {v : JsonNode} (hs : s <:+ text) (skip : Skips D s s1) (h : Layer D V s1 v rest)
    (hr : Ends rest) :
    rest <:+ text ∧ parse_json text strategy (n + 1) (cursor text s) = some (v, cursor text rest) := by
  have hs1 := skip.suffix hs
  have fuel : ∀ {t}, t <:+ text → t.length ≤ text.length + 1 := fun ht => Nat.le_succ_of_le ht.length_le
  cases h with
  | null =>
    have word : bytes "null" = 'n'.toUInt8 :: bytes "ull" := rfl
    rw [word, List.cons_append] at skip
    have digit : ¬('n'.toUInt8 = '-'.toUInt8 ∨ isDigit 'n'.toUInt8) := by decide
    rw [parse_json_token hD hs skip (by decide), parse_value, if_neg digit, if_neg (by decide), if_neg (by decide),
      if_pos rfl, parse_word word _ hs1]
    exact ⟨suffix_of_append hs1, rfl⟩
  | true =>
    have word : bytes "true" = 't'.toUInt8 :: bytes "rue" := rfl
    rw [word, List.cons_append] at skip
    have digit : ¬('t'.toUInt8 = '-'.toUInt8 ∨ isDigit 't'.toUInt8) := by decide
    rw [parse_json_token hD hs skip (by decide), parse_value, if_neg digit, if_pos rfl, parse_word word _ hs1]
    exact ⟨suffix_of_append hs1, rfl⟩
  | false =>
    have word : bytes "false" = 'f'.toUInt8 :: bytes "alse" := rfl
    rw [word, List.cons_append] at skip
    have digit : ¬('f'.toUInt8 = '-'.toUInt8 ∨ isDigit 'f'.toUInt8) := by decide
    rw [parse_json_token hD hs skip (by decide), parse_value, if_neg digit, if_neg (by decide), if_pos rfl,
      parse_word word _ hs1]
    exact ⟨suffix_of_append hs1, rfl⟩
  | number _ h =>
    have number := parse_number_cursor h hr hs1
    obtain ⟨c, cs, rfl, hc⟩ := isNumber_head h
    rw [List.cons_append] at skip number hs1
    rw [parse_json_token hD hs skip (solid_number hc).1, parse_value, if_pos hc, cursor_back hs1, number]
    exact ⟨suffix_of_append (suffix_of_cons hs1), rfl⟩
  | string _ h =>
    have digit : ¬('"'.toUInt8 = '-'.toUInt8 ∨ isDigit '"'.toUInt8) := by decide
    have inner := suffix_of_cons hs1
    rw [parse_json_token hD hs skip (by decide), parse_value, if_neg digit, if_neg (by decide), if_neg (by decide),
      if_neg (by decide), if_pos rfl, parse_string_cursor h inner]
    exact ⟨suffix_of_cons (suffix_of_append inner), rfl⟩
  | emptyArray h =>
    have digit : ¬('['.toUInt8 = '-'.toUInt8 ∨ isDigit '['.toUInt8) := by decide
    have inner := suffix_of_cons hs1
    have token := hD.token inner h (by decide)
    rw [parse_json_token hD hs skip (by decide), parse_value, if_neg digit, if_neg (by decide), if_neg (by decide),
      if_neg (by decide), if_neg (by decide), if_neg (by decide), if_pos rfl, token]
    exact ⟨suffix_of_cons (h.suffix inner), by simp⟩
  | array h =>
    have digit : ¬('['.toUInt8 = '-'.toUInt8 ∨ isDigit '['.toUInt8) := by decide
    have inner := suffix_of_cons hs1
    obtain ⟨hrest, c, q, token, hc, loop⟩ := arrayLoop_items hD hV h inner [] (fuel inner)
    rw [parse_json_token hD hs skip (by decide), parse_value, if_neg digit, if_neg (by decide), if_neg (by decide),
      if_neg (by decide), if_neg (by decide), if_neg (by decide), if_pos rfl, token]
    exact ⟨hrest, by simp [hc, loop]⟩
  | emptyObject h =>
    have digit : ¬('{'.toUInt8 = '-'.toUInt8 ∨ isDigit '{'.toUInt8) := by decide
    have inner := suffix_of_cons hs1
    have token := hD.token inner h (by decide)
    rw [parse_json_token hD hs skip (by decide), parse_value, if_neg digit, if_neg (by decide), if_neg (by decide),
      if_neg (by decide), if_neg (by decide), if_pos rfl, token]
    exact ⟨suffix_of_cons (h.suffix inner), by simp⟩
  | object h =>
    have digit : ¬('{'.toUInt8 = '-'.toUInt8 ∨ isDigit '{'.toUInt8) := by decide
    have inner := suffix_of_cons hs1
    obtain ⟨hrest, q, token, loop⟩ := objectLoop_members hD hV h inner [] (fuel inner)
    have other : ('"'.toUInt8 = '}'.toUInt8) = False := by decide
    rw [parse_json_token hD hs skip (by decide), parse_value, if_neg digit, if_neg (by decide), if_neg (by decide),
      if_neg (by decide), if_neg (by decide), if_pos rfl, token]
    exact ⟨hrest, by simp [other, loop]⟩

/-- The values of a dialect are read. -/
theorem Readable.parses (hD : Readable text strategy D) (n : Nat) :
    Parses text D (parse_json text strategy n) (Value D n) := by
  induction n with
  | zero => exact ⟨fun h => h.elim, fun h => h.elim, fun _ _ h => h.elim⟩
  | succ n ih => exact ⟨value_head, Value.shorter, fun hs skip h hr => parse_value_layer hD ih hs skip h hr⟩

/-- The values of the grammar are read. -/
theorem parse_json_parses (text : List UInt8) (strategy : ParseMethod) (n : Nat) :
    Parses text jsonView (parse_json text strategy n) (Value jsonView n) := (readable_jsonView text strategy).parses n

/-- A value is read as its tree if there is nothing but garbage behind it. -/
theorem Readable.parse_of_value {s1 s2 : List UInt8} {v : JsonNode} (hD : Readable s strategy D) (skip : Skips D s s1)
    (value : Value D (max_depth + 1) s1 v s2) (ends : Ends s2)
    (garbage : consume_garbage s strategy (cursor s s2) = some (cursor s [])) :
    parse_throw_on_error s strategy = some (.ok v) := by
  have start : ({} : JsonParser) = cursor s s := by simp [cursor]
  obtain ⟨-, parsed⟩ := (hD.parses (max_depth + 1)).parses List.suffix_rfl skip value ends
  have last : (cursor s []).i = s.length := rfl
  have good : (cursor s []).err = none := rfl
  rw [parse_throw_on_error, JsonView.parse, start, parsed]
  simp only [Option.bind_eq_bind, Option.bind_some, garbage, good, last, ne_eq, not_true_eq_false, if_false]

/-- A text of the grammar is read as its tree. -/
theorem parse_of_document {s : List UInt8} {v : JsonNode} (h : Document jsonView (max_depth + 1) s v)
    (strategy : ParseMethod) : parse_throw_on_error s strategy = some (.ok v) := by
  obtain ⟨s1, s2, skip, value, rest⟩ := h
  have hs2 : s2 <:+ s := value.suffix.trans (skip.suffix List.suffix_rfl)
  exact (readable_jsonView s strategy).parse_of_value skip value (ends_of_skips_nil rest)
    (consume_garbage_cursor strategy hs2 rest (by intro c hc; cases hc))

end

end ArrowheadCore.Json.JsonView
