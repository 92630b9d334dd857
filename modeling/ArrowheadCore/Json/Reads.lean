import ArrowheadCore.Json.JsonView
import ArrowheadCore.Json.JsonBuilder

/-!
# What `JsonView` reads of the texts of a builder

`Reads levels s v` says that `s` is read as `v` wherever it stands in a text. It is closed under the brackets
and commas that `JsonBuilder` writes, so that a text put together by a builder is read back part by part.
`Fails levels s` says that the parser fails on every text that has `s` at its position.
-/

namespace ArrowheadCore.Json.JsonView
open Lib

/-- A text without characters that need an escape. -/
def Clean (s : List UInt8) : Prop := ∀ c ∈ s, 0x1f < c.toNat ∧ c ≠ '"'.toUInt8 ∧ c ≠ '\\'.toUInt8

instance (s : List UInt8) : Decidable (Clean s) := List.decidableBAll _ s

/-- The parser behind this part of the text, without a failure. -/
def pos (pre : List UInt8) : JsonParser := ⟨pre.length, none⟩

@[simp] lemma pos_failed (pre : List UInt8) : (pos pre).failed = false := rfl

@[simp] lemma fail_failed (p : JsonParser) (msg : List UInt8) : (p.fail msg).failed = true := rfl

section
variable {pre s rest k : List UInt8} {c : UInt8}

lemma forth_pos (pre s : List UInt8) : (pos pre).forth s.length = pos (pre ++ s) := by
  simp [pos, JsonParser.forth]

lemma back_pos (pre : List UInt8) (c : UInt8) : (pos (pre ++ [c])).back = pos pre := by
  simp [pos, JsonParser.back]

lemma drop_pos (pre s : List UInt8) : (pre ++ s).drop (pos pre).i = s := List.drop_left

lemma char_pos (pre s : List UInt8) : char (pre ++ s) (pos pre).i = s.headD 0 := by
  cases s with
  | nil => simp [char, pos]
  | cons c cs => simp [char, pos]

/-! ## Tokens -/

lemma next_token (hc : isBlank c = false) (pre s : List UInt8) :
    get_next_token (pre ++ c :: s) .STANDARD (pos pre) = some (c, pos (pre ++ [c])) := by
  have stay : consume_whitespace (pre ++ c :: s) (pos pre) = pos pre := by
    rw [consume_whitespace, skipWhile, drop_pos, List.takeWhile_cons_of_neg (by simp [hc])]
    rfl
  have here : consume_garbage (pre ++ c :: s) .STANDARD (pos pre) = some (pos pre) := by
    simp [consume_garbage, stay]
  have inside : (pos pre).i ≠ (pre ++ c :: s).length := by simp [pos]
  rw [get_next_token, here]
  simp only [Option.bind_eq_bind, Option.bind_some, char_pos, List.headD_cons, if_neg inside]
  rw [← forth_pos pre [c]]
  rfl

lemma next_token_blank (hc : isBlank c) (pre s : List UInt8) :
    get_next_token (pre ++ c :: s) .STANDARD (pos pre) = get_next_token (pre ++ c :: s) .STANDARD (pos (pre ++ [c])) := by
  have split : pre ++ c :: s = (pre ++ [c]) ++ s := by simp
  have skip : consume_whitespace (pre ++ c :: s) (pos pre) = consume_whitespace (pre ++ c :: s) (pos (pre ++ [c])) := by
    rw [consume_whitespace, consume_whitespace, skipWhile, skipWhile, drop_pos, split, drop_pos,
      List.takeWhile_cons_of_pos hc]
    simp [JsonParser.forth, pos]
    omega
  simp only [get_next_token, consume_garbage, skip]

/-- A blank in front of a value is skipped. -/
lemma parse_json_blank (hc : isBlank c) (levels : Nat) (pre s : List UInt8) :
    parse_json (pre ++ c :: s) .STANDARD (levels + 1) (pos pre) =
      parse_json (pre ++ c :: s) .STANDARD (levels + 1) (pos (pre ++ [c])) := by
  rw [parse_json, parse_json, next_token_blank hc]

lemma keyLoop_clean (hk : Clean k) (rest : List UInt8) (p : JsonParser) :
    keyLoop (k ++ '"'.toUInt8 :: rest) p = (true, p.forth (k.length + 1)) := by
  induction k generalizing p with
  | nil =>
    rw [List.nil_append, keyLoop.eq_def]
    rfl
  | cons c cs ih =>
    obtain ⟨-, h1, h2⟩ := hk c (by simp)
    have := ih (fun c hc => hk c (by simp [hc])) (p.forth 1)
    rw [List.cons_append, keyLoop.eq_def]
    simp only [if_neg h1, if_pos h2, this]
    simp only [JsonParser.forth, List.length_cons, Prod.mk.injEq, true_and, JsonParser.mk.injEq, and_true]
    omega

lemma parse_key_clean (hk : Clean k) (pre rest : List UInt8) :
    parse_key (pre ++ (k ++ '"'.toUInt8 :: rest)) (pos pre) = (k, pos (pre ++ (k ++ ['"'.toUInt8]))) := by
  rw [parse_key, drop_pos, keyLoop_clean hk]
  simp [JsonParser.forth, pos]

lemma stringLoop_clean (hs : Clean s) (rest out : List UInt8) (p : JsonParser) :
    stringLoop (s ++ '"'.toUInt8 :: rest) out (-1) p = (out ++ s, p.forth (s.length + 1)) := by
  induction s generalizing out p with
  | nil =>
    rw [List.nil_append, stringLoop.eq_def]
    rfl
  | cons c cs ih =>
    obtain ⟨h0, h1, h2⟩ := hs c (by simp)
    have none : encode_utf8 (-1) = [] := rfl
    have := ih (fun c hc => hs c (by simp [hc])) (out ++ encode_utf8 (-1) ++ [c]) (p.forth 1)
    rw [List.cons_append, stringLoop.eq_def]
    simp only [if_neg h1, if_neg (Nat.not_le.2 h0), if_pos h2, this]
    simp only [none, JsonParser.forth, List.length_cons, List.append_nil, List.append_assoc, List.cons_append,
      List.nil_append, Prod.mk.injEq, true_and, JsonParser.mk.injEq, and_true]
    omega

lemma parse_string_clean (hs : Clean s) (pre rest : List UInt8) :
    parse_string (pre ++ (s ++ '"'.toUInt8 :: rest)) (pos pre) = (s, pos (pre ++ (s ++ ['"'.toUInt8]))) := by
  rw [parse_string, drop_pos, stringLoop_clean hs]
  simp [JsonParser.forth, pos]

/-! ## Numbers -/

/-- What may stand behind a number. -/
def Ends (rest : List UInt8) : Prop :=
  EndsNumber rest ∧ rest.headD 0 ≠ '.'.toUInt8 ∧ rest.headD 0 ≠ 'e'.toUInt8 ∧ rest.headD 0 ≠ 'E'.toUInt8

lemma isDigit_headD (h : EndsNumber rest) : isDigit (rest.headD 0) = false := by
  cases rest with
  | nil => decide
  | cons c cs => exact h c rfl

lemma parse_digits_decimal (n : Nat) (pre : List UInt8) (hr : EndsNumber rest) :
    parse_digits (pre ++ (decimal n ++ rest)) (pos pre) = (true, pos (pre ++ decimal n)) := by
  by_cases hn : n = 0
  · subst hn
    have zero : decimal 0 = ['0'.toUInt8] := by decide
    have split : pre ++ (['0'.toUInt8] ++ rest) = (pre ++ ['0'.toUInt8]) ++ rest := by simp
    have next : (pos pre).forth 1 = pos (pre ++ ['0'.toUInt8]) := forth_pos pre ['0'.toUInt8]
    have behind : char (pre ++ (['0'.toUInt8] ++ rest)) (pos (pre ++ ['0'.toUInt8])).i = rest.headD 0 := by
      rw [split, char_pos]
    have first : char (pre ++ (['0'.toUInt8] ++ rest)) (pos pre).i = '0'.toUInt8 := char_pos pre _
    simp only [zero, parse_digits, next, behind, first, isDigit_headD hr, if_true]
    rfl
  · obtain ⟨d, ds, e, hd, h0⟩ := decimal_head hn
    have digits : ∀ d ∈ ds, isDigitOf 10 d := fun x hx => decimal_digits n x (by simp [e, hx])
    have split : pre ++ (d :: ds ++ rest) = (pre ++ [d]) ++ (ds ++ rest) := by simp
    have next : (pos pre).forth 1 = pos (pre ++ [d]) := forth_pos pre [d]
    have all : (ds ++ rest).takeWhile isDigit = ds := takeWhile_digits digits hr
    have isD : isDigit d := hd
    rw [e, parse_digits, char_pos, next]
    simp only [List.cons_append, List.headD_cons, if_neg h0, isD, if_true]
    rw [← List.cons_append, split, skipWhile, drop_pos, all, forth_pos]
    simp

lemma parse_integer_to_string (z : Int) (pre : List UInt8) (hr : EndsNumber rest) :
    parse_integer (pre ++ (to_string z ++ rest)) (pos pre) = (true, pos (pre ++ to_string z)) := by
  rw [parse_integer, char_pos]
  cases z with
  | ofNat n =>
    obtain ⟨d, ds, e⟩ : ∃ d ds, decimal n = d :: ds := List.exists_cons_of_ne_nil (decimal_ne_nil n)
    have hd := decimal_digits n d (by simp [e])
    have h1 : d ≠ '-'.toUInt8 := ne_of_isalnum (isalnum_of_isDigitOf (by decide) hd) (by decide)
    have head : (decimal n ++ rest).headD 0 = d := by rw [e]; rfl
    rw [to_string, head, if_neg h1]
    exact parse_digits_decimal n pre hr
  | negSucc n =>
    have next : (pos pre).forth 1 = pos (pre ++ ['-'.toUInt8]) := forth_pos pre ['-'.toUInt8]
    have split : pre ++ ('-'.toUInt8 :: decimal (n + 1) ++ rest) = (pre ++ ['-'.toUInt8]) ++ (decimal (n + 1) ++ rest) := by
      simp
    rw [to_string, List.cons_append, List.headD_cons, if_pos rfl, next, ← List.cons_append, split, parse_digits_decimal _ _ hr]
    simp

/-- How an integer is read: a long one is no integer any more. -/
def numberNode (z : Int) : JsonNode :=
  if (to_string z).length ≤ digits10 then .int z else .double (to_string z)

lemma natAbs_le_of_length {z : Int} (hz : (to_string z).length ≤ digits10) : z.natAbs ≤ LONG_MAX := by
  have bound : ∀ n, (decimal n).length ≤ 9 → n ≤ LONG_MAX := by
    intro n hn
    have := number_lt_pow (decimal_digits n)
    rw [number_decimal] at this
    have : 10 ^ (decimal n).length ≤ 10 ^ 9 := Nat.pow_le_pow_right (by decide) hn
    unfold LONG_MAX
    omega
  cases z with
  | ofNat n => exact bound n hz
  | negSucc n => exact bound (n + 1) (Nat.le_of_succ_le hz)

lemma parse_number_to_string (z : Int) (pre : List UInt8) (hr : Ends rest) :
    parse_number (pre ++ (to_string z ++ rest)) (pos pre) = (numberNode z, pos (pre ++ to_string z)) := by
  obtain ⟨hd, h1, h2, h3⟩ := hr
  have split : pre ++ (to_string z ++ rest) = (pre ++ to_string z) ++ rest := by simp
  have behind : char (pre ++ (to_string z ++ rest)) (pos (pre ++ to_string z)).i = rest.headD 0 := by
    rw [split, char_pos]
  have length : (pos (pre ++ to_string z)).i - (pos pre).i = (to_string z).length := by simp [pos]
  simp only [parse_number, parse_integer_to_string z pre hd, behind, length, drop_pos]
  by_cases hz : (to_string z).length ≤ digits10
  · have value := strtol_to_string (natAbs_le_of_length hz) hd
    have short : rest.headD 0 ≠ '.'.toUInt8 ∧ rest.headD 0 ≠ 'e'.toUInt8 ∧ rest.headD 0 ≠ 'E'.toUInt8 ∧
        (to_string z).length ≤ digits10 := ⟨h1, h2, h3, hz⟩
    simp only [Bool.not_true, Bool.false_eq_true, if_false, if_pos short, value, numberNode, if_pos hz]
  · have fraction : parse_fraction (pre ++ (to_string z ++ rest)) (pos (pre ++ to_string z)) =
        (true, pos (pre ++ to_string z)) := by
      rw [parse_fraction, behind, if_neg h1]
    have exponent : parse_exponent (pre ++ (to_string z ++ rest)) (pos (pre ++ to_string z)) =
        (true, pos (pre ++ to_string z)) := by
      rw [parse_exponent, behind, if_neg (not_or.2 ⟨h2, h3⟩)]
    simp [numberNode, hz, fraction, exponent, length]

/-! ## Members and items -/

lemma nameText_append (k s : List UInt8) :
    nameText k ++ s = '"'.toUInt8 :: (k ++ '"'.toUInt8 :: ':'.toUInt8 :: ' '.toUInt8 :: s) := by
  have quote : bytes "\"" = ['"'.toUInt8] := by decide
  have colon : bytes "\": " = ['"'.toUInt8, ':'.toUInt8, ' '.toUInt8] := by decide
  simp [nameText, quote, colon]

/-- The position of the parser behind the colon of a member. -/
def colon (pre k : List UInt8) : JsonParser := pos (pre ++ '"'.toUInt8 :: (k ++ ['"'.toUInt8, ':'.toUInt8]))

variable {parse : JsonParser → Option (JsonNode × JsonParser)} {fuel : Nat} {v : JsonNode} {p : JsonParser}

/-- The loop over members up to the value of one. -/
lemma objectLoop_colon (hk : Clean k) (data : List (List UInt8 × JsonNode)) (pre s : List UInt8) :
    objectLoop (pre ++ (nameText k ++ s)) .STANDARD parse (fuel + 1) '"'.toUInt8 data (pos (pre ++ ['"'.toUInt8])) = (do
      let (val, p) ← parse (colon pre k)
      if p.failed then some (.null, p)
      else
        let (ch, p) ← get_next_token (pre ++ (nameText k ++ s)) .STANDARD p
        if ch = '}'.toUInt8 then some (.object (data ++ [(k, val)]), p)
        else if ch ≠ ','.toUInt8 then
          some (.null, p.fail (bytes "Expected ',' in object, got " ++ (esc ch ++ bytes ".")))
        else
          let (ch, p) ← get_next_token (pre ++ (nameText k ++ s)) .STANDARD p
          objectLoop (pre ++ (nameText k ++ s)) .STANDARD parse fuel ch (data ++ [(k, val)]) p) := by
  have text : pre ++ (nameText k ++ s) = pre ++ ['"'.toUInt8] ++ (k ++ '"'.toUInt8 :: (':'.toUInt8 :: ' '.toUInt8 :: s)) := by
    rw [nameText_append]
    simp
  have key : parse_key (pre ++ (nameText k ++ s)) (pos (pre ++ ['"'.toUInt8])) =
      (k, pos (pre ++ ['"'.toUInt8] ++ (k ++ ['"'.toUInt8]))) := by
    rw [text, parse_key_clean hk]
  have token : get_next_token (pre ++ (nameText k ++ s)) .STANDARD (pos (pre ++ ['"'.toUInt8] ++ (k ++ ['"'.toUInt8]))) =
      some (':'.toUInt8, colon pre k) := by
    have split : pre ++ (nameText k ++ s) =
        (pre ++ ['"'.toUInt8] ++ (k ++ ['"'.toUInt8])) ++ ':'.toUInt8 :: ' '.toUInt8 :: s := by
      rw [text]
      simp
    rw [split, next_token (by decide), colon]
    simp
  rw [objectLoop, key]
  simp only [token, pos_failed, ne_eq, not_true_eq_false, if_false, Bool.false_eq_true, Option.bind_eq_bind,
    Option.bind_some]

lemma objectLoop_next (hk : Clean k) (hp : parse (colon pre k) = some (v, pos (pre ++ (nameText k ++ s)))) (fuel : Nat)
    (data : List (List UInt8 × JsonNode)) (rest : List UInt8) :
    objectLoop (pre ++ (nameText k ++ (s ++ ','.toUInt8 :: '"'.toUInt8 :: rest))) .STANDARD parse (fuel + 1) '"'.toUInt8
        data (pos (pre ++ ['"'.toUInt8])) =
      objectLoop (pre ++ (nameText k ++ (s ++ ','.toUInt8 :: '"'.toUInt8 :: rest))) .STANDARD parse fuel '"'.toUInt8
        (data ++ [(k, v)]) (pos (pre ++ (nameText k ++ s) ++ [','.toUInt8] ++ ['"'.toUInt8])) := by
  have comma : pre ++ (nameText k ++ (s ++ ','.toUInt8 :: '"'.toUInt8 :: rest)) =
      (pre ++ (nameText k ++ s)) ++ ','.toUInt8 :: '"'.toUInt8 :: rest := by simp
  have quote : pre ++ (nameText k ++ (s ++ ','.toUInt8 :: '"'.toUInt8 :: rest)) =
      (pre ++ (nameText k ++ s) ++ [','.toUInt8]) ++ '"'.toUInt8 :: rest := by simp
  have t1 := next_token (c := ','.toUInt8) (by decide) (pre ++ (nameText k ++ s)) ('"'.toUInt8 :: rest)
  have t2 := next_token (c := '"'.toUInt8) (by decide) (pre ++ (nameText k ++ s) ++ [','.toUInt8]) rest
  rw [← comma] at t1
  rw [← quote] at t2
  have sep : ','.toUInt8 ≠ '}'.toUInt8 := by decide
  rw [objectLoop_colon hk, hp]
  simp only [Option.bind_eq_bind, Option.bind_some, pos_failed, Bool.false_eq_true, if_false, t1, t2, if_neg sep, ne_eq,
    not_true_eq_false]

lemma objectLoop_last (hk : Clean k) (hp : parse (colon pre k) = some (v, pos (pre ++ (nameText k ++ s))))
    (data : List (List UInt8 × JsonNode)) (rest : List UInt8) :
    objectLoop (pre ++ (nameText k ++ (s ++ '}'.toUInt8 :: rest))) .STANDARD parse (fuel + 1) '"'.toUInt8 data
        (pos (pre ++ ['"'.toUInt8])) =
      some (.object (data ++ [(k, v)]), pos (pre ++ (nameText k ++ s) ++ ['}'.toUInt8])) := by
  have bracket : pre ++ (nameText k ++ (s ++ '}'.toUInt8 :: rest)) = (pre ++ (nameText k ++ s)) ++ '}'.toUInt8 :: rest := by
    simp
  have t1 := next_token (c := '}'.toUInt8) (by decide) (pre ++ (nameText k ++ s)) rest
  rw [← bracket] at t1
  rw [objectLoop_colon hk, hp]
  simp only [Option.bind_eq_bind, Option.bind_some, pos_failed, Bool.false_eq_true, if_false, t1, if_true]

/-- The value of the first member was read if the object was. -/
lemma objectLoop_parsed (hk : Clean k) {data : List (List UInt8 × JsonNode)}
    (h : objectLoop (pre ++ (nameText k ++ s)) .STANDARD parse (fuel + 1) '"'.toUInt8 data (pos (pre ++ ['"'.toUInt8])) =
      some (v, p)) (hp : p.failed = false) : ∃ val q, parse (colon pre k) = some (val, q) ∧ q.failed = false := by
  rw [objectLoop_colon hk, Option.bind_eq_bind, Option.bind_eq_some_iff] at h
  obtain ⟨⟨val, q⟩, e, h⟩ := h
  cases hq : q.failed with
  | false => exact ⟨val, q, e, hq⟩
  | true =>
    simp only [hq, if_true, Option.some.injEq, Prod.mk.injEq] at h
    rw [← h.2, hq] at hp
    cases hp

/-- The loop over items steps back to the first character of each. -/
lemma arrayLoop_next (hp : parse (pos pre) = some (v, pos (pre ++ s))) (hc : isBlank c = false) (fuel : Nat)
    (c0 : UInt8) (data : List JsonNode) (rest : List UInt8) :
    arrayLoop (pre ++ (s ++ ','.toUInt8 :: c :: rest)) .STANDARD parse (fuel + 1) data (pos (pre ++ [c0])) =
      arrayLoop (pre ++ (s ++ ','.toUInt8 :: c :: rest)) .STANDARD parse fuel (data ++ [v])
        (pos (pre ++ s ++ [','.toUInt8] ++ [c])) := by
  have comma : pre ++ (s ++ ','.toUInt8 :: c :: rest) = (pre ++ s) ++ ','.toUInt8 :: c :: rest := by simp
  have item : pre ++ (s ++ ','.toUInt8 :: c :: rest) = (pre ++ s ++ [','.toUInt8]) ++ c :: rest := by simp
  have t1 := next_token (c := ','.toUInt8) (by decide) (pre ++ s) (c :: rest)
  have t2 := next_token hc (pre ++ s ++ [','.toUInt8]) rest
  rw [← comma] at t1
  rw [← item] at t2
  have sep : ','.toUInt8 ≠ ']'.toUInt8 := by decide
  rw [arrayLoop, back_pos, hp]
  simp only [Option.bind_eq_bind, Option.bind_some, pos_failed, Bool.false_eq_true, if_false, t1, t2, if_neg sep, ne_eq,
    not_true_eq_false]

lemma arrayLoop_last (hp : parse (pos pre) = some (v, pos (pre ++ s))) (c0 : UInt8) (data : List JsonNode)
    (rest : List UInt8) :
    arrayLoop (pre ++ (s ++ ']'.toUInt8 :: rest)) .STANDARD parse (fuel + 1) data (pos (pre ++ [c0])) =
      some (.array (data ++ [v]), pos (pre ++ s ++ [']'.toUInt8])) := by
  have bracket : pre ++ (s ++ ']'.toUInt8 :: rest) = (pre ++ s) ++ ']'.toUInt8 :: rest := by simp
  have t1 := next_token (c := ']'.toUInt8) (by decide) (pre ++ s) rest
  rw [← bracket] at t1
  rw [arrayLoop, back_pos, hp]
  simp only [Option.bind_eq_bind, Option.bind_some, pos_failed, Bool.false_eq_true, if_false, t1, if_true]

/-- The first item was read if the array was. -/
lemma arrayLoop_parsed {c0 : UInt8} {data : List JsonNode} {text : List UInt8}
    (h : arrayLoop text .STANDARD parse (fuel + 1) data (pos (pre ++ [c0])) = some (v, p)) (hp : p.failed = false) :
    ∃ val q, parse (pos pre) = some (val, q) ∧ q.failed = false := by
  rw [arrayLoop, back_pos, Option.bind_eq_bind, Option.bind_eq_some_iff] at h
  obtain ⟨⟨val, q⟩, e, h⟩ := h
  cases hq : q.failed with
  | false => exact ⟨val, q, e, hq⟩
  | true =>
    simp only [hq, if_true, Option.some.injEq, Prod.mk.injEq] at h
    rw [← h.2, hq] at hp
    cases hp

/-! ## Values -/

lemma parse_json_next (hc : isBlank c = false) (levels : Nat) (pre s : List UInt8) :
    parse_json (pre ++ c :: s) .STANDARD (levels + 1) (pos pre) =
      parse_value (pre ++ c :: s) .STANDARD (parse_json (pre ++ c :: s) .STANDARD levels) c (pos (pre ++ [c])) := by
  rw [parse_json, next_token hc]
  simp

lemma parse_json_zero (hp : parse_json s .STANDARD 0 p = some (v, p')) : p'.failed = true := by
  rw [parse_json] at hp
  cases hp
  rfl

/-- A text that the parser, wherever it stands, reads as `v`. -/
structure Reads (levels : Nat) (s : List UInt8) (v : JsonNode) : Prop where
  head : ∃ c cs, s = c :: cs ∧ isBlank c = false ∧ c ≠ ']'.toUInt8
  reads : ∀ pre rest, Ends rest →
    parse_json (pre ++ (s ++ rest)) .STANDARD levels (pos pre) = some (v, pos (pre ++ s))

/-- A text of which the parser reads no more and no less, unless it fails. -/
structure Stops (levels : Nat) (s : List UInt8) : Prop where
  head : ∃ c cs, s = c :: cs ∧ isBlank c = false ∧ c ≠ ']'.toUInt8
  stops : ∀ pre rest v p, Ends rest → parse_json (pre ++ (s ++ rest)) .STANDARD levels (pos pre) = some (v, p) →
    p.failed = false → p = pos (pre ++ s)

lemma Reads.stops {levels : Nat} (h : Reads levels s v) : Stops levels s where
  head := h.head
  stops pre rest w p hr e _ := by
    rw [h.reads pre rest hr] at e
    cases e
    rfl

/-- The parser does not read the text. -/
lemma Stops.of_fails {levels : Nat} (head : ∃ c cs, s = c :: cs ∧ isBlank c = false ∧ c ≠ ']'.toUInt8)
    (h : ∀ pre rest v p, parse_json (pre ++ (s ++ rest)) .STANDARD levels (pos pre) = some (v, p) → p.failed = true) :
    Stops levels s where
  head := head
  stops pre rest v p _ e hp := by
    rw [h pre rest v p e] at hp
    cases hp

/-- Behind a name there is a blank. -/
lemma parse_json_colon (levels : Nat) (pre k s : List UInt8) :
    parse_json (pre ++ (nameText k ++ s)) .STANDARD (levels + 1) (colon pre k) =
      parse_json ((pre ++ nameText k) ++ s) .STANDARD (levels + 1) (pos (pre ++ nameText k)) := by
  have name : pre ++ nameText k = (pre ++ '"'.toUInt8 :: (k ++ ['"'.toUInt8, ':'.toUInt8])) ++ [' '.toUInt8] := by
    have := nameText_append k []
    rw [List.append_nil] at this
    simp [this]
  have text : pre ++ (nameText k ++ s) =
      (pre ++ '"'.toUInt8 :: (k ++ ['"'.toUInt8, ':'.toUInt8])) ++ ' '.toUInt8 :: s := by
    rw [← List.append_assoc, name]
    simp
  rw [← List.append_assoc] at text
  rw [← List.append_assoc, text, colon, parse_json_blank (by decide), name]

variable {levels : Nat}

lemma Stops.zero (head : ∃ c cs, s = c :: cs ∧ isBlank c = false ∧ c ≠ ']'.toUInt8) : Stops 0 s where
  head := head
  stops pre rest v p _ e hp := by
    rw [parse_json_zero e] at hp
    cases hp

lemma Reads.pos (h : Reads levels s v) : ∃ l, levels = l + 1 := by
  cases levels with
  | succ l => exact ⟨l, rfl⟩
  | zero =>
    have ends : Ends [] := ⟨(by intro c hc; cases hc), by decide⟩
    cases parse_json_zero (h.reads [] [] ends)

lemma Reads.colon (h : Reads levels s v) (pre k : List UInt8) (hr : Ends rest) :
    parse_json (pre ++ (nameText k ++ (s ++ rest))) .STANDARD levels (colon pre k) =
      some (v, JsonView.pos (pre ++ (nameText k ++ s))) := by
  obtain ⟨l, rfl⟩ := h.pos
  rw [parse_json_colon, h.reads _ _ hr]
  simp

lemma Stops.colon (h : Stops levels s) (pre k : List UInt8) (hr : Ends rest)
    (e : parse_json (pre ++ (nameText k ++ (s ++ rest))) .STANDARD levels (colon pre k) = some (v, p))
    (hp : p.failed = false) : p = pos (pre ++ (nameText k ++ s)) := by
  cases levels with
  | zero =>
    rw [parse_json_zero e] at hp
    cases hp
  | succ l =>
    rw [parse_json_colon] at e
    rw [h.stops _ _ _ _ hr e hp]
    simp

lemma ends_of_head {c : UInt8} (h : isDigit c = false ∧ c ≠ '.'.toUInt8 ∧ c ≠ 'e'.toUInt8 ∧ c ≠ 'E'.toUInt8)
    (rest : List UInt8) : Ends (c :: rest) := by
  refine ⟨?_, h.2⟩
  intro d hd
  cases hd
  exact h.1

/-! ## Strings and numbers -/

lemma Reads.string (hs : Clean s) (levels : Nat) :
    Reads (levels + 1) (bytes "\"" ++ (s ++ bytes "\"")) (.string s) where
  head := ⟨'"'.toUInt8, s ++ bytes "\"", rfl, by decide, by decide⟩
  reads pre rest _ := by
    have text : bytes "\"" ++ (s ++ bytes "\"") ++ rest = '"'.toUInt8 :: (s ++ '"'.toUInt8 :: rest) := by
      have : bytes "\"" = ['"'.toUInt8] := by decide
      simp [this]
    have split : pre ++ '"'.toUInt8 :: (s ++ '"'.toUInt8 :: rest) = (pre ++ ['"'.toUInt8]) ++ (s ++ '"'.toUInt8 :: rest) := by
      simp
    have quote : bytes "\"" = ['"'.toUInt8] := by decide
    have digit : ¬('"'.toUInt8 = '-'.toUInt8 ∨ isDigit '"'.toUInt8) := by decide
    rw [text, parse_json_next (by decide), parse_value, if_neg digit, if_neg (by decide), if_neg (by decide),
      if_neg (by decide), if_pos rfl, split, parse_string_clean hs, quote]
    simp

lemma Reads.number (z : Int) (levels : Nat) : Reads (levels + 1) (to_string z) (numberNode z) := by
  obtain ⟨c, cs, e, hc⟩ : ∃ c cs, to_string z = c :: cs ∧ (c = '-'.toUInt8 ∨ isDigit c) := by
    cases z with
    | ofNat n =>
      obtain ⟨d, ds, e⟩ : ∃ d ds, decimal n = d :: ds := List.exists_cons_of_ne_nil (decimal_ne_nil n)
      exact ⟨d, ds, e, .inr (decimal_digits n d (by simp [e]))⟩
    | negSucc n => exact ⟨'-'.toUInt8, decimal (n + 1), rfl, .inl rfl⟩
  have plain : isBlank c = false ∧ c ≠ ']'.toUInt8 := by
    obtain rfl | hd := hc
    · decide
    · have other : ∀ {d}, isDigit d = false → c ≠ d := by
        rintro d h rfl
        rw [hd] at h
        cases h
      exact ⟨by simp [isBlank, other (d := ' '.toUInt8) (by decide), other (d := '\r'.toUInt8) (by decide),
        other (d := '\n'.toUInt8) (by decide), other (d := '\t'.toUInt8) (by decide)], other (by decide)⟩
  refine ⟨⟨c, cs, e, plain⟩, ?_⟩
  intro pre rest hr
  have number := parse_number_to_string z pre hr
  rw [e, List.cons_append] at number ⊢
  rw [parse_json_next plain.1, parse_value, if_pos hc, back_pos, number]

lemma expect_word (word : String) (res : JsonNode) (c : UInt8) (pre rest : List UInt8) :
    expect (pre ++ (bytes word ++ rest)) word res (pos (pre ++ [c])) = (res, pos (pre ++ bytes word)) := by
  have length : word.length = (bytes word).length := by rw [bytes, List.length_map, String.length_toList]
  have here : (bytes word).isPrefixOf (bytes word ++ rest) = true := by simp
  simp only [expect, back_pos, drop_pos, here, if_true, length, forth_pos]

lemma Reads.null (levels : Nat) : Reads (levels + 1) (bytes "null") .null where
  head := ⟨'n'.toUInt8, bytes "ull", rfl, by decide, by decide⟩
  reads pre rest _ := by
    have word : bytes "null" = 'n'.toUInt8 :: bytes "ull" := rfl
    have digit : ¬('n'.toUInt8 = '-'.toUInt8 ∨ isDigit 'n'.toUInt8) := by decide
    have e := expect_word "null" .null 'n'.toUInt8 pre rest
    rw [word, List.cons_append] at e ⊢
    rw [parse_json_next (by decide), parse_value, if_neg digit, if_neg (by decide), if_neg (by decide), if_pos rfl, e]

lemma Reads.true (levels : Nat) : Reads (levels + 1) (bytes "true") (.bool Bool.true) where
  head := ⟨'t'.toUInt8, bytes "rue", rfl, by decide, by decide⟩
  reads pre rest _ := by
    have word : bytes "true" = 't'.toUInt8 :: bytes "rue" := rfl
    have digit : ¬('t'.toUInt8 = '-'.toUInt8 ∨ isDigit 't'.toUInt8) := by decide
    have e := expect_word "true" (.bool Bool.true) 't'.toUInt8 pre rest
    rw [word, List.cons_append] at e ⊢
    rw [parse_json_next (by decide), parse_value, if_neg digit, if_pos rfl, e]

lemma Reads.false (levels : Nat) : Reads (levels + 1) (bytes "false") (.bool Bool.false) where
  head := ⟨'f'.toUInt8, bytes "alse", rfl, by decide, by decide⟩
  reads pre rest _ := by
    have word : bytes "false" = 'f'.toUInt8 :: bytes "alse" := rfl
    have digit : ¬('f'.toUInt8 = '-'.toUInt8 ∨ isDigit 'f'.toUInt8) := by decide
    have e := expect_word "false" (.bool Bool.false) 'f'.toUInt8 pre rest
    rw [word, List.cons_append] at e ⊢
    rw [parse_json_next (by decide), parse_value, if_neg digit, if_neg (by decide), if_pos rfl, e]

/-! ## Lists -/

/-- A comma ends a number. -/
lemma ends_comma (rest : List UInt8) : Ends (','.toUInt8 :: rest) := ends_of_head (by decide) rest

lemma length_le_commaList {xs : List (List UInt8)} (h : ∀ x ∈ xs, x ≠ []) : xs.length ≤ (commaList xs).length := by
  induction xs with
  | nil => simp
  | cons x xs ih =>
    have hx : 0 < x.length := List.length_pos_iff.2 (h x (by simp))
    have ih := ih fun y hy => h y (by simp [hy])
    cases xs with
    | nil =>
      simp only [commaList, List.length_cons, List.length_nil]
      omega
    | cons y ys =>
      simp only [commaList, List.length_cons, List.length_append] at ih ⊢
      omega

@[simp] lemma commaList_singleton (x : List UInt8) : commaList [x] = x := rfl

/-- A list begins as its first item does. -/
lemma commaList_head {x cs : List UInt8} (hx : x = c :: cs) (xs : List (List UInt8)) (rest : List UInt8) :
    ∃ tail, commaList (x :: xs) ++ rest = c :: tail := by
  cases xs with
  | nil => exact ⟨cs ++ rest, by simp [hx]⟩
  | cons y ys => exact ⟨_, by rw [hx]; rfl⟩

lemma commaList_cons (x y : List UInt8) (ys : List (List UInt8)) :
    commaList (x :: y :: ys) = x ++ ','.toUInt8 :: commaList (y :: ys) := rfl

lemma commaList_eq : ∀ xs : List (List UInt8), commaList xs = List.intercalate [','.toUInt8] xs
  | [] => rfl
  | [x] => by rw [List.intercalate_singleton, commaList_singleton]
  | x :: y :: ys => by
    rw [commaList_cons, commaList_eq (y :: ys), List.intercalate_cons_cons, List.append_assoc, List.singleton_append]

lemma arrayLoop_reads {items : List (List UInt8 × JsonNode)} (h : ∀ x ∈ items, Reads levels x.1 x.2) (hne : items ≠ [])
    {text pre rest : List UInt8} (ht : text = pre ++ (commaList (items.map Prod.fst) ++ ']'.toUInt8 :: rest)) (c0 : UInt8)
    (data : List JsonNode) {fuel : Nat} (hf : items.length ≤ fuel) :
    arrayLoop text .STANDARD (parse_json text .STANDARD levels) fuel data (pos (pre ++ [c0])) =
      some (.array (data ++ items.map Prod.snd), pos (pre ++ (commaList (items.map Prod.fst) ++ [']'.toUInt8]))) := by
  induction items generalizing pre c0 data fuel with
  | nil => exact absurd rfl hne
  | cons x xs ih =>
    obtain ⟨n, rfl⟩ : ∃ n, fuel = n + 1 := Nat.exists_eq_succ_of_ne_zero (by rw [List.length_cons] at hf; omega)
    have hx := h x (by simp)
    cases xs with
    | nil =>
      simp only [List.map_singleton, commaList_singleton] at ht ⊢
      subst ht
      rw [arrayLoop_last (hx.reads _ _ (ends_of_head (by decide) _))]
      simp
    | cons y ys =>
      obtain ⟨c, cs, e, hc, -⟩ := (h y (by simp)).head
      obtain ⟨tail, tl⟩ : ∃ tail, commaList ((y :: ys).map Prod.fst) ++ ']'.toUInt8 :: rest = c :: tail := by
        exact commaList_head e _ _
      have whole : text = pre ++ (x.1 ++ ','.toUInt8 :: c :: tail) := by
        rw [ht, ← tl]
        simp [commaList_cons]
      have parsed : parse_json text .STANDARD levels (pos pre) = some (x.2, pos (pre ++ x.1)) := by
        rw [whole]
        exact hx.reads _ _ (ends_comma _)
      have step := arrayLoop_next parsed hc n c0 data tail
      rw [← whole] at step
      rw [step, ih (fun z hz => h z (by simp [hz])) (by simp) (by rw [ht]; simp [commaList_cons]) c (data ++ [x.2])
        (by simpa using hf)]
      simp [commaList_cons]

/-- Of items the parser reads no more and no less, unless it fails. -/
lemma arrayLoop_stops {items : List (List UInt8)} (h : ∀ x ∈ items, Stops levels x) (hne : items ≠ [])
    {text pre rest : List UInt8} (ht : text = pre ++ (commaList items ++ ']'.toUInt8 :: rest)) {c0 : UInt8}
    {data : List JsonNode} {fuel : Nat}
    (e : arrayLoop text .STANDARD (parse_json text .STANDARD levels) fuel data (pos (pre ++ [c0])) = some (v, p))
    (hp : p.failed = false) : p = pos (pre ++ (commaList items ++ [']'.toUInt8])) := by
  induction items generalizing pre c0 data fuel with
  | nil => exact absurd rfl hne
  | cons x xs ih =>
    have hx := h x (by simp)
    cases fuel with
    | zero => cases e
    | succ n =>
    obtain ⟨val, q, parsed, hq⟩ := arrayLoop_parsed e hp
    cases xs with
    | nil =>
      rw [commaList_singleton] at ht ⊢
      subst ht
      obtain rfl := hx.stops _ _ _ _ (ends_of_head (by decide) _) parsed hq
      rw [arrayLoop_last parsed] at e
      cases e
      simp
    | cons y ys =>
      obtain ⟨c, cs, e', hc, -⟩ := (h y (by simp)).head
      obtain ⟨tail, tl⟩ := commaList_head e' ys (']'.toUInt8 :: rest)
      have whole : text = pre ++ (x ++ ','.toUInt8 :: c :: tail) := by
        rw [ht, ← tl]
        simp [commaList_cons]
      have at_end : q = pos (pre ++ x) := hx.stops _ _ _ _ (ends_comma (c :: tail)) (whole ▸ parsed) hq
      subst at_end
      have step := arrayLoop_next parsed hc n c0 data tail
      rw [← whole] at step
      rw [step] at e
      rw [ih (fun z hz => h z (by simp [hz])) (by simp) (by rw [ht]; simp [commaList_cons]) e]
      simp [commaList_cons]

/-- The text of an array. -/
def arrayText (items : List (List UInt8)) : List UInt8 := bytes "[" ++ (commaList items ++ bytes "]")

lemma arrayText_append (items : List (List UInt8)) (pre rest : List UInt8) :
    pre ++ (arrayText items ++ rest) = (pre ++ ['['.toUInt8]) ++ (commaList items ++ ']'.toUInt8 :: rest) := by
  have opening : bytes "[" = ['['.toUInt8] := by decide
  have closing : bytes "]" = [']'.toUInt8] := by decide
  simp [arrayText, opening, closing]

lemma arrayText_head (items : List (List UInt8)) :
    ∃ c cs, arrayText items = c :: cs ∧ isBlank c = false ∧ c ≠ ']'.toUInt8 :=
  ⟨'['.toUInt8, commaList items ++ bytes "]", rfl, by decide, by decide⟩

lemma append_arrayText (items : List (List UInt8)) (pre : List UInt8) :
    pos ((pre ++ ['['.toUInt8]) ++ (commaList items ++ [']'.toUInt8])) = pos (pre ++ arrayText items) := by
  rw [← arrayText_append, List.append_nil]

/-- The loop over the items of an array. -/
lemma parse_json_array {tail : List UInt8} (hc : isBlank c = false) (hb : c ≠ ']'.toUInt8) (levels : Nat)
    {pre text : List UInt8} (ht : text = pre ++ '['.toUInt8 :: c :: tail) :
    parse_json text .STANDARD (levels + 1) (pos pre) =
      arrayLoop text .STANDARD (parse_json text .STANDARD levels) (text.length + 1) []
        (pos (pre ++ ['['.toUInt8] ++ [c])) := by
  have digit : ¬('['.toUInt8 = '-'.toUInt8 ∨ isDigit '['.toUInt8) := by decide
  have split : pre ++ '['.toUInt8 :: c :: tail = (pre ++ ['['.toUInt8]) ++ c :: tail := by simp
  have token := next_token hc (pre ++ ['['.toUInt8]) tail
  subst ht
  rw [← split] at token
  rw [parse_json_next (by decide), parse_value, if_neg digit, if_neg (by decide), if_neg (by decide),
    if_neg (by decide), if_neg (by decide), if_neg (by decide), if_pos rfl, token]
  simp only [Option.bind_eq_bind, Option.bind_some, if_neg hb]

lemma parse_json_arrayText {x : List UInt8} (hx : ∃ c cs, x = c :: cs ∧ isBlank c = false ∧ c ≠ ']'.toUInt8)
    (xs : List (List UInt8)) (levels : Nat) (pre rest : List UInt8) :
    ∃ c0, parse_json (pre ++ (arrayText (x :: xs) ++ rest)) .STANDARD (levels + 1) (pos pre) =
      arrayLoop (pre ++ (arrayText (x :: xs) ++ rest)) .STANDARD
        (parse_json (pre ++ (arrayText (x :: xs) ++ rest)) .STANDARD levels)
        ((pre ++ (arrayText (x :: xs) ++ rest)).length + 1) [] (pos (pre ++ ['['.toUInt8] ++ [c0])) := by
  obtain ⟨c, cs, e, hc, hb⟩ := hx
  obtain ⟨tail, tl⟩ := commaList_head e xs (']'.toUInt8 :: rest)
  have text : pre ++ (arrayText (x :: xs) ++ rest) = pre ++ '['.toUInt8 :: c :: tail := by
    rw [arrayText_append, tl]
    simp
  exact ⟨c, parse_json_array hc hb levels text⟩

/-- An array without items. -/
lemma Reads.array_nil (levels : Nat) : Reads (levels + 1) (arrayText []) (.array []) where
  head := arrayText_head []
  reads pre rest _ := by
    have digit : ¬('['.toUInt8 = '-'.toUInt8 ∨ isDigit '['.toUInt8) := by decide
    have text : pre ++ (arrayText [] ++ rest) = pre ++ '['.toUInt8 :: (']'.toUInt8 :: rest) := by
      rw [arrayText_append]
      simp [commaList]
    have split : pre ++ '['.toUInt8 :: (']'.toUInt8 :: rest) = (pre ++ ['['.toUInt8]) ++ ']'.toUInt8 :: rest := by simp
    have token := next_token (c := ']'.toUInt8) (by decide) (pre ++ ['['.toUInt8]) rest
    rw [← split] at token
    rw [text, parse_json_next (by decide), parse_value, if_neg digit, if_neg (by decide), if_neg (by decide),
      if_neg (by decide), if_neg (by decide), if_neg (by decide), if_pos rfl, token, ← append_arrayText]
    simp [commaList]

lemma Reads.array {items : List (List UInt8 × JsonNode)} (h : ∀ x ∈ items, Reads levels x.1 x.2) :
    Reads (levels + 1) (arrayText (items.map Prod.fst)) (.array (items.map Prod.snd)) := by
  cases items with
  | nil => exact Reads.array_nil levels
  | cons x xs =>
    refine ⟨arrayText_head _, ?_⟩
    intro pre rest _
    have fuel : (x :: xs).length ≤ (pre ++ (arrayText ((x :: xs).map Prod.fst) ++ rest)).length + 1 := by
      have texts : ∀ y ∈ (x :: xs).map Prod.fst, y ≠ [] := by
        intro y hy
        obtain ⟨z, hz, rfl⟩ := List.mem_map.1 hy
        obtain ⟨d, ds, e, -⟩ := (h z hz).head
        simp [e]
      have := length_le_commaList texts
      rw [arrayText_append]
      simp only [List.length_map, List.length_append] at this ⊢
      omega
    obtain ⟨c0, e⟩ := parse_json_arrayText (h x (by simp)).head (xs.map Prod.fst) levels pre rest
    rw [← List.map_cons] at e
    rw [e, arrayLoop_reads h (by simp) (arrayText_append _ _ _) c0 [] fuel, append_arrayText, List.nil_append]

lemma Reads.array_map {α : Type*} {f : α → List UInt8} {g : α → JsonNode} {xs : List α}
    (h : ∀ x ∈ xs, Reads levels (f x) (g x)) : Reads (levels + 1) (arrayText (xs.map f)) (.array (xs.map g)) := by
  have items : ∀ y ∈ xs.map fun x => (f x, g x), Reads levels y.1 y.2 := by
    intro y hy
    obtain ⟨x, hx, rfl⟩ := List.mem_map.1 hy
    exact h x hx
  have := Reads.array items
  rwa [List.map_map, List.map_map] at this

lemma Stops.array {items : List (List UInt8)} (h : ∀ x ∈ items, Stops levels x) :
    Stops (levels + 1) (arrayText items) := by
  cases items with
  | nil => exact (Reads.array_nil levels).stops
  | cons x xs =>
    refine ⟨arrayText_head _, ?_⟩
    intro pre rest v p _ e hp
    obtain ⟨c0, e0⟩ := parse_json_arrayText (h x (by simp)).head xs levels pre rest
    rw [e0] at e
    rw [arrayLoop_stops h (by simp) (arrayText_append _ _ _) e hp, append_arrayText]

/-- The text of a member. -/
def memberText (m : List UInt8 × List UInt8) : List UInt8 := nameText m.1 ++ m.2

lemma memberText_head (m : List UInt8 × List UInt8) : ∃ cs, memberText m = '"'.toUInt8 :: cs :=
  ⟨_, nameText_append m.1 m.2⟩

lemma memberList_head (m : List UInt8 × List UInt8) (ms : List (List UInt8 × List UInt8)) (rest : List UInt8) :
    ∃ tail, commaList ((m :: ms).map memberText) ++ rest = '"'.toUInt8 :: tail := by
  obtain ⟨cs, e⟩ := memberText_head m
  exact commaList_head e _ rest

/-- The part of a text of two members and more that is behind the first of them. -/
lemma memberList_split (m n : List UInt8 × List UInt8) (ms : List (List UInt8 × List UInt8)) (pre rest : List UInt8) :
    ∃ tail, pre ++ (commaList ((m :: n :: ms).map memberText) ++ rest) =
        pre ++ (nameText m.1 ++ (m.2 ++ ','.toUInt8 :: '"'.toUInt8 :: tail)) ∧
      pre ++ (commaList ((m :: n :: ms).map memberText) ++ rest) =
        (pre ++ (nameText m.1 ++ m.2) ++ [','.toUInt8]) ++ (commaList ((n :: ms).map memberText) ++ rest) := by
  obtain ⟨tail, e⟩ := memberList_head n ms rest
  refine ⟨tail, ?_, ?_⟩
  · rw [← e]
    simp [commaList_cons, memberText]
  · simp [commaList_cons, memberText]

lemma objectLoop_reads {members : List ((List UInt8 × List UInt8) × JsonNode)}
    (h : ∀ m ∈ members, Clean m.1.1 ∧ Reads levels m.1.2 m.2) (hne : members ≠ []) {text pre rest : List UInt8}
    (ht : text = pre ++ (commaList ((members.map Prod.fst).map memberText) ++ '}'.toUInt8 :: rest))
    (data : List (List UInt8 × JsonNode)) {fuel : Nat} (hf : members.length ≤ fuel) :
    objectLoop text .STANDARD (parse_json text .STANDARD levels) fuel '"'.toUInt8 data (pos (pre ++ ['"'.toUInt8])) =
      some (.object (data ++ members.map fun m => (m.1.1, m.2)),
        pos (pre ++ (commaList ((members.map Prod.fst).map memberText) ++ ['}'.toUInt8]))) := by
  induction members generalizing pre data fuel with
  | nil => exact absurd rfl hne
  | cons m ms ih =>
    obtain ⟨n, rfl⟩ : ∃ n, fuel = n + 1 := Nat.exists_eq_succ_of_ne_zero (by rw [List.length_cons] at hf; omega)
    obtain ⟨hk, hm⟩ := h m (by simp)
    cases ms with
    | nil =>
      simp only [List.map_cons, List.map_nil, commaList_singleton, memberText, List.append_assoc] at ht ⊢
      subst ht
      rw [objectLoop_last hk (hm.colon pre m.1.1 (ends_of_head (by decide) _))]
      simp
    | cons m' ms =>
      obtain ⟨tail, whole, split⟩ := memberList_split m.1 m'.1 (ms.map Prod.fst) pre ('}'.toUInt8 :: rest)
      have text1 := ht.trans whole
      have text2 := ht.trans split
      have parsed : parse_json text .STANDARD levels (JsonView.colon pre m.1.1) =
          some (m.2, pos (pre ++ (nameText m.1.1 ++ m.1.2))) := by
        rw [text1]
        exact hm.colon pre m.1.1 (ends_comma _)
      have step := objectLoop_next hk parsed n data tail
      rw [← text1] at step
      rw [step, ih (fun z hz => h z (by simp [hz])) (by simp) text2 (data ++ [(m.1.1, m.2)]) (by simpa using hf)]
      simp [commaList_cons, memberText]

/-- Of the members in brackets the parser reads no more and no less, unless it fails. -/
lemma objectLoop_stops {members : List (List UInt8 × List UInt8)} (h : ∀ m ∈ members, Clean m.1 ∧ Stops levels m.2)
    (hne : members ≠ []) {text pre rest : List UInt8}
    (ht : text = pre ++ (commaList (members.map memberText) ++ '}'.toUInt8 :: rest))
    {data : List (List UInt8 × JsonNode)} {fuel : Nat}
    (e : objectLoop text .STANDARD (parse_json text .STANDARD levels) fuel '"'.toUInt8 data
      (pos (pre ++ ['"'.toUInt8])) = some (v, p)) (hp : p.failed = false) :
    p = pos (pre ++ (commaList (members.map memberText) ++ ['}'.toUInt8])) := by
  induction members generalizing pre data fuel with
  | nil => exact absurd rfl hne
  | cons m ms ih =>
    obtain ⟨hk, hm⟩ := h m (by simp)
    cases fuel with
    | zero => cases e
    | succ n =>
    cases ms with
    | nil =>
      simp only [List.map_cons, List.map_nil, commaList_singleton, memberText, List.append_assoc] at ht ⊢
      subst ht
      obtain ⟨val, q, parsed, hq⟩ := objectLoop_parsed hk e hp
      obtain rfl := hm.colon pre m.1 (ends_of_head (by decide) _) parsed hq
      rw [objectLoop_last hk parsed] at e
      cases e
      simp
    | cons m' ms =>
      obtain ⟨tail, whole, split⟩ := memberList_split m m' ms pre ('}'.toUInt8 :: rest)
      have text1 := ht.trans whole
      have text2 := ht.trans split
      obtain ⟨val, q, parsed, hq⟩ := objectLoop_parsed hk (text1 ▸ e) hp
      obtain rfl := hm.colon pre m.1 (ends_comma _) parsed hq
      have step := objectLoop_next hk parsed n data tail
      rw [← text1] at step
      rw [step] at e
      rw [ih (fun z hz => h z (by simp [hz])) (by simp) text2 e]
      simp [commaList_cons, memberText]

/-- Behind the bracket of an object with members. -/
lemma parse_json_object (levels : Nat) (pre tail : List UInt8) :
    parse_json (pre ++ '{'.toUInt8 :: '"'.toUInt8 :: tail) .STANDARD (levels + 1) (pos pre) =
      objectLoop (pre ++ '{'.toUInt8 :: '"'.toUInt8 :: tail) .STANDARD
        (parse_json (pre ++ '{'.toUInt8 :: '"'.toUInt8 :: tail) .STANDARD levels)
        ((pre ++ '{'.toUInt8 :: '"'.toUInt8 :: tail).length + 1) '"'.toUInt8 [] (pos (pre ++ ['{'.toUInt8] ++ ['"'.toUInt8])) := by
  have digit : ¬('{'.toUInt8 = '-'.toUInt8 ∨ isDigit '{'.toUInt8) := by decide
  have split : pre ++ '{'.toUInt8 :: '"'.toUInt8 :: tail = (pre ++ ['{'.toUInt8]) ++ '"'.toUInt8 :: tail := by simp
  have token := next_token (c := '"'.toUInt8) (by decide) (pre ++ ['{'.toUInt8]) tail
  have other : ('"'.toUInt8 = '}'.toUInt8) = False := by decide
  rw [← split] at token
  rw [parse_json_next (by decide), parse_value, if_neg digit, if_neg (by decide), if_neg (by decide),
    if_neg (by decide), if_neg (by decide), if_pos rfl, token]
  simp only [Option.bind_eq_bind, Option.bind_some, other, if_false]

/-- The text of an object. -/
def objectText (members : List (List UInt8 × List UInt8)) : List UInt8 :=
  bytes "\x7b" ++ (commaList (members.map memberText) ++ bytes "\x7d")

lemma objectText_append (members : List (List UInt8 × List UInt8)) (pre rest : List UInt8) :
    pre ++ (objectText members ++ rest) =
      (pre ++ ['{'.toUInt8]) ++ (commaList (members.map memberText) ++ '}'.toUInt8 :: rest) := by
  have opening : bytes "\x7b" = ['{'.toUInt8] := by decide
  have closing : bytes "\x7d" = ['}'.toUInt8] := by decide
  simp [objectText, opening, closing]

lemma objectText_head (members : List (List UInt8 × List UInt8)) :
    ∃ c cs, objectText members = c :: cs ∧ isBlank c = false ∧ c ≠ ']'.toUInt8 :=
  ⟨'{'.toUInt8, commaList (members.map memberText) ++ bytes "\x7d", rfl, by decide, by decide⟩

/-- The loop over the members of an object. -/
lemma parse_json_objectText {members : List (List UInt8 × List UInt8)} (hne : members ≠ []) (levels : Nat)
    (pre rest : List UInt8) :
    parse_json (pre ++ (objectText members ++ rest)) .STANDARD (levels + 1) (pos pre) =
      objectLoop (pre ++ (objectText members ++ rest)) .STANDARD
        (parse_json (pre ++ (objectText members ++ rest)) .STANDARD levels)
        ((pre ++ (objectText members ++ rest)).length + 1) '"'.toUInt8 [] (pos (pre ++ ['{'.toUInt8] ++ ['"'.toUInt8])) := by
  obtain ⟨m, ms, rfl⟩ := List.exists_cons_of_ne_nil hne
  obtain ⟨tail, e⟩ := memberList_head m ms ('}'.toUInt8 :: rest)
  have text : pre ++ (objectText (m :: ms) ++ rest) = pre ++ '{'.toUInt8 :: '"'.toUInt8 :: tail := by
    rw [objectText_append, e]
    simp
  rw [text, parse_json_object]

lemma Reads.object (members : List ((List UInt8 × List UInt8) × JsonNode))
    (h : ∀ m ∈ members, Clean m.1.1 ∧ Reads levels m.1.2 m.2) (hne : members ≠ []) :
    Reads (levels + 1) (objectText (members.map Prod.fst)) (.object (members.map fun m => (m.1.1, m.2))) where
  head := objectText_head _
  reads pre rest _ := by
    have fuel : members.length ≤ (pre ++ (objectText (members.map Prod.fst) ++ rest)).length + 1 := by
      have texts : ∀ x ∈ (members.map Prod.fst).map memberText, x ≠ [] := by
        intro x hx
        obtain ⟨m, -, rfl⟩ := List.mem_map.1 hx
        obtain ⟨cs, e⟩ := memberText_head m
        simp [e]
      have := length_le_commaList texts
      rw [objectText_append]
      simp only [List.length_map, List.length_append] at this ⊢
      omega
    have closing : bytes "\x7d" = ['}'.toUInt8] := by decide
    have opening : bytes "\x7b" = ['{'.toUInt8] := by decide
    rw [parse_json_objectText (by simpa using hne), objectLoop_reads h hne (objectText_append _ _ _) [] fuel]
    simp [objectText, opening, closing]

lemma Stops.object {members : List (List UInt8 × List UInt8)} (h : ∀ m ∈ members, Clean m.1 ∧ Stops levels m.2)
    (hne : members ≠ []) : Stops (levels + 1) (objectText members) where
  head := objectText_head _
  stops pre rest v p _ e hp := by
    have closing : bytes "\x7d" = ['}'.toUInt8] := by decide
    have opening : bytes "\x7b" = ['{'.toUInt8] := by decide
    rw [parse_json_objectText hne] at e
    rw [objectLoop_stops h hne (objectText_append _ _ _) e hp]
    simp [objectText, opening, closing]

/-! ## Whole texts -/

lemma consume_garbage_end (s : List UInt8) : consume_garbage s .STANDARD (pos s) = some (pos s) := by
  simp [consume_garbage, consume_whitespace, skipWhile, pos, JsonParser.forth]

/-- A text that is read is the tree of its whole. -/
theorem Reads.parse_throw_on_error (h : Reads (max_depth + 1) s v) :
    parse_throw_on_error s .STANDARD = some (.ok v) := by
  have := h.reads [] [] ⟨(by intro c hc; cases hc), by decide⟩
  rw [List.nil_append, List.append_nil, List.nil_append] at this
  have start : ({} : JsonParser) = JsonView.pos [] := rfl
  rw [JsonView.parse_throw_on_error, JsonView.parse, start, this]
  simp only [Option.bind_eq_bind, Option.bind_some, consume_garbage_end]
  simp [JsonView.pos]

lemma consume_garbage_err (h : consume_garbage s .STANDARD p = some p') : p'.err = p.err := by
  simp only [consume_garbage, reduceCtorEq, if_false, Option.some.injEq] at h
  rw [← h]
  rfl

/-- What a tree was read from. -/
theorem parse_json_of_ok (h : parse_throw_on_error s .STANDARD = some (.ok v)) :
    ∃ p, parse_json s .STANDARD (max_depth + 1) (pos []) = some (v, p) ∧ p.failed = false := by
  rw [JsonView.parse_throw_on_error, Option.bind_eq_bind, Option.bind_eq_some_iff] at h
  obtain ⟨⟨result, p'⟩, e, h⟩ := h
  rw [JsonView.parse, Option.bind_eq_bind, Option.bind_eq_some_iff] at e
  obtain ⟨⟨res, p⟩, e, e'⟩ := e
  simp only [Option.bind_eq_bind, Option.bind_eq_some_iff] at e'
  obtain ⟨q, garbage, e'⟩ := e'
  cases e'
  have err := consume_garbage_err garbage
  cases hp : p'.err with
  | some what => simp [hp] at h
  | none =>
    simp only [hp] at h
    split at h
    · simp at h
    · simp only [Option.some.injEq, Except.ok.injEq] at h
      exact ⟨p, h ▸ e, by rw [JsonParser.failed, ← err, hp]; rfl⟩

/-! ## What loops keep -/

lemma not_failed_of_fail {w : JsonNode} {msg : List UInt8} (h : some (w, p.fail msg) = some (v, p'))
    (hp : p'.failed = false) : False := by
  cases h
  cases hp

/-- The members that were read stay the first ones. -/
lemma objectLoop_extends {text : List UInt8} {ch : UInt8} {data : List (List UInt8 × JsonNode)}
    (h : objectLoop text .STANDARD parse fuel ch data p = some (v, p')) (hp : p'.failed = false) :
    ∃ more, v = .object (data ++ more) := by
  induction fuel generalizing ch data p with
  | zero => cases h
  | succ n ih =>
    rw [objectLoop] at h
    simp only [Option.bind_eq_bind] at h
    rw [ite_eq_iff] at h
    obtain ⟨-, h⟩ | ⟨-, h⟩ := h
    · exact (not_failed_of_fail h hp).elim
    rw [ite_eq_iff] at h
    obtain ⟨hq, h⟩ | ⟨-, h⟩ := h
    · cases h
      rw [hq] at hp
      cases hp
    simp only [Option.bind_eq_some_iff] at h
    obtain ⟨⟨c1, p1⟩, -, h⟩ := h
    rw [ite_eq_iff] at h
    obtain ⟨-, h⟩ | ⟨-, h⟩ := h
    · exact (not_failed_of_fail h hp).elim
    rw [Option.bind_eq_some_iff] at h
    obtain ⟨⟨val, p2⟩, -, h⟩ := h
    rw [ite_eq_iff] at h
    obtain ⟨hq, h⟩ | ⟨-, h⟩ := h
    · cases h
      rw [hq] at hp
      cases hp
    rw [Option.bind_eq_some_iff] at h
    obtain ⟨⟨c3, p3⟩, -, h⟩ := h
    rw [ite_eq_iff] at h
    obtain ⟨-, h⟩ | ⟨-, h⟩ := h
    · cases h
      exact ⟨[_], rfl⟩
    rw [ite_eq_iff] at h
    obtain ⟨-, h⟩ | ⟨-, h⟩ := h
    · exact (not_failed_of_fail h hp).elim
    rw [Option.bind_eq_some_iff] at h
    obtain ⟨⟨c4, p4⟩, -, h⟩ := h
    obtain ⟨more, e⟩ := ih h
    exact ⟨_ :: more, by rw [e, List.append_assoc]; rfl⟩

/-- The items that were read stay the first ones. -/
lemma arrayLoop_extends {text : List UInt8} {data : List JsonNode}
    (h : arrayLoop text .STANDARD parse fuel data p = some (v, p')) (hp : p'.failed = false) :
    ∃ more, v = .array (data ++ more) := by
  induction fuel generalizing data p with
  | zero => cases h
  | succ n ih =>
    rw [arrayLoop] at h
    simp only [Option.bind_eq_bind, Option.bind_eq_some_iff] at h
    obtain ⟨⟨val, p2⟩, -, h⟩ := h
    rw [ite_eq_iff] at h
    obtain ⟨hq, h⟩ | ⟨-, h⟩ := h
    · cases h
      rw [hq] at hp
      cases hp
    rw [Option.bind_eq_some_iff] at h
    obtain ⟨⟨c3, p3⟩, -, h⟩ := h
    rw [ite_eq_iff] at h
    obtain ⟨-, h⟩ | ⟨-, h⟩ := h
    · cases h
      exact ⟨[_], rfl⟩
    rw [ite_eq_iff] at h
    obtain ⟨-, h⟩ | ⟨-, h⟩ := h
    · exact (not_failed_of_fail h hp).elim
    rw [Option.bind_eq_some_iff] at h
    obtain ⟨⟨c4, p4⟩, -, h⟩ := h
    obtain ⟨more, e⟩ := ih h
    exact ⟨_ :: more, by rw [e, List.append_assoc]; rfl⟩

/-- The value of the first member is the value that the object has for it. -/
lemma objectLoop_value (hk : Clean k) {data : List (List UInt8 × JsonNode)}
    (h : objectLoop (pre ++ (nameText k ++ s)) .STANDARD parse (fuel + 1) '"'.toUInt8 data (pos (pre ++ ['"'.toUInt8])) =
      some (v, p)) (hp : p.failed = false) :
    ∃ val q more, parse (colon pre k) = some (val, q) ∧ q.failed = false ∧ v = .object (data ++ (k, val) :: more) := by
  obtain ⟨val, q, e, hq⟩ := objectLoop_parsed hk h hp
  rw [objectLoop_colon hk, e] at h
  simp only [Option.bind_eq_bind, Option.bind_some, hq, Bool.false_eq_true, if_false, Option.bind_eq_some_iff] at h
  obtain ⟨⟨c3, p3⟩, -, h⟩ := h
  refine ⟨val, q, ?_⟩
  split at h
  · cases h
    exact ⟨[], e, hq, rfl⟩
  split at h
  · exact (not_failed_of_fail h hp).elim
  rw [Option.bind_eq_some_iff] at h
  obtain ⟨⟨c4, p4⟩, -, h⟩ := h
  obtain ⟨more, rfl⟩ := objectLoop_extends h hp
  exact ⟨more, e, hq, by rw [List.append_assoc]; rfl⟩

/-- The first item of an array. -/
lemma arrayLoop_value {c0 : UInt8} {data : List JsonNode} {text : List UInt8}
    (h : arrayLoop text .STANDARD parse (fuel + 1) data (pos (pre ++ [c0])) = some (v, p)) (hp : p.failed = false) :
    ∃ val q more, parse (pos pre) = some (val, q) ∧ q.failed = false ∧ v = .array (data ++ val :: more) := by
  obtain ⟨val, q, e, hq⟩ := arrayLoop_parsed h hp
  rw [arrayLoop, back_pos, e] at h
  simp only [Option.bind_eq_bind, Option.bind_some, hq, Bool.false_eq_true, if_false, Option.bind_eq_some_iff] at h
  obtain ⟨⟨c3, p3⟩, -, h⟩ := h
  refine ⟨val, q, ?_⟩
  split at h
  · cases h
    exact ⟨[], e, hq, rfl⟩
  split at h
  · exact (not_failed_of_fail h hp).elim
  rw [Option.bind_eq_some_iff] at h
  obtain ⟨⟨c4, p4⟩, -, h⟩ := h
  obtain ⟨more, rfl⟩ := arrayLoop_extends h hp
  exact ⟨more, e, hq, by rw [List.append_assoc]; rfl⟩

/-- A member whose value the parser stops behind is read, and the loop goes on. -/
lemma objectLoop_step (hk : Clean k) (hs : Stops levels s) {text tail : List UInt8}
    (ht : text = pre ++ (nameText k ++ (s ++ ','.toUInt8 :: '"'.toUInt8 :: tail))) {data : List (List UInt8 × JsonNode)}
    (h : objectLoop text .STANDARD (parse_json text .STANDARD levels) fuel '"'.toUInt8 data (pos (pre ++ ['"'.toUInt8])) =
      some (v, p)) (hp : p.failed = false) :
    ∃ val n, objectLoop text .STANDARD (parse_json text .STANDARD levels) n '"'.toUInt8 (data ++ [(k, val)])
      (pos (pre ++ (nameText k ++ s) ++ [','.toUInt8] ++ ['"'.toUInt8])) = some (v, p) := by
  cases fuel with
  | zero => cases h
  | succ n =>
    obtain ⟨val, q, parsed, hq⟩ := objectLoop_parsed hk (ht ▸ h) hp
    obtain rfl := hs.colon pre k (ends_comma _) parsed hq
    have step := objectLoop_next hk parsed n data tail
    rw [← ht] at step
    exact ⟨val, n, step ▸ h⟩

end

end ArrowheadCore.Json.JsonView
