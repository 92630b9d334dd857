import ArrowheadCore.Json.Cursor
import ArrowheadCore.Json.Derived

/-!
# What is read the grammar derives

A text that `JsonView` accepts is a text of the grammar. With comments anything may stand between tokens as far as
this goes, and without them blanks only, so that `JsonView` accepts exactly its grammar (`accepts_iff_document`).
-/

namespace ArrowheadCore.Json.JsonView
open Lib Grammar

/-- What stands between tokens. -/
def dialect : ParseMethod → Dialect
  | .COMMENTS => anyBlank
  | .STANDARD => jsonView
  | .NOTHROW => jsonView

lemma blank_append (strategy : ParseMethod) {a b : List UInt8} (ha : (dialect strategy).blank a)
    (hb : (dialect strategy).blank b) : (dialect strategy).blank (a ++ b) := by
  cases strategy with
  | COMMENTS => trivial
  | _ =>
    intro c hc
    obtain hc | hc := List.mem_append.1 hc
    · exact ha c hc
    · exact hb c hc

/-! ## Failures stay -/

section
variable {text s rest : List UInt8} {p q : JsonParser} {strategy : ParseMethod}

@[simp] lemma forth_failed (p : JsonParser) (n : Nat) : (p.forth n).failed = p.failed := rfl

@[simp] lemma back_failed (p : JsonParser) : p.back.failed = p.failed := rfl

@[simp] lemma skipWhile_failed (f : UInt8 → Bool) (p : JsonParser) : (skipWhile text f p).failed = p.failed := rfl

lemma commentLoop_failed : ∀ (s : List UInt8) (p : JsonParser), p.failed = true → (commentLoop s p).failed = true
  | [], p, _ => by
    rw [commentLoop]
    · rfl
    · simp
  | [_], p, _ => by
    rw [commentLoop]
    · rfl
    · simp
  | a :: b :: s, p, h => by
    rw [commentLoop]
    split
    · exact h
    · exact commentLoop_failed (b :: s) (p.forth 1) h

lemma consume_comment_failed (h : p.failed = true) : (consume_comment text p).2.failed = true := by
  unfold consume_comment
  split
  · dsimp only
    split
    · rfl
    split
    · exact h
    split
    · exact commentLoop_failed _ _ h
    · rfl
  · exact h

lemma consume_garbage_failed (h : p.failed = true) (e : consume_garbage text strategy p = some q) : q.failed = true := by
  have comment : (consume_comment text (consume_whitespace text p)).2.failed = true := consume_comment_failed h
  rw [consume_garbage] at e
  split at e
  · rw [garbageLoop] at e
    simp only [comment, if_true, Option.some.injEq] at e
    rw [← e]
    exact comment
  · cases e
    exact h

lemma get_next_token_failed {c : UInt8} (h : p.failed = true) (e : get_next_token text strategy p = some (c, q)) :
    q.failed = true := by
  rw [get_next_token, Option.bind_eq_bind, Option.bind_eq_some_iff] at e
  obtain ⟨q', garbage, e⟩ := e
  simp only [consume_garbage_failed h garbage, if_true, Option.some.injEq, Prod.mk.injEq] at e
  rw [← e.2]
  exact consume_garbage_failed h garbage

lemma parse_json_failed {n : Nat} {v : JsonNode} (h : p.failed = true) (e : parse_json text strategy n p = some (v, q)) :
    q.failed = true := by
  cases n with
  | zero =>
    cases e
    rfl
  | succ n =>
    rw [parse_json, Option.bind_eq_bind, Option.bind_eq_some_iff] at e
    obtain ⟨⟨c, q'⟩, token, e⟩ := e
    simp only [get_next_token_failed h token, if_true, Option.some.injEq, Prod.mk.injEq] at e
    rw [← e.2]
    exact get_next_token_failed h token

/-! ## Tokens -/

/-- A position without a failure. -/
lemma eq_cursor (hp : p.failed = false) (hi : p.i ≤ text.length) : p = cursor text (text.drop p.i) := by
  obtain ⟨i, err⟩ := p
  simp only [JsonParser.failed, Option.isSome_eq_false_iff, Option.isNone_iff_eq_none] at hp hi
  subst hp
  simp only [cursor, List.length_drop, JsonParser.mk.injEq, and_true]
  omega

lemma consume_garbage_skips (hs : s <:+ text) (e : consume_garbage text strategy (cursor text s) = some q)
    (hq : q.failed = false) : ∃ rest, q = cursor text rest ∧ Skips (dialect strategy) s rest := by
  have blanks : ∃ rest, consume_whitespace text (cursor text s) = cursor text rest ∧ Skips jsonView s rest := by
    have split := List.takeWhile_append_dropWhile (p := isBlank) (l := s)
    refine ⟨s.dropWhile isBlank, ?_, s.takeWhile isBlank, split.symm, fun c hc => List.mem_takeWhile_imp hc⟩
    have hs' : s.takeWhile isBlank ++ s.dropWhile isBlank <:+ text := by rwa [split]
    have := cursor_forth hs'
    rw [split] at this
    rw [consume_whitespace, skipWhile, drop_cursor hs, this]
  cases strategy with
  | COMMENTS =>
    obtain ⟨q', e', moves⟩ := consume_garbage_moves .COMMENTS (cursor_le text s)
    rw [e] at e'
    cases e'
    refine ⟨text.drop q.i, eq_cursor hq moves.inside, s.take (q.i - (cursor text s).i), ?_, trivial⟩
    have start := moves.start
    have there : s.drop (q.i - (cursor text s).i) = text.drop q.i := by
      calc s.drop (q.i - (cursor text s).i)
        _ = (text.drop (cursor text s).i).drop (q.i - (cursor text s).i) := by rw [drop_cursor hs]
        _ = text.drop q.i := by
          rw [List.drop_drop]
          congr 1
          omega
    rw [← there, List.take_append_drop]
  | STANDARD =>
    obtain ⟨rest, h, skip⟩ := blanks
    rw [consume_garbage, h] at e
    cases e
    exact ⟨rest, rfl, skip⟩
  | NOTHROW =>
    obtain ⟨rest, h, skip⟩ := blanks
    rw [consume_garbage, h] at e
    cases e
    exact ⟨rest, rfl, skip⟩

/-- A token is found behind the garbage, or the parser fails and gives none. -/
lemma get_next_token_inv {D : Dialect} {c : UInt8} (hs : s <:+ text)
    (garbage : ∀ {p}, consume_garbage text strategy (cursor text s) = some p → p.failed = false → p.i ≠ text.length →
      ∃ rest, p = cursor text rest ∧ Skips D s rest)
    (e : get_next_token text strategy (cursor text s) = some (c, q)) :
    (c = 0 ∧ q.failed = true) ∨ ∃ rest, q = cursor text rest ∧ Skips D s (c :: rest) := by
  rw [get_next_token, Option.bind_eq_bind, Option.bind_eq_some_iff] at e
  obtain ⟨p, skipped, e⟩ := e
  cases hp : p.failed with
  | true =>
    simp only [hp, if_true, Option.some.injEq, Prod.mk.injEq] at e
    exact .inl ⟨e.1.symm, by rw [← e.2, hp]⟩
  | false =>
    simp only [hp, Bool.false_eq_true, if_false] at e
    split at e
    · cases e
      exact .inl ⟨rfl, rfl⟩
    next inside =>
      obtain ⟨rest, rfl, skip⟩ := garbage skipped hp inside
      cases rest with
      | nil => exact absurd rfl inside
      | cons d ds =>
        have behind := skip.suffix hs
        rw [char_cursor behind, cursor_forth_one behind] at e
        cases e
        exact .inr ⟨ds, rfl, skip⟩

lemma get_next_token_skips {c : UInt8} (hs : s <:+ text) (e : get_next_token text strategy (cursor text s) = some (c, q)) :
    (c = 0 ∧ q.failed = true) ∨ ∃ rest, q = cursor text rest ∧ Skips (dialect strategy) s (c :: rest) :=
  get_next_token_inv hs (fun garbage hp _ => consume_garbage_skips hs garbage hp) e

/-! ## Names and strings -/

lemma keyLoop_sound (s : List UInt8) (p : JsonParser) :
    ((keyLoop s p).1 = true → ∃ k rest, s = k ++ '"'.toUInt8 :: rest ∧ IsName k ∧ (keyLoop s p).2 = p.forth (k.length + 1)) ∧
      ((keyLoop s p).1 = false → (keyLoop s p).2.failed = true) := by
  fun_induction keyLoop s p with
  | case1 p => exact ⟨by simp, fun _ => rfl⟩
  | case2 s p => exact ⟨fun _ => ⟨[], s, rfl, .nil, rfl⟩, by simp⟩
  | case3 ch s p h1 h2 ih =>
    refine ⟨fun ok => ?_, ih.2⟩
    obtain ⟨k, rest, rfl, hk, e⟩ := ih.1 ok
    exact ⟨ch :: k, rest, rfl, .plain h1 h2 hk, by rw [e, forth_forth, List.length_cons, Nat.add_comm 1]⟩
  | case4 ch p => exact ⟨by simp, fun _ => rfl⟩
  | case5 ch p h1 h2 a b c d s ih =>
    obtain rfl : ch = '\\'.toUInt8 := by simpa using h2
    refine ⟨fun ok => ?_, ih.2⟩
    obtain ⟨k, rest, rfl, hk, e⟩ := ih.1 ok
    exact ⟨_, rest, rfl, .hex hk, by rw [e, forth_forth]; simp only [List.length_cons]; rw [Nat.add_comm 6]⟩
  | case6 ch p => exact ⟨by simp, fun _ => rfl⟩
  | case7 ch p h1 h2 e s h3 h4 ih =>
    obtain rfl : ch = '\\'.toUInt8 := by simpa using h2
    refine ⟨fun ok => ?_, ih.2⟩
    obtain ⟨k, rest, rfl, hk, e⟩ := ih.1 ok
    exact ⟨_, rest, rfl, .short h4 hk, by rw [e, forth_forth]; simp only [List.length_cons]; rw [Nat.add_comm 2]⟩
  | case8 ch p => exact ⟨by simp, fun _ => rfl⟩

lemma parse_key_sound {k : List UInt8} (hs : s <:+ text) (e : parse_key text (cursor text s) = (k, q))
    (hq : q.failed = false) : ∃ rest, s = k ++ '"'.toUInt8 :: rest ∧ IsName k ∧ q = cursor text rest := by
  obtain ⟨ok, fails⟩ := keyLoop_sound s (cursor text s)
  cases h : (keyLoop s (cursor text s)).1 with
  | false =>
    simp only [parse_key, drop_cursor hs, h, Bool.false_eq_true, if_false, Prod.mk.injEq] at e
    rw [← e.2, fails h] at hq
    cases hq
  | true =>
    obtain ⟨k', rest, rfl, hk, -⟩ := ok h
    rw [parse_key_cursor hk hs] at e
    cases e
    exact ⟨rest, rfl, hk, rfl⟩

lemma stringLoop_sound (s acc : List UInt8) (last : Int) (p : JsonParser) (h : (stringLoop s acc last p).2.failed = false) :
    ∃ t out rest, s = t ++ '"'.toUInt8 :: rest ∧ Spells last t out := by
  fun_induction stringLoop s acc last p with
  | case1 => cases h
  | case2 s acc last p => exact ⟨[], _, s, rfl, .nil last⟩
  | case3 => cases h
  | case4 ch s acc last p h1 h2 h3 ih =>
    obtain ⟨t, out, rest, rfl, ht⟩ := ih h
    exact ⟨ch :: t, _, rest, rfl, .plain (Nat.not_le.1 h2) h1 h3 ht⟩
  | case5 => cases h
  | case6 ch acc last p h1 h2 h3 a b c d s hd r ih =>
    obtain rfl : ch = '\\'.toUInt8 := by simpa using h3
    obtain ⟨t, out, rest, rfl, ht⟩ := ih h
    exact ⟨_, _, rest, rfl, .hex hd ht⟩
  | case7 => cases h
  | case8 => cases h
  | case9 ch acc last p h1 h2 h3 e s h4 c he ih =>
    obtain rfl : ch = '\\'.toUInt8 := by simpa using h3
    obtain ⟨t, out, rest, rfl, ht⟩ := ih h
    exact ⟨_, _, rest, rfl, .short he ht⟩
  | case10 => cases h

lemma parse_string_sound {out : List UInt8} (hs : s <:+ text) (e : parse_string text (cursor text s) = (out, q))
    (hq : q.failed = false) : ∃ t rest, s = t ++ '"'.toUInt8 :: rest ∧ Spells (-1) t out ∧ q = cursor text rest := by
  have loop : stringLoop s [] (-1) (cursor text s) = (out, q) := by rwa [parse_string, drop_cursor hs] at e
  obtain ⟨t, out', rest, rfl, ht⟩ := stringLoop_sound s [] (-1) (cursor text s) (by rw [loop]; exact hq)
  rw [parse_string_cursor ht hs] at e
  cases e
  exact ⟨t, rest, rfl, ht, rfl⟩

/-! ## Numbers -/

/-- The digits in front of the rest. -/
lemma skip_digits_sound (hs : s <:+ text) : ∃ ds rest, s = ds ++ rest ∧ (∀ d ∈ ds, isDigit d) ∧ EndsNumber rest ∧
    skipWhile text isDigit (cursor text s) = cursor text rest := by
  have split := List.takeWhile_append_dropWhile (p := isDigit) (l := s)
  have digits : ∀ d ∈ s.takeWhile isDigit, isDigit d := fun d hd => List.mem_takeWhile_imp hd
  have ends : EndsNumber (s.dropWhile isDigit) := by
    intro c hc
    have := List.head?_dropWhile_not isDigit s
    rw [Option.mem_def.1 hc] at this
    show isDigit c = false
    simpa using this
  refine ⟨_, _, split.symm, digits, ends, ?_⟩
  have hs' : s.takeWhile isDigit ++ s.dropWhile isDigit <:+ text := by rwa [split]
  have := skip_digits digits ends hs'
  rwa [split] at this

lemma headD_isDigit (h : isDigit (s.headD 0) = true) : ∃ d ds, s = d :: ds ∧ isDigit d := by
  cases s with
  | nil => cases h
  | cons d ds => exact ⟨d, ds, rfl, h⟩

lemma headD_eq {c : UInt8} (h : s.headD 0 = c) (hc : c ≠ 0) : ∃ ds, s = c :: ds := by
  cases s with
  | nil => exact absurd h.symm hc
  | cons d ds => exact ⟨ds, by rw [← h]; rfl⟩

lemma parse_digits_sound (hs : s <:+ text) (e : parse_digits text (cursor text s) = (true, q)) :
    ∃ ds rest, s = ds ++ rest ∧ IsDigits ds ∧ (ds.head? = some '0'.toUInt8 → ds = ['0'.toUInt8]) ∧ EndsNumber rest ∧
      q = cursor text rest := by
  rw [parse_digits, char_cursor hs] at e
  split at e
  next hz =>
    obtain ⟨cs, rfl⟩ := headD_eq hz (by decide)
    have inner := suffix_of_cons hs
    rw [cursor_forth_one hs] at e
    dsimp only at e
    rw [char_cursor inner] at e
    split at e
    · cases e
    next hd =>
      cases e
      refine ⟨['0'.toUInt8], cs, rfl, ⟨by simp, List.forall_mem_singleton.2 (by decide)⟩, fun _ => rfl, ?_, rfl⟩
      intro c hc
      cases cs with
      | nil => cases hc
      | cons d ds =>
        cases hc
        show isDigit c = false
        simpa using hd
  next hz =>
    split at e
    next hd =>
      obtain ⟨d, cs, rfl, digit⟩ := headD_isDigit hd
      rw [cursor_forth_one hs] at e
      obtain ⟨ds, rest, rfl, digits, ends, skip⟩ := skip_digits_sound (suffix_of_cons hs)
      rw [skip] at e
      cases e
      refine ⟨d :: ds, rest, rfl, ⟨by simp, ?_⟩, ?_, ends, rfl⟩
      · intro x hx
        obtain rfl | hx := List.mem_cons.1 hx
        · exact digit
        · exact digits x hx
      · intro h
        exact absurd (Option.some.inj h) hz
    · cases e

lemma parse_integer_sound (hs : s <:+ text) (e : parse_integer text (cursor text s) = (true, q)) :
    ∃ t rest, s = t ++ rest ∧ IsInt t ∧ EndsNumber rest ∧ q = cursor text rest := by
  rw [parse_integer, char_cursor hs] at e
  split at e
  next hm =>
    obtain ⟨cs, rfl⟩ := headD_eq hm (by decide)
    rw [cursor_forth_one hs] at e
    obtain ⟨ds, rest, rfl, hd, h0, ends, rfl⟩ := parse_digits_sound (suffix_of_cons hs) e
    exact ⟨'-'.toUInt8 :: ds, rest, rfl, ⟨['-'.toUInt8], ds, rfl, .inr rfl, hd, h0⟩, ends, rfl⟩
  · obtain ⟨ds, rest, rfl, hd, h0, ends, rfl⟩ := parse_digits_sound hs e
    exact ⟨ds, rest, rfl, ⟨[], ds, rfl, .inl rfl, hd, h0⟩, ends, rfl⟩

/-- One digit at least, and all that follow. -/
lemma digits_sound {msg : List UInt8} (hs : s <:+ text)
    (e : (if !isDigit (char text (cursor text s).i) then (false, (cursor text s).fail msg)
      else (true, skipWhile text isDigit (cursor text s))) = (true, q)) :
    ∃ ds rest, s = ds ++ rest ∧ IsDigits ds ∧ q = cursor text rest := by
  rw [char_cursor hs] at e
  split at e
  · cases e
  next hd =>
    obtain ⟨ds, rest, rfl, digits, ends, skip⟩ := skip_digits_sound hs
    rw [skip] at e
    cases e
    refine ⟨ds, rest, rfl, ⟨?_, digits⟩, rfl⟩
    rintro rfl
    rw [List.nil_append, isDigit_headD ends] at hd
    exact hd rfl

lemma parse_fraction_sound (hs : s <:+ text) (e : parse_fraction text (cursor text s) = (true, q)) :
    ∃ f rest, s = f ++ rest ∧ IsFrac f ∧ q = cursor text rest ∧ (f = [] → s.headD 0 ≠ '.'.toUInt8) := by
  rw [parse_fraction, char_cursor hs] at e
  split at e
  next hm =>
    obtain ⟨cs, rfl⟩ := headD_eq hm (by decide)
    rw [cursor_forth_one hs] at e
    obtain ⟨ds, rest, rfl, hd, rfl⟩ := digits_sound (suffix_of_cons hs) e
    exact ⟨'.'.toUInt8 :: ds, rest, rfl, .inr ⟨ds, rfl, hd⟩, rfl, by simp⟩
  next hm =>
    cases e
    exact ⟨[], s, rfl, .inl rfl, rfl, fun _ => hm⟩

lemma parse_exponent_sound (hs : s <:+ text) (e : parse_exponent text (cursor text s) = (true, q)) :
    ∃ x rest, s = x ++ rest ∧ IsExp x ∧ q = cursor text rest ∧
      (x = [] → s.headD 0 ≠ 'e'.toUInt8 ∧ s.headD 0 ≠ 'E'.toUInt8) := by
  rw [parse_exponent, char_cursor hs] at e
  split at e
  next hm =>
    obtain ⟨mark, cs, rfl, hmark⟩ : ∃ mark cs, s = mark :: cs ∧ (mark = 'e'.toUInt8 ∨ mark = 'E'.toUInt8) := by
      obtain hm | hm := hm
      · obtain ⟨cs, rfl⟩ := headD_eq hm (by decide)
        exact ⟨_, cs, rfl, .inl rfl⟩
      · obtain ⟨cs, rfl⟩ := headD_eq hm (by decide)
        exact ⟨_, cs, rfl, .inr rfl⟩
    have inner := suffix_of_cons hs
    rw [cursor_forth_one hs] at e
    dsimp only at e
    rw [char_cursor inner] at e
    split at e
    next hsign =>
      obtain ⟨sign, cs, rfl, hsign⟩ : ∃ sign cs', cs = sign :: cs' ∧ (sign = '+'.toUInt8 ∨ sign = '-'.toUInt8) := by
        obtain h | h := hsign
        · obtain ⟨cs, rfl⟩ := headD_eq h (by decide)
          exact ⟨_, cs, rfl, .inl rfl⟩
        · obtain ⟨cs, rfl⟩ := headD_eq h (by decide)
          exact ⟨_, cs, rfl, .inr rfl⟩
      rw [cursor_forth_one inner] at e
      obtain ⟨ds, rest, rfl, hd, rfl⟩ := digits_sound (suffix_of_cons inner) e
      refine ⟨mark :: ([sign] ++ ds), rest, rfl, .inr ⟨mark, [sign], ds, rfl, hmark, ?_, hd⟩, rfl, by simp⟩
      obtain rfl | rfl := hsign
      · exact .inr (.inl rfl)
      · exact .inr (.inr rfl)
    · obtain ⟨ds, rest, rfl, hd, rfl⟩ := digits_sound inner e
      exact ⟨mark :: ([] ++ ds), rest, rfl, .inr ⟨mark, [], ds, rfl, hmark, .inl rfl, hd⟩, rfl, by simp⟩
  next hm =>
    cases e
    exact ⟨[], s, rfl, .inl rfl, rfl, fun _ => not_or.1 hm⟩

lemma digits_fails {msg : List UInt8}
    (e : (if !isDigit (char text p.i) then (false, p.fail msg) else (true, skipWhile text isDigit p)) = (false, q)) :
    q.failed = true := by
  split at e
  · cases e
    rfl
  · cases e

/-- A part of a number that is not there fails. -/
lemma parse_number_parts {ok : Bool} :
    (parse_integer text (cursor text s) = (ok, q) → q.failed = false → ok = true) ∧
    (parse_fraction text (cursor text s) = (ok, q) → q.failed = false → ok = true) ∧
    (parse_exponent text (cursor text s) = (ok, q) → q.failed = false → ok = true) := by
  cases ok with
  | true => exact ⟨fun _ _ => rfl, fun _ _ => rfl, fun _ _ => rfl⟩
  | false =>
    refine ⟨fun e hq => ?_, fun e hq => ?_, fun e hq => ?_⟩
    · have := (parse_integer_moves (cursor_le text s)).2.2
      rw [e] at this
      rw [this rfl] at hq
      cases hq
    · rw [parse_fraction] at e
      split at e
      · rw [digits_fails e] at hq
        cases hq
      · cases e
    · rw [parse_exponent] at e
      split at e
      · dsimp only at e
        split at e
        · rw [digits_fails e] at hq
          cases hq
        · rw [digits_fails e] at hq
          cases hq
      · cases e

lemma parse_number_sound {v : JsonNode} (hs : s <:+ text) (e : parse_number text (cursor text s) = (v, q))
    (hq : q.failed = false) : ∃ t rest, s = t ++ rest ∧ IsNumber t v ∧ q = cursor text rest := by
  rw [parse_number] at e
  cases h1 : parse_integer text (cursor text s) with
  | mk ok p1 =>
  rw [h1] at e
  cases ok with
  | false =>
    cases e
    cases parse_number_parts.1 h1 hq
  | true =>
  obtain ⟨i, s1, rfl, hi, ends, rfl⟩ := parse_integer_sound hs h1
  have length : (cursor text s1).i - (cursor text (i ++ s1)).i = i.length := by
    rw [← cursor_forth hs]
    simp [JsonParser.forth]
  simp only [Bool.not_true, Bool.false_eq_true, if_false, length, char_cursor (suffix_of_append hs), drop_cursor hs] at e
  split at e
  next hshort =>
    cases e
    rw [strtol_int hi ends]
    exact ⟨i, s1, rfl, .int hi hshort.2.2.2, rfl⟩
  next hlong =>
    have hs1 := suffix_of_append hs
    cases h2 : parse_fraction text (cursor text s1) with
    | mk ok p2 =>
    rw [h2] at e
    cases ok with
    | false =>
      cases e
      cases parse_number_parts.2.1 h2 hq
    | true =>
    obtain ⟨f, s2, rfl, hf, rfl, dot⟩ := parse_fraction_sound hs1 h2
    have hs2 := suffix_of_append hs1
    cases h3 : parse_exponent text (cursor text s2) with
    | mk ok p3 =>
    simp only [Bool.not_true, Bool.false_eq_true, if_false, h3] at e
    cases ok with
    | false =>
      cases e
      cases parse_number_parts.2.2 h3 hq
    | true =>
    obtain ⟨x, rest, rfl, hx, rfl, mark⟩ := parse_exponent_sound hs2 h3
    simp only [Bool.not_true, Bool.false_eq_true, if_false] at e
    have split : i ++ (f ++ (x ++ rest)) = (i ++ (f ++ x)) ++ rest := by simp
    have number : IsNumber (i ++ (f ++ x)) (.double (i ++ (f ++ x))) := by
      refine .double hi hf hx fun hf0 hx0 => ?_
      subst hf0 hx0
      by_contra hn
      exact hlong ⟨dot rfl, (mark rfl).1, (mark rfl).2, Nat.not_lt.1 hn⟩
    have whole : (cursor text rest).i - (cursor text (i ++ (f ++ (x ++ rest)))).i = (i ++ (f ++ x)).length := by
      rw [split] at hs ⊢
      rw [← cursor_forth hs]
      simp [JsonParser.forth]
    rw [whole, split, List.take_left] at e
    cases e
    exact ⟨i ++ (f ++ x), rest, split, number, rfl⟩

lemma expect_sound {word : String} {c : UInt8} {res v : JsonNode}
    (hs : c :: s <:+ text) (e : expect text word res (cursor text s) = (v, q)) (hq : q.failed = false) :
    ∃ rest, c :: s = bytes word ++ rest ∧ v = res ∧ q = cursor text rest := by
  have length : word.length = (bytes word).length := by rw [bytes, List.length_map, String.length_toList]
  simp only [expect, cursor_back hs, drop_cursor hs] at e
  split at e
  next h =>
    obtain ⟨rest, split⟩ := List.isPrefixOf_iff_prefix.1 h
    have whole : bytes word ++ rest <:+ text := by rwa [split]
    rw [← split, length, cursor_forth whole] at e
    cases e
    exact ⟨rest, split.symm, rfl, rfl⟩
  · cases e
    cases hq

end

/-! ## Values -/

section
variable {text : List UInt8} {strategy : ParseMethod} {D : Dialect}
  {parse : JsonParser → Option (JsonNode × JsonParser)} {V : List UInt8 → JsonNode → List UInt8 → Prop}
  {s : List UInt8} {v : JsonNode} {q : JsonParser}

/-- A dialect that has everything that the parser skips between tokens, and every name. -/
structure Covers (text : List UInt8) (strategy : ParseMethod) (D : Dialect) : Prop where
  append : ∀ {a b}, D.blank a → D.blank b → D.blank (a ++ b)
  name : ∀ {k}, IsName k → D.name k
  token : ∀ {s c q}, s <:+ text → get_next_token text strategy (cursor text s) = some (c, q) →
    (c = 0 ∧ q.failed = true) ∨ ∃ rest, q = cursor text rest ∧ Skips D s (c :: rest)

lemma covers_dialect (text : List UInt8) (strategy : ParseMethod) : Covers text strategy (dialect strategy) :=
  ⟨blank_append strategy, fun h => by cases strategy <;> exact h, get_next_token_skips⟩

lemma Covers.trans (hD : Covers text strategy D) {s1 s2 : List UInt8} (h1 : Skips D s s1) (h2 : Skips D s1 s2) :
    Skips D s s2 := by
  obtain ⟨w1, rfl, b1⟩ := h1
  obtain ⟨w2, rfl, b2⟩ := h2
  exact ⟨w1 ++ w2, by simp, hD.append b1 b2⟩

/-- A token that is a character is there. -/
lemma Covers.there (hD : Covers text strategy D) {c : UInt8} (hc : c ≠ 0) (hs : s <:+ text)
    (e : get_next_token text strategy (cursor text s) = some (c, q)) :
    ∃ rest, q = cursor text rest ∧ Skips D s (c :: rest) := by
  obtain ⟨h0, -⟩ | h := hD.token hs e
  · exact absurd h0 hc
  · exact h

/-- What the parser reads are these values, with blanks in front of them, and a failure stays. -/
structure Derives (text : List UInt8) (D : Dialect) (parse : JsonParser → Option (JsonNode × JsonParser))
    (V : List UInt8 → JsonNode → List UInt8 → Prop) : Prop where
  fails : ∀ {p v q}, p.failed = true → parse p = some (v, q) → q.failed = true
  derives : ∀ {s v q}, s <:+ text → parse (cursor text s) = some (v, q) → q.failed = false →
    ∃ s1 rest, Skips D s s1 ∧ V s1 v rest ∧ q = cursor text rest ∧ rest <:+ text

lemma arrayLoop_sound (hD : Covers text strategy D) (hV : Derives text D parse V) {c : UInt8} {q0 : JsonParser}
    (hs : s <:+ text) (token : get_next_token text strategy (cursor text s) = some (c, q0)) {fuel : Nat}
    {data : List JsonNode}
    (e : arrayLoop text strategy parse fuel data q0 = some (v, q)) (hq : q.failed = false) :
    ∃ vs rest, v = .array (data ++ vs) ∧ Items D V s vs rest ∧ q = cursor text rest ∧ rest <:+ text := by
  induction fuel generalizing s c q0 data with
  | zero => cases e
  | succ n ih =>
    rw [arrayLoop] at e
    simp only [Option.bind_eq_bind, Option.bind_eq_some_iff] at e
    obtain ⟨⟨val, p1⟩, parsed, e⟩ := e
    cases hp1 : p1.failed with
    | true =>
      simp only [hp1, if_true, Option.some.injEq, Prod.mk.injEq] at e
      rw [← e.2, hp1] at hq
      cases hq
    | false =>
    simp only [hp1, Bool.false_eq_true, if_false] at e
    obtain ⟨-, failed⟩ | ⟨s0, rfl, skip⟩ := hD.token hs token
    · rw [hV.fails (p := q0.back) failed parsed] at hp1
      cases hp1
    have behind := skip.suffix hs
    rw [cursor_back behind] at parsed
    obtain ⟨s1, s2, skip1, value, rfl, hs2⟩ := hV.derives behind parsed hp1
    rw [Option.bind_eq_some_iff] at e
    obtain ⟨⟨c3, p3⟩, token3, e⟩ := e
    dsimp only at e token3
    rw [ite_eq_iff] at e
    obtain ⟨hc3, e⟩ | ⟨-, e⟩ := e
    · subst hc3
      obtain ⟨rest, rfl, skip3⟩ := hD.there (by decide) hs2 token3
      cases e
      exact ⟨[val], rest, rfl, .last (hD.trans skip skip1) value skip3, rfl, suffix_of_cons (skip3.suffix hs2)⟩
    rw [ite_eq_iff] at e
    obtain ⟨-, e⟩ | ⟨hc3, e⟩ := e
    · cases e
      cases hq
    obtain rfl : c3 = ','.toUInt8 := by simpa using hc3
    obtain ⟨s3, rfl, skip3⟩ := hD.there (by decide) hs2 token3
    rw [Option.bind_eq_some_iff] at e
    obtain ⟨⟨c4, p4⟩, token4, e⟩ := e
    obtain ⟨vs, rest, rfl, items, rfl, hrest⟩ := ih (suffix_of_cons (skip3.suffix hs2)) token4 e
    exact ⟨val :: vs, rest, by simp, .more (hD.trans skip skip1) value skip3 items, rfl, hrest⟩

lemma objectLoop_sound (hD : Covers text strategy D) (hV : Derives text D parse V) {c : UInt8} {q0 : JsonParser}
    (hs : s <:+ text) (token : get_next_token text strategy (cursor text s) = some (c, q0)) {fuel : Nat}
    {data : List (List UInt8 × JsonNode)} (e : objectLoop text strategy parse fuel c data q0 = some (v, q))
    (hq : q.failed = false) :
    ∃ ms rest, v = .object (data ++ ms) ∧ Members D V s ms rest ∧ q = cursor text rest ∧ rest <:+ text := by
  induction fuel generalizing s c q0 data with
  | zero => cases e
  | succ n ih =>
    rw [objectLoop] at e
    simp only [Option.bind_eq_bind] at e
    rw [ite_eq_iff] at e
    obtain ⟨-, e⟩ | ⟨hc, e⟩ := e
    · cases e
      cases hq
    obtain rfl : c = '"'.toUInt8 := by simpa using hc
    obtain ⟨s0, rfl, skip⟩ := hD.there (by decide) hs token
    have hs0 := suffix_of_cons (skip.suffix hs)
    cases hk : parse_key text (cursor text s0) with
    | mk k p1 =>
    rw [hk] at e
    dsimp only at e
    rw [ite_eq_iff] at e
    obtain ⟨hp1, e⟩ | ⟨hp1, e⟩ := e
    · cases e
      rw [hp1] at hq
      cases hq
    obtain ⟨s1, rfl, name, rfl⟩ := parse_key_sound hs0 hk (by simpa using hp1)
    have hs1 := suffix_of_cons (suffix_of_append hs0)
    rw [Option.bind_eq_some_iff] at e
    obtain ⟨⟨c2, p2⟩, token2, e⟩ := e
    dsimp only at e token2
    rw [ite_eq_iff] at e
    obtain ⟨-, e⟩ | ⟨hc2, e⟩ := e
    · cases e
      cases hq
    obtain rfl : c2 = ':'.toUInt8 := by simpa using hc2
    obtain ⟨s2, rfl, skip2⟩ := hD.there (by decide) hs1 token2
    have hs2 := suffix_of_cons (skip2.suffix hs1)
    rw [Option.bind_eq_some_iff] at e
    obtain ⟨⟨val, p3⟩, parsed, e⟩ := e
    dsimp only at e parsed
    rw [ite_eq_iff] at e
    obtain ⟨hp3, e⟩ | ⟨hp3, e⟩ := e
    · cases e
      rw [hp3] at hq
      cases hq
    obtain ⟨s3, s4, skip3, value, rfl, hs4⟩ := hV.derives hs2 parsed (by simpa using hp3)
    have member : Member D V s (k, val) s4 := .mk skip (hD.name name) skip2 skip3 value
    rw [Option.bind_eq_some_iff] at e
    obtain ⟨⟨c5, p5⟩, token5, e⟩ := e
    dsimp only at e token5
    rw [ite_eq_iff] at e
    obtain ⟨hc5, e⟩ | ⟨-, e⟩ := e
    · subst hc5
      obtain ⟨rest, rfl, skip5⟩ := hD.there (by decide) hs4 token5
      cases e
      exact ⟨[(k, val)], rest, rfl, .last member skip5, rfl, suffix_of_cons (skip5.suffix hs4)⟩
    rw [ite_eq_iff] at e
    obtain ⟨-, e⟩ | ⟨hc5, e⟩ := e
    · cases e
      cases hq
    obtain rfl : c5 = ','.toUInt8 := by simpa using hc5
    obtain ⟨s5, rfl, skip5⟩ := hD.there (by decide) hs4 token5
    rw [Option.bind_eq_some_iff] at e
    obtain ⟨⟨c6, p6⟩, token6, e⟩ := e
    obtain ⟨ms, rest, rfl, members, rfl, hrest⟩ := ih (suffix_of_cons (skip5.suffix hs4)) token6 e
    exact ⟨(k, val) :: ms, rest, by simp, .more member skip5 members, rfl, hrest⟩

lemma parse_value_sound (hD : Covers text strategy D) (hV : Derives text D parse V) {c : UInt8} (hs : c :: s <:+ text)
    (e : parse_value text strategy parse c (cursor text s) = some (v, q)) (hq : q.failed = false) :
    ∃ rest, Layer D V (c :: s) v rest ∧ q = cursor text rest ∧ rest <:+ text := by
  have inner := suffix_of_cons hs
  rw [parse_value] at e
  rw [ite_eq_iff] at e
  obtain ⟨-, e⟩ | ⟨-, e⟩ := e
  · rw [cursor_back hs] at e
    obtain ⟨t, rest, split, number, rfl⟩ := parse_number_sound hs (Option.some.inj e) hq
    rw [split] at hs ⊢
    exact ⟨rest, .number rest number, rfl, suffix_of_append hs⟩
  rw [ite_eq_iff] at e
  obtain ⟨hc, e⟩ | ⟨-, e⟩ := e
  · subst hc
    obtain ⟨rest, split, rfl, rfl⟩ := expect_sound hs (Option.some.inj e) hq
    rw [split] at hs ⊢
    exact ⟨rest, .true rest, rfl, suffix_of_append hs⟩
  rw [ite_eq_iff] at e
  obtain ⟨hc, e⟩ | ⟨-, e⟩ := e
  · subst hc
    obtain ⟨rest, split, rfl, rfl⟩ := expect_sound hs (Option.some.inj e) hq
    rw [split] at hs ⊢
    exact ⟨rest, .false rest, rfl, suffix_of_append hs⟩
  rw [ite_eq_iff] at e
  obtain ⟨hc, e⟩ | ⟨-, e⟩ := e
  · subst hc
    obtain ⟨rest, split, rfl, rfl⟩ := expect_sound hs (Option.some.inj e) hq
    rw [split] at hs ⊢
    exact ⟨rest, .null rest, rfl, suffix_of_append hs⟩
  rw [ite_eq_iff] at e
  obtain ⟨hc, e⟩ | ⟨-, e⟩ := e
  · subst hc
    cases h : parse_string text (cursor text s) with
    | mk out p =>
    rw [h] at e
    cases e
    obtain ⟨t, rest, rfl, spells, rfl⟩ := parse_string_sound inner h hq
    exact ⟨rest, .string rest spells, rfl, suffix_of_cons (suffix_of_append inner)⟩
  rw [ite_eq_iff] at e
  obtain ⟨hc, e⟩ | ⟨-, e⟩ := e
  · subst hc
    rw [Option.bind_eq_bind, Option.bind_eq_some_iff] at e
    obtain ⟨⟨c1, p1⟩, token, e⟩ := e
    dsimp only at e token
    rw [ite_eq_iff] at e
    obtain ⟨hc1, e⟩ | ⟨-, e⟩ := e
    · subst hc1
      obtain ⟨rest, rfl, skip⟩ := hD.there (by decide) inner token
      cases e
      exact ⟨rest, .emptyObject skip, rfl, suffix_of_cons (skip.suffix inner)⟩
    · obtain ⟨ms, rest, rfl, members, rfl, hrest⟩ := objectLoop_sound hD hV inner token e hq
      exact ⟨rest, .object members, rfl, hrest⟩
  rw [ite_eq_iff] at e
  obtain ⟨hc, e⟩ | ⟨-, e⟩ := e
  · subst hc
    rw [Option.bind_eq_bind, Option.bind_eq_some_iff] at e
    obtain ⟨⟨c1, p1⟩, token, e⟩ := e
    dsimp only at e token
    rw [ite_eq_iff] at e
    obtain ⟨hc1, e⟩ | ⟨-, e⟩ := e
    · subst hc1
      obtain ⟨rest, rfl, skip⟩ := hD.there (by decide) inner token
      cases e
      exact ⟨rest, .emptyArray skip, rfl, suffix_of_cons (skip.suffix inner)⟩
    · obtain ⟨vs, rest, rfl, items, rfl, hrest⟩ := arrayLoop_sound hD hV inner token e hq
      exact ⟨rest, .array items, rfl, hrest⟩
  · cases e
    cases hq

/-- What is read the dialect derives. -/
theorem Covers.derives (hD : Covers text strategy D) (n : Nat) :
    Derives text D (parse_json text strategy n) (Value D n) := by
  induction n with
  | zero =>
    refine ⟨parse_json_failed, fun _ e hq => ?_⟩
    cases e
    cases hq
  | succ n ih =>
    refine ⟨parse_json_failed, fun {s v q} hs e hq => ?_⟩
    rw [parse_json, Option.bind_eq_bind, Option.bind_eq_some_iff] at e
    obtain ⟨⟨c, p⟩, token, e⟩ := e
    dsimp only at e token
    split at e
    next hp =>
      cases e
      rw [hp] at hq
      cases hq
    next hp =>
    obtain ⟨-, failed⟩ | ⟨s1, rfl, skip⟩ := hD.token hs token
    · exact absurd failed hp
    obtain ⟨rest, layer, rfl, hrest⟩ := parse_value_sound hD ih (skip.suffix hs) e hq
    exact ⟨_, rest, skip, layer, rfl, hrest⟩

/-- What is read the grammar derives. -/
theorem parse_json_derives (text : List UInt8) (strategy : ParseMethod) (n : Nat) :
    Derives text (dialect strategy) (parse_json text strategy n) (Value (dialect strategy) n) :=
  (covers_dialect text strategy).derives n

/-- A text that is read is a value with nothing but garbage behind it. -/
theorem Covers.value_of_parse (hD : Covers s strategy D) (h : parse_throw_on_error s strategy = some (.ok v)) :
    ∃ s1 s2, Skips D s s1 ∧ Value D (max_depth + 1) s1 v s2 ∧ s2 <:+ s ∧
      consume_garbage s strategy (cursor s s2) = some (cursor s []) := by
  rw [parse_throw_on_error, Option.bind_eq_bind, Option.bind_eq_some_iff] at h
  obtain ⟨⟨v', p'⟩, e, h⟩ := h
  rw [JsonView.parse, Option.bind_eq_bind, Option.bind_eq_some_iff] at e
  obtain ⟨⟨res, p⟩, parsed, e⟩ := e
  simp only [Option.bind_eq_bind, Option.bind_eq_some_iff] at e
  obtain ⟨p'', garbage, e⟩ := e
  cases e
  cases herr : p'.err with
  | some what => simp [herr] at h
  | none =>
    have good : p'.failed = false := by rw [JsonParser.failed, herr]; rfl
    have hp : p.failed = false := by
      by_contra hp
      rw [consume_garbage_failed (by simpa using hp) garbage] at good
      cases good
    simp only [herr] at h
    split at h
    · simp at h
    next hend =>
    simp only [Option.some.injEq, Except.ok.injEq] at h
    subst h
    have start : ({} : JsonParser) = cursor s s := by simp [cursor]
    rw [start] at parsed
    obtain ⟨s1, s2, skip, value, rfl, hs2⟩ := (hD.derives (max_depth + 1)).derives List.suffix_rfl parsed hp
    have last : p' = cursor s [] := by
      obtain ⟨i, err⟩ := p'
      simp only [cursor, List.length_nil, Nat.sub_zero, JsonParser.mk.injEq]
      exact ⟨by simpa using hend, herr⟩
    exact ⟨s1, s2, skip, value, hs2, last ▸ garbage⟩

/-- A text that is read is a text of the grammar. -/
theorem document_of_parse (h : parse_throw_on_error s strategy = some (.ok v)) :
    Document (dialect strategy) (max_depth + 1) s v := by
  obtain ⟨s1, s2, skip, value, hs2, garbage⟩ := (covers_dialect s strategy).value_of_parse h
  obtain ⟨rest, e, skip2⟩ := consume_garbage_skips hs2 garbage rfl
  have nothing : rest = [] := by
    have shorter := value.shorter
    have inside := (skip2.suffix hs2).length_le
    have whole := hs2.length_le
    simp only [cursor, List.length_nil, Nat.sub_zero, JsonParser.mk.injEq, and_true] at e
    have first := (skip.suffix List.suffix_rfl).length_le
    rw [← List.length_eq_zero_iff]
    omega
  exact ⟨s1, s2, skip, value, nothing ▸ skip2⟩

/-- For every text: `JsonView` accepts it if and only if it is a text of the grammar, and otherwise it throws. -/
theorem accepts_iff_document (text : List UInt8) :
    ((∃ v, parse_throw_on_error text .STANDARD = some (.ok v)) ↔ ∃ v, Document jsonView (max_depth + 1) text v) ∧
    ((¬∃ v, Document jsonView (max_depth + 1) text v) → ∃ what, parse_throw_on_error text .STANDARD = some (.error what)) := by
  have iff : (∃ v, parse_throw_on_error text .STANDARD = some (.ok v)) ↔ ∃ v, Document jsonView (max_depth + 1) text v :=
    ⟨fun ⟨v, e⟩ => ⟨v, document_of_parse e⟩, fun ⟨v, e⟩ => ⟨v, parse_of_document e .STANDARD⟩⟩
  refine ⟨iff, fun hno => ?_⟩
  obtain ⟨r, e⟩ := parse_throw_on_error_isSome .STANDARD text
  cases r with
  | ok v => exact absurd (iff.1 ⟨v, e⟩) hno
  | error what => exact ⟨what, e⟩

end

end ArrowheadCore.Json.JsonView
