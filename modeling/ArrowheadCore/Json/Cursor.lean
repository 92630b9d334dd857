import ArrowheadCore.Json.JsonView

/-!
# The cursor of `JsonView`

The cursor stays in the text, and a parser that does not fail leaves the cursor behind what it has read. So
every turn of a loop reads at least one character, and the fuel of the loops suffices.
-/

namespace ArrowheadCore.Json.JsonView
open Lib

@[simp] lemma forth_i (p : JsonParser) (n : Nat) : (p.forth n).i = p.i + n := rfl

@[simp] lemma fail_i (p : JsonParser) (msg : List UInt8) : (p.fail msg).i = p.i := rfl

/-- At least `n` characters on from `p` to `q`, which is inside of the text. -/
structure Moves (text : List UInt8) (n : Nat) (p q : JsonParser) : Prop where
  start : p.i + n ≤ q.i
  inside : q.i ≤ text.length

section
variable {text : List UInt8} {p q r : JsonParser} {m n : Nat}

lemma Moves.trans (h1 : Moves text m p q) (h2 : Moves text n q r) : Moves text (m + n) p r := by
  have := h1.start
  have := h2.start
  exact ⟨by omega, h2.inside⟩

lemma Moves.refl (h : p.i ≤ text.length) : Moves text 0 p p := ⟨Nat.le_refl _, h⟩

lemma Moves.fail (h : Moves text n p q) (msg : List UInt8) : Moves text n p (q.fail msg) := ⟨h.start, h.inside⟩

lemma Moves.weaken (h : Moves text n p q) (hm : m ≤ n) : Moves text m p q :=
  ⟨Nat.le_trans (Nat.add_le_add_left hm _) h.start, h.inside⟩

/-- Only the terminator stands at the end. -/
lemma Moves.forth {c : UInt8} (hp : char text p.i = c) (hc : c ≠ 0) : Moves text 1 p (p.forth 1) := by
  refine ⟨Nat.le_refl _, ?_⟩
  by_contra hn
  apply hc
  rw [← hp, char, List.getD_eq_getElem?_getD, List.getElem?_eq_none (by simp at hn; omega)]
  rfl

/-! ## Between tokens -/

lemma skipWhile_moves (f : UInt8 → Bool) (hp : p.i ≤ text.length) : Moves text 0 p (skipWhile text f p) := by
  have : ((text.drop p.i).takeWhile f).length ≤ (text.drop p.i).length := (List.takeWhile_prefix f).length_le
  rw [List.length_drop] at this
  refine ⟨Nat.le_add_right _ _, ?_⟩
  simp only [skipWhile, JsonParser.forth]
  omega

lemma commentLoop_moves : ∀ (s : List UInt8) (p : JsonParser), p.i + s.length ≤ text.length →
    Moves text 0 p (commentLoop s p)
  | [], p, h => by
    rw [commentLoop]
    · exact (Moves.refl h).fail _
    · simp
  | [_], p, h => by
    rw [commentLoop]
    · exact (Moves.refl (Nat.le_of_succ_le h)).fail _
    · simp
  | a :: b :: s, p, h => by
    simp only [List.length_cons] at h
    rw [commentLoop]
    split
    · exact ⟨Nat.le_add_right _ _, by rw [forth_i]; omega⟩
    · have := commentLoop_moves (b :: s) (p.forth 1) (by rw [forth_i, List.length_cons]; omega)
      exact ⟨Nat.le_trans (Nat.le_add_right _ 1) this.start, this.inside⟩

/-- A comment has at least one character. -/
lemma consume_comment_moves (hp : p.i ≤ text.length) : Moves text 0 p (consume_comment text p).2 ∧
    ((consume_comment text p).1 = true → Moves text 1 p (consume_comment text p).2) := by
  unfold consume_comment
  by_cases h : char text p.i = '/'.toUInt8
  · have step : Moves text 1 p (p.forth 1) := .forth h (by decide)
    have two : ∀ {q}, Moves text 0 ((p.forth 1).forth 1) q → Moves text 1 p q := by
      intro q hq
      have := hq.start
      simp only [forth_i] at this
      exact ⟨by omega, hq.inside⟩
    simp only [if_pos h]
    split
    · exact ⟨(step.weaken (Nat.zero_le _)).fail _, by simp⟩
    split
    next hs =>
      have moves := two (skipWhile_moves (· ≠ '\n'.toUInt8) (Moves.forth hs (by decide)).inside)
      exact ⟨moves.weaken (Nat.zero_le _), fun _ => moves⟩
    split
    next hs =>
      have inside := (Moves.forth hs (by decide)).inside
      have rest : ((p.forth 1).forth 1).i + (text.drop ((p.forth 1).i + 1)).length ≤ text.length := by
        rw [List.length_drop]
        simp only [forth_i] at inside ⊢
        omega
      have moves := two (commentLoop_moves _ _ rest)
      exact ⟨moves.weaken (Nat.zero_le _), fun _ => moves⟩
    · exact ⟨(step.weaken (Nat.zero_le _)).fail _, by simp⟩
  · simp only [if_neg h]
    exact ⟨.refl hp, by simp⟩

lemma garbageLoop_moves (fuel : Nat) (hp : p.i ≤ text.length) (hf : text.length < p.i + fuel) :
    ∃ q, garbageLoop text fuel p = some q ∧ Moves text 0 p q := by
  induction fuel generalizing p with
  | zero => omega
  | succ n ih =>
    obtain ⟨h0, h1⟩ := consume_comment_moves hp
    rw [garbageLoop]
    cases hc : consume_comment text p with
    | mk found q =>
      rw [hc] at h0 h1
      dsimp only at h0 h1 ⊢
      split
      · exact ⟨q, rfl, h0⟩
      have white := skipWhile_moves isBlank h0.inside
      split
      next hfound =>
        have moves := (h1 hfound).trans white
        have := moves.start
        obtain ⟨r, e, hr⟩ := ih moves.inside (by omega)
        exact ⟨r, e, (moves.trans hr).weaken (Nat.zero_le _)⟩
      · exact ⟨_, rfl, h0.trans white⟩

variable (strategy : ParseMethod)

lemma consume_garbage_moves (hp : p.i ≤ text.length) :
    ∃ q, consume_garbage text strategy p = some q ∧ Moves text 0 p q := by
  have white := skipWhile_moves isBlank hp
  rw [consume_garbage]
  split
  · obtain ⟨q, e, hq⟩ := garbageLoop_moves (text.length + 1) white.inside (by omega)
    exact ⟨q, e, white.trans hq⟩
  · exact ⟨_, rfl, white⟩

/-- A token is at least one character. -/
lemma get_next_token_moves (hp : p.i ≤ text.length) :
    ∃ c q, get_next_token text strategy p = some (c, q) ∧ Moves text 0 p q ∧
      (c ≠ 0 ∨ q.failed = false → Moves text 1 p q) := by
  obtain ⟨q, e, hq⟩ := consume_garbage_moves strategy hp
  rw [get_next_token, e]
  simp only [Option.bind_eq_bind, Option.bind_some]
  split
  next failed => exact ⟨_, _, rfl, hq, by simp [failed]⟩
  split
  next => exact ⟨_, _, rfl, hq.fail _, by simp [JsonParser.failed, JsonParser.fail]⟩
  next hi =>
    have moves : Moves text 1 p (q.forth 1) := by
      have := hq.start
      have := hq.inside
      exact ⟨by simp only [forth_i]; omega, by simp only [forth_i]; omega⟩
    exact ⟨_, _, rfl, moves.weaken (Nat.zero_le _), fun _ => moves⟩

/-! ## Strings -/

/-- Behind `n` characters more. -/
lemma Moves.ahead (h : Moves text 0 (p.forth n) q) : Moves text 0 p q := by
  have := h.start
  rw [forth_i] at this
  exact ⟨by omega, h.inside⟩

lemma Moves.skip (h : p.i + n ≤ text.length) : Moves text 0 p (p.forth n) := ⟨Nat.le_add_right _ _, h⟩

lemma keyLoop_moves (s : List UInt8) (p : JsonParser) (h : p.i + s.length ≤ text.length) :
    Moves text 0 p (keyLoop s p).2 := by
  fun_induction keyLoop s p with
  | case1 p => exact (Moves.refl h).fail _
  | case2 s p =>
    rw [List.length_cons] at h
    exact .skip (by omega)
  | case3 ch s p _ _ ih =>
    rw [List.length_cons] at h
    exact (ih (by rw [forth_i]; omega)).ahead
  | case4 ch p =>
    rw [List.length_singleton] at h
    exact (Moves.skip h).fail _
  | case5 ch p _ _ a b c d s ih =>
    simp only [List.length_cons] at h
    exact (ih (by rw [forth_i]; omega)).ahead
  | case6 ch p =>
    simp only [List.length_cons] at h
    exact (Moves.skip (by omega)).fail _
  | case7 ch p _ _ e s _ _ ih =>
    simp only [List.length_cons] at h
    exact (ih (by rw [forth_i]; omega)).ahead
  | case8 ch p =>
    simp only [List.length_cons] at h
    exact (Moves.skip (by omega)).fail _

lemma parse_key_moves (hp : p.i ≤ text.length) : Moves text 0 p (parse_key text p).2 := by
  have moves : Moves text 0 p (keyLoop (text.drop p.i) p).2 := keyLoop_moves _ p (by rw [List.length_drop]; omega)
  rw [parse_key]
  dsimp only
  split <;> exact moves

lemma stringLoop_moves (s out : List UInt8) (last : Int) (p : JsonParser) (h : p.i + s.length ≤ text.length) :
    Moves text 0 p (stringLoop s out last p).2 := by
  fun_induction stringLoop s out last p with
  | case1 _ _ p => exact (Moves.refl h).fail _
  | case2 s out last p =>
    rw [List.length_cons] at h
    exact .skip (by omega)
  | case3 ch s out last p =>
    rw [List.length_cons] at h
    exact (Moves.skip (by omega)).fail _
  | case4 ch s out last p _ _ _ ih =>
    rw [List.length_cons] at h
    exact (ih (by rw [forth_i]; omega)).ahead
  | case5 ch out last p =>
    rw [List.length_singleton] at h
    exact (Moves.skip h).fail _
  | case6 ch out last p _ _ _ a b c d s _ r ih =>
    simp only [List.length_cons] at h
    exact (ih (by rw [forth_i]; omega)).ahead
  | case7 ch out last p =>
    simp only [List.length_cons] at h
    exact (Moves.skip (by omega)).fail _
  | case8 ch out last p =>
    simp only [List.length_cons] at h
    exact (Moves.skip (by omega)).fail _
  | case9 ch out last p _ _ _ e s _ c _ ih =>
    simp only [List.length_cons] at h
    exact (ih (by rw [forth_i]; omega)).ahead
  | case10 ch out last p =>
    simp only [List.length_cons] at h
    exact (Moves.skip (by omega)).fail _

lemma parse_string_moves (hp : p.i ≤ text.length) : Moves text 0 p (parse_string text p).2 :=
  stringLoop_moves _ _ _ _ (by rw [List.length_drop]; omega)

/-! ## Numbers and constants -/

lemma ne_zero_of_isDigit {c : UInt8} (h : isDigit c = true) : c ≠ 0 := by
  rintro rfl
  revert h
  decide

/-- The digits of a number are at least one, or the parser fails. -/
lemma parse_digits_moves (hp : p.i ≤ text.length) : Moves text 0 p (parse_digits text p).2 ∧
    ((parse_digits text p).1 = true → Moves text 1 p (parse_digits text p).2) ∧
    ((parse_digits text p).1 = false → (parse_digits text p).2.failed = true) := by
  rw [parse_digits]
  split
  next h =>
    have moves : Moves text 1 p (p.forth 1) := .forth h (by decide)
    dsimp only
    split
    · exact ⟨(moves.weaken (Nat.zero_le _)).fail _, by simp, fun _ => rfl⟩
    · exact ⟨moves.weaken (Nat.zero_le _), fun _ => moves, by simp⟩
  split
  next h =>
    have moves := (Moves.forth rfl (ne_zero_of_isDigit h)).trans
      (skipWhile_moves isDigit (Moves.forth rfl (ne_zero_of_isDigit h)).inside)
    exact ⟨moves.weaken (Nat.zero_le _), fun _ => moves, by simp⟩
  · exact ⟨(Moves.refl hp).fail _, by simp, fun _ => rfl⟩

lemma parse_integer_moves (hp : p.i ≤ text.length) : Moves text 0 p (parse_integer text p).2 ∧
    ((parse_integer text p).1 = true → Moves text 1 p (parse_integer text p).2) ∧
    ((parse_integer text p).1 = false → (parse_integer text p).2.failed = true) := by
  rw [parse_integer]
  split
  next h =>
    have minus : Moves text 1 p (p.forth 1) := .forth h (by decide)
    obtain ⟨h0, h1, h2⟩ := parse_digits_moves minus.inside
    exact ⟨(minus.trans h0).weaken (Nat.zero_le _), fun ok => (minus.trans (h1 ok)).weaken (by omega), h2⟩
  · exact parse_digits_moves hp

lemma digits_moves {msg : String} (hp : p.i ≤ text.length) :
    Moves text 0 p (if !isDigit (char text p.i) then (false, p.fail (bytes msg)) else (true, skipWhile text isDigit p)).2 := by
  split
  · exact (Moves.refl hp).fail _
  · exact skipWhile_moves isDigit hp

lemma parse_fraction_moves (hp : p.i ≤ text.length) : Moves text 0 p (parse_fraction text p).2 := by
  rw [parse_fraction]
  split
  next h =>
    have dot : Moves text 1 p (p.forth 1) := .forth h (by decide)
    exact (dot.trans (digits_moves dot.inside)).weaken (Nat.zero_le _)
  · exact .refl hp

lemma parse_exponent_moves (hp : p.i ≤ text.length) : Moves text 0 p (parse_exponent text p).2 := by
  rw [parse_exponent]
  split
  next h =>
    have mark : Moves text 1 p (p.forth 1) := by
      obtain h | h := h
      · exact .forth h (by decide)
      · exact .forth h (by decide)
    dsimp only
    split
    next h =>
      have sign : Moves text 1 (p.forth 1) ((p.forth 1).forth 1) := by
        obtain h | h := h
        · exact .forth h (by decide)
        · exact .forth h (by decide)
      exact ((mark.trans sign).trans (digits_moves sign.inside)).weaken (Nat.zero_le _)
    · exact (mark.trans (digits_moves mark.inside)).weaken (Nat.zero_le _)
  · exact .refl hp

/-- A result inside of the text, which is behind the start unless the parser failed. -/
def Reached (text : List UInt8) (p : JsonParser) (r : JsonNode × JsonParser) : Prop :=
  r.2.i ≤ text.length ∧ (r.2.failed = false → Moves text 1 p r.2)

lemma Reached.of_fail {v : JsonNode} (h : q.i ≤ text.length) (msg : List UInt8) : Reached text p (v, q.fail msg) :=
  ⟨h, by simp [JsonParser.failed, JsonParser.fail]⟩

lemma Reached.of_moves {v : JsonNode} (h : Moves text n p q) (hn : 1 ≤ n) : Reached text p (v, q) :=
  ⟨h.inside, fun _ => h.weaken hn⟩

lemma parse_number_reached (hp : p.i ≤ text.length) : Reached text p (parse_number text p) := by
  obtain ⟨h0, h1, hf⟩ := parse_integer_moves hp
  rw [parse_number]
  cases hi : parse_integer text p with
  | mk ok q =>
    rw [hi] at h0 h1 hf
    dsimp only at h0 h1 hf ⊢
    cases ok with
    | false => exact ⟨h0.inside, by simp [hf rfl]⟩
    | true =>
      have h1 := h1 rfl
      have h2 := parse_fraction_moves h1.inside
      have h3 := parse_exponent_moves h2.inside
      simp only [Bool.not_true, Bool.false_eq_true, if_false]
      split
      · exact .of_moves h1 (Nat.le_refl _)
      split
      · exact .of_moves (h1.trans h2) (by omega)
      split
      · exact .of_moves ((h1.trans h2).trans h3) (by omega)
      · exact .of_moves ((h1.trans h2).trans h3) (by omega)

lemma Reached.of_le {r : JsonNode × JsonParser} (h : Reached text q r) (hp : p.i ≤ q.i) : Reached text p r := by
  refine ⟨h.1, ?_⟩
  intro ok
  have := (h.2 ok).start
  exact ⟨by omega, (h.2 ok).inside⟩

/-- A constant is read from the character in front of the cursor on. -/
lemma expect_reached {expected : String} (res : JsonNode) (hp : p.i ≤ text.length) (he : expected ≠ "") :
    Reached text p.back (expect text expected res p) := by
  have inside : p.back.i ≤ text.length := Nat.le_trans (Nat.sub_le _ _) hp
  rw [expect]
  split
  next h =>
    have length : expected.length = (bytes expected).length := by rw [bytes, List.length_map, String.length_toList]
    have le := (List.isPrefixOf_iff_prefix.1 h).length_le
    rw [List.length_drop] at le
    refine .of_moves (n := expected.length) ⟨Nat.le_refl _, by rw [forth_i]; omega⟩ ?_
    have : 0 < expected.length := by
      rw [Nat.pos_iff_ne_zero]
      intro h0
      exact he (String.length_eq_zero_iff.1 h0)
    exact this
  · exact .of_fail inside _

/-! ## Values -/

variable {parse : JsonParser → Option (JsonNode × JsonParser)}

/-- A branch that ends as `P` says, whichever it is. -/
lemma exists_ite {α : Type} {c : Prop} [Decidable c] {x y : Option α} {P : α → Prop} (hx : c → ∃ r, x = some r ∧ P r)
    (hy : ¬c → ∃ r, y = some r ∧ P r) : ∃ r, (if c then x else y) = some r ∧ P r := by
  split
  next h => exact hx h
  next h => exact hy h

/-- Each turn of the loop reads at least one character. -/
lemma objectLoop_reached (hparse : ∀ p, p.i ≤ text.length → ∃ r, parse p = some r ∧ Reached text p r) (fuel : Nat) (ch : UInt8)
    (data : List (List UInt8 × JsonNode)) (hp : p.i ≤ text.length) (hf : text.length < p.i + fuel) :
    ∃ r, objectLoop text strategy parse fuel ch data p = some r ∧ Reached text p r := by
  induction fuel generalizing ch data p with
  | zero => omega
  | succ n ih =>
    rw [objectLoop]
    simp only [Option.bind_eq_bind]
    refine exists_ite (fun _ => ⟨_, rfl, .of_fail hp _⟩) fun _ => ?_
    have key := parse_key_moves hp
    cases hk : parse_key text p with
    | mk k p1 =>
    rw [hk] at key
    dsimp only at key ⊢
    refine exists_ite (fun hfailed => ⟨_, rfl, key.inside, by simp [hfailed]⟩) fun _ => ?_
    obtain ⟨c2, p2, e2, m2, -⟩ := get_next_token_moves strategy key.inside
    rw [e2, Option.bind_some]
    dsimp only
    refine exists_ite (fun _ => ⟨_, rfl, .of_fail m2.inside _⟩) fun _ => ?_
    obtain ⟨⟨val, p3⟩, e3, r3⟩ := hparse p2 m2.inside
    rw [e3, Option.bind_some]
    dsimp only
    refine exists_ite (fun hfailed => ⟨_, rfl, r3.1, by simp [hfailed]⟩) fun hok => ?_
    have m3 : Moves text 1 p2 p3 := r3.2 (by simpa using hok)
    obtain ⟨c4, p4, e4, m4, -⟩ := get_next_token_moves strategy m3.inside
    rw [e4, Option.bind_some]
    dsimp only
    have moves := ((key.trans m2).trans m3).trans m4
    refine exists_ite (fun _ => ⟨_, rfl, .of_moves moves (by omega)⟩) fun _ => ?_
    refine exists_ite (fun _ => ⟨_, rfl, .of_fail m4.inside _⟩) fun _ => ?_
    obtain ⟨c5, p5, e5, m5, -⟩ := get_next_token_moves strategy m4.inside
    rw [e5, Option.bind_some]
    dsimp only
    have moves := moves.trans m5
    have := moves.start
    obtain ⟨r, e, hr⟩ := ih c5 (data ++ [(k, val)]) m5.inside (by omega)
    exact ⟨r, e, hr.of_le (by omega)⟩

/-- The loop over items goes back to the first character of the item. -/
lemma arrayLoop_reached (hparse : ∀ p, p.i ≤ text.length → ∃ r, parse p = some r ∧ Reached text p r) (fuel : Nat)
    (data : List JsonNode) (hp : p.i ≤ text.length) (hf : text.length < p.back.i + fuel) :
    ∃ r, arrayLoop text strategy parse fuel data p = some r ∧ Reached text p.back r := by
  induction fuel generalizing data p with
  | zero =>
    have : p.back.i ≤ p.i := Nat.sub_le _ _
    omega
  | succ n ih =>
    have inside : p.back.i ≤ text.length := Nat.le_trans (Nat.sub_le _ _) hp
    rw [arrayLoop]
    simp only [Option.bind_eq_bind]
    obtain ⟨⟨val, p3⟩, e3, r3⟩ := hparse p.back inside
    rw [e3, Option.bind_some]
    dsimp only
    refine exists_ite (fun hfailed => ⟨_, rfl, r3.1, by simp [hfailed]⟩) fun hok => ?_
    have m3 : Moves text 1 p.back p3 := r3.2 (by simpa using hok)
    obtain ⟨c4, p4, e4, m4, s4⟩ := get_next_token_moves strategy m3.inside
    rw [e4, Option.bind_some]
    dsimp only
    have moves := m3.trans m4
    refine exists_ite (fun _ => ⟨_, rfl, .of_moves moves (by omega)⟩) fun _ => ?_
    refine exists_ite (fun _ => ⟨_, rfl, .of_fail m4.inside _⟩) fun hcomma => ?_
    obtain ⟨c5, p5, e5, m5, -⟩ := get_next_token_moves strategy m4.inside
    rw [e5, Option.bind_some]
    dsimp only
    have comma := (m3.trans (s4 (.inl (by rintro rfl; exact hcomma (by decide))))).trans m5
    have := comma.start
    have back : p5.back.i = p5.i - 1 := rfl
    obtain ⟨r, e, hr⟩ := ih (data ++ [val]) m5.inside (by omega)
    exact ⟨r, e, hr.of_le (by omega)⟩

lemma parse_value_reached (hparse : ∀ p, p.i ≤ text.length → ∃ r, parse p = some r ∧ Reached text p r) {ch : UInt8}
    (hq : Moves text 1 p q) : ∃ r, parse_value text strategy parse ch q = some r ∧ Reached text p r := by
  have start := hq.start
  have back : p.i ≤ q.back.i := Nat.le_sub_of_add_le start
  have inside : q.back.i ≤ text.length := Nat.le_trans (Nat.sub_le _ _) hq.inside
  rw [parse_value]
  refine exists_ite (fun _ => ⟨_, rfl, (parse_number_reached inside).of_le back⟩) fun _ => ?_
  refine exists_ite (fun _ => ⟨_, rfl, (expect_reached _ hq.inside (by decide)).of_le back⟩) fun _ => ?_
  refine exists_ite (fun _ => ⟨_, rfl, (expect_reached _ hq.inside (by decide)).of_le back⟩) fun _ => ?_
  refine exists_ite (fun _ => ⟨_, rfl, (expect_reached _ hq.inside (by decide)).of_le back⟩) fun _ => ?_
  refine exists_ite (fun _ => ⟨_, rfl, .of_moves (hq.trans (parse_string_moves hq.inside)) (by omega)⟩) fun _ => ?_
  obtain ⟨c, q', e, m, -⟩ := get_next_token_moves strategy hq.inside
  have moves := hq.trans m
  have := moves.start
  simp only [e, Option.bind_eq_bind, Option.bind_some]
  refine exists_ite (fun _ => ?_) fun _ => ?_
  · refine exists_ite (fun _ => ⟨_, rfl, .of_moves moves (by omega)⟩) fun _ => ?_
    obtain ⟨r, er, hr⟩ := objectLoop_reached strategy hparse (text.length + 1) c [] m.inside (by omega)
    exact ⟨r, er, hr.of_le (by omega)⟩
  refine exists_ite (fun _ => ?_) fun _ => ?_
  · refine exists_ite (fun _ => ⟨_, rfl, .of_moves moves (by omega)⟩) fun _ => ?_
    obtain ⟨r, er, hr⟩ := arrayLoop_reached strategy hparse (text.length + 1) [] m.inside (by omega)
    have back' : q'.back.i = q'.i - 1 := rfl
    exact ⟨r, er, hr.of_le (by omega)⟩
  · exact ⟨_, rfl, .of_fail hq.inside _⟩

/-- The parser comes to its end on every level. -/
theorem parse_json_reached (levels : Nat) (hp : p.i ≤ text.length) :
    ∃ r, parse_json text strategy levels p = some r ∧ Reached text p r := by
  induction levels generalizing p with
  | zero => exact ⟨_, rfl, .of_fail hp _⟩
  | succ n ih =>
    obtain ⟨c, q, e, m, s⟩ := get_next_token_moves strategy hp
    rw [parse_json, e]
    simp only [Option.bind_eq_bind, Option.bind_some]
    split
    next hfailed => exact ⟨_, rfl, m.inside, by simp [hfailed]⟩
    next hok => exact parse_value_reached strategy (fun p hp => ih hp) (s (.inr (by simpa using hok)))

/-- The parser gives a tree or throws. -/
theorem parse_throw_on_error_isSome (text : List UInt8) : ∃ r, parse_throw_on_error text strategy = some r := by
  have start : ({} : JsonParser).i ≤ text.length := Nat.zero_le _
  obtain ⟨⟨v, q⟩, e, hq, -⟩ := parse_json_reached strategy (max_depth + 1) start
  obtain ⟨q', e', -⟩ := consume_garbage_moves strategy hq
  have parsed : JsonView.parse text strategy = some (v, q') := by
    rw [JsonView.parse, e]
    simp [e']
  rw [parse_throw_on_error, parsed]
  simp only [Option.bind_eq_bind, Option.bind_some]
  split
  · exact ⟨_, rfl⟩
  · split
    · exact ⟨_, rfl⟩
    · exact ⟨_, rfl⟩

end

end ArrowheadCore.Json.JsonView
