import ArrowheadCore.Json.InPlace

/-!
# The parser of `JsonView` as an instance

In a buffer that is not written the parser of `JsonCView` goes as that of `JsonView` does, with the same cursor and the same
message, also behind a failure. As the cursor is in the text, it throws no exception.
-/

namespace ArrowheadCore.Json.JsonCView
open Lib JsonView

/-- If the first parser comes to its end, so does the second one in the buffer of the text, with the same tree and the same cursor
    and message. -/
def Alike (text : List UInt8) (x : Option (JsonNode × JsonParser)) (x' : Result) : Prop :=
  ∀ v q, x = some (v, q) → q.i ≤ text.length ∧ ∃ c, x' = some (.ok (c, ⟨text, q⟩)) ∧ c.read false text = v

section
variable {text : List UInt8} {strategy : ParseMethod} {next : JsonParser → Option (JsonNode × JsonParser)} {next' : Parser → Result}

lemma token_alike {q : JsonParser} (hq : q.i ≤ text.length) {c : UInt8} {q' : JsonParser}
    (e : JsonView.get_next_token text strategy q = some (c, q')) :
    get_next_token strategy ⟨text, q⟩ = some (c, ⟨text, q'⟩) ∧ q'.i ≤ text.length := by
  obtain ⟨d, r, found, m, -⟩ := get_next_token_moves strategy hq
  rw [e] at found
  cases found
  refine ⟨?_, m.inside⟩
  rw [get_next_token, e]
  rfl

lemma key_alike {q : JsonParser} (hq : q.i ≤ text.length) : ∃ key, parse_key false ⟨text, q⟩ =
    (key, ⟨text, (JsonView.parse_key text q).2⟩) ∧ key.read false text = (JsonView.parse_key text q).1 ∧
      (JsonView.parse_key text q).2.i ≤ text.length := by
  have inside := (parse_key_moves hq).inside
  refine ⟨(parse_key false ⟨text, q⟩).1, ?_, ?_, inside⟩
  · rw [parse_key, JsonView.parse_key]
    dsimp only
    split <;> rfl
  · rw [parse_key, JsonView.parse_key]
    dsimp only
    split <;> rfl

lemma objectLoop_alike (hnext : ∀ q, q.i ≤ text.length → Alike text (next q) (next' ⟨text, q⟩)) (fuel : Nat) (ch : UInt8)
    {data : List (List UInt8 × JsonNode)} {data' : List (Key × Node)} (hd : Node.readMembers false text data' = data)
    {q : JsonParser} (hq : q.i ≤ text.length) : Alike text (JsonView.objectLoop text strategy next fuel ch data q)
      (objectLoop false strategy next' fuel ch data' ⟨text, q⟩) := by
  intro v r e
  induction fuel generalizing ch data data' q with
  | zero => cases e
  | succ n ih =>
    rw [JsonView.objectLoop] at e
    rw [objectLoop]
    simp only [Option.bind_eq_bind] at e ⊢
    by_cases hc : ch ≠ '"'.toUInt8
    · rw [if_pos hc] at e ⊢
      cases e
      exact ⟨hq, _, rfl, rfl⟩
    rw [if_neg hc] at e ⊢
    obtain ⟨key, e1, name, i1⟩ := key_alike hq
    rw [e1]
    dsimp only at e ⊢
    by_cases f1 : (JsonView.parse_key text q).2.failed = true
    · rw [if_pos f1] at e
      cases e
      exact ⟨i1, _, if_pos f1, rfl⟩
    rw [if_neg f1, Option.bind_eq_some_iff] at e
    rw [if_neg (show ¬ Parser.failed ⟨text, _⟩ = true from f1)]
    obtain ⟨⟨c2, q2⟩, token2, e⟩ := e
    obtain ⟨e2, i2⟩ := token_alike i1 token2
    rw [e2, Option.bind_some]
    dsimp only at e ⊢
    by_cases hc2 : c2 ≠ ':'.toUInt8
    · rw [if_pos hc2] at e ⊢
      cases e
      exact ⟨i2, _, rfl, rfl⟩
    rw [if_neg hc2, Option.bind_eq_some_iff] at e
    rw [if_neg hc2]
    obtain ⟨⟨val, q3⟩, parsed, e⟩ := e
    obtain ⟨i3, c, e3, read⟩ := hnext q2 i2 val q3 parsed
    rw [e3, Option.bind_some]
    dsimp only at e ⊢
    by_cases f3 : q3.failed = true
    · rw [if_pos f3] at e
      cases e
      exact ⟨i3, _, if_pos f3, rfl⟩
    rw [if_neg f3, Option.bind_eq_some_iff] at e
    rw [if_neg (show ¬ Parser.failed ⟨text, _⟩ = true from f3)]
    obtain ⟨⟨c4, q4⟩, token4, e⟩ := e
    obtain ⟨e4, i4⟩ := token_alike i3 token4
    have members : Node.readMembers false text (data' ++ [(key, c)]) = data ++ [((JsonView.parse_key text q).1, val)] := by
      rw [readMembers_append, hd, name, read]
    rw [e4, Option.bind_some]
    dsimp only at e ⊢
    by_cases hend : c4 = '}'.toUInt8
    · rw [if_pos hend] at e ⊢
      cases e
      exact ⟨i4, _, rfl, by rw [Node.read, members]⟩
    rw [if_neg hend] at e ⊢
    by_cases hc4 : c4 ≠ ','.toUInt8
    · rw [if_pos hc4] at e ⊢
      cases e
      exact ⟨i4, _, rfl, rfl⟩
    rw [if_neg hc4, Option.bind_eq_some_iff] at e
    rw [if_neg hc4]
    obtain ⟨⟨c5, q5⟩, token5, e⟩ := e
    obtain ⟨e5, i5⟩ := token_alike i4 token5
    rw [e5, Option.bind_some]
    exact ih c5 members i5 e

lemma arrayLoop_alike (hnext : ∀ q, q.i ≤ text.length → Alike text (next q) (next' ⟨text, q⟩)) (fuel : Nat)
    {data : List JsonNode} {data' : List Node} (hd : Node.readItems false text data' = data)
    {q : JsonParser} (hq : q.i ≤ text.length) : Alike text (JsonView.arrayLoop text strategy next fuel data q)
      (arrayLoop strategy next' fuel data' ⟨text, q⟩) := by
  intro v r e
  induction fuel generalizing data data' q with
  | zero => cases e
  | succ n ih =>
    rw [JsonView.arrayLoop] at e
    rw [arrayLoop]
    simp only [Option.bind_eq_bind] at e ⊢
    rw [Option.bind_eq_some_iff] at e
    obtain ⟨⟨val, q3⟩, parsed, e⟩ := e
    obtain ⟨i3, c, e3, read⟩ := hnext q.back (Nat.le_trans (Nat.sub_le _ _) hq) val q3 parsed
    rw [show Parser.back ⟨text, q⟩ = ⟨text, q.back⟩ from rfl, e3, Option.bind_some]
    dsimp only at e ⊢
    by_cases f3 : q3.failed = true
    · rw [if_pos f3] at e
      cases e
      exact ⟨i3, _, if_pos f3, rfl⟩
    rw [if_neg f3, Option.bind_eq_some_iff] at e
    rw [if_neg (show ¬ Parser.failed ⟨text, _⟩ = true from f3)]
    obtain ⟨⟨c4, q4⟩, token4, e⟩ := e
    obtain ⟨e4, i4⟩ := token_alike i3 token4
    have items : Node.readItems false text (data' ++ [c]) = data ++ [val] := by rw [readItems_append, hd, read]
    rw [e4, Option.bind_some]
    dsimp only at e ⊢
    by_cases hend : c4 = ']'.toUInt8
    · rw [if_pos hend] at e ⊢
      cases e
      exact ⟨i4, _, rfl, by rw [Node.read, items]⟩
    rw [if_neg hend] at e ⊢
    by_cases hc4 : c4 ≠ ','.toUInt8
    · rw [if_pos hc4] at e ⊢
      cases e
      exact ⟨i4, _, rfl, rfl⟩
    rw [if_neg hc4, Option.bind_eq_some_iff] at e
    rw [if_neg hc4]
    obtain ⟨⟨c5, q5⟩, token5, e⟩ := e
    obtain ⟨e5, i5⟩ := token_alike i4 token5
    rw [e5, Option.bind_some]
    exact ih items i5 e

lemma number_alike {q : JsonParser} (hq : q.i ≤ text.length) :
    Alike text (some (JsonView.parse_number text q)) (some (.ok (parse_number ⟨text, q⟩))) := by
  intro v r e
  have number := Option.some.inj e
  have inside := (parse_number_reached hq).1
  have cases_ := parse_number_cases text q
  rw [parse_number]
  rw [number] at inside cases_ ⊢
  refine ⟨inside, _, rfl, ?_⟩
  obtain h | ⟨z, h⟩ | ⟨literal, h⟩ := cases_
  all_goals
    dsimp only at h
    subst h
    rfl

/-- The cursor is in the text, so that there is no exception. -/
lemma expect_alike (h0 : 0 ∉ text) (word : String) {res : JsonNode} {res' : Node} (hres : res'.read false text = res)
    (hw : word ≠ "") {q : JsonParser} (hq : q.i ≤ text.length) :
    Alike text (some (JsonView.expect text word res q)) (some (expect word res' ⟨text, q⟩)) := by
  intro v r e
  have constant := Option.some.inj e
  have inside := (expect_reached (p := q) res hq hw).1
  have back : q.back.i ≤ text.length := Nat.le_trans (Nat.sub_le _ _) hq
  rw [constant] at inside
  refine ⟨inside, ?_⟩
  rw [JsonView.expect] at constant
  have steps : expect word res' ⟨text, q⟩ =
      if (bytes word).isPrefixOf (text.drop q.back.i) then .ok (res', ⟨text, q.back.forth word.length⟩)
      else if (cStr text).length < q.back.i then .error .out_of_range
      else .ok (.null, ⟨text, q.back.fail (bytes "Expected " ++ (bytes word ++ (bytes ", got " ++
        ((cStr text).drop q.back.i).take word.length)))⟩) := rfl
  rw [steps]
  by_cases h : (bytes word).isPrefixOf (text.drop q.back.i)
  · rw [if_pos h] at constant ⊢
    cases constant
    exact ⟨_, rfl, hres⟩
  · rw [if_neg h] at constant
    rw [if_neg h, cStr_eq h0, if_neg (Nat.not_lt.2 back)]
    cases constant
    exact ⟨_, rfl, rfl⟩

lemma value_alike (h0 : 0 ∉ text) (hnext : ∀ q, q.i ≤ text.length → Alike text (next q) (next' ⟨text, q⟩)) (ch : UInt8)
    {q : JsonParser} (hq : q.i ≤ text.length) : Alike text (JsonView.parse_value text strategy next ch q)
      (parse_value false strategy next' ch ⟨text, q⟩) := by
  have back : q.back.i ≤ text.length := Nat.le_trans (Nat.sub_le _ _) hq
  rw [JsonView.parse_value, parse_value]
  simp only [Option.bind_eq_bind]
  by_cases hn : ch = '-'.toUInt8 ∨ isDigit ch
  · rw [if_pos hn, if_pos hn]
    exact number_alike back
  rw [if_neg hn, if_neg hn]
  by_cases ht : ch = 't'.toUInt8
  · rw [if_pos ht, if_pos ht]
    exact expect_alike h0 "true" (by rfl) (by decide) hq
  rw [if_neg ht, if_neg ht]
  by_cases hfalse : ch = 'f'.toUInt8
  · rw [if_pos hfalse, if_pos hfalse]
    exact expect_alike h0 "false" (by rfl) (by decide) hq
  rw [if_neg hfalse, if_neg hfalse]
  by_cases hnull : ch = 'n'.toUInt8
  · rw [if_pos hnull, if_pos hnull]
    exact expect_alike h0 "null" (by rfl) (by decide) hq
  rw [if_neg hnull, if_neg hnull]
  by_cases hquote : ch = '"'.toUInt8
  · rw [if_pos hquote, if_pos hquote]
    intro v r e
    cases e
    exact ⟨(parse_string_moves hq).inside, _, rfl, rfl⟩
  rw [if_neg hquote, if_neg hquote]
  by_cases ho : ch = '{'.toUInt8
  · rw [if_pos ho, if_pos ho]
    intro v r e
    obtain ⟨⟨c, q'⟩, token, e⟩ := Option.bind_eq_some_iff.1 e
    obtain ⟨token', inside⟩ := token_alike hq token
    rw [token', Option.bind_some]
    dsimp only at e ⊢
    by_cases hc : c = '}'.toUInt8
    · rw [if_pos hc] at e ⊢
      cases e
      exact ⟨inside, _, rfl, rfl⟩
    · rw [if_neg hc] at e ⊢
      exact objectLoop_alike hnext _ c rfl inside v r e
  rw [if_neg ho, if_neg ho]
  by_cases ha : ch = '['.toUInt8
  · rw [if_pos ha, if_pos ha]
    intro v r e
    obtain ⟨⟨c, q'⟩, token, e⟩ := Option.bind_eq_some_iff.1 e
    obtain ⟨token', inside⟩ := token_alike hq token
    rw [token', Option.bind_some]
    dsimp only at e ⊢
    by_cases hc : c = ']'.toUInt8
    · rw [if_pos hc] at e ⊢
      cases e
      exact ⟨inside, _, rfl, rfl⟩
    · rw [if_neg hc] at e ⊢
      exact arrayLoop_alike hnext _ rfl inside v r e
  rw [if_neg ha, if_neg ha]
  intro v r e
  cases e
  exact ⟨hq, _, rfl, rfl⟩

lemma parse_json_alike (h0 : 0 ∉ text) (levels : Nat) {q : JsonParser} (hq : q.i ≤ text.length) :
    Alike text (JsonView.parse_json text strategy levels q) (parse_json false strategy levels ⟨text, q⟩) := by
  induction levels generalizing q with
  | zero =>
    intro v r e
    cases e
    exact ⟨hq, _, rfl, rfl⟩
  | succ n ih =>
    intro v r e
    rw [JsonView.parse_json, Option.bind_eq_bind] at e
    obtain ⟨⟨c, q'⟩, token, e⟩ := Option.bind_eq_some_iff.1 e
    obtain ⟨token', inside⟩ := token_alike hq token
    rw [parse_json, token', Option.bind_eq_bind, Option.bind_some]
    dsimp only at e ⊢
    by_cases failed : q'.failed = true
    · rw [if_pos failed] at e
      cases e
      exact ⟨inside, _, if_pos failed, rfl⟩
    · rw [if_neg failed] at e
      rw [if_neg (show ¬ Parser.failed ⟨text, _⟩ = true from failed)]
      exact value_alike h0 (fun q hq => ih hq) c inside v r e

/-- With `slice` that does not write it is the parser of `JsonView`. -/
lemma parse_alike (h0 : 0 ∉ text) : ∃ v c q, JsonView.parse text strategy = some (v, q) ∧
    parse false strategy text = some (.ok (c, ⟨text, q⟩)) ∧ c.read false text = v := by
  obtain ⟨⟨v, q⟩, e, -⟩ := parse_json_reached (p := {}) strategy (max_depth + 1) (Nat.zero_le text.length)
  obtain ⟨inside, c, e', read⟩ := parse_json_alike h0 (max_depth + 1) (Nat.zero_le text.length) v q e
  obtain ⟨q', garbage, -⟩ := consume_garbage_moves strategy inside
  refine ⟨v, c, q', ?_, ?_, read⟩
  · rw [JsonView.parse, e, Option.bind_eq_bind, Option.bind_some]
    simp [garbage]
  · rw [parse, e', Option.bind_eq_bind, Option.bind_some]
    simp [garbage]

end

end ArrowheadCore.Json.JsonCView
