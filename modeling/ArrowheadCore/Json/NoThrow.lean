import ArrowheadCore.Json.InPlace

/-!
# The functions that do not throw

Embedding of the constructors of `JsonView` and `JsonCView` and of `value_or_null`, with what comes of an exception: it
leaves the function, or it meets `noexcept` and the process is terminated.

`expect` of `JsonCView` throws if a terminator was written in front of its cursor. So the texts at which the process is
terminated are those with a word that is none, where a value is due, behind a name.
-/

namespace ArrowheadCore.Json.JsonCView
open Lib JsonView Grammar

inductive Outcome (α : Type) where
  | returns (a : α)
  | throws (e : Exn)
  | terminates

section
variable (inPlace : Bool)

/-- C++ `parse(strategy) noexcept` -/
def parse_noexcept (strategy : ParseMethod) (text : List UInt8) : Option (Outcome (Node × List UInt8)) := do
  match ← JsonCView.parse inPlace strategy text with
  | .error _ => some .terminates
  | .ok (result, p) =>
    if p.failed then some (.returns (.null, p.str))
    else if p.here.i ≠ p.str.length then some (.returns (.null, p.str))
    else some (.returns (result, p.str))

/-- The constructors: the root and the buffer. -/
def construct (data : List UInt8) (method : ParseMethod) : Option (Outcome (Node × List UInt8)) := do
  if method = .NOTHROW then parse_noexcept inPlace .STANDARD (cStr data)
  else
    match ← parse_throw_on_error inPlace method (cStr data) with
    | .error e => some (.throws e)
    | .ok r => some (.returns r)

end

/-- C++ `value_or_null(size_t i) noexcept` -/
def value_or_null_at (v : Node) (i : Nat) : Outcome Node :=
  match v with
  | .array a =>
    if a.length < i then .returns .null
    else
      match a[i]? with
      | some e => .returns e
      -- `at` throws
      | none => .terminates
  -- `std::get` throws
  | _ => .terminates

/-- C++ `value_or_null(const T &key) noexcept` -/
def value_or_null (inPlace : Bool) (str : List UInt8) (v : Node) (key : List UInt8) : Outcome Node :=
  match v with
  | .object o =>
    match o.find? fun m => m.1.read inPlace str == key with
    | none => .returns .null
    | some m => .returns m.2
  | _ => .terminates

/-! ## Misspelt words behind names -/

/-- The word that begins with this letter. -/
def word? (c : UInt8) : Option String :=
  if c = 't'.toUInt8 then some "true"
  else if c = 'f'.toUInt8 then some "false"
  else if c = 'n'.toUInt8 then some "null"
  else none

section
variable (V : List UInt8 → JsonNode → List UInt8 → Prop) (B : Bool → List UInt8 → Prop)

/-- Items up to one that is not read; `named` is whether there was a name before. -/
inductive BrokenItems : Bool → List UInt8 → Prop
  | here {named : Bool} {s s1 : List UInt8} : Skips jsonView s s1 → B named s1 → BrokenItems named s
  | later {named : Bool} {s s1 s2 s3 : List UInt8} {v : JsonNode} : Skips jsonView s s1 → V s1 v s2 →
    Skips jsonView s2 (','.toUInt8 :: s3) → BrokenItems (named || v.named) s3 → BrokenItems named s

/-- Members up to one whose value is not read. -/
inductive BrokenMembers : List UInt8 → Prop
  | here {s k s1 s2 s3 : List UInt8} : Skips jsonView s ('"'.toUInt8 :: (k ++ '"'.toUInt8 :: s1)) → IsName k →
    Skips jsonView s1 (':'.toUInt8 :: s2) → Skips jsonView s2 s3 → B true s3 → BrokenMembers s
  | later {s s1 s2 : List UInt8} {m : List UInt8 × JsonNode} : Member jsonView V s m s1 →
    Skips jsonView s1 (','.toUInt8 :: s2) → BrokenMembers s2 → BrokenMembers s

inductive Broken : Bool → List UInt8 → Prop
  | word {c : UInt8} {s : List UInt8} {w : String} : word? c = some w → ¬bytes w <+: c :: s → Broken true (c :: s)
  | array {named : Bool} {s : List UInt8} : BrokenItems V B named s → Broken named ('['.toUInt8 :: s)
  | object {named : Bool} {s : List UInt8} : BrokenMembers V B s → Broken named ('{'.toUInt8 :: s)

end

/-- A value with `n` levels at most, up to a word that is none and that stands behind a name. -/
def Derails : Nat → Bool → List UInt8 → Prop
  | 0 => fun _ _ => False
  | n + 1 => Broken (Value jsonView n) (Derails n)

/-- A text with such a word. -/
def Misspelt (text : List UInt8) : Prop := ∃ s, Skips jsonView text s ∧ Derails (max_depth + 1) false s

/-! ## The parsers at a place of the text -/

/-- The parser in front of the suffix `s` of the text, without a failure. -/
structure At (text s : List UInt8) (p : Parser) : Prop where
  here : p.here = cursor text s
  same : Same text p.str p.here.i
  suffix : s <:+ text

section
variable {inPlace : Bool} {strategy : ParseMethod} {D : Dialect} {text s rest : List UInt8} {p : Parser}

lemma At.inside (h : At text s p) : p.here.i ≤ text.length := by
  rw [h.here]
  exact cursor_le text s

lemma At.failed (h : At text s p) : p.failed = false := by
  rw [Parser.failed, h.here]
  rfl

lemma At.of_follows {p' : Parser} (h : Follows text p (cursor text rest) p') (hr : rest <:+ text) : At text rest p' :=
  ⟨h.here, h.here ▸ h.same, hr⟩

lemma At.drop (h : At text s p) : p.str.drop p.here.i = s := by
  rw [h.same.drop, h.here, drop_cursor h.suffix]

lemma At.back {c : UInt8} {q : Parser} (h : At text s p) (hc : Skips D s (c :: rest)) (hq : q.here = cursor text rest)
    (hstr : q.str = p.str) : At text (c :: rest) q.back := by
  have hs := hc.suffix h.suffix
  have here : q.back.here = cursor text (c :: rest) := by
    rw [Parser.back, hq]
    exact cursor_back hs
  refine ⟨here, ?_, hs⟩
  rw [here, show q.back.str = p.str from hstr]
  apply h.same.le
  have := hc.length
  rw [h.here]
  simp only [cursor]
  omega

/-- A token that is there. -/
lemma At.token (hD : Readable text strategy D) {c : UInt8} (h : At text s p) (hc : Skips D s (c :: rest)) (solid : Solid c) :
    ∃ q, get_next_token strategy p = some (c, q) ∧ q.here = cursor text rest ∧ q.str = p.str ∧ At text rest q := by
  have token := hD.token h.suffix hc solid
  rw [← h.here] at token
  obtain ⟨token', f⟩ := get_next_token_follows h.same h.inside token
  exact ⟨_, token', rfl, rfl, .of_follows f (suffix_of_cons (hc.suffix h.suffix))⟩

lemma get_next_token_str {c : UInt8} {q : Parser} (e : get_next_token strategy p = some (c, q)) :
    q.str = p.str := by
  rw [get_next_token, Option.map_eq_some_iff] at e
  obtain ⟨r, -, e⟩ := e
  cases e
  rfl

/-- A value that is there. -/
lemma At.value (hD : Readable text strategy D) (inPlace : Bool) (h0 : 0 ∉ text) (h : At text s p) {n : Nat} {s1 : List UInt8}
    {v : JsonNode} (hs : Skips D s s1) (hv : Value D n s1 v rest) (hr : Ends rest) :
    ∃ c p', parse_json inPlace strategy n p = some (.ok (c, p')) ∧ At text rest p' ∧ Marks inPlace p p' v.named := by
  obtain ⟨hrest, parsed⟩ := (hD.parses n).parses h.suffix hs hv hr
  rw [← h.here] at parsed
  obtain ⟨r', e', m⟩ := (parse_json_simulates inPlace h0 n).sim h.failed h.inside h.same parsed
  obtain ⟨c, p', rfl, f, -, marks⟩ := m.good rfl
  exact ⟨c, p', e', .of_follows f hrest, marks⟩

/-- A name that is there. -/
lemma At.name (inPlace : Bool) (h0 : 0 ∉ text) {k : List UInt8} (h : At text (k ++ '"'.toUInt8 :: rest) p) (hk : IsName k) :
    ∃ key p', parse_key inPlace p = (key, p') ∧ At text rest p' ∧ Marks inPlace p p' true := by
  have parsed := parse_key_cursor hk h.suffix
  rw [← h.here] at parsed
  obtain ⟨good, -⟩ := parse_key_follows inPlace h0 h.failed h.same h.inside parsed
  obtain ⟨key, p', e, f, -, marks⟩ := good rfl
  exact ⟨key, p', e, .of_follows f (suffix_of_cons (suffix_of_append h.suffix)), marks⟩

/-! ## Every such word is met -/

/-- The part of the buffer that `expect` sees ends in front of the cursor. -/
lemma cStr_short (h0 : 0 ∉ text) (h : At text s p) (hz : 0 ∈ p.str) : (cStr p.str).length < p.here.i := by
  have behind : 0 ∉ p.str.drop p.here.i := by
    rw [h.drop]
    exact fun hm => h0 (h.suffix.subset hm)
  rw [← List.take_append_drop p.here.i p.str, List.mem_append] at hz
  have front : 0 ∈ p.str.take p.here.i := hz.resolve_right behind
  by_contra hn
  have le : p.here.i ≤ (cStr p.str).length := Nat.le_of_not_lt hn
  have pre : p.str.take p.here.i <+: cStr p.str :=
    List.prefix_of_prefix_length_le (List.take_prefix _ _) (List.takeWhile_prefix _)
      (Nat.le_trans (List.length_take_le _ _) le)
  exact zero_cStr p.str (pre.subset front)

lemma expect_throws (h0 : 0 ∉ text) {c : UInt8} (h : At text (c :: s) p.back) (hz : 0 ∈ p.str) {w : String}
    (hw : ¬bytes w <+: c :: s) (res : Node) : expect w res p = .error .out_of_range := by
  have other : (bytes w).isPrefixOf (p.back.str.drop p.back.here.i) = false := by
    rw [h.drop, ← Bool.not_eq_true, List.isPrefixOf_iff_prefix]
    exact hw
  simp only [expect, other, Bool.false_eq_true, if_false, if_pos (cStr_short h0 h hz)]

/-- The next level throws at its places, if there was a terminator before. -/
def Derailed (text : List UInt8) (parse : Parser → Result) (B : Bool → List UInt8 → Prop) : Prop :=
  ∀ {s s1 p named}, At text s p → Skips jsonView s s1 → B named s1 → (named = true → 0 ∈ p.str) →
    parse p = some (.error .out_of_range)

variable {n : Nat} {B : Bool → List UInt8 → Prop}

lemma arrayLoop_throws (h0 : 0 ∉ text) (hhead : ∀ {named s}, B named s → ∃ c cs, s = c :: cs ∧ Solid c ∧ c ≠ ']'.toUInt8)
    (hB : Derailed text (parse_json true .STANDARD n) B) {named : Bool} (h : BrokenItems (Value jsonView n) B named s)
    (hp : At text s p) (hz : named = true → 0 ∈ p.str) {fuel : Nat} (hf : s.length ≤ fuel) (data : List Node) :
    ∃ c q, get_next_token .STANDARD p = some (c, q) ∧ c ≠ ']'.toUInt8 ∧
      arrayLoop .STANDARD (parse_json true .STANDARD n) fuel data q = some (.error .out_of_range) := by
  have hD := readable_jsonView text .STANDARD
  induction h generalizing p fuel data with
  | @here named s s1 h1 hb =>
    obtain ⟨c, cs, rfl, solid, hc⟩ := hhead hb
    obtain ⟨q, token, hq, hstr, -⟩ := hp.token hD h1 solid
    have l1 := h1.length
    rw [List.length_cons] at l1
    obtain ⟨k, rfl⟩ : ∃ k, fuel = k + 1 := Nat.exists_eq_succ_of_ne_zero (by omega)
    have thrown := hB (hp.back h1 hq hstr) (.refl _) hb (fun e => hstr ▸ hz e)
    refine ⟨c, q, token, hc, ?_⟩
    rw [arrayLoop, thrown]
    rfl
  | @later named s s1 s2 s3 v h1 hv h2 _ ih =>
    obtain ⟨c, cs, rfl, solid, hc⟩ := value_head hv
    obtain ⟨q, token, hq, hstr, -⟩ := hp.token hD h1 solid
    obtain ⟨node, p2, parsed, hp2, marks⟩ := (hp.back h1 hq hstr).value hD true h0 (.refl _) hv
      (ends_of_skips h2 (by decide))
    obtain ⟨q3, comma, -, hstr3, hp3⟩ := hp2.token hD h2 (by decide)
    have l1 := h1.length
    have l2 := hv.shorter
    have l3 := h2.length
    rw [List.length_cons] at l1 l2 l3
    obtain ⟨k, rfl⟩ : ∃ k, fuel = k + 1 := Nat.exists_eq_succ_of_ne_zero (by omega)
    have hz3 : (named || v.named) = true → 0 ∈ q3.str := by
      intro e
      rw [hstr3]
      rw [Bool.or_eq_true] at e
      exact Iff.mpr marks (e.imp (fun e => hstr ▸ hz e) fun e => ⟨rfl, e⟩)
    obtain ⟨c', q', token', hc', loop⟩ := ih hp3 hz3 (show _ ≤ k by omega) (data ++ [node])
    have sep : ','.toUInt8 ≠ ']'.toUInt8 := by decide
    refine ⟨c, q, token, hc, ?_⟩
    rw [arrayLoop, parsed]
    simp only [Option.bind_eq_bind, Option.bind_some, hp2.failed, Bool.false_eq_true, if_false, comma, if_neg sep, ne_eq,
      not_true_eq_false, token', loop]

lemma objectLoop_throws (h0 : 0 ∉ text) (hB : Derailed text (parse_json true .STANDARD n) B)
    (h : BrokenMembers (Value jsonView n) B s) (hp : At text s p) {fuel : Nat} (hf : s.length ≤ fuel) (data : List (Key × Node)) :
    ∃ q, get_next_token .STANDARD p = some ('"'.toUInt8, q) ∧
      objectLoop true .STANDARD (parse_json true .STANDARD n) fuel '"'.toUInt8 data q = some (.error .out_of_range) := by
  have hD := readable_jsonView text .STANDARD
  induction h generalizing p fuel data with
  | @here s k s1 s2 s3 h1 hk h2 h3 hb =>
    obtain ⟨q, token, -, hstr, hq⟩ := hp.token hD h1 (by decide)
    obtain ⟨key, p1, named, hp1, marks⟩ := hq.name true h0 hk
    obtain ⟨q2, colon, -, hstr2, hp2⟩ := hp1.token hD h2 (by decide)
    have l1 := h1.length
    rw [List.length_cons] at l1
    obtain ⟨k, rfl⟩ : ∃ k, fuel = k + 1 := Nat.exists_eq_succ_of_ne_zero (by omega)
    have hz : 0 ∈ q2.str := by
      rw [hstr2]
      exact Iff.mpr marks (.inr ⟨rfl, rfl⟩)
    have thrown := hB hp2 h3 hb fun _ => hz
    refine ⟨q, token, ?_⟩
    rw [objectLoop, named]
    simp only [ne_eq, not_true_eq_false, if_false, hp1.failed, Bool.false_eq_true, colon, Option.bind_eq_bind,
      Option.bind_some, thrown]
  | @later s s1 s2 m hm h2 _ ih =>
    have l1 := hm.shorter Value.shorter
    have l2 := h2.length
    rw [List.length_cons] at l2
    obtain ⟨f, rfl⟩ : ∃ f, fuel = f + 1 := Nat.exists_eq_succ_of_ne_zero (by omega)
    cases hm with
    | mk h1 hk h3 h4 hv =>
    obtain ⟨q, token, -, hstr, hq⟩ := hp.token hD h1 (by decide)
    obtain ⟨key, p1, named, hp1, -⟩ := hq.name true h0 hk
    obtain ⟨q2, colon, -, hstr2, hp2⟩ := hp1.token hD h3 (by decide)
    obtain ⟨node, p3, parsed, hp3, -⟩ := hp2.value hD true h0 h4 hv (ends_of_skips h2 (by decide))
    obtain ⟨q4, comma, -, -, hp4⟩ := hp3.token hD h2 (by decide)
    obtain ⟨q', token', loop⟩ := ih hp4 (show _ ≤ f by omega) (data ++ [(key, node)])
    have sep : ','.toUInt8 ≠ '}'.toUInt8 := by decide
    refine ⟨q, token, ?_⟩
    rw [objectLoop, named]
    simp only [ne_eq, not_true_eq_false, if_false, hp1.failed, Bool.false_eq_true, colon, Option.bind_eq_bind,
      Option.bind_some, parsed, hp3.failed, comma, if_neg sep, token', loop]

lemma word_cases {c : UInt8} {w : String} (h : word? c = some w) :
    (c = 't'.toUInt8 ∧ w = "true") ∨ (c = 'f'.toUInt8 ∧ w = "false") ∨ (c = 'n'.toUInt8 ∧ w = "null") := by
  rw [word?] at h
  split at h
  next hc => exact .inl ⟨hc, by simpa using h.symm⟩
  split at h
  next hc => exact .inr (.inl ⟨hc, by simpa using h.symm⟩)
  split at h
  next hc => exact .inr (.inr ⟨hc, by simpa using h.symm⟩)
  next => cases h

lemma derails_head {named : Bool} (h : Derails n named s) : ∃ c cs, s = c :: cs ∧ Solid c ∧ c ≠ ']'.toUInt8 := by
  cases n with
  | zero => exact h.elim
  | succ n =>
    cases h with
    | word hw _ =>
      obtain ⟨rfl, -⟩ | ⟨rfl, -⟩ | ⟨rfl, -⟩ := word_cases hw <;> exact ⟨_, _, rfl, by decide⟩
    | array _ => exact ⟨_, _, rfl, by decide⟩
    | object _ => exact ⟨_, _, rfl, by decide⟩

theorem parse_json_throws (h0 : 0 ∉ text) (n : Nat) : Derailed text (parse_json true .STANDARD n) (Derails n) := by
  have hD := readable_jsonView text .STANDARD
  induction n with
  | zero => exact fun _ _ h => h.elim
  | succ n ih =>
    intro s s1 p named hp hs h hz
    obtain ⟨c, cs, rfl, solid, -⟩ := derails_head h
    obtain ⟨q, token, hq, hstr, hat⟩ := hp.token hD hs solid
    have back := hp.back hs hq hstr
    have fuel : cs.length ≤ q.str.length + 1 := by
      rw [hat.same.length]
      exact Nat.le_succ_of_le hat.suffix.length_le
    rw [parse_json, token, Option.bind_eq_bind, Option.bind_some]
    dsimp only
    rw [if_neg (by simp [hat.failed]), parse_value]
    cases h with
    | word hw hn =>
      have hz : 0 ∈ q.str := hstr ▸ hz rfl
      obtain ⟨rfl, rfl⟩ | ⟨rfl, rfl⟩ | ⟨rfl, rfl⟩ := word_cases hw
      · rw [if_neg (by decide), if_pos rfl, expect_throws h0 back hz hn]
      · rw [if_neg (by decide), if_neg (by decide), if_pos rfl, expect_throws h0 back hz hn]
      · rw [if_neg (by decide), if_neg (by decide), if_neg (by decide), if_pos rfl, expect_throws h0 back hz hn]
    | array h =>
      obtain ⟨c, q', token', hc, loop⟩ := arrayLoop_throws h0 derails_head ih h hat (fun e => hstr ▸ hz e)
        (show _ ≤ q.str.length + 1 from fuel) []
      have str' : q'.str = q.str := get_next_token_str token'
      rw [if_neg (by decide), if_neg (by decide), if_neg (by decide), if_neg (by decide), if_neg (by decide),
        if_neg (by decide), if_pos rfl, token', Option.bind_eq_bind, Option.bind_some]
      simp only [if_neg hc, str', loop]
    | object h =>
      obtain ⟨q', token', loop⟩ := objectLoop_throws h0 ih h hat (show _ ≤ q.str.length + 1 from fuel) []
      have str' : q'.str = q.str := get_next_token_str token'
      have other : '"'.toUInt8 ≠ '}'.toUInt8 := by decide
      rw [if_neg (by decide), if_neg (by decide), if_neg (by decide), if_neg (by decide), if_neg (by decide),
        if_pos rfl, token', Option.bind_eq_bind, Option.bind_some]
      simp only [if_neg other, str', loop]

/-! ## Nothing else throws -/

/-- A token that is found is there. -/
lemma At.token_inv (hD : Covers text strategy D) {c : UInt8} {q : Parser} (h : At text s p)
    (e : get_next_token strategy p = some (c, q)) :
    (c = 0 ∧ q.failed = true ∧ q.here.i ≤ q.str.length) ∨
      ∃ rest, Skips D s (c :: rest) ∧ q.here = cursor text rest ∧ At text rest q := by
  obtain ⟨c', q', e', moves, -⟩ := get_next_token_moves strategy h.inside
  obtain ⟨found, f⟩ := get_next_token_follows h.same h.inside e'
  rw [e] at found
  cases found
  rw [h.here] at e'
  obtain ⟨hc, hq⟩ | ⟨rest, hq, skips⟩ := hD.token h.suffix e'
  · exact .inl ⟨hc, hq, f.same.length ▸ f.inside⟩
  · subst hq
    exact .inr ⟨rest, skips, rfl, .of_follows f (suffix_of_cons (skips.suffix h.suffix))⟩

/-- A value that is read is there. -/
lemma At.value_inv (hD : Covers text strategy D) (h0 : 0 ∉ text) (h : At text s p) {c : Node} {p' : Parser}
    (e : parse_json inPlace strategy n p = some (.ok (c, p'))) (hp' : p'.failed = false) :
    ∃ s1 v rest, Skips D s s1 ∧ Value D n s1 v rest ∧ At text rest p' ∧ Marks inPlace p p' v.named := by
  obtain ⟨⟨v, q⟩, parsed, -⟩ := parse_json_reached strategy n h.inside
  obtain ⟨r', e', m⟩ := (parse_json_simulates inPlace h0 n).sim h.failed h.inside h.same parsed
  rw [e] at e'
  cases e'
  cases hq : q.failed with
  | true =>
    obtain e' | ⟨_, _, e', failed, -⟩ := m.bad hq
    · cases e'
    · cases e'
      rw [hp'] at failed
      cases failed
  | false =>
    obtain ⟨_, _, e', f, -, marks⟩ := m.good hq
    cases e'
    rw [h.here] at parsed
    obtain ⟨s1, rest, skips, value, rfl, hrest⟩ := (hD.derives n).derives h.suffix parsed hq
    exact ⟨s1, v, rest, skips, value, .of_follows f hrest, marks⟩

/-- A name that is read is there. -/
lemma At.name_inv (h0 : 0 ∉ text) (h : At text s p) {key : Key} {p' : Parser} (e : parse_key inPlace p = (key, p'))
    (hp' : p'.failed = false) :
    ∃ k rest, s = k ++ '"'.toUInt8 :: rest ∧ IsName k ∧ At text rest p' ∧ Marks inPlace p p' true := by
  cases hk : JsonView.parse_key text p.here with
  | mk k q =>
  obtain ⟨good, bad⟩ := parse_key_follows inPlace h0 h.failed h.same h.inside hk
  cases hq : q.failed with
  | true =>
    obtain ⟨_, _, e', failed, -⟩ := bad hq
    rw [e] at e'
    cases e'
    rw [hp'] at failed
    cases failed
  | false =>
    obtain ⟨_, _, e', f, -, marks⟩ := good hq
    rw [e] at e'
    cases e'
    rw [h.here] at hk
    obtain ⟨rest, rfl, hname, rfl⟩ := parse_key_sound h.suffix hk hq
    exact ⟨k, rest, rfl, hname, .of_follows f (suffix_of_cons (suffix_of_append h.suffix)), marks⟩

/-- What an exception of the next level means: a place of `B`, and a name before. -/
def Throws (inPlace : Bool) (text : List UInt8) (parse : Parser → Result) (B : Bool → List UInt8 → Prop) : Prop :=
  ∀ {s p e named}, At text s p → (0 ∈ p.str → named = true) → parse p = some (.error e) →
    (0 ∈ p.str ∨ inPlace = true) ∧ ∃ s1, Skips jsonView s s1 ∧ B named s1

lemma covers_jsonView (text : List UInt8) : Covers text .STANDARD jsonView := covers_dialect text .STANDARD

lemma arrayLoop_derails (h0 : 0 ∉ text) (hB : Throws inPlace text (parse_json inPlace .STANDARD n) B) {named : Bool} {c : UInt8}
    {q : Parser} (hp : At text s p) (token : get_next_token .STANDARD p = some (c, q)) (hz : 0 ∈ p.str → named = true)
    {fuel : Nat} {data : List Node} {x : Exn}
    (e : arrayLoop .STANDARD (parse_json inPlace .STANDARD n) fuel data q = some (.error x)) :
    (0 ∈ p.str ∨ inPlace = true) ∧ BrokenItems (Value jsonView n) B named s := by
  have hD := covers_jsonView text
  induction fuel generalizing s p q c data named with
  | zero => cases e
  | succ k ih =>
    have hstr := get_next_token_str token
    rw [arrayLoop, Option.bind_eq_bind, Option.bind_eq_some_iff] at e
    obtain ⟨r, parsed, e⟩ := e
    obtain ⟨-, failed, inside⟩ | ⟨rest, skips, hq, -⟩ := hp.token_inv hD token
    · -- behind a failure there is no exception
      have inside : q.back.here.i ≤ q.str.length := Nat.le_trans (Nat.sub_le _ _) inside
      obtain ⟨_, p', stuck, failed', -⟩ := parse_json_stuck (p := q.back) failed inside n
      rw [stuck] at parsed
      cases parsed
      simp [failed'] at e
    have back := hp.back skips hq hstr
    cases r with
    | error x' =>
      obtain ⟨before, s1, skips1, hb⟩ := hB back (fun h => hz (hstr ▸ h)) parsed
      exact ⟨by rwa [← hstr], .here (hD.trans skips skips1) hb⟩
    | ok r =>
    obtain ⟨node, p2⟩ := r
    dsimp only at e
    by_cases good : p2.failed = true
    · rw [if_pos good] at e
      cases e
    rw [if_neg good] at e
    obtain ⟨s1, v, rest2, skips1, value, hp2, marks⟩ := back.value_inv hD h0 parsed (by simpa using good)
    rw [Option.bind_eq_bind, Option.bind_eq_some_iff] at e
    obtain ⟨⟨c3, q3⟩, token3, e⟩ := e
    dsimp only at e
    by_cases close : c3 = ']'.toUInt8
    · rw [if_pos close] at e
      cases e
    rw [if_neg close] at e
    by_cases hc3 : c3 ≠ ','.toUInt8
    · rw [if_pos hc3] at e
      cases e
    rw [if_neg hc3] at e
    obtain rfl : c3 = ','.toUInt8 := not_not.1 hc3
    obtain ⟨hzero, -⟩ | ⟨rest3, skips3, -, hp3⟩ := hp2.token_inv hD token3
    · exact absurd hzero (by decide)
    rw [Option.bind_eq_some_iff] at e
    obtain ⟨⟨c4, q4⟩, token4, e⟩ := e
    have mem3 : 0 ∈ q3.str ↔ 0 ∈ p.str ∨ (inPlace = true ∧ v.named = true) := by
      rw [get_next_token_str token3, ← hstr]
      exact marks
    have hz3 : 0 ∈ q3.str → (named || v.named) = true := by
      rw [mem3, Bool.or_eq_true]
      exact fun h => h.imp hz And.right
    obtain ⟨before, items⟩ := ih hp3 token4 hz3 e
    refine ⟨?_, .later (hD.trans skips skips1) value skips3 items⟩
    rw [mem3] at before
    obtain (h | h) | h := before
    · exact .inl h
    · exact .inr h.1
    · exact .inr h

lemma objectLoop_derails (h0 : 0 ∉ text) (hB : Throws inPlace text (parse_json inPlace .STANDARD n) B) {c : UInt8}
    {q : Parser} (hp : At text s p) (token : get_next_token .STANDARD p = some (c, q))
    {fuel : Nat} {data : List (Key × Node)} {x : Exn}
    (e : objectLoop inPlace .STANDARD (parse_json inPlace .STANDARD n) fuel c data q = some (.error x)) :
    (0 ∈ p.str ∨ inPlace = true) ∧ BrokenMembers (Value jsonView n) B s := by
  have hD := covers_jsonView text
  induction fuel generalizing s p q c data with
  | zero => cases e
  | succ f ih =>
    have hstr := get_next_token_str token
    rw [objectLoop] at e
    simp only [Option.bind_eq_bind] at e
    by_cases hc : c ≠ '"'.toUInt8
    · rw [if_pos hc] at e
      cases e
    rw [if_neg hc] at e
    obtain rfl : c = '"'.toUInt8 := not_not.1 hc
    obtain ⟨hzero, -⟩ | ⟨rest, skips, -, hq⟩ := hp.token_inv hD token
    · exact absurd hzero (by decide)
    cases hk : parse_key inPlace q with
    | mk key p1 =>
    rw [hk] at e
    dsimp only at e
    by_cases good1 : p1.failed = true
    · rw [if_pos good1] at e
      cases e
    rw [if_neg good1] at e
    obtain ⟨k, rest1, rfl, hname, hp1, marks1⟩ := hq.name_inv h0 hk (by simpa using good1)
    rw [Option.bind_eq_some_iff] at e
    obtain ⟨⟨c2, q2⟩, token2, e⟩ := e
    dsimp only at e
    by_cases hc2 : c2 ≠ ':'.toUInt8
    · rw [if_pos hc2] at e
      cases e
    rw [if_neg hc2] at e
    obtain rfl : c2 = ':'.toUInt8 := not_not.1 hc2
    obtain ⟨hzero, -⟩ | ⟨rest2, skips2, -, hp2⟩ := hp1.token_inv hD token2
    · exact absurd hzero (by decide)
    have mem2 : 0 ∈ q2.str ↔ 0 ∈ p.str ∨ (inPlace = true ∧ true = true) := by
      rw [get_next_token_str token2, ← hstr]
      exact marks1
    have before : 0 ∈ q2.str ∨ inPlace = true → 0 ∈ p.str ∨ inPlace = true := by
      rw [mem2]
      rintro ((h | h) | h)
      · exact .inl h
      · exact .inr h.1
      · exact .inr h
    rw [Option.bind_eq_some_iff] at e
    obtain ⟨r, parsed, e⟩ := e
    cases r with
    | error x' =>
      obtain ⟨marked, s3, skips3, hb⟩ := hB hp2 (fun _ => rfl) parsed
      exact ⟨before marked, .here skips hname skips2 skips3 hb⟩
    | ok r =>
    obtain ⟨node, p3⟩ := r
    dsimp only at e
    by_cases good3 : p3.failed = true
    · rw [if_pos good3] at e
      cases e
    rw [if_neg good3] at e
    obtain ⟨s3, v, rest3, skips3, value, hp3, marks3⟩ := hp2.value_inv hD h0 parsed (by simpa using good3)
    rw [Option.bind_eq_some_iff] at e
    obtain ⟨⟨c4, q4⟩, token4, e⟩ := e
    dsimp only at e
    by_cases close : c4 = '}'.toUInt8
    · rw [if_pos close] at e
      cases e
    rw [if_neg close] at e
    by_cases hc4 : c4 ≠ ','.toUInt8
    · rw [if_pos hc4] at e
      cases e
    rw [if_neg hc4] at e
    obtain rfl : c4 = ','.toUInt8 := not_not.1 hc4
    obtain ⟨hzero, -⟩ | ⟨rest4, skips4, -, hp4⟩ := hp3.token_inv hD token4
    · exact absurd hzero (by decide)
    rw [Option.bind_eq_some_iff] at e
    obtain ⟨⟨c5, q5⟩, token5, e⟩ := e
    obtain ⟨marked, members⟩ := ih hp4 token5 e
    refine ⟨?_, .later (.mk skips hname skips2 skips3 value) skips4 members⟩
    have mem4 : 0 ∈ q4.str ↔ 0 ∈ q2.str ∨ (inPlace = true ∧ v.named = true) := by
      rw [get_next_token_str token4]
      exact marks3
    rw [mem4] at marked
    obtain (h | h) | h := marked
    · exact before (.inl h)
    · exact .inr h.1
    · exact .inr h

/-- `expect` throws behind a terminator only. -/
lemma expect_derails {c : UInt8} (h : At text (c :: s) p.back) {w : String} {res : Node} {x : Exn} (e : expect w res p = .error x) :
    0 ∈ p.str ∧ ¬bytes w <+: c :: s := by
  have inside : p.back.here.i ≤ p.str.length := h.same.length ▸ h.inside
  rw [expect, h.drop] at e
  split at e
  · cases e
  next other =>
  split at e
  next short =>
    refine ⟨?_, by rwa [List.isPrefixOf_iff_prefix] at other⟩
    by_contra hz
    rw [show p.back.str = p.str from rfl, cStr_eq hz] at short
    omega
  next => cases e

theorem parse_json_derails (h0 : 0 ∉ text) (n : Nat) :
    Throws inPlace text (parse_json inPlace .STANDARD n) (Derails n) := by
  have hD := covers_jsonView text
  induction n with
  | zero =>
    intro s p x named _ _ e
    cases e
  | succ n ih =>
    intro s p x named hp hz e
    rw [parse_json, Option.bind_eq_bind, Option.bind_eq_some_iff] at e
    obtain ⟨⟨c, q⟩, token, e⟩ := e
    have hstr := get_next_token_str token
    dsimp only at e
    split at e
    · cases e
    next good =>
    obtain ⟨-, failed, -⟩ | ⟨rest, skips, hq, hat⟩ := hp.token_inv hD token
    · exact absurd failed good
    have back := hp.back skips hq hstr
    -- a word that is not spelt
    have word : ∀ {w : String} {res : Node}, word? c = some w → expect w res q = .error x →
        (0 ∈ p.str ∨ inPlace = true) ∧ ∃ s1, Skips jsonView s s1 ∧ Derails (n + 1) named s1 := by
      intro w res hw e
      obtain ⟨mem, other⟩ := expect_derails back e
      rw [hstr] at mem
      obtain rfl := hz mem
      exact ⟨.inl mem, _, skips, .word hw other⟩
    rw [parse_value] at e
    simp only [Option.bind_eq_bind] at e
    by_cases hn : c = '-'.toUInt8 ∨ isDigit c
    · rw [if_pos hn] at e
      cases e
    rw [if_neg hn] at e
    by_cases ht : c = 't'.toUInt8
    · rw [if_pos ht, Option.some.injEq] at e
      exact word (w := "true") (by rw [ht]; rfl) e
    rw [if_neg ht] at e
    by_cases hf : c = 'f'.toUInt8
    · rw [if_pos hf, Option.some.injEq] at e
      exact word (w := "false") (by rw [hf]; rfl) e
    rw [if_neg hf] at e
    by_cases hnull : c = 'n'.toUInt8
    · rw [if_pos hnull, Option.some.injEq] at e
      exact word (w := "null") (by rw [hnull]; rfl) e
    rw [if_neg hnull] at e
    by_cases hquote : c = '"'.toUInt8
    · rw [if_pos hquote] at e
      cases e
    rw [if_neg hquote] at e
    by_cases ho : c = '{'.toUInt8
    · rw [if_pos ho, Option.bind_eq_some_iff] at e
      obtain ⟨⟨c1, q1⟩, token1, e⟩ := e
      dsimp only at e
      subst ho
      by_cases close : c1 = '}'.toUInt8
      · rw [if_pos close] at e
        cases e
      · rw [if_neg close] at e
        obtain ⟨before, members⟩ := objectLoop_derails h0 ih hat token1 e
        exact ⟨hstr ▸ before, _, skips, .object members⟩
    rw [if_neg ho] at e
    by_cases ha : c = '['.toUInt8
    · rw [if_pos ha, Option.bind_eq_some_iff] at e
      obtain ⟨⟨c1, q1⟩, token1, e⟩ := e
      dsimp only at e
      subst ha
      by_cases close : c1 = ']'.toUInt8
      · rw [if_pos close] at e
        cases e
      · rw [if_neg close] at e
        obtain ⟨before, items⟩ := arrayLoop_derails h0 ih hat token1 (fun h => hz (hstr ▸ h)) e
        exact ⟨hstr ▸ before, _, skips, .array items⟩
    rw [if_neg ha] at e
    cases e

/-! ## Constructors and elements -/

lemma at_start (text : List UInt8) : At text text { str := text } :=
  ⟨by simp [cursor], ⟨rfl, rfl⟩, List.suffix_rfl⟩

/-- A parse returns, or `parse_json` throws. -/
lemma parse_cases (inPlace : Bool) (h0 : 0 ∉ text) :
    (∃ x, parse_json inPlace .STANDARD (max_depth + 1) { str := text } = some (.error x) ∧
      JsonCView.parse inPlace .STANDARD text = some (.error x)) ∨
    ∃ r, JsonCView.parse inPlace .STANDARD text = some (.ok r) := by
  obtain ⟨⟨v, q⟩, parsed, -⟩ := parse_json_reached (p := {}) .STANDARD (max_depth + 1) (Nat.zero_le text.length)
  obtain ⟨r', e', m⟩ := (parse_json_simulates inPlace h0 (max_depth + 1)).sim (p := { str := text })
    rfl (Nat.zero_le _) ⟨rfl, rfl⟩ parsed
  cases r' with
  | error x =>
    refine .inl ⟨x, e', ?_⟩
    simp only [JsonCView.parse, e', Option.bind_eq_bind, Option.bind_some]
  | ok r =>
    obtain ⟨c, p⟩ := r
    have inside : p.here.i ≤ p.str.length := by
      cases hq : q.failed with
      | true =>
        obtain e | ⟨_, _, e, -, inside⟩ := m.bad hq
        · cases e
        · cases e
          exact inside
      | false =>
        obtain ⟨_, _, e, f, -⟩ := m.good hq
        cases e
        rw [f.same.length, f.here]
        exact f.inside
    obtain ⟨q', garbage, -⟩ := consume_garbage_moves .STANDARD inside
    refine .inr ⟨(c, { p with here := q' }), ?_⟩
    simp only [JsonCView.parse, e', Option.bind_eq_bind, Option.bind_some, garbage]

/-- The constructor gives the tree that is read, or null for a text that is not read. -/
def NoThrow (inPlace : Bool) (data : List UInt8) : Prop :=
  (∀ r, parse_throw_on_error inPlace .STANDARD (cStr data) = some (.ok r) →
    construct inPlace data .NOTHROW = some (.returns r)) ∧
  ((¬∃ r, parse_throw_on_error inPlace .STANDARD (cStr data) = some (.ok r)) →
    ∃ buffer, construct inPlace data .NOTHROW = some (.returns (.null, buffer)))

lemma noThrow_of_ok {data : List UInt8} {r : Node × Parser}
    (h : JsonCView.parse inPlace .STANDARD (cStr data) = some (.ok r)) : NoThrow inPlace data := by
  obtain ⟨c, str, i, err⟩ := r
  simp only [NoThrow, construct, parse_noexcept, parse_throw_on_error, h, if_true, Option.bind_eq_bind, Option.bind_some]
  cases err with
  | some what => simp [Parser.failed, JsonParser.failed]
  | none => by_cases hi : i = str.length <;> simp [Parser.failed, JsonParser.failed, hi]

lemma not_noThrow_of_error {data : List UInt8} {x : Exn}
    (h : JsonCView.parse inPlace .STANDARD (cStr data) = some (.error x)) : ¬NoThrow inPlace data := by
  rintro ⟨-, null⟩
  have rejected : ¬∃ r, parse_throw_on_error inPlace .STANDARD (cStr data) = some (.ok r) := by
    simp [parse_throw_on_error, h]
  obtain ⟨buffer, e⟩ := null rejected
  simp [construct, parse_noexcept, h] at e

/-- `JsonView` never throws. -/
lemma noThrow_jsonView (data : List UInt8) : NoThrow false data := by
  have h0 : 0 ∉ cStr data := zero_cStr data
  obtain ⟨x, thrown, -⟩ | ⟨r, e⟩ := parse_cases false h0
  · have unnamed : 0 ∈ cStr data → false = true := fun h => absurd h h0
    obtain ⟨mem | mem, -⟩ := parse_json_derails h0 _ (at_start (cStr data)) unnamed thrown
    · exact absurd mem h0
    · cases mem
  · exact noThrow_of_ok e

/-- `JsonCView` throws at the texts with a misspelt word behind a name. -/
lemma noThrow_jsonCView (data : List UInt8) : NoThrow true data ↔ ¬Misspelt (cStr data) := by
  have h0 : 0 ∉ cStr data := zero_cStr data
  obtain ⟨x, thrown, e⟩ | ⟨r, e⟩ := parse_cases true h0
  · obtain ⟨-, derails⟩ := parse_json_derails h0 _ (at_start (cStr data)) (fun h => absurd h h0) thrown
    exact ⟨fun h => absurd h (not_noThrow_of_error e), fun h => absurd derails h⟩
  · refine ⟨fun _ => ?_, fun _ => noThrow_of_ok e⟩
    rintro ⟨s, skips, derails⟩
    have thrown := parse_json_throws h0 _ (at_start (cStr data)) skips derails (by simp)
    simp [JsonCView.parse, thrown] at e

/-- `value_or_null` gives the item, or null if there is none. -/
def ItemOrNull (items : List Node) (i : Nat) : Prop :=
  (∀ v, items[i]? = some v → value_or_null_at (.array items) i = .returns v) ∧
  (items[i]? = none → value_or_null_at (.array items) i = .returns .null)

lemma itemOrNull_iff (items : List Node) (i : Nat) : ItemOrNull items i ↔ i ≠ items.length := by
  obtain h | rfl | h := Nat.lt_trichotomy i items.length
  · have le : ¬items.length < i := by omega
    simp [ItemOrNull, value_or_null_at, h, le, Nat.ne_of_lt h]
  · simp [ItemOrNull, value_or_null_at]
  · simp [ItemOrNull, value_or_null_at, h, Nat.ne_of_gt h, Nat.le_of_lt h]

/-- `value_or_null` gives the first member of the name, or null if there is none. -/
def MemberOrNull (inPlace : Bool) (str : List UInt8) (members : List (Key × Node)) (key : List UInt8) : Prop :=
  (∀ before k v after, members = before ++ (k, v) :: after → k.read inPlace str = key →
    (∀ m ∈ before, m.1.read inPlace str ≠ key) → value_or_null inPlace str (.object members) key = .returns v) ∧
  ((∀ m ∈ members, m.1.read inPlace str ≠ key) → value_or_null inPlace str (.object members) key = .returns .null)

lemma memberOrNull (inPlace : Bool) (str : List UInt8) (members : List (Key × Node)) (key : List UInt8) :
    MemberOrNull inPlace str members key := by
  refine ⟨?_, fun absent => ?_⟩
  · rintro before k v after rfl hk first
    have skip : before.find? (fun m => m.1.read inPlace str == key) = none := by
      simpa [List.find?_eq_none] using first
    simp [value_or_null, List.find?_append, skip, hk]
  · have search : members.find? (fun m => m.1.read inPlace str == key) = none := by
      simpa [List.find?_eq_none] using absent
    simp [value_or_null, search]

/-- No exception meets `noexcept` if no word is misspelt behind a name and no index is the length of the array. -/
theorem noexcept_iff (data : List UInt8) (items : List Node) (i : Nat) (inPlace : Bool) (str : List UInt8)
    (members : List (Key × Node)) (key : List UInt8) :
    (NoThrow false data ∧ NoThrow true data ∧ ItemOrNull items i ∧ MemberOrNull inPlace str members key) ↔
      ¬Misspelt (cStr data) ∧ i ≠ items.length := by
  rw [noThrow_jsonCView, itemOrNull_iff]
  have view := noThrow_jsonView data
  have member := memberOrNull inPlace str members key
  tauto

theorem noexcept_violated : ¬NoThrow true (bytes "\x7b\"a\":nul\x7d") ∧ ¬ItemOrNull [] 0 := by
  have text : cStr (bytes "\x7b\"a\":nul\x7d") =
      '{'.toUInt8 :: '"'.toUInt8 :: (bytes "a" ++ '"'.toUInt8 :: ':'.toUInt8 :: bytes "nul\x7d") := by decide
  have word : ¬bytes "null" <+: bytes "nul\x7d" := by decide
  have derails : Derails (max_depth + 1) false
      ('{'.toUInt8 :: '"'.toUInt8 :: (bytes "a" ++ '"'.toUInt8 :: ':'.toUInt8 :: bytes "nul\x7d")) :=
    .object (.here (.refl _) (.plain (by decide) (by decide) .nil) (.refl _) (.refl _) (.word (w := "null") rfl word))
  rw [noThrow_jsonCView, itemOrNull_iff, text]
  exact ⟨fun h => h ⟨_, .refl _, derails⟩, fun h => h rfl⟩

end

end ArrowheadCore.Json.JsonCView
