import ArrowheadCore.Json.JsonCView

/-!
# Parsing in place

The bytes that `JsonCView` overwrites are behind its cursor, and it never goes back that far without a failure. So both
parsers see the same text, they fail on the same texts, and the names that `JsonCView` has ended are those that
`JsonView` has cut out.
-/

namespace ArrowheadCore.Json.JsonView
open Lib

mutual

/-- Whether there is a name in the tree. -/
def JsonNode.named : JsonNode → Bool
  | .array items => namedItems items
  | .object members => !members.isEmpty
  | _ => false

def JsonNode.namedItems : List JsonNode → Bool
  | [] => false
  | v :: vs => v.named || namedItems vs

end

/-- The same text from this position on. -/
structure Same (text str : List UInt8) (i : Nat) : Prop where
  length : str.length = text.length
  drop : str.drop i = text.drop i

section
variable {text str : List UInt8} {p q : JsonParser} {i k : Nat}

lemma Same.le (h : Same text str i) (hk : i ≤ k) : Same text str k := by
  refine ⟨h.length, ?_⟩
  obtain ⟨n, rfl⟩ := Nat.exists_eq_add_of_le hk
  rw [← List.drop_drop, ← List.drop_drop, h.drop]

lemma Same.char (h : Same text str i) (hk : i ≤ k) : char str k = char text k := by
  obtain ⟨n, rfl⟩ := Nat.exists_eq_add_of_le hk
  have at_ : ∀ s : List UInt8, JsonView.char s (i + n) = (s.drop i).getD n 0 := by
    intro s
    simp [JsonView.char, List.getD_eq_getElem?_getD, List.getElem?_drop]
  rw [at_, at_, h.drop]

lemma Same.skipWhile (h : Same text str p.i) (f : UInt8 → Bool) : skipWhile str f p = skipWhile text f p := by
  rw [JsonView.skipWhile, JsonView.skipWhile, h.drop]

lemma Same.forth (h : Same text str p.i) (n : Nat) : Same text str (p.forth n).i := h.le (Nat.le_add_right _ _)

lemma Same.consume_comment (h : Same text str p.i) : consume_comment str p = consume_comment text p := by
  have h1 := h.forth 1
  have h2 := h1.forth 1
  have tail : str.drop ((p.forth 1).i + 1) = text.drop ((p.forth 1).i + 1) := h2.drop
  simp only [JsonView.consume_comment, h.char (Nat.le_refl _), h1.char (Nat.le_refl _), h.length, h2.skipWhile, tail]

lemma Same.garbageLoop (h : Same text str p.i) (hp : p.i ≤ text.length) (fuel : Nat) :
    garbageLoop str fuel p = garbageLoop text fuel p := by
  induction fuel generalizing p with
  | zero => rfl
  | succ n ih =>
    rw [JsonView.garbageLoop, JsonView.garbageLoop, h.consume_comment]
    obtain ⟨m, -⟩ := consume_comment_moves hp
    cases e : JsonView.consume_comment text p with
    | mk found q =>
      rw [e] at m
      have hq : Same text str q.i := h.le m.start
      have white := skipWhile_moves isBlank m.inside
      have blank : consume_whitespace str q = consume_whitespace text q := hq.skipWhile isBlank
      have hw : Same text str (consume_whitespace text q).i := hq.le white.start
      dsimp only
      rw [blank, ih hw white.inside]

variable (strategy : ParseMethod)

lemma Same.consume_garbage (h : Same text str p.i) (hp : p.i ≤ text.length) :
    consume_garbage str strategy p = consume_garbage text strategy p := by
  have white := skipWhile_moves isBlank hp
  have blank : consume_whitespace str p = consume_whitespace text p := h.skipWhile isBlank
  have hw : Same text str (consume_whitespace text p).i := h.le white.start
  rw [JsonView.consume_garbage, JsonView.consume_garbage, blank, hw.garbageLoop white.inside, h.length]

lemma Same.get_next_token (h : Same text str p.i) (hp : p.i ≤ text.length) :
    get_next_token str strategy p = get_next_token text strategy p := by
  obtain ⟨q, e, m⟩ := consume_garbage_moves strategy hp
  have hq : Same text str q.i := h.le m.start
  rw [JsonView.get_next_token, JsonView.get_next_token, h.consume_garbage strategy hp, e]
  simp only [Option.bind_eq_bind, Option.bind_some, h.length, hq.char (Nat.le_refl _)]

lemma Same.parse_string (h : Same text str p.i) : parse_string str p = parse_string text p := by
  rw [JsonView.parse_string, JsonView.parse_string, h.drop]

lemma Same.parse_digits (h : Same text str p.i) : parse_digits str p = parse_digits text p := by
  simp only [JsonView.parse_digits, h.char (Nat.le_refl _), (h.forth 1).char (Nat.le_refl _), (h.forth 1).skipWhile]

lemma Same.parse_integer (h : Same text str p.i) : parse_integer str p = parse_integer text p := by
  rw [JsonView.parse_integer, JsonView.parse_integer, h.char (Nat.le_refl _)]
  split
  · exact (h.forth 1).parse_digits
  · exact h.parse_digits

lemma Same.parse_fraction (h : Same text str p.i) : parse_fraction str p = parse_fraction text p := by
  simp only [JsonView.parse_fraction, h.char (Nat.le_refl _), (h.forth 1).char (Nat.le_refl _), (h.forth 1).skipWhile]

lemma Same.parse_exponent (h : Same text str p.i) : parse_exponent str p = parse_exponent text p := by
  have h1 := h.forth 1
  have h2 := h1.forth 1
  simp only [JsonView.parse_exponent, h.char (Nat.le_refl _), h1.char (Nat.le_refl _)]
  split
  · split
    · rw [h2.char (Nat.le_refl _), h2.skipWhile]
    · rw [h1.char (Nat.le_refl _), h1.skipWhile]
  · rfl

lemma Same.parse_number (h : Same text str p.i) (hp : p.i ≤ text.length) : parse_number str p = parse_number text p := by
  obtain ⟨m1, -⟩ := parse_integer_moves hp
  rw [JsonView.parse_number, JsonView.parse_number, h.parse_integer]
  cases e1 : JsonView.parse_integer text p with
  | mk ok q =>
    rw [e1] at m1
    have hq : Same text str q.i := h.le m1.start
    have m2 := parse_fraction_moves m1.inside
    have hr : Same text str (JsonView.parse_fraction text q).2.i := hq.le m2.start
    dsimp only
    rw [hq.char (Nat.le_refl _), h.drop, hq.parse_fraction, hr.parse_exponent]

end

end ArrowheadCore.Json.JsonView

namespace ArrowheadCore.Json.JsonCView
open Lib JsonView

section
variable {inPlace : Bool} {strategy : ParseMethod} {text : List UInt8}

/-- From the first parser to the second one, in front of which the buffer has changed at most: the cursor is `q`, and
    the text from there on is as it was. -/
structure Follows (text : List UInt8) (p : Parser) (q : JsonParser) (p' : Parser) : Prop where
  here : p'.here = q
  same : Same text p'.str q.i
  frame : p'.str.take p.here.i = p.str.take p.here.i
  le : p.here.i ≤ q.i
  inside : q.i ≤ text.length

lemma Follows.trans {p p1 p2 : Parser} {q1 q2 : JsonParser} (h1 : Follows text p q1 p1) (h2 : Follows text p1 q2 p2) :
    Follows text p q2 p2 := by
  have le : p.here.i ≤ p1.here.i := h1.here ▸ h1.le
  refine ⟨h2.here, h2.same, ?_, Nat.le_trans le h2.le, h2.inside⟩
  have := congrArg (List.take p.here.i) h2.frame
  rw [List.take_take, List.take_take, Nat.min_eq_left le] at this
  rw [this, h1.frame]

/-- What was read in the buffer up to `i` stays as it is. -/
def Stable (p : Parser) (P : List UInt8 → Prop) : Prop := ∀ later, later.take p.here.i = p.str.take p.here.i → P later

lemma Stable.follows {p p' : Parser} {q : JsonParser} {P : List UInt8 → Prop} (hs : Stable p P) (h : Follows text p q p') :
    Stable p' P := by
  intro later hl
  apply hs
  have le : p.here.i ≤ p'.here.i := h.here ▸ h.le
  have := congrArg (List.take p.here.i) hl
  rw [List.take_take, List.take_take, Nat.min_eq_left le] at this
  rw [this, h.frame]

lemma Follows.refl {p : Parser} (hs : Same text p.str p.here.i) (hp : p.here.i ≤ text.length) : Follows text p p.here p :=
  ⟨rfl, hs, rfl, Nat.le_refl _, hp⟩

/-- The second buffer has a terminator in it if the first one has, or if a name was ended in between. -/
def Marks (inPlace : Bool) (p p' : Parser) (named : Bool) : Prop := 0 ∈ p'.str ↔ 0 ∈ p.str ∨ (inPlace = true ∧ named = true)

lemma Marks.of_str {p p' : Parser} (h : p'.str = p.str) : Marks inPlace p p' false := by simp [Marks, h]

lemma Marks.trans {p p1 p2 : Parser} {b1 b2 : Bool} (h1 : Marks inPlace p p1 b1) (h2 : Marks inPlace p1 p2 b2) :
    Marks inPlace p p2 (b1 || b2) := by
  unfold Marks at h1 h2 ⊢
  rw [h2, h1, Bool.or_eq_true, and_or_left, or_assoc]

/-- The outcomes of the two parsers belong together: the same tree, or a failure of both, which may be an exception. -/
structure Matches (inPlace : Bool) (text : List UInt8) (p : Parser) (r : JsonNode × JsonParser)
    (r' : Except Exn (Node × Parser)) : Prop where
  good : r.2.failed = false → ∃ c p', r' = .ok (c, p') ∧ Follows text p r.2 p' ∧
    (Stable p' fun str => c.read inPlace str = r.1) ∧ Marks inPlace p p' r.1.named
  bad : r.2.failed = true → r' = .error .out_of_range ∨
    ∃ c p', r' = .ok (c, p') ∧ p'.failed = true ∧ p'.here.i ≤ p'.str.length

lemma Matches.of_fail {p p' : Parser} {v : JsonNode} {q : JsonParser} {c : Node} (hq : q.failed = true)
    (hp : p'.failed = true) (hi : p'.here.i ≤ p'.str.length) : Matches inPlace text p (v, q) (.ok (c, p')) :=
  ⟨fun h => (by rw [hq] at h; cases h), fun _ => .inr ⟨c, p', rfl, hp, hi⟩⟩

lemma Matches.of_follows {p p' : Parser} {v : JsonNode} {q : JsonParser} {c : Node} (hq : q.failed = false)
    (h : Follows text p q p') (hs : Stable p' fun str => c.read inPlace str = v) (hm : Marks inPlace p p' v.named) :
    Matches inPlace text p (v, q) (.ok (c, p')) :=
  ⟨fun _ => ⟨c, p', rfl, h, hs, hm⟩, fun h => (by rw [hq] at h; cases h)⟩

/-- A first part that both have read, without names. -/
lemma Matches.after {p p1 : Parser} {q : JsonParser} {r : JsonNode × JsonParser} {r' : Except Exn (Node × Parser)}
    (h : Follows text p q p1) (hp : p1.str = p.str) (hm : Matches inPlace text p1 r r') : Matches inPlace text p r r' := by
  refine ⟨fun hr => ?_, hm.bad⟩
  obtain ⟨c, p', e, follows, stable, marks⟩ := hm.good hr
  exact ⟨c, p', e, h.trans follows, stable, (Marks.of_str hp).trans marks⟩

/-! ## Tokens and names -/

/-- Both find the same token. -/
lemma get_next_token_follows {p : Parser} (hs : Same text p.str p.here.i) (hp : p.here.i ≤ text.length) {ch : UInt8}
    {q : JsonParser} (e : JsonView.get_next_token text strategy p.here = some (ch, q)) :
    get_next_token strategy p = some (ch, { p with here := q }) ∧ Follows text p q { p with here := q } := by
  obtain ⟨c, q', e', m, -⟩ := get_next_token_moves strategy hp
  rw [e] at e'
  cases e'
  refine ⟨?_, rfl, hs.le m.start, rfl, m.start, m.inside⟩
  rw [get_next_token, hs.get_next_token strategy hp, e]
  rfl

/-- A step back from a token that was found is over the token only. -/
lemma follows_back {p : Parser} (hs : Same text p.str p.here.i) (hp : p.here.i ≤ text.length) {ch : UInt8}
    {q : JsonParser} (e : JsonView.get_next_token text strategy p.here = some (ch, q)) (hq : q.failed = false) :
    p.here.i < q.i ∧ Follows text p q.back { p with here := q.back } := by
  obtain ⟨c, q', found, -, moves⟩ := get_next_token_moves strategy hp
  rw [e] at found
  cases found
  have moves := moves (.inr hq)
  have back : p.here.i ≤ q.back.i := Nat.le_sub_of_add_le moves.start
  exact ⟨moves.start, rfl, hs.le back, rfl, back, Nat.le_trans (Nat.sub_le _ _) moves.inside⟩

/-- A failure stays. -/
lemma parse_json_stuck {p : Parser} (hf : p.failed = true) (hp : p.here.i ≤ p.str.length) (n : Nat) :
    ∃ c p', parse_json inPlace strategy n p = some (.ok (c, p')) ∧ p'.failed = true ∧ p'.here.i ≤ p'.str.length := by
  cases n with
  | zero => exact ⟨_, _, rfl, rfl, hp⟩
  | succ n =>
    obtain ⟨c, q, e, m, -⟩ := get_next_token_moves strategy hp
    have hq : q.failed = true := get_next_token_failed hf e
    refine ⟨.null, { p with here := q }, ?_, hq, m.inside⟩
    rw [parse_json, get_next_token, e]
    simp [Parser.failed, hq]

/-- The buffer behind a name: the name and one byte more, up to the cursor. -/
lemma key_read {str k : List UInt8} {c : UInt8} {start : Nat} (hc : inPlace = true → c = 0) (hk : 0 ∉ k)
    (h : (str.take (start + k.length + 1)).drop start = k ++ [c]) {later : List UInt8}
    (hl : later.take (start + k.length + 1) = str.take (start + k.length + 1)) :
    Key.read inPlace later ⟨start, k.length⟩ = k := by
  have split : later.drop start = k ++ c :: later.drop (start + k.length + 1) := by
    have le : start ≤ (later.take (start + k.length + 1)).length := by
      have := congrArg List.length h
      rw [List.length_drop, List.length_append, List.length_singleton, ← hl] at this
      omega
    nth_rewrite 1 [← List.take_append_drop (start + k.length + 1) later]
    rw [List.drop_append_of_le_length le, hl, h]
    simp
  rw [Key.read, split]
  cases inPlace with
  | true =>
    rw [hc rfl, if_pos rfl, cStr_append hk]
    simp [cStr]
  | false => simp

lemma parse_key_follows (inPlace : Bool) (h0 : 0 ∉ text) {p : Parser} (hf : p.failed = false) (hs : Same text p.str p.here.i)
    (hp : p.here.i ≤ text.length) {k : List UInt8} {q : JsonParser} (e : JsonView.parse_key text p.here = (k, q)) :
    (q.failed = false → ∃ key p', parse_key inPlace p = (key, p') ∧ Follows text p q p' ∧
      (Stable p' fun str => key.read inPlace str = k) ∧ Marks inPlace p p' true) ∧
    (q.failed = true → ∃ key p', parse_key inPlace p = (key, p') ∧ p'.failed = true ∧ p'.here.i ≤ p'.str.length) := by
  have moves := parse_key_moves hp
  obtain ⟨ok, fails⟩ := keyLoop_sound (text.drop p.here.i) p.here
  cases hk : (keyLoop (text.drop p.here.i) p.here).1 with
  | false =>
    have hq : (keyLoop (text.drop p.here.i) p.here).2 = q := by
      simp only [JsonView.parse_key, hk, Bool.false_eq_true, if_false, Prod.mk.injEq] at e
      exact e.2
    have failed := fails hk
    rw [hq] at failed
    have inside : q.i ≤ p.str.length := by
      rw [e] at moves
      exact hs.length ▸ moves.inside
    refine ⟨fun h => (by rw [failed] at h; cases h), fun _ => ?_⟩
    simp only [parse_key, hs.drop, hk, hq, Bool.false_eq_true, if_false, slice]
    cases inPlace with
    | true => exact ⟨_, _, rfl, failed, by simpa using inside⟩
    | false => exact ⟨_, _, rfl, failed, inside⟩
  | true =>
    obtain ⟨k', rest, split, hname, he⟩ := ok hk
    have cut : p.here.i + k'.length < text.length := by
      have := congrArg List.length split
      rw [List.length_drop, List.length_append, List.length_cons] at this
      omega
    have hq : q = p.here.forth (k'.length + 1) ∧ k = k' := by
      have length : (p.here.forth (k'.length + 1)).i - p.here.i - 1 = k'.length := by simp [JsonParser.forth]
      simp only [JsonView.parse_key, hk, if_true, he, length, Prod.mk.injEq] at e
      rw [split, List.take_left] at e
      exact ⟨e.2.symm, e.1.symm⟩
    obtain ⟨rfl, rfl⟩ := hq
    have good : (p.here.forth (k.length + 1)).failed = false := hf
    refine ⟨fun _ => ?_, fun h => (by rw [good] at h; cases h)⟩
    have nozero : 0 ∉ k := by
      intro hz
      exact h0 (List.mem_of_mem_drop (i := p.here.i) (by rw [split]; simp [hz]))
    have length : (p.here.forth (k.length + 1)).i - p.here.i - 1 = k.length := by simp [JsonParser.forth]
    have end_ : (p.here.forth (k.length + 1)).i = p.here.i + k.length + 1 := by simp [JsonParser.forth, Nat.add_assoc]
    have behind : (p.str.take (p.here.i + k.length + 1)).drop p.here.i = k ++ ['"'.toUInt8] := by
      rw [List.drop_take, hs.drop, split, show p.here.i + k.length + 1 - p.here.i = (k ++ ['"'.toUInt8]).length by simp; omega,
        show k ++ '"'.toUInt8 :: rest = (k ++ ['"'.toUInt8]) ++ rest by simp, List.take_left]
    simp only [parse_key, hs.drop, hk, he, if_true, length, slice]
    cases inPlace with
    | false =>
      refine ⟨_, _, rfl, ⟨rfl, hs.forth _, rfl, Nat.le_add_right _ _, ?_⟩, ?_, by simp [Marks]⟩
      · rw [end_]
        exact cut
      · intro later hl
        rw [if_neg (by simp)] at hl
        rw [end_] at hl
        exact key_read (by simp) nozero behind hl
    | true =>
      refine ⟨_, _, rfl, ⟨rfl, ⟨?_, ?_⟩, ?_, Nat.le_add_right _ _, ?_⟩, ?_, ?_⟩
      · simpa using hs.length
      · rw [end_]
        simp only [if_true]
        rw [List.drop_set_of_lt (by omega)]
        exact (hs.le (by omega)).drop
      · simp only [if_true]
        rw [List.take_set_of_le (by omega)]
      · rw [end_]
        exact cut
      · intro later hl
        simp only [if_true] at hl
        rw [end_] at hl
        refine key_read (fun _ => rfl) nozero ?_ hl
        rw [List.take_set, List.drop_set, if_neg (by omega), behind]
        simp
      · have mem : 0 ∈ p.str.set (p.here.i + k.length) 0 := List.mem_set (by rw [hs.length]; exact cut) 0
        simp [Marks, mem]

/-! ## Values -/

lemma readItems_append (str : List UInt8) (vs : List Node) (v : Node) :
    Node.readItems inPlace str (vs ++ [v]) = Node.readItems inPlace str vs ++ [v.read inPlace str] := by
  induction vs with
  | nil => rfl
  | cons w ws ih => simp [Node.readItems, ih]

lemma namedItems_append (vs : List JsonNode) (v : JsonNode) :
    JsonNode.namedItems (vs ++ [v]) = (JsonNode.namedItems vs || v.named) := by
  induction vs with
  | nil => simp [JsonNode.namedItems]
  | cons w ws ih => simp [JsonNode.namedItems, ih, Bool.or_assoc]

lemma readMembers_append (str : List UInt8) (ms : List (Key × Node)) (k : Key) (v : Node) :
    Node.readMembers inPlace str (ms ++ [(k, v)]) =
      Node.readMembers inPlace str ms ++ [(k.read inPlace str, v.read inPlace str)] := by
  induction ms with
  | nil => rfl
  | cons m ms ih => simp [Node.readMembers, ih]

/-- A token that is not there is the terminator. -/
lemma get_next_token_zero {p q : JsonParser} {c : UInt8} (e : JsonView.get_next_token text strategy p = some (c, q))
    (hq : q.failed = true) : c = 0 := by
  rw [JsonView.get_next_token, Option.bind_eq_bind, Option.bind_eq_some_iff] at e
  obtain ⟨p', -, e⟩ := e
  split at e
  · cases e
    rfl
  next hp' =>
  split at e
  · cases e
    rfl
  · cases e
    exact absurd hq hp'

/-- The two functions for the next level belong together, and a failure stays. -/
structure Simulates (inPlace : Bool) (text : List UInt8) (parse : JsonParser → Option (JsonNode × JsonParser))
    (parse' : Parser → Result) : Prop where
  sim : ∀ {p r}, p.failed = false → p.here.i ≤ text.length → Same text p.str p.here.i → parse p.here = some r →
    ∃ r', parse' p = some r' ∧ Matches inPlace text p r r'
  keeps : ∀ {p v q}, p.failed = true → parse p = some (v, q) → q.failed = true
  stuck : ∀ {p : Parser}, p.failed = true → p.here.i ≤ p.str.length →
    ∃ c p', parse' p = some (.ok (c, p')) ∧ p'.failed = true ∧ p'.here.i ≤ p'.str.length

variable {parse : JsonParser → Option (JsonNode × JsonParser)} {parse' : Parser → Result}

lemma objectLoop_matches (h0 : 0 ∉ text) (hsim : Simulates inPlace text parse parse') {fuel : Nat} {ch : UInt8}
    {data : List (List UInt8 × JsonNode)} {data' : List (Key × Node)} {p : Parser} (hp : p.here.i ≤ text.length)
    (hs : Same text p.str p.here.i) (hch : p.failed = true → ch = 0)
    (hd : Stable p fun str => Node.readMembers inPlace str data' = data) {start : Parser}
    (hstart : Follows text start p.here p) (hm : Marks inPlace start p (!data.isEmpty)) {r : JsonNode × JsonParser}
    (e : JsonView.objectLoop text strategy parse fuel ch data p.here = some r) :
    ∃ r', objectLoop inPlace strategy parse' fuel ch data' p = some r' ∧ Matches inPlace text start r r' := by
  induction fuel generalizing ch data data' p with
  | zero => cases e
  | succ n ih =>
    rw [JsonView.objectLoop] at e
    rw [objectLoop]
    simp only [Option.bind_eq_bind] at e ⊢
    by_cases hc : ch ≠ '"'.toUInt8
    · rw [if_pos hc] at e ⊢
      cases e
      exact ⟨_, rfl, .of_fail rfl rfl (hs.length ▸ hp)⟩
    rw [if_neg hc] at e ⊢
    have hf : p.failed = false := by
      by_contra hf
      rw [hch (by simpa using hf)] at hc
      exact hc (by decide)
    cases hk : JsonView.parse_key text p.here with
    | mk k q1 =>
    obtain ⟨good, bad⟩ := parse_key_follows inPlace h0 hf hs hp hk
    rw [hk] at e
    dsimp only at e
    cases hq1 : q1.failed with
    | true =>
      obtain ⟨key, p1, e1, failed, inside⟩ := bad hq1
      rw [if_pos hq1] at e
      cases e
      rw [e1]
      exact ⟨_, if_pos failed, .of_fail hq1 failed inside⟩
    | false =>
    obtain ⟨key, p1, e1, f1, stable1, marks1⟩ := good hq1
    obtain rfl := f1.here
    rw [if_neg (by simp [hq1]), Option.bind_eq_some_iff] at e
    obtain ⟨⟨c2, q2⟩, token2, e⟩ := e
    obtain ⟨token2', f2⟩ := get_next_token_follows f1.same f1.inside token2
    have hp1 : ¬p1.failed = true := by simpa [Parser.failed] using hq1
    rw [e1]
    dsimp only at e ⊢
    rw [if_neg hp1, token2', Option.bind_some]
    dsimp only
    by_cases hc2 : c2 ≠ ':'.toUInt8
    · rw [if_pos hc2] at e ⊢
      cases e
      exact ⟨_, rfl, .of_fail rfl rfl (f2.same.length ▸ f2.inside)⟩
    rw [if_neg hc2, Option.bind_eq_some_iff] at e
    rw [if_neg hc2]
    obtain ⟨⟨val, q3⟩, parsed, e⟩ := e
    have hq2 : q2.failed = false := by
      by_contra hq2
      rw [get_next_token_zero token2 (by simpa using hq2)] at hc2
      exact hc2 (by decide)
    obtain ⟨r3, parsed', m3⟩ := hsim.sim (p := { p1 with here := q2 }) hq2 f2.inside f2.same parsed
    rw [parsed', Option.bind_some]
    dsimp only at e
    cases hq3 : q3.failed with
    | true =>
      rw [if_pos hq3] at e
      cases e
      obtain rfl | ⟨c, p3, rfl, failed, inside⟩ := m3.bad hq3
      · exact ⟨_, rfl, (fun h => by rw [hq3] at h; cases h), fun _ => .inl rfl⟩
      · exact ⟨_, if_pos failed, .of_fail hq3 failed inside⟩
    | false =>
    obtain ⟨c, p3, rfl, f3, stable3, marks3⟩ := m3.good hq3
    obtain rfl := f3.here
    have f123 := (f1.trans f2).trans f3
    have hp3 : ¬p3.failed = true := by simpa [Parser.failed] using hq3
    rw [if_neg (by simp [hq3]), Option.bind_eq_some_iff] at e
    obtain ⟨⟨c4, q4⟩, token4, e⟩ := e
    obtain ⟨token4', f4⟩ := get_next_token_follows f3.same f3.inside token4
    have f1234 := f123.trans f4
    have marks4 : Marks inPlace start { p3 with here := q4 } (!(data ++ [(k, val)]).isEmpty) := by
      have marks : Marks inPlace start p3 true := by simpa using (hm.trans marks1).trans marks3
      rw [show (!(data ++ [(k, val)]).isEmpty) = true by simp]
      exact marks
    dsimp only at e ⊢
    rw [if_neg hp3, token4', Option.bind_some]
    dsimp only
    have data4 : Stable { p3 with here := q4 } fun str =>
        Node.readMembers inPlace str (data' ++ [(key, c)]) = data ++ [(k, val)] := by
      have d1 := hd.follows f1234
      have d2 := stable1.follows (f2.trans (f3.trans f4))
      have d3 := stable3.follows f4
      intro later hl
      rw [readMembers_append, d1 later hl, d2 later hl, d3 later hl]
    by_cases hc4 : c4 = '}'.toUInt8
    · rw [if_pos hc4] at e ⊢
      have hq4 : q4.failed = false := by
        by_contra hq4
        rw [get_next_token_zero token4 (by simpa using hq4)] at hc4
        exact absurd hc4 (by decide)
      cases e
      refine ⟨_, rfl, .of_follows hq4 (hstart.trans f1234) ?_ marks4⟩
      intro later hl
      rw [Node.read, data4 later hl]
    rw [if_neg hc4] at e ⊢
    by_cases hc5 : c4 ≠ ','.toUInt8
    · rw [if_pos hc5] at e ⊢
      cases e
      exact ⟨_, rfl, .of_fail rfl rfl (f4.same.length ▸ f4.inside)⟩
    rw [if_neg hc5, Option.bind_eq_some_iff] at e
    rw [if_neg hc5]
    obtain ⟨⟨c6, q6⟩, token6, e⟩ := e
    obtain ⟨token6', f6⟩ := get_next_token_follows (p := { p3 with here := q4 }) f4.same f4.inside token6
    rw [token6', Option.bind_some]
    dsimp only
    exact ih (p := { p3 with here := q6 }) f6.inside f6.same (get_next_token_zero token6) (data4.follows f6)
      (hstart.trans (f1234.trans f6)) marks4 e

/-- Behind a failure the loop over items ends with the next one. -/
lemma arrayLoop_stuck (hsim : Simulates inPlace text parse parse') {fuel : Nat} {data : List JsonNode}
    {data' : List Node} {p start : Parser} (hf : p.failed = true) (hp : p.here.i ≤ p.str.length)
    {r : JsonNode × JsonParser} (e : JsonView.arrayLoop text strategy parse fuel data p.here = some r) :
    ∃ r', arrayLoop strategy parse' fuel data' p = some r' ∧ Matches inPlace text start r r' := by
  cases fuel with
  | zero => cases e
  | succ n =>
    have hb : p.back.here.i ≤ p.str.length := Nat.le_trans (Nat.sub_le _ _) hp
    rw [JsonView.arrayLoop] at e
    rw [arrayLoop]
    simp only [Option.bind_eq_bind, Option.bind_eq_some_iff] at e
    simp only [Option.bind_eq_bind]
    obtain ⟨⟨val, q3⟩, parsed, e⟩ := e
    have hq3 : q3.failed = true := hsim.keeps (p := p.here.back) hf parsed
    obtain ⟨c, p3, parsed', failed, inside⟩ := hsim.stuck (p := p.back) hf hb
    dsimp only at e
    rw [if_pos hq3] at e
    cases e
    rw [parsed', Option.bind_some]
    exact ⟨_, if_pos failed, .of_fail hq3 failed inside⟩

lemma arrayLoop_matches (hsim : Simulates inPlace text parse parse') {fuel : Nat} {data : List JsonNode}
    {data' : List Node} {p : Parser} (hf : p.failed = false) (hp : p.here.i ≤ text.length)
    (hs : Same text p.str p.back.here.i) (hd : Stable p.back fun str => Node.readItems inPlace str data' = data)
    {start : Parser} (hstart : Follows text start p.back.here p.back) (hm : Marks inPlace start p (JsonNode.namedItems data))
    {r : JsonNode × JsonParser} (e : JsonView.arrayLoop text strategy parse fuel data p.here = some r) :
    ∃ r', arrayLoop strategy parse' fuel data' p = some r' ∧ Matches inPlace text start r r' := by
  induction fuel generalizing data data' p with
  | zero => cases e
  | succ n ih =>
    have hb : p.back.here.i ≤ text.length := Nat.le_trans (Nat.sub_le _ _) hp
    rw [JsonView.arrayLoop] at e
    rw [arrayLoop]
    simp only [Option.bind_eq_bind] at e ⊢
    rw [Option.bind_eq_some_iff] at e
    obtain ⟨⟨val, q3⟩, parsed, e⟩ := e
    obtain ⟨r3, parsed', m3⟩ := hsim.sim (p := p.back) hf hb hs parsed
    rw [parsed', Option.bind_some]
    dsimp only at e
    cases hq3 : q3.failed with
    | true =>
      rw [if_pos hq3] at e
      cases e
      obtain rfl | ⟨c, p3, rfl, failed, inside⟩ := m3.bad hq3
      · exact ⟨_, rfl, (fun h => by rw [hq3] at h; cases h), fun _ => .inl rfl⟩
      · exact ⟨_, if_pos failed, .of_fail hq3 failed inside⟩
    | false =>
    obtain ⟨c, p3, rfl, f3, stable3, marks3⟩ := m3.good hq3
    obtain rfl := f3.here
    have hp3 : ¬p3.failed = true := by simpa [Parser.failed] using hq3
    rw [if_neg (by simp [hq3]), Option.bind_eq_some_iff] at e
    obtain ⟨⟨c4, q4⟩, token4, e⟩ := e
    obtain ⟨token4', f4⟩ := get_next_token_follows f3.same f3.inside token4
    have f34 := f3.trans f4
    have marks4 : Marks inPlace start { p3 with here := q4 } (JsonNode.namedItems (data ++ [val])) := by
      rw [namedItems_append]
      exact hm.trans marks3
    dsimp only at e ⊢
    rw [if_neg hp3, token4', Option.bind_some]
    dsimp only
    have data4 : Stable { p3 with here := q4 } fun str =>
        Node.readItems inPlace str (data' ++ [c]) = data ++ [val] := by
      have d1 := hd.follows f34
      have d3 := stable3.follows f4
      intro later hl
      rw [readItems_append, d1 later hl, d3 later hl]
    by_cases hc4 : c4 = ']'.toUInt8
    · rw [if_pos hc4] at e ⊢
      have hq4 : q4.failed = false := by
        by_contra hq4
        rw [get_next_token_zero token4 (by simpa using hq4)] at hc4
        exact absurd hc4 (by decide)
      cases e
      refine ⟨_, rfl, .of_follows hq4 (hstart.trans f34) ?_ marks4⟩
      intro later hl
      rw [Node.read, data4 later hl]
    rw [if_neg hc4] at e ⊢
    by_cases hc5 : c4 ≠ ','.toUInt8
    · rw [if_pos hc5] at e ⊢
      cases e
      exact ⟨_, rfl, .of_fail rfl rfl (f4.same.length ▸ f4.inside)⟩
    rw [if_neg hc5, Option.bind_eq_some_iff] at e
    rw [if_neg hc5]
    obtain ⟨⟨c6, q6⟩, token6, e⟩ := e
    obtain ⟨token6', f6⟩ := get_next_token_follows (p := { p3 with here := q4 }) f4.same f4.inside token6
    rw [token6', Option.bind_some]
    dsimp only at e ⊢
    cases hq6 : q6.failed with
    | true => exact arrayLoop_stuck hsim (p := { p3 with here := q6 }) hq6 (f6.same.length ▸ f6.inside) e
    | false =>
    obtain ⟨-, fb⟩ := follows_back (p := { p3 with here := q4 }) f4.same f4.inside token6 hq6
    exact ih (p := { p3 with here := q6 }) hq6 f6.inside fb.same (data4.follows fb) (hstart.trans (f34.trans fb)) marks4 e

/-- A part that leaves the buffer as it is. -/
lemma Matches.of_reached {p : Parser} {q : JsonParser} (hs : Same text p.str p.here.i) {v : JsonNode} {c : Node}
    (h : Reached text p.here (v, q)) (hc : q.failed = false → ∀ str, c.read inPlace str = v) (hv : v.named = false) :
    Matches inPlace text p (v, q) (.ok (c, { p with here := q })) := by
  cases hq : q.failed with
  | true => exact .of_fail hq hq (hs.length ▸ h.1)
  | false =>
    have moves := h.2 hq
    have le : p.here.i ≤ q.i := Nat.le_of_succ_le moves.start
    refine .of_follows hq ⟨rfl, hs.le le, rfl, le, moves.inside⟩ (fun str _ => hc hq str) ?_
    rw [hv]
    exact .of_str rfl

lemma parse_number_cases (text : List UInt8) (q : JsonParser) : (JsonView.parse_number text q).1 = .null ∨
    (∃ z, (JsonView.parse_number text q).1 = .int z) ∨ ∃ literal, (JsonView.parse_number text q).1 = .double literal := by
  simp only [JsonView.parse_number]
  split
  · exact .inl rfl
  split
  · exact .inr (.inl ⟨_, rfl⟩)
  split
  · exact .inl rfl
  split
  · exact .inl rfl
  · exact .inr (.inr ⟨_, rfl⟩)

lemma parse_number_matches {p : Parser} (hp : p.here.i ≤ text.length) (hs : Same text p.str p.here.i) :
    Matches inPlace text p (JsonView.parse_number text p.here) (.ok (parse_number p)) := by
  have reached := parse_number_reached hp
  have cases_ := parse_number_cases text p.here
  rw [parse_number, hs.parse_number hp]
  cases e : JsonView.parse_number text p.here with
  | mk v q =>
  rw [e] at reached cases_
  obtain h | ⟨z, h⟩ | ⟨literal, h⟩ := cases_
  all_goals
    dsimp only at h
    subst h
    exact .of_reached hs reached (fun _ _ => rfl) rfl

lemma expect_matches {p : Parser} {word : String} {res : JsonNode} {res' : Node} (hw : word ≠ "")
    (hp : p.here.i ≤ text.length) (hs : Same text p.str p.back.here.i) (hres : ∀ str, res'.read inPlace str = res)
    (hv : res.named = false) : Matches inPlace text p.back (JsonView.expect text word res p.here) (expect word res' p) := by
  have reached := expect_reached res hp hw
  have drop : p.back.str.drop p.back.here.i = text.drop p.here.back.i := hs.drop
  rw [JsonView.expect] at reached ⊢
  simp only [expect, drop]
  by_cases h : (bytes word).isPrefixOf (text.drop p.here.back.i)
  · rw [if_pos h] at reached
    rw [if_pos h, if_pos h]
    exact .of_reached hs reached (fun _ => hres) hv
  rw [if_neg h, if_neg h]
  split
  · exact ⟨(fun h => by cases h), fun _ => .inl rfl⟩
  · exact .of_fail rfl rfl (hs.length ▸ Nat.le_trans (Nat.sub_le _ _) hp)

lemma parse_value_matches (h0 : 0 ∉ text) (hsim : Simulates inPlace text parse parse') {ch : UInt8} {p : Parser}
    (hp : p.here.i ≤ text.length) (hi : 0 < p.here.i) (hs : Same text p.str p.back.here.i)
    {r : JsonNode × JsonParser} (e : JsonView.parse_value text strategy parse ch p.here = some r) :
    ∃ r', parse_value inPlace strategy parse' ch p = some r' ∧ Matches inPlace text p.back r r' := by
  have hs' : Same text p.str p.here.i := hs.le (Nat.sub_le _ _)
  have hb : p.back.here.i ≤ text.length := Nat.le_trans (Nat.sub_le _ _) hp
  have step : Follows text p.back p.here p := ⟨rfl, hs', rfl, Nat.sub_le _ _, hp⟩
  rw [JsonView.parse_value] at e
  rw [parse_value]
  simp only [Option.bind_eq_bind] at e ⊢
  by_cases hn : ch = '-'.toUInt8 ∨ isDigit ch
  · rw [if_pos hn] at e ⊢
    cases e
    exact ⟨_, rfl, parse_number_matches (p := p.back) hb hs⟩
  rw [if_neg hn] at e ⊢
  by_cases ht : ch = 't'.toUInt8
  · rw [if_pos ht] at e ⊢
    cases e
    exact ⟨_, rfl, expect_matches (by decide) hp hs (fun _ => rfl) rfl⟩
  rw [if_neg ht] at e ⊢
  by_cases hfalse : ch = 'f'.toUInt8
  · rw [if_pos hfalse] at e ⊢
    cases e
    exact ⟨_, rfl, expect_matches (by decide) hp hs (fun _ => rfl) rfl⟩
  rw [if_neg hfalse] at e ⊢
  by_cases hnull : ch = 'n'.toUInt8
  · rw [if_pos hnull] at e ⊢
    cases e
    exact ⟨_, rfl, expect_matches (by decide) hp hs (fun _ => rfl) rfl⟩
  rw [if_neg hnull] at e ⊢
  by_cases hq : ch = '"'.toUInt8
  · rw [if_pos hq] at e ⊢
    cases e
    simp only [parse_string, hs'.parse_string]
    have moves := parse_string_moves hp
    have reached : Reached text p.back.here (.string (JsonView.parse_string text p.here).1, (JsonView.parse_string text p.here).2) := by
      refine ⟨moves.inside, fun _ => ⟨?_, moves.inside⟩⟩
      have back : p.back.here.i + 1 = p.here.i := Nat.sub_add_cancel hi
      rw [back]
      exact moves.start
    exact ⟨_, rfl, .of_reached (p := p.back) hs reached (fun _ _ => rfl) rfl⟩
  rw [if_neg hq] at e ⊢
  by_cases ho : ch = '{'.toUInt8
  · rw [if_pos ho] at e ⊢
    rw [Option.bind_eq_some_iff] at e
    obtain ⟨⟨c, q⟩, token, e⟩ := e
    obtain ⟨token', f⟩ := get_next_token_follows hs' hp token
    rw [token', Option.bind_some]
    dsimp only at e ⊢
    by_cases hc : c = '}'.toUInt8
    · rw [if_pos hc] at e ⊢
      cases e
      refine ⟨_, rfl, .of_follows ?_ (step.trans f) (fun _ _ => rfl) (.of_str rfl)⟩
      by_contra hq
      rw [get_next_token_zero token (by simpa using hq)] at hc
      exact absurd hc (by decide)
    · rw [if_neg hc] at e ⊢
      rw [hs.length]
      have empty : Stable { p with here := q } fun str => Node.readMembers inPlace str [] = [] := fun _ _ => rfl
      exact objectLoop_matches h0 hsim f.inside f.same (get_next_token_zero token) empty (step.trans f) (.of_str rfl) e
  rw [if_neg ho] at e ⊢
  by_cases ha : ch = '['.toUInt8
  · rw [if_pos ha] at e ⊢
    rw [Option.bind_eq_some_iff] at e
    obtain ⟨⟨c, q⟩, token, e⟩ := e
    obtain ⟨token', f⟩ := get_next_token_follows hs' hp token
    rw [token', Option.bind_some]
    dsimp only at e ⊢
    by_cases hc : c = ']'.toUInt8
    · rw [if_pos hc] at e ⊢
      cases e
      refine ⟨_, rfl, .of_follows ?_ (step.trans f) (fun _ _ => rfl) (.of_str rfl)⟩
      by_contra hq
      rw [get_next_token_zero token (by simpa using hq)] at hc
      exact absurd hc (by decide)
    · rw [if_neg hc] at e ⊢
      rw [hs.length]
      cases hq : q.failed with
      | true => exact arrayLoop_stuck hsim (p := { p with here := q }) hq (f.same.length ▸ f.inside) e
      | false =>
        obtain ⟨-, back⟩ := follows_back hs' hp token hq
        have empty : Stable { p with here := q.back } fun str => Node.readItems inPlace str [] = [] := fun _ _ => rfl
        exact arrayLoop_matches hsim (p := { p with here := q }) hq f.inside back.same empty (step.trans back) (.of_str rfl) e
  rw [if_neg ha] at e ⊢
  cases e
  exact ⟨_, rfl, .of_fail rfl rfl (hs.length ▸ hp)⟩

theorem parse_json_simulates (inPlace : Bool) (h0 : 0 ∉ text) (n : Nat) :
    Simulates inPlace text (JsonView.parse_json text strategy n) (parse_json inPlace strategy n) := by
  refine ⟨?_, parse_json_failed, fun hf hp => parse_json_stuck hf hp n⟩
  induction n with
  | zero =>
    intro p r hf hp hs e
    cases e
    exact ⟨_, rfl, .of_fail rfl rfl (hs.length ▸ hp)⟩
  | succ n ih =>
    intro p r hf hp hs e
    rw [JsonView.parse_json, Option.bind_eq_bind, Option.bind_eq_some_iff] at e
    obtain ⟨⟨c, q⟩, token, e⟩ := e
    obtain ⟨token', f⟩ := get_next_token_follows hs hp token
    rw [parse_json, token', Option.bind_eq_bind, Option.bind_some]
    dsimp only at e ⊢
    by_cases hq : q.failed = true
    · rw [if_pos hq] at e
      cases e
      exact ⟨_, if_pos hq, .of_fail hq hq (f.same.length ▸ f.inside)⟩
    · rw [if_neg hq] at e
      rw [if_neg (show ¬Parser.failed { p with here := q } = true from hq)]
      have hq : q.failed = false := by simpa using hq
      have next : Simulates inPlace text (JsonView.parse_json text strategy n) (parse_json inPlace strategy n) :=
        ⟨ih, parse_json_failed, fun hf hp => parse_json_stuck hf hp n⟩
      obtain ⟨pos, back⟩ := follows_back hs hp token hq
      obtain ⟨r', e', m⟩ := parse_value_matches h0 next (p := { p with here := q }) f.inside
        (Nat.zero_lt_of_lt pos) back.same e
      exact ⟨r', e', m.after back rfl⟩

/-! ## Texts -/

lemma failed_iff {p : JsonParser} : p.failed = true ↔ ∃ what, p.err = some what := by
  rw [JsonParser.failed, Option.isSome_iff_exists]

/-- The last part of a parse behind a failure. -/
lemma parse_throw_on_error_fails {c : Node} {p : Parser}
    (e : parse_json inPlace strategy (max_depth + 1) { str := text } = some (.ok (c, p))) (hp : p.failed = true)
    (hi : p.here.i ≤ p.str.length) :
    ∃ what, parse_throw_on_error inPlace strategy text = some (.error (.runtime_error what)) := by
  obtain ⟨q, garbage, -⟩ := consume_garbage_moves strategy hi
  obtain ⟨what, hw⟩ := failed_iff.mp (consume_garbage_failed hp garbage)
  refine ⟨what, ?_⟩
  simp only [parse_throw_on_error, JsonCView.parse, e, Option.bind_eq_bind, Option.bind_some, garbage, hw]

/-- A text that `JsonView` takes, and the tree is the same. -/
lemma parse_throw_on_error_ok (inPlace : Bool) (h0 : 0 ∉ text) {v : JsonNode}
    (h : JsonView.parse_throw_on_error text strategy = some (.ok v)) :
    ∃ c buffer, parse_throw_on_error inPlace strategy text = some (.ok (c, buffer)) ∧ c.read inPlace buffer = v := by
  rw [JsonView.parse_throw_on_error, Option.bind_eq_bind, Option.bind_eq_some_iff] at h
  obtain ⟨⟨v', q'⟩, e, h⟩ := h
  rw [JsonView.parse, Option.bind_eq_bind, Option.bind_eq_some_iff] at e
  obtain ⟨⟨res, q⟩, parsed, e⟩ := e
  rw [Option.bind_eq_bind, Option.bind_eq_some_iff] at e
  obtain ⟨_, garbage, e⟩ := e
  cases e
  dsimp only at h
  split at h
  · cases h
  next good =>
  split at h
  · cases h
  next eof =>
  cases h
  have hq : q.failed = false := by
    by_contra hq
    obtain ⟨what, hw⟩ := failed_iff.mp (consume_garbage_failed (by simpa using hq) garbage)
    rw [good] at hw
    cases hw
  obtain ⟨r', e', m⟩ := (parse_json_simulates inPlace h0 (max_depth + 1)).sim (p := { str := text })
    rfl (Nat.zero_le _) ⟨rfl, rfl⟩ parsed
  obtain ⟨c, p', rfl, f, stable, -⟩ := m.good hq
  refine ⟨c, p'.str, ?_, stable p'.str rfl⟩
  have garbage' : consume_garbage p'.str strategy p'.here = some q' := by
    rw [f.here, f.same.consume_garbage strategy f.inside, garbage]
  simp only [parse_throw_on_error, JsonCView.parse, e', Option.bind_eq_bind, Option.bind_some, garbage', good,
    f.same.length, eof, if_false]

/-- A text that it rejects. -/
lemma parse_throw_on_error_error (inPlace : Bool) (h0 : 0 ∉ text) {what : List UInt8}
    (h : JsonView.parse_throw_on_error text strategy = some (.error what)) :
    ∃ e, parse_throw_on_error inPlace strategy text = some (.error e) := by
  obtain ⟨⟨res, q⟩, parsed, inside, -⟩ := parse_json_reached (p := {}) strategy (max_depth + 1) (Nat.zero_le text.length)
  obtain ⟨q', garbage, -⟩ := consume_garbage_moves strategy inside
  obtain ⟨r', e', m⟩ := (parse_json_simulates inPlace h0 (max_depth + 1)).sim (p := { str := text })
    rfl (Nat.zero_le _) ⟨rfl, rfl⟩ parsed
  cases hq : q.failed with
  | true =>
    obtain rfl | ⟨c, p', rfl, failed, inside⟩ := m.bad hq
    · refine ⟨.out_of_range, ?_⟩
      simp only [parse_throw_on_error, JsonCView.parse, e', Option.bind_eq_bind, Option.bind_some]
    · obtain ⟨what, e⟩ := parse_throw_on_error_fails e' failed inside
      exact ⟨_, e⟩
  | false =>
    obtain ⟨c, p', rfl, f, -⟩ := m.good hq
    have garbage' : consume_garbage p'.str strategy p'.here = some q' := by
      rw [f.here, f.same.consume_garbage strategy f.inside, garbage]
    simp only [JsonView.parse_throw_on_error, JsonView.parse, parsed, garbage, Option.bind_eq_bind, Option.bind_some] at h
    simp only [parse_throw_on_error, JsonCView.parse, e', Option.bind_eq_bind, Option.bind_some, garbage']
    split
    · exact ⟨_, rfl⟩
    next good =>
    rw [good] at h
    dsimp only at h
    split at h
    next trailing =>
      rw [f.same.length, if_pos trailing]
      exact ⟨_, rfl⟩
    next => cases h

/-- The two parsers take the same texts and reject the others with an exception, and what they make of a text has the
    same names and values and is dumped as the same text. -/
theorem parses_alike (h0 : 0 ∉ text) (strategy : ParseMethod) (format : List UInt8 → List UInt8) :
    ((∃ v, JsonView.parse_throw_on_error text strategy = some (.ok v)) ↔
      ∃ c buffer, parse_throw_on_error true strategy text = some (.ok (c, buffer))) ∧
    ((¬∃ v, JsonView.parse_throw_on_error text strategy = some (.ok v)) →
      (∃ what, JsonView.parse_throw_on_error text strategy = some (.error what)) ∧
      ∃ e, parse_throw_on_error true strategy text = some (.error e)) ∧
    ∀ v c buffer, JsonView.parse_throw_on_error text strategy = some (.ok v) →
      parse_throw_on_error true strategy text = some (.ok (c, buffer)) →
      c.read true buffer = v ∧ dump true buffer format c = JsonView.dump format v := by
  obtain ⟨r, total⟩ := parse_throw_on_error_isSome strategy text
  cases r with
  | error what =>
    obtain ⟨e, he⟩ := parse_throw_on_error_error true h0 total
    simp [total, he]
  | ok v =>
    obtain ⟨c, buffer, hc, read⟩ := parse_throw_on_error_ok true h0 total
    simp only [total, hc, Option.some.injEq, Except.ok.injEq, Prod.mk.injEq]
    refine ⟨⟨fun _ => ⟨c, buffer, rfl, rfl⟩, fun _ => ⟨v, rfl⟩⟩, fun h => absurd ⟨v, rfl⟩ h, ?_⟩
    rintro _ _ _ rfl ⟨rfl, rfl⟩
    exact ⟨read, by rw [dump_read, read]⟩

theorem parses_alike_object : ∃ c buffer,
    parse_throw_on_error true .STANDARD (bytes "\x7b\"a\":[1,true]\x7d") = some (.ok (c, buffer)) := by
  apply (parses_alike (by decide) .STANDARD id).1.mp
  have accepted : (JsonView.parse_throw_on_error (bytes "\x7b\"a\":[1,true]\x7d") .STANDARD).any Except.isOk = true := by
    decide +kernel
  obtain ⟨r, e⟩ := parse_throw_on_error_isSome .STANDARD (bytes "\x7b\"a\":[1,true]\x7d")
  rw [e] at accepted
  cases r with
  | error => cases accepted
  | ok v => exact ⟨v, e⟩

/-- What is dumped is a C string, and it is read as the tree that was dumped. -/
theorem dump_roundtrip (h0 : 0 ∉ text) (strategy : ParseMethod) (format : List UInt8 → List UInt8) :
    (∀ v, JsonView.parse_throw_on_error text strategy = some (.ok v) → NoDouble v → ∀ method,
      JsonView.parse_throw_on_error (cStr (JsonView.dump format v)) method = some (.ok v)) ∧
    ∀ c buffer, parse_throw_on_error true strategy text = some (.ok (c, buffer)) → NoDouble (c.read true buffer) →
      ∀ method, ∃ c' buffer', parse_throw_on_error true method (cStr (dump true buffer format c)) = some (.ok (c', buffer')) ∧
        c'.read true buffer' = c.read true buffer := by
  have zero : ∀ {v}, JsonView.parse_throw_on_error text strategy = some (.ok v) → NoDouble v → 0 ∉ JsonView.dump format v := by
    intro v hv hn
    obtain ⟨s1, s2, ⟨w, rfl, -⟩, value, -⟩ := document_of_parse hv
    exact zero_dump format value (fun h => h0 (List.mem_append_right _ h)) hn
  refine ⟨fun v hv hn method => ?_, fun c buffer hc hn method => ?_⟩
  · rw [cStr_eq (zero hv hn)]
    exact parse_dump format hv hn method
  · obtain ⟨r, total⟩ := parse_throw_on_error_isSome strategy text
    cases r with
    | error what =>
      obtain ⟨e, he⟩ := parse_throw_on_error_error true h0 total
      rw [he] at hc
      cases hc
    | ok v =>
      obtain ⟨c', buffer', hc', read⟩ := parse_throw_on_error_ok true h0 total
      rw [hc] at hc'
      cases hc'
      rw [read] at hn ⊢
      rw [dump_read, read, cStr_eq (zero total hn)]
      exact parse_throw_on_error_ok true (zero total hn) (parse_dump format total hn method)

theorem dump_roundtrip_escape :
    JsonView.parse_throw_on_error (cStr (JsonView.dump id (.array [.string [0]]))) .STANDARD = some (.ok (.array [.string [0]])) := by
  have split : bytes "[\"\\u0000\"]" = '['.toUInt8 :: '"'.toUInt8 :: (bytes "\\u0000" ++ '"'.toUInt8 :: [']'.toUInt8]) := by
    decide
  have zero : 0 ∉ bytes "[\"\\u0000\"]" := by decide
  have spells : Grammar.Spells (-1) (bytes "\\u0000") [0] :=
    .hex (a := '0'.toUInt8) (b := '0'.toUInt8) (c := '0'.toUInt8) (d := '0'.toUInt8) (by decide) (.nil 0)
  have value : Grammar.Value Grammar.jsonView 2 (bytes "[\"\\u0000\"]") (.array [.string [0]]) [] := by
    rw [split]
    exact .array (.last (.refl _) (.string [']'.toUInt8] spells) (.refl _))
  have parsed := parse_of_document ⟨_, [], .refl _, value.le (by decide), .refl _⟩ .STANDARD
  exact (dump_roundtrip zero .STANDARD id).1 _ parsed (by simp [NoDouble, NoDoubles]) .STANDARD

end

end ArrowheadCore.Json.JsonCView
