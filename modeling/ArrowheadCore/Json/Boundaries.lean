import ArrowheadCore.Lib.Traced
import ArrowheadCore.Json.Alike

/-!
# The cursor at the boundaries of calls

The functions of the parser that have the cursor, with notes: of the parser when a function is called and when it returns, and
of every step of the cursor back. `fail` is not among them, as it leaves the cursor, and neither are the functions without
the parser (`esc`, `slice`, `encode_utf8`). Without the notes it is the parser of `JsonCView`, and with `slice` that does not
write that of `JsonView`.
-/

namespace ArrowheadCore.Json.JsonCView
open Lib JsonView

/-- The functions that have the cursor; `flush` is `consume_garbage`. -/
inductive Fn where
  | consume_whitespace | consume_comment | consume_garbage | get_next_token | parse_key | parse_string | parse_number | expect
  | parse_json | parse
deriving DecidableEq, Repr

inductive Event where
  /-- a call -/
  | call (f : Fn) (p : Parser)
  /-- the return from a call at `p` -/
  | ret (f : Fn) (p q : Parser)
  /-- `i--` -/
  | back (p : Parser)

namespace Steps

abbrev M := Traced Exn Event

section
variable {α : Type}

/-- A call, of which the parser is noted at its beginning and at its end. -/
def call (f : Fn) (p : Parser) (body : M (α × Parser)) : M (α × Parser) := do
  Traced.note (.call f p)
  let r ← body
  Traced.note (.ret f p r.2)
  return r

/-- A function that calls none of the others. -/
def leaf (f : Fn) (p : Parser) (r : α × Parser) : M (α × Parser) := call f p (pure r)

end

def back (p : Parser) : M Parser := do
  Traced.note (.back p)
  return p.back

def consume_whitespace (p : Parser) : M (Unit × Parser) :=
  leaf .consume_whitespace p ((), { p with here := JsonView.consume_whitespace p.str p.here })

def consume_comment (p : Parser) : M (Bool × Parser) :=
  let (comment_found, q) := JsonView.consume_comment p.str p.here
  leaf .consume_comment p (comment_found, { p with here := q })

def garbageLoop : Nat → Parser → M (Unit × Parser)
  | 0, _ => Traced.diverge
  | fuel + 1, p => do
    let (comment_found, p) ← consume_comment p
    if p.failed then return ((), p)
    else
      let (_, p) ← consume_whitespace p
      if comment_found then garbageLoop fuel p else return ((), p)

section
variable (inPlace : Bool) (strategy : ParseMethod)

def consume_garbage (p : Parser) : M (Unit × Parser) :=
  call .consume_garbage p do
    let (_, p) ← consume_whitespace p
    if strategy = .COMMENTS then garbageLoop (p.str.length + 1) p else return ((), p)

def get_next_token (p : Parser) : M (UInt8 × Parser) :=
  call .get_next_token p do
    let (_, p) ← consume_garbage strategy p
    if p.failed then return (0, p)
    else if p.here.i = p.str.length then return (0, p.fail (bytes "Unexpected end of input."))
    else return (char p.str p.here.i, p.forth 1)

def parse_key (p : Parser) : M (Key × Parser) := leaf .parse_key p (JsonCView.parse_key inPlace p)

def parse_string (p : Parser) : M (List UInt8 × Parser) := leaf .parse_string p (JsonCView.parse_string p)

def parse_number (p : Parser) : M (Node × Parser) := leaf .parse_number p (JsonCView.parse_number p)

def expect (expected : String) (res : Node) (p : Parser) : M (Node × Parser) :=
  call .expect p do
    let _ ← back p
    Traced.silent (JsonCView.expect expected res p)

/-- The loop over the members of an object. -/
def objectLoop (parse : Parser → M (Node × Parser)) : Nat → UInt8 → List (Key × Node) → Parser → M (Node × Parser)
  | 0, _, _, _ => Traced.diverge
  | fuel + 1, ch, data, p => do
    if ch ≠ '"'.toUInt8 then
      return (.null, p.fail (bytes "Expected '\"' in object, got " ++ (esc ch ++ bytes ".")))
    else
      let (key, p) ← parse_key inPlace p
      if p.failed then return (.null, p)
      else
        let (ch, p) ← get_next_token strategy p
        if ch ≠ ':'.toUInt8 then
          return (.null, p.fail (bytes "Expected ':' in object, got " ++ (esc ch ++ bytes ".")))
        else
          let (val, p) ← parse p
          if p.failed then return (.null, p)
          else
            let data := data ++ [(key, val)]
            let (ch, p) ← get_next_token strategy p
            if ch = '}'.toUInt8 then return (.object data, p)
            else if ch ≠ ','.toUInt8 then
              return (.null, p.fail (bytes "Expected ',' in object, got " ++ (esc ch ++ bytes ".")))
            else
              let (ch, p) ← get_next_token strategy p
              objectLoop parse fuel ch data p

/-- The loop over the items of an array. -/
def arrayLoop (parse : Parser → M (Node × Parser)) : Nat → List Node → Parser → M (Node × Parser)
  | 0, _, _ => Traced.diverge
  | fuel + 1, data, p => do
    let p ← back p
    let (val, p) ← parse p
    let data := data ++ [val]
    if p.failed then return (.null, p)
    else
      let (ch, p) ← get_next_token strategy p
      if ch = ']'.toUInt8 then return (.array data, p)
      else if ch ≠ ','.toUInt8 then
        return (.null, p.fail (bytes "Expected ',' in list, got " ++ (esc ch ++ bytes ".")))
      else
        let (_, p) ← get_next_token strategy p
        arrayLoop parse fuel data p

/-- The part of `parse_json` behind the first token. -/
def parse_value (parse : Parser → M (Node × Parser)) (ch : UInt8) (p : Parser) : M (Node × Parser) := do
  if ch = '-'.toUInt8 ∨ isDigit ch then
    let p ← back p
    parse_number p
  else if ch = 't'.toUInt8 then expect "true" (.bool true) p
  else if ch = 'f'.toUInt8 then expect "false" (.bool false) p
  else if ch = 'n'.toUInt8 then expect "null" .null p
  else if ch = '"'.toUInt8 then
    let (s, p) ← parse_string p
    return (.string s, p)
  else if ch = '{'.toUInt8 then
    let (ch, p) ← get_next_token strategy p
    if ch = '}'.toUInt8 then return (.object [], p)
    else objectLoop inPlace strategy parse (p.str.length + 1) ch [] p
  else if ch = '['.toUInt8 then
    let (ch, p) ← get_next_token strategy p
    if ch = ']'.toUInt8 then return (.array [], p)
    else arrayLoop strategy parse (p.str.length + 1) [] p
  else return (.null, p.fail (bytes "Expected value, got " ++ (esc ch ++ bytes ".")))

/-- C++ `parse_json(depth)` with `max_depth + 1 - depth` levels left -/
def parse_json : Nat → Parser → M (Node × Parser)
  | 0, p => call .parse_json p (return (.null, p.fail (bytes "Exceeded maximum nesting depth.")))
  | levels + 1, p =>
    call .parse_json p do
      let (ch, p) ← get_next_token strategy p
      if p.failed then return (.null, p) else parse_value inPlace strategy (parse_json levels) ch p

/-- C++ `JsonParser::parse` -/
def parse (text : List UInt8) : M (Node × Parser) :=
  call .parse { str := text } do
    let (res, p) ← parse_json inPlace strategy (max_depth + 1) { str := text }
    let (_, p) ← consume_garbage strategy p
    return (res, p)

end

/-! ## Without the notes -/

section
variable {α : Type} {inPlace : Bool} {strategy : ParseMethod}

@[simp] lemma outcome_call (f : Fn) (p : Parser) (body : M (α × Parser)) : (call f p body).outcome = body.outcome := by
  simp only [call, Traced.outcome_bind, Traced.outcome_note, Traced.outcome_pure, Option.bind_some]
  match body.outcome with
  | none => rfl
  | some (.ok r) => rfl
  | some (.error e) => rfl

@[simp] lemma outcome_leaf (f : Fn) (p : Parser) (r : α × Parser) : (leaf f p r).outcome = some (.ok r) := by simp [leaf]

@[simp] lemma outcome_back (p : Parser) : (back p).outcome = some (.ok p.back) := by simp [back]

lemma outcome_garbageLoop (fuel : Nat) (p : Parser) : (garbageLoop fuel p).outcome =
    (JsonView.garbageLoop p.str fuel p.here).map fun q => .ok ((), { p with here := q }) := by
  induction fuel generalizing p with
  | zero => rfl
  | succ n ih =>
    rw [garbageLoop, JsonView.garbageLoop]
    simp only [Traced.outcome_bind, consume_comment, outcome_leaf, Option.bind_some, Traced.outcome_ite, Traced.outcome_pure,
      consume_whitespace, ih]
    by_cases failed : (JsonView.consume_comment p.str p.here).2.failed = true
    · rw [if_pos failed]
      exact if_pos failed
    · rw [if_neg failed]
      refine (if_neg failed).trans ?_
      split <;> rfl

lemma outcome_consume_garbage (p : Parser) : (consume_garbage strategy p).outcome =
    (JsonView.consume_garbage p.str strategy p.here).map fun q => .ok ((), { p with here := q }) := by
  rw [consume_garbage, JsonView.consume_garbage]
  simp only [outcome_call, Traced.outcome_bind, consume_whitespace, outcome_leaf, Option.bind_some, Traced.outcome_ite,
    Traced.outcome_pure, outcome_garbageLoop]
  split <;> rfl

lemma outcome_get_next_token (p : Parser) :
    (get_next_token strategy p).outcome = (JsonCView.get_next_token strategy p).map .ok := by
  rw [get_next_token, JsonCView.get_next_token, JsonView.get_next_token]
  simp only [outcome_call, Traced.outcome_bind, outcome_consume_garbage]
  cases JsonView.consume_garbage p.str strategy p.here with
  | none => rfl
  | some q =>
    simp only [Option.map_some, Option.bind_some, Option.bind_eq_bind, Traced.outcome_ite, Traced.outcome_pure]
    by_cases failed : q.failed = true
    · rw [if_pos failed]
      exact if_pos failed
    · rw [if_neg failed]
      refine (if_neg failed).trans ?_
      split <;> rfl

/-- A token, and what comes behind it. -/
lemma outcome_token (p : Parser) (f : UInt8 × Parser → M (Node × Parser)) :
    (get_next_token strategy p >>= f).outcome = (JsonCView.get_next_token strategy p).bind fun r => (f r).outcome := by
  rw [Traced.outcome_bind, outcome_get_next_token, Option.bind_map]
  rfl

variable {next : Parser → M (Node × Parser)} {next' : Parser → Result}

lemma outcome_objectLoop (h : ∀ p, (next p).outcome = next' p) (fuel : Nat) (ch : UInt8) (data : List (Key × Node)) (p : Parser) :
    (objectLoop inPlace strategy next fuel ch data p).outcome = JsonCView.objectLoop inPlace strategy next' fuel ch data p := by
  induction fuel generalizing ch data p with
  | zero => rfl
  | succ n ih =>
    rw [objectLoop, JsonCView.objectLoop]
    simp only [Traced.outcome_bind, outcome_get_next_token, outcome_leaf, parse_key, Traced.outcome_ite, Traced.outcome_pure, h, ih,
      Option.bind_eq_bind, Option.bind_some, Option.bind_map, Function.comp_def]
    refine ite_congr rfl (fun _ => rfl) fun _ => ite_congr rfl (fun _ => rfl) fun _ => congrArg _ (funext fun token => ?_)
    refine ite_congr rfl (fun _ => rfl) fun _ => congrArg _ (funext fun r => ?_)
    cases r <;> rfl

lemma outcome_arrayLoop (h : ∀ p, (next p).outcome = next' p) (fuel : Nat) (data : List Node) (p : Parser) :
    (arrayLoop strategy next fuel data p).outcome = JsonCView.arrayLoop strategy next' fuel data p := by
  induction fuel generalizing data p with
  | zero => rfl
  | succ n ih =>
    rw [arrayLoop, JsonCView.arrayLoop]
    simp only [Traced.outcome_bind, outcome_get_next_token, outcome_back, Traced.outcome_ite, Traced.outcome_pure, h, ih,
      Option.bind_eq_bind, Option.bind_some, Option.bind_map, Function.comp_def]
    congr 1
    funext r
    cases r <;> rfl

lemma outcome_expect (expected : String) (res : Node) (p : Parser) :
    (expect expected res p).outcome = some (JsonCView.expect expected res p) := by
  rw [expect, outcome_call, Traced.outcome_bind, outcome_back]
  rfl

lemma outcome_parse_value (h : ∀ p, (next p).outcome = next' p) (ch : UInt8) (p : Parser) :
    (parse_value inPlace strategy next ch p).outcome = JsonCView.parse_value inPlace strategy next' ch p := by
  rw [parse_value, JsonCView.parse_value]
  simp only [Traced.outcome_ite, Traced.outcome_bind, Traced.outcome_pure, outcome_back, parse_number, parse_string, outcome_leaf,
    outcome_expect, outcome_get_next_token, outcome_objectLoop h, outcome_arrayLoop h, Option.bind_eq_bind, Option.bind_some,
    Option.bind_map, Function.comp_def]

lemma outcome_parse_json (levels : Nat) (p : Parser) :
    (parse_json inPlace strategy levels p).outcome = JsonCView.parse_json inPlace strategy levels p := by
  induction levels generalizing p with
  | zero => rfl
  | succ n ih =>
    rw [parse_json, JsonCView.parse_json]
    simp only [outcome_call, Traced.outcome_bind, outcome_get_next_token, Traced.outcome_ite, Traced.outcome_pure,
      outcome_parse_value ih, Option.bind_eq_bind, Option.bind_map, Function.comp_def]

/-- Without the notes it is the parser of `JsonCView`. -/
lemma outcome_parse (text : List UInt8) : (parse inPlace strategy text).outcome = JsonCView.parse inPlace strategy text := by
  rw [parse, JsonCView.parse]
  simp only [outcome_call, Traced.outcome_bind, outcome_parse_json, outcome_consume_garbage, Traced.outcome_pure,
    Option.bind_eq_bind, Option.bind_map, Function.comp_def]
  congr 1
  funext r
  cases r <;> rfl

end

/-! ## Steps in the text -/

/-- A buffer as long as the text, and the cursor in it. -/
structure Inside (text : List UInt8) (p : Parser) : Prop where
  length : p.str.length = text.length
  here : p.here.i ≤ text.length

end Steps

/-- The cursor is in the text where a function is called and where it returns, a value that is read is at least one byte, and
    there is a byte to step back over. -/
def Event.Sound (text : List UInt8) : Event → Prop
  | .call _ p => Steps.Inside text p
  | .ret f p q => Steps.Inside text q ∧ (f = .parse_json → q.failed = false → p.here.i < q.here.i)
  | .back p => 0 < p.here.i

namespace Steps

/-- At least `n` bytes on from `p` to `q`. -/
structure Leads (text : List UInt8) (n : Nat) (p q : Parser) : Prop where
  start : p.here.i + n ≤ q.here.i
  inside : Inside text q

/-- A result in the text, which is behind the start unless the parser failed. -/
structure Reaches (text : List UInt8) (p q : Parser) : Prop where
  inside : Inside text q
  start : q.failed = false → p.here.i < q.here.i

section
variable {α : Type} {text : List UInt8} {p q r : Parser} {m n : Nat}

lemma Inside.of_moves {j j' : JsonParser} (hp : Inside text p) (h : Moves p.str n j j') : Inside text { p with here := j' } :=
  ⟨hp.length, hp.length ▸ h.inside⟩

lemma Leads.of_moves {j : JsonParser} (hp : Inside text p) (h : Moves p.str n p.here j) : Leads text n p { p with here := j } :=
  ⟨h.start, hp.of_moves h⟩

lemma Leads.refl (hp : Inside text p) : Leads text 0 p p := ⟨Nat.le_refl _, hp⟩

lemma Leads.trans (h1 : Leads text m p q) (h2 : Leads text n q r) : Leads text (m + n) p r := by
  have := h1.start
  have := h2.start
  exact ⟨by omega, h2.inside⟩

lemma Leads.weaken (h : Leads text n p q) (hm : m ≤ n) : Leads text m p q :=
  ⟨Nat.le_trans (Nat.add_le_add_left hm _) h.start, h.inside⟩

lemma Inside.fail (h : Inside text p) (msg : List UInt8) : Inside text (p.fail msg) := ⟨h.length, h.here⟩

lemma Inside.back (h : Inside text p) : Inside text p.back := ⟨h.length, Nat.le_trans (Nat.sub_le _ _) h.here⟩

lemma Reaches.of_fail (h : Inside text q) (msg : List UInt8) : Reaches text p (q.fail msg) := ⟨h.fail msg, nofun⟩

lemma Reaches.of_failed (h : Inside text q) (hq : q.failed = true) : Reaches text p q :=
  ⟨h, fun e => by rw [hq] at e; cases e⟩

lemma Reaches.of_leads (h : Leads text n p q) (hn : 1 ≤ n) : Reaches text p q := by
  have := h.start
  exact ⟨h.inside, fun _ => by omega⟩

lemma Reaches.of_le (h : Reaches text q r) (hp : p.here.i ≤ q.here.i) : Reaches text p r :=
  ⟨h.inside, fun e => Nat.lt_of_le_of_lt hp (h.start e)⟩

lemma Reaches.leads (h : Reaches text p q) (hq : ¬ q.failed = true) : Leads text 1 p q := ⟨h.start (by simpa using hq), h.inside⟩

/-- Between the notes of a call are those of its body. -/
lemma ends_call {f : Fn} {body : M (α × Parser)} {P : α × Parser → Prop} (hp : Inside text p)
    (hb : Traced.Ends (Event.Sound text) body P)
    (hr : ∀ r, P r → Inside text r.2 ∧ (f = .parse_json → r.2.failed = false → p.here.i < r.2.here.i)) :
    Traced.Ends (Event.Sound text) (call f p body) P :=
  (Traced.Ends.note (k := Event.call f p) hp).bind fun _ _ => hb.bind fun r hr' =>
    (Traced.Ends.note (k := Event.ret f p r.2) (hr r hr')).bind fun _ _ => .pure hr'

lemma ends_leaf {f : Fn} {r : α × Parser} (hf : f ≠ .parse_json) (hp : Inside text p) (hr : Leads text n p r.2) :
    Traced.Ends (Event.Sound text) (leaf f p r) (· = r) := by
  refine ends_call hp (.pure rfl) ?_
  rintro _ rfl
  exact ⟨hr.inside, fun e => absurd e hf⟩

lemma ends_back (hp : 0 < p.here.i) : Traced.Ends (Event.Sound text) (back p) (· = p.back) :=
  (Traced.Ends.note (k := Event.back p) hp).bind fun _ _ => .pure rfl

/-! ## Between tokens -/

lemma consume_whitespace_ends (hp : Inside text p) :
    Traced.Ends (Event.Sound text) (consume_whitespace p) fun r => Leads text 0 p r.2 := by
  have leads := Leads.of_moves hp (skipWhile_moves isBlank (hp.length ▸ hp.here))
  refine (ends_leaf (by decide) hp leads).imp ?_
  rintro _ rfl
  exact leads

/-- A comment has at least one character. -/
lemma consume_comment_ends (hp : Inside text p) : Traced.Ends (Event.Sound text) (consume_comment p) fun r =>
    Leads text 0 p r.2 ∧ (r.1 = true → Leads text 1 p r.2) := by
  obtain ⟨h0, h1⟩ := consume_comment_moves (hp.length ▸ hp.here : p.here.i ≤ p.str.length)
  have leads := Leads.of_moves hp h0
  refine (ends_leaf (by decide) hp leads).imp ?_
  rintro _ rfl
  exact ⟨leads, fun found => .of_moves hp (h1 found)⟩

lemma garbageLoop_ends (fuel : Nat) (hp : Inside text p) (hf : text.length < p.here.i + fuel) :
    Traced.Ends (Event.Sound text) (garbageLoop fuel p) fun r => Leads text 0 p r.2 := by
  induction fuel generalizing p with
  | zero =>
    have := hp.here
    omega
  | succ n ih =>
    rw [garbageLoop]
    refine (consume_comment_ends hp).bind ?_
    rintro ⟨found, q⟩ ⟨h0, h1⟩
    dsimp only at h0 h1 ⊢
    refine .ite (fun _ => .pure h0) fun _ => ?_
    refine (consume_whitespace_ends h0.inside).bind ?_
    rintro ⟨_, r⟩ white
    dsimp only at white ⊢
    refine .ite (fun hfound => ?_) fun _ => ?_
    · have leads := (h1 hfound).trans white
      have := leads.start
      exact (ih leads.inside (by omega)).imp fun _ rest => (leads.trans rest).weaken (Nat.zero_le _)
    · exact .pure (h0.trans white)

variable (strategy : ParseMethod)

lemma consume_garbage_ends (hp : Inside text p) :
    Traced.Ends (Event.Sound text) (consume_garbage strategy p) fun r => Leads text 0 p r.2 := by
  refine ends_call hp ?_ fun r hr => ⟨hr.inside, nofun⟩
  refine (consume_whitespace_ends hp).bind ?_
  rintro ⟨_, q⟩ white
  dsimp only at white ⊢
  refine .ite (fun _ => ?_) fun _ => ?_
  · refine (garbageLoop_ends _ white.inside ?_).imp fun _ rest => white.trans rest
    rw [white.inside.length]
    omega
  · exact .pure white

/-- A token is at least one character. -/
lemma get_next_token_ends (hp : Inside text p) : Traced.Ends (Event.Sound text) (get_next_token strategy p) fun r =>
    Leads text 0 p r.2 ∧ (r.1 ≠ 0 ∨ r.2.failed = false → Leads text 1 p r.2) := by
  refine ends_call hp ?_ fun r hr => ⟨hr.1.inside, nofun⟩
  refine (consume_garbage_ends strategy hp).bind ?_
  rintro ⟨_, q⟩ garbage
  dsimp only at garbage ⊢
  refine .ite (fun failed => .pure ⟨garbage, by simp [failed]⟩) fun _ => ?_
  refine .ite (fun _ => ?_) fun hi => ?_
  · exact .pure ⟨⟨garbage.start, garbage.inside.fail _⟩, by simp [Parser.failed, Parser.fail, JsonParser.failed, JsonParser.fail]⟩
  · have start := garbage.start
    have inside := garbage.inside
    have here := inside.here
    rw [inside.length] at hi
    have leads : Leads text 1 p (q.forth 1) := ⟨by show _ ≤ q.here.i + 1; omega, inside.length, by show q.here.i + 1 ≤ _; omega⟩
    exact .pure ⟨leads.weaken (Nat.zero_le _), fun _ => leads⟩

/-! ## Names, numbers and constants -/

variable (inPlace : Bool)

/-- The terminator that is written does not change the length of the buffer. -/
lemma parse_key_ends (hp : Inside text p) :
    Traced.Ends (Event.Sound text) (parse_key inPlace p) fun r => Leads text 0 p r.2 := by
  have moves : Moves p.str 0 p.here (keyLoop (p.str.drop p.here.i) p.here).2 :=
    keyLoop_moves _ p.here (by rw [List.length_drop, hp.length]; have := hp.here; omega)
  have read := Leads.of_moves hp moves
  have cut (start len : Nat) : Leads text 0 p (slice inPlace { p with here := (keyLoop (p.str.drop p.here.i) p.here).2 } start len).2 := by
    rw [slice]
    split
    · exact ⟨read.start, by rw [List.length_set]; exact hp.length, read.inside.here⟩
    · exact read
  have leads : Leads text 0 p (JsonCView.parse_key inPlace p).2 := by
    rw [JsonCView.parse_key]
    dsimp only
    split
    · exact cut _ _
    · exact cut _ _
  refine (ends_leaf (by decide) hp leads).imp ?_
  rintro _ rfl
  exact leads

lemma parse_string_ends (hp : Inside text p) :
    Traced.Ends (Event.Sound text) (parse_string p) fun r => Leads text 0 p r.2 := by
  have leads := Leads.of_moves hp (parse_string_moves (hp.length ▸ hp.here))
  refine (ends_leaf (by decide) hp leads).imp ?_
  rintro _ rfl
  exact leads

lemma parse_number_ends (hp : Inside text p) :
    Traced.Ends (Event.Sound text) (parse_number p) fun r => Reaches text p r.2 := by
  obtain ⟨inside, moves⟩ := parse_number_reached (hp.length ▸ hp.here : p.here.i ≤ p.str.length)
  have reaches : Reaches text p (JsonCView.parse_number p).2 :=
    ⟨⟨hp.length, hp.length ▸ inside⟩, fun ok => (moves ok).start⟩
  refine (ends_call hp (.pure (P := (· = JsonCView.parse_number p)) rfl) ?_).imp ?_
  · rintro _ rfl
    exact ⟨reaches.inside, nofun⟩
  · rintro _ rfl
    exact reaches

lemma expect_reaches {expected : String} {res : Node} (hp : Inside text p) (he : expected ≠ "") {r : Node × Parser}
    (hr : JsonCView.expect expected res p = .ok r) : Reaches text p.back r.2 := by
  rw [JsonCView.expect] at hr
  split at hr
  next found =>
    cases hr
    have found : (bytes expected).isPrefixOf (p.str.drop p.here.back.i) = true := found
    obtain ⟨inside, moves⟩ := expect_reached .null (hp.length ▸ hp.here : p.here.i ≤ p.str.length) he
    rw [JsonView.expect, if_pos found] at inside moves
    exact ⟨⟨hp.length, hp.length ▸ inside⟩, fun ok => (moves ok).start⟩
  split at hr
  · cases hr
  · cases hr
    exact .of_fail hp.back _

/-- A constant is read from the byte in front of the cursor on. -/
lemma expect_ends {expected : String} {res : Node} (hp : Inside text p) (hi : 0 < p.here.i) (he : expected ≠ "") :
    Traced.Ends (Event.Sound text) (expect expected res p) fun r => Reaches text p.back r.2 := by
  refine ends_call hp ?_ fun r hr => ⟨hr.inside, nofun⟩
  exact (ends_back hi).bind fun _ _ => .silent fun r hr => expect_reaches hp he hr

/-! ## Values -/

variable {next : Parser → M (Node × Parser)}

lemma objectLoop_ends (hnext : ∀ p, Inside text p → Traced.Ends (Event.Sound text) (next p) fun r => Reaches text p r.2)
    (fuel : Nat) (ch : UInt8) (data : List (Key × Node)) (hp : Inside text p) (hf : text.length < p.here.i + fuel) :
    Traced.Ends (Event.Sound text) (objectLoop inPlace strategy next fuel ch data p) fun r => Reaches text p r.2 := by
  induction fuel generalizing ch data p with
  | zero =>
    have := hp.here
    omega
  | succ n ih =>
    rw [objectLoop]
    refine .ite (fun _ => .pure (.of_fail hp _)) fun _ => ?_
    refine (parse_key_ends inPlace hp).bind ?_
    rintro ⟨key, p1⟩ l1
    dsimp only at l1 ⊢
    refine .ite (fun failed => .pure (.of_failed l1.inside failed)) fun _ => ?_
    refine (get_next_token_ends strategy l1.inside).bind ?_
    rintro ⟨c2, p2⟩ ⟨l2, -⟩
    dsimp only at l2 ⊢
    refine .ite (fun _ => .pure (.of_fail l2.inside _)) fun _ => ?_
    refine (hnext p2 l2.inside).bind ?_
    rintro ⟨val, p3⟩ r3
    dsimp only at r3 ⊢
    refine .ite (fun failed => .pure (.of_failed r3.inside failed)) fun ok => ?_
    refine (get_next_token_ends strategy r3.inside).bind ?_
    rintro ⟨c4, p4⟩ ⟨l4, -⟩
    dsimp only at l4 ⊢
    have leads := ((l1.trans l2).trans (r3.leads ok)).trans l4
    refine .ite (fun _ => .pure (.of_leads leads (by omega))) fun _ => ?_
    refine .ite (fun _ => .pure (.of_fail l4.inside _)) fun _ => ?_
    refine (get_next_token_ends strategy l4.inside).bind ?_
    rintro ⟨c5, p5⟩ ⟨l5, -⟩
    dsimp only at l5 ⊢
    have := (leads.trans l5).start
    exact (ih c5 _ l5.inside (by omega)).imp fun _ h => h.of_le (by omega)

/-- The loop over items goes back to the first byte of the item, and there is one: that, or the bracket. -/
lemma arrayLoop_ends (hnext : ∀ p, Inside text p → Traced.Ends (Event.Sound text) (next p) fun r => Reaches text p r.2)
    (fuel : Nat) (data : List Node) (hp : Inside text p) (hi : 0 < p.here.i) (hf : text.length < p.back.here.i + fuel) :
    Traced.Ends (Event.Sound text) (arrayLoop strategy next fuel data p) fun r => Reaches text p.back r.2 := by
  induction fuel generalizing data p with
  | zero =>
    have := hp.back.here
    omega
  | succ n ih =>
    rw [arrayLoop]
    refine (ends_back hi).bind ?_
    rintro _ rfl
    refine (hnext _ hp.back).bind ?_
    rintro ⟨val, p3⟩ r3
    dsimp only at r3 ⊢
    refine .ite (fun failed => .pure (.of_failed r3.inside failed)) fun ok => ?_
    refine (get_next_token_ends strategy r3.inside).bind ?_
    rintro ⟨c4, p4⟩ ⟨l4, s4⟩
    dsimp only at l4 s4 ⊢
    have leads := (r3.leads ok).trans l4
    refine .ite (fun _ => .pure (.of_leads leads (by omega))) fun _ => ?_
    refine .ite (fun _ => .pure (.of_fail l4.inside _)) fun hcomma => ?_
    refine (get_next_token_ends strategy l4.inside).bind ?_
    rintro ⟨c5, p5⟩ ⟨l5, -⟩
    dsimp only at l5 ⊢
    have comma := ((r3.leads ok).trans (s4 (.inl (by rintro rfl; exact hcomma (by decide))))).trans l5
    have := comma.start
    have back : p5.back.here.i = p5.here.i - 1 := rfl
    exact (ih _ l5.inside (by omega) (by omega)).imp fun _ h => h.of_le (by omega)

lemma parse_value_ends (hnext : ∀ p, Inside text p → Traced.Ends (Event.Sound text) (next p) fun r => Reaches text p r.2)
    {ch : UInt8} (hq : Leads text 1 p q) :
    Traced.Ends (Event.Sound text) (parse_value inPlace strategy next ch q) fun r => Reaches text p r.2 := by
  have start := hq.start
  have positive : 0 < q.here.i := by omega
  have back : p.here.i ≤ q.back.here.i := Nat.le_sub_of_add_le start
  have constant {expected : String} {res : Node} (he : expected ≠ "") :
      Traced.Ends (Event.Sound text) (expect expected res q) fun r => Reaches text p r.2 :=
    (expect_ends hq.inside positive he).imp fun _ h => h.of_le back
  rw [parse_value]
  refine .ite (fun _ => ?_) fun _ => ?_
  · refine (ends_back positive).bind ?_
    rintro _ rfl
    exact (parse_number_ends hq.inside.back).imp fun _ h => h.of_le back
  refine .ite (fun _ => constant (by decide)) fun _ => ?_
  refine .ite (fun _ => constant (by decide)) fun _ => ?_
  refine .ite (fun _ => constant (by decide)) fun _ => ?_
  refine .ite (fun _ => ?_) fun _ => ?_
  · refine (parse_string_ends hq.inside).bind ?_
    rintro ⟨s, r⟩ h
    exact .pure (.of_leads (hq.trans h) (by omega))
  refine .ite (fun _ => ?_) fun _ => ?_
  · refine (get_next_token_ends strategy hq.inside).bind ?_
    rintro ⟨c, r⟩ ⟨h, -⟩
    dsimp only at h ⊢
    have leads := hq.trans h
    have := leads.start
    refine .ite (fun _ => .pure (.of_leads leads (by omega))) fun _ => ?_
    refine (objectLoop_ends strategy inPlace hnext _ c [] h.inside ?_).imp fun _ h => h.of_le (by omega)
    rw [h.inside.length]
    omega
  refine .ite (fun _ => ?_) fun _ => ?_
  · refine (get_next_token_ends strategy hq.inside).bind ?_
    rintro ⟨c, r⟩ ⟨h, -⟩
    dsimp only at h ⊢
    have leads := hq.trans h
    have := leads.start
    have back' : r.back.here.i = r.here.i - 1 := rfl
    refine .ite (fun _ => .pure (.of_leads leads (by omega))) fun _ => ?_
    refine (arrayLoop_ends strategy hnext _ [] h.inside (by omega) ?_).imp fun _ h => h.of_le (by omega)
    rw [h.inside.length]
    omega
  · exact .pure (.of_fail hq.inside _)

/-- A value is read on every level, or the parser fails. -/
lemma parse_json_ends (levels : Nat) (hp : Inside text p) :
    Traced.Ends (Event.Sound text) (parse_json inPlace strategy levels p) fun r => Reaches text p r.2 := by
  induction levels generalizing p with
  | zero => exact ends_call hp (.pure (.of_fail hp _)) fun r hr => ⟨hr.inside, fun _ => hr.start⟩
  | succ n ih =>
    refine ends_call hp ?_ fun r hr => ⟨hr.inside, fun _ => hr.start⟩
    refine (get_next_token_ends strategy hp).bind ?_
    rintro ⟨c, q⟩ ⟨h, more⟩
    dsimp only at h more ⊢
    refine .ite (fun failed => ?_) fun ok => ?_
    · exact .pure (.of_failed h.inside failed)
    · exact parse_value_ends strategy inPlace (fun p hp => ih hp) (more (.inr (by simpa using ok)))

lemma parse_ends (text : List UInt8) :
    Traced.Ends (Event.Sound text) (parse inPlace strategy text) fun r => Inside text r.2 := by
  have start : Inside text { str := text } := ⟨rfl, Nat.zero_le _⟩
  refine ends_call start ?_ fun r hr => ⟨hr, nofun⟩
  refine (parse_json_ends strategy inPlace _ start).bind ?_
  rintro ⟨v, q⟩ reaches
  refine (consume_garbage_ends strategy reaches.inside).bind ?_
  rintro ⟨_, r⟩ garbage
  exact .pure garbage.inside

end

end Steps

/-! ## Texts -/

/-- The parser comes to its end with the result of the parser without notes, and its cursor was in the text at every boundary. -/
def Bounded (inPlace : Bool) (strategy : ParseMethod) (text : List UInt8) : Prop :=
  ∃ r events, (Steps.parse inPlace strategy text).results = some (r, events) ∧ parse inPlace strategy text = some r ∧
    ∀ e ∈ events, e.Sound text

lemma parse_bounded (inPlace : Bool) (strategy : ParseMethod) (text : List UInt8) : Bounded inPlace strategy text := by
  obtain ⟨r, events, results, -, sound⟩ := Steps.parse_ends strategy inPlace text
  refine ⟨r, events, results, ?_, sound⟩
  rw [← Steps.outcome_parse, Traced.outcome, results]
  rfl

/-- Both parsers come to their ends with the cursor in the text at every boundary, a byte to step back over at every step back,
    and a byte read by every value that is read. -/
theorem parsers_bounded {text : List UInt8} (h0 : 0 ∉ text) (strategy : ParseMethod) :
    Bounded true strategy text ∧ Bounded false strategy text ∧ ∃ v c q, JsonView.parse text strategy = some (v, q) ∧
      parse false strategy text = some (.ok (c, ⟨text, q⟩)) ∧ c.read false text = v :=
  ⟨parse_bounded true strategy text, parse_bounded false strategy text, parse_alike h0⟩

theorem parsers_bounded_comment : Bounded true .COMMENTS (bytes "[/* *") := (parsers_bounded (by decide) .COMMENTS).1

end ArrowheadCore.Json.JsonCView
