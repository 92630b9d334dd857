import ArrowheadCore.Json.Accesses
import ArrowheadCore.Json.Comments

/-!
# Where the parser leaves the text

The parser reads behind the terminator if it comes to a string that ends in a `\u` with fewer than three bytes behind it. These
strings are found in the text by the grammar: what stands in front of one is what the parser takes, in as many levels as it has.
-/

namespace ArrowheadCore.Json.JsonCView
open Lib JsonView Grammar

namespace Accesses

/-- What the parser skips between tokens, and the names that it takes. -/
def exact : ParseMethod → Dialect
  | .COMMENTS => comments
  | _ => jsonView

lemma readable_exact (text : List UInt8) : (strategy : ParseMethod) → Readable text strategy (exact strategy)
  | .COMMENTS => readable_comments text
  | .STANDARD => readable_jsonView text .STANDARD
  | .NOTHROW => readable_jsonView text .NOTHROW

lemma covers_exact (text : List UInt8) : (strategy : ParseMethod) → Covers text strategy (exact strategy)
  | .COMMENTS => covers_comments text
  | .STANDARD => covers_dialect text .STANDARD
  | .NOTHROW => covers_dialect text .NOTHROW

/-! ## Texts with a string that is cut -/

section
variable (D : Dialect) (V : List UInt8 → JsonNode → List UInt8 → Prop) (B : List UInt8 → Prop)

/-- Items up to one that is not read. -/
inductive CutItems : List UInt8 → Prop
  | here {s s1 : List UInt8} : Skips D s s1 → B s1 → CutItems s
  | later {s s1 s2 s3 : List UInt8} {v : JsonNode} : Skips D s s1 → V s1 v s2 → Skips D s2 (','.toUInt8 :: s3) → CutItems s3 →
    CutItems s

/-- Members up to one whose value is not read. -/
inductive CutMembers : List UInt8 → Prop
  | here {s k s1 s2 s3 : List UInt8} : Skips D s ('"'.toUInt8 :: (k ++ '"'.toUInt8 :: s1)) → D.name k →
    Skips D s1 (':'.toUInt8 :: s2) → Skips D s2 s3 → B s3 → CutMembers s
  | later {s s1 s2 : List UInt8} {m : List UInt8 × JsonNode} : Member D V s m s1 → Skips D s1 (','.toUInt8 :: s2) →
    CutMembers s2 → CutMembers s

inductive CutLayer : List UInt8 → Prop
  | string {s : List UInt8} : CutString (-1) s → CutLayer ('"'.toUInt8 :: s)
  | array {s : List UInt8} : CutItems D V B s → CutLayer ('['.toUInt8 :: s)
  | object {s : List UInt8} : CutMembers D V B s → CutLayer ('{'.toUInt8 :: s)

end

/-- A value with `n` levels at most, up to a string that is cut. -/
def Cut (D : Dialect) : Nat → List UInt8 → Prop
  | 0 => fun _ => False
  | n + 1 => CutLayer D (Value D n) (Cut D n)

/-- A text with such a string. -/
def CutShort (strategy : ParseMethod) (text : List UInt8) : Prop :=
  ∃ s, Skips (exact strategy) text s ∧ Cut (exact strategy) (max_depth + 1) s

section
variable {α β : Type} {C : Prop} {D : Dialect} {B : List UInt8 → Prop} {inPlace : Bool} {strategy : ParseMethod}
  {text s rest : List UInt8} {p q : Parser} {n : Nat}

lemma cut_head (h : Cut D n s) : ∃ c cs, s = c :: cs ∧ Solid c ∧ c ≠ ']'.toUInt8 := by
  cases n with
  | zero => exact h.elim
  | succ n => cases h <;> exact ⟨_, _, rfl, by decide⟩

/-! ## Every such string is met -/

lemma meets_call {f : Fn} {body : Steps.M (α × Parser)} (h : Traced.Meets Event.Cuts body) :
    Traced.Meets Event.Cuts (Steps.call f p body) := .after rfl (.first h _)

lemma meets_token {f : UInt8 × Parser → Steps.M β} {c : UInt8} (token : get_next_token strategy p = some (c, q))
    (h : Traced.Meets Event.Cuts (f (c, q))) : Traced.Meets Event.Cuts (Steps.get_next_token strategy p >>= f) :=
  .after (by rw [Steps.outcome_get_next_token, token]; rfl) h

lemma meets_name {f : Key × Parser → Steps.M β} {key : Key} (name : JsonCView.parse_key inPlace p = (key, q))
    (h : Traced.Meets Event.Cuts (f (key, q))) : Traced.Meets Event.Cuts (Steps.parse_key inPlace p >>= f) :=
  .after (by rw [Steps.parse_key, Steps.outcome_leaf, name]) h

lemma meets_value {f : Node × Parser → Steps.M β} {v : Node} (parsed : parse_json inPlace strategy n p = some (.ok (v, q)))
    (h : Traced.Meets Event.Cuts (f (v, q))) : Traced.Meets Event.Cuts (Steps.parse_json inPlace strategy n p >>= f) :=
  .after ((Steps.outcome_parse_json n p).trans parsed) h

/-- The next level meets such a string at its places. -/
def Meeting (text : List UInt8) (D : Dialect) (parse : Parser → Steps.M (Node × Parser)) (B : List UInt8 → Prop) : Prop :=
  ∀ {s s1 p}, At text s p → Skips D s s1 → B s1 → Traced.Meets Event.Cuts (parse p)

lemma arrayLoop_meets (hD : Readable text strategy D) (h0 : 0 ∉ text)
    (hhead : ∀ {s}, B s → ∃ c cs, s = c :: cs ∧ Solid c ∧ c ≠ ']'.toUInt8)
    (hB : Meeting text D (Steps.parse_json inPlace strategy n) B) (h : CutItems D (Value D n) B s) (hp : At text s p)
    {fuel : Nat} (hf : s.length ≤ fuel) (data : List Node) :
    ∃ c q, get_next_token strategy p = some (c, q) ∧ c ≠ ']'.toUInt8 ∧
      Traced.Meets Event.Cuts (Steps.arrayLoop strategy (Steps.parse_json inPlace strategy n) fuel data q) := by
  induction h generalizing p fuel data with
  | @here s s1 h1 hb =>
    obtain ⟨c, cs, rfl, solid, hc⟩ := hhead hb
    obtain ⟨q, token, hq, hstr, -⟩ := hp.token hD h1 solid
    have l1 := h1.length
    rw [List.length_cons] at l1
    obtain ⟨k, rfl⟩ : ∃ k, fuel = k + 1 := Nat.exists_eq_succ_of_ne_zero (by omega)
    have back : At text (c :: cs) q.back := hp.back h1 hq hstr
    exact ⟨c, q, token, hc, .after (Steps.outcome_back q) (.first (hB back (hD.refl _) hb) _)⟩
  | @later s s1 s2 s3 v h1 hv h2 _ ih =>
    obtain ⟨c, cs, rfl, solid, hc⟩ := value_head hv
    obtain ⟨q, token, hq, hstr, -⟩ := hp.token hD h1 solid
    obtain ⟨node, p2, parsed, hp2, -⟩ := (hp.back h1 hq hstr).value hD inPlace h0 (hD.refl _) hv (hD.ends h2 (by decide))
    obtain ⟨q3, comma, -, -, hp3⟩ := hp2.token hD h2 (by decide)
    have l1 := h1.length
    have l2 := hv.shorter
    have l3 := h2.length
    rw [List.length_cons] at l1 l2 l3
    obtain ⟨k, rfl⟩ : ∃ k, fuel = k + 1 := Nat.exists_eq_succ_of_ne_zero (by omega)
    obtain ⟨c', q', token', -, loop⟩ := ih hp3 (show _ ≤ k by omega) (data ++ [node])
    refine ⟨c, q, token, hc, .after (Steps.outcome_back q) ?_⟩
    refine meets_value parsed ?_
    dsimp only
    rw [if_neg (by simp [hp2.failed])]
    refine meets_token comma ?_
    dsimp only
    rw [if_neg (by decide), if_neg (by decide)]
    exact meets_token token' loop

lemma objectLoop_meets (hD : Readable text strategy D) (h0 : 0 ∉ text)
    (hB : Meeting text D (Steps.parse_json inPlace strategy n) B) (h : CutMembers D (Value D n) B s) (hp : At text s p)
    {fuel : Nat} (hf : s.length ≤ fuel) (data : List (Key × Node)) :
    ∃ q, get_next_token strategy p = some ('"'.toUInt8, q) ∧ Traced.Meets Event.Cuts
      (Steps.objectLoop inPlace strategy (Steps.parse_json inPlace strategy n) fuel '"'.toUInt8 data q) := by
  induction h generalizing p fuel data with
  | @here s k s1 s2 s3 h1 hk h2 h3 hb =>
    obtain ⟨q, token, -, -, hq⟩ := hp.token hD h1 (by decide)
    obtain ⟨key, p1, named, hp1, -⟩ := hq.name inPlace h0 (hD.name hk)
    obtain ⟨q2, colon, -, -, hp2⟩ := hp1.token hD h2 (by decide)
    have l1 := h1.length
    rw [List.length_cons] at l1
    obtain ⟨k, rfl⟩ : ∃ k, fuel = k + 1 := Nat.exists_eq_succ_of_ne_zero (by omega)
    refine ⟨q, token, ?_⟩
    rw [Steps.objectLoop, if_neg (by decide)]
    refine meets_name named ?_
    dsimp only
    rw [if_neg (by simp [hp1.failed])]
    refine meets_token colon ?_
    dsimp only
    rw [if_neg (by decide)]
    exact .first (hB hp2 h3 hb) _
  | @later s s1 s2 m hm h2 _ ih =>
    have l1 := hm.shorter Value.shorter
    have l2 := h2.length
    rw [List.length_cons] at l2
    obtain ⟨f, rfl⟩ : ∃ f, fuel = f + 1 := Nat.exists_eq_succ_of_ne_zero (by omega)
    cases hm with
    | mk h1 hk h3 h4 hv =>
    obtain ⟨q, token, -, -, hq⟩ := hp.token hD h1 (by decide)
    obtain ⟨key, p1, named, hp1, -⟩ := hq.name inPlace h0 (hD.name hk)
    obtain ⟨q2, colon, -, -, hp2⟩ := hp1.token hD h3 (by decide)
    obtain ⟨node, p3, parsed, hp3, -⟩ := hp2.value hD inPlace h0 h4 hv (hD.ends h2 (by decide))
    obtain ⟨q4, comma, -, -, hp4⟩ := hp3.token hD h2 (by decide)
    obtain ⟨q', token', loop⟩ := ih hp4 (show _ ≤ f by omega) (data ++ [(key, node)])
    refine ⟨q, token, ?_⟩
    rw [Steps.objectLoop, if_neg (by decide)]
    refine meets_name named ?_
    dsimp only
    rw [if_neg (by simp [hp1.failed])]
    refine meets_token colon ?_
    dsimp only
    rw [if_neg (by decide)]
    refine meets_value parsed ?_
    dsimp only
    rw [if_neg (by simp [hp3.failed])]
    refine meets_token comma ?_
    dsimp only
    rw [if_neg (by decide), if_neg (by decide)]
    exact meets_token token' loop

theorem parse_json_meets (hD : Readable text strategy D) (h0 : 0 ∉ text) (n : Nat) :
    Meeting text D (Steps.parse_json inPlace strategy n) (Cut D n) := by
  induction n with
  | zero => exact fun _ _ h => h.elim
  | succ n ih =>
    intro s s1 p hp hs h
    obtain ⟨c, cs, rfl, solid, -⟩ := cut_head h
    obtain ⟨q, token, -, -, hat⟩ := hp.token hD hs solid
    have fuel : cs.length ≤ q.str.length + 1 := by
      rw [hat.same.length]
      exact Nat.le_succ_of_le hat.suffix.length_le
    rw [Steps.parse_json]
    refine meets_call (meets_token token ?_)
    dsimp only
    rw [if_neg (by simp [hat.failed]), Steps.parse_value]
    cases h with
    | string h =>
      rw [if_neg (by decide), if_neg (by decide), if_neg (by decide), if_neg (by decide), if_pos rfl]
      refine .first (.first (.note ⟨q, rfl, ?_⟩) _) _
      rw [hat.drop]
      exact h
    | array h =>
      obtain ⟨c, q', token', hc, loop⟩ := arrayLoop_meets hD h0 cut_head ih h hat fuel []
      rw [if_neg (by decide), if_neg (by decide), if_neg (by decide), if_neg (by decide), if_neg (by decide),
        if_neg (by decide), if_pos rfl]
      refine meets_token token' ?_
      dsimp only
      rw [if_neg hc, get_next_token_str token']
      exact loop
    | object h =>
      obtain ⟨q', token', loop⟩ := objectLoop_meets hD h0 ih h hat fuel []
      rw [if_neg (by decide), if_neg (by decide), if_neg (by decide), if_neg (by decide), if_neg (by decide), if_pos rfl]
      refine meets_token token' ?_
      dsimp only
      rw [if_neg (by decide), get_next_token_str token']
      exact loop

/-! ## Nothing else is met -/

/-- A string that is cut is met only where `C` is the case. -/
def Quiet (C : Prop) (m : Steps.M α) : Prop := Traced.Keeps (fun e => e.Cuts → C) m fun _ => True

lemma Quiet.pure (a : α) : Quiet C (pure a) := Traced.Keeps.pure trivial

lemma Quiet.bind {m : Steps.M α} {f : α → Steps.M β} (hm : Quiet C m) (hf : ∀ a, m.outcome = some (.ok a) → Quiet C (f a)) :
    Quiet C (m >>= f) := (Traced.Keeps.outcome hm).bind fun a h => hf a h.2

lemma Quiet.ite {c : Prop} [Decidable c] {m n : Steps.M α} (hm : c → Quiet C m) (hn : ¬c → Quiet C n) :
    Quiet C (if c then m else n) := Traced.Keeps.ite hm hn

lemma quiet_call {f : Fn} {body : Steps.M (α × Parser)} (hf : (Event.call f p).Cuts → C) (hb : Quiet C body) :
    Quiet C (Steps.call f p body) := by
  refine .bind (.note hf) fun _ _ => hb.bind fun r _ => .bind (.note ?_) fun _ _ => .pure r
  rintro ⟨_, e, -⟩
  cases e

/-- The calls of the other functions. -/
lemma not_cuts {f : Fn} (hf : f ≠ .parse_string) : (Event.call f p).Cuts → C := by
  rintro ⟨_, e, -⟩
  cases e
  exact absurd rfl hf

lemma quiet_leaf {f : Fn} (hf : f ≠ .parse_string) (r : α × Parser) : Quiet C (Steps.leaf f p r) :=
  quiet_call (not_cuts hf) (.pure r)

lemma quiet_back (p : Parser) : Quiet C (Steps.back p) := by
  refine .bind (.note ?_) fun _ _ => .pure _
  rintro ⟨_, e, -⟩
  cases e

lemma quiet_garbageLoop (fuel : Nat) (p : Parser) : Quiet C (Steps.garbageLoop fuel p) := by
  induction fuel generalizing p with
  | zero => exact .diverge
  | succ n ih =>
    refine .bind (quiet_leaf (by decide) _) fun r _ => ?_
    dsimp only
    refine .ite (fun _ => .pure _) fun _ => ?_
    refine .bind (quiet_leaf (by decide) _) fun r' _ => ?_
    exact .ite (fun _ => ih _) fun _ => .pure _

lemma quiet_consume_garbage (strategy : ParseMethod) (p : Parser) : Quiet C (Steps.consume_garbage strategy p) := by
  refine quiet_call (not_cuts (by decide)) (.bind (quiet_leaf (by decide) _) fun r _ => ?_)
  dsimp only
  exact .ite (fun _ => quiet_garbageLoop _ _) fun _ => .pure _

lemma quiet_get_next_token (strategy : ParseMethod) (p : Parser) : Quiet C (Steps.get_next_token strategy p) := by
  refine quiet_call (not_cuts (by decide)) (.bind (quiet_consume_garbage strategy p) fun r _ => ?_)
  dsimp only
  split
  · exact .pure _
  split <;> exact .pure _

lemma quiet_expect (expected : String) (res : Node) (p : Parser) : Quiet C (Steps.expect expected res p) := by
  refine quiet_call (not_cuts (by decide)) (.bind (quiet_back p) fun _ _ => ?_)
  exact .silent fun _ _ => trivial

/-- A token, and what comes behind it. -/
lemma quiet_token {f : UInt8 × Parser → Steps.M β}
    (h : ∀ c q, get_next_token strategy p = some (c, q) → Quiet C (f (c, q))) : Quiet C (Steps.get_next_token strategy p >>= f) := by
  refine .bind (quiet_get_next_token strategy p) fun r e => ?_
  rw [Steps.outcome_get_next_token, Option.map_eq_some_iff] at e
  obtain ⟨_, token, e⟩ := e
  cases e
  exact h _ _ token

lemma quiet_value {f : Node × Parser → Steps.M β} (hp : Quiet C (Steps.parse_json inPlace strategy n p))
    (h : ∀ v q, parse_json inPlace strategy n p = some (.ok (v, q)) → Quiet C (f (v, q))) :
    Quiet C (Steps.parse_json inPlace strategy n p >>= f) := by
  refine .bind hp fun r e => ?_
  rw [Steps.outcome_parse_json] at e
  exact h _ _ e

lemma quiet_name {f : Key × Parser → Steps.M β} (h : ∀ key q, JsonCView.parse_key inPlace p = (key, q) → Quiet C (f (key, q))) :
    Quiet C (Steps.parse_key inPlace p >>= f) := by
  refine .bind (quiet_leaf (by decide) _) fun r e => ?_
  rw [Steps.parse_key, Steps.outcome_leaf, Option.some.injEq, Except.ok.injEq] at e
  exact h _ _ e

/-- Behind a failure no value is read. -/
lemma quiet_parse_json_failed (failed : p.failed = true) (n : Nat) : Quiet C (Steps.parse_json inPlace strategy n p) := by
  cases n with
  | zero => exact quiet_call (not_cuts (by decide)) (.pure _)
  | succ n =>
    refine quiet_call (not_cuts (by decide)) (quiet_token fun c q token => ?_)
    rw [get_next_token, Option.map_eq_some_iff] at token
    obtain ⟨⟨c', j⟩, token, e⟩ := token
    cases e
    dsimp only
    exact .ite (fun _ => .pure _) fun good => absurd (JsonView.get_next_token_failed failed token) good

/-- The next level meets such a string only at its places. -/
def Quieter (C : Prop) (text : List UInt8) (D : Dialect) (parse : Parser → Steps.M (Node × Parser)) (B : List UInt8 → Prop) : Prop :=
  ∀ {s p}, At text s p → (∀ {s1}, Skips D s s1 → B s1 → C) → Quiet C (parse p)

lemma quiet_arrayLoop (hD : Covers text strategy D) (h0 : 0 ∉ text)
    (hB : Quieter C text D (Steps.parse_json inPlace strategy n) B) (hp : At text s p) {c : UInt8}
    (token : get_next_token strategy p = some (c, q)) (hC : CutItems D (Value D n) B s → C) (fuel : Nat) (data : List Node) :
    Quiet C (Steps.arrayLoop strategy (Steps.parse_json inPlace strategy n) fuel data q) := by
  induction fuel generalizing s p q c data with
  | zero => exact .diverge
  | succ k ih =>
    refine .bind (quiet_back q) fun q' e => ?_
    rw [Steps.outcome_back, Option.some.injEq, Except.ok.injEq] at e
    subst e
    obtain ⟨-, failed, inside⟩ | ⟨rest, skips, hq, -⟩ := hp.token_inv hD token
    · refine quiet_value (quiet_parse_json_failed (p := q.back) failed n) fun val p2 parsed => ?_
      have inside : q.back.here.i ≤ q.str.length := Nat.le_trans (Nat.sub_le _ _) inside
      obtain ⟨_, p', stuck, failed', -⟩ := parse_json_stuck (p := q.back) failed inside n
      rw [stuck] at parsed
      cases parsed
      dsimp only
      rw [if_pos failed']
      exact .pure _
    have back := hp.back skips hq (get_next_token_str token)
    refine quiet_value (hB back fun skips1 cut => hC (.here (hD.trans skips skips1) cut)) fun val p2 parsed => ?_
    dsimp only
    refine .ite (fun _ => .pure _) fun good => ?_
    obtain ⟨s1, v, rest2, skips1, value, hp2, -⟩ := back.value_inv hD h0 parsed (by simpa using good)
    refine quiet_token fun c3 q3 token3 => ?_
    dsimp only
    refine .ite (fun _ => .pure _) fun _ => ?_
    refine .ite (fun _ => .pure _) fun comma => ?_
    obtain rfl : c3 = ','.toUInt8 := not_not.1 comma
    obtain ⟨hzero, -⟩ | ⟨rest3, skips3, -, hp3⟩ := hp2.token_inv hD token3
    · exact absurd hzero (by decide)
    refine quiet_token fun c4 q4 token4 => ?_
    exact ih hp3 token4 (fun items => hC (.later (hD.trans skips skips1) value skips3 items)) _

lemma quiet_objectLoop (hD : Covers text strategy D) (h0 : 0 ∉ text)
    (hB : Quieter C text D (Steps.parse_json inPlace strategy n) B) (hp : At text s p) {c : UInt8}
    (token : get_next_token strategy p = some (c, q)) (hC : CutMembers D (Value D n) B s → C) (fuel : Nat)
    (data : List (Key × Node)) :
    Quiet C (Steps.objectLoop inPlace strategy (Steps.parse_json inPlace strategy n) fuel c data q) := by
  induction fuel generalizing s p q c data with
  | zero => exact .diverge
  | succ k ih =>
    rw [Steps.objectLoop]
    refine .ite (fun _ => .pure _) fun quote => ?_
    obtain rfl : c = '"'.toUInt8 := not_not.1 quote
    obtain ⟨hzero, -⟩ | ⟨rest, skips, -, hq⟩ := hp.token_inv hD token
    · exact absurd hzero (by decide)
    refine quiet_name fun key p1 named => ?_
    dsimp only
    refine .ite (fun _ => .pure _) fun good1 => ?_
    obtain ⟨name, rest1, rfl, hname, hp1, -⟩ := hq.name_inv h0 named (by simpa using good1)
    refine quiet_token fun c2 q2 token2 => ?_
    dsimp only
    refine .ite (fun _ => .pure _) fun colon => ?_
    obtain rfl : c2 = ':'.toUInt8 := not_not.1 colon
    obtain ⟨hzero, -⟩ | ⟨rest2, skips2, -, hp2⟩ := hp1.token_inv hD token2
    · exact absurd hzero (by decide)
    refine quiet_value (hB hp2 fun skips3 cut => hC (.here skips (hD.name hname) skips2 skips3 cut)) fun val p3 parsed => ?_
    dsimp only
    refine .ite (fun _ => .pure _) fun good3 => ?_
    obtain ⟨s3, v, rest3, skips3, value, hp3, -⟩ := hp2.value_inv hD h0 parsed (by simpa using good3)
    refine quiet_token fun c4 q4 token4 => ?_
    dsimp only
    refine .ite (fun _ => .pure _) fun _ => ?_
    refine .ite (fun _ => .pure _) fun comma => ?_
    obtain rfl : c4 = ','.toUInt8 := not_not.1 comma
    obtain ⟨hzero, -⟩ | ⟨rest4, skips4, -, hp4⟩ := hp3.token_inv hD token4
    · exact absurd hzero (by decide)
    refine quiet_token fun c5 q5 token5 => ?_
    exact ih hp4 token5 (fun members => hC (.later (.mk skips (hD.name hname) skips2 skips3 value) skips4 members)) _

theorem quiet_parse_json (hD : Covers text strategy D) (h0 : 0 ∉ text) (n : Nat) :
    Quieter C text D (Steps.parse_json inPlace strategy n) (Cut D n) := by
  induction n with
  | zero => exact fun _ _ => quiet_call (not_cuts (by decide)) (.pure _)
  | succ n ih =>
    intro s p hp hC
    refine quiet_call (not_cuts (by decide)) (quiet_token fun c q token => ?_)
    dsimp only
    refine .ite (fun _ => .pure _) fun good => ?_
    obtain ⟨-, failed, -⟩ | ⟨rest, skips, -, hat⟩ := hp.token_inv hD token
    · exact absurd failed good
    rw [Steps.parse_value]
    refine .ite (fun _ => .bind (quiet_back q) fun _ _ => quiet_leaf (by decide) _) fun _ => ?_
    refine .ite (fun _ => quiet_expect _ _ q) fun _ => ?_
    refine .ite (fun _ => quiet_expect _ _ q) fun _ => ?_
    refine .ite (fun _ => quiet_expect _ _ q) fun _ => ?_
    refine .ite (fun quote => ?_) fun _ => ?_
    · subst quote
      refine .bind (quiet_call ?_ (.pure _)) fun _ _ => .pure _
      rintro ⟨_, e, cut⟩
      cases e
      rw [hat.drop] at cut
      exact hC skips (.string cut)
    refine .ite (fun brace => ?_) fun _ => ?_
    · subst brace
      refine quiet_token fun c1 q1 token1 => ?_
      dsimp only
      refine .ite (fun _ => ?_) fun _ => ?_
      · exact .pure _
      · exact quiet_objectLoop hD h0 ih hat token1 (fun members => hC skips (.object members)) _ _
    refine .ite (fun bracket => ?_) fun _ => ?_
    · subst bracket
      refine quiet_token fun c1 q1 token1 => ?_
      dsimp only
      exact .ite (fun _ => .pure _) fun _ => quiet_arrayLoop hD h0 ih hat token1 (fun items => hC skips (.array items)) _ _
    · exact .pure _

/-! ## Whole texts -/

lemma quiet_parse (strategy : ParseMethod) (inPlace : Bool) (h0 : 0 ∉ text) :
    Quiet (CutShort strategy text) (Steps.parse inPlace strategy text) := by
  refine quiet_call (not_cuts (by decide)) (.bind ?_ fun _ _ => .bind (quiet_consume_garbage strategy _) fun _ _ => .pure _)
  exact quiet_parse_json (covers_exact text strategy) h0 _ (at_start text) fun skips cut => ⟨_, skips, cut⟩

/-- Where a string is cut the parser leaves the text. -/
lemma outside_of_cut (inPlace : Bool) (h0 : 0 ∉ text) (h : CutShort strategy text) : ¬Inside inPlace strategy text := by
  obtain ⟨r, events, results, -⟩ := Steps.parse_ends strategy inPlace text
  obtain ⟨s, skips, cut⟩ := h
  have value : Traced.Meets Event.Cuts (Steps.parse_json inPlace strategy (max_depth + 1) { str := text }) :=
    parse_json_meets (readable_exact text strategy) h0 _ (at_start text) skips cut
  have met : Traced.Meets Event.Cuts (Steps.parse inPlace strategy text) := meets_call (.first value _)
  obtain ⟨e, he, hc⟩ := met r events results
  rw [inside_iff_events inPlace strategy results]
  exact fun uncut => uncut e he hc

/-- The parser leaves the text exactly where a string is cut. -/
theorem inside_iff_uncut (inPlace : Bool) (strategy : ParseMethod) (h0 : 0 ∉ text) :
    Inside inPlace strategy text ↔ ¬CutShort strategy text := by
  refine ⟨fun inside cut => outside_of_cut inPlace h0 cut inside, fun uncut => ?_⟩
  obtain ⟨r, events, results, -⟩ := Steps.parse_ends strategy inPlace text
  rw [inside_iff_events inPlace strategy results]
  exact fun e he hc => uncut ((quiet_parse strategy inPlace h0 r events results).2 e he hc)

theorem inside_iff_uncut_escape : 0 ∉ bytes "\"\\u00e9\"" ∧
    (Inside true .STANDARD (bytes "\"\\u00e9\"") ↔ ¬CutShort .STANDARD (bytes "\"\\u00e9\"")) := by
  have h0 : 0 ∉ bytes "\"\\u00e9\"" := by decide
  exact ⟨h0, inside_iff_uncut true .STANDARD h0⟩

/-- The text `"\u`. -/
theorem outside_escape : ¬∀ (inPlace : Bool) (strategy : ParseMethod) (text : List UInt8), 0 ∉ text → Inside inPlace strategy text := by
  intro inside
  have h0 : 0 ∉ bytes "\"\\u" := by decide
  have cut : CutShort .STANDARD (bytes "\"\\u") := ⟨_, .refl _, .string (.here (by decide))⟩
  exact outside_of_cut false h0 cut (inside false .STANDARD _ h0)

end

end Accesses

end ArrowheadCore.Json.JsonCView
