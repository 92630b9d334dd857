import ArrowheadCore.Json.Lenient

/-!
# The parser of gason accepts its grammar

`Finish` is what a text goes on with when the parser is in a state. A move keeps it (`move_finishes`), so that the parser
returns a value if and only if the grammar has it (`jsonParse_document`). A move also leads on in the text
(`move_leads`), unless the text ends with a blank or with `null`: only then the parser leaves its buffer
(`jsonParse_inside`).
-/

namespace ArrowheadCore.Json.Gason
open Lib

/-! ## What is still to come -/

/-- The level with one more value, which is a name if there is none yet. -/
def Level.add (o : JsonValue) : Level → Option Level
  | .array items => some (.array (items ++ [o]))
  | .object ms none =>
    match o with
    | .string k => some (.object ms (some k))
    | _ => none
  | .object ms (some k) => some (.object (ms ++ [(k, o)]) none)

section
variable (toInt : List UInt8 → Int)

/-- The text goes on with the rest of a level, in which there are `n` more levels at most, and what is behind it. -/
inductive Inside (n : Nat) (K : JsonValue → List UInt8 → Prop) : Level → Bool → List UInt8 → Prop
  | array {separator : Bool} {s rest : List UInt8} {items vs : List JsonValue} :
    Items (Value toInt n) separator s vs rest → K (.array (items ++ vs)) rest → Inside n K (.array items) separator s
  | object {separator : Bool} {s rest : List UInt8} {ms ms' : List (List UInt8 × JsonValue)} :
    Members toInt (Value toInt n) separator s ms' rest → K (.object (ms ++ ms')) rest →
    Inside n K (.object ms none) separator s
  | member {separator : Bool} {s s2 rest k : List UInt8} {o : JsonValue} {ms ms' : List (List UInt8 × JsonValue)} :
    (∃ s1, Colon separator s s1 ∧ Value toInt n s1 o (some s2)) → Members toInt (Value toInt n) false s2 ms' rest →
    K (.object (ms ++ (k, o) :: ms')) rest → Inside n K (.object ms (some k)) separator s

/-- Behind a value, the open levels go on up to this value of the whole. -/
def After (v : JsonValue) (r : Option (List UInt8)) : List Level → JsonValue → Option (List UInt8) → Prop
  | [], o, rest => o = v ∧ rest = r
  | l :: ls, o, rest => ∃ s l', rest = some s ∧ l.add o = some l' ∧
    Inside toInt (31 - ls.length) (fun o s => After v r ls o (some s)) l' false s

/-- In a state, the text goes on up to this value. -/
def Finish (v : JsonValue) (r : Option (List UInt8)) (m : Machine) : Prop :=
  ∃ s, m.rest = some s ∧
    match m.stack with
    | [] => ∃ s1, Skips s s1 ∧ Value toInt JSON_STACK_SIZE s1 v r
    | l :: ls => Inside toInt (31 - ls.length) (fun o s => After toInt v r ls o (some s)) l m.separator s

/-- After a move, the text goes on up to this value, or it is the value. -/
def Finishes (v : JsonValue) (r : Option (List UInt8)) : Move → Prop
  | some (.next m) => Finish toInt v r m
  | some (.stop status (some p)) => status = .OK ∧ p = (v, r)
  | _ => False

end

section
variable {toInt : List UInt8 → Int} {v : JsonValue} {r : Option (List UInt8)} {m : Machine} {s t rest : List UInt8}
  {c : UInt8} {stack : List Level} {separator : Bool}

lemma Finishes.ite {p : Prop} [Decidable p] {x y : Move} {Q : Prop} (h1 : p → (Q ↔ Finishes toInt v r x))
    (h2 : ¬p → (Q ↔ Finishes toInt v r y)) : Q ↔ Finishes toInt v r (if p then x else y) := by
  split
  next h => exact h1 h
  next h => exact h2 h

/-- What is put into the innermost level belongs to it. -/
lemma put_finishes (o : JsonValue) (m : Machine) : After toInt v r m.stack o m.rest ↔ Finishes toInt v r (put o m) := by
  obtain ⟨rest, stack, separator⟩ := m
  have next : ∀ {l l' : Level} {ls : List Level}, l.add o = some l' →
      (After toInt v r (l :: ls) o rest ↔ Finishes toInt v r (some (.next ⟨rest, l' :: ls, false⟩))) := by
    intro l l' ls added
    constructor
    · rintro ⟨s, l1, rfl, e, inside⟩
      rw [added, Option.some.injEq] at e
      subst e
      exact ⟨s, rfl, inside⟩
    · rintro ⟨s, e, inside⟩
      exact ⟨s, l', e, added, inside⟩
  cases stack with
  | nil =>
    show o = v ∧ rest = r ↔ JsonParseStatus.OK = JsonParseStatus.OK ∧ (o, rest) = (v, r)
    rw [Prod.mk.injEq, eq_self_iff_true, true_and]
  | cons l ls =>
    match l, o with
    | .array items, o => exact next rfl
    | .object ms (some k), o => exact next rfl
    | .object ms none, .string k => exact next rfl
    | .object ms none, .null | .object ms none, .true | .object ms none, .false | .object ms none, .number _
    | .object ms none, .array _ | .object ms none, .object _ =>
      refine ⟨?_, False.elim⟩
      rintro ⟨s, l', -, e, -⟩
      cases e

/-- A value begins where the blanks end, and is put into the innermost level. -/
lemma finish_value (e : s.dropWhile isspace = c :: t) (hc : isdelim c = false) :
    Finish toInt v r ⟨some s, stack, separator⟩ ↔
      ∃ o rest, Value toInt (JSON_STACK_SIZE - stack.length) (c :: t) o rest ∧ After toInt v r stack o rest := by
  have comma : c ≠ ','.toUInt8 ∧ c ≠ ':'.toUInt8 ∧ c ≠ ']'.toUInt8 ∧ c ≠ '}'.toUInt8 := by
    refine ⟨?_, ?_, ?_, ?_⟩
    all_goals
      rintro rfl
      revert hc
      decide
  obtain ⟨h1, h2, h3, h4⟩ := comma
  cases stack with
  | nil =>
    constructor
    · rintro ⟨_, ⟨⟩, s1, skips, value⟩
      obtain ⟨rfl, -⟩ := skips.start value e
      exact ⟨v, r, value, rfl, rfl⟩
    · rintro ⟨o, rest, value, rfl, rfl⟩
      exact ⟨s, rfl, _, skips_of_dropWhile e, value⟩
  | cons l ls =>
    have depth : JSON_STACK_SIZE - (l :: ls).length = 31 - ls.length := by
      rw [JSON_STACK_SIZE, List.length_cons]
      omega
    rw [depth]
    constructor
    · rintro ⟨_, ⟨⟩, inside⟩
      cases inside with
      | array items done =>
        rw [items_iff e] at items
        obtain ⟨h, -⟩ | ⟨h, -⟩ | ⟨-, o, s2, vs', rfl, value, rest⟩ := items
        · exact absurd h h3
        · exact absurd h h1
        · exact ⟨o, some s2, value, s2, _, rfl, rfl, .array rest (by rwa [List.append_assoc])⟩
      | object members done =>
        rw [members_iff e] at members
        obtain ⟨h, -⟩ | ⟨h, -⟩ | ⟨-, k, s2, s3, o, s4, ms', rfl, key, colon, value, rest⟩ := members
        · exact absurd h h4
        · exact absurd h h1
        · exact ⟨.string k, some s2, value_of_scalar key, s2, _, rfl, rfl, .member ⟨s3, colon, value⟩ rest done⟩
      | member value rest done =>
        rw [colon_iff e] at value
        obtain ⟨h, -⟩ | ⟨-, value⟩ := value
        · exact absurd h h2
        · exact ⟨_, _, value, _, _, rfl, rfl, .object rest (by rwa [List.append_assoc])⟩
    · rintro ⟨o, _, value, s2, l', rfl, added, inside⟩
      refine ⟨s, rfl, ?_⟩
      cases l with
      | array items =>
        cases added
        cases inside with
        | array items done =>
          exact .array ((items_iff e).2 (.inr (.inr ⟨hc, _, _, _, rfl, value, items⟩))) (by rwa [List.append_assoc] at done)
      | object ms key =>
        cases key with
        | none =>
          cases o with
          | string k =>
            cases added
            cases inside with
            | member value' rest done =>
              obtain ⟨s1, colon, value'⟩ := value'
              have name : Scalar toInt (c :: t) (.string k) (some s2) := scalar_of_value value
              exact .object ((members_iff e).2 (.inr (.inr ⟨hc, _, _, _, _, _, _, rfl, name, colon, value', rest⟩))) done
          | _ => cases added
        | some k =>
          cases added
          cases inside with
          | object members done =>
            exact .member ((colon_iff e).2 (.inr ⟨hc, value⟩)) members (by rwa [List.append_assoc] at done)

lemma no_value {n : Nat} {o : JsonValue} {p : Option (List UInt8)} (hc : isdelim c = true) : ¬Value toInt n (c :: t) o p := by
  intro value
  obtain ⟨d, u, e, hd⟩ := value.start
  rw [← (List.cons.inj e).1, hc] at hd
  cases hd

/-- What a level does with a delimiter. -/
lemma inside_delimiter {n : Nat} {K : JsonValue → List UInt8 → Prop} {l : Level} (e : s.dropWhile isspace = c :: t)
    (hc : isdelim c = true) : Inside toInt n K l separator s ↔
      (c = ']'.toUInt8 ∧ ∃ items, l = .array items ∧ K (.array items) t) ∨
      (c = '}'.toUInt8 ∧ ∃ ms, l = .object ms none ∧ K (.object ms) t) ∨
      (c = ','.toUInt8 ∧ separator = false ∧ l.keyed = false ∧ Inside toInt n K l true t) ∨
      (c = ':'.toUInt8 ∧ separator = false ∧ l.keyed = true ∧ Inside toInt n K l true t) := by
  have dead : isdelim c ≠ false := by simp [hc]
  constructor
  · intro inside
    cases inside with
    | array items done =>
      obtain ⟨rfl, rfl, rfl⟩ | ⟨rfl, rfl, rest⟩ | ⟨h, -⟩ := (items_iff e).1 items
      · exact .inl ⟨rfl, _, rfl, by rwa [List.append_nil] at done⟩
      · exact .inr (.inr (.inl ⟨rfl, rfl, rfl, .array rest done⟩))
      · exact absurd h dead
    | object members done =>
      obtain ⟨rfl, rfl, rfl⟩ | ⟨rfl, rfl, rest⟩ | ⟨h, -⟩ := (members_iff e).1 members
      · exact .inr (.inl ⟨rfl, _, rfl, by rwa [List.append_nil] at done⟩)
      · exact .inr (.inr (.inl ⟨rfl, rfl, rfl, .object rest done⟩))
      · exact absurd h dead
    | member value members done =>
      obtain ⟨rfl, rfl, behind⟩ | ⟨h, -⟩ := (colon_iff e).1 value
      · exact .inr (.inr (.inr ⟨rfl, rfl, rfl, .member behind members done⟩))
      · exact absurd h dead
  · rintro (⟨rfl, items, rfl, done⟩ | ⟨rfl, ms, rfl, done⟩ | ⟨rfl, rfl, keyed, inside⟩ | ⟨rfl, rfl, keyed, inside⟩)
    · exact .array ((items_iff e).2 (.inl ⟨rfl, rfl, rfl⟩)) (by rwa [List.append_nil])
    · exact .object ((members_iff e).2 (.inl ⟨rfl, rfl, rfl⟩)) (by rwa [List.append_nil])
    · cases inside with
      | array items done => exact .array ((items_iff e).2 (.inr (.inl ⟨rfl, rfl, items⟩))) done
      | object members done => exact .object ((members_iff e).2 (.inr (.inl ⟨rfl, rfl, members⟩))) done
      | member => cases keyed
    · cases inside with
      | array => cases keyed
      | object => cases keyed
      | member value members done => exact .member ((colon_iff e).2 (.inl ⟨rfl, rfl, value⟩)) members done

/-- There is no value in front of a delimiter. -/
lemma finish_delimiter (e : s.dropWhile isspace = c :: t) (hc : isdelim c = true) : ¬Finish toInt v r ⟨some s, [], separator⟩ := by
  rintro ⟨_, ⟨⟩, s1, skips, value⟩
  obtain ⟨-, h⟩ := skips.start value e
  rw [hc] at h
  cases h

lemma finish_level {l : Level} {ls : List Level} : Finish toInt v r ⟨some s, l :: ls, separator⟩ ↔
    Inside toInt (31 - ls.length) (fun o s => After toInt v r ls o (some s)) l separator s := by
  constructor
  · rintro ⟨_, ⟨⟩, inside⟩
    exact inside
  · exact fun inside => ⟨s, rfl, inside⟩

/-- Nothing ends in blanks. -/
lemma finish_blanks (e : s.dropWhile isspace = []) : ¬Finish toInt v r ⟨some s, stack, separator⟩ := by
  have none_ : ∀ {d u}, isspace d = false → ¬Skips s (d :: u) := by
    intro d u hd skips
    have := (skips_iff hd).1 skips
    rw [e] at this
    cases this
  have no_start : ∀ {n s1 o p}, Skips s s1 → ¬Value toInt n s1 o p := by
    intro n s1 o p skips value
    obtain ⟨d, u, rfl, hd⟩ := value.start
    exact none_ (isspace_of_isdelim hd) skips
  cases stack with
  | nil =>
    rintro ⟨_, ⟨⟩, s1, skips, value⟩
    exact no_start skips value
  | cons l ls =>
    rw [finish_level]
    intro inside
    cases inside with
    | array items =>
      cases items with
      | close skips => exact none_ (by decide) skips
      | comma skips => exact none_ (by decide) skips
      | item skips value => exact no_start skips value
    | object members =>
      cases members with
      | close skips => exact none_ (by decide) skips
      | comma skips => exact none_ (by decide) skips
      | member skips key => exact no_start skips (value_of_scalar key (n := 0))
    | member value =>
      obtain ⟨s1, skips | ⟨-, s2, skips, -⟩, value⟩ := value
      · exact no_start skips value
      · exact none_ (by decide) skips

lemma value_array {n : Nat} {o : JsonValue} {p : Option (List UInt8)} : Value toInt n ('['.toUInt8 :: t) o p ↔
    ∃ k vs s1, n = k + 1 ∧ o = .array vs ∧ p = some s1 ∧ Items (Value toInt k) true t vs s1 := by
  have no_scalar : ¬Scalar toInt ('['.toUInt8 :: t) o p := by
    intro h
    rcases h.first with h | h | h | h | h | h
    · exact absurd h (by decide)
    · exact absurd h (by decide)
    · exact absurd h (by decide)
    · exact absurd h (by decide)
    · exact absurd h (by decide)
    · exact absurd h.1 (by decide)
  constructor
  · intro value
    cases n with
    | zero => exact absurd value no_scalar
    | succ n =>
      cases value with
      | scalar h => exact absurd h no_scalar
      | array items => exact ⟨n, _, _, rfl, rfl, rfl, items⟩
  · rintro ⟨k, vs, s1, rfl, rfl, rfl, items⟩
    exact .array items

lemma value_object {n : Nat} {o : JsonValue} {p : Option (List UInt8)} : Value toInt n ('{'.toUInt8 :: t) o p ↔
    ∃ k ms s1, n = k + 1 ∧ o = .object ms ∧ p = some s1 ∧ Members toInt (Value toInt k) true t ms s1 := by
  have no_scalar : ¬Scalar toInt ('{'.toUInt8 :: t) o p := by
    intro h
    rcases h.first with h | h | h | h | h | h
    · exact absurd h (by decide)
    · exact absurd h (by decide)
    · exact absurd h (by decide)
    · exact absurd h (by decide)
    · exact absurd h (by decide)
    · exact absurd h.1 (by decide)
  constructor
  · intro value
    cases n with
    | zero => exact absurd value no_scalar
    | succ n =>
      cases value with
      | scalar h => exact absurd h no_scalar
      | object members => exact ⟨n, _, _, rfl, rfl, rfl, members⟩
  · rintro ⟨k, ms, s1, rfl, rfl, rfl, members⟩
    exact .object members

/-! ## Moves -/

lemma refuses_finishes {P : Prop} {status : JsonParseStatus} (h : ¬P) : P ↔ Finishes toInt v r (refuses status) :=
  ⟨fun p => h p, False.elim⟩

/-- A scalar is read as it is in the grammar. -/
lemma taken_finishes (e : s.dropWhile isspace = c :: t) (hc : isdelim c = false) (plain : c ≠ '['.toUInt8 ∧ c ≠ '{'.toUInt8)
    {token : Token} (h : ∀ o p, Scalar toInt (c :: t) o p ↔ token = .ok (o, p)) :
    Finish toInt v r ⟨some s, stack, separator⟩ ↔ Finishes toInt v r (taken ⟨some s, stack, separator⟩ token) := by
  have value : ∀ {n o p}, Value toInt n (c :: t) o p ↔ Scalar toInt (c :: t) o p := by
    intro n o p
    exact ⟨fun value => value.scalar plain, value_of_scalar⟩
  rw [finish_value e hc]
  simp only [value, h]
  cases token with
  | error status => exact refuses_finishes (by rintro ⟨o, p, h, -⟩; cases h)
  | ok p =>
    obtain ⟨o, p⟩ := p
    refine Iff.trans ?_ (put_finishes o ⟨p, stack, separator⟩)
    constructor
    · rintro ⟨o', p', h, after⟩
      cases h
      exact after
    · exact fun after => ⟨o, p, rfl, after⟩

lemma openArray_finishes (e : s.dropWhile isspace = '['.toUInt8 :: t) (depth : stack.length ≤ JSON_STACK_SIZE) :
    Finish toInt v r ⟨some s, stack, separator⟩ ↔
      Finishes toInt v r (openLevel (.array []) ⟨some t, stack, separator⟩) := by
  rw [finish_value e (by decide)]
  simp only [value_array]
  refine Finishes.ite (fun full : stack.length = _ => refuses_finishes ?_) fun room : ¬stack.length = _ => ?_
  · rintro ⟨o, p, ⟨k, vs, s1, h, -⟩, -⟩
    omega
  · have below : JSON_STACK_SIZE - stack.length = 31 - stack.length + 1 := by
      rw [JSON_STACK_SIZE] at *
      omega
    show _ ↔ Finish toInt v r ⟨some t, .array [] :: stack, true⟩
    rw [finish_level]
    constructor
    · rintro ⟨o, p, ⟨k, vs, s1, h, rfl, rfl, items⟩, after⟩
      obtain rfl : 31 - stack.length = k := by omega
      exact .array items after
    · intro inside
      cases inside with
      | array items after => exact ⟨_, _, ⟨_, _, _, below, rfl, rfl, items⟩, after⟩

lemma openObject_finishes (e : s.dropWhile isspace = '{'.toUInt8 :: t) (depth : stack.length ≤ JSON_STACK_SIZE) :
    Finish toInt v r ⟨some s, stack, separator⟩ ↔
      Finishes toInt v r (openLevel (.object [] none) ⟨some t, stack, separator⟩) := by
  rw [finish_value e (by decide)]
  simp only [value_object]
  refine Finishes.ite (fun full : stack.length = _ => refuses_finishes ?_) fun room : ¬stack.length = _ => ?_
  · rintro ⟨o, p, ⟨k, vs, s1, h, -⟩, -⟩
    omega
  · have below : JSON_STACK_SIZE - stack.length = 31 - stack.length + 1 := by
      rw [JSON_STACK_SIZE] at *
      omega
    show _ ↔ Finish toInt v r ⟨some t, .object [] none :: stack, true⟩
    rw [finish_level]
    constructor
    · rintro ⟨o, p, ⟨k, ms, s1, h, rfl, rfl, members⟩, after⟩
      obtain rfl : 31 - stack.length = k := by omega
      exact .object members after
    · intro inside
      cases inside with
      | object members after => exact ⟨_, _, ⟨_, _, _, below, rfl, rfl, members⟩, after⟩

lemma closeArray_finishes (e : s.dropWhile isspace = ']'.toUInt8 :: t) :
    Finish toInt v r ⟨some s, stack, separator⟩ ↔ Finishes toInt v r (closeArray ⟨some t, stack, separator⟩) := by
  cases stack with
  | nil => exact refuses_finishes (finish_delimiter e (by decide))
  | cons l ls =>
    rw [finish_level, inside_delimiter e (by decide)]
    have other : ']'.toUInt8 ≠ '}'.toUInt8 ∧ ']'.toUInt8 ≠ ','.toUInt8 ∧ ']'.toUInt8 ≠ ':'.toUInt8 := by decide
    simp only [other.1, other.2.1, other.2.2, false_and, or_false, true_and]
    cases l with
    | array items =>
      refine Iff.trans ?_ (put_finishes (.array items) ⟨some t, ls, separator⟩)
      constructor
      · rintro ⟨_, h, after⟩
        cases h
        exact after
      · exact fun after => ⟨items, rfl, after⟩
    | object => exact refuses_finishes (by rintro ⟨_, h, -⟩; cases h)

lemma closeObject_finishes (e : s.dropWhile isspace = '}'.toUInt8 :: t) :
    Finish toInt v r ⟨some s, stack, separator⟩ ↔ Finishes toInt v r (closeObject ⟨some t, stack, separator⟩) := by
  cases stack with
  | nil => exact refuses_finishes (finish_delimiter e (by decide))
  | cons l ls =>
    rw [finish_level, inside_delimiter e (by decide)]
    have other : '}'.toUInt8 ≠ ']'.toUInt8 ∧ '}'.toUInt8 ≠ ','.toUInt8 ∧ '}'.toUInt8 ≠ ':'.toUInt8 := by decide
    simp only [other.1, other.2.1, other.2.2, false_and, or_false, false_or, true_and]
    match l with
    | .object ms none =>
      refine Iff.trans ?_ (put_finishes (.object ms) ⟨some t, ls, separator⟩)
      constructor
      · rintro ⟨_, h, after⟩
        cases h
        exact after
      · exact fun after => ⟨ms, rfl, after⟩
    | .array _ => exact refuses_finishes (by rintro ⟨_, h, -⟩; cases h)
    | .object _ (some _) => exact refuses_finishes (by rintro ⟨_, h, -⟩; cases h)

/-- A comma stands behind an item, and a colon behind a name. -/
lemma separated_finishes {keyed : Bool} (e : s.dropWhile isspace = c :: t)
    (hc : c = if keyed then ':'.toUInt8 else ','.toUInt8) :
    Finish toInt v r ⟨some s, stack, separator⟩ ↔ Finishes toInt v r (separated keyed ⟨some t, stack, separator⟩) := by
  have delimiter : isdelim c = true := by
    rw [hc]
    cases keyed <;> decide
  cases stack with
  | nil =>
    refine Finishes.ite (fun _ => refuses_finishes (finish_delimiter e delimiter)) fun _ => ?_
    exact ⟨fun h => finish_delimiter e delimiter h, False.elim⟩
  | cons l ls =>
    have one : Finish toInt v r ⟨some s, l :: ls, separator⟩ ↔
        separator = false ∧ l.keyed = keyed ∧ Finish toInt v r ⟨some t, l :: ls, true⟩ := by
      rw [finish_level, finish_level, inside_delimiter e delimiter]
      have other : ∀ d, (d = ']'.toUInt8 ∨ d = '}'.toUInt8) → c ≠ d := by
        rintro d h rfl
        rw [hc] at h
        revert h
        cases keyed <;> decide
      simp only [other _ (.inl rfl), other _ (.inr rfl), false_and, false_or]
      have pick : (c = ','.toUInt8 ↔ keyed = false) ∧ (c = ':'.toUInt8 ↔ keyed = true) := by
        rw [hc]
        cases keyed <;> decide
      rw [pick.1, pick.2]
      cases keyed <;> simp
    rw [one]
    refine Finishes.ite (fun sep : separator = true => refuses_finishes fun h => ?_) fun sep : ¬separator = true =>
      Finishes.ite (fun h => refuses_finishes fun h' => h h'.2.1) fun h => ?_
    · rw [sep] at h
      cases h.1
    · show _ ↔ Finish toInt v r ⟨some t, l :: ls, true⟩
      rw [not_not] at h
      exact ⟨fun h => h.2.2, fun h' => ⟨by simpa using sep, h, h'⟩⟩

lemma number_iff (e : s.dropWhile isspace = c :: t) (begins : Begins c t) (plain : c ≠ '['.toUInt8 ∧ c ≠ '{'.toUInt8) :
    Finish toInt v r ⟨some s, stack, separator⟩ ↔
      Finishes toInt v r (taken ⟨some s, stack, separator⟩ (readNumber toInt (c :: t))) :=
  taken_finishes e begins.no_delimiter plain fun _ _ => scalar_number begins

/-- No text begins like this. -/
lemma unexpected (e : s.dropWhile isspace = c :: t) (h : ∀ n o p, ¬Value toInt n (c :: t) o p)
    (h' : isdelim c = true → c ≠ ']'.toUInt8 ∧ c ≠ '}'.toUInt8 ∧ c ≠ ','.toUInt8 ∧ c ≠ ':'.toUInt8) :
    ¬Finish toInt v r ⟨some s, stack, separator⟩ := by
  intro finish
  cases hc : isdelim c with
  | false =>
    obtain ⟨o, p, value, -⟩ := (finish_value e hc).1 finish
    exact h _ _ _ value
  | true =>
    cases stack with
    | nil => exact finish_delimiter e hc finish
    | cons l ls =>
      obtain ⟨h1, h2, h3, h4⟩ := h' hc
      obtain h | h | h | h := (inside_delimiter e hc).1 (finish_level.1 finish)
      · exact h1 h.1
      · exact h2 h.1
      · exact h3 h.1
      · exact h4 h.1

/-- What the text goes on with is kept by a move. -/
lemma move_finishes (depth : m.stack.length ≤ JSON_STACK_SIZE) : Finish toInt v r m ↔ Finishes toInt v r (move toInt m) := by
  obtain ⟨rest, stack, separator⟩ := m
  match rest with
  | none =>
    refine ⟨?_, False.elim⟩
    rintro ⟨_, h, -⟩
    cases h
  | some [] => exact refuses_finishes (finish_blanks rfl)
  | some (d :: u) =>
    cases e : (d :: u).dropWhile isspace with
    | nil =>
      simp only [move, e]
      refine ⟨fun h => absurd h (finish_blanks e), ?_⟩
      rintro ⟨_, h, -⟩
      cases h
    | cons c t =>
      simp only [move, e]
      rw [dispatch]
      refine Finishes.ite (fun minus => ?_) fun h1 => ?_
      · subst minus
        refine Finishes.ite (fun bad => refuses_finishes ?_) fun good => ?_
        · simp only [Bool.and_eq_true, Bool.not_eq_true', decide_eq_true_eq, ne_eq] at bad
          refine unexpected e (fun n o p value => ?_) fun h => absurd h (by decide)
          rcases (value.scalar (by decide)).first with h | h | h | h | h | ⟨-, h | h⟩
          · exact absurd h (by decide)
          · exact absurd h (by decide)
          · exact absurd h (by decide)
          · exact absurd h (by decide)
          · exact absurd h (by decide)
          · rw [bad.1] at h
            cases h
          · exact bad.2 h
        · refine number_iff e (.inr ⟨rfl, ?_⟩) (by decide)
          simpa [or_iff_not_imp_left] using good
      refine Finishes.ite (fun digit => ?_) fun h2 => ?_
      · exact number_iff e (.inl digit) ⟨isdigit_ne digit (by decide), isdigit_ne digit (by decide)⟩
      refine Finishes.ite (fun h => ?_) fun h3 => ?_
      · subst h
        exact taken_finishes e (by decide) (by decide) fun _ _ => scalar_string
      refine Finishes.ite (fun h => ?_) fun h4 => ?_
      · subst h
        exact taken_finishes e (by decide) (by decide) fun _ _ => scalar_true
      refine Finishes.ite (fun h => ?_) fun h5 => ?_
      · subst h
        exact taken_finishes e (by decide) (by decide) fun _ _ => scalar_false
      refine Finishes.ite (fun h => ?_) fun h6 => ?_
      · subst h
        exact taken_finishes e (by decide) (by decide) fun _ _ => scalar_null
      refine Finishes.ite (fun h => ?_) fun h7 => ?_
      · subst h
        exact closeArray_finishes e
      refine Finishes.ite (fun h => ?_) fun h8 => ?_
      · subst h
        exact closeObject_finishes e
      refine Finishes.ite (fun h => ?_) fun h9 => ?_
      · subst h
        exact openArray_finishes e depth
      refine Finishes.ite (fun h => ?_) fun h10 => ?_
      · subst h
        exact openObject_finishes e depth
      refine Finishes.ite (fun h => ?_) fun h11 => ?_
      · exact separated_finishes e h
      refine Finishes.ite (fun h => ?_) fun h12 => ?_
      · exact separated_finishes e h
      refine refuses_finishes (unexpected e (fun n o p value => ?_) fun _ => ⟨h7, h8, h12, h11⟩)
      rcases (value.scalar ⟨h9, h10⟩).first with h | h | h | h | h | ⟨h, -⟩
      exacts [h3 h, h4 h, h5 h, h6 h, h2 h, h1 h]

end

/-! ## Runs -/

/-- The text ends with a blank or with `null`. -/
def Ends (text : List UInt8) : Prop := text.getLast?.any isspace = true ∨ bytes "null" <:+ text

instance (text : List UInt8) : Decidable (Ends text) := inferInstanceAs (Decidable (_ ∨ _))

/-- What holds in every state. Only such a text leads behind its NUL. -/
structure Within (text : List UInt8) (m : Machine) : Prop where
  depth : m.stack.length ≤ JSON_STACK_SIZE
  separator : m.stack = [] → m.separator = true
  rest : m.rest.elim (Ends text) (· <:+ text)

def Machine.remaining (m : Machine) : Nat := m.rest.elim 0 fun s => s.length + 1

/-- A move leads on in the text, or ends the run. -/
def Leads (text : List UInt8) (m : Machine) : Move → Prop
  | none => False
  | some (.next m') => Within text m' ∧ m'.remaining < m.remaining
  | some (.stop _ _) => True

section
variable {toInt : List UInt8 → Int} {v : JsonValue} {r : Option (List UInt8)} {m m' : Machine} {text s t : List UInt8} {c : UInt8}

lemma Leads.ite {p : Prop} [Decidable p] {x y : Move} (h1 : p → Leads text m x) (h2 : ¬p → Leads text m y) :
    Leads text m (if p then x else y) := by
  split
  next h => exact h1 h
  next h => exact h2 h

/-- Behind a scalar, the text is shorter; it is left with a `null` at its end only. -/
lemma Scalar.shorter (h : Scalar toInt (c :: s) v r) : r.elim (bytes "null" <:+ c :: s) (· <:+ s) := by
  generalize e : c :: s = t at h
  cases h with
  | true =>
    obtain ⟨-, rfl⟩ := List.cons.inj e
    exact List.suffix_append (bytes "rue") _
  | false =>
    obtain ⟨-, rfl⟩ := List.cons.inj e
    exact List.suffix_append (bytes "alse") _
  | null =>
    obtain ⟨-, rfl⟩ := List.cons.inj e
    exact (List.suffix_cons _ _).trans (List.suffix_append (bytes "ull") _)
  | nullAtEnd => exact List.suffix_rfl
  | @number w rest number =>
    cases w with
    | nil =>
      obtain ⟨sign, ds, f, e, h, first, -⟩ := number
      have : sign = [] ∧ ds = [] ∧ f = [] := by simp_all
      simp [this] at first
    | cons d w =>
      obtain ⟨-, rfl⟩ := List.cons.inj e
      exact List.suffix_append w _
  | string =>
    obtain ⟨-, rfl⟩ := List.cons.inj e
    exact (List.suffix_cons _ _).trans (List.suffix_append _ _)
  | unended => exact List.nil_suffix

lemma put_leads {o : JsonValue} (within : Within text m) (less : m.remaining < m'.remaining) :
    Leads text m' (put o m) := by
  obtain ⟨rest, stack, separator⟩ := m
  cases stack with
  | nil => trivial
  | cons l ls =>
    have next : ∀ l' : Level, Leads text m' (some (.next ⟨rest, l' :: ls, false⟩)) :=
      fun l' => ⟨⟨within.depth, fun h => absurd h (List.cons_ne_nil _ _), within.rest⟩, less⟩
    match l, o with
    | .array items, o => exact next _
    | .object ms (some k), o => exact next _
    | .object ms none, .string k => exact next _
    | .object ms none, .null | .object ms none, .true | .object ms none, .false | .object ms none, .number _
    | .object ms none, .array _ | .object ms none, .object _ => trivial

lemma taken_leads (within : Within text m) (suffix : c :: t <:+ text) (less : t.length + 1 < m.remaining) {token : Token}
    (h : ∀ o p, token = .ok (o, p) → Scalar toInt (c :: t) o p) : Leads text m (taken m token) := by
  cases token with
  | error => trivial
  | ok p =>
    obtain ⟨o, p⟩ := p
    have shorter := (h o p rfl).shorter
    refine put_leads ⟨within.depth, within.separator, ?_⟩ ?_
    · cases p with
      | none => exact .inr (shorter.trans suffix)
      | some rest => exact shorter.trans ((List.suffix_cons c t).trans suffix)
    · cases p with
      | none => exact Nat.lt_of_le_of_lt (Nat.zero_le _) less
      | some rest => exact Nat.lt_of_le_of_lt (Nat.add_le_add_right shorter.length_le 1) less

/-- A move leads on, if the text is not left already. -/
lemma move_leads (within : Within text m) (hs : m.rest = some s) : Leads text m (move toInt m) := by
  obtain ⟨rest, stack, separator⟩ := m
  obtain rfl : rest = some s := hs
  have suffix : s <:+ text := within.rest
  cases s with
  | nil => trivial
  | cons d u =>
    cases e : (d :: u).dropWhile isspace with
    | nil =>
      simp only [move, e]
      refine ⟨⟨within.depth, within.separator, .inl ?_⟩, Nat.succ_pos _⟩
      obtain ⟨w, rfl⟩ := suffix
      have blank : isspace ((d :: u).getLast (by simp)) = true := List.dropWhile_eq_nil_iff.1 e _ (List.getLast_mem _)
      rw [List.getLast?_append_of_ne_nil _ (List.cons_ne_nil d u), List.getLast?_eq_some_getLast (List.cons_ne_nil d u)]
      exact blank
    | cons c t =>
      have here : c :: t <:+ d :: u := e ▸ List.dropWhile_suffix isspace
      have behind : t <:+ text := (List.suffix_cons c t).trans (here.trans suffix)
      have less : t.length + 1 < (⟨some (d :: u), stack, separator⟩ : Machine).remaining :=
        Nat.lt_succ_of_le here.length_le
      have next : Within text ⟨some t, stack, separator⟩ := ⟨within.depth, within.separator, behind⟩
      have popped : ∀ {l ls}, stack = l :: ls → ∀ o, Leads text ⟨some (d :: u), stack, separator⟩ (put o ⟨some t, ls, separator⟩) := by
        rintro l ls rfl o
        cases ls with
        | nil => trivial
        | cons l' ls => exact put_leads ⟨Nat.le_of_succ_le within.depth, fun h => absurd h (List.cons_ne_nil _ _), behind⟩ less
      have opened : ∀ l, Leads text ⟨some (d :: u), stack, separator⟩ (openLevel l ⟨some t, stack, separator⟩) := by
        intro l
        refine Leads.ite (fun _ => trivial) fun room : ¬stack.length = _ => ⟨⟨?_, fun h => absurd h (List.cons_ne_nil _ _), behind⟩, less⟩
        exact Nat.lt_of_le_of_ne within.depth room
      have separated_leads : ∀ keyed, Leads text ⟨some (d :: u), stack, separator⟩ (separated keyed ⟨some t, stack, separator⟩) := by
        intro keyed
        refine Leads.ite (fun _ => trivial) fun sep : ¬separator = true => ?_
        cases stack with
        | nil => exact absurd (within.separator rfl) sep
        | cons l ls => exact Leads.ite (fun _ => trivial) fun _ => ⟨⟨within.depth, fun h => absurd h (List.cons_ne_nil _ _), behind⟩, less⟩
      have scalar : ∀ {token : Token}, (∀ o p, token = .ok (o, p) → Scalar toInt (c :: t) o p) →
          Leads text ⟨some (d :: u), stack, separator⟩ (taken ⟨some (d :: u), stack, separator⟩ token) :=
        taken_leads within (here.trans suffix) less
      simp only [move, e]
      rw [dispatch]
      refine Leads.ite (fun minus => Leads.ite (fun _ => trivial) fun good => ?_) fun _ => ?_
      · refine scalar fun _ _ => (scalar_number (.inr ⟨minus, ?_⟩)).2
        simpa [or_iff_not_imp_left] using good
      refine Leads.ite (fun digit => scalar fun _ _ => (scalar_number (.inl digit)).2) fun _ => ?_
      refine Leads.ite (fun h => scalar fun _ _ => h ▸ scalar_string.2) fun _ => ?_
      refine Leads.ite (fun h => scalar fun _ _ => h ▸ scalar_true.2) fun _ => ?_
      refine Leads.ite (fun h => scalar fun _ _ => h ▸ scalar_false.2) fun _ => ?_
      refine Leads.ite (fun h => scalar fun _ _ => h ▸ scalar_null.2) fun _ => ?_
      refine Leads.ite (fun _ => ?_) fun _ => Leads.ite (fun _ => ?_) fun _ => ?_
      · cases stack with
        | nil => trivial
        | cons l ls =>
          cases l with
          | array items => exact popped rfl _
          | object _ _ => trivial
      · cases stack with
        | nil => trivial
        | cons l ls =>
          cases l with
          | array _ => trivial
          | object ms key =>
            cases key with
            | none => exact popped rfl _
            | some _ => trivial
      refine Leads.ite (fun _ => opened _) fun _ => Leads.ite (fun _ => opened _) fun _ => ?_
      exact Leads.ite (fun _ => separated_leads _) fun _ => Leads.ite (fun _ => separated_leads _) fun _ => trivial

/-- A run ends, and only a text with such an end is left. -/
lemma run_ends (within : Within text m) {n : Nat} (hn : m.remaining ≤ n) (h : run (move toInt) n m = none) : Ends text := by
  induction n generalizing m with
  | zero =>
    cases e : m.rest with
    | none =>
      have := within.rest
      rwa [e] at this
    | some s =>
      rw [Machine.remaining, e] at hn
      cases hn
  | succ n ih =>
    cases e : m.rest with
    | none =>
      have := within.rest
      rwa [e] at this
    | some s =>
      have leads : Leads text m (move toInt m) := move_leads within e
      rw [run] at h
      generalize move toInt m = x at leads h
      cases x with
      | none => exact leads.elim
      | some turn =>
        cases turn with
        | next m' => exact ih leads.1 (Nat.le_of_lt_succ (Nat.lt_of_lt_of_le leads.2 hn)) h
        | stop _ _ => cases h

lemma run_finish (within : Within text m) {n : Nat} (hn : m.remaining ≤ n) :
    run (move toInt) n m = some (.OK, some (v, r)) ↔ Finish toInt v r m := by
  induction n generalizing m with
  | zero =>
    constructor
    · intro h
      cases h
    · rintro ⟨s, e, -⟩
      rw [Machine.remaining, e] at hn
      cases hn
  | succ n ih =>
    rw [move_finishes within.depth]
    cases e : m.rest with
    | none =>
      have : move toInt m = none := by rw [move, e]
      rw [run, this]
      exact ⟨fun h => (by cases h), False.elim⟩
    | some s =>
      have leads : Leads text m (move toInt m) := move_leads within e
      rw [run]
      generalize move toInt m = x at leads
      cases x with
      | none => exact leads.elim
      | some turn =>
        cases turn with
        | next m' => exact ih leads.1 (Nat.le_of_lt_succ (Nat.lt_of_lt_of_le leads.2 hn))
        | stop status value =>
          cases value with
          | none => exact ⟨fun h => (by cases h), False.elim⟩
          | some p =>
            constructor
            · intro h
              cases h
              exact ⟨rfl, rfl⟩
            · rintro ⟨rfl, rfl⟩
              rfl

lemma start_within (text : List UInt8) : Within text ⟨some text, [], true⟩ := ⟨Nat.zero_le _, fun _ => rfl, List.suffix_rfl⟩

lemma parse_iff (text : List UInt8) : parse toInt text = some (.OK, some (v, r)) ↔ Document toInt text v r := by
  refine (run_finish (start_within text) (Nat.le_refl (text.length + 1))).trans ?_
  constructor
  · rintro ⟨_, ⟨⟩, s, skips, value⟩
    exact ⟨s, skips, value⟩
  · rintro ⟨s, skips, value⟩
    exact ⟨text, rfl, s, skips, value⟩

/-- The text has one value at most. -/
lemma Document.unique {v' : JsonValue} {r' : Option (List UInt8)} (h : Document toInt text v r)
    (h' : Document toInt text v' r') : v = v' ∧ r = r' := by
  have := (parse_iff text).2 h
  rw [(parse_iff text).2 h', Option.some.injEq, Prod.mk.injEq, Option.some.injEq, Prod.mk.injEq] at this
  exact ⟨this.2.1.symm, this.2.2.symm⟩

lemma gives_iff (h0 : 0 ∉ text) :
    (∃ st o, jsonParse text = some (.OK, st, some o) ∧ Gives toInt st o v r) ↔ parse toInt text = some (.OK, some (v, r)) := by
  have agree := jsonParse_agree toInt h0
  constructor
  · rintro ⟨st, o, e, gives⟩
    rw [e] at agree
    generalize parse toInt text = x at agree
    cases agree with
    | ok gives' =>
      obtain ⟨rfl, rfl⟩ := gives.unique gives'
      rfl
  · intro e
    rw [e] at agree
    generalize jsonParse text = x at agree
    cases agree with
    | ok gives => exact ⟨_, _, rfl, gives⟩

/-- The parser returns a value if and only if the text begins with one: what it has in its buffer and in its nodes then
    is this value, and it points to what is behind it. -/
theorem jsonParse_document (h0 : 0 ∉ text) :
    (∃ st o, jsonParse text = some (.OK, st, some o) ∧ Gives toInt st o v r) ↔ Document toInt text v r :=
  (gives_iff h0).trans (parse_iff text)

theorem jsonParse_document_sloppy : ∃ st o, jsonParse (bytes "[1 2,]") = some (.OK, st, some o) ∧
    Gives (strtol 10) st o (.array [.number 1, .number 2]) (some []) :=
  (jsonParse_document (by decide)).2 ((parse_iff (bytes "[1 2,]")).1 rfl)

/-- The parser reads and writes nothing outside of its buffer and its stack, and ends, if the text has no such end. -/
theorem jsonParse_inside (h0 : 0 ∉ text) (h : ¬Ends text) : jsonParse text ≠ none := by
  intro e
  have agree := jsonParse_agree (fun _ => 0) h0
  rw [e] at agree
  generalize e' : parse (fun _ => 0) text = x at agree
  cases agree with
  | beyond => exact h (run_ends (start_within text) (Nat.le_refl (text.length + 1)) e')

theorem jsonParse_inside_sloppy : jsonParse (bytes "[1 2,]") ≠ none := jsonParse_inside (by decide) (by decide)

example : jsonParse (bytes "[1 ") = none ∧ jsonParse (bytes "[null") = none := by decide

end

end ArrowheadCore.Json.Gason
