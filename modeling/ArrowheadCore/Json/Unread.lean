import ArrowheadCore.Json.Written
import ArrowheadCore.Json.Derived

/-!
# Texts that denote nothing

A text of the grammar has one tree, as `JsonView` reads what the grammar derives. `Unread s` says that no value begins at
`s`. A bracket that closes an object is such a text, and so is the text of an object with such a text for a member:
whatever is derived from it has to go through the members in their order.
-/

namespace ArrowheadCore.Json
open Lib JsonView Grammar

def Unread (s : List UInt8) : Prop := ∀ n rest s1 v s2, Skips rfc (s ++ rest) s1 → ¬Value rfc n s1 v s2

/-- What a text denotes, if anything. -/
def Reading (s : List UInt8) : Option JsonNode → Prop
  | some v => Denotes s v
  | none => Unread s

section
variable {s s1 s2 t1 t2 rest : List UInt8} {v w : JsonNode}

lemma cursor_inj {text : List UInt8} (h1 : s1 <:+ text) (h2 : s2 <:+ text) (h : cursor text s1 = cursor text s2) : s1 = s2 := by
  have index := congrArg JsonParser.i h
  have := h1.length_le
  have := h2.length_le
  simp only [cursor] at index
  exact List.IsSuffix.eq_of_length (List.suffix_of_suffix_length_le h1 h2 (by omega)) (by omega)

/-- A text has one tree and one end. -/
lemma value_unique {m n : Nat} (skip1 : Skips rfc s s1) (h1 : Value rfc m s1 v t1) (e1 : Ends t1) (skip2 : Skips rfc s s2)
    (h2 : Value rfc n s2 w t2) (e2 : Ends t2) : v = w ∧ t1 = t2 := by
  have parser := parse_json_parses s .STANDARD (max m n)
  have h1 := (h1.mono rfc_sub).le (Nat.le_max_left m n)
  have h2 := (h2.mono rfc_sub).le (Nat.le_max_right m n)
  obtain ⟨suffix1, p1⟩ := parser.parses List.suffix_rfl (skip1.mono rfc_sub) h1 e1
  obtain ⟨suffix2, p2⟩ := parser.parses List.suffix_rfl (skip2.mono rfc_sub) h2 e2
  rw [p1, Option.some.injEq, Prod.mk.injEq] at p2
  exact ⟨p2.1, cursor_inj suffix1 suffix2 p2.2⟩

lemma document_unique {m n : Nat} (h1 : Document rfc m s v) (h2 : Document rfc n s w) : v = w := by
  obtain ⟨s1, t1, skip1, value1, end1⟩ := h1
  obtain ⟨s2, t2, skip2, value2, end2⟩ := h2
  exact (value_unique skip1 value1 (ends_of_skips_nil (end1.mono rfc_sub)) skip2 value2
    (ends_of_skips_nil (end2.mono rfc_sub))).1

lemma Unread.not_document (h : Unread s) (n : Nat) (v : JsonNode) : ¬Document rfc n s v := by
  rintro ⟨s1, s2, skip, value, -⟩
  exact h n [] s1 v s2 (by rwa [List.append_nil]) value

/-! ## Tokens -/

lemma skips_token {c : UInt8} (hc : isBlank c = false) (h : Skips rfc (c :: s) rest) : rest = c :: s := by
  obtain ⟨w, e, blank⟩ := h
  cases w with
  | nil => exact e.symm
  | cons b w =>
    obtain ⟨rfl, -⟩ := List.cons.inj e
    have := blank c (by simp)
    rw [hc] at this
    cases this

lemma skips_past {c : UInt8} (h : Skips rfc (c :: s) rest) : rest = c :: s ∨ Skips rfc s rest := by
  obtain ⟨w, e, blank⟩ := h
  cases w with
  | nil => exact .inl e.symm
  | cons b w =>
    obtain ⟨-, rfl⟩ := List.cons.inj e
    exact .inr ⟨w, rfl, fun c hc => blank c (by simp [hc])⟩

/-- A name without escapes ends at the first quote. -/
lemma name_unique {last : Int} {k k' : List UInt8} (hk : Clean k) {out : List UInt8} (h : Spells last k' out)
    (e : k' ++ '"'.toUInt8 :: s1 = k ++ '"'.toUInt8 :: s2) : k' = k ∧ s1 = s2 := by
  induction k generalizing last k' out with
  | nil =>
    cases h with
    | nil => exact ⟨rfl, (List.cons.inj e).2⟩
    | plain _ hq => exact absurd (List.cons.inj e).1 hq
    | short => exact absurd (List.cons.inj e).1 (by decide)
    | hex => exact absurd (List.cons.inj e).1 (by decide)
  | cons c k ih =>
    have hc := hk c (by simp)
    cases h with
    | nil => exact absurd (List.cons.inj e).1.symm hc.2.1
    | plain _ _ _ h =>
      rw [List.cons_append, List.cons_append, List.cons.injEq] at e
      obtain ⟨rfl, e⟩ := e
      obtain ⟨rfl, rfl⟩ := ih (fun d hd => hk d (by simp [hd])) h e
      exact ⟨rfl, rfl⟩
    | short => exact absurd (List.cons.inj e).1.symm hc.2.2
    | hex => exact absurd (List.cons.inj e).1.symm hc.2.2

/-! ## Objects -/

lemma first_ne_bracket {n : Nat} {c : UInt8} (h : Value rfc n (c :: s) v rest) : c ≠ '}'.toUInt8 := by
  cases n with
  | zero => exact h.elim
  | succ n =>
    generalize e : c :: s = t at h
    cases h with
    | number _ h =>
      obtain ⟨d, ds, rfl, hd⟩ := isNumber_head h
      obtain ⟨rfl, -⟩ := List.cons.inj e
      rintro rfl
      revert hd
      decide
    | _ =>
      obtain ⟨rfl, -⟩ := List.cons.inj e
      decide

lemma unread_bracket : Unread (bytes "\x7d") := by
  intro n rest s1 v s2 skip value
  have e : bytes "\x7d" = ['}'.toUInt8] := by decide
  rw [e, List.singleton_append] at skip
  obtain rfl := skips_token (by decide) skip
  exact first_ne_bracket value rfl

/-- The only way to read the text of a member. -/
lemma member_inv {V : List UInt8 → JsonNode → List UInt8 → Prop} {k : List UInt8} (hk : Clean k) {m : List UInt8 × JsonNode}
    (h : Grammar.Member rfc V (memberText (k, s) ++ rest) m s1) :
    ∃ v s3, m = (k, v) ∧ Skips rfc (' '.toUInt8 :: (s ++ rest)) s3 ∧ V s3 v s1 := by
  rw [memberText, List.append_assoc, nameText_append] at h
  cases h with
  | mk skip1 name skip2 skip3 value =>
    have e := skips_token (by decide) skip1
    rw [List.cons.injEq] at e
    obtain ⟨out, spells⟩ := name
    obtain ⟨rfl, rfl⟩ := name_unique hk spells e.2
    have e := skips_token (by decide) skip2
    rw [List.cons.injEq] at e
    obtain ⟨-, rfl⟩ := e
    exact ⟨_, _, rfl, skip3, value⟩

/-- What is read of a value behind the colon of its member. -/
lemma Reading.behind_colon {r : Option JsonNode} (h : Reading s r) (hends : Ends rest) {n : Nat} {s3 : List UInt8}
    (skip : Skips rfc (' '.toUInt8 :: (s ++ rest)) s3) (value : Value rfc n s3 v s1) (hs1 : Ends s1) :
    r = some v ∧ s1 = rest := by
  cases r with
  | none =>
    obtain rfl | skip := skips_past skip
    · obtain ⟨c, cs, e, solid, -⟩ := value_head value
      obtain ⟨rfl, -⟩ := List.cons.inj e
      exact absurd solid (by decide)
    · exact absurd value (h n rest _ _ _ skip)
  | some w =>
    obtain ⟨m, hm⟩ := h
    obtain ⟨rfl, rfl⟩ := value_unique skip value hs1 (skips_rfc_blank _) (hm rest) hends
    exact ⟨rfl, rfl⟩

/-- What can be behind the bracket that opens an object. -/
lemma brace_inv {n : Nat} (h : Value rfc n ('{'.toUInt8 :: s) v rest) :
    Skips rfc s ('}'.toUInt8 :: rest) ∨ ∃ m ms, Members rfc (Value rfc m) s ms rest := by
  cases n with
  | zero => exact h.elim
  | succ n =>
    generalize e : '{'.toUInt8 :: s = t at h
    cases h with
    | number _ h =>
      obtain ⟨d, ds, rfl, hd⟩ := isNumber_head h
      obtain ⟨rfl, -⟩ := List.cons.inj e
      exact absurd hd (by decide)
    | emptyObject skip =>
      obtain ⟨-, rfl⟩ := List.cons.inj e
      exact .inl skip
    | object members =>
      obtain ⟨-, rfl⟩ := List.cons.inj e
      exact .inr ⟨n, _, members⟩
    | _ => exact absurd (List.cons.inj e).1 (by decide)

lemma members_quote {x : List UInt8 × List UInt8} (xs : List (List UInt8 × List UInt8)) :
    ∃ cs, commaList ((x :: xs).map memberText) = '"'.toUInt8 :: cs := by
  cases xs with
  | nil => exact ⟨_, nameText_append x.1 x.2⟩
  | cons y xs =>
    rw [List.map_cons, List.map_cons, commaList_cons, memberText, List.append_assoc, nameText_append]
    exact ⟨_, rfl⟩

/-- What is read of the first member in front of a bracket or a comma. -/
lemma Reading.member {k : List UInt8} (hk : Clean k) {r : Option JsonNode} (h : Reading s r) (hends : Ends rest) {n : Nat}
    {m : List UInt8 × JsonNode} (hm : Grammar.Member rfc (Value rfc n) (memberText (k, s) ++ rest) m s1) (hs1 : Ends s1) :
    r.isSome ∧ s1 = rest := by
  obtain ⟨v, s3, -, skip, value⟩ := member_inv hk hm
  obtain ⟨rfl, e⟩ := h.behind_colon hends skip value hs1
  exact ⟨rfl, e⟩

/-- Whoever reads the members of an object reads each of their values. -/
lemma members_read {n : Nat} {ts : List ((List UInt8 × List UInt8) × Option JsonNode)}
    (hts : ∀ x ∈ ts, Clean x.1.1 ∧ Reading x.1.2 x.2) (hne : ts ≠ []) {ms : List (List UInt8 × JsonNode)}
    (h : Members rfc (Value rfc n) (commaList ((ts.map Prod.fst).map memberText) ++ '}'.toUInt8 :: rest) ms s1) :
    ∀ x ∈ ts, x.2.isSome := by
  have brace : ∀ {s t}, Skips rfc s ('}'.toUInt8 :: t) → Ends s := fun h => ends_of_skips (h.mono rfc_sub) (by decide)
  have comma : ∀ {s t}, Skips rfc s (','.toUInt8 :: t) → Ends s := fun h => ends_of_skips (h.mono rfc_sub) (by decide)
  induction ts generalizing ms with
  | nil => simp
  | cons x ts ih =>
    obtain ⟨⟨k, s⟩, r⟩ := x
    obtain ⟨hk, hs⟩ := hts ((k, s), r) List.mem_cons_self
    cases ts with
    | nil =>
      have ends : Ends ('}'.toUInt8 :: rest) := brace (skips_rfc _)
      have first : r.isSome := by
        cases h with
        | last hm skip => exact (hs.member hk ends hm (brace skip)).1
        | more hm skip => exact (hs.member hk ends hm (comma skip)).1
      simpa using first
    | cons y ts =>
      rw [List.map_cons, List.map_cons, List.map_cons, List.map_cons, commaList_cons, List.append_assoc, List.cons_append,
        ← List.map_cons, ← List.map_cons] at h
      have ends := comma (skips_rfc (','.toUInt8 :: (commaList (((y :: ts).map Prod.fst).map memberText) ++ '}'.toUInt8 :: rest)))
      cases h with
      | last hm skip =>
        obtain ⟨-, rfl⟩ := hs.member hk ends hm (brace skip)
        have e := skips_token (by decide) skip
        exact absurd (List.cons.inj e).1 (by decide)
      | more hm skip more =>
        obtain ⟨first, rfl⟩ := hs.member hk ends hm (comma skip)
        have e := skips_token (by decide) skip
        obtain ⟨-, rfl⟩ := List.cons.inj e
        have others := ih (fun x hx => hts x (List.mem_cons_of_mem _ hx)) (by simp) more
        exact List.forall_mem_cons.2 ⟨first, others⟩

/-- What the text of an object denotes. -/
def objectReading (ts : List ((List UInt8 × List UInt8) × Option JsonNode)) : Option JsonNode :=
  if ts ≠ [] ∧ ∀ x ∈ ts, x.2.isSome then some (.object (ts.map fun x => (x.1.1, x.2.getD .null))) else none

lemma objectReading_eq_some {ts : List ((List UInt8 × List UInt8) × Option JsonNode)} {ms : List (List UInt8 × JsonNode)} :
    objectReading ts = some (.object ms) ↔
      ts ≠ [] ∧ ts.map (fun x => (x.1.1, x.2)) = ms.map fun m => (m.1, some m.2) := by
  rw [objectReading]
  constructor
  · intro h
    split at h
    next all =>
      obtain rfl : ts.map (fun x => (x.1.1, x.2.getD .null)) = ms := by simpa using h
      refine ⟨all.1, ?_⟩
      rw [List.map_map]
      apply List.map_congr_left
      intro x hx
      obtain ⟨v, hv⟩ := Option.isSome_iff_exists.1 (all.2 x hx)
      simp [hv]
    · cases h
  · rintro ⟨hne, e⟩
    have all : ∀ x ∈ ts, x.2.isSome := by
      intro x hx
      have : (x.1.1, x.2) ∈ ms.map fun m => (m.1, some m.2) := by
        rw [← e]
        exact List.mem_map_of_mem hx
      obtain ⟨m, -, hm⟩ := List.mem_map.1 this
      rw [← (Prod.mk.inj hm).2]
      rfl
    rw [if_pos ⟨hne, all⟩, Option.some.injEq, JsonNode.object.injEq]
    have := congrArg (List.map fun p : List UInt8 × Option JsonNode => (p.1, p.2.getD .null)) e
    simpa [Function.comp_def] using this

lemma Reading.object {ts : List ((List UInt8 × List UInt8) × Option JsonNode)}
    (hts : ∀ x ∈ ts, Clean x.1.1 ∧ Reading x.1.2 x.2) (hne : ts ≠ []) :
    Reading (objectText (ts.map Prod.fst)) (objectReading ts) := by
  rw [objectReading]
  split
  next all =>
    refine Denotes.object ?_ (by simpa using hne)
    rw [DenoteMembers, List.forall₂_map_left_iff, List.forall₂_map_right_iff]
    apply List.forall₂_same.2
    intro x hx
    obtain ⟨hk, hr⟩ := hts x hx
    obtain ⟨v, hv⟩ := Option.isSome_iff_exists.1 (all.2 x hx)
    rw [hv] at hr ⊢
    exact ⟨rfl, hk, hr⟩
  next all =>
    intro n rest s1 v s2 skip value
    have text : objectText (ts.map Prod.fst) ++ rest =
        '{'.toUInt8 :: (commaList ((ts.map Prod.fst).map memberText) ++ '}'.toUInt8 :: rest) := objectText_append _ [] rest
    rw [text] at skip
    obtain rfl := skips_token (by decide) skip
    obtain empty | ⟨m, ms, members⟩ := brace_inv value
    · obtain ⟨x, xs, rfl⟩ := List.exists_cons_of_ne_nil hne
      obtain ⟨cs, quote⟩ := members_quote (x := x.1) (xs.map Prod.fst)
      rw [List.map_cons, quote] at empty
      have e := skips_token (by decide) empty
      exact absurd (List.cons.inj e).1 (by decide)
    · exact all ⟨hne, members_read hts hne members⟩

end

end ArrowheadCore.Json
