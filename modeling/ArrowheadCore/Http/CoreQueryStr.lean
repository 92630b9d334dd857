import ArrowheadCore.Http.QueryString

/-!
# Common parameters

Embedding of `CoreQueryStr` (`core/helpers/CoreQueryStr.h`) and of the functions of `Uri::Parser::Sink` that it calls. It
takes a number for `page` and `item_per_page` with `std::stoul`, and has the largest number for a parameter that is not
there.
-/

namespace ArrowheadCore.Http
open Lib Uri

abbrev Pair := List UInt8 × List UInt8

/-- What `try_consume` does with a pair: it is for another key, its value is taken, or its value is no good. -/
inductive Consumed (α : Type) where
  | other
  | taken (value : α)
  | failed

/-- C++ `try_consume` with a target of the type `unsigned long` -/
def tryConsumeULong (kv : Pair) (key : String) : Consumed Nat :=
  if kv.1 ≠ bytes key then .other
  else
    match stoul kv.2 with
    | some value => .taken value
    | none => .failed

/-- C++ `try_consume` with a list of the values -/
def tryConsumeIn (kv : Pair) (key : String) (il : List (List UInt8)) : Consumed (List UInt8) :=
  if kv.1 ≠ bytes key then .other else if kv.2 ∈ il then .taken kv.2 else .failed

structure CoreQueryStr where
  page : Nat := ULONG_MAX
  item_per_page : Nat := ULONG_MAX
  sort_field : List UInt8 := bytes "id"
  direction : List UInt8 := bytes "ASC"
  error : Bool := false
deriving DecidableEq, Repr

namespace CoreQueryStr

/-- The two orders. -/
def directions : List (List UInt8) := [bytes "ASC", bytes "DESC"]

/-- One turn of the loop; `none` when it sets the error and breaks. -/
def consume (sort : List (List UInt8)) (q : CoreQueryStr) (kv : Pair) : Option CoreQueryStr :=
  match tryConsumeULong kv "page" with
  | .taken page => some { q with page }
  | .failed => none
  | .other =>
    match tryConsumeULong kv "item_per_page" with
    | .taken item_per_page => some { q with item_per_page }
    | .failed => none
    | .other =>
      match tryConsumeIn kv "direction" directions with
      | .taken direction => some { q with direction }
      | .failed => none
      | .other =>
        match tryConsumeIn kv "sort_field" sort with
        | .taken sort_field => some { q with sort_field }
        | .failed => none
        | .other => none

def loop (sort : List (List UInt8)) (p : Parser) (q : CoreQueryStr) : CoreQueryStr :=
  if _ : p.more then
    match consume sort q p.pair with
    | none => { q with error := true }
    | some q => loop sort p.next q
  else { q with error := !p.check }
termination_by p.key.length
decreasing_by all_goals exact Parser.next_shorter ‹_›

/-- C++ `CoreQueryStr(const Uri &uri, std::initializer_list<const char*> sort)` -/
def new (u : Uri) (sort : List (List UInt8)) : CoreQueryStr := loop sort (Parser.new u) {}

/-- C++ `operator bool` -/
def converts (q : CoreQueryStr) : Bool := !q.error

def hasPage (q : CoreQueryStr) : Bool := q.page ≠ ULONG_MAX

def hasItemPerPage (q : CoreQueryStr) : Bool := q.item_per_page ≠ ULONG_MAX

/-! ## What is taken -/

def IsNumeric (key : List UInt8) : Prop := key = bytes "page" ∨ key = bytes "item_per_page"

/-- The values that are given for the other keys. -/
def IsChoice (sort : List (List UInt8)) (kv : Pair) : Prop :=
  kv.1 = bytes "direction" ∧ kv.2 ∈ directions ∨ kv.1 = bytes "sort_field" ∧ kv.2 ∈ sort

/-- A pair that the loop takes. -/
def Accepted (sort : List (List UInt8)) (kv : Pair) : Prop := IsNumeric kv.1 ∧ (stoul kv.2).isSome ∨ IsChoice sort kv

/-- A pair with a known key and a value as it is to be: a number is the whole value. -/
def Valid (sort : List (List UInt8)) (kv : Pair) : Prop :=
  IsNumeric kv.1 ∧ IsDecimal kv.2 ∧ number 10 kv.2 ≤ ULONG_MAX ∨ IsChoice sort kv

/-- The value of the last pair with this key. -/
def lastValue (key : String) : List Pair → Option (List UInt8)
  | [] => none
  | kv :: kvs => (lastValue key kvs).or (if kv.1 = bytes key then some kv.2 else none)

section
variable {sort : List (List UInt8)} {q q' : CoreQueryStr} {kv : Pair} {kvs : List Pair} {p : Parser}

lemma Valid.accepted (h : Valid sort kv) : Accepted sort kv := by
  obtain ⟨key, decimal, fits⟩ | choice := h
  · exact .inl ⟨key, by rw [stoul_decimal decimal fits]; rfl⟩
  · exact .inr choice

/-- All that one turn of the loop does. -/
lemma consume_cases (sort : List (List UInt8)) (q : CoreQueryStr) (kv : Pair) :
    (¬Accepted sort kv ∧ consume sort q kv = none) ∨ (Accepted sort kv ∧ ∃ q', consume sort q kv = some q' ∧
      q'.page = (if kv.1 = bytes "page" then (stoul kv.2).getD q.page else q.page) ∧
      q'.item_per_page = if kv.1 = bytes "item_per_page" then (stoul kv.2).getD q.item_per_page else q.item_per_page) := by
  have p1 : bytes "page" ≠ bytes "item_per_page" := by decide
  have p2 : bytes "page" ≠ bytes "direction" := by decide
  have p3 : bytes "page" ≠ bytes "sort_field" := by decide
  have p4 : bytes "item_per_page" ≠ bytes "direction" := by decide
  have p5 : bytes "item_per_page" ≠ bytes "sort_field" := by decide
  have p6 : bytes "direction" ≠ bytes "sort_field" := by decide
  obtain ⟨key, value⟩ := kv
  by_cases page : key = bytes "page"
  · subst page
    cases e : stoul value with
    | none => exact .inl (by simp [Accepted, IsNumeric, IsChoice, consume, tryConsumeULong, e, p2, p3])
    | some n => exact .inr (by simp [Accepted, IsNumeric, IsChoice, consume, tryConsumeULong, e, p1])
  by_cases item : key = bytes "item_per_page"
  · subst item
    cases e : stoul value with
    | none => exact .inl (by simp [Accepted, IsNumeric, IsChoice, consume, tryConsumeULong, e, p1.symm, p4, p5])
    | some n => exact .inr (by simp [Accepted, IsNumeric, IsChoice, consume, tryConsumeULong, e, p1.symm])
  by_cases direction : key = bytes "direction"
  · subst direction
    by_cases mem : value ∈ directions
    · exact .inr (by
        simp [Accepted, IsNumeric, IsChoice, consume, tryConsumeULong, tryConsumeIn, mem, p2.symm, p4.symm])
    · exact .inl (by
        simp [Accepted, IsNumeric, IsChoice, consume, tryConsumeULong, tryConsumeIn, mem, p2.symm, p4.symm, p6])
  by_cases field : key = bytes "sort_field"
  · subst field
    by_cases mem : value ∈ sort
    · exact .inr (by
        simp [Accepted, IsNumeric, IsChoice, consume, tryConsumeULong, tryConsumeIn, mem, p3.symm, p5.symm, p6.symm])
    · exact .inl (by
        simp [Accepted, IsNumeric, IsChoice, consume, tryConsumeULong, tryConsumeIn, mem, p3.symm, p5.symm, p6.symm])
  · exact .inl (by
      simp [Accepted, IsNumeric, IsChoice, consume, tryConsumeULong, tryConsumeIn, page, item, direction, field])

lemma loop_eq (sort : List (List UInt8)) (p : Parser) (q : CoreQueryStr) :
    (∀ q', (p.walk.1.map Parser.pair).foldlM (consume sort) q = some q' → loop sort p q = { q' with error := !p.walk.2.check }) ∧
      ((p.walk.1.map Parser.pair).foldlM (consume sort) q = none → (loop sort p q).error = true) := by
  have turn : ∀ (p : Parser) (q : CoreQueryStr), p.more →
      loop sort p q = ((consume sort q p.pair).map (loop sort p.next)).getD { q with error := true } := by
    intro p q more
    rw [loop, dif_pos more]
    cases consume sort q p.pair <;> rfl
  have done : ∀ (p : Parser) (q : CoreQueryStr), ¬p.more → loop sort p q = { q with error := !p.check } := by
    intro p q behind
    rw [loop, dif_neg behind]
  obtain ⟨taken, refused⟩ := Parser.loop_pairs turn done p q
  refine ⟨taken, fun h => ?_⟩
  obtain ⟨q', e⟩ := refused h
  rw [e]

lemma lastValue_mem {key : String} {v : List UInt8} (h : lastValue key kvs = some v) : (bytes key, v) ∈ kvs := by
  induction kvs with
  | nil => cases h
  | cons kv kvs ih =>
    rw [lastValue, Option.or_eq_some_iff] at h
    obtain h | ⟨-, h⟩ := h
    · exact List.mem_cons_of_mem _ (ih h)
    split at h
    next here =>
      cases h
      rw [← here]
      exact List.mem_cons_self
    · cases h

lemma Accepted.stoul {key v : List UInt8} (h : Accepted sort (key, v)) (numeric : IsNumeric key) :
    ∃ n, stoul v = some n := by
  obtain ⟨-, some⟩ | ⟨rfl, -⟩ | ⟨rfl, -⟩ := h
  · exact Option.isSome_iff_exists.1 some
  · exact absurd numeric (by rw [IsNumeric]; decide)
  · exact absurd numeric (by rw [IsNumeric]; decide)

/-- The number that is left behind by a pair and those behind it. -/
lemma lastValue_step {key : String} (numeric : IsNumeric (bytes key)) (h : ∀ kv ∈ kvs, Accepted sort kv) (kv : Pair)
    (d : Nat) :
    ((lastValue key kvs).bind stoul).getD (if kv.1 = bytes key then (stoul kv.2).getD d else d) =
      ((lastValue key (kv :: kvs)).bind stoul).getD d := by
  cases e : lastValue key kvs with
  | none =>
    rw [lastValue, e]
    split <;> rfl
  | some v =>
    obtain ⟨n, hn⟩ := (h _ (lastValue_mem e)).stoul numeric
    rw [lastValue, e]
    simp [hn]

/-- If all pairs are taken, the numbers are those of the last pairs. -/
lemma fold_accepted (h : ∀ kv ∈ kvs, Accepted sort kv) (q : CoreQueryStr) :
    ∃ q', kvs.foldlM (consume sort) q = some q' ∧ q'.page = ((lastValue "page" kvs).bind stoul).getD q.page ∧
      q'.item_per_page = ((lastValue "item_per_page" kvs).bind stoul).getD q.item_per_page := by
  induction kvs generalizing q with
  | nil => exact ⟨q, rfl, rfl, rfl⟩
  | cons kv kvs ih =>
    obtain ⟨first, rest⟩ := List.forall_mem_cons.1 h
    obtain ⟨no, -⟩ | ⟨-, q1, e, page, item⟩ := consume_cases sort q kv
    · exact absurd first no
    obtain ⟨q', e', page', item'⟩ := ih rest q1
    refine ⟨q', by rw [List.foldlM_cons, e]; exact e', ?_, ?_⟩
    · rw [page', page]
      exact lastValue_step (.inl rfl) rest kv q.page
    · rw [item', item]
      exact lastValue_step (.inr rfl) rest kv q.item_per_page

lemma fold_refused (h : ∃ kv ∈ kvs, ¬Accepted sort kv) (q : CoreQueryStr) : kvs.foldlM (consume sort) q = none := by
  induction kvs generalizing q with
  | nil => simp at h
  | cons kv kvs ih =>
    obtain ⟨-, e⟩ | ⟨taken, q1, e, -⟩ := consume_cases sort q kv
    · rw [List.foldlM_cons, e]
      rfl
    · rw [List.foldlM_cons, e]
      obtain ⟨kv', mem, no⟩ := h
      obtain rfl | mem := List.mem_cons.1 mem
      · exact absurd taken no
      · exact ih ⟨kv', mem, no⟩ q1

end

/-! ## What is accepted -/

/-- The segments of the query; a URI without a query has none. -/
def segmentsOf (u : Uri) : List (List UInt8) := (u.query.map segments).getD []

/-- Every segment is a pair with a known key and a value as it is to be. -/
def IsValid (u : Uri) (sort : List (List UInt8)) : Prop := ∀ seg ∈ segmentsOf u, '='.toUInt8 ∈ seg ∧ Valid sort (pairOf seg)

def given (u : Uri) (key : String) : Option (List UInt8) := lastValue key ((segmentsOf u).map pairOf)

/-- A number is what its last pair says, and it is there exactly if there is such a pair. -/
def Holds (given : Option (List UInt8)) (number : Nat) (has : Bool) : Prop :=
  (∀ v, given = some v → number = Lib.number 10 v) ∧ (has = true ↔ given.isSome)

/-- The object converts exactly for a valid query, and then has its numbers. -/
def Exact (u : Uri) (sort : List (List UInt8)) : Prop :=
  ((new u sort).converts = true ↔ IsValid u sort) ∧
    (IsValid u sort → Holds (given u "page") (new u sort).page (new u sort).hasPage ∧
      Holds (given u "item_per_page") (new u sort).item_per_page (new u sort).hasItemPerPage)

/-- The values of the numeric keys are decimal numbers, and none of the last is the one that stands for no value. -/
structure Plain (u : Uri) : Prop where
  pairs : ∀ seg ∈ segmentsOf u, '='.toUInt8 ∈ seg
  decimal : ∀ seg ∈ segmentsOf u, IsNumeric (pairOf seg).1 → IsDecimal (pairOf seg).2
  page : ∀ v, given u "page" = some v → number 10 v ≠ ULONG_MAX
  item_per_page : ∀ v, given u "item_per_page" = some v → number 10 v ≠ ULONG_MAX

/-- The parser reports a pair that is not taken, or ends in a segment without a `=`. -/
def Refused (u : Uri) (sort : List (List UInt8)) : Prop :=
  (∃ p ∈ (Parser.new u).walk.1, ¬Accepted sort p.pair) ∨ ∃ seg, (segmentsOf u).getLast? = some seg ∧ '='.toUInt8 ∉ seg

section
variable {u : Uri} {sort : List (List UInt8)}

/-- What the constructor makes of the pairs that the parser reports. -/
lemma new_eq (u : Uri) (sort : List (List UInt8)) :
    ((∃ p ∈ (Parser.new u).walk.1, ¬Accepted sort p.pair) ∧ (new u sort).converts = false) ∨
      ((∀ p ∈ (Parser.new u).walk.1, Accepted sort p.pair) ∧
        (new u sort).converts = (Parser.new u).walk.2.check ∧
        (new u sort).page = ((lastValue "page" ((Parser.new u).walk.1.map Parser.pair)).bind stoul).getD ULONG_MAX ∧
        (new u sort).item_per_page =
          ((lastValue "item_per_page" ((Parser.new u).walk.1.map Parser.pair)).bind stoul).getD ULONG_MAX) := by
  obtain ⟨taken, refused⟩ := loop_eq sort (Parser.new u) {}
  by_cases all : ∀ p ∈ (Parser.new u).walk.1, Accepted sort p.pair
  · obtain ⟨q', e, page, item⟩ := fold_accepted (List.forall_mem_map.2 all) {}
    refine .inr ⟨all, ?_⟩
    rw [new, taken q' e]
    exact ⟨by simp [converts], page, item⟩
  · have some : ∃ p ∈ (Parser.new u).walk.1, ¬Accepted sort p.pair := by
      simpa only [not_forall, exists_prop] using all
    obtain ⟨p, mem, no⟩ := id some
    have e := fold_refused ⟨p.pair, List.mem_map_of_mem mem, no⟩ {}
    exact .inl ⟨some, by rw [converts, new, refused e]; rfl⟩

/-- If every segment has a `=`, the parser reports them. -/
lemma walk_segments (h : ∀ seg ∈ segmentsOf u, '='.toUInt8 ∈ seg) :
    (Parser.new u).walk.1.map Parser.pair = (segmentsOf u).map pairOf := by
  rw [segmentsOf] at h ⊢
  cases e : u.query with
  | none => rw [walk_no_query e]; rfl
  | some r =>
    rw [e] at h
    exact (walk_pairs e h).2

/-- The parser ends badly exactly in a last segment without a `=`. -/
lemma check_eq_false : (Parser.new u).walk.2.check = false ↔ ∃ seg, (segmentsOf u).getLast? = some seg ∧ '='.toUInt8 ∉ seg := by
  rw [segmentsOf]
  cases e : u.query with
  | none =>
    rw [walk_no_query e]
    simp [Parser.check, Parser.finish]
  | some r =>
    have last := List.getLast?_eq_some_getLast (segments_ne_nil r)
    have check := (walk_query e).check last
    rw [← Bool.not_eq_true, check]
    simp [last]

lemma IsValid.accepted (h : IsValid u sort) : ∀ p ∈ (Parser.new u).walk.1, Accepted sort p.pair := by
  intro p mem
  have pair := List.mem_map_of_mem (f := Parser.pair) mem
  rw [walk_segments fun seg hs => (h seg hs).1] at pair
  obtain ⟨seg, hs, e⟩ := List.mem_map.1 pair
  rw [← e]
  exact (h seg hs).2.accepted

lemma Valid.decimal {kv : Pair} (h : Valid sort kv) (numeric : IsNumeric kv.1) :
    IsDecimal kv.2 ∧ number 10 kv.2 ≤ ULONG_MAX := by
  obtain ⟨-, decimal⟩ | ⟨e, -⟩ | ⟨e, -⟩ := h
  · exact decimal
  · rw [e, IsNumeric] at numeric
    exact absurd numeric (by decide)
  · rw [e, IsNumeric] at numeric
    exact absurd numeric (by decide)

/-- A number that is read from its last pair is there unless it is the one that stands for none. -/
lemma holds_iff {key : String} (valid : IsValid u sort) (numeric : IsNumeric (bytes key)) :
    Holds (given u key) (((given u key).bind stoul).getD ULONG_MAX)
      (decide (((given u key).bind stoul).getD ULONG_MAX ≠ ULONG_MAX)) ↔
        ∀ v, given u key = some v → number 10 v ≠ ULONG_MAX := by
  cases e : given u key with
  | none => simp [Holds]
  | some v =>
    obtain ⟨seg, hs, pair⟩ := List.mem_map.1 (lastValue_mem e)
    have good := (valid seg hs).2
    rw [pair] at good
    obtain ⟨decimal, fits⟩ := good.decimal numeric
    have read := stoul_decimal decimal fits
    simp [Holds, read]

/-- The object does what is wanted exactly if it refuses the query, or its numbers are decimal and none is the one that
    stands for no number. -/
theorem exact_iff : Exact u sort ↔ Refused u sort ∨ Plain u := by
  obtain ⟨refused, converts⟩ | ⟨accepted, converts, page, item⟩ := new_eq u sort
  · have invalid : ¬IsValid u sort := fun valid => by
      obtain ⟨p, mem, no⟩ := refused
      exact no (valid.accepted p mem)
    exact iff_of_true ⟨by simp [converts, invalid], fun valid => absurd valid invalid⟩ (.inl (.inl refused))
  by_cases lacking : ∃ seg, (segmentsOf u).getLast? = some seg ∧ '='.toUInt8 ∉ seg
  · have invalid : ¬IsValid u sort := fun valid => by
      obtain ⟨seg, last, no⟩ := lacking
      exact no (valid seg (List.mem_of_getLast? last)).1
    rw [check_eq_false.2 lacking] at converts
    exact iff_of_true ⟨by simp [converts, invalid], fun valid => absurd valid invalid⟩ (.inl (.inr lacking))
  rw [← check_eq_false, Bool.not_eq_false] at lacking
  rw [lacking] at converts
  have taken : ¬Refused u sort := by
    rintro (⟨p, mem, no⟩ | last)
    · exact no (accepted p mem)
    · rw [check_eq_false.2 last] at lacking
      cases lacking
  have numbers : (∀ seg ∈ segmentsOf u, '='.toUInt8 ∈ seg) →
      (new u sort).page = ((given u "page").bind stoul).getD ULONG_MAX ∧
        (new u sort).item_per_page = ((given u "item_per_page").bind stoul).getD ULONG_MAX := fun pairs => by
    rw [page, item, walk_segments pairs]
    exact ⟨rfl, rfl⟩
  rw [or_iff_right taken]
  constructor
  · rintro ⟨iff, values⟩
    have valid := iff.1 converts
    obtain ⟨first, second⟩ := values valid
    have pairs : ∀ seg ∈ segmentsOf u, '='.toUInt8 ∈ seg := fun seg hs => (valid seg hs).1
    obtain ⟨e1, e2⟩ := numbers pairs
    rw [hasPage, e1] at first
    rw [hasItemPerPage, e2] at second
    exact ⟨pairs, fun seg hs numeric => ((valid seg hs).2.decimal numeric).1, (holds_iff valid (.inl rfl)).1 first,
      (holds_iff valid (.inr rfl)).1 second⟩
  · rintro ⟨pairs, decimal, first, second⟩
    have valid : IsValid u sort := by
      intro seg hs
      refine ⟨pairs seg hs, ?_⟩
      have reported : pairOf seg ∈ (Parser.new u).walk.1.map Parser.pair := by
        rw [walk_segments pairs]
        exact List.mem_map_of_mem hs
      obtain ⟨p, mem, e⟩ := List.mem_map.1 reported
      have ok := accepted p mem
      rw [e] at ok
      obtain ⟨numeric, read⟩ | choice := ok
      · obtain ⟨n, read⟩ := Option.isSome_iff_exists.1 read
        have decimal := decimal seg hs numeric
        exact .inl ⟨numeric, decimal, fits_of_stoul decimal read⟩
      · exact .inr choice
    obtain ⟨e1, e2⟩ := numbers pairs
    refine ⟨iff_of_true converts valid, fun _ => ?_⟩
    rw [hasPage, hasItemPerPage, e1, e2]
    exact ⟨(holds_iff valid (.inl rfl)).2 first, (holds_iff valid (.inr rfl)).2 second⟩

/-- What is read of the segments is enough for the object to convert. -/
lemma converts_of_segments (pairs : ∀ seg ∈ segmentsOf u, '='.toUInt8 ∈ seg)
    (taken : ∀ seg ∈ segmentsOf u, Accepted sort (pairOf seg)) : (new u sort).converts = true := by
  obtain ⟨⟨p, mem, no⟩, -⟩ | ⟨-, converts, -⟩ := new_eq u sort
  · have reported := List.mem_map_of_mem (f := Parser.pair) mem
    rw [walk_segments pairs] at reported
    obtain ⟨seg, hs, e⟩ := List.mem_map.1 reported
    rw [← e] at no
    exact absurd (taken seg hs) no
  · rw [converts, ← Bool.not_eq_false, check_eq_false]
    rintro ⟨seg, last, no⟩
    exact no (pairs seg (List.mem_of_getLast? last))

/-- `12ab` is taken for the page 12. -/
theorem not_exact : ¬Exact ⟨bytes "/x?page=12ab", 0⟩ [bytes "id"] := by
  have segs : segmentsOf ⟨bytes "/x?page=12ab", 0⟩ = [bytes "page=12ab"] := by decide
  have pair : pairOf (bytes "page=12ab") = (bytes "page", bytes "12ab") := by decide +kernel
  have pairs : ∀ seg ∈ segmentsOf ⟨bytes "/x?page=12ab", 0⟩, '='.toUInt8 ∈ seg := by
    rw [segs]
    exact List.forall_mem_singleton.2 (by decide)
  have read : (stoul (bytes "12ab")).isSome := by decide
  have taken : ∀ seg ∈ segmentsOf ⟨bytes "/x?page=12ab", 0⟩, Accepted [bytes "id"] (pairOf seg) := by
    rw [segs, List.forall_mem_singleton, pair]
    exact .inl ⟨.inl rfl, read⟩
  rintro ⟨iff, -⟩
  have valid := iff.1 (converts_of_segments pairs taken)
  rw [IsValid, segs, List.forall_mem_singleton, pair] at valid
  have decimal := (valid.2.decimal (.inl rfl)).1
  revert decimal
  decide

end

end CoreQueryStr

end ArrowheadCore.Http
