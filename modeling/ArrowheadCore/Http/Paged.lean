import ArrowheadCore.Http.CoreQueryStr

/-!
# Paged listings

Embedding of `QueryString` (`core/helpers/QueryString.h`), of the functions of `Uri::Parser::Sink` that it calls, and of the
statements that are built from it: `getDevices` and `getAll` (`DevRegistry/queries`), `getCertificates` and `getKeys`
(`CertAuthority/CAQueries.h`). The certificate authority has the loop in its handlers (`CertAuthority/endpoints/Mgmt.h`).
Unlike `CoreQueryStr` it keeps the text of a number, once `std::stoul` has read a number at its beginning.
-/

namespace ArrowheadCore.Http
open Lib Uri

/-- C++ `try_consume_as<unsigned long>` -/
def tryConsumeAsULong (kv : Pair) (key : String) : Consumed (List UInt8) :=
  if kv.1 ≠ bytes key then .other else if (stoul kv.2).isSome then .taken kv.2 else .failed

/-- C++ `try_consume_order`: the number of the value in the list, as a digit. -/
def tryConsumeOrder (kv : Pair) (key : String) (il : List (List UInt8)) : Consumed (List UInt8) :=
  if kv.1 ≠ bytes key then .other
  else if kv.2 ∈ il then .taken ['0'.toUInt8 + UInt8.ofNat (il.idxOf kv.2 + 1)]
  else .failed

structure QueryString where
  page : List UInt8 := []
  item_per_page : List UInt8 := []
  sort_field : List UInt8 := bytes "id"
  direction : List UInt8 := bytes "ASC"
  error : Bool := false
deriving DecidableEq, Repr

namespace QueryString
open CoreQueryStr (directions lastValue)

/-- One turn of the loop; `none` when it sets the error and breaks. -/
def consume (sort : List (List UInt8)) (q : QueryString) (kv : Pair) : Option QueryString :=
  match tryConsumeAsULong kv "page" with
  | .taken page => some { q with page }
  | .failed => none
  | .other =>
    match tryConsumeAsULong kv "item_per_page" with
    | .taken item_per_page => some { q with item_per_page }
    | .failed => none
    | .other =>
      match tryConsumeIn kv "direction" directions with
      | .taken direction => some { q with direction }
      | .failed => none
      | .other =>
        match tryConsumeOrder kv "sort_field" sort with
        | .taken sort_field => some { q with sort_field }
        | .failed => none
        | .other => none

def loop (sort : List (List UInt8)) (p : Parser) (q : QueryString) : QueryString :=
  if _ : p.more then
    match consume sort q p.pair with
    | none => { q with error := true }
    | some q => loop sort p.next q
  else { q with error := !p.check }
termination_by p.key.length
decreasing_by all_goals exact Parser.next_shorter ‹_›

/-- C++ `QueryString(const Uri &uri, std::initializer_list<const char*> sort)` -/
def new (u : Uri) (sort : List (List UInt8)) : QueryString := loop sort (Parser.new u) {}

/-- C++ `operator bool` -/
def converts (q : QueryString) : Bool := !q.error

def isInvalid (q : QueryString) : Bool :=
  (q.page.isEmpty && !q.item_per_page.isEmpty) || (!q.page.isEmpty && q.item_per_page.isEmpty)

/-! ## The statements -/

/-- The order of a listing. -/
def ordered (select sort_by sort_dir : List UInt8) : List UInt8 := select ++ bytes " ORDER BY " ++ sort_by ++ bytes " " ++ sort_dir

/-- The statement of a listing; `none` is an exception. The product is computed in the type `unsigned long`. -/
def listing (select page item_per_page sort_by sort_dir : List UInt8) : Option (List UInt8) :=
  let q := ordered select sort_by sort_dir
  if page = [] then some q
  else do
    let p ← stoul page
    let i ← stoul item_per_page
    let o : Nat := p * i % 2 ^ 64
    return q ++ bytes " LIMIT " ++ item_per_page ++ bytes " OFFSET " ++ to_string o

def getDevices : List UInt8 → List UInt8 → List UInt8 → List UInt8 → Option (List UInt8) :=
  listing (bytes "SELECT id, created_at, updated_at, device_name, address, mac_address, authentication_info FROM device")

/-- The columns of an entry of the device registry and of its device. -/
def joined : List UInt8 :=
  bytes "SELECT t2.id, t2.created_at, t2.updated_at, t2.version, t2.end_of_validity, t1.id, t1.created_at, t2.updated_at, " ++
    bytes "t1.device_name, t1.mac_address, t1.address, t1.authentication_info FROM device t1 INNER JOIN device_registry t2 " ++
    bytes "ON (t1.id = t2.device_id)"

def getAll : List UInt8 → List UInt8 → List UInt8 → List UInt8 → Option (List UInt8) := listing joined

def getCertificates : List UInt8 → List UInt8 → List UInt8 → List UInt8 → Option (List UInt8) :=
  listing (bytes ("SELECT id, common_name, serial, created_at, created_by, valid_after, valid_before, revoked_at " ++
    "FROM ca_certificate"))

def getKeys : List UInt8 → List UInt8 → List UInt8 → List UInt8 → Option (List UInt8) :=
  listing (bytes "SELECT id, created_at, description FROM ca_trusted_key")

/-- The listings of the device registry and of the certificate authority. -/
inductive Listing where
  | devices
  | deviceRegistry
  | certificates
  | keys
deriving DecidableEq, Repr

namespace Listing

/-- The names of the fields that a listing can be sorted by. -/
def fields : Listing → List (List UInt8)
  | devices | deviceRegistry => [bytes "id", bytes "createdAt", bytes "updatedAt"]
  | certificates => [bytes "id", bytes "commonName", bytes "serial", bytes "createdAt", bytes "createdBy", bytes "validFrom",
      bytes "validUntil"]
  | keys => [bytes "id", bytes "createdAt"]

def statement : Listing → List UInt8 → List UInt8 → List UInt8 → List UInt8 → Option (List UInt8)
  | devices => getDevices
  | deviceRegistry => getAll
  | certificates => getCertificates
  | keys => getKeys

/-- The parameters that the handler gets. -/
def parameters (l : Listing) (u : Uri) : QueryString := new u l.fields

def Accepts (l : Listing) (u : Uri) : Prop := (l.parameters u).converts = true ∧ (l.parameters u).isInvalid = false

/-- The statement that the handler makes of its parameters. -/
def fetched (l : Listing) (u : Uri) : Option (List UInt8) :=
  let pp := l.parameters u
  l.statement pp.page pp.item_per_page pp.sort_field pp.direction

end Listing

/-! ## What the loop keeps -/

section
variable {sort : List (List UInt8)} {q q' : QueryString} {kv : Pair} {kvs : List Pair}

/-- What a turn of the loop does to the two texts. -/
lemma consume_some (h : consume sort q kv = some q') :
    q'.page = (if kv.1 = bytes "page" then kv.2 else q.page) ∧
      q'.item_per_page = (if kv.1 = bytes "item_per_page" then kv.2 else q.item_per_page) ∧
      (CoreQueryStr.IsNumeric kv.1 → (stoul kv.2).isSome) := by
  have p1 : bytes "page" ≠ bytes "item_per_page" := by decide
  obtain ⟨key, value⟩ := kv
  by_cases page : key = bytes "page"
  · subst page
    by_cases read : (stoul value).isSome
    · simp only [consume, tryConsumeAsULong, read, ne_eq, not_true_eq_false, if_false, if_true, Option.some.injEq] at h
      subst h
      simp [p1, read]
    · simp [consume, tryConsumeAsULong, read] at h
  by_cases item : key = bytes "item_per_page"
  · subst item
    by_cases read : (stoul value).isSome
    · simp only [consume, tryConsumeAsULong, p1.symm, read, ne_eq, not_true_eq_false, not_false_eq_true, if_false,
        if_true, Option.some.injEq] at h
      subst h
      simp [p1.symm, read]
    · simp [consume, tryConsumeAsULong, p1.symm, read] at h
  have kept : q'.page = q.page ∧ q'.item_per_page = q.item_per_page := by
    simp only [consume, tryConsumeAsULong, page, item, ne_eq, not_false_eq_true, if_true] at h
    split at h
    · cases h
      exact ⟨rfl, rfl⟩
    · cases h
    · split at h
      · cases h
        exact ⟨rfl, rfl⟩
      · cases h
      · cases h
  simp [page, item, kept, CoreQueryStr.IsNumeric]

lemma loop_eq (sort : List (List UInt8)) (p : Parser) (q : QueryString) :
    (∀ q', (p.walk.1.map Parser.pair).foldlM (consume sort) q = some q' → loop sort p q = { q' with error := !p.walk.2.check }) ∧
      ((p.walk.1.map Parser.pair).foldlM (consume sort) q = none → (loop sort p q).error = true) := by
  have turn : ∀ (p : Parser) (q : QueryString), p.more →
      loop sort p q = ((consume sort q p.pair).map (loop sort p.next)).getD { q with error := true } := by
    intro p q more
    rw [loop, dif_pos more]
    cases consume sort q p.pair <;> rfl
  have done : ∀ (p : Parser) (q : QueryString), ¬p.more → loop sort p q = { q with error := !p.check } := by
    intro p q beyond
    rw [loop, dif_neg beyond]
  obtain ⟨taken, refused⟩ := Parser.loop_pairs turn done p q
  refine ⟨taken, fun h => ?_⟩
  obtain ⟨q', e⟩ := refused h
  rw [e]

/-- The text that is left of a parameter by a pair and those behind it. -/
lemma lastValue_getD (key : String) (kv : Pair) (kvs : List Pair) (d : List UInt8) :
    (lastValue key kvs).getD (if kv.1 = bytes key then kv.2 else d) = (lastValue key (kv :: kvs)).getD d := by
  rw [lastValue]
  cases lastValue key kvs with
  | none => split <;> rfl
  | some v => rfl

/-- The texts are those of the last pairs, and a number has been read of each. -/
lemma fold_some (h : kvs.foldlM (consume sort) q = some q') :
    q'.page = (lastValue "page" kvs).getD q.page ∧ q'.item_per_page = (lastValue "item_per_page" kvs).getD q.item_per_page ∧
      ∀ kv ∈ kvs, CoreQueryStr.IsNumeric kv.1 → (stoul kv.2).isSome := by
  induction kvs generalizing q with
  | nil =>
    cases h
    exact ⟨rfl, rfl, by simp⟩
  | cons kv kvs ih =>
    rw [List.foldlM_cons, Option.bind_eq_bind, Option.bind_eq_some_iff] at h
    obtain ⟨q1, first, rest⟩ := h
    obtain ⟨page, item, read⟩ := consume_some first
    obtain ⟨page', item', read'⟩ := ih rest
    rw [page', page, item', item]
    exact ⟨lastValue_getD "page" kv kvs _, lastValue_getD "item_per_page" kv kvs _, List.forall_mem_cons.2 ⟨read, read'⟩⟩

end

/-! ## The texts of the numbers -/

/-- The value of the last pair with this key among those that the parser reports. -/
def given (u : Uri) (key : String) : Option (List UInt8) := lastValue key ((Parser.new u).walk.1.map Parser.pair)

/-- The parameter is there, and is the numeral of this number. -/
def Denotes (text : Option (List UInt8)) (n : Nat) : Prop := ∃ s, text = some s ∧ IsDecimal s ∧ number 10 s = n

/-- Behind the order of the listing there is nothing, if no page is wanted, or a limit and an offset that are numerals, of
    the entries on a page and of their product with the page. -/
def Spliced (l : Listing) (u : Uri) (q : List UInt8) : Prop :=
  ∃ head, l.statement [] [] (l.parameters u).sort_field (l.parameters u).direction = some head ∧
    ((q = head ∧ given u "page" = none) ∨
      ∃ limit offset page, q = head ++ bytes " LIMIT " ++ limit ++ bytes " OFFSET " ++ offset ∧
        IsDecimal limit ∧ IsDecimal offset ∧ Denotes (given u "page") page ∧
        Denotes (given u "item_per_page") (number 10 limit) ∧ number 10 offset = page * number 10 limit)

/-- No page is wanted, or the parameters are numerals and their product is a value of the type `unsigned long`. -/
def Plain (u : Uri) : Prop :=
  given u "page" = none ∨
    ∃ page item, Denotes (given u "page") page ∧ Denotes (given u "item_per_page") item ∧ page * item ≤ ULONG_MAX

section
variable {l : Listing} {u : Uri} {q v w : List UInt8} {kvs : List Pair}

lemma statement_eq (l : Listing) : ∃ select, l.statement = listing select := by cases l <;> exact ⟨_, rfl⟩

/-- Of an accepted query, the texts and what has been read of them. -/
lemma parameters_of_accepts (h : l.Accepts u) :
    (given u "page" = none ∧ (l.parameters u).page = []) ∨
      ∃ v w p i, given u "page" = some v ∧ given u "item_per_page" = some w ∧ (l.parameters u).page = v ∧
        (l.parameters u).item_per_page = w ∧ stoul v = some p ∧ stoul w = some i ∧ v ≠ [] := by
  obtain ⟨converts, valid⟩ := h
  obtain ⟨taken, refused⟩ := loop_eq l.fields (Parser.new u) {}
  cases e : ((Parser.new u).walk.1.map Parser.pair).foldlM (consume l.fields) {} with
  | none =>
    rw [QueryString.converts, Listing.parameters, new, refused e] at converts
    cases converts
  | some q' =>
    obtain ⟨page, item, read⟩ := fold_some e
    have page : (l.parameters u).page = (given u "page").getD [] := by rw [Listing.parameters, new, taken q' e]; exact page
    have item : (l.parameters u).item_per_page = (given u "item_per_page").getD [] := by
      rw [Listing.parameters, new, taken q' e]
      exact item
    have filled : ∀ {key v}, CoreQueryStr.IsNumeric (bytes key) → given u key = some v → ∃ n, stoul v = some n ∧ v ≠ [] := by
      intro key v numeric h
      obtain ⟨n, hn⟩ := Option.isSome_iff_exists.1 (read _ (CoreQueryStr.lastValue_mem h) numeric)
      refine ⟨n, hn, ?_⟩
      rintro rfl
      rw [show stoul [] = none from by decide] at hn
      cases hn
    rw [isInvalid, page, item] at valid
    cases ep : given u "page" with
    | none => exact .inl ⟨rfl, by rw [page, ep]; rfl⟩
    | some v =>
      obtain ⟨p, hp, hv⟩ := filled (.inl rfl) ep
      cases ei : given u "item_per_page" with
      | none => simp [ep, ei, hv] at valid
      | some w =>
        obtain ⟨i, hi, -⟩ := filled (.inr rfl) ei
        exact .inr ⟨v, w, p, i, rfl, rfl, by rw [page, ep]; rfl, by rw [item, ei]; rfl, hp, hi, hv⟩

/-- What is behind the last blank of a text is found again. -/
lemma last_blank {a b x y : List UInt8} {c : UInt8} (hx : c ∉ x) (hy : c ∉ y) (h : a ++ c :: x = b ++ c :: y) :
    a = b ∧ x = y := by
  have turned : x.reverse ++ c :: a.reverse = y.reverse ++ c :: b.reverse := by
    have := congrArg List.reverse h
    simpa using this
  obtain ⟨ends, starts⟩ := cut_inj (by simpa using hx) (by simpa using hy) turned
  exact ⟨List.reverse_inj.1 starts, List.reverse_inj.1 ends⟩

lemma Denotes.stoul {n p : Nat} (h : Denotes (some v) n) (read : stoul v = some p) : IsDecimal v ∧ number 10 v = n ∧ p = n := by
  obtain ⟨s, e, decimal, rfl⟩ := h
  cases e
  have := stoul_decimal decimal (fits_of_stoul decimal read)
  rw [this] at read
  exact ⟨decimal, rfl, (Option.some.inj read).symm⟩

lemma fetched_eq {p i : Nat} (page : (l.parameters u).page = v) (item : (l.parameters u).item_per_page = w)
    (hp : stoul v = some p) (hi : stoul w = some i) (filled : v ≠ []) :
    ∃ head, l.statement [] [] (l.parameters u).sort_field (l.parameters u).direction = some head ∧
      l.fetched u = some (head ++ bytes " LIMIT " ++ w ++ bytes " OFFSET " ++ to_string (p * i % 2 ^ 64 : Nat)) := by
  obtain ⟨select, e⟩ := statement_eq l
  refine ⟨_, by rw [e, listing, if_pos rfl], ?_⟩
  rw [Listing.fetched, page, item, e, listing, if_neg filled, hp, hi]
  rfl

lemma numeral_offset (o : Nat) : IsDecimal (to_string o) ∧ number 10 (to_string o) = o :=
  ⟨⟨decimal_ne_nil _, decimal_digits _⟩, number_decimal _⟩

/-- Texts that are as they should be come of numerals whose product is not too large. -/
lemma Spliced.plain (accepted : l.Accepts u) (h : l.fetched u = some q) (spliced : Spliced l u q) : Plain u := by
  obtain ⟨none, -⟩ | ⟨v, w, p, i, hv, hw, page, item, hp, hi, filled⟩ := parameters_of_accepts accepted
  · exact .inl none
  obtain ⟨head, e, text⟩ := fetched_eq page item hp hi filled
  obtain ⟨numeral, value⟩ := numeral_offset (p * i % 2 ^ 64)
  obtain ⟨head', e', ⟨-, none⟩ | ⟨limit, offset, n, same, hl, ho, hn, hm, product⟩⟩ := spliced
  · rw [hv] at none
    cases none
  rw [e] at e'
  cases e'
  rw [text, Option.some.injEq] at h
  subst h
  have blank : ∀ x : List UInt8, bytes " OFFSET " ++ x = bytes " OFFSET" ++ ' '.toUInt8 :: x := by
    intro x
    show bytes " OFFSET" ++ [' '.toUInt8] ++ x = _
    rw [List.append_assoc, List.singleton_append]
  simp only [List.append_assoc _ (bytes " OFFSET "), blank] at same
  simp only [← List.append_assoc] at same
  obtain ⟨texts, rfl⟩ := last_blank (numeral.not_mem (by decide)) (ho.not_mem (by decide)) same
  rw [hv] at hn
  rw [hw] at hm
  obtain ⟨-, -, rfl⟩ := hn.stoul hp
  obtain ⟨-, -, rfl⟩ := hm.stoul hi
  refine .inr ⟨_, _, by rwa [hv], by rwa [hw], ?_⟩
  rw [value] at product
  rw [ULONG_MAX]
  omega

/-- What is read of the segments is what the object has. -/
lemma parameters_of_segments {segs : List (List UInt8)} {pp : QueryString} (split : CoreQueryStr.segmentsOf u = segs)
    (pairs : ∀ seg ∈ segs, '='.toUInt8 ∈ seg) (decoded : segs.map pairOf = kvs)
    (taken : kvs.foldlM (consume l.fields) {} = some pp) :
    l.parameters u = { pp with error := false } ∧ ∀ key, given u key = lastValue key kvs := by
  subst split
  have walk := CoreQueryStr.walk_segments pairs
  rw [decoded] at walk
  have well : (Parser.new u).walk.2.check = true := by
    rw [← Bool.not_eq_false, CoreQueryStr.check_eq_false]
    rintro ⟨seg, last, no⟩
    exact no (pairs seg (List.mem_of_getLast? last))
  rw [← walk] at taken
  refine ⟨?_, fun key => by rw [given, walk]⟩
  rw [Listing.parameters, new, (loop_eq l.fields (Parser.new u) {}).1 pp taken, well, Bool.not_true]

end

end QueryString

end ArrowheadCore.Http
