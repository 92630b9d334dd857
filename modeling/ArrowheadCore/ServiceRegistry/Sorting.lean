import ArrowheadCore.ServiceRegistry.Paging

/-!
# The parameters for the order of a listing

The four listings take a field and a direction from the query string and splice them into their statement. A field is
compared with the ones that can be sorted by; the test of the direction is true of every text, so that the answer for
an unknown direction is never given.
-/

namespace ArrowheadCore.ServiceRegistry
open Lib Lib.Sql Json Db

/-! ## Listings -/

inductive Listing where
  | entries | services | systems
  | servicedef (serviceDef : List UInt8)
deriving DecidableEq, Repr

section
variable (page item_per_page : Int) (sort_field direction : List UInt8)

/-- What the listing does; of its data it matters here only whether there are any. -/
def Listing.program : Listing → Program (Except ErrorResp Unit)
  | .entries => processMgmtGet page item_per_page sort_field direction >>= fun r => pure (r.map fun _ => ())
  | .services => processMgmtGetServices page item_per_page sort_field direction >>= fun r => pure (r.map fun _ => ())
  | .systems => processMgmtGetSystems page item_per_page sort_field direction >>= fun r => pure (r.map fun _ => ())
  | .servicedef serviceDef =>
    processMgmtGetServiceDef serviceDef page item_per_page sort_field direction >>= fun r => pure (r.map fun _ => ())

/-- The statement by which the key of a definition is looked up. -/
def lookupStatement (serviceDef : List UInt8) : List UInt8 :=
  bytes "SELECT id FROM service_definition WHERE service_definition = '" ++
    ((toLowerAndTrim serviceDef).takeWhile (· ≠ '?'.toUInt8) ++ bytes "'")

/-- The listing gets to its own statement: `own` is the program from there on, and `sSelect` the part of the statement in
    front of the order. The listing by definition has looked up the key of the definition before. -/
inductive Listing.Reaches : Listing → Program (Except ErrorResp Unit) → List UInt8 → Prop
  | entries : Reaches .entries (Listing.program page item_per_page sort_field direction .entries)
      (bytes "SELECT id FROM service_registry")
  | services : Reaches .services (Listing.program page item_per_page sort_field direction .services)
      (bytes "SELECT * FROM service_definition")
  | systems : Reaches .systems (Listing.program page item_per_page sort_field direction .systems)
      (bytes "SELECT id FROM system_")
  | servicedef {serviceDef : List UInt8} {next : List (List Value) → Program (Except ErrorResp Unit)}
    {rows : List (List Value)} {d : List Value} :
    Listing.program page item_per_page sort_field direction (.servicedef serviceDef) =
      .step (.fetch (lookupStatement serviceDef)) next → rows.getLast? = some d →
    Reaches (.servicedef serviceDef) (next rows)
      (bytes "SELECT id FROM service_registry WHERE service_id = '" ++ (cell d 0 ++ bytes "'"))

end

/-! ## What is asked of a listing -/

/-- The next thing the program does is to send this statement. -/
def Sends (p : Program (Except ErrorResp Unit)) (s : List UInt8) : Prop := ∃ next, p = .step (.fetch s) next

/-- The program sends nothing more and answers with 400. -/
def Refuses (p : Program (Except ErrorResp Unit)) : Prop := ∃ e, p = .done (.error e) ∧ e.statusCode = 400

/-- Both parameters are known ones or are not there. -/
def KnownOrder (sort_field direction : List UInt8) : Prop :=
  ∃ (f : SortField) (d : Direction), sort_field = f.param ∧ direction = d.param

/-- The order of the statement that is sent is a known one, other parameters are refused before it, and known ones are
    accepted. -/
def Whitelisted (listing : Listing) (page item_per_page : Int) (sort_field direction : List UInt8) : Prop :=
  ∀ own sSelect, listing.Reaches page item_per_page sort_field direction own sSelect →
    (∀ s, Sends own s → ∃ f d, s = sSelect ++ (orderText f d ++ pageClause page item_per_page)) ∧
    (¬KnownOrder sort_field direction → Refuses own) ∧
    (KnownOrder sort_field direction → ∃ s, Sends own s)

/-! ## Listings by their statement -/

section
variable {page item_per_page : Int} {sort_field direction : List UInt8}

/-- Every listing refuses what `listStatement` refuses, and sends the statement that it gives. -/
lemma Listing.Reaches.own {listing : Listing} {own : Program (Except ErrorResp Unit)} {sSelect : List UInt8}
    (h : listing.Reaches page item_per_page sort_field direction own sSelect) :
    ∃ (errURL : String) (next : List (List Value) → Program (Except ErrorResp Unit)),
      own = match listStatement sSelect page item_per_page sort_field direction errURL with
        | .error e => .done (.error e)
        | .ok sQuery => .step (.fetch sQuery) next := by
  cases h with
  | entries =>
    refine ⟨"serviceregistry/mgmt/services", ?_⟩
    rw [Listing.program, processMgmtGet]
    cases listStatement _ page item_per_page sort_field direction "serviceregistry/mgmt/services" with
    | error e => exact ⟨fun _ => .done (.error e), rfl⟩
    | ok sQuery => exact ⟨_, rfl⟩
  | services =>
    refine ⟨"serviceregistry/mgmt/services", ?_⟩
    rw [Listing.program, processMgmtGetServices]
    cases listStatement _ page item_per_page sort_field direction "serviceregistry/mgmt/services" with
    | error e => exact ⟨fun _ => .done (.error e), rfl⟩
    | ok sQuery => exact ⟨_, rfl⟩
  | systems =>
    refine ⟨"serviceregistry/mgmt/systems", ?_⟩
    rw [Listing.program, processMgmtGetSystems]
    cases listStatement _ page item_per_page sort_field direction "serviceregistry/mgmt/systems" with
    | error e => exact ⟨fun _ => .done (.error e), rfl⟩
    | ok sQuery => exact ⟨_, rfl⟩
  | @servicedef serviceDef next rows d e hd =>
    refine ⟨"serviceregistry/mgmt/servicedef/\x7bserviceDefinition\x7d", ?_⟩
    obtain rfl := eq_of_heq (Prog.step.inj e).2
    simp only [Prog.andThen, hd]
    cases listStatement _ page item_per_page sort_field direction
      "serviceregistry/mgmt/servicedef/\x7bserviceDefinition\x7d" with
    | error e => exact ⟨fun _ => .done (.error e), rfl⟩
    | ok sQuery => exact ⟨_, rfl⟩

/-- Every listing can get to its own statement. -/
lemma Listing.reaches (listing : Listing) : ∃ own sSelect, listing.Reaches page item_per_page sort_field direction own sSelect := by
  cases listing with
  | entries => exact ⟨_, _, .entries⟩
  | services => exact ⟨_, _, .services⟩
  | systems => exact ⟨_, _, .systems⟩
  | servicedef serviceDef =>
    have last : [([] : List Value)].getLast? = some [] := rfl
    exact ⟨_, _, .servicedef rfl last⟩

lemma sends_step_iff {s t : List UInt8} {next : List (List Value) → Program (Except ErrorResp Unit)} :
    Sends (.step (.fetch s) next) t ↔ t = s := by
  constructor
  · rintro ⟨next', e⟩
    exact (Cmd.fetch.inj (Prog.step.inj e).1).symm
  · rintro rfl
    exact ⟨next, rfl⟩

lemma not_refuses_step {s : List UInt8} {next : List (List Value) → Program (Except ErrorResp Unit)} :
    ¬Refuses (.step (.fetch s) next) := by
  rintro ⟨e, h, -⟩
  cases h

lemma not_sends_done {r : Except ErrorResp Unit} {s : List UInt8} : ¬Sends (.done r) s := by
  rintro ⟨next, h⟩
  cases h

/-- The field is refused, if there is one. -/
lemma sortColumn_none_iff : sortColumn sort_field = none ↔
    sort_field ∉ [bytes "id", bytes "createdAt", bytes "updatedAt"] := by
  rw [sortColumn]
  split_ifs <;> simp [*]

lemma sort_field_known (h : sort_field ∈ [[], bytes "id", bytes "createdAt", bytes "updatedAt"]) :
    ∃ f : SortField, sort_field = f.param := by
  simp only [List.mem_cons, List.not_mem_nil, or_false] at h
  obtain rfl | rfl | rfl | rfl := h
  · exact ⟨.none, rfl⟩
  · exact ⟨.id, rfl⟩
  · exact ⟨.createdAt, rfl⟩
  · exact ⟨.updatedAt, rfl⟩

lemma direction_known (h : direction ∈ [[], bytes "ASC", bytes "DESC"]) : ∃ d : Direction, direction = d.param := by
  simp only [List.mem_cons, List.not_mem_nil, or_false] at h
  obtain rfl | rfl | rfl := h
  · exact ⟨.none, rfl⟩
  · exact ⟨.asc, rfl⟩
  · exact ⟨.desc, rfl⟩

lemma SortField.param_mem (f : SortField) : f.param ∈ [[], bytes "id", bytes "createdAt", bytes "updatedAt"] := by
  cases f <;> simp [SortField.param]

lemma Direction.param_mem (d : Direction) : d.param ∈ [[], bytes "ASC", bytes "DESC"] := by
  cases d <;> simp [Direction.param]

/-- Every direction is accepted. -/
lemma listStatement_accepts (h : sort_field ∈ [[], bytes "id", bytes "createdAt", bytes "updatedAt"]) (sSelect : List UInt8)
    (errURL : String) : ∃ sQuery, listStatement sSelect page item_per_page sort_field direction errURL = .ok sQuery := by
  have always : direction ≠ bytes "ASC" ∨ direction ≠ bytes "DESC" := by
    by_contra no
    obtain ⟨rfl, e⟩ : direction = bytes "ASC" ∧ direction = bytes "DESC" := by simpa using no
    exact absurd e (by decide)
  have order : ∃ sOrder, orderClause sort_field direction errURL = .ok sOrder := by
    rw [orderClause]
    by_cases none : sort_field = []
    · exact ⟨_, if_pos none⟩
    · rw [if_neg none]
      cases column : sortColumn sort_field with
      | none => exact absurd h (by simpa [none] using sortColumn_none_iff.1 column)
      | some sOrder =>
        by_cases absent : direction = []
        · exact ⟨_, if_pos absent⟩
        · exact ⟨_, (if_neg absent).trans (if_pos always)⟩
  obtain ⟨sOrder, e⟩ := order
  exact ⟨_, by rw [listStatement, e]; rfl⟩

/-- An unknown field is refused. -/
lemma listStatement_refuses (h : sort_field ∉ [[], bytes "id", bytes "createdAt", bytes "updatedAt"])
    (direction sSelect : List UInt8) (errURL : String) :
    ∃ e, listStatement sSelect page item_per_page sort_field direction errURL = .error e ∧ e.statusCode = 400 := by
  obtain ⟨given, unknown⟩ : sort_field ≠ [] ∧ sort_field ∉ [bytes "id", bytes "createdAt", bytes "updatedAt"] := by
    simpa using h
  refine ⟨⟨bytes "Sortable field with reference '" ++ sort_field ++ bytes "' is not available", 400, "INVALID_PARAMETER",
    errURL⟩, ?_, rfl⟩
  rw [listStatement, orderClause, if_neg given, sortColumn_none_iff.2 unknown]
  rfl

/-- An unknown direction of a field that can be sorted by is not refused. -/
lemma not_whitelisted (listing : Listing) (unknown : direction ∉ [[], bytes "ASC", bytes "DESC"])
    (field : sort_field ∈ [[], bytes "id", bytes "createdAt", bytes "updatedAt"]) :
    ¬Whitelisted listing page item_per_page sort_field direction := by
  intro h
  obtain ⟨own, sSelect, reached⟩ := listing.reaches
  have refused : Refuses own := by
    refine (h own sSelect reached).2.1 ?_
    rintro ⟨f, d, -, rfl⟩
    exact unknown d.param_mem
  obtain ⟨errURL, next, rfl⟩ := reached.own
  obtain ⟨sQuery, e⟩ := listStatement_accepts field sSelect errURL
  rw [e] at refused
  exact not_refuses_step refused

end

end ArrowheadCore.ServiceRegistry
