import ArrowheadCore.Orchestrator.Grants

/-!
# Matchmaking

With the flag `matchmaking` one entry is drawn and a response is made for it alone. Without `onlyPreferred` the draw is
among the providers that are authorized; with it, it is among all preferred entries, and an entry that is not authorized
is left out of the response afterwards. So the response has its entry for every draw exactly if each entry that can be
drawn is authorized, and can be presented.
-/

namespace ArrowheadCore.Orchestrator
open Lib Json ServiceRegistry

/-! ## Candidates -/

/-- The same world, with another value of the random generator. -/
def World.withRand (w : World) (rand : Nat) : World := { w with rand }

/-- The provider has an interface, listed by one of its entries, that is authorized. -/
def AuthorizedProvider (queryData : List JsonValue) (auth : JsonValue) (p : Int) : Prop :=
  ∃ v ∈ listedInterfaces queryData p, idOf v ∈ authorizedIds auth p

def Authorized (queryData : List JsonValue) (auth entry : JsonValue) : Prop :=
  ∃ p, providerId entry = some p ∧ AuthorizedProvider queryData auth p

def Preferred (form : ServiceRequestForm) (entry : JsonValue) : Prop :=
  form.bPreferredProvidersExits ∧ isPreferred entry (values form.jPreferredProviders) = some true

/-- The entries of the registry, or the preferred ones among them. -/
def Candidate (form : ServiceRequestForm) (queryData : List JsonValue) (entry : JsonValue) : Prop :=
  entry ∈ queryData ∧ (form.getFlagValue "onlyPreferred" → Preferred form entry)

def TokenSecured (entry : JsonValue) : Prop :=
  ∃ s, getString entry "secure" = some s ∧ toLowerAndTrim s = bytes "token"

/-- The request is accepted, the registry has answered with the entries `queryData`, and the authorization system with
    `auth`. -/
structure Answered (w : World) (form : ServiceRequestForm) (errURL : List UInt8) (queryData : List JsonValue)
    (auth : JsonValue) : Prop where
  accepted : ∃ status, checkServiceRequestForm form = some status ∧ formError errURL status = none
  registry : ∃ root data, queryServiceRegistry w form = some (some root) ∧ get root "serviceQueryData" = some data ∧
    values data = queryData
  authorization : queryAuthorization w form queryData = some (some auth)

/-- The response has one entry, whose provider is authorized, and preferred if that is asked. -/
def OneUsable (w : World) (form : ServiceRequestForm) (errURL : List UInt8) (queryData : List JsonValue)
    (auth : JsonValue) : Prop :=
  ∃ element text, dynamicOrchestration w form errURL = some (.response [element] text) ∧
    Authorized queryData auth element.entry ∧ (form.getFlagValue "onlyPreferred" → Preferred form element.entry)

/-! ## When it works -/

/-- Some draw takes this entry. -/
def CanBeDrawn (form : ServiceRequestForm) (queryData : List JsonValue) (auth entry : JsonValue) : Prop :=
  if form.getFlagValue "onlyPreferred" then Candidate form queryData entry
  else ∃ p, AuthorizedProvider queryData auth p ∧ queryData.find? (fun e => providerId e == some p) = some entry

/-- What the loops collect under a provider. -/
def collectedInterfaces (queryData : List JsonValue) (auth : JsonValue) (p : Int) : List JsonValue :=
  ((entriesOf queryData p).map interfacesOf).flatMap (pick idOf (authorizedIds auth p))

/-- What the response is made of has the types that are read. -/
structure Presentable (w : World) (queryData : List JsonValue) (auth entry : JsonValue) : Prop where
  head : (elementHead entry).isSome
  interfaces : ∀ p, providerId entry = some p → ((collectedInterfaces queryData auth p).mapM convertText).isSome
  warnings : (calculateOrchestratorWarnings w entry).isSome

/-- The loops over the answers do not fail. -/
structure Readable (form : ServiceRequestForm) (queryData : List JsonValue) (auth : JsonValue) : Prop where
  authorization : (filterProviderListUsingAuthorizationResult queryData auth).isSome
  preferred : (preferredEntries form queryData).isSome

/-! ## The map of the authorized providers -/

section
variable {w : World} {form : ServiceRequestForm} {errURL : List UInt8} {queryData : List JsonValue}
  {auth entry : JsonValue} {m : ProvIntfs} {p : Int}

lemma collectedInterfaces_ne_nil : collectedInterfaces queryData auth p ≠ [] ↔ AuthorizedProvider queryData auth p := by
  constructor
  · intro h
    obtain ⟨v, hv⟩ := List.exists_mem_of_ne_nil _ h
    obtain ⟨vs, hvs, hv⟩ := List.mem_flatMap.1 hv
    obtain ⟨inside, authorized⟩ := mem_pick.1 hv
    exact ⟨v, List.mem_flatten.2 ⟨vs, hvs, inside⟩, authorized⟩
  · rintro ⟨v, hv, authorized⟩
    obtain ⟨vs, hvs, inside⟩ := List.mem_flatten.1 hv
    exact List.ne_nil_of_mem (List.mem_flatMap.2 ⟨vs, hvs, mem_pick.2 ⟨inside, authorized⟩⟩)

/-- In the map are the authorized providers, with what was collected for them. -/
lemma lookup_eq_some_iff (h : filterProviderListUsingAuthorizationResult queryData auth = some m) {vs : List JsonValue} :
    m.lookup p = some vs ↔ AuthorizedProvider queryData auth p ∧ vs = collectedInterfaces queryData auth p := by
  have of : ProvIntfs.of m p = collectedInterfaces queryData auth p := filter_of h
  rw [← collectedInterfaces_ne_nil, ← of, ProvIntfs.of]
  cases e : m.lookup p with
  | none => simp
  | some us =>
    have := filter_filled h p us e
    simp [this, eq_comm]

lemma exists_key (h : filterProviderListUsingAuthorizationResult queryData auth = some m) :
    AuthorizedProvider queryData auth p ↔ ∃ vs, (p, vs) ∈ m.entries := by
  have found : (m.lookup p).isSome ↔ ∃ vs, (p, vs) ∈ m.entries := by
    rw [OrdMap.lookup, List.lookup_isSome_iff]
    constructor
    · rintro ⟨⟨q, vs⟩, hq, e⟩
      obtain rfl := eq_of_beq e
      exact ⟨vs, hq⟩
    · rintro ⟨vs, h⟩
      exact ⟨(p, vs), h, beq_self_eq_true p⟩
  rw [← found, Option.isSome_iff_exists]
  simp only [lookup_eq_some_iff h, exists_and_left, exists_eq, and_true]

/-- An authorized provider has an entry. -/
lemma AuthorizedProvider.find (h : AuthorizedProvider queryData auth p) :
    ∃ entry, queryData.find? (fun e => providerId e == some p) = some entry := by
  obtain ⟨v, hv, -⟩ := h
  obtain ⟨vs, hvs, -⟩ := List.mem_flatten.1 hv
  obtain ⟨entry, he, -⟩ := List.mem_map.1 hvs
  obtain ⟨inside, id_⟩ := List.mem_filter.1 he
  rw [← Option.isSome_iff_exists, List.find?_isSome]
  exact ⟨entry, inside, by simpa using id_⟩

/-! ## The draw -/

lemma mem_selectLoop {preferred entries selected : List JsonValue} (h : selectLoop preferred entries = some selected) :
    entry ∈ selected ↔ entry ∈ entries ∧ isPreferred entry preferred = some true := by
  induction entries generalizing selected with
  | nil =>
    cases h
    simp
  | cons e entries ih =>
    obtain ⟨b, hb, h⟩ := Option.bind_eq_some_iff.1 h
    obtain ⟨rest, hr, h⟩ := Option.bind_eq_some_iff.1 h
    cases h
    have ih := ih hr
    by_cases here : entry = e
    · subst here
      cases b with
      | true => simp [hb]
      | false => simp [ih, hb]
    · cases b with
      | true => simp [here, ih]
      | false => simp [here, ih]

/-- The preferred entries are the candidates. -/
lemma mem_preferredEntries (only : form.getFlagValue "onlyPreferred") {preferred : List JsonValue}
    (h : preferredEntries form queryData = some preferred) : entry ∈ preferred ↔ Candidate form queryData entry := by
  rw [preferredEntries, if_pos only, selectPreferred] at h
  by_cases exist : form.bPreferredProvidersExits
  · rw [if_neg (by simp [exist])] at h
    simp [mem_selectLoop h, Candidate, only, Preferred, exist]
  · rw [if_pos (by simp [exist])] at h
    cases h
    simp [Candidate, only, Preferred, exist]

/-- A draw among the preferred entries. -/
lemma choose_preferred (matchmaking : form.getFlagValue "matchmaking") (only : form.getFlagValue "onlyPreferred")
    (preferred : List JsonValue) (m : ProvIntfs) (rand : Nat) :
    chooseEntries (w.withRand rand) form queryData preferred m =
      preferred[rand % preferred.length]?.map fun entry => [entry] := by
  rw [chooseEntries]
  simp only [matchmaking, only, Bool.not_true, Bool.false_eq_true, if_false, if_true, World.withRand]
  cases preferred[rand % preferred.length]? <;> rfl

/-- A draw among the authorized providers. -/
lemma choose_authorized (matchmaking : form.getFlagValue "matchmaking") (all : ¬form.getFlagValue "onlyPreferred")
    (preferred : List JsonValue) {rand : Nat} (vs : List JsonValue) (drawn : m.entries[rand % m.entries.length]? = some (p, vs))
    (found : queryData.find? (fun e => providerId e == some p) = some entry) :
    chooseEntries (w.withRand rand) form queryData preferred m = some [entry] := by
  rw [chooseEntries]
  simp only [matchmaking, all, Bool.not_true, Bool.false_eq_true, if_false, World.withRand, drawn, Option.bind_eq_bind,
    Option.bind_some, found]

/-- Every draw takes an entry that can be drawn. -/
lemma draw_mem (matchmaking : form.getFlagValue "matchmaking")
    (hm : filterProviderListUsingAuthorizationResult queryData auth = some m) (nonempty : m.entries ≠ [])
    {preferred : List JsonValue} (hp : preferredEntries form queryData = some preferred)
    (some_ : form.getFlagValue "onlyPreferred" → preferred ≠ []) (rand : Nat) :
    ∃ entry, CanBeDrawn form queryData auth entry ∧
      chooseEntries (w.withRand rand) form queryData preferred m = some [entry] := by
  by_cases only : form.getFlagValue "onlyPreferred"
  · have less : rand % preferred.length < preferred.length := Nat.mod_lt _ (List.length_pos_iff.2 (some_ only))
    refine ⟨preferred.get ⟨_, less⟩, ?_, ?_⟩
    · rw [CanBeDrawn, if_pos only, ← mem_preferredEntries only hp]
      exact List.get_mem _ _
    · rw [choose_preferred matchmaking only, List.getElem?_eq_getElem less]
      rfl
  · have less : rand % m.entries.length < m.entries.length := Nat.mod_lt _ (List.length_pos_iff.2 nonempty)
    cases drawn : m.entries.get ⟨_, less⟩ with
    | mk p vs =>
      have key : AuthorizedProvider queryData auth p := (exists_key hm).2 ⟨vs, drawn ▸ List.get_mem _ _⟩
      obtain ⟨entry, found⟩ := key.find
      refine ⟨entry, by rw [CanBeDrawn, if_neg only]; exact ⟨p, key, found⟩, ?_⟩
      refine choose_authorized matchmaking only _ vs ?_ found
      rw [List.getElem?_eq_getElem less, ← drawn]
      rfl

/-- Every entry that can be drawn is drawn by some draw. -/
lemma exists_draw (matchmaking : form.getFlagValue "matchmaking")
    (hm : filterProviderListUsingAuthorizationResult queryData auth = some m)
    {preferred : List JsonValue} (hp : preferredEntries form queryData = some preferred)
    (h : CanBeDrawn form queryData auth entry) :
    ∃ rand, chooseEntries (w.withRand rand) form queryData preferred m = some [entry] := by
  by_cases only : form.getFlagValue "onlyPreferred"
  · rw [CanBeDrawn, if_pos only, ← mem_preferredEntries only hp] at h
    obtain ⟨i, hi, e⟩ := List.mem_iff_getElem.1 h
    refine ⟨i, ?_⟩
    rw [choose_preferred matchmaking only, Nat.mod_eq_of_lt hi, List.getElem?_eq_getElem hi, e]
    rfl
  · rw [CanBeDrawn, if_neg only] at h
    obtain ⟨p, authorized, found⟩ := h
    obtain ⟨vs, hvs⟩ := (exists_key hm).1 authorized
    obtain ⟨i, hi, e⟩ := List.mem_iff_getElem.1 hvs
    refine ⟨i, choose_authorized matchmaking only _ vs ?_ found⟩
    rw [Nat.mod_eq_of_lt hi, List.getElem?_eq_getElem hi, e]

/-! ## The response for one entry -/

lemma not_token (h : ¬TokenSecured entry) {n : Nat} {sConsumer : List UInt8} {intfs : List JsonValue} {o : Out}
    (hs : (getString entry "secure").isSome) : addTokens w n sConsumer entry intfs o = some (some o) := by
  obtain ⟨s, hs⟩ := Option.isSome_iff_exists.1 hs
  have other : toLowerAndTrim s ≠ bytes "token" := fun e => h ⟨s, hs, e⟩
  simp only [addTokens, hs, Option.bind_eq_bind, Option.bind_some, if_neg other]

lemma elementHead_secure (h : (elementHead entry).isSome) : (getString entry "secure").isSome := by
  obtain ⟨o, h⟩ := Option.isSome_iff_exists.1 h
  obtain ⟨_, -, h⟩ := Option.bind_eq_some_iff.1 h
  obtain ⟨_, -, h⟩ := Option.bind_eq_some_iff.1 h
  obtain ⟨_, -, h⟩ := Option.bind_eq_some_iff.1 h
  obtain ⟨s, hs, -⟩ := Option.bind_eq_some_iff.1 h
  rw [hs]
  rfl

/-- An entry without tokens has an element exactly if its provider is authorized and it can be presented. -/
lemma createElement_iff (hm : filterProviderListUsingAuthorizationResult queryData auth = some m)
    (plain : ¬TokenSecured entry) (sConsumer : List UInt8) (n : Nat) :
    (∃ element, createElement w m sConsumer n entry = some (some element)) ↔
      Authorized queryData auth entry ∧ Presentable w queryData auth entry := by
  constructor
  · rintro ⟨element, h⟩
    obtain ⟨o, head, h⟩ := Option.bind_eq_some_iff.1 h
    obtain ⟨p, hp, h⟩ := Option.bind_eq_some_iff.1 h
    cases found : m.lookup p with
    | none =>
      simp only [found] at h
      cases h
    | some intfs =>
      simp only [found] at h
      obtain ⟨authorized, rfl⟩ := (lookup_eq_some_iff hm).1 found
      obtain ⟨texts, interfaces, h⟩ := Option.bind_eq_some_iff.1 h
      obtain ⟨tokens, ht, h⟩ := Option.bind_eq_some_iff.1 h
      rw [not_token plain (elementHead_secure (by rw [head]; rfl))] at ht
      cases ht
      obtain ⟨warning, warnings, -⟩ := Option.bind_eq_some_iff.1 h
      refine ⟨⟨p, hp, authorized⟩, by rw [head]; rfl, fun q hq => ?_, by rw [warnings]; rfl⟩
      obtain rfl : p = q := Option.some.inj (hp.symm.trans hq)
      rw [interfaces]
      rfl
  · rintro ⟨⟨p, hp, authorized⟩, present⟩
    obtain ⟨o, head⟩ := Option.isSome_iff_exists.1 present.head
    obtain ⟨texts, interfaces⟩ := Option.isSome_iff_exists.1 (present.interfaces p hp)
    obtain ⟨warning, warnings⟩ := Option.isSome_iff_exists.1 present.warnings
    have found := (lookup_eq_some_iff hm).2 ⟨authorized, rfl⟩
    simp only [createElement, head, hp, found, finishElement, interfaces, not_token plain (elementHead_secure present.head),
      warnings, Option.bind_eq_bind, Option.bind_some]
    exact ⟨_, rfl⟩

/-- The response for one entry has one element exactly if there is an element for it, and the element is about it. -/
lemma response_single {sConsumer : List UInt8} {element : OrchElement} :
    (∃ text, createOrchestrationResponse w [entry] m sConsumer = some (.response [element] text)) ↔
      createElement w m sConsumer 2 entry = some (some element) := by
  simp only [createOrchestrationResponse, createElements, Option.bind_eq_bind]
  cases createElement w m sConsumer 2 entry with
  | none => simp
  | some first =>
    cases first with
    | none => simp
    | some e => simp

/-! ## The run -/

/-- Behind the two answers. -/
lemma dynamicOrchestration_answered (h : Answered w form errURL queryData auth) (nonempty : queryData ≠ []) (rand : Nat) :
    dynamicOrchestration (w.withRand rand) form errURL =
      filterProviderListUsingAuthorizationResult queryData auth >>= fun m =>
        if m.entries = [] then some .empty else answerAuthorized (w.withRand rand) form queryData m := by
  obtain ⟨status, checked, fine⟩ := h.accepted
  obtain ⟨root, data, queried, hd, rfl⟩ := h.registry
  have queried : queryServiceRegistry (w.withRand rand) form = some (some root) := queried
  have authorized : queryAuthorization (w.withRand rand) form (values data) = some (some auth) := h.authorization
  simp only [dynamicOrchestration, checked, fine, queried, hd, if_neg nonempty, answerEntries, authorized,
    Option.bind_eq_bind, Option.bind_some]

lemma requester_some (h : Answered w form errURL queryData auth) : ∃ sRequester, convertText form.jRequesterSystem = some sRequester := by
  obtain ⟨rule, e, -⟩ := Option.bind_eq_some_iff.1 h.authorization
  obtain ⟨consumer, e, -⟩ := Option.bind_eq_some_iff.1 e
  exact ⟨consumer, e⟩

/-- Behind the draw. -/
lemma dynamicOrchestration_drawn (h : Answered w form errURL queryData auth) (nonempty : queryData ≠ [])
    (hm : filterProviderListUsingAuthorizationResult queryData auth = some m) (filled : m.entries ≠ [])
    {preferred : List JsonValue} (hp : preferredEntries form queryData = some preferred)
    (some_ : form.getFlagValue "onlyPreferred" → preferred ≠ []) {sRequester : List UInt8}
    (hr : convertText form.jRequesterSystem = some sRequester) {rand : Nat}
    (drawn : chooseEntries (w.withRand rand) form queryData preferred m = some [entry]) :
    dynamicOrchestration (w.withRand rand) form errURL =
      createOrchestrationResponse (w.withRand rand) [entry] m sRequester := by
  have go : ¬(form.getFlagValue "onlyPreferred" && preferred.isEmpty) := by
    simpa using some_
  rw [dynamicOrchestration_answered h nonempty, hm, Option.bind_eq_bind, Option.bind_some, if_neg filled]
  simp only [answerAuthorized, hp, Option.bind_eq_bind, Option.bind_some, if_neg go, hr, drawn]

lemma CanBeDrawn.candidate (h : CanBeDrawn form queryData auth entry) : Candidate form queryData entry := by
  by_cases only : form.getFlagValue "onlyPreferred"
  · rwa [CanBeDrawn, if_pos only] at h
  · rw [CanBeDrawn, if_neg only] at h
    obtain ⟨p, -, found⟩ := h
    exact ⟨List.mem_of_find?_eq_some found, fun e => absurd e only⟩

lemma OneUsable.readable {rand : Nat} (h : OneUsable (w.withRand rand) form errURL queryData auth)
    (answered : Answered w form errURL queryData auth) (nonempty : queryData ≠ []) : Readable form queryData auth := by
  obtain ⟨element, text, run, -⟩ := h
  rw [dynamicOrchestration_answered answered nonempty] at run
  obtain ⟨m, hm, run⟩ := Option.bind_eq_some_iff.1 run
  split_ifs at run
  · cases run
  · obtain ⟨preferred, hp, -⟩ := Option.bind_eq_some_iff.1 run
    exact ⟨by rw [hm]; rfl, by rw [hp]; rfl⟩

/-- For all requests with the flag `matchmaking` and all answers of the two systems, if no candidate is secured by tokens and
    one of them is authorized: the response has one usable entry for every value of the random generator if and only if
    each entry that can be drawn is authorized and what the response is made of can be read. -/
theorem matchmaking_iff (matchmaking : form.getFlagValue "matchmaking") (answered : Answered w form errURL queryData auth)
    (plain : ∀ entry, Candidate form queryData entry → ¬TokenSecured entry)
    (usable : ∃ entry, Candidate form queryData entry ∧ Authorized queryData auth entry) :
    (∀ rand, OneUsable (w.withRand rand) form errURL queryData auth) ↔
      Readable form queryData auth ∧ ∀ entry, CanBeDrawn form queryData auth entry →
        Authorized queryData auth entry ∧ Presentable w queryData auth entry := by
  obtain ⟨candidate, isCandidate, p, -, authorized⟩ := usable
  have nonempty : queryData ≠ [] := List.ne_nil_of_mem isCandidate.1
  obtain ⟨sRequester, hr⟩ := requester_some answered
  -- what a readable pair of answers has
  have parts : Readable form queryData auth → ∃ m preferred, filterProviderListUsingAuthorizationResult queryData auth = some m ∧
      preferredEntries form queryData = some preferred ∧ m.entries ≠ [] ∧
      (form.getFlagValue "onlyPreferred" → preferred ≠ []) := by
    rintro ⟨h1, h2⟩
    obtain ⟨m, hm⟩ := Option.isSome_iff_exists.1 h1
    obtain ⟨preferred, hp⟩ := Option.isSome_iff_exists.1 h2
    obtain ⟨vs, hvs⟩ := (exists_key hm).1 authorized
    refine ⟨m, preferred, hm, hp, List.ne_nil_of_mem hvs, fun only => ?_⟩
    exact List.ne_nil_of_mem ((mem_preferredEntries only hp).2 isCandidate)
  constructor
  · intro all
    have readable := (all 0).readable answered nonempty
    refine ⟨readable, fun entry drawn => ?_⟩
    obtain ⟨m, preferred, hm, hp, filled, some_⟩ := parts readable
    obtain ⟨rand, choice⟩ := exists_draw (w := w) matchmaking hm hp drawn
    obtain ⟨element, text, run, -⟩ := all rand
    rw [dynamicOrchestration_drawn answered nonempty hm filled hp some_ hr choice] at run
    obtain ⟨authorized, head, interfaces, warnings⟩ :=
      (createElement_iff hm (plain entry drawn.candidate) sRequester 2).1 ⟨element, response_single.1 ⟨text, run⟩⟩
    exact ⟨authorized, head, interfaces, warnings⟩
  · rintro ⟨readable, each⟩ rand
    obtain ⟨m, preferred, hm, hp, filled, some_⟩ := parts readable
    obtain ⟨entry, drawn, choice⟩ := draw_mem (w := w) matchmaking hm filled hp some_ rand
    obtain ⟨authorized, head, interfaces, warnings⟩ := each entry drawn
    obtain ⟨element, created⟩ := (createElement_iff (w := w.withRand rand) hm (plain entry drawn.candidate) sRequester 2).2
      ⟨authorized, head, interfaces, warnings⟩
    obtain ⟨same, -⟩ := createElement_interfaces created
    obtain ⟨text, run⟩ := response_single.2 created
    refine ⟨element, text, ?_, same ▸ authorized, same ▸ drawn.candidate.2⟩
    rw [dynamicOrchestration_drawn answered nonempty hm filled hp some_ hr choice, run]

end

/-! ## Two preferred providers, one of which is authorized -/

def drawSystemText (system : String) : List UInt8 :=
  bytes "\"systemName\":\"" ++ (bytes system ++ bytes "\",\"address\":\"a\",\"port\":80")

def drawSystem (system : String) : List (List UInt8 × JsonValue) :=
  [(bytes "systemName", .string (bytes system)), (bytes "address", .string (bytes "a")), (bytes "port", .number 80)]

def drawEntryText (id system : String) : List UInt8 :=
  bytes "\x7b\"serviceDefinition\":\x7b\"id\":7,\"serviceDefinition\":\"s\"\x7d,\"provider\":\x7b\"id\":" ++
  (bytes id ++ (bytes "," ++ (drawSystemText system ++
  (bytes "\x7d,\"serviceUri\":\"u\",\"secure\":\"NOT_SECURE\",\"metadata\":\x7b\"k\":\"v\"\x7d,\"version\":1," ++
    bytes "\"interfaces\":[\x7b\"id\":10\x7d]\x7d"))))

def drawEntry (id : Int) (system : String) : JsonValue := .object
  [(bytes "serviceDefinition", .object [(bytes "id", .number 7), (bytes "serviceDefinition", .string (bytes "s"))]),
    (bytes "provider", .object ((bytes "id", .number id) :: drawSystem system)), (bytes "serviceUri", .string (bytes "u")),
    (bytes "secure", .string (bytes "NOT_SECURE")), (bytes "metadata", .object [(bytes "k", .string (bytes "v"))]),
    (bytes "version", .number 1), (bytes "interfaces", .array [demoInterface 10])]

def drawEntries : List JsonValue := [drawEntry 1 "first", drawEntry 2 "second"]

def drawRegistryText : List UInt8 :=
  bytes "\x7b\"serviceQueryData\":[" ++ (drawEntryText "1" "first" ++ (bytes "," ++ (drawEntryText "2" "second" ++ bytes "]\x7d")))

def drawRegistry : JsonValue := .object [(bytes "serviceQueryData", .array drawEntries)]

/-- Both providers are in the registry, and the first one is authorized. -/
def drawWorld : World where
  send n _ _ := if n = 0 then some drawRegistryText else if n = 1 then some demoAuthText else none
  jsonParse s := if s = drawRegistryText then some drawRegistry else if s = demoAuthText then some demoAuth else none
  rand := 0
  localTimeNow := 0
  convertStrTimeToUint64 _ := 0

def drawPreferred (system : String) : JsonValue := .object [(bytes "providerSystem", .object (drawSystem system))]

def drawForm (flags : List (String × Bool)) : ServiceRequestForm := { demoForm with
  bPreferredProvidersExits := true
  jPreferredProviders := .array [drawPreferred "first", drawPreferred "second"]
  mFlags := flags }

lemma draw_answered (flags : List (String × Bool)) (h : checkServiceRequestForm (drawForm flags) = some 0) :
    Answered drawWorld (drawForm flags) [] drawEntries demoAuth := by
  have other : ¬demoAuthText = drawRegistryText := by decide +kernel
  refine ⟨⟨0, h, rfl⟩, ⟨drawRegistry, .array drawEntries, ?_, rfl, rfl⟩, ?_⟩
  · obtain ⟨payload, e⟩ := Option.isSome_iff_exists.1 (show (convertText demoForm.jRequestedService).isSome by decide +kernel)
    have e : convertText (drawForm flags).jRequestedService = some payload := e
    simp only [queryServiceRegistry, e, Option.bind_eq_bind, Option.bind_some, drawWorld, if_true]
  · obtain ⟨rule, e⟩ := Option.isSome_iff_exists.1
      (show (createIntraCloudRule demoForm.jRequesterSystem drawEntries).isSome by decide +kernel)
    have e : createIntraCloudRule (drawForm flags).jRequesterSystem drawEntries = some rule := e
    simp only [queryAuthorization, e, Option.bind_eq_bind, Option.bind_some, drawWorld, one_ne_zero, if_false, if_true,
      if_neg other]

lemma draw_plain {flags : List (String × Bool)} : ∀ entry, Candidate (drawForm flags) drawEntries entry → ¬TokenSecured entry := by
  have name : toLowerAndTrim (bytes "NOT_SECURE") ≠ bytes "token" := by decide
  rintro entry ⟨inside, -⟩ ⟨s, hs, token⟩
  have same : getString entry "secure" = some (bytes "NOT_SECURE") := by
    obtain rfl | rfl : entry = drawEntry 1 "first" ∨ entry = drawEntry 2 "second" := by simpa [drawEntries] using inside
    · rfl
    · rfl
  rw [same] at hs
  cases hs
  exact name token

lemma draw_authorized : AuthorizedProvider drawEntries demoAuth 1 := by
  have listed : listedInterfaces drawEntries 1 = [demoInterface 10] := rfl
  refine ⟨demoInterface 10, by simp [listed], ?_⟩
  have id_ : idOf (demoInterface 10) = some 10 := rfl
  rw [id_]
  decide

/-- Without `onlyPreferred` the response has its entry. -/
theorem matchmaking_authorized :
    OneUsable (drawWorld.withRand 12345) (drawForm [("matchmaking", true)]) [] drawEntries demoAuth := by
  have answered := draw_answered [("matchmaking", true)] (by decide +kernel)
  have all : ¬(drawForm [("matchmaking", true)]).getFlagValue "onlyPreferred" := by decide +kernel
  have candidate : Candidate (drawForm [("matchmaking", true)]) drawEntries (drawEntry 1 "first") :=
    ⟨by simp [drawEntries], fun only => absurd only all⟩
  have present : ∀ entry ∈ drawEntries, Presentable drawWorld drawEntries demoAuth entry := by
    intro entry inside
    obtain rfl | rfl : entry = drawEntry 1 "first" ∨ entry = drawEntry 2 "second" := by simpa [drawEntries] using inside
    · refine ⟨by decide +kernel, fun p hp => ?_, by decide +kernel⟩
      cases hp
      decide +kernel
    · refine ⟨by decide +kernel, fun p hp => ?_, by decide +kernel⟩
      cases hp
      decide +kernel
  refine (matchmaking_iff (by decide +kernel) answered draw_plain ⟨_, candidate, 1, rfl, draw_authorized⟩).2 ?_ 12345
  refine ⟨⟨by decide +kernel, by decide +kernel⟩, fun entry drawn => ⟨?_, present entry drawn.candidate.1⟩⟩
  rw [CanBeDrawn, if_neg all] at drawn
  obtain ⟨p, authorized, found⟩ := drawn
  exact ⟨p, by simpa using List.find?_some found, authorized⟩

/-- With `onlyPreferred` the second provider may be drawn, which is preferred and not authorized: the response is empty,
    although the first one is preferred and authorized. -/
theorem matchmaking_empty :
    Answered drawWorld (drawForm [("matchmaking", true), ("onlyPreferred", true)]) [] drawEntries demoAuth ∧
    (∀ entry, Candidate (drawForm [("matchmaking", true), ("onlyPreferred", true)]) drawEntries entry → ¬TokenSecured entry) ∧
    Candidate (drawForm [("matchmaking", true), ("onlyPreferred", true)]) drawEntries (drawEntry 1 "first") ∧
    Authorized drawEntries demoAuth (drawEntry 1 "first") ∧
    ¬OneUsable (drawWorld.withRand 1) (drawForm [("matchmaking", true), ("onlyPreferred", true)]) [] drawEntries demoAuth := by
  refine ⟨draw_answered _ (by decide +kernel), draw_plain, ⟨by simp [drawEntries], fun _ => ⟨rfl, by decide +kernel⟩⟩,
    ⟨1, rfl, draw_authorized⟩, ?_⟩
  rintro ⟨element, text, run, -⟩
  have none : ((dynamicOrchestration (drawWorld.withRand 1)
      (drawForm [("matchmaking", true), ("onlyPreferred", true)]) []).bind Answer.elements?).map List.length = some 0 := by
    decide +kernel
  rw [run] at none
  simp [Answer.elements?] at none

end ArrowheadCore.Orchestrator
