import ArrowheadCore.Lib.Joins
import ArrowheadCore.Orchestrator.Orchestration

/-!
# What an orchestration response grants

`filterProviderListUsingAuthorizationResult` collects the authorized interfaces of all entries of a provider
under the id of the provider alone. An element of the response therefore lists, besides the interfaces of its
own entry, those of the other entries of the same provider, and an interface as often as its id is authorized
and listed. The main theorem says for which entries this makes no difference.
-/

namespace ArrowheadCore.Orchestrator
open Lib Json

/-! ## The two answers -/

/-- The interfaces of a registry entry. -/
def interfacesOf (entry : JsonValue) : List JsonValue := ((get entry "interfaces").map values).getD []

/-- The records of an authorization answer. -/
def recordsOf (auth : JsonValue) : List JsonValue :=
  ((get auth "authorizedProviderIdsWithInterfaceIds").map values).getD []

/-- The interface ids of a record. -/
def idListOf (record : JsonValue) : List (Option Int) := (((get record "idList").map values).getD []).map JsonValue.toInt

/-- The interface ids that the answer authorizes for a provider. -/
def authorizedIds (auth : JsonValue) (p : Int) : List (Option Int) :=
  ((recordsOf auth).filter fun r => idOf r = some p).flatMap idListOf

/-- The entries of a provider. -/
def entriesOf (queryData : List JsonValue) (p : Int) : List JsonValue :=
  queryData.filter fun entry => providerId entry = some p

/-- The interfaces that the entries of a provider list, all together. -/
def listedInterfaces (queryData : List JsonValue) (p : Int) : List JsonValue :=
  ((entriesOf queryData p).map interfacesOf).flatten

/-- The element belongs to an entry of the registry whose provider is authorized, and it lists, without
    repetition, only interfaces of this entry that are authorized for the provider. -/
def GrantsOnly (queryData : List JsonValue) (auth : JsonValue) (element : OrchElement) : Prop :=
  element.entry ∈ queryData ∧ ∃ p, providerId element.entry = some p ∧
    (∃ r ∈ recordsOf auth, idOf r = some p) ∧ (element.interfaces.map idOf).Nodup ∧
    ∀ v ∈ element.interfaces, v ∈ interfacesOf element.entry ∧ idOf v ∈ authorizedIds auth p

/-- Every authorized interface that the entries of the provider list is one of this entry, and its id is
    authorized once and listed once. -/
def Separate (queryData : List JsonValue) (auth : JsonValue) (entry : JsonValue) : Prop :=
  ∀ p, providerId entry = some p → ∀ v ∈ listedInterfaces queryData p, idOf v ∈ authorizedIds auth p →
    v ∈ interfacesOf entry ∧ (authorizedIds auth p).count (idOf v) = 1 ∧
      ((listedInterfaces queryData p).map idOf).count (idOf v) = 1

/-! ## The loops -/

/-- The interfaces under a provider. -/
def ProvIntfs.of (m : ProvIntfs) (q : Int) : List JsonValue := (m.lookup q).getD []

lemma ProvIntfs.of_add (m : ProvIntfs) (p q : Int) (v : JsonValue) :
    ProvIntfs.of (ProvIntfs.add m p v) q = ProvIntfs.of m q ++ if q = p then [v] else [] := by
  rw [of, add, OrdMap.lookup_upsert]
  split_ifs with h
  · rw [h]
    rfl
  · rw [List.append_nil]
    rfl

section
variable {entry auth : JsonValue} {p q : Int} {m m' : ProvIntfs}

lemma filterInterface_of {k v : JsonValue} (h : filterInterface p k m v = some m') :
    ProvIntfs.of m' q = ProvIntfs.of m q ++ if q = p ∧ idOf v = k.toInt then [v] else [] := by
  obtain ⟨i, hi, h⟩ := Option.bind_eq_some_iff.1 h
  obtain ⟨j, hj, h⟩ := Option.bind_eq_some_iff.1 h
  rw [hi, hj]
  split_ifs at h with e
  · cases h
    rw [ProvIntfs.of_add, e]
    simp
  · cases h
    simp [e]

lemma filterInterfaces_of {k : JsonValue} (h : filterInterfaces entry p m k = some m') :
    ProvIntfs.of m' q = ProvIntfs.of m q ++
      if q = p then (interfacesOf entry).filter fun v => idOf v == k.toInt else [] := by
  obtain ⟨intfs, hi, h⟩ := Option.bind_eq_some_iff.1 h
  have e : interfacesOf entry = values intfs := by simp [interfacesOf, hi]
  have turn : ∀ s v s', filterInterface p k s v = some s' → ProvIntfs.of s' q = ProvIntfs.of s q ++
      if q = p ∧ idOf v = k.toInt then [v] else [] := fun s v s' => filterInterface_of
  have same (v : JsonValue) : decide (idOf v = k.toInt) = (idOf v == k.toInt) := (beq_eq_decide ..).symm
  rw [foldlM_append turn h, e, flatMap_ite]
  by_cases hq : q = p <;> simp [hq, same]

lemma filterRecord_of {record : JsonValue} (h : filterRecord entry p m record = some m') :
    ProvIntfs.of m' q = ProvIntfs.of m q ++
      if q = p ∧ idOf record = some p then pick idOf (idListOf record) (interfacesOf entry) else [] := by
  obtain ⟨i, hi, h⟩ := Option.bind_eq_some_iff.1 h
  rw [hi]
  split_ifs at h with e
  · obtain ⟨ids, hl, h⟩ := Option.bind_eq_some_iff.1 h
    have hids : idListOf record = (values ids).map JsonValue.toInt := by simp [idListOf, hl]
    have turn : ∀ s k s', filterInterfaces entry p s k = some s' → ProvIntfs.of s' q = ProvIntfs.of s q ++
        if q = p then (interfacesOf entry).filter fun v => idOf v == k.toInt else [] := fun s k s' => filterInterfaces_of
    rw [foldlM_append turn h, hids, e, pick, List.flatMap_map]
    by_cases hq : q = p <;> simp [hq]
  · cases h
    simp [e]

lemma filterEntry_of (h : filterEntry auth m entry = some m') :
    ProvIntfs.of m' q = ProvIntfs.of m q ++
      if providerId entry = some q then pick idOf (authorizedIds auth q) (interfacesOf entry) else [] := by
  obtain ⟨p, hp, h⟩ := Option.bind_eq_some_iff.1 h
  obtain ⟨records, hr, h⟩ := Option.bind_eq_some_iff.1 h
  have e : recordsOf auth = values records := by simp [recordsOf, hr]
  have turn : ∀ s r s', filterRecord entry p s r = some s' → ProvIntfs.of s' q = ProvIntfs.of s q ++
      if q = p ∧ idOf r = some p then pick idOf (idListOf r) (interfacesOf entry) else [] :=
    fun s r s' => filterRecord_of
  rw [foldlM_append turn h, flatMap_ite, hp]
  by_cases hq : q = p
  · subst hq
    simp [authorizedIds, e, pick, List.flatMap_assoc]
  · have hq' : p ≠ q := fun e => hq e.symm
    simp [hq, hq']

/-- What the loops have collected under a provider. -/
lemma filter_of {queryData : List JsonValue} (h : filterProviderListUsingAuthorizationResult queryData auth = some m) :
    ProvIntfs.of m q =
      ((entriesOf queryData q).map interfacesOf).flatMap (pick idOf (authorizedIds auth q)) := by
  have turn : ∀ s e s', filterEntry auth s e = some s' → ProvIntfs.of s' q = ProvIntfs.of s q ++
      if providerId e = some q then pick idOf (authorizedIds auth q) (interfacesOf e) else [] :=
    fun s e s' => filterEntry_of
  rw [foldlM_append turn h, flatMap_ite, entriesOf, List.flatMap_map]
  rfl

/-- A provider that is found has an interface. -/
def ProvIntfs.Filled (m : ProvIntfs) : Prop := ∀ q vs, m.lookup q = some vs → vs ≠ []

lemma ProvIntfs.Filled.add (h : ProvIntfs.Filled m) (p : Int) (v : JsonValue) :
    ProvIntfs.Filled (ProvIntfs.add m p v) := by
  intro q vs e
  rw [ProvIntfs.add, OrdMap.lookup_upsert] at e
  split_ifs at e
  · cases e
    simp
  · exact h q vs e

lemma filter_filled {queryData : List JsonValue}
    (h : filterProviderListUsingAuthorizationResult queryData auth = some m) : ProvIntfs.Filled m := by
  refine foldlM_invariant (fun s entry s' hs h => ?_) (fun q vs e => ?_) h
  · obtain ⟨p, -, h⟩ := Option.bind_eq_some_iff.1 h
    obtain ⟨records, -, h⟩ := Option.bind_eq_some_iff.1 h
    refine foldlM_invariant (fun s record s' hs h => ?_) hs h
    obtain ⟨i, -, h⟩ := Option.bind_eq_some_iff.1 h
    split_ifs at h
    · obtain ⟨ids, -, h⟩ := Option.bind_eq_some_iff.1 h
      refine foldlM_invariant (fun s k s' hs h => ?_) hs h
      obtain ⟨intfs, -, h⟩ := Option.bind_eq_some_iff.1 h
      refine foldlM_invariant (fun s v s' hs h => ?_) hs h
      obtain ⟨i, -, h⟩ := Option.bind_eq_some_iff.1 h
      obtain ⟨j, -, h⟩ := Option.bind_eq_some_iff.1 h
      split_ifs at h <;> cases h
      · exact hs.add p v
      · exact hs
    · cases h
      exact hs
  · cases e

/-! ## The elements -/

variable {w : World} {sConsumer : List UInt8}

lemma finishElement_interfaces {n : Nat} {o : Out} {intfs : List JsonValue} {element : OrchElement}
    (h : finishElement w sConsumer n entry intfs o = some (some element)) :
    element.entry = entry ∧ element.interfaces = intfs := by
  obtain ⟨texts, -, h⟩ := Option.bind_eq_some_iff.1 h
  obtain ⟨tokens, -, h⟩ := Option.bind_eq_some_iff.1 h
  cases tokens with
  | none => cases h
  | some o =>
    obtain ⟨warning, -, h⟩ := Option.bind_eq_some_iff.1 h
    cases h
    exact ⟨rfl, rfl⟩

/-- An element lists what is found under the provider of its entry. -/
lemma createElement_interfaces {n : Nat} {element : OrchElement}
    (h : createElement w m sConsumer n entry = some (some element)) :
    element.entry = entry ∧ ∃ p, providerId entry = some p ∧ m.lookup p = some element.interfaces := by
  obtain ⟨o, -, h⟩ := Option.bind_eq_some_iff.1 h
  obtain ⟨p, hp, h⟩ := Option.bind_eq_some_iff.1 h
  cases hm : m.lookup p with
  | none =>
    simp only [hm] at h
    cases h
  | some intfs =>
    simp only [hm] at h
    obtain ⟨h1, h2⟩ := finishElement_interfaces h
    exact ⟨h1, p, hp, by rw [hm, h2]⟩

lemma createElements_interfaces {element : OrchElement} :
    ∀ {entries : List JsonValue} {n : Nat} {elements : List OrchElement},
      createElements w m sConsumer n entries = some elements → element ∈ elements →
      element.entry ∈ entries ∧ ∃ p, providerId element.entry = some p ∧ m.lookup p = some element.interfaces
  | [], _, _, h, he => by
    cases h
    cases he
  | entry :: entries, n, _, h, he => by
    obtain ⟨first, h1, h⟩ := Option.bind_eq_some_iff.1 h
    obtain ⟨rest, h2, h⟩ := Option.bind_eq_some_iff.1 h
    cases h
    obtain he | he := List.mem_append.1 he
    · cases first with
      | none => cases he
      | some e =>
        obtain rfl : element = e := by simpa using he
        obtain ⟨h3, h4⟩ := createElement_interfaces h1
        rw [h3]
        exact ⟨List.mem_cons_self .., h4⟩
    · obtain ⟨h3, h4⟩ := createElements_interfaces h2 he
      exact ⟨List.mem_cons_of_mem _ h3, h4⟩

lemma selectLoop_subset {preferred : List JsonValue} : ∀ {entries selected : List JsonValue},
    selectLoop preferred entries = some selected → selected ⊆ entries
  | [], _, h => by
    cases h
    exact List.Subset.refl _
  | entry :: entries, _, h => by
    obtain ⟨b, -, h⟩ := Option.bind_eq_some_iff.1 h
    obtain ⟨rest, h2, h⟩ := Option.bind_eq_some_iff.1 h
    cases h
    have ih := selectLoop_subset h2
    cases b with
    | true => exact List.cons_subset_cons _ ih
    | false => exact List.Subset.trans ih (List.subset_cons_self ..)

lemma selectPreferred_subset {form : ServiceRequestForm} {queryData selected : List JsonValue}
    (h : selectPreferred form queryData = some selected) : selected ⊆ queryData := by
  unfold selectPreferred at h
  split_ifs at h
  · cases h
    exact List.nil_subset _
  · exact selectLoop_subset h

lemma chooseEntries_subset {form : ServiceRequestForm} {queryData preferred chosen : List JsonValue}
    (hp : preferred ⊆ queryData) (h : chooseEntries w form queryData preferred m = some chosen) :
    chosen ⊆ queryData := by
  have single {x : JsonValue} (hx : x ∈ queryData) : [x] ⊆ queryData := by simpa using hx
  unfold chooseEntries at h
  simp only at h
  split_ifs at h
  · cases h
    exact hp
  · cases h
    exact List.Subset.refl _
  · obtain ⟨entry, h1, h⟩ := Option.bind_eq_some_iff.1 h
    cases h
    exact single (hp (List.mem_of_getElem? h1))
  · obtain ⟨x, -, h⟩ := Option.bind_eq_some_iff.1 h
    split at h
    · next entry h1 =>
      cases h
      exact single (List.mem_of_find?_eq_some h1)
    · cases h
      exact List.Subset.refl _

/-! ## The response -/

section
variable {form : ServiceRequestForm} {errURL text : List UInt8} {elements : List OrchElement} {queryData : List JsonValue}

lemma answerAuthorized_elements (h : answerAuthorized w form queryData m = some (.response elements text)) :
    ∀ element ∈ elements, element.entry ∈ queryData ∧
      ∃ p, providerId element.entry = some p ∧ m.lookup p = some element.interfaces := by
  obtain ⟨preferred, hp, h⟩ := Option.bind_eq_some_iff.1 h
  have inside : preferred ⊆ queryData := by
    unfold preferredEntries at hp
    split_ifs at hp
    · exact selectPreferred_subset hp
    · cases hp
      exact List.nil_subset _
  split_ifs at h
  · cases h
  · obtain ⟨requester, -, h⟩ := Option.bind_eq_some_iff.1 h
    obtain ⟨chosen, hc, h⟩ := Option.bind_eq_some_iff.1 h
    obtain ⟨els, he, h⟩ := Option.bind_eq_some_iff.1 h
    cases h
    intro element hm
    obtain ⟨h1, h2⟩ := createElements_interfaces he hm
    exact ⟨chooseEntries_subset inside hc h1, h2⟩

/-- The elements of a response come from entries of the registry answer, with the interfaces that the loops
    have collected. -/
lemma dynamicOrchestration_elements (h : dynamicOrchestration w form errURL = some (.response elements text)) :
    ∃ root data auth m, queryServiceRegistry w form = some (some root) ∧ get root "serviceQueryData" = some data ∧
      queryAuthorization w form (values data) = some (some auth) ∧
      filterProviderListUsingAuthorizationResult (values data) auth = some m ∧
      ∀ element ∈ elements, element.entry ∈ values data ∧
        ∃ p, providerId element.entry = some p ∧ m.lookup p = some element.interfaces := by
  obtain ⟨status, -, h⟩ := Option.bind_eq_some_iff.1 h
  split at h
  · next e he =>
    cases h
    unfold formError at he
    split at he <;> cases he
  obtain ⟨root, hr, h⟩ := Option.bind_eq_some_iff.1 h
  cases root with
  | none => cases h
  | some root =>
    obtain ⟨data, hd, h⟩ := Option.bind_eq_some_iff.1 h
    split_ifs at h
    · cases h
    · obtain ⟨auth, ha, h⟩ := Option.bind_eq_some_iff.1 h
      cases auth with
      | none => cases h
      | some auth =>
        obtain ⟨m, hm, h⟩ := Option.bind_eq_some_iff.1 h
        split_ifs at h
        · cases h
        · exact ⟨root, data, auth, m, hr, hd, ha, hm, answerAuthorized_elements h⟩

/-- An element grants no more than its entry and the authorization answer allow exactly when the authorized
    interfaces of its provider are separate. -/
theorem dynamicOrchestration_grants_iff (h : dynamicOrchestration w form errURL = some (.response elements text)) :
    ∃ root data auth, queryServiceRegistry w form = some (some root) ∧ get root "serviceQueryData" = some data ∧
      queryAuthorization w form (values data) = some (some auth) ∧
      ∀ element ∈ elements,
        (GrantsOnly (values data) auth element ↔ Separate (values data) auth element.entry) := by
  obtain ⟨root, data, auth, m, hr, hd, ha, hm, h⟩ := dynamicOrchestration_elements h
  refine ⟨root, data, auth, hr, hd, ha, fun element he => ?_⟩
  obtain ⟨hentry, p, hp, hl⟩ := h element he
  have collected : element.interfaces =
      ((entriesOf (values data) p).map interfacesOf).flatMap (pick idOf (authorizedIds auth p)) := by
    rw [← filter_of hm, ProvIntfs.of, hl]
    rfl
  have authorized : ∀ v ∈ element.interfaces, idOf v ∈ authorizedIds auth p := by
    intro v hv
    rw [collected] at hv
    obtain ⟨vs, -, hv⟩ := List.mem_flatMap.1 hv
    exact (mem_pick.1 hv).2
  have recorded : ∃ r ∈ recordsOf auth, idOf r = some p := by
    obtain ⟨v, hv⟩ := List.exists_mem_of_ne_nil _ (filter_filled hm p _ hl)
    obtain ⟨r, hr, -⟩ := List.mem_flatMap.1 (authorized v hv)
    exact ⟨r, List.mem_of_mem_filter hr, by simpa using List.of_mem_filter hr⟩
  have key : (element.interfaces.map idOf).Nodup ∧ (∀ v ∈ element.interfaces, v ∈ interfacesOf element.entry) ↔
      ∀ v ∈ listedInterfaces (values data) p, idOf v ∈ authorizedIds auth p →
        v ∈ interfacesOf element.entry ∧ (authorizedIds auth p).count (idOf v) = 1 ∧
          ((listedInterfaces (values data) p).map idOf).count (idOf v) = 1 := by
    rw [collected]
    exact picks_nodup_iff
  constructor
  · rintro ⟨-, q, hq, -, nodup, inside⟩ q' hq'
    cases hp.symm.trans hq
    cases hp.symm.trans hq'
    exact key.1 ⟨nodup, fun v hv => (inside v hv).1⟩
  · intro separate
    obtain ⟨nodup, inside⟩ := key.2 (separate p hp)
    exact ⟨hentry, p, hp, recorded, nodup, fun v hv => ⟨inside v hv, authorized v hv⟩⟩

end

end

/-! ## Two entries of one provider -/

/-- An entry with one interface, as a text and as what gason makes of it. -/
def demoEntryText (intf : String) : List UInt8 :=
  bytes "\x7b\"serviceDefinition\":\x7b\"id\":7,\"serviceDefinition\":\"s\"\x7d,\"provider\":\x7b\"id\":1\x7d," ++
  (bytes "\"serviceUri\":\"u\",\"secure\":\"NOT_SECURE\",\"metadata\":\x7b\"k\":\"v\"\x7d,\"version\":1," ++
  (bytes "\"interfaces\":[\x7b\"id\":" ++ (bytes intf ++ bytes "\x7d]\x7d")))

def demoInterface (id : Int) : JsonValue := .object [(bytes "id", .number id)]

def demoEntry (id : Int) : JsonValue := .object
  [(bytes "serviceDefinition", .object [(bytes "id", .number 7), (bytes "serviceDefinition", .string (bytes "s"))]),
    (bytes "provider", .object [(bytes "id", .number 1)]), (bytes "serviceUri", .string (bytes "u")),
    (bytes "secure", .string (bytes "NOT_SECURE")), (bytes "metadata", .object [(bytes "k", .string (bytes "v"))]),
    (bytes "version", .number 1), (bytes "interfaces", .array [demoInterface id])]

/-- The answer of the registry with one entry for the interface `10`, or also one for the interface `20`. -/
def demoRegistryText (two : Bool) : List UInt8 :=
  bytes "\x7b\"serviceQueryData\":[" ++ (demoEntryText "10" ++
    ((if two then bytes "," ++ demoEntryText "20" else []) ++ bytes "]\x7d"))

def demoRegistry (two : Bool) : JsonValue :=
  .object [(bytes "serviceQueryData", .array (if two then [demoEntry 10, demoEntry 20] else [demoEntry 10]))]

def demoAuthText : List UInt8 :=
  bytes "\x7b\"authorizedProviderIdsWithInterfaceIds\":[\x7b\"id\":1,\"idList\":[10,20]\x7d]\x7d"

def demoAuth : JsonValue := .object [(bytes "authorizedProviderIdsWithInterfaceIds",
  .array [.object [(bytes "id", .number 1), (bytes "idList", .array [.number 10, .number 20])]])]

/-- The two systems with these answers, both of which gason accepts. -/
def demoWorld (two : Bool) : World where
  send n _ _ := if n = 0 then some (demoRegistryText two) else if n = 1 then some demoAuthText else none
  jsonParse s := if s = demoRegistryText two then some (demoRegistry two) else if s = demoAuthText then some demoAuth else none
  rand := 0
  localTimeNow := 0
  convertStrTimeToUint64 _ := 0

def demoForm : ServiceRequestForm where
  sServiceDefinitionReq := bytes "s"
  jRequesterSystem := .object [(bytes "systemName", .string (bytes "c"))]
  bRequestedServiceExists := true
  jRequestedService := .object [(bytes "serviceDefinitionRequirement", .string (bytes "s"))]
  bPreferredProvidersExits := false
  jPreferredProviders := .null
  mFlags := []

/-- The elements of the answer, if it is a response. -/
def Answer.elements? : Answer → Option (List OrchElement)
  | .response elements _ => some elements
  | _ => none

lemma Answer.of_elements? {answer : Option Answer} {elements : List OrchElement}
    (h : answer.bind Answer.elements? = some elements) : ∃ text, answer = some (.response elements text) := by
  obtain ⟨a, rfl, h⟩ := Option.bind_eq_some_iff.1 h
  cases a with
  | response els text =>
    cases h
    exact ⟨text, rfl⟩
  | error => cases h
  | empty => cases h

/-- The element of the first entry lists the interface of the second one. -/
theorem dynamicOrchestration_grants_more :
    ∃ elements text, dynamicOrchestration (demoWorld true) demoForm [] = some (.response elements text) ∧
      ∃ element ∈ elements, ∀ queryData auth, ¬GrantsOnly queryData auth element := by
  have run : ((dynamicOrchestration (demoWorld true) demoForm []).bind Answer.elements?).any (fun elements =>
      elements.any fun element => (element.interfaces.map idOf).contains (some 20) &&
        !((interfacesOf element.entry).map idOf).contains (some 20)) := by
    decide +kernel
  obtain ⟨elements, he, run⟩ := (Option.any_eq_true _ _).1 run
  obtain ⟨text, h⟩ := Answer.of_elements? he
  obtain ⟨element, hm, run⟩ := List.any_eq_true.1 run
  rw [Bool.and_eq_true, List.contains_iff_mem, List.mem_map] at run
  obtain ⟨⟨v, hv, hid⟩, out⟩ := run
  refine ⟨elements, text, h, element, hm, ?_⟩
  rintro queryData auth ⟨-, p, -, -, -, inside⟩
  have listed : some 20 ∈ (interfacesOf element.entry).map idOf := List.mem_map.2 ⟨v, (inside v hv).1, hid⟩
  simp [listed] at out

theorem dynamicOrchestration_grants_one :
    ∃ elements text root data auth, dynamicOrchestration (demoWorld false) demoForm [] = some (.response elements text) ∧
      elements.length = 1 ∧ queryServiceRegistry (demoWorld false) demoForm = some (some root) ∧
      get root "serviceQueryData" = some data ∧
      queryAuthorization (demoWorld false) demoForm (values data) = some (some auth) ∧
      ∀ element ∈ elements,
        (GrantsOnly (values data) auth element ↔ Separate (values data) auth element.entry) := by
  have run : ((dynamicOrchestration (demoWorld false) demoForm []).bind Answer.elements?).any
      (fun elements => elements.length == 1) := by
    decide +kernel
  obtain ⟨elements, he, one⟩ := (Option.any_eq_true _ _).1 run
  obtain ⟨text, h⟩ := Answer.of_elements? he
  obtain ⟨root, data, auth, h1⟩ := dynamicOrchestration_grants_iff h
  exact ⟨elements, text, root, data, auth, h, by simpa using one, h1⟩

end ArrowheadCore.Orchestrator
