import ArrowheadCore.Orchestrator.Contacts
import ArrowheadCore.Orchestrator.Preferred

/-!
# Checks of the request form

Embedding of `ServiceRequestForm::parseRequestForm` (`core/apps/Orchestrator/payloads/ServiceRequestForm.h`), and what
`checkServiceRequestForm` finds out about the form. The check ends at once when the flags agree with each other, and
goes on when they do not; but then no provider has been collected. So all it can report is a blank requirement, and that
only in a form that breaks another constraint.
-/

namespace ArrowheadCore.Orchestrator
open Lib Json ServiceRegistry

/-! ## `parseRequestForm` -/

def vKnownOrchFlags : List String :=
  ["onlyPreferred", "overrideStore", "externalServiceRequest", "enableInterCloud", "enableQoS", "matchmaking",
    "metadataSearch", "triggerInterCloud", "pingProviders"]

/-- The loop over the known flags. -/
def parseFlags (orchestrationFlags : JsonValue) : List String → Option (List (String × Bool))
  | [] => some []
  | flag :: flags => do
    let value ← get orchestrationFlags flag
    let rest ← parseFlags orchestrationFlags flags
    match value with
    | .true => some ((flag, true) :: rest)
    | .false => some ((flag, false) :: rest)
    | _ => some rest

/-- `sServiceDefinitionReq`, which only dynamic orchestration reads and needs; `none` is the end of the process. -/
def parseRequestedService (bDynamicOrchestration : Bool) (requestedService : JsonValue) :
    Option (Except Nat (List UInt8)) := do
  if bDynamicOrchestration then
    if !requestedService.isSet then some (.error 2)
    else
      match ← get requestedService "serviceDefinitionRequirement" with
      | .string s => some (if cStr s = [] then .error 4 else .ok (cStr s))
      | _ => some (.error 3)
  else some (.ok [])

/-- The known flags that are given as booleans. -/
def parseOrchestrationFlags (orchestrationFlags : JsonValue) : Option (List (String × Bool)) :=
  if orchestrationFlags.isSet then parseFlags orchestrationFlags vKnownOrchFlags else some []

/-- The status that is not zero, or the form. -/
def parseRequestForm (bDynamicOrchestration : Bool) (jsonRootValue : JsonValue) :
    Option (Except Nat ServiceRequestForm) := do
  let jRequesterSystem ← get jsonRootValue "requesterSystem"
  if !jRequesterSystem.isSet then some (.error 1)
  else
    let jRequestedService ← get jsonRootValue "requestedService"
    match ← parseRequestedService bDynamicOrchestration jRequestedService with
    | .error status => some (.error status)
    | .ok sServiceDefinitionReq =>
      let jPreferredProviders ← get jsonRootValue "preferredProviders"
      let mFlags ← get jsonRootValue "orchestrationFlags" >>= parseOrchestrationFlags
      some (.ok {
        sServiceDefinitionReq, jRequesterSystem, jRequestedService, jPreferredProviders, mFlags
        bRequestedServiceExists := jRequestedService.isSet
        bPreferredProvidersExits := jPreferredProviders.isSet })

/-! ## The constraints -/

/-- A system name, an address and a port in its range are given. -/
structure Complete (system : JsonValue) : Prop where
  systemName : (named system "systemName").isSet
  address : (named system "address").isSet
  port : ∃ z, named system "port" = .number z ∧ 0 ≤ z ∧ z ≤ 65535

/-- The preferred providers that `validateCrossParameterConstraints` goes through. -/
def ServiceRequestForm.listed (form : ServiceRequestForm) : List JsonValue :=
  if form.bPreferredProvidersExits then form.jPreferredProviders.items else []

/-- One of the constraints that the errors of `dynamicOrchestration` name is violated. -/
inductive Violated (form : ServiceRequestForm) : Prop where
  | overrideStore : ¬form.bRequestedServiceExists → form.getFlagValue "overrideStore" → Violated form
  | triggerInterCloud : ¬form.bRequestedServiceExists → form.getFlagValue "triggerInterCloud" → Violated form
  | onlyPreferred : form.getFlagValue "onlyPreferred" → (∀ p ∈ form.listed, ¬Local p) → Violated form
  | blank : form.sServiceDefinitionReq = [] → Violated form
  | incomplete {p : JsonValue} : form.getFlagValue "onlyPreferred" → p ∈ form.listed → Local p →
      ¬Complete (named p "providerSystem") → Violated form

/-- The check tells whether a constraint is violated, and if it reports one, no other system is contacted. -/
structure Validates (form : ServiceRequestForm) : Prop where
  status : ∃ status, checkServiceRequestForm form = some status ∧ (status ≠ 0 ↔ Violated form)
  contacts : ∀ w errURL status, checkServiceRequestForm form = some status → status ≠ 0 →
    Exchange.contacts w form errURL = []

/-! ## When it does -/

/-- A flag is set without what it needs. -/
def FlagsDisagree (form : ServiceRequestForm) : Prop :=
  ¬form.bRequestedServiceExists ∧ (form.getFlagValue "overrideStore" ∨ form.getFlagValue "triggerInterCloud") ∨
    form.getFlagValue "onlyPreferred" ∧ ¬form.bPreferredProvidersExits

/-- The nodes of an array have no names that `child` could compare. -/
def IsFilledArray (v : JsonValue) : Prop := ∃ item items, v = .array (item :: items)

section
variable {form : ServiceRequestForm} {v p : JsonValue} {ps : List JsonValue}

lemma get_isSome (h : ¬IsFilledArray v) (key : String) : ∃ m, get v key = some m := by
  cases v with
  | array items =>
    cases items with
    | nil => exact ⟨_, rfl⟩
    | cons item items => exact absurd ⟨item, items, rfl⟩ h
  | _ => exact ⟨_, rfl⟩

lemma get_filledArray (h : IsFilledArray v) (key : String) : get v key = none := by
  obtain ⟨item, items, rfl⟩ := h
  rfl

lemma isLocal_isSome (h : ¬IsFilledArray p) : ∃ b, isLocal p = some b := by
  obtain ⟨cloud, hc⟩ := get_isSome h "providerCloud"
  obtain ⟨system, hs⟩ := get_isSome h "providerSystem"
  rw [isLocal, hc, hs]
  by_cases set : cloud.isSet
  · exact ⟨false, if_pos set⟩
  · exact ⟨system.isSet, if_neg set⟩

lemma isLocal_filledArray (h : IsFilledArray p) : isLocal p = none := by
  rw [isLocal, get_filledArray h]
  rfl

lemma preferredProviderIsValid_isSome (h : ¬IsFilledArray p) : ∃ b, preferredProviderIsValid p = some b := by
  obtain ⟨b, hb⟩ := isLocal_isSome h
  obtain ⟨cloud, hc⟩ := get_isSome h "providerCloud"
  rw [preferredProviderIsValid, hb, isGlobal, hc]
  cases b with
  | false => exact ⟨_, rfl⟩
  | true => exact ⟨_, rfl⟩

lemma validPreferred_isSome (h : ∀ p ∈ ps, ¬IsFilledArray p) : ∃ valid, validPreferred form ps = some valid := by
  induction ps with
  | nil => exact ⟨_, rfl⟩
  | cons p ps ih =>
    obtain ⟨first, rest⟩ := List.forall_mem_cons.1 h
    obtain ⟨valid, hv⟩ := ih rest
    obtain ⟨local_, hl⟩ := isLocal_isSome first
    obtain ⟨isValid, hi⟩ := preferredProviderIsValid_isSome first
    simp only [validPreferred, hv, hl, hi, Option.bind_eq_bind, Option.bind_some]
    split_ifs
    all_goals exact ⟨_, rfl⟩

lemma validPreferred_filledArray (h : ∃ p ∈ ps, IsFilledArray p) : validPreferred form ps = none := by
  induction ps with
  | nil =>
    obtain ⟨p, hp, -⟩ := h
    cases hp
  | cons p ps ih =>
    by_cases rest : ∃ q ∈ ps, IsFilledArray q
    · rw [validPreferred, ih rest, Option.bind_eq_bind, Option.bind_none]
    · have first : IsFilledArray p := by
        obtain ⟨q, hq, array⟩ := h
        cases hq with
        | head => exact array
        | tail _ hq => exact absurd ⟨q, hq, array⟩ rest
      have others : ∃ valid, validPreferred form ps = some valid :=
        validPreferred_isSome fun q hq array => rest ⟨q, hq, array⟩
      obtain ⟨valid, hv⟩ := others
      have ends : isLocal p = none := isLocal_filledArray first
      have invalid : preferredProviderIsValid p = none := by
        rw [preferredProviderIsValid, ends]
        rfl
      simp only [validPreferred, hv, invalid, Option.bind_eq_bind, Option.bind_some, Option.bind_none]

lemma FlagsDisagree.violated (h : FlagsDisagree form) : Violated form := by
  obtain ⟨absent, flag | flag⟩ | ⟨flag, absent⟩ := h
  · exact .overrideStore absent flag
  · exact .triggerInterCloud absent flag
  · refine .onlyPreferred flag fun p hp => ?_
    rw [ServiceRequestForm.listed, if_neg absent] at hp
    cases hp

/-- The check goes on only when the flags disagree, and then no provider has been collected. -/
lemma check_of_disagree (h : FlagsDisagree form) :
    checkServiceRequestForm form = some (if form.sServiceDefinitionReq = [] then 4 else 0) := by
  have cross : ∃ status, validateCrossParameterConstraints form = some (status, []) ∧ status ≠ 0 := by
    obtain ⟨absent, flags⟩ | ⟨flag, absent⟩ := h
    · by_cases override : form.getFlagValue "overrideStore"
      · exact ⟨1, by simp [validateCrossParameterConstraints, absent, override], by decide⟩
      · have trigger := flags.resolve_left override
        exact ⟨2, by simp [validateCrossParameterConstraints, absent, override, trigger], by decide⟩
    · simp only [validateCrossParameterConstraints, flag, absent]
      split_ifs
      · exact ⟨1, rfl, by decide⟩
      · exact ⟨2, rfl, by decide⟩
      · exact ⟨3, rfl, by decide⟩
      · contradiction
  obtain ⟨status, hs, nonzero⟩ := cross
  simp only [checkServiceRequestForm, hs, Option.bind_eq_bind, Option.bind_some, if_neg nonzero]
  split_ifs
  · rfl
  · rfl

/-- Else nothing is reported. -/
lemma check_of_agree (h : ¬FlagsDisagree form) :
    checkServiceRequestForm form = none ∧ form.getFlagValue "onlyPreferred" ∧ (∃ p ∈ form.listed, IsFilledArray p) ∨
    checkServiceRequestForm form = some 0 ∧ (form.getFlagValue "onlyPreferred" → ∀ p ∈ form.listed, ¬IsFilledArray p) := by
  have override : ¬(!form.bRequestedServiceExists && form.getFlagValue "overrideStore") := fun e => h <| by
    rw [Bool.and_eq_true, Bool.not_eq_true'] at e
    exact .inl ⟨by simp [e.1], .inl e.2⟩
  have trigger : ¬(!form.bRequestedServiceExists && form.getFlagValue "triggerInterCloud") := fun e => h <| by
    rw [Bool.and_eq_true, Bool.not_eq_true'] at e
    exact .inl ⟨by simp [e.1], .inr e.2⟩
  by_cases only : form.getFlagValue "onlyPreferred"
  · have exist : form.bPreferredProvidersExits := by
      by_contra absent
      exact h (.inr ⟨only, absent⟩)
    have listed : form.listed = form.jPreferredProviders.items := if_pos exist
    rw [checkServiceRequestForm, validateCrossParameterConstraints, if_neg override, if_neg trigger, if_pos only,
      if_neg (by simp [exist]), listed]
    by_cases array : ∃ p ∈ form.jPreferredProviders.items, IsFilledArray p
    · rw [validPreferred_filledArray array]
      exact .inl ⟨rfl, only, array⟩
    · have plain : ∀ p ∈ form.jPreferredProviders.items, ¬IsFilledArray p := fun p hp a => array ⟨p, hp, a⟩
      have all : ∃ valid, validPreferred form form.jPreferredProviders.items = some valid := validPreferred_isSome plain
      obtain ⟨valid, hv⟩ := all
      rw [hv]
      exact .inr ⟨rfl, fun _ => plain⟩
  · rw [checkServiceRequestForm, validateCrossParameterConstraints, if_neg override, if_neg trigger, if_neg only]
    exact .inr ⟨rfl, fun flag => absurd flag only⟩

/-- What dynamic orchestration parses has a requested service with a requirement. -/
lemma parseRequestForm_dynamic {root : JsonValue} (h : parseRequestForm true root = some (.ok form)) :
    form.bRequestedServiceExists ∧ form.sServiceDefinitionReq ≠ [] := by
  obtain ⟨requester, -, h⟩ := Option.bind_eq_some_iff.1 h
  split_ifs at h
  · cases h
  obtain ⟨service, -, h⟩ := Option.bind_eq_some_iff.1 h
  obtain ⟨parsed, hp, h⟩ := Option.bind_eq_some_iff.1 h
  have given : service.isSet ∧ parsed ≠ .ok [] := by
    rw [parseRequestedService, if_pos rfl] at hp
    split_ifs at hp with absent
    · cases hp
      cases h
    · obtain ⟨requirement, -, hp⟩ := Option.bind_eq_some_iff.1 hp
      refine ⟨by simpa using absent, ?_⟩
      rintro rfl
      cases requirement with
      | string s =>
        have hp := Option.some.inj hp
        split_ifs at hp with blank
        exact blank (Except.ok.inj hp)
      | _ => cases hp
  cases parsed with
  | error status => cases h
  | ok requirement =>
    obtain ⟨preferred, -, h⟩ := Option.bind_eq_some_iff.1 h
    obtain ⟨mFlags, -, h⟩ := Option.bind_eq_some_iff.1 h
    cases h
    exact ⟨given.1, fun blank => given.2 (congrArg Except.ok blank)⟩

/-- So nothing is ever reported about it. -/
lemma check_parsed {root : JsonValue} (h : parseRequestForm true root = some (.ok form)) {status : Nat}
    (checked : checkServiceRequestForm form = some status) : status = 0 := by
  obtain ⟨-, filled⟩ := parseRequestForm_dynamic h
  by_cases flags : FlagsDisagree form
  · rw [check_of_disagree flags, if_neg filled] at checked
    exact (Option.some.inj checked).symm
  · obtain ⟨ends, -⟩ | ⟨fine, -⟩ := check_of_agree flags
    · rw [ends] at checked
      cases checked
    · exact Option.some.inj (checked.symm.trans fine)

end

/-! ## A form with `onlyPreferred` and no preferred provider -/

def onlyPreferredRoot : JsonValue := .object
  [(bytes "requesterSystem", .object [(bytes "systemName", .string (bytes "c"))]),
    (bytes "requestedService", .object [(bytes "serviceDefinitionRequirement", .string (bytes "s"))]),
    (bytes "orchestrationFlags", .object [(bytes "onlyPreferred", .true)])]

end ArrowheadCore.Orchestrator
