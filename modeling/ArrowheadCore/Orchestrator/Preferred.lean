import ArrowheadCore.Orchestrator.Matchmaking

/-!
# Preferred providers

`selectPreferred` against its purpose: the entries of the registry that some local preferred provider stands for. Here
the members of an object are looked up by their names. The code takes any member whose name begins with the one that is
asked for, and a member of another type than the one that is read ends the process. So the two agree as long as the
members that are reached are named and typed as they are read.
-/

namespace ArrowheadCore.Orchestrator
open Lib Json ServiceRegistry

/-! ## What the selection is for -/

/-- The member with this name, else null. -/
def named (v : JsonValue) (name : String) : JsonValue :=
  match v with
  | .object members => (members.find? fun m => m.1 == bytes name).elim .null Prod.snd
  | _ => .null

/-- What a system is told by: its normalised name, its address and its port. -/
def identity (system : JsonValue) : Option (List UInt8 × List UInt8 × Int) := do
  let systemName ← (named system "systemName").toString
  let address ← (named system "address").toString
  let port ← (named system "port").toInt
  some (toLowerAndTrim systemName, address, port)

/-- It has a system and no cloud. -/
def Local (p : JsonValue) : Prop := (named p "providerSystem").isSet ∧ ¬(named p "providerCloud").isSet

instance (p : JsonValue) : Decidable (Local p) := inferInstanceAs (Decidable (_ ∧ _))

/-- The preferred provider is local and equals the provider of the entry. -/
def Prefers (p entry : JsonValue) : Prop :=
  Local p ∧ ∃ i ∈ identity (named entry "provider"), identity (named p "providerSystem") = some i

instance (p entry : JsonValue) : Decidable (Prefers p entry) :=
  decidable_of_iff (Local p ∧ (identity (named entry "provider")).any fun i => identity (named p "providerSystem") = some i)
    (by simp [Prefers, Option.any_eq_true])

def ServiceRequestForm.preferred (form : ServiceRequestForm) : List JsonValue :=
  if form.bPreferredProvidersExits then values form.jPreferredProviders else []

/-- The selection has the entries that are preferred, in the order of the registry and each once. -/
def SelectsExactly (form : ServiceRequestForm) (queryData : List JsonValue) : Prop :=
  selectPreferred form queryData = some (queryData.filter fun entry => ∃ p ∈ form.preferred, Prefers p entry)

/-! ## What is read -/

/-- The members that `providerEquals` reads of a system. -/
structure ReadsSystem (system : JsonValue) : Prop where
  systemName : ∃ s, named system "systemName" = .string s ∧ get system "systemName" = some (.string s)
  address : ∃ s, named system "address" = .string s ∧ get system "address" = some (.string s)
  port : ∃ z, named system "port" = .number z ∧ get system "port" = some (.number z)

/-- What the loop body reads of a preferred provider and an entry has the names and the types that are read. -/
structure ReadsRightly (p entry : JsonValue) : Prop where
  cloud : get p "providerCloud" = some (named p "providerCloud")
  system : ¬(named p "providerCloud").isSet → get p "providerSystem" = some (named p "providerSystem")
  provider : Local p → get entry "provider" = some (named entry "provider")
  systems : Local p → ReadsSystem (named entry "provider") ∧ ReadsSystem (named p "providerSystem")

/-- This is so for the preferred providers up to the first one that is found to be equal. -/
def ReadsUntilFound (entry : JsonValue) : List JsonValue → Prop
  | [] => True
  | p :: ps => ReadsRightly p entry ∧ (¬Prefers p entry → ReadsUntilFound entry ps)

/-- `child` finds no other member than the one with the name. -/
def ByName (v : JsonValue) (name : String) : Prop := ∀ m, get v name = some m → m = named v name

structure SystemByName (system : JsonValue) : Prop where
  systemName : ByName system "systemName"
  address : ByName system "address"
  port : ByName system "port"

/-- No name that is looked up is the beginning of another one that stands before it or instead of it. -/
structure AllByName (form : ServiceRequestForm) (queryData : List JsonValue) : Prop where
  cloud : ∀ p ∈ form.preferred, ByName p "providerCloud"
  system : ∀ p ∈ form.preferred, ByName p "providerSystem"
  preferred : ∀ p ∈ form.preferred, SystemByName (named p "providerSystem")
  provider : ∀ entry ∈ queryData, ByName entry "provider"
  entries : ∀ entry ∈ queryData, SystemByName (named entry "provider")

/-! ## The loops -/

section
variable {p entry system : JsonValue} {preferred : List JsonValue} {name : String}

lemma ByName.get (h : ByName system name) {m : JsonValue} (e : get system name = some m) :
    get system name = some (named system name) := by
  rw [e, h m e]

lemma isLocal_rightly (h : ReadsRightly p entry) : isLocal p = some (decide (Local p)) := by
  rw [isLocal, h.cloud, Option.bind_eq_bind, Option.bind_some]
  by_cases cloud : (named p "providerCloud").isSet
  · simp [cloud, Local]
  · simp [cloud, Local, h.system cloud]

lemma ReadsSystem.identity (h : ReadsSystem system) : ∃ systemName address port,
    getString system "systemName" = some systemName ∧ getString system "address" = some address ∧
      (get system "port").bind JsonValue.toInt = some port ∧
      identity system = some (toLowerAndTrim systemName, address, port) := by
  obtain ⟨s, ns, hs⟩ := h.systemName
  obtain ⟨a, na, ha⟩ := h.address
  obtain ⟨z, nz, hz⟩ := h.port
  refine ⟨cStr s, cStr a, z, by rw [getString, hs]; rfl, by rw [getString, ha]; rfl, by rw [hz]; rfl, ?_⟩
  rw [Orchestrator.identity, ns, na, nz]
  rfl

lemma providerEquals_rightly (h : ReadsRightly p entry) (here : Local p) :
    providerEquals entry p = some (decide (Prefers p entry)) := by
  obtain ⟨provider, system⟩ := h.systems here
  obtain ⟨s, a, z, hs, ha, hz, e⟩ := provider.identity
  obtain ⟨s', a', z', hs', ha', hz', e'⟩ := system.identity
  have cloud : ¬(named p "providerCloud").isSet := here.2
  simp only [providerEquals, h.provider here, h.system cloud, hs, ha, hz, hs', ha', hz', Option.bind_eq_bind,
    Option.bind_some, Option.some.injEq, decide_eq_decide, Prefers, e, e', here, true_and, Option.mem_def,
    exists_eq_left', Prod.mk.injEq]
  exact and_congr eq_comm (and_congr eq_comm eq_comm)

lemma isPreferred_rightly (h : ReadsUntilFound entry preferred) :
    isPreferred entry preferred = some (decide (∃ p ∈ preferred, Prefers p entry)) := by
  induction preferred with
  | nil => rfl
  | cons p ps ih =>
    obtain ⟨first, rest⟩ := h
    rw [isPreferred, isLocal_rightly first, Option.bind_eq_bind, Option.bind_some]
    by_cases found : Prefers p entry
    · simp [found.1, providerEquals_rightly first found.1, found]
    · by_cases here : Local p
      · simp [here, providerEquals_rightly first here, found, ih (rest found)]
      · simp [here, found, ih (rest found)]

/-- The selection is that of the entries that `isPreferred` takes. -/
lemma selectLoop_eq_filter {entries : List JsonValue} {f : JsonValue → Bool}
    (h : ∀ entry ∈ entries, isPreferred entry preferred = some (f entry)) :
    selectLoop preferred entries = some (entries.filter f) := by
  induction entries with
  | nil => rfl
  | cons entry entries ih =>
    have first := h entry List.mem_cons_self
    have rest := ih fun e he => h e (List.mem_cons_of_mem _ he)
    rw [selectLoop, first, rest, Option.bind_eq_bind, Option.bind_some, List.filter_cons]
    rfl

lemma selectLoop_isSome {entries selected : List JsonValue} (h : selectLoop preferred entries = some selected) :
    ∀ entry ∈ entries, ∃ b, isPreferred entry preferred = some b := by
  induction entries generalizing selected with
  | nil => exact fun _ he => absurd he List.not_mem_nil
  | cons e entries ih =>
    obtain ⟨b, hb, h⟩ := Option.bind_eq_some_iff.1 h
    obtain ⟨rest, hr, -⟩ := Option.bind_eq_some_iff.1 h
    intro entry he
    cases he with
    | head => exact ⟨b, hb⟩
    | tail _ he => exact ih hr entry he

/-- A member that was read as a string or a number, under its name. -/
lemma ReadsSystem.of_get (h : SystemByName system) {s a : List UInt8} {z : Int} (hs : getString system "systemName" = some s)
    (ha : getString system "address" = some a) (hz : (get system "port" >>= JsonValue.toInt) = some z) :
    ReadsSystem system := by
  obtain ⟨ms, es, hs⟩ := Option.bind_eq_some_iff.1 hs
  obtain ⟨ma, ea, ha⟩ := Option.bind_eq_some_iff.1 ha
  obtain ⟨mz, ez, hz⟩ := Option.bind_eq_some_iff.1 hz
  have ns := h.systemName ms es
  have na := h.address ma ea
  have nz := h.port mz ez
  refine ⟨?_, ?_, ?_⟩
  · cases ms with
    | string s => exact ⟨s, ns.symm, es⟩
    | _ => cases hs
  · cases ma with
    | string a => exact ⟨a, na.symm, ea⟩
    | _ => cases ha
  · cases mz with
    | number z => exact ⟨z, nz.symm, ez⟩
    | _ => cases hz

/-- What has been read was read rightly, if all names are the ones that are looked up. -/
lemma ReadsRightly.of_isPreferred (cloud : ByName p "providerCloud") (system : ByName p "providerSystem")
    (pref : SystemByName (named p "providerSystem")) (provider : ByName entry "provider")
    (prov : SystemByName (named entry "provider")) {local_ : Bool} (hl : isLocal p = some local_)
    (equal : local_ → ∃ b, providerEquals entry p = some b) : ReadsRightly p entry := by
  obtain ⟨c, hc, hl⟩ := Option.bind_eq_some_iff.1 hl
  obtain rfl := cloud c hc
  by_cases isCloud : (named p "providerCloud").isSet
  · have absent : ¬Local p := fun h => h.2 isCloud
    exact ⟨hc, fun h => absurd isCloud h, fun h => absurd h absent, fun h => absurd h absent⟩
  · rw [if_neg isCloud] at hl
    obtain ⟨s, hs, hl⟩ := Option.bind_eq_some_iff.1 hl
    cases hl
    obtain rfl := system s hs
    refine ⟨hc, fun _ => hs, fun here => ?_, fun here => ?_⟩
    all_goals
      obtain ⟨b, hb⟩ := equal here.1
      obtain ⟨v, hv, hb⟩ := Option.bind_eq_some_iff.1 hb
      obtain rfl := provider v hv
    · exact hv
    · obtain ⟨w, hw, hb⟩ := Option.bind_eq_some_iff.1 hb
      obtain rfl := system w hw
      obtain ⟨_, n1, hb⟩ := Option.bind_eq_some_iff.1 hb
      obtain ⟨_, a1, hb⟩ := Option.bind_eq_some_iff.1 hb
      obtain ⟨_, p1, hb⟩ := Option.bind_eq_some_iff.1 hb
      obtain ⟨_, n2, hb⟩ := Option.bind_eq_some_iff.1 hb
      obtain ⟨_, a2, hb⟩ := Option.bind_eq_some_iff.1 hb
      obtain ⟨_, p2, hb⟩ := Option.bind_eq_some_iff.1 hb
      exact ⟨.of_get prov n1 a1 p1, .of_get pref n2 a2 p2⟩

lemma ReadsUntilFound.of_isPreferred (cloud : ∀ p ∈ preferred, ByName p "providerCloud")
    (system : ∀ p ∈ preferred, ByName p "providerSystem")
    (pref : ∀ p ∈ preferred, SystemByName (named p "providerSystem")) (provider : ByName entry "provider")
    (prov : SystemByName (named entry "provider")) {selected : Bool} (h : isPreferred entry preferred = some selected) :
    ReadsUntilFound entry preferred := by
  induction preferred with
  | nil => trivial
  | cons p ps ih =>
    obtain ⟨cloud, cloud_rest⟩ := List.forall_mem_cons.1 cloud
    obtain ⟨system, system_rest⟩ := List.forall_mem_cons.1 system
    obtain ⟨pref, pref_rest⟩ := List.forall_mem_cons.1 pref
    obtain ⟨local_, hl, h⟩ := Option.bind_eq_some_iff.1 h
    have first : ReadsRightly p entry := by
      refine .of_isPreferred cloud system pref provider prov hl fun here => ?_
      rw [here] at h
      obtain ⟨b, hb, -⟩ := Option.bind_eq_some_iff.1 h
      exact ⟨b, hb⟩
    refine ⟨first, fun other => ih cloud_rest system_rest pref_rest ?_⟩
    obtain rfl := Option.some.inj (hl.symm.trans (isLocal_rightly first))
    by_cases here : Local p
    · simpa [here, providerEquals_rightly first here, other] using h
    · simpa [here] using h

/-! ## The selection -/

/-- For every answer of the registry and all preferred providers: if for each entry the preferred providers are read rightly
    up to the first that is found, the selection is exact; and if no name is taken for another one, it is exact only then. -/
theorem selectPreferred_exact_iff (form : ServiceRequestForm) (queryData : List JsonValue) :
    ((∀ entry ∈ queryData, ReadsUntilFound entry form.preferred) → SelectsExactly form queryData) ∧
    (AllByName form queryData →
      (SelectsExactly form queryData ↔ ∀ entry ∈ queryData, ReadsUntilFound entry form.preferred)) := by
  have enough : (∀ entry ∈ queryData, ReadsUntilFound entry form.preferred) → SelectsExactly form queryData := by
    intro h
    have loop := selectLoop_eq_filter fun entry he => isPreferred_rightly (h entry he)
    by_cases exist : form.bPreferredProvidersExits
    · rw [ServiceRequestForm.preferred, if_pos exist] at loop
      rw [SelectsExactly, selectPreferred, if_neg (by simp [exist]), ServiceRequestForm.preferred, if_pos exist, loop]
    · rw [SelectsExactly, selectPreferred, if_pos (by simp [exist]), ServiceRequestForm.preferred, if_neg exist]
      simp
  refine ⟨enough, fun names => ⟨fun h entry he => ?_, enough⟩⟩
  by_cases exist : form.bPreferredProvidersExits
  · rw [SelectsExactly, selectPreferred, if_neg (by simp [exist])] at h
    obtain ⟨selected, hs⟩ := selectLoop_isSome h entry he
    have hs : isPreferred entry form.preferred = some selected := by rwa [ServiceRequestForm.preferred, if_pos exist]
    exact .of_isPreferred names.cloud names.system names.preferred (names.provider entry he) (names.entries entry he) hs
  · rw [ServiceRequestForm.preferred, if_neg exist]
    trivial

end

/-! ## A preferred provider without a port, and one with a member that is named like a cloud -/

def preferredForm (providers : List JsonValue) : ServiceRequestForm :=
  { drawForm [("onlyPreferred", true)] with jPreferredProviders := .array providers }

def portless : JsonValue := .object
  [(bytes "providerSystem", .object [(bytes "systemName", .string (bytes "first")), (bytes "address", .string (bytes "a"))])]

def cloudlike : JsonValue := .object
  [(bytes "providerCloudless", .true), (bytes "providerSystem", .object (drawSystem "first"))]

/-- The one ends the process although the next one is the provider, and the other is not taken for local. -/
theorem selectPreferred_misses :
    ¬SelectsExactly (preferredForm [portless, drawPreferred "first"]) [drawEntry 1 "first"] ∧
    ¬SelectsExactly (preferredForm [cloudlike]) [drawEntry 1 "first"] := by
  constructor
  · intro h
    have ended : (selectPreferred (preferredForm [portless, drawPreferred "first"]) [drawEntry 1 "first"]).isNone := by
      decide +kernel
    rw [h] at ended
    cases ended
  · intro h
    have missed : (selectPreferred (preferredForm [cloudlike]) [drawEntry 1 "first"]).map List.length = some 0 := by
      decide +kernel
    rw [h] at missed
    revert missed
    decide +kernel

end ArrowheadCore.Orchestrator
