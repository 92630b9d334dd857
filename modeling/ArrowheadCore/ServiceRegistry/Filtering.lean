import ArrowheadCore.ServiceRegistry.Metadata

/-!
# The filter of a query

`filterQueryList` walks over the vector it erases from: an iterator that is erased stands at the next entry, one that is
not moves on. `filterLoop` is that loop, with the iterator as an index. It keeps what suits the form, in order, for
entries whose version is an integer.
-/

namespace ArrowheadCore.ServiceRegistry
open Lib Lib.Sql Json Db

/-! ## The loop over the vector -/

section
variable (connects : Connects) (form : ServiceQueryForm)

/-- The loop from the iterator `i` on; `none` when `std::stoi` throws. -/
def filterLoop (v : List ServiceQueryData) (i : Nat) : Option (List ServiceQueryData) :=
  if h : i < v.length then
    match matchesForm connects form (v.get ⟨i, h⟩) with
    | none => none
    | some false => filterLoop (v.eraseIdx i) i
    | some true => filterLoop v (i + 1)
  else some v
termination_by v.length - i
decreasing_by
  · rw [List.length_eraseIdx_of_lt h]
    omega
  · omega

/-- The member function: it leaves the other fields of the list alone. -/
def ServiceQueryList.filterQueryList (list : ServiceQueryList) : Option ServiceQueryList :=
  (filterLoop connects form list.vServQueryData 0).map fun v => { list with vServQueryData := v }

end

section
variable {connects : Connects} {form : ServiceQueryForm}

/-- In front of the iterator is what was kept. -/
lemma filterLoop_append (kept its : List ServiceQueryData) :
    filterLoop connects form (kept ++ its) kept.length = (filterQueryList connects form its).map (kept ++ ·) := by
  induction its generalizing kept with
  | nil =>
    rw [filterLoop, dif_neg (by simp)]
    simp [filterQueryList]
  | cons it its ih =>
    have inside : kept.length < (kept ++ it :: its).length := by simp
    have here : (kept ++ it :: its).get ⟨kept.length, inside⟩ = it := by simp
    have erased : (kept ++ it :: its).eraseIdx kept.length = kept ++ its := by
      rw [List.eraseIdx_append_of_length_le le_rfl]
      simp
    rw [filterLoop, dif_pos inside, here, erased, filterQueryList]
    cases matchesForm connects form it with
    | none => rfl
    | some keep =>
      cases keep with
      | false =>
        rw [ih]
        cases filterQueryList connects form its <;> rfl
      | true =>
        have := ih (kept ++ [it])
        rw [List.append_assoc, List.length_append, List.length_singleton, List.singleton_append] at this
        rw [this]
        cases filterQueryList connects form its <;> simp

lemma filterLoop_begin (its : List ServiceQueryData) :
    filterLoop connects form its 0 = filterQueryList connects form its := by
  have whole : filterLoop connects form ([] ++ its) 0 = (filterQueryList connects form its).map ([] ++ ·) :=
    filterLoop_append [] its
  rw [List.nil_append] at whole
  rw [whole]
  cases filterQueryList connects form its <;> rfl

end

/-! ## What suits a form -/

/-- Each requirement but the ping. -/
structure Suits (form : ServiceQueryForm) (it : ServiceQueryData) : Prop where
  interfaces : form.vInterfaceRequirements = [] ∨
    ∃ intf ∈ form.vInterfaceRequirements, ∃ dbIntf ∈ it.vInterfaces, intf = dbIntf.interfaceName
  security : form.vSecurityRequirements = [] ∨ it.sSecure ∈ form.vSecurityRequirements
  version : ∀ iVersionReq ∈ form.iVersionReq, ∀ z ∈ stoi it.sVersion, z = iVersionReq
  minVersion : ∀ iMinVersionReq ∈ form.iMinVersionReq, ∀ z ∈ stoi it.sVersion, iMinVersionReq ≤ z
  maxVersion : ∀ iMaxVersionReq ∈ form.iMaxVersionReq, ∀ z ∈ stoi it.sVersion, z ≤ iMaxVersionReq
  metadata : ∀ kv ∈ form.mMetadataRequirements, kv ∈ mDbMeta it.sMetadata

/-- What becomes of a ping: the port must be a number for it, unless there is no socket. -/
def ping (connects : Connects) (it : ServiceQueryData) : Option Bool :=
  match connects it with
  | none => some false
  | some reaches => (stoi it.sProvider_port).map reaches

/-- The provider is accepted, if that is asked. -/
def PingAccepts (connects : Connects) (form : ServiceQueryForm) (it : ServiceQueryData) : Prop :=
  form.bPingProviders → ping connects it = some true

/-- The ping of an entry that gets so far does not throw. -/
def Pingable (connects : Connects) (form : ServiceQueryForm) (it : ServiceQueryData) : Prop :=
  form.bPingProviders → Suits form it → (ping connects it).isSome

/-! ## Maps as sets of pairs -/

/-- No name has two values. -/
def OneValue (m : StrMap) : Prop := ∀ kv ∈ m, m.lookup kv.1 = some kv.2

lemma oneValue_insert {m : StrMap} (h : OneValue m) (k v : List UInt8) : OneValue (m.insert k v) := by
  intro kv hkv
  rw [StrMap.lookup_insert]
  by_cases hk : (m.lookup k).isSome
  · rw [StrMap.insert, if_pos hk] at hkv
    rw [h kv hkv, Option.some_or]
  · rw [StrMap.insert, if_neg hk] at hkv
    obtain old | new := List.mem_append.1 hkv
    · rw [h kv old, Option.some_or]
    · obtain rfl := List.mem_singleton.1 new
      rw [Option.not_isSome_iff_eq_none.1 hk, Option.none_or, List.lookup_cons_self]

lemma oneValue_mDbMeta (sMetadata : List UInt8) : OneValue (mDbMeta sMetadata) := by
  rw [mDbMeta]
  apply List.foldlRecOn (motive := OneValue)
  · simp [OneValue]
  · intro m hm token _
    dsimp only
    split_ifs
    · exact oneValue_insert hm _ _
    · exact hm

/-- The test of the requirements on the metadata. -/
lemma metadata_test (form : ServiceQueryForm) (it : ServiceQueryData) :
    (form.mMetadataRequirements.all fun kv => (mDbMeta it.sMetadata).lookup kv.1 == some kv.2) ↔
      ∀ kv ∈ form.mMetadataRequirements, kv ∈ mDbMeta it.sMetadata := by
  rw [List.all_eq_true]
  constructor
  · intro h kv hkv
    exact mem_of_lookup (beq_iff_eq.1 (h kv hkv))
  · intro h kv hkv
    exact beq_iff_eq.2 (oneValue_mDbMeta _ kv (h kv hkv))

/-! ## Every test -/

section
variable {connects : Connects} {form : ServiceQueryForm} {it : ServiceQueryData}

lemma interface_test (form : ServiceQueryForm) (it : ServiceQueryData) :
    (form.vInterfaceRequirements ≠ [] ∧
        !(form.vInterfaceRequirements.any (it.vInterfaces.map Interface.interfaceName).contains)) ↔
      ¬(form.vInterfaceRequirements = [] ∨
        ∃ intf ∈ form.vInterfaceRequirements, ∃ dbIntf ∈ it.vInterfaces, intf = dbIntf.interfaceName) := by
  have any : form.vInterfaceRequirements.any (it.vInterfaces.map Interface.interfaceName).contains = true ↔
      ∃ intf ∈ form.vInterfaceRequirements, ∃ dbIntf ∈ it.vInterfaces, intf = dbIntf.interfaceName := by
    rw [List.any_eq_true]
    simp [eq_comm]
  rw [not_or, ← any, Bool.not_eq_true', Bool.not_eq_true]

lemma security_test (form : ServiceQueryForm) (it : ServiceQueryData) :
    (form.vSecurityRequirements ≠ [] ∧ !(form.vSecurityRequirements.contains it.sSecure)) ↔
      ¬(form.vSecurityRequirements = [] ∨ it.sSecure ∈ form.vSecurityRequirements) := by
  simp

/-- A test of the version that is made if it is asked for. -/
def versionTest (required : Option Int) (wrong : Int → Int → Prop) [DecidableRel wrong] (sVersion : List UInt8)
    (next : Option Bool) : Option Bool :=
  match required with
  | some r => (stoi sVersion).bind fun z => if wrong r z then some false else next
  | none => next

lemma versionTest_eq {required : Option Int} {wrong : Int → Int → Prop} [DecidableRel wrong] {sVersion : List UInt8}
    {z : Int} (hz : stoi sVersion = some z) (next : Option Bool) :
    versionTest required wrong sVersion next = if ∀ r ∈ required, ¬wrong r z then next else some false := by
  cases required with
  | none => simp [versionTest]
  | some r =>
    rw [versionTest, hz, Option.bind_some]
    by_cases h : wrong r z <;> simp [h]

/-- The tests of an entry in their order. -/
lemma matchesForm_tests : matchesForm connects form it =
    if form.vInterfaceRequirements ≠ [] ∧
        !(form.vInterfaceRequirements.any (it.vInterfaces.map Interface.interfaceName).contains) then some false
    else if form.vSecurityRequirements ≠ [] ∧ !(form.vSecurityRequirements.contains it.sSecure) then some false
    else versionTest form.iVersionReq (· ≠ ·) it.sVersion <|
      versionTest form.iMinVersionReq (· > ·) it.sVersion <|
      versionTest form.iMaxVersionReq (· < ·) it.sVersion <|
      if !(form.mMetadataRequirements.all fun kv => (mDbMeta it.sMetadata).lookup kv.1 == some kv.2) then some false
      else if form.bPingProviders then ping connects it
      else some true := by
  unfold matchesForm
  have last : (match connects it with
      | none => pure false
      | some reaches => do return reaches (← stoi it.sProvider_port) : Option Bool) = ping connects it := by
    rw [ping]
    cases connects it with
    | none => rfl
    | some reaches => cases stoi it.sProvider_port <;> rfl
  rw [← last]
  cases form.iVersionReq <;> cases form.iMinVersionReq <;> cases form.iMaxVersionReq <;> rfl

open Classical in
lemma matchesForm_eq {z : Int} (hz : stoi it.sVersion = some z) :
    matchesForm connects form it =
      if Suits form it then (if form.bPingProviders then ping connects it else some true) else some false := by
  have metadata : (!(form.mMetadataRequirements.all fun kv => (mDbMeta it.sMetadata).lookup kv.1 == some kv.2)) = true ↔
      ¬∀ kv ∈ form.mMetadataRequirements, kv ∈ mDbMeta it.sMetadata := by
    rw [← metadata_test, Bool.not_eq_true', Bool.not_eq_true]
  rw [matchesForm_tests, versionTest_eq hz, versionTest_eq hz, versionTest_eq hz]
  simp only [interface_test, security_test, metadata, ite_not, not_not, not_lt, gt_iff_lt]
  by_cases suits : Suits form it
  · have version := fun r hr => (suits.version r hr z hz).symm
    rw [if_pos suits, if_pos suits.interfaces, if_pos suits.security, if_pos version,
      if_pos fun r hr => suits.minVersion r hr z hz, if_pos fun r hr => suits.maxVersion r hr z hz, if_pos suits.metadata]
  · rw [if_neg suits]
    split_ifs with h1 h2 h3 h4 h5 h6 <;> try rfl
    all_goals
      refine absurd ⟨h1, h2, ?_, ?_, ?_, h6⟩ suits
      all_goals
        intro r hr z' hz'
        obtain rfl : z = z' := Option.some.inj (hz.symm.trans hz')
      · exact (h3 r hr).symm
      · exact h4 r hr
      · exact h5 r hr

open Classical in
/-- What becomes of one entry. -/
lemma matchesForm_keeps (version : ∃ z, stoi it.sVersion = some z) :
    matchesForm connects form it =
      if Pingable connects form it then some (decide (Suits form it ∧ PingAccepts connects form it)) else none := by
  obtain ⟨z, hz⟩ := version
  rw [matchesForm_eq hz]
  by_cases suits : Suits form it
  · by_cases asked : form.bPingProviders
    · cases answer : ping connects it with
      | none =>
        have thrown : ¬Pingable connects form it := fun h => by simpa [answer] using h asked suits
        rw [if_pos suits, if_pos asked, if_neg thrown]
      | some accepts =>
        have fine : Pingable connects form it := fun _ _ => by rw [answer]; rfl
        rw [if_pos suits, if_pos asked, if_pos fine]
        cases accepts <;> simp [suits, PingAccepts, asked, answer]
    · have fine : Pingable connects form it := fun h => absurd h asked
      rw [if_pos suits, if_neg asked, if_pos fine]
      simp [suits, PingAccepts, asked]
  · have fine : Pingable connects form it := fun _ h => absurd h suits
    rw [if_neg suits, if_pos fine]
    simp [suits]

/-- An entry of which only the version matters. -/
def ofVersion (sVersion : String) : ServiceQueryData := { ServiceQueryData.ofDefinition [] with sVersion := bytes sVersion }

/-- The form of a query for the second version. -/
def secondVersion : ServiceQueryForm := ⟨bytes "service", [], [], [], some 2, none, none, false⟩

end

end ArrowheadCore.ServiceRegistry
