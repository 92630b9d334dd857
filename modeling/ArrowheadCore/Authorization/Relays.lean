import ArrowheadCore.Authorization.InterCloudCheck

/-!
# What the relays of a cloud do to the answer

The rows of the statement of `InterCloudCheck` are the combinations of a connection, its rule, the cloud and the provider
of the rule, and two relays of the cloud. The endpoint lists the right providers and interfaces, and each provider once.
With one rule for each provider an interface comes once if and only if it is connected once and the cloud has one relay of
each kind among the given ones.
-/

namespace ArrowheadCore.Authorization.InterCloudCheck
open Lib Lib.Sql Db Json
open IntraCloudCheck (getLong getString Reply column)
open JsonView (arrayText objectText)

/-! ## The text of the response -/

/-- The members of the cloud in the first row. -/
def cloudMembers (row : List Value) : List (List UInt8 × List UInt8) :=
  (dictionary columns row 0 cloudHeaders).map fun m => (m.1, m.2.literal)

/-- The text of the response that lists these providers with their interfaces. -/
def replyText (model : InterCloudCheck) (cloud : List Value) : List (Int × List Int) → List UInt8
  | [] => bytes "\x7b\x7d"
  | g :: gs => objectText [(bytes "serviceDefinitionId", to_string model.serviceDefinitionId),
      (bytes "cloud", objectText (cloudMembers cloud)),
      (bytes "authorizedProviderIdsWithInterfaceIds", arrayText ((g :: gs).map groupText))]

/-- What the response lists for these rows. -/
def listedIn (rows : List (List Value)) : List (Int × List Int) := groups (rows.map fun r => (getLong r 9, getLong r 10))

lemma checkRuleText_eq (model : InterCloudCheck) (rows : List (List Value)) :
    checkRuleText model rows = some (replyText model (rows.headD []) (listedIn rows)) := by
  cases rows with
  | nil => rfl
  | cons r rs =>
    obtain ⟨g, gs, hg⟩ : ∃ g gs, listedIn (r :: rs) = g :: gs := by
      rw [listedIn, List.map_cons, groups_cons]
      exact ⟨_, _, rfl⟩
    have number : writeNumber "serviceDefinitionId" model.serviceDefinitionId newBuilder =
        .ofText (bytes "\x7b" ++ membersText [(bytes "serviceDefinitionId", to_string model.serviceDefinitionId)]) := by
      rw [newBuilder_eq]
      exact addInt_eq (bytes "serviceDefinitionId") _ _
    have list : ∀ t, for_each "authorizedProviderIdsWithInterfaceIds" (groupCallback (getLong · 9) (getLong · 10))
        (rs.length + 1) (.ofText t) (r :: rs) = some (.ofText (t ++
          membersText [(bytes "authorizedProviderIdsWithInterfaceIds", arrayText ((g :: gs).map groupText))]), []) := by
      intro t
      have e : bytes "]," = bytes "]" ++ bytes "," := by decide
      rw [← List.length_cons (a := r), for_each_groups _ _ _ (List.cons_ne_nil r rs), ← hg]
      simp [listedIn, membersText, JsonView.memberText, arrayText, keyText, e]
    rw [checkRuleText, number, write_dictionary_items_eq _ _ (by simp [cloudHeaders]), list, hg]
    simp only [Option.bind_eq_bind, Option.bind_some, List.append_assoc, ← membersText_append]
    rw [str_membersText (by simp)]
    rfl

/-! ## Rules, clouds and relays -/

/-- The columns have the types that the comments above the query give them. -/
structure Typed (db : Database) : Prop where
  connection : ∀ r ∈ (db "authorization_inter_cloud_interface_connection").rows,
    (∃ z, r.get "authorization_inter_cloud_id" = .int z) ∧ ∃ z, r.get "interface_id" = .int z
  rule : ∀ r ∈ (db "authorization_inter_cloud").rows,
    (∃ z, r.get "consumer_cloud_id" = .int z) ∧ (∃ z, r.get "provider_system_id" = .int z) ∧ ∃ z, r.get "service_id" = .int z
  cloud : ∀ r ∈ (db "cloud").rows,
    (∃ s, r.get "operator" = .text s) ∧ (∃ s, r.get "name" = .text s) ∧ (∃ z, r.get "secure" = .int z) ∧
      (∃ z, r.get "neighbor" = .int z) ∧ (r.get "authentication_info" = .null ∨ ∃ s, r.get "authentication_info" = .text s)
  gatekeeper : ∀ r ∈ (db "cloud_gatekeeper_relay").rows, (∃ z, r.get "cloud_id" = .int z) ∧ ∃ z, r.get "relay_id" = .int z
  gateway : ∀ r ∈ (db "cloud_gateway_relay").rows, (∃ z, r.get "cloud_id" = .int z) ∧ ∃ z, r.get "relay_id" = .int z

/-- The provider was requested together with the interface. -/
def Requested (model : InterCloudCheck) (p i : Int) : Prop :=
  ∃ x ∈ model.providerIdsWithInterfaceIds, x.1 = p ∧ i ∈ x.2

/-- The cloud is the one of the request. -/
structure IsCloud (model : InterCloudCheck) (cloud : Row) : Prop where
  name : cloud.get "name" = .text model.name
  op : cloud.get "operator" = .text model.op
  secure : cloud.get "secure" = .int (flag model.secure)
  neighbor : cloud.get "neighbor" = .int (flag model.neighbor)
  authenticationInfo : cloud.get "authentication_info" = .text model.authenticationInfo

/-- The row is a relay of the cloud that is among the given ones. -/
structure IsRelay (db : Database) (table : String) (ids : List Int) (cloud relay : Row) : Prop where
  mem : relay ∈ (db table).rows
  cloud : relay.get "cloud_id" = .int cloud.id
  given : ∃ i ∈ ids, relay.get "relay_id" = .int i

abbrev IsGatekeeper (db : Database) (model : InterCloudCheck) : Row → Row → Prop :=
  IsRelay db "cloud_gatekeeper_relay" model.gatekeeperRelayIds

abbrev IsGateway (db : Database) (model : InterCloudCheck) : Row → Row → Prop :=
  IsRelay db "cloud_gateway_relay" model.gatewayRelayIds

/-- The rule is for the service of the request and for its cloud, and links the provider. -/
structure Links (db : Database) (model : InterCloudCheck) (rule cloud provider : Row) : Prop where
  mem : rule ∈ (db "authorization_inter_cloud").rows ∧ cloud ∈ (db "cloud").rows ∧ provider ∈ (db "system_").rows
  service : rule.get "service_id" = .int model.serviceDefinitionId
  consumer : rule.get "consumer_cloud_id" = .int cloud.id
  provides : rule.get "provider_system_id" = .int provider.id
  isCloud : IsCloud model cloud

/-- The rule is connected to the interface. -/
structure Connects (db : Database) (connection rule : Row) (i : Int) : Prop where
  mem : connection ∈ (db "authorization_inter_cloud_interface_connection").rows
  rule : connection.get "authorization_inter_cloud_id" = .int rule.id
  interface : connection.get "interface_id" = .int i

/-- The rows that make one row of the answer. -/
structure Match (db : Database) (model : InterCloudCheck) (connection rule cloud provider gk gw : Row) (i : Int) : Prop where
  links : Links db model rule cloud provider
  connects : Connects db connection rule i
  gatekeeper : IsGatekeeper db model cloud gk
  gateway : IsGateway db model cloud gw

/-- A stored rule for the cloud and the service of the request links the provider and is connected to the interface, and
    the cloud has a gatekeeper relay and a gateway relay among the given ones. -/
def Authorized (db : Database) (model : InterCloudCheck) (p i : Int) : Prop :=
  ∃ connection rule cloud provider gk gw, Match db model connection rule cloud provider gk gw i ∧ (provider.id : Int) = p

/-- There is one such rule for each provider. -/
def OneRule (db : Database) (model : InterCloudCheck) : Prop :=
  ∀ connection rule cloud provider gk gw i connection' rule' cloud' gk' gw' j,
    Match db model connection rule cloud provider gk gw i → Match db model connection' rule' cloud' provider gk' gw' j →
    rule = rule'

/-- A rule is connected once to an interface that it is listed for, and its cloud has one relay of each kind among the
    given ones. -/
def OneRelay (db : Database) (model : InterCloudCheck) : Prop :=
  ∀ connection rule cloud provider gk gw i, Match db model connection rule cloud provider gk gw i →
    Requested model provider.id i →
    (∀ connection', Connects db connection' rule i → connection' = connection) ∧
    (∀ gk', IsGatekeeper db model cloud gk' → gk' = gk) ∧ ∀ gw', IsGateway db model cloud gw' → gw' = gw

/-! ## The rows -/

/-- One combination of rows. -/
def joined (t1 t2 c1 p1 gk gw : Row) : Env :=
  [(connections, t1), (rules, t2), (clouds, c1), (providers, p1), (gatekeepers, gk), (gateways, gw)]

section
variable {db : Database} {model : InterCloudCheck} {x : Int × List Int} {xs : List (Int × List Int)}

/-- The joins connect a connection to its rule, and the rule to its cloud, its provider and the relays of its cloud. -/
lemma mem_combine {env : Env} (hdb : Typed db) :
    env ∈ (checkRuleSelect model x xs).combine schema db ↔
      ∃ t1 ∈ (db "authorization_inter_cloud_interface_connection").rows, ∃ t2 ∈ (db "authorization_inter_cloud").rows,
      ∃ c1 ∈ (db "cloud").rows, ∃ p1 ∈ (db "system_").rows, ∃ gk ∈ (db "cloud_gatekeeper_relay").rows,
      ∃ gw ∈ (db "cloud_gateway_relay").rows, env = joined t1 t2 c1 p1 gk gw ∧
        t1.get "authorization_inter_cloud_id" = .int t2.id ∧ t2.get "consumer_cloud_id" = .int c1.id ∧
        t2.get "provider_system_id" = .int p1.id ∧ gk.get "cloud_id" = .int c1.id ∧ gw.get "cloud_id" = .int c1.id := by
  have relay : ∀ {t2 c1 r : Row}, t2.get "consumer_cloud_id" = .int c1.id → (∃ z, r.get "cloud_id" = .int z) →
      ((r.get "cloud_id").same (t2.get "consumer_cloud_id") ↔ r.get "cloud_id" = .int c1.id) := by
    intro t2 c1 r e h
    rw [e, Value.same_int h]
  simp only [Select.combine, checkRuleSelect, List.foldl_cons, List.foldl_nil, List.mem_flatMap, List.mem_filter,
    List.mem_map]
  constructor
  · rintro ⟨_, ⟨_, ⟨_, ⟨_, ⟨_, ⟨t1, h1, rfl⟩, ⟨t2, h2, rfl⟩, e1⟩, ⟨c1, h3, rfl⟩, e2⟩, ⟨p1, h4, rfl⟩, e3⟩, ⟨gk, h5, rfl⟩, e4⟩,
      ⟨gw, h6, rfl⟩, e5⟩
    have f1 : (t1.get "authorization_inter_cloud_id").same (.int t2.id) := e1
    have f2 : (Value.int c1.id).same (t2.get "consumer_cloud_id") := e2
    have f3 : (Value.int p1.id).same (t2.get "provider_system_id") := e3
    have f4 : (gk.get "cloud_id").same (t2.get "consumer_cloud_id") := e4
    have f5 : (gw.get "cloud_id").same (t2.get "consumer_cloud_id") := e5
    have h := hdb.rule t2 h2
    have g2 := (Value.int_same h.1).1 f2
    exact ⟨t1, h1, t2, h2, c1, h3, p1, h4, gk, h5, gw, h6, rfl, (Value.same_int (hdb.connection t1 h1).1).1 f1, g2,
      (Value.int_same h.2.1).1 f3, (relay g2 (hdb.gatekeeper gk h5).1).1 f4, (relay g2 (hdb.gateway gw h6).1).1 f5⟩
  · rintro ⟨t1, h1, t2, h2, c1, h3, p1, h4, gk, h5, gw, h6, rfl, e1, e2, e3, e4, e5⟩
    have h := hdb.rule t2 h2
    exact ⟨_, ⟨_, ⟨_, ⟨_, ⟨_, ⟨t1, h1, rfl⟩, ⟨t2, h2, rfl⟩, (Value.same_int (hdb.connection t1 h1).1).2 e1⟩, ⟨c1, h3, rfl⟩,
      (Value.int_same h.1).2 e2⟩, ⟨p1, h4, rfl⟩, (Value.int_same h.2.1).2 e3⟩, ⟨gk, h5, rfl⟩,
      (relay e2 (hdb.gatekeeper gk h5).1).2 e4⟩,
      ⟨gw, h6, rfl⟩, (relay e2 (hdb.gateway gw h6).1).2 e5⟩

lemma eval_cond {t1 t2 c1 p1 gk gw : Row} {i : Int} (hi : t1.get "interface_id" = .int i)
    (h2 : ∃ z, t2.get "service_id" = .int z) (hdb : Typed db) (hc : c1 ∈ (db "cloud").rows)
    (hk : ∃ z, gk.get "relay_id" = .int z) (hw : ∃ z, gw.get "relay_id" = .int z) :
    (checkRuleCond model x xs).eval schema (joined t1 t2 c1 p1 gk gw) ↔
      t2.get "service_id" = .int model.serviceDefinitionId ∧ IsCloud model c1 ∧
      (∃ j ∈ model.gatekeeperRelayIds, gk.get "relay_id" = .int j) ∧
      (∃ j ∈ model.gatewayRelayIds, gw.get "relay_id" = .int j) ∧ ∃ y ∈ x :: xs, y.1 = p1.id ∧ i ∈ y.2 := by
  obtain ⟨op, name, secure, neighbor, auth⟩ := hdb.cloud c1 hc
  have e : (checkRuleCond model x xs).eval schema (joined t1 t2 c1 p1 gk gw) =
      ((t2.get "service_id").same (.int model.serviceDefinitionId) &&
        ((c1.get "neighbor").same (.int (flag model.neighbor)) && ((c1.get "secure").same (.int (flag model.secure)) &&
        ((c1.get "operator").same (.text model.op) && ((c1.get "name").same (.text model.name) &&
        ((c1.get "authentication_info").same (.text model.authenticationInfo) &&
        ((model.gatekeeperRelayIds.map Value.int).any (fun v => (gk.get "relay_id").same v) &&
        ((model.gatewayRelayIds.map Value.int).any (fun v => (gw.get "relay_id").same v) &&
          (Providers.alternatives x xs).eval schema (joined t1 t2 c1 p1 gk gw)))))))) ) := rfl
  have provider : Providers.provider.eval schema (joined t1 t2 c1 p1 gk gw) = .int p1.id := rfl
  have interface : Providers.interface.eval schema (joined t1 t2 c1 p1 gk gw) = .int i := hi
  rw [e]
  simp only [Bool.and_eq_true, List.any_map, List.any_eq_true, Function.comp_apply, Value.same_int h2, Value.same_int neighbor,
    Value.same_int secure, Value.same_int hk, Value.same_int hw, Value.same_text (.inr op), Value.same_text (.inr name),
    Value.same_text auth,
    Providers.eval_alternatives provider interface]
  constructor
  · rintro ⟨h1, h2, h3, h4, h5, h6, h7⟩
    exact ⟨h1, ⟨h5, h4, h3, h2, h6⟩, h7⟩
  · rintro ⟨h1, ⟨h5, h4, h3, h2, h6⟩, h7⟩
    exact ⟨h1, h2, h3, h4, h5, h6, h7⟩

lemma bound_checkRule : (checkRuleSelect model x xs).bound schema := by
  have cond : (checkRuleCond model x xs).bound schema [connections, rules, clouds, providers, gatekeepers, gateways] =
      (Providers.alternatives x xs).bound schema [connections, rules, clouds, providers, gatekeepers, gateways] := rfl
  have e : (checkRuleSelect model x xs).bound schema = (true && (checkRuleCond model x xs).bound schema
      [connections, rules, clouds, providers, gatekeepers, gateways] && true) := rfl
  rw [e, cond, Providers.bound_alternatives rfl rfl]
  rfl

lemma project_provider (t1 t2 c1 p1 gk gw : Row) :
    getLong ((checkRuleSelect model x xs).project schema (joined t1 t2 c1 p1 gk gw)) 9 = p1.id := rfl

lemma project_interface {t1 : Row} {i : Int} (h : t1.get "interface_id" = .int i) (t2 c1 p1 gk gw : Row) :
    getLong ((checkRuleSelect model x xs).project schema (joined t1 t2 c1 p1 gk gw)) 10 = i := by
  have cell : ((checkRuleSelect model x xs).project schema (joined t1 t2 c1 p1 gk gw))[10]? =
      some (t1.get "interface_id") := rfl
  rw [getLong, cell, h]

/-- The combinations in the answer. -/
lemma mem_answer {env : Env} (hm : model.providerIdsWithInterfaceIds = x :: xs) (hdb : Typed db) :
    env ∈ (checkRuleSelect model x xs).combine schema db ∧ (checkRuleCond model x xs).eval schema env ↔
      ∃ t1 t2 c1 p1 gk gw i, env = joined t1 t2 c1 p1 gk gw ∧ Match db model t1 t2 c1 p1 gk gw i ∧
        Requested model p1.id i := by
  rw [mem_combine hdb]
  constructor
  · rintro ⟨⟨t1, h1, t2, h2, c1, h3, p1, h4, gk, h5, gw, h6, rfl, j1, j2, j3, j4, j5⟩, cond⟩
    obtain ⟨i, hi⟩ := (hdb.connection t1 h1).2
    rw [eval_cond hi (hdb.rule t2 h2).2.2 hdb h3 (hdb.gatekeeper gk h5).2 (hdb.gateway gw h6).2, ← hm] at cond
    obtain ⟨service, cloud, hk, hw, requested⟩ := cond
    exact ⟨t1, t2, c1, p1, gk, gw, i, rfl, ⟨⟨⟨h2, h3, h4⟩, service, j2, j3, cloud⟩, ⟨h1, j1, hi⟩, ⟨h5, j4, hk⟩, ⟨h6, j5, hw⟩⟩,
      requested⟩
  · rintro ⟨t1, t2, c1, p1, gk, gw, i, rfl, m, requested⟩
    obtain ⟨⟨⟨h2, h3, h4⟩, service, j2, j3, cloud⟩, ⟨h1, j1, hi⟩, ⟨h5, j4, hk⟩, ⟨h6, j5, hw⟩⟩ := m
    refine ⟨⟨t1, h1, t2, h2, c1, h3, p1, h4, gk, h5, gw, h6, rfl, j1, j2, j3, j4, j5⟩, ?_⟩
    rw [eval_cond hi (hdb.rule t2 h2).2.2 hdb h3 (hdb.gatekeeper gk h5).2 (hdb.gateway gw h6).2, ← hm]
    exact ⟨service, cloud, hk, hw, requested⟩

/-- The rows of the answer list what was requested and is authorized, sorted by the provider. With one rule for each
    provider they are distinct if and only if nothing multiplies them. -/
lemma run_checkRule (hm : model.providerIdsWithInterfaceIds = x :: xs) (hdb : Typed db) :
    ∃ rows, (checkRuleSelect model x xs).run schema db = some rows ∧
      (rows.map fun r => (getLong r 9, getLong r 10)).Pairwise (fun a b => a.1 ≤ b.1) ∧
      (∀ p i, (p, i) ∈ (rows.map fun r => (getLong r 9, getLong r 10)) ↔ Requested model p i ∧ Authorized db model p i) ∧
      (OneRule db model → ((rows.map fun r => (getLong r 9, getLong r 10)).Nodup ↔ OneRelay db model)) := by
  obtain ⟨rows, hr⟩ : ∃ rows, (checkRuleSelect model x xs).run schema db = some rows := by
    unfold Select.run
    rw [if_pos bound_checkRule]
    exact ⟨_, rfl⟩
  obtain ⟨envs, rfl, sorted, nodup, mem⟩ := Select.run_spec hr
  have mem : ∀ {env}, env ∈ envs ↔ ∃ t1 t2 c1 p1 gk gw i, env = joined t1 t2 c1 p1 gk gw ∧
      Match db model t1 t2 c1 p1 gk gw i ∧ Requested model p1.id i := fun {env} => (mem env).trans (mem_answer hm hdb)
  have pair : ∀ {t1 t2 c1 p1 gk gw i}, Match db model t1 t2 c1 p1 gk gw i →
      (getLong ((checkRuleSelect model x xs).project schema (joined t1 t2 c1 p1 gk gw)) 9,
        getLong ((checkRuleSelect model x xs).project schema (joined t1 t2 c1 p1 gk gw)) 10) = ((p1.id : Int), i) := by
    intro t1 t2 c1 p1 gk gw i m
    rw [project_provider, project_interface m.connects.interface]
  refine ⟨_, hr, ?_, fun p i => ?_, fun one => ?_⟩
  · rw [List.map_map, List.pairwise_map]
    refine sorted.imp_of_mem fun {a b} ha hb hab => ?_
    obtain ⟨t1, t2, c1, p1, gk, gw, i, rfl, -⟩ := mem.1 ha
    obtain ⟨t1', t2', c1', p1', gk', gw', i', rfl, -⟩ := mem.1 hb
    have le : (Value.int p1.id).le (.int p1'.id) := (keysLe_cons.1 hab).1
    simpa [Value.le, project_provider] using le
  · rw [List.map_map, List.mem_map]
    constructor
    · rintro ⟨env, henv, e⟩
      obtain ⟨t1, t2, c1, p1, gk, gw, j, rfl, m, requested⟩ := mem.1 henv
      obtain ⟨rfl, rfl⟩ := Prod.mk.inj ((pair m).symm.trans e)
      exact ⟨requested, t1, t2, c1, p1, gk, gw, m, rfl⟩
    · rintro ⟨requested, t1, t2, c1, p1, gk, gw, m, rfl⟩
      exact ⟨_, mem.2 ⟨t1, t2, c1, p1, gk, gw, i, rfl, m, requested⟩, pair m⟩
  · rw [List.map_map, List.nodup_map_iff_inj_on nodup]
    constructor
    · intro inj t1 t2 c1 p1 gk gw i m requested
      -- another connection or relay makes another row with the same provider and interface
      have same : ∀ {t1' gk' gw'}, Match db model t1' t2 c1 p1 gk' gw' i → t1' = t1 ∧ gk' = gk ∧ gw' = gw := by
        intro t1' gk' gw' m'
        have e := inj _ (mem.2 ⟨t1', t2, c1, p1, gk', gw', i, rfl, m', requested⟩) _
          (mem.2 ⟨t1, t2, c1, p1, gk, gw, i, rfl, m, requested⟩) ((pair m').trans (pair m).symm)
        simpa [joined] using e
      refine ⟨fun t1' h => ?_, fun gk' h => ?_, fun gw' h => ?_⟩
      · exact (same ⟨m.links, h, m.gatekeeper, m.gateway⟩).1
      · exact (same ⟨m.links, m.connects, h, m.gateway⟩).2.1
      · exact (same ⟨m.links, m.connects, m.gatekeeper, h⟩).2.2
    · intro relay a ha b hb e
      obtain ⟨t1, t2, c1, p1, gk, gw, i, rfl, m, requested⟩ := mem.1 ha
      obtain ⟨t1', t2', c1', p1', gk', gw', i', rfl, m', -⟩ := mem.1 hb
      obtain ⟨hp, rfl⟩ := Prod.mk.inj ((pair m).symm.trans (e.trans (pair m')))
      obtain rfl := (db "system_").row_unique m.links.mem.2.2 m'.links.mem.2.2 (by exact_mod_cast hp)
      obtain rfl := one t1 t2 c1 p1 gk gw i t1' t2' c1' gk' gw' i m m'
      have hc := m.links.consumer.symm.trans m'.links.consumer
      obtain rfl := (db "cloud").row_unique m.links.mem.2.1 m'.links.mem.2.1 (by simpa using hc)
      obtain ⟨h1, h2, h3⟩ := relay t1 t2 c1 p1 gk gw i m requested
      rw [h1 t1' m'.connects, h2 gk' m'.gatekeeper, h3 gw' m'.gateway]

/-! ## The answer -/

/-- The response lists exactly the authorizations that were requested, every provider once and, with one rule for each
    provider, every interface once. -/
def ListsOnce (link : Link) (model : InterCloudCheck) (s : Session) : Prop :=
  ∃ rows s', fetch link (checkRuleQuery link model) s = (.ok rows, s') ∧
    checkRule link model s = (.ok (.content (replyText model (rows.headD []) (listedIn rows))), s') ∧ s'.db = s.db ∧
    ((listedIn rows).map Prod.fst).Nodup ∧
    (∀ p i, Grouped (listedIn rows) p i ↔ Requested model p i ∧ Authorized s.db model p i) ∧
    (OneRule s.db model → ∀ g ∈ listedIn rows, g.2.Nodup)

/-- What the statement relies on: the connection works and its escape function gives literals, the lists of the request
    have elements, and the columns have their types. -/
structure Good (link : Link) (model : InterCloudCheck) (s : Session) : Prop where
  fault : ∀ n, link.fault n = .none
  providers : model.providerIdsWithInterfaceIds ≠ []
  interfaces : ∀ x ∈ model.providerIdsWithInterfaceIds, x.2 ≠ []
  gatekeepers : model.gatekeeperRelayIds ≠ []
  gateways : model.gatewayRelayIds ≠ []
  op : IsLiteral (link.escape model.op) model.op
  name : IsLiteral (link.escape model.name) model.name
  authenticationInfo : IsLiteral (link.escape model.authenticationInfo) model.authenticationInfo
  typed : Typed s.db

lemma checkRule_answer {link : Link} {s : Session} (good : Good link model s) :
    ∃ rows s', fetch link (checkRuleQuery link model) s = (.ok rows, s') ∧
      checkRule link model s = (.ok (.content (replyText model (rows.headD []) (listedIn rows))), s') ∧ s'.db = s.db ∧
      ((listedIn rows).map Prod.fst).Nodup ∧
      (∀ p i, Grouped (listedIn rows) p i ↔ Requested model p i ∧ Authorized s.db model p i) ∧
      (OneRule s.db model → ((∀ g ∈ listedIn rows, g.2.Nodup) ↔ OneRelay s.db model)) := by
  obtain ⟨x, xs, hm⟩ := List.exists_cons_of_ne_nil good.providers
  have hi := good.interfaces
  rw [hm] at hi
  have text := parse_checkRuleQuery hm hi good.gatekeepers good.gateways good.op good.name good.authenticationInfo
  obtain ⟨rows, hr, sorted, mem, once⟩ := run_checkRule hm good.typed
  obtain ⟨k, hf⟩ : ∃ k, fetch link (checkRuleQuery link model) s = (.ok rows, { s with sent := k }) :=
    select_gives link good.fault text hr s rfl
  refine ⟨rows, { s with sent := k }, hf, ?_, rfl, ?_, ?_, ?_⟩
  · rw [checkRule, hf]
    simp only [checkRuleText_eq]
  · exact List.pairwise_map.2 ((groups_sorted sorted).imp fun h => ne_of_lt h)
  · intro p i
    rw [listedIn, grouped_groups, mem]
  · intro one
    rw [← once one]
    exact groups_nodup sorted

/-- Every interface is listed once if and only if, with one rule for each provider, no two connections of it and no two
    relays of the cloud are among those that the request admits. -/
theorem listsOnce_iff {link : Link} {s : Session} (good : Good link model s) :
    ListsOnce link model s ↔ (OneRule s.db model → OneRelay s.db model) := by
  obtain ⟨rows, s', hf, reply, db, providers, mem, once⟩ := checkRule_answer good
  constructor
  · rintro ⟨rows', s'', hf', -, -, -, -, each⟩ one
    rw [hf] at hf'
    cases hf'
    exact (once one).1 (each one)
  · intro relay
    exact ⟨rows, s', hf, reply, db, providers, mem, fun one => (once one).2 (relay one)⟩

end

def sampleProvider : Row := ⟨2, fun _ => .text (bytes "p")⟩

def sampleCloud : Row := ⟨1, fun c => if c = "secure" ∨ c = "neighbor" then .int 1 else .text (bytes "c")⟩

def sampleRule : Row :=
  ⟨1, fun c => if c = "consumer_cloud_id" then .int 1 else if c = "provider_system_id" then .int 2 else .int 7⟩

def sampleConnection : Row := ⟨1, fun c => if c = "authorization_inter_cloud_id" then .int 1 else .int 5⟩

def relay (id : Nat) (relayId : Int) : Row := ⟨id, fun c => if c = "cloud_id" then .int 1 else .int relayId⟩

/-- A cloud with the gateway relay `9`, and a rule for it that is connected to the interface `5`. -/
def sampleDb (gatekeepers : Table) : Database := fun t =>
  if t = "system_" then ⟨[sampleProvider], 2, by simp, by simp [sampleProvider]⟩
  else if t = "cloud" then ⟨[sampleCloud], 1, by simp, by simp [sampleCloud]⟩
  else if t = "authorization_inter_cloud" then ⟨[sampleRule], 1, by simp, by simp [sampleRule]⟩
  else if t = "authorization_inter_cloud_interface_connection" then
    ⟨[sampleConnection], 1, by simp, by simp [sampleConnection]⟩
  else if t = "cloud_gateway_relay" then ⟨[relay 1 9], 1, by simp, by simp [relay]⟩
  else if t = "cloud_gatekeeper_relay" then gatekeepers
  else ⟨[], 0, Table.ordered_nil, Table.assigned_nil⟩

def oneGatekeeper : Table := ⟨[relay 1 3], 1, by simp, by simp [relay]⟩

def twoGatekeepers : Table := ⟨[relay 1 3, relay 2 4], 2, by simp [relay], by simp [relay]⟩

def sampleModel : InterCloudCheck := ⟨bytes "c", bytes "c", bytes "c", true, true, [3, 4], [9], [(2, [5])], 7⟩

section
variable (gatekeepers : Table)

lemma sample_good (h : ∀ r ∈ gatekeepers.rows, ∃ id j, r = relay id j) :
    Good {} sampleModel ⟨sampleDb gatekeepers, none, 0⟩ where
  fault _ := rfl
  providers := by simp [sampleModel]
  interfaces := by simp [sampleModel]
  gatekeepers := by simp [sampleModel]
  gateways := by simp [sampleModel]
  op := by decide
  name := by decide
  authenticationInfo := by decide
  typed := by
    refine ⟨?_, ?_, ?_, ?_, ?_⟩
    · simp [sampleDb, sampleConnection, Sql.Row.get]
    · simp [sampleDb, sampleRule, Sql.Row.get]
    · simp [sampleDb, sampleCloud, Sql.Row.get]
    · intro r hr
      obtain ⟨id, j, rfl⟩ := h r hr
      simp [relay, Sql.Row.get]
    · simp [sampleDb, relay, Sql.Row.get]

lemma sample_rule {r : Row} (h : r ∈ (sampleDb gatekeepers "authorization_inter_cloud").rows) : r = sampleRule := by
  simpa [sampleDb] using h

lemma sample_connection {r : Row} (h : r ∈ (sampleDb gatekeepers "authorization_inter_cloud_interface_connection").rows) :
    r = sampleConnection := by
  simpa [sampleDb] using h

lemma sample_gateway {r : Row} (h : r ∈ (sampleDb gatekeepers "cloud_gateway_relay").rows) : r = relay 1 9 := by
  simpa [sampleDb] using h

lemma sample_gatekeeper (id : Nat) (j : Int) (h : relay id j ∈ gatekeepers.rows) (hj : j ∈ sampleModel.gatekeeperRelayIds) :
    IsGatekeeper (sampleDb gatekeepers) sampleModel sampleCloud (relay id j) where
  mem := h
  cloud := by simp [relay, sampleCloud, Sql.Row.get]
  given := ⟨j, hj, by simp [relay, Sql.Row.get]⟩

lemma sample_match (id : Nat) (j : Int) (h : relay id j ∈ gatekeepers.rows) (hj : j ∈ sampleModel.gatekeeperRelayIds) :
    Match (sampleDb gatekeepers) sampleModel sampleConnection sampleRule sampleCloud sampleProvider (relay id j) (relay 1 9) 5
    where
  links := by
    refine ⟨by simp [sampleDb], by simp [sampleRule, sampleModel, Sql.Row.get], by simp [sampleRule, sampleCloud, Sql.Row.get],
      by simp [sampleRule, sampleProvider, Sql.Row.get], ⟨?_, ?_, ?_, ?_, ?_⟩⟩ <;> simp [sampleCloud, sampleModel, Sql.Row.get, flag]
  connects := ⟨by simp [sampleDb], by simp [sampleConnection, sampleRule, Sql.Row.get], by simp [sampleConnection, Sql.Row.get]⟩
  gatekeeper := sample_gatekeeper gatekeepers id j h hj
  gateway := ⟨by simp [sampleDb], by simp [relay, sampleCloud, Sql.Row.get], by simp [relay, sampleModel, Sql.Row.get]⟩

end

theorem listsOnce_one_relay : ListsOnce {} sampleModel ⟨sampleDb oneGatekeeper, none, 0⟩ := by
  have good : Good {} sampleModel ⟨sampleDb oneGatekeeper, none, 0⟩ := sample_good _ (by simp [oneGatekeeper])
  have gatekeeper : ∀ {r}, r ∈ (sampleDb oneGatekeeper "cloud_gatekeeper_relay").rows → r = relay 1 3 := by
    intro r hr
    simpa [sampleDb, oneGatekeeper] using hr
  refine (listsOnce_iff good).2 fun _ connection rule cloud provider gk gw i m _ => ⟨?_, ?_, ?_⟩
  · exact fun _ h => (sample_connection oneGatekeeper h.mem).trans (sample_connection oneGatekeeper m.connects.mem).symm
  · exact fun _ h => (gatekeeper h.mem).trans (gatekeeper m.gatekeeper.mem).symm
  · exact fun _ h => (sample_gateway oneGatekeeper h.mem).trans (sample_gateway oneGatekeeper m.gateway.mem).symm

/-- The interface of a cloud with two gatekeeper relays is listed twice. -/
theorem not_listsOnce_two_relays : ¬ListsOnce {} sampleModel ⟨sampleDb twoGatekeepers, none, 0⟩ := by
  have good : Good {} sampleModel ⟨sampleDb twoGatekeepers, none, 0⟩ := sample_good _ (by simp [twoGatekeepers])
  obtain ⟨rows, s', hf, -, -, -, -, once⟩ := checkRule_answer good
  rintro ⟨rows', s'', hf', -, -, -, -, each⟩
  rw [hf] at hf'
  cases hf'
  have one : OneRule (sampleDb twoGatekeepers) sampleModel := by
    intro _ _ _ _ _ _ _ _ _ _ _ _ _ m m'
    exact (sample_rule twoGatekeepers m.links.mem.1).trans (sample_rule twoGatekeepers m'.links.mem.1).symm
  have first := sample_match twoGatekeepers 1 3 (by simp [twoGatekeepers]) (by decide)
  have second := sample_gatekeeper twoGatekeepers 2 4 (by simp [twoGatekeepers]) (by decide)
  have same := ((once one).1 (each one) _ _ _ _ _ _ _ first ⟨(2, [5]), by decide, rfl, by decide⟩).2.1 _ second
  exact absurd (congrArg Row.id same) (by decide)

end ArrowheadCore.Authorization.InterCloudCheck
