import ArrowheadCore.Authorization.IntraCloudCheck
import ArrowheadCore.Lib.Trace

/-!
# Authorization rules in force

Embedding of `delRecord` of `Queries::IntraCloud` and `Queries::InterCloud` (`core/apps/Authorization/queries`) and of
`query_and_check` (`db/MariaDB.h`) as far as it deletes; `insRecord` is in `Rules`.

What the tables of the rules are for is a ledger: the rules in force under their keys. Whatever requests come and however
they end, the tables stand for the ledger of what has been answered (`trace_stands`), and a check decides by it
(`checkRule_follows_ledger`).
-/

namespace ArrowheadCore.Authorization
open Lib Lib.Sql Json Db

/-! ## Deleting rules -/

/-- How many rows a `DELETE` takes away. -/
def affectedRows (db : Database) (statement : List UInt8) : Nat :=
  match parse statement with
  | some (.delete q) => ((db q.table).rows.filter (q.hits schema)).length
  | _ => 0

/-- C++ `query_and_check` of a `DELETE` -/
def query_and_check (link : Link) (statement : List UInt8) : DbM Nat := fun s =>
  ((query link statement s).1.map fun _ => affectedRows s.db statement, (query link statement s).2)

/-- The common body of both `delRecord`. -/
def delRule (link : Link) (remove : List UInt8) (id : Nat) : DbM Bool := do
  return (← query_and_check link (remove ++ to_string id)) ≠ 0

/-- C++ `Queries::IntraCloud::delRecord` -/
def IntraCloud.delRecord (link : Link) (id : Nat) : DbM Bool :=
  delRule link (bytes "DELETE FROM authorization_intra_cloud WHERE id = ") id

/-- C++ `Queries::InterCloud::delRecord` -/
def InterCloud.delRecord (link : Link) (id : Nat) : DbM Bool :=
  delRule link (bytes "DELETE FROM authorization_inter_cloud WHERE id = ") id

/-! ## The ledger -/

/-- A rule: the consumer may use the service of the provider over the interfaces. -/
structure Rule where
  consumer : Int
  provider : Int
  service : Int
  interfaces : List Int

/-- The rules in force, under their keys. -/
abbrev Ledger := List (Nat × Rule)

/-- The rules that a request asks for, in the order of its loops. -/
def rulesOf (consumer : Int) (providers services interfaces : List Int) : List Rule :=
  (providers.flatMap fun provider => services.map fun service => (provider, service)).map fun p =>
    ⟨consumer, p.1, p.2, interfaces⟩

inductive Cloud where
  | intra | inter
deriving DecidableEq

def Cloud.tables : Cloud → RuleTables
  | .intra => intraTables
  | .inter => interTables

/-- A request and its answer. -/
inductive Event where
  | inserted (c : Cloud) (rules : List Rule) (ids : List Nat)
  | deleted (c : Cloud) (id : Nat) (found : Bool)
  | failed

/-- What an event does to the rules of one cloud. -/
def Ledger.after (c : Cloud) (L : Ledger) : Event → Ledger
  | .inserted d rules ids => if d = c then L ++ ids.zip rules else L
  | .deleted d id _ => if d = c then L.filter fun x => x.1 ≠ id else L
  | .failed => L

/-- The rules in force behind some events. -/
def ledger (c : Cloud) (events : List Event) : Ledger := events.foldl (Ledger.after c) []

/-- A request over some connection, with any failures, and what comes of it. -/
inductive Handles (db : Database) : Event → Database → Prop
  | intra {link : Link} {n : Nat} {m : IntraCloud} {ids : List Nat} {s : Session} :
    m.insRecord link ⟨db, none, n⟩ = (.ok ids, s) →
    Handles db (.inserted .intra (rulesOf m.consumerId (m.providerIds.map (↑)) (m.serviceDefIds.map (↑))
      (m.interfaceIds.map (↑))) ids) s.db
  | inter {link : Link} {n : Nat} {m : InterCloud} {ids : List Nat} {s : Session} :
    m.insRecord link ⟨db, none, n⟩ = (.ok ids, s) →
    Handles db (.inserted .inter (rulesOf m.cloudId m.providerIds m.serviceDefIds m.interfaceIds) ids) s.db
  | deleteIntra {link : Link} {n id : Nat} {found : Bool} {s : Session} :
    IntraCloud.delRecord link id ⟨db, none, n⟩ = (.ok found, s) → Handles db (.deleted .intra id found) s.db
  | deleteInter {link : Link} {n id : Nat} {found : Bool} {s : Session} :
    InterCloud.delRecord link id ⟨db, none, n⟩ = (.ok found, s) → Handles db (.deleted .inter id found) s.db
  | intraFails {link : Link} {n : Nat} {m : IntraCloud} {e : Exn} {s : Session} :
    m.insRecord link ⟨db, none, n⟩ = (.error e, s) → Handles db .failed s.db
  | interFails {link : Link} {n : Nat} {m : InterCloud} {e : Exn} {s : Session} :
    m.insRecord link ⟨db, none, n⟩ = (.error e, s) → Handles db .failed s.db
  | deleteIntraFails {link : Link} {n id : Nat} {e : Exn} {s : Session} :
    IntraCloud.delRecord link id ⟨db, none, n⟩ = (.error e, s) → Handles db .failed s.db
  | deleteInterFails {link : Link} {n id : Nat} {e : Exn} {s : Session} :
    InterCloud.delRecord link id ⟨db, none, n⟩ = (.error e, s) → Handles db .failed s.db

/-! ## What the tables stand for -/

section
variable {T : RuleTables} {L : Ledger} {db db' : Database}

/-- The cells of the rules, with their keys. -/
def ruleCells (T : RuleTables) (db : Database) : List (Nat × List Value) :=
  (db T.rules).rows.map fun r => (r.id, T.ruleColumns.map r.get)

/-- The cells of the connections. -/
def connectionCells (T : RuleTables) (db : Database) : List (List Value) :=
  (db T.connections).rows.map fun r => T.connectionColumns.map r.get

def Rule.cells (x : Rule) : List Value := [.int x.consumer, .int x.provider, .int x.service]

/-- The connection of a rule to an interface. -/
def connectionOf (id : Nat) (i : Int) : List Value := [.int id, .int i]

/-- The connection belongs to the rule. -/
def belongs (id : Nat) (c : List Value) : Bool := c.head? == some (.int id)

/-- The tables have the rules of the ledger. A deleted rule leaves its connections behind, but its key was assigned, and
    will be no other rule's. -/
structure Stands (T : RuleTables) (L : Ledger) (db : Database) : Prop where
  rules : ruleCells T db = L.map fun x => (x.1, x.2.cells)
  connections : ∀ x ∈ L, (connectionCells T db).filter (belongs x.1) = x.2.interfaces.map (connectionOf x.1)
  assigned : ∀ c ∈ connectionCells T db, ∃ id i, c = connectionOf id i ∧ id ≤ (db T.rules).lastId

/-- Only the rows and the last key matter. -/
lemma Stands.frame (h : Stands T L db) (rules : (db' T.rules).rows = (db T.rules).rows)
    (connections : (db' T.connections).rows = (db T.connections).rows) (last : (db T.rules).lastId ≤ (db' T.rules).lastId) :
    Stands T L db' := by
  have cells : connectionCells T db' = connectionCells T db := by rw [connectionCells, connections, connectionCells]
  refine ⟨?_, ?_, ?_⟩
  · rw [ruleCells, rules]
    exact h.rules
  · rw [cells]
    exact h.connections
  · rw [cells]
    intro c hc
    obtain ⟨id, i, e, hid⟩ := h.assigned c hc
    exact ⟨id, i, e, hid.trans last⟩

/-- The keys of the ledger are keys of the table. -/
lemma Stands.key (h : Stands T L db) {x : Nat × Rule} (hx : x ∈ L) : x.1 ≤ (db T.rules).lastId := by
  have mem : (x.1, x.2.cells) ∈ ruleCells T db := by
    rw [h.rules]
    exact List.mem_map_of_mem hx
  obtain ⟨r, hr, e⟩ := List.mem_map.1 mem
  have id : r.id = x.1 := congrArg Prod.fst e
  rw [← id]
  exact (db T.rules).assigned r hr

/-! ### Insertion -/

lemma belongs_connectionOf (id k : Nat) (i : Int) : belongs id (connectionOf k i) = decide (k = id) := by
  rw [belongs, connectionOf, List.head?_cons, Bool.eq_iff_iff]
  simp

/-- Of the new connections, a new rule gets its own. -/
lemma filter_connections {ids : List Nat} (nodup : ids.Nodup) (interfaces : List Int) (id : Nat) :
    (ids.flatMap fun k => interfaces.map (connectionOf k)).filter (belongs id) =
      if id ∈ ids then interfaces.map (connectionOf id) else [] := by
  have own : ∀ k, (interfaces.map (connectionOf k)).filter (belongs id) =
      if k = id then interfaces.map (connectionOf id) else [] := by
    intro k
    split
    next e =>
      subst e
      refine List.filter_eq_self.2 fun c hc => ?_
      obtain ⟨i, -, rfl⟩ := List.mem_map.1 hc
      simp [belongs_connectionOf]
    next ne =>
      refine List.filter_eq_nil_iff.2 fun c hc => ?_
      obtain ⟨i, -, rfl⟩ := List.mem_map.1 hc
      simp [belongs_connectionOf, ne]
  induction ids with
  | nil => rfl
  | cons k ids ih =>
    obtain ⟨notin, nodup⟩ := List.nodup_cons.1 nodup
    rw [List.flatMap_cons, List.filter_append, own, ih nodup]
    by_cases e : k = id
    · subst e
      rw [if_pos rfl, if_neg notin, if_pos (by simp), List.append_nil]
    · have : id ∈ k :: ids ↔ id ∈ ids := by simp [Ne.symm e]
      rw [if_neg e, List.nil_append]
      simp only [this]

/-- The rules that are inserted come under keys that no rule has had. -/
lemma Stands.insert (h : Stands T L db) {consumer : Int} {interfaces : List Int} {ps : List (Int × Int)} {ids : List Nat}
    (inserted : Inserted T consumer interfaces ps ids db db') (fresh : ∀ id ∈ ids, (db T.rules).lastId < id)
    (grows : (db T.rules).lastId ≤ (db' T.rules).lastId) :
    Stands T (L ++ ids.zip (ps.map fun p => ⟨consumer, p.1, p.2, interfaces⟩)) db' := by
  obtain ⟨rules, connections, grown, hids, hcols, hconn⟩ := inserted
  have mem : ∀ r ∈ rules, r ∈ (db' T.rules).rows := fun r hr => by simp [grown.rules, hr]
  have last : ∀ id ∈ ids, id ≤ (db' T.rules).lastId := by
    intro id hid
    rw [← hids] at hid
    obtain ⟨r, hr, rfl⟩ := List.mem_map.1 hid
    exact (db' T.rules).assigned r (mem r hr)
  have nodup : ids.Nodup := by
    have ordered := (db' T.rules).ordered
    rw [grown.rules, List.pairwise_append] at ordered
    rw [← hids]
    exact List.pairwise_map.2 (ordered.2.1.imp fun h => Nat.ne_of_lt h)
  have cells : connectionCells T db' = connectionCells T db ++ ids.flatMap fun id => interfaces.map (connectionOf id) := by
    rw [connectionCells, grown.connections, List.map_append, hconn]
    rfl
  have old : ∀ k, k ≤ (db T.rules).lastId → k ∉ ids :=
    fun k hk hid => Nat.lt_irrefl _ (Nat.lt_of_lt_of_le (fresh k hid) hk)
  refine ⟨?_, ?_, ?_⟩
  · -- the rows of the rules
    rw [ruleCells, grown.rules, List.map_append, List.map_append, ← ruleCells, h.rules]
    congr 1
    have pairs : rules.map (fun r => (r.id, T.ruleColumns.map r.get)) =
        (rules.map Row.id).zip (rules.map fun r => T.ruleColumns.map r.get) := List.zip_map'.symm
    rw [pairs, hids, hcols, List.zip_map_right, List.zip_map_right, List.map_map]
    rfl
  · intro x hx
    rw [cells, List.filter_append, filter_connections nodup]
    obtain hx | hx := List.mem_append.1 hx
    · -- a rule that has been there
      rw [if_neg (old x.1 (h.key hx)), List.append_nil]
      exact h.connections x hx
    · -- a new rule: what is left behind is of other keys
      obtain ⟨hid, hrule⟩ := List.of_mem_zip (a := x.1) (b := x.2) hx
      obtain ⟨p, -, e⟩ := List.mem_map.1 hrule
      have none : (connectionCells T db).filter (belongs x.1) = [] := by
        refine List.filter_eq_nil_iff.2 fun c hc => ?_
        obtain ⟨id, i, rfl, hle⟩ := h.assigned c hc
        have : id ≠ x.1 := fun e => old id hle (e ▸ hid)
        simp [belongs_connectionOf, this]
      rw [none, List.nil_append, if_pos hid, ← e]
  · intro c hc
    rw [cells, List.mem_append] at hc
    obtain hc | hc := hc
    · obtain ⟨id, i, e, hle⟩ := h.assigned c hc
      exact ⟨id, i, e, hle.trans grows⟩
    · obtain ⟨id, hid, hc⟩ := List.mem_flatMap.1 hc
      obtain ⟨i, -, rfl⟩ := List.mem_map.1 hc
      exact ⟨id, i, rfl, last id hid⟩

/-! ### Deletion -/

/-- The database without the rule. -/
def removeRule (T : RuleTables) (id : Nat) (db : Database) : Database :=
  Function.update db T.rules ((db T.rules).keep fun r => r.id ≠ id)

lemma Stands.delete (h : Stands T L db) (tables : T.rules ≠ T.connections) (id : Nat) :
    Stands T (L.filter fun x => x.1 ≠ id) (removeRule T id db) := by
  have cells : connectionCells T (removeRule T id db) = connectionCells T db := by
    rw [connectionCells, removeRule, Function.update_of_ne tables.symm, connectionCells]
  have rows : (removeRule T id db T.rules).rows = (db T.rules).rows.filter fun r => r.id ≠ id := by
    rw [removeRule, Function.update_self]
    rfl
  refine ⟨?_, ?_, ?_⟩
  · have left : ruleCells T (removeRule T id db) = (ruleCells T db).filter fun x => x.1 ≠ id := by
      rw [ruleCells, rows, ruleCells, List.filter_map]
      rfl
    rw [left, h.rules, List.filter_map]
    rfl
  · rw [cells]
    exact fun x hx => h.connections x (List.mem_of_mem_filter hx)
  · rw [cells]
    intro c hc
    have last : (removeRule T id db T.rules).lastId = (db T.rules).lastId := by
      rw [removeRule, Function.update_self]
      rfl
    rw [last]
    exact h.assigned c hc

end

/-! ## What the requests do -/

/-- No table forgets a key that it has assigned. -/
def KeepsKeys {α : Type} (m : DbM α) : Prop := ∀ s t, (s.db t).lastId ≤ ((m s).2.db t).lastId

section
variable {α β : Type}

lemma KeepsKeys.pure (a : α) : KeepsKeys (pure a : DbM α) := fun _ _ => Nat.le_refl _

lemma KeepsKeys.bind {m : DbM α} {f : α → DbM β} (hm : KeepsKeys m) (hf : ∀ a, KeepsKeys (f a)) :
    KeepsKeys (m >>= f) := by
  intro s t
  have h := hm s t
  cases e : m s with
  | mk x s1 =>
    rw [e] at h
    cases x with
    | ok a =>
      rw [bind_of_ok e]
      exact h.trans (hf a s1 t)
    | error x =>
      rw [bind_of_error e]
      exact h

lemma insert_keepsKeys (link : Link) {statement : List UInt8} {q : Insert} (hp : parse statement = some (.insert q)) :
    KeepsKeys (insert link statement) := by
  intro s t
  unfold Db.insert send
  cases link.fault s.sent with
  | none =>
    simp only [hp]
    cases hr : q.run schema s.db link.stamp with
    | none => exact Nat.le_refl _
    | some x =>
      have e := congrArg Prod.snd (Insert.run_eq hr)
      simp only [e]
      rcases eq_or_ne t q.table with rfl | ht
      · rw [Function.update_self]
        exact Nat.le_succ _
      · rw [Function.update_of_ne ht]
  | refuse => exact Nat.le_refl _
  | throw => exact Nat.le_refl _

lemma rollback_keepsKeys : KeepsKeys rollback := by
  intro s t
  unfold rollback Session.restore
  cases s.saved with
  | none => exact Nat.le_refl _
  | some old => exact Nat.le_max_right _ _

lemma transactionLock_keepsKeys (link : Link) {body : DbM α} (h : KeepsKeys body) :
    KeepsKeys (transactionLock link body) := by
  have same : ∀ {run : Session → Except Exn Unit × Session}, (∀ s, (run s).2.db = s.db) →
      KeepsKeys (send link run (.error .db)) := by
    intro run hrun s t
    unfold send
    cases link.fault s.sent with
    | none => exact Nat.le_of_eq (congrArg (fun db : Database => (db t).lastId) (hrun { s with sent := s.sent + 1 })).symm
    | refuse => exact Nat.le_refl _
    | throw => exact Nat.le_refl _
  have inner : KeepsKeys (do
      let a ← body
      commit link
      pure a) := h.bind fun a => (same fun _ => rfl).bind fun _ => .pure a
  refine KeepsKeys.bind (same fun _ => rfl) fun _ s t => ?_
  have first := inner s t
  -- a rollback takes the rows back, not the keys
  unfold rollbackOnError
  generalize (do
      let a ← body
      commit link
      pure a : DbM α) s = x at first
  obtain ⟨r, s1⟩ := x
  cases r with
  | ok a => exact first
  | error e => exact first.trans (rollback_keepsKeys s1 t)

end

section
variable {link : Link} {T : RuleTables} {rule connection : List UInt8} {s s' : Session}

lemma insConnections_keepsKeys (link : Link) (h : T.Spells rule connection) (id : Nat) (interfaces : List Int) :
    KeepsKeys (insConnections link connection id interfaces) := by
  induction interfaces with
  | nil => exact .pure _
  | cons i interfaces ih =>
    have hp : parse (connection ++ valuesText [id, i]) = _ := parse_values h.connection h.connection_ne (by simp)
    refine (insert_keepsKeys link hp).bind fun r => ?_
    cases r with
    | none => exact fun _ _ => Nat.le_refl _
    | some _ => exact ih

lemma insRule_keepsKeys (link : Link) (h : T.Spells rule connection) (consumer provider service : Int)
    (interfaces : List Int) : KeepsKeys (insRule link rule connection consumer provider service interfaces) := by
  have hp : parse (rule ++ valuesText [consumer, provider, service]) = _ := parse_values h.rule h.rule_ne (by simp)
  refine (insert_keepsKeys link hp).bind fun r => ?_
  cases r with
  | none => exact fun _ _ => Nat.le_refl _
  | some id => exact (insConnections_keepsKeys link h id interfaces).bind fun _ => .pure _

lemma insServices_keepsKeys (link : Link) (h : T.Spells rule connection) (consumer provider : Int)
    (interfaces services : List Int) (ids : List Nat) :
    KeepsKeys (insServices link rule connection consumer provider interfaces ids services) := by
  induction services generalizing ids with
  | nil => exact .pure _
  | cons service services ih =>
    exact (insRule_keepsKeys link h consumer provider service interfaces).bind fun id => ih (ids ++ [id])

lemma insProviders_keepsKeys (link : Link) (h : T.Spells rule connection) (consumer : Int)
    (services interfaces providers : List Int) (ids : List Nat) :
    KeepsKeys (insProviders link rule connection consumer services interfaces ids providers) := by
  induction providers generalizing ids with
  | nil => exact .pure _
  | cons provider providers ih =>
    exact (insServices_keepsKeys link h consumer provider interfaces services ids).bind fun ids => ih ids

/-- The key of a new rule is greater than all before. -/
lemma insRule_fresh (h : T.Spells rule connection) {consumer provider service : Int} {interfaces : List Int} {id : Nat}
    (run : insRule link rule connection consumer provider service interfaces s = (.ok id, s')) :
    (s.db T.rules).lastId < id := by
  obtain ⟨r, s1, h1, h2⟩ := bind_eq_ok run
  cases r with
  | none => cases h2
  | some rid =>
    obtain ⟨u, s2, -, h4⟩ := bind_eq_ok h2
    cases h4
    have hp : parse (rule ++ valuesText [consumer, provider, service]) = _ := parse_values h.rule h.rule_ne (by simp)
    have id := congrArg Prod.fst (Insert.run_eq (insert_some link hp h1))
    exact Nat.lt_of_lt_of_eq (Nat.lt_succ_self _) id.symm

lemma insServices_fresh (h : T.Spells rule connection) {consumer provider : Int} {interfaces services : List Int}
    {ids ids' : List Nat}
    (run : insServices link rule connection consumer provider interfaces ids services s = (.ok ids', s')) :
    ∀ id ∈ ids', id ∈ ids ∨ (s.db T.rules).lastId < id := by
  induction services generalizing ids s with
  | nil =>
    cases run
    exact fun id hid => .inl hid
  | cons service services ih =>
    obtain ⟨id, s1, h1, h2⟩ := bind_eq_ok run
    have grows := insRule_keepsKeys link h consumer provider service interfaces s T.rules
    rw [h1] at grows
    intro k hk
    -- a later key is greater than the last one behind this rule, which is not less than the one before it
    obtain hk | hk := ih h2 k hk
    · obtain hk | hk := List.mem_append.1 hk
      · exact .inl hk
      · rw [List.mem_singleton] at hk
        rw [hk]
        exact .inr (insRule_fresh h h1)
    · exact .inr (Nat.lt_of_le_of_lt grows hk)

lemma insProviders_fresh (h : T.Spells rule connection) {consumer : Int} {services interfaces providers : List Int}
    {ids ids' : List Nat}
    (run : insProviders link rule connection consumer services interfaces ids providers s = (.ok ids', s')) :
    ∀ id ∈ ids', id ∈ ids ∨ (s.db T.rules).lastId < id := by
  induction providers generalizing ids s with
  | nil =>
    cases run
    exact fun id hid => .inl hid
  | cons provider providers ih =>
    obtain ⟨ids1, s1, h1, h2⟩ := bind_eq_ok run
    have grows := insServices_keepsKeys link h consumer provider interfaces services ids s T.rules
    rw [h1] at grows
    intro k hk
    obtain hk | hk := ih h2 k hk
    · exact insServices_fresh h h1 k hk
    · exact .inr (Nat.lt_of_le_of_lt grows hk)

end

section
variable {link : Link} {T : RuleTables} {rule connection remove : List UInt8} {s s' : Session} {L : Ledger}

/-- Rules that are inserted are in force from then on. -/
lemma insRules_stands (h : T.Spells rule connection) {consumer : Int} {providers services interfaces : List Int}
    {ids : List Nat} (hs : s.saved = none) (stands : Stands T L s.db)
    (run : insRules link rule connection consumer providers services interfaces s = (.ok ids, s')) :
    Stands T (L ++ ids.zip (rulesOf consumer providers services interfaces)) s'.db := by
  have grows := transactionLock_keepsKeys link
    (insProviders_keepsKeys link h consumer services interfaces providers []) s T.rules
  unfold insRules at run
  rw [run] at grows
  obtain ⟨e, s3, run', -⟩ | ⟨ids', s3, s1, s2, run', -, hdb, body, e⟩ :=
    transactionLock_cases link (insProviders_keeps consumer services interfaces providers []) hs
  · cases run'.symm.trans run
  · cases run'.symm.trans run
    have fresh := insProviders_fresh h body
    obtain ⟨new, rfl, inserted⟩ := insProviders_ok h body
    rw [hdb, ← e] at inserted
    rw [hdb] at fresh
    refine stands.insert inserted (fun id hid => ?_) grows
    obtain hid' | hid' := fresh id hid
    · cases hid'
    · exact hid'

/-- A request that fails changes nothing but the last keys. -/
lemma insRules_fails (h : T.Spells rule connection) {consumer : Int} {providers services interfaces : List Int} {e : Exn}
    (hs : s.saved = none) (run : insRules link rule connection consumer providers services interfaces s = (.error e, s')) :
    SameRows s'.db s.db ∧ ∀ t, (s.db t).lastId ≤ (s'.db t).lastId := by
  constructor
  · obtain ⟨-, all⟩ : AllOrNothing T consumer providers services interfaces s.db
      (insRules link rule connection consumer providers services interfaces s) := insRules_allOrNothing h _ _ _ _ hs
    rw [run] at all
    exact all
  · intro t
    have grows := transactionLock_keepsKeys link
      (insProviders_keepsKeys link h consumer services interfaces providers []) s t
    unfold insRules at run
    rw [run] at grows
    exact grows

/-- Other tables than those of the rules keep their rows and their keys. -/
lemma insRules_others (h : T.Spells rule connection) {consumer : Int} {providers services interfaces : List Int}
    {ids : List Nat} (hs : s.saved = none)
    (run : insRules link rule connection consumer providers services interfaces s = (.ok ids, s')) {t : String}
    (h1 : t ≠ T.rules) (h2 : t ≠ T.connections) : s'.db t = s.db t := by
  obtain ⟨-, all⟩ : AllOrNothing T consumer providers services interfaces s.db
    (insRules link rule connection consumer providers services interfaces s) := insRules_allOrNothing h _ _ _ _ hs
  rw [run] at all
  obtain ⟨_, _, grown, -⟩ := all
  exact grown.others t h1 h2

/-- The text is the beginning of a `DELETE` from the rules by their key. -/
def RuleTables.Removes (T : RuleTables) (remove : List UInt8) : Prop :=
  Lexes .idle remove [.kw .delete, .kw .from, .ident T.rules, .kw .where, .ident "id", .sym .eq] .idle ∧
    (schema T.rules).isSome

def removal (T : RuleTables) (id : Nat) : Delete := ⟨T.rules, some (.eq (.col none "id") (.lit (.int id)))⟩

lemma parse_removal (h : T.Removes remove) (id : Nat) : parse (remove ++ to_string id) = some (.delete (removal T id)) := by
  have text : to_string (id : Int) = decimal id := rfl
  rw [parse, text, lex_of_lexes (h.1.append (lexes_decimal id)) rfl]
  rfl

lemma removal_run (h : T.Removes remove) (id : Nat) (db : Database) :
    (removal T id).run schema db = some (removeRule T id db) ∧ ∀ r, (removal T id).hits schema r = decide (r.id = id) := by
  obtain ⟨cols, hcols⟩ := Option.isSome_iff_exists.1 h.2
  have column : hasColumn schema T.rules "id" = true := by
    rw [hasColumn, hcols]
    rfl
  have bound : (removal T id).bound schema = true := by
    simp [Delete.bound, removal, hcols, Cond.bound, Expr.bound, column]
  have hits : ∀ r, (removal T id).hits schema r = decide (r.id = id) := by
    intro r
    have e : (removal T id).hits schema r =
      (Expr.eval schema [(⟨T.rules, T.rules⟩, r)] (.col none "id")).same (.int id) := rfl
    rw [e, Expr.eval_column column, Bool.eq_iff_iff]
    simp [Sql.Row.get, Value.same]
  refine ⟨?_, hits⟩
  rw [Delete.run, if_pos bound, removeRule]
  simp only [hits, decide_not]
  rfl

lemma affectedRows_removal (h : T.Removes remove) (id : Nat) (db : Database) :
    affectedRows db (remove ++ to_string id) = ((db T.rules).rows.filter fun x => x.id = id).length := by
  obtain ⟨-, hits⟩ := removal_run h id db
  have same : (removal T id).hits schema = fun x => decide (x.id = id) := funext hits
  rw [affectedRows, parse_removal h, ← same]
  rfl

lemma query_removal (h : T.Removes remove) (id : Nat) (s : Session) :
    query link (remove ++ to_string id) s = (.ok (), { s with db := removeRule T id s.db, sent := s.sent + 1 }) ∨
      query link (remove ++ to_string id) s = (.error .db, { s with sent := s.sent + 1 }) := by
  have hp := parse_removal h id
  obtain ⟨hq, -⟩ := removal_run h id s.db
  unfold query send
  cases link.fault s.sent with
  | none =>
    simp only [hp, hq]
    exact .inl trivial
  | refuse => exact .inr rfl
  | throw => exact .inr rfl

/-- A deletion is done, and answers whether there was such a rule, or it fails and leaves everything as it was. -/
lemma delRule_cases (h : T.Removes remove) {id : Nat} {r : Except Exn Bool} (run : delRule link remove id s = (r, s')) :
    ((∃ found, r = .ok found ∧ (found ↔ ∃ x ∈ (s.db T.rules).rows, x.id = id)) ∧ s'.db = removeRule T id s.db) ∨
      (∃ e, r = .error e) ∧ s'.db = s.db := by
  obtain e | e := query_removal h id s
  · have answer : query_and_check link (remove ++ to_string id) s = (.ok (affectedRows s.db (remove ++ to_string id)),
        { s with db := removeRule T id s.db, sent := s.sent + 1 }) := by
      rw [query_and_check, e]
      rfl
    rw [delRule, bind_of_ok answer, affectedRows_removal h] at run
    cases run
    refine .inl ⟨⟨_, rfl, ?_⟩, rfl⟩
    rw [decide_eq_true_iff, ← Nat.pos_iff_ne_zero, List.length_pos_iff_exists_mem]
    simp only [List.mem_filter, decide_eq_true_eq]
  · have answer : query_and_check link (remove ++ to_string id) s = (.error .db, { s with sent := s.sent + 1 }) := by
      rw [query_and_check, e]
      rfl
    rw [delRule, bind_of_error answer] at run
    cases run
    exact .inr ⟨⟨_, rfl⟩, rfl⟩

end

/-! ## Runs -/

lemma intraTables_removes : intraTables.Removes (bytes "DELETE FROM authorization_intra_cloud WHERE id = ") :=
  ⟨lexes_bytes (by decide), by decide⟩

lemma interTables_removes : interTables.Removes (bytes "DELETE FROM authorization_inter_cloud WHERE id = ") :=
  ⟨lexes_bytes (by decide), by decide⟩

/-- The rules of both clouds stand for ledgers, and the systems are these. -/
structure Stand (L : Cloud → Ledger) (systems : List Row) (db : Database) : Prop where
  rules : ∀ c, Stands c.tables (L c) db
  systems : (db "system_").rows = systems

section
variable {L : Cloud → Ledger} {systems : List Row} {db db' : Database} {c : Cloud}

lemma tables_differ (c : Cloud) : c.tables.rules ≠ c.tables.connections := by
  cases c <;> decide

/-- The tables of one cloud are none of the other's, and none of them is the one of the systems. -/
lemma tables_apart {d : Cloud} (ne : c ≠ d) : (d.tables.rules ≠ c.tables.rules ∧ d.tables.rules ≠ c.tables.connections) ∧
    d.tables.connections ≠ c.tables.rules ∧ d.tables.connections ≠ c.tables.connections := by
  cases c with
  | intra =>
    cases d with
    | intra => exact absurd rfl ne
    | inter => decide
  | inter =>
    cases d with
    | intra => decide
    | inter => exact absurd rfl ne

lemma systems_apart (c : Cloud) : "system_" ≠ c.tables.rules ∧ "system_" ≠ c.tables.connections := by
  cases c <;> decide

/-- A request about one cloud leaves the other alone. -/
lemma Stand.step (h : Stand L systems db) (L' : Cloud → Ledger) (own : Stands c.tables (L' c) db')
    (same : ∀ d, c ≠ d → L' d = L d) (others : ∀ t, t ≠ c.tables.rules → t ≠ c.tables.connections → db' t = db t) :
    Stand L' systems db' := by
  refine ⟨fun d => ?_, ?_⟩
  · by_cases e : c = d
    · rw [← e]
      exact own
    · obtain ⟨⟨h1, h2⟩, h3, h4⟩ := tables_apart e
      have rules := others d.tables.rules h1 h2
      have connections := others d.tables.connections h3 h4
      rw [same d e]
      exact (h.rules d).frame (congrArg Table.rows rules) (congrArg Table.rows connections)
        (Nat.le_of_eq (congrArg Table.lastId rules).symm)
  · obtain ⟨h1, h2⟩ := systems_apart c
    rw [others _ h1 h2]
    exact h.systems

lemma Stand.inserted (h : Stand L systems db) {rules : List Rule} {ids : List Nat}
    (own : Stands c.tables (L c ++ ids.zip rules) db')
    (others : ∀ t, t ≠ c.tables.rules → t ≠ c.tables.connections → db' t = db t) :
    Stand (fun d => (L d).after d (.inserted c rules ids)) systems db' := by
  refine h.step (c := c) _ ?_ (fun d ne => if_neg ne) others
  rw [Ledger.after, if_pos rfl]
  exact own

lemma Stand.deleted (h : Stand L systems db) (id : Nat) (found : Bool) :
    Stand (fun d => (L d).after d (.deleted c id found)) systems (removeRule c.tables id db) := by
  refine h.step (c := c) _ ?_ (fun d ne => if_neg ne) fun t h1 _ => Function.update_of_ne h1 _ _
  rw [Ledger.after, if_pos rfl]
  exact (h.rules c).delete (tables_differ c) id

lemma Stand.failed (h : Stand L systems db) (rows : SameRows db' db) (last : ∀ t, (db t).lastId ≤ (db' t).lastId) :
    Stand L systems db' :=
  ⟨fun c => (h.rules c).frame (rows _) (rows _) (last _), (rows _).trans h.systems⟩

/-- The step lemma: the tables follow the answer. -/
lemma handles_stand {event : Event} (h : Stand L systems db) (run : Handles db event db') :
    Stand (fun c => (L c).after c event) systems db' := by
  cases run with
  | intra run =>
    have own := insRules_stands (s := ⟨db, none, _⟩) intraTables_spells rfl (h.rules .intra) run
    exact h.inserted (c := .intra) own fun t h1 h2 => insRules_others intraTables_spells rfl run h1 h2
  | inter run =>
    have own := insRules_stands (s := ⟨db, none, _⟩) interTables_spells rfl (h.rules .inter) run
    exact h.inserted (c := .inter) own fun t h1 h2 => insRules_others interTables_spells rfl run h1 h2
  | deleteIntra run =>
    obtain ⟨-, e⟩ | ⟨⟨x, e⟩, -⟩ := delRule_cases intraTables_removes run
    · rw [e]
      exact h.deleted (c := .intra) _ _
    · cases e
  | deleteInter run =>
    obtain ⟨-, e⟩ | ⟨⟨x, e⟩, -⟩ := delRule_cases interTables_removes run
    · rw [e]
      exact h.deleted (c := .inter) _ _
    · cases e
  | intraFails run =>
    obtain ⟨rows, last⟩ := insRules_fails intraTables_spells rfl run
    exact h.failed rows last
  | interFails run =>
    obtain ⟨rows, last⟩ := insRules_fails interTables_spells rfl run
    exact h.failed rows last
  | deleteIntraFails run =>
    obtain ⟨⟨found, e, -⟩, -⟩ | ⟨-, e⟩ := delRule_cases intraTables_removes run
    · cases e
    · rw [e]
      exact h
  | deleteInterFails run =>
    obtain ⟨⟨found, e, -⟩, -⟩ | ⟨-, e⟩ := delRule_cases interTables_removes run
    · cases e
    · rw [e]
      exact h

/-- There are no rules yet. -/
structure Unruled (db : Database) : Prop where
  rules : ∀ c : Cloud, (db c.tables.rules).rows = []
  connections : ∀ c : Cloud, (db c.tables.connections).rows = []

lemma Unruled.stand (h : Unruled db) : Stand (fun _ => []) (db "system_").rows db := by
  refine ⟨fun c => ⟨?_, by simp, ?_⟩, rfl⟩
  · rw [ruleCells, h.rules]
    rfl
  · rw [connectionCells, h.connections]
    simp

/-- The run lemma: the tables stand for the ledger of the answers. -/
theorem trace_stands {events : List Event} (start : Unruled db) (run : Trace Handles db events db') :
    Stand (fun c => ledger c events) (db "system_").rows db' := by
  refine run.inv_labels (I := fun events x => Stand (fun c => ledger c events) (db "system_").rows x) start.stand ?_
  intro events x event y h step
  have e : ∀ c, ledger c (events ++ [event]) = (ledger c events).after c event := by
    intro c
    rw [ledger, List.foldl_append]
    rfl
  simp only [e]
  exact handles_stand h step

end

/-! ## Checks -/

namespace IntraCloudCheck

/-- A rule of the ledger is about the service of the request and the consumer that it describes, and names a provider that
    exists, and the interface. -/
def Allows (L : Ledger) (systems : List Row) (model : IntraCloudCheck) (p i : Int) : Prop :=
  ∃ x ∈ L, x.2.service = model.serviceDefinitionId ∧
    (∃ consumer ∈ systems, x.2.consumer = consumer.id ∧ IsConsumer model consumer) ∧
    (∃ provider ∈ systems, x.2.provider = provider.id ∧ (provider.id : Int) = p) ∧ i ∈ x.2.interfaces

/-- The columns of the systems have the types that the comments above the query give them. -/
def TypedSystems (systems : List Row) : Prop :=
  ∀ r ∈ systems, (∃ s, r.get "system_name" = .text s) ∧ (∃ s, r.get "address" = .text s) ∧ (∃ z, r.get "port" = .int z) ∧
    (r.get "authentication_info" = .null ∨ ∃ s, r.get "authentication_info" = .text s)

section
variable {L : Ledger} {db : Database} {model : IntraCloudCheck} {p i : Int}

/-- A row of the rules and the rule of the ledger that it stands for. -/
lemma rule_cells {r : Row} {x : Nat × Rule} : (r.id, intraTables.ruleColumns.map r.get) = (x.1, x.2.cells) ↔ r.id = x.1 ∧
    r.get "consumer_system_id" = .int x.2.consumer ∧ r.get "provider_system_id" = .int x.2.provider ∧
    r.get "service_id" = .int x.2.service := by
  simp [Rule.cells, intraTables]

lemma connection_cells {c : Row} {id : Nat} : intraTables.connectionColumns.map c.get = connectionOf id i ↔
    c.get "authorization_intra_cloud_id" = .int id ∧ c.get "interface_id" = .int i := by
  simp [connectionOf, intraTables]

lemma rule_of_row (h : Stands intraTables L db) {r : Row} (hr : r ∈ (db "authorization_intra_cloud").rows) :
    ∃ x ∈ L, r.id = x.1 ∧ r.get "consumer_system_id" = .int x.2.consumer ∧ r.get "provider_system_id" = .int x.2.provider ∧
      r.get "service_id" = .int x.2.service := by
  have mem : (r.id, intraTables.ruleColumns.map r.get) ∈ ruleCells intraTables db := List.mem_map_of_mem hr
  rw [h.rules] at mem
  obtain ⟨x, hx, e⟩ := List.mem_map.1 mem
  exact ⟨x, hx, rule_cells.1 e.symm⟩

lemma row_of_rule (h : Stands intraTables L db) {x : Nat × Rule} (hx : x ∈ L) :
    ∃ r ∈ (db "authorization_intra_cloud").rows, r.id = x.1 ∧ r.get "consumer_system_id" = .int x.2.consumer ∧
      r.get "provider_system_id" = .int x.2.provider ∧ r.get "service_id" = .int x.2.service := by
  have mem : (x.1, x.2.cells) ∈ ruleCells intraTables db := by
    rw [h.rules]
    exact List.mem_map_of_mem hx
  obtain ⟨r, hr, e⟩ := List.mem_map.1 mem
  exact ⟨r, hr, rule_cells.1 e⟩

/-- A rule is connected to its interfaces. -/
lemma connected_iff (h : Stands intraTables L db) {x : Nat × Rule} (hx : x ∈ L) :
    (∃ c ∈ (db "authorization_intra_cloud_interface_connection").rows, c.get "authorization_intra_cloud_id" = .int x.1 ∧
      c.get "interface_id" = .int i) ↔ i ∈ x.2.interfaces := by
  have cells : (∃ c ∈ (db "authorization_intra_cloud_interface_connection").rows,
      c.get "authorization_intra_cloud_id" = .int x.1 ∧ c.get "interface_id" = .int i) ↔
      connectionOf x.1 i ∈ (connectionCells intraTables db).filter (belongs x.1) := by
    rw [List.mem_filter, belongs_connectionOf, connectionCells, List.mem_map]
    simp only [connection_cells, decide_true, and_true]
    exact Iff.rfl
  rw [cells, h.connections x hx]
  simp [connectionOf]

/-- What is authorized by the tables is what the ledger allows. -/
lemma authorized_iff (h : Stands intraTables L db) :
    Authorized db model p i ↔ Allows L (db "system_").rows model p i := by
  constructor
  · rintro ⟨r, hr, service, ⟨c, hc, consumer, is⟩, ⟨q, hq, provider, e⟩, connected⟩
    obtain ⟨x, hx, hid, h1, h2, h3⟩ := rule_of_row h hr
    rw [h1, Value.int.injEq] at consumer
    rw [h2, Value.int.injEq] at provider
    rw [h3, Value.int.injEq] at service
    rw [hid, connected_iff h hx] at connected
    exact ⟨x, hx, service, ⟨c, hc, consumer, is⟩, ⟨q, hq, provider, e⟩, connected⟩
  · rintro ⟨x, hx, service, ⟨c, hc, consumer, is⟩, ⟨q, hq, provider, e⟩, interface⟩
    obtain ⟨r, hr, hid, h1, h2, h3⟩ := row_of_rule h hx
    rw [← connected_iff h hx, ← hid] at interface
    exact ⟨r, hr, by rw [h3, service], ⟨c, hc, by rw [h1, consumer], is⟩, ⟨q, hq, by rw [h2, provider], e⟩, interface⟩

lemma typed_of_stands (h : Stands intraTables L db) (systems : TypedSystems (db "system_").rows) : Typed db := by
  refine ⟨fun c hc => ?_, fun r hr => ?_, systems⟩
  · obtain ⟨id, i, e, -⟩ := h.assigned _ (List.mem_map_of_mem hc)
    obtain ⟨h1, h2⟩ := connection_cells.1 e
    exact ⟨⟨_, h1⟩, _, h2⟩
  · obtain ⟨x, -, -, h1, h2, h3⟩ := rule_of_row h hr
    exact ⟨⟨_, h1⟩, ⟨_, h2⟩, _, h3⟩

/-- Behind any requests, a check lists what the ledger of their answers allows, and every provider once. -/
theorem checkRule_follows_ledger {link : Link} {s : Session} {before : Database} {events : List Event}
    (start : Unruled before) (run : Trace Handles before events s.db) (systems : TypedSystems (before "system_").rows)
    (hlink : ∀ n, link.fault n = .none) (hp : model.providerIdsWithInterfaceIds ≠ [])
    (hi : ∀ x ∈ model.providerIdsWithInterfaceIds, x.2 ≠ [])
    (haddress : IsLiteral (link.escape model.address) model.address)
    (hname : IsLiteral (link.escape model.systemName) model.systemName)
    (hauth : IsLiteral (link.escape model.authenticationInfo) model.authenticationInfo) :
    ∃ consumer listed s', checkRule link model s = (.ok (.content (replyText model consumer listed)), s') ∧
      (listed.map Prod.fst).Nodup ∧
      ∀ p i, Grouped listed p i ↔ Requested model p i ∧ Allows (ledger .intra events) (before "system_").rows model p i := by
  have stand := trace_stands start run
  have stands : Stands intraTables (ledger .intra events) s.db := stand.rules .intra
  rw [← stand.systems] at systems ⊢
  cases hm : model.providerIdsWithInterfaceIds with
  | nil => exact absurd hm hp
  | cons x xs =>
    rw [hm] at hi
    have text := parse_checkRuleQuery hm (hi x (by simp)) (fun y hy => hi y (by simp [hy])) haddress hname hauth
    obtain ⟨rows, hr, sorted, mem⟩ := run_checkRule hm (typed_of_stands stands systems)
    obtain ⟨k, hf⟩ : ∃ k, fetch link (checkRuleQuery link model) s = (.ok rows, { s with sent := k }) :=
      select_gives link hlink text hr s rfl
    refine ⟨rows.headD [], groups (rows.map fun r => (getLong r 7, getLong r 8)), { s with sent := k }, ?_, ?_, ?_⟩
    · rw [checkRule, hf]
      simp only [checkRuleText_eq]
    · exact List.pairwise_map.2 ((groups_sorted sorted).imp fun h => ne_of_lt h)
    · intro p i
      rw [grouped_groups, mem, authorized_iff stands]

def consumerRow : Row := ⟨1, fun c => if c = "port" then .int 80 else .text (bytes "c")⟩

def providerRow : Row := ⟨2, fun c => if c = "port" then .int 81 else .text (bytes "p")⟩

lemma rows_ordered : List.Pairwise (fun r s : Row => r.id < s.id) [consumerRow, providerRow] := by
  simp [consumerRow, providerRow]

lemma rows_assigned : ∀ r ∈ [consumerRow, providerRow], r.id ≤ 2 := by
  simp [consumerRow, providerRow]

/-- Two systems, and no rules. -/
def twoSystems : Database := fun t =>
  if t = "system_" then ⟨[consumerRow, providerRow], 2, rows_ordered, rows_assigned⟩
  else ⟨[], 0, Table.ordered_nil, Table.assigned_nil⟩

lemma unruled_twoSystems : Unruled twoSystems := by
  refine ⟨fun c => ?_, fun c => ?_⟩
  · obtain ⟨h, -⟩ := systems_apart c
    rw [twoSystems, if_neg h.symm]
  · obtain ⟨-, h⟩ := systems_apart c
    rw [twoSystems, if_neg h.symm]

/-- The consumer `1` is given the service `7` of the provider `2` over the interface `5`. -/
def temperatureRule : IntraCloud := ⟨1, [2], [5], [7]⟩

def temperatureCheck : IntraCloudCheck := ⟨bytes "c", bytes "c", 80, bytes "c", [(2, [4, 5])], 7⟩

theorem checkRule_follows_one : ∃ ids s, temperatureRule.insRecord {} ⟨twoSystems, none, 0⟩ = (.ok ids, s) ∧
    ∃ consumer listed s', checkRule {} temperatureCheck s =
        (.ok (.content (replyText temperatureCheck consumer listed)), s') ∧
      (listed.map Prod.fst).Nodup ∧ ∀ p i, Grouped listed p i ↔ Requested temperatureCheck p i ∧
        Allows (ledger .intra [.inserted .intra (rulesOf 1 [2] [7] [5]) ids]) (twoSystems "system_").rows
          temperatureCheck p i := by
  have plain : IsLiteral ((({} : Link)).escape (bytes "c")) (bytes "c") := by decide
  have works : ∀ n, ({} : Link).fault n = .none := fun _ => rfl
  obtain ⟨ids, s, run, -⟩ := transactionLock_returns ({} : Link) works
    (insProviders_returns works intraTables_spells intraTables_fits 1 [7] [5] [2] []) ⟨twoSystems, none, 0⟩
  have inserts : temperatureRule.insRecord {} ⟨twoSystems, none, 0⟩ = (.ok ids, s) := run
  have trace : Trace Handles twoSystems ([] ++ [.inserted .intra (rulesOf 1 [2] [7] [5]) ids]) s.db :=
    .snoc .nil (.intra inserts)
  refine ⟨ids, s, inserts, checkRule_follows_ledger unruled_twoSystems trace ?_ (fun _ => rfl) ?_ ?_ plain plain plain⟩
  · simp [TypedSystems, twoSystems, consumerRow, providerRow, Sql.Row.get]
  · simp [temperatureCheck]
  · simp [temperatureCheck]

end

end IntraCloudCheck

end ArrowheadCore.Authorization
