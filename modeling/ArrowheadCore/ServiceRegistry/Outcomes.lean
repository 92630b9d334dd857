import Mathlib.Logic.Relation
import ArrowheadCore.ServiceRegistry.Unregister

/-!
# Requests with any outcome

A request may fail at any of its statements and leave behind what the ones before it did. `StoreStep` is what one
statement of a registration can do; a registration of plain texts takes some of these steps, however it ends
(`processRegister_steps`). Requests that remove entries only take rows away (`Shrinks`).
-/

namespace ArrowheadCore.ServiceRegistry
open Lib Lib.Sql Json Db

/-! ## Registrations -/

/-- A row is found, or one is inserted that keeps to the promises of the schema. -/
inductive StoreStep (db : Database) : Database → Prop where
  | ensure {q c v} stamp : Storable q c v →
    (∀ r : Row, q.columns.map r.get = q.values → Promises db q.table r) → StoreStep db (ensure stamp q c v db).2

/-- Some steps. -/
abbrev Stores : Database → Database → Prop := Relation.ReflTransGen StoreStep

lemma Stores.grows {db db₁ : Database} (h : Stores db db₁) : Grows db db₁ := by
  induction h with
  | refl => exact Grows.refl db
  | tail _ step ih =>
    obtain ⟨stamp, hq, new⟩ := step
    exact ih.trans (ensure_grows hq new stamp)

section
variable {link : Link} {s s' : Session} {sTable sCheckColumn sCheckValue sInsertColumn sInsertValue : List UInt8}
  {bMore : Bool} {q : Insert} {c : String}

/-- An `INSERT` is done or throws. -/
lemma query_insert_cases {statement : List UInt8} {r : Except Exn Unit} (hp : parse statement = some (.insert q))
    (h : query link statement s = (r, s')) :
    (∃ id, q.run schema s.db link.stamp = some (id, s'.db)) ∨ s'.db = s.db := by
  unfold query send at h
  cases e : link.fault s.sent with
  | none =>
    simp only [e, hp] at h
    cases hr : q.run schema s.db link.stamp with
    | none =>
      rw [hr] at h
      cases h
      exact .inr rfl
    | some x =>
      rw [hr] at h
      cases h
      exact .inl ⟨x.1, rfl⟩
  | refuse =>
    rw [e] at h
    cases h
    exact .inr rfl
  | throw =>
    rw [e] at h
    cases h
    exact .inr rfl

lemma dbContentExists_db {sSelect sFrom sWhere sWhat : List UInt8} {r : Except Exn (List UInt8)}
    (h : dbContentExists link sSelect sFrom sWhere sWhat s = (r, s')) : s'.db = s.db := by
  obtain ⟨e, h1, -⟩ | ⟨o, s1, h1, h2⟩ := bind_cases h
  · exact fetchString_db link h1
  · cases h2
    exact fetchString_db link h1

/-- Check and insert leaves the database as it was, or finds or inserts the row. -/
lemma ChecksAndInserts.cases
    (h : ChecksAndInserts sTable sCheckColumn sCheckValue sInsertColumn sInsertValue bMore q c)
    {r : Except Exn (List UInt8)}
    (run : checkAndInsert link (bytes "id") sTable sCheckColumn sCheckValue sInsertColumn sInsertValue bMore s =
      (r, s')) :
    s'.db = s.db ∨ s'.db = (ensure link.stamp q c (.text sCheckValue) s.db).2 := by
  obtain ⟨e, h1, -⟩ | ⟨r1, s1, h1, h2⟩ := bind_cases run
  · exact .inl (dbContentExists_db h1)
  obtain ⟨hdb1, rfl⟩ := dbContentExists_ok h.table h.column h.value h.hasColumn h1
  cases hf : findRow s.db q.table c (.text sCheckValue) with
  | some row =>
    simp only [hf, Option.map_some, Option.getD_some, ne_eq, to_string_ne_nil, not_false_eq_true, if_true] at h2
    cases h2
    exact .inl hdb1
  | none =>
    simp only [hf, Option.map_none, Option.getD_none, ne_eq, not_true_eq_false, if_false] at h2
    have inserted : ∀ {r : Except Exn Unit} {s2 : Session},
        dbSaveContent link sTable sInsertColumn sInsertValue bMore s1 = (r, s2) →
          s2.db = s.db ∨ s2.db = (ensure link.stamp q c (.text sCheckValue) s.db).2 := by
      intro r s2 h3
      obtain ⟨id, hrun⟩ | hdb := query_insert_cases h.parse h3
      · have heq := Insert.run_eq hrun
        rw [hdb1] at heq
        refine .inr ?_
        rw [ensure, hf]
        exact congrArg Prod.snd heq
      · exact .inl (hdb.trans hdb1)
    obtain ⟨e, h3, -⟩ | ⟨u, s2, h3, h4⟩ := bind_cases h2
    · exact inserted h3
    · rw [dbContentExists_db h4]
      exact inserted h3

/-- What any end of check and insert has done, as far as its row keeps to the schema. -/
lemma ChecksAndInserts.stores
    (h : ChecksAndInserts sTable sCheckColumn sCheckValue sInsertColumn sInsertValue bMore q c)
    (new : ∀ r : Row, q.columns.map r.get = q.values → Promises s.db q.table r) {r : Except Exn (List UInt8)}
    (run : checkAndInsert link (bytes "id") sTable sCheckColumn sCheckValue sInsertColumn sInsertValue bMore s =
      (r, s')) : Stores s.db s'.db := by
  obtain hdb | hdb := h.cases run
  · rw [hdb]
  · rw [hdb]
    exact .single (.ensure link.stamp h.storable new)

lemma interfaceIds_stores {names : List (List UInt8)} (hn : ∀ i ∈ names, Sql.Plain i)
    {r : Except Exn (List (List UInt8))} (run : interfaceIds link names s = (r, s')) : Stores s.db s'.db := by
  induction names generalizing s s' r with
  | nil =>
    cases run
    exact .refl
  | cons name names ih =>
    have first : ∀ {r : Except Exn (List UInt8)} {s1 : Session}, checkAndInsertValue link (bytes "id")
        (bytes "service_interface") (bytes "interface_name") name s = (r, s1) → Stores s.db s1.db :=
      (checks_interface (hn name (by simp))).stores fun _ h => promises_interface s.db h
    obtain ⟨e, h1, -⟩ | ⟨r1, s1, h1, run⟩ := bind_cases run
    · exact first h1
    have rest : ∀ {r : Except Exn (List (List UInt8))} {s2 : Session}, interfaceIds link names s1 = (r, s2) →
        Stores s1.db s2.db := ih fun i hi => hn i (by simp [hi])
    obtain ⟨e, h2, -⟩ | ⟨rs, s2, h2, run⟩ := bind_cases run
    · exact (first h1).trans (rest h2)
    · cases run
      exact (first h1).trans (rest h2)

lemma saveConnections_stores {x : Row} {ids : List Nat} (hx : x ∈ (s.db "service_registry").rows)
    (hids : ∀ i ∈ ids, ∃ y ∈ (s.db "service_interface").rows, y.id = i) {r : Except Exn Unit}
    (run : saveConnections link (to_string x.id) (ids.map fun i : Nat => to_string i) s = (r, s')) :
    Stores s.db s'.db := by
  induction ids generalizing s with
  | nil =>
    cases run
    exact .refl
  | cons i ids ih =>
    obtain ⟨y, hy, rfl⟩ := hids i (by simp)
    have new := fun (c : Row) h => promises_connection (c := c) s.db hx hy h
    obtain ⟨e, h1, -⟩ | ⟨r1, s1, h1, run⟩ := bind_cases run
    · exact (checks_connection x.id y.id).stores new h1
    · have first := (checks_connection x.id y.id).stores new h1
      have ext := first.grows.ext
      refine first.trans (ih (ext.mem hx) (fun i hi => ?_) run)
      obtain ⟨y, hy, e⟩ := hids i (by simp [hi])
      exact ⟨y, ext.mem hy, e⟩

/-- However the statements of a registration end, they have taken some steps. -/
theorem saveEntry_stores {e : ServiceRegistryEntry} (he : e.Plain)
    {r : Except Exn (List UInt8 × List UInt8 × List (List UInt8) × List UInt8)}
    (run : saveEntry link e s = (r, s')) : Stores s.db s'.db := by
  -- the definition
  have step1 : ∀ {r : Except Exn (List UInt8)} {s1 : Session}, checkAndInsertValue link (bytes "id")
      (bytes "service_definition") (bytes "service_definition") e.sServiceDefinition s = (r, s1) →
        Stores s.db s1.db := (checks_definition he.definition).stores fun _ h => promises_definition s.db h
  obtain ⟨_, h1, -⟩ | ⟨r1, s1, h1, run⟩ := bind_cases run
  · exact step1 h1
  have stores1 := step1 h1
  obtain ⟨d, rfl, hd⟩ := (checks_definition he.definition).ok h1
  obtain ⟨dr, hdr, hdf⟩ := storeDefinition_spec link.stamp s.db e.sServiceDefinition
  rw [storeDefinition, ← hd] at hdr hdf
  subst hdr
  -- the provider
  have checks2 := checks_system e.port he.systemName he.address he.authInfo
  obtain ⟨_, h2, -⟩ | ⟨r2, s2, h2, run⟩ := bind_cases run
  · exact stores1.trans (checks2.stores (fun _ h => promises_system s1.db h) h2)
  have stores2 := checks2.stores (fun _ h => promises_system s1.db h) h2
  obtain ⟨p, rfl, hp⟩ := checks2.ok h2
  obtain ⟨pr, hpr, hpf, -⟩ := storeSystem_spec link.stamp s1.db e.sProviderSystem_SystemName
    e.sProviderSystem_Address e.port e.sProviderSystem_AuthInfo
  rw [storeSystem, ← hp] at hpr hpf
  subst hpr
  -- the interfaces
  obtain ⟨_, h3, -⟩ | ⟨r3, s3, h3, run⟩ := bind_cases run
  · exact stores1.trans (stores2.trans (interfaceIds_stores he.interfaces h3))
  have stores3 := interfaceIds_stores he.interfaces h3
  obtain ⟨ids, rfl, hids⟩ := interfaceIds_ok he.interfaces h3
  obtain ⟨-, each, -⟩ := storeInterfaces_spec link.stamp s2.db e.vInterfaces
  rw [← hids] at each
  -- the entry
  have hd3 : dr ∈ (s3.db "service_definition").rows :=
    stores3.grows.ext.mem (stores2.grows.ext.mem (findRow_mem hdf).1)
  have hp3 : pr ∈ (s3.db "system_").rows := stores3.grows.ext.mem (findRow_mem hpf).1
  have checks4 := checks_entry he dr.id pr.id
  obtain ⟨_, h4, -⟩ | ⟨r4, s4, h4, run⟩ := bind_cases run
  · exact stores1.trans (stores2.trans (stores3.trans (checks4.stores (fun _ h => promises_entry s3.db hd3 hp3 h) h4)))
  have stores4 := checks4.stores (fun _ h => promises_entry s3.db hd3 hp3 h) h4
  obtain ⟨x, rfl, hx⟩ := checks4.ok h4
  obtain ⟨xr, hxr, hxf, -⟩ := storeRow_spec link.stamp s3.db e dr.id pr.id
  rw [storeRow, ← hx] at hxr hxf
  subst hxr
  -- the connections
  have known : ∀ i ∈ ids, ∃ y ∈ (s4.db "service_interface").rows, y.id = i := by
    intro i hi
    obtain ⟨name, -, y, hy, rfl⟩ := forall₂_exists_left each hi
    exact ⟨y, stores4.grows.ext.mem (findRow_mem hy).1, rfl⟩
  have stores := stores1.trans (stores2.trans (stores3.trans stores4))
  obtain ⟨_, h5, -⟩ | ⟨r5, s5, h5, run⟩ := bind_cases run
  · exact stores.trans (saveConnections_stores (findRow_mem hxf).1 known h5)
  · cases run
    exact stores.trans (saveConnections_stores (findRow_mem hxf).1 known h5)

/-! ## The rest of a registration reads -/

/-- The database stays as it is. -/
def Reads {α : Type} (m : DbM α) : Prop := ∀ s, (m s).2.db = s.db

lemma Reads.pure {α : Type} (a : α) : Reads (pure a : DbM α) := fun _ => rfl

lemma Reads.bind {α β : Type} {m : DbM α} {f : α → DbM β} (hm : Reads m) (hf : ∀ a, Reads (f a)) :
    Reads (m >>= f) := by
  intro s
  have h1 := hm s
  cases e : m s with
  | mk x s1 =>
    rw [e] at h1
    cases x with
    | ok a =>
      rw [bind_of_ok e]
      exact (hf a s1).trans h1
    | error x =>
      rw [bind_of_error e]
      exact h1

lemma fetchById_reads (sTable sID : List UInt8) : Reads (fetchById link sTable sID) := by
  refine Reads.bind (fun s => ?_) fun _ => Reads.pure _
  exact select_db link rfl

lemma readInterfaces_reads : ∀ ids : List (List UInt8), Reads (readInterfaces link ids)
  | [] => Reads.pure _
  | id :: ids => by
    refine Reads.bind (fetchById_reads _ _) fun o => ?_
    cases o with
    | none => exact Reads.pure _
    | some row => exact (readInterfaces_reads ids).bind fun _ => Reads.pure _

lemma processDB_stores {e : ServiceRegistryEntry} (he : e.Plain) {r : Except Exn (Except Nat ServiceQueryData)}
    (run : processDB link e s = (r, s')) : Stores s.db s'.db := by
  obtain ⟨_, h1, -⟩ | ⟨⟨k1, k2, k3, k4⟩, s1, h1, run⟩ := bind_cases run
  · exact saveEntry_stores he h1
  · have hdb : s'.db = s1.db := by
      refine (congrArg (fun x => x.2.db) run).symm.trans ?_
      refine Reads.bind (fetchById_reads _ k1) (fun d => ?_) s1
      cases d with
      | none => exact Reads.pure _
      | some d =>
        refine Reads.bind (fetchById_reads _ k2) fun p => ?_
        cases p with
        | none => exact Reads.pure _
        | some p =>
          refine Reads.bind (readInterfaces_reads k3) fun is => ?_
          cases is with
          | none => exact Reads.pure _
          | some is =>
            refine Reads.bind (fetchById_reads _ k4) fun x => ?_
            cases x <;> exact Reads.pure _
    rw [hdb]
    exact saveEntry_stores he h1

/-- However a registration of plain texts ends, it has taken some steps. -/
theorem processRegister_stores {root : Option JsonValue} (plain : ∀ v e, root = some v → Accepts v e → e.Plain)
    (errURL : String) (s : Session) : Stores s.db (processRegister link root errURL s).2.db := by
  generalize run : processRegister link root errURL s = x
  obtain ⟨r, s'⟩ := x
  show Stores s.db s'.db
  cases root with
  | none =>
    cases run
    exact .refl
  | some root =>
    unfold processRegister withPayload at run
    cases hv : (validRegistryEntry root).run with
    | none =>
      simp only [hv] at run
      cases run
      exact .refl
    | some v =>
      cases v with
      | error f =>
        simp only [hv] at run
        cases ha : validAnswers errURL f <;> (rw [ha] at run; cases run; exact .refl)
      | ok u =>
        cases hp : (parseRegistryEntry root).run with
        | none =>
          simp only [hv, hp] at run
          cases run
          exact .refl
        | some v =>
          cases v with
          | error f =>
            simp only [hv, hp] at run
            cases ha : parseAnswers errURL f <;> (rw [ha] at run; cases run; exact .refl)
          | ok e =>
            have he : e.Plain := plain root e rfl ⟨hv, hp⟩
            simp only [hv, hp] at run
            obtain ⟨_, h1, -⟩ | ⟨d, s1, h1, run⟩ := bind_cases run
            · exact processDB_stores he h1
            · cases d with
              | ok d =>
                cases run
                exact processDB_stores he h1
              | error n =>
                cases ha : storeAnswers errURL n <;>
                  (simp only [ha] at run; cases run; exact processDB_stores he h1)

end

/-! ## Removing entries -/

/-- Rows are only taken away, and keys stay assigned. -/
def Shrinks (db db₁ : Database) : Prop := ∀ t, ((db₁ t).rows.Sublist (db t).rows) ∧ (db₁ t).lastId = (db t).lastId

lemma Shrinks.refl (db : Database) : Shrinks db db := fun _ => ⟨List.Sublist.refl _, rfl⟩

lemma Shrinks.trans {db db₁ db₂ : Database} (h : Shrinks db db₁) (h' : Shrinks db₁ db₂) : Shrinks db db₂ :=
  fun t => ⟨(h' t).1.trans (h t).1, (h' t).2.trans (h t).2⟩

lemma removeRows_shrinks (t : String) (p : Row → Bool) (db : Database) : Shrinks db (removeRows t p db) := by
  intro u
  rcases eq_or_ne u t with rfl | hu
  · rw [removeRows_self]
    exact ⟨List.filter_sublist, by simp [removeRows, Table.keep]⟩
  · rw [removeRows_other hu]
    exact ⟨List.Sublist.refl _, rfl⟩

section
variable {link : Link} {s s' : Session}

lemma processUnregister_shrinks {definition name address port : List UInt8}
    (plain : PlainPair definition name address port) {r : Except Exn (Except ErrorResp Unit)}
    (run : (processUnregister definition name address port).run link s = (r, s')) : Shrinks s.db s'.db := by
  obtain ⟨-, hdb⟩ | ⟨-, d, p, x, -, ⟨-, hdb⟩ | ⟨-, hdb⟩⟩ := processUnregister_cases plain run
  · rw [hdb]
    exact Shrinks.refl _
  · rw [hdb]
    exact removeRows_shrinks _ _ _
  · rw [hdb]
    exact (removeRows_shrinks _ _ _).trans (removeRows_shrinks _ _ _)

lemma deleteById_shrinks {sTable : List UInt8} {t errURL : String} (ht : IsName sTable t)
    (hc : hasColumn schema t "id") {id : Int} {r : Except Exn (Except ErrorResp Unit)}
    (run : (deleteById sTable errURL id).run link s = (r, s')) : Shrinks s.db s'.db := by
  unfold deleteById at run
  split at run
  · cases run
    exact Shrinks.refl _
  · rw [Program.run_bind, Program.run_query] at run
    have shrinks : ∀ {r : Except Exn Unit} {s1 : Session}, query link (bytes "DELETE FROM " ++ (sTable ++
        (bytes " WHERE id = '" ++ (to_string id ++ bytes "';")))) s = (r, s1) → Shrinks s.db s1.db := by
      intro r s1 h1
      obtain ⟨-, hdb⟩ | ⟨-, -, hdb⟩ := query_delete_cases (parse_deleteById ht (plain_to_string id))
        (deleteWhere_run hc (to_string id)) h1
      · rw [hdb]
        exact removeRows_shrinks _ _ _
      · rw [hdb]
        exact Shrinks.refl _
    obtain ⟨_, h1, -⟩ | ⟨u, s1, h1, run⟩ := bind_cases run
    · exact shrinks h1
    · cases run
      exact shrinks h1

end

/-! ## What stays of the schema -/

/-- Text columns hold no numbers, ports are no texts, and foreign keys are keys that were assigned, though their rows
    may be gone. -/
structure Typed (db : Database) : Prop where
  texts : ∀ k ∈ textColumns, ∀ r ∈ (db k.1).rows, ∀ z, r.get k.2 ≠ .int z
  ports : ∀ r ∈ (db "system_").rows, ∀ s, r.get "port" ≠ .text s
  keys : ∀ k ∈ foreignKeys, ∀ r ∈ (db k.1).rows, ∃ n : Nat, n ≤ (db k.2.2).lastId ∧ r.get k.2.1 = .int n

lemma Consistent.typed {db : Database} (h : Consistent db) : Typed db where
  texts := h.texts
  ports := h.ports
  keys := by
    intro k hk r hr
    obtain ⟨x, hx, e⟩ := h.keys k hk r hr
    exact ⟨x.id, (db k.2.2).assigned x hx, e⟩

lemma Typed.shrinks {db db₁ : Database} (h : Typed db) (hs : Shrinks db db₁) : Typed db₁ where
  texts := fun k hk r hr => h.texts k hk r ((hs k.1).1.subset hr)
  ports := fun r hr => h.ports r ((hs "system_").1.subset hr)
  keys := by
    intro k hk r hr
    rw [(hs k.2.2).2]
    exact h.keys k hk r ((hs k.1).1.subset hr)

lemma Typed.append {db : Database} (h : Typed db) {t : String} {r : Row} (hr : r.id = (db t).lastId + 1)
    (new : Promises db t r) : Typed (Function.update db t ((db t).append r.cells)) := by
  have mem := fun u x hx => mem_append_row (u := u) (x := x) hr hx
  have last : ∀ u, (db u).lastId ≤ (Function.update db t ((db t).append r.cells) u).lastId := by
    intro u
    rcases eq_or_ne u t with rfl | hu
    · rw [Function.update_self]
      exact Nat.le_succ _
    · rw [Function.update_of_ne hu]
  refine ⟨fun k hk x hx z => ?_, fun x hx s => ?_, fun k hk x hx => ?_⟩
  · obtain hx | ⟨e, rfl⟩ := mem _ x hx
    · exact h.texts k hk x hx z
    · exact new.texts k hk e z
  · obtain hx | ⟨e, rfl⟩ := mem _ x hx
    · exact h.ports x hx s
    · exact new.ports e.symm s
  · obtain hx | ⟨e, rfl⟩ := mem _ x hx
    · obtain ⟨n, hn, e⟩ := h.keys k hk x hx
      exact ⟨n, hn.trans (last _), e⟩
    · obtain ⟨y, hy, e⟩ := new.keys k hk e
      exact ⟨y.id, ((db k.2.2).assigned y hy).trans (last _), e⟩

lemma Typed.stores {db db₁ : Database} (h : Typed db) (hs : Stores db db₁) : Typed db₁ := by
  induction hs with
  | refl => exact h
  | tail _ step ih =>
    obtain ⟨stamp, hq, new⟩ := step
    obtain ⟨r, -, -, ⟨-, e⟩ | ⟨-, hid, hvals, -, e⟩⟩ := ensure_spec hq stamp _
    · rw [e]
      exact ih
    · rw [e]
      exact ih.append hid (new r hvals)

/-! ## Runs -/

/-- The requests that add or remove entries. -/
inductive Request where
  | register (root : Option JsonValue) (errURL : String)
  | unregister (definition name address port : List UInt8)
  | deleteSystem (id : Int)
  | deleteService (id : Int)
  | deleteEntry (id : Int)

/-- The session behind the request, however it ends. -/
def Request.after (link : Link) (s : Session) : Request → Session
  | .register root errURL => (processRegister link root errURL s).2
  | .unregister definition name address port => ((processUnregister definition name address port).run link s).2
  | .deleteSystem id => ((processMgmtDeleteSystemsId id).run link s).2
  | .deleteService id => ((processMgmtDeleteServicesId id).run link s).2
  | .deleteEntry id => ((processMgmtDeleteId id).run link s).2

/-- A request over some connection, with any failures. -/
def Handles (db : Database) (q : Request) (db₁ : Database) : Prop :=
  ∃ link n, db₁ = (q.after link ⟨db, none, n⟩).db

/-- The texts that the request splices into its statements stand for themselves. -/
def Request.Plain : Request → Prop
  | .register root _ => ∀ v e, root = some v → Accepts v e → e.Plain
  | .unregister definition name address port => PlainPair definition name address port
  | .deleteSystem _ | .deleteService _ | .deleteEntry _ => True

def Request.isRegister : Request → Prop
  | .register _ _ => True
  | _ => False

section
variable {db db₁ : Database} {q : Request}

/-- What one request of plain texts can do. -/
lemma handles_cases (plain : q.Plain) (h : Handles db q db₁) :
    (q.isRegister ∧ Stores db db₁) ∨ Shrinks db db₁ := by
  obtain ⟨link, n, rfl⟩ := h
  cases q with
  | register root errURL =>
    exact .inl ⟨trivial, processRegister_stores plain errURL ⟨db, none, n⟩⟩
  | unregister definition name address port => exact .inr (processUnregister_shrinks plain rfl)
  | deleteSystem id => exact .inr (deleteById_shrinks (t := "system_") (by decide) (by decide) rfl)
  | deleteService id => exact .inr (deleteById_shrinks (t := "service_definition") (by decide) (by decide) rfl)
  | deleteEntry id => exact .inr (deleteById_shrinks (t := "service_registry") (by decide) (by decide) rfl)

lemma handles_typed (plain : q.Plain) (h : Handles db q db₁) (typed : Typed db) : Typed db₁ := by
  obtain ⟨-, hs⟩ | hs := handles_cases plain h
  · exact typed.stores hs
  · exact typed.shrinks hs

lemma handles_consistent (plain : q.Plain) (hq : q.isRegister) (h : Handles db q db₁) (cons : Consistent db) :
    Consistent db₁ := by
  obtain ⟨link, n, rfl⟩ := h
  cases q with
  | register root errURL =>
    exact (processRegister_stores plain errURL ⟨db, none, n⟩).grows.consistent cons
  | _ => cases hq

end

/-- Runs of requests with plain texts that start with empty tables. -/
def Reachable (qs : List Request) (db : Database) : Prop :=
  Trace (fun db q db₁ => Handles db q db₁ ∧ q.Plain) emptyDatabase qs db

lemma Reachable.typed {qs : List Request} {db : Database} (h : Reachable qs db) : Typed db :=
  h.inv consistent_empty.typed fun typed step => handles_typed step.2 step.1 typed

/-- Registrations keep the foreign keys. -/
lemma Reachable.consistent {qs : List Request} {db : Database} (h : Reachable qs db)
    (registers : ∀ q ∈ qs, q.isRegister) : Consistent db := by
  refine h.inv_labels (I := fun qs db => (∀ q ∈ qs, Request.isRegister q) → Consistent db)
    (fun _ => consistent_empty) ?_ registers
  intro ls t l u ih step all
  refine handles_consistent step.2 (all l (by simp)) step.1 (ih fun q hq => all q ?_)
  exact List.mem_append_left _ hq

end ArrowheadCore.ServiceRegistry
