import ArrowheadCore.ServiceRegistry.Registration

/-!
# The interfaces of registrations

Which interfaces of a payload are connected to the entry when a registration has succeeded. The check in
front of a connection looks at the entry only, so that an entry gets at most one connection in all.
-/

namespace ArrowheadCore.ServiceRegistry
open Lib Lib.Sql Json Db

section
variable {db : Database}

/-- An interface with this name is connected to the entry. -/
def Connected (db : Database) (entry : Nat) (name : List UInt8) : Prop :=
  ∃ i ∈ (db "service_interface").rows, i.get "interface_name" = .text name ∧
    ∃ c ∈ (db "service_registry_interface_connection").rows,
      c.get "service_registry_id" = .int entry ∧ c.get "interface_id" = .int i.id

def HasConnection (db : Database) (entry : Nat) : Prop :=
  ∃ c ∈ (db "service_registry_interface_connection").rows, c.get "service_registry_id" = .int entry

lemma same_key (z : Int) (n : Nat) : (Value.int z).same (.text (to_string n)) ↔ z = n := by
  simp [Value.same, leadingInt_to_string]

/-- The check for connections, as far as foreign keys are numbers. -/
lemma Consistent.findConnection (h : Consistent db) (entry : Nat) :
    (findRow db "service_registry_interface_connection" "service_registry_id" (.text (to_string entry))).isSome ↔
      HasConnection db entry := by
  rw [findRow, List.find?_isSome]
  refine exists_congr fun c => and_congr_right fun hc => ?_
  obtain ⟨x, -, hx⟩ := h.keys ("service_registry_interface_connection", "service_registry_id", "service_registry")
    (by simp [foreignKeys]) c hc
  dsimp only at hx
  rw [hx, same_key]
  simp

lemma Consistent.keyColumns (h : Consistent db) : KeyColumns db := by
  refine ⟨fun c hc => ?_, fun r hr => ?_⟩
  · obtain ⟨x, -, hx⟩ := h.keys ("service_registry_interface_connection", "interface_id", "service_interface")
      (by simp [foreignKeys]) c hc
    exact ⟨x.id, hx⟩
  · obtain ⟨x, -, hx⟩ := h.keys ("service_registry", "system_id", "system_") (by simp [foreignKeys]) r hr
    exact ⟨x.id, hx⟩

end

/-! ## The claim about a response -/

/-- What a response promises: every interface of the payload is connected to the entry, and every query that
    lists the entry lists the interfaces of the response. -/
structure StoresInterfaces (e : ServiceRegistryEntry) (d : ServiceQueryData) (db : Database) : Prop where
  connected : ∃ entry : Nat, d.sId = to_string entry ∧ ∀ name ∈ e.vInterfaces, Connected db entry name
  listed : ∀ (link : Link) (definition : List UInt8) (s s' : Session) (qs : List ServiceQueryData),
    (∀ n, link.fault n = .none) → Plain definition → s.db = db →
    fillQueryList link definition s = (.ok (.ok qs), s') → ∀ q ∈ qs, q.sId = d.sId →
      ∀ i ∈ d.vInterfaces, ∃ j ∈ q.vInterfaces, j.interfaceName = i.interfaceName

/-- The entry of the payload's URI has connections, and to all of its interfaces; or it has none (or does not
    exist yet), and the payload names one interface only. -/
def InterfacesFit (db : Database) (e : ServiceRegistryEntry) : Prop :=
  (∃ r, findRow db "service_registry" "service_uri" (.text e.sServiceUri) = some r ∧ HasConnection db r.id ∧
    ∀ name ∈ e.vInterfaces, Connected db r.id name) ∨
  (∀ r, findRow db "service_registry" "service_uri" (.text e.sServiceUri) = some r → ¬HasConnection db r.id) ∧
    ∀ a ∈ e.vInterfaces, ∀ b ∈ e.vInterfaces, a = b

section
variable {db db₁ : Database} {e : ServiceRegistryEntry} {k : Keys} {d p r : Row}

/-- Rows of a consistent database refer to rows of it, so that no later row can stand in their place. -/
lemma Connected.before (h : Consistent db) (ext : Extends db db₁)
    (same : (db₁ "service_registry_interface_connection").rows = (db "service_registry_interface_connection").rows)
    {entry : Nat} {name : List UInt8} : Connected db₁ entry name ↔ Connected db entry name := by
  constructor
  · rintro ⟨i, hi, hname, c, hc, h1, h2⟩
    rw [same] at hc
    obtain ⟨x, hx, hkey⟩ := h.keys ("service_registry_interface_connection", "interface_id", "service_interface")
      (by simp [foreignKeys]) c hc
    dsimp only at hx hkey
    have hid : x.id = i.id := by
      rw [hkey] at h2
      simpa using h2
    have e : x = i := (db₁ "service_interface").row_unique (ext.mem hx) hi hid
    subst e
    exact ⟨x, hx, hname, c, hc, h1, h2⟩
  · rintro ⟨i, hi, hname, c, hc, h1, h2⟩
    exact ⟨i, ext.mem hi, hname, c, ext.mem hc, h1, h2⟩

/-- An entry with connections is an old one. -/
lemma Stored.old (h : Consistent db) (st : Stored db e k db₁ d p r) (hc : HasConnection db r.id) :
    findRow db "service_registry" "service_uri" (.text e.sServiceUri) = some r := by
  obtain ⟨hold, -⟩ | ⟨-, -, hid, -⟩ := st.newEntry
  · exact hold
  · obtain ⟨c, hc, hkey⟩ := hc
    obtain ⟨x, hx, hx'⟩ := h.keys ("service_registry_interface_connection", "service_registry_id",
      "service_registry") (by simp [foreignKeys]) c hc
    dsimp only at hx hx'
    have e : x.id = r.id := by
      rw [hx'] at hkey
      simpa using hkey
    have := (db "service_registry").assigned x hx
    omega

/-- The entry found before is the one found behind. -/
lemma Stored.found_eq (st : Stored db e k db₁ d p r) {r' : Row}
    (h : findRow db "service_registry" "service_uri" (.text e.sServiceUri) = some r') : r' = r :=
  Option.some.inj ((st.grows.ext.findRow h).symm.trans st.entry)

/-- Behind the registration of an entry without connections, the first interface is the only one connected. -/
lemma Stored.first_only (h : Consistent db) (st : Stored db e k db₁ d p r)
    (hnone : ¬HasConnection db r.id) {c : Row} {i : Nat} {is : List Nat} (hk : k.interfaces = i :: is)
    (rows : (db₁ "service_registry_interface_connection").rows =
      (db "service_registry_interface_connection").rows ++ [c])
    (h1 : c.get "service_registry_id" = .int r.id) (h2 : c.get "interface_id" = .int i) :
    ∃ n ns, e.vInterfaces = n :: ns ∧ ∀ name, Connected db₁ r.id name ↔ name = n := by
  have hdb' := st.grows.consistent h
  have each := st.interfaces
  rw [hk] at each
  obtain ⟨n, ns, ⟨x, hx, rfl⟩, -, hnames⟩ := List.forall₂_cons_right_iff.1 each
  have hxname : x.get "interface_name" = .text n := hdb'.found (by simp [textColumns]) hx
  refine ⟨n, ns, hnames, fun name => ⟨?_, ?_⟩⟩
  · rintro ⟨y, hy, hyname, c', hc', h1', h2'⟩
    rw [rows, List.mem_append, List.mem_singleton] at hc'
    obtain hc' | rfl := hc'
    · exact absurd ⟨c', hc', h1'⟩ hnone
    · have hid : y.id = x.id := by
        rw [h2] at h2'
        simpa using h2'.symm
      have e : y = x := (db₁ "service_interface").row_unique hy (findRow_mem hx).1 hid
      rw [e, hxname] at hyname
      simpa using hyname.symm
  · rintro rfl
    refine ⟨x, (findRow_mem hx).1, hxname, c, ?_, h1, h2⟩
    rw [rows]
    simp

/-- All interfaces are connected exactly when the payload fits to the connections of the entry. -/
lemma Stored.connected_iff (h : Consistent db) (st : Stored db e k db₁ d p r) :
    (∀ name ∈ e.vInterfaces, Connected db₁ r.id name) ↔ InterfacesFit db e := by
  obtain ⟨rows, hids⟩ | ⟨c, i, is, hk, hnone, rows, h1, h2⟩ := st.connections
  · have same : ∀ name, Connected db₁ r.id name ↔ Connected db r.id name :=
      fun name => Connected.before h st.grows.ext rows
    simp only [same]
    constructor
    · intro all
      by_cases hc : HasConnection db r.id
      · exact .inl ⟨r, st.old h hc, hc, all⟩
      · have none_ : e.vInterfaces = [] := by
          obtain hids | hids := hids
          · have each := st.interfaces
            rw [hids] at each
            exact List.forall₂_nil_right_iff.1 each
          · exact absurd ((h.findConnection r.id).1 hids) hc
        refine .inr ⟨fun r' hr' => st.found_eq hr' ▸ hc, ?_⟩
        simp [none_]
    · rintro (⟨r', hr', -, all⟩ | ⟨hno, hone⟩)
      · exact st.found_eq hr' ▸ all
      · obtain hids | hids := hids
        · have each := st.interfaces
          rw [hids] at each
          simp [List.forall₂_nil_right_iff.1 each]
        · have hc := (h.findConnection r.id).1 hids
          exact absurd hc (hno r (st.old h hc))
  · have hno : ¬HasConnection db r.id := by
      rw [← h.findConnection, hnone]
      simp
    obtain ⟨n, ns, hnames, only⟩ := st.first_only h hno hk rows h1 h2
    simp only [only]
    constructor
    · intro all
      refine .inr ⟨fun r' hr' => st.found_eq hr' ▸ hno, fun a ha b hb => ?_⟩
      rw [all a ha, all b hb]
    · rintro (⟨r', hr', hc, -⟩ | ⟨-, hone⟩)
      · exact absurd (st.found_eq hr' ▸ hc) hno
      · exact fun name hname => hone name hname n (by simp [hnames])

lemma to_string_inj {m n : Nat} (h : to_string m = to_string n) : m = n := decimal_inj h

/-- The row with a key is found by the text of the key. -/
lemma findRow_id {t : String} {x : Row} (hx : x ∈ (db t).rows) :
    findRow db t "id" (.text (to_string x.id)) = some x := by
  have some_ : (findRow db t "id" (.text (to_string x.id))).isSome := by
    rw [findRow, List.find?_isSome]
    refine ⟨x, hx, ?_⟩
    show (Value.int x.id).same _
    rw [same_key]
  obtain ⟨y, hy⟩ := Option.isSome_iff_exists.1 some_
  obtain ⟨hm, hs⟩ := findRow_mem hy
  have hs : (Value.int y.id).same (.text (to_string x.id)) := hs
  rw [same_key, Nat.cast_inj] at hs
  rw [hy, (db t).row_unique hm hx hs]

/-- A query lists the interfaces that are connected to an entry. -/
lemma Connected.listed {entry : Nat} {name : List UInt8} (hc : Connected db entry name) {sQData q : ServiceQueryData}
    {r : Row} (hr : r.id = entry) (hq : queryEntry db sQData r = .ok q) :
    ∃ j ∈ q.vInterfaces, j.interfaceName = name := by
  obtain ⟨i, hi, hname, c, hc, h1, h2⟩ := hc
  obtain ⟨intfs, p, hm, -, rfl⟩ := queryEntry_ok hq
  have mem : c ∈ rowsWhere db "service_registry_interface_connection" "service_registry_id"
      (.text (textOf r "id")) := by
    rw [textOf_int (c := "id") (n := r.id) rfl]
    refine List.mem_filter.2 ⟨hc, ?_⟩
    rw [h1, same_key, hr]
  obtain ⟨j, hj, hcj⟩ := forall₂_exists_left (mapM_some_mem hm).flip mem
  refine ⟨j, hj, ?_⟩
  rw [interfaceOf, textOf_int h2, findRow_id hi] at hcj
  cases hcj
  show cell (fullRow "service_interface" i) 1 = name
  rw [cell_fullRow (c := "interface_name") rfl]
  simp [textOf, hname, valueText]

lemma Stored.listed (h : Consistent db) (st : Stored db e k db₁ d p r) {a : ServiceQueryData}
    (resp : Responds k db₁ a) (all : ∀ name ∈ e.vInterfaces, Connected db₁ r.id name) {definition : List UInt8}
    {qs : List ServiceQueryData} (hqs : queryList db₁ definition = .ok qs) {q : ServiceQueryData} (hq : q ∈ qs)
    (hid : q.sId = a.sId) {i : Interface} (hi : i ∈ a.vInterfaces) :
    ∃ j ∈ q.vInterfaces, j.interfaceName = i.interfaceName := by
  obtain ⟨_, -, entries⟩ := queryList_ok hqs
  obtain ⟨x, -, hx⟩ := forall₂_exists_left entries hq
  have hxid : x.id = r.id := by
    obtain ⟨intfs, p', -, -, rfl⟩ := queryEntry_ok hx
    have : cell (fullRow "service_registry" x) 0 = to_string r.id := by
      rw [← st.keys.2.2, ← resp.id, ← hid]
      rfl
    rw [cell_fullRow (c := "id") rfl, textOf_int (c := "id") (n := x.id) rfl] at this
    exact to_string_inj this
  -- the interface of the response is one of the payload
  obtain ⟨key, hkey, y, hy, rfl, rfl⟩ := forall₂_exists_left resp.interfaces hi
  obtain ⟨name, hname, z, hz, hzid⟩ := forall₂_exists_left st.interfaces hkey
  have e : z = y := (db₁ "service_interface").row_unique (findRow_mem hz).1 hy hzid
  subst e
  obtain ⟨j, hj, hjname⟩ := (all name hname).listed hxid hx
  refine ⟨j, hj, hjname.trans ?_⟩
  show name = cell (fullRow "service_interface" z) 1
  rw [cell_fullRow (c := "interface_name") rfl]
  simp [textOf, (st.grows.consistent h).found (by simp [textColumns]) hz, valueText]

end

end ArrowheadCore.ServiceRegistry
