import ArrowheadCore.Lib.Windows
import ArrowheadCore.ServiceRegistry.Completeness
import ArrowheadCore.ServiceRegistry.MgmtGet

/-!
# Pages of the listings

The offset of a page is its number and not the number of records before it. So the pages of a listing overlap, and put
together they are the listing if and only if a page has one record or there is one only (`pages_partition_iff`).
-/

namespace ArrowheadCore.ServiceRegistry
open Lib Lib.Sql Json Db

/-! ## What a listing is sorted by -/

/-- The field of a request to sort by. -/
inductive SortField where
  | none | id | createdAt | updatedAt
deriving DecidableEq, Repr

inductive Direction where
  | none | asc | desc
deriving DecidableEq, Repr

def SortField.param : SortField → List UInt8
  | .none => []
  | .id => bytes "id"
  | .createdAt => bytes "createdAt"
  | .updatedAt => bytes "updatedAt"

def Direction.param : Direction → List UInt8
  | .none => []
  | .asc => bytes "ASC"
  | .desc => bytes "DESC"

def SortField.column : SortField → Option String
  | .none => Option.none
  | .id => some "id"
  | .createdAt => some "created_at"
  | .updatedAt => some "updated_at"

/-- The first record may stand before the second. -/
def Before (field : SortField) (direction : Direction) (a b : Row) : Prop :=
  ∀ c, field.column = some c →
    if direction = .desc then (b.get c).le (a.get c) else (a.get c).le (b.get c)

/-- The records of a table in the order of the request, each once. -/
def IsListing (db : Database) (t : String) (field : SortField) (direction : Direction) (ids : List (List UInt8)) :
    Prop :=
  ∃ rows : List Row, rows.Perm (db t).rows ∧ rows.Pairwise (Before field direction) ∧
    ids = rows.map fun r => to_string r.id

/-- The numbers of pages, which are of the type `int`. -/
def pageNumbers : Nat := 2 ^ 31

/-! ## The statement -/

/-- The keys of the order. -/
def orderKeys (field : SortField) (direction : Direction) : List (Expr × Bool) :=
  (field.column.map fun c => (.col none c, decide (direction = .desc))).toList

def orderTokens (field : SortField) (direction : Direction) : List Token :=
  match field.column with
  | Option.none => []
  | some c => [.kw .order, .kw .by, .ident c] ++
      match direction with
      | .none => []
      | .asc => [.kw .asc]
      | .desc => [.kw .desc]

/-- The text of the order. -/
def orderText (field : SortField) (direction : Direction) : List UInt8 :=
  match sortColumn field.param with
  | none => []
  | some sOrder => if direction = .none then sOrder else sOrder ++ (bytes " " ++ direction.param)

lemma orderClause_ok (field : SortField) (direction : Direction) (errURL : String) :
    orderClause field.param direction.param errURL = .ok (orderText field direction) := by
  cases field <;> cases direction <;> rfl

lemma lexes_order (field : SortField) (direction : Direction) :
    Lexes .idle (orderText field direction ++ bytes " LIMIT ") (orderTokens field direction ++ [Token.kw .limit]) .idle := by
  cases field <;> cases direction <;> decide +kernel

lemma delimits_order (field : SortField) (direction : Direction) (s : List UInt8) :
    Delimits (orderText field direction ++ (bytes " LIMIT " ++ s)) := by
  cases field <;> cases direction <;> exact delimits_cons _ (by decide)

/-- The tokens of the page; the first one has no offset. -/
def offsetTokens (page : Nat) : List Token := if page = 0 then [] else [.kw .offset, .number page]

section
variable {sHead sTable : List UInt8} {head : List Token} {t : String}

lemma lex_listStatement (hhead : Lexes .idle sHead head .idle) (ht : IsName sTable t) {page n : Nat} (hn : 0 < n)
    (field : SortField) (direction : Direction) :
    lex ((sHead ++ sTable) ++ (orderText field direction ++ pageClause page n)) =
      some (head ++ (.ident t :: (orderTokens field direction ++ (.kw .limit :: .number n :: offsetTokens page)))) := by
  have hn' : (0 : Int) < n := by exact_mod_cast hn
  rw [pageClause, if_pos hn', List.append_assoc, List.append_assoc]
  by_cases hp : page = 0
  · subst hp
    have l := (lexes_order field direction).append (lexes_decimal n)
    rw [List.append_assoc] at l
    have all := hhead.append (l.name (delimits_order field direction _) ht)
    rw [if_neg (by simp), List.append_nil, show to_string (n : Int) = decimal n from rfl, lex_of_lexes all rfl]
    simp [offsetTokens]
  · have hp' : (0 : Int) < page := by omega
    have l1 : Lexes .idle (bytes " OFFSET ") [.kw .offset] .idle := lexes_bytes (by decide)
    have l2 := (l1.append (lexes_decimal page)).decimal (delimits_cons _ (by decide)) n
    have l := (lexes_order field direction).append l2
    rw [List.append_assoc] at l
    have all := hhead.append (l.name (delimits_order field direction _) ht)
    rw [if_pos hp', show to_string (n : Int) = decimal n from rfl, show to_string (page : Int) = decimal page from rfl,
      lex_of_lexes all rfl]
    simp [offsetTokens, hp]

/-- The two kinds of listings: of all columns, and of the keys. -/
def listColumns : Bool → Option (List Expr)
  | true => none
  | false => some [.col none "id"]

def listSelect (all : Bool) (t : String) (field : SortField) (direction : Direction) : Select :=
  ⟨listColumns all, ⟨t, t⟩, [], none, orderKeys field direction⟩

def headTokens : Bool → List Token
  | true => [.kw .select, .sym .star, .kw .from]
  | false => [.kw .select, .ident "id", .kw .from]

lemma parse_listStatement {all : Bool} (hhead : Lexes .idle sHead (headTokens all) .idle) (ht : IsName sTable t)
    {page n : Nat} (hn : 0 < n) (field : SortField) (direction : Direction) :
    parse ((sHead ++ sTable) ++ (orderText field direction ++ pageClause page n)) =
      some (.page ⟨listSelect all t field direction, n, page⟩) := by
  rw [parse, lex_listStatement hhead ht hn]
  unfold offsetTokens
  split_ifs with hp
  · subst hp
    cases all <;> cases field <;> cases direction <;> rfl
  · cases all <;> cases field <;> cases direction <;> rfl

end

/-! ## The answer -/

/-- The records of a table as the statement sorts them. -/
def sortedRows (db : Database) (t : String) (field : SortField) (direction : Direction) : List Row :=
  (db t).rows.insertionSort fun a b =>
    keysLe schema (orderKeys field direction) [(⟨t, t⟩, a)] [(⟨t, t⟩, b)]

lemma sortedRows_perm (db : Database) (t : String) (field : SortField) (direction : Direction) :
    (sortedRows db t field direction).Perm (db t).rows := List.perm_insertionSort _ _

section
variable {db : Database} {t : String} {field : SortField} {direction : Direction}

lemma sortedRows_nodup : ((sortedRows db t field direction).map Row.id).Nodup := by
  have nodup : ((db t).rows.map Row.id).Nodup := List.pairwise_map.2 ((db t).ordered.imp fun h => Nat.ne_of_lt h)
  exact ((sortedRows_perm db t field direction).map Row.id).nodup_iff.2 nodup

/-- The stamps of a table, which every listing can be sorted by. -/
def Stamped (t : String) : Prop := hasColumn schema t "created_at" ∧ hasColumn schema t "updated_at"

lemma Stamped.column (h : Stamped t) {c : String} (hc : field.column = some c) : hasColumn schema t c := by
  cases field with
  | none => cases hc
  | id =>
    cases hc
    exact (hasColumn_id h.1).2
  | createdAt =>
    cases hc
    exact h.1
  | updatedAt =>
    cases hc
    exact h.2

lemma sortedRows_sorted (h : Stamped t) : (sortedRows db t field direction).Pairwise (Before field direction) := by
  have total : Std.Total fun a b : Row =>
      keysLe schema (orderKeys field direction) [(⟨t, t⟩, a)] [(⟨t, t⟩, b)] = true := ⟨fun _ _ => keysLe_total _ _ _⟩
  have trans : IsTrans Row fun a b : Row =>
      keysLe schema (orderKeys field direction) [(⟨t, t⟩, a)] [(⟨t, t⟩, b)] = true := ⟨fun _ _ _ => keysLe_trans⟩
  refine (List.pairwise_insertionSort _ _).imp fun {a b} hab c hc => ?_
  rw [orderKeys, hc, Option.map_some, Option.toList_some, keysLe_cons, Expr.eval_column (h.column hc),
    Expr.eval_column (h.column hc)] at hab
  simpa using hab.1

/-- What a listing selects of a record. -/
def listRow (all : Bool) (t : String) (r : Row) : List Value := if all then fullRow t r else [.int r.id]

lemma listSelect_run (h : Stamped t) (all : Bool) (db : Database) :
    (listSelect all t field direction).run schema db =
      some ((sortedRows db t field direction).map (listRow all t)) := by
  have bound : (listSelect all t field direction).bound schema := by
    have hk : ∀ c, field.column = some c → hasColumn schema t c := fun c hc => h.column hc
    have hs := hasColumn_id h.1
    have columns : ((listColumns all).getD []).all (Expr.bound schema [⟨t, t⟩]) := by
      cases all <;> simp [listColumns, Expr.bound, hs.2]
    have order : (orderKeys field direction).all (fun k => k.1.bound schema [⟨t, t⟩]) := by
      cases e : field.column with
      | none => simp [orderKeys, e]
      | some c => simp [orderKeys, e, Expr.bound, hk c e]
    simp only [Select.bound, listSelect, Select.sources, List.map_nil, List.all_cons, List.all_nil, hs.1, columns, order]
    rfl
  have sorted : ((db t).rows.map fun r => [((⟨t, t⟩ : Source), r)]).insertionSort
      (fun a b => keysLe schema (orderKeys field direction) a b) =
        (sortedRows db t field direction).map fun r => [(⟨t, t⟩, r)] :=
    (List.map_insertionSort (fun a b : Row => keysLe schema (orderKeys field direction) [(⟨t, t⟩, a)] [(⟨t, t⟩, b)])
      (fun a b : Env => keysLe schema (orderKeys field direction) a b) (fun r => [(⟨t, t⟩, r)]) (db t).rows
      fun _ _ _ _ => Iff.rfl).symm
  have every : (listSelect all t field direction).combine schema db = (db t).rows.map fun r => [(⟨t, t⟩, r)] := rfl
  have whole : ∀ envs : List Env, envs.filter (fun env => (listSelect all t field direction).cond.all
      (Cond.eval schema env)) = envs := fun envs => List.filter_eq_self.2 fun _ _ => rfl
  rw [Select.run, if_pos bound, every, whole]
  rw [show (listSelect all t field direction).order = orderKeys field direction from rfl, sorted, List.map_map]
  refine congrArg some (List.map_congr_left fun r _ => ?_)
  cases all with
  | true =>
    simp [listSelect, listColumns, Select.project, listRow, fullRow]
  | false =>
    show [Expr.eval schema [(⟨t, t⟩, r)] (.col none "id")] = [.int r.id]
    rw [Expr.eval_column (hasColumn_id h.1).2]
    rfl

/-- A page reads a window of the sorted records. -/
lemma listStatement_gives {link : Link} {sHead sTable : List UInt8} {all : Bool} (hlink : ∀ n, link.fault n = .none)
    (hhead : Lexes .idle sHead (headTokens all) .idle) (ht : IsName sTable t) (h : Stamped t) {n : Nat} (hn : 0 < n)
    (page : Nat) (field : SortField) (direction : Direction) (db : Database) :
    Gives db (fetch link ((sHead ++ sTable) ++ (orderText field direction ++ pageClause page n)))
      ((window (sortedRows db t field direction) n page).map (listRow all t)) := by
  refine page_gives link hlink (parse_listStatement hhead ht hn field direction) ?_
  rw [Page.run, listSelect_run h, Option.map_some, ← window_map, window]

end

/-! ## The three listings -/

/-- The keys that a request lists on this database; an error lists none. -/
def listedKeys {α : Type} (key : α → List UInt8) (m : DbM (Except ErrorResp (List α))) (db : Database) :
    List (List UInt8) :=
  match (m ⟨db, none, 0⟩).1 with
  | .ok (.ok l) => l.map key
  | _ => []

section
variable {α : Type} {key : α → List UInt8} {m : DbM (Except ErrorResp (List α))} {db : Database}

lemma listedKeys_ok {l : List α} (h : Gives db m (.ok l)) : listedKeys key m db = l.map key := by
  obtain ⟨k, e⟩ := h ⟨db, none, 0⟩ rfl
  rw [listedKeys, e]

lemma listedKeys_error (h : ∀ l s', m ⟨db, none, 0⟩ ≠ (.ok (.ok l), s')) : listedKeys key m db = [] := by
  unfold listedKeys
  cases e : m ⟨db, none, 0⟩ with
  | mk r s' =>
    cases r with
    | error x => rfl
    | ok reply =>
      cases reply with
      | error x => rfl
      | ok l => exact absurd e (h l s')

end

/-- The pages of a listing, one after the other. -/
def pages (page : Nat → List (List UInt8)) : List (List UInt8) := (List.range pageNumbers).flatMap page

section
variable {link : Link} {db : Database} {field : SortField} {direction : Direction} {n : Nat}

/-- The keys of the sorted records. -/
def sortedKeys (db : Database) (t : String) (field : SortField) (direction : Direction) : List Nat :=
  (sortedRows db t field direction).map Row.id

lemma pages_windows {keys : List Nat} {page : Nat → List (List UInt8)}
    (h : ∀ p, page p = (window keys n p).map fun k : Nat => to_string k) :
    pages page = (windows keys n pageNumbers).map fun k : Nat => to_string k := by
  rw [funext h, pages, windows, List.map_flatMap]

/-- Pages that are windows of the sorted records are the listing if and only if they do not overlap. -/
lemma isListing_iff {t : String} (h : Stamped t) (hn : 0 < n) {page : Nat → List (List UInt8)}
    (hpage : ∀ p, page p = (window (sortedKeys db t field direction) n p).map fun k : Nat => to_string k) :
    IsListing db t field direction (pages page) ↔
      (db t).rows.length ≤ 1 ∨ n = 1 ∧ (db t).rows.length ≤ pageNumbers := by
  have perm := sortedRows_perm db t field direction
  have nodup : (sortedKeys db t field direction).Nodup := sortedRows_nodup
  have length : (sortedKeys db t field direction).length = (db t).rows.length := by
    rw [sortedKeys, List.length_map, perm.length_eq]
  have many : 2 ≤ pageNumbers := by decide
  rw [pages_windows hpage, ← length]
  constructor
  · rintro ⟨rows, hrows, -, e⟩
    have same : windows (sortedKeys db t field direction) n pageNumbers = rows.map Row.id := by
      refine List.map_injective_iff.2 (fun a b h => to_string_inj h) (e.trans ?_)
      rw [List.map_map]
      rfl
    refine (windows_perm_iff nodup hn many).1 ?_
    rw [same]
    exact (hrows.trans perm.symm).map Row.id
  · intro hw
    refine ⟨_, perm, sortedRows_sorted h, ?_⟩
    rw [windows_eq hn many hw, sortedKeys, List.map_map]
    rfl

lemma listStatement_ok (sSelect : List UInt8) (page n : Int) (field : SortField) (direction : Direction)
    (errURL : String) : listStatement sSelect page n field.param direction.param errURL =
      .ok (sSelect ++ (orderText field direction ++ pageClause page n)) := by
  rw [listStatement, orderClause_ok]
  rfl

lemma stamped_tables : Stamped "service_registry" ∧ Stamped "service_definition" ∧ Stamped "system_" := by
  refine ⟨⟨by decide, by decide⟩, ⟨by decide, by decide⟩, by decide, by decide⟩

lemma lexes_head : Lexes .idle (bytes "SELECT id FROM ") (headTokens false) .idle ∧
    Lexes .idle (bytes "SELECT * FROM ") (headTokens true) .idle :=
  ⟨lexes_bytes (by decide), lexes_bytes (by decide)⟩

lemma cell_key (t : String) (r : Row) : cell (fullRow t r) 0 = to_string r.id := rfl

/-- A row that is read by the text of its key. -/
lemma fetchKey_row {sTable : List UInt8} {t : String} (hlink : ∀ n, link.fault n = .none) (ht : IsName sTable t)
    (hid : hasColumn schema t "id") {r : Row} (hr : r ∈ (db t).rows) :
    ∃ rows, Gives db (fetch link (selectWhere sTable (bytes "id") (to_string r.id))) rows ∧
      rows.head? = some (fullRow t r) := by
  have id_ := isName_id
  refine ⟨_, fetchWhere_gives hlink ht id_ hid (plain_to_string r.id), ?_⟩
  rw [head?_rowsWhere, findRow_id hr]
  rfl

/-! ### Service definitions -/

lemma services_page (hlink : ∀ n, link.fault n = .none) (hn : 0 < n) (page : Nat) :
    listedKeys StServDef.sId ((processMgmtGetServices page n field.param direction.param).run link) db =
      (window (sortedKeys db "service_definition" field direction) n page).map fun k : Nat => to_string k := by
  have name := isName_definition
  have read := listStatement_gives hlink lexes_head.2 name stamped_tables.2.1 hn page field direction db
  have gives : Gives db ((processMgmtGetServices page n field.param direction.param).run link)
      (.ok (((window (sortedRows db "service_definition" field direction) n page).map
        (listRow true "service_definition")).map StServDef.ofRow)) := by
    unfold processMgmtGetServices
    rw [listStatement_ok]
    simp only [Program.run_bind, Program.run_fetch]
    exact read.bind (Gives.pure db _)
  rw [listedKeys_ok gives, sortedKeys, window_map, List.map_map, List.map_map, List.map_map]
  rfl

/-! ### Systems -/

/-- The data of a system in terms of its row. -/
def systemData (r : Row) : StSystem where
  sId := to_string r.id
  sSystemName := textOf r "system_name"
  sAddress := textOf r "address"
  sPort := textOf r "port"
  sAuthInfo := textOf r "authentication_info"
  sCreatedAt := textOf r "created_at"
  sUpdatedAt := textOf r "updated_at"

lemma processSystem_gives (hlink : ∀ n, link.fault n = .none) {r : Row} (hr : r ∈ (db "system_").rows) :
    Gives db ((processSystem (to_string r.id)).run link) (some (systemData r)) := by
  have name := isName_system
  obtain ⟨rows, read, head⟩ := fetchKey_row hlink name (by decide) hr
  have statement : bytes "SELECT * FROM system_ WHERE id = '" =
      bytes "SELECT * FROM " ++ (bytes "system_" ++ (bytes " WHERE " ++ (bytes "id" ++ bytes " = '"))) := by decide +kernel
  rw [selectWhere] at read
  unfold processSystem
  simp only [Program.run_bind, Program.run_fetch, statement, List.append_assoc]
  refine Gives.bind read ?_
  rw [head]
  exact Gives.pure db _

lemma readSystems_gives (hlink : ∀ n, link.fault n = .none) : ∀ {rows : List Row}, (∀ r ∈ rows, r ∈ (db "system_").rows) →
    ∃ ps, Gives db ((readSystems (rows.map (listRow false "system_"))).run link) ps ∧
      ps.map StSystem.sId = rows.map fun r : Row => to_string r.id
  | [], _ => ⟨[], Gives.pure db _, rfl⟩
  | r :: rows, h => by
    have hp := processSystem_gives hlink (h r (by simp))
    obtain ⟨ps, hps, es⟩ := readSystems_gives hlink fun r (hr : r ∈ rows) => h r (by simp [hr])
    refine ⟨systemData r :: ps, ?_, by rw [List.map_cons, List.map_cons, es]; rfl⟩
    rw [List.map_cons]
    unfold readSystems
    simp only [Program.run_bind]
    exact hp.bind (hps.bind (Gives.pure db _))

lemma systems_page (hlink : ∀ n, link.fault n = .none) (hn : 0 < n) (page : Nat) :
    listedKeys StSystem.sId ((processMgmtGetSystems page n field.param direction.param).run link) db =
      (window (sortedKeys db "system_" field direction) n page).map fun k : Nat => to_string k := by
  have name := isName_system
  have read := listStatement_gives hlink lexes_head.1 name stamped_tables.2.2 hn page field direction db
  have keys : (window (sortedKeys db "system_" field direction) n page).map (fun k : Nat => to_string k) =
      (window (sortedRows db "system_" field direction) n page).map fun r : Row => to_string r.id := by
    rw [sortedKeys, window_map, List.map_map]
    rfl
  have stored : ∀ r ∈ window (sortedRows db "system_" field direction) n page, r ∈ (db "system_").rows :=
    fun r hr => (sortedRows_perm db "system_" field direction).subset (mem_of_mem_window hr)
  rw [keys]
  cases e : window (sortedRows db "system_" field direction) n page with
  | nil =>
    rw [e] at read
    have gives : Gives db ((processMgmtGetSystems page n field.param direction.param).run link)
        (.error (invalidParameter "Empty response from system_ table" "serviceregistry/mgmt/systems")) := by
      unfold processMgmtGetSystems
      rw [listStatement_ok]
      simp only [Program.run_bind, Program.run_fetch]
      exact read.bind (Gives.pure db _)
    refine listedKeys_error fun l s' run => ?_
    obtain ⟨k, e⟩ := gives ⟨db, none, 0⟩ rfl
    rw [e] at run
    cases run
  | cons r rows =>
    rw [e] at read stored
    obtain ⟨ps, hps, es⟩ := readSystems_gives hlink stored
    have gives : Gives db ((processMgmtGetSystems page n field.param direction.param).run link) (.ok ps) := by
      unfold processMgmtGetSystems
      rw [listStatement_ok]
      simp only [Program.run_bind, Program.run_fetch]
      refine read.bind ?_
      simp only [List.map_cons, Program.run_bind]
      exact hps.bind (Gives.pure db _)
    rw [listedKeys_ok gives]
    exact es

/-! ### Registry entries -/

/-- The entry can be listed: its key is an `int`, its definition exists and it is complete. -/
structure Listable (db : Database) (r : Row) : Prop where
  key : r.id < 2 ^ 31
  parts : (∃ d ∈ (db "service_definition").rows, r.get "service_id" = .int d.id) ∧ Complete db r

instance (db : Database) (r : Row) : Decidable (Listable db r) :=
  decidable_of_iff (r.id < 2 ^ 31 ∧ (∃ d ∈ (db "service_definition").rows, r.get "service_id" = .int d.id) ∧
    Complete db r) ⟨fun h => ⟨h.1, h.2⟩, fun h => ⟨h.key, h.parts⟩⟩

lemma findRow_int (db : Database) (t : String) (n : Nat) :
    (∃ x, findRow db t "id" (.int n) = some x) ↔ ∃ x ∈ (db t).rows, x.id = n := by
  rw [← Option.isSome_iff_exists, findRow, List.find?_isSome]
  simp [Sql.Row.get, Value.same]

lemma rowById_gives {sTable : List UInt8} {t : String} (hlink : ∀ n, link.fault n = .none) (ht : IsName sTable t)
    (hid : hasColumn schema t "id") (n : Nat) :
    Gives db ((rowById sTable (to_string n)).run link) ((findRow db t "id" (.int n)).map (fullRow t)) := by
  unfold rowById
  simp only [Program.run_bind, Program.run_fetch]
  refine Gives.bind (select_gives link hlink (parse_fetchById ht n) (select_star_run hid _ _)) ?_
  rw [head?_rowsWhere]
  exact Gives.pure db _

lemma findRow_id_eq {t : String} {n : Nat} {x : Row} (h : findRow db t "id" (.int n) = some x) :
    x ∈ (db t).rows ∧ x.id = n := by
  obtain ⟨hx, same⟩ := findRow_mem h
  have same : (Value.int x.id).same (.int n) := same
  exact ⟨hx, by simpa [Value.same] using same⟩

/-- An interface as it is read by its key. -/
def InterfaceData (db : Database) (i : Nat) (intf : Interface) : Prop :=
  ∃ x ∈ (db "service_interface").rows, x.id = i ∧
    intf = ⟨to_string i, textOf x "interface_name", textOf x "created_at", textOf x "updated_at"⟩

/-- The interfaces are read if all of them exist. -/
lemma interfaceRows_gives (db : Database) (hlink : ∀ n, link.fault n = .none) : ∀ ids : List Nat,
    ∃ o, Gives db ((interfaceRows (ids.map fun i : Nat => to_string i)).run link) o ∧
      (o.isSome ↔ ∀ i ∈ ids, ∃ x ∈ (db "service_interface").rows, x.id = i) ∧
      ∀ intfs, o = some intfs → List.Forall₂ (InterfaceData db) ids intfs
  | [] => ⟨some [], Gives.pure db _, by simp, by rintro _ ⟨⟩; exact .nil⟩
  | i :: ids => by
    have table := isName_interface
    have read : Gives db ((rowById (bytes "service_interface") (to_string i)).run link) _ :=
      rowById_gives hlink table (by decide) i
    obtain ⟨o, ho, hs, data⟩ := interfaceRows_gives db hlink ids
    have found := findRow_int db "service_interface" i
    rw [List.map_cons]
    unfold interfaceRows
    simp only [Program.run_bind]
    cases e : findRow db "service_interface" "id" (.int i) with
    | none =>
      rw [e] at read found
      refine ⟨none, read.bind (Gives.pure db _), ?_, nofun⟩
      have missing : ¬∃ x ∈ (db "service_interface").rows, x.id = i := by
        rw [← found]
        simp
      simp [missing]
    | some x =>
      rw [e] at read found
      let intf : Interface := ⟨to_string i, cell (fullRow "service_interface" x) 1, cell (fullRow "service_interface" x) 2,
        cell (fullRow "service_interface" x) 3⟩
      refine ⟨o.map (intf :: ·), read.bind ?_, ?_, ?_⟩
      · simp only [Option.map_some, Program.run_bind]
        exact ho.bind (Gives.pure db _)
      · have there := found.1 ⟨x, rfl⟩
        rw [Option.isSome_map, hs]
        simp [there]
      · intro intfs h
        obtain ⟨rest, rfl, rfl⟩ := Option.map_eq_some_iff.1 h
        obtain ⟨hx, key⟩ := findRow_id_eq e
        refine .cons ⟨x, hx, key, ?_⟩ (data rest rfl)
        simp only [intf, cell_fullRow (t := "service_interface") (k := 1) (c := "interface_name") rfl,
          cell_fullRow (t := "service_interface") (k := 2) (c := "created_at") rfl,
          cell_fullRow (t := "service_interface") (k := 3) (c := "updated_at") rfl]

/-- The keys of the interfaces of an entry. -/
lemma connections_gives (hlink : ∀ n, link.fault n = .none) (typed : Typed db) (r : Row) :
    ∃ ids : List Nat, Gives db (fetch link (bytes "SELECT interface_id FROM service_registry_interface_connection WHERE " ++
        (bytes "service_registry_id = '" ++ (to_string r.id ++ bytes "';")))) (ids.map fun i : Nat => [.int i]) ∧
      ∀ i, i ∈ ids ↔ ∃ c ∈ (db "service_registry_interface_connection").rows,
        c.get "service_registry_id" = .int r.id ∧ c.get "interface_id" = .int i := by
  have h1 : IsName (bytes "interface_id") "interface_id" := by decide +kernel
  have h2 := isName_connection
  have h3 := isName_entryId
  have head : bytes "SELECT interface_id FROM service_registry_interface_connection WHERE " =
      bytes "SELECT " ++ (bytes "interface_id" ++ (bytes " FROM " ++ (bytes "service_registry_interface_connection" ++
        bytes " WHERE "))) := by decide +kernel
  have column : bytes "service_registry_id = '" = bytes "service_registry_id" ++ bytes " = '" := by decide +kernel
  have bound : Select.bound schema ⟨some [.col none "interface_id"], ⟨"service_registry_interface_connection",
      "service_registry_interface_connection"⟩, [], some (.eq (.col none "service_registry_id")
        (.lit (.text (to_string r.id)))), []⟩ := rfl
  have keys : ∀ c ∈ (db "service_registry_interface_connection").rows, ∃ i : Nat, c.get "interface_id" = .int i :=
    typed.keyColumns.1
  let rows := (db "service_registry_interface_connection").rows.filter (ofEntry r.id)
  let key (c : Row) : Nat := match c.get "interface_id" with | .int z => z.toNat | _ => 0
  have value : ∀ c ∈ (db "service_registry_interface_connection").rows, c.get "interface_id" = .int (key c) := by
    intro c hc
    obtain ⟨i, hi⟩ := keys c hc
    simp [key, hi]
  refine ⟨rows.map key, ?_, fun i => ?_⟩
  · rw [head, column]
    simp only [List.append_assoc]
    refine select_gives link hlink (parse_dbContentExists h1 h2 h3 (plain_to_string r.id)) ?_
    rw [Select.run_table bound, List.map_map]
    refine congrArg some (List.map_congr_left fun c hc => ?_)
    show [c.get "interface_id"] = [.int (key c)]
    rw [value c (List.mem_of_mem_filter hc)]
  · rw [List.mem_map]
    constructor
    · rintro ⟨c, hc, rfl⟩
      obtain ⟨hc, hown⟩ := List.mem_filter.1 hc
      exact ⟨c, hc, (ofEntry_iff typed hc r.id).1 hown, value c hc⟩
    · rintro ⟨c, hc, hown, hi⟩
      refine ⟨c, List.mem_filter.2 ⟨hc, (ofEntry_iff typed hc r.id).2 hown⟩, ?_⟩
      have := (value c hc).symm.trans hi
      simpa using this

lemma exists_bind {α β : Type} {P : β → Prop} {m : DbM α} {f : α → DbM β} {a : α} (hm : Gives db m a)
    (hf : ∃ b, Gives db (f a) b ∧ P b) : ∃ b, Gives db (m >>= f) b ∧ P b := by
  obtain ⟨b, hb, hp⟩ := hf
  exact ⟨b, hm.bind hb, hp⟩

lemma parse_entryById (id : Int) :
    parse (bytes "SELECT * FROM service_registry where id = '" ++ (to_string id ++ bytes "';")) =
      some (.select ⟨none, ⟨"service_registry", "service_registry"⟩, [],
        some (.eq (.col none "id") (.lit (.text (to_string id)))), []⟩) := by
  have l : Lexes .idle (bytes "SELECT * FROM service_registry where id = '") [.kw .select, .sym .star, .kw .from,
      .ident "service_registry", .kw .where, .ident "id", .sym .eq] (.text []) := lexes_bytes (by decide)
  rw [parse, lex_of_lexes (l.append (lexes_text_end (plain_to_string id))) rfl]
  rfl

/-- The data of an entry in terms of its row and of those it refers to. -/
def entryData (r d p : Row) (intfs : List Interface) : ServiceQueryData where
  sId := to_string r.id
  sServiceDefinition_id := to_string d.id
  sServiceDefinition_serviceDefinition := textOf d "service_definition"
  sServiceDefinition_createdAt := textOf d "created_at"
  sServiceDefinition_updatedAt := textOf d "updated_at"
  sProvider_id := to_string p.id
  sProvider_systemName := textOf p "system_name"
  sProvider_address := textOf p "address"
  sProvider_port := textOf p "port"
  sProvider_authenticationInfo := textOf p "authentication_info"
  sProvider_createdAt := textOf p "created_at"
  sProvider_updatedAt := textOf p "updated_at"
  sServiceUri := textOf r "service_uri"
  sEndOfValidity := textOf r "end_of_validity"
  sSecure := textOf r "secure"
  sMetadata := textOf r "metadata"
  sVersion := textOf r "version"
  vInterfaces := intfs
  sCreatedAt := textOf r "created_at"
  sUpdatedAt := textOf r "updated_at"

/-- What an entry refers to. -/
structure EntryParts (db : Database) (r d p : Row) (intfs : List Interface) : Prop where
  definition : d ∈ (db "service_definition").rows ∧ r.get "service_id" = .int d.id
  provider : p ∈ (db "system_").rows ∧ r.get "system_id" = .int p.id
  interfaces : ∃ ids : List Nat, (∀ i, i ∈ ids ↔ ∃ c ∈ (db "service_registry_interface_connection").rows,
    c.get "service_registry_id" = .int r.id ∧ c.get "interface_id" = .int i) ∧
      List.Forall₂ (InterfaceData db) ids intfs

/-- An entry is read if its definition exists and it is complete. -/
lemma processServiceRegistryEntry_gives (hlink : ∀ n, link.fault n = .none) (typed : Typed db) {r : Row}
    (hr : r ∈ (db "service_registry").rows) :
    ∃ result, Gives db ((processServiceRegistryEntry r.id).run link) result ∧
      ((∃ q, result = .ok q) ↔ (∃ d ∈ (db "service_definition").rows, r.get "service_id" = .int d.id) ∧ Complete db r) ∧
      ∀ q, result = .ok q → ∃ d p intfs, EntryParts db r d p intfs ∧ q = entryData r d p intfs := by
  have h2 := isName_definition
  have h3 := isName_system
  obtain ⟨n, -, hn⟩ := typed.key (c := "service_id") (u := "service_definition") (by simp [foreignKeys]) hr
  obtain ⟨m, -, hm⟩ := typed.key (c := "system_id") (u := "system_") (by simp [foreignKeys]) hr
  have c1 : cell (fullRow "service_registry" r) 1 = to_string n := by
    rw [cell_fullRow (c := "service_id") rfl, textOf_int hn]
  have c2 : cell (fullRow "service_registry" r) 2 = to_string m := by
    rw [cell_fullRow (c := "system_id") rfl, textOf_int hm]
  have readEntry : Gives db (fetch link (bytes "SELECT * FROM service_registry where id = '" ++
      (to_string r.id ++ bytes "';"))) ((rowsWhere db "service_registry" "id" (.text (to_string r.id))).map
        (fullRow "service_registry")) :=
    select_gives link hlink (parse_entryById r.id) (select_star_run (by decide +kernel) _ _)
  have readDefinition : Gives db ((rowById (bytes "service_definition") (to_string n)).run link) _ :=
    rowById_gives hlink h2 (by decide) n
  have readSystem : Gives db ((rowById (bytes "system_") (to_string m)).run link) _ :=
    rowById_gives hlink h3 (by decide) m
  obtain ⟨ids, readConnections, hids⟩ := connections_gives hlink typed r
  obtain ⟨o, readInterfaces, ho, data⟩ := interfaceRows_gives db hlink ids
  have definition := findRow_int db "service_definition" n
  have system := findRow_int db "system_" m
  have complete : Complete db r ↔ (∃ p ∈ (db "system_").rows, p.id = m) ∧ ids ≠ [] ∧
      ∀ i ∈ ids, ∃ x ∈ (db "service_interface").rows, x.id = i := by
    constructor
    · rintro ⟨⟨p, hp, e⟩, ⟨c, hc, hown⟩, all⟩
      obtain ⟨i, hi⟩ := typed.keyColumns.1 c hc
      refine ⟨⟨p, hp, by simpa using e.symm.trans hm⟩, List.ne_nil_of_mem ((hids i).2 ⟨c, hc, hown, hi⟩), ?_⟩
      intro i hi
      obtain ⟨c, hc, hown, hi⟩ := (hids i).1 hi
      obtain ⟨x, hx, e⟩ := all c hc hown
      exact ⟨x, hx, by simpa using e.symm.trans hi⟩
    · rintro ⟨⟨p, hp, rfl⟩, hne, all⟩
      obtain ⟨i, hi⟩ := List.exists_mem_of_ne_nil _ hne
      obtain ⟨c, hc, hown, -⟩ := (hids i).1 hi
      refine ⟨⟨p, hp, hm⟩, ⟨c, hc, hown⟩, fun c hc hown => ?_⟩
      obtain ⟨i, hi⟩ := typed.keyColumns.1 c hc
      obtain ⟨x, hx, rfl⟩ := all i ((hids i).2 ⟨c, hc, hown, hi⟩)
      exact ⟨x, hx, hi⟩
  have failed : ∀ {k : Nat} {b : Prop}, ¬b →
      ((∃ q, (Except.error k : Except Nat ServiceQueryData) = .ok q) ↔ b) ∧
        ∀ q, (Except.error k : Except Nat ServiceQueryData) = .ok q →
          ∃ d p intfs, EntryParts db r d p intfs ∧ q = entryData r d p intfs := by
    intro k b hb
    refine ⟨⟨?_, fun h => absurd h hb⟩, ?_⟩
    · rintro ⟨q, h⟩
      cases h
    · rintro q h
      cases h
  rw [complete]
  unfold processServiceRegistryEntry
  simp only [Program.run_bind, Program.run_fetch]
  refine exists_bind readEntry ?_
  rw [head?_rowsWhere, findRow_id hr, Option.map_some]
  simp only [Program.run_bind, c1, c2]
  refine exists_bind readDefinition ?_
  cases hd : findRow db "service_definition" "id" (.int n) with
  | none =>
    refine ⟨_, Gives.pure db _, failed ?_⟩
    rintro ⟨⟨d, hdm, e⟩, -⟩
    obtain ⟨x, hx⟩ := definition.2 ⟨d, hdm, by simpa using e.symm.trans hn⟩
    rw [hd] at hx
    cases hx
  | some d =>
    simp only [Option.map_some, Program.run_bind]
    refine exists_bind readSystem ?_
    cases hp : findRow db "system_" "id" (.int m) with
    | none =>
      refine ⟨_, Gives.pure db _, failed ?_⟩
      rintro ⟨-, there, -⟩
      obtain ⟨x, hx⟩ := system.2 there
      rw [hp] at hx
      cases hx
    | some p =>
      simp only [Option.map_some, Program.run_bind, Program.run_fetch]
      refine exists_bind readConnections ?_
      cases ids with
      | nil => exact ⟨_, Gives.pure db _, failed (by simp)⟩
      | cons i is =>
        simp only [List.map_cons, Program.run_bind]
        have texts : cell [Value.int i] 0 :: (is.map fun i : Nat => [Value.int i]).map (cell · 0) =
            (i :: is).map fun i : Nat => to_string i := by
          rw [List.map_map]
          rfl
        rw [texts]
        refine exists_bind readInterfaces ?_
        cases o with
        | none =>
          refine ⟨_, Gives.pure db _, failed ?_⟩
          rintro ⟨-, -, -, all⟩
          cases ho.2 all
        | some intfs =>
          refine ⟨_, Gives.pure db _, ⟨fun _ => ?_, fun _ => ⟨_, rfl⟩⟩, ?_⟩
          · obtain ⟨x, hx, e⟩ := definition.1 ⟨d, hd⟩
            exact ⟨⟨x, hx, by rw [hn, e]⟩, system.1 ⟨p, hp⟩, by simp, ho.1 rfl⟩
          · rintro q hq
            cases hq
            obtain ⟨hdm, rfl⟩ := findRow_id_eq hd
            obtain ⟨hpm, rfl⟩ := findRow_id_eq hp
            exact ⟨d, p, intfs, ⟨⟨hdm, hn⟩, ⟨hpm, hm⟩, _, hids, data intfs rfl⟩, rfl⟩

/-- A page of entries is read if all of them can be listed. -/
lemma readEntries_gives (hlink : ∀ n, link.fault n = .none) (typed : Typed db) (errURL : String) :
    ∀ {rows : List Row}, (∀ r ∈ rows, r ∈ (db "service_registry").rows ∧ Listable db r) →
      ∃ qs, Gives db ((readEntries errURL (rows.map (listRow false "service_registry"))).run link) (.ok qs) ∧
        qs.map ServiceQueryData.sId = rows.map fun r : Row => to_string r.id
  | [], _ => ⟨[], Gives.pure db _, rfl⟩
  | r :: rows, h => by
    obtain ⟨hr, listable⟩ := h r (by simp)
    obtain ⟨result, read, ok, key⟩ := processServiceRegistryEntry_gives hlink typed hr
    obtain ⟨q, rfl⟩ := ok.2 listable.parts
    obtain ⟨d, p, intfs, -, eq⟩ := key q rfl
    have key : q.sId = to_string r.id := by rw [eq]; rfl
    obtain ⟨qs, hqs, es⟩ := readEntries_gives hlink typed errURL fun r (hr : r ∈ rows) => h r (by simp [hr])
    have number : stoi (cell (listRow false "service_registry" r) 0) = some (r.id : Int) :=
      (stoi_to_string r.id).trans (if_pos listable.key)
    refine ⟨q :: qs, ?_, by rw [List.map_cons, List.map_cons, key, es]⟩
    rw [List.map_cons]
    unfold readEntries
    simp only [number, Program.run_bind]
    refine read.bind ?_
    simp only [Program.run_bind]
    exact hqs.bind (Gives.pure db _)

/-- Otherwise there is no list. -/
lemma readEntries_fails (hlink : ∀ n, link.fault n = .none) (typed : Typed db) (errURL : String) :
    ∀ {rows : List Row}, (∀ r ∈ rows, r ∈ (db "service_registry").rows) → (∃ r ∈ rows, ¬Listable db r) →
      ∀ s, s.db = db → ∀ l s', (readEntries errURL (rows.map (listRow false "service_registry"))).run link s ≠
        (.ok (.ok l), s')
  | [], _, h => by
    obtain ⟨r, hr, -⟩ := h
    cases hr
  | r :: rows, stored, h => by
    intro s hs l s' run
    rw [List.map_cons] at run
    unfold readEntries at run
    have number : stoi (cell (listRow false "service_registry" r) 0) = if r.id < 2 ^ 31 then some (r.id : Int) else none :=
      stoi_to_string r.id
    by_cases hkey : r.id < 2 ^ 31
    · obtain ⟨result, read, ok, -⟩ := processServiceRegistryEntry_gives hlink typed (stored r (by simp))
      obtain ⟨k, e⟩ := read s hs
      simp only [number, if_pos hkey, Program.run_bind] at run
      rw [bind_of_ok e] at run
      cases result with
      | error m => cases run
      | ok q =>
        have hr : Listable db r := ⟨hkey, ok.1 ⟨q, rfl⟩⟩
        have rest : ∃ x ∈ rows, ¬Listable db x := by
          obtain ⟨x, hx, hno⟩ := h
          obtain rfl | hx := List.mem_cons.1 hx
          · exact absurd hr hno
          · exact ⟨x, hx, hno⟩
        have fails := readEntries_fails hlink typed errURL (fun x hx => stored x (by simp [hx])) rest
        simp only [Program.run_bind] at run
        obtain ⟨reply, s1, h1, h2⟩ := bind_eq_ok run
        cases reply with
        | error x => cases h2
        | ok qs => exact fails { s with sent := k } hs qs s1 h1
    · simp only [number, if_neg hkey] at run
      cases run

lemma entries_stored (db : Database) (field : SortField) (direction : Direction) (n page : Nat) :
    ∀ r ∈ window (sortedRows db "service_registry" field direction) n page, r ∈ (db "service_registry").rows :=
  fun _ hr => (sortedRows_perm db "service_registry" field direction).subset (mem_of_mem_window hr)

/-- A page without entries is an error. -/
lemma processMgmtGet_empty (hlink : ∀ n, link.fault n = .none) (hn : 0 < n) {page : Nat}
    (h : window (sortedRows db "service_registry" field direction) n page = []) :
    listedKeys ServiceQueryData.sId ((processMgmtGet page n field.param direction.param).run link) db = [] := by
  have name := isName_registry
  obtain ⟨k, read⟩ := listStatement_gives hlink lexes_head.1 name stamped_tables.1 hn page field direction db
    ⟨db, none, 0⟩ rfl
  rw [h] at read
  refine listedKeys_error fun l s' run => ?_
  unfold processMgmtGet at run
  rw [listStatement_ok] at run
  simp only [Program.run_bind, Program.run_fetch] at run
  cases (bind_of_ok read).symm.trans run

/-- The others read their window of the entries. -/
lemma processMgmtGet_run (hlink : ∀ n, link.fault n = .none) (hn : 0 < n) {page : Nat} {r : Row} {rows : List Row}
    (h : window (sortedRows db "service_registry" field direction) n page = r :: rows) :
    ∃ k, (processMgmtGet page n field.param direction.param).run link ⟨db, none, 0⟩ =
      (readEntries "serviceregistry/mgmt/grouped" ((r :: rows).map (listRow false "service_registry"))).run link
        ⟨db, none, k⟩ := by
  have name := isName_registry
  obtain ⟨k, read⟩ := listStatement_gives hlink lexes_head.1 name stamped_tables.1 hn page field direction db
    ⟨db, none, 0⟩ rfl
  rw [h] at read
  refine ⟨k, ?_⟩
  unfold processMgmtGet
  rw [listStatement_ok]
  simp only [Program.run_bind, Program.run_fetch]
  exact bind_of_ok read

lemma entries_page (hlink : ∀ n, link.fault n = .none) (typed : Typed db) (hn : 0 < n) {page : Nat}
    (all : ∀ r ∈ window (sortedRows db "service_registry" field direction) n page, Listable db r) :
    listedKeys ServiceQueryData.sId ((processMgmtGet page n field.param direction.param).run link) db =
      (window (sortedKeys db "service_registry" field direction) n page).map fun k : Nat => to_string k := by
  have keys : (window (sortedKeys db "service_registry" field direction) n page).map (fun k : Nat => to_string k) =
      (window (sortedRows db "service_registry" field direction) n page).map fun r : Row => to_string r.id := by
    rw [sortedKeys, window_map, List.map_map]
    rfl
  have readable : ∀ r ∈ window (sortedRows db "service_registry" field direction) n page,
      r ∈ (db "service_registry").rows ∧ Listable db r :=
    fun r hr => ⟨entries_stored db field direction n page r hr, all r hr⟩
  rw [keys]
  cases e : window (sortedRows db "service_registry" field direction) n page with
  | nil => exact processMgmtGet_empty hlink hn e
  | cons r rows =>
    rw [e] at readable
    obtain ⟨k, run⟩ := processMgmtGet_run hlink hn e
    obtain ⟨qs, hqs, es⟩ := readEntries_gives hlink typed "serviceregistry/mgmt/grouped" readable
    obtain ⟨k', e'⟩ := hqs ⟨db, none, k⟩ rfl
    rw [listedKeys, run, e']
    exact es

/-- A page with an entry that cannot be listed lists nothing. -/
lemma entries_fails (hlink : ∀ n, link.fault n = .none) (typed : Typed db) (hn : 0 < n) {page : Nat}
    (h : ∃ r ∈ window (sortedRows db "service_registry" field direction) n page, ¬Listable db r) :
    listedKeys ServiceQueryData.sId ((processMgmtGet page n field.param direction.param).run link) db = [] := by
  refine listedKeys_error fun l s' run => ?_
  have stored := entries_stored db field direction n page
  cases e : window (sortedRows db "service_registry" field direction) n page with
  | nil =>
    rw [e] at h
    obtain ⟨r, hr, -⟩ := h
    cases hr
  | cons r rows =>
    rw [e] at h stored
    obtain ⟨k, run'⟩ := processMgmtGet_run hlink hn e
    rw [run'] at run
    exact readEntries_fails hlink typed _ stored h ⟨db, none, k⟩ rfl l s' run

/-- A listing has all entries only if all of them can be listed. -/
lemma entries_listable (hlink : ∀ n, link.fault n = .none) (typed : Typed db) (hn : 0 < n)
    (h : IsListing db "service_registry" field direction (pages fun p => listedKeys ServiceQueryData.sId
      ((processMgmtGet p n field.param direction.param).run link) db)) :
    ∀ r ∈ (db "service_registry").rows, Listable db r := by
  intro r hr
  obtain ⟨rows, perm, -, e⟩ := h
  have mem : to_string r.id ∈ rows.map fun r : Row => to_string r.id :=
    List.mem_map_of_mem (f := fun r : Row => to_string r.id) (perm.mem_iff.2 hr)
  rw [← e, pages, List.mem_flatMap] at mem
  obtain ⟨p, -, hp⟩ := mem
  have all : ∀ x ∈ window (sortedRows db "service_registry" field direction) n p, Listable db x := by
    by_contra hno
    push Not at hno
    rw [entries_fails hlink typed hn hno] at hp
    cases hp
  rw [entries_page hlink typed hn all, List.mem_map] at hp
  obtain ⟨k, hk, e'⟩ := hp
  rw [sortedKeys, window_map, List.mem_map] at hk
  obtain ⟨x, hx, rfl⟩ := hk
  have same : x = r := (db "service_registry").row_unique (entries_stored db field direction n p x hx) hr (to_string_inj e')
  exact same ▸ all x hx

end

end ArrowheadCore.ServiceRegistry
