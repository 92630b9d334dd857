import ArrowheadCore.DevRegistry.Register

/-!
# Rendering entries

Embedding of the responses of `Endpoint::DeviceRegistry` that show entries (`core/apps/DevRegistry/endpoints/DeviceRegistry.h`):
the listing, and `getById`, with which requests to change an entry end. Together with the response of `Register` these are the
places where the members of an entry are matched to the columns of a statement.
-/

namespace ArrowheadCore.DevRegistry
open Lib Lib.Sql Db Json
open Http (Uri QueryString)
open JsonView (objectText)

/-! ## The endpoint -/

/-- What a `SELECT COUNT(*)` counts: the rows of the `SELECT *` behind it. -/
def parseCount (s : List UInt8) : Option Select := do
  match ← lex s with
  | .kw .select :: .ident "COUNT" :: .sym .lparen :: .sym .star :: .sym .rparen :: ts =>
    match ← parseTokens (.kw .select :: .sym .star :: ts) with
    | .select q => some q
    | _ => none
  | _ => none

/-- C++ `fetch(statement, long &)` of a count -/
def fetchCount (link : Link) (statement : List UInt8) : DbM Int :=
  send link
    (fun s =>
      match (parseCount statement).bind (·.run schema s.db) with
      | some rows => (.ok rows.length, s)
      | none => (.error .db, s))
    (.error .db)

namespace DeviceRegistry

def badPayload (message : String) : Reply := .error 400 "BAD_PAYLOAD" message "/mgmt"

def byIdStatement (id : Nat) : List UInt8 := QueryString.joined ++ (bytes " WHERE t2.id = " ++ to_string id)

section
variable (link : Link)

/-- C++ `Queries::DeviceRegistry::getCount` -/
def getCount : DbM Int := fetchCount link (bytes "SELECT COUNT(*) FROM device_registry")

open Responses in
/-- The members of an entry in the listing. -/
def listHeaders : List Header := [ID, CreatedAt, UpdatedAt, Version, EndOfValidity]

open Responses in
/-- The members of an entry by its id. -/
def byIdHeaders : List Header := [ID, Version, CreatedAt, UpdatedAt, EndOfValidity]

/-- C++ `Endpoint::DeviceRegistry::handleGet` -/
def handleGet (u : Uri) : DbM Reply := do
  let count ← getCount link
  let pp := QueryString.Listing.deviceRegistry.parameters u
  if !pp.converts then return badPayload "Parameter error."
  if pp.isInvalid then return badPayload "Only both or none of page and size may be defined."
  match QueryString.getAll pp.page pp.item_per_page pp.sort_field pp.direction with
  | none => throwExn (.runtimeError "stoul")
  | some q =>
    match ← fetch link q with
    | [] => return .badRequest
    | row :: _ => return .content (str (writeEntry listHeaders 5 row (writeNumber "count" count newBuilder)))

/-- C++ `Endpoint::DeviceRegistry::getById` -/
def getById (id : Nat) : DbM Reply := do
  match ← fetch link (byIdStatement id) with
  | [] => return badPayload "Parameter error."
  | row :: _ => return .content (str (writeEntry byIdHeaders 5 row newBuilder))

end

end DeviceRegistry

/-! ## The ways to a response -/

/-- What shows entries: the end of a request that changes an entry, the listing, and the end of a registration. -/
inductive Path where
  | byId (id : Nat)
  | listing (u : Uri)
  | register (device_id : Int) (id : Nat)

namespace Path

def respond (link : Link) : Path → DbM Reply
  | .byId id => DeviceRegistry.getById link id
  | .listing u => DeviceRegistry.handleGet link u
  | .register device_id id => Register.respond link device_id id

def statement : Path → Option (List UInt8)
  | .byId id => some (DeviceRegistry.byIdStatement id)
  | .listing u => QueryString.Listing.deviceRegistry.fetched u
  | .register device_id id => some (Register.responseStatement device_id id)

/-- The columns that the statement selects in front of those of the device. -/
def selected : Path → List Col
  | .byId _ | .listing _ => [.registry "id", .registry "created_at", .registry "updated_at", .registry "version",
      .registry "end_of_validity"]
  | .register _ _ => [.registry "id", .registry "version", .registry "created_at", .registry "updated_at",
      .registry "end_of_validity"]

def headers : Path → List Header
  | .byId _ => DeviceRegistry.byIdHeaders
  | .listing _ => DeviceRegistry.listHeaders
  | .register _ _ => Register.headers

def cols (p : Path) : List Col := p.selected ++ deviceCols

/-- The request is one that the endpoint does not refuse. -/
def Accepted : Path → Prop
  | .listing u => QueryString.Listing.deviceRegistry.Accepts u
  | _ => True

/-- The database answers the statement with these entries. -/
structure Answers (p : Path) (link : Link) (db : Database) (page : List Entry) : Prop where
  accepted : p.Accepted
  fetched : ∃ q, p.statement = some q ∧ Gives db (fetch link q) (page.map (Entry.row p.cols))
  stored : ∀ e ∈ page, e ∈ entries db
  nodup : page.Nodup

/-- The object in the response: of the first row. -/
def object (p : Path) (page : List Entry) : Option Shown := page.head?.map fun e => shown p.headers 5 (e.row p.cols)

/-- The response with an object, or without one. -/
def reply (p : Path) (db : Database) : Option Shown → Reply
  | some x =>
    match p with
    | .listing _ => .content (objectText ((bytes "count", to_string (db "device_registry").rows.length) :: x.members))
    | _ => .content (objectText x.members)
  | none =>
    match p with
    | .byId _ => DeviceRegistry.badPayload "Parameter error."
    | _ => .badRequest

end Path

/-! ## What should be shown -/

open Responses in
/-- The names of the columns of the members. -/
def columnNames : List (Header × String) := [(ID, "id"), (CreatedAt, "created_at"), (UpdatedAt, "updated_at"),
  (EndOfValidity, "end_of_validity"), (Version, "version"), (Address, "address"), (AuthenticationInfo, "authentication_info"),
  (DeviceName, "device_name"), (MacAddress, "mac_address")]

def columnName (h : Header) : String := (columnNames.lookup h).getD ""

/-- Every member with the value of the column of its name. -/
def Entry.right (headers : List Header) (e : Entry) : Shown :=
  ⟨dictionary columns (e.row (headers.map fun h => .registry (columnName h))) 0 headers,
    dictionary columns (e.row (Responses.device.map fun h => .device (columnName h))) 0 Responses.device⟩

/-- The response is the text of the object, and every entry that the database answers with is shown in it, each member with the
    value of the column of its name. -/
structure Renders (p : Path) (link : Link) (db : Database) (page : List Entry) : Prop where
  reply : Gives db (p.respond link) (p.reply db (p.object page))
  right : ∀ e ∈ page, p.object page = some (e.right p.headers)

/-- A column as a text. -/
def textOf (v : Value) : List UInt8 := (valueText v).getD []

/-- A column as a number. -/
def numberOf : Value → Int
  | .int z => z
  | .text s => leadingInt s
  | .null => 0

/-- The time at which the device was changed is the one at which the entry was. -/
def SameUpdate (e : Entry) : Prop := textOf (e.registry.get "updated_at") = textOf (e.device.get "updated_at")

/-- The columns that `getById` takes for one another have the same values. -/
structure SameColumns (e : Entry) : Prop where
  version : numberOf (e.registry.get "created_at") = numberOf (e.registry.get "version")
  created_at : textOf (e.registry.get "updated_at") = textOf (e.registry.get "created_at")
  updated_at : textOf (e.registry.get "version") = textOf (e.registry.get "updated_at")
  device : SameUpdate e

/-- The entries for which the response is as it should be. -/
def Path.Holds : Path → List Entry → Prop
  | .byId _, page => ∀ e ∈ page, SameColumns e
  | .listing _, page => page.length ≤ 1 ∧ ∀ e ∈ page, SameUpdate e
  | .register _ _, page => ∀ e ∈ page, SameUpdate e

/-! ## Members and columns -/

/-- The value of a member for a column. -/
def valueOf (h : Header) (v : Value) : Scalar := h.value columns [v] 0

/-- The members for these columns, wherever in the row they stand. -/
lemma dictionary_eq : ∀ (hs : List Header) {vs : List Value}, hs.length = vs.length → ∀ pre rest : List Value,
    dictionary columns (pre ++ (vs ++ rest)) pre.length hs = List.zipWith (fun h v => (h.key, valueOf h v)) hs vs
  | [], vs, _, _, _ => by simp [dictionary]
  | h :: hs, [], e, _, _ => by simp at e
  | h :: hs, v :: vs, e, pre, rest => by
    have tail := dictionary_eq hs (Nat.succ.inj e) (pre ++ [v]) rest
    rw [List.append_assoc, List.length_append] at tail
    have cell : (pre ++ (v :: vs ++ rest))[pre.length]? = some v := by simp
    have head : h.value columns (pre ++ (v :: vs ++ rest)) pre.length = valueOf h v := by
      simp only [valueOf, Header.value, columns, cell]
      rfl
    rw [dictionary, head, List.zipWith_cons_cons]
    exact congrArg _ tail

lemma valueOf_int {h : Header} (ht : h.type = .int) (hn : h.is_null = false) (v : Value) : valueOf h v = .int (numberOf v) := by
  cases v <;> simp [valueOf, Header.value, ht, hn, columns, numberOf]

lemma valueOf_text {h : Header} (ht : h.type = .text) (hn : h.is_null = false) (v : Value) : valueOf h v = .text (textOf v) := by
  simp [valueOf, Header.value, ht, hn, columns, textOf]

lemma shown_eq (p : Path) (e : Entry) : shown p.headers 5 (e.row p.cols) =
    ⟨List.zipWith (fun h v => (h.key, valueOf h v)) p.headers (e.row p.selected),
      List.zipWith (fun h v => (h.key, valueOf h v)) Responses.device (e.row deviceCols)⟩ := by
  have row : e.row p.cols = [] ++ (e.row p.selected ++ e.row deviceCols) := by
    rw [Entry.row, Path.cols, List.map_append]
    rfl
  have row' : e.row p.cols = e.row p.selected ++ (e.row deviceCols ++ []) := by
    rw [row, List.append_nil]
    rfl
  have five : (e.row p.selected).length = 5 := by cases p <;> rfl
  have same : p.headers.length = (e.row p.selected).length := by cases p <;> rfl
  rw [shown]
  congr 1
  · rw [row]
    exact dictionary_eq p.headers same [] _
  · rw [row', ← five]
    exact dictionary_eq Responses.device rfl _ []

lemma right_eq (headers : List Header) (e : Entry) : e.right headers =
    ⟨List.zipWith (fun h v => (h.key, valueOf h v)) headers (e.row (headers.map fun h => .registry (columnName h))),
      List.zipWith (fun h v => (h.key, valueOf h v)) Responses.device
        (e.row (Responses.device.map fun h => .device (columnName h)))⟩ := by
  have whole (hs : List Header) (vs : List Value) (len : hs.length = vs.length) :
      dictionary columns vs 0 hs = List.zipWith (fun h v => (h.key, valueOf h v)) hs vs := by
    have := dictionary_eq hs len [] []
    rwa [List.append_nil] at this
  rw [Entry.right, whole _ _ (by simp [Entry.row]), whole _ _ (by simp [Entry.row])]

/-- The members of the device differ in the time of its change. -/
lemma device_right_iff (e : Entry) :
    List.zipWith (fun h v => (h.key, valueOf h v)) Responses.device (e.row deviceCols) =
      List.zipWith (fun h v => (h.key, valueOf h v)) Responses.device
        (e.row (Responses.device.map fun h => .device (columnName h))) ↔ SameUpdate e := by
  have names : (Responses.device.map fun h => Col.device (columnName h)) = [.device "id", .device "created_at",
      .device "updated_at", .device "device_name", .device "mac_address", .device "address", .device "authentication_info"] := by
    decide
  rw [names]
  simp [Responses.device, Entry.row, deviceCols, Entry.get, valueOf_text (h := Responses.UpdatedAt) rfl rfl, SameUpdate]

lemma byId_right_iff (id : Nat) (e : Entry) :
    shown (Path.byId id).headers 5 (e.row (Path.byId id).cols) = e.right (Path.byId id).headers ↔ SameColumns e := by
  have names : (DeviceRegistry.byIdHeaders.map fun h => Col.registry (columnName h)) = [.registry "id", .registry "version",
      .registry "created_at", .registry "updated_at", .registry "end_of_validity"] := by decide
  rw [shown_eq, right_eq, Shown.mk.injEq, device_right_iff]
  simp only [Path.headers, names]
  simp only [Path.selected, DeviceRegistry.byIdHeaders, Entry.row, Entry.get, List.map_cons, List.map_nil,
    List.zipWith_cons_cons, List.zipWith_nil_right, List.cons.injEq, Prod.mk.injEq, true_and, and_true,
    valueOf_int (h := Responses.Version) rfl rfl, valueOf_text (h := Responses.CreatedAt) rfl rfl,
    valueOf_text (h := Responses.UpdatedAt) rfl rfl, Scalar.int.injEq, Scalar.text.injEq]
  constructor
  · rintro ⟨⟨version, created_at, updated_at⟩, device⟩
    exact ⟨version, created_at, updated_at, device⟩
  · rintro ⟨version, created_at, updated_at, device⟩
    exact ⟨⟨version, created_at, updated_at⟩, device⟩

/-- The listing and the response of a registration match the members of an entry to the columns of their names. -/
lemma selected_eq {p : Path} (hp : ∀ id, p ≠ .byId id) : p.selected = p.headers.map fun h => .registry (columnName h) := by
  cases p with
  | byId id => exact absurd rfl (hp id)
  | listing u =>
    have names : (DeviceRegistry.listHeaders.map fun h => Col.registry (columnName h)) = [.registry "id", .registry "created_at",
        .registry "updated_at", .registry "version", .registry "end_of_validity"] := by decide
    exact names.symm
  | register device_id id =>
    have names : (Register.headers.map fun h => Col.registry (columnName h)) = [.registry "id", .registry "version",
        .registry "created_at", .registry "updated_at", .registry "end_of_validity"] := by decide
    exact names.symm

lemma right_iff {p : Path} (hp : ∀ id, p ≠ .byId id) (e : Entry) :
    shown p.headers 5 (e.row p.cols) = e.right p.headers ↔ SameUpdate e := by
  rw [shown_eq, right_eq, Shown.mk.injEq, device_right_iff, selected_eq hp]
  exact and_iff_right rfl

/-! ## The answers of the database -/

/-- The tokens of the statement of `getById` and of the listing. -/
def joinedTokens : List Token :=
  commas Expr.tokens (((Path.byId 0).cols.take 8).map Col.expr) ++ [Token.sym .comma] ++
    (commas Expr.tokens (((Path.byId 0).cols.drop 8).map Col.expr) ++ joinTokens.take 7) ++ joinTokens.drop 7

lemma lexes_joined : Lexes .idle QueryString.joined (.kw .select :: joinedTokens) .idle := by
  have both {s s' : List UInt8} {ts ts' : List Token} (h : Lexes .idle s ts .idle) (h' : Lexes .idle s' ts' .idle) :
      Lexes .idle (s ++ s') (ts ++ ts') .idle := h.append h'
  have tokens : Token.kw .select :: joinedTokens =
      .kw .select :: (commas Expr.tokens (((Path.byId 0).cols.take 8).map Col.expr) ++ [Token.sym .comma]) ++
        (commas Expr.tokens (((Path.byId 0).cols.drop 8).map Col.expr) ++ joinTokens.take 7) ++ joinTokens.drop 7 := rfl
  rw [tokens]
  exact both (both (lexes_bytes (by decide +kernel)) (lexes_bytes (by decide +kernel))) (lexes_bytes (by decide))

lemma selects_joined : Selects QueryString.joined (Path.byId 0).cols := ⟨joinedTokens, lexes_joined, fun _ => rfl⟩

lemma selects_register : Selects Register.head (Path.register 0 0).cols := by
  have front : Lexes .idle (bytes "SELECT t2.id, t2.version, t2.created_at, t2.updated_at, t2.end_of_validity, ")
      (.kw .select :: (commas Expr.tokens ((Path.register 0 0).selected.map Col.expr) ++ [Token.sym .comma])) .idle :=
    lexes_bytes (by decide +kernel)
  exact ⟨_, front.append lexes_device, fun ts => rfl⟩

def byIdCond (id : Nat) : Cond := .eq (Col.registry "id").expr (.lit (.int id))

def registerCond (device_id : Int) (id : Nat) : Cond := .and (.eq (Col.device "id").expr (.lit (.int device_id))) (byIdCond id)

lemma eval_byIdCond (id : Nat) (e : Entry) : (byIdCond id).eval schema e.env = decide (e.registry.id = id) := by
  show (Value.int e.registry.id).same (.int id) = _
  rw [Bool.eq_iff_iff]
  simp [Value.same]

lemma eval_registerCond (device_id : Int) (id : Nat) (e : Entry) :
    (registerCond device_id id).eval schema e.env = decide (e.device.id = device_id ∧ e.registry.id = id) := by
  show ((Value.int e.device.id).same (.int device_id) && (byIdCond id).eval schema e.env) = _
  rw [eval_byIdCond, Bool.eq_iff_iff]
  simp [Value.same]

section
variable {link : Link} {db : Database} (hlink : ∀ n, link.fault n = .none)

include hlink

/-- The answer to the statement of `getById`. -/
lemma byId_answer (id : Nat) : Gives db (fetch link (DeviceRegistry.byIdStatement id))
    (((entries db).filter fun e => e.registry.id = id).map (Entry.row (Path.byId id).cols)) := by
  have cond : Lexes .idle (bytes " WHERE t2.id = ")
      (.kw .where :: (Expr.tokens (Col.registry "id").expr ++ [Token.sym .eq])) .idle := lexes_bytes (by decide +kernel)
  have derives : Derives .disj (byIdCond id) (Expr.tokens (Col.registry "id").expr ++ [Token.sym .eq] ++ [] ++ [.number id]) :=
    .conj (.term (.eq (by simp [Col.expr]) (by simp)))
  have parsed := selects_joined.parse (cond.append (lexes_decimal id)) rfl derives
  have run : (joinedSelect (Path.byId id).cols (byIdCond id)).run schema db = _ := run_joined rfl db
  rw [List.filter_congr fun e _ => eval_byIdCond id e] at run
  exact select_gives link hlink parsed run

/-- The answer to the statement of a registration. -/
lemma register_answer (device_id : Int) (id : Nat) : Gives db (fetch link (Register.responseStatement device_id id))
    (((entries db).filter fun e => e.device.id = device_id ∧ e.registry.id = id).map
      (Entry.row (Path.register device_id id).cols)) := by
  have first : Lexes .idle (bytes " WHERE t1.id = ") (.kw .where :: (Expr.tokens (Col.device "id").expr ++ [Token.sym .eq])) .idle :=
    lexes_bytes (by decide +kernel)
  have second : Lexes .idle (bytes " AND t2.id = ") (.kw .and :: (Expr.tokens (Col.registry "id").expr ++ [Token.sym .eq])) .idle :=
    lexes_bytes (by decide +kernel)
  have derives : Derives .disj (registerCond device_id id)
      ((Expr.tokens (Col.device "id").expr ++ Token.sym .eq :: Expr.tokens (.lit (.int device_id))) ++
        Token.kw .and :: (Expr.tokens (Col.registry "id").expr ++ Token.sym .eq :: [.number id])) :=
    .conj (.and (.eq (by simp [Col.expr]) (by simp)) (.term (.eq (by simp [Col.expr]) (by simp))))
  have lexes := first.append ((second.append (lexes_decimal id)).to_string (delimits_cons _ (by decide)) device_id)
  have parsed := selects_register.parse lexes rfl (by simpa [Expr.tokens, Value.tokens] using derives)
  have run : (joinedSelect (Path.register 0 0).cols (registerCond device_id id)).run schema db = _ := run_joined rfl db
  rw [List.filter_congr fun e _ => eval_registerCond device_id id e] at run
  exact select_gives link hlink parsed run

omit hlink in
lemma gives_unique {α : Type} {m : DbM α} {a b : α} (ha : Gives db m a) (hb : Gives db m b) : a = b := by
  obtain ⟨k, ha⟩ := ha ⟨db, none, 0⟩ rfl
  obtain ⟨k', hb⟩ := hb ⟨db, none, 0⟩ rfl
  exact Except.ok.inj (Prod.mk.inj (ha.symm.trans hb)).1

omit hlink in
/-- The key of an entry is in its row. -/
lemma row_id {p : Path} {e : Entry} : (e.row p.cols)[0]? = some (.int e.registry.id) := by
  cases p <;> rfl

omit hlink in
/-- Entries with one key are one entry. -/
lemma Path.Answers.length_le {p : Path} {page : List Entry} (h : p.Answers link db page) {id : Nat}
    (hid : ∀ e ∈ page, e.registry.id = id) : page.length ≤ 1 := by
  match page, h, hid with
  | [], _, _ => exact Nat.zero_le _
  | [_], _, _ => exact le_refl _
  | a :: b :: rest, h, hid =>
    have same : a = b := entry_unique (h.stored a (by simp)) (h.stored b (by simp))
      ((hid a (by simp)).trans (hid b (by simp)).symm)
    have := h.nodup
    simp [same] at this

/-- By an id there is one entry at most. -/
lemma Path.Answers.one {p : Path} {page : List Entry} (h : p.Answers link db page) (hp : ∀ u, p ≠ .listing u) :
    page.length ≤ 1 := by
  obtain ⟨q, hq, fetched⟩ := h.fetched
  have ids {page' : List Entry} {id : Nat} (hid : ∀ e ∈ page', e.registry.id = id)
      (answer : Gives db (fetch link q) (page'.map (Entry.row p.cols))) : ∀ e ∈ page, e.registry.id = id := by
    intro e he
    have rows := gives_unique fetched answer
    have mem : e.row p.cols ∈ page'.map (Entry.row p.cols) := rows ▸ List.mem_map_of_mem he
    obtain ⟨e', he', row⟩ := List.mem_map.1 mem
    have key : some (Value.int e'.registry.id) = some (.int e.registry.id) := by rw [← row_id, ← row_id, row]
    have : e'.registry.id = e.registry.id := by simpa using key
    rw [← this, hid e' he']
  cases p with
  | byId id =>
    obtain rfl : DeviceRegistry.byIdStatement id = q := Option.some.inj hq
    exact h.length_le (ids (fun e he => by simpa using List.of_mem_filter he) (byId_answer hlink id))
  | listing u => exact absurd rfl (hp u)
  | register device_id id =>
    obtain rfl : Register.responseStatement device_id id = q := Option.some.inj hq
    have keys : ∀ e ∈ (entries db).filter fun e => e.device.id = device_id ∧ e.registry.id = id, e.registry.id = id := by
      intro e he
      have := List.of_mem_filter he
      simp only [decide_eq_true_eq] at this
      exact this.2
    exact h.length_le (ids keys (register_answer hlink device_id id))

/-! ## The responses -/

omit hlink in
lemma str_writeEntry (headers : List Header) (i : Nat) (row : List Value) {front : List (List UInt8 × List UInt8)} {o : Out}
    (ho : o = .ofText (bytes "\x7b" ++ membersText front)) :
    str (writeEntry headers i row o) = objectText (front ++ (shown headers i row).members) := by
  rw [ho, writeEntry_eq, List.append_assoc, ← membersText_append, str_membersText (by simp [Shown.members])]

omit hlink in
lemma writeNumber_newBuilder (key : String) (value : Int) :
    writeNumber key value newBuilder = .ofText (bytes "\x7b" ++ membersText [(bytes key, to_string value)]) := by
  rw [newBuilder_eq, writeNumber, Out.put_ofText]
  simp [membersText, JsonView.memberText, keyText]

omit hlink in
/-- A `SELECT *` from a table has its rows. -/
lemma run_table_length {t : String} (ht : (schema t).isSome) :
    ∃ rows, Select.run schema db ⟨none, ⟨t, t⟩, [], none, []⟩ = some rows ∧ rows.length = (db t).rows.length := by
  have bound : Select.bound schema ⟨none, ⟨t, t⟩, [], none, []⟩ := by simp [Select.bound, Select.sources, ht]
  refine ⟨_, if_pos bound, ?_⟩
  rw [List.length_map, List.length_insertionSort]
  simp [Select.combine]

/-- The count of the entries. -/
lemma getCount_gives : Gives db (DeviceRegistry.getCount link) (db "device_registry").rows.length := by
  have parsed : parseCount (bytes "SELECT COUNT(*) FROM device_registry") =
      some ⟨none, ⟨"device_registry", "device_registry"⟩, [], none, []⟩ := by decide +kernel
  rintro s rfl
  obtain ⟨rows, run, length⟩ := @run_table_length s.db "device_registry" rfl
  refine ⟨s.sent + 1, ?_⟩
  unfold DeviceRegistry.getCount fetchCount send
  simp only [hlink, parsed, Option.bind_some, run, length]

/-- What the endpoints answer with. -/
lemma respond_gives {p : Path} {page : List Entry} (h : p.Answers link db page) :
    Gives db (p.respond link) (p.reply db (p.object page)) := by
  obtain ⟨q, hq, fetched⟩ := h.fetched
  cases p with
  | byId id =>
    obtain rfl : DeviceRegistry.byIdStatement id = q := Option.some.inj hq
    refine fetched.bind ?_
    cases page with
    | nil => exact Gives.pure db _
    | cons e page =>
      have text := str_writeEntry DeviceRegistry.byIdHeaders 5 (e.row (Path.byId id).cols) newBuilder_eq
      show Gives db (pure (Reply.content (str _))) (Reply.content _)
      rw [text]
      exact Gives.pure db _
  | listing u =>
    obtain ⟨converts, valid⟩ := h.accepted
    refine (getCount_gives hlink).bind ?_
    have text (e : Entry) := str_writeEntry DeviceRegistry.listHeaders 5 (e.row (Path.listing u).cols)
      (writeNumber_newBuilder "count" (db "device_registry").rows.length)
    have statement : QueryString.getAll (QueryString.Listing.deviceRegistry.parameters u).page
        (QueryString.Listing.deviceRegistry.parameters u).item_per_page
        (QueryString.Listing.deviceRegistry.parameters u).sort_field
        (QueryString.Listing.deviceRegistry.parameters u).direction = some q := hq
    simp only [converts, valid, statement, Bool.not_true, Bool.false_eq_true, if_false]
    refine fetched.bind ?_
    cases page with
    | nil => exact Gives.pure db _
    | cons e page =>
      show Gives db (pure (Reply.content (str _))) (Reply.content _)
      rw [text e]
      exact Gives.pure db _
  | register device_id id =>
    obtain rfl : Register.responseStatement device_id id = q := Option.some.inj hq
    refine fetched.bind ?_
    cases page with
    | nil => exact Gives.pure db _
    | cons e page =>
      have text := str_writeEntry Register.headers 5 (e.row (Path.register device_id id).cols) newBuilder_eq
      show Gives db (pure (Reply.content (str _))) (Reply.content _)
      rw [text]
      exact Gives.pure db _

omit hlink in
lemma right_inj {p : Path} {e e' : Entry} (h : e.right p.headers = e'.right p.headers) : e.registry.id = e'.registry.id := by
  have first (e : Entry) : (e.right p.headers).entry[0]? = some (bytes "id", Scalar.int e.registry.id) := by
    cases p <;> rfl
  have := (first e).symm.trans ((congrArg (fun x : Shown => x.entry[0]?) h).trans (first e'))
  simpa using this

omit hlink in
/-- With more than one entry on the page, one is not shown. -/
lemma not_right_two {p : Path} {a b : Entry} {rest : List Entry} (h : p.Answers link db (a :: b :: rest)) :
    ¬ ∀ e ∈ a :: b :: rest, p.object (a :: b :: rest) = some (e.right p.headers) := by
  intro right
  have same := Option.some.inj ((right a (by simp)).symm.trans (right b (by simp)))
  have one : a = b := entry_unique (h.stored a (by simp)) (h.stored b (by simp)) (right_inj same)
  have := h.nodup
  simp [one] at this

/-- An entry is shown as it should be, by its id if the columns that are taken for one another have the same values, and elsewhere
    if its device was changed when it was; and the listing shows one entry. -/
theorem renders_iff {p : Path} {page : List Entry} (h : p.Answers link db page) : Renders p link db page ↔ p.Holds page := by
  have reply := respond_gives hlink h
  have alone (e : Entry) : (∀ x ∈ [e], p.object [e] = some (x.right p.headers)) ↔
      shown p.headers 5 (e.row p.cols) = e.right p.headers := by
    simp [Path.object]
  have right : Renders p link db page ↔ ∀ e ∈ page, p.object page = some (e.right p.headers) := ⟨Renders.right, fun r => ⟨reply, r⟩⟩
  rw [right]
  match page, h with
  | [], _ => cases p <;> simp [Path.Holds]
  | [e], _ =>
    rw [alone]
    cases p with
    | byId id => simpa [Path.Holds] using byId_right_iff id e
    | listing u => simpa [Path.Holds] using right_iff (fun id e => by cases e) e
    | register device_id id => simpa [Path.Holds] using right_iff (fun id e => by cases e) e
  | a :: b :: rest, h =>
    refine iff_of_false (not_right_two h) ?_
    cases p with
    | byId id => exact absurd (h.one hlink fun u e => by cases e) (by simp)
    | listing u => simp [Path.Holds]
    | register device_id id => exact absurd (h.one hlink fun u e => by cases e) (by simp)

end

/-! ## One entry -/

/-- A device with one entry, both of which were changed at the same time. -/
def oneEntry : Entry where
  device := ⟨1, fun c => if c = "updated_at" then .text (bytes "10:00") else .text (bytes "a")⟩
  registry := ⟨1, fun c => if c = "updated_at" then .text (bytes "10:00") else if c = "created_at" then .text (bytes "9:00")
    else .int 1⟩

def oneEntryDb : Database := fun t =>
  if t = "device" then ⟨[oneEntry.device], 1, by simp, by simp [oneEntry]⟩
  else if t = "device_registry" then ⟨[oneEntry.registry], 1, by simp, by simp [oneEntry]⟩
  else ⟨[], 0, Table.ordered_nil, Table.assigned_nil⟩

lemma entries_oneEntryDb : entries oneEntryDb = [oneEntry] := rfl

def sortedListing : Path := .listing ⟨bytes "/mgmt?sort_field=updatedAt", 0⟩

lemma answers_listing : sortedListing.Answers {} oneEntryDb [oneEntry] := by
  have decoded : [bytes "sort_field=updatedAt"].map Http.Uri.pairOf = [(bytes "sort_field", bytes "updatedAt")] := by
    decide +kernel
  have taken : [(bytes "sort_field", bytes "updatedAt")].foldlM (QueryString.consume QueryString.Listing.deviceRegistry.fields) {} =
      some { sort_field := bytes "3" } := by decide +kernel
  obtain ⟨object, -⟩ := QueryString.parameters_of_segments (u := ⟨bytes "/mgmt?sort_field=updatedAt", 0⟩) (by decide) (by decide)
    decoded taken
  have statement : sortedListing.statement = some (QueryString.joined ++ bytes " ORDER BY 3 ASC") := by
    have order : bytes " ORDER BY " ++ (bytes "3" ++ (bytes " " ++ bytes "ASC")) = bytes " ORDER BY 3 ASC" := by decide +kernel
    show QueryString.Listing.deviceRegistry.fetched _ = _
    rw [QueryString.Listing.fetched, object]
    show some (QueryString.ordered _ _ _) = _
    rw [QueryString.ordered, List.append_assoc, List.append_assoc, List.append_assoc, order]
  have accepted : sortedListing.Accepted := by
    show QueryString.Listing.deviceRegistry.Accepts _
    rw [QueryString.Listing.Accepts, object]
    decide +kernel
  have tail : Lexes .idle (bytes " ORDER BY 3 ASC") [.kw .order, .kw .by, .number 3] (.word (bytes "ASC")) :=
    lexes_bytes (by decide +kernel)
  have last : lexEnd (.word (bytes "ASC")) = some [.kw .asc] := by decide +kernel
  have parsed : parse (QueryString.joined ++ bytes " ORDER BY 3 ASC") = some (.select
      { joinedSelect sortedListing.cols (byIdCond 1) with cond := none, order := [(.lit (.int 3), false)] }) := by
    rw [parse, lex_of_lexes (lexes_joined.append tail) last]
    rfl
  have run : Select.run schema oneEntryDb
      { joinedSelect sortedListing.cols (byIdCond 1) with cond := none, order := [(.lit (.int 3), false)] } =
        some [oneEntry.row sortedListing.cols] := rfl
  refine ⟨accepted, ⟨_, statement, select_gives {} (fun _ => rfl) parsed run⟩, ?_, List.nodup_singleton _⟩
  intro e he
  rw [entries_oneEntryDb]
  exact he

lemma answers_byId (id : Nat) : (Path.byId id).Answers {} oneEntryDb ((entries oneEntryDb).filter fun e => e.registry.id = id) :=
  ⟨trivial, ⟨_, rfl, byId_answer (fun _ => rfl) id⟩, fun _ he => List.mem_of_mem_filter he, (entries_nodup _).filter _⟩

lemma answers_register (device_id : Int) (id : Nat) : (Path.register device_id id).Answers {} oneEntryDb
    ((entries oneEntryDb).filter fun e => e.device.id = device_id ∧ e.registry.id = id) :=
  ⟨trivial, ⟨_, rfl, register_answer (fun _ => rfl) device_id id⟩, fun _ he => List.mem_of_mem_filter he, (entries_nodup _).filter _⟩

/-- The entry is shown as it should be in the listing and after a registration, and not by its id. -/
theorem renders_one : Renders sortedListing {} oneEntryDb [oneEntry] ∧ Renders (.register 1 1) {} oneEntryDb [oneEntry] ∧
    ¬ Renders (.byId 1) {} oneEntryDb [oneEntry] := by
  have same : SameUpdate oneEntry := rfl
  have differ : ¬ SameColumns oneEntry := fun h => absurd h.created_at (by decide)
  have single : ∀ e ∈ [oneEntry], SameUpdate e := by
    intro e he
    rw [List.mem_singleton.1 he]
    exact same
  refine ⟨(renders_iff (fun _ => rfl) answers_listing).2 ⟨le_refl _, single⟩,
    (renders_iff (fun _ => rfl) (answers_register 1 1)).2 single, fun h => differ ?_⟩
  exact (renders_iff (fun _ => rfl) (answers_byId 1)).1 h oneEntry List.mem_cons_self

/-- By its id an entry is shown with the time of its change as the time of its creation. -/
theorem not_renders : ¬ ∀ (link : Link) (db : Database) (p : Path) (page : List Entry), (∀ n, link.fault n = .none) →
    p.Answers link db page → Renders p link db page := by
  intro all
  have right := (all {} oneEntryDb (.byId 1) _ (fun _ => rfl) (answers_byId 1)).right oneEntry List.mem_cons_self
  have shown := (byId_right_iff 1 oneEntry).1 (Option.some.inj right)
  exact absurd shown.created_at (by decide)

end ArrowheadCore.DevRegistry
