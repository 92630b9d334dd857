import ArrowheadCore.Db.Session
import ArrowheadCore.Json.Emission
import ArrowheadCore.Http.Paged

/-!
# Entries of the device registry

The statements of the device registry join the entries with their devices (`core/apps/DevRegistry/queries/DeviceRegistry.h`,
`core/apps/DevRegistry/endpoints`), and the responses match the members of an entry to the columns by position
(`core/apps/DevRegistry/responses/DeviceRegistry.h`).
-/

namespace ArrowheadCore.DevRegistry
open Lib Lib.Sql Db Json
open JsonView (objectText)

/-! ## Responses -/

/-- C++ `Row::get` for the types that are used. -/
def columns : Columns (List Value) where
  text row i := (row[i]?).bind valueText
  int row i :=
    match row[i]? with
    | some (.int z) => some z
    | some (.text s) => some (leadingInt s)
    | _ => none

namespace Responses

def ID : Header := ⟨bytes "id", .int, false⟩
def CreatedAt : Header := ⟨bytes "createdAt", .text, false⟩
def UpdatedAt : Header := ⟨bytes "updatedAt", .text, false⟩
def EndOfValidity : Header := ⟨bytes "endOfValidity", .text, true⟩
def Version : Header := ⟨bytes "version", .int, false⟩
def Address : Header := ⟨bytes "address", .text, false⟩
def AuthenticationInfo : Header := ⟨bytes "authenticationInfo", .text, true⟩
def DeviceName : Header := ⟨bytes "deviceName", .text, false⟩
def MacAddress : Header := ⟨bytes "macAddress", .text, false⟩

/-- The members of a device. -/
def device : List Header := [ID, CreatedAt, UpdatedAt, DeviceName, MacAddress, Address, AuthenticationInfo]

end Responses

/-- C++ `Response`: a text with the status OK, a stock response, or an error response with its type. -/
inductive Reply where
  | content (text : List UInt8)
  | badRequest
  | error (status : Nat) (type message origin : String)
deriving DecidableEq, Repr

/-- The two calls of `write_dictionary_items` for an entry: its members, and those of its device from a column on. -/
def writeEntry (headers : List Header) (i : Nat) (row : List Value) (o : Out) : Out :=
  write_dictionary_items columns (some (bytes "device")) Responses.device row i
    (write_dictionary_items columns none headers row 0 o)

/-- An entry as a JSON object: its members, and those of its device. -/
structure Shown where
  entry : List (List UInt8 × Scalar)
  device : List (List UInt8 × Scalar)
deriving DecidableEq, Repr

def shown (headers : List Header) (i : Nat) (row : List Value) : Shown :=
  ⟨dictionary columns row 0 headers, dictionary columns row i Responses.device⟩

def literals (members : List (List UInt8 × Scalar)) : List (List UInt8 × List UInt8) := members.map fun m => (m.1, m.2.literal)

/-- The texts of the members. -/
def Shown.members (x : Shown) : List (List UInt8 × List UInt8) :=
  literals x.entry ++ [(bytes "device", objectText (literals x.device))]

lemma writeEntry_eq (headers : List Header) (i : Nat) (row : List Value) (t : List UInt8) :
    writeEntry headers i row (.ofText t) = .ofText (t ++ membersText (shown headers i row).members) := by
  rw [writeEntry, write_dictionary_items, writeItems_eq, write_dictionary_items_eq _ _ (by simp [Responses.device]),
    List.append_assoc, ← membersText_append]
  rfl

/-! ## Joined rows -/

/-- An entry with its device. -/
structure Entry where
  device : Row
  registry : Row

/-- A column of the device (`t1`) or of the registry (`t2`). -/
inductive Col where
  | device (c : String)
  | registry (c : String)
deriving DecidableEq, Repr

def Col.expr : Col → Expr
  | .device c => .col (some "t1") c
  | .registry c => .col (some "t2") c

def Entry.get (e : Entry) : Col → Value
  | .device c => e.device.get c
  | .registry c => e.registry.get c

/-- The row of an entry in an answer. -/
def Entry.row (cols : List Col) (e : Entry) : List Value := cols.map e.get

/-- The entries with their devices, in the order of the devices. -/
def entries (db : Database) : List Entry :=
  (db "device").rows.flatMap fun d =>
    ((db "device_registry").rows.filter fun r => (Value.int d.id).same (r.get "device_id")).map fun r => ⟨d, r⟩

def devices : Source := ⟨"device", "t1"⟩

def registries : Source := ⟨"device_registry", "t2"⟩

/-- A statement that joins the two tables. -/
def joinedSelect (cols : List Col) (cond : Cond) : Select where
  columns := some (cols.map Col.expr)
  source := devices
  joins := [(registries, .eq (Col.device "id").expr (Col.registry "device_id").expr)]
  cond := some cond

def Entry.env (e : Entry) : Env := [(devices, e.device), (registries, e.registry)]

lemma Entry.eval_expr (e : Entry) (c : Col) : c.expr.eval schema e.env = e.get c := by
  cases c with
  | device c => rfl
  | registry c => rfl

lemma combine_joined (cols : List Col) (cond : Cond) (db : Database) :
    (joinedSelect cols cond).combine schema db = (entries db).map Entry.env := by
  rw [Select.combine, entries, List.map_flatMap]
  show ((db "device").rows.map fun d => [(devices, d)]).flatMap _ = _
  rw [List.flatMap_map]
  refine List.flatMap_congr fun d _ => ?_
  rw [List.filter_map, List.map_map]
  rfl

/-- The answer has a row for every entry that meets the condition. -/
lemma run_joined {cols : List Col} {cond : Cond} (bound : (joinedSelect cols cond).bound schema) (db : Database) :
    (joinedSelect cols cond).run schema db =
      some (((entries db).filter fun e => cond.eval schema e.env).map (Entry.row cols)) := by
  have sorted : ∀ l : List Env, l.insertionSort (fun a b => keysLe schema (joinedSelect cols cond).order a b) = l := by
    intro l
    refine List.Pairwise.insertionSort_eq ?_
    exact List.pairwise_of_forall fun _ _ => rfl
  have project : (joinedSelect cols cond).project schema ∘ Entry.env = Entry.row cols := by
    funext e
    show (cols.map Col.expr).map (Expr.eval schema e.env) = cols.map e.get
    rw [List.map_map]
    exact List.map_congr_left fun c _ => e.eval_expr c
  rw [Select.run, if_pos bound, sorted, combine_joined, List.filter_map, List.map_map, project]
  rfl

lemma mem_entries {db : Database} {e : Entry} : e ∈ entries db ↔ e.device ∈ (db "device").rows ∧
    e.registry ∈ (db "device_registry").rows ∧ (Value.int e.device.id).same (e.registry.get "device_id") := by
  obtain ⟨d, r⟩ := e
  simp only [entries, List.mem_flatMap, List.mem_map, List.mem_filter, Entry.mk.injEq]
  constructor
  · rintro ⟨d, hd, r, ⟨hr, h⟩, rfl, rfl⟩
    exact ⟨hd, hr, h⟩
  · rintro ⟨hd, hr, h⟩
    exact ⟨d, hd, r, ⟨hr, h⟩, rfl, rfl⟩

/-- No entry comes twice. -/
lemma entries_nodup (db : Database) : (entries db).Nodup := by
  rw [entries, List.nodup_flatMap]
  refine ⟨fun d _ => ((db "device_registry").rows_nodup.filter _).map fun r r' e => (Entry.mk.inj e).2, ?_⟩
  refine (db "device").rows_nodup.imp fun {d d'} ne => ?_
  refine List.disjoint_left.2 ?_
  rintro ⟨a, r⟩ h h'
  obtain ⟨_, _, e⟩ := List.mem_map.1 h
  obtain ⟨_, _, e'⟩ := List.mem_map.1 h'
  exact ne ((Entry.mk.inj e).1.trans (Entry.mk.inj e').1.symm)

/-- An entry has one device. -/
lemma entry_unique {db : Database} {e e' : Entry} (h : e ∈ entries db) (h' : e' ∈ entries db)
    (id : e.registry.id = e'.registry.id) : e = e' := by
  rw [mem_entries] at h h'
  obtain ⟨d, r⟩ := e
  obtain ⟨d', r'⟩ := e'
  obtain rfl : r = r' := Table.row_unique _ h.2.1 h'.2.1 id
  have same : d.id = d'.id := by
    have h1 := h.2.2
    have h2 := h'.2.2
    dsimp only at h1 h2
    cases cell : r.get "device_id" with
    | null => rw [cell] at h1; cases h1
    | int z =>
      rw [cell] at h1 h2
      simp only [Value.same, beq_iff_eq] at h1 h2
      omega
    | text s =>
      rw [cell] at h1 h2
      simp only [Value.same, beq_iff_eq] at h1 h2
      omega
  obtain rfl : d = d' := Table.row_unique _ h.1 h'.1 same
  rfl

/-! ## The texts of the statements -/

/-- The text in front of a condition, and the columns it selects. -/
def Selects (text : List UInt8) (cols : List Col) : Prop :=
  ∃ toks, Lexes .idle text (.kw .select :: toks) .idle ∧ ∀ ts, parseSelect (toks ++ Token.kw .where :: ts) = (do
    let (cond, ts) ← parseWhere (.kw .where :: ts)
    let (order, ts) ← parseOrder ts
    some (⟨some (cols.map Col.expr), devices, [(registries, .eq (Col.device "id").expr (Col.registry "device_id").expr)],
      cond, order⟩, ts))

/-- The columns of a device, behind which the tables are joined. -/
def deviceCols : List Col := [.device "id", .device "created_at", .registry "updated_at", .device "device_name",
  .device "mac_address", .device "address", .device "authentication_info"]

def deviceText : List UInt8 :=
  bytes "t1.id, t1.created_at, t2.updated_at, t1.device_name, t1.mac_address, t1.address, t1.authentication_info FROM " ++
    bytes "device t1 INNER JOIN device_registry t2 ON (t1.id = t2.device_id)"

def joinTokens : List Token :=
  [.kw .from, .ident "device", .ident "t1", .kw .inner, .kw .join, .ident "device_registry", .ident "t2", .kw .on,
    .sym .lparen, .ident "t1", .sym .dot, .ident "id", .sym .eq, .ident "t2", .sym .dot, .ident "device_id", .sym .rparen]

lemma lexes_device : Lexes .idle deviceText (commas Expr.tokens (deviceCols.map Col.expr) ++ joinTokens) .idle := by
  have columns : Lexes .idle
      (bytes "t1.id, t1.created_at, t2.updated_at, t1.device_name, t1.mac_address, t1.address, t1.authentication_info FROM ")
      (commas Expr.tokens (deviceCols.map Col.expr) ++ [Token.kw .from]) .idle := lexes_bytes (by decide +kernel)
  have tables : Lexes .idle (bytes "device t1 INNER JOIN device_registry t2 ON (t1.id = t2.device_id)") joinTokens.tail .idle :=
    lexes_bytes (by decide +kernel)
  simpa [deviceText, joinTokens] using columns.append tables

/-- The tokens of a statement that joins the two tables, with a condition. -/
lemma parseTokens_joined {columns : Option (List Expr)} {toks ts : List Token} {cond : Cond}
    (select : ∀ ts, parseSelect (toks ++ Token.kw .where :: ts) = (do
      let (cond, ts) ← parseWhere (.kw .where :: ts)
      let (order, ts) ← parseOrder ts
      some (⟨columns, devices, [(registries, .eq (Col.device "id").expr (Col.registry "device_id").expr)], cond, order⟩, ts)))
    (derives : Derives .disj cond ts) :
    parseTokens (.kw .select :: (toks ++ Token.kw .where :: ts)) = some (.select { joinedSelect [] cond with columns }) := by
  have read : parseCond (condFuel ts) .disj ts = some (cond, []) := by
    have whole : parseCond (condFuel ts) .disj (ts ++ []) = some (cond, []) :=
      parseCond_derives derives (by simp [Level.fuel, condFuel]) (by simp [Level.Closed])
    rwa [List.append_nil] at whole
  show parseQuery (toks ++ Token.kw .where :: ts) >>= atEnd = _
  rw [parseQuery, select, parseWhere, read]
  rfl

/-- A statement with a condition. -/
lemma Selects.parse {text condText : List UInt8} {cols : List Col} {cond : Cond} {ts ts' : List Token} {m : Mode}
    (h : Selects text cols) (lexes : Lexes .idle condText (.kw .where :: ts) m) (last : lexEnd m = some ts')
    (derives : Derives .disj cond (ts ++ ts')) : Sql.parse (text ++ condText) = some (.select (joinedSelect cols cond)) := by
  obtain ⟨toks, head, select⟩ := h
  have whole := lex_of_lexes (head.append lexes) last
  have shape : .kw .select :: toks ++ Token.kw .where :: ts ++ ts' =
      .kw .select :: (toks ++ Token.kw .where :: (ts ++ ts')) := by simp
  rw [Sql.parse, whole, Option.bind_eq_bind, Option.bind_some, shape]
  exact parseTokens_joined select derives

end ArrowheadCore.DevRegistry
