import ArrowheadCore.DevRegistry.Metadata
import ArrowheadCore.DevRegistry.Rendering

/-!
# Querying devices

Embedding of `Endpoint::Query` (`core/apps/DevRegistry/endpoints/Query.h`): one statement counts the entries of the devices with
the name and the MAC address, and another one selects what is listed. The requirements for the version name a column that the
devices do not have, so that the statement fails; `Lib.Sql` has no inequalities, and the two that are written are no statements
to it for that reason, too. The requirements for the metadata are read and not used.
-/

namespace ArrowheadCore.DevRegistry
open Lib Lib.Sql Db Json
open JsonView (objectText arrayText memberText)

namespace Query

/-! ## The loop of the builder -/

/-- The loop of `for_each(key, row, f)`, whose callback leaves the cursor. -/
def rowsLoop (f : Out → List Value → Out) : Out → List (List Value) → Out
  | o, [] => o
  | o, r :: rs => rowsLoop f ((f (o.put (bytes "\x7b")) r).back.put (bytes "\x7d,")) rs

/-- C++ `for_each(key, row, f)`; what the callback returns is not used, as it is no `ControlResp`. -/
def forEachRow (key : String) (f : Out → List Value → Out) (o : Out) : List (List Value) → Out
  | [] => (o.put (keyText key ++ bytes "[")).put (bytes "],")
  | r :: rs => (rowsLoop f (o.put (keyText key ++ bytes "[")) (r :: rs)).back.put (bytes "],")

open Responses in
def headers : List Header := [ID, Version, CreatedAt, UpdatedAt, EndOfValidity]

/-- The callback: `okey` is never false. -/
def writeRow (o : Out) (row : List Value) : Out := writeEntry headers 6 row o

/-- The text for the answers. -/
def text (count : Int) (rows : List (List Value)) : List UInt8 :=
  str (forEachRow "deviceQueryData" writeRow (writeNumber "unfilteredHits" count newBuilder) rows)

/-! ## The statements -/

/-- The requirements for the metadata; a name must not come twice. -/
def metamapLoop : List Pair → List (Option (List UInt8) × JsonValue) → Except Stop (List Pair)
  | metamap, [] => .ok metamap
  | metamap, (key, value) :: nodes =>
    match value.toString with
    | none => .error .refused
    | some value =>
      match key with
      | none => .error .undefined
      | some key =>
        if cStr key ∈ metamap.map Prod.fst then .error .refused else metamapLoop (metamap ++ [(cStr key, value)]) nodes

def metamap (node : JsonValue) : Except Stop (List Pair) := metamapLoop [] node.nodes

section
variable (link : Link)

def countHead : List UInt8 :=
  bytes "SELECT COUNT(*) FROM device t1 INNER JOIN device_registry t2 ON (t1.id = t2.device_id)"

def head : List UInt8 :=
  bytes "SELECT t2.id, t2.version, t2.created_at, t2.updated_at, t2.end_of_validity, t2.metadata, " ++ deviceText

/-- The requirement of a device name. -/
def named (device_name : List UInt8) : List UInt8 := bytes " WHERE t1.device_name = " ++ link.escape device_name

/-- Add the requirement of a MAC address. -/
def withMacAddress (root : JsonValue) (q : List UInt8) : DbM (List UInt8) := do
  let mac_address ← child root "macAddressRequirement"
  if mac_address.isSet then
    match mac_address.toString with
    | none => throwExn (.runtimeError "Mac address error")
    | some mac_address => return q ++ (bytes " AND t1.mac_address = " ++ link.escape mac_address)
  else return q

/-- Add the requirement of an address; another value than a string fails an assertion. -/
def withAddress (root : JsonValue) (q : List UInt8) : DbM (List UInt8) := do
  let a ← child root "addressRequirement"
  if a.isSet then
    match a.toString with
    | none => throwExn .abort
    | some a => return q ++ (bytes " AND t1.address = " ++ link.escape a)
  else return q

/-- Add a requirement for the version. -/
def withVersion (v : JsonValue) (condition q : List UInt8) : DbM (List UInt8) :=
  match v.toInt with
  | none => throwExn (.runtimeError "Mac address error")
  | some v => pure (q ++ (condition ++ to_string v))

def withVersions (root : JsonValue) (q : List UInt8) : DbM (List UInt8) := do
  let v ← child root "versionRequirement"
  if v.isSet then withVersion v (bytes " AND t1.version = ") q
  else do
    let v ← child root "maxVersionRequirement"
    let q ← if v.isSet then withVersion v (bytes " AND t1.version <= ") q else pure q
    let v ← child root "minVersionRequirement"
    if v.isSet then withVersion v (bytes " AND t1.version >= ") q else return q

/-- C++ `Query::getCount` -/
def getCount (device_name : List UInt8) (root : JsonValue) : DbM Int := do
  fetchCount link (← withMacAddress link root (countHead ++ named link device_name))

/-- C++ `Query::buildQuery` -/
def buildQuery (device_name : List UInt8) (root : JsonValue) : DbM (List (List Value)) := do
  let q ← withMacAddress link root (head ++ named link device_name)
  let q ← withAddress link root q
  let q ← withVersions root q
  fetch link q

/-- The count and the rows; none if the payload is refused before them. -/
def answers (root : JsonValue) : DbM (Option (Int × List (List Value))) := do
  let device_name ← child root "deviceNameRequirement"
  match device_name.toString with
  | none => return none
  | some device_name =>
    match ← reading (metamap (← child root "metadata")) with
    | none => return none
    | some _ => return some (← getCount link device_name root, ← buildQuery link device_name root)

/-- C++ `Query::query` behind `jsonParse`. -/
def query (root : JsonValue) : DbM Reply := fun s =>
  match answers link root s with
  | (.ok none, s) => (.ok .badRequest, s)
  | (.ok (some (count, rows)), s) => (.ok (.content (text count rows)), s)
  | (.error (.runtimeError _), s) => (.ok (.error 400 "BAD_PAYLOAD" "Invalid payload for request." "/query"), s)
  | (.error e, s) => (.error e, s)

/-- C++ `Query::handle`; the payload is what `jsonParse` makes of it. -/
def handle (jsonParse : List UInt8 → Option JsonValue) (content : List UInt8) : DbM Reply := fun s =>
  if content = [] then (.ok (.error 400 "BAD_PAYLOAD" "Invalid payload for request." "/query"), s)
  else
    match jsonParse content with
    | none => (.ok .badRequest, s)
    | some root =>
      match query link root s with
      | (.error .db, s) => (.ok (.error 500 "ARROWHEAD" "Database operation exception." "/query"), s)
      | (.error (.runtimeError _), s) => (.ok (.error 500 "GENERIC" "Unknow error." "/query"), s)
      | r => r

end

/-! ## Requirements -/

/-- What a payload requires. -/
structure Form where
  device_name : List UInt8
  mac_address : Option (List UInt8) := none
  address : Option (List UInt8) := none
  version : Option Int := none
  maxVersion : Option Int := none
  minVersion : Option Int := none
  metadata : List Pair := []

/-- A member that is not set, or this string. -/
def IsText (root : JsonValue) (key : String) : Option (List UInt8) → Prop
  | none => root.child (bytes key) = some .null
  | some s => ∃ t, root.child (bytes key) = some (.string t) ∧ cStr t = s

/-- A member that is not set, or this number. -/
def IsNumber (root : JsonValue) (key : String) : Option Int → Prop
  | none => root.child (bytes key) = some .null
  | some z => root.child (bytes key) = some (.number z)

/-- The payload requires what the form has. -/
structure IsForm (root : JsonValue) (form : Form) : Prop where
  device_name : IsText root "deviceNameRequirement" (some form.device_name)
  mac_address : IsText root "macAddressRequirement" form.mac_address
  address : IsText root "addressRequirement" form.address
  version : IsNumber root "versionRequirement" form.version
  maxVersion : IsNumber root "maxVersionRequirement" form.maxVersion
  minVersion : IsNumber root "minVersionRequirement" form.minVersion
  metadata : form.metadata = [] ∧ root.child (bytes "metadata") = some .null ∨
    ∃ pairs, root.child (bytes "metadata") = some (metadataObject pairs) ∧ form.metadata = pairs.map Pair.seen ∧
      (form.metadata.map Prod.fst).Nodup

/-- The entry has the device that is required. -/
structure Form.Selects (form : Form) (e : Entry) : Prop where
  device_name : e.device.get "device_name" = .text form.device_name
  mac_address : ∀ s, form.mac_address = some s → e.device.get "mac_address" = .text s
  address : ∀ s, form.address = some s → e.device.get "address" = .text s

/-- The version is as it is required. -/
structure Form.AdmitsVersion (form : Form) (e : Entry) : Prop where
  version : ∀ z, form.version = some z → e.registry.get "version" = .int z
  maxVersion : ∀ z, form.maxVersion = some z → ∃ v, e.registry.get "version" = .int v ∧ v ≤ z
  minVersion : ∀ z, form.minVersion = some z → ∃ v, e.registry.get "version" = .int v ∧ z ≤ v

/-- Every pair that is required is in the metadata. -/
def Form.AdmitsMetadata (form : Form) (e : Entry) : Prop := ∀ kv ∈ form.metadata, kv ∈ decode (textOf (e.registry.get "metadata"))

/-- The entry meets all requirements. -/
structure Form.Matches (form : Form) (e : Entry) : Prop where
  selects : form.Selects e
  version : form.AdmitsVersion e
  metadata : form.AdmitsMetadata e

/-- The columns that are compared with texts are texts, or `NULL`. -/
def Typed (db : Database) : Prop := ∀ r ∈ (db "device").rows, ∀ c ∈ ["device_name", "mac_address", "address"],
  r.get c = .null ∨ ∃ s, r.get c = .text s

/-- The columns that are selected. -/
def cols : List Col := [.registry "id", .registry "version", .registry "created_at", .registry "updated_at",
  .registry "end_of_validity", .registry "metadata"] ++ deviceCols

/-- The object of an entry. -/
def object (e : Entry) : List UInt8 := objectText (shown headers 6 (e.row cols)).members

/-- The response with these entries. -/
def listing (count : Int) (listed : List Entry) : List UInt8 :=
  objectText [(bytes "unfilteredHits", to_string count), (bytes "deviceQueryData", arrayText (listed.map object))]

/-- The response lists the entries that meet the requirements, each once: the rows are theirs, and so are the objects. -/
def Lists (link : Link) (root : JsonValue) (form : Form) (s : Session) : Prop :=
  ∃ (count : Int) (listed : List Entry) (s' : Session), answers link root s = (.ok (some (count, listed.map (Entry.row cols))), s') ∧
    query link root s = (.ok (.content (listing count listed)), s') ∧
    listed.Nodup ∧ ∀ e, e ∈ listed ↔ e ∈ entries s.db ∧ form.Matches e

/-! ## The text of the response -/

lemma rowsLoop_eq (rows : List (List Value)) (t : List UInt8) : rowsLoop writeRow (.ofText t) rows =
    .ofText (t ++ (rows.map fun row => objectText (shown headers 6 row).members).flatMap fun x => x ++ bytes ",") := by
  induction rows generalizing t with
  | nil => simp [rowsLoop]
  | cons row rows ih =>
    have filled : (shown headers 6 row).members ≠ [] := by simp [Shown.members]
    rw [rowsLoop, Out.put_ofText, writeRow, writeEntry_eq, close_object t filled, ih]
    simp

lemma forEachRow_eq (key : String) (rows : List (List Value)) (t : List UInt8) : forEachRow key writeRow (.ofText t) rows =
    .ofText (t ++ membersText [(bytes key, arrayText (rows.map fun row => objectText (shown headers 6 row).members))]) := by
  have e1 : bytes "]," = ']'.toUInt8 :: bytes "," := by decide
  have e2 : bytes "]" = [']'.toUInt8] := by decide
  cases rows with
  | nil => simp [forEachRow, membersText, memberText, arrayText, commaList, keyText, e1, e2]
  | cons row rows =>
    rw [forEachRow, Out.put_ofText, rowsLoop_eq, e1, close_list _ (by simp)]
    simp [membersText, memberText, arrayText, keyText, e2]

lemma text_eq (count : Int) (listed : List Entry) : text count (listed.map (Entry.row cols)) = listing count listed := by
  rw [text, writeNumber_newBuilder, forEachRow_eq, List.append_assoc, ← membersText_append, str_membersText (by simp),
    List.map_map]
  rfl

/-! ## Conjunctions of equations -/

/-- A column of a device and what it is compared with. -/
abbrev Equation := String × Value

def Equation.cond (c : Equation) : Cond := .eq (Col.device c.1).expr (.lit c.2)

def Equation.tokens (c : Equation) : List Token := (Col.device c.1).expr.tokens ++ Token.sym .eq :: c.2.tokens

def conj (c : Equation) : List Equation → Cond
  | [] => c.cond
  | d :: ds => .and c.cond (conj d ds)

lemma derives_conj {c : Equation} {cs : List Equation} (h : ∀ d ∈ c :: cs, d.2 ≠ .null) :
    Derives .conj (conj c cs) (c.tokens ++ cs.flatMap fun d => Token.kw .and :: d.tokens) := by
  have term {d : Equation} (hd : d.2 ≠ .null) : Derives .term d.cond d.tokens := .eq (by simp [Col.expr]) (by simpa using hd)
  induction cs generalizing c with
  | nil =>
    rw [conj, List.flatMap_nil, List.append_nil]
    exact .term (term (h c (by simp)))
  | cons d ds ih =>
    rw [conj, List.flatMap_cons]
    exact (term (h c (by simp))).and (ih fun e he => h e (List.mem_cons_of_mem _ he))

lemma eval_conj {c : Equation} {cs : List Equation} (e : Entry) :
    (conj c cs).eval schema e.env ↔ ∀ d ∈ c :: cs, (e.device.get d.1).same d.2 := by
  have one (d : Equation) : d.cond.eval schema e.env = (e.device.get d.1).same d.2 := rfl
  induction cs generalizing c with
  | nil => simp [conj, one]
  | cons d ds ih =>
    have rest : (conj d ds).eval schema e.env ↔ ∀ x ∈ d :: ds, (e.device.get x.1).same x.2 := ih
    rw [conj, Cond.eval, Bool.and_eq_true, one, rest]
    simp only [List.forall_mem_cons]

lemma bound_conj {c : Equation} {cs : List Equation} :
    (conj c cs).bound schema [devices, registries] ↔ ∀ d ∈ c :: cs, hasColumn schema "device" d.1 := by
  have one (d : Equation) : d.cond.bound schema [devices, registries] = hasColumn schema "device" d.1 := by
    show (hasColumn schema "device" d.1 && true) = _
    rw [Bool.and_true]
  induction cs generalizing c with
  | nil => simp [conj, one]
  | cons d ds ih =>
    have rest : (conj d ds).bound schema [devices, registries] ↔ ∀ x ∈ d :: ds, hasColumn schema "device" x.1 := ih
    rw [conj, Cond.bound, Bool.and_eq_true, one, rest]
    simp only [List.forall_mem_cons]

/-! ## The texts of the conditions -/

/-- The text behind the joined tables, up to the last quote: a conjunction of equations. -/
def Reads (text : List UInt8) (c : Equation) (cs : List Equation) : Prop :=
  ∃ ts last, Lexes .idle text (.kw .where :: ts) (.quote last) ∧
    ts ++ [.text last] = c.tokens ++ cs.flatMap fun d => Token.kw .and :: d.tokens

/-- Behind a text, the beginning of another equation. -/
def Continues (front : List UInt8) (column : String) : Prop :=
  ∀ last, Lexes (.quote last) front (.text last :: .kw .and :: ((Col.device column).expr.tokens ++ [Token.sym .eq])) .idle

/-- A requirement of a text. -/
def requirement (link : Link) (front : List UInt8) : Option (List UInt8) → List UInt8
  | none => []
  | some v => front ++ link.escape v

def equation (column : String) (v : Option (List UInt8)) : List Equation := (v.map fun v => (column, .text v)).toList

section
variable {link : Link} {text : List UInt8} {c : Equation} {cs : List Equation}

lemma reads_named {v : List UInt8} (h : IsLiteral (link.escape v) v) : Reads (named link v) ("device_name", .text v) [] := by
  have front : Lexes .idle (bytes " WHERE t1.device_name = ")
      (.kw .where :: ((Col.device "device_name").expr.tokens ++ [Token.sym .eq])) .idle := lexes_bytes (by decide +kernel)
  exact ⟨_, v, front.append h, by simp [Equation.tokens, Value.tokens]⟩

lemma Reads.and {front : List UInt8} {column : String} {v : Option (List UInt8)} (h : Reads text c cs)
    (hf : Continues front column) (hv : ∀ s ∈ v, IsLiteral (link.escape s) s) :
    Reads (text ++ requirement link front v) c (cs ++ equation column v) := by
  cases v with
  | none => simpa [requirement, equation] using h
  | some s =>
    obtain ⟨ts, last, lexes, tokens⟩ := h
    have whole := lexes.append ((hf last).append (hv s rfl))
    refine ⟨ts ++ ([.text last] ++ Token.kw .and :: ((Col.device column).expr.tokens ++ [Token.sym .eq])), s, ?_, ?_⟩
    · simpa [requirement] using whole
    · rw [← List.append_assoc, tokens]
      simp [equation, Equation.tokens, Value.tokens]

/-- A statement that ends with the condition. -/
lemma Reads.parse {front : List UInt8} {cols : List Col} (h : Reads text c cs) (hs : Selects front cols)
    (null : ∀ d ∈ c :: cs, d.2 ≠ .null) : Sql.parse (front ++ text) = some (.select (joinedSelect cols (conj c cs))) := by
  obtain ⟨ts, last, lexes, tokens⟩ := h
  exact hs.parse lexes rfl (tokens ▸ .conj (derives_conj null))

/-- The tokens of an integer at the end. -/
lemma lexes_to_string (z : Int) : ∃ ts m ts', Lexes .idle (to_string z) ts m ∧ lexEnd m = some ts' ∧ ts ++ ts' = intTokens z := by
  cases z with
  | ofNat n => exact ⟨_, _, _, lexes_decimal n, rfl, rfl⟩
  | negSucc n =>
    have minus : Lexes .idle ['-'.toUInt8] [.sym .minus] .idle := by decide
    exact ⟨_, _, _, minus.append (lexes_decimal (n + 1)), rfl, rfl⟩

/-- A statement that ends with a number behind the condition. -/
lemma Reads.parse_int {front condition : List UInt8} {column : String} {cols : List Col} (h : Reads text c cs)
    (hs : Selects front cols) (hc : Continues condition column) (null : ∀ d ∈ c :: cs, d.2 ≠ .null) (z : Int) :
    Sql.parse (front ++ (text ++ (condition ++ to_string z))) =
      some (.select (joinedSelect cols (conj c (cs ++ [(column, .int z)])))) := by
  obtain ⟨ts, last, lexes, tokens⟩ := h
  obtain ⟨us, m, us', number, final, int⟩ := lexes_to_string z
  have whole := lexes.append ((hc last).append number)
  have shape : (.kw .where :: ts) ++ (.text last :: .kw .and :: ((Col.device column).expr.tokens ++ [Token.sym .eq]) ++ us) =
      .kw .where :: ((ts ++ [.text last]) ++ Token.kw .and :: ((Col.device column).expr.tokens ++ Token.sym .eq :: us)) := by simp
  rw [shape, tokens] at whole
  have values : ∀ d ∈ c :: (cs ++ [(column, Value.int z)]), d.2 ≠ .null := by
    intro d hd
    rw [← List.cons_append, List.mem_append, List.mem_singleton] at hd
    rcases hd with hd | rfl
    · exact null d hd
    · simp
  refine hs.parse whole final (.conj ?_)
  have last : Equation.tokens (column, .int z) = (Col.device column).expr.tokens ++ Token.sym .eq :: (us ++ us') := by rw [int]; rfl
  have derives := derives_conj values
  rw [List.flatMap_append, List.flatMap_singleton, last] at derives
  simpa using derives

/-- Behind a text that the lexer refuses there is no statement. -/
lemma Reads.parse_none {front condition : List UInt8} {cols : List Col} (h : Reads text c cs) (hs : Selects front cols)
    (bad : ∀ last, (lexRun (.quote last) condition).1 = .bad) (h0 : 0 ∉ condition) (rest : List UInt8) :
    Sql.parse (front ++ (text ++ (condition ++ rest))) = none := by
  obtain ⟨toks, head, -⟩ := hs
  obtain ⟨ts, last, lexes, -⟩ := h
  have whole := head.append lexes
  have run : (lexRun .idle (front ++ text ++ (condition ++ cStr rest))).1 = .bad := by
    have refused : lexRun (.quote last) condition = (.bad, (lexRun (.quote last) condition).2) := by rw [← bad last]
    have stays : lexRun .bad (cStr rest) = (.bad, (lexRun .bad (cStr rest)).2) := Prod.ext (lexRun_bad (cStr rest)) rfl
    rw [lexRun_append whole.2 (lexRun_append refused stays)]
  have none : lex (front ++ (text ++ (condition ++ rest))) = none := by
    rw [← List.append_assoc, lex, cStr_append whole.1, cStr_append h0]
    simp only [run]
    rfl
  rw [Sql.parse, none]
  rfl

end

/-! ## Endings -/

/-- On this database the computation ends so, and it changes nothing. -/
def Ends {α : Type} (db : Database) (m : DbM α) (r : Except Exn α) : Prop :=
  ∀ s, s.db = db → ∃ k, m s = (r, { s with sent := k })

section
variable {α β : Type} {db : Database} {link : Link}

lemma ends_bind {m : DbM α} {f : α → DbM β} {a : α} {r : Except Exn β} (hm : Gives db m a) (hf : Ends db (f a) r) :
    Ends db (m >>= f) r := by
  intro s hs
  obtain ⟨k, h1⟩ := hm s hs
  obtain ⟨k', h2⟩ := hf { s with sent := k } hs
  exact ⟨k', (bind_of_ok h1).trans h2⟩

lemma Ends.error_bind {m : DbM α} {e : Exn} (hm : Ends db m (.error e)) (f : α → DbM β) : Ends db (m >>= f) (.error e) := by
  intro s hs
  obtain ⟨k, h⟩ := hm s hs
  exact ⟨k, bind_of_error h⟩

lemma fetch_unreadable {statement : List UInt8} (hlink : ∀ n, link.fault n = .none) (hp : Sql.parse statement = none) :
    Ends db (fetch link statement) (.error .db) := by
  rintro s rfl
  refine ⟨s.sent + 1, ?_⟩
  unfold fetch select send
  simp only [hlink, hp]

lemma fetch_unbound {statement : List UInt8} {q : Select} (hlink : ∀ n, link.fault n = .none)
    (hp : Sql.parse statement = some (.select q)) (hq : ¬ q.bound schema) : Ends db (fetch link statement) (.error .db) := by
  rintro s rfl
  have run : q.run schema s.db = none := if_neg hq
  refine ⟨s.sent + 1, ?_⟩
  unfold fetch select send
  simp only [hlink, hp, run]

end

/-! ## What the payload makes of the statement -/

def number (front : List UInt8) : Option Int → List UInt8
  | none => []
  | some z => front ++ to_string z

/-- The requirements that both statements have, and that of the address. -/
def Form.condition (link : Link) (form : Form) : List UInt8 :=
  named link form.device_name ++ requirement link (bytes " AND t1.mac_address = ") form.mac_address ++
    requirement link (bytes " AND t1.address = ") form.address

/-- The requirements for the version. -/
def Form.versions (form : Form) : List UInt8 :=
  match form.version with
  | some z => bytes " AND t1.version = " ++ to_string z
  | none => number (bytes " AND t1.version <= ") form.maxVersion ++ number (bytes " AND t1.version >= ") form.minVersion

/-- The equations of the condition. -/
def Form.name (form : Form) : Equation := ("device_name", .text form.device_name)

def Form.equations (form : Form) : List Equation := equation "mac_address" form.mac_address ++ equation "address" form.address

section
variable {link : Link} {root : JsonValue} {form : Form}

lemma child_of {key : String} {v : JsonValue} (h : root.child (bytes key) = some v) : child root key = pure v := by
  rw [child, h]

lemma withMacAddress_eq {v : Option (List UInt8)} (h : IsText root "macAddressRequirement" v) (q : List UInt8) :
    withMacAddress link root q = pure (q ++ requirement link (bytes " AND t1.mac_address = ") v) := by
  cases v with
  | none =>
    rw [withMacAddress, child_of h, requirement, List.append_nil]
    rfl
  | some s =>
    obtain ⟨t, h, rfl⟩ := h
    rw [withMacAddress, child_of h]
    rfl

lemma withAddress_eq {v : Option (List UInt8)} (h : IsText root "addressRequirement" v) (q : List UInt8) :
    withAddress link root q = pure (q ++ requirement link (bytes " AND t1.address = ") v) := by
  cases v with
  | none =>
    rw [withAddress, child_of h, requirement, List.append_nil]
    rfl
  | some s =>
    obtain ⟨t, h, rfl⟩ := h
    rw [withAddress, child_of h]
    rfl

lemma isNumber_child {key : String} {v : Option Int} (h : IsNumber root key v) :
    child root key = pure (v.elim .null .number) := by
  cases v with
  | none => exact child_of h
  | some z => exact child_of h

lemma withVersions_eq (h : IsForm root form) (q : List UInt8) : withVersions root q = pure (q ++ form.versions) := by
  rw [withVersions, isNumber_child h.version, isNumber_child h.maxVersion, isNumber_child h.minVersion, Form.versions]
  cases form.version with
  | some z => rfl
  | none =>
    cases form.maxVersion with
    | none =>
      cases form.minVersion with
      | none =>
        rw [number, number, List.append_nil, List.append_nil]
        rfl
      | some z => rfl
    | some z =>
      cases form.minVersion with
      | none =>
        rw [number, number, List.append_nil]
        rfl
      | some z' =>
        rw [number, number, ← List.append_assoc q]
        rfl

lemma metamapLoop_eq {metamap : List Pair} (pairs : List Pair) (h : ((metamap ++ pairs.map Pair.seen).map Prod.fst).Nodup) :
    metamapLoop metamap (pairs.map fun kv => (some kv.1, .string kv.2)) = .ok (metamap ++ pairs.map Pair.seen) := by
  induction pairs generalizing metamap with
  | nil => simp [metamapLoop]
  | cons kv pairs ih =>
    have fresh : cStr kv.1 ∉ metamap.map Prod.fst := by
      rw [List.map_append, List.nodup_append] at h
      exact fun mem => h.2.2 _ mem _ (by simp [Pair.seen]) rfl
    show (if cStr kv.1 ∈ metamap.map Prod.fst then _ else metamapLoop (metamap ++ [Pair.seen kv]) _) = _
    rw [if_neg fresh, ih (by simpa using h), List.append_assoc]
    rfl

/-- The requirements for the metadata are read. -/
lemma metamap_eq (h : IsForm root form) : ∃ node, child root "metadata" = pure node ∧ metamap node = .ok form.metadata := by
  obtain ⟨e, h⟩ | ⟨pairs, h, e, nodup⟩ := h.metadata
  · refine ⟨_, child_of h, ?_⟩
    rw [e]
    rfl
  · refine ⟨_, child_of h, ?_⟩
    rw [metamap, nodes_metadataObject, e]
    exact metamapLoop_eq pairs (by simpa [e] using nodup)

lemma buildQuery_eq (h : IsForm root form) :
    buildQuery link form.device_name root = fetch link (head ++ (form.condition link ++ form.versions)) := by
  have pure_bind {α β : Type} (a : α) (f : α → DbM β) : (pure a >>= f : DbM β) = f a := rfl
  rw [buildQuery, withMacAddress_eq h.mac_address, pure_bind, withAddress_eq h.address, pure_bind, withVersions_eq h, pure_bind,
    Form.condition]
  simp only [List.append_assoc]

lemma getCount_eq (h : IsForm root form) : getCount link form.device_name root = fetchCount link
    (countHead ++ (named link form.device_name ++ requirement link (bytes " AND t1.mac_address = ") form.mac_address)) := by
  rw [getCount, withMacAddress_eq h.mac_address, ← List.append_assoc]
  rfl

/-- The two answers are what is left of the request. -/
lemma answers_eq (h : IsForm root form) : answers link root =
    (do return some (← getCount link form.device_name root, ← buildQuery link form.device_name root)) := by
  obtain ⟨t, name, e⟩ := h.device_name
  obtain ⟨node, metadata, read⟩ := metamap_eq h
  rw [answers, child_of name, metadata, ← e]
  show (reading (metamap node) >>= _) = _
  rw [read]
  rfl

end

/-! ## The answers of the database -/

/-- Both statements are made of these texts, and each of them is a literal. -/
structure Form.Escapes (form : Form) (link : Link) : Prop where
  device_name : IsLiteral (link.escape form.device_name) form.device_name
  mac_address : ∀ s ∈ form.mac_address, IsLiteral (link.escape s) s
  address : ∀ s ∈ form.address, IsLiteral (link.escape s) s

lemma continues_mac_address : Continues (bytes " AND t1.mac_address = ") "mac_address" :=
  fun _ => lexes_bytes ⟨by decide, rfl⟩

lemma continues_address : Continues (bytes " AND t1.address = ") "address" := fun _ => lexes_bytes ⟨by decide, rfl⟩

lemma continues_version : Continues (bytes " AND t1.version = ") "version" := fun _ => lexes_bytes ⟨by decide, rfl⟩

lemma selects_head : Selects head cols := by
  have front : Lexes .idle
      (bytes "SELECT t2.id, t2.version, t2.created_at, t2.updated_at, t2.end_of_validity, t2.metadata, ")
      (.kw .select :: (commas Expr.tokens ((cols.take 6).map Col.expr) ++ [Token.sym .comma])) .idle :=
    lexes_bytes (by decide +kernel)
  exact ⟨_, front.append lexes_device, fun ts => rfl⟩

/-- A comparison of a column that the devices have. -/
def Equation.Known (c : Equation) : Prop := c.2 ≠ .null ∧ hasColumn schema "device" c.1

lemma equation_known {column : String} (h : hasColumn schema "device" column) (v : Option (List UInt8)) :
    ∀ d ∈ equation column v, d.Known := by
  cases v with
  | none => simp [equation]
  | some s =>
    intro d hd
    obtain rfl : d = (column, .text s) := by simpa [equation] using hd
    exact ⟨by simp, h⟩

section
variable {link : Link} {form : Form}

lemma reads_count (h : form.Escapes link) : Reads (named link form.device_name ++
    requirement link (bytes " AND t1.mac_address = ") form.mac_address) form.name (equation "mac_address" form.mac_address) :=
  (reads_named h.device_name).and continues_mac_address h.mac_address

lemma reads_condition (h : form.Escapes link) : Reads (form.condition link) form.name form.equations :=
  (reads_count h).and continues_address h.address

lemma count_known (form : Form) : ∀ d ∈ form.name :: equation "mac_address" form.mac_address, d.Known :=
  List.forall_mem_cons.2 ⟨⟨by simp [Form.name], rfl⟩, equation_known rfl _⟩

lemma condition_known (form : Form) : ∀ d ∈ form.name :: form.equations, d.Known := by
  rw [Form.equations, ← List.cons_append]
  exact List.forall_mem_append.2 ⟨count_known form, equation_known rfl _⟩

lemma bound_joined {columns : Option (List Expr)} (h : columns = none ∨ columns = some (cols.map Col.expr)) (cond : Cond) :
    ({ joinedSelect [] cond with columns } : Select).bound schema = cond.bound schema [devices, registries] := by
  rcases h with rfl | rfl
  · show (cond.bound schema [devices, registries] && true) = _
    rw [Bool.and_true]
  · show (cond.bound schema [devices, registries] && true) = _
    rw [Bool.and_true]

lemma Reads.parseCount {text : List UInt8} {c : Equation} {cs : List Equation} (h : Reads text c cs)
    (null : ∀ d ∈ c :: cs, d.2 ≠ .null) :
    parseCount (countHead ++ text) = some { joinedSelect [] (conj c cs) with columns := none } := by
  obtain ⟨ts, last, lexes, tokens⟩ := h
  have front : Lexes .idle countHead
      (.kw .select :: .ident "COUNT" :: .sym .lparen :: .sym .star :: .sym .rparen :: joinTokens) .idle :=
    lexes_bytes (by decide +kernel)
  have whole : lex (countHead ++ text) = some (.kw .select :: .ident "COUNT" :: .sym .lparen :: .sym .star :: .sym .rparen ::
      (joinTokens ++ Token.kw .where :: (ts ++ [.text last]))) := by
    rw [lex_of_lexes (front.append lexes) rfl]
    simp
  have parsed : parseTokens (.kw .select :: (.sym .star :: joinTokens ++
      Token.kw .where :: (c.tokens ++ cs.flatMap fun d => Token.kw .and :: d.tokens))) =
        some (.select { joinedSelect [] (conj c cs) with columns := none }) :=
    parseTokens_joined (fun _ => rfl) (.conj (derives_conj null))
  rw [List.cons_append] at parsed
  rw [DevRegistry.parseCount, whole, tokens]
  simp only [Option.bind_eq_bind, Option.bind_some, parsed]

variable {db : Database} {root : JsonValue} (hlink : ∀ n, link.fault n = .none)

include hlink

/-- The devices are counted. -/
lemma getCount_gives (hform : IsForm root form) (h : form.Escapes link) :
    ∃ count, Gives db (getCount link form.device_name root) count := by
  have parsed := (reads_count h).parseCount fun d hd => (count_known form d hd).1
  have bound := (bound_joined (.inl rfl) _).trans (bound_conj.2 fun d hd => (count_known form d hd).2)
  obtain ⟨rows, run⟩ : ∃ rows, Select.run schema db { joinedSelect [] (conj form.name (equation "mac_address" form.mac_address))
      with columns := none } = some rows := ⟨_, if_pos bound⟩
  rw [getCount_eq hform]
  refine ⟨rows.length, ?_⟩
  rintro s rfl
  refine ⟨s.sent + 1, ?_⟩
  unfold fetchCount send
  simp only [hlink, parsed, Option.bind_some, run]

/-- Without requirements for the version the rows are those of the entries with the device. -/
lemma buildQuery_gives (hform : IsForm root form) (h : form.Escapes link) (hv : form.versions = []) :
    Gives db (buildQuery link form.device_name root)
      (((entries db).filter fun e => (conj form.name form.equations).eval schema e.env).map (Entry.row cols)) := by
  have parsed := (reads_condition h).parse selects_head fun d hd => (condition_known form d hd).1
  have bound := (bound_joined (.inr rfl) _).trans (bound_conj.2 fun d hd => (condition_known form d hd).2)
  rw [buildQuery_eq hform, hv, List.append_nil]
  exact select_gives link hlink parsed (run_joined bound db)

/-- With one of them the statement fails. -/
lemma buildQuery_fails (hform : IsForm root form) (h : form.Escapes link) (hv : form.versions ≠ []) :
    Ends db (buildQuery link form.device_name root) (.error .db) := by
  have reads := reads_condition h
  rw [buildQuery_eq hform]
  cases hz : form.version with
  | some z =>
    have parsed := reads.parse_int selects_head continues_version (fun d hd => (condition_known form d hd).1) z
    have bound : ¬ (conj form.name (form.equations ++ [("version", .int z)])).bound schema [devices, registries] := by
      rw [bound_conj]
      intro all
      have missing : ¬ hasColumn schema "device" "version" := by decide
      exact missing (all ("version", .int z) (by simp))
    rw [Form.versions, hz]
    exact fetch_unbound hlink parsed ((bound_joined (.inr rfl) _).symm ▸ bound)
  | none =>
    have refused (front : List UInt8) (bad : ∀ last, (lexRun (.quote last) front).1 = .bad) (h0 : 0 ∉ front) (rest : List UInt8) :
        Ends db (fetch link (head ++ (form.condition link ++ (front ++ rest)))) (.error .db) :=
      fetch_unreadable hlink (reads.parse_none selects_head bad h0 rest)
    rw [Form.versions, hz] at hv ⊢
    cases hmax : form.maxVersion with
    | some z =>
      rw [number, List.append_assoc]
      exact refused _ (fun _ => by rfl) (by decide) _
    | none =>
      cases hmin : form.minVersion with
      | some z => exact refused (bytes " AND t1.version >= ") (fun _ => by rfl) (by decide) _
      | none => simp [hmax, hmin, number] at hv

omit hlink in
lemma versions_eq_nil : form.versions = [] ↔ form.version = none ∧ form.maxVersion = none ∧ form.minVersion = none := by
  rw [Form.versions]
  cases form.version <;> cases form.maxVersion <;> cases form.minVersion <;> simp [number, to_string_ne_nil]

omit hlink in
/-- The condition is met by the entries with the device. -/
lemma eval_condition {e : Entry} (hdb : Typed db) (he : e ∈ entries db) :
    (conj form.name form.equations).eval schema e.env ↔ form.Selects e := by
  have typed {c : String} (hc : c ∈ ["device_name", "mac_address", "address"]) (s : List UInt8) :
      (e.device.get c).same (.text s) ↔ e.device.get c = .text s := Value.same_text (hdb _ (mem_entries.1 he).1 c hc)
  have some_iff {c : String} (hc : c ∈ ["device_name", "mac_address", "address"]) (v : Option (List UInt8)) :
      (∀ d ∈ equation c v, (e.device.get d.1).same d.2) ↔ ∀ s, v = some s → e.device.get c = .text s := by
    cases v with
    | none => simp [equation]
    | some s => simp [equation, typed hc]
  rw [eval_conj, Form.equations]
  simp only [List.forall_mem_cons, List.forall_mem_append, some_iff (c := "mac_address") (by simp),
    some_iff (c := "address") (by simp), Form.name, typed (c := "device_name") (by simp)]
  constructor
  · rintro ⟨device_name, mac_address, address⟩
    exact ⟨device_name, mac_address, address⟩
  · rintro ⟨device_name, mac_address, address⟩
    exact ⟨device_name, mac_address, address⟩

omit hlink in
/-- The key of an entry is in its row. -/
lemma row_injective {e e' : Entry} (h : e ∈ entries db) (h' : e' ∈ entries db) (same : e.row cols = e'.row cols) : e = e' := by
  have key (e : Entry) : (e.row cols)[0]? = some (.int e.registry.id) := rfl
  have ids : some (Value.int e.registry.id) = some (.int e'.registry.id) := by rw [← key, ← key, same]
  exact entry_unique h h' (by simpa using ids)

/-- The rows of the entries with the device. -/
lemma answers_gives (db : Database) (hform : IsForm root form) (h : form.Escapes link) (hv : form.versions = []) :
    ∃ count, Gives db (answers link root)
      (some (count, ((entries db).filter fun e => (conj form.name form.equations).eval schema e.env).map (Entry.row cols))) := by
  obtain ⟨count, counted⟩ : ∃ count, Gives db (getCount link form.device_name root) count := getCount_gives hlink hform h
  rw [answers_eq hform]
  exact ⟨count, counted.bind ((buildQuery_gives hlink hform h hv).bind (Gives.pure db _))⟩

lemma answers_fails (hform : IsForm root form) (h : form.Escapes link) (hv : form.versions ≠ []) :
    Ends db (answers link root) (.error .db) := by
  obtain ⟨count, counted⟩ : ∃ count, Gives db (getCount link form.device_name root) count := getCount_gives hlink hform h
  rw [answers_eq hform]
  exact ends_bind counted ((buildQuery_fails hlink hform h hv).error_bind _)

lemma not_lists_of_versions {s : Session} (hform : IsForm root form) (h : form.Escapes link) (hv : form.versions ≠ []) :
    ¬ Lists link root form s := by
  rintro ⟨count, listed, s', answer, -⟩
  obtain ⟨k, fails⟩ := answers_fails hlink hform h hv s rfl
  rw [fails] at answer
  cases answer

/-- The entries that meet the requirements are listed if none of them is about the version and none of those about the metadata
    would leave out an entry with the device. -/
theorem lists_iff {s : Session} (hform : IsForm root form) (h : form.Escapes link) (hdb : Typed s.db) :
    Lists link root form s ↔ (form.version = none ∧ form.maxVersion = none ∧ form.minVersion = none) ∧
      ∀ e ∈ entries s.db, form.Selects e → form.AdmitsMetadata e := by
  rw [← versions_eq_nil]
  constructor
  · intro lists
    have hv : form.versions = [] := by
      by_contra hv
      exact not_lists_of_versions hlink hform h hv lists
    obtain ⟨count, listed, s', answer, -, -, mem⟩ := lists
    obtain ⟨count', gives⟩ := answers_gives hlink s.db hform h hv
    obtain ⟨k, answer'⟩ := gives s rfl
    have rows : ((entries s.db).filter fun e => (conj form.name form.equations).eval schema e.env).map (Entry.row cols) =
        listed.map (Entry.row cols) := by
      rw [answer'] at answer
      exact (Prod.mk.inj (Option.some.inj (Except.ok.inj (Prod.mk.inj answer).1))).2
    refine ⟨hv, fun e he selects => ?_⟩
    have found : e ∈ (entries s.db).filter fun e => (conj form.name form.equations).eval schema e.env :=
      List.mem_filter.2 ⟨he, (eval_condition hdb he).2 selects⟩
    have row : e.row cols ∈ listed.map (Entry.row cols) := rows ▸ List.mem_map_of_mem found
    obtain ⟨e', he', same⟩ := List.mem_map.1 row
    obtain rfl := row_injective ((mem e').1 he').1 he same
    exact ((mem e').1 he').2.metadata
  · rintro ⟨hv, admits⟩
    obtain ⟨count, gives⟩ := answers_gives hlink s.db hform h hv
    obtain ⟨k, answer⟩ := gives s rfl
    obtain ⟨hversion, hmax, hmin⟩ := versions_eq_nil.1 hv
    refine ⟨count, _, _, answer, ?_, (entries_nodup s.db).filter _, fun e => ?_⟩
    · rw [query, answer, ← text_eq]
    · rw [List.mem_filter]
      constructor
      · rintro ⟨he, holds⟩
        have selects := (eval_condition hdb he).1 holds
        refine ⟨he, selects, ⟨?_, ?_, ?_⟩, admits e he selects⟩
        · simp [hversion]
        · simp [hmax]
        · simp [hmin]
      · rintro ⟨he, holds⟩
        exact ⟨he, (eval_condition hdb he).2 holds.selects⟩

end

/-! ## Requirements that are not met -/

def payload (requirements : List (List UInt8 × JsonValue)) : JsonValue :=
  .object ((bytes "deviceNameRequirement", .string (bytes "a")) :: requirements)

lemma typed_oneEntryDb : Typed oneEntryDb := by
  intro r hr c hc
  obtain rfl : r = oneEntry.device := List.mem_singleton.1 hr
  refine .inr ⟨bytes "a", ?_⟩
  simp only [List.mem_cons, List.not_mem_nil, or_false] at hc
  rcases hc with rfl | rfl | rfl <;> rfl

lemma escapes_a {form : Form} (name : form.device_name = bytes "a") (mac_address : form.mac_address = none)
    (address : form.address = none) : form.Escapes {} := by
  refine ⟨?_, ?_, ?_⟩
  · rw [name]
    exact isLiteral_plain (by decide)
  · simp [mac_address]
  · simp [address]

lemma isForm_a : IsForm (payload []) { device_name := bytes "a" } :=
  ⟨⟨_, rfl, rfl⟩, rfl, rfl, rfl, rfl, rfl, .inl ⟨rfl, rfl⟩⟩

lemma isForm_version : IsForm (payload [(bytes "versionRequirement", .number 1)]) { device_name := bytes "a", version := some 1 } :=
  ⟨⟨_, rfl, rfl⟩, rfl, rfl, rfl, rfl, rfl, .inl ⟨rfl, rfl⟩⟩

lemma isForm_metadata : IsForm (payload [(bytes "metadata", metadataObject [(bytes "k", bytes "v")])])
    { device_name := bytes "a", metadata := [(bytes "k", bytes "v")] } :=
  ⟨⟨_, rfl, rfl⟩, rfl, rfl, rfl, rfl, rfl, .inr ⟨_, rfl, rfl, by decide⟩⟩

/-- The entry is listed for the name of its device, and all the same if it has not the metadata. -/
theorem lists_one : Lists {} (payload []) { device_name := bytes "a" } ⟨oneEntryDb, none, 0⟩ ∧
    ¬ Lists {} (payload [(bytes "metadata", metadataObject [(bytes "k", bytes "v")])])
      { device_name := bytes "a", metadata := [(bytes "k", bytes "v")] } ⟨oneEntryDb, none, 0⟩ := by
  constructor
  · refine (lists_iff (fun _ => rfl) isForm_a (escapes_a rfl rfl rfl) typed_oneEntryDb).2 ⟨⟨rfl, rfl, rfl⟩, ?_⟩
    intro e he selects kv hkv
    cases hkv
  · intro lists
    have admits := ((lists_iff (fun _ => rfl) isForm_metadata (escapes_a rfl rfl rfl) typed_oneEntryDb).1 lists).2 oneEntry
      (by rw [show entries (Session.db ⟨oneEntryDb, none, 0⟩) = [oneEntry] from entries_oneEntryDb]; simp)
      ⟨rfl, by simp, by simp⟩
    have found : (bytes "k", bytes "v") ∈ decode (textOf (oneEntry.registry.get "metadata")) := admits _ (by simp)
    exact absurd found (by decide)

/-- With a requirement for the version the request fails. -/
theorem not_lists : ¬ ∀ (link : Link) (root : JsonValue) (form : Form) (s : Session), (∀ n, link.fault n = .none) →
    IsForm root form → form.Escapes link → Typed s.db → Lists link root form s := by
  intro all
  have lists := all {} _ _ ⟨oneEntryDb, none, 0⟩ (fun _ => rfl) isForm_version (escapes_a rfl rfl rfl) typed_oneEntryDb
  have requires : Form.versions { device_name := bytes "a", version := some 1 } ≠ [] := by
    rw [Ne, versions_eq_nil]
    simp
  exact not_lists_of_versions (fun _ => rfl) isForm_version (escapes_a rfl rfl rfl) requires lists

end Query

end ArrowheadCore.DevRegistry
