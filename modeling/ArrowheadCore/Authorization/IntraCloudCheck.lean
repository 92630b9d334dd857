import ArrowheadCore.Authorization.Rules
import ArrowheadCore.Json.JsonBuilder

/-!
# Checking authorization rules

Embedding of `Queries::IntraCloudCheck::checkRule` and of the endpoint above it
(`core/apps/Authorization/queries/IntraCloudCheck.h`, `core/apps/Authorization/endpoints/IntraCloudCheck.h`).
One statement joins the connections, the rules and the two systems of a rule; the rows come sorted by the
provider, and the endpoint writes one element for each run of rows with the same provider.

The main theorem follows the text of the statement to its meaning and the rows to the text of the response.
-/

namespace ArrowheadCore.Authorization
open Lib Lib.Sql Db Json

/-- C++ `Models::IntraCloudCheck` -/
structure IntraCloudCheck where
  address : List UInt8
  authenticationInfo : List UInt8
  port : Int
  systemName : List UInt8
  providerIdsWithInterfaceIds : List (Nat × List Int)
  serviceDefinitionId : Int
deriving DecidableEq, Repr

namespace IntraCloudCheck

/-! ## The statement -/

/-- The constant part of the statement. -/
def checkRuleHead : List UInt8 :=
  bytes "SELECT c1.id, c1.address, c1.port, c1.system_name, c1.authentication_info, " ++
  (bytes "c1.created_at, c1.updated_at,\n                                             p1.id AS provider, " ++
  (bytes "t1.interface_id AS interface\n\n                                      FROM " ++
  (bytes "authorization_intra_cloud_interface_connection t1\n                                      " ++
  (bytes "INNER JOIN authorization_intra_cloud t2 ON (t1.authorization_intra_cloud_id = t2.id)\n" ++
  (bytes "                                      INNER JOIN system_ c1 ON (c1.id = t2.consumer_system_id)\n" ++
  (bytes "                                      INNER JOIN system_ p1 ON (p1.id = t2.provider_system_id)\n" ++
  bytes "\n                                      WHERE"))))))

/-- The inner loop over the interface ids. -/
def interfacesLoop (q : List UInt8) : List Int → List UInt8
  | [] => q
  | y :: ys => interfacesLoop (q ++ (to_string y ++ bytes ",")) ys

/-- C++ `q[q.length() - 1] = ')'` -/
def closeLast (q : List UInt8) : List UInt8 := q.dropLast ++ bytes ")"

/-- The loop over the providers; the flag is `first`. -/
def providersLoop : Bool → List UInt8 → List (Nat × List Int) → List UInt8
  | _, q, [] => q
  | first, q, x :: xs =>
    let q := if !first then q ++ bytes " OR " else q
    let q := q ++ (bytes " (p1.id = " ++ (to_string x.1 ++ bytes " AND t1.interface_id IN ("))
    let q := closeLast (interfacesLoop q x.2)
    providersLoop false (q ++ bytes ")") xs

/-- The statement of `checkRule`. -/
def checkRuleQuery (link : Link) (model : IntraCloudCheck) : List UInt8 :=
  let q := checkRuleHead
  let q := q ++ (bytes " t2.service_id = " ++ to_string model.serviceDefinitionId)
  let q := q ++ (bytes " AND c1.port = " ++ to_string model.port)
  let q := q ++ (bytes " AND c1.address = " ++ link.escape model.address)
  let q := q ++ (bytes " AND c1.system_name = " ++ link.escape model.systemName)
  let q := q ++ (bytes " AND c1.authentication_info = " ++ link.escape model.authenticationInfo)
  let q := q ++ bytes " AND ( "
  let q := providersLoop true q model.providerIdsWithInterfaceIds
  q ++ bytes " ) ORDER BY p1.id ASC, t1.id ASC"

/-! ## The response -/

/-- C++ `Row::get` of a `long`: `0` for `NULL`. -/
def getLong (row : List Value) (column : Nat) : Int :=
  match row[column]? with
  | some (.int z) => z
  | some (.text s) => leadingInt s
  | _ => 0

/-- C++ `Row::get` of a string; `none` is `NULL`, which leaves an empty string. -/
def getString (row : List Value) (column : Nat) : Option (List UInt8) := (row[column]?).bind valueText

/-- C++ `write_dictionary_items` of the consumer, without its brackets. -/
def writeConsumer (row : List Value) (o : Out) : Out :=
  let o := writeNumber "id" (getLong row 0) o
  let o := writeText "address" ((getString row 1).getD []) o
  let o := writeNumber "port" (getLong row 2) o
  let o := writeText "systemName" ((getString row 3).getD []) o
  let o := match getString row 4 with
    | none => writeNull "authenticationInfo" o
    | some s => writeText "authenticationInfo" s o
  let o := writeText "createdAt" ((getString row 5).getD []) o
  writeText "updatedAt" ((getString row 6).getD []) o

/-- C++ `Response`: a text with the status OK, or a stock error. -/
inductive Reply where
  | content (text : List UInt8)
  | badRequest (message origin : String)
deriving DecidableEq, Repr

/-- The text for an answer that has rows; the fuel of the loop is the number of rows. -/
def checkRuleText (model : IntraCloudCheck) : List (List Value) → Option (List UInt8)
  | [] => some (bytes "\x7b\x7d")
  | r :: rs => do
    let o := writeNumber "serviceDefinitionId" model.serviceDefinitionId newBuilder
    let o := writeConsumer r (o.put (keyText "consumer" ++ bytes "\x7b"))
    let o := o.back.put (bytes "\x7d,")
    let (o, _) ← for_each "authorizedProviderIdsWithInterfaceIds" (groupCallback (getLong · 7) (getLong · 8))
      (rs.length + 1) o (r :: rs)
    some (str o)

/-- C++ `Endpoint::IntraCloudCheck::checkRule`; exceptions of the database are caught. -/
def checkRule (link : Link) (model : IntraCloudCheck) : DbM Reply := fun s =>
  match fetch link (checkRuleQuery link model) s with
  | (.ok rows, s) =>
    match checkRuleText model rows with
    | some text => (.ok (.content text), s)
    | none => (.error .abort, s)
  | (.error .abort, s) => (.error .abort, s)
  | (.error _, s) => (.ok (.badRequest "Parameter error." "/mgmt/intracloud"), s)

/-! ## The statement as a `SELECT` -/

/-- What one provider of the request adds to the statement. -/
def termText (x : Nat × List Int) : List UInt8 :=
  bytes " (p1.id = " ++ (to_string x.1 ++ (bytes " AND t1.interface_id IN (" ++ (valuesText x.2 ++ bytes ")")))

lemma closeLast_interfacesLoop (y : Int) (ys : List Int) (q : List UInt8) :
    closeLast (interfacesLoop q (y :: ys)) = q ++ valuesText (y :: ys) := by
  induction ys generalizing y q with
  | nil =>
    have e : bytes "," = [','.toUInt8] := by decide
    simp [interfacesLoop, closeLast, valuesText, e, ← List.append_assoc]
  | cons z zs ih =>
    rw [interfacesLoop, ih, valuesText]
    simp only [List.append_assoc]

lemma providersLoop_cons {first : Bool} {x : Nat × List Int} (hx : x.2 ≠ []) (q : List UInt8)
    (xs : List (Nat × List Int)) :
    providersLoop first q (x :: xs) =
      providersLoop false ((if !first then q ++ bytes " OR " else q) ++ termText x) xs := by
  obtain ⟨p, ids⟩ := x
  cases ids with
  | nil => exact absurd rfl hx
  | cons y ys =>
    rw [providersLoop, closeLast_interfacesLoop]
    simp only [termText, List.append_assoc]

lemma providersLoop_eq {xs : List (Nat × List Int)} (h : ∀ x ∈ xs, x.2 ≠ []) (q : List UInt8) :
    providersLoop false q xs = q ++ xs.flatMap fun x => bytes " OR " ++ termText x := by
  induction xs generalizing q with
  | nil => simp [providersLoop]
  | cons x xs ih =>
    rw [providersLoop_cons (h x (by simp)), ih fun x hx => h x (by simp [hx])]
    simp

/-- The tokens of one provider. -/
def termTokens (x : Nat × List Int) : List Token :=
  .sym .lparen :: ((Expr.tokens (.col (some "p1") "id") ++ Token.sym .eq :: intTokens x.1) ++
    Token.kw .and :: (Expr.tokens (.col (some "t1") "interface_id") ++ Token.kw .in :: .sym .lparen ::
      (commas Value.tokens (x.2.map .int) ++ [Token.sym .rparen])) ++ [Token.sym .rparen])

def termCond (x : Nat × List Int) : Cond :=
  .and (.eq (.col (some "p1") "id") (.lit (.int x.1))) (.isIn (.col (some "t1") "interface_id") (x.2.map .int))

def alternatives (x : Nat × List Int) : List (Nat × List Int) → Cond
  | [] => termCond x
  | y :: ys => .or (termCond x) (alternatives y ys)

lemma lexes_term {x : Nat × List Int} (hx : x.2 ≠ []) : Lexes .idle (termText x) (termTokens x) .idle := by
  have close : Lexes .idle (bytes ")") [.sym .rparen] .idle := lexes_bytes (by decide)
  have mid : Lexes .idle (bytes " AND t1.interface_id IN (")
      (.kw .and :: (Expr.tokens (.col (some "t1") "interface_id") ++ [Token.kw .in, .sym .lparen])) .idle :=
    lexes_bytes (by decide)
  have head : Lexes .idle (bytes " (p1.id = ")
      (.sym .lparen :: (Expr.tokens (.col (some "p1") "id") ++ [Token.sym .eq])) .idle := lexes_bytes (by decide)
  have := head.append ((mid.append ((lexes_values hx).append close)).to_string (delimits_cons _ (by decide)) x.1)
  simpa [termText, termTokens] using this

lemma lexes_alternatives {x : Nat × List Int} {xs : List (Nat × List Int)} (hx : x.2 ≠ [])
    (h : ∀ x ∈ xs, x.2 ≠ []) :
    Lexes .idle (termText x ++ xs.flatMap fun x => bytes " OR " ++ termText x)
      (termTokens x ++ xs.flatMap fun x => Token.kw .or :: termTokens x) .idle := by
  have or_ : Lexes .idle (bytes " OR ") [.kw .or] .idle := lexes_bytes (by decide)
  induction xs generalizing x with
  | nil => simpa using lexes_term hx
  | cons y ys ih =>
    have rest := ih (h y (by simp)) fun x hx => h x (by simp [hx])
    simpa using (lexes_term hx).append (or_.append rest)

lemma derives_term {x : Nat × List Int} (hx : x.2 ≠ []) : Derives .conj (termCond x) (termTokens x) := by
  have ids : x.2.map Value.int ≠ [] := by simpa using hx
  refine .term (.paren (.conj (.and (.eq (by simp) (by simp)) (.term (.isIn (by simp) ids (by simp))))))

lemma derives_alternatives {x : Nat × List Int} {xs : List (Nat × List Int)} (hx : x.2 ≠ [])
    (h : ∀ x ∈ xs, x.2 ≠ []) :
    Derives .disj (alternatives x xs) (termTokens x ++ xs.flatMap fun x => Token.kw .or :: termTokens x) := by
  induction xs generalizing x with
  | nil => simpa [alternatives] using Derives.conj (derives_term hx)
  | cons y ys ih => exact .or (derives_term hx) (ih (h y (by simp)) fun x hx => h x (by simp [hx]))

/-- A qualified column. -/
def column (t c : String) : Expr := .col (some t) c

/-- The condition of the statement. -/
def checkRuleCond (model : IntraCloudCheck) (x : Nat × List Int) (xs : List (Nat × List Int)) : Cond :=
  .and (.eq (column "t2" "service_id") (.lit (.int model.serviceDefinitionId)))
    (.and (.eq (column "c1" "port") (.lit (.int model.port)))
      (.and (.eq (column "c1" "address") (.lit (.text model.address)))
        (.and (.eq (column "c1" "system_name") (.lit (.text model.systemName)))
          (.and (.eq (column "c1" "authentication_info") (.lit (.text model.authenticationInfo)))
            (alternatives x xs)))))

def connections : Source := ⟨"authorization_intra_cloud_interface_connection", "t1"⟩
def rules : Source := ⟨"authorization_intra_cloud", "t2"⟩
def consumers : Source := ⟨"system_", "c1"⟩
def providers : Source := ⟨"system_", "p1"⟩

def checkRuleSelect (model : IntraCloudCheck) (x : Nat × List Int) (xs : List (Nat × List Int)) : Select where
  columns := some [column "c1" "id", column "c1" "address", column "c1" "port", column "c1" "system_name",
    column "c1" "authentication_info", column "c1" "created_at", column "c1" "updated_at", column "p1" "id",
    column "t1" "interface_id"]
  source := connections
  joins := [(rules, .eq (column "t1" "authorization_intra_cloud_id") (column "t2" "id")),
    (consumers, .eq (column "c1" "id") (column "t2" "consumer_system_id")),
    (providers, .eq (column "p1" "id") (column "t2" "provider_system_id"))]
  cond := some (checkRuleCond model x xs)
  order := [(column "p1" "id", false), (column "t1" "id", false)]

/-- The tokens in front of the condition. -/
def headTokens : List Token :=
  .kw .select :: (commas Expr.tokens [column "c1" "id", column "c1" "address", column "c1" "port",
    column "c1" "system_name", column "c1" "authentication_info", column "c1" "created_at", column "c1" "updated_at"] ++
  Token.sym .comma :: (Expr.tokens (column "p1" "id") ++ Token.kw .as :: .ident "provider" :: .sym .comma ::
  (Expr.tokens (column "t1" "interface_id") ++ Token.kw .as :: .ident "interface" :: .kw .from ::
  .ident "authorization_intra_cloud_interface_connection" :: .ident "t1" ::
  .kw .inner :: .kw .join :: .ident "authorization_intra_cloud" :: .ident "t2" :: .kw .on :: .sym .lparen ::
  (Expr.tokens (column "t1" "authorization_intra_cloud_id") ++ Token.sym .eq :: (Expr.tokens (column "t2" "id") ++
  Token.sym .rparen :: .kw .inner :: .kw .join :: .ident "system_" :: .ident "c1" :: .kw .on :: .sym .lparen ::
  (Expr.tokens (column "c1" "id") ++ Token.sym .eq :: (Expr.tokens (column "t2" "consumer_system_id") ++
  Token.sym .rparen :: .kw .inner :: .kw .join :: .ident "system_" :: .ident "p1" :: .kw .on :: .sym .lparen ::
  (Expr.tokens (column "p1" "id") ++ Token.sym .eq :: (Expr.tokens (column "t2" "provider_system_id") ++
  [Token.sym .rparen, .kw .where])))))))))

lemma lexes_head : Lexes .idle (checkRuleHead ++ bytes " ") headTokens .idle := by
  have a : Lexes .idle (bytes "SELECT c1.id, c1.address, c1.port, c1.system_name, c1.authentication_info, ")
      (.kw .select :: (commas Expr.tokens [column "c1" "id", column "c1" "address", column "c1" "port",
        column "c1" "system_name", column "c1" "authentication_info"] ++ [Token.sym .comma])) .idle :=
    lexes_bytes (by decide +kernel)
  have b : Lexes .idle
      (bytes "c1.created_at, c1.updated_at,\n                                             p1.id AS provider, ")
      (commas Expr.tokens [column "c1" "created_at", column "c1" "updated_at"] ++
        Token.sym .comma :: (Expr.tokens (column "p1" "id") ++ [Token.kw .as, .ident "provider", .sym .comma])) .idle :=
    lexes_bytes (by decide +kernel)
  have c : Lexes .idle (bytes "t1.interface_id AS interface\n\n                                      FROM ")
      (Expr.tokens (column "t1" "interface_id") ++ [Token.kw .as, .ident "interface", .kw .from]) .idle :=
    lexes_bytes (by decide +kernel)
  have d : Lexes .idle
      (bytes "authorization_intra_cloud_interface_connection t1\n                                      ")
      [.ident "authorization_intra_cloud_interface_connection", .ident "t1"] .idle := lexes_bytes (by decide +kernel)
  have e : Lexes .idle
      (bytes "INNER JOIN authorization_intra_cloud t2 ON (t1.authorization_intra_cloud_id = t2.id)\n")
      (.kw .inner :: .kw .join :: .ident "authorization_intra_cloud" :: .ident "t2" :: .kw .on :: .sym .lparen ::
        (Expr.tokens (column "t1" "authorization_intra_cloud_id") ++ Token.sym .eq :: (Expr.tokens (column "t2" "id") ++
          [Token.sym .rparen]))) .idle := lexes_bytes (by decide +kernel)
  have f : Lexes .idle
      (bytes "                                      INNER JOIN system_ c1 ON (c1.id = t2.consumer_system_id)\n")
      (.kw .inner :: .kw .join :: .ident "system_" :: .ident "c1" :: .kw .on :: .sym .lparen ::
        (Expr.tokens (column "c1" "id") ++ Token.sym .eq :: (Expr.tokens (column "t2" "consumer_system_id") ++
          [Token.sym .rparen]))) .idle := lexes_bytes (by decide +kernel)
  have g : Lexes .idle
      (bytes "                                      INNER JOIN system_ p1 ON (p1.id = t2.provider_system_id)\n")
      (.kw .inner :: .kw .join :: .ident "system_" :: .ident "p1" :: .kw .on :: .sym .lparen ::
        (Expr.tokens (column "p1" "id") ++ Token.sym .eq :: (Expr.tokens (column "t2" "provider_system_id") ++
          [Token.sym .rparen]))) .idle := lexes_bytes (by decide +kernel)
  have w : Lexes .idle (bytes "\n                                      WHERE" ++ bytes " ") [.kw .where] .idle := by
    decide +kernel
  have := a.append (b.append (c.append (d.append (e.append (f.append (g.append w))))))
  simpa [checkRuleHead, headTokens, commas] using this

/-- The tokens of the condition. -/
def condTokens (model : IntraCloudCheck) (x : Nat × List Int) (xs : List (Nat × List Int)) : List Token :=
  Expr.tokens (column "t2" "service_id") ++ Token.sym .eq :: (intTokens model.serviceDefinitionId ++
  Token.kw .and :: (Expr.tokens (column "c1" "port") ++ Token.sym .eq :: (intTokens model.port ++
  Token.kw .and :: (Expr.tokens (column "c1" "address") ++ Token.sym .eq :: .text model.address ::
  .kw .and :: (Expr.tokens (column "c1" "system_name") ++ Token.sym .eq :: .text model.systemName ::
  .kw .and :: (Expr.tokens (column "c1" "authentication_info") ++ Token.sym .eq :: .text model.authenticationInfo ::
  .kw .and :: .sym .lparen ::
    ((termTokens x ++ xs.flatMap fun x => Token.kw .or :: termTokens x) ++ [Token.sym .rparen])))))))

lemma derives_cond (model : IntraCloudCheck) {x : Nat × List Int} {xs : List (Nat × List Int)} (hx : x.2 ≠ [])
    (h : ∀ x ∈ xs, x.2 ≠ []) : Derives .disj (checkRuleCond model x xs) (condTokens model x xs) := by
  have eq {t c : String} {v : Value} (hv : v ≠ .null) :
      Derives .term (.eq (column t c) (.lit v)) (Expr.tokens (column t c) ++ Token.sym .eq :: v.tokens) :=
    .eq (by simp [column]) (by simpa using hv)
  have last := Derives.term (.paren (derives_alternatives hx h))
  have c5 := (eq (t := "c1") (c := "authentication_info") (v := .text model.authenticationInfo) (by simp)).and last
  have c4 := (eq (t := "c1") (c := "system_name") (v := .text model.systemName) (by simp)).and c5
  have c3 := (eq (t := "c1") (c := "address") (v := .text model.address) (by simp)).and c4
  have c2 := (eq (t := "c1") (c := "port") (v := .int model.port) (by simp)).and c3
  have c1 := (eq (t := "t2") (c := "service_id") (v := .int model.serviceDefinitionId) (by simp)).and c2
  simpa [checkRuleCond, condTokens, Value.tokens] using c1.conj

/-- The tokens behind the condition. -/
def orderTokens : List Token :=
  [.kw .order, .kw .by, .ident "p1", .sym .dot, .ident "id", .kw .asc, .sym .comma, .ident "t1", .sym .dot, .ident "id",
    .kw .asc]

lemma parseTokens_checkRule (model : IntraCloudCheck) {x : Nat × List Int} {xs : List (Nat × List Int)} (hx : x.2 ≠ [])
    (h : ∀ x ∈ xs, x.2 ≠ []) :
    parseTokens (headTokens ++ (condTokens model x xs ++ orderTokens)) =
      some (.select (checkRuleSelect model x xs)) := by
  have cond : parseCond (condFuel (condTokens model x xs ++ orderTokens)) .disj (condTokens model x xs ++ orderTokens) =
      some (checkRuleCond model x xs, orderTokens) := by
    refine parseCond_derives (derives_cond model hx h) ?_ (by simp [Level.Closed, orderTokens])
    simp only [Level.fuel, condFuel, List.length_append]
    omega
  have select : parseSelect (headTokens.tail ++ (condTokens model x xs ++ orderTokens)) =
      (do
        let cond ← parseWhere (.kw .where :: (condTokens model x xs ++ orderTokens))
        let order ← parseOrder cond.2
        some (⟨(checkRuleSelect model x xs).columns, connections, (checkRuleSelect model x xs).joins, cond.1, order.1⟩, order.2)) :=
    rfl
  have order : parseOrder orderTokens = some ((checkRuleSelect model x xs).order, []) := rfl
  show parseQuery (headTokens.tail ++ (condTokens model x xs ++ orderTokens)) >>= atEnd = _
  rw [parseQuery, select, parseWhere, cond]
  simp only [Option.map_some, Option.bind_eq_bind, Option.bind_some, order]
  rfl

/-- What the statement means. -/
theorem parse_checkRuleQuery {link : Link} {model : IntraCloudCheck} {x : Nat × List Int} {xs : List (Nat × List Int)}
    (hm : model.providerIdsWithInterfaceIds = x :: xs) (hx : x.2 ≠ []) (h : ∀ x ∈ xs, x.2 ≠ [])
    (haddress : IsLiteral (link.escape model.address) model.address)
    (hname : IsLiteral (link.escape model.systemName) model.systemName)
    (hauth : IsLiteral (link.escape model.authenticationInfo) model.authenticationInfo) :
    parse (checkRuleQuery link model) = some (.select (checkRuleSelect model x xs)) := by
  have service : Lexes .idle (bytes "t2.service_id = ") (Expr.tokens (column "t2" "service_id") ++ [Token.sym .eq]) .idle :=
    lexes_bytes (by decide +kernel)
  have port : Lexes .idle (bytes " AND c1.port = ") (.kw .and :: (Expr.tokens (column "c1" "port") ++ [Token.sym .eq])) .idle :=
    lexes_bytes (by decide +kernel)
  have address : Lexes .idle (bytes " AND c1.address = ")
      (.kw .and :: (Expr.tokens (column "c1" "address") ++ [Token.sym .eq])) .idle := lexes_bytes (by decide +kernel)
  have name : Lexes .idle (bytes " AND c1.system_name = ")
      (.kw .and :: (Expr.tokens (column "c1" "system_name") ++ [Token.sym .eq])) .idle := lexes_bytes (by decide +kernel)
  have auth : Lexes .idle (bytes " AND c1.authentication_info = ")
      (.kw .and :: (Expr.tokens (column "c1" "authentication_info") ++ [Token.sym .eq])) .idle :=
    lexes_bytes (by decide +kernel)
  have opened : Lexes .idle (bytes " AND ( ") [.kw .and, .sym .lparen] .idle := lexes_bytes (by decide +kernel)
  have order : Lexes .idle (bytes " ) ORDER BY p1.id ASC, t1.id ASC") (.sym .rparen :: orderTokens.dropLast)
      (.word (bytes "ASC")) := lexes_bytes (by decide +kernel)
  have blank {p s : List UInt8} (h : p.head? = some 32) : (p ++ s).head? ≠ some QUOTE := by
    have ne : (32 : UInt8) ≠ QUOTE := by decide
    rw [List.head?_append, h]
    simp [ne]
  have l0 := opened.append ((lexes_alternatives hx h).append order)
  have l1 := auth.append (l0.literal (delimits_cons _ (by decide)) hauth (blank rfl))
  have l2 := name.append (l1.literal (delimits_cons _ (by decide)) hname (blank rfl))
  have l3 := address.append (l2.literal (delimits_cons _ (by decide)) haddress (blank rfl))
  have l4 := port.append (l3.to_string (delimits_cons _ (by decide)) model.port)
  have l5 := service.append (l4.to_string (delimits_cons _ (by decide)) model.serviceDefinitionId)
  have last : lexEnd (.word (bytes "ASC")) = some [.kw .asc] := by decide +kernel
  have hl := lex_of_lexes (lexes_head.append l5) last
  have e : bytes " t2.service_id = " = bytes " " ++ bytes "t2.service_id = " := by decide +kernel
  have text : checkRuleQuery link model = checkRuleHead ++ bytes " " ++ (bytes "t2.service_id = " ++
      (to_string model.serviceDefinitionId ++ (bytes " AND c1.port = " ++ (to_string model.port ++
      (bytes " AND c1.address = " ++ (link.escape model.address ++ (bytes " AND c1.system_name = " ++
      (link.escape model.systemName ++ (bytes " AND c1.authentication_info = " ++ (link.escape model.authenticationInfo ++
      (bytes " AND ( " ++ ((termText x ++ xs.flatMap fun x => bytes " OR " ++ termText x) ++
      bytes " ) ORDER BY p1.id ASC, t1.id ASC")))))))))))) := by
    simp only [checkRuleQuery, hm, e]
    rw [providersLoop_cons hx, providersLoop_eq h]
    simp only [Bool.not_true, Bool.false_eq_true, if_false, List.append_assoc]
  rw [parse, text, hl, Option.bind_eq_bind, Option.bind_some, ← parseTokens_checkRule model hx h]
  simp [condTokens, orderTokens]

/-! ## The text of the response -/

def memberNumber (key : String) (z : Int) : List UInt8 := keyText key ++ to_string z

def memberText (key : String) (s : List UInt8) : List UInt8 := keyText key ++ (bytes "\"" ++ (s ++ bytes "\""))

/-- The members of the consumer. -/
def consumerMembers (row : List Value) : List (List UInt8) :=
  [memberNumber "id" (getLong row 0), memberText "address" ((getString row 1).getD []),
    memberNumber "port" (getLong row 2), memberText "systemName" ((getString row 3).getD []),
    match getString row 4 with
    | none => keyText "authenticationInfo" ++ bytes "null"
    | some s => memberText "authenticationInfo" s,
    memberText "createdAt" ((getString row 5).getD []), memberText "updatedAt" ((getString row 6).getD [])]

/-- The text of the response that lists these providers with their interfaces. -/
def replyText (model : IntraCloudCheck) (consumer : List Value) : List (Int × List Int) → List UInt8
  | [] => bytes "\x7b\x7d"
  | g :: gs =>
    bytes "\x7b" ++ (commaList
      [memberNumber "serviceDefinitionId" model.serviceDefinitionId,
        keyText "consumer" ++ (bytes "\x7b" ++ (commaList (consumerMembers consumer) ++ bytes "\x7d")),
        keyText "authorizedProviderIdsWithInterfaceIds" ++
          (bytes "[" ++ (commaList ((g :: gs).map groupText) ++ bytes "]"))] ++ bytes "\x7d")

lemma writeConsumer_eq (row : List Value) (t : List UInt8) :
    writeConsumer row (Out.ofText t) = Out.ofText (t ++ (consumerMembers row).flatMap fun x => x ++ bytes ",") := by
  have quote : bytes "\"," = bytes "\"" ++ bytes "," := by decide
  have null : bytes "null," = bytes "null" ++ bytes "," := by decide
  cases e : getString row 4 <;>
    simp only [writeConsumer, consumerMembers, writeNumber, writeText, writeNull, memberNumber, memberText, e, quote, null,
      Out.put_ofText, List.flatMap_cons, List.flatMap_nil, List.append_assoc, List.append_nil]

lemma checkRuleText_eq (model : IntraCloudCheck) {rows : List (List Value)} :
    checkRuleText model rows = some (replyText model (rows.headD [])
      (groups (rows.map fun r => (getLong r 7, getLong r 8)))) := by
  have e1 : bytes "\x7d," = '}'.toUInt8 :: bytes "," := by decide
  have e2 : bytes "]," = bytes "]" ++ bytes "," := by decide
  have e3 : bytes "\x7d" = ['}'.toUInt8] := by decide
  cases rows with
  | nil => rfl
  | cons r rs =>
    have start : newBuilder = Out.ofText (bytes "\x7b") := by decide
    have members : consumerMembers r ≠ [] := by simp [consumerMembers]
    obtain ⟨g, gs, hg⟩ : ∃ g gs, groups ((r :: rs).map fun r => (getLong r 7, getLong r 8)) = g :: gs := by
      rw [List.map_cons, groups_cons]
      exact ⟨_, _, rfl⟩
    have list := for_each_groups "authorizedProviderIdsWithInterfaceIds" (getLong · 7) (getLong · 8)
      (List.cons_ne_nil r rs)
    rw [hg] at list ⊢
    simp only [checkRuleText, start, writeNumber, Out.put_ofText, writeConsumer_eq, e1, close_list _ members]
    rw [← List.length_cons, list]
    show some (str (Out.ofText _)) = _
    rw [e2]
    simp only [← List.append_assoc]
    rw [str_ofText]
    simp [replyText, commaList, memberNumber, e3]

/-! ## The rows -/

/-- The columns have the types that the comments above the query give them. -/
structure Typed (db : Database) : Prop where
  connection : ∀ r ∈ (db "authorization_intra_cloud_interface_connection").rows,
    (∃ z, r.get "authorization_intra_cloud_id" = .int z) ∧ ∃ z, r.get "interface_id" = .int z
  rule : ∀ r ∈ (db "authorization_intra_cloud").rows,
    (∃ z, r.get "consumer_system_id" = .int z) ∧ (∃ z, r.get "provider_system_id" = .int z) ∧
      ∃ z, r.get "service_id" = .int z
  system : ∀ r ∈ (db "system_").rows,
    (∃ s, r.get "system_name" = .text s) ∧ (∃ s, r.get "address" = .text s) ∧ (∃ z, r.get "port" = .int z) ∧
      (r.get "authentication_info" = .null ∨ ∃ s, r.get "authentication_info" = .text s)

/-- The provider was requested together with the interface. -/
def Requested (model : IntraCloudCheck) (p i : Int) : Prop :=
  ∃ x ∈ model.providerIdsWithInterfaceIds, (x.1 : Int) = p ∧ i ∈ x.2

/-- The system is the consumer of the request. -/
structure IsConsumer (model : IntraCloudCheck) (system : Row) : Prop where
  address : system.get "address" = .text model.address
  port : system.get "port" = .int model.port
  systemName : system.get "system_name" = .text model.systemName
  authenticationInfo : system.get "authentication_info" = .text model.authenticationInfo

/-- A stored rule for the consumer and the service of the request links the provider and is connected to the
    interface. -/
def Authorized (db : Database) (model : IntraCloudCheck) (p i : Int) : Prop :=
  ∃ rule ∈ (db "authorization_intra_cloud").rows,
    rule.get "service_id" = .int model.serviceDefinitionId ∧
    (∃ consumer ∈ (db "system_").rows,
      rule.get "consumer_system_id" = .int consumer.id ∧ IsConsumer model consumer) ∧
    (∃ provider ∈ (db "system_").rows, rule.get "provider_system_id" = .int provider.id ∧ (provider.id : Int) = p) ∧
    ∃ connection ∈ (db "authorization_intra_cloud_interface_connection").rows,
      connection.get "authorization_intra_cloud_id" = .int rule.id ∧ connection.get "interface_id" = .int i

/-- One combination of rows. -/
def joined (t1 t2 c1 p1 : Row) : Env := [(connections, t1), (rules, t2), (consumers, c1), (providers, p1)]

section
variable {db : Database} {model : IntraCloudCheck} {x : Nat × List Int} {xs : List (Nat × List Int)}

/-- The joins connect a connection to its rule and the rule to its systems. -/
lemma mem_combine {env : Env} (hdb : Typed db) :
    env ∈ (checkRuleSelect model x xs).combine schema db ↔
      ∃ t1 ∈ (db "authorization_intra_cloud_interface_connection").rows,
      ∃ t2 ∈ (db "authorization_intra_cloud").rows, ∃ c1 ∈ (db "system_").rows, ∃ p1 ∈ (db "system_").rows,
        env = joined t1 t2 c1 p1 ∧ t1.get "authorization_intra_cloud_id" = .int t2.id ∧
        t2.get "consumer_system_id" = .int c1.id ∧ t2.get "provider_system_id" = .int p1.id := by
  simp only [Select.combine, checkRuleSelect, List.foldl_cons, List.foldl_nil, List.mem_flatMap, List.mem_filter,
    List.mem_map]
  constructor
  · rintro ⟨_, ⟨_, ⟨_, ⟨t1, h1, rfl⟩, ⟨t2, h2, rfl⟩, e1⟩, ⟨c1, h3, rfl⟩, e2⟩, ⟨p1, h4, rfl⟩, e3⟩
    have f1 : (t1.get "authorization_intra_cloud_id").same (.int t2.id) := e1
    have f2 : (Value.int c1.id).same (t2.get "consumer_system_id") := e2
    have f3 : (Value.int p1.id).same (t2.get "provider_system_id") := e3
    have h := hdb.rule t2 h2
    exact ⟨t1, h1, t2, h2, c1, h3, p1, h4, rfl, (Value.same_int (hdb.connection t1 h1).1).1 f1, (Value.int_same h.1).1 f2,
      (Value.int_same h.2.1).1 f3⟩
  · rintro ⟨t1, h1, t2, h2, c1, h3, p1, h4, rfl, e1, e2, e3⟩
    have h := hdb.rule t2 h2
    exact ⟨_, ⟨_, ⟨_, ⟨t1, h1, rfl⟩, ⟨t2, h2, rfl⟩, (Value.same_int (hdb.connection t1 h1).1).2 e1⟩, ⟨c1, h3, rfl⟩,
      (Value.int_same h.1).2 e2⟩, ⟨p1, h4, rfl⟩, (Value.int_same h.2.1).2 e3⟩

lemma eval_alternatives {t1 t2 c1 p1 : Row} (h1 : ∃ z, t1.get "interface_id" = .int z) :
    (alternatives x xs).eval schema (joined t1 t2 c1 p1) ↔
      ∃ y ∈ x :: xs, y.1 = p1.id ∧ ∃ i ∈ y.2, t1.get "interface_id" = .int i := by
  have term (y : Nat × List Int) : (termCond y).eval schema (joined t1 t2 c1 p1) ↔
      y.1 = p1.id ∧ ∃ i ∈ y.2, t1.get "interface_id" = .int i := by
    have e : (termCond y).eval schema (joined t1 t2 c1 p1) =
      ((Value.int p1.id).same (.int y.1) && (y.2.map Value.int).any fun v => (t1.get "interface_id").same v) := rfl
    rw [e, Bool.and_eq_true, List.any_map, List.any_eq_true]
    simp only [Function.comp_apply, Value.same_int h1]
    refine and_congr ?_ Iff.rfl
    simp only [Value.same, beq_iff_eq, Nat.cast_inj]
    exact eq_comm
  induction xs generalizing x with
  | nil => simp [alternatives, term]
  | cons y ys ih =>
    have e : (alternatives x (y :: ys)).eval schema (joined t1 t2 c1 p1) =
      ((termCond x).eval schema (joined t1 t2 c1 p1) || (alternatives y ys).eval schema (joined t1 t2 c1 p1)) := rfl
    have tail : (alternatives y ys).eval schema (joined t1 t2 c1 p1) ↔
        ∃ z ∈ y :: ys, z.1 = p1.id ∧ ∃ i ∈ z.2, t1.get "interface_id" = .int i := ih
    rw [e, Bool.or_eq_true, term, tail]
    simp

lemma eval_cond {t1 t2 c1 p1 : Row} (h1 : ∃ z, t1.get "interface_id" = .int z)
    (h2 : ∃ z, t2.get "service_id" = .int z) (hdb : Typed db) (hc : c1 ∈ (db "system_").rows) :
    (checkRuleCond model x xs).eval schema (joined t1 t2 c1 p1) ↔
      t2.get "service_id" = .int model.serviceDefinitionId ∧ IsConsumer model c1 ∧
      ∃ y ∈ x :: xs, y.1 = p1.id ∧ ∃ i ∈ y.2, t1.get "interface_id" = .int i := by
  obtain ⟨name, address, port, auth⟩ := hdb.system c1 hc
  have e : (checkRuleCond model x xs).eval schema (joined t1 t2 c1 p1) =
      ((t2.get "service_id").same (.int model.serviceDefinitionId) && ((c1.get "port").same (.int model.port) &&
        ((c1.get "address").same (.text model.address) && ((c1.get "system_name").same (.text model.systemName) &&
          ((c1.get "authentication_info").same (.text model.authenticationInfo) &&
            (alternatives x xs).eval schema (joined t1 t2 c1 p1)))))) := rfl
  rw [e]
  simp only [Bool.and_eq_true, Value.same_int h2, Value.same_int port, Value.same_text (.inr address),
    Value.same_text (.inr name), Value.same_text auth,
    eval_alternatives h1]
  constructor
  · rintro ⟨h1, h2, h3, h4, h5, h6⟩
    exact ⟨h1, ⟨h3, h2, h4, h5⟩, h6⟩
  · rintro ⟨h1, ⟨h3, h2, h4, h5⟩, h6⟩
    exact ⟨h1, h2, h3, h4, h5, h6⟩

lemma bound_alternatives : (alternatives x xs).bound schema [connections, rules, consumers, providers] := by
  have term (y : Nat × List Int) : (termCond y).bound schema [connections, rules, consumers, providers] := rfl
  induction xs generalizing x with
  | nil => exact term x
  | cons y ys ih =>
    rw [alternatives, Cond.bound, term, ih]
    rfl

lemma bound_checkRule : (checkRuleSelect model x xs).bound schema := by
  have cond : (checkRuleCond model x xs).bound schema [connections, rules, consumers, providers] =
      (alternatives x xs).bound schema [connections, rules, consumers, providers] := rfl
  have e : (checkRuleSelect model x xs).bound schema =
      (true && (checkRuleCond model x xs).bound schema [connections, rules, consumers, providers] && true) := rfl
  rw [e, cond, bound_alternatives]
  rfl

lemma project_provider (t1 t2 c1 p1 : Row) :
    getLong ((checkRuleSelect model x xs).project schema (joined t1 t2 c1 p1)) 7 = p1.id := rfl

lemma project_interface {t1 : Row} {i : Int} (h : t1.get "interface_id" = .int i) (t2 c1 p1 : Row) :
    getLong ((checkRuleSelect model x xs).project schema (joined t1 t2 c1 p1)) 8 = i := by
  have cell : ((checkRuleSelect model x xs).project schema (joined t1 t2 c1 p1))[8]? = some (t1.get "interface_id") := rfl
  rw [getLong, cell, h]

/-- The rows of the answer list what was requested and is authorized, sorted by the provider. -/
lemma run_checkRule (hm : model.providerIdsWithInterfaceIds = x :: xs) (hdb : Typed db) :
    ∃ rows, (checkRuleSelect model x xs).run schema db = some rows ∧
      (rows.map fun r => (getLong r 7, getLong r 8)).Pairwise (fun a b => a.1 ≤ b.1) ∧
      ∀ p i, (p, i) ∈ (rows.map fun r => (getLong r 7, getLong r 8)) ↔
        Requested model p i ∧ Authorized db model p i := by
  obtain ⟨rows, hr⟩ : ∃ rows, (checkRuleSelect model x xs).run schema db = some rows := by
    unfold Select.run
    rw [if_pos bound_checkRule]
    exact ⟨_, rfl⟩
  obtain ⟨envs, rfl, sorted, -, mem⟩ := Select.run_spec hr
  have cond (env : Env) : (checkRuleSelect model x xs).cond.all (Cond.eval schema env) =
      (checkRuleCond model x xs).eval schema env := rfl
  refine ⟨_, hr, ?_, fun p i => ?_⟩
  · rw [List.map_map, List.pairwise_map]
    refine sorted.imp_of_mem fun {a b} ha hb hab => ?_
    obtain ⟨t1, -, t2, -, c1, -, p1, -, rfl, -⟩ := (mem_combine hdb).1 ((mem a).1 ha).1
    obtain ⟨t1', -, t2', -, c1', -, p1', -, rfl, -⟩ := (mem_combine hdb).1 ((mem b).1 hb).1
    have le : (Value.int p1.id).le (.int p1'.id) := (keysLe_cons.1 hab).1
    simpa [Value.le, project_provider] using le
  · rw [List.map_map, List.mem_map]
    constructor
    · rintro ⟨env, henv, e⟩
      obtain ⟨h1, h2⟩ := (mem env).1 henv
      obtain ⟨t1, m1, t2, m2, c1, m3, p1, m4, rfl, j1, j2, j3⟩ := (mem_combine hdb).1 h1
      have intf := (hdb.connection t1 m1).2
      rw [cond, eval_cond intf (hdb.rule t2 m2).2.2 hdb m3] at h2
      obtain ⟨service, consumer, y, hy, hp, j, hj, hi⟩ := h2
      have e7 : (p1.id : Int) = p := congrArg Prod.fst e
      obtain rfl : j = i := (project_interface hi t2 c1 p1).symm.trans (congrArg Prod.snd e)
      exact ⟨⟨y, hm ▸ hy, by rw [hp, e7], hj⟩, t2, m2, service, ⟨c1, m3, j2, consumer⟩, ⟨p1, m4, j3, e7⟩, t1, m1, j1, hi⟩
    · rintro ⟨⟨y, hy, hp, hj⟩, t2, m2, service, ⟨c1, m3, j2, consumer⟩, ⟨p1, m4, j3, e7⟩, t1, m1, j1, hi⟩
      refine ⟨joined t1 t2 c1 p1, (mem _).2 ⟨(mem_combine hdb).2 ⟨t1, m1, t2, m2, c1, m3, p1, m4, rfl, j1, j2, j3⟩, ?_⟩, ?_⟩
      · rw [cond, eval_cond (hdb.connection t1 m1).2 (hdb.rule t2 m2).2.2 hdb m3]
        exact ⟨service, consumer, y, hm ▸ hy, by omega, i, hj, hi⟩
      · exact Prod.ext e7 (project_interface hi t2 c1 p1)

/-- The response lists exactly the authorizations that were requested, and every provider once. -/
theorem checkRule_lists {link : Link} {s : Session} (hlink : ∀ n, link.fault n = .none)
    (hp : model.providerIdsWithInterfaceIds ≠ []) (hi : ∀ x ∈ model.providerIdsWithInterfaceIds, x.2 ≠ [])
    (haddress : IsLiteral (link.escape model.address) model.address)
    (hname : IsLiteral (link.escape model.systemName) model.systemName)
    (hauth : IsLiteral (link.escape model.authenticationInfo) model.authenticationInfo) (hdb : Typed s.db) :
    ∃ consumer listed s', checkRule link model s = (.ok (.content (replyText model consumer listed)), s') ∧
      s'.db = s.db ∧ (listed.map Prod.fst).Nodup ∧
      ∀ p i, Grouped listed p i ↔ Requested model p i ∧ Authorized s.db model p i := by
  cases hm : model.providerIdsWithInterfaceIds with
  | nil => exact absurd hm hp
  | cons x xs =>
    rw [hm] at hi
    have text : parse (checkRuleQuery link model) = some (.select (checkRuleSelect model x xs)) :=
      parse_checkRuleQuery hm (hi x (by simp)) (fun y hy => hi y (by simp [hy])) haddress hname hauth
    obtain ⟨rows, hr, sorted, mem⟩ := run_checkRule hm hdb
    obtain ⟨k, hf⟩ : ∃ k, fetch link (checkRuleQuery link model) s = (.ok rows, { s with sent := k }) :=
      select_gives link hlink text hr s rfl
    refine ⟨rows.headD [], groups (rows.map fun r => (getLong r 7, getLong r 8)), { s with sent := k }, ?_, rfl, ?_, ?_⟩
    · rw [checkRule, hf]
      simp only [checkRuleText_eq]
    · exact List.pairwise_map.2 ((groups_sorted sorted).imp fun h => ne_of_lt h)
    · intro p i
      rw [grouped_groups, mem]

end

/-- Two systems and a rule between them that is connected to the interface `5`. -/
def oneRule : Database := fun t =>
  if t = "system_" then
    ⟨[⟨1, fun c => if c = "port" then .int 80 else .text (bytes "c")⟩,
      ⟨2, fun c => if c = "port" then .int 81 else .text (bytes "p")⟩], 2, by simp, by simp⟩
  else if t = "authorization_intra_cloud" then
    ⟨[⟨1, fun c => if c = "consumer_system_id" then .int 1 else if c = "provider_system_id" then .int 2 else .int 7⟩], 1,
      by simp, by simp⟩
  else if t = "authorization_intra_cloud_interface_connection" then
    ⟨[⟨1, fun c => if c = "authorization_intra_cloud_id" then .int 1 else .int 5⟩], 1, by simp, by simp⟩
  else ⟨[], 0, Table.ordered_nil, Table.assigned_nil⟩

theorem checkRule_lists_one :
    ∃ consumer listed s', checkRule {} ⟨bytes "c", bytes "c", 80, bytes "c", [(2, [4, 5])], 7⟩ ⟨oneRule, none, 0⟩ =
        (.ok (.content (replyText ⟨bytes "c", bytes "c", 80, bytes "c", [(2, [4, 5])], 7⟩ consumer listed)), s') ∧
      s'.db = oneRule ∧ (listed.map Prod.fst).Nodup ∧
      ∀ p i, Grouped listed p i ↔ Requested ⟨bytes "c", bytes "c", 80, bytes "c", [(2, [4, 5])], 7⟩ p i ∧
        Authorized oneRule ⟨bytes "c", bytes "c", 80, bytes "c", [(2, [4, 5])], 7⟩ p i := by
  have plain : IsLiteral ((({} : Link)).escape (bytes "c")) (bytes "c") := by decide
  refine checkRule_lists (fun _ => rfl) (by simp) (by simp) plain plain plain ⟨?_, ?_, ?_⟩
  · simp [oneRule, Sql.Row.get]
  · simp [oneRule, Sql.Row.get]
  · simp [oneRule, Sql.Row.get]

end IntraCloudCheck

end ArrowheadCore.Authorization
