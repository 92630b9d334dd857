import ArrowheadCore.Authorization.IntraCloudCheck
import ArrowheadCore.Authorization.Providers
import ArrowheadCore.Json.Emission

/-!
# Checking authorization rules between clouds

Embedding of `Queries::InterCloudCheck::checkRule` and of the endpoint above it
(`core/apps/Authorization/queries/InterCloudCheck.h`, `core/apps/Authorization/endpoints/InterCloudCheck.h`). The
statement joins the connections with their rules, the cloud and the provider of a rule, and the two kinds of relays of the
cloud. Nothing in it makes the rows distinct, so that an interface comes once for every two relays of the cloud.
-/

namespace ArrowheadCore.Authorization
open Lib Lib.Sql Db Json

/-- C++ `Models::InterCloudCheck` -/
structure InterCloudCheck where
  name : List UInt8
  authenticationInfo : List UInt8
  op : List UInt8
  neighbor : Bool
  secure : Bool
  gatekeeperRelayIds : List Int
  gatewayRelayIds : List Int
  providerIdsWithInterfaceIds : List (Int × List Int)
  serviceDefinitionId : Int
deriving DecidableEq, Repr

namespace InterCloudCheck
open IntraCloudCheck (interfacesLoop closeLast closeLast_interfacesLoop getLong getString Reply column)
open Providers (alternatives alternativesText alternativesTokens)

/-! ## The statement -/

/-- The constant part of the statement. -/
def checkRuleHead : List UInt8 :=
  bytes "SELECT t2.consumer_cloud_id, c1.name, c1.operator, c1.secure, c1.neighbor, c1.own_cloud, " ++
  (bytes "c1.authentication_info, c1.created_at, c1.updated_at,\n                                             " ++
  (bytes "p1.id AS provider, t1.interface_id AS interface\n\n                                      FROM " ++
  (bytes "authorization_inter_cloud_interface_connection t1\n                                      " ++
  (bytes "INNER JOIN authorization_inter_cloud t2 ON (t1.authorization_inter_cloud_id = t2.id)\n" ++
  (bytes "                                      INNER JOIN cloud   c1 ON (c1.id = t2.consumer_cloud_id)\n" ++
  (bytes "                                      INNER JOIN system_ p1 ON (p1.id = t2.provider_system_id)\n\n" ++
  (bytes "                                      " ++
  (bytes "INNER JOIN cloud_gatekeeper_relay gk ON (gk.cloud_id = t2.consumer_cloud_id)\n" ++
  (bytes "                                      " ++
  (bytes "INNER JOIN cloud_gateway_relay    gw ON (gw.cloud_id = t2.consumer_cloud_id)\n" ++
  bytes "\n                                      WHERE"))))))))))

/-- The loop over the providers; the flag is `first`. -/
def providersLoop : Bool → List UInt8 → List (Int × List Int) → List UInt8
  | _, q, [] => q
  | first, q, x :: xs =>
    let q := if !first then q ++ bytes " OR " else q
    let q := q ++ (bytes " (p1.id = " ++ (to_string x.1 ++ bytes " AND t1.interface_id IN ("))
    let q := closeLast (interfacesLoop q x.2)
    providersLoop false (q ++ bytes ")") xs

/-- The statement of `checkRule`. -/
def checkRuleQuery (link : Link) (model : InterCloudCheck) : List UInt8 :=
  let q := checkRuleHead
  let q := q ++ (bytes " t2.service_id = " ++ to_string model.serviceDefinitionId)
  let q := q ++ (bytes " AND c1.neighbor = " ++ if model.neighbor then bytes "1" else bytes "0")
  let q := q ++ (bytes " AND c1.secure = " ++ if model.secure then bytes "1" else bytes "0")
  let q := q ++ (bytes " AND c1.operator = " ++ link.escape model.op)
  let q := q ++ (bytes " AND c1.name = " ++ link.escape model.name)
  let q := q ++ (bytes " AND c1.authentication_info = " ++ link.escape model.authenticationInfo)
  let q := closeLast (interfacesLoop (q ++ bytes " AND (gk.relay_id IN (") model.gatekeeperRelayIds)
  let q := closeLast (interfacesLoop (q ++ bytes ") AND (gw.relay_id IN (") model.gatewayRelayIds)
  let q := q ++ bytes ") AND ( "
  let q := providersLoop true q model.providerIdsWithInterfaceIds
  q ++ bytes " ) ORDER BY p1.id ASC, t1.id ASC"

/-! ## The response -/

/-- C++ `Row::get` for the types that are used. -/
def columns : Columns (List Value) where
  text row i := getString row i
  int row i :=
    match row[i]? with
    | some (.int z) => some z
    | some (.text s) => some (leadingInt s)
    | _ => none

/-- The members of the cloud. -/
def cloudHeaders : List Header :=
  [⟨bytes "id", .int, false⟩, ⟨bytes "name", .text, false⟩, ⟨bytes "operator", .text, false⟩, ⟨bytes "secure", .bool, false⟩,
    ⟨bytes "neighbor", .bool, false⟩, ⟨bytes "ownCloud", .bool, false⟩, ⟨bytes "authenticationInfo", .text, true⟩,
    ⟨bytes "createdAt", .text, false⟩, ⟨bytes "updatedAt", .text, false⟩]

/-- The text for an answer; the fuel of the loop is the number of rows. -/
def checkRuleText (model : InterCloudCheck) : List (List Value) → Option (List UInt8)
  | [] => some (bytes "\x7b\x7d")
  | r :: rs => do
    let o := writeNumber "serviceDefinitionId" model.serviceDefinitionId newBuilder
    let o := write_dictionary_items columns (some (bytes "cloud")) cloudHeaders r 0 o
    let (o, _) ← for_each "authorizedProviderIdsWithInterfaceIds" (groupCallback (getLong · 9) (getLong · 10))
      (rs.length + 1) o (r :: rs)
    some (str o)

/-- C++ `Endpoint::InterCloudCheck::checkRule`; exceptions of the database are caught. -/
def checkRule (link : Link) (model : InterCloudCheck) : DbM Reply := fun s =>
  match fetch link (checkRuleQuery link model) s with
  | (.ok rows, s) =>
    match checkRuleText model rows with
    | some text => (.ok (.content text), s)
    | none => (.error .abort, s)
  | (.error .abort, s) => (.error .abort, s)
  | (.error _, s) => (.ok (.badRequest "Parameter error." "/mgmt/intracloud"), s)

/-! ## The statement as a `SELECT` -/

lemma providersLoop_cons {first : Bool} {x : Int × List Int} (hx : x.2 ≠ []) (q : List UInt8) (xs : List (Int × List Int)) :
    providersLoop first q (x :: xs) =
      providersLoop false ((if !first then q ++ bytes " OR " else q) ++ Providers.termText x) xs := by
  obtain ⟨p, ids⟩ := x
  cases ids with
  | nil => exact absurd rfl hx
  | cons y ys =>
    rw [providersLoop, closeLast_interfacesLoop]
    simp only [Providers.termText, List.append_assoc]

lemma providersLoop_eq {x : Int × List Int} {xs : List (Int × List Int)} (h : ∀ y ∈ x :: xs, y.2 ≠ []) (q : List UInt8) :
    providersLoop true q (x :: xs) = q ++ alternativesText x xs := by
  have rest : ∀ {xs : List (Int × List Int)}, (∀ y ∈ xs, y.2 ≠ []) → ∀ q,
      providersLoop false q xs = q ++ xs.flatMap fun x => bytes " OR " ++ Providers.termText x := by
    intro xs
    induction xs with
    | nil => simp [providersLoop]
    | cons x xs ih =>
      intro h q
      rw [providersLoop_cons (h x (by simp)), ih fun x hx => h x (by simp [hx])]
      simp
  rw [providersLoop_cons (h x (by simp)), rest fun y hy => h y (List.mem_cons_of_mem _ hy)]
  simp [alternativesText]

/-- A flag as the statement writes it. -/
def flag (b : Bool) : Int := if b then 1 else 0

lemma flagText (b : Bool) : (if b then bytes "1" else bytes "0") = to_string (flag b) := by
  cases b with
  | true => decide
  | false => decide

/-- The condition of the statement. -/
def checkRuleCond (model : InterCloudCheck) (x : Int × List Int) (xs : List (Int × List Int)) : Cond :=
  .and (.eq (column "t2" "service_id") (.lit (.int model.serviceDefinitionId)))
    (.and (.eq (column "c1" "neighbor") (.lit (.int (flag model.neighbor))))
      (.and (.eq (column "c1" "secure") (.lit (.int (flag model.secure))))
        (.and (.eq (column "c1" "operator") (.lit (.text model.op)))
          (.and (.eq (column "c1" "name") (.lit (.text model.name)))
            (.and (.eq (column "c1" "authentication_info") (.lit (.text model.authenticationInfo)))
              (.and (.isIn (column "gk" "relay_id") (model.gatekeeperRelayIds.map .int))
                (.and (.isIn (column "gw" "relay_id") (model.gatewayRelayIds.map .int))
                  (alternatives x xs))))))))

def connections : Source := ⟨"authorization_inter_cloud_interface_connection", "t1"⟩
def rules : Source := ⟨"authorization_inter_cloud", "t2"⟩
def clouds : Source := ⟨"cloud", "c1"⟩
def providers : Source := ⟨"system_", "p1"⟩
def gatekeepers : Source := ⟨"cloud_gatekeeper_relay", "gk"⟩
def gateways : Source := ⟨"cloud_gateway_relay", "gw"⟩

def checkRuleSelect (model : InterCloudCheck) (x : Int × List Int) (xs : List (Int × List Int)) : Select where
  columns := some [column "t2" "consumer_cloud_id", column "c1" "name", column "c1" "operator", column "c1" "secure",
    column "c1" "neighbor", column "c1" "own_cloud", column "c1" "authentication_info", column "c1" "created_at",
    column "c1" "updated_at", column "p1" "id", column "t1" "interface_id"]
  source := connections
  joins := [(rules, .eq (column "t1" "authorization_inter_cloud_id") (column "t2" "id")),
    (clouds, .eq (column "c1" "id") (column "t2" "consumer_cloud_id")),
    (providers, .eq (column "p1" "id") (column "t2" "provider_system_id")),
    (gatekeepers, .eq (column "gk" "cloud_id") (column "t2" "consumer_cloud_id")),
    (gateways, .eq (column "gw" "cloud_id") (column "t2" "consumer_cloud_id"))]
  cond := some (checkRuleCond model x xs)
  order := [(column "p1" "id", false), (column "t1" "id", false)]

/-- The tokens of a join. -/
def joinTokens (source : Source) (a b : Expr) : List Token :=
  .kw .inner :: .kw .join :: .ident source.table :: .ident source.name :: .kw .on :: .sym .lparen ::
    (a.tokens ++ Token.sym .eq :: (b.tokens ++ [Token.sym .rparen]))

/-- The tokens in front of the condition. -/
def headTokens : List Token :=
  .kw .select :: (commas Expr.tokens [column "t2" "consumer_cloud_id", column "c1" "name", column "c1" "operator",
    column "c1" "secure", column "c1" "neighbor", column "c1" "own_cloud", column "c1" "authentication_info",
    column "c1" "created_at", column "c1" "updated_at"] ++
  Token.sym .comma :: (Expr.tokens (column "p1" "id") ++ Token.kw .as :: .ident "provider" :: .sym .comma ::
  (Expr.tokens (column "t1" "interface_id") ++ Token.kw .as :: .ident "interface" :: .kw .from ::
  .ident "authorization_inter_cloud_interface_connection" :: .ident "t1" ::
  (joinTokens rules (column "t1" "authorization_inter_cloud_id") (column "t2" "id") ++
  (joinTokens clouds (column "c1" "id") (column "t2" "consumer_cloud_id") ++
  (joinTokens providers (column "p1" "id") (column "t2" "provider_system_id") ++
  (joinTokens gatekeepers (column "gk" "cloud_id") (column "t2" "consumer_cloud_id") ++
  (joinTokens gateways (column "gw" "cloud_id") (column "t2" "consumer_cloud_id") ++ [Token.kw .where]))))))))

lemma lexes_head : Lexes .idle (checkRuleHead ++ bytes " ") headTokens .idle := by
  have a : Lexes .idle
      (bytes "SELECT t2.consumer_cloud_id, c1.name, c1.operator, c1.secure, c1.neighbor, c1.own_cloud, ")
      (.kw .select :: (commas Expr.tokens [column "t2" "consumer_cloud_id", column "c1" "name", column "c1" "operator",
        column "c1" "secure", column "c1" "neighbor", column "c1" "own_cloud"] ++ [Token.sym .comma])) .idle :=
    lexes_bytes (by decide +kernel)
  have b : Lexes .idle
      (bytes "c1.authentication_info, c1.created_at, c1.updated_at,\n                                             ")
      (commas Expr.tokens [column "c1" "authentication_info", column "c1" "created_at", column "c1" "updated_at"] ++
        [Token.sym .comma]) .idle := lexes_bytes (by decide +kernel)
  have c : Lexes .idle (bytes "p1.id AS provider, t1.interface_id AS interface\n\n                                      FROM ")
      (Expr.tokens (column "p1" "id") ++ Token.kw .as :: .ident "provider" :: .sym .comma ::
        (Expr.tokens (column "t1" "interface_id") ++ [Token.kw .as, .ident "interface", .kw .from])) .idle :=
    lexes_bytes (by decide +kernel)
  have d : Lexes .idle
      (bytes "authorization_inter_cloud_interface_connection t1\n                                      ")
      [.ident "authorization_inter_cloud_interface_connection", .ident "t1"] .idle := lexes_bytes (by decide +kernel)
  have e : Lexes .idle
      (bytes "INNER JOIN authorization_inter_cloud t2 ON (t1.authorization_inter_cloud_id = t2.id)\n")
      (joinTokens rules (column "t1" "authorization_inter_cloud_id") (column "t2" "id")) .idle :=
    lexes_bytes (by decide +kernel)
  have f : Lexes .idle
      (bytes "                                      INNER JOIN cloud   c1 ON (c1.id = t2.consumer_cloud_id)\n")
      (joinTokens clouds (column "c1" "id") (column "t2" "consumer_cloud_id")) .idle := lexes_bytes (by decide +kernel)
  have g : Lexes .idle
      (bytes "                                      INNER JOIN system_ p1 ON (p1.id = t2.provider_system_id)\n\n")
      (joinTokens providers (column "p1" "id") (column "t2" "provider_system_id")) .idle := lexes_bytes (by decide +kernel)
  have blank : Lexes .idle (bytes "                                      ") [] .idle := lexes_bytes (by decide +kernel)
  have h : Lexes .idle (bytes "INNER JOIN cloud_gatekeeper_relay gk ON (gk.cloud_id = t2.consumer_cloud_id)\n")
      (joinTokens gatekeepers (column "gk" "cloud_id") (column "t2" "consumer_cloud_id")) .idle :=
    lexes_bytes (by decide +kernel)
  have i : Lexes .idle (bytes "INNER JOIN cloud_gateway_relay    gw ON (gw.cloud_id = t2.consumer_cloud_id)\n")
      (joinTokens gateways (column "gw" "cloud_id") (column "t2" "consumer_cloud_id")) .idle :=
    lexes_bytes (by decide +kernel)
  have w : Lexes .idle (bytes "\n                                      WHERE" ++ bytes " ") [.kw .where] .idle := by
    decide +kernel
  have := a.append (b.append (c.append (d.append (e.append (f.append (g.append (blank.append (h.append (blank.append
    (i.append w))))))))))
  simpa [checkRuleHead, headTokens, commas] using this

/-- The tokens of a list of relays. -/
def relayTokens (t : String) (ids : List Int) : List Token :=
  .sym .lparen :: (Expr.tokens (column t "relay_id") ++ Token.kw .in :: .sym .lparen ::
    (commas Value.tokens (ids.map .int) ++ [Token.sym .rparen]) ++ [Token.sym .rparen])

/-- The tokens of the condition. -/
def condTokens (model : InterCloudCheck) (x : Int × List Int) (xs : List (Int × List Int)) : List Token :=
  Expr.tokens (column "t2" "service_id") ++ Token.sym .eq :: (intTokens model.serviceDefinitionId ++
  Token.kw .and :: (Expr.tokens (column "c1" "neighbor") ++ Token.sym .eq :: (intTokens (flag model.neighbor) ++
  Token.kw .and :: (Expr.tokens (column "c1" "secure") ++ Token.sym .eq :: (intTokens (flag model.secure) ++
  Token.kw .and :: (Expr.tokens (column "c1" "operator") ++ Token.sym .eq :: .text model.op ::
  .kw .and :: (Expr.tokens (column "c1" "name") ++ Token.sym .eq :: .text model.name ::
  .kw .and :: (Expr.tokens (column "c1" "authentication_info") ++ Token.sym .eq :: .text model.authenticationInfo ::
  .kw .and :: (relayTokens "gk" model.gatekeeperRelayIds ++ Token.kw .and :: (relayTokens "gw" model.gatewayRelayIds ++
  Token.kw .and :: .sym .lparen :: (alternativesTokens x xs ++ [Token.sym .rparen])))))))))))

section
variable {model : InterCloudCheck} {x : Int × List Int} {xs : List (Int × List Int)}

lemma derives_relay {t : String} {ids : List Int} (h : ids ≠ []) :
    Derives .term (.isIn (column t "relay_id") (ids.map .int)) (relayTokens t ids) := by
  have values : ids.map Value.int ≠ [] := by simpa using h
  exact .paren (.conj (.term (.isIn (by simp [column]) values (by simp))))

lemma derives_cond (h : ∀ y ∈ x :: xs, y.2 ≠ []) (hgk : model.gatekeeperRelayIds ≠ []) (hgw : model.gatewayRelayIds ≠ []) :
    Derives .disj (checkRuleCond model x xs) (condTokens model x xs) := by
  have eq {t c : String} {v : Value} (hv : v ≠ .null) :
      Derives .term (.eq (column t c) (.lit v)) (Expr.tokens (column t c) ++ Token.sym .eq :: v.tokens) :=
    .eq (by simp [column]) (by simpa using hv)
  have last := Derives.term (.paren (Providers.derives_alternatives h))
  have c8 := (derives_relay (t := "gw") hgw).and last
  have c7 := (derives_relay (t := "gk") hgk).and c8
  have c6 := (eq (t := "c1") (c := "authentication_info") (v := .text model.authenticationInfo) (by simp)).and c7
  have c5 := (eq (t := "c1") (c := "name") (v := .text model.name) (by simp)).and c6
  have c4 := (eq (t := "c1") (c := "operator") (v := .text model.op) (by simp)).and c5
  have c3 := (eq (t := "c1") (c := "secure") (v := .int (flag model.secure)) (by simp)).and c4
  have c2 := (eq (t := "c1") (c := "neighbor") (v := .int (flag model.neighbor)) (by simp)).and c3
  have c1 := (eq (t := "t2") (c := "service_id") (v := .int model.serviceDefinitionId) (by simp)).and c2
  simpa [checkRuleCond, condTokens, Value.tokens] using c1.conj

/-- The tokens behind the condition. -/
def orderTokens : List Token :=
  [.kw .order, .kw .by, .ident "p1", .sym .dot, .ident "id", .kw .asc, .sym .comma, .ident "t1", .sym .dot, .ident "id",
    .kw .asc]

lemma parseTokens_checkRule (h : ∀ y ∈ x :: xs, y.2 ≠ []) (hgk : model.gatekeeperRelayIds ≠ [])
    (hgw : model.gatewayRelayIds ≠ []) :
    parseTokens (headTokens ++ (condTokens model x xs ++ orderTokens)) = some (.select (checkRuleSelect model x xs)) := by
  have cond : parseCond (condFuel (condTokens model x xs ++ orderTokens)) .disj (condTokens model x xs ++ orderTokens) =
      some (checkRuleCond model x xs, orderTokens) := by
    refine parseCond_derives (derives_cond h hgk hgw) ?_ (by simp [Level.Closed, orderTokens])
    simp only [Level.fuel, condFuel, List.length_append]
    omega
  have select : parseSelect (headTokens.tail ++ (condTokens model x xs ++ orderTokens)) =
      (do
        let cond ← parseWhere (.kw .where :: (condTokens model x xs ++ orderTokens))
        let order ← parseOrder cond.2
        some (⟨(checkRuleSelect model x xs).columns, connections, (checkRuleSelect model x xs).joins, cond.1, order.1⟩, order.2)) :=
    rfl
  have order : parseOrder orderTokens = some ((checkRuleSelect model x xs).order, []) := rfl
  show parseQuery (headTokens.tail ++ (condTokens model x xs ++ orderTokens)) >>= atEnd = _
  rw [parseQuery, select, parseWhere, cond]
  simp only [Option.map_some, Option.bind_eq_bind, Option.bind_some, order]
  rfl

/-- The text of the statement. -/
lemma checkRuleQuery_eq (link : Link) (hm : model.providerIdsWithInterfaceIds = x :: xs) (h : ∀ y ∈ x :: xs, y.2 ≠ [])
    (hgk : model.gatekeeperRelayIds ≠ []) (hgw : model.gatewayRelayIds ≠ []) :
    checkRuleQuery link model = checkRuleHead ++ bytes " " ++ (bytes "t2.service_id = " ++
      (to_string model.serviceDefinitionId ++ (bytes " AND c1.neighbor = " ++ (to_string (flag model.neighbor) ++
      (bytes " AND c1.secure = " ++ (to_string (flag model.secure) ++ (bytes " AND c1.operator = " ++
      (link.escape model.op ++ (bytes " AND c1.name = " ++ (link.escape model.name ++
      (bytes " AND c1.authentication_info = " ++ (link.escape model.authenticationInfo ++
      (bytes " AND (gk.relay_id IN (" ++ (valuesText model.gatekeeperRelayIds ++
      (bytes ") AND (gw.relay_id IN (" ++ (valuesText model.gatewayRelayIds ++ (bytes ") AND ( " ++
      (alternativesText x xs ++ bytes " ) ORDER BY p1.id ASC, t1.id ASC")))))))))))))))))) := by
  have e : bytes " t2.service_id = " = bytes " " ++ bytes "t2.service_id = " := by decide
  obtain ⟨a, as, ha⟩ := List.exists_cons_of_ne_nil hgk
  obtain ⟨b, bs, hb⟩ := List.exists_cons_of_ne_nil hgw
  simp only [checkRuleQuery, hm, e, flagText, ha, hb, closeLast_interfacesLoop]
  rw [providersLoop_eq h]
  simp only [List.append_assoc]

/-- What the statement means. -/
theorem parse_checkRuleQuery {link : Link} (hm : model.providerIdsWithInterfaceIds = x :: xs) (h : ∀ y ∈ x :: xs, y.2 ≠ [])
    (hgk : model.gatekeeperRelayIds ≠ []) (hgw : model.gatewayRelayIds ≠ []) (hop : IsLiteral (link.escape model.op) model.op)
    (hname : IsLiteral (link.escape model.name) model.name)
    (hauth : IsLiteral (link.escape model.authenticationInfo) model.authenticationInfo) :
    parse (checkRuleQuery link model) = some (.select (checkRuleSelect model x xs)) := by
  have service : Lexes .idle (bytes "t2.service_id = ") (Expr.tokens (column "t2" "service_id") ++ [Token.sym .eq]) .idle :=
    lexes_bytes (by decide +kernel)
  have neighbor : Lexes .idle (bytes " AND c1.neighbor = ")
      (.kw .and :: (Expr.tokens (column "c1" "neighbor") ++ [Token.sym .eq])) .idle := lexes_bytes (by decide +kernel)
  have secure : Lexes .idle (bytes " AND c1.secure = ")
      (.kw .and :: (Expr.tokens (column "c1" "secure") ++ [Token.sym .eq])) .idle := lexes_bytes (by decide +kernel)
  have op : Lexes .idle (bytes " AND c1.operator = ")
      (.kw .and :: (Expr.tokens (column "c1" "operator") ++ [Token.sym .eq])) .idle := lexes_bytes (by decide +kernel)
  have name : Lexes .idle (bytes " AND c1.name = ")
      (.kw .and :: (Expr.tokens (column "c1" "name") ++ [Token.sym .eq])) .idle := lexes_bytes (by decide +kernel)
  have auth : Lexes .idle (bytes " AND c1.authentication_info = ")
      (.kw .and :: (Expr.tokens (column "c1" "authentication_info") ++ [Token.sym .eq])) .idle :=
    lexes_bytes (by decide +kernel)
  have gk : Lexes .idle (bytes " AND (gk.relay_id IN (")
      (.kw .and :: .sym .lparen :: (Expr.tokens (column "gk" "relay_id") ++ [Token.kw .in, .sym .lparen])) .idle :=
    lexes_bytes (by decide +kernel)
  have gw : Lexes .idle (bytes ") AND (gw.relay_id IN (")
      (.sym .rparen :: .kw .and :: .sym .lparen :: (Expr.tokens (column "gw" "relay_id") ++ [Token.kw .in, .sym .lparen])) .idle :=
    lexes_bytes (by decide +kernel)
  have opened : Lexes .idle (bytes ") AND ( ") [.sym .rparen, .kw .and, .sym .lparen] .idle := lexes_bytes (by decide +kernel)
  have order : Lexes .idle (bytes " ) ORDER BY p1.id ASC, t1.id ASC") (.sym .rparen :: orderTokens.dropLast)
      (.word (bytes "ASC")) := lexes_bytes (by decide +kernel)
  have blank {p s : List UInt8} (h : p.head? = some 32) : (p ++ s).head? ≠ some QUOTE := by
    have ne : (32 : UInt8) ≠ QUOTE := by decide
    rw [List.head?_append, h]
    simp [ne]
  have l0 := opened.append ((Providers.lexes_alternatives h).append order)
  have l1 := gk.append ((lexes_values hgk).append (gw.append ((lexes_values hgw).append l0)))
  have l2 := auth.append (l1.literal (delimits_cons _ (by decide)) hauth (blank rfl))
  have l3 := name.append (l2.literal (delimits_cons _ (by decide)) hname (blank rfl))
  have l4 := op.append (l3.literal (delimits_cons _ (by decide)) hop (blank rfl))
  have l5 := secure.append (l4.to_string (delimits_cons _ (by decide)) (flag model.secure))
  have l6 := neighbor.append (l5.to_string (delimits_cons _ (by decide)) (flag model.neighbor))
  have l7 := service.append (l6.to_string (delimits_cons _ (by decide)) model.serviceDefinitionId)
  have last : lexEnd (.word (bytes "ASC")) = some [.kw .asc] := by decide +kernel
  have hl := lex_of_lexes (lexes_head.append l7) last
  rw [parse, checkRuleQuery_eq link hm h hgk hgw, hl, Option.bind_eq_bind, Option.bind_some,
    ← parseTokens_checkRule h hgk hgw]
  simp [condTokens, relayTokens, orderTokens]

end

end InterCloudCheck

end ArrowheadCore.Authorization
