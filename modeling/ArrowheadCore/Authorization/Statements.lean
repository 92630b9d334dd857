import ArrowheadCore.Lib.Sql.Balance
import ArrowheadCore.Db.Escape
import ArrowheadCore.Authorization.InterCloudCheck
import ArrowheadCore.Orchestrator.Requests

/-!
# Well-formed statements

The statements of the two checks end with lists that are written value by value with a comma behind each, the last of
which is overwritten by the closing parenthesis. Without values it is the opening one that is overwritten. So a
statement is well formed exactly if none of its lists is empty and the part in front of them, with the strings of the
request in it, is well formed.
-/

namespace ArrowheadCore.Authorization
open Lib Lib.Sql Db Json Orchestrator

/-! ## Lists -/

namespace Statements
open IntraCloudCheck (interfacesLoop closeLast closeLast_interfacesLoop)
open Providers (Request provider interface)

/-- What a list is like after its last sign has been overwritten. -/
def inText : List Int → List UInt8
  | [] => bytes "IN )"
  | z :: zs => bytes "IN (" ++ valuesText (z :: zs)

def inTokens : List Int → List Token
  | [] => [.kw .in, .sym .rparen]
  | z :: zs => .kw .in :: .sym .lparen :: (commas Value.tokens ((z :: zs).map .int) ++ [Token.sym .rparen])

/-- A condition in parentheses that ends with a list. -/
def listedText (head : List UInt8) (ids : List Int) : List UInt8 := head ++ (inText ids ++ bytes ")")

def listedTokens (head : List Token) (ids : List Int) : List Token :=
  .sym .lparen :: ((head ++ inTokens ids) ++ [Token.sym .rparen])

/-- No token of these opens or closes anything. -/
def Flat (ts : List Token) : Prop := ∀ t ∈ ts, t ≠ .sym .lparen ∧ t ≠ .sym .rparen ∧ t ≠ .kw .in

instance (ts : List Token) : Decidable (Flat ts) := List.decidableBAll _ ts

section
variable {ids : List Int} {head : List UInt8} {ts t u : List Token}

lemma closeLast_list (q : List UInt8) (ids : List Int) :
    closeLast (interfacesLoop (q ++ bytes "IN (") ids) = q ++ inText ids := by
  cases ids with
  | nil =>
    have e : (bytes "IN (").dropLast ++ bytes ")" = bytes "IN )" := by decide
    rw [interfacesLoop, closeLast, List.dropLast_append_of_ne_nil (by decide), List.append_assoc, e, inText]
  | cons z zs => rw [closeLast_interfacesLoop, inText, List.append_assoc]

lemma lexes_in (ids : List Int) : Lexes .idle (inText ids) (inTokens ids) .idle := by
  cases ids with
  | nil => exact lexes_bytes (by decide)
  | cons z zs =>
    have begin : Lexes .idle (bytes "IN (") [.kw .in, .sym .lparen] .idle := lexes_bytes (by decide)
    exact begin.append (lexes_values (List.cons_ne_nil z zs))

lemma flat_append (h : Flat t) (h' : Flat u) : Flat (t ++ u) := List.forall_mem_append.2 ⟨h, h'⟩

lemma flat_int (z : Int) : Flat (intTokens z) := by
  cases z with
  | ofNat n => simp [Flat, intTokens]
  | negSucc n => simp [Flat, intTokens]

lemma flat_ints : ∀ ids : List Int, Flat (commas Value.tokens (ids.map .int))
  | [] => by simp [Flat, commas]
  | [z] => flat_int z
  | z :: w :: zs => flat_append (flat_int z) (flat_append (t := [.sym .comma]) (by decide) (flat_ints (w :: zs)))

lemma piece_in (h : ids ≠ []) : Piece (inTokens ids) := by
  obtain ⟨z, zs, rfl⟩ := List.exists_cons_of_ne_nil h
  refine (Piece.plain (flat_ints (z :: zs))).list fun e => ?_
  cases zs with
  | nil => cases z <;> cases e
  | cons w zs => simp [commas] at e

lemma ne_nil_of_in (h : (inTokens ids).IsChain MayFollow) : ids ≠ [] := by
  rintro rfl
  revert h
  decide

lemma lexes_listed (h : Lexes .idle head (.sym .lparen :: ts) .idle) (ids : List Int) :
    Lexes .idle (listedText head ids) (listedTokens ts ids) .idle := by
  have close : Lexes .idle (bytes ")") [.sym .rparen] .idle := lexes_bytes (by decide)
  have := h.append ((lexes_in ids).append close)
  simpa [listedText, listedTokens] using this

lemma piece_listed (flat : Flat ts) (h : ids ≠ []) : Piece (listedTokens ts ids) := by
  refine ((Piece.plain flat).append (piece_in h)).parens ?_
  obtain ⟨z, zs, rfl⟩ := List.exists_cons_of_ne_nil h
  simp [inTokens]

lemma ne_nil_of_listed (h : (listedTokens ts ids).IsChain MayFollow) : ids ≠ [] :=
  ne_nil_of_in h.of_cons.left_of_append.right_of_append

lemma plain_append {s s' : List UInt8} (h : Plain s) (h' : Plain s') : Plain (s ++ s') :=
  List.forall_mem_append.2 ⟨h, h'⟩

lemma plain_values : ∀ zs : List Int, Plain (valuesText zs)
  | [] => by decide
  | [z] => plain_append (plain_to_string z) (by decide)
  | z :: w :: zs => plain_append (plain_to_string z) (plain_append (by decide) (plain_values (w :: zs)))

lemma plain_listed (h : Plain head) (ids : List Int) : Plain (listedText head ids) := by
  refine plain_append h (plain_append ?_ (by decide))
  cases ids with
  | nil => decide
  | cons z zs => exact plain_append (by decide) (plain_values _)

end

/-! ## Providers -/

def requestText (x : Request) : List UInt8 :=
  listedText (bytes " (p1.id = " ++ (to_string x.1 ++ bytes " AND t1.interface_id ")) x.2

def requestTokens (x : Request) : List Token :=
  listedTokens (provider.tokens ++ Token.sym .eq :: (intTokens x.1 ++ Token.kw .and :: interface.tokens)) x.2

/-- What the loop over the providers writes; the flag is `first`. -/
def requestsText : Bool → List Request → List UInt8
  | _, [] => []
  | first, x :: xs => (if first then [] else bytes " OR ") ++ (requestText x ++ requestsText false xs)

def requestsTokens : Bool → List Request → List Token
  | _, [] => []
  | first, x :: xs => (if first then [] else [.kw .or]) ++ (requestTokens x ++ requestsTokens false xs)

lemma lexes_request (x : Request) : Lexes .idle (requestText x) (requestTokens x) .idle := by
  have mid : Lexes .idle (bytes " AND t1.interface_id ") (.kw .and :: interface.tokens) .idle :=
    lexes_bytes (by decide)
  have begin : Lexes .idle (bytes " (p1.id = ") (.sym .lparen :: (provider.tokens ++ [Token.sym .eq])) .idle :=
    lexes_bytes (by decide)
  have := begin.append (mid.to_string (delimits_cons _ (by decide)) x.1)
  exact lexes_listed (by simpa using this) x.2

lemma lexes_requests (first : Bool) (xs : List Request) :
    Lexes .idle (requestsText first xs) (requestsTokens first xs) .idle := by
  induction xs generalizing first with
  | nil => exact ⟨List.not_mem_nil, rfl⟩
  | cons x xs ih =>
    have rest := (lexes_request x).append (ih false)
    cases first with
    | true => exact rest
    | false =>
      have or_ : Lexes .idle (bytes " OR ") [.kw .or] .idle := lexes_bytes (by decide)
      exact or_.append rest

lemma piece_request {x : Request} (h : x.2 ≠ []) : Piece (requestTokens x) := by
  refine piece_listed (flat_append (by decide) ?_) h
  exact flat_append (t := [.sym .eq]) (by decide) (flat_append (flat_int x.1) (by decide))

lemma piece_requests {xs : List Request} (h : ∀ x ∈ xs, x.2 ≠ []) (first : Bool) : Piece (requestsTokens first xs) := by
  induction xs generalizing first with
  | nil => exact .nil
  | cons x xs ih =>
    obtain ⟨here, rest⟩ := List.forall_mem_cons.1 h
    refine .append ?_ ((piece_request here).append (ih rest false))
    cases first with
    | true => exact .nil
    | false => exact .plain (by decide)

lemma ne_nil_of_requests {xs : List Request} {first : Bool} (h : (requestsTokens first xs).IsChain MayFollow) :
    ∀ x ∈ xs, x.2 ≠ [] := by
  induction xs generalizing first with
  | nil => simp
  | cons x xs ih =>
    have h := h.right_of_append
    exact List.forall_mem_cons.2 ⟨ne_nil_of_listed h.left_of_append, ih h.right_of_append⟩

lemma plain_requests (first : Bool) (xs : List Request) : Plain (requestsText first xs) := by
  induction xs generalizing first with
  | nil => exact fun c hc => absurd hc List.not_mem_nil
  | cons x xs ih =>
    refine plain_append ?_ (plain_append (plain_listed ?_ x.2) (ih false))
    · cases first with
      | true => decide
      | false => decide
    · exact plain_append (by decide) (plain_append (plain_to_string x.1) (by decide))

/-! ## The end of the statements -/

/-- There is a provider, and each has an interface. -/
def Filled (xs : List Request) : Prop := xs ≠ [] ∧ ∀ x ∈ xs, x.2 ≠ []

instance (xs : List Request) : Decidable (Filled xs) := inferInstanceAs (Decidable (_ ∧ _))

/-- The disjunction and the order. -/
def tailText (xs : List Request) : List UInt8 :=
  bytes "( " ++ (requestsText true xs ++ bytes " ) ORDER BY p1.id ASC, t1.id ASC")

def orderTokens : List Token :=
  .kw .order :: .kw .by ::
    (Expr.tokens (.col (some "p1") "id") ++ Token.kw .asc :: .sym .comma :: Expr.tokens (.col (some "t1") "id"))

def tailTokens (xs : List Request) : List Token :=
  (.sym .lparen :: (requestsTokens true xs ++ [Token.sym .rparen])) ++ (orderTokens ++ [Token.kw .asc])

lemma lexes_tail (xs : List Request) :
    ∃ T E m, Lexes .idle (tailText xs) T m ∧ lexEnd m = some E ∧ T ++ E = tailTokens xs := by
  have begin : Lexes .idle (bytes "( ") [.sym .lparen] .idle := lexes_bytes (by decide)
  have order : Lexes .idle (bytes " ) ORDER BY p1.id ASC, t1.id ASC") (.sym .rparen :: orderTokens)
      (.word (bytes "ASC")) := lexes_bytes (by decide)
  have last : lexEnd (.word (bytes "ASC")) = some [.kw .asc] := by decide +kernel
  refine ⟨_, _, _, begin.append ((lexes_requests true xs).append order), last, ?_⟩
  simp [tailTokens]

/-- The end of a statement is closed in itself, if no list is empty. -/
lemma piece_tail {xs : List Request} (h : Filled xs) : Piece (tailTokens xs) := by
  refine ((piece_requests h.2 true).parens ?_).append (.plain (by decide))
  obtain ⟨x, xs, rfl⟩ := List.exists_cons_of_ne_nil h.1
  simp [requestsTokens, requestTokens, listedTokens]

lemma ne_nil_of_tail {xs : List Request} (h : (tailTokens xs).IsChain MayFollow) : Filled xs := by
  have h := h.left_of_append
  refine ⟨?_, ne_nil_of_requests h.of_cons.left_of_append⟩
  rintro rfl
  revert h
  decide

lemma plain_tail (xs : List Request) : Plain (tailText xs) :=
  plain_append (by decide) (plain_append (plain_requests true xs) (by decide))

/-- The two lists of relays. -/
def relaysText (gatekeepers gateways : List Int) : List UInt8 :=
  listedText (bytes "(gk.relay_id ") gatekeepers ++
    (bytes " AND " ++ (listedText (bytes "(gw.relay_id ") gateways ++ bytes " AND "))

def relaysTokens (gatekeepers gateways : List Int) : List Token :=
  listedTokens (Expr.tokens (.col (some "gk") "relay_id")) gatekeepers ++
    ([.kw .and] ++ (listedTokens (Expr.tokens (.col (some "gw") "relay_id")) gateways ++ [Token.kw .and]))

lemma lexes_relays (gatekeepers gateways : List Int) :
    Lexes .idle (relaysText gatekeepers gateways) (relaysTokens gatekeepers gateways) .idle := by
  have gk : Lexes .idle (bytes "(gk.relay_id ") (.sym .lparen :: Expr.tokens (.col (some "gk") "relay_id")) .idle :=
    lexes_bytes (by decide)
  have gw : Lexes .idle (bytes "(gw.relay_id ") (.sym .lparen :: Expr.tokens (.col (some "gw") "relay_id")) .idle :=
    lexes_bytes (by decide)
  have and_ : Lexes .idle (bytes " AND ") [.kw .and] .idle := lexes_bytes (by decide)
  exact (lexes_listed gk gatekeepers).append (and_.append ((lexes_listed gw gateways).append and_))

lemma piece_relays {gatekeepers gateways : List Int} (h : gatekeepers ≠ []) (h' : gateways ≠ []) :
    Piece (relaysTokens gatekeepers gateways) :=
  (piece_listed (by decide) h).append
    (.append (.plain (by decide)) ((piece_listed (by decide) h').append (.plain (by decide))))

lemma ne_nil_of_relays {gatekeepers gateways : List Int} (h : (relaysTokens gatekeepers gateways).IsChain MayFollow) :
    gatekeepers ≠ [] ∧ gateways ≠ [] :=
  ⟨ne_nil_of_listed h.left_of_append, ne_nil_of_listed h.right_of_append.right_of_append.left_of_append⟩

lemma plain_relays (gatekeepers gateways : List Int) : Plain (relaysText gatekeepers gateways) :=
  plain_append (plain_listed (by decide) _)
    (plain_append (by decide) (plain_append (plain_listed (by decide) _) (by decide)))

/-! ## The statements -/

/-- The loop over the providers, whose ids are numbers of some type. -/
lemma loop_eq {α : Type} (id : α → Int) (loop : Bool → List UInt8 → List (α × List Int) → List UInt8)
    (nil : ∀ first q, loop first q [] = q)
    (cons : ∀ first q x xs, loop first q (x :: xs) = loop false (closeLast (interfacesLoop
      ((if !first then q ++ bytes " OR " else q) ++ (bytes " (p1.id = " ++ (to_string (id x.1) ++
        bytes " AND t1.interface_id IN ("))) x.2) ++ bytes ")") xs)
    (first : Bool) (q : List UInt8) (xs : List (α × List Int)) :
    loop first q xs = q ++ requestsText first (xs.map fun x => (id x.1, x.2)) := by
  induction xs generalizing first q with
  | nil => rw [nil, List.map_nil, requestsText, List.append_nil]
  | cons x xs ih =>
    have e : bytes " AND t1.interface_id IN (" = bytes " AND t1.interface_id " ++ bytes "IN (" := by decide
    have split (q : List UInt8) :
        q ++ (bytes " (p1.id = " ++ (to_string (id x.1) ++ bytes " AND t1.interface_id IN (")) =
        q ++ (bytes " (p1.id = " ++ (to_string (id x.1) ++ bytes " AND t1.interface_id ")) ++ bytes "IN (" := by
      rw [e]
      simp only [List.append_assoc]
    rw [cons, split, closeLast_list, ih]
    cases first with
    | true => simp [requestsText, requestText, listedText]
    | false => simp [requestsText, requestText, listedText]

end Statements

namespace IntraCloudCheck
open Statements

/-- The statement in front of the strings of the request. -/
def statementHead (model : IntraCloudCheck) : List UInt8 :=
  checkRuleHead ++ (bytes " t2.service_id = " ++ (to_string model.serviceDefinitionId ++
    (bytes " AND c1.port = " ++ (to_string model.port ++ bytes " AND c1.address = "))))

/-- The strings, and what is between them. -/
def strings (link : Link) (model : IntraCloudCheck) : List UInt8 :=
  link.escape model.address ++ (bytes " AND c1.system_name = " ++ (link.escape model.systemName ++
    (bytes " AND c1.authentication_info = " ++ (link.escape model.authenticationInfo ++ bytes " AND "))))

/-- The providers with their interfaces as the statement lists them. -/
def requests (model : IntraCloudCheck) : List (Int × List Int) :=
  model.providerIdsWithInterfaceIds.map fun x => ((x.1 : Int), x.2)

lemma checkRuleQuery_split (link : Link) (model : IntraCloudCheck) :
    checkRuleQuery link model = statementHead model ++ (strings link model ++ tailText model.requests) := by
  have e : bytes " AND ( " = bytes " AND " ++ bytes "( " := by decide
  have loop : ∀ q, providersLoop true q model.providerIdsWithInterfaceIds = q ++ requestsText true model.requests :=
    fun q => loop_eq Int.ofNat providersLoop (fun _ _ => rfl) (fun _ _ _ _ => rfl) true q _
  simp only [checkRuleQuery, loop, statementHead, strings, tailText, e, List.append_assoc]

set_option maxRecDepth 1500 in
lemma piece_head : Piece headTokens := by
  have closed : WellFormedTokens headTokens := by decide
  exact closed.piece (by decide) (by decide)

lemma lexes_statementHead (model : IntraCloudCheck) : ∃ T, Lexes .idle (statementHead model) T .idle ∧ Piece T := by
  have e : bytes " t2.service_id = " = bytes " " ++ bytes "t2.service_id = " := by decide
  have service : Lexes .idle (bytes "t2.service_id = ") (Expr.tokens (column "t2" "service_id") ++ [Token.sym .eq]) .idle :=
    lexes_bytes (by decide)
  have port : Lexes .idle (bytes " AND c1.port = ") (.kw .and :: (Expr.tokens (column "c1" "port") ++ [Token.sym .eq])) .idle :=
    lexes_bytes (by decide)
  have address : Lexes .idle (bytes " AND c1.address = ") (.kw .and :: (Expr.tokens (column "c1" "address") ++ [Token.sym .eq]))
      .idle := lexes_bytes (by decide)
  have blank : Delimits (bytes " AND c1.port = ") := delimits_cons _ (by decide)
  have behind := (port.append (address.to_string (delimits_cons _ (by decide)) model.port)).to_string (blank.append _)
    model.serviceDefinitionId
  have flat : Flat _ := flat_append (t := .kw .and :: (Expr.tokens (column "c1" "port") ++ [Token.sym .eq])) (by decide +kernel)
    (flat_append (flat_int model.port) (u := .kw .and :: (Expr.tokens (column "c1" "address") ++ [Token.sym .eq])) (by decide))
  rw [statementHead, e, List.append_assoc, ← List.append_assoc]
  exact ⟨_, lexes_head.append (service.append behind),
    piece_head.append (.plain (flat_append (by decide +kernel) (flat_append (flat_int _) flat)))⟩

/-- The strings end with a blank. -/
lemma strings_blank (link : Link) (noNul : ∀ s, 0 ∉ link.escape s) (model : IntraCloudCheck) :
    ∃ pre, strings link model = pre ++ [32] ∧ 0 ∉ pre := by
  have e : bytes " AND " = bytes " AND" ++ [32] := by decide
  refine ⟨_, by simp only [strings, e, ← List.append_assoc]; rfl, ?_⟩
  simp only [List.mem_append, not_or, noNul, not_false_iff, and_true]
  and_intros
  all_goals decide

lemma wellFormed_iff (link : Link) (noNul : ∀ s, 0 ∉ link.escape s) (model : IntraCloudCheck) :
    WellFormed (checkRuleQuery link model) ↔ WellFormed (strings link model) ∧ Filled model.requests := by
  obtain ⟨_, head, piece⟩ := lexes_statementHead model
  obtain ⟨T, E, m, lexes, last, tokens⟩ := lexes_tail model.requests
  rw [checkRuleQuery_split, wellFormed_prepend head piece]
  refine wellFormed_append_iff (strings_blank link noNul model) lexes last (plain_tail _) ?_ ?_
  · rw [tokens]
    exact piece_tail
  · rw [tokens]
    exact ne_nil_of_tail

end IntraCloudCheck

namespace InterCloudCheck
open Statements
open IntraCloudCheck (column closeLast interfacesLoop)

/-- The statement in front of the strings of the request. -/
def statementHead (model : InterCloudCheck) : List UInt8 :=
  checkRuleHead ++ (bytes " t2.service_id = " ++ (to_string model.serviceDefinitionId ++
    (bytes " AND c1.neighbor = " ++ ((if model.neighbor then bytes "1" else bytes "0") ++
      (bytes " AND c1.secure = " ++ ((if model.secure then bytes "1" else bytes "0") ++ bytes " AND c1.operator = "))))))

/-- The strings, and what is between them. -/
def strings (link : Link) (model : InterCloudCheck) : List UInt8 :=
  link.escape model.op ++ (bytes " AND c1.name = " ++ (link.escape model.name ++
    (bytes " AND c1.authentication_info = " ++ (link.escape model.authenticationInfo ++ bytes " AND "))))

lemma checkRuleQuery_split (link : Link) (model : InterCloudCheck) :
    checkRuleQuery link model = statementHead model ++ (strings link model ++
      (relaysText model.gatekeeperRelayIds model.gatewayRelayIds ++ tailText model.providerIdsWithInterfaceIds)) := by
  have e : bytes ") AND ( " = bytes ")" ++ (bytes " AND " ++ bytes "( ") := by decide +kernel
  have gk : bytes " AND (gk.relay_id IN (" = bytes " AND " ++ (bytes "(gk.relay_id " ++ bytes "IN (") := by decide +kernel
  have gw : bytes ") AND (gw.relay_id IN (" =
      bytes ")" ++ (bytes " AND " ++ (bytes "(gw.relay_id " ++ bytes "IN (")) := by decide +kernel
  have loop : ∀ q, providersLoop true q model.providerIdsWithInterfaceIds =
      q ++ requestsText true model.providerIdsWithInterfaceIds := by
    intro q
    rw [loop_eq (fun z => z) providersLoop (fun _ _ => rfl) (fun _ _ _ _ => rfl) true q, List.map_id']
  simp only [checkRuleQuery, loop, statementHead, strings, relaysText, listedText, tailText, e, gk, gw,
    ← List.append_assoc, closeLast_list]

set_option maxRecDepth 1500 in
lemma piece_head : Piece headTokens := by
  have closed : WellFormedTokens headTokens := by decide
  exact closed.piece (by decide) (by decide)

lemma lexes_statementHead (model : InterCloudCheck) : ∃ T, Lexes .idle (statementHead model) T .idle ∧ Piece T := by
  have e : bytes " t2.service_id = " = bytes " " ++ bytes "t2.service_id = " := by decide
  have service : Lexes .idle (bytes "t2.service_id = ") (Expr.tokens (column "t2" "service_id") ++ [Token.sym .eq]) .idle :=
    lexes_bytes (by decide)
  have neighbor : Lexes .idle (bytes " AND c1.neighbor = ")
      (.kw .and :: (Expr.tokens (column "c1" "neighbor") ++ [Token.sym .eq])) .idle := lexes_bytes (by decide)
  have secure : Lexes .idle (bytes " AND c1.secure = ")
      (.kw .and :: (Expr.tokens (column "c1" "secure") ++ [Token.sym .eq])) .idle := lexes_bytes (by decide)
  have op : Lexes .idle (bytes " AND c1.operator = ")
      (.kw .and :: (Expr.tokens (column "c1" "operator") ++ [Token.sym .eq])) .idle := lexes_bytes (by decide)
  have blank : Delimits (bytes " AND c1.neighbor = ") := delimits_cons _ (by decide)
  have blank' : Delimits (bytes " AND c1.secure = ") := delimits_cons _ (by decide)
  have behind := secure.append (op.to_string (delimits_cons _ (by decide)) (flag model.secure))
  have behind := neighbor.append (behind.to_string (blank'.append _) (flag model.neighbor))
  have flat : Flat _ := flat_append (t := .kw .and :: (Expr.tokens (column "c1" "secure") ++ [Token.sym .eq])) (by decide +kernel)
    (flat_append (flat_int (flag model.secure)) (u := .kw .and :: (Expr.tokens (column "c1" "operator") ++ [Token.sym .eq]))
      (by decide +kernel))
  have flat := flat_append (t := .kw .and :: (Expr.tokens (column "c1" "neighbor") ++ [Token.sym .eq])) (by decide +kernel)
    (flat_append (flat_int (flag model.neighbor)) flat)
  have behind := behind.to_string (blank.append _) model.serviceDefinitionId
  rw [statementHead, e, List.append_assoc, ← List.append_assoc, flagText, flagText]
  exact ⟨_, lexes_head.append (service.append behind),
    piece_head.append (.plain (flat_append (by decide +kernel) (flat_append (flat_int _) flat)))⟩

lemma strings_blank (link : Link) (noNul : ∀ s, 0 ∉ link.escape s) (model : InterCloudCheck) :
    ∃ pre, strings link model = pre ++ [32] ∧ 0 ∉ pre := by
  have e : bytes " AND " = bytes " AND" ++ [32] := by decide
  refine ⟨_, by simp only [strings, e, ← List.append_assoc]; rfl, ?_⟩
  simp only [List.mem_append, not_or, noNul, not_false_iff, and_true]
  and_intros
  all_goals decide

lemma wellFormed_iff (link : Link) (noNul : ∀ s, 0 ∉ link.escape s) (model : InterCloudCheck) :
    WellFormed (checkRuleQuery link model) ↔ WellFormed (strings link model) ∧
      (model.gatekeeperRelayIds ≠ [] ∧ model.gatewayRelayIds ≠ []) ∧ Filled model.providerIdsWithInterfaceIds := by
  obtain ⟨_, head, piece⟩ := lexes_statementHead model
  obtain ⟨T, E, m, lexes, last, tokens⟩ := lexes_tail model.providerIdsWithInterfaceIds
  rw [checkRuleQuery_split, wellFormed_prepend head piece]
  refine wellFormed_append_iff (strings_blank link noNul model) ((lexes_relays _ _).append lexes) last
    (plain_append (plain_relays _ _) (plain_tail _)) ?_ ?_
  · rw [List.append_assoc, tokens]
    exact fun h => (piece_relays h.1.1 h.1.2).append (piece_tail h.2)
  · rw [List.append_assoc, tokens]
    exact fun h => ⟨ne_nil_of_relays h.left_of_append, ne_nil_of_tail h.right_of_append⟩

end InterCloudCheck

/-- For every connection and all requests: the statement of a check is well formed if and only if the strings in it are,
    escaped as they are and with what is between them, and none of its lists is empty. -/
theorem statements_wellFormed_iff (link : Link) (noNul : ∀ s, 0 ∉ link.escape s) :
    (∀ model : IntraCloudCheck, WellFormed (model.checkRuleQuery link) ↔
      WellFormed (model.strings link) ∧ Statements.Filled model.requests) ∧
    (∀ model : InterCloudCheck, WellFormed (model.checkRuleQuery link) ↔
      WellFormed (model.strings link) ∧ (model.gatekeeperRelayIds ≠ [] ∧ model.gatewayRelayIds ≠ []) ∧
        Statements.Filled model.providerIdsWithInterfaceIds) :=
  ⟨IntraCloudCheck.wellFormed_iff link noNul, InterCloudCheck.wellFormed_iff link noNul⟩

/-! ## Requests with and without lists -/

/-- A connection that escapes as `MariaDB::escape` does. -/
def mariaLink : Link := { escape := escapeString backslashEscape [] [] }

lemma mariaLink_noNul (s : List UInt8) : 0 ∉ mariaLink.escape s := by
  have e : mariaLink.escape s = backslashEscape s := escapeLen_eq backslashEscape_escapes [] [] s
  rw [e]
  exact backslashEscape_escapes.no_nul s

/-- C++ `validate` -/
def IntraCloudCheck.validate (_ : IntraCloudCheck) (_strict : Bool) : Option (List UInt8) := none

/-- What is parsed of the request that the orchestrator sends for a provider with these interfaces. -/
def consumerCheck (interfaces : List Int) : IntraCloudCheck :=
  checkResult (bytes "c") (bytes "localhost") (bytes "key") 8080 7 [(6, interfaces)]

def cloudCheck (gatekeeperRelayIds interfaces : List Int) : InterCloudCheck where
  name := bytes "cloud"
  authenticationInfo := bytes "key"
  op := bytes "op"
  neighbor := true
  secure := false
  gatekeeperRelayIds := gatekeeperRelayIds
  gatewayRelayIds := [3]
  providerIdsWithInterfaceIds := [(6, interfaces)]
  serviceDefinitionId := 7

theorem statements_wellFormed_filled :
    WellFormed ((consumerCheck [4, 5]).checkRuleQuery mariaLink) ∧
      WellFormed ((cloudCheck [2] [4, 5]).checkRuleQuery mariaLink) := by
  obtain ⟨intra, inter⟩ := statements_wellFormed_iff mariaLink mariaLink_noNul
  exact ⟨(intra _).2 ⟨by decide +kernel, by decide +kernel⟩, (inter _).2 ⟨by decide +kernel, by decide +kernel⟩⟩

/-- The request for a provider without interfaces is accepted, and its statement has an empty list. -/
theorem statements_malformed :
    (createIntraCloudRule (.object (requesterMembers (bytes "c") (bytes "localhost") (bytes "key") 8080))
        [sampleEntry 6 []]).map Parsers.IntraCloudCheck.parse = some (.ok (consumerCheck [])) ∧
      (consumerCheck []).validate false = none ∧ ¬WellFormed ((consumerCheck []).checkRuleQuery mariaLink) := by
  have entries : List.Forall₂ EntryIds [sampleEntry 6 []] [(6, [])] := .cons ⟨rfl, rfl⟩ .nil
  refine ⟨parse_createIntraCloudRule (.refl _) (by decide) (by decide) (by decide) (by decide) rfl (by decide) entries
    (by decide), rfl, fun h => ?_⟩
  have filled := ((IntraCloudCheck.wellFormed_iff mariaLink mariaLink_noNul _).1 h).2
  exact absurd filled (by decide)

end ArrowheadCore.Authorization
