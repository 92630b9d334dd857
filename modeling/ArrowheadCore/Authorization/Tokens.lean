import ArrowheadCore.Json.Braces
import ArrowheadCore.Json.Emission
import ArrowheadCore.Orchestrator.Requests

/-!
# Generated tokens

Embedding of `Endpoint::Token::generateTokens` (`core/apps/Authorization/endpoints/Token.h`), with the calls of
`JsonBuilder` (`utils/json/JsonBuilder.h`) that take a range. The callbacks of both calls count the tokens in one `int`.
`write_dictionary_items` goes one byte back before it closes its object whether or not it has written an item. For a
provider without interfaces the closing brace takes the place of the opening one, and the response is no JSON text.
-/

namespace ArrowheadCore.Authorization.Tokens
open Lib Json JsonView Grammar Parsers Orchestrator

/-! ## `generateTokens` -/

/-- C++ `INT_MAX` -/
def INT_MAX : Int := 2 ^ 31 - 1

/-- C++ `out << "\"" << data << "\": " << "\"token" << std::to_string(i++) << "\""`; nothing where `i` overflows. -/
def writeToken (i : Int) (o : Out) (data : List UInt8) : Option (Int × Out) :=
  if i = INT_MAX then none else some (i + 1, o.put (nameText data ++ (bytes "\"token" ++ (to_string i ++ bytes "\""))))

/-- The callback of `for_each`. -/
def writeProvider (i : Int) (o : Out) (data : System × List (List UInt8)) : Option (Int × Out) :=
  let o := writeNumber "providerPort" data.1.port
    (writeText "providerName" data.1.systemName (writeText "providerAddress" data.1.address o))
  write_dictionary_itemsRange "tokens" writeToken i o data.2

/-- The text of the response. -/
def generateTokens (model : TokenRule) : Option (List UInt8) := do
  let (_, o) ← for_eachRange "tokenData" writeProvider 0 newBuilder model.providers
  some (str o)

/-! ## What is meant -/

/-- The element of a provider with its tokens. -/
def elementNode (p : System × List (List UInt8)) (tokens : List (List UInt8)) : JsonNode :=
  .object [(bytes "providerAddress", .string p.1.address), (bytes "providerName", .string p.1.systemName),
    (bytes "providerPort", numberNode p.1.port), (bytes "tokens", .object (p.2.zip (tokens.map .string)))]

/-- A JSON text with one element for each provider, which has one token for each of its interfaces; no two tokens are
    equal. -/
def Complete (providers : List (System × List (List UInt8))) (text : List UInt8) : Prop :=
  ∃ n tokens, List.Forall₂ (fun p ts => ts.length = p.2.length) providers tokens ∧ tokens.flatten.Nodup ∧
    Document rfc n text (.object [(bytes "tokenData", .array (List.zipWith elementNode providers tokens))])

/-! ## The tokens -/

def token (i : Nat) : List UInt8 := bytes "token" ++ to_string i

/-- The tokens from number `i` on. -/
def tokensFrom (i n : Nat) : List (List UInt8) := (List.range n).map fun k => token (i + k)

lemma tokensFrom_succ (i n : Nat) : tokensFrom i (n + 1) = token i :: tokensFrom (i + 1) n := by
  simp [tokensFrom, List.range_succ_eq_map, Function.comp_def, Nat.add_right_comm, Nat.add_assoc]

lemma tokensFrom_add (i m n : Nat) : tokensFrom i (m + n) = tokensFrom i m ++ tokensFrom (i + m) n := by
  simp [tokensFrom, List.range_add, Function.comp_def, Nat.add_assoc]

lemma tokensFrom_nodup (i n : Nat) : (tokensFrom i n).Nodup := by
  refine List.nodup_range.map fun k l h => ?_
  have same : i + k = i + l := decimal_inj (List.append_cancel_left h)
  omega

/-- The tokens of each provider. -/
def allTokens (i : Nat) : List (System × List (List UInt8)) → List (List (List UInt8))
  | [] => []
  | p :: ps => tokensFrom i p.2.length :: allTokens (i + p.2.length) ps

lemma allTokens_flatten (i : Nat) (ps : List (System × List (List UInt8))) :
    (allTokens i ps).flatten = tokensFrom i (ps.flatMap Prod.snd).length := by
  induction ps generalizing i with
  | nil => rfl
  | cons p ps ih => rw [allTokens, List.flatten_cons, ih, List.flatMap_cons, List.length_append, tokensFrom_add]

lemma allTokens_length (i : Nat) (ps : List (System × List (List UInt8))) :
    List.Forall₂ (fun p ts => ts.length = p.2.length) ps (allTokens i ps) := by
  induction ps generalizing i with
  | nil => exact .nil
  | cons p ps ih => exact .cons (by simp [tokensFrom]) (ih _)

/-! ## What is written -/

/-- A text in quotes. -/
def inQuotes (s : List UInt8) : List UInt8 := bytes "\"" ++ (s ++ bytes "\"")

/-- The members of the object with the tokens. -/
def tokenMembers (i : Nat) (xs : List (List UInt8)) : List (List UInt8 × List UInt8) :=
  xs.zip ((tokensFrom i xs.length).map inQuotes)

/-- Without interfaces the opening brace is lost. -/
def tokensText (i : Nat) (xs : List (List UInt8)) : List UInt8 :=
  if xs = [] then bytes "\x7d" else objectText (tokenMembers i xs)

def elementMembers (i : Nat) (p : System × List (List UInt8)) : List (List UInt8 × List UInt8) :=
  [(bytes "providerAddress", inQuotes p.1.address), (bytes "providerName", inQuotes p.1.systemName),
    (bytes "providerPort", to_string p.1.port), (bytes "tokens", tokensText i p.2)]

def elements (i : Nat) : List (System × List (List UInt8)) → List (List UInt8)
  | [] => []
  | p :: ps => objectText (elementMembers i p) :: elements (i + p.2.length) ps

def responseText (ps : List (System × List (List UInt8))) : List UInt8 :=
  objectText [(bytes "tokenData", arrayText (elements 0 ps))]

lemma tokenMembers_cons (i : Nat) (x : List UInt8) (xs : List (List UInt8)) :
    tokenMembers i (x :: xs) = (x, inQuotes (token i)) :: tokenMembers (i + 1) xs := by
  rw [tokenMembers, List.length_cons, tokensFrom_succ]
  rfl

lemma dictionaryLoop_eq {i : Nat} {xs : List (List UInt8)} (h : (i + xs.length : Nat) ≤ INT_MAX) (t : List UInt8) :
    dictionaryLoop writeToken i (Out.ofText t) xs =
      some (((i + xs.length : Nat) : Int), Out.ofText (t ++ membersText (tokenMembers i xs))) := by
  induction xs generalizing i t with
  | nil => simp [dictionaryLoop, membersText, tokenMembers]
  | cons x xs ih =>
    have e : bytes "\"token" = bytes "\"" ++ bytes "token" := by decide
    have next : i + (x :: xs).length = i + 1 + xs.length := by simp [Nat.add_right_comm, Nat.add_assoc]
    rw [next] at h ⊢
    have room : (i : Int) ≠ INT_MAX := by omega
    rw [dictionaryLoop, writeToken, if_neg room]
    simp only [Option.bind_eq_bind, Option.bind_some, Out.put_ofText]
    rw [← Nat.cast_succ, ih h, tokenMembers_cons]
    simp [membersText, memberText, inQuotes, token, e]

lemma dictionaryLoop_bound {xs : List (List UInt8)} {i j : Int} {o o' : Out} (hi : i ≤ INT_MAX)
    (h : dictionaryLoop writeToken i o xs = some (j, o')) : j = i + xs.length ∧ j ≤ INT_MAX := by
  induction xs generalizing i o with
  | nil =>
    cases h
    exact ⟨by simp, hi⟩
  | cons x xs ih =>
    rw [dictionaryLoop, writeToken] at h
    split at h
    · cases h
    next room =>
    obtain ⟨rfl, bound⟩ := ih (by omega) h
    refine ⟨?_, bound⟩
    simp [Int.add_assoc, Int.add_comm 1]

lemma write_tokens {i : Nat} {xs : List (List UInt8)} (h : (i + xs.length : Nat) ≤ INT_MAX) (t : List UInt8) :
    write_dictionary_itemsRange "tokens" writeToken i (Out.ofText t) xs =
      some (((i + xs.length : Nat) : Int), Out.ofText (t ++ membersText [(bytes "tokens", tokensText i xs)])) := by
  have open_ : bytes "\x7b" = ['{'.toUInt8] := by decide
  have close : bytes "\x7d," = '}'.toUInt8 :: bytes "," := by decide
  cases xs with
  | nil =>
    have close' : bytes "\x7d" = ['}'.toUInt8] := by decide
    rw [write_dictionary_itemsRange, Out.put_ofText, open_, close, ← List.append_assoc, Out.put_back]
    simp [membersText, memberText, tokensText, keyText, close']
  | cons x xs =>
    have filled : tokenMembers i (x :: xs) ≠ [] := by simp [tokenMembers_cons]
    have back (o : Out) : o.back.back = o.back := rfl
    rw [write_dictionary_itemsRange, Out.put_ofText, dictionaryLoop_eq h]
    simp only [Option.bind_eq_bind, Option.bind_some, back]
    rw [← List.append_assoc, close_object _ filled]
    simp [membersText, memberText, tokensText, keyText]

lemma writeProvider_eq {i : Nat} {p : System × List (List UInt8)} (h : (i + p.2.length : Nat) ≤ INT_MAX) (t : List UInt8) :
    writeProvider i (Out.ofText t) p =
      some (((i + p.2.length : Nat) : Int), Out.ofText (t ++ membersText (elementMembers i p))) := by
  have e : bytes "\"," = bytes "\"" ++ bytes "," := by decide
  rw [writeProvider, writeText, writeText, writeNumber, Out.put_ofText, Out.put_ofText, Out.put_ofText, write_tokens h]
  simp [membersText, memberText, elementMembers, inQuotes, keyText, e]

lemma forEachRangeLoop_eq {i : Nat} {ps : List (System × List (List UInt8))}
    (h : (i + (ps.flatMap Prod.snd).length : Nat) ≤ INT_MAX) (t : List UInt8) :
    ∃ j, forEachRangeLoop writeProvider i (Out.ofText t) ps =
      some (j, Out.ofText (t ++ (elements i ps).flatMap fun x => x ++ bytes ",")) := by
  induction ps generalizing i t with
  | nil => exact ⟨i, by simp [forEachRangeLoop, elements]⟩
  | cons p ps ih =>
    rw [List.flatMap_cons, List.length_append, ← Nat.add_assoc] at h
    obtain ⟨j, loop⟩ := ih h (t ++ (objectText (elementMembers i p) ++ bytes ","))
    have first : (i + p.2.length : Nat) ≤ INT_MAX := by omega
    refine ⟨j, ?_⟩
    rw [forEachRangeLoop, Out.put_ofText, writeProvider_eq first]
    simp only [Option.bind_eq_bind, Option.bind_some]
    rw [close_object _ (by simp [elementMembers]), loop]
    simp [elements]

/-- The response, if the counter does not overflow. -/
lemma generateTokens_eq {model : TokenRule} (h : (model.providers.flatMap Prod.snd).length ≤ INT_MAX) :
    generateTokens model = some (responseText model.providers) := by
  have response (xs : List (List UInt8)) :
      str (Out.ofText (bytes "\x7b" ++ membersText [(bytes "tokenData", arrayText xs)])) =
        objectText [(bytes "tokenData", arrayText xs)] := str_membersText (by simp)
  have e : bytes "]," = ']'.toUInt8 :: bytes "," := by decide
  have e' : bytes "]" = [']'.toUInt8] := by decide
  rw [generateTokens, newBuilder_eq]
  cases hp : model.providers with
  | nil =>
    simp only [for_eachRange, Out.put_ofText, Option.bind_eq_bind, Option.bind_some]
    rw [responseText, ← response]
    simp [membersText, memberText, keyText, elements, arrayText, commaList, e, e']
  | cons p ps =>
    rw [hp, ← Nat.zero_add (List.length _)] at h
    obtain ⟨j, loop⟩ := forEachRangeLoop_eq h (bytes "\x7b" ++ membersText [] ++ (keyText "tokenData" ++ bytes "["))
    have filled : elements 0 (p :: ps) ≠ [] := by simp [elements]
    rw [for_eachRange, Out.put_ofText]
    simp only [Nat.cast_zero] at loop
    simp only [loop, Option.bind_eq_bind, Option.bind_some, e]
    rw [close_list _ filled, responseText, ← response]
    simp [membersText, memberText, keyText, arrayText, e']

/-- There is no response if the counter overflows. -/
lemma generateTokens_bound {model : TokenRule} {text : List UInt8} (h : generateTokens model = some text) :
    (model.providers.flatMap Prod.snd).length ≤ INT_MAX := by
  have range {xs : List (List UInt8)} {i j : Int} {o o' : Out} (hi : i ≤ INT_MAX)
      (h : write_dictionary_itemsRange "tokens" writeToken i o xs = some (j, o')) : j = i + xs.length ∧ j ≤ INT_MAX := by
    cases xs with
    | nil =>
      cases h
      exact ⟨by simp, hi⟩
    | cons x xs =>
      rw [write_dictionary_itemsRange, Option.bind_eq_bind, Option.bind_eq_some_iff] at h
      obtain ⟨⟨j', o1⟩, loop, h⟩ := h
      cases h
      exact dictionaryLoop_bound hi loop
  have loop {ps : List (System × List (List UInt8))} {i j : Int} {o o' : Out} (hi : i ≤ INT_MAX)
      (h : forEachRangeLoop writeProvider i o ps = some (j, o')) : i + (ps.flatMap Prod.snd).length ≤ INT_MAX := by
    induction ps generalizing i o with
    | nil => simpa using hi
    | cons p ps ih =>
      rw [forEachRangeLoop, Option.bind_eq_bind, Option.bind_eq_some_iff] at h
      obtain ⟨⟨i', o1⟩, first, h⟩ := h
      obtain ⟨rfl, bound⟩ := range hi first
      rw [List.flatMap_cons, List.length_append, Nat.cast_add, ← Int.add_assoc]
      exact ih bound h
  rw [generateTokens, Option.bind_eq_bind, Option.bind_eq_some_iff] at h
  obtain ⟨⟨j, o⟩, h, -⟩ := h
  cases hp : model.providers with
  | nil => simp [INT_MAX]
  | cons p ps =>
    rw [hp, for_eachRange, Option.bind_eq_bind, Option.bind_eq_some_iff] at h
    obtain ⟨⟨j', o1⟩, h, -⟩ := h
    have := loop (by decide) h
    rwa [Int.zero_add] at this

/-! ## Complete responses -/

/-- None of these texts needs an escape. -/
def CleanProviders (ps : List (System × List (List UInt8))) : Prop :=
  ∀ p ∈ ps, Clean p.1.address ∧ Clean p.1.systemName ∧ ∀ x ∈ p.2, Clean x

lemma clean_keys : Clean (bytes "providerAddress") ∧ Clean (bytes "providerName") ∧ Clean (bytes "providerPort") ∧
    Clean (bytes "tokens") ∧ Clean (bytes "tokenData") := by decide

lemma clean_token (i : Nat) : Clean (token i) := by
  have name : Clean (bytes "token") := by decide
  exact List.forall_mem_append.2 ⟨name, clean_to_string i⟩

lemma denote_tokenMembers {xs : List (List UInt8)} (h : ∀ x ∈ xs, Clean x) (i : Nat) :
    DenoteMembers (tokenMembers i xs) (xs.zip ((tokensFrom i xs.length).map .string)) := by
  induction xs generalizing i with
  | nil => exact .nil
  | cons x xs ih =>
    obtain ⟨hx, hxs⟩ := List.forall_mem_cons.1 h
    rw [tokenMembers_cons, List.length_cons, tokensFrom_succ]
    exact .cons ⟨rfl, hx, .string (clean_token i)⟩ (ih hxs (i + 1))

lemma denotes_element {p : System × List (List UInt8)} (address : Clean p.1.address) (name : Clean p.1.systemName)
    (interfaces : ∀ x ∈ p.2, Clean x) (filled : p.2 ≠ []) (i : Nat) :
    Denotes (objectText (elementMembers i p)) (elementNode p (tokensFrom i p.2.length)) := by
  have members : tokenMembers i p.2 ≠ [] := by
    obtain ⟨x, xs, e⟩ := List.exists_cons_of_ne_nil filled
    simp [e, tokenMembers_cons]
  have tokens : Denotes (tokensText i p.2) (.object (p.2.zip ((tokensFrom i p.2.length).map .string))) := by
    rw [tokensText, if_neg filled]
    exact .object (denote_tokenMembers interfaces i) members
  obtain ⟨k1, k2, k3, k4, -⟩ := clean_keys
  refine .object ?_ (by simp [elementMembers])
  exact .cons ⟨rfl, k1, .string address⟩ (.cons ⟨rfl, k2, .string name⟩
    (.cons ⟨rfl, k3, .number _⟩ (.cons ⟨rfl, k4, tokens⟩ .nil)))

lemma denotes_elements {ps : List (System × List (List UInt8))} (clean : CleanProviders ps) (filled : ∀ p ∈ ps, p.2 ≠ [])
    (i : Nat) : List.Forall₂ Denotes (elements i ps) (List.zipWith elementNode ps (allTokens i ps)) := by
  induction ps generalizing i with
  | nil => exact .nil
  | cons p ps ih =>
    obtain ⟨⟨address, name, interfaces⟩, rest⟩ := List.forall_mem_cons.1 clean
    obtain ⟨here, others⟩ := List.forall_mem_cons.1 filled
    exact .cons (denotes_element address name interfaces here i) (ih rest others _)

lemma complete_response {ps : List (System × List (List UInt8))} (clean : CleanProviders ps) (filled : ∀ p ∈ ps, p.2 ≠ []) :
    Complete ps (responseText ps) := by
  obtain ⟨-, -, -, -, key⟩ := clean_keys
  have response : Denotes (responseText ps)
      (.object [(bytes "tokenData", .array (List.zipWith elementNode ps (allTokens 0 ps)))]) :=
    .object (.cons ⟨rfl, key, .array (denotes_elements clean filled 0)⟩ .nil) (by simp)
  obtain ⟨n, document⟩ := response.document
  refine ⟨n, allTokens 0 ps, allTokens_length 0 ps, ?_, document⟩
  rw [allTokens_flatten]
  exact tokensFrom_nodup _ _

/-! ## Lost braces -/

/-- What the element of a provider opens. -/
def lost (p : System × List (List UInt8)) : Int := if p.2 = [] then -1 else 0

lemma opens_tokensText {xs : List (List UInt8)} (h : ∀ x ∈ xs, Clean x) (i : Nat) :
    Opens (if xs = [] then -1 else 0) (tokensText i xs) := by
  rw [tokensText]
  split
  · decide
  next filled =>
  have members : tokenMembers i xs ≠ [] := by
    obtain ⟨x, xs, e⟩ := List.exists_cons_of_ne_nil filled
    simp [e, tokenMembers_cons]
  exact opens_of_denotes (.object (denote_tokenMembers h i) members)

lemma opens_elements {ps : List (System × List (List UInt8))} (clean : CleanProviders ps) (i : Nat) :
    List.Forall₂ Opens (ps.map lost) (elements i ps) := by
  induction ps generalizing i with
  | nil => exact .nil
  | cons p ps ih =>
    obtain ⟨⟨address, name, interfaces⟩, rest⟩ := List.forall_mem_cons.1 clean
    obtain ⟨k1, k2, k3, k4, -⟩ := clean_keys
    refine .cons ?_ (ih rest _)
    have element : Opens [0, 0, 0, lost p].sum (objectText (elementMembers i p)) :=
      .object (.cons ⟨k1, opens_of_denotes (.string address)⟩ (.cons ⟨k2, opens_of_denotes (.string name)⟩
        (.cons ⟨k3, opens_of_denotes (.number _)⟩ (.cons ⟨k4, opens_tokensText interfaces i⟩ .nil))))
    simpa using element

lemma lost_sum (ps : List (System × List (List UInt8))) : (ps.map lost).sum ≤ 0 ∧
    ((ps.map lost).sum = 0 → ∀ p ∈ ps, p.2 ≠ []) := by
  induction ps with
  | nil => simp
  | cons p ps ih =>
    rw [List.map_cons, List.sum_cons, lost]
    split
    next empty => exact ⟨by omega, fun h => by omega⟩
    next filled => exact ⟨by omega, fun h => List.forall_mem_cons.2 ⟨filled, ih.2 (by omega)⟩⟩

lemma filled_of_complete {ps : List (System × List (List UInt8))} (clean : CleanProviders ps)
    (h : Complete ps (responseText ps)) : ∀ p ∈ ps, p.2 ≠ [] := by
  obtain ⟨_, _, _, _, document⟩ := h
  obtain ⟨-, -, -, -, key⟩ := clean_keys
  have opened : Opens [(ps.map lost).sum].sum (responseText ps) :=
    .object (.cons ⟨key, .array (opens_elements clean 0)⟩ .nil)
  have closed := opens_of_document document
  rw [Opens, opened] at closed
  apply (lost_sum ps).2
  simpa using closed

/-- The response for providers whose texts need no escape is complete if and only if each of them lists an interface,
    and the counter of the tokens does not overflow. -/
theorem generateTokens_complete_iff (model : TokenRule) (clean : CleanProviders model.providers) :
    (∃ text, generateTokens model = some text ∧ Complete model.providers text) ↔
      (∀ p ∈ model.providers, p.2 ≠ []) ∧ (model.providers.flatMap Prod.snd).length ≤ INT_MAX := by
  constructor
  · rintro ⟨text, h, complete⟩
    have bound := generateTokens_bound h
    obtain rfl := Option.some.inj ((generateTokens_eq bound).symm.trans h)
    exact ⟨filled_of_complete clean complete, bound⟩
  · rintro ⟨filled, bound⟩
    exact ⟨_, generateTokens_eq bound, complete_response clean filled⟩

/-! ## Requests -/

def systemText (s : System) : List UInt8 :=
  objectText [(bytes "address", inQuotes s.address), (bytes "authenticationInfo", inQuotes s.authenticationInfo),
    (bytes "systemName", inQuotes s.systemName), (bytes "port", to_string s.port)]

/-- A request for tokens. -/
def requestText (rule : TokenRule) : List UInt8 :=
  objectText [(bytes "consumer", systemText rule.consumer), (bytes "service", inQuotes rule.service),
    (bytes "providers", arrayText (rule.providers.map fun p => objectText [(bytes "provider", systemText p.1),
      (bytes "serviceInterfaces", arrayText (p.2.map inQuotes))]))]

def CleanSystem (s : System) : Prop := Clean s.address ∧ Clean s.authenticationInfo ∧ Clean s.systemName ∧ Short s.port

instance (s : System) : Decidable (CleanSystem s) := inferInstanceAs (Decidable (_ ∧ _))

def systemNode (s : System) : JsonNode :=
  .object [(bytes "address", .string s.address), (bytes "authenticationInfo", .string s.authenticationInfo),
    (bytes "systemName", .string s.systemName), (bytes "port", .int s.port)]

def providerNode (p : System × List (List UInt8)) : JsonNode :=
  .object [(bytes "provider", systemNode p.1), (bytes "serviceInterfaces", .array (p.2.map .string))]

lemma systemText_reads {s : System} (h : CleanSystem s) (levels : Nat) : Reads (levels + 2) (systemText s) (systemNode s) := by
  have keys : Clean (bytes "address") ∧ Clean (bytes "authenticationInfo") ∧ Clean (bytes "systemName") ∧
    Clean (bytes "port") := by decide
  obtain ⟨address, info, name, port⟩ := h
  refine Reads.object [((bytes "address", inQuotes s.address), .string s.address),
    ((bytes "authenticationInfo", inQuotes s.authenticationInfo), .string s.authenticationInfo),
    ((bytes "systemName", inQuotes s.systemName), .string s.systemName),
    ((bytes "port", to_string s.port), .int s.port)] ?_ (by simp)
  simp only [List.forall_mem_cons]
  exact ⟨⟨keys.1, .string address levels⟩, ⟨keys.2.1, .string info levels⟩, ⟨keys.2.2.1, .string name levels⟩,
    ⟨keys.2.2.2, port.reads levels⟩, by simp⟩

lemma systemText_zero {s : System} (h : CleanSystem s) : 0 ∉ systemText s := by
  obtain ⟨address, info, name, -⟩ := h
  apply zero_objectText
  simp only [List.forall_mem_cons]
  exact ⟨⟨by decide, zero_quoted (zero_of_clean address)⟩, ⟨by decide, zero_quoted (zero_of_clean info)⟩,
    ⟨by decide, zero_quoted (zero_of_clean name)⟩, ⟨by decide, zero_to_string _⟩, by simp⟩

lemma parseSystem_node (s : System) : TokenRule.parseSystem (systemNode s) = .ok s := rfl

lemma mapM_asString (wrongType : String) (xs : List (List UInt8)) :
    (xs.map JsonNode.string).mapM (asString wrongType) = .ok xs := by
  induction xs with
  | nil => rfl
  | cons x xs ih =>
    rw [List.map_cons, List.mapM_cons, ih]
    rfl

lemma providerText_reads {p : System × List (List UInt8)} (h : CleanSystem p.1) (interfaces : ∀ x ∈ p.2, Clean x)
    (levels : Nat) : Reads (levels + 3) (objectText [(bytes "provider", systemText p.1),
      (bytes "serviceInterfaces", arrayText (p.2.map inQuotes))]) (providerNode p) := by
  have keys : Clean (bytes "provider") ∧ Clean (bytes "serviceInterfaces") := by decide
  have list : Reads (levels + 2) (arrayText (p.2.map inQuotes)) (.array (p.2.map .string)) :=
    Reads.array_map fun x hx => .string (interfaces x hx) levels
  refine Reads.object [((bytes "provider", systemText p.1), systemNode p.1),
    ((bytes "serviceInterfaces", arrayText (p.2.map inQuotes)), .array (p.2.map .string))] ?_ (by simp)
  simp only [List.forall_mem_cons]
  exact ⟨⟨keys.1, systemText_reads h levels⟩, ⟨keys.2, list⟩, by simp⟩

lemma providerText_zero {p : System × List (List UInt8)} (h : CleanSystem p.1) (interfaces : ∀ x ∈ p.2, Clean x) :
    0 ∉ objectText [(bytes "provider", systemText p.1), (bytes "serviceInterfaces", arrayText (p.2.map inQuotes))] := by
  have list : 0 ∉ arrayText (p.2.map inQuotes) := by
    refine zero_arrayText (List.forall_mem_map.2 fun x hx => ?_)
    exact zero_quoted (zero_of_clean (interfaces x hx))
  apply zero_objectText
  simp only [List.forall_mem_cons]
  exact ⟨⟨by decide, systemText_zero h⟩, ⟨by decide, list⟩, by simp⟩

lemma parseProvider_node (p : System × List (List UInt8)) : TokenRule.parseProvider (providerNode p) = .ok p := by
  have provider : member [(bytes "provider", systemNode p.1), (bytes "serviceInterfaces", .array (p.2.map .string))]
      "provider" "Wrong json format.9" = .ok (systemNode p.1) := rfl
  have interfaces : member [(bytes "provider", systemNode p.1), (bytes "serviceInterfaces", .array (p.2.map .string))]
      "serviceInterfaces" "Wrong json format.11" = .ok (.array (p.2.map .string)) := rfl
  simp only [providerNode, TokenRule.parseProvider, asObject, provider, interfaces, bind, Except.bind, parseSystem_node,
    asArray, mapM_asString]

/-- Every rule without escapes and with short ports is parsed of its request. -/
lemma parse_requestText {rule : TokenRule} (consumer : CleanSystem rule.consumer) (service : Clean rule.service)
    (providers : ∀ p ∈ rule.providers, CleanSystem p.1 ∧ ∀ x ∈ p.2, Clean x) :
    TokenRule.parse (requestText rule) = .ok rule := by
  have keys : Clean (bytes "consumer") ∧ Clean (bytes "service") ∧ Clean (bytes "providers") := by decide
  have list : Reads 200 (arrayText (rule.providers.map fun p => objectText [(bytes "provider", systemText p.1),
      (bytes "serviceInterfaces", arrayText (p.2.map inQuotes))])) (.array (rule.providers.map providerNode)) :=
    Reads.array_map fun p hp => providerText_reads (providers p hp).1 (providers p hp).2 196
  have reads : Reads 201 (requestText rule) (.object [(bytes "consumer", systemNode rule.consumer),
      (bytes "service", .string rule.service), (bytes "providers", .array (rule.providers.map providerNode))]) := by
    refine Reads.object [((bytes "consumer", systemText rule.consumer), systemNode rule.consumer),
      ((bytes "service", inQuotes rule.service), .string rule.service), ((bytes "providers", _),
        .array (rule.providers.map providerNode))] ?_ (by simp)
    simp only [List.forall_mem_cons]
    exact ⟨⟨keys.1, systemText_reads consumer 198⟩, ⟨keys.2.1, .string service 199⟩, ⟨keys.2.2, list⟩, by simp⟩
  have elements : (rule.providers.map providerNode).mapM TokenRule.parseProvider = .ok rule.providers := by
    generalize rule.providers = ps
    induction ps with
    | nil => rfl
    | cons p ps ih =>
      rw [List.map_cons, List.mapM_cons, parseProvider_node, ih]
      rfl
  have zero : 0 ∉ requestText rule := by
    have list := zero_arrayText (List.forall_mem_map.2 fun p hp => providerText_zero (providers p hp).1 (providers p hp).2)
    apply zero_objectText
    simp only [List.forall_mem_cons]
    exact ⟨⟨by decide, systemText_zero consumer⟩, ⟨by decide, zero_quoted (zero_of_clean service)⟩, ⟨by decide, list⟩, by simp⟩
  have parsed : TokenRule.parseRoot (.object [(bytes "consumer", systemNode rule.consumer),
      (bytes "service", .string rule.service), (bytes "providers", .array (rule.providers.map providerNode))]) =
      (rule.providers.map providerNode).mapM TokenRule.parseProvider >>= fun providers =>
        .ok { consumer := rule.consumer, service := rule.service, providers } := rfl
  rw [TokenRule.parse, root_of_reads zero reads]
  refine Eq.trans parsed ?_
  rw [elements]
  rfl

/-- A rule with one provider. -/
def sampleRule (interfaces : List (List UInt8)) : TokenRule :=
  let system : System := ⟨bytes "host", bytes "key", bytes "sensor", 80⟩
  ⟨system, bytes "temperature", [(system, interfaces)]⟩

theorem generateTokens_complete_two :
    ∃ text, generateTokens (sampleRule [bytes "JSON", bytes "XML"]) = some text ∧
      Complete (sampleRule [bytes "JSON", bytes "XML"]).providers text := by
  have clean : CleanProviders (sampleRule [bytes "JSON", bytes "XML"]).providers := by
    simp only [CleanProviders, sampleRule, List.forall_mem_cons]
    exact ⟨⟨by decide, by decide, by decide, by decide, by simp⟩, by simp⟩
  exact (generateTokens_complete_iff _ clean).2 ⟨by decide, by decide⟩

/-- The request of a provider without interfaces is accepted, and its response is not complete. -/
theorem generateTokens_incomplete :
    TokenRule.parse (requestText (sampleRule [])) = .ok (sampleRule []) ∧ CleanProviders (sampleRule []).providers ∧
      ¬∃ text, generateTokens (sampleRule []) = some text ∧ Complete (sampleRule []).providers text := by
  have clean : CleanProviders (sampleRule []).providers := by
    simp only [CleanProviders, sampleRule, List.forall_mem_cons]
    exact ⟨⟨by decide, by decide, by simp⟩, by simp⟩
  refine ⟨parse_requestText (by decide) (by decide) (by decide), clean, ?_⟩
  rintro ⟨text, h, complete⟩
  obtain rfl := Option.some.inj ((generateTokens_eq (by decide)).symm.trans h)
  exact filled_of_complete clean complete _ (List.mem_singleton_self _) rfl

end ArrowheadCore.Authorization.Tokens
