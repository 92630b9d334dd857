import ArrowheadCore.Authorization.IntraCloudCheck
import ArrowheadCore.Json.Cursor

/-!
# Parsers of the authorization system

Embedding of `Parsers::IntraCloudCheck::parse` and `Parsers::TokenRule::parse`
(`core/apps/Authorization/requests/parsers`). A body is read with `JsonView` and walked member by member.

In `Parsers::IntraCloudCheck` the members of an inner object are searched in that object and compared with
the end of the outer one: what happens when such a member is missing is not defined.
-/

namespace ArrowheadCore.Authorization.Parsers
open Lib Json JsonView

/-- How a parser ends without a result. -/
inductive Stop where
  /-- a `std::runtime_error` -/
  | what (message : List UInt8)
  /-- the comparison of iterators of different objects -/
  | undefined
  /-- the fuel of `JsonView` -/
  | fuel
deriving DecidableEq, Repr

def throw {α : Type} (message : String) : Except Stop α := .error (.what (bytes message))

/-- C++ `JsonView json{ json_str }; json.root()` -/
def root (json_str : List UInt8) : Except Stop JsonNode :=
  match parse_throw_on_error (cStr json_str) .STANDARD with
  | none => .error .fuel
  | some (.error what) => .error (.what what)
  | some (.ok v) => .ok v

/-! ## Members -/

/-- C++ `is_object` and `as_object` -/
def asObject (wrongType : String) : JsonNode → Except Stop (List (List UInt8 × JsonNode))
  | .object members => .ok members
  | _ => throw wrongType

/-- C++ `is_array` and `as_array` -/
def asArray (wrongType : String) : JsonNode → Except Stop (List JsonNode)
  | .array items => .ok items
  | _ => throw wrongType

/-- C++ `is_string` and `as_string` -/
def asString (wrongType : String) : JsonNode → Except Stop (List UInt8)
  | .string s => .ok s
  | _ => throw wrongType

/-- C++ `is_int` and `as_int` -/
def asInt (wrongType : String) : JsonNode → Except Stop Int
  | .int z => .ok z
  | _ => throw wrongType

/-- A member that is compared with the end of its own object. -/
def member (dict : List (List UInt8 × JsonNode)) (key missing : String) : Except Stop JsonNode :=
  match find dict key with
  | some v => .ok v
  | none => throw missing

/-- A member that is compared with the end of another object. -/
def innerMember (obj : List (List UInt8 × JsonNode)) (key : String) : Except Stop JsonNode :=
  match find obj key with
  | some v => .ok v
  | none => .error .undefined

/-! ## `Parsers::IntraCloudCheck` -/

namespace IntraCloudCheck

/-- C++ `unsigned long id = as_int()` -/
def toUnsignedLong (z : Int) : Nat := (z % 2 ^ 64).toNat

/-- One element of `providerIdsWithInterfaceIds`. -/
def parseProvider (x : JsonNode) : Except Stop (Nat × List Int) := do
  let obj ← asObject "Format error: providerIdsWithInterfaceIdswrong should contain dictionaries." x
  let id ← member obj "id" "Format error: providerIdsWithInterfaceIds/id should be an int." >>=
    asInt "Format error: providerIdsWithInterfaceIds/id should be an int."
  let idList ← innerMember obj "idList" >>=
    asArray "Format error: providerIdsWithInterfaceIds/idList should be an array."
  let idList ← idList.mapM (asInt "Format error: providerIdsWithInterfaceIds/idList should contain integers.")
  .ok (toUnsignedLong id, idList)

/-- The part of `parse` behind the root. -/
def parseRoot (root : JsonNode) : Except Stop IntraCloudCheck := do
  let dict ← asObject "Wrong json format." root
  let serviceDefinitionId ← member dict "serviceDefinitionId" "Format error: consumerId is missing." >>=
    asInt "Format error: consumerId has wrong type."
  let obj ← member dict "consumer" "Format error: consumer is missing." >>=
    asObject "Format error: consumer has wrong type."
  let address ← innerMember obj "address" >>= asString "Format error: consumer/address has wrong type."
  let authenticationInfo ← innerMember obj "authenticationInfo" >>=
    asString "Format error: consumer/authenticationInfo has wrong type."
  let systemName ← innerMember obj "systemName" >>= asString "Format error: consumer/systemName has wrong type."
  let port ← innerMember obj "port" >>= asInt "Format error: consumer/port has wrong type."
  let arr ← member dict "providerIdsWithInterfaceIds" "Format error: providerIds is mandatory." >>=
    asArray "Format error: providerIdsWithInterfaceIds should be an array."
  let providerIdsWithInterfaceIds ← arr.mapM parseProvider
  .ok { address, authenticationInfo, port, systemName, providerIdsWithInterfaceIds, serviceDefinitionId }

def parse (json_str : List UInt8) : Except Stop IntraCloudCheck := root json_str >>= parseRoot

end IntraCloudCheck

/-! ## `Parsers::TokenRule` -/

/-- C++ `Models::TokenRule::System` -/
structure System where
  address : List UInt8
  authenticationInfo : List UInt8
  systemName : List UInt8
  port : Int
deriving DecidableEq, Repr

/-- C++ `Models::TokenRule` -/
structure TokenRule where
  consumer : System
  service : List UInt8
  providers : List (System × List (List UInt8))
deriving DecidableEq, Repr

namespace TokenRule

/-- A member that is not a string counts as missing. -/
def parseSystem (node : JsonNode) : Except Stop System := do
  let dict ← asObject "Wrong json format.1" node
  let address ← member dict "address" "Wrong json format.2" >>= asString "Wrong json format.2"
  let authenticationInfo := match find dict "authenticationInfo" with
    | some (.string s) => s
    | _ => []
  let systemName ← member dict "systemName" "Wrong json format.3" >>= asString "Wrong json format.3"
  let port ← member dict "port" "Wrong json format.4" >>= asInt "Wrong json format.4"
  .ok { address, authenticationInfo, systemName, port }

/-- One turn of the loop over the providers. -/
def parseProvider (x : JsonNode) : Except Stop (System × List (List UInt8)) := do
  let y ← asObject "Wrong json format.19" x
  let provider ← member y "provider" "Wrong json format.9" >>= parseSystem
  let its ← member y "serviceInterfaces" "Wrong json format.11" >>= asArray "Wrong json format.11"
  let serviceInterfaces ← its.mapM (asString "Wrong json format.12")
  .ok (provider, serviceInterfaces)

/-- The part of `parse` behind the root. -/
def parseRoot (root : JsonNode) : Except Stop TokenRule := do
  let dict ← asObject "Wrong json format.5" root
  let consumer ← member dict "consumer" "Wrong json format.6" >>= parseSystem
  let service ← member dict "service" "Wrong json format.7" >>= asString "Wrong json format.7"
  let arr ← member dict "providers" "Wrong json format.8" >>= asArray "Wrong json format.8"
  let providers ← arr.mapM parseProvider
  .ok { consumer, service, providers }

def parse (json_str : List UInt8) : Except Stop TokenRule := root json_str >>= parseRoot

end TokenRule

/-! ## Exceptions -/

/-- Exceptions are all that a parser ends with. -/
def Throws {α : Type} (x : Except Stop α) : Prop := ∀ e, x = .error e → ∃ message, e = .what message

lemma Throws.bind {α β : Type} {x : Except Stop α} {f : α → Except Stop β} (h1 : Throws x) (h2 : ∀ a, Throws (f a)) :
    Throws (x >>= f) := by
  cases x with
  | error e =>
    intro e' h
    cases h
    exact h1 e rfl
  | ok a => exact h2 a

lemma throws_ok {α : Type} (a : α) : Throws (.ok a) := by
  intro e h
  cases h

lemma throws_throw {α : Type} (message : String) : Throws (throw message : Except Stop α) := by
  intro e h
  cases h
  exact ⟨_, rfl⟩

lemma throws_mapM {α β : Type} {f : α → Except Stop β} (h : ∀ a, Throws (f a)) (as : List α) : Throws (as.mapM f) := by
  induction as with
  | nil => exact throws_ok _
  | cons a as ih =>
    rw [List.mapM_cons]
    exact (h a).bind fun b => ih.bind fun bs => throws_ok _

lemma throws_asObject (wrongType : String) (v : JsonNode) : Throws (asObject wrongType v) := by
  cases v with
  | object members => exact throws_ok _
  | _ => exact throws_throw _

lemma throws_asArray (wrongType : String) (v : JsonNode) : Throws (asArray wrongType v) := by
  cases v with
  | array items => exact throws_ok _
  | _ => exact throws_throw _

lemma throws_asString (wrongType : String) (v : JsonNode) : Throws (asString wrongType v) := by
  cases v with
  | string s => exact throws_ok _
  | _ => exact throws_throw _

lemma throws_asInt (wrongType : String) (v : JsonNode) : Throws (asInt wrongType v) := by
  cases v with
  | int z => exact throws_ok _
  | _ => exact throws_throw _

lemma throws_member (dict : List (List UInt8 × JsonNode)) (key missing : String) : Throws (member dict key missing) := by
  rw [member]
  split
  · exact throws_ok _
  · exact throws_throw _

lemma throws_root (text : List UInt8) : Throws (root text) := by
  obtain ⟨r, e⟩ := parse_throw_on_error_isSome .STANDARD (cStr text)
  rw [root, e]
  cases r with
  | error what =>
    intro e h
    cases h
    exact ⟨_, rfl⟩
  | ok v => exact throws_ok v

lemma throws_parseSystem (v : JsonNode) : Throws (TokenRule.parseSystem v) :=
  (throws_asObject _ v).bind fun dict => ((throws_member dict _ _).bind (throws_asString _)).bind fun _ =>
    ((throws_member dict _ _).bind (throws_asString _)).bind fun _ =>
      ((throws_member dict _ _).bind (throws_asInt _)).bind fun _ => throws_ok _

lemma throws_parseProvider (v : JsonNode) : Throws (TokenRule.parseProvider v) :=
  (throws_asObject _ v).bind fun dict => ((throws_member dict _ _).bind throws_parseSystem).bind fun _ =>
    ((throws_member dict _ _).bind (throws_asArray _)).bind fun its =>
      (throws_mapM (throws_asString _) its).bind fun _ => throws_ok _

/-- `Parsers::TokenRule::parse` returns or throws. -/
lemma throws_parse (text : List UInt8) : Throws (TokenRule.parse text) :=
  (throws_root text).bind fun v => (throws_asObject _ v).bind fun dict =>
    ((throws_member dict _ _).bind throws_parseSystem).bind fun _ =>
      ((throws_member dict _ _).bind (throws_asString _)).bind fun _ =>
        ((throws_member dict _ _).bind (throws_asArray _)).bind fun arr =>
          (throws_mapM throws_parseProvider arr).bind fun _ => throws_ok _

end ArrowheadCore.Authorization.Parsers
