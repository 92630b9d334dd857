import ArrowheadCore.Authorization.InterCloudCheck
import ArrowheadCore.Authorization.Parsers

/-!
# Incomplete check requests

Embedding of `Parsers::InterCloudCheck::parse` (`core/apps/Authorization/requests/parsers/InterCloudCheck.h`), and what it
and `Parsers::IntraCloudCheck::parse` do with requests that lack something. Both go through the members in a fixed order.
The members of the outer object and the `id` of a provider are compared with the end of the object they are searched in,
all others with the end of the outer object; so one of these that is missing is not noticed, and its value is read behind
the end of its object. The parsers reject every incomplete request but those whose first fault is of this kind.
-/

namespace ArrowheadCore.Authorization.Parsers
open Lib Json JsonView

/-! ## `Parsers::InterCloudCheck` -/

/-- C++ `is_bool` and `as_bool` -/
def asBool (wrongType : String) : JsonNode → Except Stop Bool
  | .bool b => .ok b
  | _ => throw wrongType

/-- C++ `is_array`, and `is_int` and `as_int` of each element -/
def asInts (wrongType wrongElement : String) (v : JsonNode) : Except Stop (List Int) := do
  let items ← asArray wrongType v
  items.mapM (asInt wrongElement)

namespace InterCloudCheck

/-- The `long` that is made of an `unsigned long`. -/
def toLong (n : Nat) : Int := if n < 2 ^ 63 then n else n - 2 ^ 64

/-- The part of `parse` behind the root. The elements of `providerIdsWithInterfaceIds` are read as in
    `Parsers::IntraCloudCheck`. -/
def parseRoot (root : JsonNode) : Except Stop InterCloudCheck := do
  let dict ← asObject "Wrong json format." root
  let serviceDefinitionId ← member dict "serviceDefinitionId" "Format error: consumerId is missing." >>=
    asInt "Format error: consumerId has wrong type."
  let obj ← member dict "cloud" "Format error: cloud is missing." >>= asObject "Format error: cloud has wrong type."
  let name ← innerMember obj "name" >>= asString "Format error: consumer/name has wrong type."
  let authenticationInfo ← innerMember obj "authenticationInfo" >>=
    asString "Format error: consumer/authenticationInfo has wrong type."
  let op ← innerMember obj "operator" >>= asString "Format error: consumer/operator has wrong type."
  let neighbor ← innerMember obj "neighbor" >>= asBool "Format error: consumer/neighbor has wrong type."
  let secure ← innerMember obj "secure" >>= asBool "Format error: consumer/secure has wrong type."
  let gatekeeperRelayIds ← innerMember obj "gatekeeperRelayIds" >>=
    asInts "Format error: consumer/gatekeeperRelayIds has wrong type."
      "Format error: consumer/gatekeeperRelayIds should contain integers."
  let gatewayRelayIds ← innerMember obj "gatewayRelayIds" >>=
    asInts "Format error: consumer/gatewayRelayIds has wrong type."
      "Format error: consumer/gatewayRelayIds should contain integers."
  let arr ← member dict "providerIdsWithInterfaceIds" "Format error: providerIds is mandatory." >>=
    asArray "Format error: providerIdsWithInterfaceIds should be an array."
  let providerIdsWithInterfaceIds ← arr.mapM IntraCloudCheck.parseProvider
  .ok { name, authenticationInfo, op, neighbor, secure, gatekeeperRelayIds, gatewayRelayIds, serviceDefinitionId,
        providerIdsWithInterfaceIds := providerIdsWithInterfaceIds.map fun x => (toLong x.1, x.2) }

def parse (json_str : List UInt8) : Except Stop InterCloudCheck := root json_str >>= parseRoot

end InterCloudCheck

/-! ## Complete requests -/

/-- The types of the mandatory members. -/
inductive Kind where
  | int
  | string
  | bool
  | ints
deriving DecidableEq, Repr

def Kind.Fits : Kind → JsonNode → Prop
  | .int, v => ∃ z, v = .int z
  | .string, v => ∃ s, v = .string s
  | .bool, v => ∃ b, v = .bool b
  | .ints, v => ∃ items, v = .array items ∧ ∀ item ∈ items, ∃ z, item = .int z

/-- A member of this name and type. -/
def Has (obj : List (List UInt8 × JsonNode)) (field : String × Kind) : Prop := ∃ v, find obj field.1 = some v ∧ field.2.Fits v

/-- An element of `providerIdsWithInterfaceIds` with its two members. -/
def IsProvider (x : JsonNode) : Prop := ∃ obj, x = .object obj ∧ Has obj ("id", .int) ∧ Has obj ("idList", .ints)

/-- A kind of request: the member that describes the consumer, and what that object must have. -/
structure Form where
  inner : String
  fields : List (String × Kind)

/-- As the comment above `Parsers::IntraCloudCheck` has it. -/
def intraForm : Form :=
  ⟨"consumer", [("address", .string), ("authenticationInfo", .string), ("systemName", .string), ("port", .int)]⟩

/-- As the comment above `Parsers::InterCloudCheck` has it. -/
def interForm : Form :=
  ⟨"cloud", [("name", .string), ("authenticationInfo", .string), ("operator", .string), ("neighbor", .bool),
    ("secure", .bool), ("gatekeeperRelayIds", .ints), ("gatewayRelayIds", .ints)]⟩

/-- All mandatory members are there and have their types. -/
def Form.Complete (form : Form) (root : JsonNode) : Prop :=
  ∃ dict obj arr, root = .object dict ∧ Has dict ("serviceDefinitionId", .int) ∧ find dict form.inner = some (.object obj) ∧
    (∀ field ∈ form.fields, Has obj field) ∧ find dict "providerIdsWithInterfaceIds" = some (.array arr) ∧
    ∀ x ∈ arr, IsProvider x

/-- The parser returns or throws a message; it throws one if the text is no document or an incomplete one. -/
structure Rejects {α : Type} (form : Form) (parse : List UInt8 → Except Stop α) (text : List UInt8) : Prop where
  ends : (∃ a, parse text = .ok a) ∨ ∃ message, parse text = .error (.what message)
  rejects : (¬∃ v, root text = .ok v ∧ form.Complete v) → ∃ message, parse text = .error (.what message)

/-! ## The first fault -/

/-- The first fault of an object is that a member is missing. -/
def LacksFirst (obj : List (List UInt8 × JsonNode)) : List (String × Kind) → Prop
  | [] => False
  | field :: fields => find obj field.1 = none ∨ Has obj field ∧ LacksFirst obj fields

/-- The first fault of a list of providers is that an `idList` is missing. -/
def LacksIdList : List JsonNode → Prop
  | [] => False
  | x :: xs => (∃ obj, x = .object obj ∧ Has obj ("id", .int) ∧ find obj "idList" = none) ∨ IsProvider x ∧ LacksIdList xs

/-- The first fault of a request is that a member of an inner object is missing that is compared with the end of the
    outer one. -/
def Form.LacksInner (form : Form) (root : JsonNode) : Prop :=
  ∃ dict obj, root = .object dict ∧ Has dict ("serviceDefinitionId", .int) ∧ find dict form.inner = some (.object obj) ∧
    (LacksFirst obj form.fields ∨ (∀ field ∈ form.fields, Has obj field) ∧
      ∃ arr, find dict "providerIdsWithInterfaceIds" = some (.array arr) ∧ LacksIdList arr)

/-! ## Three ways to end -/

/-- A step returns if its input is complete, is undefined if something is missing unnoticed, and throws otherwise. -/
structure Settles {α : Type} (x : Except Stop α) (complete lacks : Prop) : Prop where
  returns : complete → ∃ a, x = .ok a
  undefined : lacks → x = .error .undefined
  throws : ¬complete → ¬lacks → ∃ message, x = .error (.what message)

section
variable {α β : Type} {x : Except Stop α} {f : α → Except Stop β} {p q r s : Prop}

lemma Settles.ok (a : α) : Settles (.ok a) True False :=
  ⟨fun _ => ⟨a, rfl⟩, False.elim, fun h => absurd trivial h⟩

lemma Settles.throw (message : String) : Settles (throw message : Except Stop α) False False :=
  ⟨False.elim, False.elim, fun _ _ => ⟨_, rfl⟩⟩

lemma Settles.congr (h : Settles x p q) (hp : p ↔ r) (hq : q ↔ s) : Settles x r s :=
  ⟨fun hr => h.returns (hp.2 hr), fun hs => h.undefined (hq.2 hs), fun hr hs => h.throws (mt hp.1 hr) (mt hq.1 hs)⟩

/-- A step and the ones behind it. -/
lemma Settles.bind (h : Settles x p q) (hf : ∀ a, x = .ok a → Settles (f a) r s) :
    Settles (x >>= f) (p ∧ r) (q ∨ p ∧ s) := by
  cases x with
  | ok a =>
    have rest := hf a rfl
    have isComplete : p := by
      by_contra hp
      by_cases hq : q
      · cases h.undefined hq
      · obtain ⟨message, e⟩ := h.throws hp hq
        cases e
    have noticed : ¬q := fun hq => by cases h.undefined hq
    exact rest.congr (by simp [isComplete]) (by simp [isComplete, noticed])
  | error e =>
    have incomplete : ¬p := fun hp => by
      obtain ⟨a, e⟩ := h.returns hp
      cases e
    refine ⟨fun hpr => absurd hpr.1 incomplete, ?_, ?_⟩
    · rintro (hq | ⟨hp, -⟩)
      · exact congrArg _ (Except.error.inj (h.undefined hq))
      · exact absurd hp incomplete
    · intro _ hl
      obtain ⟨message, e⟩ := h.throws incomplete fun hq => hl (.inl hq)
      exact ⟨message, congrArg _ (Except.error.inj e)⟩

/-- The members of an object one after the other. -/
lemma Settles.field {obj : List (List UInt8 × JsonNode)} {field : String × Kind} {fields : List (String × Kind)}
    (h : Settles x (Has obj field) (find obj field.1 = none))
    (hf : ∀ a, Settles (f a) ((∀ g ∈ fields, Has obj g) ∧ r) (LacksFirst obj fields ∨ (∀ g ∈ fields, Has obj g) ∧ s)) :
    Settles (x >>= f) ((∀ g ∈ field :: fields, Has obj g) ∧ r)
      (LacksFirst obj (field :: fields) ∨ (∀ g ∈ field :: fields, Has obj g) ∧ s) := by
  refine (h.bind fun a _ => hf a).congr ?_ ?_
  · rw [List.forall_mem_cons, and_assoc]
  · rw [List.forall_mem_cons, LacksFirst]
    tauto

lemma Settles.fields {obj : List (List UInt8 × JsonNode)} (h : Settles x r s) :
    Settles x ((∀ g ∈ ([] : List (String × Kind)), Has obj g) ∧ r)
      (LacksFirst obj [] ∨ (∀ g ∈ ([] : List (String × Kind)), Has obj g) ∧ s) :=
  h.congr (by simp) (by simp [LacksFirst])

/-- A list of which each element is read by itself. -/
lemma Settles.mapM {complete lacks : α → Prop} {F : List α → Prop} (h : ∀ a, Settles (f a) (complete a) (lacks a))
    (nil : ¬F []) (cons : ∀ a as, F (a :: as) ↔ lacks a ∨ complete a ∧ F as) (as : List α) :
    Settles (as.mapM f) (∀ a ∈ as, complete a) (F as) := by
  induction as with
  | nil => exact (Settles.ok _).congr (by simp) (by simp [nil])
  | cons a as ih =>
    rw [List.mapM_cons]
    have rest (b : β) : Settles (as.mapM f >>= fun bs => pure (b :: bs)) (∀ a ∈ as, complete a) (F as) :=
      (ih.bind fun bs _ => .ok (b :: bs)).congr (by simp) (by simp)
    exact ((h a).bind fun b _ => rest b).congr List.forall_mem_cons.symm (cons a as).symm

end

/-! ## Members -/

section
variable {α : Type} {v : JsonNode} {dict obj : List (List UInt8 × JsonNode)} {key missing wrongType wrongElement : String}
  {kind : Kind} {as : JsonNode → Except Stop α}

lemma settles_asInt (v : JsonNode) : Settles (asInt wrongType v) (Kind.int.Fits v) False := by
  cases v with
  | int z => exact (Settles.ok z).congr (by simp [Kind.Fits]) Iff.rfl
  | _ => exact (Settles.throw _).congr (by simp [Kind.Fits]) Iff.rfl

lemma settles_asString (v : JsonNode) : Settles (asString wrongType v) (Kind.string.Fits v) False := by
  cases v with
  | string s => exact (Settles.ok s).congr (by simp [Kind.Fits]) Iff.rfl
  | _ => exact (Settles.throw _).congr (by simp [Kind.Fits]) Iff.rfl

lemma settles_asBool (v : JsonNode) : Settles (asBool wrongType v) (Kind.bool.Fits v) False := by
  cases v with
  | bool b => exact (Settles.ok b).congr (by simp [Kind.Fits]) Iff.rfl
  | _ => exact (Settles.throw _).congr (by simp [Kind.Fits]) Iff.rfl

lemma settles_asInts (v : JsonNode) : Settles (asInts wrongType wrongElement v) (Kind.ints.Fits v) False := by
  cases v with
  | array items =>
    exact (Settles.mapM (F := fun _ => False) settles_asInt not_false (by simp) items).congr (by simp [Kind.Fits]) Iff.rfl
  | _ => exact (Settles.throw _).congr (by simp [Kind.Fits]) Iff.rfl

/-- A member that is compared with the end of its own object. -/
lemma settles_member (h : ∀ v, Settles (as v) (kind.Fits v) False) :
    Settles (member dict key missing >>= as) (Has dict (key, kind)) False := by
  rw [member]
  cases e : find dict key with
  | none => exact (Settles.throw _).congr (by simp [Has, e]) Iff.rfl
  | some v => exact (h v).congr (by simp [Has, e]) Iff.rfl

/-- A member that is compared with the end of another object. -/
lemma settles_inner (h : ∀ v, Settles (as v) (kind.Fits v) False) :
    Settles (innerMember obj key >>= as) (Has obj (key, kind)) (find obj key = none) := by
  rw [innerMember]
  cases e : find obj key with
  | none =>
    refine ⟨?_, fun _ => rfl, fun _ given => absurd rfl given⟩
    rintro ⟨v, found, -⟩
    rw [e] at found
    cases found
  | some v => exact (h v).congr (by simp [Has, e]) (by simp)

lemma settles_root {f : List (List UInt8 × JsonNode) → Except Stop α} {r s : List (List UInt8 × JsonNode) → Prop}
    (h : ∀ dict, Settles (f dict) (r dict) (s dict)) :
    Settles (asObject wrongType v >>= f) (∃ dict, v = .object dict ∧ r dict) (∃ dict, v = .object dict ∧ s dict) := by
  cases v with
  | object dict => exact (h dict).congr (by simp) (by simp)
  | _ => exact (Settles.throw _).congr (by simp) (by simp)

/-- An object in the outer one, and what is done with it. -/
lemma settles_object {f : List (List UInt8 × JsonNode) → Except Stop α} {r s : List (List UInt8 × JsonNode) → Prop}
    (h : ∀ obj, Settles (f obj) (r obj) (s obj)) :
    Settles (member dict key missing >>= asObject wrongType >>= f) (∃ obj, find dict key = some (.object obj) ∧ r obj)
      (∃ obj, find dict key = some (.object obj) ∧ s obj) := by
  rw [member]
  cases e : find dict key with
  | none => exact (Settles.throw _).congr (by simp) (by simp)
  | some v =>
    cases v with
    | object obj => exact (h obj).congr (by simp) (by simp)
    | _ => exact (Settles.throw _).congr (by simp) (by simp)

/-- An array in the outer object. -/
lemma settles_array {f : List JsonNode → Except Stop α} {r s : List JsonNode → Prop}
    (h : ∀ arr, Settles (f arr) (r arr) (s arr)) :
    Settles (member dict key missing >>= asArray wrongType >>= f) (∃ arr, find dict key = some (.array arr) ∧ r arr)
      (∃ arr, find dict key = some (.array arr) ∧ s arr) := by
  rw [member]
  cases e : find dict key with
  | none => exact (Settles.throw _).congr (by simp) (by simp)
  | some v =>
    cases v with
    | array arr => exact (h arr).congr (by simp) (by simp)
    | _ => exact (Settles.throw _).congr (by simp) (by simp)

lemma bind_asInts {β : Type} (x : Except Stop JsonNode) (f : List Int → Except Stop β) :
    (x >>= asArray wrongType >>= fun items => items.mapM (asInt wrongElement) >>= f) =
      (x >>= asInts wrongType wrongElement) >>= f := by
  cases x with
  | error e => rfl
  | ok v =>
    cases v with
    | array items => rfl
    | _ => rfl

lemma settles_parseProvider (x : JsonNode) : Settles (IntraCloudCheck.parseProvider x) (IsProvider x)
    (∃ obj, x = .object obj ∧ Has obj ("id", .int) ∧ find obj "idList" = none) := by
  cases x with
  | object obj =>
    rw [IntraCloudCheck.parseProvider]
    refine .congr (p := Has obj ("id", .int) ∧ Has obj ("idList", .ints))
      (q := False ∨ Has obj ("id", .int) ∧ find obj "idList" = none)
      ((settles_member settles_asInt).bind fun id _ => ?_) ?_ ?_
    · rw [bind_asInts]
      exact ((settles_inner settles_asInts).bind fun idList _ => .ok _).congr (by simp) (by simp)
    · simp [IsProvider]
    · simp
  | _ => exact (Settles.throw _).congr (by simp [IsProvider]) (by simp)

/-- The last part of both parsers. -/
lemma settles_providers {f : List (Nat × List Int) → α} :
    Settles (member dict "providerIdsWithInterfaceIds" missing >>= asArray wrongType >>= fun arr =>
        arr.mapM IntraCloudCheck.parseProvider >>= fun providers => .ok (f providers))
      (∃ arr, find dict "providerIdsWithInterfaceIds" = some (.array arr) ∧ ∀ x ∈ arr, IsProvider x)
      (∃ arr, find dict "providerIdsWithInterfaceIds" = some (.array arr) ∧ LacksIdList arr) := by
  refine settles_array fun arr => ?_
  have each := Settles.mapM (F := LacksIdList) settles_parseProvider not_false (fun _ _ => Iff.rfl) arr
  exact (each.bind fun providers _ => .ok (f providers)).congr (by simp) (by simp)

end

/-! ## The parsers -/

lemma complete_iff (form : Form) (v : JsonNode) : form.Complete v ↔
    ∃ dict, v = .object dict ∧ Has dict ("serviceDefinitionId", .int) ∧ ∃ obj, find dict form.inner = some (.object obj) ∧
      (∀ field ∈ form.fields, Has obj field) ∧
        ∃ arr, find dict "providerIdsWithInterfaceIds" = some (.array arr) ∧ ∀ x ∈ arr, IsProvider x := by
  simp only [Form.Complete, ← exists_and_left]

lemma settles_intra (v : JsonNode) : Settles (IntraCloudCheck.parseRoot v) (intraForm.Complete v) (intraForm.LacksInner v) := by
  rw [IntraCloudCheck.parseRoot]
  refine Settles.congr (settles_root fun dict => (settles_member settles_asInt).bind fun serviceDefinitionId _ =>
    settles_object fun obj => .field (settles_inner settles_asString) fun address =>
      .field (settles_inner settles_asString) fun authenticationInfo =>
        .field (settles_inner settles_asString) fun systemName =>
          .field (settles_inner settles_asInt) fun port => .fields settles_providers) ?_ ?_
  · rw [complete_iff]
    rfl
  · simp only [Form.LacksInner, false_or, exists_and_left]
    rfl

lemma settles_inter (v : JsonNode) : Settles (InterCloudCheck.parseRoot v) (interForm.Complete v) (interForm.LacksInner v) := by
  rw [InterCloudCheck.parseRoot]
  refine Settles.congr (settles_root fun dict => (settles_member settles_asInt).bind fun serviceDefinitionId _ =>
    settles_object fun obj => .field (settles_inner settles_asString) fun name =>
      .field (settles_inner settles_asString) fun authenticationInfo =>
        .field (settles_inner settles_asString) fun op =>
          .field (settles_inner settles_asBool) fun neighbor =>
            .field (settles_inner settles_asBool) fun secure =>
              .field (settles_inner settles_asInts) fun gatekeeperRelayIds =>
                .field (settles_inner settles_asInts) fun gatewayRelayIds => .fields settles_providers) ?_ ?_
  · rw [complete_iff]
    rfl
  · simp only [Form.LacksInner, false_or, exists_and_left]
    rfl

/-- A parser that settles what the roots are. -/
lemma rejects_iff {α : Type} {form : Form} {parseRoot : JsonNode → Except Stop α}
    (h : ∀ v, Settles (parseRoot v) (form.Complete v) (form.LacksInner v)) (text : List UInt8) :
    Rejects form (fun json_str => root json_str >>= parseRoot) text ↔ ¬∃ v, root text = .ok v ∧ form.LacksInner v := by
  cases e : root text with
  | error stop =>
    obtain ⟨message, rfl⟩ := throws_root text stop e
    have thrown : (root text >>= parseRoot) = .error (.what message) := by
      rw [e]
      rfl
    simp only [reduceCtorEq, false_and, exists_false, not_false_iff, iff_true]
    exact ⟨.inr ⟨message, thrown⟩, fun _ => ⟨message, thrown⟩⟩
  | ok v =>
    have same : (root text >>= parseRoot) = parseRoot v := by
      rw [e]
      rfl
    constructor
    · rintro ⟨ends, -⟩ ⟨w, hw, lacks⟩
      cases hw
      simp only [same, (h v).undefined lacks] at ends
      obtain ⟨a, e⟩ | ⟨message, e⟩ := ends
      · cases e
      · cases e
    · intro given
      have noticed : ¬form.LacksInner v := fun lacks => given ⟨v, rfl, lacks⟩
      by_cases complete : form.Complete v
      · obtain ⟨a, ha⟩ := (h v).returns complete
        exact ⟨.inl ⟨a, same.trans ha⟩, fun incomplete => absurd ⟨v, e, complete⟩ incomplete⟩
      · obtain ⟨message, hm⟩ := (h v).throws complete noticed
        exact ⟨.inr ⟨message, same.trans hm⟩, fun _ => ⟨message, same.trans hm⟩⟩

/-- For every text: each of the two parsers rejects incomplete requests if and only if the first fault of the text is not that
    a member of an inner object is missing which is compared with the end of the outer one. -/
theorem parsers_reject_iff (text : List UInt8) :
    (Rejects intraForm IntraCloudCheck.parse text ↔ ¬∃ v, root text = .ok v ∧ intraForm.LacksInner v) ∧
    (Rejects interForm InterCloudCheck.parse text ↔ ¬∃ v, root text = .ok v ∧ interForm.LacksInner v) :=
  ⟨rejects_iff settles_intra text, rejects_iff settles_inter text⟩

/-! ## A consumer without an address, and a cloud without a name -/

/-- In both texts the member that is missing is read behind the end of its object. -/
theorem parsers_miss_member :
    ¬Rejects intraForm IntraCloudCheck.parse (bytes "\x7b\"serviceDefinitionId\":1,\"consumer\":\x7b\x7d\x7d") ∧
    ¬Rejects interForm InterCloudCheck.parse (bytes "\x7b\"serviceDefinitionId\":1,\"cloud\":\x7b\x7d\x7d") := by
  have intra : IntraCloudCheck.parse (bytes "\x7b\"serviceDefinitionId\":1,\"consumer\":\x7b\x7d\x7d") = .error .undefined := by
    decide +kernel
  have inter : InterCloudCheck.parse (bytes "\x7b\"serviceDefinitionId\":1,\"cloud\":\x7b\x7d\x7d") = .error .undefined := by
    decide +kernel
  constructor
  · rintro ⟨⟨a, e⟩ | ⟨message, e⟩, -⟩
    · cases intra.symm.trans e
    · cases intra.symm.trans e
  · rintro ⟨⟨a, e⟩ | ⟨message, e⟩, -⟩
    · cases inter.symm.trans e
    · cases inter.symm.trans e

end ArrowheadCore.Authorization.Parsers
