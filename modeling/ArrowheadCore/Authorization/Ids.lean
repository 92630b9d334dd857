import ArrowheadCore.Authorization.Parsers
import ArrowheadCore.Json.Integers

/-!
# Ids in requests

Which request a parser takes does not depend on the integers in it, as long as they are integers for `JsonView`. So a
request is taken with every id that is short enough, wherever the id stands.
-/

namespace ArrowheadCore.Authorization.Parsers
open Lib Json JsonView Grammar

/-- Nodes that differ in one integer at most. -/
inductive Alike : JsonNode → JsonNode → Prop
  | refl (v : JsonNode) : Alike v v
  | int (z z' : Int) : Alike (.int z) (.int z')
  | item {v w : JsonNode} (vs ws : List JsonNode) : Alike v w → Alike (.array (vs ++ v :: ws)) (.array (vs ++ w :: ws))
  | member {v w : JsonNode} (ms : List (List UInt8 × JsonNode)) (k : List UInt8) (ns : List (List UInt8 × JsonNode)) :
    Alike v w → Alike (.object (ms ++ (k, v) :: ns)) (.object (ms ++ (k, w) :: ns))

lemma alike_tree {n : Nat} {pre post : List UInt8} {tree : JsonNode → JsonNode} (h : Context n pre post tree)
    {v w : JsonNode} (hvw : Alike v w) : Alike (tree v) (tree w) := by
  induction h generalizing v w with
  | document => exact hvw
  | item _ _ _ ih => exact ih (.item _ _ hvw)
  | member _ _ _ _ _ _ _ ih => exact ih (.member _ _ _ hvw)

/-! ## Two runs of a parser -/

/-- Both throw, or both return, and then what is related. -/
inductive Both {α β : Type} (R : α → β → Prop) : Except Stop α → Except Stop β → Prop
  | ok {a : α} {b : β} : R a b → Both R (.ok a) (.ok b)
  | error (e e' : Stop) : Both R (.error e) (.error e')

section
variable {α β γ δ : Type} {R : α → β → Prop} {S : γ → δ → Prop}

lemma Both.bind {x : Except Stop α} {y : Except Stop β} {f : α → Except Stop γ} {g : β → Except Stop δ} (h : Both R x y)
    (hfg : ∀ a b, R a b → Both S (f a) (g b)) : Both S (x >>= f) (y >>= g) := by
  cases h with
  | ok hab => exact hfg _ _ hab
  | error e e' => exact .error e e'

lemma Both.mapM {f : α → Except Stop γ} {g : β → Except Stop δ} (hfg : ∀ a b, R a b → Both S (f a) (g b))
    {as : List α} {bs : List β} (h : List.Forall₂ R as bs) : Both (List.Forall₂ S) (as.mapM f) (bs.mapM g) := by
  induction h with
  | nil => exact .ok .nil
  | cons hab _ ih =>
    rw [List.mapM_cons, List.mapM_cons]
    exact (hfg _ _ hab).bind fun c d hcd => ih.bind fun cs ds hcds => .ok (.cons hcd hcds)

end

def AlikeItems : List JsonNode → List JsonNode → Prop := List.Forall₂ Alike

def AlikeMembers (ms ns : List (List UInt8 × JsonNode)) : Prop := List.Forall₂ (fun m n => m.1 = n.1 ∧ Alike m.2 n.2) ms ns

/-- Nothing is said of the two results. -/
def Any {α : Type} (_ _ : α) : Prop := True

section
variable {v w : JsonNode}

lemma both_asObject (h : Alike v w) (wrongType : String) :
    Both AlikeMembers (asObject wrongType v) (asObject wrongType w) := by
  have same : ∀ ms : List (List UInt8 × JsonNode), AlikeMembers ms ms :=
    fun ms => List.forall₂_same.2 fun m _ => ⟨rfl, .refl _⟩
  cases h with
  | refl =>
    cases v with
    | object members => exact .ok (same members)
    | _ => exact .error _ _
  | int => exact .error _ _
  | item => exact .error _ _
  | member ms k ns h => exact .ok (List.rel_append (same ms) (.cons ⟨rfl, h⟩ (same ns)))

lemma both_asArray (h : Alike v w) (wrongType : String) : Both AlikeItems (asArray wrongType v) (asArray wrongType w) := by
  have same : ∀ vs : List JsonNode, AlikeItems vs vs := fun vs => List.forall₂_same.2 fun v _ => .refl v
  cases h with
  | refl =>
    cases v with
    | array items => exact .ok (same items)
    | _ => exact .error _ _
  | int => exact .error _ _
  | item vs ws h => exact .ok (List.rel_append (same vs) (.cons h (same ws)))
  | member => exact .error _ _

lemma both_asString (h : Alike v w) (wrongType : String) : Both Any (asString wrongType v) (asString wrongType w) := by
  cases h with
  | refl =>
    cases v with
    | string s => exact .ok trivial
    | _ => exact .error _ _
  | _ => exact .error _ _

lemma both_asInt (h : Alike v w) (wrongType : String) : Both Any (asInt wrongType v) (asInt wrongType w) := by
  cases h with
  | refl =>
    cases v with
    | int z => exact .ok trivial
    | _ => exact .error _ _
  | int => exact .ok trivial
  | item => exact .error _ _
  | member => exact .error _ _

end

section
variable {dict dict' : List (List UInt8 × JsonNode)}

lemma find_alike (h : AlikeMembers dict dict') (key : String) :
    (find dict key = none ∧ find dict' key = none) ∨
      ∃ v w, find dict key = some v ∧ find dict' key = some w ∧ Alike v w := by
  induction h with
  | nil => exact .inl ⟨rfl, rfl⟩
  | @cons m n ms ns hmn _ ih =>
    obtain ⟨name, hv⟩ := hmn
    by_cases here : m.1 == bytes key
    · have there : n.1 == bytes key := name ▸ here
      exact .inr ⟨m.2, n.2, by simp [find, here], by simp [find, there], hv⟩
    · have there : ¬(n.1 == bytes key) := name ▸ here
      simpa [find, here, there] using ih

lemma both_member (h : AlikeMembers dict dict') (key missing : String) :
    Both Alike (member dict key missing) (member dict' key missing) := by
  obtain ⟨e, e'⟩ | ⟨v, w, e, e', hvw⟩ := find_alike h key
  · rw [member, member, e, e']
    exact .error _ _
  · rw [member, member, e, e']
    exact .ok hvw

lemma both_innerMember (h : AlikeMembers dict dict') (key : String) :
    Both Alike (innerMember dict key) (innerMember dict' key) := by
  obtain ⟨e, e'⟩ | ⟨v, w, e, e', hvw⟩ := find_alike h key
  · rw [innerMember, innerMember, e, e']
    exact .error _ _
  · rw [innerMember, innerMember, e, e']
    exact .ok hvw

end

lemma both_parseProvider {v w : JsonNode} (h : Alike v w) :
    Both Any (IntraCloudCheck.parseProvider v) (IntraCloudCheck.parseProvider w) :=
  (both_asObject h _).bind fun _ _ obj =>
    ((both_member obj _ _).bind fun _ _ h => both_asInt h _).bind fun _ _ _ =>
      ((both_innerMember obj _).bind fun _ _ h => both_asArray h _).bind fun _ _ items =>
        (Both.mapM (R := Alike) (fun _ _ h => both_asInt h _) items).bind fun _ _ _ => .ok trivial

lemma both_parseRoot {v w : JsonNode} (h : Alike v w) :
    Both Any (IntraCloudCheck.parseRoot v) (IntraCloudCheck.parseRoot w) :=
  (both_asObject h _).bind fun _ _ dict =>
    ((both_member dict _ _).bind fun _ _ h => both_asInt h _).bind fun _ _ _ =>
    ((both_member dict _ _).bind fun _ _ h => both_asObject h _).bind fun _ _ obj =>
    ((both_innerMember obj _).bind fun _ _ h => both_asString h _).bind fun _ _ _ =>
    ((both_innerMember obj _).bind fun _ _ h => both_asString h _).bind fun _ _ _ =>
    ((both_innerMember obj _).bind fun _ _ h => both_asString h _).bind fun _ _ _ =>
    ((both_innerMember obj _).bind fun _ _ h => both_asInt h _).bind fun _ _ _ =>
    ((both_member dict _ _).bind fun _ _ h => both_asArray h _).bind fun _ _ arr =>
    (Both.mapM (R := Alike) (fun _ _ h => both_parseProvider h) arr).bind fun _ _ _ => .ok trivial

/-! ## Ids -/

def Accepted (body : List UInt8) : Prop := ∃ check, IntraCloudCheck.parse body = .ok check

/-- Where the id `0` may stand in a request, `z` may. -/
def AcceptedAsId (z : Int) : Prop :=
  ∀ n pre post tree, Context (n + 1) pre post tree → 0 ∉ pre ++ post →
    Accepted (pre ++ (to_string 0 ++ post)) → Accepted (pre ++ (to_string z ++ post))

lemma acceptedAsId {z : Int} (short : (to_string z).length ≤ digits10) : AcceptedAsId z := by
  intro n pre post tree context zero ⟨check, accepted⟩
  have nodes : numberNode 0 = .int 0 ∧ numberNode z = .int z := ⟨if_pos (by decide), if_pos short⟩
  have cut : ∀ z, cStr (pre ++ (to_string z ++ post)) = pre ++ (to_string z ++ post) := by
    intro z
    simp only [List.mem_append, not_or] at zero
    exact cStr_eq (by simpa [zero] using zero_to_string z)
  have parsed : ∀ z, root (pre ++ (to_string z ++ post)) = .ok (tree (numberNode z)) := by
    intro z
    rw [root, cut z, parse_integer_context z context]
  have both := both_parseRoot (alike_tree context (.int 0 z))
  rw [IntraCloudCheck.parse, parsed, nodes.1] at accepted
  rw [Accepted, IntraCloudCheck.parse, parsed, nodes.2]
  change IntraCloudCheck.parseRoot _ = _ at accepted
  rw [accepted] at both
  change ∃ check, IntraCloudCheck.parseRoot _ = _
  cases h : IntraCloudCheck.parseRoot (tree (.int z)) with
  | ok check => exact ⟨check, rfl⟩
  | error e =>
    rw [h] at both
    cases both

/-- For every integer: it is read as one in every context and taken as an id in every request if and only if its literal
    has nine characters at most, the sign included. -/
theorem readAsInt_and_acceptedAsId_iff (z : Int) :
    ReadAsInt z ∧ AcceptedAsId z ↔ -99999999 ≤ z ∧ z ≤ 999999999 := by
  constructor
  · exact fun h => (readAsInt_iff z).1 h.1
  · exact fun h => ⟨(readAsInt_iff z).2 h, acceptedAsId ((length_to_string_le z).2 h)⟩

/-- A request with the id `id` of a service definition. -/
def definitionRequest (id : String) : List UInt8 :=
  bytes "\x7b\"serviceDefinitionId\":" ++ (bytes id ++
    (bytes ",\"consumer\":\x7b\"address\":\"a\",\"authenticationInfo\":\"\",\"systemName\":\"s\",\"port\":80\x7d" ++
      bytes ",\"providerIdsWithInterfaceIds\":[]\x7d"))

/-- The largest `int` is no integer, and a request with it as an id is refused. -/
theorem largest_int_refused :
    (-2 ^ 31 ≤ (2147483647 : Int) ∧ (2147483647 : Int) < 2 ^ 31) ∧ ¬ReadAsInt 2147483647 ∧
    (IntraCloudCheck.parse (definitionRequest "999999999")).isOk ∧
    ¬(IntraCloudCheck.parse (definitionRequest "2147483647")).isOk := by
  refine ⟨by decide, fun h => ?_, by decide +kernel, by decide +kernel⟩
  have := (readAsInt_iff _).1 h
  omega

end ArrowheadCore.Authorization.Parsers
