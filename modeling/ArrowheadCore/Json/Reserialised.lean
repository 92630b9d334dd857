import ArrowheadCore.Json.Unread

/-!
# When a converted value is the value

`convertGasonToCJB` writes every member but a `false` named `authenticationInfo`, an object without members as a closing
bracket, and for an array the strings in the array that `child` finds under its name. So the text is one of the value if
and only if none of this makes a difference.
-/

namespace ArrowheadCore.Json
open Lib JsonView Grammar

mutual

/-- The tree of a value. -/
def nodeOf : JsonValue → JsonNode
  | .null => .null
  | .true => .bool true
  | .false => .bool false
  | .number z => numberNode z
  | .string s => .string s
  | .array items => .array (nodesOf items)
  | .object members => .object (memberNodes members)

def nodesOf : List JsonValue → List JsonNode
  | [] => []
  | v :: vs => nodeOf v :: nodesOf vs

def memberNode : List UInt8 × JsonValue → List UInt8 × JsonNode
  | (key, v) => (key, nodeOf v)

def memberNodes : List (List UInt8 × JsonValue) → List (List UInt8 × JsonNode)
  | [] => []
  | m :: ms => memberNode m :: memberNodes ms

end

/-- The text of a converted value is a JSON text of the value. -/
def Reserialises (v : JsonValue) : Prop := ∃ o, convertGasonToCJB v = some o ∧ ∃ n, Document rfc n (str o) (nodeOf v)

mutual

/-- The value of a member is written as it is: it is no `false` named `authenticationInfo`, an object has members, and
    an array has strings only, the same as the first member whose name begins with its name. -/
def KeptValue (root : List (List UInt8 × JsonValue)) (key : List UInt8) : JsonValue → Prop
  | .false => key ≠ bytes "authenticationInfo"
  | .array items => (∀ v ∈ items, v.isString) ∧ ∃ w, (JsonValue.object root).child key = some w ∧ w.items = items
  | .object members => members ≠ [] ∧ KeptMembers members members
  | _ => True

def KeptMember (root : List (List UInt8 × JsonValue)) : List UInt8 × JsonValue → Prop
  | (key, v) => KeptValue root key v

def KeptMembers (root : List (List UInt8 × JsonValue)) : List (List UInt8 × JsonValue) → Prop
  | [] => True
  | m :: ms => KeptMember root m ∧ KeptMembers root ms

end

lemma nodesOf_eq (vs : List JsonValue) : nodesOf vs = vs.map nodeOf := by
  induction vs with
  | nil => rw [nodesOf, List.map_nil]
  | cons v vs ih => rw [nodesOf, List.map_cons, ih]

lemma nodeOf_string {v : JsonValue} {s : List UInt8} (h : nodeOf v = .string s) : v = .string s := by
  cases v with
  | string t =>
    rw [nodeOf] at h
    cases h
    rfl
  | number z =>
    rw [nodeOf, numberNode] at h
    split at h
    · cases h
    · cases h
  | _ =>
    rw [nodeOf] at h
    cases h

lemma memberNodes_eq (ms : List (List UInt8 × JsonValue)) : memberNodes ms = ms.map fun m => (m.1, nodeOf m.2) := by
  induction ms with
  | nil => rw [memberNodes, List.map_nil]
  | cons m ms ih => rw [memberNodes, memberNode, List.map_cons, ih]

/-! ## Arrays -/

/-- Items that are converted to strings are these strings. -/
lemma strings_of_toString {vs : List JsonValue} (hc : ∀ v ∈ vs, CleanValue v) {ss : List (List UInt8)}
    (h : vs.mapM JsonValue.toString = some ss) : vs = ss.map JsonValue.string ∧ ∀ s ∈ ss, Clean s := by
  have each := mapM_some_mem h
  clear h
  induction each with
  | nil => simp
  | @cons v s vs ss hv _ ih =>
    obtain ⟨rfl, clean⟩ := ih fun w hw => hc w (List.mem_cons_of_mem _ hw)
    cases v with
    | string t =>
      have ht : Clean t := by
        have := hc (.string t) List.mem_cons_self
        rwa [CleanValue] at this
      rw [JsonValue.toString, cStr_of_clean ht] at hv
      cases hv
      exact ⟨rfl, List.forall_mem_cons.2 ⟨ht, clean⟩⟩
    | _ => cases hv

lemma strings_eq_nodes {ss : List (List UInt8)} {items : List JsonValue} :
    ss.map JsonNode.string = nodesOf items ↔ (∀ v ∈ items, v.isString) ∧ ss.map JsonValue.string = items := by
  induction items generalizing ss with
  | nil => simp [nodesOf]
  | cons v vs ih =>
    cases ss with
    | nil => simp [nodesOf]
    | cons s ss =>
      rw [nodesOf, List.map_cons, List.map_cons, List.cons.injEq, List.cons.injEq, List.forall_mem_cons, ih]
      constructor
      · rintro ⟨e, all, rest⟩
        obtain rfl := nodeOf_string e.symm
        exact ⟨⟨rfl, all⟩, rfl, rest⟩
      · rintro ⟨⟨-, all⟩, rfl, rest⟩
        exact ⟨by rw [nodeOf], all, rest⟩

lemma denotes_strings {ss : List (List UInt8)} (h : ∀ s ∈ ss, Clean s) :
    Denotes (arrayText (ss.map fun s => bytes "\"" ++ (s ++ bytes "\""))) (.array (ss.map .string)) := by
  apply Denotes.array
  rw [List.forall₂_map_left_iff, List.forall₂_map_right_iff]
  exact List.forall₂_same.2 fun s hs => .string (h s hs)

/-! ## Members -/

/-- The texts of members with what they denote. -/
abbrev Texts := List ((List UInt8 × List UInt8) × Option JsonNode)

/-- What is in the stream behind the members that are written, and whether they are those that are meant. -/
structure Conversion (t : List UInt8) (o : Out) (ts : Texts) (meant : List (List UInt8 × JsonNode)) (kept : Prop) : Prop where
  text : o = .ofText (t ++ membersText (ts.map Prod.fst))
  reading : ∀ x ∈ ts, Clean x.1.1 ∧ Reading x.1.2 x.2
  length : ts.length ≤ meant.length
  kept : ts.map (fun x => (x.1.1, x.2)) = meant.map (fun m => (m.1, some m.2)) ↔ kept

lemma Conversion.singleton {t key s : List UInt8} {o : Out} {r : Option JsonNode} {v : JsonNode} {kept : Prop}
    (text : o = .ofText (t ++ membersText [(key, s)])) (hk : Clean key) (reading : Reading s r) (h : r = some v ↔ kept) :
    Conversion t o [((key, s), r)] [(key, v)] kept where
  text := text
  reading := by
    intro x hx
    obtain rfl := List.mem_singleton.1 hx
    exact ⟨hk, reading⟩
  length := Nat.le_refl 1
  kept := by simpa using h

lemma Conversion.append {t : List UInt8} {o1 o2 : Out} {ts us : Texts} {m : List UInt8 × JsonNode}
    {ms : List (List UInt8 × JsonNode)} {kept1 kept2 : Prop} (h1 : Conversion t o1 ts [m] kept1)
    (h2 : Conversion (t ++ membersText (ts.map Prod.fst)) o2 us ms kept2) :
    Conversion t o2 (ts ++ us) (m :: ms) (kept1 ∧ kept2) where
  text := by rw [h2.text, List.map_append, membersText_append, List.append_assoc]
  reading := by
    intro x hx
    obtain hx | hx := List.mem_append.1 hx
    · exact h1.reading x hx
    · exact h2.reading x hx
  length := by
    have := h1.length
    have := h2.length
    simp only [List.length_append, List.length_cons, List.length_nil] at *
    omega
  kept := by
    rw [← h1.kept, ← h2.kept, List.map_append, List.map_cons, List.map_cons, List.map_nil, ← List.singleton_append]
    constructor
    · intro e
      -- nothing is written for at most one member, so that nothing can be missing in front
      have lengths := congrArg List.length e
      have := h1.length
      have := h2.length
      simp only [List.length_append, List.length_map, List.length_cons, List.length_nil] at *
      exact List.append_inj e (by simp; omega)
    · rintro ⟨e1, e2⟩
      rw [e1, e2]

lemma Conversion.object {t : List UInt8} {o : Out} {ts : Texts} {meant : List (List UInt8 × JsonNode)} {kept : Prop}
    (h : Conversion t o ts meant kept) : objectReading ts = some (.object meant) ↔ meant ≠ [] ∧ kept := by
  rw [objectReading_eq_some, ← h.kept]
  apply and_congr_left
  intro e
  have empty : ts = [] ↔ meant = [] := by
    have lengths := congrArg List.length e
    rw [List.length_map, List.length_map] at lengths
    rw [← List.length_eq_zero_iff, lengths, List.length_eq_zero_iff]
  exact not_congr empty

/-- What the builder of an object denotes. -/
lemma reading_str {ts : Texts} (h : ∀ x ∈ ts, Clean x.1.1 ∧ Reading x.1.2 x.2) :
    Reading (str (.ofText (bytes "\x7b" ++ membersText (ts.map Prod.fst)))) (objectReading ts) := by
  cases ts with
  | nil =>
    have text : str (.ofText (bytes "\x7b" ++ membersText [])) = bytes "\x7d" := by decide
    rw [List.map_nil, text]
    exact unread_bracket
  | cons x xs =>
    rw [str_membersText (by simp)]
    exact .object h (by simp)

mutual

lemma convertValue_reading {root : List (List UInt8 × JsonValue)} (hr : CleanMembers root) {key : List UInt8} (hk : Clean key)
    {t : List UInt8} {o : Out} : ∀ v, CleanValue v → convertValue root key (.ofText t) v = some o →
    ∃ ts, Conversion t o ts [(key, nodeOf v)] (KeptValue root key v)
  | .string s, hv, h => by
    have hv : Clean s := by rwa [CleanValue] at hv
    simp only [convertValue, cStr_of_clean hv, addStr_eq, Option.some.injEq] at h
    exact ⟨_, .singleton h.symm hk (r := some (.string s)) (.string hv) (by simp [nodeOf, KeptValue])⟩
  | .number z, _, h => by
    simp only [convertValue, addInt_eq, Option.some.injEq] at h
    exact ⟨_, .singleton h.symm hk (r := some (numberNode z)) (.number z) (by simp [nodeOf, KeptValue])⟩
  | .null, _, h => by
    simp only [convertValue, addObj_eq, Option.some.injEq] at h
    exact ⟨_, .singleton h.symm hk (r := some .null) .null (by simp [nodeOf, KeptValue])⟩
  | .true, _, h => by
    simp only [convertValue, addObj_eq, Option.some.injEq] at h
    exact ⟨_, .singleton h.symm hk (r := some (.bool true)) (.bool true) (by simp [nodeOf, KeptValue])⟩
  | .false, _, h => by
    simp only [convertValue, addObj_eq, Option.some.injEq] at h
    by_cases hkey : key = bytes "authenticationInfo"
    · rw [if_pos hkey] at h
      exact ⟨[], by simp [← h, membersText], by simp, by simp, by simp [KeptValue, hkey]⟩
    · rw [if_neg hkey] at h
      exact ⟨_, .singleton h.symm hk (r := some (.bool false)) (.bool false) (by simp [nodeOf, KeptValue, hkey])⟩
  | .array items, _, h => by
    simp only [convertValue, Option.bind_eq_bind, Option.bind_eq_some_iff, Option.some.injEq] at h
    obtain ⟨w, hw, ss, hs, h⟩ := h
    rw [to_arrayObj_eq] at h
    obtain ⟨strings, clean⟩ := strings_of_toString (cleanValue_items (cleanValue_child hr hw)) hs
    refine ⟨_, .singleton h.symm hk (r := some (.array (ss.map .string))) (denotes_strings clean) ?_⟩
    rw [nodeOf, Option.some.injEq, JsonNode.array.injEq, strings_eq_nodes, KeptValue, ← strings, hw]
    simp
  | .object members, hv, h => by
    simp only [convertValue, Option.bind_eq_bind, Option.bind_eq_some_iff, Option.some.injEq] at h
    obtain ⟨obj, ho, h⟩ := h
    have hv : CleanMembers members := by rwa [CleanValue] at hv
    rw [newBuilder_eq, show membersText [] = [] from rfl, List.append_nil] at ho
    obtain ⟨ts, conv⟩ := convertMembers_reading hv members hv ho
    rw [addObj_eq] at h
    refine ⟨_, .singleton h.symm hk (conv.text ▸ reading_str conv.reading) ?_⟩
    rw [nodeOf, conv.object, memberNodes_eq, KeptValue, Ne, List.map_eq_nil_iff]

lemma convertMembers_reading {root : List (List UInt8 × JsonValue)} (hr : CleanMembers root) {t : List UInt8} {o : Out} :
    ∀ members, CleanMembers members → convertMembers root (.ofText t) members = some o →
    ∃ ts, Conversion t o ts (memberNodes members) (KeptMembers root members)
  | [], _, h => by
    rw [convertMembers] at h
    cases h
    exact ⟨[], by simp [membersText], by simp, by simp, by simp [KeptMembers, memberNodes]⟩
  | (key, v) :: members, hm, h => by
    rw [CleanMembers, CleanMember] at hm
    simp only [convertMembers, convertMember, Option.bind_eq_bind, Option.bind_eq_some_iff, cStr_of_clean hm.1.1] at h
    obtain ⟨o1, h1, h2⟩ := h
    obtain ⟨ts, conv1⟩ := convertValue_reading hr hm.1.1 v hm.1.2 h1
    rw [conv1.text] at h2
    obtain ⟨us, conv2⟩ := convertMembers_reading hr members hm.2 h2
    rw [memberNodes, memberNode, KeptMembers, KeptMember]
    exact ⟨_, conv1.append conv2⟩

end

mutual

/-- Arrays that are kept fail no assertion. -/
lemma convertValue_isSome {root : List (List UInt8 × JsonValue)} {key : List UInt8} (o : Out) :
    ∀ v, CleanValue v → KeptValue root key v → ∃ o', convertValue root key o v = some o'
  | .string s, _, _ => ⟨_, by rw [convertValue]⟩
  | .number z, _, _ => ⟨_, by rw [convertValue]⟩
  | .null, _, _ => ⟨_, by rw [convertValue]⟩
  | .true, _, _ => ⟨_, by rw [convertValue]⟩
  | .false, _, _ => ⟨_, by rw [convertValue]⟩
  | .array items, _, h => by
    rw [KeptValue] at h
    obtain ⟨all, w, hw, rfl⟩ := h
    obtain ⟨ss, hs⟩ : ∃ ss, w.items.mapM JsonValue.toString = some ss := by
      apply mapM_some_of_forall
      intro v hv
      cases v with
      | string s => exact ⟨cStr s, rfl⟩
      | _ => cases all _ hv
    exact ⟨_, by rw [convertValue, hw, Option.bind_eq_bind, Option.bind_some, hs]; rfl⟩
  | .object members, hc, h => by
    rw [KeptValue] at h
    rw [CleanValue] at hc
    obtain ⟨obj, ho⟩ := convertMembers_isSome newBuilder members hc h.2
    exact ⟨_, by rw [convertValue, ho]; rfl⟩

lemma convertMembers_isSome {root : List (List UInt8 × JsonValue)} (o : Out) :
    ∀ members, CleanMembers members → KeptMembers root members → ∃ o', convertMembers root o members = some o'
  | [], _, _ => ⟨o, by rw [convertMembers]⟩
  | (key, v) :: members, hc, h => by
    rw [KeptMembers, KeptMember] at h
    rw [CleanMembers, CleanMember] at hc
    obtain ⟨o1, h1⟩ := convertValue_isSome o v hc.1.2 h.1
    obtain ⟨o2, h2⟩ := convertMembers_isSome o1 members hc.2 h.2
    exact ⟨o2, by rw [convertMembers, convertMember, cStr_of_clean hc.1.1, h1]; exact h2⟩

end

/-- A converted object is a JSON text of the object if and only if it has members that are all kept. -/
theorem reserialises_iff {members : List (List UInt8 × JsonValue)} (hc : CleanMembers members) :
    Reserialises (.object members) ↔ members ≠ [] ∧ KeptMembers members members := by
  have iff : ∀ {o}, convertMembers members newBuilder members = some o →
      ((∃ n, Document rfc n (str o) (nodeOf (.object members))) ↔ members ≠ [] ∧ KeptMembers members members) := by
    intro o h
    rw [newBuilder_eq, show membersText [] = [] from rfl, List.append_nil] at h
    obtain ⟨ts, conv⟩ := convertMembers_reading hc members hc h
    have reading := reading_str conv.reading
    rw [← conv.text] at reading
    have object := conv.object
    rw [memberNodes_eq, Ne, List.map_eq_nil_iff] at object
    rw [nodeOf, memberNodes_eq, ← object]
    constructor
    · rintro ⟨n, document⟩
      cases e : objectReading ts with
      | none =>
        rw [e] at reading
        exact absurd document (reading.not_document n _)
      | some v =>
        rw [e] at reading
        obtain ⟨m, document'⟩ := Denotes.document reading
        rw [document_unique document' document]
    · intro e
      rw [e] at reading
      exact Denotes.document reading
  constructor
  · rintro ⟨o, h, document⟩
    exact (iff h).1 document
  · intro kept
    obtain ⟨o, h⟩ := convertMembers_isSome newBuilder members hc kept.2
    exact ⟨o, h, (iff h).2 kept⟩

theorem reserialises_strings : Reserialises (.object [(bytes "names", .array [.string (bytes "a"), .string (bytes "b")])]) := by
  have clean : CleanMembers [(bytes "names", .array [.string (bytes "a"), .string (bytes "b")])] := by
    simp only [CleanMembers, CleanMember, CleanValue, CleanItems, and_true]
    decide
  refine (reserialises_iff clean).2 ⟨by simp, ?_⟩
  rw [KeptMembers, KeptMember, KeptMembers, KeptValue]
  exact ⟨⟨by simp [JsonValue.isString], _, rfl, rfl⟩, trivial⟩

/-- The object without members becomes a closing bracket. -/
theorem not_reserialises_empty : CleanMembers [] ∧ ¬Reserialises (.object []) := by
  refine ⟨by rw [CleanMembers]; trivial, ?_⟩
  rintro ⟨o, h, n, document⟩
  rw [convertGasonToCJB, convertMembers] at h
  cases h
  have text : str newBuilder = bytes "\x7d" := by decide
  rw [text] at document
  exact unread_bracket.not_document n _ document

end ArrowheadCore.Json
