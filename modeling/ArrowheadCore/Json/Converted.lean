import ArrowheadCore.Lib.Traverse
import ArrowheadCore.Json.Reads
import ArrowheadCore.Json.CommonJsonBuilder

/-!
# What `JsonView` reads of a converted value

The texts that `convertGasonToCJB` writes: one text for each member it does not leave out. A value whose names
and strings need no escape is converted to a text that `JsonView` reads to its end or fails on. The text of an
object without members is a closing bracket, and the depth of the nesting is bounded, so that it may fail.
-/

namespace ArrowheadCore.Json
open Lib JsonView

mutual

/-- A value whose names and strings need no escape. -/
def CleanValue : JsonValue → Prop
  | .string s => Clean s
  | .array items => CleanItems items
  | .object members => CleanMembers members
  | _ => True

def CleanItems : List JsonValue → Prop
  | [] => True
  | v :: vs => CleanValue v ∧ CleanItems vs

def CleanMember : List UInt8 × JsonValue → Prop
  | (key, v) => Clean key ∧ CleanValue v

def CleanMembers : List (List UInt8 × JsonValue) → Prop
  | [] => True
  | m :: ms => CleanMember m ∧ CleanMembers ms

end

lemma CleanItems.mem {vs : List JsonValue} (h : CleanItems vs) : ∀ v ∈ vs, CleanValue v := by
  induction vs with
  | nil => simp
  | cons w ws ih =>
    intro v hv
    obtain rfl | hv := List.mem_cons.1 hv
    · exact h.1
    · exact ih h.2 v hv

lemma CleanMembers.mem {ms : List (List UInt8 × JsonValue)} (h : CleanMembers ms) : ∀ m ∈ ms, CleanMember m := by
  induction ms with
  | nil => simp
  | cons n ns ih =>
    intro m hm
    obtain rfl | hm := List.mem_cons.1 hm
    · exact h.1
    · exact ih h.2 m hm

lemma cleanValue_items {v : JsonValue} (h : CleanValue v) : ∀ w ∈ v.items, CleanValue w := by
  intro w hw
  cases v with
  | array items =>
    rw [CleanValue] at h
    exact h.mem w ((List.takeWhile_prefix _).subset hw)
  | _ => cases hw

lemma cleanValue_child {members : List (List UInt8 × JsonValue)} (h : CleanMembers members) {key : List UInt8}
    {v : JsonValue} (hv : (JsonValue.object members).child key = some v) : CleanValue v := by
  rw [JsonValue.child, Option.some.injEq] at hv
  cases hf : members.find? fun m => key.isPrefixOf m.1 with
  | none =>
    rw [hf] at hv
    subst hv
    simp [CleanValue]
  | some m =>
    rw [hf] at hv
    subst hv
    have := h.mem m (List.mem_of_find?_eq_some hf)
    obtain ⟨key, w⟩ := m
    rw [CleanMember] at this
    exact this.2

lemma cStr_of_clean {s : List UInt8} (h : Clean s) : cStr s = s := by
  apply cStr_eq
  intro h0
  have := (h 0 h0).1
  simp at this

/-! ## Texts without terminator -/

lemma zero_of_clean {s : List UInt8} (h : Clean s) : 0 ∉ s := by
  intro h0
  have := (h 0 h0).1
  simp at this

lemma zero_quoted {s : List UInt8} (h : 0 ∉ s) : 0 ∉ bytes "\"" ++ (s ++ bytes "\"") := by
  have quote : 0 ∉ bytes "\"" := by decide
  simp [h, quote]

lemma zero_commaList {xs : List (List UInt8)} (h : ∀ x ∈ xs, 0 ∉ x) : 0 ∉ commaList xs := by
  induction xs with
  | nil => simp [commaList]
  | cons x xs ih =>
    cases xs with
    | nil => exact h x (by simp)
    | cons y ys =>
      have comma : (0 : UInt8) ≠ ','.toUInt8 := by decide
      have hx := h x (by simp)
      have ih := ih fun z hz => h z (by simp [hz])
      rw [commaList_cons]
      simp [hx, comma, ih]

lemma zero_arrayText {xs : List (List UInt8)} (h : ∀ x ∈ xs, 0 ∉ x) : 0 ∉ arrayText xs := by
  have opening : 0 ∉ bytes "[" := by decide
  have closing : 0 ∉ bytes "]" := by decide
  simp [arrayText, opening, closing, zero_commaList h]

lemma zero_objectText {ms : List (List UInt8 × List UInt8)} (h : ∀ m ∈ ms, 0 ∉ m.1 ∧ 0 ∉ m.2) : 0 ∉ objectText ms := by
  have opening : 0 ∉ bytes "\x7b" := by decide
  have closing : 0 ∉ bytes "\x7d" := by decide
  have members : 0 ∉ commaList (ms.map memberText) := by
    apply zero_commaList
    intro x hx
    obtain ⟨m, hm, rfl⟩ := List.mem_map.1 hx
    have quote : 0 ∉ bytes "\"" := by decide
    have colon : 0 ∉ bytes "\": " := by decide
    simp [memberText, nameText, quote, colon, h m hm]
  simp [objectText, opening, closing, members]

/-! ## Texts of members -/

/-- What a list of members leaves in the stream of its builder. -/
def membersText (members : List (List UInt8 × List UInt8)) : List UInt8 :=
  members.flatMap fun m => memberText m ++ bytes ","

lemma addStr_eq (key value t : List UInt8) :
    addStr key value (Out.ofText t) = Out.ofText (t ++ membersText [(key, bytes "\"" ++ (value ++ bytes "\""))]) := by
  have : bytes "\"," = bytes "\"" ++ bytes "," := by decide
  simp [addStr, membersText, memberText, this]

lemma addInt_eq (key t : List UInt8) (z : Int) :
    addInt key z (Out.ofText t) = Out.ofText (t ++ membersText [(key, to_string z)]) := by
  simp [addInt, membersText, memberText]

lemma addObj_eq (key value t : List UInt8) :
    addObj key value (Out.ofText t) = Out.ofText (t ++ membersText [(key, value)]) := by
  simp [addObj, membersText, memberText]

lemma addNULL_eq (key t : List UInt8) :
    addNULL key (Out.ofText t) = Out.ofText (t ++ membersText [(key, bytes "null")]) := by
  have : bytes "null," = bytes "null" ++ bytes "," := by decide
  simp [addNULL, membersText, memberText, this]

lemma arrayLoop_ofText (items : List (List UInt8)) (t : List UInt8) :
    Json.arrayLoop items (Out.ofText t) = Out.ofText (t ++ items.flatMap fun x => x ++ bytes ",") := by
  unfold Json.arrayLoop
  induction items generalizing t with
  | nil => simp
  | cons x xs ih => simp [ih]

lemma to_arrayObj_eq (key t : List UInt8) (items : List (List UInt8)) :
    to_arrayObj key items (Out.ofText t) = Out.ofText (t ++ membersText [(key, arrayText items)]) := by
  have e : bytes "]," = ']'.toUInt8 :: bytes "," := by decide
  have e' : bytes "]" = [']'.toUInt8] := by decide
  by_cases h : items = []
  · subst h
    simp [to_arrayObj, membersText, memberText, arrayText, commaList, e, e']
  · simp only [to_arrayObj, Out.put_ofText, if_neg h, arrayLoop_ofText, e]
    rw [close_list _ h]
    simp [membersText, memberText, arrayText, e']

lemma membersText_append (ms ns : List (List UInt8 × List UInt8)) :
    membersText (ms ++ ns) = membersText ms ++ membersText ns := List.flatMap_append

/-- The text of a builder that has written these members. -/
lemma str_membersText {members : List (List UInt8 × List UInt8)} (h : members ≠ []) :
    str (Out.ofText (bytes "\x7b" ++ membersText members)) = objectText members := by
  have flat : membersText members = commaList (members.map memberText) ++ bytes "," := by
    rw [← flatMap_comma (by simpa using h), List.flatMap_map]
    rfl
  rw [flat, ← List.append_assoc, str_ofText, objectText, List.append_assoc]

lemma newBuilder_eq : newBuilder = Out.ofText (bytes "\x7b" ++ membersText []) := by decide

/-! ## Converted values -/

/-- Members that the parser reads no more and no less of, unless it fails. -/
def StopMembers (ms : List (List UInt8 × List UInt8)) : Prop :=
  ∀ m ∈ ms, Clean m.1 ∧ 0 ∉ m.2 ∧ ∀ levels, Stops levels m.2

lemma StopMembers.singleton {key s : List UInt8} (hk : Clean key) (h0 : 0 ∉ s) (h : ∀ levels, Stops levels s) :
    StopMembers [(key, s)] := by
  intro m hm
  obtain rfl := List.mem_singleton.1 hm
  exact ⟨hk, h0, h⟩

lemma stops_all {s : List UInt8} (h : ∀ levels, Stops (levels + 1) s) : ∀ levels, Stops levels s
  | 0 => Stops.zero (h 0).head
  | levels + 1 => h levels

/-- The builder of an object that lost its members writes only a bracket. -/
lemma stops_bracket (levels : Nat) : Stops levels (bytes "\x7d") := by
  refine stops_all ?_ levels
  intro l
  have head : bytes "\x7d" = ['}'.toUInt8] := by decide
  refine .of_fails ⟨'}'.toUInt8, [], head, by decide, by decide⟩ ?_
  intro pre rest v p e
  have digit : ¬('}'.toUInt8 = '-'.toUInt8 ∨ isDigit '}'.toUInt8) := by decide
  rw [head, List.singleton_append, parse_json_next (by decide), parse_value, if_neg digit, if_neg (by decide),
    if_neg (by decide), if_neg (by decide), if_neg (by decide), if_neg (by decide), if_neg (by decide)] at e
  cases e
  rfl

lemma stops_str {ms : List (List UInt8 × List UInt8)} (h : StopMembers ms) :
    0 ∉ str (Out.ofText (bytes "\x7b" ++ membersText ms)) ∧
      ∀ levels, Stops levels (str (Out.ofText (bytes "\x7b" ++ membersText ms))) := by
  cases ms with
  | nil =>
    have : str (Out.ofText (bytes "\x7b" ++ membersText [])) = bytes "\x7d" := by decide
    rw [this]
    exact ⟨by decide, stops_bracket⟩
  | cons m ms =>
    rw [str_membersText (by simp)]
    refine ⟨zero_objectText fun n hn => ⟨zero_of_clean (h n hn).1, (h n hn).2.1⟩, stops_all ?_⟩
    intro l
    refine .object ?_ (by simp)
    intro n hn
    exact ⟨(h n hn).1, (h n hn).2.2 l⟩

/-- The items of an array that is converted are strings. -/
lemma stops_items {v : JsonValue} (hv : CleanValue v) {items : List (List UInt8)}
    (h : v.items.mapM JsonValue.toString = some items) :
    0 ∉ arrayText (items.map fun s => bytes "\"" ++ (s ++ bytes "\"")) ∧
      ∀ levels, Stops levels (arrayText (items.map fun s => bytes "\"" ++ (s ++ bytes "\""))) := by
  have clean : ∀ s ∈ items, Clean s := by
    intro s hs
    obtain ⟨w, hw, e⟩ := forall₂_exists_left (mapM_some_mem h) hs
    cases w with
    | string s' =>
      have hs' : Clean s' := by
        have := cleanValue_items hv _ hw
        rwa [CleanValue] at this
      cases e
      rwa [cStr_of_clean hs']
    | _ => cases e
  refine ⟨?_, stops_all ?_⟩
  · apply zero_arrayText
    intro x hx
    obtain ⟨s, hs, rfl⟩ := List.mem_map.1 hx
    exact zero_quoted (zero_of_clean (clean s hs))
  intro l
  refine .array ?_
  intro x hx
  obtain ⟨s, hs, rfl⟩ := List.mem_map.1 hx
  exact stops_all (fun l => (Reads.string (clean s hs) l).stops) l

mutual

lemma convertValue_text {root : List (List UInt8 × JsonValue)} (hr : CleanMembers root) {key : List UInt8} (hk : Clean key)
    {t : List UInt8} {o : Out} : ∀ v, CleanValue v → convertValue root key (Out.ofText t) v = some o →
    ∃ ms, o = Out.ofText (t ++ membersText ms) ∧ StopMembers ms
  | .string s, hv, h => by
    have hv : Clean s := by rwa [CleanValue] at hv
    simp only [convertValue, cStr_of_clean hv, addStr_eq, Option.some.injEq] at h
    exact ⟨_, h.symm, .singleton hk (zero_quoted (zero_of_clean hv)) (stops_all fun l => (Reads.string hv l).stops)⟩
  | .number z, _, h => by
    simp only [convertValue, addInt_eq, Option.some.injEq] at h
    exact ⟨_, h.symm, .singleton hk (zero_to_string z) (stops_all fun l => (Reads.number z l).stops)⟩
  | .null, _, h => by
    simp only [convertValue, addObj_eq, Option.some.injEq] at h
    exact ⟨_, h.symm, .singleton hk (by decide) (stops_all fun l => (Reads.null l).stops)⟩
  | .true, _, h => by
    simp only [convertValue, addObj_eq, Option.some.injEq] at h
    exact ⟨_, h.symm, .singleton hk (by decide) (stops_all fun l => (Reads.true l).stops)⟩
  | .false, _, h => by
    simp only [convertValue, addObj_eq, Option.some.injEq] at h
    split at h
    · refine ⟨[], ?_, by simp [StopMembers]⟩
      rw [← h]
      simp [membersText]
    · exact ⟨_, h.symm, .singleton hk (by decide) (stops_all fun l => (Reads.false l).stops)⟩
  | .array _, _, h => by
    simp only [convertValue, Option.bind_eq_bind, Option.bind_eq_some_iff, Option.some.injEq] at h
    obtain ⟨w, hw, items, hi, h⟩ := h
    rw [to_arrayObj_eq] at h
    obtain ⟨h0, hs⟩ := stops_items (cleanValue_child hr hw) hi
    exact ⟨_, h.symm, .singleton hk h0 hs⟩
  | .object members, hv, h => by
    simp only [convertValue, Option.bind_eq_bind, Option.bind_eq_some_iff, Option.some.injEq] at h
    obtain ⟨obj, ho, h⟩ := h
    have hv : CleanMembers members := by rwa [CleanValue] at hv
    rw [newBuilder_eq] at ho
    obtain ⟨ms, rfl, hms⟩ := convertMembers_text hv members hv ho
    rw [addObj_eq, List.append_assoc, ← membersText_append] at h
    obtain ⟨h0, hs⟩ := stops_str hms
    exact ⟨_, h.symm, .singleton hk h0 hs⟩

lemma convertMember_text {root : List (List UInt8 × JsonValue)} (hr : CleanMembers root) {t : List UInt8} {o : Out} :
    ∀ m, CleanMember m → convertMember root (Out.ofText t) m = some o →
    ∃ ms, o = Out.ofText (t ++ membersText ms) ∧ StopMembers ms
  | (key, v), hm, h => by
    have hm : Clean key ∧ CleanValue v := by rwa [CleanMember] at hm
    rw [convertMember, cStr_of_clean hm.1] at h
    exact convertValue_text hr hm.1 v hm.2 h

lemma convertMembers_text {root : List (List UInt8 × JsonValue)} (hr : CleanMembers root) {t : List UInt8} {o : Out} :
    ∀ members, CleanMembers members → convertMembers root (Out.ofText t) members = some o →
    ∃ ms, o = Out.ofText (t ++ membersText ms) ∧ StopMembers ms
  | [], _, h => by
    rw [convertMembers] at h
    cases h
    exact ⟨[], by simp [membersText], by simp [StopMembers]⟩
  | m :: members, hm, h => by
    have hm : CleanMember m ∧ CleanMembers members := by rwa [CleanMembers] at hm
    simp only [convertMembers, Option.bind_eq_bind, Option.bind_eq_some_iff] at h
    obtain ⟨o1, h1, h2⟩ := h
    obtain ⟨ms, rfl, hms⟩ := convertMember_text hr m hm.1 h1
    obtain ⟨ns, rfl, hns⟩ := convertMembers_text hr members hm.2 h2
    refine ⟨ms ++ ns, by rw [membersText_append, List.append_assoc], ?_⟩
    intro n hn
    obtain hn | hn := List.mem_append.1 hn
    · exact hms n hn
    · exact hns n hn

end

/-- The parser reads no more and no less of a converted value, unless it fails. -/
theorem convertGasonToCJB_stops {v : JsonValue} (hv : CleanValue v) {o : Out} (h : convertGasonToCJB v = some o) :
    0 ∉ str o ∧ ∀ levels, Stops levels (str o) := by
  have empty : some newBuilder = some o → 0 ∉ str o ∧ ∀ levels, Stops levels (str o) := by
    intro e
    cases e
    rw [newBuilder_eq]
    exact stops_str (by simp [StopMembers])
  cases v with
  | object members =>
    rw [CleanValue] at hv
    rw [convertGasonToCJB, newBuilder_eq] at h
    obtain ⟨ms, rfl, hms⟩ := convertMembers_text hv members hv h
    rw [List.append_assoc, ← membersText_append]
    exact stops_str hms
  | array items =>
    cases items with
    | nil => exact empty h
    | cons w ws => cases h
  | _ => exact empty h

end ArrowheadCore.Json
