import ArrowheadCore.ServiceRegistry.Completeness

/-!
# Metadata from the registration to the query

The metadata of a registration are stored as one text that is put in lower case, stripped of blanks and split again by
a query, which takes the names of its requirements as they are given. A requirement is found again if and only if its
name is in the stored spelling and nothing in the text is taken for a separator (`metadata_survives_iff`).
-/

namespace ArrowheadCore.ServiceRegistry
open Lib Lib.Sql Json Db

/-! ## Pieces of a text -/

section
variable {d : UInt8} {s t : List UInt8}

/-- A piece ends at the delimiter. -/
lemma getlines_append (h : d ∉ s) (t : List UInt8) : getlines d (s ++ d :: t) = s :: getlines d t := by
  induction s with
  | nil => simp [getlines]
  | cons c s ih =>
    rw [List.mem_cons, not_or] at h
    rw [List.cons_append, getlines, if_neg (Ne.symm h.1), ih h.2]

/-- The last piece ends with the text. -/
lemma getlines_last (h : d ∉ s) (hs : s ≠ []) : getlines d s = [s] := by
  induction s with
  | nil => exact absurd rfl hs
  | cons c s ih =>
    rw [List.mem_cons, not_or] at h
    cases s with
    | nil => simp [getlines, Ne.symm h.1]
    | cons c' s => rw [getlines, if_neg (Ne.symm h.1), ih h.2 (by simp)]

/-- The pieces of pieces that are joined. -/
lemma getlines_join {items : List (List UInt8)} (h : ∀ i ∈ items, d ∉ i ∧ i ≠ []) :
    getlines d (List.intercalate [d] items) = items := by
  induction items with
  | nil => rfl
  | cons i is ih =>
    obtain ⟨h1, h2⟩ := h i (by simp)
    cases is with
    | nil =>
      rw [List.intercalate_singleton]
      exact getlines_last h1 h2
    | cons j js =>
      rw [List.intercalate_cons_cons, List.append_assoc, List.singleton_append, getlines_append h1,
        ih fun x hx => h x (by simp [hx])]

/-- No delimiter stands in a piece, and its bytes stand in the text. -/
lemma mem_getlines (h : t ∈ getlines d s) : d ∉ t ∧ ∀ c ∈ t, c ∈ s := by
  induction s generalizing t with
  | nil => cases h
  | cons c s ih =>
    rw [getlines] at h
    split_ifs at h with hc
    · obtain rfl | h := List.mem_cons.1 h
      · simp
      · obtain ⟨h1, h2⟩ := ih h
        exact ⟨h1, fun c hc => List.mem_cons_of_mem _ (h2 c hc)⟩
    · cases hs : getlines d s with
      | nil =>
        rw [hs, List.mem_singleton] at h
        subst h
        simp [Ne.symm hc]
      | cons u us =>
        rw [hs] at h ih
        obtain rfl | h := List.mem_cons.1 h
        · obtain ⟨h1, h2⟩ := ih (List.mem_cons_self ..)
          refine ⟨by simp [Ne.symm hc, h1], fun x hx => ?_⟩
          obtain rfl | hx := List.mem_cons.1 hx
          · exact List.mem_cons_self ..
          · exact List.mem_cons_of_mem _ (h2 x hx)
        · obtain ⟨h1, h2⟩ := ih (List.mem_cons_of_mem _ h)
          exact ⟨h1, fun c hc => List.mem_cons_of_mem _ (h2 c hc)⟩

lemma splitToken_join {k v : List UInt8} (hk : '='.toUInt8 ∉ k) (hv : '='.toUInt8 ∉ v) :
    splitToken (k ++ '='.toUInt8 :: v) = (k, v) := by
  have key : ∀ c ∈ k, decide (c ≠ '='.toUInt8) = true := by
    intro c hc
    rw [decide_eq_true_iff]
    rintro rfl
    exact hk hc
  have value : v.takeWhile (fun c => decide (c ≠ '='.toUInt8)) = v := by
    rw [List.takeWhile_eq_self_iff]
    intro c hc
    rw [decide_eq_true_iff]
    rintro rfl
    exact hv hc
  have stop : ('='.toUInt8 :: v).takeWhile (fun c => decide (c ≠ '='.toUInt8)) = [] := by simp
  have stop' : ('='.toUInt8 :: v).dropWhile (fun c => decide (c ≠ '='.toUInt8)) = '='.toUInt8 :: v := by simp
  rw [splitToken, List.takeWhile_append_of_pos key, List.dropWhile_append_of_pos key, stop, stop', List.tail_cons,
    value, List.append_nil]

/-- Both parts of a piece are free of `=` and made of its bytes. -/
lemma splitToken_mem {k v : List UInt8} (h : splitToken t = (k, v)) :
    '='.toUInt8 ∉ k ∧ '='.toUInt8 ∉ v ∧ (∀ c ∈ k, c ∈ t) ∧ ∀ c ∈ v, c ∈ t := by
  obtain ⟨rfl, rfl⟩ := Prod.mk.inj h
  refine ⟨fun h => ?_, fun h => ?_, fun c hc => ?_, fun c hc => ?_⟩
  · simpa using List.mem_takeWhile_imp h
  · simpa using List.mem_takeWhile_imp h
  · exact (List.takeWhile_sublist _).subset hc
  · exact (List.dropWhile_sublist _).subset (List.mem_of_mem_tail ((List.takeWhile_sublist _).subset hc))

end

/-! ## Maps -/

section
variable {k l v : List UInt8}

lemma StrMap.lookup_insert (m : StrMap) (k v l : List UInt8) :
    (m.insert k v).lookup l = (m.lookup l).or ([(k, v)].lookup l) := by
  unfold StrMap.insert
  split_ifs with h
  · by_cases e : l = k
    · subst e
      obtain ⟨w, hw⟩ := Option.isSome_iff_exists.1 h
      rw [hw]
      rfl
    · rw [List.lookup_cons, beq_false_of_ne e, List.lookup_nil, Option.or_none]
  · exact List.lookup_append

/-- In a map that is filled by `insert` the first pair with a name counts. -/
lemma lookup_foldl_insert (pairs : List (List UInt8 × List UInt8)) (m : StrMap) (l : List UInt8) :
    (pairs.foldl (fun m kv => m.insert kv.1 kv.2) m).lookup l = (m.lookup l).or (pairs.lookup l) := by
  induction pairs generalizing m with
  | nil => simp
  | cons kv pairs ih =>
    rw [List.foldl_cons, ih, StrMap.lookup_insert, Option.or_assoc, ← List.lookup_append]
    rfl

lemma mem_insert {m : StrMap} {x : List UInt8 × List UInt8} (h : x ∈ m.insert k v) : x ∈ m ∨ x = (k, v) := by
  unfold StrMap.insert at h
  split_ifs at h
  · exact .inl h
  · simpa using h

lemma mem_foldl_insert {pairs : List (List UInt8 × List UInt8)} {m : StrMap} {x : List UInt8 × List UInt8}
    (h : x ∈ pairs.foldl (fun m kv => m.insert kv.1 kv.2) m) : x ∈ m ∨ x ∈ pairs := by
  induction pairs generalizing m with
  | nil => exact .inl h
  | cons kv pairs ih =>
    obtain h | h := ih h
    · obtain h | h := mem_insert h
      · exact .inl h
      · exact .inr (by rw [h]; exact List.mem_cons_self ..)
    · exact .inr (List.mem_cons_of_mem _ h)

lemma mem_of_lookup {m : StrMap} (h : m.lookup k = some v) : (k, v) ∈ m := by
  induction m with
  | nil => cases h
  | cons x m ih =>
    rw [List.lookup_cons] at h
    cases e : k == x.1 with
    | true =>
      rw [e] at h
      cases h
      rw [eq_of_beq e]
      exact List.mem_cons_self ..
    | false =>
      rw [e] at h
      exact List.mem_cons_of_mem _ (ih h)

/-- The pairs that a query reads from the stored metadata. -/
def storedPairs (sMetadata : List UInt8) : List (List UInt8 × List UInt8) :=
  ((getlines ','.toUInt8 sMetadata).map splitToken).filter fun kv => kv.1 ≠ [] ∧ kv.2 ≠ []

/-- A loop over the pieces that goes on with the pairs. -/
lemma foldl_storedPairs {β : Type} (f : β → List UInt8 → List UInt8 → β) (sMetadata : List UInt8) (b : β) :
    (getlines ','.toUInt8 sMetadata).foldl (fun b token =>
      let (key, value) := splitToken token
      if key ≠ [] ∧ value ≠ [] then f b key value else b) b =
      (storedPairs sMetadata).foldl (fun b kv => f b kv.1 kv.2) b := by
  rw [storedPairs, List.foldl_filter, List.foldl_map]
  simp only [decide_eq_true_eq]

lemma mDbMeta_lookup (sMetadata : List UInt8) (k : List UInt8) :
    (mDbMeta sMetadata).lookup k = (storedPairs sMetadata).lookup k := by
  rw [mDbMeta, foldl_storedPairs StrMap.insert, lookup_foldl_insert]
  rfl

end

/-! ## The stored text -/

/-- An object of strings. -/
def stringObject (members : List (List UInt8 × List UInt8)) : JsonValue :=
  .object (members.map fun kv => (kv.1, .string kv.2))

/-- A member as it stands in the stored text. -/
def storedItem (kv : List UInt8 × List UInt8) : List UInt8 :=
  toLowerAndTrim (cStr kv.1) ++ '='.toUInt8 :: toLowerAndTrim (cStr kv.2)

section
variable {members : List (List UInt8 × List UInt8)}

lemma toLowerAndTrim_append (s t : List UInt8) :
    toLowerAndTrim (s ++ t) = toLowerAndTrim s ++ toLowerAndTrim t := by
  simp [toLowerAndTrim]

lemma toLowerAndTrim_separator {c : UInt8} (h : c = ','.toUInt8 ∨ c = '='.toUInt8) : toLowerAndTrim [c] = [c] := by
  rcases h with rfl | rfl <;> decide

lemma toLowerAndTrim_intercalate (items : List (List UInt8)) :
    toLowerAndTrim (List.intercalate [','.toUInt8] items) =
      List.intercalate [','.toUInt8] (items.map toLowerAndTrim) := by
  induction items with
  | nil => rfl
  | cons i is ih =>
    cases is with
    | nil => simp
    | cons j js =>
      rw [List.map_cons, List.map_cons, List.intercalate_cons_cons, List.intercalate_cons_cons, ← List.map_cons, ← ih,
        toLowerAndTrim_append, toLowerAndTrim_append, toLowerAndTrim_separator (.inl rfl)]

/-- Items with a separator behind each, without the last one. -/
lemma dropLast_flatten (d : UInt8) {items : List (List UInt8)} (h : items ≠ []) :
    ((items.map (· ++ [d])).flatten).dropLast = List.intercalate [d] items := by
  induction items with
  | nil => exact absurd rfl h
  | cons i is ih =>
    cases is with
    | nil => simp
    | cons j js =>
      have rest : (((j :: js).map (· ++ [d])).flatten) ≠ [] := by simp
      rw [List.map_cons, List.flatten_cons, List.dropLast_append_of_ne_nil rest, ih (by simp),
        List.intercalate_cons_cons]

/-- The stored text is a normalised one. -/
lemma storedItems_eq (members : List (List UInt8 × List UInt8)) :
    List.intercalate [','.toUInt8] (members.map storedItem) = toLowerAndTrim (List.intercalate [','.toUInt8]
      (members.map fun kv => cStr kv.1 ++ '='.toUInt8 :: cStr kv.2)) := by
  rw [toLowerAndTrim_intercalate, List.map_map]
  congr 1
  refine List.map_congr_left fun kv _ => ?_
  rw [Function.comp_apply, toLowerAndTrim_append, ← List.singleton_append, toLowerAndTrim_append,
    toLowerAndTrim_separator (.inr rfl), List.singleton_append, storedItem]

lemma metadataItem_strings (members : List (List UInt8 × List UInt8)) :
    (stringObject members).nodes.mapM metadataItem =
      some (members.map fun kv => (cStr kv.1 ++ '='.toUInt8 :: cStr kv.2) ++ [','.toUInt8]) := by
  rw [stringObject, JsonValue.nodes, List.map_map]
  induction members with
  | nil => rfl
  | cons kv members ih =>
    have item : metadataItem (some kv.1, .string kv.2) =
        some ((cStr kv.1 ++ '='.toUInt8 :: cStr kv.2) ++ [','.toUInt8]) := by
      simp [metadataItem, metadataValue, bytes]
    rw [List.map_cons, List.mapM_cons, ih]
    simp only [Function.comp_apply, item]
    rfl

/-- The stored form of an object of strings. -/
lemma parseMetadata_strings {text : List UInt8} (h : parseMetadata (stringObject members) = some text) :
    members ≠ [] ∧ text = List.intercalate [','.toUInt8] (members.map storedItem) := by
  rw [parseMetadata, metadataItem_strings] at h
  simp only [Option.bind_eq_bind, Option.bind_some] at h
  split_ifs at h with hm
  have nonempty : members ≠ [] := by
    rintro rfl
    exact hm rfl
  have items : (members.map fun kv => cStr kv.1 ++ '='.toUInt8 :: cStr kv.2) ≠ [] := by simpa using nonempty
  have joined := dropLast_flatten ','.toUInt8 items
  rw [List.map_map] at joined
  refine ⟨nonempty, (Option.some.inj h).symm.trans ?_⟩
  rw [storedItems_eq, ← joined]
  rfl

lemma tolower_tolower (c : UInt8) : tolower (tolower c) = tolower c := by
  by_cases h : 65 ≤ c.toNat ∧ c.toNat ≤ 90
  · have low : tolower c = c + 32 := if_pos h
    have value : (c + 32).toNat = c.toNat + 32 := by
      rw [UInt8.toNat_add, show (32 : UInt8).toNat = 32 from rfl]
      omega
    rw [low, tolower, if_neg (by omega)]
  · have low : tolower c = c := if_neg h
    rw [low, low]

/-- Every byte of a normalised text is normal. -/
lemma toLowerAndTrim_byte {s : List UInt8} {c : UInt8} (h : c ∈ toLowerAndTrim s) :
    tolower c = c ∧ isTrimmed c = false := by
  rw [toLowerAndTrim, List.mem_filter, List.mem_map] at h
  obtain ⟨⟨b, -, rfl⟩, ht⟩ := h
  exact ⟨tolower_tolower b, by simpa using ht⟩

lemma toLowerAndTrim_eq {s : List UInt8} (h : ∀ c ∈ s, tolower c = c ∧ isTrimmed c = false) : toLowerAndTrim s = s := by
  have lower : s.map tolower = s := by
    conv_rhs => rw [← List.map_id s]
    exact List.map_congr_left fun c hc => (h c hc).1
  rw [toLowerAndTrim, lower, List.filter_eq_self]
  intro c hc
  rw [(h c hc).2]
  rfl

/-- The names are in the stored spelling, names and values are not empty and free of separators, and members with the
    same name have the same value. -/
structure Readable (members : List (List UInt8 × List UInt8)) : Prop where
  names : ∀ kv ∈ members, cStr kv.1 ≠ [] ∧ toLowerAndTrim (cStr kv.1) = cStr kv.1 ∧ ','.toUInt8 ∉ cStr kv.1 ∧
    '='.toUInt8 ∉ cStr kv.1
  values : ∀ kv ∈ members, toLowerAndTrim (cStr kv.2) ≠ [] ∧ ','.toUInt8 ∉ cStr kv.2 ∧ '='.toUInt8 ∉ cStr kv.2
  same : ∀ kv ∈ members, ∀ kv' ∈ members, cStr kv.1 = cStr kv'.1 →
    toLowerAndTrim (cStr kv.2) = toLowerAndTrim (cStr kv'.2)

/-- A query finds each member in the stored text. -/
def Covers (sMetadata : List UInt8) (members : List (List UInt8 × List UInt8)) : Prop :=
  ∀ kv ∈ members, (mDbMeta sMetadata).lookup (cStr kv.1) = some (toLowerAndTrim (cStr kv.2))

lemma mem_toLowerAndTrim {s : List UInt8} {c : UInt8} (h : c = ','.toUInt8 ∨ c = '='.toUInt8) :
    c ∈ toLowerAndTrim s ↔ c ∈ s := by
  have back : ∀ b, tolower b = c → b = c := by
    intro b e
    unfold tolower at e
    split_ifs at e with hb
    · have value := congrArg UInt8.toNat e
      rw [UInt8.toNat_add, show (32 : UInt8).toNat = 32 from rfl] at value
      rcases h with rfl | rfl
      · have comma : (','.toUInt8).toNat = 44 := by decide
        omega
      · have equals : ('='.toUInt8).toNat = 61 := by decide
        omega
    · exact e
  have self : tolower c = c ∧ isTrimmed c = false := by
    rcases h with rfl | rfl <;> decide
  rw [toLowerAndTrim, List.mem_filter, List.mem_map]
  constructor
  · rintro ⟨⟨b, hb, e⟩, -⟩
    exact back b e ▸ hb
  · intro hc
    exact ⟨⟨c, hc, self.1⟩, by simp [self.2]⟩

/-- What a query reads from the text is what was stored, as long as nothing is taken for a separator. -/
lemma Readable.covers (h : Readable members) :
    Covers (List.intercalate [','.toUInt8] (members.map storedItem)) members := by
  have clean : ∀ i ∈ members.map storedItem, ','.toUInt8 ∉ i ∧ i ≠ [] := by
    intro i hi
    obtain ⟨kv, hkv, rfl⟩ := List.mem_map.1 hi
    have h1 := (h.names kv hkv).2.2.1
    have h2 := (h.values kv hkv).2.1
    simp only [storedItem, List.mem_append, List.mem_cons, mem_toLowerAndTrim (.inl rfl), h1, h2]
    exact ⟨by decide, by simp⟩
  have pairs : storedPairs (List.intercalate [','.toUInt8] (members.map storedItem)) =
      members.map fun kv => (cStr kv.1, toLowerAndTrim (cStr kv.2)) := by
    rw [storedPairs, getlines_join clean, List.map_map, List.filter_eq_self.2]
    · refine List.map_congr_left fun kv hkv => ?_
      obtain ⟨-, normal, -, h1⟩ := h.names kv hkv
      have h2 := (h.values kv hkv).2.2
      rw [Function.comp_apply, storedItem, splitToken_join (by rwa [mem_toLowerAndTrim (.inr rfl)])
        (by rwa [mem_toLowerAndTrim (.inr rfl)]), normal]
    · intro x hx
      obtain ⟨kv, hkv, rfl⟩ := List.mem_map.1 hx
      obtain ⟨h0, normal, -, h1⟩ := h.names kv hkv
      have h2 := (h.values kv hkv).2.2
      rw [Function.comp_apply, storedItem, splitToken_join (by rwa [mem_toLowerAndTrim (.inr rfl)])
        (by rwa [mem_toLowerAndTrim (.inr rfl)]), normal, decide_eq_true_iff]
      exact ⟨h0, (h.values kv hkv).1⟩
  intro kv hkv
  rw [mDbMeta_lookup, pairs]
  -- the first member with the name has the same value
  cases e : (members.map fun kv => (cStr kv.1, toLowerAndTrim (cStr kv.2))).lookup (cStr kv.1) with
  | none =>
    have := List.lookup_eq_none_iff.1 e _ (List.mem_map_of_mem hkv)
    simp at this
  | some v =>
    obtain ⟨kv', hkv', e'⟩ := List.mem_map.1 (mem_of_lookup e)
    obtain ⟨e1, e2⟩ := Prod.mk.inj e'
    rw [← e2, h.same kv hkv kv' hkv' e1.symm]

/-- What a query finds in the text is normal and free of separators. -/
lemma Covers.readable (h : Covers (List.intercalate [','.toUInt8] (members.map storedItem)) members) :
    Readable members := by
  -- each member is a pair of the text
  have pair : ∀ kv ∈ members, cStr kv.1 ≠ [] ∧ toLowerAndTrim (cStr kv.2) ≠ [] ∧
      ∃ token ∈ getlines ','.toUInt8 (List.intercalate [','.toUInt8] (members.map storedItem)),
        splitToken token = (cStr kv.1, toLowerAndTrim (cStr kv.2)) := by
    intro kv hkv
    have found := h kv hkv
    rw [mDbMeta_lookup] at found
    obtain ⟨hm, hne⟩ := List.mem_filter.1 (mem_of_lookup found)
    rw [decide_eq_true_iff] at hne
    exact ⟨hne.1, hne.2, List.mem_map.1 hm⟩
  refine ⟨fun kv hkv => ?_, fun kv hkv => ?_, fun kv hkv kv' hkv' e => ?_⟩
  · obtain ⟨h0, -, token, ht, hs⟩ := pair kv hkv
    obtain ⟨comma, inText⟩ := mem_getlines ht
    obtain ⟨equals, -, inToken, -⟩ := splitToken_mem hs
    refine ⟨h0, toLowerAndTrim_eq fun c hc => ?_, fun hc => comma (inToken _ hc), equals⟩
    have := inText c (inToken c hc)
    rw [storedItems_eq] at this
    exact toLowerAndTrim_byte this
  · obtain ⟨-, h0, token, ht, hs⟩ := pair kv hkv
    obtain ⟨comma, -⟩ := mem_getlines ht
    obtain ⟨-, equals, -, inToken⟩ := splitToken_mem hs
    refine ⟨h0, fun hc => ?_, fun hc => ?_⟩
    · exact comma (inToken _ ((mem_toLowerAndTrim (.inl rfl)).2 hc))
    · exact equals ((mem_toLowerAndTrim (.inr rfl)).2 hc)
  · have h1 := h kv hkv
    rw [e, h kv' hkv'] at h1
    exact (Option.some.inj h1).symm

end

/-! ## Queries with requirements on the metadata -/

def otherRequirements : List (List UInt8) :=
  [bytes "interfaceRequirements", bytes "securityRequirements", bytes "versionRequirement",
    bytes "maxVersionRequirement", bytes "minVersionRequirement", bytes "pingProviders"]

/-- The payload asks for this definition and these metadata, and for nothing else. -/
structure IsQuery (root : JsonValue) (definition : List UInt8) (required : List (List UInt8 × List UInt8)) :
    Prop where
  definition : root.child (bytes "serviceDefinitionRequirement") = some (.string definition)
  metadata : root.child (bytes "metadataRequirements") = some (stringObject required)
  others : ∀ name ∈ otherRequirements, root.child name = some .null

/-- The payload that has just these members. -/
def queryPayload (definition : List UInt8) (required : List (List UInt8 × List UInt8)) : JsonValue := .object [
  (bytes "serviceDefinitionRequirement", .string definition), (bytes "metadataRequirements", stringObject required)]

lemma queryPayload_isQuery (definition : List UInt8) (required : List (List UInt8 × List UInt8)) :
    IsQuery (queryPayload definition required) definition required := by
  refine ⟨rfl, rfl, fun name hname => ?_⟩
  simp only [otherRequirements, List.mem_cons, List.not_mem_nil, or_false] at hname
  rcases hname with rfl | rfl | rfl | rfl | rfl | rfl <;> rfl

/-- The requirements as the form has them. -/
def requirementsOf (required : List (List UInt8 × List UInt8)) : StrMap :=
  (required.map fun kv => (cStr kv.1, toLowerAndTrim (cStr kv.2))).foldl (fun m kv => m.insert kv.1 kv.2) []

section
variable {root : JsonValue} {definition : List UInt8} {required : List (List UInt8 × List UInt8)}

lemma parseMetadataRequirements_strings (required : List (List UInt8 × List UInt8)) :
    parseMetadataRequirements [] (stringObject required).nodes = some (requirementsOf required) := by
  have from_ : ∀ m : StrMap, parseMetadataRequirements m (stringObject required).nodes =
      some ((required.map fun kv => (cStr kv.1, toLowerAndTrim (cStr kv.2))).foldl
        (fun m kv => m.insert kv.1 kv.2) m) := by
    rw [stringObject, JsonValue.nodes, List.map_map]
    induction required with
    | nil => exact fun _ => rfl
    | cons kv required ih =>
      intro m
      exact ih (m.insert (cStr kv.1) (toLowerAndTrim (cStr kv.2)))
  exact from_ []

lemma check_bind {α β : Type} (a : α) (f : α → Payload β) : (check (some a) >>= f) = f a := rfl

lemma IsQuery.parse (h : IsQuery root definition required) :
    (parseQueryForm root).run = if toLowerAndTrim (cStr definition) = [] then some (.error (2, []))
      else some (.ok ⟨toLowerAndTrim (cStr definition), [], [], requirementsOf required, none, none, none, false⟩) := by
  have h1 := h.others (bytes "interfaceRequirements") (by simp [otherRequirements])
  have h2 := h.others (bytes "securityRequirements") (by simp [otherRequirements])
  have h3 := h.others (bytes "versionRequirement") (by simp [otherRequirements])
  have h4 := h.others (bytes "maxVersionRequirement") (by simp [otherRequirements])
  have h5 := h.others (bytes "minVersionRequirement") (by simp [otherRequirements])
  have h6 := h.others (bytes "pingProviders") (by simp [otherRequirements])
  unfold parseQueryForm
  rw [h.definition, h.metadata, h1, h2, h3, h4, h5, h6]
  simp only [check_bind, JsonValue.isSet, JsonValue.isString, JsonValue.toString, Bool.not_true, Bool.false_eq_true,
    if_false]
  by_cases h0 : cStr definition = []
  · have h0' : toLowerAndTrim (cStr definition) = [] := by rw [h0]; rfl
    rw [if_pos h0, if_pos h0', if_pos h0']
    rfl
  · rw [if_neg h0]
    by_cases h0' : toLowerAndTrim (cStr definition) = []
    · rw [if_pos h0', if_pos h0']
      rfl
    · rw [if_neg h0', if_neg h0', parseMetadataRequirements_strings]
      rfl

/-- The key and the metadata in the data of an entry. -/
lemma Describes.fields {db : Database} {r : Row} {q : ServiceQueryData} (h : Describes db definition r q) :
    q.sId = to_string r.id ∧ q.sMetadata = textOf r "metadata" := by
  obtain ⟨d, -, hq⟩ := h
  obtain ⟨intfs, p, -, -, rfl⟩ := queryEntry_ok hq
  constructor
  · show cell (fullRow "service_registry" r) 0 = to_string r.id
    rw [cell_fullRow (c := "id") rfl, textOf_int (c := "id") (n := r.id) rfl]
  · show cell (fullRow "service_registry" r) 6 = textOf r "metadata"
    exact cell_fullRow rfl r

/-- The answer to the query lists the entry with this key. -/
def Returns (link : Link) (connects : Connects) (root : JsonValue) (s : Session) (sId : List UInt8) : Prop :=
  ∃ l s', processQuery link connects (some root) s = (.ok (.ok l), s') ∧ ∃ q ∈ l.vServQueryData, q.sId = sId

/-- A query for metadata returns an entry of its definition if and only if all entries of the definition are complete
    and the stored metadata of the entry meet the requirements. -/
lemma IsQuery.returns_iff (h : IsQuery root definition required) {db : Database} (typed : Typed db)
    (plain : Plain (toLowerAndTrim (cStr definition))) {link : Link} (hlink : ∀ n, link.fault n = .none)
    (connects : Connects) (n : Nat) {r : Row} (hr : r ∈ (db "service_registry").rows) :
    Returns link connects root ⟨db, none, n⟩ (to_string r.id) ↔
      toLowerAndTrim (cStr definition) ≠ [] ∧
      (∀ x ∈ entriesOf db (toLowerAndTrim (cStr definition)), Complete db x) ∧
      r ∈ entriesOf db (toLowerAndTrim (cStr definition)) ∧
      ∀ kv ∈ requirementsOf required, (mDbMeta (textOf r "metadata")).lookup kv.1 = some kv.2 := by
  by_cases h0 : toLowerAndTrim (cStr definition) = []
  · have bad := h.parse
    rw [if_pos h0] at bad
    refine ⟨?_, fun given => absurd h0 given.1⟩
    rintro ⟨l, s', run, -⟩
    unfold processQuery withPayload at run
    simp only [bad] at run
    cases run
  · have good := h.parse
    rw [if_neg h0] at good
    obtain ⟨k, run⟩ := processQuery_gives connects hlink typed.keyColumns good plain ⟨rfl, rfl, rfl, rfl, rfl, rfl⟩
      ⟨db, none, n⟩ rfl
    by_cases all : (∀ x ∈ entriesOf db (toLowerAndTrim (cStr definition)), Complete db x) ∧
      ∃ x, x ∈ entriesOf db (toLowerAndTrim (cStr definition))
    · obtain ⟨all, x, hx⟩ := all
      obtain ⟨q, qs, hqs, rel⟩ := queryList_all typed all hx
      rw [hqs, queryReply] at run
      have requirement : ∀ q, metadataMatches ⟨toLowerAndTrim (cStr definition), [], [], requirementsOf required,
          none, none, none, false⟩ q ↔
            ∀ kv ∈ requirementsOf required, (mDbMeta q.sMetadata).lookup kv.1 = some kv.2 := by
        intro q
        simp [metadataMatches]
      constructor
      · rintro ⟨l, s', run', q', hq', hid⟩
        rw [run] at run'
        cases run'
        obtain ⟨hq', hmatch⟩ := List.mem_filter.1 hq'
        obtain ⟨y, hy, hdesc⟩ := forall₂_exists_left rel hq'
        obtain ⟨h1, h2⟩ := hdesc.fields
        have e : y = r := (db "service_registry").row_unique (mem_entriesOf hy) hr (to_string_inj (h1.symm.trans hid))
        subst e
        rw [requirement, h2] at hmatch
        exact ⟨h0, all, hy, hmatch⟩
      · rintro ⟨-, -, hmem, hmatch⟩
        obtain ⟨q', hq', hdesc⟩ := forall₂_exists_left rel.flip hmem
        obtain ⟨h1, h2⟩ := Describes.fields hdesc
        refine ⟨_, _, run, q', List.mem_filter.2 ⟨hq', ?_⟩, h1⟩
        rw [requirement, h2]
        exact hmatch
    · obtain ⟨m, hm⟩ := queryList_error typed all
      rw [hm] at run
      refine ⟨?_, fun given => absurd ⟨given.2.1, r, given.2.2.1⟩ all⟩
      rintro ⟨l, s', run', q', hq', -⟩
      rw [run] at run'
      unfold queryReply at run'
      split at run'
      · cases run'
      · cases run'
        cases hq'
      · contradiction

/-- A query for any of the members returns the entry if and only if each of them is found in its stored metadata. -/
lemma requirements_covers {members : List (List UInt8 × List UInt8)} (sMetadata : List UInt8) :
    (∀ required : List (List UInt8 × List UInt8), (∀ kv ∈ required, kv ∈ members) →
      ∀ kv ∈ requirementsOf required, (mDbMeta sMetadata).lookup kv.1 = some kv.2) ↔ Covers sMetadata members := by
  constructor
  · intro h kv hkv
    exact h [kv] (by simpa using hkv) (cStr kv.1, toLowerAndTrim (cStr kv.2)) (by simp [requirementsOf, StrMap.insert])
  · intro h required sub kv hkv
    obtain hkv | hkv := mem_foldl_insert hkv
    · cases hkv
    · obtain ⟨m, hm, rfl⟩ := List.mem_map.1 hkv
      exact h m (sub m hm)

end

/-! ## The entry of a registration -/

section
variable (stamp : String → Nat → List UInt8)

lemma ensure_extends {q : Insert} {c : String} {v : Value} (db : Database) : Extends db (ensure stamp q c v db).2 := by
  unfold ensure
  cases findRow db q.table c v with
  | some r => exact Extends.refl db
  | none => exact extends_append db q.table _

lemma storeConnections_extends (entry : Nat) (ids : List Nat) (db : Database) :
    Extends db (storeConnections stamp entry ids db) := by
  induction ids generalizing db with
  | nil => exact Extends.refl db
  | cons i is ih => exact (ensure_extends stamp db).trans (ih _)

/-- A new entry has the metadata of its registration. -/
lemma store_metadata {e : ServiceRegistryEntry} {db : Database} {r : Row}
    (fresh : findRow db "service_registry" "service_uri" (.text e.sServiceUri) = none)
    (hr : findRow (store stamp e db).2 "service_registry" "service_uri" (.text e.sServiceUri) = some r) :
    r.get "metadata" = .text e.sMetaData := by
  let db1 := (storeDefinition stamp e.sServiceDefinition db).2
  let db2 := (storeSystem stamp e.sProviderSystem_SystemName e.sProviderSystem_Address e.port
    e.sProviderSystem_AuthInfo db1).2
  let db3 := (storeInterfaces stamp e.vInterfaces db2).2
  have registry : db3 "service_registry" = db "service_registry" := by
    calc db3 "service_registry" = db2 "service_registry" := (storeInterfaces_spec stamp db2 e.vInterfaces).2.2 _ (by decide)
      _ = db1 "service_registry" := storeSystem_other stamp db1 (by decide) _ _ _ _
      _ = db "service_registry" := ensure_other (q := definitionInsert _) (by simp [definitionInsert]) stamp db
  let d := (storeDefinition stamp e.sServiceDefinition db).1
  let p := (storeSystem stamp e.sProviderSystem_SystemName e.sProviderSystem_Address e.port
    e.sProviderSystem_AuthInfo db1).1
  obtain ⟨x, -, hx, ⟨hold, -⟩ | ⟨-, -, hvals, -⟩⟩ := ensure_spec (storable_entry e d p) stamp db3
  · have hold : findRow db3 "service_registry" "service_uri" (.text e.sServiceUri) = some x := hold
    rw [findRow_congr registry, fresh] at hold
    cases hold
  · have found : findRow (store stamp e db).2 "service_registry" "service_uri" (.text e.sServiceUri) = some x :=
      (storeConnections_extends stamp _ _ _).findRow hx
    have same : x = r := Option.some.inj (found.symm.trans hr)
    subst same
    simp only [entryInsert, List.map_cons, List.cons.injEq] at hvals
    exact hvals.2.2.2.2.2.1

end

/-- The definition is not empty and all its entries are complete; the members of a new entry are readable, and an entry
    that was there is one of the definition and has them. -/
def CanBeFound (db db₁ : Database) (e : ServiceRegistryEntry) (members : List (List UInt8 × List UInt8)) : Prop :=
  e.sServiceDefinition ≠ [] ∧ (∀ x ∈ entriesOf db₁ e.sServiceDefinition, Complete db₁ x) ∧
    match findRow db "service_registry" "service_uri" (.text e.sServiceUri) with
    | none => Readable members
    | some r => r ∈ entriesOf db₁ e.sServiceDefinition ∧ Covers (textOf r "metadata") members

/-- The service `temperature` of a thermometer with these metadata. -/
def thermometerWith (members : List (List UInt8 × List UInt8)) : JsonValue := .object [
  (bytes "serviceDefinition", .string (bytes "temperature")),
  (bytes "providerSystem", .object [
    (bytes "systemName", .string (bytes "thermometer")),
    (bytes "address", .string (bytes "10.0.0.1")),
    (bytes "port", .number 8080)]),
  (bytes "serviceUri", .string (bytes "/temperature")),
  (bytes "endOfValidity", .string (bytes "2030-01-01 00:00:00")),
  (bytes "secure", .string (bytes "NOT_SECURE")),
  (bytes "metadata", stringObject members),
  (bytes "version", .number 1),
  (bytes "interfaces", .array [.string (bytes "http-secure-json")])]

/-- Its entry; the metadata are stored in lower case. -/
def celsiusEntry : ServiceRegistryEntry :=
  { thermometerEntry "10.0.0.1" ["http-secure-json"] with sMetaData := bytes "unit=celsius" }

/-- The tables of a registration over a connection without failures. -/
lemma registered {root : JsonValue} {e : ServiceRegistryEntry} (accepts : Accepts root e) (plain : e.Plain) :
    ∃ a s₁, processRegister {} (some root) "serviceregistry/register" ⟨emptyDatabase, none, 0⟩ = (.ok (.ok a), s₁) ∧
      s₁.db = (store ({} : Link).stamp e emptyDatabase).2 := by
  have hlink : ∀ n, ({} : Link).fault n = .none := fun _ => rfl
  obtain ⟨a, s₁, run⟩ := processRegister_returns hlink accepts plain "serviceregistry/register"
    ⟨emptyDatabase, none, 0⟩
  obtain ⟨e', hroot', runDB⟩ := processRegister_ok run
  have same : e' = e := by simpa using hroot'.2.symm.trans accepts.2
  exact ⟨a, s₁, run, same ▸ (processDB_ok (same ▸ plain) runDB).1⟩

end ArrowheadCore.ServiceRegistry
