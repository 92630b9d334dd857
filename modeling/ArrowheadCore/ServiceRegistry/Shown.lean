import ArrowheadCore.Json.Names
import ArrowheadCore.ServiceRegistry.Metadata

/-!
# Metadata as a client is shown it

Embedding of `CommonJsonBuilder::dbMetadataToJsonMetadata` (`utils/common/CommonJsonBuilder.h`), which makes an object of
the stored metadata. It splits the text as the filter of a query does, so that the object has under a name what the
filter has.
-/

namespace ArrowheadCore.ServiceRegistry
open Lib Json JsonView Grammar

/-- A member with the comma behind it. -/
def shownItem (key value : List UInt8) : List UInt8 :=
  bytes "\"" ++ (key ++ (bytes "\":" ++ (bytes "\"" ++ (value ++ bytes "\","))))

def dbMetadataToJsonMetadata (dbMeta : List UInt8) : List UInt8 :=
  let sJsonMeta := (getlines ','.toUInt8 dbMeta).foldl (fun sJsonMeta token =>
    let (key, value) := splitToken token
    if key ≠ [] ∧ value ≠ [] then sJsonMeta ++ shownItem key value else sJsonMeta) (bytes "\x7b")
  if sJsonMeta.length ≠ 1 then sJsonMeta.dropLast ++ bytes "\x7d" else sJsonMeta ++ bytes "\x7d"

/-- C++ `addMetaData` -/
def addMetaData (key value : List UInt8) (o : Out) : Out := addObj key (dbMetadataToJsonMetadata value) o

/-! ## The text -/

/-- A member without its comma. -/
def shownMember (kv : List UInt8 × List UInt8) : List UInt8 :=
  '"'.toUInt8 :: (kv.1 ++ '"'.toUInt8 :: ':'.toUInt8 :: '"'.toUInt8 :: (kv.2 ++ ['"'.toUInt8]))

lemma shownItem_eq (key value : List UInt8) : shownItem key value = shownMember (key, value) ++ [','.toUInt8] := by
  have quote : bytes "\"" = ['"'.toUInt8] := by decide
  have colon : bytes "\":" = ['"'.toUInt8, ':'.toUInt8] := by decide
  have comma : bytes "\"," = ['"'.toUInt8, ','.toUInt8] := by decide
  simp [shownItem, shownMember, quote, colon, comma]

/-- The members of the object are the pairs of the stored metadata. -/
lemma dbMetadataToJsonMetadata_eq (dbMeta : List UInt8) :
    dbMetadataToJsonMetadata dbMeta =
      '{'.toUInt8 :: (List.intercalate [','.toUInt8] ((storedPairs dbMeta).map shownMember) ++ ['}'.toUInt8]) := by
  have brace : bytes "\x7b" = ['{'.toUInt8] ∧ bytes "\x7d" = ['}'.toUInt8] := by decide
  have fold : (getlines ','.toUInt8 dbMeta).foldl (fun sJsonMeta token =>
      let (key, value) := splitToken token
      if key ≠ [] ∧ value ≠ [] then sJsonMeta ++ shownItem key value else sJsonMeta) ['{'.toUInt8] =
      '{'.toUInt8 :: (((storedPairs dbMeta).map shownMember).map (· ++ [','.toUInt8])).flatten := by
    have append : ∀ (pairs : List (List UInt8 × List UInt8)) (t : List UInt8),
        pairs.foldl (fun t kv => t ++ shownItem kv.1 kv.2) t = t ++ ((pairs.map shownMember).map (· ++ [','.toUInt8])).flatten := by
      intro pairs
      induction pairs with
      | nil => exact fun t => (List.append_nil t).symm
      | cons kv kvs ih =>
        intro t
        rw [List.foldl_cons, ih, shownItem_eq, List.append_assoc]
        rfl
    rw [foldl_storedPairs fun sJsonMeta key value => sJsonMeta ++ shownItem key value, append, List.singleton_append]
  rw [dbMetadataToJsonMetadata, brace.1, brace.2, fold]
  cases pairs : storedPairs dbMeta with
  | nil => rfl
  | cons kv kvs =>
    have some_ : (((kv :: kvs).map shownMember).map (· ++ [','.toUInt8])).flatten ≠ [] := by simp
    rw [if_pos (by simp), List.dropLast_cons_of_ne_nil some_, dropLast_flatten _ (by simp)]
    simp

/-! ## The object -/

/-- The pairs of a clean text are clean. -/
lemma clean_storedPairs {dbMeta : List UInt8} (h : Clean dbMeta) {kv : List UInt8 × List UInt8}
    (hkv : kv ∈ storedPairs dbMeta) : Clean kv.1 ∧ Clean kv.2 := by
  obtain ⟨token, ht, rfl⟩ := List.mem_map.1 (List.mem_of_mem_filter hkv)
  obtain ⟨-, inText⟩ := mem_getlines ht
  obtain ⟨-, -, key, value⟩ := splitToken_mem (rfl : splitToken token = ((splitToken token).1, (splitToken token).2))
  exact ⟨fun c hc => h c (inText c (key c hc)), fun c hc => h c (inText c (value c hc))⟩

/-- The members as nodes. -/
def shownNode (kv : List UInt8 × List UInt8) : List UInt8 × JsonNode := (kv.1, .string kv.2)

lemma member_shown {kv : List UInt8 × List UInt8} {out : List UInt8} (hk : IsContent kv.1) (hv : Spells (-1) kv.2 out)
    (rest : List UInt8) : Member rfc (Value rfc 1) (shownMember kv ++ rest) (kv.1, .string out) rest := by
  have text : shownMember kv ++ rest =
      '"'.toUInt8 :: (kv.1 ++ '"'.toUInt8 :: ':'.toUInt8 :: '"'.toUInt8 :: (kv.2 ++ '"'.toUInt8 :: rest)) := by
    simp [shownMember]
  rw [text]
  exact .mk (skips_rfc _) hk (skips_rfc _) (skips_rfc _) (.string rest hv)

lemma members_shown {pairs : List (List UInt8 × List UInt8)} (h : ∀ kv ∈ pairs, Clean kv.1 ∧ Clean kv.2)
    (hne : pairs ≠ []) (rest : List UInt8) :
    Members rfc (Value rfc 1) (List.intercalate [','.toUInt8] (pairs.map shownMember) ++ '}'.toUInt8 :: rest)
      (pairs.map shownNode) rest := by
  rw [← commaList_eq]
  refine members_commaList ?_ (by simpa using hne) rest
  rw [List.forall₂_map_left_iff, List.forall₂_map_right_iff, List.forall₂_same]
  intro kv hkv
  obtain ⟨hk, hv⟩ := h kv hkv
  exact member_shown (isContent_of_clean hk) (spells_clean hv)

lemma document_shown {dbMeta : List UInt8} (h : Clean dbMeta) :
    Document rfc 2 (dbMetadataToJsonMetadata dbMeta) (.object ((storedPairs dbMeta).map shownNode)) := by
  refine ⟨_, [], skips_rfc _, ?_, skips_rfc _⟩
  rw [dbMetadataToJsonMetadata_eq]
  by_cases none : storedPairs dbMeta = []
  · rw [none]
    exact .emptyObject (skips_rfc _)
  · exact .object (members_shown (fun kv hkv => clean_storedPairs h hkv) none [])

/-- In an object the first member with a name counts, as in a map that is filled in this order. -/
lemma findKey_shown (pairs : List (List UInt8 × List UInt8)) (key : List UInt8) :
    findKey (pairs.map shownNode) key = (pairs.lookup key).map .string := by
  induction pairs with
  | nil => rfl
  | cons kv kvs ih =>
    rw [findKey] at ih ⊢
    have same : ((shownNode kv).1 == key) = (key == kv.1) := Bool.beq_comm
    rw [List.map_cons, List.find?_cons, List.lookup_cons, same]
    cases key == kv.1 with
    | true => rfl
    | false => exact ih

/-- The same for pairs with escapes. -/
lemma denotes_shown {dbMeta : List UInt8} (h : ∀ kv ∈ storedPairs dbMeta, IsContent kv.1 ∧ IsContent kv.2) :
    ∃ v, Denotes (dbMetadataToJsonMetadata dbMeta) v := by
  have brackets : bytes "\x7b" = ['{'.toUInt8] ∧ bytes "\x7d" = ['}'.toUInt8] := by decide
  rw [dbMetadataToJsonMetadata_eq]
  by_cases none : storedPairs dbMeta = []
  · rw [none]
    exact ⟨_, 1, fun rest => .emptyObject (skips_rfc _)⟩
  · have each : ∀ kv ∈ storedPairs dbMeta, ∃ m, DenotesMember (shownMember kv) m := by
      intro kv hkv
      obtain ⟨hk, out, hv⟩ := h kv hkv
      exact ⟨_, 1, member_shown hk hv⟩
    obtain ⟨ms, hms⟩ := forall₂_of_forall_exists each
    have denotes := Denotes.members (List.forall₂_map_left_iff.2 hms) (by simpa using none)
    rw [brackets.1, brackets.2, commaList_eq] at denotes
    exact ⟨_, denotes⟩

/-- For every stored text without characters that need an escape: what is made of it is an object of JSON, `JsonView` reads
    it, and every name has in it what it has in the map of the filter. -/
theorem shown_as_filtered {dbMeta : List UInt8} (h : Clean dbMeta) :
    ∃ members, Document rfc 2 (dbMetadataToJsonMetadata dbMeta) (.object members) ∧
      parse_throw_on_error (dbMetadataToJsonMetadata dbMeta) .STANDARD = some (.ok (.object members)) ∧
      ∀ key, findKey members key = ((mDbMeta dbMeta).lookup key).map .string := by
  have document := document_shown h
  refine ⟨_, document, ?_, fun key => by rw [mDbMeta_lookup, findKey_shown]⟩
  obtain ⟨s1, s2, skip1, value, skip2⟩ := document
  exact parse_of_document
    ⟨s1, s2, skip1.mono rfc_sub, (value.mono rfc_sub).le (by decide), skip2.mono rfc_sub⟩ .STANDARD

theorem shown_as_filtered_twice :
    ∃ members, parse_throw_on_error (dbMetadataToJsonMetadata (bytes "a=1,,a=2,=3,b=,c=4=5,")) .STANDARD =
        some (.ok (.object members)) ∧
      findKey members (bytes "a") = some (.string (bytes "1")) ∧ findKey members (bytes "b") = none := by
  have clean : Clean (bytes "a=1,,a=2,=3,b=,c=4=5,") := by decide
  obtain ⟨members, -, parsed, same⟩ := shown_as_filtered clean
  exact ⟨members, parsed, same _, same _⟩

end ArrowheadCore.ServiceRegistry
