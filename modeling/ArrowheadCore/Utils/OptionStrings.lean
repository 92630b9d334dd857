import ArrowheadCore.Utils.ParseOpt

/-!
# Option strings of a map

What is written in quotes, with a backslash in front of every quote and backslash of a value, is read again.
-/

namespace ArrowheadCore.Utils.INIFile
open Lib

/-- A name that an option can have. -/
def IsKey (k : List UInt8) : Prop := k ≠ [] ∧ ∀ c ∈ k, ¬isspace c ∧ c ≠ '='.toUInt8 ∧ c ≠ 0

instance (k : List UInt8) : Decidable (IsKey k) :=
  have := List.decidableBAll (fun c => ¬isspace c ∧ c ≠ '='.toUInt8 ∧ c ≠ 0) k
  inferInstanceAs (Decidable (_ ∧ _))

/-- A backslash in front of every quote and every backslash. -/
def escape (v : List UInt8) : List UInt8 :=
  v.flatMap fun c => if c = singleQuote ∨ c = backslash then [backslash, c] else [c]

def itemText (r : Record) : List UInt8 := r.1 ++ '='.toUInt8 :: singleQuote :: (escape r.2 ++ [singleQuote])

/-- The items one after another, with blanks between them. -/
inductive Written : List Record → List UInt8 → Prop
  | nil : Written [] []
  | one (r : Record) : Written [r] (itemText r)
  | cons (r : Record) {s t : List UInt8} {r' : Record} {rs : List Record} : s ≠ [] → (∀ c ∈ s, isspace c) →
    Written (r' :: rs) t → Written (r :: r' :: rs) (itemText r ++ (s ++ t))

/-! ## Reading -/

section
variable {r : Record} {rs : List Record} {k v s t : List UInt8}

lemma quoted_escaped (v rest : List UInt8) : quoted (escape v ++ singleQuote :: rest) = some (v, rest) := by
  induction v with
  | nil => exact quoted_quote rest
  | cons c v ih =>
    rw [escape, List.flatMap_cons, ← escape]
    by_cases special : c = singleQuote ∨ c = backslash
    · rw [if_pos special, List.append_assoc, List.cons_append, List.singleton_append, quoted_escape, ih, Option.map_some]
    · obtain ⟨quote, slash⟩ := not_or.1 special
      rw [if_neg special, List.append_assoc, List.singleton_append, quoted_plain slash quote, ih, Option.map_some]

lemma nameOf_key (hk : IsKey k) (t : List UInt8) : nameOf (k ++ '='.toUInt8 :: t) = (k, '='.toUInt8 :: t) := by
  obtain ⟨-, all⟩ := hk
  induction k with
  | nil => exact nameOf_equals t
  | cons c k ih =>
    obtain ⟨⟨blank, eq, -⟩, all⟩ := List.forall_mem_cons.1 all
    rw [List.cons_append, nameOf_cons blank eq, ih all]

lemma itemOf_itemText (hk : IsKey r.1) (rest : List UInt8) : itemOf (itemText r ++ rest) = some (r, rest) := by
  have text : itemText r ++ rest = r.1 ++ '='.toUInt8 :: singleQuote :: (escape r.2 ++ singleQuote :: rest) := by
    rw [itemText]
    simp
  have name := nameOf_key hk (singleQuote :: (escape r.2 ++ singleQuote :: rest))
  have quote : valueOf (singleQuote :: (escape r.2 ++ singleQuote :: rest)) = some (r.2, rest) := by
    rw [valueOf, if_pos rfl, quoted_escaped]
  rw [text, itemOf_equals (congrArg Prod.snd name), List.dropWhile_cons_of_neg (by decide), quote, name]
  rfl

lemma records_itemText (hk : IsKey r.1) (rest : List UInt8) :
    records (itemText r ++ rest) = (records rest).map (r :: ·) := by
  obtain ⟨c, k, e⟩ := List.exists_cons_of_ne_nil hk.1
  have item := itemOf_itemText hk rest
  have first := (hk.2 c (e ▸ List.mem_cons_self)).1
  have text : ∃ t, itemText r ++ rest = c :: t := ⟨_, by rw [itemText, e]; rfl⟩
  obtain ⟨t, text⟩ := text
  rw [text] at item ⊢
  rw [records_item first, item, Option.bind_some]

lemma records_blanks (h : ∀ c ∈ s, isspace c) (t : List UInt8) : records (s ++ t) = records t := by
  induction s with
  | nil => rfl
  | cons c s ih =>
    obtain ⟨blank, h⟩ := List.forall_mem_cons.1 h
    rw [List.cons_append, records_blank blank, ih h]

lemma Written.records (h : Written rs t) (keys : ∀ r ∈ rs, IsKey r.1) : records t = some rs := by
  induction h with
  | nil => exact records_nil
  | one r =>
    have := records_itemText (keys r List.mem_cons_self) []
    rw [List.append_nil, records_nil] at this
    exact this
  | cons r _ blanks _ ih =>
    obtain ⟨hk, keys⟩ := List.forall_mem_cons.1 keys
    rw [records_itemText hk, records_blanks blanks, ih keys, Option.map_some]

lemma zero_itemText (hk : IsKey r.1) (hv : 0 ∉ r.2) : 0 ∉ itemText r := by
  have key : 0 ∉ r.1 := fun mem => (hk.2 0 mem).2.2 rfl
  have value : 0 ∉ escape r.2 := by
    rw [escape, List.mem_flatMap]
    rintro ⟨c, mem, h⟩
    have hc : (0 : UInt8) ≠ c := fun e => hv (e ▸ mem)
    split at h
    · simp [hc, show (0 : UInt8) ≠ backslash by decide] at h
    · simp [hc] at h
  simp [itemText, key, value, show (0 : UInt8) ≠ '='.toUInt8 by decide, show (0 : UInt8) ≠ singleQuote by decide]

lemma Written.zero (h : Written rs t) (keys : ∀ r ∈ rs, IsKey r.1) (values : ∀ r ∈ rs, 0 ∉ r.2) : 0 ∉ t := by
  induction h with
  | nil => exact List.not_mem_nil
  | one r => exact zero_itemText (keys r List.mem_cons_self) (values r List.mem_cons_self)
  | @cons r s t r' rs _ blanks _ ih =>
    obtain ⟨hk, keys⟩ := List.forall_mem_cons.1 keys
    obtain ⟨hv, values⟩ := List.forall_mem_cons.1 values
    have hs : 0 ∉ s := fun mem => absurd (blanks 0 mem) (by decide)
    rw [List.mem_append, List.mem_append, not_or, not_or]
    exact ⟨zero_itemText hk hv, hs, ih keys values⟩

/-! ## The map -/

lemma stored_append_one (rs : List Record) (r : Record) : stored (rs ++ [r]) = (stored rs).insert r.1 r.2 := by
  rw [stored, List.foldl_append]
  rfl

/-- A later record counts. -/
lemma stored_append (rs rs' : List Record) : stored (rs ++ rs') = stored rs' ∪ stored rs := by
  induction rs' using List.reverseRecOn with
  | nil => rw [List.append_nil, show stored [] = ∅ from rfl, Finmap.empty_union]
  | append_singleton rs' r ih => rw [← List.append_assoc, stored_append_one, ih, stored_append_one, Finmap.insert_union]

/-- Of records with different names each is found. -/
lemma lookup_stored (distinct : (rs.map Prod.fst).Nodup) (k v : List UInt8) :
    (stored rs).lookup k = some v ↔ (k, v) ∈ rs := by
  induction rs using List.reverseRecOn with
  | nil => simp [stored]
  | append_singleton rs r ih =>
    rw [List.map_append, List.nodup_append] at distinct
    obtain ⟨first, -, apart⟩ := distinct
    rw [stored_append_one, List.mem_append, List.mem_singleton]
    by_cases e : k = r.1
    · subst e
      have other : ∀ w, (r.1, w) ∉ rs := fun w mem => apart _ (List.mem_map_of_mem mem) r.1 (by simp) rfl
      rw [Finmap.lookup_insert, Option.some.injEq, or_iff_right (other v)]
      exact ⟨fun h => by rw [← h], fun h => (congrArg Prod.snd h).symm⟩
    · rw [Finmap.lookup_insert_of_ne _ e, ih first]
      exact ⟨.inl, fun h => h.resolve_right fun h => e (congrArg Prod.fst h)⟩

/-- Whatever the entries of a map are, in whatever order they are written, they are read again. -/
theorem parse_opt_written {m : Options} (entries : ∀ k v, m.lookup k = some v ↔ (k, v) ∈ rs)
    (distinct : (rs.map Prod.fst).Nodup) (keys : ∀ k v, m.lookup k = some v → IsKey k ∧ 0 ∉ v) (written : Written rs t) :
    parse_opt t = some m := by
  have keys : ∀ r ∈ rs, IsKey r.1 ∧ 0 ∉ r.2 := fun r mem => keys r.1 r.2 ((entries r.1 r.2).2 mem)
  have same : stored rs = m := Finmap.ext_lookup fun k => Option.ext fun v => by
    rw [lookup_stored distinct, entries]
  have zero := written.zero (fun r mem => (keys r mem).1) fun r mem => (keys r mem).2
  rw [parse_opt, recordsOf_eq, cStr_eq zero, written.records fun r mem => (keys r mem).1, ← same]
  rfl

/-- A map with an apostrophe and a backslash in its values. -/
theorem parse_opt_written_two :
    parse_opt (bytes "a='it\\'s'\n b='\\\\'") = some (stored [(bytes "a", bytes "it's"), (bytes "b", bytes "\\")]) := by
  have written : Written [(bytes "a", bytes "it's"), (bytes "b", bytes "\\")] (bytes "a='it\\'s'\n b='\\\\'") :=
    .cons (s := bytes "\n ") (bytes "a", bytes "it's") (by decide) (by decide) (.one (bytes "b", bytes "\\"))
  have distinct : ([(bytes "a", bytes "it's"), (bytes "b", bytes "\\")].map Prod.fst).Nodup := by decide
  have keys : ∀ r ∈ [(bytes "a", bytes "it's"), (bytes "b", bytes "\\")], IsKey r.1 ∧ 0 ∉ r.2 := by decide
  exact parse_opt_written (lookup_stored distinct) distinct
    (fun k v h => keys (k, v) ((lookup_stored distinct k v).1 h)) written

end

end ArrowheadCore.Utils.INIFile
