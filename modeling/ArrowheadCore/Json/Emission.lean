import ArrowheadCore.Json.Script

/-!
# The builder writes what is meant

Every loop of the builder leaves a text behind each of its items, with a comma behind it, if its callback leaves a text
behind each of its members. So the byte that is overwritten where something is closed is always such a comma, and the
text of a script is that of the tree that is meant.
-/

namespace ArrowheadCore.Json
open Lib JsonView Grammar

section
variable {ρ : Type}

/-- The action writes the members that are meant, with a comma behind each. -/
def Emits (f : Action ρ) (spec : Meaning ρ Member) : Prop :=
  ∀ ⦃rows res rows' ms⦄, spec rows = some (res, rows', ms) → ∀ t, ∃ texts,
    f rows (.ofText t) = some (res, rows', .ofText (t ++ membersText texts)) ∧ DenoteMembers texts ms

/-- The action writes the items that are meant, with a comma behind each. -/
def EmitsItems (f : Action ρ) (spec : Meaning ρ JsonNode) : Prop :=
  ∀ ⦃rows res rows' vs⦄, spec rows = some (res, rows', vs) → ∀ t, ∃ xs : List (List UInt8),
    f rows (.ofText t) = some (res, rows', .ofText (t ++ xs.flatMap fun x => x ++ bytes ",")) ∧ List.Forall₂ Denotes xs vs

/-- The bracket that closes an object takes the place of its last comma. -/
lemma close_object (t : List UInt8) {texts : List (List UInt8 × List UInt8)} (h : texts ≠ []) :
    (Out.ofText (t ++ bytes "\x7b" ++ membersText texts)).back.put (bytes "\x7d,") =
      .ofText (t ++ (objectText texts ++ bytes ",")) := by
  have e : bytes "\x7d," = '}'.toUInt8 :: bytes "," := by decide
  have e' : bytes "\x7d" = ['}'.toUInt8] := by decide
  have flat : membersText texts = (texts.map memberText).flatMap fun x => x ++ bytes "," := by
    rw [List.flatMap_map]
    rfl
  rw [flat, e, close_list _ (by simpa using h)]
  simp [objectText, e']

/-- What the callback of a loop over objects leaves behind. -/
lemma Emits.object {f : Action ρ} {spec : Meaning ρ Member} (h : Emits f spec) {rows rows' : Cursors ρ} {res : ControlResp}
    {ms : List Member} {v : JsonNode} (hs : spec rows = some (res, rows', ms)) (hv : objectOf ms = some v) (t : List UInt8) :
    ∃ x o, f rows ((Out.ofText t).put (bytes "\x7b")) = some (res, rows', o) ∧
      o.back.put (bytes "\x7d,") = .ofText (t ++ (x ++ bytes ",")) ∧ Denotes x v := by
  obtain ⟨texts, e, denote⟩ := h hs (t ++ bytes "\x7b")
  rw [objectOf] at hv
  split at hv
  · cases hv
  next hne =>
  cases hv
  have htexts : texts ≠ [] := by
    rintro rfl
    exact hne (List.forall₂_nil_left_iff.1 denote)
  refine ⟨objectText texts, _, by rw [Out.put_ofText]; exact e, close_object t htexts, .object denote htexts⟩

/-! ## Loops -/

lemma rangeLoop_emits {f : Nat → Action ρ} {spec : Nat → Meaning ρ Member} (h : ∀ i, Emits (f i) (spec i)) (n i : Nat) :
    EmitsItems (rangeLoop f n i) (rangeObjects spec n i) := by
  induction n generalizing i with
  | zero =>
    intro rows res rows' vs hs t
    cases hs
    exact ⟨[], by simp [rangeLoop], .nil⟩
  | succ n ih =>
    intro rows res rows' vs hs t
    simp only [rangeObjects, Option.bind_eq_bind, Option.bind_eq_some_iff] at hs
    obtain ⟨⟨r1, rows1, ms⟩, hb, v, hv, ⟨r2, rows2, ws⟩, hw, hs⟩ := hs
    cases hs
    obtain ⟨x, o, e, closed, hx⟩ := (h i).object hb hv t
    obtain ⟨xs, e', hxs⟩ := ih (i + 1) hw (t ++ (x ++ bytes ","))
    refine ⟨x :: xs, ?_, .cons hx hxs⟩
    simp only [rangeLoop, e, Option.bind_eq_bind, Option.bind_some, closed, e']
    simp

lemma rowLoop_emits {f : Action ρ} {spec : Meaning ρ Member} (h : Emits f spec) (c fuel : Nat) :
    EmitsItems (rowLoop c f fuel) (rowObjects c spec fuel) := by
  induction fuel with
  | zero =>
    intro rows res rows' vs hs
    cases hs
  | succ n ih =>
    intro rows res rows' vs hs t
    simp only [rowObjects, Option.bind_eq_bind, Option.bind_eq_some_iff] at hs
    obtain ⟨⟨r1, rows1, ms⟩, hb, v, hv, hs⟩ := hs
    obtain ⟨x, o, e, closed, hx⟩ := h.object hb hv t
    simp only [rowLoop, e, Option.bind_eq_bind, Option.bind_some, closed]
    cases hmore : (advance c rows1).1 with
    | false =>
      simp only [hmore, Bool.false_eq_true, if_false] at hs ⊢
      cases hs
      exact ⟨[x], by simp, .cons hx .nil⟩
    | true =>
      simp only [hmore, if_true, Option.bind_eq_some_iff] at hs ⊢
      obtain ⟨⟨r2, rows2, ws⟩, hw, hs⟩ := hs
      cases hs
      obtain ⟨xs, e', hxs⟩ := ih hw (t ++ (x ++ bytes ","))
      exact ⟨x :: xs, by rw [e']; simp, .cons hx hxs⟩

lemma controlLoop_emits {f : Action ρ} {spec : Meaning ρ Member} (h : Emits f spec) (c fuel : Nat) :
    EmitsItems (controlLoop c f fuel) (controlObjects c spec fuel) := by
  induction fuel with
  | zero =>
    intro rows res rows' vs hs
    cases hs
  | succ n ih =>
    intro rows res rows' vs hs t
    simp only [controlObjects, Option.bind_eq_bind, Option.bind_eq_some_iff] at hs
    obtain ⟨⟨r1, rows1, ms⟩, hb, v, hv, hs⟩ := hs
    obtain ⟨x, o, e, closed, hx⟩ := h.object hb hv t
    simp only [controlLoop, e, Option.bind_eq_bind, Option.bind_some]
    -- the loop goes on behind the comma of this object
    have next : ∀ {rows1 res rows'} {vs : List JsonNode},
        (∃ r, controlObjects c spec n rows1 = some r ∧ some (r.1, r.2.1, v :: r.2.2) = some (res, rows', vs)) →
        ∃ xs : List (List UInt8), controlLoop c f n rows1 (o.back.put (bytes "\x7d,")) =
          some (res, rows', .ofText (t ++ xs.flatMap fun x => x ++ bytes ",")) ∧ List.Forall₂ Denotes xs vs := by
      rintro rows1 res rows' vs ⟨⟨r2, rows2, ws⟩, hw, hs⟩
      cases hs
      obtain ⟨xs, e', hxs⟩ := ih hw (t ++ (x ++ bytes ","))
      exact ⟨x :: xs, by rw [closed, e']; simp, .cons hx hxs⟩
    cases r1 with
    | use => exact next (Option.bind_eq_some_iff.1 hs)
    | last =>
      cases hs
      exact ⟨[x], by simp [closed], .cons hx .nil⟩
    | skip => cases hs
    | cont =>
      dsimp only at hs ⊢
      cases hmore : (advance c rows1).1 with
      | false =>
        simp only [hmore, Bool.false_eq_true, if_false] at hs ⊢
        cases hs
        exact ⟨[x], by simp [closed], .cons hx .nil⟩
      | true =>
        simp only [hmore, if_true] at hs ⊢
        exact next (Option.bind_eq_some_iff.1 hs)

lemma takeLoop_emits {f : Action ρ} {spec : Meaning ρ Member} (h : Emits f spec) (c : Nat) (p : Cursors ρ → Bool) (fuel : Nat) :
    EmitsItems (takeLoop c p f fuel) (takeObjects c p spec fuel) := by
  induction fuel with
  | zero =>
    intro rows res rows' vs hs
    cases hs
  | succ n ih =>
    intro rows res rows' vs hs t
    rw [takeObjects] at hs
    rw [takeLoop]
    cases hp : p rows with
    | false =>
      simp only [hp, Bool.not_false, if_true] at hs ⊢
      cases hs
      exact ⟨[], by simp, .nil⟩
    | true =>
    simp only [hp, Bool.not_true, Bool.false_eq_true, if_false, Option.bind_eq_bind, Option.bind_eq_some_iff] at hs
    obtain ⟨⟨r1, rows1, ms⟩, hb, v, hv, hs⟩ := hs
    obtain ⟨x, o, e, closed, hx⟩ := h.object hb hv t
    simp only [Bool.not_true, Bool.false_eq_true, if_false, e, Option.bind_eq_bind, Option.bind_some, closed]
    cases hmore : (advance c rows1).1 with
    | false =>
      simp only [hmore, Bool.false_eq_true, if_false] at hs ⊢
      cases hs
      exact ⟨[x], by simp, .cons hx .nil⟩
    | true =>
      simp only [hmore, if_true, Option.bind_eq_some_iff] at hs ⊢
      obtain ⟨⟨r2, rows2, ws⟩, hw, hs⟩ := hs
      cases hs
      obtain ⟨xs, e', hxs⟩ := ih hw (t ++ (x ++ bytes ","))
      exact ⟨x :: xs, by rw [e']; simp, .cons hx hxs⟩

lemma rawLoop_emits (c : Nat) (p : Cursors ρ → Bool) (f : Cursors ρ → Written) (fuel : Nat) :
    EmitsItems (rawLoop c p f fuel) (rawValues c p f fuel) := by
  induction fuel with
  | zero =>
    intro rows res rows' vs hs
    cases hs
  | succ n ih =>
    intro rows res rows' vs hs t
    rw [rawValues] at hs
    rw [rawLoop]
    cases hp : p rows with
    | false =>
      simp only [hp, Bool.not_false, if_true] at hs ⊢
      cases hs
      exact ⟨[], by simp, .nil⟩
    | true =>
    have hx := (f rows).denotes
    simp only [hp, Bool.not_true, Bool.false_eq_true, if_false, Out.put_ofText, List.append_assoc] at hs ⊢
    cases hmore : (advance c rows).1 with
    | false =>
      simp only [hmore, Bool.false_eq_true, if_false] at hs ⊢
      cases hs
      exact ⟨[(f rows).text], by simp, .cons hx .nil⟩
    | true =>
      simp only [hmore, if_true, Option.bind_eq_bind, Option.bind_eq_some_iff] at hs ⊢
      obtain ⟨⟨r2, rows2, ws⟩, hw, hs⟩ := hs
      cases hs
      obtain ⟨xs, e', hxs⟩ := ih hw (t ++ ((f rows).text ++ bytes ","))
      exact ⟨(f rows).text :: xs, by rw [e']; simp, .cons hx hxs⟩

/-- The bracket that closes an array takes the place of the last comma in it. -/
lemma bracketed_emits {f : Action ρ} {spec : Meaning ρ JsonNode} (h : EmitsItems f spec) (key : List UInt8) (empty : Bool)
    {rows rows' : Cursors ρ} {res : ControlResp} {vs : List JsonNode} (hs : listed empty spec rows = some (res, rows', vs))
    (t : List UInt8) : ∃ s, bracketed key empty f rows (.ofText t) = some (res, rows', .ofText (t ++ membersText [(key, s)])) ∧
      Denotes s (.array vs) := by
  have e1 : bytes "]," = ']'.toUInt8 :: bytes "," := by decide
  have e2 : bytes "]" = [']'.toUInt8] := by decide
  rw [listed] at hs
  cases empty with
  | true =>
    rw [if_pos rfl] at hs
    cases hs
    refine ⟨arrayText [], ?_, .array .nil⟩
    simp [bracketed, membersText, memberText, arrayText, commaList, e1, e2]
  | false =>
    simp only [Bool.false_eq_true, if_false, Option.bind_eq_bind, Option.bind_eq_some_iff] at hs
    obtain ⟨⟨r, rows1, ws⟩, hw, hs⟩ := hs
    dsimp only at hs
    split at hs
    · cases hs
    next hne =>
    cases hs
    obtain ⟨xs, e, hxs⟩ := h hw (t ++ (nameText key ++ bytes "["))
    have hx : xs ≠ [] := by
      rintro rfl
      cases hxs
      exact hne rfl
    refine ⟨arrayText xs, ?_, .array hxs⟩
    simp only [bracketed, Bool.false_eq_true, if_false, Out.put_ofText, e, Option.bind_eq_bind, Option.bind_some, e1]
    rw [close_list _ hx]
    simp [membersText, memberText, arrayText, e2]

/-! ## Members -/

/-- The text of a member value. -/
def Scalar.literal : Scalar → List UInt8
  | .text s => bytes "\"" ++ (s ++ bytes "\"")
  | .int z => to_string z
  | .bool b => if b then bytes "true" else bytes "false"
  | .null => bytes "null"

lemma writeScalar_eq (key : List UInt8) (v : Scalar) (t : List UInt8) :
    writeScalar key (.ofText t) v = .ofText (t ++ membersText [(key, v.literal)]) := by
  cases v with
  | text s => exact addStr_eq key s t
  | int z => exact addInt_eq key t z
  | bool b => exact addObj_eq key _ t
  | null => exact addNULL_eq key t

lemma writeItems_eq (items : List (List UInt8 × Scalar)) (t : List UInt8) :
    writeItems (.ofText t) items = .ofText (t ++ membersText (items.map fun m => (m.1, m.2.literal))) := by
  rw [writeItems]
  induction items generalizing t with
  | nil => simp [membersText]
  | cons m ms ih => rw [List.foldl_cons, writeScalar_eq, ih, List.append_assoc, ← membersText_append, List.map_cons, List.singleton_append]

/-- An object of its own. -/
lemma write_dictionary_items_eq (columns : Columns ρ) (key : List UInt8) {headers : List Header} (h : headers ≠ []) (r : ρ)
    (i : Nat) (t : List UInt8) :
    write_dictionary_items columns (some key) headers r i (.ofText t) =
      .ofText (t ++ membersText [(key, objectText ((dictionary columns r i headers).map fun m => (m.1, m.2.literal)))]) := by
  have items : (dictionary columns r i headers).map (fun m => (m.1, m.2.literal)) ≠ [] := by
    cases headers with
    | nil => exact absurd rfl h
    | cons => simp [dictionary]
  rw [write_dictionary_items, Out.put_ofText, writeItems_eq, ← List.append_assoc, close_object _ items]
  simp [membersText, memberText]

lemma Scalar.denotes {v : Scalar} (hv : v.plain = true) : Denotes v.literal v.node := by
  cases v with
  | text s =>
    have clean : Clean s := by simpa [Scalar.plain] using hv
    exact .string clean
  | int z => exact .number z
  | bool b => exact .bool b
  | null => exact .null

lemma Item.denotes {x : Item} (hx : x.plain = true) : Denotes x.write_val x.node := by
  cases x with
  | string s => exact .quoted s
  | chars s =>
    have clean : Clean s := by simpa [Item.plain] using hx
    exact .string clean
  | int z => exact .number z
  | bool b => exact .bool b

/-- A member that is written, and the rest behind it. -/
lemma Emits.andThen {f : Action ρ} {spec : Meaning ρ Member} (h : Emits f spec) {rows rows' : Cursors ρ} {res : ControlResp}
    {ms : List Member} {key s : List UInt8} {v : JsonNode} (hs : andThen key v (spec rows) = some (res, rows', ms))
    (hd : Denotes s v) (t : List UInt8) : ∃ texts,
      f rows (.ofText (t ++ membersText [(key, s)])) = some (res, rows', .ofText (t ++ membersText texts)) ∧
        DenoteMembers texts ms := by
  rw [Json.andThen, Option.bind_eq_bind, Option.bind_eq_some_iff] at hs
  obtain ⟨⟨r, rows1, ns⟩, hn, hs⟩ := hs
  dsimp only at hs
  split at hs
  next clean =>
    cases hs
    obtain ⟨texts, e, denote⟩ := h hn (t ++ membersText [(key, s)])
    refine ⟨(key, s) :: texts, ?_, .cons ⟨rfl, clean, hd⟩ denote⟩
    rw [e, List.append_assoc, ← membersText_append]
    rfl
  next => cases hs

lemma writeItems_emits {items : List (List UInt8 × Scalar)} (h : ∀ m ∈ items, Clean m.1 ∧ m.2.plain) (t : List UInt8) :
    ∃ texts, writeItems (.ofText t) items = .ofText (t ++ membersText texts) ∧
      DenoteMembers texts (items.map fun m => (m.1, m.2.node)) := by
  refine ⟨_, writeItems_eq items t, ?_⟩
  rw [DenoteMembers, List.forall₂_map_left_iff, List.forall₂_map_right_iff]
  apply List.forall₂_same.2
  intro m hm
  exact ⟨rfl, (h m hm).1, Scalar.denotes (h m hm).2⟩

lemma write_dictionary_items_emits (columns : Columns ρ) {key : Option (List UInt8)} {headers : List Header} {r : ρ} {i : Nat}
    {ms : List Member} (h : dictionaryMembers columns key headers r i = some ms) (t : List UInt8) :
    ∃ texts, write_dictionary_items columns key headers r i (.ofText t) = .ofText (t ++ membersText texts) ∧
      DenoteMembers texts ms := by
  rw [dictionaryMembers] at h
  dsimp only at h
  split at h
  next given =>
    cases key with
    | none =>
      cases h
      exact writeItems_emits given.2 t
    | some key =>
      rw [Option.bind_eq_bind, Option.bind_eq_some_iff] at h
      obtain ⟨v, hv, h⟩ := h
      split at h
      next clean =>
        cases h
        obtain ⟨texts, e, denote⟩ := writeItems_emits given.2 (t ++ nameText key ++ bytes "\x7b")
        rw [objectOf] at hv
        split at hv
        · cases hv
        next hne =>
        cases hv
        have htexts : texts ≠ [] := by
          rintro rfl
          exact hne (List.forall₂_nil_left_iff.1 denote)
        refine ⟨[(key, objectText texts)], ?_, .cons ⟨rfl, clean, .object denote htexts⟩ .nil⟩
        rw [write_dictionary_items, Out.put_ofText, ← List.append_assoc, e, close_object _ htexts]
        simp [membersText, memberText]
      next => cases h
  next => cases h

/-! ## Scripts -/

/-- A script writes the members that are meant. -/
theorem run_emits (columns : Columns ρ) (fuel : Nat) (script : Script ρ) :
    Emits (run columns fuel script) (build columns fuel script) := by
  induction script with
  | done resp =>
    intro rows res rows' ms hs t
    cases hs
    exact ⟨[], by simp [run, membersText], .nil⟩
  | write key value k ih =>
    intro rows res rows' ms hs t
    rw [build] at hs
    split at hs
    next plain =>
      rw [run, writeScalar_eq]
      exact ih.andThen hs (Scalar.denotes plain) t
    next => cases hs
  | to_array key items k ih =>
    intro rows res rows' ms hs t
    rw [build] at hs
    split at hs
    next plain =>
      rw [run, to_arrayObj_eq]
      refine ih.andThen hs (.array ?_) t
      rw [List.forall₂_map_left_iff, List.forall₂_map_right_iff, List.forall₂_same]
      rw [List.all_eq_true] at plain
      exact fun x hx => Item.denotes (plain x hx)
    next => cases hs
  | to_arrayFun key items k ih =>
    intro rows res rows' ms hs t
    rw [run, to_arrayObj_eq]
    refine ih.andThen hs (.array ?_) t
    rw [List.forall₂_map_left_iff, List.forall₂_map_right_iff, List.forall₂_same]
    exact fun x _ => x.denotes
  | to_arrayRow key c f k ih =>
    intro rows res rows' ms hs t
    rw [build, Option.bind_eq_bind, Option.bind_eq_some_iff] at hs
    obtain ⟨⟨r, rows1, vs⟩, listed, hs⟩ := hs
    obtain ⟨s, e, hd⟩ := bracketed_emits (rawLoop_emits c _ f fuel) key _ listed t
    rw [run, e, Option.bind_eq_bind, Option.bind_some]
    exact (ih rows1).andThen hs hd t
  | for_eachRange key count f k ihf ihk =>
    intro rows res rows' ms hs t
    rw [build, Option.bind_eq_bind, Option.bind_eq_some_iff] at hs
    obtain ⟨⟨r, rows1, vs⟩, listed, hs⟩ := hs
    have callback : ∀ i, Emits (fun rows o => run columns fuel (f i rows) rows o) fun rows =>
        build columns fuel (f i rows) rows := fun i rows _ _ _ h t => ihf i rows h t
    obtain ⟨s, e, hd⟩ := bracketed_emits (rangeLoop_emits callback count 0) key _ listed t
    rw [run, e, Option.bind_eq_bind, Option.bind_some]
    exact (ihk rows1).andThen hs hd t
  | for_eachRow key c f k ihf ihk =>
    intro rows res rows' ms hs t
    rw [build, Option.bind_eq_bind, Option.bind_eq_some_iff] at hs
    obtain ⟨⟨r, rows1, vs⟩, listed, hs⟩ := hs
    have callback : Emits (fun rows o => run columns fuel (f rows) rows o) fun rows => build columns fuel (f rows) rows :=
      fun rows _ _ _ h t => ihf rows h t
    obtain ⟨s, e, hd⟩ := bracketed_emits (rowLoop_emits callback c fuel) key _ listed t
    rw [run, e, Option.bind_eq_bind, Option.bind_some]
    exact (ihk rows1).andThen hs hd t
  | for_eachControl key c f k ihf ihk =>
    intro rows res rows' ms hs t
    rw [build, Option.bind_eq_bind, Option.bind_eq_some_iff] at hs
    obtain ⟨⟨r, rows1, vs⟩, listed, hs⟩ := hs
    have callback : Emits (fun rows o => run columns fuel (f rows) rows o) fun rows => build columns fuel (f rows) rows :=
      fun rows _ _ _ h t => ihf rows h t
    obtain ⟨s, e, hd⟩ := bracketed_emits (controlLoop_emits callback c fuel) key _ listed t
    rw [run, e, Option.bind_eq_bind, Option.bind_some]
    exact (ihk rows1).andThen hs hd t
  | take_while key c p f k ihf ihk =>
    intro rows res rows' ms hs t
    rw [build, Option.bind_eq_bind, Option.bind_eq_some_iff] at hs
    obtain ⟨⟨r, rows1, vs⟩, listed, hs⟩ := hs
    have callback : Emits (fun rows o => run columns fuel (f rows) rows o) fun rows => build columns fuel (f rows) rows :=
      fun rows _ _ _ h t => ihf rows h t
    obtain ⟨s, e, hd⟩ := bracketed_emits (takeLoop_emits callback c p fuel) key _ listed t
    rw [run, e, Option.bind_eq_bind, Option.bind_some]
    exact (ihk r rows1).andThen hs hd t
  | take_while_raw key c p f k ih =>
    intro rows res rows' ms hs t
    rw [build, Option.bind_eq_bind, Option.bind_eq_some_iff] at hs
    obtain ⟨⟨r, rows1, vs⟩, listed, hs⟩ := hs
    obtain ⟨s, e, hd⟩ := bracketed_emits (rawLoop_emits c p f fuel) key _ listed t
    rw [run, e, Option.bind_eq_bind, Option.bind_some]
    exact (ih r rows1).andThen hs hd t
  | write_dictionary_items key headers c i k ih =>
    intro rows res rows' ms hs t
    simp only [build, Option.bind_eq_bind, Option.bind_eq_some_iff] at hs
    obtain ⟨r, ⟨rs, hrs, hr⟩, written, hw, ⟨resp, rows1, ns⟩, hn, hs⟩ := hs
    cases hs
    obtain ⟨texts, e, denote⟩ := write_dictionary_items_emits columns hw t
    obtain ⟨texts', e', denote'⟩ := ih hn (t ++ membersText texts)
    refine ⟨texts ++ texts', ?_, List.rel_append denote denote'⟩
    simp only [run, hrs, Option.bind_eq_bind, Option.bind_some, hr, e, e', List.append_assoc, membersText_append]

/-- A callback that reads its row and leaves the cursor gives one object for every row. -/
lemma rowObjects_rows {c : Nat} {f : Meaning ρ Member} {g : ρ → List Member} (hg : ∀ r, g r ≠ [])
    (hf : ∀ rows r rs, rows c = some (r :: rs) → ∃ res, f rows = some (res, rows, g r)) (rows : Cursors ρ) {r : ρ} {rs : List ρ}
    (h : rows c = some (r :: rs)) {fuel : Nat} (hfuel : rs.length < fuel) :
    rowObjects c f fuel rows = some (.cont, Function.update rows c (some []), (r :: rs).map fun r => .object (g r)) := by
  induction rs generalizing r rows fuel with
  | nil =>
    obtain ⟨n, rfl⟩ : ∃ n, fuel = n + 1 := Nat.exists_eq_succ_of_ne_zero (by omega)
    obtain ⟨res, e⟩ := hf rows r [] h
    simp [rowObjects, e, objectOf, hg, advance, h, next]
  | cons s rs ih =>
    obtain ⟨n, rfl⟩ : ∃ n, fuel = n + 1 := Nat.exists_eq_succ_of_ne_zero (by omega)
    obtain ⟨res, e⟩ := hf rows r (s :: rs) h
    have moved : Function.update rows c (some (s :: rs)) c = some (s :: rs) := Function.update_self _ _ _
    have rest := ih _ moved (show rs.length < n by rw [List.length_cons] at hfuel; omega)
    simp [rowObjects, e, objectOf, hg, advance, h, next, rest]

/-- A member and a list with one object for every row. -/
def sampleScript : Script Int :=
  .write (bytes "name") (.text (bytes "a")) (.for_eachRow (bytes "data") 0
    (fun rows => .write (bytes "id") (.int (((rows 0).bind List.head?).getD 0)) (.done .cont)) fun _ => .done .cont)

end

end ArrowheadCore.Json
