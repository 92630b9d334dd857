import ArrowheadCore.Lib.Groups
import ArrowheadCore.Lib.CString

/-!
# `JsonBuilder`

Embedding of `JsonBuilder` (`utils/json/JsonBuilder.h`) over the part of `std::ostringstream` that it uses: a
text and the position at which the next byte is written. The builder writes a comma behind every item and
goes one byte back before it closes a list, so that the bracket overwrites the last comma.

A row cursor is the list of the rows that are left, the current one first; behind the last row it is empty
and stays so. An answer without rows is no cursor.
-/

namespace ArrowheadCore.Json
open Lib

/-- C++ `std::ostringstream`: the text and the put position. -/
structure Out where
  text : List UInt8
  pos : Nat
deriving DecidableEq, Repr

namespace Out

/-- Write over what stands at the position, and behind the end. -/
def put (o : Out) (s : List UInt8) : Out :=
  ⟨o.text.take o.pos ++ (s ++ o.text.drop (o.pos + s.length)), o.pos + s.length⟩

/-- C++ `seekp(-1, std::ios::end)` -/
def back (o : Out) : Out := ⟨o.text, o.text.length - 1⟩

/-- The position behind the text. -/
def ofText (t : List UInt8) : Out := ⟨t, t.length⟩

@[simp] lemma ofText_text (t : List UInt8) : (ofText t).text = t := rfl

@[simp] lemma put_ofText (t s : List UInt8) : (ofText t).put s = ofText (t ++ s) := by
  simp [put, ofText]

/-- Behind a step back the last byte is overwritten. -/
lemma put_back (t s : List UInt8) (c d : UInt8) :
    (ofText (t ++ [c])).back.put (d :: s) = ofText (t ++ d :: s) := by
  simp [put, back, ofText]

end Out

/-! ## Members -/

/-- C++ `"\"" << key << "\": "` -/
def nameText (key : List UInt8) : List UInt8 := bytes "\"" ++ (key ++ bytes "\": ")

/-- The name of a member that the code gives as a constant. -/
def keyText (key : String) : List UInt8 := nameText (bytes key)

/-- C++ `write(key, value)` of a number -/
def writeNumber (key : String) (value : Int) (o : Out) : Out := o.put (keyText key ++ (to_string value ++ bytes ","))

/-- C++ `write(key, value)` of a text, which is not escaped -/
def writeText (key : String) (value : List UInt8) (o : Out) : Out :=
  o.put (keyText key ++ (bytes "\"" ++ (value ++ bytes "\",")))

/-- C++ `write_null` -/
def writeNull (key : String) (o : Out) : Out := o.put (keyText key ++ bytes "null,")

/-- The stream of a new builder. -/
def newBuilder : Out := (⟨bytes "\x7b", 0⟩ : Out).put (bytes "\x7b")

/-- C++ `str` -/
def str (o : Out) : List UInt8 := (o.back.put (bytes "\x7d")).text

/-- The last bracket takes the place of the last comma. -/
lemma str_ofText (t : List UInt8) : str (Out.ofText (t ++ bytes ",")) = t ++ bytes "\x7d" := by
  rw [str, show bytes "," = [','.toUInt8] by decide, show bytes "\x7d" = ['}'.toUInt8] by decide, Out.put_back]
  rfl

/-! ## Rows -/

section
variable {ρ : Type}

/-- C++ `Row::next` -/
def next : List ρ → Bool × List ρ
  | _ :: r :: rs => (true, r :: rs)
  | _ => (false, [])

/-- C++ `ControlResp` -/
inductive ControlResp where
  | use | cont | last | skip
deriving DecidableEq, Repr

/-- The loop of `for_each` with a callback that moves the cursor. The fuel bounds the number of calls. -/
def forEachLoop (f : Out → List ρ → ControlResp × Out × List ρ) : Nat → Out → List ρ → Option (Out × List ρ)
  | 0, _, _ => none
  | fuel + 1, o, rows =>
    let (res, o, rows) := f (o.put (bytes "\x7b")) rows
    let o := o.back
    match res with
    | .use => forEachLoop f fuel (o.put (bytes "\x7d,")) rows
    | .last => some (o.put (bytes "\x7d,"), rows)
    | .cont =>
      let (more, rows) := next rows
      if more then forEachLoop f fuel (o.put (bytes "\x7d,")) rows else some (o.put (bytes "\x7d,"), rows)
    | .skip =>
      let (more, rows) := next rows
      if more then forEachLoop f fuel o rows else some (o, rows)

/-- C++ `for_each(key, row, f)` on a row; `none` when the fuel does not suffice. -/
def for_each (key : String) (f : Out → List ρ → ControlResp × Out × List ρ) (fuel : Nat) (o : Out) :
    List ρ → Option (Out × List ρ)
  | [] => some ((o.put (keyText key ++ bytes "[")).put (bytes "],"), [])
  | r :: rs => do
    let (o, rows) ← forEachLoop f fuel (o.put (keyText key ++ bytes "[")) (r :: rs)
    some (o.back.put (bytes "],"), rows)

/-- The loop of `take_while_raw`. -/
def takeWhileLoop (p : ρ → Bool) (f : Out → ρ → Out) : Out → List ρ → ControlResp × Out × List ρ
  | o, [] => (.cont, o, [])
  | o, r :: rs =>
    if !p r then (.use, o, r :: rs)
    else if (next (r :: rs)).1 then takeWhileLoop p f (f o r) rs
    else (.cont, f o r, [])

/-- C++ `take_while_raw(key, row, p, f)` on a row -/
def take_while_raw (key : String) (p : ρ → Bool) (f : Out → ρ → Out) (o : Out) :
    List ρ → ControlResp × Out × List ρ
  | [] => (.cont, (o.put (keyText key ++ bytes "[")).put (bytes "],"), [])
  | r :: rs =>
    let (res, o, rows) := takeWhileLoop p f (o.put (keyText key ++ bytes "[")) (r :: rs)
    (res, o.back.put (bytes "],"), rows)

/-! ## Ranges -/

variable {α σ : Type}

/-- The loop of `for_each(key, first, last, f)`. The callback has the state `σ` in its captures. -/
def forEachRangeLoop (f : σ → Out → α → Option (σ × Out)) : σ → Out → List α → Option (σ × Out)
  | i, o, [] => some (i, o)
  | i, o, x :: xs => do
    let (i, o) ← f i (o.put (bytes "\x7b")) x
    forEachRangeLoop f i (o.back.put (bytes "\x7d,")) xs

/-- C++ `for_each(key, first, last, f)` -/
def for_eachRange (key : String) (f : σ → Out → α → Option (σ × Out)) (i : σ) (o : Out) : List α → Option (σ × Out)
  | [] => some (i, (o.put (keyText key ++ bytes "[")).put (bytes "],"))
  | x :: xs => do
    let (i, o) ← forEachRangeLoop f i (o.put (keyText key ++ bytes "[")) (x :: xs)
    some (i, o.back.put (bytes "],"))

/-- The loop of `write_dictionary_items(key, first, last, fun)` -/
def dictionaryLoop (f : σ → Out → α → Option (σ × Out)) : σ → Out → List α → Option (σ × Out)
  | i, o, [] => some (i, o)
  | i, o, x :: xs => do
    let (i, o) ← f i o x
    dictionaryLoop f i (o.put (bytes ",")) xs

/-- C++ `write_dictionary_items(key, first, last, fun)`: it goes back once more behind the loop. -/
def write_dictionary_itemsRange (key : String) (f : σ → Out → α → Option (σ × Out)) (i : σ) (o : Out) :
    List α → Option (σ × Out)
  | [] => some (i, (o.put (keyText key ++ bytes "\x7b")).back.put (bytes "\x7d,"))
  | x :: xs => do
    let (i, o) ← dictionaryLoop f i (o.put (keyText key ++ bytes "\x7b")) (x :: xs)
    some (i, o.back.back.put (bytes "\x7d,"))

/-! ## Lists with commas -/

/-- Texts with a comma between them. -/
def commaList : List (List UInt8) → List UInt8
  | [] => []
  | [x] => x
  | x :: y :: ys => x ++ (bytes "," ++ commaList (y :: ys))

/-- A comma behind every text is one comma more than between them. -/
lemma flatMap_comma : ∀ {xs : List (List UInt8)}, xs ≠ [] →
    xs.flatMap (fun x => x ++ bytes ",") = commaList xs ++ bytes ","
  | [], h => absurd rfl h
  | [x], _ => by simp [commaList]
  | x :: y :: ys, _ => by
    have ih := flatMap_comma (List.cons_ne_nil y ys)
    rw [List.flatMap_cons, ih]
    simp [commaList]

/-- The bracket that closes a list takes the place of its last comma. -/
lemma close_list (t : List UInt8) {xs : List (List UInt8)} (hx : xs ≠ []) (d : UInt8) (s : List UInt8) :
    (Out.ofText (t ++ xs.flatMap fun x => x ++ bytes ",")).back.put (d :: s) =
      Out.ofText (t ++ (commaList xs ++ d :: s)) := by
  rw [flatMap_comma hx, ← List.append_assoc]
  exact (Out.put_back _ s _ d).trans (by rw [List.append_assoc])

lemma foldl_put {α : Type} (g : α → List UInt8) (xs : List α) (t : List UInt8) :
    xs.foldl (fun o x => o.put (g x)) (Out.ofText t) = Out.ofText (t ++ xs.flatMap g) := by
  induction xs generalizing t with
  | nil => simp
  | cons x xs ih => simp [ih]

/-! ## Groups -/

/-- The loop stops at the first row that is not taken. -/
lemma takeWhileLoop_eq {p : ρ → Bool} {f : Out → ρ → Out} {r : ρ} (hr : p r) (rs : List ρ) (o : Out) :
    takeWhileLoop p f o (r :: rs) =
      (if rs.dropWhile p = [] then .cont else .use, (r :: rs.takeWhile p).foldl f o, rs.dropWhile p) := by
  induction rs generalizing r o with
  | nil => simp [takeWhileLoop, hr, next]
  | cons s rs ih =>
    have step : takeWhileLoop p f o (r :: s :: rs) = takeWhileLoop p f (f o r) (s :: rs) := by
      simp [takeWhileLoop, hr, next]
    rw [step]
    cases hs : p s with
    | true =>
      rw [ih hs]
      simp [hs]
    | false => simp [takeWhileLoop, hs]

/-- What `take_while_raw` writes when it takes the current row, and what it leaves. -/
lemma take_while_raw_eq {p : ρ → Bool} {r : ρ} (hr : p r) (rs : List ρ) (key : String) (g : ρ → List UInt8)
    (t : List UInt8) :
    take_while_raw key p (fun o s => o.put (g s ++ bytes ",")) (Out.ofText t) (r :: rs) =
      (if rs.dropWhile p = [] then .cont else .use,
        Out.ofText (t ++ (keyText key ++ (bytes "[" ++ (commaList ((r :: rs.takeWhile p).map g) ++ bytes "],")))),
        rs.dropWhile p) := by
  have items : (r :: rs.takeWhile p).map g ≠ [] := by simp
  have flat : ((r :: rs.takeWhile p).flatMap fun s => g s ++ bytes ",") =
      ((r :: rs.takeWhile p).map g).flatMap fun x => x ++ bytes "," := by
    rw [List.flatMap_map]
  have e : bytes "]," = ']'.toUInt8 :: bytes "," := by decide
  rw [take_while_raw, Out.put_ofText, takeWhileLoop_eq hr, foldl_put (fun s => g s ++ bytes ","), flat, e]
  show (_, (Out.ofText _).back.put _, _) = _
  rw [close_list _ items]
  simp only [List.append_assoc]

/-- The text of a group: its key and its items. -/
def groupText (g : Int × List Int) : List UInt8 :=
  bytes "\x7b" ++ (keyText "id" ++ (to_string g.1 ++ (bytes "," ++ (keyText "idList" ++ (bytes "[" ++
    (commaList (g.2.map to_string) ++ bytes "]\x7d"))))))

/-- A callback that writes the key of the current row and takes the rows with the same key. -/
def groupCallback (key val : ρ → Int) (o : Out) : List ρ → ControlResp × Out × List ρ
  | [] => (.cont, o, [])
  | r :: rs =>
    take_while_raw "idList" (fun s => key s == key r) (fun o s => o.put (to_string (val s) ++ bytes ","))
      (writeNumber "id" (key r) o) (r :: rs)

/-- One call writes one group, but for the bracket behind it, and leaves the rows of the others. -/
lemma groupCallback_eq (key val : ρ → Int) (t : List UInt8) (r : ρ) (rs : List ρ) :
    ∃ o, groupCallback key val (Out.ofText (t ++ bytes "\x7b")) (r :: rs) =
        (if rs.dropWhile (fun s => key s == key r) = [] then .cont else .use, o,
          rs.dropWhile fun s => key s == key r) ∧
      o.back.put (bytes "\x7d,") = Out.ofText
        (t ++ (groupText (key r, val r :: (rs.takeWhile fun s => key s == key r).map val) ++ bytes ",")) := by
  have hr : (fun s => key s == key r) r = true := by simp
  have e1 : bytes "\x7d," = '}'.toUInt8 :: bytes "," := by decide
  have e2 : bytes "]\x7d" = bytes "]" ++ ['}'.toUInt8] := by decide
  have e3 : bytes "]," = bytes "]" ++ [','.toUInt8] := by decide
  have raw := take_while_raw_eq (p := fun s => key s == key r) hr rs "idList" (fun s => to_string (val s))
    (t ++ bytes "\x7b" ++ (keyText "id" ++ (to_string (key r) ++ bytes ",")))
  rw [groupCallback, writeNumber, Out.put_ofText, raw]
  refine ⟨_, rfl, ?_⟩
  rw [e1, e3]
  simp only [← List.append_assoc]
  rw [Out.put_back]
  simp [groupText, e2, Function.comp_def]

/-- The loop writes the groups of the rows, with a comma behind each, and comes to its end: every call takes
    at least one row. -/
lemma forEachLoop_groups (key val : ρ → Int) : ∀ {fuel : Nat} {rows : List ρ}, rows.length ≤ fuel → rows ≠ [] →
    ∀ t, forEachLoop (groupCallback key val) fuel (Out.ofText t) rows =
      some (Out.ofText (t ++ (groups (rows.map fun r => (key r, val r))).flatMap fun g => groupText g ++ bytes ","), [])
  | _, [], _, h, _ => absurd rfl h
  | 0, _ :: _, hf, _, _ => by simp at hf
  | fuel + 1, r :: rs, hf, _, t => by
    obtain ⟨o, h1, h2⟩ := groupCallback_eq key val t r rs
    have hlen : (rs.dropWhile fun s => key s == key r).length ≤ fuel := by
      have := (List.dropWhile_suffix (l := rs) fun s => key s == key r).length_le
      simp only [List.length_cons] at hf
      omega
    have hgroups : groups ((r :: rs).map fun r => (key r, val r)) =
        (key r, val r :: (rs.takeWhile fun s => key s == key r).map val) ::
          groups ((rs.dropWhile fun s => key s == key r).map fun r => (key r, val r)) := by
      rw [List.map_cons, groups_cons, List.takeWhile_map, List.dropWhile_map, List.map_map]
      rfl
    rw [forEachLoop, Out.put_ofText, h1, hgroups, List.flatMap_cons]
    cases e : rs.dropWhile fun s => key s == key r with
    | nil => simp [next, h2, groups]
    | cons s ss =>
      have ih := forEachLoop_groups key val hlen (by rw [e]; simp)
        (t ++ (groupText (key r, val r :: (rs.takeWhile fun s => key s == key r).map val) ++ bytes ","))
      rw [e] at ih
      simp [h2, ih]

/-- A list with one element for each group of the rows. -/
theorem for_each_groups (name : String) (key val : ρ → Int) {rows : List ρ} (hr : rows ≠ []) (t : List UInt8) :
    for_each name (groupCallback key val) rows.length (Out.ofText t) rows =
      some (Out.ofText (t ++ (keyText name ++ (bytes "[" ++
        (commaList ((groups (rows.map fun r => (key r, val r))).map groupText) ++ bytes "],")))), []) := by
  have e : bytes "]," = ']'.toUInt8 :: bytes "," := by decide
  cases rows with
  | nil => exact absurd rfl hr
  | cons r rs =>
    have items : (groups ((r :: rs).map fun r => (key r, val r))).map groupText ≠ [] := by
      rw [List.map_cons, groups_cons]
      simp
    have flat : ((groups ((r :: rs).map fun r => (key r, val r))).flatMap fun g => groupText g ++ bytes ",") =
        ((groups ((r :: rs).map fun r => (key r, val r))).map groupText).flatMap fun x => x ++ bytes "," := by
      rw [List.flatMap_map]
    rw [for_each, Out.put_ofText, forEachLoop_groups key val (Nat.le_refl _) hr, flat, e]
    show some ((Out.ofText _).back.put _, _) = _
    rw [close_list _ items]
    simp only [List.append_assoc]

end

end ArrowheadCore.Json
