import Mathlib.Data.List.SplitBy
import ArrowheadCore.Json.Emission

/-!
# Runs of rows

A callback of `JsonBuilder::for_each` that writes a head and takes the rows with the same id writes one object for each
run of them. The inner loop stops in front of the first row of the next run and answers `USE`, so that the outer one
begins there without a step; behind the last row it answers `CONT`, and the step finds nothing.
-/

namespace ArrowheadCore.Json
open Lib JsonView

section
variable {ρ : Type}

/-- A callback that writes members of the current row, and what it writes. -/
structure MemberWriter (ρ : Type) where
  write : Out → ρ → Out
  members : ρ → List (List UInt8 × List UInt8)
  writes : ∀ t r, write (.ofText t) r = .ofText (t ++ membersText (members r))

/-- A callback that writes an item of the current row and a comma to the stream. -/
structure ItemWriter (ρ : Type) where
  write : Out → ρ → Out
  text : ρ → List UInt8
  writes : ∀ t r, write (.ofText t) r = .ofText (t ++ (text r ++ bytes ","))

/-- C++ `take_while(key, row, p, f)` on a row -/
def take_while (key : String) (p : ρ → Bool) (f : Out → ρ → Out) : Out → List ρ → ControlResp × Out × List ρ :=
  take_while_raw key p fun o r => (f (o.put (bytes "\x7b")) r).back.put (bytes "\x7d,")

/-- What `take_while` writes for a row: the object of its members. Without members the bracket that closes the object
    takes the place of the one that opens it. -/
def MemberWriter.item (w : MemberWriter ρ) : ItemWriter ρ where
  write o r := (w.write (o.put (bytes "\x7b")) r).back.put (bytes "\x7d,")
  text r := if w.members r = [] then bytes "\x7d" else objectText (w.members r)
  writes t r := by
    rw [Out.put_ofText, w.writes]
    split
    next h =>
      have e : bytes "\x7b" = ['{'.toUInt8] := by decide
      have e' : bytes "\x7d," = '}'.toUInt8 :: bytes "," := by decide
      have e'' : bytes "\x7d" = ['}'.toUInt8] := by decide
      rw [h, show membersText [] = [] from rfl, List.append_nil, e, e', Out.put_back, e'']
      rfl
    next h => exact close_object t h

variable {κ : Type} [DecidableEq κ] (id : ρ → κ)

/-- The callback: the head of the current row, and the rows with the same id. -/
def headAndRun (head : Out → ρ → Out) (take : (ρ → Bool) → Out → List ρ → ControlResp × Out × List ρ) (o : Out) :
    List ρ → ControlResp × Out × List ρ
  | [] => (.cont, o, [])
  | r :: rs => take (fun s => id s == id r) (head o r) (r :: rs)

/-- The runs of adjacent rows with the same id. -/
def runs (rows : List ρ) : List (List ρ) := rows.splitBy fun r s => id r == id s

/-- The object of a run: the head of its first row, and a list with an item for every row. -/
def runText (head : MemberWriter ρ) (list : String) (item : ItemWriter ρ) : List ρ → List UInt8
  | [] => []
  | r :: rs => objectText (head.members r ++ [(bytes list, arrayText ((r :: rs).map item.text))])

lemma takeWhile_same {r s : ρ} {rs : List ρ} (h : s ∈ rs.takeWhile fun s => id s == id r) : id s = id r := by
  simpa using List.mem_takeWhile_imp h

/-- The first run, and the runs behind it. -/
lemma runs_cons (r : ρ) (rs : List ρ) :
    runs id (r :: rs) = (r :: rs.takeWhile fun s => id s == id r) :: runs id (rs.dropWhile fun s => id s == id r) := by
  have all : ∀ s ∈ r :: rs.takeWhile (fun s => id s == id r), id s = id r := by
    intro s hs
    obtain rfl | hs := List.mem_cons.1 hs
    · rfl
    · exact takeWhile_same id hs
  have chain : (r :: rs.takeWhile fun s => id s == id r).IsChain fun a b => (id a == id b) = true := by
    apply List.Pairwise.isChain
    apply List.pairwise_of_forall_mem_list
    intro a ha b hb
    rw [all a ha, all b hb]
    simp
  have split := List.takeWhile_append_dropWhile (p := fun s => id s == id r) (l := rs)
  rw [runs, runs]
  nth_rewrite 1 [← split]
  rw [← List.cons_append, List.splitBy_append, List.splitBy_of_isChain (by simp) chain, List.singleton_append]
  intro a ha b hb
  have head := List.head?_dropWhile_not (fun s => id s == id r) rs
  rw [Option.mem_def] at hb
  rw [hb] at head
  rw [all a (List.mem_of_getLast? ha), Bool.beq_comm]
  simpa using head

/-! ## The text of the runs -/

lemma foldl_items (item : ItemWriter ρ) (rs : List ρ) (t : List UInt8) :
    rs.foldl item.write (.ofText t) = .ofText (t ++ (rs.map item.text).flatMap fun x => x ++ bytes ",") := by
  induction rs generalizing t with
  | nil => simp
  | cons r rs ih =>
    rw [List.foldl_cons, item.writes, ih]
    simp

/-- What the inner loop writes when it takes the current row, and what it leaves. -/
lemma take_while_raw_items {p : ρ → Bool} {r : ρ} (hr : p r) (rs : List ρ) (key : String) (item : ItemWriter ρ)
    (t : List UInt8) :
    take_while_raw key p item.write (.ofText t) (r :: rs) =
      (if rs.dropWhile p = [] then .cont else .use,
        .ofText (t ++ membersText [(bytes key, arrayText ((r :: rs.takeWhile p).map item.text))]), rs.dropWhile p) := by
  have e : bytes "]," = ']'.toUInt8 :: bytes "," := by decide
  have e' : bytes "]" = [']'.toUInt8] := by decide
  rw [take_while_raw, Out.put_ofText, takeWhileLoop_eq hr, foldl_items, e]
  show (_, (Out.ofText _).back.put _, _) = _
  rw [close_list _ (by simp)]
  simp [membersText, memberText, arrayText, keyText, e']

variable (head : MemberWriter ρ) (list : String) (item : ItemWriter ρ)

/-- One call writes the object of the first run, but for the bracket behind it, and leaves the rows of the others. -/
lemma headAndRun_eq (t : List UInt8) (r : ρ) (rs : List ρ) :
    ∃ o, headAndRun id head.write (fun p => take_while_raw list p item.write) (.ofText (t ++ bytes "\x7b")) (r :: rs) =
        (if rs.dropWhile (fun s => id s == id r) = [] then .cont else .use, o, rs.dropWhile fun s => id s == id r) ∧
      o.back.put (bytes "\x7d,") =
        .ofText (t ++ (runText head list item (r :: rs.takeWhile fun s => id s == id r) ++ bytes ",")) := by
  have hr : (fun s => id s == id r) r = true := by simp
  have raw := take_while_raw_items (p := fun s => id s == id r) hr rs list item
    (t ++ bytes "\x7b" ++ membersText (head.members r))
  rw [headAndRun, head.writes, raw]
  refine ⟨_, rfl, ?_⟩
  rw [List.append_assoc, ← membersText_append, close_object t (by simp)]
  rfl

/-- The outer loop writes the object of every run, with a comma behind it. It comes to its end, as every call takes at
    least one row. -/
lemma forEachLoop_runs : ∀ {fuel : Nat} {rows : List ρ}, rows.length ≤ fuel → rows ≠ [] → ∀ t,
    forEachLoop (headAndRun id head.write fun p => take_while_raw list p item.write) fuel (.ofText t) rows =
      some (.ofText (t ++ ((runs id rows).map (runText head list item)).flatMap fun x => x ++ bytes ","), [])
  | _, [], _, h, _ => absurd rfl h
  | 0, _ :: _, hf, _, _ => by simp at hf
  | fuel + 1, r :: rs, hf, _, t => by
    obtain ⟨o, h1, h2⟩ := headAndRun_eq id head list item t r rs
    have hlen : (rs.dropWhile fun s => id s == id r).length ≤ fuel := by
      have := (List.dropWhile_suffix (l := rs) fun s => id s == id r).length_le
      simp only [List.length_cons] at hf
      omega
    rw [forEachLoop, Out.put_ofText, h1, runs_cons, List.map_cons, List.flatMap_cons]
    cases e : rs.dropWhile fun s => id s == id r with
    | nil => simp [next, h2, runs]
    | cons s ss =>
      have ih := forEachLoop_runs hlen (by rw [e]; simp)
        (t ++ (runText head list item (r :: rs.takeWhile fun s => id s == id r) ++ bytes ","))
      rw [e] at ih
      simp [h2, ih]

lemma for_each_raw_runs (name : String) (t : List UInt8) (r : ρ) (rs : List ρ) :
    for_each name (headAndRun id head.write fun p => take_while_raw list p item.write) (r :: rs).length (.ofText t)
        (r :: rs) =
      some (.ofText (t ++ membersText [(bytes name, arrayText ((runs id (r :: rs)).map (runText head list item)))]), []) := by
  have e : bytes "]," = ']'.toUInt8 :: bytes "," := by decide
  have e' : bytes "]" = [']'.toUInt8] := by decide
  have items : (runs id (r :: rs)).map (runText head list item) ≠ [] := by simp [runs_cons]
  rw [for_each, Out.put_ofText, forEachLoop_runs id head list item (Nat.le_refl _) (List.cons_ne_nil r rs), e]
  show some ((Out.ofText _).back.put _, _) = _
  rw [close_list _ items]
  simp [membersText, memberText, arrayText, keyText, e']

/-- The runs are the rows in their order, cut where the id changes and nowhere else. -/
structure Runs (rows : List ρ) (gs : List (List ρ)) : Prop where
  flatten : gs.flatten = rows
  nonempty : ∀ g ∈ gs, g ≠ []
  same : ∀ g ∈ gs, ∀ r ∈ g, ∀ s ∈ g, id r = id s
  maximal : gs.IsChain fun g h => ∃ r ∈ g, ∃ s ∈ h, id r ≠ id s

lemma runs_same {rows : List ρ} {g : List ρ} (hg : g ∈ runs id rows) : ∀ r ∈ g, ∀ s ∈ g, id r = id s := by
  have chain : g.IsChain fun a b => id a = id b := by
    refine (List.isChain_of_mem_splitBy hg).imp ?_
    intro a b h
    simpa using h
  have trans : IsTrans ρ fun a b => id a = id b := ⟨fun _ _ _ h h' => h.trans h'⟩
  have symm : Std.Symm fun a b : ρ => id a = id b := ⟨fun _ _ h => h.symm⟩
  intro r hr s hs
  exact List.Pairwise.forall_of_forall (R := fun a b => id a = id b) (fun _ _ => rfl) chain.pairwise hr hs

theorem runs_spec (rows : List ρ) : Runs id rows (runs id rows) where
  flatten := List.flatten_splitBy _ rows
  nonempty := by
    rintro g hg rfl
    exact List.nil_notMem_splitBy _ rows hg
  same _ hg := runs_same id hg
  maximal := by
    refine (List.isChain_getLast_head_splitBy _ rows).imp ?_
    rintro g h ⟨hg, hh, differ⟩
    exact ⟨_, List.getLast_mem hg, _, List.head_mem hh, by simpa using differ⟩

/-- One object for each maximal run of adjacent rows with the same id, with the head of its first row and an item for
    each of its rows, whichever of the inner loops is used. -/
theorem for_each_runs (name : String) (t : List UInt8) (r : ρ) (rs : List ρ) :
    ∃ gs, Runs id (r :: rs) gs ∧
      (∀ item : ItemWriter ρ,
        for_each name (headAndRun id head.write fun p => take_while_raw list p item.write) (r :: rs).length (.ofText t)
            (r :: rs) =
          some (.ofText (t ++ membersText [(bytes name, arrayText (gs.map (runText head list item)))]), [])) ∧
      ∀ w : MemberWriter ρ,
        for_each name (headAndRun id head.write fun p => take_while list p w.write) (r :: rs).length (.ofText t)
            (r :: rs) =
          some (.ofText (t ++ membersText [(bytes name, arrayText (gs.map (runText head list w.item)))]), []) := by
  refine ⟨runs id (r :: rs), runs_spec id _, ?_, ?_⟩
  · intro item
    exact for_each_raw_runs id head list item name t r rs
  · intro w
    exact for_each_raw_runs id head list w.item name t r rs

end

end ArrowheadCore.Json
