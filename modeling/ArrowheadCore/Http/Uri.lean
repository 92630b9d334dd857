import ArrowheadCore.Lib.Unsigned

/-!
# The cursor of a URI

Embedding of `Uri` (`http/crate/Uri.h`, `http/crate/Uri.cpp`): a text and the position up to which it is consumed. A
string ends in a NUL, which can be read; behind it there is nothing to read.
-/

namespace ArrowheadCore.Http
open Lib

/-- What a function can end in that gives no result. -/
inductive Crash where
  /-- a character behind the terminating NUL is read -/
  | beyond
  /-- an exception leaves a function that is `noexcept` -/
  | terminate
deriving DecidableEq, Repr

/-- C++ `Uri` -/
structure Uri where
  uri : List UInt8
  p : Nat
deriving DecidableEq, Repr

namespace Uri

/-- C++ `uri[i]` -/
def charAt (u : Uri) (i : Nat) : Except Crash UInt8 :=
  match (u.uri ++ [0])[i]? with
  | some c => .ok c
  | none => .error .beyond

def empty (u : Uri) : Except Crash Bool := do
  if u.p = u.uri.length then .ok true else .ok ((← u.charAt u.p) = '?'.toUInt8)

/-- The loop that compares the text from `i` on with a path. -/
def agrees (u : Uri) (i : Nat) : List UInt8 → Except Crash Bool
  | [] => .ok true
  | c :: path => do if (← u.charAt i) ≠ c then .ok false else u.agrees (i + 1) path

/-- Go behind a path that is there and ends at one of the stops, or at the end of the text. -/
def advance (atEnd : Uri → Nat → Except Crash Bool) (stops : List UInt8) (u : Uri) (path : List UInt8) :
    Except Crash (Bool × Uri) := do
  if !(← u.agrees u.p path) then .ok (false, u)
  else if ← atEnd u (u.p + path.length) then .ok (true, { u with p := u.p + path.length })
  else if (← u.charAt (u.p + path.length)) ∈ stops then .ok (true, { u with p := u.p + path.length })
  else .ok (false, u)

/-- C++ `uri.length() == i` -/
def lengthEnd (u : Uri) (i : Nat) : Except Crash Bool := .ok (u.uri.length = i)

/-- C++ `uri[i] == 0` -/
def nulEnd (u : Uri) (i : Nat) : Except Crash Bool := do .ok ((← u.charAt i) = 0)

/-- C++ `compare(const char *path, std::size_t N)` -/
def compareChars : Uri → List UInt8 → Except Crash (Bool × Uri) := advance lengthEnd ['?'.toUInt8]

/-- C++ `compare(const std::string &path)` -/
def compareString : Uri → List UInt8 → Except Crash (Bool × Uri) := advance nulEnd ['?'.toUInt8]

/-- C++ `consume(const char *path, std::size_t N)` -/
def consumeChars : Uri → List UInt8 → Except Crash (Bool × Uri) := advance lengthEnd ['/'.toUInt8, '?'.toUInt8]

/-- C++ `consume(const std::string &path)` -/
def consumeString : Uri → List UInt8 → Except Crash (Bool × Uri) := advance nulEnd ['/'.toUInt8, '?'.toUInt8]

/-- C++ `pathParam`; the result when it is set. The third argument of the constructor of the string is a length. -/
def pathParam (u : Uri) : Except Crash (Option (List UInt8)) := do
  if (← u.charAt u.p) = '/'.toUInt8 then
    let i := u.p + ((u.uri.drop u.p).takeWhile (· ≠ '?'.toUInt8)).length
    .ok (some ((u.uri.drop (u.p + 1)).take i))
  else .ok none

/-- C++ `pathId(unsigned long &value)`: what it returns, and the value when it is set. -/
def pathIdULong (u : Uri) : Except Crash (Bool × Option Nat) := do
  if (← u.charAt u.p) = '/'.toUInt8 then
    if (← u.charAt (u.p + 1)) = 0 then .ok (false, none)
    else
      let (value, endp) := strtoul (u.uri.drop (u.p + 1))
      .ok (endp = [], some value)
  else .ok (false, none)

/-- C++ `pathId(int &value)` -/
def pathIdInt (u : Uri) : Except Crash (Bool × Option Int) := do
  if (← u.charAt u.p) = '/'.toUInt8 then
    if (← u.charAt (u.p + 1)) = 0 then .ok (false, none)
    else
      match stoi (u.uri.drop (u.p + 1)) with
      | some value => .ok (true, some value)
      | none => .error .terminate
  else .ok (false, none)

/-! ## What a call does -/

section
variable {u : Uri} {i : Nat} {path stops : List UInt8}

/-- In the text a character is read, and the NUL at its end. -/
lemma charAt_eq (h : i ≤ u.uri.length) : u.charAt i = .ok ((u.uri.drop i).headD 0) := by
  rw [charAt]
  rcases Nat.lt_or_eq_of_le h with h | rfl
  · rw [List.getElem?_append_left h, List.drop_eq_getElem_cons h, List.getElem?_eq_getElem h]
    rfl
  · simp

/-- The loop finds out whether the path is there, and reads no further than the first difference. -/
lemma agrees_eq (hpath : 0 ∉ path) (h : i ≤ u.uri.length) : u.agrees i path = .ok (path.isPrefixOf (u.uri.drop i)) := by
  induction path generalizing i with
  | nil => simp [agrees]
  | cons c path ih =>
    rw [List.mem_cons, not_or] at hpath
    rw [agrees, charAt_eq h]
    rcases Nat.lt_or_eq_of_le h with lt | rfl
    · rw [List.drop_eq_getElem_cons lt]
      show (if u.uri[i] ≠ c then _ else _) = _
      rw [List.isPrefixOf]
      by_cases here : u.uri[i] = c
      · rw [if_neg (not_not.2 here), ih hpath.2 lt, here, beq_self_eq_true, Bool.true_and]
      · rw [if_pos here, beq_false_of_ne (Ne.symm here), Bool.false_and]
    · rw [List.drop_length]
      show (if (0 : UInt8) ≠ c then _ else _) = _
      rw [if_pos hpath.1]
      rfl

/-- Behind a path stands one of the stops, or the end. -/
def Stops (stops rest : List UInt8) : Prop := rest = [] ∨ ∃ c ∈ stops, rest.head? = some c

/-- The path is there, and stops. -/
def Accepts (stops : List UInt8) (u : Uri) (path : List UInt8) : Prop :=
  ∃ rest, u.uri.drop u.p = path ++ rest ∧ Stops stops rest

/-- The two ways to find the end. -/
def FindsEnd (atEnd : Uri → Nat → Except Crash Bool) : Prop :=
  ∀ u : Uri, 0 ∉ u.uri → ∀ i ≤ u.uri.length, atEnd u i = .ok (decide (u.uri.drop i = []))

lemma lengthEnd_finds : FindsEnd lengthEnd := by
  intro u _ i h
  have same : u.uri.length = i ↔ u.uri.drop i = [] := by
    rw [List.drop_eq_nil_iff]
    omega
  rw [lengthEnd, decide_eq_decide.2 same]

lemma nulEnd_finds : FindsEnd nulEnd := by
  intro u h0 i h
  rw [nulEnd, charAt_eq h]
  show Except.ok _ = _
  congr 2
  cases e : u.uri.drop i with
  | nil => simp
  | cons c rest =>
    have : c ≠ 0 := by
      rintro rfl
      exact h0 (List.mem_of_mem_drop (e ▸ List.mem_cons_self))
    simpa using this

open Classical in
/-- All that a call does: it goes behind a path that is accepted, and else does nothing. -/
lemma advance_eq {atEnd : Uri → Nat → Except Crash Bool} (hend : FindsEnd atEnd) (h0 : 0 ∉ u.uri) (hpath : 0 ∉ path)
    (hp : u.p ≤ u.uri.length) :
    advance atEnd stops u path =
      .ok (if Accepts stops u path then (true, { u with p := u.p + path.length }) else (false, u)) := by
  rw [advance, agrees_eq hpath hp]
  show (if !(path.isPrefixOf (u.uri.drop u.p)) then _ else _) = _
  by_cases there : path <+: u.uri.drop u.p
  swap
  · have : ¬Accepts stops u path := fun ⟨rest, e, _⟩ => there ⟨rest, e.symm⟩
    rw [← List.isPrefixOf_iff_prefix, Bool.not_eq_true] at there
    rw [there, if_neg this]
    rfl
  obtain ⟨rest, e⟩ := there
  have behind : u.uri.drop (u.p + path.length) = rest := by
    rw [← List.drop_drop, ← e, List.drop_left]
  have inside : u.p + path.length ≤ u.uri.length := by
    have := congrArg List.length e
    simp only [List.length_append, List.length_drop] at this
    omega
  have accepts : Accepts stops u path ↔ Stops stops rest := by
    constructor
    · rintro ⟨rest', e', stop⟩
      rwa [List.append_cancel_left (e.trans e')]
    · exact fun stop => ⟨rest, e.symm, stop⟩
  rw [if_neg (by simp [← e]), hend u h0 _ inside, charAt_eq inside, behind]
  show (if decide (rest = []) = true then _ else if rest.headD 0 ∈ stops then _ else _) = _
  cases rest with
  | nil =>
    rw [if_pos (by simp), if_pos (accepts.2 (.inl rfl))]
  | cons c rest =>
    rw [if_neg (by simp)]
    show (if c ∈ stops then _ else _) = _
    by_cases hc : c ∈ stops
    · rw [if_pos hc, if_pos (accepts.2 (.inr ⟨c, hc, rfl⟩))]
    · have : ¬Accepts stops u path := by
        rw [accepts]
        rintro (h | ⟨d, hd, h⟩)
        · cases h
        · exact hc (Option.some.inj h ▸ hd)
      rw [if_neg hc, if_neg this]

end

/-! ## Sequences of calls -/

inductive Overload where
  | chars | string
deriving DecidableEq, Repr

inductive Call where
  | empty
  | compare (overload : Overload) (path : List UInt8)
  | consume (overload : Overload) (path : List UInt8)
deriving DecidableEq, Repr

namespace Call

/-- The path that a call goes behind when it succeeds. -/
def path : Call → List UInt8
  | .empty => []
  | .compare _ path => path
  | .consume _ path => path

def answer (u : Uri) : Call → Except Crash (Bool × Uri)
  | .empty => do .ok (← u.empty, u)
  | .compare .chars path => u.compareChars path
  | .compare .string path => u.compareString path
  | .consume .chars path => u.consumeChars path
  | .consume .string path => u.consumeString path

def isConsume : Call → Bool
  | .consume _ _ => true
  | _ => false

/-- The same call of the other overload. -/
def other : Call → Call
  | .empty => .empty
  | .compare .chars path => .compare .string path
  | .compare .string path => .compare .chars path
  | .consume .chars path => .consume .string path
  | .consume .string path => .consume .chars path

end Call

/-- The answers to the calls, and the URI behind them. -/
def run : List Call → Uri → Except Crash (List Bool × Uri)
  | [], u => .ok ([], u)
  | c :: cs, u => do
    let (b, u) ← c.answer u
    let (bs, u) ← run cs u
    .ok (b :: bs, u)

/-- The paths of the calls that have succeeded. -/
def consumed (calls : List Call) (answers : List Bool) : List UInt8 :=
  ((calls.zip answers).filter Prod.snd).flatMap fun c => c.1.path

/-- What one call does: it stays in the text, goes behind its path or does nothing, and the overloads do the same. -/
structure Step (c : Call) (u : Uri) (b : Bool) (u' : Uri) : Prop where
  answer : c.answer u = .ok (b, u')
  same : u'.uri = u.uri
  inside : u'.p ≤ u.uri.length
  moves : b = true → u.uri.take u'.p = u.uri.take u.p ++ c.path
  stays : b = false → u' = u
  stops : b = true → c.isConsume → Stops ['/'.toUInt8, '?'.toUInt8] (u'.uri.drop u'.p)
  overloads : c.other.answer u = c.answer u

section
variable {u : Uri} {path stops : List UInt8} {calls : List Call} {c : Call}

/-- A matcher with two ways to find the end, as one step. -/
lemma advance_step (h0 : 0 ∉ u.uri) (hpath : 0 ∉ path) (hp : u.p ≤ u.uri.length) (stops : List UInt8) :
    ∃ b u', advance lengthEnd stops u path = .ok (b, u') ∧ advance nulEnd stops u path = .ok (b, u') ∧ u'.uri = u.uri ∧
      u'.p ≤ u.uri.length ∧ (b = true → u.uri.take u'.p = u.uri.take u.p ++ path) ∧ (b = false → u' = u) ∧
      (b = true → Stops stops (u'.uri.drop u'.p)) := by
  rw [advance_eq lengthEnd_finds h0 hpath hp, advance_eq nulEnd_finds h0 hpath hp]
  by_cases h : Accepts stops u path
  · obtain ⟨rest, e, stop⟩ := id h
    have behind : u.uri.drop (u.p + path.length) = rest := by
      rw [← List.drop_drop, e, List.drop_left]
    have inside : u.p + path.length ≤ u.uri.length := by
      have := congrArg List.length e
      simp only [List.length_append, List.length_drop] at this
      omega
    rw [if_pos h]
    refine ⟨true, _, rfl, rfl, rfl, inside, fun _ => ?_, nofun, fun _ => ?_⟩
    · rw [List.take_add, e, List.take_left]
    · rwa [behind]
  · rw [if_neg h]
    exact ⟨false, u, rfl, rfl, rfl, hp, nofun, fun _ => rfl, nofun⟩

lemma step (h0 : 0 ∉ u.uri) (hc : 0 ∉ c.path) (hp : u.p ≤ u.uri.length) : ∃ b u', Step c u b u' := by
  cases c with
  | empty =>
    obtain ⟨b, e⟩ : ∃ b, u.empty = .ok b := by
      rw [empty]
      split
      · exact ⟨_, rfl⟩
      · rw [charAt_eq hp]
        exact ⟨_, rfl⟩
    refine ⟨b, u, ?_, rfl, hp, fun _ => ?_, fun _ => rfl, nofun, rfl⟩
    · rw [Call.answer, e]
      rfl
    · rw [Call.path, List.append_nil]
  | compare overload path =>
    obtain ⟨b, u', e1, e2, same, inside, moves, stays, -⟩ := advance_step h0 hc hp ['?'.toUInt8]
    cases overload with
    | chars => exact ⟨b, u', e1, same, inside, moves, stays, nofun, e2.trans e1.symm⟩
    | string => exact ⟨b, u', e2, same, inside, moves, stays, nofun, e1.trans e2.symm⟩
  | consume overload path =>
    obtain ⟨b, u', e1, e2, same, inside, moves, stays, stop⟩ := advance_step h0 hc hp ['/'.toUInt8, '?'.toUInt8]
    cases overload with
    | chars => exact ⟨b, u', e1, same, inside, moves, stays, fun hb _ => stop hb, e2.trans e1.symm⟩
    | string => exact ⟨b, u', e2, same, inside, moves, stays, fun hb _ => stop hb, e1.trans e2.symm⟩

/-- What a sequence of calls does. -/
lemma run_step (h0 : 0 ∉ u.uri) (hc : ∀ c ∈ calls, 0 ∉ c.path) (hp : u.p ≤ u.uri.length) :
    ∃ answers u', run calls u = .ok (answers, u') ∧ u'.uri = u.uri ∧ u'.p ≤ u.uri.length ∧
      u.uri.take u'.p = u.uri.take u.p ++ consumed calls answers := by
  induction calls generalizing u with
  | nil => exact ⟨[], u, rfl, rfl, hp, by simp [consumed]⟩
  | cons c calls ih =>
    obtain ⟨first, others⟩ := List.forall_mem_cons.1 hc
    obtain ⟨b, v, s⟩ := step h0 first hp
    obtain ⟨answers, w, e, same, inside, text⟩ := ih (s.same ▸ h0) others (s.same ▸ s.inside)
    rw [s.same] at same inside text
    refine ⟨b :: answers, w, ?_, same, inside, ?_⟩
    · rw [run, s.answer]
      show (do let (bs, u) ← run calls v; Except.ok (b :: bs, u)) = _
      rw [e]
      rfl
    · cases b with
      | true =>
        rw [text, s.moves rfl]
        simp [consumed]
      | false =>
        rw [text, s.stays rfl]
        simp [consumed]

/-- However often a URI is asked and consumed: all that is read is the text and the NUL behind it, what is in front of the
    position are the paths that were consumed, and each further call either goes behind its path or does nothing. -/
theorem cursor {uri : List UInt8} (h0 : 0 ∉ uri) (hc : ∀ c ∈ calls, 0 ∉ c.path) :
    ∃ answers u, run calls ⟨uri, 0⟩ = .ok (answers, u) ∧ u.uri = uri ∧ u.p ≤ uri.length ∧
      uri.take u.p = consumed calls answers ∧ ∀ c : Call, 0 ∉ c.path → ∃ b u', Step c u b u' := by
  obtain ⟨answers, u, e, same, inside, text⟩ := run_step (u := ⟨uri, 0⟩) h0 hc (Nat.zero_le _)
  refine ⟨answers, u, e, same, inside, by simpa using text, fun c hc => ?_⟩
  exact step (same ▸ h0) hc (same ▸ inside)

theorem cursor_mgmt : ∃ answers u,
    run [.consume .chars (bytes "/mgmt"), .compare .string (bytes "/x"), .consume .string (bytes "/12")]
      ⟨bytes "/mgmt/12?a=b", 0⟩ = .ok (answers, u) ∧ u.uri = bytes "/mgmt/12?a=b" ∧ u.p ≤ (bytes "/mgmt/12?a=b").length ∧
      (bytes "/mgmt/12?a=b").take u.p =
        consumed [.consume .chars (bytes "/mgmt"), .compare .string (bytes "/x"), .consume .string (bytes "/12")] answers ∧
      ∀ c : Call, 0 ∉ c.path → ∃ b u', Step c u b u' :=
  cursor (by decide) (by simp [Call.path]; decide)

end

/-! ## The tail of the path -/

/-- The text behind a slash, up to the query. -/
def tail (u : Uri) : List UInt8 := (u.uri.drop (u.p + 1)).takeWhile (· ≠ '?'.toUInt8)

/-- The three accessors give the same: the tail as it is, and its number if it is one. -/
structure TailAgrees (u : Uri) : Prop where
  param : u.pathParam = .ok (some u.tail)
  long : ∃ b value, u.pathIdULong = .ok (b, value) ∧ (b = true ↔ IsDecimal u.tail ∧ number 10 u.tail ≤ ULONG_MAX) ∧
    (b = true → value = some (number 10 u.tail))
  int : ∃ b value, u.pathIdInt = .ok (b, value) ∧ (b = true ↔ IsDecimal u.tail ∧ number 10 u.tail < 2 ^ 31) ∧
    (b = true → value = some (number 10 u.tail : Int))

section
variable {u : Uri} {rest : List UInt8}

lemma tail_of_query (hq : '?'.toUInt8 ∉ u.uri.drop (u.p + 1)) : u.tail = u.uri.drop (u.p + 1) :=
  List.takeWhile_eq_self_iff.2 fun c hc => by
    have : c ≠ '?'.toUInt8 := fun e => hq (e ▸ hc)
    simpa using this

/-- At a slash, what the accessors look at is known. -/
lemma at_slash (hp : u.uri[u.p]? = some '/'.toUInt8) :
    u.charAt u.p = .ok '/'.toUInt8 ∧ u.charAt (u.p + 1) = .ok ((u.uri.drop (u.p + 1)).headD 0) ∧
      u.uri.drop u.p = '/'.toUInt8 :: u.uri.drop (u.p + 1) := by
  obtain ⟨lt, e⟩ := List.getElem?_eq_some_iff.1 hp
  have text := List.drop_eq_getElem_cons lt
  rw [e] at text
  refine ⟨?_, charAt_eq lt, text⟩
  rw [charAt_eq (Nat.le_of_lt lt), text]
  rfl

/-- The parameter runs on to the end of the URI when there is a query. -/
lemma pathParam_eq (hp : u.uri[u.p]? = some '/'.toUInt8) :
    u.pathParam = .ok (some u.tail) ↔ '?'.toUInt8 ∉ u.uri.drop (u.p + 1) := by
  obtain ⟨slash, -, text⟩ := at_slash hp
  have pass : ('/'.toUInt8 :: u.uri.drop (u.p + 1)).takeWhile (· ≠ '?'.toUInt8) = '/'.toUInt8 :: u.tail := by
    rw [tail, List.takeWhile_cons_of_pos (by decide)]
  have e : u.pathParam = .ok (some ((u.uri.drop (u.p + 1)).take (u.p + ('/'.toUInt8 :: u.tail).length))) := by
    rw [pathParam, slash, text, pass]
    rfl
  rw [e, Except.ok.injEq, Option.some.injEq, List.length_cons]
  constructor
  · intro same mem
    obtain ⟨a, b, split, ha⟩ := List.eq_append_cons_of_mem mem
    have cut : u.tail = a := by
      rw [tail, split, List.takeWhile_append_of_pos, List.takeWhile_cons_of_neg (by simp), List.append_nil]
      intro c hc
      have : c ≠ '?'.toUInt8 := fun e => ha (e ▸ hc)
      simpa using this
    have len := congrArg List.length same
    rw [cut, split] at len
    simp only [List.length_take, List.length_append, List.length_cons] at len
    omega
  · intro hq
    rw [tail_of_query hq, List.take_of_length_le (by omega)]

/-- What is left to the two numeric accessors, and where they stop at once. -/
lemma pathId_eq (h0 : 0 ∉ u.uri) (hp : u.uri[u.p]? = some '/'.toUInt8) :
    u.pathIdULong = (if u.uri.drop (u.p + 1) = [] then .ok (false, none)
      else .ok (decide ((strtoul (u.uri.drop (u.p + 1))).2 = []), some (strtoul (u.uri.drop (u.p + 1))).1)) ∧
    u.pathIdInt = (if u.uri.drop (u.p + 1) = [] then .ok (false, none)
      else match stoi (u.uri.drop (u.p + 1)) with
        | some value => .ok (true, some value)
        | none => .error .terminate) := by
  obtain ⟨slash, next, -⟩ := at_slash hp
  have zero : (u.uri.drop (u.p + 1)).headD 0 = 0 ↔ u.uri.drop (u.p + 1) = [] := by
    cases e : u.uri.drop (u.p + 1) with
    | nil => simp
    | cons c rest =>
      have : c ≠ 0 := by
        rintro rfl
        exact h0 (List.mem_of_mem_drop (e ▸ List.mem_cons_self))
      simpa using this
  constructor
  · simp only [pathIdULong, slash, next, bind, Except.bind, if_true, zero]
  · simp only [pathIdInt, slash, next, bind, Except.bind, if_true, zero]

/-- At a slash: the accessors agree exactly if there is no query, and behind the slash stands nothing or a decimal number
    of the type `int`. -/
theorem tail_agrees_iff (h0 : 0 ∉ u.uri) (hp : u.uri[u.p]? = some '/'.toUInt8) :
    TailAgrees u ↔ u.uri.drop (u.p + 1) = [] ∨
      IsDecimal (u.uri.drop (u.p + 1)) ∧ number 10 (u.uri.drop (u.p + 1)) < 2 ^ 31 := by
  obtain ⟨long, int⟩ := pathId_eq h0 hp
  constructor
  · rintro ⟨param, -, b, value, e, iff, -⟩
    rw [tail_of_query ((pathParam_eq hp).1 param)] at iff
    rw [int] at e
    by_cases empty : u.uri.drop (u.p + 1) = []
    · exact .inl empty
    rw [if_neg empty] at e
    cases h : stoi (u.uri.drop (u.p + 1)) with
    | none =>
      rw [h] at e
      cases e
    | some z =>
      rw [h] at e
      cases e
      exact .inr (iff.1 rfl)
  · rintro (empty | ⟨decimal, small⟩)
    · have t : u.tail = [] := by rw [tail, empty, List.takeWhile_nil]
      have no : ¬IsDecimal [] := fun h => h.1 rfl
      refine ⟨(pathParam_eq hp).2 (by simp [empty]), ⟨false, none, by rw [long, if_pos empty], ?_, nofun⟩,
        ⟨false, none, by rw [int, if_pos empty], ?_, nofun⟩⟩
      · simp [t, no]
      · simp [t, no]
    · have noQuery : '?'.toUInt8 ∉ u.uri.drop (u.p + 1) := decimal.not_mem (by decide)
      have fits : number 10 (u.uri.drop (u.p + 1)) ≤ ULONG_MAX := by
        have : 2 ^ 31 ≤ ULONG_MAX := by decide
        omega
      have t := tail_of_query noQuery
      rw [if_neg decimal.1, strtoul_decimal decimal fits] at long
      rw [if_neg decimal.1, stoi_decimal decimal, if_pos small] at int
      refine ⟨(pathParam_eq hp).2 noQuery, ⟨true, _, long, ?_, fun _ => ?_⟩, ⟨true, _, int, ?_, fun _ => ?_⟩⟩
      · simpa [t] using ⟨decimal, fits⟩
      · rw [t]
      · simpa [t] using ⟨decimal, small⟩
      · rw [t]

theorem tail_agrees_twelve : TailAgrees ⟨bytes "/mgmt/12", 5⟩ :=
  (tail_agrees_iff (u := ⟨bytes "/mgmt/12", 5⟩) (by decide) (by decide)).2 (.inr (by decide))

/-- Behind `/mgmt`, at the slash of `/12?a=b`, the parameter is not `12`. -/
theorem tail_disagrees : ∃ u, run [.consume .chars (bytes "/mgmt")] ⟨bytes "/mgmt/12?a=b", 0⟩ = .ok ([true], u) ∧
    u.uri[u.p]? = some '/'.toUInt8 ∧ u.tail = bytes "12" ∧ u.pathParam = .ok (some (bytes "12?a=b")) ∧
    ¬TailAgrees u := by
  refine ⟨⟨bytes "/mgmt/12?a=b", 5⟩, by decide, by decide, by decide, by decide, fun agrees => ?_⟩
  have param := agrees.param
  revert param
  decide

end

end Uri

end ArrowheadCore.Http
