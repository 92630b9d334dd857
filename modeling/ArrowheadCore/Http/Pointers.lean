import ArrowheadCore.Http.QueryString

/-!
# The pointers of a query

`Uri::Parser` once more, with its pointers as positions in the text. Every read is checked, and so is every use of `val`, which
has no value before the first `?`: the result is `none` where the text is left or a pointer without a value is used. The
pointers point at what the parser of `QueryString` has, so the two find the same pairs.
-/

namespace ArrowheadCore.Http.Uri
open Lib

/-- C++ `*q`; behind the terminating NUL there is nothing to read. -/
def deref (u : Uri) (q : Nat) : Option UInt8 := (u.uri ++ [0])[q]?

lemma deref_inside {u : Uri} {q : Nat} {c : UInt8} (h : u.deref q = some c) : q ≤ u.uri.length := by
  obtain ⟨inside, -⟩ := List.getElem?_eq_some_iff.1 h
  rw [List.length_append, List.length_singleton] at inside
  exact Nat.le_of_lt_succ inside

/-- C++ `for (; *q; q++) if (*q == c) break;` -/
def scan (u : Uri) (c : UInt8) (q : Nat) : Option Nat :=
  match _h : u.deref q with
  | none => none
  | some x => if x = 0 ∨ x = c then some q else u.scan c (q + 1)
termination_by u.uri.length + 1 - q
decreasing_by
  have := deref_inside _h
  omega

/-- The loop of `urldecode(s, len)` from `i` on. -/
def decode (u : Uri) (s len i : Nat) : Option (List UInt8) :=
  if i < len then do
    let c ← u.deref (s + i)
    if c = '+'.toUInt8 then return ' '.toUInt8 :: (← u.decode s len (i + 1))
    else if c = '%'.toUInt8 ∧ i + 2 < len then
      let ch1 := from_hex (← u.deref (s + i + 1))
      let ch2 := from_hex (← u.deref (s + i + 2))
      return (ch1 <<< 4 ||| ch2) :: (← u.decode s len (i + 3))
    else return c :: (← u.decode s len (i + 1))
  else return []
termination_by len - i

/-- What is between two pointers; `none` if they stand the other way round. -/
def between (first last : Nat) : Option Nat := if first ≤ last then some (last - first) else none

/-- C++ `Uri::Parser` -/
structure Pointers where
  key : Nat
  val : Option Nat := none
  ok : Bool := true
deriving DecidableEq, Repr

namespace Pointers
variable (u : Uri)

/-- C++ `Parser(const Uri &uri)` -/
def new : Option Pointers := do
  let key ← u.scan '?'.toUInt8 u.p
  if (← u.deref key) = 0 then return { key }
  let val ← u.scan '='.toUInt8 (key + 1)
  return { key, val, ok := (← u.deref val) ≠ 0 }

def next (p : Pointers) : Option Pointers := do
  let val ← p.val
  let key ← u.scan '&'.toUInt8 (val + 1)
  if (← u.deref key) = 0 then return { p with key }
  let val ← u.scan '='.toUInt8 (key + 1)
  return { key, val, ok := p.ok && (← u.deref val) ≠ 0 }

/-- C++ `operator bool` -/
def more (p : Pointers) : Option Bool := do
  if p.ok then return (← u.deref p.key) ≠ 0 else return false

/-- C++ `operator*` -/
def pair (p : Pointers) : Option (List UInt8 × List UInt8) := do
  let val ← p.val
  let first ← u.decode (p.key + 1) (← between (p.key + 1) val) 0
  let «end» ← u.scan '&'.toUInt8 val
  let second ← u.decode (val + 1) (← between (val + 1) «end») 0
  return (first, second)

/-- C++ `while(p) { *p; ++p; }` in so many turns: the parser and the pair of every turn, and the parser at the end. -/
def loop : Nat → Pointers → Option (List (Pointers × List UInt8 × List UInt8) × Pointers)
  | 0, _ => none
  | n + 1, p => do
    if ← p.more u then
      let kv ← p.pair u
      let (turns, last) ← loop n (← p.next u)
      return ((p, kv) :: turns, last)
    else return ([], p)

end Pointers

/-! ## In the text -/

section
variable {u : Uri} {q r : Nat} {c x : UInt8} {s t : List UInt8}

lemma deref_drop (h : q ≤ u.uri.length) : u.deref q = some ((u.uri.drop q).headD 0) := by
  rw [deref]
  rcases Nat.lt_or_eq_of_le h with h | rfl
  · rw [List.getElem?_append_left h, List.drop_eq_getElem_cons h, List.getElem?_eq_getElem h]
    rfl
  · simp

/-- A character that a pointer points at, and what is behind it. -/
lemma drop_cons (h : u.uri.drop q = c :: s) : q < u.uri.length ∧ u.deref q = some c ∧ u.uri.drop (q + 1) = s := by
  have inside : q < u.uri.length := by
    by_contra outside
    rw [List.drop_eq_nil_iff.2 (Nat.le_of_not_lt outside)] at h
    cases h
  refine ⟨inside, by rw [deref_drop (Nat.le_of_lt inside), h, List.headD_cons], ?_⟩
  rw [← List.drop_drop, h]
  rfl

lemma drop_nil (hq : q ≤ u.uri.length) (h : u.uri.drop q = []) : q = u.uri.length ∧ u.deref q = some 0 :=
  ⟨Nat.le_antisymm hq (List.drop_eq_nil_iff.1 h), by rw [deref_drop hq, h, List.headD_nil]⟩

lemma scan_stop (h : u.deref q = some x) (hx : x = 0 ∨ x = c) : u.scan c q = some q := by
  rw [scan]
  split
  next e => rw [h] at e; cases e
  next e =>
    rw [h] at e
    cases e
    rw [if_pos hx]

lemma scan_next (h : u.deref q = some x) (hx : ¬(x = 0 ∨ x = c)) : u.scan c q = u.scan c (q + 1) := by
  rw [scan]
  split
  next e => rw [h] at e; cases e
  next e =>
    rw [h] at e
    cases e
    rw [if_neg hx]

/-- The loop ends, at the character or at the NUL. -/
lemma scan_upTo (h0 : 0 ∉ u.uri) (hq : q ≤ u.uri.length) :
    ∃ r, u.scan c q = some r ∧ q ≤ r ∧ r ≤ u.uri.length ∧ u.uri.drop r = upTo c (u.uri.drop q) := by
  generalize e : u.uri.drop q = s
  induction s generalizing q with
  | nil =>
    obtain ⟨-, last⟩ := drop_nil hq e
    exact ⟨q, scan_stop last (.inl rfl), Nat.le_refl q, hq, e⟩
  | cons x s ih =>
    obtain ⟨inside, here, behind⟩ := drop_cons e
    have hx : x ≠ 0 := by
      rintro rfl
      exact h0 (List.mem_of_mem_drop (e ▸ List.mem_cons_self))
    by_cases found : x = c
    · refine ⟨q, scan_stop here (.inr found), Nat.le_refl q, hq, ?_⟩
      rw [e, upTo, List.dropWhile_cons_of_neg (by simpa using found)]
    · obtain ⟨r, scan, le, hr, rest⟩ := ih inside behind
      refine ⟨r, by rw [scan_next here (not_or.2 ⟨hx, found⟩), scan], Nat.le_of_succ_le le, hr, ?_⟩
      rw [rest, upTo, upTo, List.dropWhile_cons_of_pos (by simpa using found)]

lemma upTo_head (c : UInt8) (s : List UInt8) : upTo c s = [] ∨ ∃ t, upTo c s = c :: t := by
  cases e : upTo c s with
  | nil => exact .inl rfl
  | cons x t =>
    have stop := List.head?_dropWhile_not (· ≠ c) s
    rw [← upTo, e] at stop
    obtain rfl : x = c := by simpa using stop
    exact .inr ⟨t, rfl⟩

/-- `urldecode` stays between its pointers. -/
lemma decode_eq {s len i : Nat} (hs : s + len ≤ u.uri.length) :
    u.decode s len i = some (urldecode ((u.uri.drop (s + i)).take (len - i))) := by
  induction hn : len - i using Nat.strong_induction_on generalizing i with
  | h n ih =>
  subst hn
  rw [decode]
  split
  next more =>
    obtain ⟨c, t, e⟩ := List.exists_cons_of_length_pos (l := u.uri.drop (s + i)) (by rw [List.length_drop]; omega)
    obtain ⟨-, here, rfl⟩ := drop_cons e
    have first : (u.uri.drop (s + i)).take (len - i) = c :: (u.uri.drop (s + i + 1)).take (len - (i + 1)) := by
      rw [e, show len - i = len - (i + 1) + 1 by omega, List.take_succ_cons]
    have rest := ih (len - (i + 1)) (by omega) rfl
    rw [first, urldecode_cons, here, rest]
    by_cases plus : c = '+'.toUInt8
    · simp only [Option.bind_eq_bind, Option.bind_some, plus, if_true]
      rfl
    simp only [Option.bind_eq_bind, Option.bind_some, if_neg plus]
    by_cases percent : c = '%'.toUInt8
    swap
    · rw [if_neg percent, if_neg fun h => percent h.1]
      rfl
    by_cases two : i + 2 < len
    · obtain ⟨a, t, e1⟩ := List.exists_cons_of_length_pos (l := u.uri.drop (s + i + 1)) (by rw [List.length_drop]; omega)
      obtain ⟨-, second, rfl⟩ := drop_cons e1
      obtain ⟨b, t, e2⟩ := List.exists_cons_of_length_pos (l := u.uri.drop (s + i + 1 + 1)) (by rw [List.length_drop]; omega)
      obtain ⟨-, third, rfl⟩ := drop_cons e2
      have behind := ih (len - (i + 3)) (by omega) rfl
      rw [if_pos percent, if_pos ⟨percent, two⟩, second, show s + i + 2 = s + i + 1 + 1 from rfl, third, behind, e1, e2,
        show len - (i + 1) = len - (i + 3) + 1 + 1 by omega]
      rfl
    · rw [if_pos percent, if_neg fun h => two h.2]
      match e1 : (u.uri.drop (s + i + 1)).take (len - (i + 1)) with
      | [] => rfl
      | [a] => rfl
      | a :: b :: t =>
        have length := congrArg List.length e1
        rw [List.length_take, List.length_cons, List.length_cons] at length
        omega
  next done =>
    rw [Nat.sub_eq_zero_of_le (Nat.le_of_not_lt done), List.take_zero]
    rfl

end

namespace Pointers

/-- The pointers are at a separator and at the `=` behind it, in front of the end. -/
structure AtPair (u : Uri) (p : Pointers) : Prop where
  key : u.deref p.key = some '?'.toUInt8 ∨ u.deref p.key = some '&'.toUInt8
  val : ∃ v, p.val = some v ∧ u.deref v = some '='.toUInt8 ∧ p.key < v ∧ v < u.uri.length

/-- The pointers point at what the parser has. -/
structure Points (u : Uri) (p : Pointers) (q : Parser) : Prop where
  inside : p.key ≤ u.uri.length
  bound : ∀ v ∈ p.val, v ≤ u.uri.length
  key : u.uri.drop p.key = q.key
  mark : q.key ≠ [] → ∃ t, q.key = '?'.toUInt8 :: t ∨ q.key = '&'.toUInt8 :: t
  val : q.key ≠ [] → ∃ v, p.val = some v ∧ p.key < v ∧ u.uri.drop v = q.val
  found : q.ok = true → q.key ≠ [] → ∃ t, q.val = '='.toUInt8 :: t
  ok : p.ok = q.ok

section
variable {u : Uri} {p : Pointers} {q : Parser}

/-- At a separator the second pointer goes to the next `=`. -/
lemma seek_points (h0 : 0 ∉ u.uri) {r : Nat} {c : UInt8} (hr : u.uri.drop r = c :: u.uri.drop (r + 1))
    (mark : c = '?'.toUInt8 ∨ c = '&'.toUInt8) (ok : Bool) :
    ∃ v x, u.scan '='.toUInt8 (r + 1) = some v ∧ u.deref v = some x ∧
      Points u { key := r, val := v, ok := ok && decide (x ≠ 0) } (Parser.seek (u.uri.drop r) ok) := by
  obtain ⟨inside, -, -⟩ := drop_cons hr
  obtain ⟨v, scan, le, hv, e⟩ := scan_upTo (c := '='.toUInt8) h0 (q := r + 1) inside
  have tail : upTo '='.toUInt8 (u.uri.drop r).tail = u.uri.drop v := by rw [hr, List.tail_cons, e]
  have zero : (u.uri.drop v).headD 0 ≠ 0 ↔ u.uri.drop v ≠ [] := by
    cases last : u.uri.drop v with
    | nil => simp
    | cons x t =>
      have : x ≠ 0 := by
        rintro rfl
        exact h0 (List.mem_of_mem_drop (last ▸ List.mem_cons_self))
      simpa using this
  refine ⟨v, _, scan, deref_drop hv, ⟨Nat.le_of_lt inside, ?_, rfl, fun _ => ?_, fun _ => ⟨v, rfl, le, tail.symm⟩, ?_, ?_⟩⟩
  · rintro w hw
    cases hw
    exact hv
  · rw [Parser.seek, hr]
    exact ⟨_, mark.imp (by rintro rfl; rfl) (by rintro rfl; rfl)⟩
  · intro h _
    rw [Parser.seek_ok, Bool.and_eq_true, decide_eq_true_iff] at h
    exact (upTo_head _ _).resolve_left h.2
  · rw [Parser.seek_ok, Parser.seek_val, tail]
    show (ok && decide _) = _
    rw [decide_eq_decide.2 zero]

lemma new_points (h0 : 0 ∉ u.uri) (hp : u.p ≤ u.uri.length) : ∃ p, new u = some p ∧ Points u p (Parser.new u) := by
  obtain ⟨r, scan, -, hr, e⟩ := scan_upTo (c := '?'.toUInt8) h0 hp
  have text : cStr (u.uri.drop u.p) = u.uri.drop u.p := cStr_eq fun h => h0 (List.mem_of_mem_drop h)
  rw [Parser.new, text, ← e, new, scan]
  simp only [Option.bind_eq_bind, Option.bind_some]
  obtain none | ⟨t, some⟩ := upTo_head '?'.toUInt8 (u.uri.drop u.p)
  · rw [← e] at none
    obtain ⟨-, last⟩ := drop_nil hr none
    rw [last, if_pos none]
    refine ⟨{ key := r }, rfl, hr, by simp, none, fun h => absurd rfl h, fun h => absurd rfl h, fun _ h => absurd rfl h, rfl⟩
  · rw [← e] at some
    obtain ⟨-, here, rfl⟩ := drop_cons some
    obtain ⟨v, x, scan, hx, points⟩ := seek_points h0 some (.inl rfl) true
    rw [here, if_neg (by rw [some]; exact List.cons_ne_nil _ _), scan]
    simp only [Option.bind_some, hx]
    exact ⟨_, if_neg (by decide), points⟩

lemma more_points (h0 : 0 ∉ u.uri) (h : Points u p q) : p.more u = some q.more := by
  rw [more, Parser.more, h.ok]
  cases q.ok with
  | false => rfl
  | true =>
    rw [if_pos rfl, deref_drop h.inside, h.key]
    cases e : q.key with
    | nil => rfl
    | cons x t =>
      have : x ≠ 0 := by
        rintro rfl
        exact h0 (List.mem_of_mem_drop ((h.key.trans e) ▸ List.mem_cons_self))
      simp [this]

/-- Where the parser converts to true. -/
lemma turn_points (h : Points u p q) (hm : q.more = true) : AtPair u p ∧ ∃ v t, p.val = some v ∧ p.key < v ∧
    u.uri.drop v = '='.toUInt8 :: t ∧ q.val = '='.toUInt8 :: t := by
  rw [Parser.more, Bool.and_eq_true, decide_eq_true_iff] at hm
  obtain ⟨v, hv, less, e⟩ := h.val hm.2
  obtain ⟨t, found⟩ := h.found hm.1 hm.2
  obtain ⟨inside, here, -⟩ := drop_cons (e.trans found)
  refine ⟨⟨?_, v, hv, here, less, inside⟩, v, t, hv, less, e.trans found, found⟩
  obtain ⟨t, mark⟩ := h.mark hm.2
  exact mark.imp (fun e => (drop_cons (h.key.trans e)).2.1) fun e => (drop_cons (h.key.trans e)).2.1

lemma next_points (h0 : 0 ∉ u.uri) (h : Points u p q) (hm : q.more = true) :
    ∃ p', p.next u = some p' ∧ Points u p' q.next ∧ p.key < p'.key := by
  obtain ⟨-, v, t, hv, less, e, found⟩ := turn_points h hm
  obtain ⟨inside, -, behind⟩ := drop_cons e
  obtain ⟨r, scan, le, hr, er⟩ := scan_upTo (c := '&'.toUInt8) h0 (q := v + 1) inside
  rw [Parser.next, found, List.tail_cons, ← behind, ← er, next, hv]
  simp only [Option.bind_eq_bind, Option.bind_some, scan]
  obtain none | ⟨t, some⟩ := upTo_head '&'.toUInt8 (u.uri.drop (v + 1))
  · rw [← er] at none
    obtain ⟨-, last⟩ := drop_nil hr none
    rw [last, if_pos none]
    refine ⟨⟨r, v, p.ok⟩, rfl, ⟨hr, ?_, none, fun h => absurd rfl h, fun h => absurd rfl h, fun _ h => absurd rfl h, h.ok⟩,
      by show p.key < r; omega⟩
    rintro w e
    exact h.bound w (hv.trans e)
  · rw [← er] at some
    obtain ⟨-, here, rfl⟩ := drop_cons some
    obtain ⟨w, x, scan, hx, points⟩ := seek_points h0 some (.inr rfl) q.ok
    rw [here, if_neg (by rw [some]; exact List.cons_ne_nil _ _), scan]
    simp only [Option.bind_some, hx, h.ok]
    exact ⟨_, if_neg (by decide), points, by show p.key < r; omega⟩

lemma between_le {m n : Nat} (h : m ≤ n) : between m n = some (n - m) := if_pos h

lemma pair_points (h0 : 0 ∉ u.uri) (h : Points u p q) (hm : q.more = true) : p.pair u = some q.pair := by
  obtain ⟨-, v, t, hv, less, e, found⟩ := turn_points h hm
  obtain ⟨inside, -, behind⟩ := drop_cons e
  obtain ⟨r, scan, -, hr, er⟩ := scan_upTo (c := '&'.toUInt8) h0 (Nat.le_of_lt inside)
  have rest : u.uri.drop r = upTo '&'.toUInt8 t := by
    rw [er, e, upTo, upTo, List.dropWhile_cons_of_pos (by decide)]
  have stop : v + 1 ≤ r := by
    have := upTo_length '&'.toUInt8 t
    have length := congrArg List.length behind
    rw [← rest, List.length_drop] at this
    rw [List.length_drop] at length
    omega
  have first : (u.uri.drop (p.key + 1 + 0)).take (v - (p.key + 1) - 0) = q.rawKey := by
    have lengths := congrArg List.length h.key
    have lengths' := congrArg List.length (e.trans found.symm)
    rw [List.length_drop] at lengths lengths'
    rw [Parser.rawKey, ← h.key, List.tail_drop, ← lengths', h.key, ← lengths]
    congr 1
    omega
  have second : (u.uri.drop (v + 1 + 0)).take (r - (v + 1) - 0) = q.rawValue := by
    have split := List.takeWhile_append_dropWhile (p := (· ≠ '&'.toUInt8)) (l := t)
    have lengths := congrArg List.length split
    rw [List.length_append, ← upTo, ← rest, List.length_drop, ← behind, List.length_drop] at lengths
    rw [Parser.rawValue, found, List.takeWhile_cons_of_pos (by decide), List.tail_cons, Nat.add_zero, behind]
    conv_lhs => rw [← split]
    rw [List.take_left']
    rw [← behind]
    omega
  rw [pair, hv, Parser.pair, ← first, ← second]
  simp only [Option.bind_eq_bind, Option.bind_some, between_le less, scan, between_le stop]
  rw [decode_eq (by omega), decode_eq (by omega)]
  rfl

/-- The loop goes as the walk does, and ends: with every turn the first pointer comes nearer to the end. -/
lemma loop_walk (h0 : 0 ∉ u.uri) (h : Points u p q) {n : Nat} (hn : u.uri.length < n + p.key) :
    ∃ turns last, loop u n p = some (turns, last) ∧ turns.map Prod.snd = q.walk.1.map Parser.pair ∧ Points u last q.walk.2 ∧
      (∀ t ∈ turns, AtPair u t.1) ∧ (turns.map (·.1.key) ++ [last.key]).Pairwise (· < ·) ∧
      ∀ k ∈ turns.map (·.1.key) ++ [last.key], p.key ≤ k := by
  induction n generalizing p q with
  | zero =>
    have := h.inside
    omega
  | succ n ih =>
    rw [loop, more_points h0 h, Parser.walk]
    cases hm : q.more with
    | false =>
      rw [dif_neg (by simp)]
      exact ⟨[], p, rfl, rfl, h, by simp, List.pairwise_singleton _ _, by simp⟩
    | true =>
      obtain ⟨p', next, points, less⟩ := next_points h0 h hm
      obtain ⟨turns, last, loop, pairs, ended, each, sorted, above⟩ := ih points (by omega)
      rw [dif_pos rfl]
      refine ⟨(p, q.pair) :: turns, last, ?_, ?_, ended, ?_, ?_, ?_⟩
      · simp only [Option.bind_eq_bind, Option.bind_some, if_true, pair_points h0 h hm, next, loop]
        rfl
      · rw [List.map_cons, List.map_cons, pairs]
      · exact List.forall_mem_cons.2 ⟨(turn_points h hm).1, each⟩
      · exact List.pairwise_cons.2 ⟨fun k hk => Nat.lt_of_lt_of_le less (above k hk), sorted⟩
      · exact List.forall_mem_cons.2 ⟨Nat.le_refl _, fun k hk => Nat.le_of_lt (Nat.lt_of_lt_of_le less (above k hk))⟩

end

/-- In a loop `while(p) { *p; ++p; }` no pointer leaves the text: whenever the parser converts to true its pointers are at a separator
    and at a `=` behind it, the first goes on with every turn, and the loop ends, with the pairs of `Parser.walk`. -/
theorem iteration_inside (h0 : 0 ∉ u.uri) (hp : u.p ≤ u.uri.length) : ∃ p turns last,
    new u = some p ∧ loop u (u.uri.length + 1) p = some (turns, last) ∧ (∀ t ∈ turns, AtPair u t.1) ∧
      (turns.map (·.1.key) ++ [last.key]).Pairwise (· < ·) ∧ last.key ≤ u.uri.length ∧ (∀ v ∈ last.val, v ≤ u.uri.length) ∧
      turns.map Prod.snd = (Parser.new u).walk.1.map Parser.pair := by
  obtain ⟨p, start, points⟩ := new_points h0 hp
  obtain ⟨turns, last, loop, pairs, ended, each, sorted, -⟩ := loop_walk h0 points (n := u.uri.length + 1) (by omega)
  exact ⟨p, turns, last, start, loop, each, sorted, ended.inside, ended.bound, pairs⟩

theorem iteration_inside_one : ∃ p turns last,
    new ⟨bytes "/x?a=1", 2⟩ = some p ∧ loop ⟨bytes "/x?a=1", 2⟩ 7 p = some (turns, last) ∧
      turns.map Prod.snd = (Parser.new ⟨bytes "/x?a=1", 2⟩).walk.1.map Parser.pair := by
  obtain ⟨p, turns, last, start, loop, -, -, -, -, pairs⟩ :=
    iteration_inside (u := ⟨bytes "/x?a=1", 2⟩) (by decide) (by decide)
  exact ⟨p, turns, last, start, loop, pairs⟩

end Pointers

end ArrowheadCore.Http.Uri
