import ArrowheadCore.Http.Uri

/-!
# The query of a URI

Embedding of `Uri::Parser` (`http/crate/Uri.h`, `http/crate/Uri.cpp`). Its two pointers are what they point at: the rest of
the text up to the NUL. `Reading` says what the parser makes of a query; everything else is said about `Reading` and the
segments between the separators.
-/

namespace ArrowheadCore.Http.Uri
open Lib

/-! ## The parser -/

/-- C++ `from_hex` -/
def from_hex (ch : UInt8) : UInt8 :=
  if 48 ≤ ch.toNat ∧ ch.toNat ≤ 57 then ch - 48
  else if 97 ≤ ch.toNat ∧ ch.toNat ≤ 102 then ch - 87
  else if 65 ≤ ch.toNat ∧ ch.toNat ≤ 70 then ch - 55
  else 0

def urldecode : List UInt8 → List UInt8
  | [] => []
  | c :: s =>
    if c = '+'.toUInt8 then ' '.toUInt8 :: urldecode s
    else if c = '%'.toUInt8 then
      match s with
      | a :: b :: s => (from_hex a <<< 4 ||| from_hex b) :: urldecode s
      | s => c :: urldecode s
    else c :: urldecode s

/-- What a pointer points at that runs up to a character, or to the end. -/
def upTo (c : UInt8) (s : List UInt8) : List UInt8 := s.dropWhile (· ≠ c)

lemma upTo_length (c : UInt8) (s : List UInt8) : (upTo c s).length ≤ s.length := (List.dropWhile_suffix _).length_le

/-- C++ `Uri::Parser`. At the end of the text `val` is not read. -/
structure Parser where
  key : List UInt8
  val : List UInt8
  ok : Bool
  ahead : key ≠ [] → val.length < key.length

namespace Parser

/-- The value that belongs to a key is behind the next `=`. -/
def seek (key : List UInt8) (ok : Bool) : Parser where
  key := key
  val := upTo '='.toUInt8 key.tail
  ok := ok && decide (upTo '='.toUInt8 key.tail ≠ [])
  ahead h := by
    have := upTo_length '='.toUInt8 key.tail
    have := List.length_pos_iff.2 h
    rw [List.length_tail] at *
    omega

lemma seek_val (key : List UInt8) (ok : Bool) : (seek key ok).val = upTo '='.toUInt8 key.tail := rfl

lemma seek_ok (key : List UInt8) (ok : Bool) : (seek key ok).ok = (ok && decide ((seek key ok).val ≠ [])) := rfl

/-- The end of the text. -/
def finish (val : List UInt8) (ok : Bool) : Parser := ⟨[], val, ok, fun h => absurd rfl h⟩

/-- C++ `Parser(const Uri &uri)` -/
def new (u : Uri) : Parser :=
  let key := upTo '?'.toUInt8 (cStr (u.uri.drop u.p))
  if key = [] then finish [] true else seek key true

def next (p : Parser) : Parser :=
  let key := upTo '&'.toUInt8 p.val.tail
  if key = [] then finish p.val p.ok else seek key p.ok

/-- C++ `operator bool` -/
def more (p : Parser) : Bool := p.ok && decide (p.key ≠ [])

def check (p : Parser) : Bool := p.ok

/-- The text between the two pointers. -/
def rawKey (p : Parser) : List UInt8 := p.key.tail.take (p.key.length - p.val.length - 1)

/-- The text from the second pointer up to the next separator. -/
def rawValue (p : Parser) : List UInt8 := (p.val.takeWhile (· ≠ '&'.toUInt8)).tail

/-- C++ `operator*` -/
def pair (p : Parser) : List UInt8 × List UInt8 := (urldecode p.rawKey, urldecode p.rawValue)

lemma next_shorter {p : Parser} (h : p.more) : p.next.key.length < p.key.length := by
  have inside : p.key ≠ [] := by
    rw [more, Bool.and_eq_true] at h
    exact of_decide_eq_true h.2
  have := p.ahead inside
  have := upTo_length '&'.toUInt8 p.val.tail
  rw [List.length_tail] at this
  rw [next]
  split
  · exact List.length_pos_iff.2 inside
  · show (upTo '&'.toUInt8 p.val.tail).length < _
    omega

/-- C++ `while(p) ++p`: the parser wherever a pair can be retrieved, and the parser at the end. -/
def walk (p : Parser) : List Parser × Parser :=
  if _ : p.more then (p :: p.next.walk.1, p.next.walk.2) else ([], p)
termination_by p.key.length
decreasing_by all_goals exact next_shorter ‹_›

/-- A loop `while(p) { *p; ++p; }` takes the pairs one after another and stops at the first that it does not take. -/
lemma loop_pairs {α : Type} {take : α → List UInt8 × List UInt8 → Option α} {broken : α → α} {ended : Parser → α → α}
    {loop : Parser → α → α} (turn : ∀ p q, p.more → loop p q = ((take q p.pair).map (loop p.next)).getD (broken q))
    (done : ∀ p q, ¬p.more → loop p q = ended p q) (p : Parser) (q : α) :
    (∀ q', (p.walk.1.map pair).foldlM take q = some q' → loop p q = ended p.walk.2 q') ∧
      ((p.walk.1.map pair).foldlM take q = none → ∃ q', loop p q = broken q') := by
  induction hn : p.key.length using Nat.strong_induction_on generalizing p q with
  | h n ih =>
  by_cases more : p.more
  · rw [walk, dif_pos more, turn p q more, List.map_cons, List.foldlM_cons]
    cases e : take q p.pair with
    | none => exact ⟨nofun, fun _ => ⟨q, rfl⟩⟩
    | some q1 => exact ih _ (hn ▸ next_shorter more) p.next q1 rfl
  · rw [walk, dif_neg more, done p q more]
    refine ⟨fun q' h => ?_, nofun⟩
    cases h
    rfl

end Parser

/-! ## What the parser makes of a query -/

/-- The keys and values that are found in a query, as they stand there, and whether it ends well. The value is looked for
    without regard to the separators. -/
inductive Reading : List UInt8 → List (List UInt8 × List UInt8) → Bool → Prop
  | lacking {r : List UInt8} : '='.toUInt8 ∉ r → Reading r [] false
  | last {k v : List UInt8} : '='.toUInt8 ∉ k → '&'.toUInt8 ∉ v → Reading (k ++ '='.toUInt8 :: v) [(k, v)] true
  | more {k v r : List UInt8} {ps : List (List UInt8 × List UInt8)} {b : Bool} : '='.toUInt8 ∉ k → '&'.toUInt8 ∉ v →
    Reading r ps b → Reading (k ++ '='.toUInt8 :: (v ++ '&'.toUInt8 :: r)) ((k, v) :: ps) b

section
variable {r s : List UInt8} {c d : UInt8} {ps : List (List UInt8 × List UInt8)} {b : Bool}

lemma upTo_append (h : c ∉ s) (t : List UInt8) : upTo c (s ++ c :: t) = c :: t := by
  have pass : ∀ x ∈ s, decide (x ≠ c) = true := by
    intro x hx
    have : x ≠ c := fun e => h (e ▸ hx)
    simpa using this
  rw [upTo, List.dropWhile_append_of_pos pass, List.dropWhile_cons_of_neg (by simp)]

lemma upTo_eq_nil : upTo c s = [] ↔ c ∉ s := by
  rw [upTo, List.dropWhile_eq_nil_iff]
  simp only [ne_eq, decide_not, Bool.not_eq_true', decide_eq_false_iff_not]
  exact ⟨fun h mem => h c mem rfl, fun h x hx e => h (e ▸ hx)⟩

lemma takeWhile_ne (h : c ∉ s) : s.takeWhile (· ≠ c) = s :=
  List.takeWhile_eq_self_iff.2 fun x hx => by
    have : x ≠ c := fun e => h (e ▸ hx)
    simpa using this

lemma takeWhile_ne_append (h : c ∉ s) (t : List UInt8) : (s ++ c :: t).takeWhile (· ≠ c) = s := by
  have pass : ∀ x ∈ s, decide (x ≠ c) = true := List.takeWhile_eq_self_iff.1 (takeWhile_ne h)
  rw [List.takeWhile_append_of_pos pass, List.takeWhile_cons_of_neg (by simp), List.append_nil]

namespace Parser

/-- The parser at a key whose value begins behind `k`. -/
lemma seek_pair {k t : List UInt8} (hk : '='.toUInt8 ∉ k) (c : UInt8) :
    (seek (c :: (k ++ '='.toUInt8 :: t)) true).more = true ∧ (seek (c :: (k ++ '='.toUInt8 :: t)) true).rawKey = k ∧
      (seek (c :: (k ++ '='.toUInt8 :: t)) true).rawValue = t.takeWhile (· ≠ '&'.toUInt8) ∧
      (seek (c :: (k ++ '='.toUInt8 :: t)) true).next =
        if upTo '&'.toUInt8 t = [] then finish ('='.toUInt8 :: t) true else seek (upTo '&'.toUInt8 t) true := by
  have val : (seek (c :: (k ++ '='.toUInt8 :: t)) true).val = '='.toUInt8 :: t := upTo_append hk t
  have ok : (seek (c :: (k ++ '='.toUInt8 :: t)) true).ok = true := by
    rw [seek_ok, val]
    rfl
  refine ⟨?_, ?_, ?_, ?_⟩
  · rw [more, ok]
    simp [seek]
  · rw [rawKey, val]
    show (k ++ '='.toUInt8 :: t).take ((c :: (k ++ '='.toUInt8 :: t)).length - ('='.toUInt8 :: t).length - 1) = k
    have length : (c :: (k ++ '='.toUInt8 :: t)).length - ('='.toUInt8 :: t).length - 1 = k.length := by
      simp only [List.length_cons, List.length_append]
      omega
    rw [length, List.take_left]
  · rw [rawValue, val, List.takeWhile_cons_of_pos (by decide), List.tail_cons]
  · simp only [next, ok, val, List.tail_cons]

/-- What a walk finds, in terms of the text. -/
def raw (p : Parser) : List UInt8 × List UInt8 := (p.rawKey, p.rawValue)

lemma walk_finish (val : List UInt8) (ok : Bool) : (finish val ok).walk = ([], finish val ok) := by
  rw [walk, dif_neg]
  simp [more, finish]

lemma walk_seek (r : List UInt8) (c : UInt8) :
    Reading r ((seek (c :: r) true).walk.1.map raw) (seek (c :: r) true).walk.2.check := by
  induction hn : r.length using Nat.strong_induction_on generalizing r c with
  | h n ih =>
  by_cases lacking : '='.toUInt8 ∉ r
  · have val : (seek (c :: r) true).val = [] := upTo_eq_nil.2 lacking
    have ok : (seek (c :: r) true).ok = false := by
      rw [seek_ok, val]
      rfl
    rw [walk, dif_neg (by simp [more, ok])]
    show Reading r [] (seek (c :: r) true).ok
    rw [ok]
    exact .lacking lacking
  obtain ⟨k, t, rfl, hk⟩ := List.eq_append_cons_of_mem (not_not.1 lacking)
  obtain ⟨more, key, value, next⟩ := seek_pair (t := t) hk c
  rw [walk, dif_pos more, List.map_cons, raw, key, value, next]
  by_cases last : '&'.toUInt8 ∉ t
  · rw [if_pos (upTo_eq_nil.2 last), walk_finish, takeWhile_ne last]
    exact .last hk last
  obtain ⟨v, r', rfl, hv⟩ := List.eq_append_cons_of_mem (not_not.1 last)
  rw [upTo_append hv, if_neg (List.cons_ne_nil _ _), takeWhile_ne_append hv]
  refine .more hk hv (ih r'.length ?_ r' _ rfl)
  rw [← hn]
  simp only [List.length_append, List.length_cons]
  omega

end Parser

/-- The text behind the question mark that follows the position. -/
def query (u : Uri) : Option (List UInt8) :=
  match upTo '?'.toUInt8 (cStr (u.uri.drop u.p)) with
  | [] => none
  | _ :: r => some r

lemma walk_query {u : Uri} (h : u.query = some r) :
    Reading r ((Parser.new u).walk.1.map Parser.raw) (Parser.new u).walk.2.check := by
  rw [query] at h
  cases e : upTo '?'.toUInt8 (cStr (u.uri.drop u.p)) with
  | nil =>
    rw [e] at h
    cases h
  | cons c t =>
    rw [e] at h
    cases h
    rw [Parser.new, e]
    exact Parser.walk_seek r c

lemma walk_no_query {u : Uri} (h : u.query = none) : (Parser.new u).walk = ([], Parser.finish [] true) := by
  rw [query] at h
  cases e : upTo '?'.toUInt8 (cStr (u.uri.drop u.p)) with
  | nil =>
    rw [Parser.new, e]
    exact Parser.walk_finish [] true
  | cons c t =>
    rw [e] at h
    cases h

end

/-! ## Segments -/

/-- The parts of a query between the separators. -/
def segments (r : List UInt8) : List (List UInt8) := r.splitOn '&'.toUInt8

section
variable {r a k v t : List UInt8} {x : UInt8} {ps : List (List UInt8 × List UInt8)} {b : Bool}

lemma segments_one (h : '&'.toUInt8 ∉ r) : segments r = [r] := List.splitOn_eq_singleton h

lemma segments_append (r t : List UInt8) : segments (r ++ '&'.toUInt8 :: t) = segments r ++ segments t :=
  List.splitOn_append_cons_self r t

lemma segments_cons (h : '&'.toUInt8 ∉ a) (t : List UInt8) : segments (a ++ '&'.toUInt8 :: t) = a :: segments t := by
  rw [segments_append, segments_one h, List.singleton_append]

lemma segments_ne_nil (r : List UInt8) : segments r ≠ [] := List.splitOn_ne_nil _ r

/-- What a query is made of is in its segments, but for the separators. -/
lemma mem_segments (hx : x ≠ '&'.toUInt8) : (∃ seg ∈ segments r, x ∈ seg) ↔ x ∈ r := by
  induction hn : r.length using Nat.strong_induction_on generalizing r with
  | h n ih =>
  by_cases one : '&'.toUInt8 ∉ r
  · rw [segments_one one]
    simp
  obtain ⟨a, t, rfl, ha⟩ := List.eq_append_cons_of_mem (not_not.1 one)
  have shorter : t.length < n := by
    rw [← hn, List.length_append, List.length_cons]
    omega
  simp only [segments_cons ha, List.mem_cons, or_and_right, exists_or, exists_eq_left, ih t.length shorter rfl,
    List.mem_append, hx, false_or]

/-- A key that runs over a separator begins with a segment that has no `=`. -/
lemma segments_over (hk : '='.toUInt8 ∉ k) (past : '&'.toUInt8 ∈ k) (t : List UInt8) :
    ∃ a b, '='.toUInt8 ∉ a ∧ segments (k ++ '='.toUInt8 :: t) = a :: segments (b ++ '='.toUInt8 :: t) := by
  obtain ⟨a, b, rfl, ha⟩ := List.eq_append_cons_of_mem past
  refine ⟨a, b, fun mem => hk (List.mem_append_left _ mem), ?_⟩
  rw [List.append_assoc, List.cons_append, segments_cons ha]

lemma no_separator (hk : '&'.toUInt8 ∉ k) (hv : '&'.toUInt8 ∉ v) : '&'.toUInt8 ∉ k ++ '='.toUInt8 :: v := by
  rw [List.mem_append, List.mem_cons, not_or, not_or]
  exact ⟨hk, by decide, hv⟩

/-- If every segment has a `=`, the pairs are the segments. -/
lemma Reading.pairs (h : Reading r ps b) (all : ∀ seg ∈ segments r, '='.toUInt8 ∈ seg) :
    b = true ∧ segments r = ps.map fun q => q.1 ++ '='.toUInt8 :: q.2 := by
  have within : ∀ {k t : List UInt8}, '='.toUInt8 ∉ k → (∀ seg ∈ segments (k ++ '='.toUInt8 :: t), '='.toUInt8 ∈ seg) →
      '&'.toUInt8 ∉ k := by
    intro k t hk all past
    obtain ⟨a, b, ha, e⟩ := segments_over hk past t
    exact ha (all a (e ▸ List.mem_cons_self))
  induction h with
  | lacking lacking =>
    obtain ⟨seg, mem⟩ := List.exists_mem_of_ne_nil _ (segments_ne_nil _)
    exact absurd ((mem_segments (by decide)).1 ⟨seg, mem, all seg mem⟩) lacking
  | last hk hv => exact ⟨rfl, segments_one (no_separator (within hk all) hv)⟩
  | @more k v r ps b hk hv _ ih =>
    have e : segments (k ++ '='.toUInt8 :: (v ++ '&'.toUInt8 :: r)) = (k ++ '='.toUInt8 :: v) :: segments r := by
      rw [← List.cons_append, ← List.append_assoc]
      exact segments_cons (no_separator (within hk all) hv) r
    rw [e] at all ⊢
    obtain ⟨hb, rest⟩ := ih (List.forall_mem_cons.1 all).2
    exact ⟨hb, by rw [rest, List.map_cons]⟩

lemma last_append (a t : List UInt8) : (segments (a ++ '&'.toUInt8 :: t)).getLast? = (segments t).getLast? := by
  rw [segments_append, List.getLast?_append, List.getLast?_eq_some_getLast (segments_ne_nil t), Option.some_or]

lemma last_pair {seg : List UInt8} (hv : '&'.toUInt8 ∉ v) (last : (segments (k ++ '='.toUInt8 :: v)).getLast? = some seg) :
    '='.toUInt8 ∈ seg := by
  induction hn : k.length using Nat.strong_induction_on generalizing k with
  | h n ih =>
  by_cases one : '&'.toUInt8 ∉ k
  · rw [segments_one (no_separator one hv)] at last
    cases last
    simp
  obtain ⟨a, b, rfl, ha⟩ := List.eq_append_cons_of_mem (not_not.1 one)
  have shorter : b.length < n := by
    rw [← hn, List.length_append, List.length_cons]
    omega
  rw [List.append_assoc, List.cons_append, last_append] at last
  exact ih b.length shorter last rfl

/-- The parser ends well exactly if the last segment has a `=`. -/
lemma Reading.check (h : Reading r ps b) {seg : List UInt8} (last : (segments r).getLast? = some seg) :
    b = true ↔ '='.toUInt8 ∈ seg := by
  induction h with
  | lacking lacking =>
    have : '='.toUInt8 ∉ seg := fun mem =>
      lacking ((mem_segments (by decide)).1 ⟨seg, List.mem_of_getLast? last, mem⟩)
    simp [this]
  | last _ hv => simp [last_pair hv last]
  | more _ _ _ ih =>
    rw [← List.cons_append, ← List.append_assoc, last_append] at last
    exact ih last

/-- No segment without a `=` has one with a `=` behind it. -/
def Orderly (segs : List (List UInt8)) : Prop := segs.Pairwise fun s t => '='.toUInt8 ∈ t → '='.toUInt8 ∈ s

instance (segs : List (List UInt8)) : Decidable (Orderly segs) := inferInstanceAs (Decidable (List.Pairwise _ segs))

/-- If no key runs over a separator, the segments are orderly. -/
lemma Reading.orderly (h : Reading r ps b) (within : ∀ q ∈ ps, '&'.toUInt8 ∉ q.1) : Orderly (segments r) := by
  induction h with
  | @lacking r lacking =>
    refine List.pairwise_of_forall_mem_list fun s _ t ht mem => ?_
    exact absurd ((mem_segments (by decide)).1 ⟨t, ht, mem⟩) lacking
  | @last k v hk hv =>
    rw [segments_one (no_separator (within _ List.mem_cons_self) hv)]
    exact List.pairwise_singleton _ _
  | @more k v r ps b hk hv _ ih =>
    obtain ⟨hk', within⟩ := List.forall_mem_cons.1 within
    have e : segments (k ++ '='.toUInt8 :: (v ++ '&'.toUInt8 :: r)) = (k ++ '='.toUInt8 :: v) :: segments r := by
      rw [← List.cons_append, ← List.append_assoc]
      exact segments_cons (no_separator hk' hv) r
    rw [e]
    exact List.pairwise_cons.2 ⟨fun _ _ _ => by simp, ih within⟩

/-- If the segments are orderly, no key runs over a separator, and the parser ends badly if a segment has no `=`. -/
lemma Reading.of_orderly (h : Reading r ps b) (orderly : Orderly (segments r)) :
    (b = false ↔ ∃ seg ∈ segments r, '='.toUInt8 ∉ seg) ∧ ∀ q ∈ ps, '&'.toUInt8 ∉ q.1 := by
  have within : ∀ {k t : List UInt8}, '='.toUInt8 ∉ k → Orderly (segments (k ++ '='.toUInt8 :: t)) → '&'.toUInt8 ∉ k := by
    intro k t hk orderly past
    obtain ⟨a, b, ha, e⟩ := segments_over hk past t
    obtain ⟨seg, mem, eq⟩ := (mem_segments (r := b ++ '='.toUInt8 :: t) (x := '='.toUInt8) (by decide)).2 (by simp)
    rw [e] at orderly
    exact ha ((List.pairwise_cons.1 orderly).1 seg mem eq)
  induction h with
  | @lacking r lacking =>
    obtain ⟨seg, mem⟩ := List.exists_mem_of_ne_nil _ (segments_ne_nil r)
    have none : '='.toUInt8 ∉ seg := fun eq => lacking ((mem_segments (by decide)).1 ⟨seg, mem, eq⟩)
    exact ⟨iff_of_true rfl ⟨seg, mem, none⟩, by simp⟩
  | @last k v hk hv =>
    have hk' := within hk orderly
    rw [segments_one (no_separator hk' hv)]
    exact ⟨by simp, by simpa using hk'⟩
  | @more k v r ps b hk hv _ ih =>
    have hk' := within hk orderly
    have e : segments (k ++ '='.toUInt8 :: (v ++ '&'.toUInt8 :: r)) = (k ++ '='.toUInt8 :: v) :: segments r := by
      rw [← List.cons_append, ← List.append_assoc]
      exact segments_cons (no_separator hk' hv) r
    rw [e] at orderly ⊢
    obtain ⟨iff, rest⟩ := ih (List.pairwise_cons.1 orderly).2
    exact ⟨by simp [iff], List.forall_mem_cons.2 ⟨hk', rest⟩⟩

end

/-! ## Malformed queries -/

/-- The parser ends badly exactly if a segment has no `=`, and no key has text from more than one segment. -/
def Detects (u : Uri) (r : List UInt8) : Prop :=
  ((Parser.new u).walk.2.check = false ↔ ∃ seg ∈ segments r, '='.toUInt8 ∉ seg) ∧
    ∀ p ∈ (Parser.new u).walk.1, '&'.toUInt8 ∉ p.rawKey

theorem detects_iff {u : Uri} {r : List UInt8} (h : u.query = some r) : Detects u r ↔ Orderly (segments r) := by
  have reading := walk_query h
  have keys : (∀ p ∈ (Parser.new u).walk.1, '&'.toUInt8 ∉ p.rawKey) ↔
      ∀ q ∈ (Parser.new u).walk.1.map Parser.raw, '&'.toUInt8 ∉ q.1 := by
    rw [List.forall_mem_map]
    rfl
  rw [Detects, keys]
  exact ⟨fun detects => reading.orderly detects.2, reading.of_orderly⟩

theorem detects_lacking : Detects ⟨bytes "/x?a=1&b", 0⟩ (bytes "a=1&b") :=
  (detects_iff (u := ⟨bytes "/x?a=1&b", 0⟩) (r := bytes "a=1&b") (by decide)).2 (by decide)

/-- In `a&b=1` the segment `a` has no `=`, and the parser ends well. -/
theorem undetected : (⟨bytes "/x?a&b=1", 0⟩ : Uri).query = some (bytes "a&b=1") ∧
    (∃ seg ∈ segments (bytes "a&b=1"), '='.toUInt8 ∉ seg) ∧
    (Parser.new ⟨bytes "/x?a&b=1", 0⟩).walk.2.check = true ∧ ¬Detects ⟨bytes "/x?a&b=1", 0⟩ (bytes "a&b=1") := by
  have query : (⟨bytes "/x?a&b=1", 0⟩ : Uri).query = some (bytes "a&b=1") := by decide
  have last : (segments (bytes "a&b=1")).getLast? = some (bytes "b=1") := by decide
  have well := ((walk_query query).check last).2 (by decide)
  have lacking : ∃ seg ∈ segments (bytes "a&b=1"), '='.toUInt8 ∉ seg := ⟨bytes "a", by decide, by decide⟩
  refine ⟨query, lacking, well, fun detects => ?_⟩
  rw [detects.1.2 lacking] at well
  cases well

/-! ## The pairs of a query -/

/-- The text in front of the first `=` of a segment, and the text behind it. -/
def splitPair (seg : List UInt8) : List UInt8 × List UInt8 := (seg.takeWhile (· ≠ '='.toUInt8), (upTo '='.toUInt8 seg).tail)

/-- What a segment says. -/
def pairOf (seg : List UInt8) : List UInt8 × List UInt8 := (urldecode (splitPair seg).1, urldecode (splitPair seg).2)

section
variable {r k v : List UInt8} {ps : List (List UInt8 × List UInt8)} {b : Bool}

lemma splitPair_join (hk : '='.toUInt8 ∉ k) (v : List UInt8) : splitPair (k ++ '='.toUInt8 :: v) = (k, v) := by
  rw [splitPair, takeWhile_ne_append hk, upTo_append hk, List.tail_cons]

lemma Reading.keys (h : Reading r ps b) : ∀ q ∈ ps, '='.toUInt8 ∉ q.1 := by
  induction h with
  | lacking => simp
  | last hk _ => simpa using hk
  | more hk _ _ ih => exact List.forall_mem_cons.2 ⟨hk, ih⟩

lemma Reading.split (h : Reading r ps b) (all : ∀ seg ∈ segments r, '='.toUInt8 ∈ seg) :
    b = true ∧ ps = (segments r).map splitPair := by
  obtain ⟨hb, e⟩ := h.pairs all
  refine ⟨hb, ?_⟩
  have undo : ps.map (splitPair ∘ fun q => q.1 ++ '='.toUInt8 :: q.2) = ps.map id :=
    List.map_congr_left fun q hq => splitPair_join (h.keys q hq) q.2
  rw [e, List.map_map, undo, List.map_id]

/-- If every segment has a `=`, the pairs are those of the segments. -/
lemma walk_pairs {u : Uri} (h : u.query = some r) (all : ∀ seg ∈ segments r, '='.toUInt8 ∈ seg) :
    (Parser.new u).walk.2.check = true ∧ (Parser.new u).walk.1.map Parser.pair = (segments r).map pairOf := by
  obtain ⟨check, raws⟩ := (walk_query h).split all
  refine ⟨check, ?_⟩
  have decoded : (Parser.new u).walk.1.map Parser.pair =
      ((Parser.new u).walk.1.map Parser.raw).map fun q => (urldecode q.1, urldecode q.2) := by
    rw [List.map_map]
    rfl
  rw [decoded, raws, List.map_map]
  rfl

end

/-! ## Round trip -/

def isUnreserved (c : UInt8) : Bool := isalnum c || (bytes "-._~").contains c

/-- A text that stands for these bytes: unreserved characters as they are, any byte in hexadecimal digits of either case,
    and a blank as a plus. -/
inductive Encodes : List UInt8 → List UInt8 → Prop
  | nil : Encodes [] []
  | plain {c : UInt8} {s t : List UInt8} : isUnreserved c → Encodes s t → Encodes (c :: s) (c :: t)
  | hex {a b : UInt8} {s t : List UInt8} : isDigitOf 16 a → isDigitOf 16 b → Encodes s t →
    Encodes ('%'.toUInt8 :: a :: b :: s) (UInt8.ofNat (16 * digitVal a + digitVal b) :: t)
  | space {s t : List UInt8} : Encodes s t → Encodes ('+'.toUInt8 :: s) (' '.toUInt8 :: t)

/-- The query in which these keys and values stand. -/
def written (raws : List (List UInt8 × List UInt8)) : List UInt8 :=
  ['&'.toUInt8].intercalate (raws.map fun q => q.1 ++ '='.toUInt8 :: q.2)

section
variable {s t : List UInt8} {a b : UInt8}

lemma from_hex_eq (h : isDigitOf 16 a) : from_hex a = UInt8.ofNat (digitVal a) := by
  have digit := isDigitOf_iff.1 h
  have sub : ∀ k : UInt8, k.toNat ≤ a.toNat → a - k = UInt8.ofNat (a.toNat - k.toNat) := by
    intro k hk
    have small : a.toNat - k.toNat < UInt8.size := Nat.lt_of_le_of_lt (Nat.sub_le _ _) a.toNat_lt
    apply UInt8.toNat_inj.1
    rw [UInt8.toNat_sub_of_le _ _ (UInt8.le_iff_toNat_le.2 hk), UInt8.toNat_ofNat_of_lt' small]
  rw [digitVal] at digit ⊢
  rw [from_hex]
  split
  next decimal => exact sub 48 decimal.1
  next decimal =>
    rw [if_neg decimal] at digit
    split
    next lower =>
      rw [if_pos (by omega)]
      exact sub 87 (by show 87 ≤ _; omega)
    next lower =>
      by_cases letter : 97 ≤ a.toNat ∧ a.toNat ≤ 122
      · rw [if_pos letter] at digit
        omega
      rw [if_neg letter] at digit ⊢
      split at digit
      next upper =>
        rw [if_pos (by omega), if_pos upper]
        exact sub 55 (by show 55 ≤ _; omega)
      · omega

lemma hex_byte (h1 : isDigitOf 16 a) (h2 : isDigitOf 16 b) :
    from_hex a <<< 4 ||| from_hex b = UInt8.ofNat (16 * digitVal a + digitVal b) := by
  have nibbles : ∀ x y : Fin 16, UInt8.ofNat x <<< 4 ||| UInt8.ofNat y = UInt8.ofNat (16 * x + y) := by decide
  rw [from_hex_eq h1, from_hex_eq h2]
  exact nibbles ⟨_, isDigitOf_iff.1 h1⟩ ⟨_, isDigitOf_iff.1 h2⟩

lemma urldecode_cons (c : UInt8) (s : List UInt8) : urldecode (c :: s) =
    if c = '+'.toUInt8 then ' '.toUInt8 :: urldecode s
    else if c = '%'.toUInt8 then
      match s with
      | a :: b :: s => (from_hex a <<< 4 ||| from_hex b) :: urldecode s
      | s => c :: urldecode s
    else c :: urldecode s := by
  match s with
  | [] => rfl
  | [_] => rfl
  | _ :: _ :: _ => rfl

lemma urldecode_encodes (h : Encodes s t) : urldecode s = t := by
  induction h with
  | nil => rfl
  | @plain c s t hc _ ih =>
    have plus : c ≠ '+'.toUInt8 := by
      rintro rfl
      revert hc
      decide
    have percent : c ≠ '%'.toUInt8 := by
      rintro rfl
      revert hc
      decide
    rw [urldecode_cons, if_neg plus, if_neg percent, ih]
  | hex h1 h2 _ ih =>
    rw [urldecode_cons, if_neg (by decide), if_pos rfl]
    show _ :: urldecode _ = _
    rw [hex_byte h1 h2, ih]
  | space _ ih => rw [urldecode_cons, if_pos rfl, ih]

/-- Nothing that has a meaning in a query stands in an encoded text. -/
lemma Encodes.not_mem (h : Encodes s t) {c : UInt8} (h1 : isUnreserved c = false) (h2 : isDigitOf 16 c = false)
    (h3 : c ≠ '%'.toUInt8) (h4 : c ≠ '+'.toUInt8) : c ∉ s := by
  induction h with
  | nil => simp
  | plain hc _ ih =>
    rw [List.mem_cons, not_or]
    refine ⟨?_, ih⟩
    rintro rfl
    rw [hc] at h1
    cases h1
  | hex ha hb _ ih =>
    simp only [List.mem_cons, not_or]
    refine ⟨h3, ?_, ?_, ih⟩
    · rintro rfl
      rw [ha] at h2
      cases h2
    · rintro rfl
      rw [hb] at h2
      cases h2
  | space _ ih => exact List.not_mem_cons_of_ne_of_not_mem h4 ih

end

lemma written_segments {raws : List (List UInt8 × List UInt8)} (hne : raws ≠ [])
    (h : ∀ q ∈ raws, '&'.toUInt8 ∉ q.1 ∧ '&'.toUInt8 ∉ q.2) :
    segments (written raws) = raws.map fun q => q.1 ++ '='.toUInt8 :: q.2 := by
  refine List.splitOn_intercalate _ (fun seg mem => ?_) (by simpa using hne)
  obtain ⟨q, hq, rfl⟩ := List.mem_map.1 mem
  exact no_separator (h q hq).1 (h q hq).2

/-- A character that stands in no key and no value, and separates nothing, does not stand in the query. -/
lemma written_not_mem {raws : List (List UInt8 × List UInt8)} {c : UInt8} (amp : c ≠ '&'.toUInt8) (eq : c ≠ '='.toUInt8)
    (h : ∀ q ∈ raws, c ∉ q.1 ∧ c ∉ q.2) : c ∉ written raws := by
  induction raws with
  | nil => simp [written]
  | cons q raws ih =>
    obtain ⟨⟨hk, hv⟩, rest⟩ := List.forall_mem_cons.1 h
    have ih := ih rest
    have first : c ∉ q.1 ++ '='.toUInt8 :: q.2 := by
      rw [List.mem_append, List.mem_cons, not_or, not_or]
      exact ⟨hk, eq, hv⟩
    cases raws with
    | nil => simpa [written] using first
    | cons q' raws =>
      rw [written, List.map_cons, List.intercalate_cons_of_ne_nil (by simp)]
      simp only [List.mem_append, List.mem_singleton, not_or]
      exact ⟨⟨by simpa using first, amp⟩, ih⟩

/-- What is written behind a path comes back, with any mixture of the encodings of a byte. -/
theorem parser_round_trip {path : List UInt8} {p : Nat} {raws pairs : List (List UInt8 × List UInt8)} (h0 : 0 ∉ path)
    (hq : '?'.toUInt8 ∉ path) (hp : p ≤ path.length) (hne : pairs ≠ [])
    (encoded : List.Forall₂ (fun raw pair => Encodes raw.1 pair.1 ∧ Encodes raw.2 pair.2) raws pairs) :
    (Parser.new ⟨path ++ '?'.toUInt8 :: written raws, p⟩).walk.1.map Parser.pair = pairs ∧
      (Parser.new ⟨path ++ '?'.toUInt8 :: written raws, p⟩).walk.2.check = true := by
  have each : ∀ q ∈ raws, ∃ pair : List UInt8 × List UInt8, Encodes q.1 pair.1 ∧ Encodes q.2 pair.2 := by
    clear hne
    induction encoded with
    | nil => simp
    | cons h _ ih => exact List.forall_mem_cons.2 ⟨⟨_, h⟩, ih⟩
  have absent : ∀ {c : UInt8}, isUnreserved c = false → isDigitOf 16 c = false → c ≠ '%'.toUInt8 → c ≠ '+'.toUInt8 →
      ∀ q ∈ raws, c ∉ q.1 ∧ c ∉ q.2 := by
    intro c h1 h2 h3 h4 q hq
    obtain ⟨pair, hk, hv⟩ := each q hq
    exact ⟨hk.not_mem h1 h2 h3 h4, hv.not_mem h1 h2 h3 h4⟩
  have nul : 0 ∉ written raws :=
    written_not_mem (by decide) (by decide) (absent (by decide) (by decide) (by decide) (by decide))
  have query : (⟨path ++ '?'.toUInt8 :: written raws, p⟩ : Uri).query = some (written raws) := by
    have text : cStr ((path ++ '?'.toUInt8 :: written raws).drop p) = path.drop p ++ '?'.toUInt8 :: written raws := by
      rw [List.drop_append_of_le_length hp, cStr_eq]
      simp only [List.mem_append, List.mem_cons, not_or]
      exact ⟨fun mem => h0 (List.mem_of_mem_drop mem), by decide, nul⟩
    rw [Uri.query, text, upTo_append fun mem => hq (List.mem_of_mem_drop mem)]
  have raws_ne : raws ≠ [] := by
    rintro rfl
    cases encoded
    exact hne rfl
  have segs := written_segments raws_ne (absent (by decide) (by decide) (by decide) (by decide))
  have all : ∀ seg ∈ segments (written raws), '='.toUInt8 ∈ seg := by
    rw [segs]
    intro seg mem
    obtain ⟨q, -, rfl⟩ := List.mem_map.1 mem
    simp
  obtain ⟨check, found⟩ := walk_pairs query all
  refine ⟨?_, check⟩
  have noEq : ∀ q ∈ raws, '='.toUInt8 ∉ q.1 := fun q hq =>
    (absent (by decide) (by decide) (by decide) (by decide) q hq).1
  rw [found, segs, List.map_map]
  clear found check all segs raws_ne query nul absent each hne
  induction encoded with
  | nil => rfl
  | @cons q pair raws pairs h _ ih =>
    have first : pairOf (q.1 ++ '='.toUInt8 :: q.2) = pair := by
      rw [pairOf, splitPair_join (noEq q List.mem_cons_self), urldecode_encodes h.1, urldecode_encodes h.2]
    rw [List.map_cons, ih fun q hq => noEq q (List.mem_cons_of_mem _ hq)]
    exact congrArg (· :: pairs) first

theorem parser_round_trip_dash : (Parser.new ⟨bytes "/x" ++ '?'.toUInt8 :: written [(bytes "%2f+", []), ([], bytes "-")], 0⟩).walk.1.map
      Parser.pair = [(bytes "/ ", []), ([], bytes "-")] ∧
    (Parser.new ⟨bytes "/x" ++ '?'.toUInt8 :: written [(bytes "%2f+", []), ([], bytes "-")], 0⟩).walk.2.check = true := by
  have nul : 0 ∉ bytes "/x" := by decide
  have mark : '?'.toUInt8 ∉ bytes "/x" := by decide
  refine parser_round_trip nul mark (Nat.zero_le _) (by simp) ?_
  have slash : Encodes (bytes "%2f+") (bytes "/ ") := .hex (by decide) (by decide) (.space .nil)
  exact .cons ⟨slash, .nil⟩ (.cons ⟨.nil, .plain (by decide) .nil⟩ .nil)

/-- Behind a NUL in the path the parser finds nothing. -/
theorem parser_misses_nul : (Parser.new ⟨[0] ++ '?'.toUInt8 :: written [([], [])], 0⟩).walk.1.map Parser.pair ≠ [([], [])] := by
  rw [walk_no_query (u := ⟨[0] ++ '?'.toUInt8 :: written [([], [])], 0⟩) (by decide)]
  simp

end ArrowheadCore.Http.Uri
