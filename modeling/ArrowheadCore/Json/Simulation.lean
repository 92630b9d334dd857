import ArrowheadCore.Json.Represents
import Mathlib.Data.List.Forall2

/-!
# A run of gason

What the parser does in its buffer and with its nodes is what it does on texts: `turn_matches` says it of a turn,
`jsonParse_matches` of a run. A node is put into the ring of the innermost array or object only, and a ring that is
opened holds what was put into it, in this order.
-/

namespace ArrowheadCore.Json.Gason
open Lib

section
variable {β : Type} {toInt : List UInt8 → Int} {h h' : Heap} {pre : List UInt8} {C C' : Nat → Prop} {tail : Option Nat}
  {xs : List Nat} {rings : List (List Nat)} {n : Nat}

/-! ## Nodes -/

/-- Nodes of the other rings are not in this one. -/
lemma apart_of_nodup {i : Nat} (distinct : (xs :: rings).flatten.Nodup) (hi : i ∈ rings.flatten) : i ∉ xs := by
  rw [List.flatten_cons, List.nodup_append] at distinct
  exact fun hx => distinct.2.2 i hx i hi rfl

/-- A new node is put into the first ring. -/
lemma insert_ring {P : Heap → (Nat → Prop) → Content → β → Prop}
    (mono : ∀ {h h' C C' a b}, (∀ i, C i → h'[i]? = h[i]?) → (∀ i, C i → C' i) → P h C a b → P h' C' a b)
    (distinct : (xs :: rings).flatten.Nodup) (inside : ∀ i ∈ (xs :: rings).flatten, i < h.length)
    (ring : Ring.IsRing h tail xs) {bs : List β} (holds : List.Forall₂ (Holds h (P h (Settled h (xs :: rings)))) xs bs)
    {a : Content} {b : β} (ha : P h (Settled h (xs :: rings)) a b) :
    ∃ h', insert h tail a = some (some h.length, h') ∧ Ring.IsRing h' (some h.length) (xs ++ [h.length]) ∧
      List.Forall₂ (Holds h' (P h' (Settled h' ((xs ++ [h.length]) :: rings)))) (xs ++ [h.length]) (bs ++ [b]) ∧
      h'.length = h.length + 1 ∧ (∀ i, Settled h (xs :: rings) i → Settled h' ((xs ++ [h.length]) :: rings) i) ∧
      ∀ i < h.length, i ∉ xs → h'[i]? = h[i]? := by
  set h1 := h ++ [⟨a, none⟩] with hh1
  have lt : ∀ i ∈ xs, i < h.length := fun i hi => inside i (by simp [hi])
  have old : ∀ i < h.length, h1[i]? = h[i]? := fun i hi => List.getElem?_append_left hi
  have new : h1[h.length]? = some ⟨a, none⟩ := by simp [hh1]
  have fresh : (h.length :: xs).Nodup := by
    rw [List.flatten_cons] at distinct
    exact List.nodup_cons.2 ⟨fun hx => Nat.lt_irrefl _ (lt _ hx), (List.nodup_append.1 distinct).1⟩
  obtain ⟨h', run, ring', links⟩ := (ring.agree fun i hi => old i (lt i hi)).insertAfter fresh (by simp [hh1])
  have length : h'.length = h.length + 1 := by rw [links.length, hh1]; simp
  have frame : ∀ i < h.length, i ∉ xs → h'[i]? = h[i]? := by
    intro i hi hx
    rw [links.frame i, old i hi]
    simp only [List.mem_append, List.mem_singleton, not_or]
    exact ⟨hx, Nat.ne_of_lt hi⟩
  have settled : ∀ i, Settled h (xs :: rings) i → Settled h' ((xs ++ [h.length]) :: rings) i := by
    rintro i ⟨hi, out⟩
    refine ⟨by omega, ?_⟩
    simp only [List.flatten_cons, List.mem_append, not_or, List.mem_singleton] at out ⊢
    exact ⟨⟨out.1, Nat.ne_of_lt hi⟩, out.2⟩
  have agree : ∀ i, Settled h (xs :: rings) i → h'[i]? = h[i]? := by
    rintro i ⟨hi, out⟩
    exact frame i hi fun hx => out (by simp [hx])
  have carry : ∀ a b, P h (Settled h (xs :: rings)) a b → P h' (Settled h' ((xs ++ [h.length]) :: rings)) a b :=
    fun _ _ => mono agree settled
  refine ⟨h', by simp [insert, ← hh1, run], ring', ?_, length, settled, frame⟩
  refine List.rel_append (forall_holds holds (fun i hi => ?_) carry) (.cons ?_ .nil)
  · rw [links.val i, old i (lt i hi)]
  · obtain ⟨n, e, val⟩ := links.node new
    exact ⟨n, e, val ▸ carry a b ha⟩

/-- What is in a ring has a number of levels in common. -/
lemma levels {Q : Content → β → Prop} {f : β → JsonValue} {bs : List β}
    (h1 : List.Forall₂ (Holds h fun n b => Q n b ∧ ∃ k, Represents toInt h pre C k n.value (f b)) xs bs) :
    ∃ k, List.Forall₂ (Holds h fun n b => Q n b ∧ Represents toInt h pre C k n.value (f b)) xs bs := by
  induction h1 with
  | nil => exact ⟨0, .nil⟩
  | cons first _ ih =>
    obtain ⟨n, e, hq, k, hn⟩ := first
    obtain ⟨k', rest⟩ := ih
    have raise : ∀ {j} {o v}, Represents toInt h pre C j o v → j ≤ max k k' → Represents toInt h pre C (max k k') o v :=
      fun h2 le => h2.mono (fun _ _ => rfl) (fun _ hi => hi) List.prefix_rfl le
    refine ⟨max k k', .cons ⟨n, e, hq, raise hn (Nat.le_max_left k k')⟩ ?_⟩
    exact forall_holds rest (fun _ _ => rfl) fun _ _ h2 => ⟨h2.1, raise h2.2 (Nat.le_max_right k k')⟩

/-- The first ring is opened, and its nodes are settled then. -/
lemma cut_ring {P : Heap → (Nat → Prop) → Content → β → Prop}
    (mono : ∀ {h h' C C' a b}, (∀ i, C i → h'[i]? = h[i]?) → (∀ i, C i → C' i) → P h C a b → P h' C' a b)
    (distinct : (xs :: rings).flatten.Nodup) (inside : ∀ i ∈ (xs :: rings).flatten, i < h.length)
    (ring : Ring.IsRing h tail xs) {bs : List β} (holds : List.Forall₂ (Holds h (P h (Settled h (xs :: rings)))) xs bs) :
    ∃ h', Ring.cut h tail = some (xs.head?, h') ∧
      Ring.Listed h' (Settled h' rings) (P h' (Settled h' rings)) xs.head? bs ∧ h'.length = h.length ∧
      (∀ i, Settled h (xs :: rings) i → Settled h' rings i) ∧ ∀ i, i ∉ xs → h'[i]? = h[i]? := by
  have own : xs.Nodup := by
    rw [List.flatten_cons] at distinct
    exact (List.nodup_append.1 distinct).1
  obtain ⟨h', run, path, links⟩ := ring.cut own
  have settled : ∀ i, Settled h (xs :: rings) i → Settled h' rings i := by
    rintro i ⟨hi, out⟩
    exact ⟨links.length ▸ hi, fun hr => out (by simp only [List.flatten_cons, List.mem_append]; exact .inr hr)⟩
  have agree : ∀ i, Settled h (xs :: rings) i → h'[i]? = h[i]? := by
    rintro i ⟨-, out⟩
    exact links.frame i fun hx => out (by simp [hx])
  refine ⟨h', run, ?_, links.length, settled, links.frame⟩
  refine Ring.Listed.of_path path (fun i hi => ⟨?_, fun hr => apart_of_nodup distinct hr hi⟩) ?_
  · rw [links.length]
    exact inside i (by simp [hi])
  · exact forall_holds holds (fun i _ => links.val i) fun _ _ => mono agree settled

end

/-! ## Turns -/

/-- The variables of the parser stand for the state of the other one. -/
structure Simulates (toInt : List UInt8 → Int) (st : State) (m : Machine) : Prop where
  cursor : Cursor st.buf st.s m.rest
  separator : st.separator = m.separator
  frames : ∃ rings, Frames toInt st.heap (st.buf.take (st.s + 1)) st.frames m.stack rings

/-- A result of the parser stands for one of the other. -/
structure Gives (toInt : List UInt8 → Int) (st : State) (o : Cell) (v : JsonValue) (rest : Option (List UInt8)) : Prop where
  value : ∃ n, Represents toInt st.heap st.buf (fun _ => True) n o v
  endptr : Cursor st.buf st.endptr rest

inductive Matches (toInt : List UInt8 → Int) : Step → Move → Prop
  | beyond : Matches toInt none none
  | next {st : State} {m : Machine} : Simulates toInt st m → Matches toInt (some (.next st)) (some (.next m))
  | fails (status : JsonParseStatus) (st : State) :
    Matches toInt (some (.stop status (st, none))) (some (.stop status none))
  | ok {st : State} {o : Cell} {v : JsonValue} {rest : Option (List UInt8)} : Gives toInt st o v rest →
    Matches toInt (some (.stop .OK (st, some o))) (some (.stop .OK (some (v, rest))))

section
variable {toInt : List UInt8 → Int} {st : State} {m : Machine} {rings : List (List Nat)} {o : Cell} {v : JsonValue}
  {n i : Nat} {pre : List UInt8} {c : UInt8} {s : List UInt8}

lemma Matches.ite {p : Prop} [Decidable p] {x y : Step} {x' y' : Move} (h1 : p → Matches toInt x x')
    (h2 : ¬p → Matches toInt y y') : Matches toInt (if p then x else y) (if p then x' else y') := by
  split
  next h => exact h1 h
  next h => exact h2 h

lemma assign_matches (cursor : Cursor st.buf st.s m.rest)
    (frames : Frames toInt st.heap (st.buf.take (st.s + 1)) st.frames m.stack rings)
    (value : Represents toInt st.heap (st.buf.take (st.s + 1)) (Settled st.heap rings) n o v) :
    Matches toInt (assign o st) (put v m) := by
  obtain ⟨stacked, distinct, inside⟩ := frames
  obtain ⟨rest, stack, sep⟩ := m
  obtain ⟨buf, s, endptr, heap, fs, separator⟩ := st
  dsimp only at cursor stacked distinct inside value
  cases stacked with
  | nil =>
    refine .ok ⟨⟨n, value.mono (fun _ _ => rfl) (fun _ _ => trivial) (List.take_prefix _ buf) (Nat.le_refl n)⟩, cursor⟩
  | @cons f fs l ls xs rings first others =>
    -- the other frames keep what they have, whatever happens to the first ring
    have rest_of : ∀ {xs' : List Nat} {heap' : Heap}, (∀ i < heap.length, i ∉ xs → heap'[i]? = heap[i]?) →
        (∀ i, Settled heap (xs :: rings) i → Settled heap' (xs' :: rings) i) →
        Stacked toInt heap' (buf.take (s + 1)) (Settled heap' (xs' :: rings)) fs ls rings := by
      intro xs' heap' frame settled
      refine others.mono (fun i hi => frame i ?_ ?_) settled List.prefix_rfl
      · exact hi.elim (·.1) fun hr => inside i (by simp only [List.flatten_cons, List.mem_append]; exact .inr hr)
      · exact hi.elim (fun hs hx => hs.2 (by simp [hx])) (apart_of_nodup distinct)
    have grown : ∀ {heap' : Heap}, heap'.length = heap.length + 1 →
        ((xs ++ [heap.length]) :: rings).flatten.Nodup ∧ ∀ i ∈ ((xs ++ [heap.length]) :: rings).flatten, i < heap'.length := by
      intro heap' length
      have fresh : heap.length ∉ (xs :: rings).flatten := fun hx => Nat.lt_irrefl _ (inside _ hx)
      have order : ((xs ++ [heap.length]) :: rings).flatten.Perm (heap.length :: (xs :: rings).flatten) := by
        simp only [List.flatten_cons, List.append_assoc]
        exact List.perm_middle
      refine ⟨order.nodup_iff.2 (List.nodup_cons.2 ⟨fresh, distinct⟩), fun i hi => ?_⟩
      rw [length]
      rcases List.mem_cons.1 (order.mem_iff.1 hi) with rfl | hi
      · omega
      · exact Nat.lt_succ_of_lt (inside i hi)
    cases first with
    | @array tail items xs ring holds =>
      have isItem : IsItem toInt heap (buf.take (s + 1)) (Settled heap (xs :: rings)) ⟨o, none⟩ v :=
        ⟨rfl, n, value⟩
      obtain ⟨heap', run, ring', holds', length, settled, frame⟩ := insert_ring
        (P := fun h C => IsItem toInt h (buf.take (s + 1)) C) (fun same sub h1 => h1.mono same sub List.prefix_rfl)
        distinct inside ring holds isItem
      obtain ⟨distinct', inside'⟩ := grown length
      simp only [assign, put, run, Option.bind_eq_bind, Option.bind_some]
      exact .next ⟨cursor, rfl, _, .cons (.array ring' holds') (rest_of frame settled), distinct', inside'⟩
    | @object tail key members k xs ring holds keyed =>
      cases keyed with
      | none =>
        cases n with
        | zero => exact value.elim
        | succ n =>
          cases value with
          | string at_ =>
            exact .next ⟨cursor, rfl, _, .cons (.object ring holds (.some at_)) others, distinct, inside⟩
          | _ => exact .fails _ _
      | @some p k at_ =>
        have isMember : IsMember toInt heap (buf.take (s + 1)) (Settled heap (xs :: rings)) ⟨o, some p⟩ (k, v) :=
          ⟨⟨p, rfl, at_⟩, n, value⟩
        obtain ⟨heap', run, ring', holds', length, settled, frame⟩ := insert_ring
          (P := fun h C => IsMember toInt h (buf.take (s + 1)) C) (fun same sub h1 => h1.mono same sub List.prefix_rfl)
          distinct inside ring holds isMember
        obtain ⟨distinct', inside'⟩ := grown length
        simp only [assign, put, run, Option.bind_eq_bind, Option.bind_some]
        exact .next ⟨cursor, rfl, _, .cons (.object ring' holds' .none) (rest_of frame settled), distinct', inside'⟩

/-- Without its first ring, which has been opened. -/
lemma Frames.popped {f : Frame} {fs : List Frame} {l : Level} {ls : List Level} {h h' : Heap} {xs : List Nat}
    (frames : Frames toInt h pre (f :: fs) (l :: ls) (xs :: rings)) (length : h'.length = h.length)
    (settled : ∀ i, Settled h (xs :: rings) i → Settled h' rings i) (frame : ∀ i, i ∉ xs → h'[i]? = h[i]?) :
    Frames toInt h' pre fs ls rings := by
  obtain ⟨stacked, distinct, inside⟩ := frames
  cases stacked with
  | cons first others =>
    refine ⟨others.mono (fun i hi => frame i ?_) settled List.prefix_rfl, ?_, fun i hi => ?_⟩
    · exact hi.elim (fun hs hx => hs.2 (by simp [hx])) (apart_of_nodup distinct)
    · rw [List.flatten_cons] at distinct
      exact (List.nodup_append.1 distinct).2.1
    · rw [length]
      exact inside i (by simp only [List.flatten_cons, List.mem_append]; exact .inr hi)

lemma closeArray_matches (cursor : Cursor st.buf st.s m.rest)
    (frames : Frames toInt st.heap (st.buf.take (st.s + 1)) st.frames m.stack rings) :
    Matches toInt (close .array st) (closeArray m) := by
  obtain ⟨rest, stack, sep⟩ := m
  obtain ⟨buf, s, endptr, heap, fs, separator⟩ := st
  dsimp only at cursor frames
  have frames' := frames
  obtain ⟨stacked, distinct, inside⟩ := frames
  cases stacked with
  | nil => exact .fails _ _
  | cons first others =>
    cases first with
    | object => exact .fails _ _
    | @array tail items xs ring holds =>
      obtain ⟨k, holds⟩ := levels (f := id) holds
      obtain ⟨heap', run, listed, length, settled, frame⟩ := cut_ring
        (P := fun h C n (v : JsonValue) => n.key = none ∧ Represents toInt h (buf.take (s + 1)) C k n.value v)
        (fun same sub h1 => ⟨h1.1, h1.2.mono same sub List.prefix_rfl (Nat.le_refl k)⟩) distinct inside ring holds
      simp only [close, closeArray, run, Option.bind_eq_bind, Option.bind_some, ne_eq, not_true_eq_false, if_false, reduceCtorEq,
        false_and]
      exact assign_matches (n := k + 1) cursor (frames'.popped length settled frame) (.array listed)

lemma closeObject_matches (cursor : Cursor st.buf st.s m.rest)
    (frames : Frames toInt st.heap (st.buf.take (st.s + 1)) st.frames m.stack rings) :
    Matches toInt (close .object st) (closeObject m) := by
  obtain ⟨rest, stack, sep⟩ := m
  obtain ⟨buf, s, endptr, heap, fs, separator⟩ := st
  dsimp only at cursor frames
  have frames' := frames
  obtain ⟨stacked, distinct, inside⟩ := frames
  cases stacked with
  | nil => exact .fails _ _
  | cons first others =>
    cases first with
    | array => exact .fails _ _
    | @object tail key members k xs ring holds keyed =>
      cases keyed with
      | some => exact .fails _ _
      | none =>
        obtain ⟨k, holds⟩ := levels (f := Prod.snd) holds
        obtain ⟨heap', run, listed, length, settled, frame⟩ := cut_ring
          (P := fun h C n (m : List UInt8 × JsonValue) => (∃ p, n.key = some p ∧ StringAt (buf.take (s + 1)) p m.1) ∧
            Represents toInt h (buf.take (s + 1)) C k n.value m.2)
          (fun same sub h1 => ⟨h1.1, h1.2.mono same sub List.prefix_rfl (Nat.le_refl k)⟩) distinct inside ring holds
        simp only [close, closeObject, run, Option.bind_eq_bind, Option.bind_some, ne_eq, not_true_eq_false, if_false, and_false]
        exact assign_matches (n := k + 1) cursor (frames'.popped length settled frame) (.object listed)

/-- A new frame has an empty ring. -/
lemma Frames.pushed {f : Frame} {fs : List Frame} {l : Level} {ls : List Level} {h : Heap}
    (frames : Frames toInt h pre fs ls rings) (opens : Opens toInt h pre (Settled h ([] :: rings)) f l []) :
    Frames toInt h pre (f :: fs) (l :: ls) ([] :: rings) :=
  ⟨.cons opens frames.stacked, frames.distinct, frames.inside⟩

lemma open_matches (cursor : Cursor st.buf st.s m.rest)
    (frames : Frames toInt st.heap (st.buf.take (st.s + 1)) st.frames m.stack rings) {tag : JsonTag} {level : Level}
    (opens : ∀ h pre C, Opens toInt h pre C ⟨tag, none, none⟩ level []) :
    Matches toInt (open_ tag st) (openLevel level m) := by
  rw [open_, openLevel, frames.stacked.length]
  refine Matches.ite (fun _ => .fails _ _) fun _ => .next ⟨cursor, rfl, _, frames.pushed (opens _ _ _)⟩

lemma Opens.keyed {f : Frame} {l : Level} {h : Heap} {C : Nat → Prop} {xs : List Nat} (h1 : Opens toInt h pre C f l xs) :
    f.key.isSome = l.keyed := by
  cases h1 with
  | array => rfl
  | object _ _ key => cases key <;> rfl

lemma separate_matches (cursor : Cursor st.buf st.s m.rest) (same : st.separator = m.separator)
    (frames : Frames toInt st.heap (st.buf.take (st.s + 1)) st.frames m.stack rings) (keyed : Bool) :
    Matches toInt (separate keyed st) (separated keyed m) := by
  obtain ⟨rest, stack, sep⟩ := m
  obtain ⟨buf, s, endptr, heap, fs, separator⟩ := st
  dsimp only at cursor same frames
  subst same
  refine Matches.ite (fun _ => .fails _ _) fun _ => ?_
  have frames' := frames
  obtain ⟨stacked, -, -⟩ := frames
  cases stacked with
  | nil => exact .beyond
  | cons first others =>
    simp only [first.keyed]
    exact Matches.ite (fun _ => .fails _ _) fun _ => .next ⟨cursor, rfl, _, frames'⟩

/-- What a token is taken for. -/
lemma found_matches {pre : List UInt8} (frames : Frames toInt st.heap pre st.frames m.stack rings) {r : Found} {t : Token}
    (finds : Finds toInt pre r t) : Matches toInt (found st r) (taken m t) := by
  cases finds with
  | error status s => exact .fails _ _
  | ok cursor ahead value =>
    exact assign_matches cursor (frames.mono ahead) (value _ _)

/-- What a turn does at the first byte that is no blank. -/
lemma dispatch_matches (h : At st.buf i (c :: s)) (same : st.separator = m.separator)
    (frames : Frames toInt st.heap (st.buf.take (i + 1)) st.frames m.stack rings) (hs : st.s = i + 1) (he : st.endptr = i)
    (get : st.buf[st.s]? = some (s.headD 0)) :
    Matches toInt
      (if c = '-'.toUInt8 then do
        let d ← st.buf[st.s]?
        if !isdigit d && d ≠ '.'.toUInt8 then fails .BAD_NUMBER { st with endptr := st.s }
        else found st (numberAt st.buf st.endptr)
      else if isdigit c then found st (numberAt st.buf st.endptr)
      else if c = '"'.toUInt8 then found st (stringAt st.buf st.s)
      else if c = 't'.toUInt8 then found st (identifierAt st.buf st.endptr (bytes "rue") .true 3)
      else if c = 'f'.toUInt8 then found st (identifierAt st.buf st.endptr (bytes "alse") .false 4)
      else if c = 'n'.toUInt8 then found st (identifierAt st.buf st.endptr (bytes "ull") .false 4)
      else if c = ']'.toUInt8 then close .array st
      else if c = '}'.toUInt8 then close .object st
      else if c = '['.toUInt8 then open_ .array st
      else if c = '{'.toUInt8 then open_ .object st
      else if c = ':'.toUInt8 then separate Bool.true st
      else if c = ','.toUInt8 then separate Bool.false st
      else if c = 0 then return .next st
      else fails .UNEXPECTED_CHARACTER st) (dispatch toInt m c s) := by
  obtain ⟨rest, stack, sep⟩ := m
  obtain ⟨buf, p, endptr, heap, fs, separator⟩ := st
  dsimp only at h same frames hs he get ⊢
  subst hs he
  have behind := h.cons
  have ahead : Frames toInt heap (buf.take (endptr + 1 + 1)) fs stack rings := frames.mono (take_mono buf (Nat.le_succ _))
  have number : Matches toInt (found ⟨buf, endptr + 1, endptr, heap, fs, separator⟩ (numberAt buf endptr))
      (taken ⟨rest, stack, sep⟩ (readNumber toInt (c :: s))) := found_matches frames (numberAt_finds h)
  have identifier : ∀ {name o v n}, 0 ∉ name → n ≤ name.length + 1 → (∀ h pre C, Represents toInt h pre C 1 o v) →
      Matches toInt (found ⟨buf, endptr + 1, endptr, heap, fs, separator⟩ (identifierAt buf endptr name o n))
        (taken ⟨rest, stack, sep⟩ (readIdentifier name v n s)) :=
    fun h0 hn ho => found_matches frames (identifierAt_finds behind h0 hn ho)
  have cursor : Cursor buf (endptr + 1) (some s) := behind
  rw [dispatch]
  refine Matches.ite (fun _ => ?_) fun _ => ?_
  · rw [get, Option.bind_eq_bind, Option.bind_some]
    exact Matches.ite (fun _ => .fails _ _) fun _ => number
  refine Matches.ite (fun _ => number) fun _ => ?_
  refine Matches.ite (fun _ => found_matches frames (stringAt_finds behind)) fun _ => ?_
  refine Matches.ite (fun _ => identifier (by decide) (by decide) fun _ _ _ => .true) fun _ => ?_
  refine Matches.ite (fun _ => identifier (by decide) (by decide) fun _ _ _ => .false) fun _ => ?_
  refine Matches.ite (fun _ => identifier (by decide) (by decide) fun _ _ _ => .false) fun _ => ?_
  refine Matches.ite (fun _ => closeArray_matches cursor ahead) fun _ => ?_
  refine Matches.ite (fun _ => closeObject_matches cursor ahead) fun _ => ?_
  refine Matches.ite (fun _ => open_matches cursor ahead fun _ _ _ => .array (.empty _) .nil) fun _ => ?_
  refine Matches.ite (fun _ => open_matches cursor ahead fun _ _ _ => .object (.empty _) .nil .none) fun _ => ?_
  refine Matches.ite (fun _ => separate_matches cursor same ahead true) fun _ => ?_
  refine Matches.ite (fun _ => separate_matches cursor same ahead false) fun _ => ?_
  rw [if_neg fun c0 => h.2 (by simp [c0])]
  exact .fails _ _

/-- A turn of the parser is a turn of the other one. -/
lemma turn_matches (h : Simulates toInt st m) : Matches toInt (turn st) (move toInt m) := by
  obtain ⟨cursor, same, rings, frames⟩ := h
  obtain ⟨rest, stack, sep⟩ := m
  rw [turn, move]
  cases rest with
  | none =>
    rw [show st.buf[st.s]? = none from List.getElem?_eq_none_iff.2 (Nat.le_of_eq (Eq.symm cursor))]
    exact .beyond
  | some t =>
    have here : At st.buf st.s t := cursor
    rw [here.get, Option.bind_eq_bind, Option.bind_some]
    cases t with
    | nil => exact .fails _ _
    | cons c t =>
      rw [List.headD_cons, if_neg fun c0 => here.2 (by simp [c0])]
      obtain ⟨i, run, at_⟩ := here.skip (f := isspace) (by decide)
      have le : st.s ≤ i := by
        have l1 := here.length
        have l2 := at_.length
        have l3 := (List.dropWhile_suffix isspace (l := c :: t)).length_le
        omega
      have ahead := frames.mono (take_mono st.buf (Nat.add_le_add_right le 1))
      simp only [run, at_.get, Option.bind_eq_bind, Option.bind_some]
      cases e : (c :: t).dropWhile isspace with
      | nil =>
        -- the blanks go up to the NUL, and the position is behind it then
        rw [e] at at_
        have length := at_.length
        rw [List.length_nil] at length
        refine .next ⟨length.symm, same, rings, ?_⟩
        exact ahead.mono (take_mono st.buf (Nat.le_succ _))
      | cons d s =>
        rw [e] at at_
        exact dispatch_matches at_ same ahead rfl rfl at_.cons.get

end

/-! ## Runs -/

/-- What both parsers return. -/
inductive Agree (toInt : List UInt8 → Int) : Option (JsonParseStatus × State × Option Cell) →
    Option (JsonParseStatus × Option (JsonValue × Option (List UInt8))) → Prop
  | beyond : Agree toInt none none
  | fails (status : JsonParseStatus) (st : State) : Agree toInt (some (status, st, none)) (some (status, none))
  | ok {st : State} {o : Cell} {v : JsonValue} {rest : Option (List UInt8)} : Gives toInt st o v rest →
    Agree toInt (some (.OK, st, some o)) (some (.OK, some (v, rest)))

section
variable {toInt : List UInt8 → Int} {st : State} {m : Machine}

lemma run_agree (h : Simulates toInt st m) (n : Nat) : Agree toInt (run turn n st) (run (move toInt) n m) := by
  induction n generalizing st m with
  | zero => exact .beyond
  | succ n ih =>
    have one := turn_matches h
    rw [run, run]
    generalize turn st = x at one
    generalize move toInt m = x' at one
    cases one with
    | beyond => exact .beyond
    | next h' => exact ih h'
    | fails status st => exact .fails status st
    | ok gives => exact .ok gives

lemma start_simulates (toInt : List UInt8 → Int) {text : List UInt8} (h0 : 0 ∉ text) :
    Simulates toInt (start text) ⟨some text, [], true⟩ :=
  ⟨⟨rfl, h0⟩, rfl, [], .nil, .nil, by simp⟩

lemma jsonParse_agree (toInt : List UInt8 → Int) {text : List UInt8} (h0 : 0 ∉ text) :
    Agree toInt (jsonParse text) (parse toInt text) :=
  run_agree (start_simulates toInt h0) _

lemma Cursor.unique {buf : List UInt8} {i : Nat} {r r' : Option (List UInt8)} (h : Cursor buf i r) (h' : Cursor buf i r') :
    r = r' := by
  cases r with
  | none =>
    cases r' with
    | none => rfl
    | some s =>
      have := At.length h'
      have : i = buf.length := h
      omega
  | some s =>
    cases r' with
    | none =>
      have := At.length h
      have : i = buf.length := h'
      omega
    | some s' => exact congrArg some (List.append_cancel_right (h.1.symm.trans h'.1))

/-- A result stands for one value, and one text is left. -/
lemma Gives.unique {o : Cell} {v v' : JsonValue} {r r' : Option (List UInt8)} (h : Gives toInt st o v r)
    (h' : Gives toInt st o v' r') : v = v' ∧ r = r' := by
  obtain ⟨⟨_, value⟩, endptr⟩ := h
  obtain ⟨⟨_, value'⟩, endptr'⟩ := h'
  exact ⟨value.unique value', endptr.unique endptr'⟩

end

end ArrowheadCore.Json.Gason
