import ArrowheadCore.Json.Machine

/-!
# What the nodes of gason stand for

A value of `jsonParse` stands for a tree: a string for the C string in the buffer, and an array or object for what the
list of its nodes holds. While it parses, the nodes of the arrays and objects that are still open lie in rings apart from
each other, and all other nodes, which nothing changes any more, belong to values. `Frames` says so.
-/

namespace ArrowheadCore.Json.Gason
open Lib

/-- The C string at a position, with its NUL. -/
def StringAt (pre : List UInt8) (i : Nat) (s : List UInt8) : Prop := ∃ rest, pre.drop i = s ++ 0 :: rest ∧ 0 ∉ s

section
variable (toInt : List UInt8 → Int) (h : Heap) (pre : List UInt8) (C : Nat → Prop)

/-- A cell stands for a value whose parts are `V`. -/
inductive Stands (V : Cell → JsonValue → Prop) : Cell → JsonValue → Prop
  | true : Stands V .true .true
  | false : Stands V .false .false
  | number (text : List UInt8) : Stands V (.number text) (.number (toInt text))
  | string {i : Nat} {s : List UInt8} : StringAt pre i s → Stands V (.string i) (.string s)
  | array {head : Option Nat} {items : List JsonValue} :
    Ring.Listed h C (fun n v => n.key = none ∧ V n.value v) head items → Stands V (.nodes .array head) (.array items)
  | object {head : Option Nat} {members : List (List UInt8 × JsonValue)} :
    Ring.Listed h C (fun n m => (∃ k, n.key = some k ∧ StringAt pre k m.1) ∧ V n.value m.2) head members →
    Stands V (.nodes .object head) (.object members)

/-- A cell stands for a value with `n` levels at most; its strings are in `pre`, and its nodes in `C`. -/
def Represents : Nat → Cell → JsonValue → Prop
  | 0 => fun _ _ => False
  | n + 1 => Stands toInt h pre C (Represents n)

end

section
variable {toInt : List UInt8 → Int} {h h' : Heap} {pre pre' : List UInt8} {C C' : Nat → Prop} {n n' i : Nat} {o : Cell}
  {v v' : JsonValue} {s t w : List UInt8}

lemma StringAt.mono (h1 : StringAt pre i s) (hp : pre <+: pre') : StringAt pre' i s := by
  obtain ⟨rest, e, h0⟩ := h1
  obtain ⟨u, rfl⟩ := hp
  have le : i ≤ pre.length := by
    by_contra hn
    rw [List.drop_eq_nil_of_le (by omega)] at e
    simp at e
  refine ⟨rest ++ u, ?_, h0⟩
  rw [List.drop_append_of_le_length le, e]
  simp

lemma StringAt.unique (h1 : StringAt pre i s) (h2 : StringAt pre i t) : s = t := by
  obtain ⟨r1, e1, z1⟩ := h1
  obtain ⟨r2, e2, z2⟩ := h2
  have ends : ∀ r : List UInt8, cStr (0 :: r) = [] := fun _ => rfl
  have c1 := congrArg cStr e1
  rwa [e2, cStr_append z1, cStr_append z2, ends, ends, List.append_nil, List.append_nil, eq_comm] at c1

/-- The first NUL ends a C string. -/
lemma cStr_split (w t : List UInt8) : 0 ∉ cStr w ∧ ∃ rest, w ++ 0 :: t = cStr w ++ 0 :: rest := by
  induction w with
  | nil => exact ⟨by simp [cStr], t, rfl⟩
  | cons c w ih =>
    obtain ⟨zero, rest, e⟩ := ih
    by_cases hc : c = 0
    · exact ⟨by simp [cStr, hc], w ++ 0 :: t, by simp [cStr, hc]⟩
    · have step : cStr (c :: w) = c :: cStr w := by simp [cStr, hc]
      rw [step]
      exact ⟨by simp [zero, Ne.symm hc], rest, by rw [List.cons_append, e, List.cons_append]⟩

/-- What the bytes in front of a NUL are as a C string. -/
lemma StringAt.of_drop (e : pre.drop i = w ++ 0 :: t) : StringAt pre i (cStr w) := by
  obtain ⟨zero, rest, split⟩ := cStr_split w t
  exact ⟨rest, e.trans split, zero⟩

/-- A value stays what it is while its nodes do, and while nothing is written in front of the position. -/
lemma Represents.mono (h1 : Represents toInt h pre C n o v) (same : ∀ i, C i → h'[i]? = h[i]?) (sub : ∀ i, C i → C' i)
    (hp : pre <+: pre') (hn : n ≤ n') : Represents toInt h' pre' C' n' o v := by
  induction n generalizing n' o v with
  | zero => exact h1.elim
  | succ n ih =>
    obtain ⟨m, rfl⟩ : ∃ m, n' = m + 1 := ⟨n' - 1, by omega⟩
    have parts : ∀ {o v}, Represents toInt h pre C n o v → Represents toInt h' pre' C' m o v :=
      fun h2 => ih h2 (by omega)
    cases h1 with
    | true => exact .true
    | false => exact .false
    | number text => exact .number text
    | string at_ => exact .string (at_.mono hp)
    | array items => exact .array (items.mono same sub fun _ _ item => ⟨item.1, parts item.2⟩)
    | object members =>
      refine .object (members.mono same sub ?_)
      rintro a b ⟨⟨k, key, at_⟩, value⟩
      exact ⟨⟨k, key, at_.mono hp⟩, parts value⟩

/-- A cell stands for one value. -/
lemma Represents.unique (h1 : Represents toInt h pre C n o v) (h2 : Represents toInt h pre C' n' o v') : v = v' := by
  induction n generalizing n' o v v' with
  | zero => exact h1.elim
  | succ n ih =>
    obtain ⟨m, rfl⟩ : ∃ m, n' = m + 1 := by
      cases n' with
      | zero => exact h2.elim
      | succ m => exact ⟨m, rfl⟩
    cases h1 with
    | true => cases h2; rfl
    | false => cases h2; rfl
    | number text => cases h2; rfl
    | string at_ =>
      cases h2 with
      | string at' => rw [at_.unique at']
    | array items =>
      cases h2 with
      | array items' => rw [items.unique (fun _ _ _ a b => ih a.2 b.2) items']
    | object members =>
      cases h2 with
      | object members' =>
        refine congrArg JsonValue.object (members.unique ?_ members')
        rintro a ⟨k, b⟩ ⟨k', b'⟩ ⟨⟨p, key, at_⟩, value⟩ ⟨⟨p', key', at'⟩, value'⟩
        rw [key, Option.some.injEq] at key'
        subst key'
        exact Prod.ext (at_.unique at') (ih value value')

end

/-! ## Tokens -/

/-- What is found in the buffer is what is read in the text, and nothing is written in `pre`. -/
inductive Finds (toInt : List UInt8 → Int) (pre : List UInt8) : Found → Token → Prop
  | error (status : JsonParseStatus) (s : Nat) : Finds toInt pre (some (.error (status, s))) (.error status)
  | ok {o : Cell} {buf : List UInt8} {s : Nat} {v : JsonValue} {rest : Option (List UInt8)} : Cursor buf s rest →
    pre <+: buf.take (s + 1) → (∀ h C, Represents toInt h (buf.take (s + 1)) C 1 o v) →
    Finds toInt pre (some (.ok (o, buf, s))) (.ok (v, rest))

section
variable {toInt : List UInt8 → Int} {buf : List UInt8} {i n : Nat} {s : List UInt8}

lemma take_mono {i j : Nat} (buf : List UInt8) (hij : i ≤ j) : buf.take i <+: buf.take j := by
  rw [← Nat.min_eq_left hij, ← List.take_take]
  exact List.take_prefix i _

lemma numberAt_finds (h : At buf i s) : Finds toInt (buf.take (i + 1)) (numberAt buf i) (readNumber toInt s) := by
  obtain ⟨j, e, h'⟩ := string2double_at h
  obtain ⟨w, split⟩ := afterNumber_suffix s
  have here : At buf i (w ++ afterNumber s) := split.symm ▸ h
  have text : s.take (s.length - (afterNumber s).length) = w := by
    have length := congrArg List.length split
    rw [List.length_append] at length
    rw [← length, Nat.add_sub_cancel]
    exact (List.prefix_iff_eq_take.1 ⟨_, split⟩).symm
  rw [numberAt, readNumber, e, Option.bind_eq_bind, Option.bind_some, h'.get, Option.bind_eq_bind, Option.bind_some,
    here.between h', text]
  cases isdelim ((afterNumber s).headD 0) with
  | true =>
    refine .ok h' (take_mono buf ?_) fun _ _ => .number _
    have := here.apart h'
    omega
  | false => exact .error _ _

lemma identifier_at (h : At buf i s) {name : List UInt8} (h0 : 0 ∉ name) :
    identifier buf i name = some (name.isPrefixOf s && isdelim ((s.drop name.length).headD 0)) := by
  induction name generalizing i s with
  | nil => simp [identifier, h.get]
  | cons c name ih =>
    rw [List.mem_cons, not_or] at h0
    rw [identifier, h.get, Option.bind_eq_bind, Option.bind_some]
    cases s with
    | nil => simp [h0.1, List.isPrefixOf]
    | cons d s =>
      rw [List.headD_cons, List.isPrefixOf]
      by_cases same : d = c
      · rw [if_pos same, ih h.cons h0.2]
        simp [same]
      · rw [if_neg same, beq_false_of_ne (Ne.symm same)]
        rfl

lemma identifierAt_finds (h : At buf (i + 1) s) {name : List UInt8} (h0 : 0 ∉ name) (hn : n ≤ name.length + 1) {o : Cell}
    {v : JsonValue} (ho : ∀ h pre C, Represents toInt h pre C 1 o v) :
    Finds toInt (buf.take (i + 1)) (identifierAt buf i name o n) (readIdentifier name v n s) := by
  rw [identifierAt, readIdentifier, identifier_at h h0, Option.bind_eq_bind, Option.bind_some]
  cases hname : name.isPrefixOf s with
  | false => exact .error _ _
  | true =>
    cases isdelim ((s.drop name.length).headD 0) with
    | false => exact .error _ _
    | true =>
      simp only [Bool.and_self, Bool.not_true, Bool.false_eq_true, if_false, if_true]
      refine .ok ?_ (take_mono buf (by omega)) fun h C => ho h _ C
      have length := (List.isPrefixOf_iff_prefix.1 hname).length_le
      split
      next le =>
        have split : At buf (i + 1) (s.take n ++ s.drop n) := (List.take_append_drop n s).symm ▸ h
        have := split.append
        rwa [List.length_take, Nat.min_eq_left le] at this
      next lt =>
        have := h.length
        show _ = _
        omega

lemma stringAt_finds (h : At buf i s) : Finds toInt (buf.take i) (stringAt buf i) (readString s) := by
  have length := h.length
  have split : buf = buf.take i ++ ([] ++ (s ++ [0])) := by
    rw [List.nil_append, ← h.1, List.take_append_drop]
  have start : (buf.take i).length = i := by rw [List.length_take]; omega
  have loop := stringLoop_at (n := buf.length) h.2 (by omega) (buf.take i) []
  rw [← split, List.length_nil, Nat.add_zero, start] at loop
  rw [stringAt, readString]
  cases e : unescape s with
  | none =>
    rw [e] at loop
    obtain ⟨p, run⟩ := loop
    rw [run]
    exact .error _ _
  | some r =>
    rw [e] at loop
    obtain ⟨out, rest⟩ := r
    cases rest with
    | none =>
      obtain ⟨p, run, rfl, le⟩ := loop
      rw [List.nil_append, start] at run
      rw [List.length_nil, Nat.zero_add] at le
      have at_ : At (buf.take i ++ (out ++ (s.drop out.length ++ [0]))) (i + s.length) [] := by
        refine ⟨?_, by simp⟩
        have : (buf.take i ++ (out ++ s.drop out.length)).length = i + s.length := by
          rw [List.length_append, List.length_append, List.length_drop, start]
          omega
        rw [← List.append_assoc out, ← List.append_assoc, ← this, List.drop_left]
        rfl
      simp only [List.length_nil, Nat.add_zero] at run
      rw [run, Option.bind_eq_bind, Option.bind_some]
      simp only [at_.get, Option.bind_eq_bind, Option.bind_some, List.headD_nil]
      rw [show isdelim 0 = true by decide]
      have whole : (buf.take i ++ (out ++ (s.drop out.length ++ [0]))).take (i + s.length + 1) =
          buf.take i ++ (out ++ (s.drop out.length ++ [0])) := by
        refine List.take_of_length_le ?_
        rw [at_.length]
        simp
      refine .ok at_ ?_ fun h C => .string ?_
      · rw [whole]
        exact List.prefix_append _ _
      · rw [whole]
        refine StringAt.of_drop (t := []) ?_
        rw [List.drop_left' start]
        simp
    | some rest =>
      obtain ⟨left, p, run, rfl, suffix⟩ := loop
      have clean : 0 ∉ rest := fun hz => h.2 (suffix.subset hz)
      have at_ : At (buf.take i ++ (out ++ 0 :: (left ++ (rest ++ [0])))) (i + out.length + 1 + left.length) rest := by
        refine ⟨?_, clean⟩
        have : (buf.take i ++ (out ++ (0 :: left))).length = i + out.length + 1 + left.length := by
          simp only [List.length_append, List.length_cons, start]
          omega
        rw [← List.cons_append, ← List.append_assoc out, ← List.append_assoc, ← this, List.drop_left]
      rw [start] at run
      rw [run, Option.bind_eq_bind, Option.bind_some]
      simp only [at_.get, Option.bind_eq_bind, Option.bind_some]
      cases isdelim (rest.headD 0) with
      | false => exact .error _ _
      | true =>
        have pre : (buf.take i ++ (out ++ 0 :: (left ++ (rest ++ [0])))).take (i + out.length + 1 + left.length + 1) =
            buf.take i ++ (out ++ 0 :: (left ++ (rest ++ [0]).take 1)) := by
          have length : (buf.take i ++ (out ++ 0 :: left)).length = i + out.length + 1 + left.length := by
            simp only [List.length_append, List.length_cons, start]
            omega
          have split : buf.take i ++ (out ++ 0 :: (left ++ (rest ++ [0]))) =
              (buf.take i ++ (out ++ 0 :: left)) ++ (rest ++ [0]) := by simp
          rw [split, ← length, List.take_length_add_append]
          simp
        refine .ok at_ ?_ fun h C => .string ?_
        · rw [pre]
          exact List.prefix_append _ _
        · rw [pre]
          exact StringAt.of_drop (List.drop_left' start)

end

/-! ## Arrays and objects that are open -/

section
variable (toInt : List UInt8 → Int) (h : Heap) (pre : List UInt8) (C : Nat → Prop)

/-- What a node holds. -/
def Holds {β : Type} (P : Content → β → Prop) (i : Nat) (b : β) : Prop := ∃ n, h[i]? = some n ∧ P n.val b

/-- An item of an open array. -/
def IsItem (n : Content) (v : JsonValue) : Prop := n.key = none ∧ ∃ k, Represents toInt h pre C k n.value v

/-- A member of an open object. -/
def IsMember (n : Content) (m : List UInt8 × JsonValue) : Prop :=
  (∃ k, n.key = some k ∧ StringAt pre k m.1) ∧ ∃ k, Represents toInt h pre C k n.value m.2

/-- The ring of a frame holds what is in the level so far. -/
inductive Opens : Frame → Level → List Nat → Prop
  | array {tail : Option Nat} {items : List JsonValue} {xs : List Nat} : Ring.IsRing h tail xs →
    List.Forall₂ (Holds h (IsItem toInt h pre C)) xs items → Opens ⟨.array, none, tail⟩ (.array items) xs
  | object {tail key : Option Nat} {members : List (List UInt8 × JsonValue)} {k : Option (List UInt8)} {xs : List Nat} :
    Ring.IsRing h tail xs → List.Forall₂ (Holds h (IsMember toInt h pre C)) xs members →
    Option.Rel (StringAt pre) key k → Opens ⟨.object, key, tail⟩ (.object members k) xs

inductive Stacked : List Frame → List Level → List (List Nat) → Prop
  | nil : Stacked [] [] []
  | cons {f : Frame} {fs : List Frame} {l : Level} {ls : List Level} {xs : List Nat} {rings : List (List Nat)} :
    Opens toInt h pre C f l xs → Stacked fs ls rings → Stacked (f :: fs) (l :: ls) (xs :: rings)

end

/-- The nodes that are in no ring. -/
def Settled (h : Heap) (rings : List (List Nat)) (i : Nat) : Prop := i < h.length ∧ i ∉ rings.flatten

/-- The frames hold what is in the levels, in rings that have no node in common. -/
structure Frames (toInt : List UInt8 → Int) (h : Heap) (pre : List UInt8) (fs : List Frame) (ls : List Level)
    (rings : List (List Nat)) : Prop where
  stacked : Stacked toInt h pre (Settled h rings) fs ls rings
  distinct : rings.flatten.Nodup
  inside : ∀ i ∈ rings.flatten, i < h.length

section
variable {toInt : List UInt8 → Int} {h h' : Heap} {pre pre' : List UInt8} {C C' : Nat → Prop} {f : Frame} {l : Level}
  {fs : List Frame} {ls : List Level} {xs : List Nat} {rings : List (List Nat)} {o : Cell} {v : JsonValue} {n : Nat}

lemma IsItem.mono {a : Content} (h1 : IsItem toInt h pre C a v) (same : ∀ i, C i → h'[i]? = h[i]?) (sub : ∀ i, C i → C' i)
    (hp : pre <+: pre') : IsItem toInt h' pre' C' a v := by
  obtain ⟨key, k, h1⟩ := h1
  exact ⟨key, k, h1.mono same sub hp (Nat.le_refl k)⟩

lemma IsMember.mono {a : Content} {m : List UInt8 × JsonValue} (h1 : IsMember toInt h pre C a m)
    (same : ∀ i, C i → h'[i]? = h[i]?) (sub : ∀ i, C i → C' i) (hp : pre <+: pre') : IsMember toInt h' pre' C' a m := by
  obtain ⟨⟨p, key, at_⟩, k, h1⟩ := h1
  exact ⟨⟨p, key, at_.mono hp⟩, k, h1.mono same sub hp (Nat.le_refl k)⟩

lemma Holds.mono {β : Type} {P P' : Content → β → Prop} {i : Nat} {b : β} (h1 : Holds h P i b)
    (val : (h'[i]?).map Ring.Node.val = (h[i]?).map Ring.Node.val) (hP : ∀ a b, P a b → P' a b) : Holds h' P' i b := by
  obtain ⟨n, e, hn⟩ := h1
  rw [e, Option.map_some, Option.map_eq_some_iff] at val
  obtain ⟨n', e', same⟩ := val
  exact ⟨n', e', same ▸ hP _ _ hn⟩

/-- Lists of what nodes hold, under the same conditions. -/
lemma forall_holds {β : Type} {P P' : Content → β → Prop} {bs : List β} (h1 : List.Forall₂ (Holds h P) xs bs)
    (val : ∀ i ∈ xs, (h'[i]?).map Ring.Node.val = (h[i]?).map Ring.Node.val) (hP : ∀ a b, P a b → P' a b) :
    List.Forall₂ (Holds h' P') xs bs := by
  induction h1 with
  | nil => exact .nil
  | cons first _ ih =>
    exact .cons (first.mono (val _ (by simp)) hP) (ih fun i hi => val i (by simp [hi]))

lemma rel_mono {i : Option Nat} {k : Option (List UInt8)} (h1 : Option.Rel (StringAt pre) i k) (hp : pre <+: pre') :
    Option.Rel (StringAt pre') i k := by
  cases h1 with
  | some at_ => exact .some (at_.mono hp)
  | none => exact .none

/-- A frame is as it was while its ring is, and the nodes of its values are. -/
lemma Opens.mono (h1 : Opens toInt h pre C f l xs) (same : ∀ i, C i ∨ i ∈ xs → h'[i]? = h[i]?) (sub : ∀ i, C i → C' i)
    (hp : pre <+: pre') : Opens toInt h' pre' C' f l xs := by
  have val : ∀ i ∈ xs, (h'[i]?).map Ring.Node.val = (h[i]?).map Ring.Node.val := fun i hi => by rw [same i (.inr hi)]
  have old : ∀ i, C i → h'[i]? = h[i]? := fun i hi => same i (.inl hi)
  cases h1 with
  | array ring items =>
    exact .array (ring.agree fun i hi => same i (.inr hi)) (forall_holds items val fun _ _ hi => hi.mono old sub hp)
  | object ring members key =>
    exact .object (ring.agree fun i hi => same i (.inr hi)) (forall_holds members val fun _ _ hi => hi.mono old sub hp)
      (rel_mono key hp)

lemma Stacked.mono (h1 : Stacked toInt h pre C fs ls rings) (same : ∀ i, C i ∨ i ∈ rings.flatten → h'[i]? = h[i]?)
    (sub : ∀ i, C i → C' i) (hp : pre <+: pre') : Stacked toInt h' pre' C' fs ls rings := by
  induction h1 with
  | nil => exact .nil
  | cons first _ ih =>
    simp only [List.flatten_cons, List.mem_append] at same
    exact .cons (first.mono (fun i hi => same i (hi.imp id .inl)) sub hp) (ih fun i hi => same i (hi.imp id .inr))

lemma Stacked.length (h1 : Stacked toInt h pre C fs ls rings) : fs.length = ls.length := by
  induction h1 with
  | nil => rfl
  | cons _ _ ih => rw [List.length_cons, List.length_cons, ih]

lemma Frames.mono (h1 : Frames toInt h pre fs ls rings) (hp : pre <+: pre') : Frames toInt h pre' fs ls rings :=
  ⟨h1.stacked.mono (fun _ _ => rfl) (fun _ hi => hi) hp, h1.distinct, h1.inside⟩

end

end ArrowheadCore.Json.Gason
