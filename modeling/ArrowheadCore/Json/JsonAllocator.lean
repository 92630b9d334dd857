import ArrowheadCore.Json.JsonParse

/-!
# The allocator of gason

Embedding of `gason::JsonAllocator` (`inc/gason/gason.cpp`). The zones that `malloc` has given are numbered in the order of
their allocation, and one that has been freed is `none`. A call that touches such a zone, or fails an assertion, has no result;
`malloc` itself does not fail. `run_separate` says what the memory is that is given away between two resets.
-/

namespace ArrowheadCore.Json.Gason

structure Zone where
  prev : Option Nat
  next : Option Nat
  used : Nat
deriving DecidableEq, Repr

structure JsonAllocator where
  zones : List (Option Zone)
  head : Option Nat
deriving DecidableEq, Repr

def JSON_ZONE_SIZE : Nat := 4096

/-- C++ `sizeof(Zone)` -/
def sizeofZone : Nat := 24

namespace JsonAllocator

def get (a : JsonAllocator) (i : Nat) : Option Zone := a.zones[i]?.join

def set (a : JsonAllocator) (i : Nat) (z : Option Zone) : JsonAllocator := { a with zones := a.zones.set i z }

/-- Zone and offset of the memory. -/
abbrev Address := Nat × Nat

/-- C++ `(size + 7) & ~7` -/
def roundUp (size : Nat) : Nat := size + 7 - (size + 7) % 8

/-- `allocate` with a new zone, which is the last one then. -/
def create (size : Nat) (a : JsonAllocator) : Option (Address × JsonAllocator) :=
  if sizeofZone + size ≤ JSON_ZONE_SIZE then do
    let zone := a.zones.length
    let b : JsonAllocator := ⟨a.zones ++ [some ⟨a.head, none, sizeofZone + size⟩], some zone⟩
    match a.head with
    | none => return ((zone, sizeofZone), b)
    | some head =>
      let z ← a.get head
      return ((zone, sizeofZone), b.set head (some { z with next := some zone }))
  else none

def allocate (size : Nat) (a : JsonAllocator) : Option (Address × JsonAllocator) :=
  match a.head with
  | none => create (roundUp size) a
  | some head => do
    let z ← a.get head
    if JSON_ZONE_SIZE < z.used then none
    else if z.used + roundUp size ≤ JSON_ZONE_SIZE then
      return ((head, z.used), a.set head (some { z with used := z.used + roundUp size }))
    else
      match z.next with
      | none => create (roundUp size) a
      | some zone =>
        let n ← a.get zone
        if n.used = sizeofZone ∧ n.prev = some head then
          return ((zone, sizeofZone),
            { a.set zone (some { n with used := n.used + roundUp size }) with head := some zone })
        else none

/-- C++ `Zone::end` -/
def last (a : JsonAllocator) : Nat → Nat → Option Nat
  | 0, _ => none
  | n + 1, iter => do
    match (← a.get iter).next with
    | none => return iter
    | some next => last a n next

def resetLoop : Nat → JsonAllocator → Nat → Option JsonAllocator
  | 0, _, _ => none
  | n + 1, a, iter => do
    let z ← a.get iter
    let a := a.set iter (some { z with used := sizeofZone })
    match z.prev with
    | none => return { a with head := some iter }
    | some prev => resetLoop n a prev

def reset (a : JsonAllocator) : Option JsonAllocator :=
  match a.head with
  | none => some a
  | some head => do resetLoop a.zones.length a (← last a a.zones.length head)

def freeLoop : Nat → JsonAllocator → Nat → Option JsonAllocator
  | 0, _, _ => none
  | n + 1, a, iter => do
    let z ← a.get iter
    let a := a.set iter none
    match z.prev with
    | none => return { a with head := none }
    | some prev => freeLoop n a prev

def deallocate (a : JsonAllocator) : Option JsonAllocator :=
  match a.head with
  | none => some a
  | some head => do freeLoop a.zones.length a (← last a a.zones.length head)

/-! ## Runs -/

inductive Call where
  | allocate (size : Nat)
  | reset
  | deallocate

/-- Memory that has been given away. -/
structure Block where
  zone : Nat
  offset : Nat
  size : Nat

/-- A call, and the memory that is in use since the last reset. -/
def step (s : JsonAllocator × List Block) : Call → Option (JsonAllocator × List Block)
  | .allocate size => (s.1.allocate size).map fun r => (r.2, ⟨r.1.1, r.1.2, size⟩ :: s.2)
  | .reset => s.1.reset.map fun a => (a, [])
  | .deallocate => s.1.deallocate.map fun a => (a, [])

def run (s : JsonAllocator × List Block) (calls : List Call) : Option (JsonAllocator × List Block) := calls.foldlM step s

/-! ## The chain of zones -/

/-- A zone of the chain from `base` to the last of `n` zones. -/
structure Link (base n k : Nat) (z : Zone) : Prop where
  prev : z.prev = if k = base then none else some (k - 1)
  next : z.next = if k + 1 < n then some (k + 1) else none
  least : sizeofZone ≤ z.used
  most : z.used ≤ JSON_ZONE_SIZE
  aligned : z.used % 8 = 0

/-- The zones from `base` on are chained, and those behind the head are empty; the others have been freed. -/
structure Chained (base : Nat) (a : JsonAllocator) : Prop where
  zone : ∀ k, base ≤ k → k < a.zones.length → ∃ z, a.get k = some z ∧ Link base a.zones.length k z ∧
    (∀ h, a.head = some h → h < k → z.used = sizeofZone)
  head : ∀ h, a.head = some h → base ≤ h ∧ h < a.zones.length
  empty : a.head = none → a.zones.length = base
  freed : ∀ k < base, a.get k = none

section
variable {a b : JsonAllocator} {base i k n : Nat} {z : Zone} {o : Option Zone}

lemma sizeofZone_aligned : sizeofZone % 8 = 0 := rfl

lemma set_length (a : JsonAllocator) (i : Nat) (o : Option Zone) : (a.set i o).zones.length = a.zones.length :=
  List.length_set

lemma get_set (hi : i < a.zones.length) : (a.set i o).get k = if i = k then o else a.get k := by
  rw [get, set, List.getElem?_set]
  split
  next e => simp
  next => rfl

lemma lt_of_get (h : a.get i = some z) : i < a.zones.length := by
  by_contra hi
  rw [get, List.getElem?_eq_none (Nat.le_of_not_lt hi)] at h
  cases h

lemma get_append (zones : List (Option Zone)) (head : Option Nat) (o : Option Zone) :
    (JsonAllocator.mk (zones ++ [o]) head).get k = if k = zones.length then o else zones[k]?.join := by
  rw [get]
  split
  next e => simp [e]
  next e =>
    rcases Nat.lt_or_gt_of_ne e with lt | gt
    · rw [List.getElem?_append_left lt]
    · rw [List.getElem?_eq_none (by simp; omega), List.getElem?_eq_none (by omega)]

lemma roundUp_spec (size : Nat) : size ≤ roundUp size ∧ roundUp size % 8 = 0 ∧ (size ≤ 4072 → roundUp size ≤ 4072) := by
  unfold roundUp
  omega

/-- The last zone is found from each zone of the chain. -/
lemma Chained.last (h : Chained base a) (hk : base ≤ k) (hl : k < a.zones.length) (hn : a.zones.length ≤ n + k) :
    last a n k = some (a.zones.length - 1) := by
  induction n generalizing k with
  | zero => omega
  | succ n ih =>
    obtain ⟨z, e, link, -⟩ := h.zone k hk hl
    rw [JsonAllocator.last, e, Option.bind_eq_bind, Option.bind_some, link.next]
    by_cases more : k + 1 < a.zones.length
    · rw [if_pos more]
      exact ih (by omega) more (by omega)
    · rw [if_neg more]
      exact congrArg some (by omega)

/-- Memory behind all that was in use of its zone. -/
structure Allocates (a : JsonAllocator) (size : Nat) (r : Address) (b : JsonAllocator) : Prop where
  grows : ∀ k z, a.get k = some z → ∃ z', b.get k = some z' ∧ z.used ≤ z'.used
  behind : ∀ z, a.get r.1 = some z → z.used ≤ r.2
  inside : ∃ z, b.get r.1 = some z ∧ r.2 + size ≤ z.used ∧ z.used ≤ JSON_ZONE_SIZE
  start : sizeofZone ≤ r.2
  aligned : r.2 % 8 = 0

/-- More of a zone is in use. -/
lemma set_grows {z' : Zone} (hz : a.get i = some z) (hu : z.used ≤ z'.used) (k : Nat) (x : Zone) (hx : a.get k = some x) :
    ∃ x', (a.set i (some z')).get k = some x' ∧ x.used ≤ x'.used := by
  rw [get_set (lt_of_get hz)]
  split
  next e =>
    subst e
    rw [hz, Option.some.injEq] at hx
    subst hx
    exact ⟨z', rfl, hu⟩
  next => exact ⟨x, hx, Nat.le_refl _⟩

/-- A new zone is put behind the last one. -/
lemma Chained.create (h : Chained base a) (last : ∀ k, a.head = some k → k + 1 = a.zones.length) {size : Nat}
    (hs : size % 8 = 0) (hm : size ≤ 4072) :
    ∃ r b, create size a = some (r, b) ∧ Chained base b ∧ Allocates a size r b := by
  have fits : sizeofZone + size ≤ JSON_ZONE_SIZE := by
    rw [sizeofZone, JSON_ZONE_SIZE]
    omega
  have aligned : (sizeofZone + size) % 8 = 0 := by
    rw [sizeofZone]
    omega
  have fresh : a.get a.zones.length = none := by simp [get]
  rw [JsonAllocator.create, if_pos fits]
  obtain ⟨zones, head⟩ := a
  cases head with
  | none =>
    obtain rfl := h.empty rfl
    refine ⟨_, _, rfl, ⟨?_, ?_, nofun, ?_⟩, ⟨?_, ?_, ?_, Nat.le_refl _, sizeofZone_aligned⟩⟩
    · intro k hk hl
      rw [List.length_append, List.length_singleton] at hl ⊢
      obtain rfl : k = zones.length := Nat.le_antisymm (Nat.le_of_lt_succ hl) hk
      refine ⟨_, by rw [get_append, if_pos rfl], ⟨by simp, by simp, Nat.le_add_right _ _, fits, aligned⟩, ?_⟩
      rintro h ⟨⟩ lt
      exact absurd lt (Nat.lt_irrefl _)
    · rintro h ⟨⟩
      simp
    · intro k hk
      rw [get_append, if_neg (Nat.ne_of_lt hk)]
      exact h.freed k hk
    · intro k z e
      exact ⟨z, by rw [get_append, if_neg (Nat.ne_of_lt (lt_of_get e))]; exact e, Nat.le_refl _⟩
    · intro z e
      rw [fresh] at e
      cases e
    · exact ⟨_, by rw [get_append, if_pos rfl], Nat.le_refl _, fits⟩
  | some head =>
    have hlast : head + 1 = zones.length := last head rfl
    obtain ⟨hb, hl⟩ := h.head head rfl
    obtain ⟨z, e, link, -⟩ := h.zone head hb hl
    dsimp only at e hl hb
    have here : head < (zones ++ [some (⟨some head, none, sizeofZone + size⟩ : Zone)]).length := by simp; omega
    have old : ∀ k, k ≠ zones.length → k ≠ head →
        ((JsonAllocator.mk (zones ++ [some ⟨some head, none, sizeofZone + size⟩]) (some zones.length)).set head
          (some { z with next := some zones.length })).get k = (JsonAllocator.mk zones (some head)).get k := by
      intro k h1 h2
      rw [get_set here, if_neg (Ne.symm h2), get_append, if_neg h1]
      rfl
    have new : ((JsonAllocator.mk (zones ++ [some ⟨some head, none, sizeofZone + size⟩]) (some zones.length)).set head
        (some { z with next := some zones.length })).get zones.length =
          some ⟨some head, none, sizeofZone + size⟩ := by
      rw [get_set here, if_neg (by omega), get_append, if_pos rfl]
    have linked : ((JsonAllocator.mk (zones ++ [some ⟨some head, none, sizeofZone + size⟩]) (some zones.length)).set head
        (some { z with next := some zones.length })).get head = some { z with next := some zones.length } := by
      rw [get_set here, if_pos rfl]
    simp only [e, Option.bind_eq_bind, Option.bind_some]
    refine ⟨_, _, rfl, ⟨?_, ?_, nofun, ?_⟩, ⟨?_, ?_, ⟨_, new, Nat.le_refl _, fits⟩, Nat.le_refl _, sizeofZone_aligned⟩⟩
    · intro k hk hl'
      rw [set_length, List.length_append, List.length_singleton] at hl' ⊢
      have behind : ∀ {x : Zone}, ∀ h, some zones.length = some h → h < k → x.used = sizeofZone := by
        rintro x h ⟨⟩ lt
        omega
      by_cases h1 : k = zones.length
      · subst h1
        refine ⟨_, new, ⟨?_, ?_, Nat.le_add_right _ _, fits, aligned⟩, behind⟩
        · rw [if_neg (by omega)]
          exact congrArg some (by omega)
        · rw [if_neg (by omega)]
      · by_cases h2 : k = head
        · subst h2
          refine ⟨_, linked, ⟨link.prev, ?_, link.least, link.most, link.aligned⟩, behind⟩
          rw [if_pos (by omega), hlast]
        · obtain ⟨x, ex, lx, -⟩ := h.zone k hk (show k < zones.length by omega)
          refine ⟨x, (old k h1 h2).trans ex, ⟨lx.prev, ?_, lx.least, lx.most, lx.aligned⟩, behind⟩
          rw [lx.next]
          dsimp only
          rw [if_pos (by omega), if_pos (by omega)]
    · rintro h ⟨⟩
      rw [set_length, List.length_append, List.length_singleton]
      exact ⟨by omega, Nat.lt_succ_self _⟩
    · intro k hk
      exact (old k (by omega) (by omega)).trans (h.freed k hk)
    · intro k x ex
      have hk : k < zones.length := lt_of_get ex
      by_cases h2 : k = head
      · subst h2
        rw [e, Option.some.injEq] at ex
        subst ex
        exact ⟨_, linked, Nat.le_refl _⟩
      · exact ⟨x, (old k (Nat.ne_of_lt hk) h2).trans ex, Nat.le_refl _⟩
    · intro x ex
      rw [show (JsonAllocator.mk zones (some head)).get zones.length = none from fresh] at ex
      cases ex

lemma Chained.allocate (h : Chained base a) {size : Nat} (hm : size ≤ 4072) :
    ∃ r b, allocate size a = some (r, b) ∧ Chained base b ∧ Allocates a size r b := by
  obtain ⟨le, aligned, most⟩ := roundUp_spec size
  have most := most hm
  have enough : ∀ {r b}, Allocates a (roundUp size) r b → Allocates a size r b := by
    rintro r b ⟨grows, behind, ⟨z, e, fits⟩, start, al⟩
    exact ⟨grows, behind, ⟨z, e, by omega⟩, start, al⟩
  have created : (∀ k, a.head = some k → k + 1 = a.zones.length) →
      ∃ r b, JsonAllocator.create (roundUp size) a = some (r, b) ∧ Chained base b ∧ Allocates a size r b := by
    intro last
    obtain ⟨r, b, e, chained, allocates⟩ := h.create last aligned most
    exact ⟨r, b, e, chained, enough allocates⟩
  rw [JsonAllocator.allocate]
  cases eh : a.head with
  | none => exact created fun k hk => by rw [eh] at hk; cases hk
  | some head =>
    obtain ⟨hb, hl⟩ := h.head head eh
    obtain ⟨z, e, link, -⟩ := h.zone head hb hl
    simp only [e, Option.bind_eq_bind, Option.bind_some]
    rw [if_neg (Nat.not_lt.2 link.most)]
    by_cases fits : z.used + roundUp size ≤ JSON_ZONE_SIZE
    · -- the head has room enough
      rw [if_pos fits]
      have used_le : z.used ≤ ({ z with used := z.used + roundUp size } : Zone).used := Nat.le_add_right _ _
      have grows := set_grows e used_le
      refine ⟨_, _, rfl, ⟨?_, ?_, ?_, ?_⟩, enough ⟨grows, ?_, ?_, link.least, link.aligned⟩⟩
      · intro k hk hl'
        rw [set_length] at hl' ⊢
        rw [get_set hl]
        by_cases same : head = k
        · subst same
          have al : (z.used + roundUp size) % 8 = 0 := by have := link.aligned; omega
          rw [if_pos rfl]
          refine ⟨_, rfl, ⟨link.prev, link.next, Nat.le_add_right_of_le link.least, fits, al⟩, ?_⟩
          intro h' e' lt
          obtain rfl : head = h' := Option.some.inj (eh.symm.trans e')
          exact absurd lt (Nat.lt_irrefl _)
        · rw [if_neg same]
          exact h.zone k hk hl'
      · intro k hk
        rw [set_length]
        exact h.head k hk
      · intro none_
        rw [set_length]
        exact h.empty none_
      · intro k hk
        rw [get_set hl, if_neg (by omega)]
        exact h.freed k hk
      · intro x ex
        rw [e, Option.some.injEq] at ex
        exact Nat.le_of_eq (congrArg Zone.used ex.symm)
      · exact ⟨_, by rw [get_set hl, if_pos rfl], Nat.le_refl _, fits⟩
    · rw [if_neg fits]
      cases en : z.next with
      | none =>
        refine created fun k hk => ?_
        rw [eh, Option.some.injEq] at hk
        subst hk
        have next := link.next
        rw [en] at next
        split at next
        next => cases next
        next => omega
      | some zone =>
        -- the next zone is empty
        have next := link.next
        rw [en] at next
        split at next
        next more =>
          obtain rfl : zone = head + 1 := Option.some.inj next
          obtain ⟨n, e', link', empty⟩ := h.zone (head + 1) (by omega) more
          have used := empty head eh (Nat.lt_succ_self head)
          have prev : n.prev = some head := by
            rw [link'.prev, if_neg (by omega)]
            rfl
          have room : n.used + roundUp size ≤ JSON_ZONE_SIZE := by
            rw [used, sizeofZone, JSON_ZONE_SIZE]
            omega
          simp only [e', Option.bind_some]
          rw [if_pos ⟨used, prev⟩]
          have used_le : n.used ≤ ({ n with used := n.used + roundUp size } : Zone).used := Nat.le_add_right _ _
          have grows := set_grows e' used_le
          refine ⟨_, _, rfl, ⟨?_, ?_, nofun, ?_⟩, enough ⟨grows, ?_, ?_, Nat.le_refl _, sizeofZone_aligned⟩⟩
          · intro k hk hl'
            show ∃ x, (a.set (head + 1) _).get k = some x ∧ _
            change k < (a.set (head + 1) _).zones.length at hl'
            rw [set_length] at hl'
            dsimp only
            rw [set_length, get_set more]
            by_cases same : head + 1 = k
            · subst same
              have al : (n.used + roundUp size) % 8 = 0 := by have := link'.aligned; omega
              rw [if_pos rfl]
              refine ⟨_, rfl, ⟨link'.prev, link'.next, Nat.le_add_right_of_le link'.least, room, al⟩, ?_⟩
              rintro h' ⟨⟩ lt
              exact absurd lt (Nat.lt_irrefl _)
            · rw [if_neg same]
              obtain ⟨x, ex, lx, emptyx⟩ := h.zone k hk hl'
              refine ⟨x, ex, lx, ?_⟩
              rintro h' ⟨⟩ lt
              exact emptyx head eh (by omega)
          · rintro k ⟨⟩
            dsimp only
            rw [set_length]
            exact ⟨by omega, more⟩
          · intro k hk
            show (a.set (head + 1) _).get k = none
            rw [get_set more, if_neg (by omega)]
            exact h.freed k hk
          · intro x ex
            rw [e', Option.some.injEq] at ex
            rw [← ex, used]
          · refine ⟨{ n with used := n.used + roundUp size }, ?_, ?_, room⟩
            · show (a.set (head + 1) _).get (head + 1) = _
              rw [get_set more, if_pos rfl]
            · dsimp only
              rw [used]
        next => cases next

/-! ## Resets -/

/-- On the way back, what is behind the zone is empty already. -/
lemma Chained.resetLoop (h : Chained base a) (hk : base ≤ k) (hl : k < a.zones.length)
    (empty : ∀ j, k < j → ∀ z, a.get j = some z → z.used = sizeofZone) (hn : k < n + base) :
    ∃ b, resetLoop n a k = some b ∧ Chained base b := by
  induction n generalizing a k with
  | zero => omega
  | succ n ih =>
    obtain ⟨z, e, link, -⟩ := h.zone k hk hl
    rw [JsonAllocator.resetLoop, e, Option.bind_eq_bind, Option.bind_some]
    have least : sizeofZone ≤ JSON_ZONE_SIZE := by decide
    have cleared : Link base a.zones.length k { z with used := sizeofZone } :=
      ⟨link.prev, link.next, Nat.le_refl _, least, sizeofZone_aligned⟩
    generalize ez : ({ z with used := sizeofZone } : Zone) = z' at cleared
    have used : z'.used = sizeofZone := by rw [← ez]
    have zone : ∀ j, base ≤ j → j < a.zones.length →
        ∃ x, (a.set k (some z')).get j = some x ∧ Link base a.zones.length j x ∧
          (k ≤ j → x.used = sizeofZone) ∧ ∀ h, a.head = some h → h < j → x.used = sizeofZone := by
      intro j hj hlj
      rw [get_set hl]
      by_cases same : k = j
      · subst same
        rw [if_pos rfl]
        exact ⟨z', rfl, cleared, fun _ => used, fun _ _ _ => used⟩
      · rw [if_neg same]
        obtain ⟨x, ex, lx, emptyx⟩ := h.zone j hj hlj
        exact ⟨x, ex, lx, fun le => empty j (Nat.lt_of_le_of_ne le same) x ex, emptyx⟩
    rw [link.prev]
    by_cases first : k = base
    · rw [if_pos first]
      subst first
      refine ⟨_, rfl, ?_, ?_, nofun, ?_⟩
      · intro j hj hlj
        change j < (a.set k _).zones.length at hlj
        rw [set_length] at hlj
        obtain ⟨x, ex, lx, emptyx, -⟩ := zone j hj hlj
        refine ⟨x, ex, ?_, fun _ _ _ => emptyx hj⟩
        dsimp only
        rwa [set_length]
      · rintro j ⟨⟩
        dsimp only
        rw [set_length]
        exact ⟨Nat.le_refl _, hl⟩
      · intro j hj
        show (a.set k _).get j = none
        rw [get_set hl, if_neg (by omega)]
        exact h.freed j hj
    · rw [if_neg first]
      refine ih ⟨?_, ?_, ?_, ?_⟩ (by omega) (by rw [set_length]; omega) ?_ (by omega)
      · intro j hj hlj
        rw [set_length] at hlj ⊢
        obtain ⟨x, ex, lx, -, emptyx⟩ := zone j hj hlj
        exact ⟨x, ex, lx, emptyx⟩
      · rw [set_length]
        exact h.head
      · rw [set_length]
        exact h.empty
      · intro j hj
        rw [get_set hl, if_neg (by omega)]
        exact h.freed j hj
      · intro j hj x ex
        have hlj : j < a.zones.length := by simpa only [set_length] using lt_of_get ex
        obtain ⟨x', ex', -, emptyx, -⟩ := zone j (by omega) hlj
        rw [ex', Option.some.injEq] at ex
        exact ex ▸ emptyx (by omega)

lemma Chained.reset (h : Chained base a) : ∃ b, reset a = some b ∧ Chained base b := by
  rw [JsonAllocator.reset]
  cases eh : a.head with
  | none => exact ⟨a, rfl, h⟩
  | some head =>
    obtain ⟨hb, hl⟩ := h.head head eh
    simp only [h.last hb hl (Nat.le_add_right _ _), Option.bind_eq_bind, Option.bind_some]
    refine h.resetLoop (by omega) (by omega) (fun j hj z e => ?_) (by omega)
    have := lt_of_get e
    omega

/-- The zones up to this one are freed. -/
lemma freeLoop_spec (zone : ∀ j, base ≤ j → j ≤ k → ∃ z, a.get j = some z ∧ z.prev = if j = base then none else some (j - 1))
    (hk : base ≤ k) (hn : k < n + base) (freed : ∀ j, j < base ∨ k < j → a.get j = none) :
    ∃ b, freeLoop n a k = some b ∧ b.head = none ∧ ∀ j, b.get j = none := by
  induction n generalizing a k with
  | zero => omega
  | succ n ih =>
    obtain ⟨z, e, prev⟩ := zone k hk (Nat.le_refl _)
    rw [JsonAllocator.freeLoop, e, Option.bind_eq_bind, Option.bind_some, prev]
    have freed' : ∀ j, j < base ∨ k ≤ j → (a.set k none).get j = none := by
      intro j hj
      rw [get_set (lt_of_get e)]
      split
      next => rfl
      next ne => exact freed j (by omega)
    by_cases first : k = base
    · rw [if_pos first]
      exact ⟨_, rfl, rfl, fun j => freed' j (by omega)⟩
    · rw [if_neg first]
      refine ih (fun j hj hlj => ?_) (by omega) (by omega) fun j hj => freed' j (by omega)
      rw [get_set (lt_of_get e), if_neg (by omega)]
      exact zone j hj (by omega)

/-- Every zone is freed. -/
lemma Chained.deallocate (h : Chained base a) :
    ∃ b, deallocate a = some b ∧ Chained b.zones.length b ∧ ∀ k, b.get k = none := by
  have done : ∀ {b : JsonAllocator}, b.head = none → (∀ k, b.get k = none) → Chained b.zones.length b := by
    intro b none_ freed
    refine ⟨fun k hk hl => by omega, fun k hk => ?_, fun _ => rfl, fun k _ => freed k⟩
    rw [none_] at hk
    cases hk
  have outside : ∀ k, k < base ∨ a.zones.length ≤ k → a.get k = none := by
    rintro k (hk | hk)
    · exact h.freed k hk
    · rw [get, List.getElem?_eq_none hk]
      rfl
  rw [JsonAllocator.deallocate]
  cases eh : a.head with
  | none =>
    have freed : ∀ k, a.get k = none := fun k => outside k (by have := h.empty eh; omega)
    exact ⟨a, rfl, done eh freed, freed⟩
  | some head =>
    obtain ⟨hb, hl⟩ := h.head head eh
    have zone : ∀ j, base ≤ j → j ≤ a.zones.length - 1 →
        ∃ z, a.get j = some z ∧ z.prev = if j = base then none else some (j - 1) := by
      intro j hj hlj
      obtain ⟨z, e, link, -⟩ := h.zone j hj (by omega)
      exact ⟨z, e, link.prev⟩
    obtain ⟨b, e, none_, freed⟩ := freeLoop_spec (n := a.zones.length) zone (by omega) (by omega) fun j hj => outside j (by omega)
    simp only [h.last hb hl (Nat.le_add_right _ _), Option.bind_eq_bind, Option.bind_some]
    exact ⟨b, e, done none_ freed, freed⟩

/-! ## Memory in use -/

/-- A block lies in its zone behind the header, in the part that is in use. -/
def Block.Lies (a : JsonAllocator) (x : Block) : Prop :=
  ∃ z, a.get x.zone = some z ∧ sizeofZone ≤ x.offset ∧ x.offset % 8 = 0 ∧ x.offset + x.size ≤ z.used ∧ z.used ≤ JSON_ZONE_SIZE

/-- Two blocks that have no byte in common. -/
def Block.Apart (x y : Block) : Prop := x.zone ≠ y.zone ∨ x.offset + x.size ≤ y.offset ∨ y.offset + y.size ≤ x.offset

/-- The blocks lie in zones that have not been freed, and have no byte in common. -/
structure Sound (s : JsonAllocator × List Block) : Prop where
  chained : ∃ base, Chained base s.1
  lies : ∀ x ∈ s.2, x.Lies s.1
  apart : s.2.Pairwise Block.Apart

/-- Nothing is asked for that a zone could not hold. -/
def Call.Fits : Call → Prop
  | .allocate size => size ≤ JSON_ZONE_SIZE - sizeofZone
  | _ => True

lemma Chained.most (h : Chained base a) (e : a.get k = some z) : z.used ≤ JSON_ZONE_SIZE := by
  by_cases hk : k < base
  · rw [h.freed k hk] at e
    cases e
  · obtain ⟨z', e', link, -⟩ := h.zone k (Nat.le_of_not_lt hk) (lt_of_get e)
    rw [e, Option.some.injEq] at e'
    exact e' ▸ link.most

/-- A call keeps what is in use. -/
lemma step_sound {s : JsonAllocator × List Block} (h : Sound s) (call : Call) (fits : call.Fits) :
    ∃ s', step s call = some s' ∧ Sound s' := by
  obtain ⟨⟨base, chained⟩, lies, apart⟩ := h
  have cleared : ∀ {b : JsonAllocator} {base : Nat}, Chained base b → Sound (b, []) :=
    fun h => ⟨⟨_, h⟩, by simp, .nil⟩
  cases call with
  | allocate size =>
    obtain ⟨r, b, e, chained', allocates⟩ := chained.allocate fits
    refine ⟨_, by rw [step, e, Option.map_some], ⟨base, chained'⟩, ?_, ?_⟩
    · intro x hx
      rcases List.mem_cons.1 hx with rfl | hx
      · obtain ⟨z, ez, within, most⟩ := allocates.inside
        exact ⟨z, ez, allocates.start, allocates.aligned, within, most⟩
      · obtain ⟨z, ez, start, aligned, within, -⟩ := lies x hx
        obtain ⟨z', ez', more⟩ := allocates.grows _ _ ez
        exact ⟨z', ez', start, aligned, Nat.le_trans within more, chained'.most ez'⟩
    · refine List.pairwise_cons.2 ⟨fun x hx => ?_, apart⟩
      obtain ⟨z, ez, -, -, within, -⟩ := lies x hx
      by_cases same : r.1 = x.zone
      · exact .inr (.inr (Nat.le_trans within (allocates.behind z (same ▸ ez))))
      · exact .inl same
  | reset =>
    obtain ⟨b, e, chained'⟩ := chained.reset
    exact ⟨_, by rw [step, e, Option.map_some], cleared chained'⟩
  | deallocate =>
    obtain ⟨b, e, chained', -⟩ := chained.deallocate
    exact ⟨_, by rw [step, e, Option.map_some], cleared chained'⟩

lemma run_sound {s : JsonAllocator × List Block} (h : Sound s) (calls : List Call) (fits : ∀ call ∈ calls, call.Fits) :
    ∃ s', run s calls = some s' ∧ Sound s' := by
  induction calls generalizing s with
  | nil => exact ⟨s, rfl, h⟩
  | cons call calls ih =>
    obtain ⟨s1, e, h1⟩ := step_sound h call (fits call (by simp))
    obtain ⟨s2, e2, h2⟩ := ih h1 fun c hc => fits c (by simp [hc])
    exact ⟨s2, by rw [run, List.foldlM_cons, e]; exact e2, h2⟩

/-- Whatever is called, no assertion fails, no memory is touched that has been freed, and the blocks in use lie apart from
    each other in their zones. -/
theorem run_separate (calls : List Call) (fits : ∀ call ∈ calls, call.Fits) :
    ∃ a blocks, run (⟨[], none⟩, []) calls = some (a, blocks) ∧ (∀ x ∈ blocks, x.Lies a) ∧ blocks.Pairwise Block.Apart := by
  have start : Sound (⟨[], none⟩, []) :=
    ⟨⟨0, fun k _ hl => absurd hl (Nat.not_lt_zero k), nofun, fun _ => rfl, fun k hk => absurd hk (Nat.not_lt_zero k)⟩,
      by simp, .nil⟩
  obtain ⟨⟨a, blocks⟩, e, sound⟩ := run_sound start calls fits
  exact ⟨a, blocks, e, sound.lies, sound.apart⟩

theorem run_separate_reused : ∃ a blocks, run (⟨[], none⟩, []) [.allocate 4000, .allocate 100, .reset, .allocate 24, .allocate 16] =
    some (a, blocks) ∧ (∀ x ∈ blocks, x.Lies a) ∧ blocks.Pairwise Block.Apart :=
  run_separate _ (by simp [Call.Fits, JSON_ZONE_SIZE, sizeofZone])

end

end JsonAllocator

end ArrowheadCore.Json.Gason
