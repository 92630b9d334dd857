import ArrowheadCore.Lib.CString
import Mathlib.Data.Finmap

/-!
# Option strings

Embedding of `INIFile::parse_opt` (`utils/inifile.cpp`), which cuts an option string into names and values within one copy of
it: it moves what is unescaped to the front, and ends names and values with a NUL. The second half is the same algorithm
with a text of its own for every name and value; the copy with its two pointers comes to the same.
-/

namespace ArrowheadCore.Utils.INIFile
open Lib

abbrev Record := List UInt8 × List UInt8

/-- C++ `std::map<std::string, std::string>` -/
abbrev Options := Finmap fun _ : List UInt8 => List UInt8

def singleQuote : UInt8 := 39

def backslash : UInt8 := 92

/-! ## In one buffer -/

/-- What a pointer into the buffer points at; `none` outside of it. -/
def get (buf : List UInt8) (i : Nat) : Option UInt8 := buf[i]?

def put (buf : List UInt8) (i : Nat) (c : UInt8) : Option (List UInt8) := if i < buf.length then some (buf.set i c) else none

/-- The C string that begins at a pointer. -/
def cString (buf : List UInt8) (i : Nat) : Option (List UInt8) := if 0 ∈ buf.drop i then some (cStr (buf.drop i)) else none

/-- `none` in these loops: a pointer has left the buffer, or the turns are not enough. -/
def skipBlanks : Nat → List UInt8 → Nat → Option Nat
  | 0, _, _ => none
  | n + 1, buf, cp => do
    let c ← get buf cp
    if c = 0 then return cp
    if !isspace c then return cp
    skipBlanks n buf (cp + 1)

def nameLoop : Nat → List UInt8 → Nat → Option (List UInt8 × Nat)
  | 0, _, _ => none
  | n + 1, buf, cp => do
    let c ← get buf cp
    if c = 0 then return (buf, cp)
    if c = '='.toUInt8 then return (buf, cp)
    if isspace c then
      let buf ← put buf cp 0
      let cp ← skipBlanks buf.length buf (cp + 1)
      return (buf, cp)
    nameLoop n buf (cp + 1)

/-- A value without quotes: the buffer, where it ends, and where what is kept of it ends. -/
def unquotedLoop : Nat → List UInt8 → Nat → Nat → Option (List UInt8 × Nat × Nat)
  | 0, _, _, _ => none
  | n + 1, buf, cp, cp2 => do
    let c ← get buf cp
    if c = 0 then return (buf, cp, cp2)
    if isspace c then
      let buf ← put buf cp 0
      return (buf, cp + 1, cp2)
    if c = backslash then
      let d ← get buf (cp + 1)
      if d ≠ 0 then
        let buf ← put buf cp2 d
        unquotedLoop n buf (cp + 2) (cp2 + 1)
      else unquotedLoop n buf (cp + 1) cp2
    else
      let buf ← put buf cp2 c
      unquotedLoop n buf (cp + 1) (cp2 + 1)

/-- A value in quotes; there is nothing in it if the text ends before the quote. -/
def quotedLoop : Nat → List UInt8 → Nat → Nat → Option (Option (List UInt8 × Nat))
  | 0, _, _, _ => none
  | n + 1, buf, cp, cp2 => do
    let c ← get buf cp
    if c = 0 then return none
    if c = backslash then
      let d ← get buf (cp + 1)
      if d ≠ 0 then
        let buf ← put buf cp2 d
        quotedLoop n buf (cp + 2) (cp2 + 1)
      else quotedLoop n buf (cp + 1) cp2
    else if c = singleQuote then
      let buf ← put buf cp2 0
      return some (buf, cp + 1)
    else
      let buf ← put buf cp2 c
      quotedLoop n buf (cp + 1) (cp2 + 1)

/-- The value is put in its place, with a NUL behind it. -/
def valueAt (buf : List UInt8) (pval : Nat) : Option (Option (List UInt8 × Nat)) := do
  let c ← get buf pval
  if c ≠ singleQuote then
    let (buf, cp, cp2) ← unquotedLoop buf.length buf pval pval
    let buf ← put buf cp2 0
    return some (buf, cp)
  quotedLoop buf.length buf (pval + 1) pval

/-- From a name to the end of its value. -/
def itemAt (buf : List UInt8) (pname : Nat) : Option (Option (Record × List UInt8 × Nat)) := do
  let (buf, cp) ← nameLoop buf.length buf pname
  let c ← get buf cp
  if c ≠ '='.toUInt8 then return none
  let buf ← put buf cp 0
  let pval ← skipBlanks buf.length buf (cp + 1)
  match ← valueAt buf pval with
  | none => return none
  | some (buf, cp) => return some ((← cString buf pname, ← cString buf pval), buf, cp)

/-- The records in the order in which they are stored; there is nothing of a malformed text. -/
def optLoop : Nat → List UInt8 → Nat → List Record → Option (Option (List Record))
  | 0, _, _, _ => none
  | n + 1, buf, cp, options => do
    let c ← get buf cp
    if c = 0 then return some options
    if isspace c then optLoop n buf (cp + 1) options
    else
      match ← itemAt buf cp with
      | none => return none
      | some (record, buf, cp) => optLoop n buf cp (options ++ [record])

/-- The records that are read in a copy of a string. -/
def recordsOf (opts : List UInt8) : Option (Option (List Record)) :=
  let buf := cStr opts ++ [0]
  optLoop buf.length buf 0 []

/-- The map that has each record put in, a later one in the place of an earlier one with its name. -/
def stored (records : List Record) : Options := records.foldl (fun options r => options.insert r.1 r.2) ∅

/-- C++ `INIFile::parse_opt` -/
def parse_opt (opts : List UInt8) : Option Options := (recordsOf opts).map fun records => stored (records.getD [])

example : recordsOf (bytes "a=1  b = 'it\\'s' c=x\\ y") = some (some [(bytes "a", bytes "1"), (bytes "b", bytes "it's"),
    (bytes "c", bytes "x y")]) := by decide

/-! ## In separate texts -/

/-- The name, and what is behind it and the blanks that follow. -/
def nameOf (s : List UInt8) : List UInt8 × List UInt8 :=
  (s.takeWhile fun c => c ≠ '='.toUInt8 && !isspace c,
    (s.dropWhile fun c => c ≠ '='.toUInt8 && !isspace c).dropWhile isspace)

def unquoted : List UInt8 → List UInt8 × List UInt8
  | [] => ([], [])
  | c :: s =>
    if isspace c then ([], s)
    else if c = backslash then
      match s with
      | [] => ([], [])
      | d :: s => (d :: (unquoted s).1, (unquoted s).2)
    else (c :: (unquoted s).1, (unquoted s).2)

def quoted : List UInt8 → Option (List UInt8 × List UInt8)
  | [] => none
  | c :: s =>
    if c = backslash then
      match s with
      | [] => none
      | d :: s => (quoted s).map fun v => (d :: v.1, v.2)
    else if c = singleQuote then some ([], s)
    else (quoted s).map fun v => (c :: v.1, v.2)

def valueOf (s : List UInt8) : Option (List UInt8 × List UInt8) :=
  match s with
  | [] => some (unquoted [])
  | c :: s => if c = singleQuote then quoted s else some (unquoted (c :: s))

/-- A record and what is behind it. -/
def itemOf (s : List UInt8) : Option (Record × List UInt8) :=
  match (nameOf s).2 with
  | [] => none
  | c :: t =>
    if c = '='.toUInt8 then (valueOf (t.dropWhile isspace)).map fun v => (((nameOf s).1, v.1), v.2) else none

section
variable {s t v rest : List UInt8} {c d : UInt8}

lemma unquoted_blank (h : isspace c) (s : List UInt8) : unquoted (c :: s) = ([], s) := by rw [unquoted.eq_def]; simp [h]

lemma unquoted_escape (d : UInt8) (s : List UInt8) :
    unquoted (backslash :: d :: s) = (d :: (unquoted s).1, (unquoted s).2) := by
  rw [unquoted, if_neg (by decide), if_pos rfl]

lemma unquoted_plain (h : ¬isspace c) (slash : c ≠ backslash) (s : List UInt8) :
    unquoted (c :: s) = (c :: (unquoted s).1, (unquoted s).2) := by
  rw [unquoted.eq_def]
  simp [h, slash]

lemma quoted_escape (d : UInt8) (s : List UInt8) :
    quoted (backslash :: d :: s) = (quoted s).map fun v => (d :: v.1, v.2) := by
  rw [quoted, if_pos rfl]

lemma quoted_quote (s : List UInt8) : quoted (singleQuote :: s) = some ([], s) := by
  rw [quoted.eq_def]
  simp [show singleQuote ≠ backslash by decide]

lemma quoted_plain (slash : c ≠ backslash) (quote : c ≠ singleQuote) (s : List UInt8) :
    quoted (c :: s) = (quoted s).map fun v => (c :: v.1, v.2) := by
  rw [quoted.eq_def]
  simp [slash, quote]

lemma nameOf_equals (s : List UInt8) : nameOf ('='.toUInt8 :: s) = ([], '='.toUInt8 :: s) := by
  rw [nameOf, List.takeWhile_cons_of_neg (by simp), List.dropWhile_cons_of_neg (by simp),
    List.dropWhile_cons_of_neg (by decide)]

lemma nameOf_blank (h : isspace c) (s : List UInt8) : nameOf (c :: s) = ([], s.dropWhile isspace) := by
  rw [nameOf, List.takeWhile_cons_of_neg (by simp [h]), List.dropWhile_cons_of_neg (by simp [h]),
    List.dropWhile_cons_of_pos h]

lemma nameOf_cons (h : ¬isspace c) (eq : c ≠ '='.toUInt8) (s : List UInt8) :
    nameOf (c :: s) = (c :: (nameOf s).1, (nameOf s).2) := by
  rw [nameOf, List.takeWhile_cons_of_pos (by simp [h, eq]), List.dropWhile_cons_of_pos (by simp [h, eq]), nameOf]

lemma unquoted_suffix (s : List UInt8) : (unquoted s).2 <:+ s := by
  induction s using unquoted.induct with
  | case1 => exact List.suffix_rfl
  | case2 c s blank =>
    rw [unquoted_blank blank]
    exact List.suffix_cons c s
  | case3 => exact List.nil_suffix
  | case4 d s _ ih =>
    rw [unquoted_escape]
    exact ih.trans ((List.suffix_cons d s).trans (List.suffix_cons backslash _))
  | case5 c s blank slash ih =>
    rw [unquoted_plain blank slash]
    exact ih.trans (List.suffix_cons c s)

lemma quoted_suffix (h : quoted s = some (v, rest)) : rest <:+ s := by
  induction s using quoted.induct generalizing v with
  | case1 => cases h
  | case2 => cases h
  | case3 d s ih =>
    rw [quoted_escape, Option.map_eq_some_iff] at h
    obtain ⟨⟨w, r⟩, e, eq⟩ := h
    cases eq
    exact (ih e).trans ((List.suffix_cons d s).trans (List.suffix_cons backslash _))
  | case4 s _ =>
    rw [quoted_quote] at h
    cases h
    exact List.suffix_cons singleQuote _
  | case5 c s slash quote ih =>
    rw [quoted_plain slash quote, Option.map_eq_some_iff] at h
    obtain ⟨⟨w, r⟩, e, eq⟩ := h
    cases eq
    exact (ih e).trans (List.suffix_cons c s)

lemma unquoted_mem (h : d ∈ (unquoted s).1) : d ∈ s := by
  induction s using unquoted.induct with
  | case1 => cases h
  | case2 c s blank =>
    rw [unquoted_blank blank] at h
    cases h
  | case3 => cases h
  | case4 c s _ ih =>
    rw [unquoted_escape] at h
    exact List.mem_cons_of_mem _ (List.mem_cons.2 ((List.mem_cons.1 h).imp_right ih))
  | case5 c s blank slash ih =>
    rw [unquoted_plain blank slash] at h
    exact List.mem_cons.2 ((List.mem_cons.1 h).imp_right ih)

lemma quoted_mem (e : quoted s = some (v, rest)) (h : d ∈ v) : d ∈ s := by
  induction s using quoted.induct generalizing v with
  | case1 => cases e
  | case2 => cases e
  | case3 c s ih =>
    rw [quoted_escape, Option.map_eq_some_iff] at e
    obtain ⟨⟨w, r⟩, e, eq⟩ := e
    cases eq
    exact List.mem_cons_of_mem _ (List.mem_cons.2 ((List.mem_cons.1 h).imp_right (ih e)))
  | case4 s _ =>
    rw [quoted_quote] at e
    cases e
    cases h
  | case5 c s slash quote ih =>
    rw [quoted_plain slash quote, Option.map_eq_some_iff] at e
    obtain ⟨⟨w, r⟩, e, eq⟩ := e
    cases eq
    exact List.mem_cons.2 ((List.mem_cons.1 h).imp_right (ih e))

lemma nameOf_mem (h : d ∈ (nameOf s).1) : d ∈ s := List.takeWhile_sublist _ |>.subset h

lemma valueOf_suffix (h : valueOf s = some (v, rest)) : rest <:+ s := by
  cases s with
  | nil =>
    cases h
    exact List.suffix_rfl
  | cons c s =>
    rw [valueOf] at h
    split at h
    · exact (quoted_suffix h).trans (List.suffix_cons c s)
    · have e : (unquoted (c :: s)).2 = rest := congrArg Prod.snd (Option.some.inj h)
      exact e ▸ unquoted_suffix (c :: s)

lemma valueOf_mem (e : valueOf s = some (v, rest)) (h : d ∈ v) : d ∈ s := by
  cases s with
  | nil =>
    cases e
    cases h
  | cons c s =>
    rw [valueOf] at e
    split at e
    · exact List.mem_cons_of_mem _ (quoted_mem e h)
    · have first : (unquoted (c :: s)).1 = v := congrArg Prod.fst (Option.some.inj e)
      exact unquoted_mem (first ▸ h)

lemma nameOf_suffix (s : List UInt8) : (nameOf s).2 <:+ s :=
  (List.dropWhile_suffix _).trans (List.dropWhile_suffix _)

lemma itemOf_equals (h : (nameOf s).2 = '='.toUInt8 :: t) :
    itemOf s = (valueOf (t.dropWhile isspace)).map fun v => (((nameOf s).1, v.1), v.2) := by
  simp [itemOf, h]

lemma itemOf_other (h : (nameOf s).2.head? ≠ some '='.toUInt8) : itemOf s = none := by
  rw [itemOf]
  split
  · rfl
  next c t e =>
    rw [e, List.head?_cons, ne_eq, Option.some.injEq] at h
    exact if_neg h

lemma itemOf_some {r : Record} (h : itemOf s = some (r, rest)) :
    ∃ t v, (nameOf s).2 = '='.toUInt8 :: t ∧ valueOf (t.dropWhile isspace) = some (v, rest) ∧ r = ((nameOf s).1, v) := by
  by_cases eq : (nameOf s).2.head? = some '='.toUInt8
  · obtain ⟨t, e⟩ := List.head?_eq_some_iff.1 eq
    rw [itemOf_equals e, Option.map_eq_some_iff] at h
    obtain ⟨⟨v, r'⟩, value, eq'⟩ := h
    cases eq'
    exact ⟨t, v, e, value, rfl⟩
  · rw [itemOf_other eq] at h
    cases h

lemma itemOf_suffix {r : Record} (h : itemOf s = some (r, rest)) : rest <:+ s.tail := by
  obtain ⟨t, v, e, value, -⟩ := itemOf_some h
  have inside : '='.toUInt8 :: t <:+ s := e ▸ nameOf_suffix s
  have tail : t <:+ s.tail := by
    obtain ⟨x, rfl⟩ := inside
    cases x with
    | nil => exact List.suffix_rfl
    | cons y x => exact ⟨x ++ ['='.toUInt8], by simp⟩
  exact ((valueOf_suffix value).trans (List.dropWhile_suffix _)).trans tail

end

/-- The records of a text, one after another; there are none of a malformed text. -/
def records (s : List UInt8) : Option (List Record) :=
  match s with
  | [] => some []
  | c :: s =>
    if isspace c then records s
    else
      match _h : itemOf (c :: s) with
      | none => none
      | some (r, rest) => (records rest).map (r :: ·)
termination_by s.length
decreasing_by
  · exact Nat.lt_succ_self _
  · exact Nat.lt_succ_of_le (itemOf_suffix _h).length_le

/-! ## The buffer holds the text that is left -/

section
variable {a g m r v buf : List UInt8} {c d : UInt8} {i n cp cp2 : Nat}

lemma get_at (a : List UInt8) (c : UInt8) (r : List UInt8) : get (a ++ c :: r) a.length = some c := by
  rw [get, List.getElem?_append_right (Nat.le_refl _), Nat.sub_self, List.getElem?_cons_zero]

lemma get_next (a : List UInt8) (c d : UInt8) (r : List UInt8) : get (a ++ c :: d :: r) (a.length + 1) = some d := by
  rw [get, List.getElem?_append_right (Nat.le_succ _), show a.length + 1 - a.length = 1 by omega]
  rfl

lemma put_at (a : List UInt8) (c : UInt8) (r : List UInt8) (d : UInt8) :
    put (a ++ c :: r) a.length d = some (a ++ d :: r) := by
  rw [put, if_pos (by simp), List.set_append_right _ _ (Nat.le_refl _), Nat.sub_self, List.set_cons_zero]

/-- What is written behind the second pointer, when the first goes over a few cells. -/
lemma put_gap {u : List UInt8} (hu : u ≠ []) (a g t : List UInt8) (d : UInt8) :
    ∃ g1, put (a ++ g ++ (u ++ t)) a.length d = some (a ++ [d] ++ g1 ++ t) ∧
      (a ++ [d] ++ g1).length = (a ++ g).length + u.length ∧ (g ≠ [] → g1 ≠ []) := by
  obtain ⟨x, g1, e⟩ := List.exists_cons_of_ne_nil (List.append_ne_nil_of_right_ne_nil g hu)
  have length := congrArg List.length e
  rw [List.length_append, List.length_cons] at length
  have one := List.length_pos_iff.2 hu
  refine ⟨g1, ?_, ?_, fun hg => ?_⟩
  · rw [List.append_assoc, ← List.append_assoc g, e, List.cons_append, put_at]
    simp
  · simp only [List.length_append, List.length_singleton]
    omega
  · have two := List.length_pos_iff.2 hg
    exact List.length_pos_iff.1 (by omega)

lemma cString_at (hv : 0 ∉ m) (h : a ++ m ++ [0] <+: buf) : cString buf a.length = some m := by
  obtain ⟨t, rfl⟩ := h
  have e : (a ++ m ++ [0] ++ t).drop a.length = m ++ 0 :: t := by simp
  rw [cString, e, if_pos (by simp), cStr_append hv, show cStr (0 :: t) = [] from rfl, List.append_nil]

/-! One turn of each loop, by what is at the pointer. -/

lemma skipBlanks_stop (h : get buf cp = some c) (stop : ¬isspace c) : skipBlanks (n + 1) buf cp = some cp := by
  simp [skipBlanks, h, stop]

lemma skipBlanks_blank (h : get buf cp = some c) (hc : c ≠ 0) (blank : isspace c) :
    skipBlanks (n + 1) buf cp = skipBlanks n buf (cp + 1) := by
  simp [skipBlanks, h, hc, blank]

lemma nameLoop_stop (h : get buf cp = some c) (stop : c = 0 ∨ c = '='.toUInt8) :
    nameLoop (n + 1) buf cp = some (buf, cp) := by
  obtain rfl | rfl := stop <;> simp [nameLoop, h]

lemma nameLoop_blank (h : get buf cp = some c) (hc : c ≠ 0) (eq : c ≠ '='.toUInt8) (blank : isspace c) :
    nameLoop (n + 1) buf cp =
      (put buf cp 0).bind fun buf => (skipBlanks buf.length buf (cp + 1)).map fun cp => (buf, cp) := by
  simp only [nameLoop, h, hc, eq, blank, Option.bind_eq_bind, Option.bind_some, if_false, if_true, Option.pure_def,
    Option.map_eq_bind, Function.comp_def]

lemma nameLoop_char (h : get buf cp = some c) (hc : c ≠ 0) (eq : c ≠ '='.toUInt8) (blank : ¬isspace c) :
    nameLoop (n + 1) buf cp = nameLoop n buf (cp + 1) := by
  simp [nameLoop, h, hc, eq, blank]

lemma unquotedLoop_end (h : get buf cp = some 0) : unquotedLoop (n + 1) buf cp cp2 = some (buf, cp, cp2) := by
  simp [unquotedLoop, h]

lemma unquotedLoop_blank (h : get buf cp = some c) (hc : c ≠ 0) (blank : isspace c) :
    unquotedLoop (n + 1) buf cp cp2 = (put buf cp 0).map fun buf => (buf, cp + 1, cp2) := by
  simp [unquotedLoop, h, hc, blank, Option.map_eq_bind]

lemma unquotedLoop_escape (h : get buf cp = some backslash) (h' : get buf (cp + 1) = some d) (hd : d ≠ 0) :
    unquotedLoop (n + 1) buf cp cp2 = (put buf cp2 d).bind fun buf => unquotedLoop n buf (cp + 2) (cp2 + 1) := by
  simp [unquotedLoop, h, h', hd, show backslash ≠ 0 by decide, show isspace backslash = false by decide]

lemma unquotedLoop_slash (h : get buf cp = some backslash) (h' : get buf (cp + 1) = some 0) :
    unquotedLoop (n + 1) buf cp cp2 = unquotedLoop n buf (cp + 1) cp2 := by
  simp [unquotedLoop, h, h', show backslash ≠ 0 by decide, show isspace backslash = false by decide]

lemma unquotedLoop_char (h : get buf cp = some c) (hc : c ≠ 0) (blank : ¬isspace c) (slash : c ≠ backslash) :
    unquotedLoop (n + 1) buf cp cp2 = (put buf cp2 c).bind fun buf => unquotedLoop n buf (cp + 1) (cp2 + 1) := by
  simp [unquotedLoop, h, hc, blank, slash]

lemma quotedLoop_end (h : get buf cp = some 0) : quotedLoop (n + 1) buf cp cp2 = some none := by
  simp [quotedLoop, h]

lemma quotedLoop_escape (h : get buf cp = some backslash) (h' : get buf (cp + 1) = some d) (hd : d ≠ 0) :
    quotedLoop (n + 1) buf cp cp2 = (put buf cp2 d).bind fun buf => quotedLoop n buf (cp + 2) (cp2 + 1) := by
  simp [quotedLoop, h, h', hd, show backslash ≠ 0 by decide]

lemma quotedLoop_slash (h : get buf cp = some backslash) (h' : get buf (cp + 1) = some 0) :
    quotedLoop (n + 1) buf cp cp2 = quotedLoop n buf (cp + 1) cp2 := by
  simp [quotedLoop, h, h', show backslash ≠ 0 by decide]

lemma quotedLoop_quote (h : get buf cp = some singleQuote) :
    quotedLoop (n + 1) buf cp cp2 = (put buf cp2 0).map fun buf => some (buf, cp + 1) := by
  simp [quotedLoop, h, show singleQuote ≠ 0 by decide, show singleQuote ≠ backslash by decide, Option.map_eq_bind]

lemma quotedLoop_char (h : get buf cp = some c) (hc : c ≠ 0) (slash : c ≠ backslash) (quote : c ≠ singleQuote) :
    quotedLoop (n + 1) buf cp cp2 = (put buf cp2 c).bind fun buf => quotedLoop n buf (cp + 1) (cp2 + 1) := by
  simp [quotedLoop, h, hc, slash, quote]

/-! All turns, by the text that is left. -/

lemma skipBlanks_eq (hn : r.length < n) (hr : 0 ∉ r) :
    skipBlanks n (a ++ (r ++ [0])) a.length = some (a ++ r.takeWhile isspace).length := by
  induction r generalizing a n with
  | nil =>
    obtain ⟨n, rfl⟩ := Nat.exists_eq_add_of_lt hn
    rw [List.nil_append, skipBlanks_stop (get_at a 0 []) (by decide), List.takeWhile_nil, List.append_nil]
  | cons c r ih =>
    obtain ⟨n, rfl⟩ : ∃ k, n = k + 1 := ⟨n - 1, by omega⟩
    obtain ⟨hc, hr⟩ := not_or.1 (mt List.mem_cons.2 hr)
    by_cases blank : isspace c
    · have step := ih (a := a ++ [c]) (n := n) (by simpa using hn) hr
      rw [List.append_assoc, List.singleton_append, List.length_append] at step
      rw [List.cons_append, skipBlanks_blank (get_at a c _) (Ne.symm hc) blank, List.takeWhile_cons_of_pos blank]
      simpa using step
    · rw [List.cons_append, skipBlanks_stop (get_at a c _) blank, List.takeWhile_cons_of_neg blank, List.append_nil]

/-- The buffer behind a name has a NUL there, or the text that is left. -/
lemma nameLoop_eq (hn : r.length < n) (hr : 0 ∉ r) :
    ∃ g, nameLoop n (a ++ (r ++ [0])) a.length =
        some (a ++ (nameOf r).1 ++ g ++ ((nameOf r).2 ++ [0]), (a ++ (nameOf r).1 ++ g).length) ∧
      (g = [] ∨ ∃ g', g = 0 :: g') := by
  induction r generalizing a n with
  | nil =>
    obtain ⟨n, rfl⟩ := Nat.exists_eq_add_of_lt hn
    exact ⟨[], by simp [nameLoop_stop (get_at a 0 []) (.inl rfl), nameOf], .inl rfl⟩
  | cons c r ih =>
    obtain ⟨n, rfl⟩ : ∃ k, n = k + 1 := ⟨n - 1, by omega⟩
    obtain ⟨hc, hr⟩ := not_or.1 (mt List.mem_cons.2 hr)
    rw [List.cons_append]
    by_cases eq : c = '='.toUInt8
    · subst eq
      exact ⟨[], by simp [nameLoop_stop (get_at a _ _) (.inr rfl), nameOf_equals], .inl rfl⟩
    by_cases blank : isspace c
    · refine ⟨0 :: r.takeWhile isspace, ?_, .inr ⟨_, rfl⟩⟩
      have shape : a ++ 0 :: (r ++ [0]) = a ++ [0] ++ (r ++ [0]) := by simp
      have skip := skipBlanks_eq (a := a ++ [0]) (n := (a ++ [0] ++ (r ++ [0])).length) (by simp; omega) hr
      rw [show (a ++ [(0 : UInt8)]).length = a.length + 1 by simp] at skip
      rw [nameLoop_blank (get_at a c _) (Ne.symm hc) eq blank, put_at, Option.bind_some, shape, skip, nameOf_blank blank,
        Option.map_some]
      have whole : r.takeWhile isspace ++ (r.dropWhile isspace ++ [0]) = r ++ [0] := by
        rw [← List.append_assoc, List.takeWhile_append_dropWhile]
      simp [whole]
    · obtain ⟨g, e, hg⟩ := ih (a := a ++ [c]) (n := n) (by simpa using hn) hr
      refine ⟨g, ?_, hg⟩
      rw [List.append_assoc, List.singleton_append, List.length_append] at e
      rw [nameLoop_char (get_at a c _) (Ne.symm hc) eq blank, nameOf_cons blank eq]
      simpa using e

lemma get_last (a : List UInt8) (c : UInt8) : get (a ++ [c, 0]) (a.length + 1) = some 0 := get_next a c 0 []

/-- The value is behind what is before the second pointer, and behind the first is the text that is left. The two are only
    together where the text ends. -/
lemma unquotedLoop_eq (hn : r.length < n) (hr : 0 ∉ r) :
    ∃ g', unquotedLoop n (a ++ g ++ (r ++ [0])) (a ++ g).length a.length =
        some (a ++ (unquoted r).1 ++ g' ++ ((unquoted r).2 ++ [0]), (a ++ (unquoted r).1 ++ g').length,
          (a ++ (unquoted r).1).length) ∧
      (g' = [] → (unquoted r).2 = []) := by
  induction r using unquoted.induct generalizing a g n with
  | case1 =>
    obtain ⟨n, rfl⟩ := Nat.exists_eq_add_of_lt hn
    refine ⟨g, ?_, fun _ => rfl⟩
    rw [List.nil_append, unquotedLoop_end (get_at (a ++ g) 0 [])]
    simp [unquoted]
  | case2 c r blank =>
    obtain ⟨n, rfl⟩ : ∃ k, n = k + 1 := ⟨n - 1, by omega⟩
    have hc : c ≠ 0 := fun e => hr (e ▸ List.mem_cons_self)
    refine ⟨g ++ [0], ?_, by simp⟩
    rw [List.cons_append, unquotedLoop_blank (get_at (a ++ g) c _) hc blank, put_at, unquoted_blank blank]
    simp [Nat.add_assoc]
  | case3 =>
    obtain ⟨n, rfl⟩ : ∃ k, n = k + 2 := ⟨n - 2, by simp at hn; omega⟩
    refine ⟨g ++ [backslash], ?_, by simp [unquoted]⟩
    rw [List.singleton_append, unquotedLoop_slash (get_at (a ++ g) backslash [0]) (get_last (a ++ g) backslash),
      unquotedLoop_end (get_last (a ++ g) backslash)]
    simp [unquoted, Nat.add_assoc]
  | case4 d r _ ih =>
    obtain ⟨n, rfl⟩ : ∃ k, n = k + 1 := ⟨n - 1, by omega⟩
    simp only [List.mem_cons, not_or] at hr
    obtain ⟨g1, written, length, -⟩ := put_gap (List.cons_ne_nil backslash [d]) a g (r ++ [0]) d
    obtain ⟨g', e, hg⟩ := ih (a := a ++ [d]) (g := g1) (n := n) (by simp at hn; omega) hr.2.2
    refine ⟨g', ?_, by rwa [unquoted_escape]⟩
    rw [List.cons_append, List.singleton_append] at written
    rw [length, show (a ++ [d]).length = a.length + 1 by simp] at e
    rw [List.cons_append, List.cons_append,
      unquotedLoop_escape (get_at (a ++ g) backslash _) (get_next (a ++ g) backslash d _) (Ne.symm hr.2.1), written,
      Option.bind_some, unquoted_escape]
    simpa using e
  | case5 c r blank slash ih =>
    obtain ⟨n, rfl⟩ : ∃ k, n = k + 1 := ⟨n - 1, by omega⟩
    obtain ⟨hc, hr⟩ := not_or.1 (mt List.mem_cons.2 hr)
    obtain ⟨g1, written, length, -⟩ := put_gap (List.cons_ne_nil c []) a g (r ++ [0]) c
    obtain ⟨g', e, hg⟩ := ih (a := a ++ [c]) (g := g1) (n := n) (by simpa using hn) hr
    refine ⟨g', ?_, by rwa [unquoted_plain blank slash]⟩
    rw [List.singleton_append] at written
    rw [length, show (a ++ [c]).length = a.length + 1 by simp] at e
    rw [List.cons_append, unquotedLoop_char (get_at (a ++ g) c _) (Ne.symm hc) blank slash, written, Option.bind_some,
      unquoted_plain blank slash]
    simpa using e

/-- The same within quotes, where the second pointer is always behind. -/
lemma quotedLoop_eq (hn : r.length < n) (hr : 0 ∉ r) (hg : g ≠ []) :
    (quoted r = none → quotedLoop n (a ++ g ++ (r ++ [0])) (a ++ g).length a.length = some none) ∧
      ∀ v rest, quoted r = some (v, rest) → ∃ g',
        quotedLoop n (a ++ g ++ (r ++ [0])) (a ++ g).length a.length =
          some (some (a ++ v ++ [0] ++ g' ++ (rest ++ [0]), (a ++ v ++ [0] ++ g').length)) := by
  induction r using quoted.induct generalizing a g n with
  | case1 =>
    obtain ⟨n, rfl⟩ := Nat.exists_eq_add_of_lt hn
    refine ⟨fun _ => ?_, nofun⟩
    rw [List.nil_append, quotedLoop_end (get_at (a ++ g) 0 [])]
  | case2 =>
    obtain ⟨n, rfl⟩ : ∃ k, n = k + 2 := ⟨n - 2, by simp at hn; omega⟩
    refine ⟨fun _ => ?_, nofun⟩
    rw [List.singleton_append, quotedLoop_slash (get_at (a ++ g) backslash [0]) (get_last (a ++ g) backslash),
      quotedLoop_end (get_last (a ++ g) backslash)]
  | case3 d r ih =>
    obtain ⟨n, rfl⟩ : ∃ k, n = k + 1 := ⟨n - 1, by omega⟩
    simp only [List.mem_cons, not_or] at hr
    obtain ⟨g1, written, length, filled⟩ := put_gap (List.cons_ne_nil backslash [d]) a g (r ++ [0]) d
    have ih := ih (a := a ++ [d]) (g := g1) (n := n) (by simp at hn; omega) hr.2.2 (filled hg)
    rw [List.cons_append, List.singleton_append] at written
    rw [length, show (a ++ [d]).length = a.length + 1 by simp] at ih
    rw [List.cons_append, List.cons_append,
      quotedLoop_escape (get_at (a ++ g) backslash _) (get_next (a ++ g) backslash d _) (Ne.symm hr.2.1), written,
      Option.bind_some, quoted_escape]
    refine ⟨fun h => ih.1 (Option.map_eq_none_iff.1 h), fun v rest h => ?_⟩
    obtain ⟨⟨w, t⟩, e, eq⟩ := Option.map_eq_some_iff.1 h
    cases eq
    simpa using ih.2 w t e
  | case4 r _ =>
    obtain ⟨n, rfl⟩ : ∃ k, n = k + 1 := ⟨n - 1, by omega⟩
    obtain ⟨g1, written, length, -⟩ := put_gap (List.cons_ne_nil singleQuote []) a g (r ++ [0]) 0
    rw [List.singleton_append] at written
    rw [quoted_quote]
    refine ⟨nofun, fun v rest h => ?_⟩
    cases h
    refine ⟨g1, ?_⟩
    rw [List.cons_append, quotedLoop_quote (get_at (a ++ g) singleQuote _), written, Option.map_some, List.append_nil, length]
    rfl
  | case5 c r slash quote ih =>
    obtain ⟨n, rfl⟩ : ∃ k, n = k + 1 := ⟨n - 1, by omega⟩
    obtain ⟨hc, hr⟩ := not_or.1 (mt List.mem_cons.2 hr)
    obtain ⟨g1, written, length, filled⟩ := put_gap (List.cons_ne_nil c []) a g (r ++ [0]) c
    have ih := ih (a := a ++ [c]) (g := g1) (n := n) (by simpa using hn) hr (filled hg)
    rw [List.singleton_append] at written
    rw [length, show (a ++ [c]).length = a.length + 1 by simp] at ih
    rw [List.cons_append, quotedLoop_char (get_at (a ++ g) c _) (Ne.symm hc) slash quote, written, Option.bind_some,
      quoted_plain slash quote]
    refine ⟨fun h => ih.1 (Option.map_eq_none_iff.1 h), fun v rest h => ?_⟩
    obtain ⟨⟨w, t⟩, e, eq⟩ := Option.map_eq_some_iff.1 h
    cases eq
    simpa using ih.2 w t e

/-- The NUL behind a value without quotes. -/
lemma put_end (v g rest : List UInt8) (h : g = [] → rest = []) :
    ∃ q, put (v ++ g ++ (rest ++ [0])) v.length 0 = some (q ++ (rest ++ [0])) ∧ q.length = (v ++ g).length ∧
      v ++ [0] <+: q ++ (rest ++ [0]) := by
  cases g with
  | nil =>
    refine ⟨v, ?_, by rw [List.append_nil], by rw [h rfl]; exact List.prefix_rfl⟩
    rw [h rfl, List.append_nil, List.nil_append, put_at]
  | cons c g =>
    refine ⟨v ++ 0 :: g, ?_, by simp, ⟨g ++ (rest ++ [0]), by simp⟩⟩
    rw [List.append_assoc, List.cons_append, put_at]
    simp

lemma valueAt_unquoted (h : get buf i = some c) (hc : c ≠ singleQuote)
    (loop : unquotedLoop buf.length buf i i = some (g, cp, cp2)) :
    valueAt buf i = (put g cp2 0).map fun buf => some (buf, cp) := by
  simp [valueAt, h, hc, loop, Option.map_eq_bind]

lemma valueAt_quoted (h : get buf i = some singleQuote) : valueAt buf i = quotedLoop buf.length buf (i + 1) i := by
  simp [valueAt, h]

lemma valueAt_eq (hr : 0 ∉ r) :
    (valueOf r = none → valueAt (a ++ (r ++ [0])) a.length = some none) ∧
      ∀ v rest, valueOf r = some (v, rest) →
        ∃ q, valueAt (a ++ (r ++ [0])) a.length = some (some (q ++ (rest ++ [0]), q.length)) ∧
          a ++ v ++ [0] <+: q ++ (rest ++ [0]) := by
  have plain : ∀ c t, r ++ [0] = c :: t → c ≠ singleQuote →
      ∃ q, valueAt (a ++ (r ++ [0])) a.length = some (some (q ++ ((unquoted r).2 ++ [0]), q.length)) ∧
        a ++ (unquoted r).1 ++ [0] <+: q ++ ((unquoted r).2 ++ [0]) := by
    intro c t e hc
    obtain ⟨g, loop, together⟩ := unquotedLoop_eq (a := a) (g := []) (n := (a ++ (r ++ [0])).length) (by simp; omega) hr
    rw [List.append_nil] at loop
    obtain ⟨q, written, length, begins⟩ := put_end (a ++ (unquoted r).1) g (unquoted r).2 together
    refine ⟨q, ?_, begins⟩
    rw [valueAt_unquoted (by rw [e]; exact get_at a c t) hc loop, written, length]
    rfl
  cases r with
  | nil =>
    refine ⟨nofun, fun v rest h => ?_⟩
    cases h
    exact plain 0 [] rfl (by decide)
  | cons c t =>
    rw [valueOf]
    by_cases quote : c = singleQuote
    · subst quote
      have hn : t.length < (a ++ singleQuote :: (t ++ [0])).length := by simp; omega
      have loop := quotedLoop_eq (a := a) hn (mt (List.mem_cons_of_mem _) hr) (List.cons_ne_nil singleQuote [])
      rw [List.append_assoc a [singleQuote], List.singleton_append, show (a ++ [singleQuote]).length = a.length + 1 by simp] at loop
      rw [if_pos rfl, List.cons_append, valueAt_quoted (get_at a _ _)]
      refine ⟨loop.1, fun v rest h => ?_⟩
      obtain ⟨g, e⟩ := loop.2 v rest h
      exact ⟨a ++ v ++ [0] ++ g, e, ⟨g ++ (rest ++ [0]), by simp⟩⟩
    · rw [if_neg quote]
      refine ⟨nofun, fun v rest h => ?_⟩
      have first : (unquoted (c :: t)).1 = v := congrArg Prod.fst (Option.some.inj h)
      have second : (unquoted (c :: t)).2 = rest := congrArg Prod.snd (Option.some.inj h)
      rw [← first, ← second]
      exact plain c _ (List.cons_append ..) quote

lemma itemAt_other (name : nameLoop buf.length buf i = some (g, cp)) (h : get g cp = some c) (hc : c ≠ '='.toUInt8) :
    itemAt buf i = some none := by
  simp [itemAt, name, h, hc]

lemma itemAt_equals (name : nameLoop buf.length buf i = some (g, cp)) (h : get g cp = some '='.toUInt8)
    (written : put g cp 0 = some m) (skip : skipBlanks m.length m (cp + 1) = some cp2) :
    itemAt buf i = (valueAt m cp2).bind fun
      | none => some none
      | some (buf, cp) => (cString buf i).bind fun name => (cString buf cp2).map fun value =>
        some ((name, value), buf, cp) := by
  simp only [itemAt, name, h, written, skip, Option.bind_eq_bind, Option.bind_some, ne_eq, not_true_eq_false, if_false,
    Option.pure_def, Option.map_eq_bind, Function.comp_def]

/-- An item is read out of the buffer as it is out of the text that is left, and leaves the rest of it. -/
lemma itemAt_eq (hr : 0 ∉ r) :
    (itemOf r = none → itemAt (a ++ (r ++ [0])) a.length = some none) ∧
      ∀ record rest, itemOf r = some (record, rest) →
        ∃ q, itemAt (a ++ (r ++ [0])) a.length = some (some (record, q ++ (rest ++ [0]), q.length)) := by
  obtain ⟨g, name, hg⟩ := nameLoop_eq (a := a) (n := (a ++ (r ++ [0])).length) (by simp; omega) hr
  by_cases equals : (nameOf r).2.head? = some '='.toUInt8
  · obtain ⟨t, behind⟩ := List.head?_eq_some_iff.1 equals
    have inside : '='.toUInt8 :: t <:+ r := behind ▸ nameOf_suffix r
    have ht : 0 ∉ t := fun mem => hr (inside.subset (List.mem_cons_of_mem _ mem))
    have hs : 0 ∉ t.dropWhile isspace := fun mem => ht ((List.dropWhile_suffix _).subset mem)
    rw [behind, List.cons_append] at name
    -- What is before the value: the name, a NUL, and blanks.
    generalize hb : a ++ (nameOf r).1 ++ g ++ [0] ++ t.takeWhile isspace = b
    have ended : a ++ (nameOf r).1 ++ [0] <+: b := by
      rw [← hb]
      obtain rfl | ⟨g', rfl⟩ := hg
      · exact ⟨t.takeWhile isspace, by simp⟩
      · exact ⟨g' ++ [0] ++ t.takeWhile isspace, by simp⟩
    have buffer : a ++ (nameOf r).1 ++ g ++ 0 :: (t ++ [0]) = b ++ (t.dropWhile isspace ++ [0]) := by
      rw [← hb, List.append_assoc (_ ++ [0]), ← List.append_assoc (t.takeWhile _), List.takeWhile_append_dropWhile]
      simp
    have skip := skipBlanks_eq (a := a ++ (nameOf r).1 ++ g ++ [0]) (n := (b ++ (t.dropWhile isspace ++ [0])).length)
      (by rw [← buffer]; simp; omega) ht
    rw [hb, List.append_assoc _ [0], List.singleton_append, buffer,
      show (a ++ (nameOf r).1 ++ g ++ [(0 : UInt8)]).length = (a ++ (nameOf r).1 ++ g).length + 1 by simp; omega] at skip
    rw [itemAt_equals name (get_at _ _ _) (put_at _ _ _ 0) (by rw [buffer]; exact skip), buffer, itemOf_equals behind]
    obtain ⟨none, some⟩ := valueAt_eq (a := b) hs
    refine ⟨fun h => ?_, fun record rest h => ?_⟩
    · rw [none (Option.map_eq_none_iff.1 h)]
      rfl
    · obtain ⟨⟨v, rest'⟩, value, e⟩ := Option.map_eq_some_iff.1 h
      cases e
      obtain ⟨q, e, begins⟩ := some v _ value
      have hv : 0 ∉ v := fun mem => hs (valueOf_mem value mem)
      have hname : 0 ∉ (nameOf r).1 := fun mem => hr (nameOf_mem mem)
      have first := cString_at hname (ended.trans ((List.prefix_append b (v ++ [0])).trans (by simpa using begins)))
      refine ⟨q, ?_⟩
      rw [e, Option.bind_some]
      simp only [first, cString_at hv begins, Option.bind_some, Option.map_some]
  · refine ⟨fun _ => ?_, fun record rest h => ?_⟩
    · cases behind : (nameOf r).2 with
      | nil =>
        rw [behind, List.nil_append] at name
        exact itemAt_other name (get_at _ 0 []) (by decide)
      | cons c t =>
        rw [behind, List.cons_append] at name
        exact itemAt_other name (get_at _ c _) fun e => equals (by rw [behind, e, List.head?_cons])
    · rw [itemOf_other equals] at h
      cases h

lemma records_nil : records [] = some [] := by rw [records]

lemma records_blank (h : isspace c) (s : List UInt8) : records (c :: s) = records s := by rw [records, if_pos h]

lemma records_item (h : ¬isspace c) (s : List UInt8) :
    records (c :: s) = (itemOf (c :: s)).bind fun x => (records x.2).map (x.1 :: ·) := by
  rw [records, if_neg h]
  split
  next e =>
    rw [e]
    rfl
  next e =>
    rw [e]
    rfl

lemma optLoop_eq (hn : r.length < n) (hr : 0 ∉ r) (options : List Record) :
    optLoop n (a ++ (r ++ [0])) a.length options = some ((records r).map (options ++ ·)) := by
  induction n generalizing a r options with
  | zero => omega
  | succ n ih =>
    cases r with
    | nil => simp [optLoop, get_at, records_nil]
    | cons c r =>
      obtain ⟨hc, tail⟩ := not_or.1 (mt List.mem_cons.2 hr)
      rw [List.length_cons] at hn
      by_cases blank : isspace c
      · have rest := ih (a := a ++ [c]) (r := r) (by omega) tail options
        rw [List.append_assoc, List.singleton_append, show (a ++ [c]).length = a.length + 1 by simp] at rest
        rw [records_blank blank, ← rest]
        simp [optLoop, get_at, Ne.symm hc, blank]
      · obtain ⟨none, some⟩ := itemAt_eq (a := a) hr
        have here := get_at a c (r ++ [0])
        rw [← List.cons_append] at here
        rw [records_item blank]
        cases e : itemOf (c :: r) with
        | none =>
          simp only [optLoop, here, Option.bind_eq_bind, Option.bind_some, Ne.symm hc, blank, if_false, none e]
          rfl
        | some x =>
          obtain ⟨record, rest⟩ := x
          obtain ⟨q, item⟩ := some record rest e
          have shorter : rest <:+ r := itemOf_suffix e
          have further := ih (a := q) (r := rest) (by have := shorter.length_le; omega) (fun mem => tail (shorter.subset mem))
            (options ++ [record])
          simp only [optLoop, here, Option.bind_eq_bind, Option.bind_some, Ne.symm hc, blank, if_false, item, further]
          simp [Function.comp_def]

/-- In the copy the same records are found as in separate texts. -/
theorem recordsOf_eq (opts : List UInt8) : recordsOf opts = some (records (cStr opts)) := by
  have hr : 0 ∉ cStr opts := zero_cStr opts
  have := optLoop_eq (a := []) (n := (cStr opts ++ [0]).length) (by simp) hr []
  simpa [recordsOf] using this

end

end ArrowheadCore.Utils.INIFile
