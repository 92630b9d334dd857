import ArrowheadCore.Lib.Traced
import ArrowheadCore.Utils.ParseOpt

/-!
# The pointers of `parse_opt`

The functions of `parse_opt` with notes: of every byte of the copy that is read, and of every byte that is written with the
place of `cp` at that time. Without the notes they are the functions of `ParseOpt`.
-/

namespace ArrowheadCore.Utils.INIFile
open Lib

/-- A byte that is read, or written while the first pointer is at `cp`. -/
inductive Access where
  | read (i : Nat)
  | write (i cp : Nat)
deriving DecidableEq, Repr

namespace Steps

abbrev M := Traced Empty Access

def get (buf : List UInt8) (i : Nat) : M UInt8 := Traced.noting [.read i] (INIFile.get buf i)

def put (buf : List UInt8) (cp i : Nat) (c : UInt8) : M (List UInt8) := Traced.noting [.write i cp] (INIFile.put buf i c)

def cString (buf : List UInt8) (i : Nat) : M (List UInt8) :=
  Traced.noting ((List.range ((cStr (buf.drop i)).length + 1)).map fun k => .read (i + k)) (INIFile.cString buf i)

def skipBlanks : Nat → List UInt8 → Nat → M Nat
  | 0, _, _ => Traced.diverge
  | n + 1, buf, cp => do
    let c ← get buf cp
    if c = 0 then return cp
    if !isspace c then return cp
    skipBlanks n buf (cp + 1)

def nameLoop : Nat → List UInt8 → Nat → M (List UInt8 × Nat)
  | 0, _, _ => Traced.diverge
  | n + 1, buf, cp => do
    let c ← get buf cp
    if c = 0 then return (buf, cp)
    if c = '='.toUInt8 then return (buf, cp)
    if isspace c then
      let buf ← put buf cp cp 0
      let cp ← skipBlanks buf.length buf (cp + 1)
      return (buf, cp)
    nameLoop n buf (cp + 1)

def unquotedLoop : Nat → List UInt8 → Nat → Nat → M (List UInt8 × Nat × Nat)
  | 0, _, _, _ => Traced.diverge
  | n + 1, buf, cp, cp2 => do
    let c ← get buf cp
    if c = 0 then return (buf, cp, cp2)
    if isspace c then
      let buf ← put buf cp cp 0
      return (buf, cp + 1, cp2)
    if c = backslash then
      let d ← get buf (cp + 1)
      if d ≠ 0 then
        let buf ← put buf (cp + 1) cp2 d
        unquotedLoop n buf (cp + 2) (cp2 + 1)
      else unquotedLoop n buf (cp + 1) cp2
    else
      let buf ← put buf cp cp2 c
      unquotedLoop n buf (cp + 1) (cp2 + 1)

def quotedLoop : Nat → List UInt8 → Nat → Nat → M (Option (List UInt8 × Nat))
  | 0, _, _, _ => Traced.diverge
  | n + 1, buf, cp, cp2 => do
    let c ← get buf cp
    if c = 0 then return none
    if c = backslash then
      let d ← get buf (cp + 1)
      if d ≠ 0 then
        let buf ← put buf (cp + 1) cp2 d
        quotedLoop n buf (cp + 2) (cp2 + 1)
      else quotedLoop n buf (cp + 1) cp2
    else if c = singleQuote then
      let buf ← put buf cp cp2 0
      return some (buf, cp + 1)
    else
      let buf ← put buf cp cp2 c
      quotedLoop n buf (cp + 1) (cp2 + 1)

def valueAt (buf : List UInt8) (pval : Nat) : M (Option (List UInt8 × Nat)) := do
  let c ← get buf pval
  if c ≠ singleQuote then
    let (buf, cp, cp2) ← unquotedLoop buf.length buf pval pval
    let buf ← put buf cp cp2 0
    return some (buf, cp)
  quotedLoop buf.length buf (pval + 1) pval

def itemAt (buf : List UInt8) (pname : Nat) : M (Option (Record × List UInt8 × Nat)) := do
  let (buf, cp) ← nameLoop buf.length buf pname
  let c ← get buf cp
  if c ≠ '='.toUInt8 then return none
  let buf ← put buf cp cp 0
  let pval ← skipBlanks buf.length buf (cp + 1)
  match ← valueAt buf pval with
  | none => return none
  | some (buf, cp) => return some ((← cString buf pname, ← cString buf pval), buf, cp)

def optLoop : Nat → List UInt8 → Nat → List Record → M (Option (List Record))
  | 0, _, _, _ => Traced.diverge
  | n + 1, buf, cp, options => do
    let c ← get buf cp
    if c = 0 then return some options
    if isspace c then optLoop n buf (cp + 1) options
    else
      match ← itemAt buf cp with
      | none => return none
      | some (record, buf, cp) => optLoop n buf cp (options ++ [record])

def recordsOf (opts : List UInt8) : M (Option (List Record)) :=
  let buf := cStr opts ++ [0]
  optLoop buf.length buf 0 []

/-- C++ `INIFile::parse_opt` -/
def parse_opt (opts : List UInt8) : M Options := do return stored ((← recordsOf opts).getD [])

/-! ## Without the notes -/

section
variable {α β : Type}

lemma outcome_get (buf : List UInt8) (i : Nat) : (get buf i).outcome = (INIFile.get buf i).map .ok := Traced.outcome_noting _ _

lemma outcome_put (buf : List UInt8) (cp i : Nat) (c : UInt8) : (put buf cp i c).outcome = (INIFile.put buf i c).map .ok :=
  Traced.outcome_noting _ _

lemma outcome_cString (buf : List UInt8) (i : Nat) : (cString buf i).outcome = (INIFile.cString buf i).map .ok :=
  Traced.outcome_noting _ _

/-- What has the outcome of an `Option`, and what comes behind it. -/
lemma outcome_then {m : M α} {x : Option α} (h : m.outcome = x.map .ok) (f : α → M β) (g : α → Option β)
    (hf : ∀ a, (f a).outcome = (g a).map .ok) : (m >>= f).outcome = (x >>= g).map .ok := by
  rw [Traced.outcome_bind, h]
  cases x with
  | none => rfl
  | some a => exact hf a

lemma outcome_skipBlanks (n : Nat) (buf : List UInt8) (cp : Nat) :
    (skipBlanks n buf cp).outcome = (INIFile.skipBlanks n buf cp).map .ok := by
  induction n generalizing cp with
  | zero => rfl
  | succ n ih =>
    refine outcome_then (outcome_get buf cp) _ _ fun c => ?_
    split
    · rfl
    split
    · rfl
    · exact ih (cp + 1)

lemma outcome_nameLoop (n : Nat) (buf : List UInt8) (cp : Nat) :
    (nameLoop n buf cp).outcome = (INIFile.nameLoop n buf cp).map .ok := by
  induction n generalizing cp with
  | zero => rfl
  | succ n ih =>
    refine outcome_then (outcome_get buf cp) _ _ fun c => ?_
    split
    · rfl
    split
    · rfl
    split
    · refine outcome_then (outcome_put buf cp cp 0) _ _ fun buf => ?_
      exact outcome_then (outcome_skipBlanks _ buf _) _ _ fun _ => rfl
    · exact ih (cp + 1)

lemma outcome_unquotedLoop (n : Nat) (buf : List UInt8) (cp cp2 : Nat) :
    (unquotedLoop n buf cp cp2).outcome = (INIFile.unquotedLoop n buf cp cp2).map .ok := by
  induction n generalizing buf cp cp2 with
  | zero => rfl
  | succ n ih =>
    refine outcome_then (outcome_get buf cp) _ _ fun c => ?_
    split
    · rfl
    split
    · exact outcome_then (outcome_put buf cp cp 0) _ _ fun _ => rfl
    split
    · refine outcome_then (outcome_get buf (cp + 1)) _ _ fun d => ?_
      split
      · exact outcome_then (outcome_put buf (cp + 1) cp2 d) _ _ fun buf => ih buf _ _
      · exact ih buf _ _
    · exact outcome_then (outcome_put buf cp cp2 c) _ _ fun buf => ih buf _ _

lemma outcome_quotedLoop (n : Nat) (buf : List UInt8) (cp cp2 : Nat) :
    (quotedLoop n buf cp cp2).outcome = (INIFile.quotedLoop n buf cp cp2).map .ok := by
  induction n generalizing buf cp cp2 with
  | zero => rfl
  | succ n ih =>
    refine outcome_then (outcome_get buf cp) _ _ fun c => ?_
    split
    · rfl
    split
    · refine outcome_then (outcome_get buf (cp + 1)) _ _ fun d => ?_
      split
      · exact outcome_then (outcome_put buf (cp + 1) cp2 d) _ _ fun buf => ih buf _ _
      · exact ih buf _ _
    split
    · exact outcome_then (outcome_put buf cp cp2 0) _ _ fun _ => rfl
    · exact outcome_then (outcome_put buf cp cp2 c) _ _ fun buf => ih buf _ _

lemma outcome_valueAt (buf : List UInt8) (pval : Nat) : (valueAt buf pval).outcome = (INIFile.valueAt buf pval).map .ok := by
  refine outcome_then (outcome_get buf pval) _ _ fun c => ?_
  split
  · refine outcome_then (outcome_unquotedLoop _ buf pval pval) _ _ fun r => ?_
    exact outcome_then (outcome_put r.1 r.2.1 r.2.2 0) _ _ fun _ => rfl
  · exact outcome_quotedLoop _ buf _ _

lemma outcome_itemAt (buf : List UInt8) (pname : Nat) : (itemAt buf pname).outcome = (INIFile.itemAt buf pname).map .ok := by
  refine outcome_then (outcome_nameLoop _ buf pname) _ _ fun r => ?_
  refine outcome_then (outcome_get r.1 r.2) _ _ fun c => ?_
  split
  · rfl
  refine outcome_then (outcome_put r.1 r.2 r.2 0) _ _ fun buf => ?_
  refine outcome_then (outcome_skipBlanks _ buf _) _ _ fun pval => ?_
  refine outcome_then (outcome_valueAt buf pval) _ _ fun v => ?_
  match v with
  | none => rfl
  | some (buf, cp) =>
    refine outcome_then (outcome_cString buf pname) _ _ fun name => ?_
    exact outcome_then (outcome_cString buf pval) _ _ fun value => rfl

lemma outcome_optLoop (n : Nat) (buf : List UInt8) (cp : Nat) (options : List Record) :
    (optLoop n buf cp options).outcome = (INIFile.optLoop n buf cp options).map .ok := by
  induction n generalizing buf cp options with
  | zero => rfl
  | succ n ih =>
    refine outcome_then (outcome_get buf cp) _ _ fun c => ?_
    split
    · rfl
    split
    · exact ih buf _ options
    refine outcome_then (outcome_itemAt buf cp) _ _ fun x => ?_
    match x with
    | none => rfl
    | some (record, buf, cp) => exact ih buf cp _

/-- Without the notes it is `parse_opt`. -/
lemma outcome_parse_opt (opts : List UInt8) : (parse_opt opts).outcome = (INIFile.parse_opt opts).map .ok := by
  have records : (recordsOf opts).outcome = (INIFile.recordsOf opts).map .ok := outcome_optLoop _ _ _ _
  rw [INIFile.parse_opt, Option.map_map, parse_opt, Traced.outcome_bind, records]
  cases INIFile.recordsOf opts <;> rfl

end

end Steps

/-- An access to a copy of so many bytes; a write is not behind the first pointer. -/
def Access.Inside (n : Nat) : Access → Prop
  | .read i => i < n
  | .write i cp => i < n ∧ i ≤ cp

namespace Steps

section
variable {n k cp cp2 i : Nat} {buf : List UInt8} {c : UInt8}

lemma get_inside (h : buf.length = n) : Traced.Keeps (Access.Inside n) (get buf i) fun _ => True := by
  refine .noting fun c e => ⟨trivial, ?_⟩
  obtain ⟨inside, -⟩ := List.getElem?_eq_some_iff.1 e
  simpa [Access.Inside, ← h] using inside

/-- A write leaves the length of the copy. -/
lemma put_inside (h : buf.length = n) (hi : i ≤ cp) : Traced.Keeps (Access.Inside n) (put buf cp i c) fun buf => buf.length = n := by
  refine .noting fun b e => ?_
  rw [INIFile.put] at e
  split at e
  next inside =>
    cases e
    exact ⟨by rw [List.length_set, h], by simpa [Access.Inside, ← h] using ⟨inside, hi⟩⟩
  next => cases e

lemma cString_inside (h : buf.length = n) : Traced.Keeps (Access.Inside n) (cString buf i) fun _ => True := by
  refine .noting fun s e => ⟨trivial, fun a ha => ?_⟩
  rw [INIFile.cString] at e
  split at e
  next zero =>
    obtain ⟨k, hk, rfl⟩ := List.mem_map.1 ha
    obtain ⟨t, r, split, front⟩ := List.eq_append_cons_of_mem zero
    have whole := congrArg List.length split
    have short : (cStr (buf.drop i)).length = t.length := by
      rw [split, cStr_append front, show cStr (0 :: r) = [] from rfl, List.append_nil]
    rw [List.length_drop, List.length_append, List.length_cons] at whole
    rw [List.mem_range] at hk
    show i + k < n
    omega
  next => cases e

lemma skipBlanks_inside (h : buf.length = n) (k cp : Nat) :
    Traced.Keeps (Access.Inside n) (skipBlanks k buf cp) fun _ => True := by
  induction k generalizing cp with
  | zero => exact .diverge
  | succ k ih =>
    refine (get_inside h).bind fun c _ => ?_
    split
    · exact .pure trivial
    split
    · exact .pure trivial
    · exact ih (cp + 1)

lemma nameLoop_inside (h : buf.length = n) (k cp : Nat) :
    Traced.Keeps (Access.Inside n) (nameLoop k buf cp) fun r => r.1.length = n := by
  induction k generalizing cp with
  | zero => exact .diverge
  | succ k ih =>
    refine (get_inside h).bind fun c _ => ?_
    split
    · exact .pure h
    split
    · exact .pure h
    split
    · refine (put_inside h (Nat.le_refl cp)).bind fun buf h => ?_
      exact (skipBlanks_inside h _ _).bind fun _ _ => .pure h
    · exact ih (cp + 1)

/-- The second pointer is not behind the first. -/
lemma unquotedLoop_inside (h : buf.length = n) (le : cp2 ≤ cp) (k : Nat) :
    Traced.Keeps (Access.Inside n) (unquotedLoop k buf cp cp2) fun r => r.1.length = n ∧ r.2.2 ≤ r.2.1 := by
  induction k generalizing buf cp cp2 with
  | zero => exact .diverge
  | succ k ih =>
    refine (get_inside h).bind fun c _ => ?_
    split
    · exact .pure ⟨h, le⟩
    split
    · exact (put_inside h (Nat.le_refl cp)).bind fun buf h => .pure ⟨h, Nat.le_succ_of_le le⟩
    split
    · refine (get_inside h).bind fun d _ => ?_
      split
      · exact (put_inside h (Nat.le_succ_of_le le)).bind fun buf h => ih h (by omega)
      · exact ih h (Nat.le_succ_of_le le)
    · exact (put_inside h le).bind fun buf h => ih h (Nat.succ_le_succ le)

lemma quotedLoop_inside (h : buf.length = n) (le : cp2 ≤ cp) (k : Nat) :
    Traced.Keeps (Access.Inside n) (quotedLoop k buf cp cp2) fun r => ∀ b cp, r = some (b, cp) → b.length = n := by
  induction k generalizing buf cp cp2 with
  | zero => exact .diverge
  | succ k ih =>
    refine (get_inside h).bind fun c _ => ?_
    split
    · exact .pure nofun
    split
    · refine (get_inside h).bind fun d _ => ?_
      split
      · exact (put_inside h (Nat.le_succ_of_le le)).bind fun buf h => ih h (by omega)
      · exact ih h (Nat.le_succ_of_le le)
    split
    · refine (put_inside h le).bind fun buf h => .pure ?_
      rintro _ _ e
      cases e
      exact h
    · exact (put_inside h le).bind fun buf h => ih h (Nat.succ_le_succ le)

lemma valueAt_inside (h : buf.length = n) (pval : Nat) :
    Traced.Keeps (Access.Inside n) (valueAt buf pval) fun r => ∀ b cp, r = some (b, cp) → b.length = n := by
  refine (get_inside h).bind fun c _ => ?_
  split
  · refine (unquotedLoop_inside h (Nat.le_refl pval) _).bind fun r hr => ?_
    refine (put_inside hr.1 hr.2).bind fun buf h => .pure ?_
    rintro _ _ e
    cases e
    exact h
  · exact quotedLoop_inside h (Nat.le_succ pval) _

lemma itemAt_inside (h : buf.length = n) (pname : Nat) :
    Traced.Keeps (Access.Inside n) (itemAt buf pname) fun r => ∀ x b cp, r = some (x, b, cp) → b.length = n := by
  refine (nameLoop_inside h _ pname).bind fun r hr => ?_
  refine (get_inside hr).bind fun c _ => ?_
  split
  · exact .pure nofun
  refine (put_inside hr (Nat.le_refl r.2)).bind fun buf h => ?_
  refine (skipBlanks_inside h _ _).bind fun pval _ => ?_
  refine (valueAt_inside h pval).bind fun v hv => ?_
  match v with
  | none => exact .pure nofun
  | some (buf, cp) =>
    have h := hv buf cp rfl
    refine (cString_inside h).bind fun name _ => (cString_inside h).bind fun value _ => .pure ?_
    rintro _ _ _ e
    cases e
    exact h

lemma optLoop_inside (h : buf.length = n) (k cp : Nat) (options : List Record) :
    Traced.Keeps (Access.Inside n) (optLoop k buf cp options) fun _ => True := by
  induction k generalizing buf cp options with
  | zero => exact .diverge
  | succ k ih =>
    refine (get_inside h).bind fun c _ => ?_
    split
    · exact .pure trivial
    split
    · exact ih h _ _
    refine (itemAt_inside h cp).bind fun x hx => ?_
    match x with
    | none => exact .pure trivial
    | some (record, buf, cp) => exact ih (hx record buf cp rfl) cp _

lemma parse_opt_inside (opts : List UInt8) :
    Traced.Keeps (Access.Inside ((cStr opts).length + 1)) (parse_opt opts) fun _ => True := by
  have length : (cStr opts ++ [0]).length = (cStr opts).length + 1 := List.length_append
  exact (optLoop_inside length _ _ _).bind fun _ _ => .pure trivial

end

end Steps

/-- `parse_opt` comes to its end with what is read in separate texts, and all that it reads and writes is in its copy of the string;
    what is written is not behind what is read. -/
theorem parse_opt_in_place (opts : List UInt8) :
    parse_opt opts = some (stored ((records (cStr opts)).getD [])) ∧
      ∃ accesses, (Steps.parse_opt opts).results = some (.ok (stored ((records (cStr opts)).getD [])), accesses) ∧
        ∀ a ∈ accesses, a.Inside ((cStr opts).length + 1) := by
  have found : parse_opt opts = some (stored ((records (cStr opts)).getD [])) := by rw [parse_opt, recordsOf_eq, Option.map_some]
  have outcome := Steps.outcome_parse_opt opts
  rw [found, Option.map_some] at outcome
  obtain ⟨accesses, results⟩ := Traced.outcome_eq_some outcome
  exact ⟨found, accesses, results, (Steps.parse_opt_inside opts _ _ results).2⟩

end ArrowheadCore.Utils.INIFile
