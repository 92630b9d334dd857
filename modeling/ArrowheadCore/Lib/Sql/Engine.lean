import Mathlib.Data.List.Lex
import Mathlib.Data.List.Sort
import Mathlib.Logic.Function.Basic
import ArrowheadCore.Lib.Sql.Parser

/-!
# What SQL statements do

A database is a table under every name; the schema says which of them exist and which columns they have.
Every table has the primary key `id`, which it assigns itself and never assigns twice; rows stand in the
order of their keys. An equation holds when both sides are known and equal; a number is compared with a text
by the number at its front, and texts are compared byte by byte.

Without `ORDER BY` the rows of an answer come in the order of the primary keys.
-/

namespace ArrowheadCore.Lib.Sql

/-- A column besides `id`. One that is not given in an `INSERT` is the time of the insertion or `NULL`. -/
structure Column where
  name : String
  stamped : Bool := false
deriving DecidableEq, Repr

/-- The columns of the tables that exist, in their order. -/
abbrev Schema := String → Option (List Column)

structure Row where
  id : Nat
  cells : String → Value

def Row.get (r : Row) (c : String) : Value := if c = "id" then .int r.id else r.cells c

/-- A table: keys are distinct, and none is greater than the last one it assigned. -/
structure Table where
  rows : List Row
  lastId : Nat
  ordered : rows.Pairwise (·.id < ·.id)
  assigned : ∀ r ∈ rows, r.id ≤ lastId

lemma Table.ordered_nil : List.Pairwise (fun r s : Row => r.id < s.id) [] := .nil

lemma Table.assigned_nil : ∀ r ∈ ([] : List Row), r.id ≤ 0 := by simp

abbrev Database := String → Table

/-- A new row behind the others. -/
def Table.append (t : Table) (cells : String → Value) : Table where
  rows := t.rows ++ [⟨t.lastId + 1, cells⟩]
  lastId := t.lastId + 1
  ordered := by
    rw [List.pairwise_append]
    refine ⟨t.ordered, by simp, fun r hr r' hr' => ?_⟩
    rw [List.mem_singleton] at hr'
    rw [hr']
    exact Nat.lt_succ_of_le (t.assigned r hr)
  assigned := by
    intro r hr
    rw [List.mem_append, List.mem_singleton] at hr
    obtain hr | rfl := hr
    · exact Nat.le_succ_of_le (t.assigned r hr)
    · exact Nat.le_refl _

/-- Some of the rows; keys stay assigned. -/
def Table.keep (t : Table) (p : Row → Bool) : Table where
  rows := t.rows.filter p
  lastId := t.lastId
  ordered := t.ordered.filter p
  assigned := fun r hr => t.assigned r (List.mem_of_mem_filter hr)

/-- Other cells in the rows, under the same keys. -/
def Table.modify (t : Table) (f : Row → String → Value) : Table where
  rows := t.rows.map fun r => ⟨r.id, f r⟩
  lastId := t.lastId
  ordered := List.pairwise_map.2 t.ordered
  assigned := by
    intro r hr
    obtain ⟨old, hold, rfl⟩ := List.mem_map.1 hr
    exact t.assigned old hold

/-- A key belongs to one row. -/
lemma Table.row_unique (t : Table) {a b : Row} (ha : a ∈ t.rows) (hb : b ∈ t.rows) (h : a.id = b.id) : a = b := by
  have nodup : (t.rows.map Row.id).Nodup := List.pairwise_map.2 (t.ordered.imp fun h => Nat.ne_of_lt h)
  exact List.inj_on_of_nodup_map nodup ha hb h

/-! ## Values -/

/-- The integer at the front of a text. -/
def leadingInt (s : List UInt8) : Int :=
  let (neg, t) := takeSign (s.dropWhile isspace)
  let n := number 10 (t.takeWhile (isDigitOf 10))
  if neg then -n else n

/-- `a = b` is true. -/
def Value.same : Value → Value → Bool
  | .int a, .int b => a == b
  | .text s, .text t => s == t
  | .int a, .text s => a == leadingInt s
  | .text s, .int a => leadingInt s == a
  | .null, _ => false
  | _, .null => false

/-- `a` may stand before `b`. -/
def Value.le : Value → Value → Bool
  | .null, _ => true
  | .int _, .null => false
  | .int a, .int b => a ≤ b
  | .int _, .text _ => true
  | .text s, .text t => s.map UInt8.toNat ≤ t.map UInt8.toNat
  | .text _, _ => false

/-! ## Names -/

section
variable (schema : Schema)

def hasColumn (table c : String) : Bool :=
  match schema table with
  | none => false
  | some cols => c == "id" || cols.any (·.name == c)

/-- The columns of a table, `id` first. -/
def columnsOf (table : String) : List String := "id" :: ((schema table).getD []).map Column.name

/-- A combination of rows, each under the source it comes from. -/
abbrev Env := List (Source × Row)

def Expr.eval (env : Env) : Expr → Value
  | .lit v => v
  | .col (some t) c =>
    match env.find? (fun s => s.1.name == t) with
    | some (_, r) => r.get c
    | none => .null
  | .col none c =>
    match env.find? (fun s => hasColumn schema s.1.table c) with
    | some (_, r) => r.get c
    | none => .null

/-- The name of a column stands for exactly one column. -/
def Expr.bound (sources : List Source) : Expr → Bool
  | .lit _ => true
  | .col (some t) c =>
    match sources.find? (fun s => s.name == t) with
    | some s => hasColumn schema s.table c
    | none => false
  | .col none c => (sources.filter fun s => hasColumn schema s.table c).length == 1

def Cond.eval (env : Env) : Cond → Bool
  | .eq a b => (a.eval schema env).same (b.eval schema env)
  | .isIn a vs => vs.any fun v => (a.eval schema env).same v
  | .and a b => a.eval env && b.eval env
  | .or a b => a.eval env || b.eval env

def Cond.bound (sources : List Source) : Cond → Bool
  | .eq a b => a.bound schema sources && b.bound schema sources
  | .isIn a _ => a.bound schema sources
  | .and a b => a.bound sources && b.bound sources
  | .or a b => a.bound sources && b.bound sources

/-! ## Statements -/

/-- Sort keys compare one after the other. -/
def keysLe : List (Expr × Bool) → Env → Env → Bool
  | [], _, _ => true
  | (e, desc) :: ks, a, b =>
    let x := e.eval schema a
    let y := e.eval schema b
    if x.le y && y.le x then keysLe ks a b else if desc then y.le x else x.le y

def Select.sources (q : Select) : List Source := q.source :: q.joins.map Prod.fst

/-- Every table exists and every name stands for a column. -/
def Select.bound (q : Select) : Bool :=
  q.sources.all (fun s => (schema s.table).isSome) &&
    (q.columns.getD []).all (Expr.bound schema q.sources) &&
    q.joins.all (fun j => j.2.bound schema q.sources) &&
    q.cond.all (Cond.bound schema q.sources) &&
    q.order.all (fun k => k.1.bound schema q.sources)

variable (db : Database)

/-- All combinations of rows that the joins admit. -/
def Select.combine (q : Select) : List Env :=
  q.joins.foldl
    (fun envs j => envs.flatMap fun env =>
      ((db j.1.table).rows.map fun r => env ++ [(j.1, r)]).filter (j.2.eval schema))
    ((db q.source.table).rows.map fun r => [(q.source, r)])

def Select.project (q : Select) (env : Env) : List Value :=
  match q.columns with
  | some es => es.map (Expr.eval schema env)
  | none => env.flatMap fun s => (columnsOf schema s.1.table).map s.2.get

/-- The answer of a `SELECT`; `none` when it refers to what does not exist. -/
def Select.run (q : Select) : Option (List (List Value)) :=
  if q.bound schema then
    some ((((q.combine schema db).filter fun env => q.cond.all (Cond.eval schema env)).insertionSort
      (fun a b => keysLe schema q.order a b)).map (q.project schema))
  else none

/-- The cells of a new row with this key. -/
def Insert.cells (stamp : String → Nat → List UInt8) (q : Insert) (id : Nat) (c : String) : Value :=
  match (q.columns.zip q.values).lookup c with
  | some v => v
  | none =>
    if ((schema q.table).getD []).any (fun col => col.name == c && col.stamped) then .text (stamp q.table id)
    else .null

/-- The table exists, the columns are different columns of it, and each has a value. -/
def Insert.fits (q : Insert) : Bool :=
  (schema q.table).isSome && q.columns.length == q.values.length && decide q.columns.Nodup &&
    q.columns.all (fun c => ((schema q.table).getD []).any (·.name == c))

/-- The key of the new row and the database with it; `none` when the statement does not fit the table. -/
def Insert.run (stamp : String → Nat → List UInt8) (q : Insert) : Option (Nat × Database) :=
  if q.fits schema then
    let id := (db q.table).lastId + 1
    some (id, Function.update db q.table ((db q.table).append (q.cells schema stamp id)))
  else none

/-- A part of the answer. -/
def Page.run (q : Page) : Option (List (List Value)) :=
  (q.select.run schema db).map fun rows => (rows.drop q.offset).take q.limit

/-- The table exists, and the condition names its columns. -/
def Delete.bound (q : Delete) : Bool :=
  (schema q.table).isSome && q.cond.all (Cond.bound schema [⟨q.table, q.table⟩])

/-- The rows that a `DELETE` removes. -/
def Delete.hits (q : Delete) (r : Row) : Bool := q.cond.all (Cond.eval schema [(⟨q.table, q.table⟩, r)])

/-- The database without the rows that meet the condition; rows that refer to them stay. -/
def Delete.run (q : Delete) : Option Database :=
  if q.bound schema then
    some (Function.update db q.table ((db q.table).keep fun r => !q.hits schema r))
  else none

/-- The cells behind the assignments of an `UPDATE`, one after the other. -/
def assign (sets : List (String × Value)) (cells : String → Value) : String → Value :=
  sets.foldl (fun cells a => Function.update cells a.1 a.2) cells

/-- The table exists, the assignments are to its columns, and the condition names its columns. -/
def Update.bound (q : Update) : Bool :=
  (schema q.table).isSome && q.sets.all (fun a => ((schema q.table).getD []).any (·.name == a.1)) &&
    q.cond.all (Cond.bound schema [⟨q.table, q.table⟩])

/-- The rows that an `UPDATE` changes. -/
def Update.hits (q : Update) (r : Row) : Bool := q.cond.all (Cond.eval schema [(⟨q.table, q.table⟩, r)])

/-- The database with the assignments made in the rows that meet the condition. -/
def Update.run (q : Update) : Option Database :=
  if q.bound schema then
    some (Function.update db q.table ((db q.table).modify fun r =>
      if q.hits schema r then assign q.sets r.cells else r.cells))
  else none

/-! ## One table -/

variable {schema db}

/-- A `SELECT` from one table in no particular order. -/
lemma Select.run_table {t : String} {columns : Option (List Expr)} {c : Cond}
    (hb : Select.bound schema ⟨columns, ⟨t, t⟩, [], some c, []⟩) :
    Select.run schema db ⟨columns, ⟨t, t⟩, [], some c, []⟩ =
      some (((db t).rows.filter fun r => c.eval schema [(⟨t, t⟩, r)]).map fun r =>
        Select.project schema ⟨columns, ⟨t, t⟩, [], some c, []⟩ [(⟨t, t⟩, r)]) := by
  have sorted : ∀ l : List Env, l.insertionSort (fun a b => keysLe schema [] a b) = l := by
    intro l
    refine List.Pairwise.insertionSort_eq ?_
    exact List.pairwise_of_forall fun _ _ => rfl
  rw [Select.run, if_pos hb, sorted]
  simp only [Select.combine, List.foldl_nil, List.filter_map, List.map_map]
  rfl

lemma Expr.eval_column {t c : String} (h : hasColumn schema t c) (r : Row) :
    Expr.eval schema [(⟨t, t⟩, r)] (.col none c) = r.get c := by
  simp [Expr.eval, h]

/-! ## Order -/

lemma Value.same_int {v : Value} {z : Int} (h : ∃ z, v = .int z) : v.same (.int z) ↔ v = .int z := by
  obtain ⟨y, rfl⟩ := h
  simp [Value.same]

lemma Value.same_text {v : Value} {s : List UInt8} (h : v = .null ∨ ∃ s, v = .text s) : v.same (.text s) ↔ v = .text s := by
  obtain rfl | ⟨t, rfl⟩ := h
  · simp [Value.same]
  · simp [Value.same]

lemma Value.int_same {v : Value} {z : Int} (h : ∃ z, v = .int z) : (Value.int z).same v ↔ v = .int z := by
  obtain ⟨y, rfl⟩ := h
  simp only [Value.same, beq_iff_eq, Value.int.injEq]
  exact eq_comm

lemma Value.le_total (a b : Value) : a.le b ∨ b.le a := by
  cases a with
  | null => exact .inl rfl
  | int x =>
    cases b with
    | null => exact .inr rfl
    | int y => simpa [Value.le] using Int.le_total x y
    | text t => exact .inl rfl
  | text s =>
    cases b with
    | null => exact .inr rfl
    | int y => exact .inr rfl
    | text t => simpa [Value.le] using LinearOrder.le_total (s.map UInt8.toNat) (t.map UInt8.toNat)

lemma Value.le_trans {a b c : Value} (hab : a.le b) (hbc : b.le c) : a.le c := by
  cases a with
  | null => rfl
  | int x =>
    cases b with
    | null => cases hab
    | int y =>
      cases c with
      | null => cases hbc
      | int z =>
        simp only [Value.le, decide_eq_true_eq] at *
        exact Int.le_trans hab hbc
      | text t => rfl
    | text t =>
      cases c with
      | null => cases hbc
      | int z => cases hbc
      | text u => rfl
  | text s =>
    cases b with
    | null => cases hab
    | int y => cases hab
    | text t =>
      cases c with
      | null => cases hbc
      | int z => cases hbc
      | text u =>
        simp only [Value.le, decide_eq_true_eq] at *
        exact hab.trans hbc

lemma keysLe_total (ks : List (Expr × Bool)) (a b : Env) : keysLe schema ks a b ∨ keysLe schema ks b a := by
  induction ks with
  | nil => exact .inl rfl
  | cons k ks ih =>
    obtain ⟨e, desc⟩ := k
    have := Value.le_total (e.eval schema a) (e.eval schema b)
    simp only [keysLe]
    cases h1 : (e.eval schema a).le (e.eval schema b) <;> cases h2 : (e.eval schema b).le (e.eval schema a) <;>
      cases desc <;> simp_all

/-- The first key decides, and equal ones leave it to the others. -/
lemma keysLe_cons {e : Expr} {desc : Bool} {ks : List (Expr × Bool)} {a b : Env} :
    keysLe schema ((e, desc) :: ks) a b ↔
      (if desc then (e.eval schema b).le (e.eval schema a) else (e.eval schema a).le (e.eval schema b)) ∧
      ((e.eval schema a).le (e.eval schema b) → (e.eval schema b).le (e.eval schema a) → keysLe schema ks a b) := by
  simp only [keysLe]
  cases h1 : (e.eval schema a).le (e.eval schema b) <;> cases h2 : (e.eval schema b).le (e.eval schema a) <;>
    cases desc <;> simp

lemma keysLe_trans {ks : List (Expr × Bool)} {a b c : Env} (hab : keysLe schema ks a b)
    (hbc : keysLe schema ks b c) : keysLe schema ks a c := by
  induction ks with
  | nil => rfl
  | cons k ks ih =>
    obtain ⟨e, desc⟩ := k
    rw [keysLe_cons] at *
    cases desc with
    | false =>
      refine ⟨Value.le_trans hab.1 hbc.1, fun _ h2 => ?_⟩
      exact ih (hab.2 hab.1 (Value.le_trans hbc.1 h2)) (hbc.2 hbc.1 (Value.le_trans h2 hab.1))
    | true =>
      refine ⟨Value.le_trans hbc.1 hab.1, fun h1 _ => ?_⟩
      exact ih (hab.2 (Value.le_trans h1 hbc.1) hab.1) (hbc.2 (Value.le_trans hab.1 h1) hbc.1)

lemma Table.rows_nodup (t : Table) : t.rows.Nodup := t.ordered.imp fun h e => Nat.ne_of_lt h (congrArg Row.id e)

/-- A join combines a combination with a row once. -/
lemma nodup_join {envs : List Env} (h : envs.Nodup) (s : Source) (t : Table) (p : Env → Bool) :
    (envs.flatMap fun env => (t.rows.map fun r => env ++ [(s, r)]).filter p).Nodup := by
  rw [List.nodup_flatMap]
  constructor
  · intro env _
    refine (t.rows_nodup.map ?_).filter _
    intro r r' e
    simpa using e
  · refine h.imp fun {env env'} hne => ?_
    intro x hx hx'
    obtain ⟨r, -, rfl⟩ := List.mem_map.1 (List.mem_of_mem_filter hx)
    obtain ⟨r', -, e⟩ := List.mem_map.1 (List.mem_of_mem_filter hx')
    exact hne (List.append_inj_left' e rfl).symm

lemma Select.combine_nodup (q : Select) : (q.combine schema db).Nodup := by
  have joins : ∀ {js : List (Source × Cond)} {envs : List Env}, envs.Nodup →
      (js.foldl (fun envs j => envs.flatMap fun env =>
        ((db j.1.table).rows.map fun r => env ++ [(j.1, r)]).filter (j.2.eval schema)) envs).Nodup := by
    intro js
    induction js with
    | nil => exact fun h => h
    | cons j js ih => exact fun h => ih (nodup_join h j.1 _ _)
  refine joins ((db q.source.table).rows_nodup.map ?_)
  intro r r' e
  simpa using e

/-- The answer has the combinations that meet the condition, each once, in the order of the keys. -/
lemma Select.run_spec {q : Select} {rows : List (List Value)} (h : q.run schema db = some rows) :
    ∃ envs : List Env, rows = envs.map (q.project schema) ∧ envs.Pairwise (fun a b => keysLe schema q.order a b) ∧
      envs.Nodup ∧ ∀ env, env ∈ envs ↔ env ∈ q.combine schema db ∧ q.cond.all (Cond.eval schema env) := by
  unfold Select.run at h
  split at h
  · cases h
    have total : Std.Total fun a b => keysLe schema q.order a b = true := ⟨fun a b => keysLe_total q.order a b⟩
    have trans : IsTrans Env fun a b => keysLe schema q.order a b = true := ⟨fun _ _ _ => keysLe_trans⟩
    refine ⟨_, rfl, List.pairwise_insertionSort _ _, ?_, fun env => ?_⟩
    · exact (List.perm_insertionSort _ _).nodup_iff.2 (q.combine_nodup.filter _)
    · rw [List.mem_insertionSort, List.mem_filter]
  · cases h

/-! ## Assignments -/

/-- What is assigned already stays. -/
lemma assign_eq_self {sets : List (String × Value)} {cells : String → Value} (h : ∀ a ∈ sets, cells a.1 = a.2) :
    assign sets cells = cells := by
  induction sets with
  | nil => rfl
  | cons a sets ih =>
    have same : Function.update cells a.1 a.2 = cells := by
      rw [← h a (by simp), Function.update_eq_self]
    rw [assign, List.foldl_cons, same]
    exact ih fun b hb => h b (by simp [hb])

lemma assign_other {sets : List (String × Value)} {c : String} (h : ∀ a ∈ sets, a.1 ≠ c) (cells : String → Value) :
    assign sets cells c = cells c := by
  induction sets generalizing cells with
  | nil => rfl
  | cons a sets ih =>
    rw [assign, List.foldl_cons]
    refine (ih (fun b hb => h b (by simp [hb])) _).trans ?_
    exact Function.update_of_ne (h a (by simp)).symm _ _

/-! ## New rows -/

lemma map_lookup_zip {α β : Type} [DecidableEq α] : ∀ {as : List α} {bs : List β}, as.Nodup →
    as.length = bs.length → as.map (fun a => (as.zip bs).lookup a) = bs.map some
  | [], [], _, _ => rfl
  | [], _ :: _, _, h => by simp at h
  | _ :: _, [], _, h => by simp at h
  | a :: as, b :: bs, hn, hl => by
    rw [List.nodup_cons] at hn
    have ih := map_lookup_zip hn.2 (by simpa using hl)
    have rest : as.map (fun x => ((a, b) :: as.zip bs).lookup x) = as.map (fun x => (as.zip bs).lookup x) := by
      refine List.map_congr_left fun x hx => ?_
      have : x ≠ a := fun e => hn.1 (e ▸ hx)
      simp [List.lookup_cons, beq_false_of_ne this]
    simp only [List.map_cons, List.zip_cons_cons, rest, ih, List.lookup_cons_self]

lemma Insert.run_eq {stamp : String → Nat → List UInt8} {q : Insert} {r : Nat × Database}
    (h : q.run schema db stamp = some r) :
    r = ((db q.table).lastId + 1, Function.update db q.table
      ((db q.table).append (q.cells schema stamp ((db q.table).lastId + 1)))) := by
  unfold Insert.run at h
  split at h
  · exact (Option.some.inj h).symm
  · cases h

/-- An `INSERT` that succeeds appends one row, whose given columns hold the given values. -/
lemma Insert.run_some {stamp : String → Nat → List UInt8} {q : Insert} {id : Nat} {db' : Database}
    (h : q.run schema db stamp = some (id, db')) (hid : "id" ∉ q.columns) :
    ∃ r : Row, r.id = id ∧ (db' q.table).rows = (db q.table).rows ++ [r] ∧
      q.columns.map r.get = q.values ∧ ∀ t, t ≠ q.table → db' t = db t := by
  unfold Insert.run at h
  split at h
  case isFalse => cases h
  case isTrue ok =>
    cases h
    simp only [Insert.fits, Bool.and_eq_true, beq_iff_eq, decide_eq_true_eq] at ok
    obtain ⟨⟨⟨-, hl⟩, hn⟩, -⟩ := ok
    refine ⟨⟨(db q.table).lastId + 1, q.cells schema stamp ((db q.table).lastId + 1)⟩, rfl, ?_, ?_, ?_⟩
    · rw [Function.update_self]
      rfl
    · have look := map_lookup_zip hn hl
      have each : ∀ c ∈ q.columns, some (Row.get ⟨(db q.table).lastId + 1,
          q.cells schema stamp ((db q.table).lastId + 1)⟩ c) = (q.columns.zip q.values).lookup c := by
        intro c hc
        have hcid : c ≠ "id" := fun e => hid (e ▸ hc)
        have some_ : ((q.columns.zip q.values).lookup c).isSome := by
          have : (q.columns.zip q.values).lookup c ∈ q.values.map some := by
            rw [← look]
            exact List.mem_map_of_mem hc
          obtain ⟨v, -, e⟩ := List.mem_map.1 this
          rw [← e]
          rfl
        obtain ⟨v, hv⟩ := Option.isSome_iff_exists.1 some_
        simp [Row.get, hcid, Insert.cells, hv]
      have := List.map_congr_left each
      rw [look] at this
      have inj := List.map_injective_iff.2 (Option.some_injective Value)
      apply inj
      rw [← this, List.map_map]
      rfl
    · intro t ht
      rw [Function.update_of_ne ht]

end

end ArrowheadCore.Lib.Sql
