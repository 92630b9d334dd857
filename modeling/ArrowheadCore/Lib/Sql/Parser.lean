import ArrowheadCore.Lib.Sql.Lexer

/-!
# SQL statements

The statements are `SELECT` (with inner joins, a condition, an order and a limit), `INSERT` of one row, `DELETE`
and `UPDATE`. Conditions are built from equations and `IN` lists with `AND`, `OR` and parentheses; `AND` binds
stronger.

`Derives` is the grammar of conditions. The parser reads every derivation (`parseCond_derives`), however
many terms it has, so that statements put together by a loop can be followed to what they mean.
-/

namespace ArrowheadCore.Lib.Sql

inductive Value where
  | null
  | int (z : Int)
  | text (s : List UInt8)
deriving DecidableEq, Repr

inductive Expr where
  | col (table : Option String) (name : String)
  | lit (v : Value)
deriving DecidableEq, Repr

inductive Cond where
  | eq (a b : Expr)
  | isIn (a : Expr) (vs : List Value)
  | and (a b : Cond)
  | or (a b : Cond)
deriving DecidableEq, Repr

/-- A table in a `FROM` or `JOIN` clause, under the name by which its columns are qualified. -/
structure Source where
  table : String
  name : String
deriving DecidableEq, Repr

structure Select where
  /-- `none` is `*` -/
  columns : Option (List Expr)
  source : Source
  joins : List (Source × Cond) := []
  cond : Option Cond := none
  /-- sort keys, `true` for a descending one -/
  order : List (Expr × Bool) := []
deriving DecidableEq, Repr

structure Insert where
  table : String
  columns : List String
  values : List Value
deriving DecidableEq, Repr

/-- A part of the answer of a `SELECT`. -/
structure Page where
  select : Select
  limit : Nat
  offset : Nat
deriving DecidableEq, Repr

structure Delete where
  table : String
  cond : Option Cond
deriving DecidableEq, Repr

structure Update where
  table : String
  sets : List (String × Value)
  cond : Option Cond
deriving DecidableEq, Repr

inductive Statement where
  | select (q : Select)
  | insert (q : Insert)
  | page (q : Page)
  | delete (q : Delete)
  | update (q : Update)
deriving DecidableEq, Repr

/-! ## The parser -/

/-- A parser takes tokens from the front of a list. -/
abbrev Parser (α : Type) := List Token → Option (α × List Token)

/-- Take one given token. -/
def expect (t : Token) : Parser Unit
  | t' :: ts => if t' = t then some ((), ts) else none
  | [] => none

def parseLiteral : Parser Value
  | .number n :: ts => some (.int n, ts)
  | .sym .minus :: .number n :: ts => some (.int (-n), ts)
  | .text s :: ts => some (.text s, ts)
  | _ => none

def parseExpr : Parser Expr
  | .ident t :: .sym .dot :: .ident c :: ts => some (.col (some t) c, ts)
  | .ident c :: ts => some (.col none c, ts)
  | ts => (parseLiteral ts).map fun (v, ts) => (.lit v, ts)

/-- Items separated by commas. The fuel is a bound on their number. -/
def parseList {α : Type} (item : Parser α) : Nat → Parser (List α)
  | 0, _ => none
  | fuel + 1, ts => do
    let (a, ts) ← item ts
    match ts with
    | .sym .comma :: ts =>
      let (as, ts) ← parseList item fuel ts
      some (a :: as, ts)
    | ts => some ([a], ts)

/-- What stands between parentheses. -/
def parseParens {α : Type} (p : Parser α) : Parser α
  | .sym .lparen :: ts => do
    let (a, ts) ← p ts
    let (_, ts) ← expect (.sym .rparen) ts
    some (a, ts)
  | _ => none

/-- The levels of a condition. -/
inductive Level where
  | term | conj | disj
deriving DecidableEq, Repr

/-- Conditions. The fuel bounds the depth of the calls. -/
def parseCond : Nat → Level → Parser Cond
  | 0, _, _ => none
  | fuel + 1, .disj, ts => do
    let (a, ts) ← parseCond fuel .conj ts
    match ts with
    | .kw .or :: ts =>
      let (b, ts) ← parseCond fuel .disj ts
      some (.or a b, ts)
    | ts => some (a, ts)
  | fuel + 1, .conj, ts => do
    let (a, ts) ← parseCond fuel .term ts
    match ts with
    | .kw .and :: ts =>
      let (b, ts) ← parseCond fuel .conj ts
      some (.and a b, ts)
    | ts => some (a, ts)
  | fuel + 1, .term, .sym .lparen :: ts => parseParens (parseCond fuel .disj) (.sym .lparen :: ts)
  | _ + 1, .term, ts => do
    let (a, ts) ← parseExpr ts
    match ts with
    | .sym .eq :: ts =>
      let (b, ts) ← parseExpr ts
      some (.eq a b, ts)
    | .kw .in :: ts =>
      let (vs, ts) ← parseParens (parseList parseLiteral ts.length) ts
      some (.isIn a vs, ts)
    | _ => none

/-- Enough fuel for a condition at the front of these tokens. -/
def condFuel (ts : List Token) : Nat := 3 * ts.length

def parseSource : Parser Source
  | .ident t :: .ident a :: ts => some (⟨t, a⟩, ts)
  | .ident t :: ts => some (⟨t, t⟩, ts)
  | _ => none

/-- A column of a `SELECT`; its new name has no use here. -/
def parseColumn : Parser Expr := fun ts => do
  let (e, ts) ← parseExpr ts
  match ts with
  | .kw .as :: .ident _ :: ts => some (e, ts)
  | ts => some (e, ts)

def parseColumns : Parser (Option (List Expr))
  | .sym .star :: ts => some (none, ts)
  | ts => (parseList parseColumn ts.length ts).map fun (cs, ts) => (some cs, ts)

/-- The joins. The fuel bounds their number. -/
def parseJoins : Nat → Parser (List (Source × Cond))
  | 0, _ => none
  | fuel + 1, .kw .inner :: .kw .join :: ts => do
    let (s, ts) ← parseSource ts
    let (_, ts) ← expect (.kw .on) ts
    let (c, ts) ← parseCond (condFuel ts) .term ts
    let (js, ts) ← parseJoins fuel ts
    some ((s, c) :: js, ts)
  | _ + 1, ts => some ([], ts)

def parseWhere : Parser (Option Cond)
  | .kw .where :: ts => (parseCond (condFuel ts) .disj ts).map fun (c, ts) => (some c, ts)
  | ts => some (none, ts)

def parseKey : Parser (Expr × Bool) := fun ts => do
  let (e, ts) ← parseExpr ts
  match ts with
  | .kw .asc :: ts => some ((e, false), ts)
  | .kw .desc :: ts => some ((e, true), ts)
  | ts => some ((e, false), ts)

def parseOrder : Parser (List (Expr × Bool))
  | .kw .order :: .kw .by :: ts => parseList parseKey ts.length ts
  | ts => some ([], ts)

def parseSelect : Parser Select := fun ts => do
  let (columns, ts) ← parseColumns ts
  let (_, ts) ← expect (.kw .from) ts
  let (source, ts) ← parseSource ts
  let (joins, ts) ← parseJoins (ts.length + 1) ts
  let (cond, ts) ← parseWhere ts
  let (order, ts) ← parseOrder ts
  some (⟨columns, source, joins, cond, order⟩, ts)

def parseName : Parser String
  | .ident c :: ts => some (c, ts)
  | _ => none

def parseInsert : Parser Insert := fun ts => do
  let (table, ts) ← parseName ts
  let (columns, ts) ← parseParens (parseList parseName ts.length) ts
  let (_, ts) ← expect (.kw .values) ts
  let (values, ts) ← parseParens (parseList parseLiteral ts.length) ts
  some (⟨table, columns, values⟩, ts)

/-- The limit behind a `SELECT`; an offset stands behind a limit only. -/
def parseLimit : Parser (Option (Nat × Nat))
  | .kw .limit :: .number n :: .kw .offset :: .number k :: ts => some (some (n, k), ts)
  | .kw .limit :: .number n :: ts => some (some (n, 0), ts)
  | ts => some (none, ts)

def parseQuery : Parser Statement := fun ts => do
  let (q, ts) ← parseSelect ts
  let (l, ts) ← parseLimit ts
  match l with
  | some (n, k) => some (.page ⟨q, n, k⟩, ts)
  | none => some (.select q, ts)

def parseDelete : Parser Delete := fun ts => do
  let (table, ts) ← parseName ts
  let (cond, ts) ← parseWhere ts
  some (⟨table, cond⟩, ts)

/-- An assignment of an `UPDATE`. -/
def parseAssignment : Parser (String × Value)
  | .ident c :: .sym .eq :: .kw .null :: ts => some ((c, .null), ts)
  | .ident c :: .sym .eq :: ts => (parseLiteral ts).map fun (v, ts) => ((c, v), ts)
  | _ => none

def parseUpdate : Parser Update := fun ts => do
  let (table, ts) ← parseName ts
  let (_, ts) ← expect (.kw .set) ts
  let (sets, ts) ← parseList parseAssignment ts.length ts
  let (cond, ts) ← parseWhere ts
  some (⟨table, sets, cond⟩, ts)

/-- The statement ends with its tokens, or with a semicolon behind them. -/
def atEnd {α : Type} : α × List Token → Option α
  | (a, []) => some a
  | (a, [.sym .semicolon]) => some a
  | _ => none

def parseTokens : List Token → Option Statement
  | .kw .select :: ts => parseQuery ts >>= atEnd
  | .kw .insert :: .kw .into :: ts => (parseInsert ts >>= atEnd).map .insert
  | .kw .delete :: .kw .from :: ts => (parseDelete ts >>= atEnd).map .delete
  | .kw .update :: ts => (parseUpdate ts >>= atEnd).map .update
  | _ => none

/-- The meaning of a text as a statement, if it has one. -/
def parse (s : List UInt8) : Option Statement := lex s >>= parseTokens

/-! ## Grammar -/

/-- The tokens of a literal. -/
def Value.tokens : Value → List Token
  | .null => []
  | .int z => intTokens z
  | .text s => [.text s]

/-- Items with a comma between them. -/
def commas {α : Type} (f : α → List Token) : List α → List Token
  | [] => []
  | [a] => f a
  | a :: b :: as => f a ++ Token.sym .comma :: commas f (b :: as)

/-- The tokens of an operand. -/
def Expr.tokens : Expr → List Token
  | .col (some t) c => [.ident t, .sym .dot, .ident c]
  | .col none c => [.ident c]
  | .lit v => v.tokens

/-- The conditions and their texts. -/
inductive Derives : Level → Cond → List Token → Prop where
  | eq {a b : Expr} : a ≠ .lit .null → b ≠ .lit .null → Derives .term (.eq a b) (a.tokens ++ Token.sym .eq :: b.tokens)
  | isIn {a : Expr} {vs : List Value} : a ≠ .lit .null → vs ≠ [] → .null ∉ vs →
    Derives .term (.isIn a vs)
      (a.tokens ++ Token.kw .in :: .sym .lparen :: (commas Value.tokens vs ++ [Token.sym .rparen]))
  | paren {c ts} : Derives .disj c ts → Derives .term c (.sym .lparen :: (ts ++ [Token.sym .rparen]))
  | and {a b ts us} : Derives .term a ts → Derives .conj b us → Derives .conj (.and a b) (ts ++ Token.kw .and :: us)
  | term {c ts} : Derives .term c ts → Derives .conj c ts
  | or {a b ts us} : Derives .conj a ts → Derives .disj b us → Derives .disj (.or a b) (ts ++ Token.kw .or :: us)
  | conj {c ts} : Derives .conj c ts → Derives .disj c ts

/-- What may stand behind a condition without becoming a part of it. -/
def Level.Closed : Level → List Token → Prop
  | .term, ts => ts.head? ≠ some (.sym .dot)
  | .conj, ts => ts.head? ≠ some (.sym .dot) ∧ ts.head? ≠ some (.kw .and)
  | .disj, ts => ts.head? ≠ some (.sym .dot) ∧ ts.head? ≠ some (.kw .and) ∧ ts.head? ≠ some (.kw .or)

variable {ts us : List Token}

lemma parseLiteral_tokens {v : Value} (h : v ≠ .null) (ts : List Token) :
    parseLiteral (v.tokens ++ ts) = some (v, ts) := by
  cases v with
  | null => exact absurd rfl h
  | int z => cases z <;> rfl
  | text s => rfl

lemma parseExpr_tokens {a : Expr} (h : a ≠ .lit .null) (hts : ts.head? ≠ some (.sym .dot)) :
    parseExpr (a.tokens ++ ts) = some (a, ts) := by
  cases a with
  | lit v =>
    cases v with
    | null => exact absurd rfl h
    | int z => cases z <;> rfl
    | text s => rfl
  | col t c =>
    cases t with
    | some t => rfl
    | none =>
      cases ts with
      | nil => rfl
      | cons x xs =>
        have hx : x ≠ .sym .dot := by simpa using hts
        show parseExpr (.ident c :: x :: xs) = _
        unfold parseExpr
        split <;> simp_all

/-- A list of items, each of which is read back, is read back. -/
lemma parseList_commas {α : Type} {item : Parser α} {f : α → List Token} :
    ∀ {as : List α} {fuel : Nat}, as ≠ [] → as.length ≤ fuel →
      (∀ a ∈ as, ∀ ts, ts.head? ≠ some (.sym .dot) → item (f a ++ ts) = some (a, ts)) →
      ts.head? ≠ some (.sym .dot) → ts.head? ≠ some (.sym .comma) →
      parseList item fuel (commas f as ++ ts) = some (as, ts)
  | [], _, h, _, _, _, _ => absurd rfl h
  | _ :: _, 0, _, hl, _, _, _ => by simp at hl
  | [a], fuel + 1, _, _, hi, hd, hc => by
    rw [commas, parseList, hi a (by simp) ts hd]
    cases ts with
    | nil => rfl
    | cons x xs =>
      have hx : x ≠ .sym .comma := by simpa using hc
      simp only [Option.bind_eq_bind, Option.bind_some]
      split
      · simp_all
      · rfl
  | a :: b :: as, fuel + 1, _, hl, hi, hd, hc => by
    have ih : parseList item fuel (commas f (b :: as) ++ ts) = some (b :: as, ts) :=
      parseList_commas (by simp) (by simpa using hl) (fun a ha => hi a (List.mem_cons_of_mem _ ha)) hd hc
    rw [commas, List.append_assoc, parseList, hi a (by simp) _ (by simp)]
    simp [ih]

lemma commas_length {vs : List Value} (h : .null ∉ vs) : vs.length ≤ (commas Value.tokens vs).length := by
  induction vs with
  | nil => simp
  | cons v vs ih =>
    have hv : 1 ≤ v.tokens.length := by
      cases v with
      | null => simp at h
      | int z => cases z <;> simp [Value.tokens, intTokens]
      | text s => simp [Value.tokens]
    have ih := ih fun h' => h (by simp [h'])
    cases vs with
    | nil => simpa [commas] using hv
    | cons w ws =>
      simp only [commas, List.length_append, List.length_cons] at ih ⊢
      omega

/-- The fuel that a derivation of this length needs. -/
def Level.fuel (l : Level) (n : Nat) : Nat :=
  match l with
  | .term => 3 * n - 2
  | .conj => 3 * n - 1
  | .disj => 3 * n

lemma Derives.length_pos {l c ts} (h : Derives l c ts) : 0 < ts.length := by
  induction h with
  | eq | isIn | paren | and | or => simp
  | term _ ih => exact ih
  | conj _ ih => exact ih

lemma head_tokens {a : Expr} (h : a ≠ .lit .null) :
    ∃ t rest, a.tokens = t :: rest ∧ t ≠ .sym .lparen := by
  cases a with
  | lit v =>
    cases v with
    | null => exact absurd rfl h
    | int z => cases z <;> simp [Expr.tokens, Value.tokens, intTokens]
    | text s => simp [Expr.tokens, Value.tokens]
  | col t c => cases t <;> simp [Expr.tokens]

/-- A term that does not begin with a parenthesis. -/
lemma parseCond_term {fuel : Nat} {t : Token} (h : t ≠ .sym .lparen) (ts : List Token) :
    parseCond (fuel + 1) .term (t :: ts) = (do
      let (a, ts) ← parseExpr (t :: ts)
      match ts with
      | .sym .eq :: ts =>
        let (b, ts) ← parseExpr ts
        some (.eq a b, ts)
      | .kw .in :: ts =>
        let (vs, ts) ← parseParens (parseList parseLiteral ts.length) ts
        some (.isIn a vs, ts)
      | _ => none) := by
  rw [parseCond]
  intro ts' e
  cases e
  exact h rfl

/-- A list of literals in parentheses. -/
lemma parseParens_values {vs : List Value} (hv : vs ≠ []) (hn : .null ∉ vs) (us : List Token) :
    parseParens (parseList parseLiteral (Token.sym .lparen :: (commas Value.tokens vs ++ Token.sym .rparen :: us)).length)
      (.sym .lparen :: (commas Value.tokens vs ++ Token.sym .rparen :: us)) = some (vs, us) := by
  have hl := commas_length hn
  have read : parseList parseLiteral (Token.sym .lparen :: (commas Value.tokens vs ++ Token.sym .rparen :: us)).length
      (commas Value.tokens vs ++ Token.sym .rparen :: us) = some (vs, .sym .rparen :: us) := by
    refine parseList_commas hv ?_ (fun v hm ts _ => parseLiteral_tokens (fun e => hn (e ▸ hm)) ts) (by simp) (by simp)
    simp only [List.length_cons, List.length_append]
    omega
  rw [parseParens, read]
  rfl

/-- A list of names in parentheses. -/
lemma parseParens_names {cs : List String} (hc : cs ≠ []) (us : List Token) :
    parseParens (parseList parseName
        (Token.sym .lparen :: (commas (fun c => [.ident c]) cs ++ Token.sym .rparen :: us)).length)
      (.sym .lparen :: (commas (fun c => [.ident c]) cs ++ Token.sym .rparen :: us)) = some (cs, us) := by
  have hl : cs.length ≤ (commas (fun c => [Token.ident c]) cs).length := by
    clear hc
    induction cs with
    | nil => simp
    | cons c cs ih =>
      cases cs with
      | nil => simp [commas]
      | cons d ds =>
        simp only [commas, List.length_append, List.length_cons] at ih ⊢
        omega
  have read : parseList parseName (Token.sym .lparen :: (commas (fun c => [.ident c]) cs ++ Token.sym .rparen :: us)).length
      (commas (fun c => [.ident c]) cs ++ Token.sym .rparen :: us) = some (cs, .sym .rparen :: us) := by
    refine parseList_commas hc ?_ (fun _ _ _ _ => rfl) (by simp) (by simp)
    simp only [List.length_cons, List.length_append]
    omega
  rw [parseParens, read]
  rfl

/-- The tokens of an `INSERT`. -/
def Insert.tokens (q : Insert) : List Token :=
  .kw .insert :: .kw .into :: .ident q.table :: .sym .lparen ::
    (commas (fun c => [.ident c]) q.columns ++ Token.sym .rparen :: .kw .values :: .sym .lparen ::
      (commas Value.tokens q.values ++ [Token.sym .rparen]))

lemma parseTokens_insert {q : Insert} (hc : q.columns ≠ []) (hv : q.values ≠ []) (hn : .null ∉ q.values)
    (he : ts = [] ∨ ts = [.sym .semicolon]) : parseTokens (q.tokens ++ ts) = some (.insert q) := by
  have read : parseInsert (.ident q.table :: .sym .lparen ::
      (commas (fun c => [.ident c]) q.columns ++ Token.sym .rparen :: .kw .values :: .sym .lparen ::
        (commas Value.tokens q.values ++ Token.sym .rparen :: ts))) = some (q, ts) := by
    rw [parseInsert]
    simp only [parseName, Option.bind_eq_bind, Option.bind_some, parseParens_names hc, expect,
      parseParens_values hv hn, if_true]
  have shape : q.tokens ++ ts = .kw .insert :: .kw .into :: .ident q.table :: .sym .lparen ::
      (commas (fun c => [.ident c]) q.columns ++ Token.sym .rparen :: .kw .values :: .sym .lparen ::
        (commas Value.tokens q.values ++ Token.sym .rparen :: ts)) := by
    simp [Insert.tokens]
  rw [shape, parseTokens, read]
  obtain rfl | rfl := he <;> rfl

/-- The tokens of an assignment. -/
def assignmentTokens : String × Value → List Token
  | (c, .null) => [.ident c, .sym .eq, .kw .null]
  | (c, v) => .ident c :: .sym .eq :: v.tokens

lemma parseAssignment_tokens (a : String × Value) (ts : List Token) :
    parseAssignment (assignmentTokens a ++ ts) = some (a, ts) := by
  obtain ⟨c, v⟩ := a
  cases v with
  | null => rfl
  | int z => cases z <;> rfl
  | text s => rfl

/-- The tokens of an `UPDATE` without a condition. -/
def updateTokens (table : String) (sets : List (String × Value)) : List Token :=
  .kw .update :: .ident table :: .kw .set :: commas assignmentTokens sets

lemma parseTokens_update {table : String} {sets : List (String × Value)} (hs : sets ≠ []) :
    parseTokens (updateTokens table sets) = some (.update ⟨table, sets, none⟩) := by
  have hl : sets.length ≤ (commas assignmentTokens sets).length := by
    clear hs
    induction sets with
    | nil => simp
    | cons a sets ih =>
      have ha : 1 ≤ (assignmentTokens a).length := by
        obtain ⟨c, v⟩ := a
        cases v <;> simp [assignmentTokens]
      cases sets with
      | nil => simpa [commas] using ha
      | cons b sets =>
        simp only [commas, List.length_append, List.length_cons] at ih ⊢
        omega
  have read : parseList parseAssignment (commas assignmentTokens sets).length (commas assignmentTokens sets ++ []) =
      some (sets, []) :=
    parseList_commas hs hl (fun a _ ts _ => parseAssignment_tokens a ts) (by simp) (by simp)
  rw [List.append_nil] at read
  rw [updateTokens, parseTokens, parseUpdate]
  simp only [parseName, expect, if_true, read, parseWhere, Option.bind_eq_bind, Option.bind_some]
  rfl

/-- The parser reads every derivation of a condition, up to what cannot belong to it. -/
theorem parseCond_derives {l c ts} (h : Derives l c ts) :
    ∀ {fuel : Nat} {us : List Token}, l.fuel ts.length ≤ fuel → l.Closed us →
      parseCond fuel l (ts ++ us) = some (c, us) := by
  induction h with
  | @eq a b ha hb =>
    intro fuel us hf hu
    obtain ⟨t, rest, e, ht⟩ := head_tokens ha
    obtain ⟨fuel, rfl⟩ : ∃ k, fuel = k + 1 := ⟨fuel - 1, by simp [Level.fuel, e] at hf; omega⟩
    have h1 : parseExpr (a.tokens ++ (.sym .eq :: (b.tokens ++ us))) = some (a, .sym .eq :: (b.tokens ++ us)) :=
      parseExpr_tokens ha (by simp)
    rw [e, List.cons_append] at h1
    rw [e, List.append_assoc, List.cons_append, List.cons_append, parseCond_term ht, h1]
    simp [parseExpr_tokens hb hu]
  | @isIn a vs ha hv hn =>
    intro fuel us hf _
    obtain ⟨t, rest, e, ht⟩ := head_tokens ha
    obtain ⟨fuel, rfl⟩ : ∃ k, fuel = k + 1 := ⟨fuel - 1, by simp [Level.fuel, e] at hf; omega⟩
    let list := Token.sym .lparen :: (commas Value.tokens vs ++ Token.sym .rparen :: us)
    have h1 : parseExpr (a.tokens ++ Token.kw .in :: list) = some (a, .kw .in :: list) :=
      parseExpr_tokens ha (by simp)
    have h2 : parseParens (parseList parseLiteral list.length) list = some (vs, us) := parseParens_values hv hn us
    have split : a.tokens ++ Token.kw .in :: Token.sym .lparen :: (commas Value.tokens vs ++ [Token.sym .rparen]) ++ us =
        t :: (rest ++ Token.kw .in :: list) := by
      simp [e, list]
    rw [e, List.cons_append] at h1
    rw [split, parseCond_term ht, h1]
    simp [h2]
  | @paren c ts _ ih =>
    intro fuel us hf _
    simp only [Level.fuel, List.length_cons, List.length_append, List.length_nil] at hf ih
    obtain ⟨fuel, rfl⟩ : ∃ k, fuel = k + 1 := ⟨fuel - 1, by omega⟩
    have h1 : parseCond fuel .disj (ts ++ Token.sym .rparen :: us) = some (c, .sym .rparen :: us) :=
      ih (by omega) (by simp [Level.Closed])
    simp [parseCond, parseParens, h1, expect]
  | @and a b ts us _ _ iha ihb =>
    intro fuel vs hf hu
    simp only [Level.fuel, List.length_cons, List.length_append] at hf iha ihb
    obtain ⟨fuel, rfl⟩ : ∃ k, fuel = k + 1 := ⟨fuel - 1, by omega⟩
    have h1 : parseCond fuel .term (ts ++ Token.kw .and :: (us ++ vs)) = some (a, .kw .and :: (us ++ vs)) :=
      iha (by omega) (by simp [Level.Closed])
    have h2 : parseCond fuel .conj (us ++ vs) = some (b, vs) := ihb (by omega) hu
    simp [parseCond, h1, h2]
  | @term c ts h ih =>
    intro fuel us hf hu
    have hp := h.length_pos
    simp only [Level.fuel] at hf ih
    obtain ⟨fuel, rfl⟩ : ∃ k, fuel = k + 1 := ⟨fuel - 1, by omega⟩
    have h1 : parseCond fuel .term (ts ++ us) = some (c, us) := ih (by omega) hu.1
    rw [parseCond, h1]
    simp only [Option.bind_eq_bind, Option.bind_some]
    split
    · simp [Level.Closed] at hu
    · rfl
  | @or a b ts us _ _ iha ihb =>
    intro fuel vs hf hu
    simp only [Level.fuel, List.length_cons, List.length_append] at hf iha ihb
    obtain ⟨fuel, rfl⟩ : ∃ k, fuel = k + 1 := ⟨fuel - 1, by omega⟩
    have h1 : parseCond fuel .conj (ts ++ Token.kw .or :: (us ++ vs)) = some (a, .kw .or :: (us ++ vs)) :=
      iha (by omega) (by simp [Level.Closed])
    have h2 : parseCond fuel .disj (us ++ vs) = some (b, vs) := ihb (by omega) hu
    simp [parseCond, h1, h2]
  | @conj c ts h ih =>
    intro fuel us hf hu
    have hp := h.length_pos
    simp only [Level.fuel] at hf ih
    obtain ⟨fuel, rfl⟩ : ∃ k, fuel = k + 1 := ⟨fuel - 1, by omega⟩
    have h1 : parseCond fuel .conj (ts ++ us) = some (c, us) := ih (by omega) ⟨hu.1, hu.2.1⟩
    rw [parseCond, h1]
    simp only [Option.bind_eq_bind, Option.bind_some]
    split
    · simp [Level.Closed] at hu
    · rfl

end ArrowheadCore.Lib.Sql
