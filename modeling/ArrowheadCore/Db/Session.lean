import ArrowheadCore.Lib.Sql.Engine

/-!
# Sessions of a database

Embedding of the database interface (`db/DB.h`) as `MariaDB` implements it (`db/MariaDB.h`): a statement is
the text up to its first NUL, and what it does is what SQL says (`Lib.Sql`). Any statement may fail: `Link`
says which do, and a failed statement has no effect on the database. `insert` gives `none` where the code
returns false.

A computation is a function of the session, and an exception leaves the session as it was when it was
thrown, so that destructors run on what the failed statements have left.
-/

namespace ArrowheadCore.Db
open Lib Lib.Sql

/-- The tables, as the comments above the queries list them, and the tests those of the devices. -/
def schema : Schema
  | "system_" => some [⟨"system_name", false⟩, ⟨"address", false⟩, ⟨"port", false⟩,
      ⟨"authentication_info", false⟩, ⟨"created_at", true⟩, ⟨"updated_at", true⟩]
  | "service_definition" => some [⟨"service_definition", false⟩, ⟨"created_at", true⟩, ⟨"updated_at", true⟩]
  | "service_interface" => some [⟨"interface_name", false⟩, ⟨"created_at", true⟩, ⟨"updated_at", true⟩]
  | "service_registry" => some [⟨"service_id", false⟩, ⟨"system_id", false⟩, ⟨"service_uri", false⟩,
      ⟨"end_of_validity", false⟩, ⟨"secure", false⟩, ⟨"metadata", false⟩, ⟨"version", false⟩,
      ⟨"created_at", true⟩, ⟨"updated_at", true⟩]
  | "service_registry_interface_connection" => some [⟨"service_registry_id", false⟩, ⟨"interface_id", false⟩,
      ⟨"created_at", true⟩, ⟨"updated_at", true⟩]
  | "authorization_intra_cloud" => some [⟨"created_at", true⟩, ⟨"updated_at", true⟩,
      ⟨"consumer_system_id", false⟩, ⟨"provider_system_id", false⟩, ⟨"service_id", false⟩]
  | "authorization_intra_cloud_interface_connection" => some [⟨"authorization_intra_cloud_id", false⟩,
      ⟨"interface_id", false⟩, ⟨"created_at", true⟩, ⟨"updated_at", true⟩]
  | "authorization_inter_cloud" => some [⟨"created_at", true⟩, ⟨"updated_at", true⟩,
      ⟨"consumer_cloud_id", false⟩, ⟨"provider_system_id", false⟩, ⟨"service_id", false⟩]
  | "authorization_inter_cloud_interface_connection" => some [⟨"authorization_inter_cloud_id", false⟩,
      ⟨"interface_id", false⟩, ⟨"created_at", true⟩, ⟨"updated_at", true⟩]
  | "cloud" => some [⟨"operator", false⟩, ⟨"name", false⟩, ⟨"secure", false⟩, ⟨"neighbor", false⟩,
      ⟨"own_cloud", false⟩, ⟨"authentication_info", false⟩, ⟨"created_at", true⟩, ⟨"updated_at", true⟩]
  | "cloud_gatekeeper_relay" => some [⟨"cloud_id", false⟩, ⟨"relay_id", false⟩, ⟨"created_at", true⟩,
      ⟨"updated_at", true⟩]
  | "cloud_gateway_relay" => some [⟨"cloud_id", false⟩, ⟨"relay_id", false⟩, ⟨"created_at", true⟩,
      ⟨"updated_at", true⟩]
  | "device" => some [⟨"device_name", false⟩, ⟨"address", false⟩, ⟨"mac_address", false⟩,
      ⟨"authentication_info", false⟩, ⟨"created_at", true⟩, ⟨"updated_at", true⟩]
  | "device_registry" => some [⟨"device_id", false⟩, ⟨"end_of_validity", false⟩, ⟨"metadata", false⟩,
      ⟨"version", false⟩, ⟨"created_at", true⟩, ⟨"updated_at", true⟩]
  | _ => none

/-- What becomes of a statement; `refuse` is a failure that is not thrown, where there is such a thing. -/
inductive Fault where
  | none | refuse | throw
deriving DecidableEq, Repr

/-- The other end: the outcome of each statement in the order in which they are sent, the time stamps of new
    rows, and the escape function of the connection. -/
structure Link where
  fault : Nat → Fault := fun _ => .none
  stamp : String → Nat → List UInt8 := fun _ _ => []
  escape : List UInt8 → List UInt8 := fun s => QUOTE :: (s ++ [QUOTE])

structure Session where
  db : Database
  /-- the database at the beginning of the open transaction -/
  saved : Option Database := none
  sent : Nat := 0

/-- What ends a computation early: an exception of the database or of the code above it, or the end of the
    process (a failed assertion, or behaviour that is not defined). -/
inductive Exn where
  | db
  | runtimeError (what : String)
  | abort
deriving DecidableEq, Repr

/-- Computations on a session. -/
def DbM (α : Type) := Session → Except Exn α × Session

instance : Monad DbM where
  pure a := fun s => (.ok a, s)
  bind m f := fun s =>
    match m s with
    | (.ok a, s) => f a s
    | (.error e, s) => (.error e, s)

def throwExn {α : Type} (e : Exn) : DbM α := fun s => (.error e, s)

variable (link : Link)

/-- Send a statement: what happens when it is not refused, and when it fails without an exception. -/
def send {α : Type} (run : Session → Except Exn α × Session) (refused : Except Exn α) : DbM α := fun s =>
  let s' := { s with sent := s.sent + 1 }
  match link.fault s.sent with
  | .none => run s'
  | .refuse => (refused, s')
  | .throw => (.error .db, s')

/-- C++ `begin` -/
def begin : DbM Unit := send link (fun s => (.ok (), { s with saved := some s.db })) (.error .db)

/-- C++ `commit` -/
def commit : DbM Unit := send link (fun s => (.ok (), { s with saved := none })) (.error .db)

/-- Undo the changes of a transaction; keys stay assigned. -/
def Session.restore (s : Session) : Session :=
  match s.saved with
  | none => s
  | some old =>
    { s with
      db := fun t =>
        { old t with
          lastId := max (old t).lastId (s.db t).lastId
          assigned := fun r hr => ((old t).assigned r hr).trans (Nat.le_max_left _ _) }
      saved := none }

/-- C++ `rollback` -/
def rollback : DbM Unit := fun s => (.ok (), { s.restore with sent := s.sent + 1 })

/-- The key of the new row, or `none` (C++ `insert`). -/
def insert (statement : List UInt8) : DbM (Option Nat) :=
  send link
    (fun s =>
      match parse statement with
      | some (.insert q) =>
        match q.run schema s.db link.stamp with
        | some (id, db) => (.ok (some id), { s with db := db })
        | none => (.error .db, s)
      | some (.select q) => if (q.run schema s.db).isSome then (.ok none, s) else (.error .db, s)
      | some (.page q) => if (q.run schema s.db).isSome then (.ok none, s) else (.error .db, s)
      | some (.delete q) =>
        match q.run schema s.db with
        | some db => (.ok none, { s with db := db })
        | none => (.error .db, s)
      | some (.update q) =>
        match q.run schema s.db with
        | some db => (.ok none, { s with db := db })
        | none => (.error .db, s)
      | none => (.error .db, s))
    (.ok none)

/-- C++ `query` -/
def query (statement : List UInt8) : DbM Unit :=
  send link
    (fun s =>
      match parse statement with
      | some (.insert q) =>
        match q.run schema s.db link.stamp with
        | some (_, db) => (.ok (), { s with db := db })
        | none => (.error .db, s)
      | some (.select q) => if (q.run schema s.db).isSome then (.ok (), s) else (.error .db, s)
      | some (.page q) => if (q.run schema s.db).isSome then (.ok (), s) else (.error .db, s)
      | some (.delete q) =>
        match q.run schema s.db with
        | some db => (.ok (), { s with db := db })
        | none => (.error .db, s)
      | some (.update q) =>
        match q.run schema s.db with
        | some db => (.ok (), { s with db := db })
        | none => (.error .db, s)
      | none => (.error .db, s))
    (.error .db)

/-- Send a `SELECT`. -/
def select (statement : List UInt8) (refused : Except Exn (List (List Value))) : DbM (List (List Value)) :=
  send link
    (fun s =>
      match parse statement with
      | some (.select q) =>
        match q.run schema s.db with
        | some rows => (.ok rows, s)
        | none => (.error .db, s)
      | some (.page q) =>
        match q.run schema s.db with
        | some rows => (.ok rows, s)
        | none => (.error .db, s)
      | _ => (.error .db, s))
    refused

/-- The rows of the answer (C++ `fetch`). A statement that was prepared and cannot be executed gives none. -/
def fetch (statement : List UInt8) : DbM (List (List Value)) := select link statement (.ok [])

/-- A cell as a text; `none` is `NULL`. -/
def valueText : Value → Option (List UInt8)
  | .null => none
  | .int z => some (to_string z)
  | .text s => some s

/-- The first column of the first row, if it is not `NULL` (C++ `fetch(statement, std::string&)`). -/
def fetchString (statement : List UInt8) : DbM (Option (List UInt8)) := do
  let rows ← select link statement (.error .db)
  pure (rows.head?.bind (·.head?.bind valueText))

/-- The destructor of a `TransactionLock` rolls back unless `commit` has returned. -/
def rollbackOnError {α : Type} (m : DbM α) : DbM α := fun s =>
  match m s with
  | (.ok a, s) => (.ok a, s)
  | (.error e, s) => (.error e, (rollback s).2)

/-- A `TransactionLock` around `body`, with `commit` as its last statement. -/
def transactionLock {α : Type} (body : DbM α) : DbM α := do
  begin link
  rollbackOnError do
    let a ← body
    commit link
    pure a

/-! ## What computations do -/

section
variable {α β : Type} {s s' : Session}

@[simp] lemma pure_run (a : α) (s : Session) : (pure a : DbM α) s = (.ok a, s) := rfl

lemma bind_of_ok {m : DbM α} {f : α → DbM β} {a : α} (h : m s = (.ok a, s')) : (m >>= f) s = f a s' := by
  show (match m s with | (.ok a, s) => f a s | (.error e, s) => (.error e, s)) = _
  rw [h]

lemma bind_of_error {m : DbM α} {f : α → DbM β} {e : Exn} (h : m s = (.error e, s')) :
    (m >>= f) s = (.error e, s') := by
  show (match m s with | (.ok a, s) => f a s | (.error e, s) => (.error e, s)) = _
  rw [h]

/-- A sequence that comes to its end has come to the end of its first part. -/
lemma bind_eq_ok {m : DbM α} {f : α → DbM β} {b : β} (h : (m >>= f) s = (.ok b, s')) :
    ∃ a s1, m s = (.ok a, s1) ∧ f a s1 = (.ok b, s') := by
  cases e : m s with
  | mk r s1 =>
    cases r with
    | ok a => exact ⟨a, s1, rfl, (bind_of_ok e).symm.trans h⟩
    | error x =>
      rw [bind_of_error e] at h
      cases h

/-- A sequence ends in its first part or in its second. -/
lemma bind_cases {m : DbM α} {f : α → DbM β} {r : Except Exn β} (h : (m >>= f) s = (r, s')) :
    (∃ e, m s = (.error e, s') ∧ r = .error e) ∨ ∃ a s1, m s = (.ok a, s1) ∧ f a s1 = (r, s') := by
  cases e : m s with
  | mk x s1 =>
    cases x with
    | ok a => exact .inr ⟨a, s1, rfl, (bind_of_ok e).symm.trans h⟩
    | error x =>
      rw [bind_of_error e] at h
      cases h
      exact .inl ⟨x, rfl, rfl⟩

/-- The open transaction, if there is one, stays open. -/
def KeepsTransaction (m : DbM α) : Prop := ∀ s, (m s).2.saved = s.saved

lemma KeepsTransaction.bind {m : DbM α} {f : α → DbM β} (hm : KeepsTransaction m)
    (hf : ∀ a, KeepsTransaction (f a)) : KeepsTransaction (m >>= f) := by
  intro s
  have h := hm s
  cases e : m s with
  | mk r s1 =>
    rw [e] at h
    cases r with
    | ok a =>
      rw [bind_of_ok e]
      exact (hf a s1).trans h
    | error x =>
      rw [bind_of_error e]
      exact h

lemma send_keeps {run : Session → Except Exn α × Session} {refused : Except Exn α}
    (h : KeepsTransaction run) : KeepsTransaction (send link run refused) := by
  intro s
  unfold send
  cases link.fault s.sent with
  | none => exact h { s with sent := s.sent + 1 }
  | refuse => rfl
  | throw => rfl

lemma insert_keeps (statement : List UInt8) : KeepsTransaction (insert link statement) := by
  refine send_keeps link fun s => ?_
  cases parse statement with
  | none => rfl
  | some st =>
    cases st with
    | select q =>
      dsimp only
      split <;> rfl
    | page q =>
      dsimp only
      split <;> rfl
    | insert q =>
      dsimp only
      cases q.run schema s.db link.stamp <;> rfl
    | delete q =>
      dsimp only
      cases q.run schema s.db <;> rfl
    | update q =>
      dsimp only
      cases q.run schema s.db <;> rfl

lemma throwExn_keeps (e : Exn) : KeepsTransaction (throwExn e : DbM α) := fun _ => rfl

/-- An `INSERT` that gives a key has inserted the row. -/
lemma insert_some {statement : List UInt8} {q : Insert} {id : Nat}
    (hp : parse statement = some (.insert q)) (h : insert link statement s = (.ok (some id), s')) :
    q.run schema s.db link.stamp = some (id, s'.db) := by
  unfold insert send at h
  cases e : link.fault s.sent with
  | none =>
    simp only [e, hp] at h
    cases hr : q.run schema s.db link.stamp with
    | none =>
      rw [hr] at h
      cases h
    | some r =>
      rw [hr] at h
      cases h
      rfl
  | refuse =>
    rw [e] at h
    cases h
  | throw =>
    rw [e] at h
    cases h

/-- An `INSERT` that does not throw has inserted the row. -/
lemma query_ok {statement : List UInt8} {q : Insert} (hp : parse statement = some (.insert q))
    (h : query link statement s = (.ok (), s')) : ∃ id, q.run schema s.db link.stamp = some (id, s'.db) := by
  unfold query send at h
  cases e : link.fault s.sent with
  | none =>
    simp only [e, hp] at h
    cases hr : q.run schema s.db link.stamp with
    | none =>
      rw [hr] at h
      cases h
    | some r =>
      rw [hr] at h
      cases h
      exact ⟨r.1, rfl⟩
  | refuse =>
    rw [e] at h
    cases h
  | throw =>
    rw [e] at h
    cases h

/-- A `SELECT` that does not throw has its answer, unless it was refused. -/
lemma select_ok {statement : List UInt8} {q : Select} {refused : Except Exn (List (List Value))}
    {rows : List (List Value)} (hp : parse statement = some (.select q))
    (h : select link statement refused s = (.ok rows, s')) :
    s'.db = s.db ∧ (q.run schema s.db = some rows ∨ refused = .ok rows) := by
  unfold select send at h
  cases e : link.fault s.sent with
  | none =>
    simp only [e, hp] at h
    cases hr : q.run schema s.db with
    | none =>
      rw [hr] at h
      cases h
    | some r =>
      rw [hr] at h
      cases h
      exact ⟨rfl, .inl rfl⟩
  | refuse =>
    simp only [e, Prod.mk.injEq] at h
    exact ⟨by rw [← h.2], .inr h.1⟩
  | throw =>
    rw [e] at h
    cases h

/-- A `SELECT` changes nothing. -/
lemma select_db {statement : List UInt8} {refused : Except Exn (List (List Value))}
    {r : Except Exn (List (List Value))} (h : select link statement refused s = (r, s')) : s'.db = s.db := by
  unfold select send at h
  cases e : link.fault s.sent with
  | none =>
    simp only [e] at h
    cases hp : parse statement with
    | none =>
      rw [hp] at h
      cases h
      rfl
    | some st =>
      cases st with
      | insert q =>
        rw [hp] at h
        cases h
        rfl
      | delete q =>
        rw [hp] at h
        cases h
        rfl
      | update q =>
        rw [hp] at h
        cases h
        rfl
      | select q =>
        simp only [hp] at h
        cases hr : q.run schema s.db <;> (rw [hr] at h; cases h; rfl)
      | page q =>
        simp only [hp] at h
        cases hr : q.run schema s.db <;> (rw [hr] at h; cases h; rfl)
  | refuse =>
    rw [e] at h
    cases h
    rfl
  | throw =>
    rw [e] at h
    cases h
    rfl

lemma fetchString_db {statement : List UInt8} {r : Except Exn (Option (List UInt8))}
    (h : fetchString link statement s = (r, s')) : s'.db = s.db := by
  obtain ⟨e, h1, -⟩ | ⟨rows, s1, h1, h2⟩ := bind_cases h
  · exact select_db link h1
  · cases h2
    exact select_db link h1

lemma fetchString_ok {statement : List UInt8} {q : Select} {r : Option (List UInt8)}
    (hp : parse statement = some (.select q)) (h : fetchString link statement s = (.ok r, s')) :
    s'.db = s.db ∧ ∃ rows, q.run schema s.db = some rows ∧ r = rows.head?.bind (·.head?.bind valueText) := by
  obtain ⟨rows, s1, h1, h2⟩ := bind_eq_ok h
  cases h2
  obtain ⟨hdb, hr | hr⟩ := select_ok link hp h1
  · exact ⟨hdb, rows, hr, rfl⟩
  · cases hr

lemma fetch_ok {statement : List UInt8} {q : Select} {rows : List (List Value)}
    (hp : parse statement = some (.select q)) (h : fetch link statement s = (.ok rows, s')) :
    s'.db = s.db ∧ (q.run schema s.db = some rows ∨ rows = []) := by
  obtain ⟨hdb, hr | hr⟩ := select_ok link hp h
  · exact ⟨hdb, .inl hr⟩
  · cases hr
    exact ⟨hdb, .inr rfl⟩

/-- On this database the computation has this result, and it changes nothing. -/
def Gives (db : Database) (m : DbM α) (a : α) : Prop := ∀ s, s.db = db → ∃ k, m s = (.ok a, { s with sent := k })

lemma Gives.pure (db : Database) (a : α) : Gives db (pure a : DbM α) a := fun s _ => ⟨s.sent, rfl⟩

lemma Gives.bind {db : Database} {m : DbM α} {f : α → DbM β} {a : α} {b : β} (hm : Gives db m a)
    (hf : Gives db (f a) b) : Gives db (m >>= f) b := by
  intro s hs
  obtain ⟨k, h1⟩ := hm s hs
  obtain ⟨k', h2⟩ := hf { s with sent := k } hs
  exact ⟨k', (bind_of_ok h1).trans h2⟩

/-- Without failures a `SELECT` gives its answer. -/
lemma select_gives {statement : List UInt8} {q : Select} {db : Database} {rows : List (List Value)}
    {refused : Except Exn (List (List Value))} (hlink : ∀ n, link.fault n = .none)
    (hp : parse statement = some (.select q)) (hr : q.run schema db = some rows) :
    Gives db (select link statement refused) rows := by
  rintro s rfl
  refine ⟨s.sent + 1, ?_⟩
  unfold select send
  simp only [hlink, hp, hr]

lemma page_gives {statement : List UInt8} {q : Page} {db : Database} {rows : List (List Value)}
    {refused : Except Exn (List (List Value))} (hlink : ∀ n, link.fault n = .none)
    (hp : parse statement = some (.page q)) (hr : q.run schema db = some rows) :
    Gives db (select link statement refused) rows := by
  rintro s rfl
  refine ⟨s.sent + 1, ?_⟩
  unfold select send
  simp only [hlink, hp, hr]

/-- Every run comes to its end, with a result of this kind. -/
def Returns (P : α → Prop) (m : DbM α) : Prop := ∀ s, ∃ a s', m s = (.ok a, s') ∧ P a

lemma Returns.bind {P : α → Prop} {Q : β → Prop} {m : DbM α} {f : α → DbM β} (hm : Returns P m)
    (hf : ∀ a, P a → Returns Q (f a)) : Returns Q (m >>= f) := by
  intro s
  obtain ⟨a, s1, h1, ha⟩ := hm s
  obtain ⟨b, s2, h2, hb⟩ := hf a ha s1
  exact ⟨b, s2, (bind_of_ok h1).trans h2, hb⟩

/-- Without failures an `INSERT` that fits its table gives a key. -/
lemma insert_returns {statement : List UInt8} {q : Insert} (hlink : ∀ n, link.fault n = .none)
    (hp : parse statement = some (.insert q)) (hq : q.fits schema) :
    Returns (fun r => r.isSome) (insert link statement) := by
  intro s
  unfold insert send Insert.run
  rw [hlink, hp]
  simp [hq]

lemma query_returns {statement : List UInt8} {q : Insert} (hlink : ∀ n, link.fault n = .none)
    (hp : parse statement = some (.insert q)) (hq : q.fits schema) : Returns (fun _ => True) (query link statement) := by
  intro s
  unfold query send Insert.run
  rw [hlink, hp]
  simp [hq]

lemma Gives.returns {m : DbM α} {f : Database → α} (h : ∀ db, Gives db m (f db)) : Returns (fun _ => True) m := by
  intro s
  obtain ⟨k, hk⟩ := h s.db s rfl
  exact ⟨_, _, hk, trivial⟩

lemma begin_cases (s : Session) :
    (∃ s1, begin link s = (.ok (), s1) ∧ s1.db = s.db ∧ s1.saved = some s.db) ∨
    ∃ e s1, begin link s = (.error e, s1) ∧ s1.db = s.db ∧ s1.saved = s.saved := by
  unfold begin send
  cases link.fault s.sent with
  | none => exact .inl ⟨_, rfl, rfl, rfl⟩
  | refuse => exact .inr ⟨_, _, rfl, rfl, rfl⟩
  | throw => exact .inr ⟨_, _, rfl, rfl, rfl⟩

lemma commit_cases (s : Session) :
    (∃ s1, commit link s = (.ok (), s1) ∧ s1.db = s.db ∧ s1.saved = none) ∨
    ∃ e s1, commit link s = (.error e, s1) ∧ s1.db = s.db ∧ s1.saved = s.saved := by
  unfold commit send
  cases link.fault s.sent with
  | none => exact .inl ⟨_, rfl, rfl, rfl⟩
  | refuse => exact .inr ⟨_, _, rfl, rfl, rfl⟩
  | throw => exact .inr ⟨_, _, rfl, rfl, rfl⟩

/-- The tables hold the same rows. -/
def SameRows (a b : Database) : Prop := ∀ t, (a t).rows = (b t).rows

lemma rollback_saved {old : Database} (h : s.saved = some old) :
    (rollback s).2.saved = none ∧ SameRows (rollback s).2.db old := by
  simp only [rollback, Session.restore, h]
  exact ⟨trivial, fun _ => rfl⟩

/-- All or nothing: when a body that leaves transactions alone runs under a `TransactionLock`, a failure
    anywhere leaves the rows of every table as they were, and otherwise what the body did is done. -/
theorem transactionLock_cases {body : DbM α} (keeps : KeepsTransaction body) (hs : s.saved = none) :
    (∃ e s', transactionLock link body s = (.error e, s') ∧ s'.saved = none ∧ SameRows s'.db s.db) ∨
    ∃ a s' s1 s2, transactionLock link body s = (.ok a, s') ∧ s'.saved = none ∧
      s1.db = s.db ∧ body s1 = (.ok a, s2) ∧ s'.db = s2.db := by
  unfold transactionLock
  obtain ⟨s1, hb, hdb, hsaved⟩ | ⟨e, s1, hb, hdb, hsaved⟩ := begin_cases link s
  · rw [bind_of_ok hb]
    unfold rollbackOnError
    have keep := keeps s1
    cases hbody : body s1 with
    | mk r s2 =>
      rw [hbody] at keep
      have hs2 : s2.saved = some s.db := keep.trans hsaved
      cases r with
      | error e =>
        rw [bind_of_error hbody]
        exact .inl ⟨_, _, rfl, rollback_saved hs2⟩
      | ok a =>
        rw [bind_of_ok hbody]
        obtain ⟨s3, hc, hdb3, hs3⟩ | ⟨e, s3, hc, hdb3, hs3⟩ := commit_cases link s2
        · rw [bind_of_ok hc]
          exact .inr ⟨_, _, s1, s2, rfl, hs3, hdb, hbody, hdb3⟩
        · rw [bind_of_error hc]
          exact .inl ⟨_, _, rfl, rollback_saved (hs3.trans hs2)⟩
  · rw [bind_of_error hb]
    exact .inl ⟨_, _, rfl, hsaved.trans hs, fun t => by rw [hdb]⟩

/-- Without failures a transaction comes to its end when its body does. -/
lemma transactionLock_returns {P : α → Prop} {body : DbM α} (hlink : ∀ n, link.fault n = .none)
    (h : Returns P body) : Returns P (transactionLock link body) := by
  intro s
  unfold transactionLock
  obtain ⟨s1, hb, -⟩ | ⟨e, s1, hb, -⟩ := begin_cases link s
  · rw [bind_of_ok hb]
    unfold rollbackOnError
    obtain ⟨a, s2, h1, ha⟩ := h s1
    rw [bind_of_ok h1]
    obtain ⟨s3, hc, -⟩ | ⟨e, s3, hc, -⟩ := commit_cases link s2
    · rw [bind_of_ok hc]
      exact ⟨a, s3, rfl, ha⟩
    · simp [commit, send, hlink] at hc
  · simp [begin, send, hlink] at hb

end

end ArrowheadCore.Db
