import Mathlib.Data.List.Perm.Basic
import Mathlib.Data.List.Range
import ArrowheadCore.Lib.Trace

/-!
# The database pool

Embedding of `DatabasePool` and of the lifetime of `DatabaseConnection` (`db/DB.h`). The pool owns its
databases and a stack of the indexes of the idle ones; a connection takes an index with `lock` and its
destructor gives it back with `unlock`. Both run under the mutex of the pool, so that a run of any number of
threads is a sequence of these steps in any order. `lock` waits for an idle index: without one it is no
step.

The second constructor of a connection calls `begin` after `lock`. Between the two other threads may run, so
the indexes that such constructors hold are a part of the state. When `begin` throws, the object has not
been constructed and no destructor runs.
-/

namespace ArrowheadCore.Db
open Lib

/-- The pool (C++ `DatabasePool`): how many databases it owns, and the stack of idle indexes, top first. -/
structure DatabasePool where
  size : Nat
  idxs : List Nat

/-- A new pool pushes the index of every database it creates. -/
def DatabasePool.new (size : Nat) : DatabasePool := ⟨size, (List.range size).reverse⟩

/-- Take the top of the stack; `none` is a wait (C++ `DatabasePool::lock`). -/
def DatabasePool.lock (p : DatabasePool) : Option (Nat × DatabasePool) :=
  match p.idxs with
  | [] => none
  | idx :: rest => some (idx, { p with idxs := rest })

/-- Push an index back (C++ `DatabasePool::unlock`). -/
def DatabasePool.unlock (p : DatabasePool) (idx : Nat) : DatabasePool := { p with idxs := idx :: p.idxs }

/-- A connection that was constructed and not yet destroyed (C++ `DatabaseConnection`). -/
structure DatabaseConnection where
  idx : Nat
deriving DecidableEq, Repr

/-- A pool in use: the live connections, and the indexes of the constructors that are inside `begin`. -/
structure PoolState where
  pool : DatabasePool
  live : List DatabaseConnection := []
  starting : List Nat := []

/-- What a thread does. -/
inductive PoolAction where
  | construct
  | constructTransaction
  | begun
  | beginThrows
  | use (throws : Bool)
  | destroy
deriving DecidableEq, Repr

/-- One step of some thread. -/
inductive PoolStep : PoolState → PoolAction → PoolState → Prop where
  /-- `DatabaseConnection(pool)` -/
  | construct {s idx p} : s.pool.lock = some (idx, p) →
    PoolStep s .construct { s with pool := p, live := ⟨idx⟩ :: s.live }
  /-- `DatabaseConnection(pool, transaction)` as far as `lock` -/
  | constructTransaction {s idx p} : s.pool.lock = some (idx, p) →
    PoolStep s .constructTransaction { s with pool := p, starting := idx :: s.starting }
  /-- `begin` returns and the constructor ends -/
  | begun {s idx as bs} : s.starting = as ++ idx :: bs →
    PoolStep s .begun { s with live := ⟨idx⟩ :: s.live, starting := as ++ bs }
  /-- `begin` throws out of the constructor: the index is not given back -/
  | beginThrows {s idx as bs} : s.starting = as ++ idx :: bs →
    PoolStep s .beginThrows { s with starting := as ++ bs }
  /-- any operation on a live connection, which may throw -/
  | use {s conn} (throws : Bool) : conn ∈ s.live → PoolStep s (.use throws) s
  /-- `~DatabaseConnection` -/
  | destroy {s conn as bs} : s.live = as ++ conn :: bs →
    PoolStep s .destroy { s with pool := s.pool.unlock conn.idx, live := as ++ bs }

/-- A run of any threads on a new pool. -/
def PoolRun (size : Nat) (acts : List PoolAction) (s : PoolState) : Prop :=
  Trace PoolStep { pool := .new size } acts s

/-- All indexes that are idle or held. -/
def PoolState.indexes (s : PoolState) : List Nat :=
  s.pool.idxs ++ (s.live.map DatabaseConnection.idx ++ s.starting)

lemma lock_some {p q : DatabasePool} {idx : Nat} (h : p.lock = some (idx, q)) :
    p.idxs = idx :: q.idxs ∧ q.size = p.size := by
  unfold DatabasePool.lock at h
  split at h
  · cases h
  · cases h
    exact ⟨by assumption, rfl⟩

/-- Each step moves an index between the stack and its holders, but for the one that loses it. -/
lemma PoolStep.indexes {s s' : PoolState} {a : PoolAction} (h : PoolStep s a s') :
    s'.pool.size = s.pool.size ∧
      ((a ≠ .beginThrows ∧ s'.indexes.Perm s.indexes) ∨
        a = .beginThrows ∧ ∃ idx, (idx :: s'.indexes).Perm s.indexes) := by
  unfold PoolState.indexes
  cases h with
  | construct h =>
    obtain ⟨h, e⟩ := lock_some h
    refine ⟨e, .inl ⟨by simp, ?_⟩⟩
    rw [h]
    exact List.perm_middle
  | constructTransaction h =>
    obtain ⟨h, e⟩ := lock_some h
    refine ⟨e, .inl ⟨by simp, ?_⟩⟩
    rw [h, ← List.append_assoc]
    exact List.perm_middle.trans (by simp)
  | begun h =>
    refine ⟨rfl, .inl ⟨by simp, ?_⟩⟩
    rw [h]
    apply List.Perm.append_left
    simp only [List.map_cons, List.cons_append, ← List.append_assoc]
    exact List.perm_middle.symm
  | @beginThrows idx as bs h =>
    refine ⟨rfl, .inr ⟨rfl, idx, ?_⟩⟩
    rw [h]
    simp only [← List.append_assoc]
    exact List.perm_middle.symm
  | use => exact ⟨rfl, .inl ⟨by simp, .refl _⟩⟩
  | @destroy conn as bs h =>
    refine ⟨rfl, .inl ⟨by simp, ?_⟩⟩
    have moved : (conn.idx :: ((s.pool.idxs ++ as.map (·.idx)) ++ (bs.map (·.idx) ++ s.starting))).Perm
        ((s.pool.idxs ++ as.map (·.idx)) ++ conn.idx :: (bs.map (·.idx) ++ s.starting)) :=
      List.perm_middle.symm
    simpa [DatabasePool.unlock, h] using moved

/-! ## Exclusive use -/

/-- What is idle or held is a part of the indexes of the pool, each of them once. -/
lemma PoolRun.indexes {size acts s} (h : PoolRun size acts s) :
    s.pool.size = size ∧ ∃ lost, (lost ++ s.indexes).Perm (List.range size) := by
  refine Trace.inv (I := fun s => s.pool.size = size ∧ ∃ lost, (lost ++ s.indexes).Perm (List.range size))
    h ⟨rfl, [], ?_⟩ ?_
  · simp [PoolState.indexes, DatabasePool.new]
  · rintro s a s' ⟨hsize, lost, hp⟩ step
    obtain ⟨e, ⟨-, hs⟩ | ⟨-, idx, hs⟩⟩ := step.indexes
    · exact ⟨e.trans hsize, lost, (hs.append_left lost).trans hp⟩
    · refine ⟨e.trans hsize, idx :: lost, ?_⟩
      have moved : (lost ++ idx :: s'.indexes).Perm (List.range size) := (hs.append_left lost).trans hp
      exact List.perm_middle.symm.trans moved

/-- In every run: the indexes of the connections (and of those being constructed) are all different, those on
    the stack are all different and below `size()`, and none is both idle and held. -/
theorem pool_exclusive {size acts s} (h : PoolRun size acts s) :
    (s.live.map DatabaseConnection.idx ++ s.starting).Nodup ∧ s.pool.idxs.Nodup ∧
      (∀ idx ∈ s.pool.idxs, idx < s.pool.size) ∧
      ∀ idx ∈ s.pool.idxs, (∀ conn ∈ s.live, conn.idx ≠ idx) ∧ idx ∉ s.starting := by
  obtain ⟨hsize, lost, hp⟩ := h.indexes
  have nodup : s.indexes.Nodup := (List.nodup_append.1 (hp.nodup_iff.2 List.nodup_range)).2.1
  obtain ⟨h1, h2, h3⟩ := List.nodup_append.1 nodup
  refine ⟨h2, h1, fun idx hi => ?_, fun idx hi => ⟨fun conn hc e => ?_, fun hs => ?_⟩⟩
  · have : idx ∈ List.range size := hp.subset (by simp [PoolState.indexes, hi])
    rw [hsize]
    exact List.mem_range.1 this
  · exact h3 idx hi conn.idx (by simp [List.mem_map_of_mem hc]) e.symm
  · exact h3 idx hi idx (by simp [hs]) rfl

/-- Two connections from a pool of two. -/
theorem pool_exclusive_two :
    ∃ s, PoolRun 2 [.construct, .constructTransaction] s ∧
      (s.live.map DatabaseConnection.idx ++ s.starting).Nodup ∧ s.live = [⟨1⟩] ∧ s.starting = [0] := by
  have h1 : PoolRun 2 ([] ++ [.construct]) ⟨⟨2, [0]⟩, [⟨1⟩], []⟩ := .snoc .nil (.construct rfl)
  have h2 : PoolRun 2 ([.construct] ++ [.constructTransaction]) ⟨⟨2, []⟩, [⟨1⟩], [0]⟩ :=
    .snoc h1 (.constructTransaction rfl)
  exact ⟨_, h2, (pool_exclusive h2).1, rfl, rfl⟩

/-! ## Lost indexes -/

/-- Nothing is lost: what is idle and what is held make up the pool, and once nothing is held every index is
    idle. -/
def PoolState.Complete (s : PoolState) : Prop :=
  s.pool.idxs.length + (s.live.length + s.starting.length) = s.pool.size ∧
    (s.live = [] → s.starting = [] → ∀ idx < s.pool.size, idx ∈ s.pool.idxs)

lemma PoolState.length_indexes (s : PoolState) :
    s.indexes.length = s.pool.idxs.length + (s.live.length + s.starting.length) := by
  simp [PoolState.indexes]

/-- Counting: every throw of a `begin` inside a constructor loses one index for good. -/
lemma PoolRun.count {size acts s} (h : PoolRun size acts s) :
    s.pool.size = size ∧ s.indexes.length + acts.count .beginThrows = size := by
  refine Trace.inv_labels
    (I := fun acts s => s.pool.size = size ∧ s.indexes.length + acts.count .beginThrows = size)
    h ⟨rfl, ?_⟩ ?_
  · simp [PoolState.indexes, DatabasePool.new]
  · rintro acts s a s' ⟨hsize, hcount⟩ step
    obtain ⟨e, ⟨ha, hs⟩ | ⟨rfl, idx, hs⟩⟩ := step.indexes
    · refine ⟨e.trans hsize, ?_⟩
      rw [List.count_append, List.count_singleton, hs.length_eq, if_neg (by simpa using ha)]
      exact hcount
    · refine ⟨e.trans hsize, ?_⟩
      have := hs.length_eq
      simp only [List.length_cons] at this
      rw [List.count_append, List.count_singleton_self]
      omega

/-- After every step of a run nothing is lost iff no `begin` has thrown out of a constructor. -/
theorem pool_complete_iff {size acts s} (h : PoolRun size acts s) :
    s.Complete ↔ .beginThrows ∉ acts := by
  obtain ⟨hsize, hcount⟩ := h.count
  rw [s.length_indexes] at hcount
  rw [← List.count_eq_zero]
  refine ⟨fun ⟨hc, _⟩ => by omega, fun h0 => ⟨by omega, ?_⟩⟩
  intro hl hs idx hi
  obtain ⟨-, lost, hp⟩ := h.indexes
  have none : lost = [] := by
    have := hp.length_eq
    simp only [List.length_append, s.length_indexes, List.length_range] at this
    exact List.length_eq_zero_iff.1 (by omega)
  have : idx ∈ lost ++ s.indexes := hp.symm.subset (List.mem_range.2 (by omega))
  simpa [none, PoolState.indexes, hl, hs] using this

/-- A connection constructed and destroyed. -/
theorem pool_complete_iff_destroyed :
    ∃ s, PoolRun 1 [.construct, .destroy] s ∧ s.Complete := by
  have h1 : PoolRun 1 ([] ++ [.construct]) ⟨⟨1, []⟩, [⟨0⟩], []⟩ := .snoc .nil (.construct rfl)
  have h2 : PoolRun 1 ([.construct] ++ [.destroy]) ⟨⟨1, [0]⟩, [], []⟩ :=
    .snoc h1 (@PoolStep.destroy ⟨⟨1, []⟩, [⟨0⟩], []⟩ ⟨0⟩ [] [] rfl)
  exact ⟨_, h2, (pool_complete_iff h2).2 (by decide)⟩

/-- A throw of `begin` inside the constructor leaves a pool of one with nothing idle and nothing held. -/
theorem pool_index_lost :
    ∃ s, PoolRun 1 [.constructTransaction, .beginThrows] s ∧ ¬s.Complete ∧
      s.pool.idxs = [] ∧ s.live = [] ∧ s.starting = [] := by
  have h1 : PoolRun 1 ([] ++ [.constructTransaction]) ⟨⟨1, []⟩, [], [0]⟩ :=
    .snoc .nil (.constructTransaction rfl)
  have h2 : PoolRun 1 ([.constructTransaction] ++ [.beginThrows]) ⟨⟨1, []⟩, [], []⟩ :=
    .snoc h1 (@PoolStep.beginThrows ⟨⟨1, []⟩, [], [0]⟩ 0 [] [] rfl)
  refine ⟨_, h2, ?_, rfl, rfl, rfl⟩
  rintro ⟨h, -⟩
  simp at h

end ArrowheadCore.Db
