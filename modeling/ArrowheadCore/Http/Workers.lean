import Mathlib.Algebra.BigOperators.Fin
import Mathlib.Algebra.Order.BigOperators.Group.Finset
import ArrowheadCore.Lib.Trace

/-!
# The worker pool

Embedding of the mandatory parallelism of `HTTPSServer::run` and `HTTPSServer::run_internal`
(`http/serv/HTTPSServer.h`). The acceptor pushes the sockets it accepts to `ssl_sockets`; `n` workers take
them from its front. What one thread does is cut where another thread can come in between: `mux` is a part
of the state, every access to `stop` and `ssl_sockets` is a step of its own, and a wait on `cond` releases
`mux` and goes to sleep in one step. A sleeping worker may also wake up without a notification.

`accepted` and `handed` are histories: the sockets in the order in which `accept` returned them, and who
took which socket from the queue.
-/

namespace ArrowheadCore.Http
open Lib

variable {n : Nat} {SSL : Type}

/-- The threads of a server with `n` workers. -/
inductive Thread (n : Nat) where
  | acceptor
  | worker (i : Fin n)
deriving DecidableEq

/-- Where a worker is in its loop. -/
inductive WorkerPc (SSL : Type) where
  /-- before the constructor of `unique_lock`, or awake inside `wait` and about to lock again -/
  | lock
  /-- about to evaluate the predicate of `wait` -/
  | wait
  /-- asleep inside `wait` -/
  | asleep
  /-- behind `wait`, about to evaluate `stop && ssl_sockets.empty()` -/
  | test
  /-- about to call `ssl_sockets.front()` -/
  | front
  /-- about to call `ssl_sockets.pop_front()` -/
  | pop (ssl : SSL)
  /-- inside `servlet(ssl)` -/
  | servlet (ssl : SSL)
  | returned
  /-- `front()` was called on an empty queue -/
  | broken

/-- Where the acceptor is in `run_internal`. -/
inductive AcceptorPc (SSL : Type) where
  | poll
  /-- `accept` has returned; before the `lock_guard` -/
  | lock (ssl : SSL)
  | emplace (ssl : SSL)
  | notifyOne
  /-- behind the main loop, before the `lock_guard` -/
  | lockStop
  | setStop
  | notifyAll
  | join
  | returned

/-- The server: its members (C++ `mux`, `stop`, `ssl_sockets`), its threads and the two histories. -/
structure Server (n : Nat) (SSL : Type) where
  mux : Option (Thread n) := none
  stop : Bool := false
  sslSockets : List SSL := []
  workers : Fin n → WorkerPc SSL := fun _ => .lock
  acceptor : AcceptorPc SSL := .poll
  accepted : List SSL := []
  handed : List (Fin n × SSL) := []

/-- A worker goes on at `pc`. -/
def Server.goto (s : Server n SSL) (i : Fin n) (pc : WorkerPc SSL) : Server n SSL :=
  { s with workers := Function.update s.workers i pc }

/-- The wake up of `notify_all`. -/
def WorkerPc.wake : WorkerPc SSL → WorkerPc SSL
  | .asleep => .lock
  | pc => pc

/-- What comes from outside of the server (a connection, a signal, a spurious wake up), and the next step
    of one of its threads. -/
inductive ServerAction (SSL : Type) where
  | accept (ssl : SSL)
  | signal
  | spurious
  | work
deriving DecidableEq

/-- One step of some thread. -/
inductive ServerStep : Server n SSL → ServerAction SSL → Server n SSL → Prop where
  | lock {s i} : s.workers i = .lock → s.mux = none →
    ServerStep s .work ({ s with mux := some (.worker i) }.goto i .wait)
  | waitDone {s i} : s.workers i = .wait → s.stop || !s.sslSockets.isEmpty →
    ServerStep s .work (s.goto i .test)
  | waitSleep {s i} : s.workers i = .wait → ¬(s.stop || !s.sslSockets.isEmpty) →
    ServerStep s .work ({ s with mux := none }.goto i .asleep)
  | spurious {s i} : s.workers i = .asleep → ServerStep s .spurious (s.goto i .lock)
  | testReturn {s i} : s.workers i = .test → s.stop && s.sslSockets.isEmpty →
    ServerStep s .work ({ s with mux := none }.goto i .returned)
  | testGo {s i} : s.workers i = .test → ¬(s.stop && s.sslSockets.isEmpty) →
    ServerStep s .work (s.goto i .front)
  | frontEmpty {s i} : s.workers i = .front → s.sslSockets = [] → ServerStep s .work (s.goto i .broken)
  | front {s i ssl rest} : s.workers i = .front → s.sslSockets = ssl :: rest →
    ServerStep s .work (s.goto i (.pop ssl))
  | pop {s i ssl} : s.workers i = .pop ssl →
    ServerStep s .work
      ({ s with mux := none, sslSockets := s.sslSockets.tail, handed := s.handed ++ [(i, ssl)] }.goto i
        (.servlet ssl))
  | servlet {s i ssl} : s.workers i = .servlet ssl → ServerStep s .work (s.goto i .lock)
  | accept {s} (ssl : SSL) : s.acceptor = .poll →
    ServerStep s (.accept ssl) { s with acceptor := .lock ssl, accepted := s.accepted ++ [ssl] }
  | lockPush {s ssl} : s.acceptor = .lock ssl → s.mux = none →
    ServerStep s .work { s with mux := some .acceptor, acceptor := .emplace ssl }
  | emplace {s ssl} : s.acceptor = .emplace ssl →
    ServerStep s .work
      { s with mux := none, sslSockets := s.sslSockets ++ [ssl], acceptor := .notifyOne }
  | notifyOne {s i} : s.acceptor = .notifyOne → s.workers i = .asleep →
    ServerStep s .work ({ s with acceptor := .poll }.goto i .lock)
  | notifyNone {s} : s.acceptor = .notifyOne → (∀ i, s.workers i ≠ .asleep) →
    ServerStep s .work { s with acceptor := .poll }
  /-- a signal, or an error of `poll`: the main loop is left -/
  | signal {s} : s.acceptor = .poll → ServerStep s .signal { s with acceptor := .lockStop }
  | lockStop {s} : s.acceptor = .lockStop → s.mux = none →
    ServerStep s .work { s with mux := some .acceptor, acceptor := .setStop }
  | setStop {s} : s.acceptor = .setStop →
    ServerStep s .work { s with mux := none, stop := true, acceptor := .notifyAll }
  | notifyAll {s} : s.acceptor = .notifyAll →
    ServerStep s .work { s with workers := fun i => (s.workers i).wake, acceptor := .join }
  | join {s} : s.acceptor = .join → (∀ i, s.workers i = .returned) →
    ServerStep s .work { s with acceptor := .returned }

/-- A run of the server from `run(n)` on. -/
def ServerRun (acts : List (ServerAction SSL)) (s : Server n SSL) : Prop := Trace ServerStep {} acts s

/-- The socket that was accepted and is not in the queue yet. -/
def AcceptorPc.inHand : AcceptorPc SSL → List SSL
  | .lock ssl | .emplace ssl => [ssl]
  | _ => []

/-! ## The invariant -/

/-- What a worker knows where it is: who owns `mux`, and what its last test has told it. -/
def Server.WorkerOk (s : Server n SSL) (i : Fin n) : WorkerPc SSL → Prop
  | .lock | .asleep | .servlet _ => s.mux ≠ some (.worker i)
  | .wait => s.mux = some (.worker i)
  | .test => s.mux = some (.worker i) ∧ (s.stop = true ∨ s.sslSockets ≠ [])
  | .front => s.mux = some (.worker i) ∧ s.sslSockets ≠ []
  | .pop ssl => s.mux = some (.worker i) ∧ s.sslSockets.head? = some ssl
  | .returned => s.mux ≠ some (.worker i) ∧ s.stop = true ∧ s.sslSockets = []
  | .broken => False

/-- What the acceptor knows: who owns `mux`, and that it alone sets `stop`. -/
def Server.AcceptorOk (s : Server n SSL) : AcceptorPc SSL → Prop
  | .poll | .lock _ | .notifyOne | .lockStop => s.mux ≠ some .acceptor ∧ s.stop = false
  | .emplace _ | .setStop => s.mux = some .acceptor ∧ s.stop = false
  | .notifyAll | .join | .returned => s.mux ≠ some .acceptor ∧ s.stop = true

/-- A worker that comes back to the queue by itself. -/
def WorkerPc.Awake (pc : WorkerPc SSL) : Prop := pc ≠ .asleep ∧ pc ≠ .returned

/-- What holds in every state of a run. -/
structure ServerInv (s : Server n SSL) : Prop where
  workers : ∀ i, s.WorkerOk i (s.workers i)
  acceptor : s.AcceptorOk s.acceptor
  history : s.accepted = s.handed.map Prod.snd ++ (s.sslSockets ++ s.acceptor.inHand)
  /-- no wake up is lost: a queue that is not empty is about to be looked at -/
  awake : s.sslSockets ≠ [] → s.acceptor = .notifyOne ∨ ∃ i, (s.workers i).Awake
  /-- nobody sleeps through the stop -/
  stopped : s.stop = true → s.acceptor = .notifyAll ∨ ∀ i, s.workers i ≠ .asleep

variable {s s' : Server n SSL} {i j : Fin n} {pc : WorkerPc SSL} {a : ServerAction SSL}

@[simp] lemma goto_self (s : Server n SSL) (i : Fin n) (pc : WorkerPc SSL) : (s.goto i pc).workers i = pc := by
  simp [Server.goto]

lemma goto_ne (h : j ≠ i) : (s.goto i pc).workers j = s.workers j := by
  simp [Server.goto, h]

/-- What a worker knows while it does not own `mux` is kept by the steps of others. -/
lemma Server.WorkerOk.frame (h : s.WorkerOk j pc) (h0 : s.mux ≠ some (.worker j))
    (h1 : s'.mux ≠ some (.worker j))
    (h2 : s.stop = true → s.sslSockets = [] → s'.stop = true ∧ s'.sslSockets = []) :
    s'.WorkerOk j pc := by
  cases pc with
  | lock | asleep | servlet => exact h1
  | wait => exact absurd h h0
  | test | front | pop => exact absurd h.1 h0
  | returned => exact ⟨h1, h2 h.2.1 h.2.2⟩
  | broken => exact h

/-- The worker that owns `mux` is the only one that knows more than the others. -/
lemma ServerInv.workers_of_owner (h : ServerInv s) (own : s.mux = some (.worker i))
    (h1 : s'.mux = some (.worker i) ∨ s'.mux = none)
    (h2 : s.stop = true → s.sslSockets = [] → s'.stop = true ∧ s'.sslSockets = [])
    (hw : ∀ j, j ≠ i → s'.workers j = s.workers j) (hi : s'.WorkerOk i (s'.workers i)) :
    ∀ j, s'.WorkerOk j (s'.workers j) := by
  intro j
  by_cases e : j = i
  · exact e ▸ hi
  · rw [hw j e]
    refine (h.workers j).frame ?_ ?_ h2
    · rw [own]
      simpa using Ne.symm e
    · obtain h1 | h1 := h1 <;> rw [h1]
      · simpa using Ne.symm e
      · simp

/-- A step of the acceptor that the workers do not see. -/
lemma ServerInv.workers_of_acceptor (h : ServerInv s) (h0 : ∀ j, s.mux ≠ some (.worker j))
    (h1 : ∀ j, s'.mux ≠ some (.worker j))
    (h2 : s.stop = true → s.sslSockets = [] → s'.stop = true ∧ s'.sslSockets = [])
    (hw : s'.workers = s.workers) : ∀ j, s'.WorkerOk j (s'.workers j) := by
  intro j
  rw [hw]
  exact (h.workers j).frame (h0 j) (h1 j) h2

/-- A worker that does not fall asleep keeps the promises about sleepers. -/
lemma ServerInv.stopped_goto (h : ServerInv s) (hpc : pc ≠ .asleep) :
    s.stop = true → s.acceptor = .notifyAll ∨ ∀ j, (s.goto i pc).workers j ≠ .asleep := by
  intro hs
  refine (h.stopped hs).imp id fun h j => ?_
  by_cases e : j = i
  · rw [e, goto_self]
    exact hpc
  · rw [goto_ne e]
    exact h j

lemma awake_goto (hpc : pc.Awake) : ∃ j, ((s.goto i pc).workers j).Awake :=
  ⟨i, by rw [goto_self]; exact hpc⟩

/-- A step of a worker that changes nothing but its place. -/
lemma ServerInv.goto (h : ServerInv s) (hpc : pc.Awake) (hi : s.WorkerOk i pc) : ServerInv (s.goto i pc) := by
  refine ⟨fun j => ?_, h.acceptor, h.history, fun _ => .inr (awake_goto hpc), h.stopped_goto hpc.1⟩
  by_cases e : j = i
  · rw [e, goto_self]
    exact hi
  · rw [goto_ne e]
    exact h.workers j

/-- The acceptor keeps what it knows when a worker takes or releases `mux`. -/
lemma Server.AcceptorOk.frame {pc : AcceptorPc SSL} (h : s.AcceptorOk pc) (h0 : s.mux ≠ some .acceptor)
    (h1 : s'.mux ≠ some .acceptor) (hs : s'.stop = s.stop) : s'.AcceptorOk pc := by
  cases pc with
  | poll | lock | notifyOne | lockStop | notifyAll | join | returned => exact ⟨h1, hs ▸ h.2⟩
  | emplace | setStop => exact absurd h.1 h0

/-- A worker is at `pc`, so it knows what belongs to `pc`. -/
lemma ServerInv.at (h : ServerInv s) (hpc : s.workers i = pc) : s.WorkerOk i pc :=
  hpc ▸ h.workers i

lemma ServerInv.acceptor_at {pc : AcceptorPc SSL} (h : ServerInv s) (hpc : s.acceptor = pc) :
    s.AcceptorOk pc ∧ s.accepted = s.handed.map Prod.snd ++ (s.sslSockets ++ pc.inHand) :=
  hpc ▸ ⟨h.acceptor, h.history⟩

lemma WorkerPc.wake_ne_asleep (pc : WorkerPc SSL) : pc.wake ≠ .asleep := by
  cases pc <;> simp [WorkerPc.wake]

lemma WorkerPc.Awake.wake (h : pc.Awake) : pc.wake.Awake := by
  cases pc with
  | asleep => exact absurd rfl h.1
  | _ => exact h

lemma Server.WorkerOk.wake (h : s.WorkerOk i pc) : s.WorkerOk i pc.wake := by
  cases pc <;> exact h

/-- Every step keeps the invariant. -/
lemma ServerInv.step (hn : 0 < n) (h : ServerInv s) (step : ServerStep s a s') : ServerInv s' := by
  cases step with
  | @lock i hpc hmux =>
    refine ⟨fun j => ?_, h.acceptor.frame (by simp [hmux]) (by simp [Server.goto]) rfl, h.history,
      fun _ => .inr (awake_goto (by simp [WorkerPc.Awake])), h.stopped_goto (by simp)⟩
    by_cases e : j = i
    · rw [e, goto_self]
      rfl
    · rw [goto_ne e]
      exact (h.workers j).frame (by simp [hmux]) (by simpa [Server.goto] using Ne.symm e)
        fun h1 h2 => ⟨h1, h2⟩
  | @waitDone i hpc ht =>
    have own : s.mux = some (.worker i) := h.at hpc
    refine h.goto (by simp [WorkerPc.Awake]) ⟨own, ?_⟩
    simpa [List.isEmpty_iff] using ht
  | @waitSleep i hpc ht =>
    have own : s.mux = some (.worker i) := h.at hpc
    obtain ⟨hs, hq⟩ : s.stop = false ∧ s.sslSockets = [] := by simpa [List.isEmpty_iff] using ht
    refine ⟨?_, h.acceptor.frame (by simp [own]) (by simp [Server.goto]) rfl, h.history,
      fun hq' => absurd hq hq', fun hs' => absurd (hs.symm.trans hs') (by simp)⟩
    refine h.workers_of_owner own (.inr rfl) (fun h1 h2 => ⟨h1, h2⟩) (fun _ => goto_ne) ?_
    rw [goto_self]
    simp [Server.WorkerOk, Server.goto]
  | @spurious i hpc =>
    have ok : s.mux ≠ some (.worker i) := h.at hpc
    exact h.goto (by simp [WorkerPc.Awake]) ok
  | @testReturn i hpc ht =>
    obtain ⟨own, -⟩ := h.at hpc
    obtain ⟨hs, hq⟩ : s.stop = true ∧ s.sslSockets = [] := by simpa [List.isEmpty_iff] using ht
    refine ⟨?_, h.acceptor.frame (by simp [own]) (by simp [Server.goto]) rfl, h.history,
      fun hq' => absurd hq hq', h.stopped_goto (by simp)⟩
    refine h.workers_of_owner own (.inr rfl) (fun h1 h2 => ⟨h1, h2⟩) (fun _ => goto_ne) ?_
    rw [goto_self]
    exact ⟨by simp [Server.goto], hs, hq⟩
  | @testGo i hpc ht =>
    obtain ⟨own, hq⟩ := h.at hpc
    refine h.goto (by simp [WorkerPc.Awake]) ⟨own, fun he => ?_⟩
    obtain hs | hq := hq
    · simp [hs, he] at ht
    · exact hq he
  | frontEmpty hpc he => exact absurd he (h.at hpc).2
  | @front i ssl rest hpc he =>
    obtain ⟨own, -⟩ := h.at hpc
    exact h.goto (by simp [WorkerPc.Awake]) ⟨own, by rw [he]; rfl⟩
  | @pop i ssl hpc =>
    obtain ⟨own, hq⟩ := h.at hpc
    obtain ⟨rest, he⟩ := List.head?_eq_some_iff.1 hq
    refine ⟨?_, h.acceptor.frame (by simp [own]) (by simp [Server.goto]) rfl, ?_,
      fun _ => .inr (awake_goto (by simp [WorkerPc.Awake])), h.stopped_goto (by simp)⟩
    · refine h.workers_of_owner own (.inr rfl) (fun h1 h2 => ?_) (fun _ => goto_ne) ?_
      · rw [he] at h2
        cases h2
      · rw [goto_self]
        simp [Server.WorkerOk, Server.goto]
    · have := h.history
      rw [he] at this
      simpa [Server.goto, he] using this
  | @servlet i ssl hpc =>
    have ok : s.mux ≠ some (.worker i) := h.at hpc
    exact h.goto (by simp [WorkerPc.Awake]) ok
  | accept ssl hpc =>
    obtain ⟨ok, hist⟩ := h.acceptor_at hpc
    refine ⟨h.workers, ok, ?_, fun hq => .inr ?_, fun hs => absurd (ok.2.symm.trans hs) (by simp)⟩
    · rw [hist]
      simp [AcceptorPc.inHand]
    · exact (h.awake hq).resolve_left (by simp [hpc])
  | lockPush hpc hmux =>
    obtain ⟨ok, hist⟩ := h.acceptor_at hpc
    refine ⟨h.workers_of_acceptor (by simp [hmux]) (by simp) (fun h1 h2 => ⟨h1, h2⟩) rfl, ⟨rfl, ok.2⟩, hist,
      fun hq => .inr ?_, fun hs => absurd (ok.2.symm.trans hs) (by simp)⟩
    exact (h.awake hq).resolve_left (by simp [hpc])
  | emplace hpc =>
    obtain ⟨ok, hist⟩ := h.acceptor_at hpc
    refine ⟨h.workers_of_acceptor (by simp [ok.1]) (by simp) (fun h1 _ => ?_) rfl, ⟨by simp, ok.2⟩, ?_,
      fun _ => .inl rfl, fun hs => absurd (ok.2.symm.trans hs) (by simp)⟩
    · exact absurd (ok.2.symm.trans h1) (by simp)
    · rw [hist]
      simp [AcceptorPc.inHand]
  | @notifyOne i hpc hi =>
    obtain ⟨ok, hist⟩ := h.acceptor_at hpc
    refine ⟨fun j => ?_, ok, hist, fun _ => .inr (awake_goto (by simp [WorkerPc.Awake])),
      fun hs => absurd (ok.2.symm.trans hs) (by simp)⟩
    by_cases e : j = i
    · rw [e, goto_self]
      exact h.at hi
    · rw [goto_ne e]
      exact h.workers j
  | notifyNone hpc hs =>
    obtain ⟨ok, hist⟩ := h.acceptor_at hpc
    refine ⟨h.workers, ok, hist, fun hq => .inr ⟨⟨0, hn⟩, hs ⟨0, hn⟩, fun hr => ?_⟩,
      fun hs => absurd (ok.2.symm.trans hs) (by simp)⟩
    -- the first worker has not returned, for it would have seen an empty queue
    exact hq (h.at hr).2.2
  | signal hpc =>
    obtain ⟨ok, hist⟩ := h.acceptor_at hpc
    refine ⟨h.workers, ok, hist, fun hq => .inr ?_, fun hs => absurd (ok.2.symm.trans hs) (by simp)⟩
    exact (h.awake hq).resolve_left (by simp [hpc])
  | lockStop hpc hmux =>
    obtain ⟨ok, hist⟩ := h.acceptor_at hpc
    refine ⟨h.workers_of_acceptor (by simp [hmux]) (by simp) (fun h1 h2 => ⟨h1, h2⟩) rfl, ⟨rfl, ok.2⟩, hist,
      fun hq => .inr ?_, fun hs => absurd (ok.2.symm.trans hs) (by simp)⟩
    exact (h.awake hq).resolve_left (by simp [hpc])
  | setStop hpc =>
    obtain ⟨ok, hist⟩ := h.acceptor_at hpc
    refine ⟨h.workers_of_acceptor (by simp [ok.1]) (by simp) (fun _ h2 => ⟨rfl, h2⟩) rfl, ⟨by simp, rfl⟩,
      hist, fun hq => .inr ?_, fun _ => .inl rfl⟩
    exact (h.awake hq).resolve_left (by simp [hpc])
  | notifyAll hpc =>
    obtain ⟨ok, hist⟩ := h.acceptor_at hpc
    refine ⟨fun j => (h.workers j).wake, ok, hist, fun hq => .inr ?_, fun _ => .inr fun j => ?_⟩
    · obtain ⟨i, hi⟩ := (h.awake hq).resolve_left (by simp [hpc])
      exact ⟨i, hi.wake⟩
    · exact (s.workers j).wake_ne_asleep
  | join hpc hr =>
    obtain ⟨ok, hist⟩ := h.acceptor_at hpc
    refine ⟨h.workers, ok, hist, fun hq => .inr ?_, fun hs => .inr ?_⟩
    · exact (h.awake hq).resolve_left (by simp [hpc])
    · exact (h.stopped hs).resolve_left (by simp [hpc])

lemma ServerRun.inv {acts} (hn : 0 < n) (h : ServerRun acts s) : ServerInv s := by
  refine Trace.inv h ⟨fun i => ?_, ?_, rfl, fun h => absurd rfl h, fun h => ?_⟩ fun h => h.step hn
  · simp [Server.WorkerOk]
  · simp [Server.AcceptorOk]
  · cases h

/-! ## Progress

Left alone, the threads come to rest: every step of a thread makes the weight of the server smaller. -/

/-- How far a worker is from being asleep. -/
def WorkerPc.weight : WorkerPc SSL → Nat
  | .servlet _ => 7
  | .lock => 6
  | .wait => 5
  | .test => 4
  | .front => 3
  | .pop _ => 2
  | .asleep | .returned | .broken => 0

/-- What the acceptor can still set going. -/
def AcceptorPc.weight (n : Nat) : AcceptorPc SSL → Nat
  | .lock _ => 20
  | .emplace _ => 19
  | .notifyOne => 8
  | .lockStop => 6 * n + 4
  | .setStop => 6 * n + 3
  | .notifyAll => 6 * n + 2
  | .join => 1
  | .poll | .returned => 0

def Server.weight (s : Server n SSL) : Nat :=
  ∑ i, (s.workers i).weight + 10 * s.sslSockets.length + s.acceptor.weight n

lemma sum_goto (s : Server n SSL) (i : Fin n) (pc : WorkerPc SSL) :
    ∑ j, ((s.goto i pc).workers j).weight + (s.workers i).weight = ∑ j, (s.workers j).weight + pc.weight := by
  have moved : ∀ j, ((s.goto i pc).workers j).weight =
      Function.update (fun j => (s.workers j).weight) i pc.weight j := by
    intro j
    by_cases e : j = i
    · simp [e]
    · simp [goto_ne e, e]
  simp only [moved]
  rw [Finset.sum_update_of_mem (Finset.mem_univ i),
    ← Finset.sum_sdiff (Finset.subset_univ {i}) (f := fun j => (s.workers j).weight), Finset.sum_singleton]
  omega

lemma sum_wake (s : Server n SSL) :
    ∑ j, ((s.workers j).wake).weight ≤ ∑ j, (s.workers j).weight + 6 * n := by
  have each : ∀ j ∈ Finset.univ, ((s.workers j).wake).weight ≤ (s.workers j).weight + 6 := by
    intro j _
    cases s.workers j <;> simp [WorkerPc.wake, WorkerPc.weight]
  refine (Finset.sum_le_sum each).trans ?_
  rw [Finset.sum_add_distrib]
  simp [Nat.mul_comm]

lemma Server.weight_goto_lt {t : Server n SSL} {pc0 : WorkerPc SSL} (hpc : t.workers i = pc0)
    (h : t.weight + pc.weight < s.weight + pc0.weight) : (t.goto i pc).weight < s.weight := by
  have := sum_goto t i pc
  rw [hpc] at this
  have e : (t.goto i pc).weight + pc0.weight = t.weight + pc.weight := by
    simp only [Server.weight, Server.goto] at this ⊢
    omega
  omega

lemma Server.weight_goto_place_lt {t : Server n SSL} {pc0 : WorkerPc SSL} (ht : t.weight = s.weight)
    (hpc : t.workers i = pc0) (h : pc.weight < pc0.weight) : (t.goto i pc).weight < s.weight :=
  Server.weight_goto_lt hpc (ht ▸ Nat.add_lt_add_left h t.weight)

lemma ServerInv.weight (h : ServerInv s) (step : ServerStep s .work s') : s'.weight < s.weight := by
  cases step with
  | lock hpc _ => exact Server.weight_goto_place_lt rfl hpc (by simp [WorkerPc.weight])
  | waitDone hpc _ => exact Server.weight_goto_place_lt rfl hpc (by simp [WorkerPc.weight])
  | waitSleep hpc _ => exact Server.weight_goto_place_lt rfl hpc (by simp [WorkerPc.weight])
  | testReturn hpc _ => exact Server.weight_goto_place_lt rfl hpc (by simp [WorkerPc.weight])
  | testGo hpc _ => exact Server.weight_goto_place_lt rfl hpc (by simp [WorkerPc.weight])
  | frontEmpty hpc _ => exact Server.weight_goto_place_lt rfl hpc (by simp [WorkerPc.weight])
  | front hpc _ => exact Server.weight_goto_place_lt rfl hpc (by simp [WorkerPc.weight])
  | @pop i ssl hpc =>
    obtain ⟨rest, he⟩ := List.head?_eq_some_iff.1 (h.at hpc).2
    refine Server.weight_goto_lt hpc ?_
    simp only [Server.weight, WorkerPc.weight, he, List.tail_cons, List.length_cons]
    omega
  | servlet hpc => exact Server.weight_goto_place_lt rfl hpc (by simp [WorkerPc.weight])
  | lockPush hpc _ => simp [Server.weight, hpc, AcceptorPc.weight]
  | emplace hpc =>
    simp only [Server.weight, hpc, AcceptorPc.weight, List.length_append, List.length_singleton]
    omega
  | @notifyOne i hpc hi =>
    refine Server.weight_goto_lt hi ?_
    simp only [Server.weight, hpc, AcceptorPc.weight, WorkerPc.weight]
    omega
  | notifyNone hpc _ => simp [Server.weight, hpc, AcceptorPc.weight]
  | lockStop hpc _ => simp [Server.weight, hpc, AcceptorPc.weight]
  | setStop hpc => simp [Server.weight, hpc, AcceptorPc.weight]
  | notifyAll hpc =>
    have := sum_wake s
    simp only [Server.weight, hpc, AcceptorPc.weight]
    omega
  | join hpc _ => simp [Server.weight, hpc, AcceptorPc.weight]

/-- Steps of the threads alone are fewer than the weight. -/
lemma ServerInv.work_length (hn : 0 < n) (h : ServerInv s) {acts} (run : Trace ServerStep s acts s')
    (work : ∀ a ∈ acts, a = .work) : acts.length ≤ s.weight := by
  have count : ServerInv s' ∧ ((∀ a ∈ acts, a = .work) → acts.length + s'.weight ≤ s.weight) := by
    refine Trace.inv_labels
      (I := fun acts t => ServerInv t ∧ ((∀ a ∈ acts, a = .work) → acts.length + t.weight ≤ s.weight))
      run ⟨h, fun _ => by simp⟩ ?_
    rintro acts t a u ⟨ht, hc⟩ step
    refine ⟨ht.step hn step, fun hw => ?_⟩
    have : a = .work := hw a (by simp)
    subst this
    have lt := ht.weight step
    have le := hc fun a ha => hw a (by simp [ha])
    simp only [List.length_append, List.length_singleton]
    omega
  have := count.2 work
  omega

/-- No thread has a step left. -/
def Server.AtRest (s : Server n SSL) : Prop := ∀ s', ¬ServerStep s .work s'

/-- Whoever owns `mux` can go on. -/
lemma ServerInv.mux_of_rest (h : ServerInv s) (rest : s.AtRest) : s.mux = none := by
  cases hm : s.mux with
  | none => rfl
  | some t =>
    exfalso
    cases t with
    | acceptor =>
      have ok := h.acceptor
      cases e : s.acceptor with
      | emplace => exact rest _ (.emplace e)
      | setStop => exact rest _ (.setStop e)
      | _ => rw [e] at ok; exact ok.1 hm
    | worker i =>
      cases e : s.workers i with
      | wait =>
        by_cases ht : s.stop || !s.sslSockets.isEmpty
        · exact rest _ (.waitDone e ht)
        · exact rest _ (.waitSleep e ht)
      | test =>
        by_cases ht : s.stop && s.sslSockets.isEmpty
        · exact rest _ (.testReturn e ht)
        · exact rest _ (.testGo e ht)
      | front =>
        cases hq : s.sslSockets with
        | nil => exact rest _ (.frontEmpty e hq)
        | cons => exact rest _ (.front e hq)
      | pop => exact rest _ (.pop e)
      | returned => exact (h.at e).1 hm
      | broken => exact h.at e
      | lock | asleep | servlet =>
        have ok : s.mux ≠ some (.worker i) := h.at e
        exact ok hm

/-- At rest every worker sleeps or has returned. -/
lemma ServerInv.worker_of_rest (h : ServerInv s) (rest : s.AtRest) (i : Fin n) :
    s.workers i = .asleep ∨ s.workers i = .returned := by
  have hm := h.mux_of_rest rest
  have ok := h.workers i
  cases e : s.workers i with
  | asleep => exact .inl rfl
  | returned => exact .inr rfl
  | lock => exact absurd (.lock e hm) (rest _)
  | servlet => exact absurd (.servlet e) (rest _)
  | broken => exact absurd (h.at e) id
  | wait =>
    have own : s.mux = some (.worker i) := h.at e
    rw [hm] at own
    cases own
  | test | front | pop =>
    obtain ⟨own, -⟩ := h.at e
    rw [hm] at own
    cases own

/-- At rest the acceptor waits for connections, for its workers, or has returned. -/
lemma ServerInv.acceptor_of_rest (h : ServerInv s) (rest : s.AtRest) :
    s.acceptor = .poll ∨ s.acceptor = .join ∨ s.acceptor = .returned := by
  have hm := h.mux_of_rest rest
  cases e : s.acceptor with
  | poll => exact .inl rfl
  | join => exact .inr (.inl rfl)
  | returned => exact .inr (.inr rfl)
  | lock => exact absurd (.lockPush e hm) (rest _)
  | emplace => exact absurd (.emplace e) (rest _)
  | lockStop => exact absurd (.lockStop e hm) (rest _)
  | setStop => exact absurd (.setStop e) (rest _)
  | notifyAll => exact absurd (.notifyAll e) (rest _)
  | notifyOne =>
    by_cases hs : ∃ i, s.workers i = .asleep
    · obtain ⟨i, hi⟩ := hs
      exact absurd (.notifyOne e hi) (rest _)
    · exact absurd (.notifyNone e (not_exists.1 hs)) (rest _)

/-- At rest nothing that was accepted is left over, and a server that was stopped has come to its end. -/
lemma ServerInv.rest (h : ServerInv s) (rest : s.AtRest) :
    s.sslSockets = [] ∧ s.acceptor.inHand = [] ∧
      (s.stop = true → (∀ i, s.workers i = .returned) ∧ s.acceptor = .returned) := by
  have hacc := h.acceptor_of_rest rest
  refine ⟨?_, ?_, fun hs => ?_⟩
  · by_contra hq
    obtain e | ⟨i, hi⟩ := h.awake hq
    · simp [e] at hacc
    · obtain e | e := h.worker_of_rest rest i
      · exact hi.1 e
      · exact hi.2 e
  · obtain e | e | e := hacc <;> rw [e] <;> rfl
  · have all : ∀ i, s.workers i = .returned := by
      intro i
      obtain e | e := h.stopped hs
      · simp [e] at hacc
      · exact (h.worker_of_rest rest i).resolve_left (e i)
    refine ⟨all, ?_⟩
    obtain e | e | e := hacc
    · have := (h.acceptor_at e).1.2
      simp [hs] at this
    · exact absurd (.join e all) (rest _)
    · exact e

/-- In every run of a server with at least one worker:
    * the sockets that were accepted are, in this order, those handed to a worker (each by one `pop_front` of
      one worker), those in the queue and the one not yet pushed;
    * a worker about to call `front()` or `pop_front()` has a socket in front of it, and none is broken;
    * once all workers have returned the queue is empty and every accepted socket was handed over;
    * the threads by themselves come to rest after boundedly many steps, and when they rest every accepted
      socket was handed over; if the server was stopped, all threads have returned by then. -/
theorem workers_hand_off {acts} (hn : 0 < n) (h : ServerRun acts s) :
    s.accepted = s.handed.map Prod.snd ++ (s.sslSockets ++ s.acceptor.inHand) ∧
    (∀ i, s.workers i = .front → s.sslSockets ≠ []) ∧
    (∀ i ssl, s.workers i = .pop ssl → s.sslSockets.head? = some ssl) ∧
    (∀ i, s.workers i ≠ .broken) ∧
    ((∀ i, s.workers i = .returned) → s.sslSockets = [] ∧ s.accepted = s.handed.map Prod.snd) ∧
    (∃ bound, ∀ acts' s', Trace ServerStep s acts' s' → (∀ a ∈ acts', a = .work) → acts'.length ≤ bound) ∧
    (s.AtRest → s.accepted = s.handed.map Prod.snd ∧
      (s.stop = true → (∀ i, s.workers i = .returned) ∧ s.acceptor = .returned)) := by
  have inv := h.inv hn
  refine ⟨inv.history, fun i e => (inv.at e).2, fun i ssl e => (inv.at e).2, fun i e => inv.at e, fun all => ?_,
    ⟨s.weight, fun acts' s' run => inv.work_length hn run⟩, fun rest => ?_⟩
  · obtain ⟨-, hs, hq⟩ := inv.at (all ⟨0, hn⟩)
    have hand : s.acceptor.inHand = [] := by
      have ok := inv.acceptor
      cases e : s.acceptor with
      | lock | emplace =>
        rw [e] at ok
        exact absurd (ok.2.symm.trans hs) (by simp)
      | _ => rfl
    exact ⟨hq, by rw [inv.history, hq, hand]; simp⟩
  · obtain ⟨hq, hand, hr⟩ := inv.rest rest
    exact ⟨by rw [inv.history, hq, hand]; simp, hr⟩

/-- One worker takes one socket. -/
theorem workers_hand_off_one :
    ∃ s : Server 1 Nat, ServerRun [.accept 7, .work, .work, .work, .work, .work, .work, .work, .work] s ∧
      s.accepted = s.handed.map Prod.snd ++ (s.sslSockets ++ s.acceptor.inHand) ∧ s.handed = [(0, 7)] := by
  have h1 : ServerRun ([] ++ [.accept 7]) _ := .snoc (.nil (s := ({} : Server 1 Nat))) (.accept 7 rfl)
  have h2 := (h1.snoc (.lockPush rfl rfl)).snoc (.emplace rfl)
  have h3 := h2.snoc (.notifyNone rfl (by simp))
  have h4 := (h3.snoc (.lock (i := 0) rfl rfl)).snoc (.waitDone (i := 0) rfl rfl)
  have h5 := (h4.snoc (.testGo (i := 0) rfl (by decide))).snoc (.front (i := 0) rfl rfl)
  have h6 := h5.snoc (.pop (i := 0) rfl)
  exact ⟨_, h6, (workers_hand_off (by decide) h6).1, rfl⟩

end ArrowheadCore.Http
