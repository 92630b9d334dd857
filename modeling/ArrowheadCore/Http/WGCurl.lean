import ArrowheadCore.Lib.CString
import Mathlib.Data.List.Basic

/-!
# Fetched responses

Embedding of the client of the other systems, `WG_Curl` (`http/wget/WG_Curl.cpp`): the write callback and `send`. libcurl hands
the body over in pieces; what it answers on a handle is `Easy`. The callback takes its piece for a C string, so that a piece
comes with the memory behind it.
-/

namespace ArrowheadCore.Http.WG_Curl
open Lib

/-- A call of the write callback: `size * nmemb` bytes, and the memory behind them. -/
structure Chunk where
  size : Nat
  nmemb : Nat
  bytes : List UInt8
  after : List UInt8
  length : bytes.length = size * nmemb
  bound : size * nmemb < 2 ^ 64

/-- C++ `curlWriteFunction`, with the data it appends to; `none` if there is no NUL in the memory. -/
def curlWriteFunction (c : Chunk) (data : List UInt8) : Option (Nat × List UInt8) :=
  if 0 ∈ c.bytes ++ c.after then some (c.size * c.nmemb % 2 ^ 64, data ++ cStr (c.bytes ++ c.after)) else none

/-- The calls of one transfer in order: what they return, and the data in the end. -/
def deliver : List Chunk → List UInt8 → Option (List Nat × List UInt8)
  | [], data => some ([], data)
  | c :: cs, data => do
    let (count, data) ← curlWriteFunction c data
    let (counts, data) ← deliver cs data
    return (count :: counts, data)

inductive Setting where
  | customRequest (method : List UInt8)
  | postFields (payload : List UInt8)
  | postFieldSize (size : Int)
  | writeFunction
  | writeData
  | url (url : List UInt8)
  | port (port : Int)
deriving DecidableEq, Repr

/-- What libcurl answers on one handle; a code is `CURLE_OK` if it is zero. -/
structure Easy where
  setopt : Setting → Nat
  strerror : Nat → List UInt8
  chunks : List Chunk
  perform : Nat
  getinfo : Nat
  http_code : Int

/-- What `send` sets, in order. -/
def settings (method url : List UInt8) (port : Int) (payload : List UInt8) : List Setting :=
  [Setting.customRequest (cStr method)] ++
    (if cStr method ∈ ["POST", "PATCH", "PUT"].map Lib.bytes then [Setting.postFields (cStr payload), .postFieldSize (-1)] else []) ++
    [Setting.writeFunction, .writeData, .url (cStr url)] ++ if port > 0 then [Setting.port port] else []

/-- C++ `WG_Curl::send`; an error is thrown. -/
def send (e : Easy) (method url : List UInt8) (port : Int) (payload : List UInt8) :
    Option (Except (List UInt8) (Int × List UInt8)) :=
  match (settings method url port payload).find? fun s => e.setopt s ≠ 0 with
  | some s => some (.error (e.strerror (e.setopt s)))
  | none => do
    let (_, data) ← deliver e.chunks []
    if e.perform ≠ 0 then return .ok (-e.perform, Lib.bytes "perform")
    if e.getinfo ≠ 0 then return .error (e.strerror e.getinfo)
    if e.http_code = 0 then return .ok (-5000, data)
    return .ok (e.http_code.bmod (2 ^ 32), data)

/-! ## What is taken of a piece -/

def Chunk.count (c : Chunk) : Nat := c.size * c.nmemb

/-- What the callback reads at `ptr`. -/
def Chunk.read (c : Chunk) : List UInt8 := cStr (c.bytes ++ c.after)

def Chunk.Defined (c : Chunk) : Prop := 0 ∈ c.bytes ++ c.after

instance (c : Chunk) : Decidable c.Defined := inferInstanceAs (Decidable (_ ∈ _))

/-- There is no NUL in the piece and one right behind it. -/
def Chunk.Clean (c : Chunk) : Prop := 0 ∉ c.bytes ∧ c.after.head? = some 0

instance (c : Chunk) : Decidable c.Clean := inferInstanceAs (Decidable (_ ∧ _))

section
variable {c : Chunk} {cs : List Chunk} {data : List UInt8}

lemma curlWriteFunction_eq (c : Chunk) (data : List UInt8) :
    curlWriteFunction c data = if c.Defined then some (c.count, data ++ c.read) else none := by
  rw [curlWriteFunction, Nat.mod_eq_of_lt c.bound]
  rfl

/-- The run of the callback over all pieces. -/
lemma deliver_eq (cs : List Chunk) (data : List UInt8) :
    deliver cs data = if ∀ c ∈ cs, c.Defined then some (cs.map Chunk.count, data ++ cs.flatMap Chunk.read) else none := by
  induction cs generalizing data with
  | nil => simp [deliver]
  | cons c cs ih =>
    rw [deliver, curlWriteFunction_eq]
    by_cases defined : c.Defined
    · rw [if_pos defined]
      show (deliver cs (data ++ c.read) >>= fun r => some (c.count :: r.1, r.2)) = _
      rw [ih]
      by_cases rest : ∀ c ∈ cs, c.Defined
      · rw [if_pos rest, if_pos (List.forall_mem_cons.2 ⟨defined, rest⟩), List.flatMap_cons, List.append_assoc]
        rfl
      · rw [if_neg rest, if_neg fun all => rest (List.forall_mem_cons.1 all).2]
        rfl
    · rw [if_neg defined, if_neg fun all => defined (List.forall_mem_cons.1 all).1]
      rfl

lemma Chunk.Clean.read (h : c.Clean) : c.Defined ∧ c.read = c.bytes := by
  obtain ⟨nul, head⟩ := h
  obtain ⟨rest, e⟩ : ∃ rest, c.after = 0 :: rest := by
    cases ha : c.after with
    | nil => rw [ha] at head; cases head
    | cons d rest => rw [ha] at head; exact ⟨rest, by rw [Option.some.inj head]⟩
  refine ⟨?_, ?_⟩
  · rw [Chunk.Defined, e]
    simp
  · rw [Chunk.read, e, cStr_append nul]
    simp [cStr]

/-- A piece without a NUL is read to its end at least. -/
lemma Chunk.read_eq (nul : 0 ∉ c.bytes) : c.read = c.bytes ++ cStr c.after := cStr_append nul _

lemma Chunk.clean_of_read (defined : c.Defined) (nul : 0 ∉ c.bytes) (e : c.read = c.bytes) : c.Clean := by
  rw [Chunk.read_eq nul, List.append_right_eq_self] at e
  refine ⟨nul, ?_⟩
  have mem : 0 ∈ c.after := (List.mem_append.1 defined).resolve_left nul
  cases ha : c.after with
  | nil => rw [ha] at mem; cases mem
  | cons d rest =>
    have : d = 0 := by
      by_contra hd
      rw [ha, cStr, List.takeWhile_cons_of_pos (by simpa using hd)] at e
      cases e
    rw [this, List.head?_cons]

lemma length_bytes_le (nul : 0 ∉ cs.flatMap Chunk.bytes) :
    (cs.flatMap Chunk.bytes).length ≤ (cs.flatMap Chunk.read).length := by
  induction cs with
  | nil => exact le_refl 0
  | cons c cs ih =>
    rw [List.flatMap_cons, List.mem_append, not_or] at nul
    have := ih nul.2
    rw [List.flatMap_cons, List.flatMap_cons, Chunk.read_eq nul.1]
    simp only [List.length_append]
    omega

/-- What is read too much of one piece is not made good by another. -/
lemma flatMap_read_iff (defined : ∀ c ∈ cs, c.Defined) :
    cs.flatMap Chunk.read = cs.flatMap Chunk.bytes ↔ ∀ c ∈ cs, c.Clean := by
  constructor
  · intro e
    have nul : 0 ∉ cs.flatMap Chunk.bytes := by
      rw [← e, List.mem_flatMap]
      rintro ⟨c, -, h⟩
      exact zero_cStr _ h
    induction cs with
    | nil => simp
    | cons c cs ih =>
      rw [List.flatMap_cons, List.mem_append, not_or] at nul
      have less := length_bytes_le nul.2
      rw [List.flatMap_cons, List.flatMap_cons] at e
      have total := congrArg List.length e
      have more := congrArg List.length (Chunk.read_eq nul.1)
      simp only [List.length_append] at total more
      obtain ⟨first, rest⟩ := List.append_inj e (by omega)
      rw [List.forall_mem_cons] at defined ⊢
      exact ⟨Chunk.clean_of_read defined.1 nul.1 first, ih defined.2 rest nul.2⟩
  · intro clean
    exact List.flatMap_congr fun c hc => (clean c hc).read.2

end

/-! ## The response -/

/-- The settings are accepted, and the transfer completes. -/
structure Completes (e : Easy) (method url : List UInt8) (port : Int) (payload : List UInt8) : Prop where
  setopt : ∀ s ∈ settings method url port payload, e.setopt s = 0
  perform : e.perform = 0
  getinfo : e.getinfo = 0

section
variable {e : Easy} {method url payload : List UInt8} {port : Int}

/-- The first part of the result for a completed transfer. -/
def Easy.code (e : Easy) : Int := if e.http_code = 0 then -5000 else e.http_code.bmod (2 ^ 32)

lemma Completes.send (h : Completes e method url port payload) :
    send e method url port payload = (deliver e.chunks []).map fun r => .ok (e.code, r.2) := by
  have accepted : (settings method url port payload).find? (fun s => e.setopt s ≠ 0) = none := by
    rw [List.find?_eq_none]
    intro s hs
    simp [h.setopt s hs]
  rw [WG_Curl.send, accepted]
  simp only [h.perform, h.getinfo, ne_eq, not_true, if_false, Easy.code]
  cases deliver e.chunks [] with
  | none => rfl
  | some r => by_cases zero : e.http_code = 0 <;> simp [zero]

/-- The body of a completed transfer is what was received, and every call returns the size of its piece, exactly when there is
    no NUL in any piece and one right behind each. -/
theorem body_iff (h : Completes e method url port payload) :
    ((∃ data, deliver e.chunks [] = some (e.chunks.map fun c => c.size * c.nmemb, data)) ∧
      ∃ code, send e method url port payload = some (.ok (code, e.chunks.flatMap Chunk.bytes))) ↔
      ∀ c ∈ e.chunks, 0 ∉ c.bytes ∧ c.after.head? = some 0 := by
  rw [h.send, deliver_eq]
  constructor
  · rintro ⟨⟨data, counts⟩, code, body⟩
    split at body
    · next defined =>
      refine (flatMap_read_iff defined).1 ?_
      simpa using (Prod.mk.inj (Except.ok.inj (Option.some.inj body))).2
    · cases body
  · intro clean
    have defined : ∀ c ∈ e.chunks, c.Defined := fun c hc => (Chunk.Clean.read (clean c hc)).1
    have whole := (flatMap_read_iff defined).2 clean
    rw [if_pos defined, whole]
    exact ⟨⟨_, rfl⟩, e.code, rfl⟩

/-- A transfer that completes on port 8443 with the given pieces. -/
def completed (chunks : List Chunk) : Easy := ⟨fun _ => 0, fun _ => [], chunks, 0, 0, 200⟩

lemma completes_completed (chunks : List Chunk) : Completes (completed chunks) method url port payload :=
  ⟨fun _ _ => rfl, rfl, rfl⟩

theorem body_two :
    let chunks : List Chunk := [⟨1, 3, [123, 34, 97], [0, 7], rfl, by decide⟩, ⟨1, 2, [34, 125], [0], rfl, by decide⟩]
    ∃ code, send (completed chunks) (Lib.bytes "GET") (Lib.bytes "localhost/echo") 8443 [] =
      some (.ok (code, [123, 34, 97, 34, 125])) :=
  ((body_iff (completes_completed _)).2 (by decide)).2

/-- A piece of one byte with two others behind it before the NUL. -/
theorem not_body : ¬ ∀ (e : Easy) (method url : List UInt8) (port : Int) (payload : List UInt8),
    Completes e method url port payload → ∃ code, send e method url port payload = some (.ok (code, e.chunks.flatMap Chunk.bytes)) := by
  intro all
  obtain ⟨code, e⟩ := all (completed [⟨1, 1, [123], [34, 97, 0], rfl, by decide⟩]) (Lib.bytes "GET") (Lib.bytes "localhost/echo") 8443 []
    (completes_completed _)
  rw [(completes_completed _).send] at e
  have := (Prod.mk.inj (Except.ok.inj (Option.some.inj e))).2
  revert this
  decide

end

end ArrowheadCore.Http.WG_Curl
