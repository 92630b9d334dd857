import ArrowheadCore.Db.Escape

/-!
# Text columns

Embedding of `MariaDB::Row::get(unsigned, std::string &)` (`db/MariaDB.h`). It reads a column in chunks through one buffer
on the stack, which has a cell more than it offers to `mysql_stmt_fetch_column`, and appends what is in the buffer as a C
string. The function of the client library is a parameter; `Fetches` is what its documentation says of a column with a text.
-/

namespace ArrowheadCore.Db
open Lib

/-- C++ `char buffer[STRING_BUFFER_LEN + 1]` -/
abbrev Buffer := Vector UInt8 (STRING_BUFFER_LEN + 1)

/-- What a call of `mysql_stmt_fetch_column` leaves behind; it has failed if its value is not zero. -/
structure Fetched where
  failed : Bool
  is_null : Bool
  length : Nat
  buffer : Buffer

/-- C `mysql_stmt_fetch_column` for one column of the row, from an offset and what is in the buffer. -/
abbrev FetchColumn := Nat → Buffer → Fetched

/-- The C string in the buffer; `none` if there is no NUL in it. -/
def Buffer.cString (buffer : Buffer) : Option (List UInt8) := if 0 ∈ buffer.toList then some (cStr buffer.toList) else none

/-- The cell that is not offered to the library. -/
def Buffer.last (buffer : Buffer) : UInt8 := buffer[STRING_BUFFER_LEN]

namespace Row

/-- `offset` is `unsigned`, and `length` is `unsigned long`. The loop is `none` when the buffer is read beyond its end, or
    when the turns are not enough. -/
def getLoop (fetch : FetchColumn) : Nat → Nat → Buffer → List UInt8 → Option (Bool × List UInt8)
  | 0, _, _, _ => none
  | n + 1, offset, buffer, result => do
    let f := fetch offset buffer
    if f.failed then return (false, result)
    if f.is_null then return (false, result)
    let result := result ++ (← f.buffer.cString)
    let offset := (offset + STRING_BUFFER_LEN) % 2 ^ 32
    if offset < f.length then getLoop fetch n offset f.buffer result
    else
      if f.is_null then return (false, result)
      return (true, result)

/-- C++ `MariaDB::Row::get`; nothing is written to the buffer beforehand. -/
def get (fetch : FetchColumn) (n : Nat) (buffer : Buffer) : Option (Bool × List UInt8) := getLoop fetch n 0 buffer []

/-- The part of a text that a call copies. -/
def chunk (text : List UInt8) (offset : Nat) : List UInt8 := (text.drop offset).take STRING_BUFFER_LEN

/-- What is in the buffer after the call: there is a NUL behind a chunk that does not fill it, and nothing else changes. -/
def filled (text : List UInt8) (offset : Nat) (buffer : Buffer) : List UInt8 :=
  let c := chunk text offset
  c ++ if c.length < STRING_BUFFER_LEN then 0 :: buffer.toList.drop (c.length + 1) else buffer.toList.drop c.length

/-- The documented behaviour of `mysql_stmt_fetch_column` on a column that holds a text. -/
structure Fetches (fetch : FetchColumn) (text : List UInt8) : Prop where
  failed : ∀ offset ≤ text.length, ∀ buffer, (fetch offset buffer).failed = false
  is_null : ∀ offset ≤ text.length, ∀ buffer, (fetch offset buffer).is_null = false
  length : ∀ offset ≤ text.length, ∀ buffer, (fetch offset buffer).length = text.length
  buffer : ∀ offset ≤ text.length, ∀ buffer, (fetch offset buffer).buffer.toList = filled text offset buffer

lemma length_chunk (text : List UInt8) (offset : Nat) :
    (chunk text offset).length = min STRING_BUFFER_LEN (text.length - offset) := by
  rw [chunk, List.length_take, List.length_drop]

lemma length_filled (text : List UInt8) (offset : Nat) (buffer : Buffer) :
    (filled text offset buffer).length = STRING_BUFFER_LEN + 1 := by
  have short : (chunk text offset).length ≤ STRING_BUFFER_LEN := by
    rw [length_chunk]
    exact min_le_left _ _
  simp only [filled]
  split <;> simp only [List.length_append, List.length_cons, List.length_drop, Vector.length_toList] <;> omega

/-- A client library that does as documented. -/
def fetchColumn (text : List UInt8) : FetchColumn := fun offset buffer =>
  ⟨false, false, text.length, ⟨(filled text offset buffer).toArray, length_filled text offset buffer⟩⟩

lemma fetches_fetchColumn (text : List UInt8) : Fetches (fetchColumn text) text where
  failed _ _ _ := rfl
  is_null _ _ _ := rfl
  length _ _ _ := rfl
  buffer _ _ _ := rfl

example : get (fetchColumn (bytes "ab")) 1 (.replicate _ 120) = some (true, bytes "ab") := by decide

/-! ## One turn -/

section
variable {fetch : FetchColumn} {text : List UInt8} {offset : Nat} {buffer : Buffer}

lemma drop_last (buffer : Buffer) : buffer.toList.drop STRING_BUFFER_LEN = [buffer.last] := by
  have : STRING_BUFFER_LEN < buffer.toList.length := by
    rw [Vector.length_toList]
    exact Nat.lt_succ_self _
  rw [List.drop_eq_getElem_cons this, List.drop_of_length_le (by simp)]
  simp [Buffer.last]

lemma filled_short (h : (chunk text offset).length < STRING_BUFFER_LEN) :
    filled text offset buffer = chunk text offset ++ 0 :: buffer.toList.drop ((chunk text offset).length + 1) := by
  rw [filled, if_pos h]

lemma filled_full (h : (chunk text offset).length = STRING_BUFFER_LEN) :
    filled text offset buffer = chunk text offset ++ [buffer.last] := by
  rw [filled, if_neg (by omega), h, drop_last]

lemma last_filled (text : List UInt8) (offset : Nat) (buffer : Buffer) :
    (filled text offset buffer).drop STRING_BUFFER_LEN = [buffer.last] := by
  by_cases h : (chunk text offset).length < STRING_BUFFER_LEN
  · rw [filled_short h, List.drop_append, List.drop_of_length_le h.le, List.nil_append]
    obtain ⟨d, hd⟩ : ∃ d, STRING_BUFFER_LEN - (chunk text offset).length = d + 1 :=
      ⟨STRING_BUFFER_LEN - (chunk text offset).length - 1, by omega⟩
    have place : (chunk text offset).length + 1 + d = STRING_BUFFER_LEN := by omega
    rw [hd, List.drop_succ_cons, List.drop_drop, place, drop_last]
  · have full : (chunk text offset).length = STRING_BUFFER_LEN := by
      have := length_chunk text offset
      omega
    rw [filled_full full, List.drop_append, List.drop_of_length_le full.le, full]
    simp

/-- No call touches the last cell. -/
lemma Fetches.last (h : Fetches fetch text) (ho : offset ≤ text.length) : (fetch offset buffer).buffer.last = buffer.last := by
  have := drop_last (fetch offset buffer).buffer
  rw [h.buffer offset ho, last_filled] at this
  exact (List.cons.inj this).1.symm

lemma zero_chunk (nul : 0 ∉ text) (offset : Nat) : 0 ∉ chunk text offset := fun h =>
  nul (List.mem_of_mem_drop (List.mem_of_mem_take h))

/-- What is read after a call is the chunk, if the buffer is not full or the last cell is a NUL by chance. -/
lemma Fetches.cString (h : Fetches fetch text) (nul : 0 ∉ text) (ho : offset ≤ text.length) :
    (fetch offset buffer).buffer.cString =
      if (chunk text offset).length < STRING_BUFFER_LEN ∨ buffer.last = 0 then some (chunk text offset) else none := by
  have clean := zero_chunk nul offset
  rw [Buffer.cString, h.buffer offset ho]
  by_cases short : (chunk text offset).length < STRING_BUFFER_LEN
  · rw [filled_short short, if_pos (by simp), if_pos (.inl short), cStr_append clean]
    simp [cStr]
  · have full : (chunk text offset).length = STRING_BUFFER_LEN := by
      have := length_chunk text offset
      omega
    rw [filled_full full]
    by_cases zero : buffer.last = 0
    · rw [zero, if_pos (by simp), if_pos (.inr rfl), cStr_append clean]
      simp [cStr]
    · rw [if_neg, if_neg (not_or.2 ⟨short, zero⟩)]
      rw [List.mem_append, List.mem_singleton, not_or]
      exact ⟨clean, fun e => zero e.symm⟩

/-- One turn of the loop on a text. -/
lemma Fetches.turn (h : Fetches fetch text) (nul : 0 ∉ text) (ho : offset ≤ text.length) (n : Nat) (result : List UInt8) :
    getLoop fetch (n + 1) offset buffer result =
      if (chunk text offset).length < STRING_BUFFER_LEN ∨ buffer.last = 0 then
        if (offset + STRING_BUFFER_LEN) % 2 ^ 32 < text.length then
          getLoop fetch n ((offset + STRING_BUFFER_LEN) % 2 ^ 32) (fetch offset buffer).buffer (result ++ chunk text offset)
        else some (true, result ++ chunk text offset)
      else none := by
  rw [getLoop, h.failed offset ho, h.is_null offset ho, h.length offset ho, h.cString nul ho]
  by_cases read : (chunk text offset).length < STRING_BUFFER_LEN ∨ buffer.last = 0
  · simp only [if_pos read]
    rfl
  · simp only [if_neg read]
    rfl

end

/-! ## All turns -/

section
variable {fetch : FetchColumn} {text : List UInt8}

/-- The last multiple of `STRING_BUFFER_LEN` that is an `unsigned`. -/
def lastOffset : Nat := 2 ^ 32 - 16

lemma take_chunk (text : List UInt8) (offset : Nat) :
    text.take offset ++ chunk text offset = text.take (offset + STRING_BUFFER_LEN) := by
  rw [chunk, List.take_add]

/-- From a multiple of `STRING_BUFFER_LEN` on, the rest of a text is read, as long as `offset` does not overflow. -/
lemma Fetches.getLoop_eq (h : Fetches fetch text) (nul : 0 ∉ text) (bound : text.length ≤ lastOffset) (n : Nat) {k : Nat}
    {buffer : Buffer} (hk : STRING_BUFFER_LEN * k < text.length ∨ k = 0) (hn : text.length < STRING_BUFFER_LEN * (k + n))
    (read : text.length < STRING_BUFFER_LEN ∨ buffer.last = 0) :
    getLoop fetch n (STRING_BUFFER_LEN * k) buffer (text.take (STRING_BUFFER_LEN * k)) = some (true, text) := by
  induction n generalizing k buffer with
  | zero =>
    rcases hk with hk | rfl
    · rw [Nat.add_zero] at hn
      omega
    · exact absurd hn (by simp)
  | succ n ih =>
    have ho : STRING_BUFFER_LEN * k ≤ text.length := by
      rcases hk with hk | rfl
      · exact hk.le
      · exact Nat.zero_le _
    have next : (STRING_BUFFER_LEN * k + STRING_BUFFER_LEN) % 2 ^ 32 = STRING_BUFFER_LEN * (k + 1) := by
      unfold lastOffset at bound
      unfold STRING_BUFFER_LEN at *
      omega
    have reads : (chunk text (STRING_BUFFER_LEN * k)).length < STRING_BUFFER_LEN ∨ buffer.last = 0 :=
      read.imp_left fun short => by
        rw [length_chunk]
        omega
    rw [h.turn nul ho, if_pos reads, next, take_chunk, ← Nat.mul_succ]
    by_cases more : STRING_BUFFER_LEN * (k + 1) < text.length
    · rw [if_pos more]
      have turns : k + (n + 1) = k + 1 + n := by omega
      exact ih (.inl more) (turns ▸ hn) (by rwa [h.last ho])
    · rw [if_neg more, List.take_of_length_le (Nat.le_of_not_lt more)]

/-- A loop that returns has made its turn. -/
lemma Fetches.turn_inv (h : Fetches fetch text) (nul : 0 ∉ text) {n offset : Nat} {buffer : Buffer} {result : List UInt8}
    {r : Bool × List UInt8} (ho : offset ≤ text.length) (e : getLoop fetch n offset buffer result = some r) :
    ((chunk text offset).length < STRING_BUFFER_LEN ∨ buffer.last = 0) ∧
      ((offset + STRING_BUFFER_LEN) % 2 ^ 32 < text.length ∧ (∃ m, getLoop fetch m ((offset + STRING_BUFFER_LEN) % 2 ^ 32)
          (fetch offset buffer).buffer (result ++ chunk text offset) = some r) ∨
        text.length ≤ (offset + STRING_BUFFER_LEN) % 2 ^ 32 ∧ r = (true, result ++ chunk text offset)) := by
  cases n with
  | zero => cases e
  | succ m =>
    rw [h.turn nul ho] at e
    split at e
    · next read =>
      split at e
      · next more => exact ⟨read, .inl ⟨more, m, e⟩⟩
      · next past => exact ⟨read, .inr ⟨Nat.le_of_not_lt past, (Option.some.inj e).symm⟩⟩
    · cases e

/-- What is appended is not taken back. -/
lemma Fetches.length_le (h : Fetches fetch text) (nul : 0 ∉ text) {n offset : Nat} {buffer : Buffer} {result : List UInt8}
    {r : Bool × List UInt8} (ho : offset ≤ text.length) (e : getLoop fetch n offset buffer result = some r) :
    result.length + (chunk text offset).length ≤ r.2.length := by
  induction n generalizing offset buffer result with
  | zero => cases e
  | succ n ih =>
    rw [h.turn nul ho] at e
    split at e
    · split at e
      · next more =>
        have := ih more.le e
        rw [List.length_append] at this
        omega
      · cases e
        rw [List.length_append]
    · cases e

/-- As long as `offset` stays below the length, the loop goes on. -/
lemma Fetches.endless (h : Fetches fetch text) (nul : 0 ∉ text) (long : 2 ^ 32 ≤ text.length) (n : Nat) {offset : Nat}
    {buffer : Buffer} {result : List UInt8} (ho : offset ≤ text.length) : getLoop fetch n offset buffer result = none := by
  induction n generalizing offset buffer result with
  | zero => rfl
  | succ n ih =>
    have next : (offset + STRING_BUFFER_LEN) % 2 ^ 32 < text.length := lt_of_lt_of_le (Nat.mod_lt _ (by decide)) long
    rw [h.turn nul ho, if_pos next, ih next.le, ite_self]

/-- A loop that returns for a text beyond `lastOffset` has come to it. -/
lemma Fetches.reaches (h : Fetches fetch text) (nul : 0 ∉ text) (long : lastOffset < text.length) {n : Nat} {buffer : Buffer}
    {r : Bool × List UInt8} (e : getLoop fetch n 0 buffer [] = some r) (k : Nat) (hk : STRING_BUFFER_LEN * k ≤ lastOffset) :
    ∃ m buffer, getLoop fetch m (STRING_BUFFER_LEN * k) buffer (text.take (STRING_BUFFER_LEN * k)) = some r := by
  induction k with
  | zero => exact ⟨n, buffer, e⟩
  | succ k ih =>
    obtain ⟨m, buffer, e⟩ := ih (le_trans (Nat.mul_le_mul_left _ (Nat.le_succ k)) hk)
    have next : (STRING_BUFFER_LEN * k + STRING_BUFFER_LEN) % 2 ^ 32 = STRING_BUFFER_LEN * (k + 1) := by
      unfold lastOffset at hk
      rw [Nat.mul_succ] at hk ⊢
      exact Nat.mod_eq_of_lt (by omega)
    obtain ⟨-, more⟩ := h.turn_inv nul (by rw [Nat.mul_succ] at hk; omega) e
    rw [next, take_chunk, ← Nat.mul_succ] at more
    rcases more with ⟨-, m, e⟩ | ⟨past, -⟩
    · exact ⟨m, _, e⟩
    · omega

/-- Beyond `lastOffset` the offset wraps around, and the text is not what is returned. -/
lemma Fetches.wraps (h : Fetches fetch text) (nul : 0 ∉ text) (long : lastOffset < text.length) (n : Nat) (buffer : Buffer) :
    get fetch n buffer ≠ some (true, text) := by
  intro e
  by_cases huge : 2 ^ 32 ≤ text.length
  · cases (h.endless nul huge n (Nat.zero_le _)).symm.trans e
  · obtain ⟨m, buffer, e⟩ := h.reaches nul long e 33818640 (by decide)
    have place : STRING_BUFFER_LEN * 33818640 = lastOffset := by decide
    have next : (lastOffset + STRING_BUFFER_LEN) % 2 ^ 32 = 111 := by decide
    have whole : text.length ≤ lastOffset + STRING_BUFFER_LEN := by
      unfold lastOffset STRING_BUFFER_LEN
      omega
    have small : 111 < text.length := lt_trans (by decide) long
    rw [place] at e
    obtain ⟨-, more⟩ := h.turn_inv nul long.le e
    rw [next, take_chunk, List.take_of_length_le whole] at more
    rcases more with ⟨-, m, e⟩ | ⟨past, -⟩
    · have : text.length + (chunk text 111).length ≤ text.length := h.length_le nul small.le e
      have chunk_pos := length_chunk text 111
      unfold STRING_BUFFER_LEN at chunk_pos
      omega
    · omega

/-- A text is read back exactly when it fits into the buffer with its NUL, or the last cell of the buffer is a NUL by chance and
    `offset` does not overflow. -/
theorem get_text_iff (h : Fetches fetch text) (nul : 0 ∉ text) (buffer : Buffer) :
    (∃ n, get fetch n buffer = some (true, text)) ↔
      (text.length < STRING_BUFFER_LEN ∨ buffer.last = 0) ∧ text.length ≤ 2 ^ 32 - 16 := by
  constructor
  · rintro ⟨n, e⟩
    refine ⟨?_, Nat.le_of_not_lt fun long => h.wraps nul long n buffer e⟩
    refine (h.turn_inv nul (Nat.zero_le _) e).1.imp_left fun short => ?_
    rw [length_chunk] at short
    omega
  · rintro ⟨read, bound⟩
    refine ⟨text.length + 1, h.getLoop_eq nul bound _ (.inr rfl) ?_ read⟩
    unfold STRING_BUFFER_LEN
    omega

lemma last_replicate (c : UInt8) : Buffer.last (.replicate _ c) = c := Vector.getElem_replicate _

/-- A short text, and a long one with a NUL in the last cell. -/
theorem get_text_two : (∃ n, get (fetchColumn (bytes "ab")) n (.replicate _ 120) = some (true, bytes "ab")) ∧
    ∃ n, get (fetchColumn (List.replicate 300 97)) n (.replicate _ 0) = some (true, List.replicate 300 97) := by
  have nul : 0 ∉ List.replicate 300 (97 : UInt8) := fun h => absurd (List.eq_of_mem_replicate h) (by decide)
  have length : (List.replicate 300 (97 : UInt8)).length ≤ 2 ^ 32 - 16 := by
    rw [List.length_replicate]
    decide
  exact ⟨(get_text_iff (fetches_fetchColumn _) (by decide) _).2 ⟨.inl (by decide), by decide⟩,
    (get_text_iff (fetches_fetchColumn _) nul _).2 ⟨.inr (last_replicate 0), length⟩⟩

/-- A text of 127 bytes is not read back when there is no NUL in the last cell of the buffer. -/
theorem not_get_text : ¬ ∀ (fetch : FetchColumn) (text : List UInt8), Fetches fetch text → 0 ∉ text → ∀ buffer : Buffer,
    ∃ n, get fetch n buffer = some (true, text) := by
  intro all
  have nul : 0 ∉ List.replicate 127 (97 : UInt8) := fun h => absurd (List.eq_of_mem_replicate h) (by decide)
  obtain ⟨n, e⟩ := all (fetchColumn (List.replicate 127 97)) _ (fetches_fetchColumn _) nul (.replicate _ 120)
  have read := ((fetches_fetchColumn _).turn_inv nul (Nat.zero_le _) e).1
  rw [length_chunk, List.length_replicate, last_replicate] at read
  revert read
  decide

end

end Row

end ArrowheadCore.Db
