import Mathlib.Data.List.Basic
import ArrowheadCore.Http.RequestParser

/-!
# What one character can do

The lemmas every proof about the parser goes through. First the character predicates of the source read
over byte values. Then `parse` as the library's `feed`, so that its rules apply. Then, for each data member
of the parser, everything that one call of `consume` can do to it: a proof about a member cites its lemma
and never looks at the 33 states again.
-/

namespace ArrowheadCore.Http
open Lib

/-! ## Characters by byte value -/

lemma isControl_iff {c : UInt8} : isControl (promote c) ↔ c.toNat ≤ 31 ∨ c.toNat = 127 := by
  have := c.toNat_lt
  unfold isControl promote
  split <;> simp <;> omega

lemma isChar_iff {c : UInt8} : isChar (promote c) ↔ c.toNat ≤ 127 := by
  have := c.toNat_lt
  unfold isChar promote
  rw [decide_eq_true_eq]
  split <;> omega

lemma isDigit_iff {c : UInt8} : isDigit (promote c) ↔ isDigitOf 10 c := by
  have := c.toNat_lt
  rw [isDigitOf_ten]
  unfold isDigit promote
  simp only [ge_iff_le, decide_eq_true_eq, show '0'.toUInt8.toNat = 48 from rfl,
    show '9'.toUInt8.toNat = 57 from rfl]
  split <;> simp <;> omega

/-- A digit promotes to its value above the code of `0`. -/
lemma promote_digit {c : UInt8} (h : isDigitOf 10 c) :
    promote c = digitVal c + 48 ∧ digitVal c ≤ 9 := by
  have hc := isDigitOf_ten.1 h
  rw [promote_eq_toNat (by omega), digitVal_ten h]
  omega

lemma isMethodStart_iff {c : UInt8} : isMethodStart (promote c) ↔ c ∈ bytes "GPDHCOT" := by
  simp [isMethodStart, List.mem_map, promote_inj]

lemma isToken_iff {c : UInt8} :
    isToken c ↔ isChar (promote c) ∧ ¬isControl (promote c) ∧ ¬isSpecial (promote c) := by
  simp [isToken, and_assoc]

/-- A character without a printable code is no token. -/
lemma ne_of_isToken {c d : UInt8} (h : isToken c) (hd : isToken d = false) : c ≠ d := by
  rintro rfl
  simp [h] at hd

/-- A character that is not a control character differs from every control character. -/
lemma ne_of_not_isControl {c d : UInt8} (h : isControl (promote c) = false)
    (hd : isControl (promote d)) : c ≠ d := by
  rintro rfl
  simp [h] at hd

/-! ## Machine integers and the last header -/

lemma inInt_iff {x : Int} : inInt x ↔ -2 ^ 31 ≤ x ∧ x ≤ 2 ^ 31 - 1 := by
  rw [inInt, decide_eq_true_eq, INT_MAX]

@[simp] lemma toSize_lt (x : Int) : toSize x < 2 ^ 64 := by
  unfold toSize; omega

lemma toSize_natCast {n : Nat} (h : n < 2 ^ 64) : toSize (n : Int) = n := by
  unfold toSize; omega

lemma toSize_atoi_digits {ds : List UInt8} (hd : ∀ d ∈ ds, isDigitOf 10 d) (hn : number 10 ds < 2 ^ 31) :
    toSize (atoi ds) = number 10 ds := by
  rw [atoi_digits hd hn, toSize_natCast (by omega)]

lemma toSize_strtol_digits {ds : List UInt8} (hd : ∀ d ∈ ds, isDigitOf 16 d) :
    toSize (strtol 16 ds) = min (number 16 ds) LONG_MAX := by
  have hlong : LONG_MAX = 2 ^ 63 - 1 := rfl
  have hmin : min (number 16 ds : Int) LONG_MAX = ((min (number 16 ds) LONG_MAX : Nat) : Int) := by simp
  rw [strtol_digits (.inr rfl) hd, hmin, toSize_natCast (by omega)]

@[simp] lemma predSize_lt (n : Nat) : predSize n < 2 ^ 64 := toSize_lt _

lemma predSize_add_one {n : Nat} (h0 : 0 < n) (h : n < 2 ^ 64) : predSize n + 1 = n := by
  unfold predSize toSize; omega

lemma promote_sub_zero {d : UInt8} (hd : isDigitOf 10 d) :
    promote d - promote '0'.toUInt8 = number 10 [d] := by
  rw [(promote_digit hd).1, show promote '0'.toUInt8 = 48 by decide, Int.add_sub_cancel]
  simp [number]

/-- The accumulator takes a digit as long as its sum with the code of `0` is an `int`. -/
lemma accumulate_digit {ds : List UInt8} {d : UInt8} (hd : isDigitOf 10 d) :
    accumulate (number 10 ds) d =
      if (number 10 (ds ++ [d]) : Int) + 48 ≤ INT_MAX then some (number 10 (ds ++ [d]) : Int)
      else none := by
  obtain ⟨e, h9⟩ := promote_digit hd
  have e0 : promote '0'.toUInt8 = 48 := by decide
  simp only [accumulate, e, e0, number_append_one, inInt_iff, INT_MAX]
  push_cast
  split_ifs with h1 h2 h2
  · congr 1
    omega
  · omega
  · omega
  · rfl

@[simp] lemma modifyBack_concat {f : Header → Header} {hs : List Header} {h : Header} :
    modifyBack f (hs ++ [h]) = some (hs ++ [f h]) := by
  simp [modifyBack]

@[simp] lemma modifyBack_eq_none {f : Header → Header} {hs : List Header} :
    modifyBack f hs = none ↔ hs = [] := by
  rcases List.eq_nil_or_concat' hs with rfl | ⟨hs0, h0, rfl⟩
  · simp [modifyBack]
  · simp

lemma modifyBack_some {f : Header → Header} {hs hs' : List Header} (h : modifyBack f hs = some hs') :
    ∃ hs0 h0, hs = hs0 ++ [h0] ∧ hs' = hs0 ++ [f h0] := by
  rcases List.eq_nil_or_concat' hs with rfl | ⟨hs0, h0, rfl⟩
  · cases h
  · rw [modifyBack_concat] at h
    exact ⟨hs0, h0, rfl, (Option.some.inj h).symm⟩

/-! ## The keep-alive decision -/

/-- What a header section says about keeping the connection, if anything. -/
def RequestBuffer.keepAliveDecision (b : RequestBuffer) : Option Bool :=
  match b.headers.find? (fun h => sameText h.name "Connection") with
  | some h => some (sameText h.value "keep-alive")
  | none => if b.httpVersionMajor = 1 ∧ b.httpVersionMinor = 1 then some true else none

/-- The end of the header section changes nothing but the flag, and that only by its decision. -/
lemma setKeepAlive_eq (b : RequestBuffer) :
    b.setKeepAlive = { b with keepAlive := b.keepAliveDecision.getD b.keepAlive } := by
  unfold RequestBuffer.setKeepAlive RequestBuffer.keepAliveDecision
  cases b.headers.find? (fun h => sameText h.name "Connection") with
  | some h => rfl
  | none => dsimp only; split <;> rfl

/-- A decision is taken by a `Connection` header or by HTTP/1.1. -/
lemma keepAliveDecision_isSome {b : RequestBuffer} :
    b.keepAliveDecision.isSome ↔
      (∃ h ∈ b.headers, sameText h.name "Connection") ∨
        b.httpVersionMajor = 1 ∧ b.httpVersionMinor = 1 := by
  unfold RequestBuffer.keepAliveDecision
  split
  · rename_i h e
    simp only [Option.isSome_some, true_iff]
    exact .inl ⟨h, List.mem_of_find?_eq_some e, by simpa using List.find?_some e⟩
  · rename_i e
    rw [List.find?_eq_none] at e
    have : ¬∃ h ∈ b.headers, sameText h.name "Connection" := by
      rintro ⟨h, hm, hs⟩
      exact e h hm hs
    simp only [this, false_or]
    split <;> simp [*]

/-! ## The parsing loop -/

namespace RequestParser

/-- `parse` feeds the machine `consume` (library `feed`). -/
lemma parse_eq_feed (p : RequestParser) (cs : List UInt8) :
    p.parse cs = feed consume (.ret .incomplete) p cs := by
  induction cs generalizing p with
  | nil => rfl
  | cons c cs ih =>
    rcases h : consume p c with ⟨r, p'⟩
    rcases r with (_ | _ | _) | f
    case ret.incomplete =>
      rw [feed_cons_go cs h, ← ih p']
      simp only [parse, h]
    all_goals
      rw [feed_cons_stop cs h (by simp)]
      simp only [parse, h]

/-! ## Parsers between requests -/

def version (p : RequestParser) : Int × Int := (p.req.httpVersionMajor, p.req.httpVersionMinor)

/-- A parser that has read nothing: new, or emptied after a request and then holding the version numbers
    and the keep-alive flag of that request. -/
def idle (v : Int × Int) (k : Bool) : RequestParser :=
  { req := { httpVersionMajor := v.1, httpVersionMinor := v.2, keepAlive := k } }

/-- After a request was moved out, `reset` leaves an idle parser. -/
lemma request_reset (p : RequestParser) : p.request.2.reset = idle p.version p.req.keepAlive := rfl

/-! ## What a call does to each member -/

/-- The method only grows, by a method letter first and by tokens after it. -/
lemma consume_method (p : RequestParser) (c : UInt8) :
    (consume p c).2.req.method = p.req.method ∨
      (consume p c).2.req.method = p.req.method ++ [c] ∧
        (p.state = .requestMethodStart ∧ isMethodStart (promote c) ∨
          p.state = .requestMethod ∧ isToken c) := by
  -- one goal a branch of the switch; the decision at the end of the headers is split last
  unfold consume
  cases h : p.state
  all_goals simp only [updateBack, endValue, endHeaders, endChunkSize, next, fail, done]
  all_goals repeat' split
  all_goals simp_all [RequestBuffer.setKeepAlive]
  all_goals repeat' split
  all_goals simp_all

/-- The start state is left with the first letter of the method and never entered. -/
lemma consume_method_start (p : RequestParser) (c : UInt8) :
    ((consume p c).2.state = .requestMethodStart ↔
      p.state = .requestMethodStart ∧ isMethodStart (promote c) = false) ∧
      (p.state = .requestMethodStart → isMethodStart (promote c) →
        (consume p c).2.req.method = p.req.method ++ [c]) := by
  unfold consume
  cases h : p.state
  all_goals simp only [updateBack, endValue, endHeaders, endChunkSize, next, fail, done]
  all_goals repeat' split
  all_goals simp_all

/-- The URI only grows, by characters that are no control characters. -/
lemma consume_uri (p : RequestParser) (c : UInt8) :
    (consume p c).2.req.uri = p.req.uri ∨
      (consume p c).2.req.uri = p.req.uri ++ [c] ∧ isControl (promote c) = false := by
  unfold consume
  cases h : p.state
  all_goals simp only [updateBack, endValue, endHeaders, endChunkSize, next, fail, done]
  all_goals repeat' split
  all_goals simp_all [RequestBuffer.setKeepAlive]
  all_goals repeat' split
  all_goals simp_all

/-- The headers gain a one-token name, or the last of them gains a token or a value character. -/
lemma consume_headers (p : RequestParser) (c : UInt8) :
    (consume p c).2.req.headers = p.req.headers ∨
      (consume p c).2.req.headers = p.req.headers ++ [{ name := [c] }] ∧ isToken c ∨
      modifyBack (Header.pushName c) p.req.headers = some (consume p c).2.req.headers ∧ isToken c ∨
      modifyBack (Header.pushValue c) p.req.headers = some (consume p c).2.req.headers ∧
        isControl (promote c) = false := by
  unfold consume
  cases h : p.state
  all_goals simp only [updateBack, endValue, endHeaders, endChunkSize, next, fail, done]
  all_goals repeat' split
  all_goals simp_all [RequestBuffer.setKeepAlive]
  all_goals repeat' split
  all_goals simp_all

/-- The chunk-size text gains an alphanumeric in its own state and is cleared at the end of its line. -/
lemma consume_chunkSizeStr (p : RequestParser) (c : UInt8) :
    (consume p c).2.chunkSizeStr = p.chunkSizeStr ∨
      (consume p c).2.chunkSizeStr = [] ∨
      (consume p c).2.chunkSizeStr = p.chunkSizeStr ++ [c] ∧ isalnum c ∧
        p.state = .chunkSize ∧ (consume p c).2.state = .chunkSize := by
  unfold consume
  cases h : p.state
  all_goals simp only [updateBack, endValue, endHeaders, endChunkSize, next, fail, done]
  all_goals repeat' split
  all_goals simp_all

/-- `Content-Length` sets the content size, the body counts it down to the end of the request. -/
lemma consume_contentSize (p : RequestParser) (c : UInt8) :
    ((consume p c).2.contentSize = p.contentSize ∨ (consume p c).2.contentSize < 2 ^ 64) ∧
      ((consume p c).2.state = .post →
        (consume p c).2.contentSize ≠ 0 ∨ (consume p c).1 = .ret .completed) := by
  unfold consume
  cases h : p.state
  all_goals simp only [updateBack, endValue, endHeaders, endChunkSize, next, fail, done]
  all_goals repeat' split
  all_goals simp_all [-Nat.reducePow]

/-- A chunk-size line sets the chunk size, the data counts it down to its end. -/
lemma consume_chunkSize (p : RequestParser) (c : UInt8) :
    ((consume p c).2.chunkSize = p.chunkSize ∨ (consume p c).2.chunkSize < 2 ^ 64) ∧
      ((consume p c).2.state = .chunkData → (consume p c).2.chunkSize ≠ 0) := by
  unfold consume
  cases h : p.state
  all_goals simp only [updateBack, endValue, endHeaders, endChunkSize, next, fail, done]
  all_goals repeat' split
  all_goals simp_all [-Nat.reducePow]

/-- The states of a header line are entered with a header. -/
lemma consume_header_state (p : RequestParser) (c : UInt8)
    (h : (consume p c).2.state ∈ [.headerLws, .headerName, .spaceBeforeHeaderValue, .headerValue]) :
    p.state ∈ [.headerLws, .headerName, .spaceBeforeHeaderValue, .headerValue] ∨
      (consume p c).2.req.headers ≠ [] := by
  revert h
  unfold consume
  cases h : p.state
  all_goals simp only [updateBack, endValue, endHeaders, endChunkSize, next, fail, done]
  all_goals repeat' split
  all_goals simp_all

/-- A chunk-size line is left with its text cleared. -/
lemma consume_chunkSizeStr_state (p : RequestParser) (c : UInt8)
    (h : p.state ∈ [.chunkSize, .chunkExtensionName, .chunkExtensionValue, .chunkSizeNewLine]) :
    (consume p c).2.state ∈ [.chunkSize, .chunkExtensionName, .chunkExtensionValue, .chunkSizeNewLine] ∨
      (consume p c).2.chunkSizeStr = [] := by
  revert h
  unfold consume
  cases h : p.state
  all_goals simp only [updateBack, endValue, endHeaders, endChunkSize, next, fail, done]
  all_goals repeat' split
  all_goals simp_all

/-- The content grows by a byte of the body. A chunk is entered with the size its line says, when a string
    can hold it. -/
lemma consume_content (p : RequestParser) (c : UInt8) :
    (consume p c).2.req.content = p.req.content ∧ p.state ≠ .post ∧
        ((consume p c).2.state = .chunkData →
          (p.req.content.length + (consume p c).2.chunkSize) % 2 ^ 64 ≤ maxSize ∧
            (consume p c).2.chunkSize = toSize (strtol 16 p.chunkSizeStr)) ∨
      p.state = .post ∧ (consume p c).2.state = .post ∨
      p.state = .chunkData ∧ (consume p c).2.req.content = p.req.content ++ [c] ∧
        (consume p c).2.chunkSize = predSize p.chunkSize := by
  unfold consume
  cases h : p.state
  all_goals simp only [updateBack, endValue, endHeaders, endChunkSize, next, fail, done]
  all_goals repeat' split
  all_goals simp_all [RequestBuffer.setKeepAlive]
  all_goals repeat' split
  all_goals simp_all

/-- A version number is entered with a digit and gains digits as long as they can be accumulated. -/
lemma consume_version (p : RequestParser) (c : UInt8) (hgo : (consume p c).1 = .ret .incomplete) :
    ((consume p c).2.state = .requestHttpVersionMajorStart → c = '/'.toUInt8) ∧
      ((consume p c).2.state = .requestHttpVersionMajor → isDigit (promote c) ∧
        (p.state = .requestHttpVersionMajorStart ∧
            (consume p c).2.req.httpVersionMajor = promote c - promote '0'.toUInt8 ∨
          p.state = .requestHttpVersionMajor ∧
            accumulate p.req.httpVersionMajor c = some (consume p c).2.req.httpVersionMajor)) ∧
      ((consume p c).2.state = .requestHttpVersionMinorStart → c = '.'.toUInt8) ∧
      ((consume p c).2.state = .requestHttpVersionMinor → isDigit (promote c) ∧
        (p.state = .requestHttpVersionMinorStart ∧
            (consume p c).2.req.httpVersionMinor = promote c - promote '0'.toUInt8 ∨
          p.state = .requestHttpVersionMinor ∧
            accumulate p.req.httpVersionMinor c = some (consume p c).2.req.httpVersionMinor)) := by
  revert hgo
  unfold consume
  cases h : p.state
  all_goals simp only [updateBack, endValue, endHeaders, endChunkSize, next, fail, done]
  all_goals repeat' split
  all_goals simp_all

/-- Everything that can be raised. -/
lemma consume_raise (p : RequestParser) (c : UInt8) (f : Fault) (h : (consume p c).1 = .raise f) :
    f = .emptyBack ∧ p.req.headers = [] ∧
        p.state ∈ [.headerLws, .headerName, .spaceBeforeHeaderValue, .headerValue] ∨
      f = .intOverflow ∧ isDigit (promote c) ∧
        (p.state = .requestHttpVersionMajor ∧ accumulate p.req.httpVersionMajor c = none ∨
          p.state = .requestHttpVersionMinor ∧ accumulate p.req.httpVersionMinor c = none) ∨
      f = .lengthError ∧ p.state = .headerValue ∧ c = CR ∧ hasBody p.req.method ∧
        (∃ h, p.req.headers.getLast? = some h ∧ sameText h.name "Content-Length" ∧
          ¬toSize (atoi h.value) ≤ maxSize) ∨
      f = .lengthError ∧ p.state = .chunkSizeNewLine ∧ c = LF ∧
        ¬(p.req.content.length + toSize (strtol 16 p.chunkSizeStr)) % 2 ^ 64 ≤ maxSize := by
  revert h
  unfold consume
  cases h : p.state
  all_goals simp only [updateBack, endValue, endHeaders, endChunkSize, next, fail, done]
  all_goals repeat' split
  all_goals simp_all

end RequestParser

end ArrowheadCore.Http
