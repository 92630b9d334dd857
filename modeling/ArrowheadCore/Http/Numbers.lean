import ArrowheadCore.Http.Protocol

/-!
# Numbers of a request

The parser converts three kinds of digit strings: the version numbers with an accumulator of its own,
`Content-Length` with `atoi`, chunk sizes with `strtol`. `Exact` says what a call should do with them: it
returns, and every number it computes is the value of the digits that were received, unless it refuses the
request. `Convertible` is the condition on the state before the call under which the source does that. Along
every run the two are the same thing.
-/

namespace ArrowheadCore.Http
open Lib RequestParser

/-- The decimal digits at the end of what was read. -/
def digitSuffix (ys : List UInt8) : List UInt8 := (ys.reverse.takeWhile (isDigitOf 10)).reverse

lemma digitSuffix_concat (ys : List UInt8) (c : UInt8) :
    digitSuffix (ys ++ [c]) = if isDigitOf 10 c then digitSuffix ys ++ [c] else [] := by
  cases h : isDigitOf 10 c <;> simp [digitSuffix, h]

/-- The call of `consume` after `ys` was read returns, and the numbers it computes are exact. -/
structure Exact (ys : List UInt8) (p : RequestParser) (c : UInt8) : Prop where
  returns : ∀ f, (consume p c).1 ≠ .raise f
  major : (consume p c).1 = .ret .incomplete → (consume p c).2.state = .requestHttpVersionMajor →
    (consume p c).2.req.httpVersionMajor = number 10 (digitSuffix (ys ++ [c]))
  minor : (consume p c).1 = .ret .incomplete → (consume p c).2.state = .requestHttpVersionMinor →
    (consume p c).2.req.httpVersionMinor = number 10 (digitSuffix (ys ++ [c]))
  length : p.state = .headerValue → c = CR → hasBody p.req.method →
    ∀ h, p.req.headers.getLast? = some h → sameText h.name "Content-Length" →
      (consume p c).1 = .ret .failed ∨
        h.value ≠ [] ∧ (∀ d ∈ h.value, isDigitOf 10 d) ∧ (consume p c).2.contentSize = number 10 h.value
  token : p.state = .chunkSize → isalnum c = false →
    (consume p c).1 = .ret .failed ∨ p.chunkSizeStr ≠ [] ∧ ∀ d ∈ p.chunkSizeStr, isDigitOf 16 d
  size : p.state = .chunkSizeNewLine →
    (consume p c).1 = .ret .failed ∨
      (∀ d ∈ p.chunkSizeStr, isDigitOf 16 d) ∧ (consume p c).2.chunkSize = number 16 p.chunkSizeStr
  post : p.state = .post → (consume p c).2.contentSize + 1 = p.contentSize
  data : p.state = .chunkData → (consume p c).2.chunkSize + 1 = p.chunkSize

/-- What the state before a call must be for the conversions of the source to be exact: the sum formed for
    a version number is an `int`, the value of `Content-Length` is a decimal number below `2 ^ 31`, a
    chunk-size text is a hexadecimal number, and a string can hold the content with the chunk. -/
structure Convertible (p : RequestParser) (c : UInt8) : Prop where
  major : p.state = .requestHttpVersionMajor → isDigit (promote c) →
    p.req.httpVersionMajor * 10 + promote c ≤ INT_MAX
  minor : p.state = .requestHttpVersionMinor → isDigit (promote c) →
    p.req.httpVersionMinor * 10 + promote c ≤ INT_MAX
  length : p.state = .headerValue → c = CR → hasBody p.req.method →
    ∀ h, p.req.headers.getLast? = some h → sameText h.name "Content-Length" →
      h.value ≠ [] ∧ (∀ d ∈ h.value, isDigitOf 10 d) ∧ number 10 h.value < 2 ^ 31
  token : p.state = .chunkSize → c = ';'.toUInt8 ∨ c = CR →
    p.chunkSizeStr ≠ [] ∧ ∀ d ∈ p.chunkSizeStr, isDigitOf 16 d
  room : p.state = .chunkSizeNewLine → c = LF →
    (∀ d ∈ p.chunkSizeStr, isDigitOf 16 d) ∧
      p.req.content.length + number 16 p.chunkSizeStr ≤ maxSize

/-! ## The invariant of the runs -/

/-- What holds after `ys` was read: the representation invariant, the version numbers are those of the digits
    just read, and a string can hold the content with the rest of a chunk. -/
structure Counted (ys : List UInt8) (p : RequestParser) : Prop where
  rep : Rep .reading p
  majorStart : p.state = .requestHttpVersionMajorStart → digitSuffix ys = []
  major : p.state = .requestHttpVersionMajor → p.req.httpVersionMajor = number 10 (digitSuffix ys)
  minorStart : p.state = .requestHttpVersionMinorStart → digitSuffix ys = []
  minor : p.state = .requestHttpVersionMinor → p.req.httpVersionMinor = number 10 (digitSuffix ys)
  content : p.state ≠ .post → p.req.content.length ≤ maxSize
  data : p.state = .chunkData → p.req.content.length + p.chunkSize ≤ maxSize

lemma number_first {ys c} (hd : isDigit (promote c)) (hy : digitSuffix ys = []) :
    promote c - promote '0'.toUInt8 = number 10 (digitSuffix (ys ++ [c])) := by
  have hd' := isDigit_iff.1 hd
  rw [digitSuffix_concat, if_pos hd', hy, promote_sub_zero hd']
  rfl

lemma number_more {ys c n} (hd : isDigit (promote c))
    (h : accumulate (number 10 (digitSuffix ys)) c = some n) :
    n = number 10 (digitSuffix (ys ++ [c])) := by
  have hd' := isDigit_iff.1 hd
  rw [accumulate_digit hd'] at h
  rw [digitSuffix_concat, if_pos hd']
  split at h
  · exact (Option.some.inj h).symm
  · cases h

/-- The size of a chunk is a `long` that is not negative. -/
lemma toSize_strtol_le {s : List UInt8} (h : ∀ c ∈ s, isalnum c) : toSize (strtol 16 s) ≤ LONG_MAX := by
  have hlong : LONG_MAX = 2 ^ 63 - 1 := rfl
  rw [strtol_alnum h]
  generalize number 16 _ = n
  have : min (n : Int) LONG_MAX = ((min n LONG_MAX : Nat) : Int) := by simp
  rw [this, toSize_natCast (by omega)]
  omega

lemma Counted.consume {ys p} (h : Counted ys p) (c : UInt8)
    (hgo : (consume p c).1 = .ret .incomplete) : Counted (ys ++ [c]) (consume p c).2 := by
  have hmax : maxSize = 2 ^ 62 - 1 := rfl
  have hlong : LONG_MAX = 2 ^ 63 - 1 := rfl
  obtain ⟨v1, v2, v3, v4⟩ := consume_version p c hgo
  constructor
  · have := h.rep.consume c
    rwa [hgo] at this
  · intro e
    rw [digitSuffix_concat, v1 e, if_neg (by decide)]
  · intro e
    obtain ⟨hd, ⟨hs, hv⟩ | ⟨hs, hv⟩⟩ := v2 e
    · rw [hv, number_first hd (h.majorStart hs)]
    · rw [h.major hs] at hv
      exact number_more hd hv
  · intro e
    rw [digitSuffix_concat, v3 e, if_neg (by decide)]
  · intro e
    obtain ⟨hd, ⟨hs, hv⟩ | ⟨hs, hv⟩⟩ := v4 e
    · rw [hv, number_first hd (h.minorStart hs)]
    · rw [h.minor hs] at hv
      exact number_more hd hv
  · intro hne
    obtain ⟨e, hp, -⟩ | ⟨-, e⟩ | ⟨hs, e, -⟩ := consume_content p c
    · rw [e]
      exact h.content hp
    · exact absurd e hne
    · have := h.data hs
      have := h.rep.data hs
      rw [e, List.length_append, List.length_singleton]
      omega
  · intro hs
    obtain ⟨e, hp, hd⟩ | ⟨-, e⟩ | ⟨hd, e, e'⟩ := consume_content p c
    -- a chunk is entered: neither summand is near `2 ^ 64`, so the sum did not wrap
    · obtain ⟨hfit, hsize⟩ := hd hs
      have := h.content hp
      have := toSize_strtol_le h.rep.alnum
      rw [Nat.mod_eq_of_lt (by omega)] at hfit
      rw [e]
      exact hfit
    · rw [e] at hs
      cases hs
    · have := h.data hd
      have := predSize_add_one (h.rep.data hd) h.rep.chunkSize_lt
      rw [e, e', List.length_append, List.length_singleton]
      omega

lemma Counted.idle (v : Int × Int) (k : Bool) : Counted [] (idle v k) where
  rep := by constructor <;> simp [RequestParser.idle]
  majorStart := by simp [digitSuffix]
  major := by simp [RequestParser.idle]
  minorStart := by simp [digitSuffix]
  minor := by simp [RequestParser.idle]
  content := by simp [RequestParser.idle]
  data := by simp [RequestParser.idle]

/-- So it holds after everything that was read. -/
lemma counted_parse {v k ys p} (h : (idle v k).parse ys = (.ret .incomplete, [], p)) : Counted ys p := by
  rw [parse_eq_feed] at h
  exact feed_inv_read (fun ys p c hc e => hc.consume c e) (.idle v k) h

/-! ## One call -/

/-- The accumulator gives a number iff the sum it forms is an `int`. -/
lemma accumulate_isSome_iff {ds c} (hd : isDigit (promote c)) :
    accumulate (number 10 ds) c ≠ none ↔ (number 10 ds : Int) * 10 + promote c ≤ INT_MAX := by
  have hd' := isDigit_iff.1 hd
  rw [accumulate_digit hd', number_append_one, (promote_digit hd').1]
  push_cast
  rw [Int.add_assoc]
  split_ifs with h <;> simp [h]

/-- A decimal text converts exactly iff its number is below `2 ^ 31`, or beyond every string. -/
lemma toSize_atoi_exact {ds} (hd : ∀ d ∈ ds, isDigitOf 10 d) (hle : toSize (atoi ds) ≤ maxSize) :
    toSize (atoi ds) = number 10 ds ↔ number 10 ds < 2 ^ 31 := by
  have hmax : maxSize = 2 ^ 62 - 1 := rfl
  obtain ⟨h1, h2⟩ := atoi_range ds
  constructor
  · intro e
    unfold toSize at hle e
    omega
  · exact toSize_atoi_digits hd

lemma consume_length {p c h} (hs : p.state = .headerValue) (hc : c = CR) (hb : hasBody p.req.method)
    (hh : p.req.headers.getLast? = some h) (hl : sameText h.name "Content-Length") :
    (consume p c).2.contentSize = toSize (atoi h.value) ∧
      (consume p c).1 =
        if toSize (atoi h.value) ≤ maxSize then .ret .incomplete else .raise .lengthError := by
  simp only [consume, hs, hc, if_true, endValue, hb, hh, hl]
  split_ifs <;> exact ⟨rfl, rfl⟩

lemma consume_size {p c} (hs : p.state = .chunkSizeNewLine) (hc : c = LF) :
    (consume p c).2.chunkSize = toSize (strtol 16 p.chunkSizeStr) ∧
      (consume p c).1 =
        if (p.req.content.length + toSize (strtol 16 p.chunkSizeStr)) % 2 ^ 64 ≤ maxSize then
          .ret .incomplete else .raise .lengthError := by
  simp only [consume, hs, hc, if_true, endChunkSize]
  split_ifs <;> exact ⟨rfl, rfl⟩

lemma Convertible.exact {ys p c} (hc : Convertible p c) (h : Counted ys p) : Exact ys p c := by
  have hmax : maxSize = 2 ^ 62 - 1 := rfl
  have hlong : LONG_MAX = 2 ^ 63 - 1 := rfl
  constructor
  · intro f e
    obtain ⟨-, hs, he⟩ | ⟨-, hd, ⟨hs, ha⟩ | ⟨hs, ha⟩⟩ | ⟨-, hs, hcr, hb, x, hx, hl, hgt⟩ | ⟨-, hs, hlf, hgt⟩ :=
      consume_raise p c f e
    · exact h.rep.headers he hs
    · have hle := hc.major hs hd
      rw [h.major hs] at ha hle
      exact (accumulate_isSome_iff hd).2 hle ha
    · have hle := hc.minor hs hd
      rw [h.minor hs] at ha hle
      exact (accumulate_isSome_iff hd).2 hle ha
    · obtain ⟨-, hdig, hlt⟩ := hc.length hs hcr hb x hx hl
      rw [toSize_atoi_digits hdig hlt] at hgt
      omega
    · obtain ⟨hdig, hle⟩ := hc.room hs hlf
      rw [toSize_strtol_digits hdig, Nat.mod_eq_of_lt (by omega)] at hgt
      omega
  · exact fun hgo e => (h.consume c hgo).major e
  · exact fun hgo e => (h.consume c hgo).minor e
  · intro hs hcr hb x hx hl
    obtain ⟨hne, hdig, hlt⟩ := hc.length hs hcr hb x hx hl
    refine .inr ⟨hne, hdig, ?_⟩
    rw [(consume_length hs hcr hb hx hl).1, toSize_atoi_digits hdig hlt]
  · intro hs hal
    by_cases hend : c = ';'.toUInt8 ∨ c = CR
    · exact .inr (hc.token hs hend)
    · left
      rw [not_or] at hend
      simp [consume, hs, hal, hend, fail]
  · intro hs
    by_cases hlf : c = LF
    · obtain ⟨hdig, hle⟩ := hc.room hs hlf
      refine .inr ⟨hdig, ?_⟩
      rw [(consume_size hs hlf).1, toSize_strtol_digits hdig]
      omega
    · left
      simp [consume, hs, hlf, fail]
  · exact h.rep.post_countdown c
  · exact h.rep.data_countdown c

lemma Exact.convertible {ys p c} (he : Exact ys p c) (h : Counted ys p) : Convertible p c := by
  have hmax : maxSize = 2 ^ 62 - 1 := rfl
  have hlong : LONG_MAX = 2 ^ 63 - 1 := rfl
  constructor
  · intro hs hd
    have hdot : c ≠ '.'.toUInt8 := by rintro rfl; revert hd; decide
    rw [h.major hs, ← accumulate_isSome_iff hd, ← h.major hs]
    intro ha
    exact he.returns .intOverflow (by simp [consume, hs, hd, ha, hdot])
  · intro hs hd
    have hcr : c ≠ CR := by rintro rfl; revert hd; decide
    rw [h.minor hs, ← accumulate_isSome_iff hd, ← h.minor hs]
    intro ha
    exact he.returns .intOverflow (by simp [consume, hs, hd, ha, hcr])
  · intro hs hcr hb x hx hl
    obtain ⟨hsize, hres⟩ := consume_length hs hcr hb hx hl
    have hfit : toSize (atoi x.value) ≤ maxSize := by
      by_contra hgt
      exact he.returns .lengthError (by rw [hres, if_neg hgt])
    rw [if_pos hfit] at hres
    obtain hf | ⟨hne, hdig, hn⟩ := he.length hs hcr hb x hx hl
    · rw [hres] at hf
      cases hf
    · exact ⟨hne, hdig, (toSize_atoi_exact hdig hfit).1 (hsize ▸ hn)⟩
  · rintro hs (rfl | rfl)
    all_goals
      obtain hf | ht := he.token hs (by decide)
      · simp [consume, hs, next, show isalnum ';'.toUInt8 = false by decide,
          show isalnum CR = false by decide, show CR ≠ ';'.toUInt8 by decide] at hf
      · exact ht
  · intro hs hlf
    obtain ⟨hsize, hres⟩ := consume_size hs hlf
    have hfit : (p.req.content.length + toSize (strtol 16 p.chunkSizeStr)) % 2 ^ 64 ≤ maxSize := by
      by_contra hgt
      exact he.returns .lengthError (by rw [hres, if_neg hgt])
    rw [if_pos hfit] at hres
    obtain hf | ⟨hdig, hn⟩ := he.size hs
    · rw [hres] at hf
      cases hf
    · have := h.content (by simp [hs])
      have := toSize_strtol_le h.rep.alnum
      rw [Nat.mod_eq_of_lt (by omega)] at hfit
      exact ⟨hdig, by rw [← hn, hsize]; exact hfit⟩

/-! ## Runs -/

/-- In every run of a parser between requests, all numbers are exact and nothing is raised iff every call is
    made in a convertible state. -/
theorem numbers_exact_iff (v : Int × Int) (k : Bool) (xs : List UInt8) :
    (∀ ys c zs p, xs = ys ++ c :: zs → (idle v k).parse ys = (.ret .incomplete, [], p) → Exact ys p c) ↔
      Along consume (.ret .incomplete) Convertible (idle v k) xs := by
  rw [along_iff]
  constructor
  · intro h ys c zs p e hp
    rw [← parse_eq_feed] at hp
    exact (h ys c zs p e hp).convertible (counted_parse hp)
  · intro h ys c zs p e hp
    have hc := h ys c zs p e (by rw [← parse_eq_feed]; exact hp)
    exact hc.exact (counted_parse hp)

/-- A negative `Content-Length` is an exception. One beyond `int` is cut to its last 32 bits, and a chunk size
    without a digit is zero. -/
theorem numbers_not_exact :
    (¬∀ ys c zs p, bytes "POST / HTTP/1.1\r\nContent-Length: -1\r\n\r\n" = ys ++ c :: zs →
      (idle (0, 0) false).parse ys = (.ret .incomplete, [], p) → Exact ys p c) ∧
      ((idle (0, 0) false).parse
        (bytes "POST / HTTP/1.1\r\nContent-Length: -1\r\n\r\n")).1 = .raise .lengthError ∧
      ((idle (0, 0) false).parse
        (bytes "POST / HTTP/1.1\r\nContent-Length: 4294967297\r\n\r\nab")).2.2.inspect.content = bytes "a" ∧
      ((idle (0, 0) false).parse
        (bytes "POST / HTTP/1.1\r\nTransfer-Encoding: chunked\r\n\r\nzz\r\n\r\n")).1 = .ret .completed := by
  refine ⟨fun h => ?_, by decide +kernel, by decide +kernel, by decide +kernel⟩
  let ys := bytes "POST / HTTP/1.1\r\nContent-Length: -1"
  have hp : (idle (0, 0) false).parse ys = (.ret .incomplete, [], ((idle (0, 0) false).parse ys).2.2) := by
    decide +kernel
  refine (h ys CR (bytes "\n\r\n") _ (by decide +kernel) hp).returns .lengthError ?_
  decide +kernel

end ArrowheadCore.Http
