import ArrowheadCore.Http.Message

/-!
# Reading a message

Every message is read by the parser piece by piece: `Reads p xs q` says that the parser `p` takes all of
`xs`, asks for more and stands as `q`, and that none of the two liberties of the source is used on the way
(`Strict`). The pieces compose with the rules of the library's `Run`; the loops that collect a text go
through `Run.collect`.
-/

namespace ArrowheadCore.Http
open Lib RequestParser

/-- The character does not use a liberty of the source: the header section ends in a line feed, and a
    chunk-size text ends as a non-empty string of hexadecimal digits. -/
def Strict (p : RequestParser) (c : UInt8) : Prop :=
  (p.state = .expectingNewline3 → c = LF) ∧
    (p.state = .chunkSize → isalnum c = false →
      p.chunkSizeStr ≠ [] ∧ ∀ d ∈ p.chunkSizeStr, isDigitOf 16 d)

instance (p : RequestParser) (c : UInt8) : Decidable (Strict p c) :=
  inferInstanceAs (Decidable (_ ∧ _))

/-- The two states with a liberty. -/
def State.isLax : State → Bool
  | .expectingNewline3 | .chunkSize => true
  | _ => false

/-- The other states are strict about every character. -/
lemma Strict.of_state {p c} (h : p.state.isLax = false) : Strict p c := by
  constructor
  · intro e
    rw [e] at h
    cases h
  · intro e
    rw [e] at h
    cases h

/-- The parser takes all of `xs` and asks for more. -/
abbrev Reads (p : RequestParser) (xs : List UInt8) (q : RequestParser) : Prop :=
  Run consume (.ret .incomplete) Strict p xs q

lemma Reads.char {p q c} (h : consume p c = (.ret .incomplete, q)) (hp : p.state.isLax = false) :
    Reads p [c] q :=
  Run.one h (.of_state hp)

lemma Reads.step {p q r c xs} (h : consume p c = (.ret .incomplete, q)) (hp : p.state.isLax = false)
    (h' : Reads q xs r) : Reads p (c :: xs) r :=
  (Reads.char h hp).append h'

/-- A text that a state without a liberty collects. -/
lemma Reads.collect {f : List UInt8 → RequestParser} {xs} (hf : ∀ ys, (f ys).state.isLax = false)
    (h : ∀ ys c zs, xs = ys ++ c :: zs → consume (f ys) c = (.ret .incomplete, f (ys ++ [c]))) :
    Reads (f []) xs (f xs) := by
  apply Run.collect
  intro ys c zs e
  exact ⟨h ys c zs e, .of_state (hf ys)⟩

lemma Reads.skip {p : RequestParser} {xs} (hp : p.state.isLax = false)
    (h : ∀ c ∈ xs, consume p c = (.ret .incomplete, p)) : Reads p xs p := by
  apply Reads.collect (f := fun _ => p) (fun _ => hp)
  rintro ys c zs rfl
  exact h c (by simp)

/-! ## The request line -/

/-- The parser inside a request line. -/
def inLine (k : Bool) (s : State) (m u : List UInt8) (v : Int × Int) : RequestParser where
  state := s
  req := { method := m, uri := u, httpVersionMajor := v.1, httpVersionMinor := v.2, keepAlive := k }

lemma reads_method {m} (hm : IsMethod m) (k v) :
    Reads (idle v k) m (inLine k .requestMethod m [] v) := by
  obtain ⟨c, cs, rfl, hc, hcs⟩ := hm
  have h1 : consume (idle v k) c = (.ret .incomplete, inLine k .requestMethod [c] [] v) := by
    simp [consume, idle, inLine, next, hc]
  refine .step h1 rfl ?_
  apply Reads.collect (f := fun ys => inLine k .requestMethod (c :: ys) [] v) (fun _ => rfl)
  rintro ys d zs rfl
  have hd := hcs d (by simp)
  have hsp := ne_of_isToken hd (d := SP) (by decide)
  simp [consume, inLine, next, hd, hsp]

lemma reads_uri {u} (hu : IsUri u) (k m v) :
    Reads (inLine k .requestUriStart m [] v) u (inLine k .requestUri m u v) := by
  obtain ⟨c, cs, rfl, hc, hcs⟩ := hu
  have h1 : consume (inLine k .requestUriStart m [] v) c =
      (.ret .incomplete, inLine k .requestUri m [c] v) := by
    simp [consume, inLine, next, hc]
  refine .step h1 rfl ?_
  apply Reads.collect (f := fun ys => inLine k .requestUri m (c :: ys) v) (fun _ => rfl)
  rintro ys d zs rfl
  obtain ⟨hd, hsp⟩ := hcs d (by simp)
  have hcr := ne_of_not_isControl hd (d := CR) (by decide)
  simp [consume, inLine, next, hd, hsp, hcr]

lemma reads_http (k m u v) :
    Reads (inLine k .requestUri m u v) (SP :: bytes "HTTP/")
      (inLine k .requestHttpVersionMajorStart m u (0, 0)) :=
  ⟨rfl, by simp [Along, Strict, bytes, inLine, consume, next]⟩

/-- The two states that accumulate a version number: `s0` takes its first digit, `s` the others, up to the
    character `x`. The number stands where `w` puts it. -/
structure Accumulates (k : Bool) (m u : List UInt8) (s0 s : State) (v0 : Int × Int) (w : Int → Int × Int)
    (x : UInt8) (p : Int → RequestParser) : Prop where
  first : ∀ d, consume (inLine k s0 m u v0) d =
    if isDigit (promote d) then
      (.ret .incomplete, inLine k s m u (w (promote d - promote '0'.toUInt8)))
    else fail (inLine k s0 m u v0)
  more : ∀ n d, consume (inLine k s m u (w n)) d =
    if d = x then (.ret .incomplete, p n)
    else if isDigit (promote d) then
      match accumulate n d with
      | none => (.raise .intOverflow, inLine k s m u (w n))
      | some n' => (.ret .incomplete, inLine k s m u (w n'))
    else fail (inLine k s m u (w n))
  end_ok : isDigitOf 10 x = false
  first_ok : s0.isLax = false
  more_ok : s.isLax = false

lemma accumulates_major (k m u) :
    Accumulates k m u .requestHttpVersionMajorStart .requestHttpVersionMajor (0, 0) (fun n => (n, 0))
      '.'.toUInt8 (fun n => inLine k .requestHttpVersionMinorStart m u (n, 0)) :=
  ⟨fun _ => rfl, fun _ _ => rfl, by decide, rfl, rfl⟩

lemma accumulates_minor (k m u) (n : Int) :
    Accumulates k m u .requestHttpVersionMinorStart .requestHttpVersionMinor (n, 0) (fun n' => (n, n'))
      CR (fun n' => inLine k .requestHttpVersionNewLine m u (n, n')) :=
  ⟨fun _ => rfl, fun _ _ => rfl, by decide, rfl, rfl⟩

/-- A digit string is accumulated into its number. -/
lemma Accumulates.reads {k m u s0 s v0 w x p ds} (h : Accumulates k m u s0 s v0 w x p)
    (hds : IsVersion ds) :
    Reads (inLine k s0 m u v0) (ds ++ [x]) (p (number 10 ds)) := by
  obtain ⟨hne, hdig, hle⟩ := hds
  obtain ⟨d, ds, rfl⟩ := List.exists_cons_of_ne_nil hne
  have hd := hdig d (by simp)
  have first : consume (inLine k s0 m u v0) d = (.ret .incomplete, inLine k s m u (w (number 10 [d]))) := by
    rw [h.first, if_pos (isDigit_iff.2 hd), promote_sub_zero hd]
  have more : Reads (inLine k s m u (w (number 10 [d]))) ds (inLine k s m u (w (number 10 (d :: ds)))) := by
    apply Reads.collect (f := fun ys => inLine k s m u (w (number 10 (d :: ys)))) (fun _ => h.more_ok)
    rintro ys c zs rfl
    have hc := hdig c (by simp)
    have hcx : c ≠ x := by
      rintro rfl
      rw [h.end_ok] at hc
      cases hc
    -- a prefix of the digits is a smaller number, so its sum fits as well
    have hfit : (number 10 (d :: ys ++ [c]) : Int) + 48 ≤ INT_MAX := by
      have := number_append_le 10 (d :: ys ++ [c]) zs (by decide)
      simp only [List.cons_append, List.append_assoc, List.nil_append] at this hle ⊢
      omega
    rw [h.more, if_neg hcx, if_pos (isDigit_iff.2 hc), accumulate_digit hc, if_pos hfit]
    rfl
  have last : consume (inLine k s m u (w (number 10 (d :: ds)))) x =
      (.ret .incomplete, p (number 10 (d :: ds))) := by
    rw [h.more, if_pos rfl]
  exact (Reads.step first h.first_ok more).append (Reads.char last h.more_ok)

/-- The parser at the start of a header line. -/
def atLine (l : RequestLine) (k : Bool) (s : Section) : RequestParser where
  state := .headerLineStart
  req :=
    { method := l.method, uri := l.uri, httpVersionMajor := number 10 l.major,
      httpVersionMinor := number 10 l.minor, keepAlive := k, headers := s.headers }
  contentSize := s.contentSize
  chunked := s.chunked

lemma reads_requestLine (l : RequestLine) (k v) :
    Reads (idle v k) (l.render ++ CRLF) (atLine l k {}) := by
  have h1 := reads_method l.method_ok k v
  have h2 : Reads (inLine k .requestMethod l.method [] v) [SP]
      (inLine k .requestUriStart l.method [] v) :=
    Reads.char rfl rfl
  have h3 := reads_uri l.uri_ok k l.method v
  have h4 := reads_http k l.method l.uri v
  have h5 := (accumulates_major k l.method l.uri).reads l.major_ok
  have h6 := (accumulates_minor k l.method l.uri (number 10 l.major)).reads l.minor_ok
  have h7 : Reads (inLine k .requestHttpVersionNewLine l.method l.uri (number 10 l.major, number 10 l.minor))
      [LF] (atLine l k {}) :=
    Reads.char rfl rfl
  have := (((((h1.append h2).append h3).append h4).append h5).append h6).append h7
  simpa [RequestLine.render, CRLF] using this

/-! ## Header lines -/

section Lines

variable {l : RequestLine} {k : Bool} {s : Section}

/-- The parser inside the header section. -/
def inHeader (l : RequestLine) (k : Bool) (st : State) (s : Section) : RequestParser :=
  { atLine l k s with state := st }

/-- The end of a line whose header is the last one finishes that header. -/
lemma endValue_inHeader {hs h} (e : s.headers = hs ++ [h])
    (hc : (s.finish (hasBody l.method) h).contentSize ≤ maxSize) :
    endValue (inHeader l k .headerValue s) =
      (.ret .incomplete, inHeader l k .expectingNewline2 (s.finish (hasBody l.method) h)) := by
  have hl : (inHeader l k .headerValue s).req.headers.getLast? = some h := by
    simp [inHeader, atLine, e]
  unfold Section.finish at hc ⊢
  simp only [endValue, hl]
  cases hb : hasBody l.method
  · simp [inHeader, atLine, hb, next]
  · simp only [inHeader, atLine, hb, if_true]
    simp only [hb, if_true] at hc
    by_cases h1 : sameText h.name "Content-Length"
    · simp only [h1, if_true] at hc ⊢
      simp only [hc, if_true, next]
    · by_cases h2 : sameText h.name "Transfer-Encoding"
      · simp [h1, h2, next]
      · simp [h1, h2, next]

lemma reads_value (l : RequestLine) (k : Bool) (s : Section) (hs : List Header) (n v0 v : List UInt8)
    (hv : ∀ c ∈ v, isControl (promote c) = false) :
    Reads (inHeader l k .headerValue { s with headers := hs ++ [⟨n, v0⟩] }) v
      (inHeader l k .headerValue { s with headers := hs ++ [⟨n, v0 ++ v⟩] }) := by
  let f ys := inHeader l k .headerValue { s with headers := hs ++ [⟨n, v0 ++ ys⟩] }
  have collect : Reads (f []) v (f v) := by
    apply Reads.collect (fun _ => rfl)
    rintro ys c zs rfl
    have hc := hv c (by simp)
    have hcr := ne_of_not_isControl hc (d := CR) (by decide)
    simp [f, consume, inHeader, atLine, hc, hcr, updateBack, next, Header.pushValue]
  simpa [f] using collect

lemma reads_endValue {hs h} (e : s.headers = hs ++ [h])
    (hc : (s.finish (hasBody l.method) h).contentSize ≤ maxSize) :
    Reads (inHeader l k .headerValue s) CRLF (atLine l k (s.finish (hasBody l.method) h)) := by
  have h1 : consume (inHeader l k .headerValue s) CR =
      (.ret .incomplete, inHeader l k .expectingNewline2 (s.finish (hasBody l.method) h)) := by
    rw [← endValue_inHeader e hc]
    simp [consume, inHeader]
  exact .step h1 rfl (Reads.char rfl rfl)

lemma reads_field (f : Field) (ok : s.Accepts (hasBody l.method) (.field f)) :
    Reads (atLine l k s) ((Line.field f).render ++ CRLF)
      (atLine l k (s.line (hasBody l.method) (.field f))) := by
  obtain ⟨c, cs, e⟩ := List.exists_cons_of_ne_nil f.name_ne
  have htok := f.name_ok
  rw [e] at htok
  have hc := htok c (by simp)
  have h1 : consume (atLine l k s) c =
      (.ret .incomplete, inHeader l k .headerName { s with headers := s.headers ++ [⟨[c], []⟩] }) := by
    have h1 := ne_of_isToken hc (d := CR) (by decide)
    have h2 := ne_of_isToken hc (d := SP) (by decide)
    have h3 := ne_of_isToken hc (d := HT) (by decide)
    simp [consume, atLine, inHeader, h1, h2, h3, hc, next]
  have h2 : Reads (inHeader l k .headerName { s with headers := s.headers ++ [⟨[c], []⟩] }) cs
      (inHeader l k .headerName { s with headers := s.headers ++ [⟨c :: cs, []⟩] }) := by
    apply Reads.collect (f := fun ys =>
      inHeader l k .headerName { s with headers := s.headers ++ [⟨c :: ys, []⟩] }) (fun _ => rfl)
    rintro ys d zs rfl
    have hd := htok d (by simp)
    have hcolon := ne_of_isToken hd (d := ':'.toUInt8) (by decide)
    simp [consume, inHeader, atLine, hd, hcolon, updateBack, next, Header.pushName]
  have h3 : Reads (inHeader l k .headerName { s with headers := s.headers ++ [⟨c :: cs, []⟩] })
      [':'.toUInt8, SP]
      (inHeader l k .headerValue { s with headers := s.headers ++ [⟨c :: cs, []⟩] }) :=
    .step rfl rfl (Reads.char rfl rfl)
  have h4 := reads_value l k s s.headers (c :: cs) [] f.value f.value_ok
  have h5 : Reads (inHeader l k .headerValue { s with headers := s.headers ++ [⟨c :: cs, f.value⟩] }) CRLF
      (atLine l k (s.line (hasBody l.method) (.field f))) := by
    have := ok.2
    rw [Section.line, e] at this ⊢
    exact reads_endValue rfl this
  have := (((Reads.step h1 rfl h2).append h3).append h4).append h5
  simpa [Line.render, e] using this

lemma reads_fold (f : Fold)
    (ok : s.Accepts (hasBody l.method) (.fold f)) :
    Reads (atLine l k s) ((Line.fold f).render ++ CRLF)
      (atLine l k (s.line (hasBody l.method) (.fold f))) := by
  have hne := ok.1 ⟨f, rfl⟩
  obtain e | ⟨hs, h, e⟩ := List.eq_nil_or_concat' s.headers
  · exact absurd e hne
  obtain ⟨b, bs, eb⟩ := List.exists_cons_of_ne_nil f.blanks_ne
  have hblank := f.blanks_ok
  rw [eb] at hblank
  have h1 : Reads (atLine l k s) f.blanks (inHeader l k .headerLws s) := by
    have first : consume (atLine l k s) b = (.ret .incomplete, inHeader l k .headerLws s) := by
      obtain rfl | rfl := hblank b (by simp)
      · simp [consume, atLine, inHeader, next, hne, show SP ≠ CR by decide]
      · simp [consume, atLine, inHeader, next, hne, show HT ≠ CR by decide]
    rw [eb]
    refine .step first rfl ?_
    apply Reads.skip rfl
    intro c hc
    obtain rfl | rfl := hblank c (by simp [hc])
    · rfl
    · rfl
  have h2 : Reads (inHeader l k .headerLws s) (f.text ++ CRLF)
      (atLine l k (s.line (hasBody l.method) (.fold f))) := by
    have text_ok := f.text_ok
    have hacc := ok.2
    rw [Section.line_fold f e] at hacc ⊢
    cases et : f.text with
    | nil =>
      -- nothing but blanks: the line ends without the header being looked at
      exact .step rfl rfl (Reads.char rfl rfl)
    | cons c cs =>
      have hspace : c ≠ SP := by
        have := f.text_head
        simpa [et] using this
      simp only [et, List.cons_ne_nil, if_false] at text_ok hacc ⊢
      have hc := text_ok c (by simp)
      have hcr := ne_of_not_isControl hc (d := CR) (by decide)
      have htab := ne_of_not_isControl hc (d := HT) (by decide)
      have first : consume (inHeader l k .headerLws s) c = (.ret .incomplete,
          inHeader l k .headerValue { s with headers := hs ++ [⟨h.name, h.value ++ [c]⟩] }) := by
        simp [consume, inHeader, atLine, e, hcr, hspace, htab, hc, updateBack, next, Header.pushValue]
      have more := reads_value l k s hs h.name (h.value ++ [c]) cs (fun d hd => text_ok d (by simp [hd]))
      rw [List.append_assoc, List.singleton_append] at more
      exact .step first rfl (more.append (reads_endValue rfl hacc))
  rw [Line.render, List.append_assoc]
  exact h1.append h2

lemma reads_line (ln : Line)
    (ok : s.Accepts (hasBody l.method) ln) :
    Reads (atLine l k s) (ln.render ++ CRLF) (atLine l k (s.line (hasBody l.method) ln)) := by
  cases ln with
  | field f => exact reads_field f ok
  | fold f => exact reads_fold f ok

lemma reads_lines (ls : List Line)
    (ok : LinesOk (hasBody l.method) s ls) :
    Reads (atLine l k s) (renderLines ls)
      (atLine l k (ls.foldl (Section.line (hasBody l.method)) s)) := by
  induction ls generalizing s with
  | nil => exact .nil _
  | cons ln ls ih =>
    obtain ⟨h1, h2⟩ := ok
    rw [renderLines, List.flatMap_cons]
    exact (reads_line ln h1).append (ih h2)

lemma reads_head (h : Head) (k v) : Reads (idle v k) h.render (atLine h.line k h.sect) :=
  (reads_requestLine h.line k v).append (reads_lines h.lines h.lines_ok)

end Lines

/-! ## Bodies -/

/-- The parser takes all of `xs` and completes with its last character. -/
abbrev Completes (p : RequestParser) (xs : List UInt8) (q : RequestParser) : Prop :=
  Halt consume (.ret .incomplete) Strict p xs (.ret .completed) q

lemma Completes.last {p q c} (h : consume p c = (.ret .completed, q)) (hp : p.state.isLax = false) :
    Completes p [c] q :=
  .one h (by simp) (.of_state hp)

/-- The parser inside a body whose bytes are counted down. -/
def inSized (b : RequestBuffer) (n : Nat) (content : List UInt8) : RequestParser where
  state := .post
  req := { b with content := content }
  contentSize := n

/-- The bytes of a body complete the request with the last of them. -/
lemma completes_sized (b : RequestBuffer) (c : List UInt8) (hc : c ≠ []) (hn : c.length < 2 ^ 64) :
    Completes (inSized b c.length []) c (inSized b 0 c) := by
  obtain rfl | ⟨cs, d, rfl⟩ := List.eq_nil_or_concat' c
  · exact absurd rfl hc
  -- after `ys` as many bytes are missing as the whole is longer
  have run : Reads (inSized b (cs ++ [d]).length []) cs (inSized b 1 cs) := by
    let f ys := inSized b ((cs ++ [d]).length - ys.length) ys
    have collect : Reads (f []) cs (f cs) := by
      apply Reads.collect (fun _ => rfl)
      rintro ys c zs rfl
      have hpred : predSize ((ys ++ c :: zs ++ [d]).length - ys.length) =
          (ys ++ c :: zs ++ [d]).length - (ys ++ [c]).length := by
        have := predSize_add_one (n := (ys ++ c :: zs ++ [d]).length - ys.length)
          (by simp) (by omega)
        simp at this ⊢
        omega
      have hpos : (ys ++ c :: zs ++ [d]).length - (ys ++ [c]).length ≠ 0 := by simp; omega
      simp only [f, consume, inSized, hpred, hpos, if_false, next]
    simpa [f] using collect
  exact run.halt (Completes.last rfl rfl)

/-- The parser inside a body in chunks. -/
def inChunks (b : RequestBuffer) (n : Nat) (st : State) (content : List UInt8) (size : Nat)
    (str : List UInt8) : RequestParser where
  state := st
  req := { b with content := content }
  contentSize := n
  chunked := true
  chunkSize := size
  chunkSizeStr := str

section Chunks

variable (b : RequestBuffer) (n : Nat) (content : List UInt8)

/-- The size of a chunk is collected, then its extension skipped. -/
lemma reads_sizeLine (l : SizeLine) (size : Nat) :
    Reads (inChunks b n .chunkSize content size []) (l.render ++ [CR])
      (inChunks b n .chunkSizeNewLine content size l.size) := by
  have digits : Reads (inChunks b n .chunkSize content size []) l.size
      (inChunks b n .chunkSize content size l.size) := by
    refine Run.collect (f := inChunks b n .chunkSize content size) fun ys c zs e => ?_
    have hc := isalnum_of_isDigitOf (by decide) (l.size_ok c (by simp [e]))
    refine ⟨by simp [consume, inChunks, hc, next], by simp [inChunks], ?_⟩
    simp [hc]
  have leave : ∀ c q, isalnum c = false →
      consume (inChunks b n .chunkSize content size l.size) c = (.ret .incomplete, q) →
      Reads (inChunks b n .chunkSize content size l.size) [c] q := by
    intro c q hc h
    exact .one h ⟨by simp [inChunks], fun _ _ => ⟨l.size_ne, l.size_ok⟩⟩
  have name : ∀ c, isText c →
      consume (inChunks b n .chunkExtensionName content size l.size) c =
        (.ret .incomplete, inChunks b n .chunkExtensionName content size l.size) := by
    intro c hc
    have : isalnum c ∨ c = SP := by simpa [isText] using hc
    simp [consume, inChunks, this, next]
  have value : ∀ c, isText c →
      consume (inChunks b n .chunkExtensionValue content size l.size) c =
        (.ret .incomplete, inChunks b n .chunkExtensionValue content size l.size) := by
    intro c hc
    have : isalnum c ∨ c = SP := by simpa [isText] using hc
    simp [consume, inChunks, this, next]
  rw [SizeLine.render, List.append_assoc]
  refine digits.append ?_
  have hext := l.ext_ok
  generalize l.ext = ext at hext
  cases hext with
  | none => exact leave CR _ (by decide) rfl
  | @name nm hn =>
    have h1 := leave ';'.toUInt8 _ (by decide) rfl
    have h2 := Reads.skip rfl fun c hc => name c (hn c hc)
    have h3 : Reads (inChunks b n .chunkExtensionName content size l.size) [CR]
        (inChunks b n .chunkSizeNewLine content size l.size) :=
      Reads.char rfl rfl
    simpa using (h1.append h2).append h3
  | @value nm v hn hv =>
    have h1 := leave ';'.toUInt8 _ (by decide) rfl
    have h2 := Reads.skip rfl fun c hc => name c (hn c hc)
    have h3 : Reads (inChunks b n .chunkExtensionName content size l.size) ['='.toUInt8]
        (inChunks b n .chunkExtensionValue content size l.size) :=
      Reads.char rfl rfl
    have h4 := Reads.skip rfl fun c hc => value c (hv c hc)
    have h5 : Reads (inChunks b n .chunkExtensionValue content size l.size) [CR]
        (inChunks b n .chunkSizeNewLine content size l.size) :=
      Reads.char rfl rfl
    simpa using (((h1.append h2).append h3).append h4).append h5

/-- The line feed of a size line gives the chunk its size, when a string can hold it. -/
lemma consume_sizeLine {ds : List UInt8} (hd : ∀ d ∈ ds, isDigitOf 16 d) (size : Nat)
    (hle : content.length + number 16 ds ≤ maxSize) :
    consume (inChunks b n .chunkSizeNewLine content size ds) LF =
      (.ret .incomplete, inChunks b n
        (if number 16 ds = 0 then .chunkSizeNewLine2 else .chunkData) content (number 16 ds) []) := by
  have hmax : maxSize = 2 ^ 62 - 1 := rfl
  have e : toSize (strtol 16 ds) = number 16 ds := by
    rw [toSize_strtol_digits hd, min_eq_left (by unfold LONG_MAX; omega)]
  have hmod : (content.length + number 16 ds) % 2 ^ 64 ≤ maxSize := by
    rw [Nat.mod_eq_of_lt (by omega)]; exact hle
  simp only [consume, inChunks, if_true, endChunkSize, e, hmod, next]

lemma reads_data (data : List UInt8) (hne : data ≠ []) (hn : data.length < 2 ^ 64) :
    Reads (inChunks b n .chunkData content data.length []) data
      (inChunks b n .chunkDataNewLine1 (content ++ data) 0 []) := by
  let f ys := inChunks b n (if ys.length < data.length then .chunkData else .chunkDataNewLine1)
    (content ++ ys) (data.length - ys.length) []
  have hpos : 0 < data.length := List.length_pos_iff.2 hne
  have collect : Reads (f []) data (f data) := by
    apply Reads.collect
    · intro ys
      simp only [f, inChunks]
      split <;> rfl
    · intro ys c zs e
      have hlen : data.length = ys.length + (zs.length + 1) := by simp [e]
      have hpred : predSize (data.length - ys.length) = data.length - (ys ++ [c]).length := by
        have := predSize_add_one (n := data.length - ys.length) (by omega) (by omega)
        simp only [List.length_append, List.length_singleton]
        omega
      have hlt : ys.length < data.length := by omega
      simp only [f, consume, inChunks, hlt, if_true, hpred, List.append_assoc]
      split_ifs with h0 h1 h1
      · omega
      · rfl
      · rfl
      · omega
  simpa [f, hpos] using collect

lemma reads_chunk (c : Chunk) (hle : (content ++ c.data).length ≤ maxSize) :
    Reads (inChunks b n .chunkSize content 0 []) c.render
      (inChunks b n .chunkSize (content ++ c.data) 0 []) := by
  have hmax : maxSize = 2 ^ 62 - 1 := rfl
  have hne := c.data_ne
  rw [List.length_append] at hle
  have h1 := reads_sizeLine b n content c.line 0
  have h2 : Reads (inChunks b n .chunkSizeNewLine content 0 c.line.size) [LF]
      (inChunks b n .chunkData content c.data.length []) := by
    have := consume_sizeLine b n content c.line.size_ok 0
      (by rw [c.size_eq]; exact hle)
    rw [c.size_eq, if_neg (by simpa using hne)] at this
    exact .step this rfl (.nil _)
  have h3 := reads_data b n content c.data hne (by omega)
  have h4 : Reads (inChunks b n .chunkDataNewLine1 (content ++ c.data) 0 []) CRLF
      (inChunks b n .chunkSize (content ++ c.data) 0 []) :=
    .step rfl rfl (Reads.char rfl rfl)
  have := ((h1.append h2).append h3).append h4
  simpa [Chunk.render, CRLF] using this

/-- All chunks of a body, whose data is appended to the content. -/
lemma reads_chunks (cs : List Chunk) (hle : (content ++ cs.flatMap Chunk.data).length ≤ maxSize) :
    Reads (inChunks b n .chunkSize content 0 []) (cs.flatMap Chunk.render)
      (inChunks b n .chunkSize (content ++ cs.flatMap Chunk.data) 0 []) := by
  induction cs generalizing content with
  | nil => simpa using Run.nil _
  | cons c cs ih =>
    rw [List.flatMap_cons, ← List.append_assoc] at hle
    have h1 := reads_chunk b n content c
      (by rw [List.length_append] at hle; omega)
    simpa using h1.append (ih _ hle)

/-- A trailer line. Its line feed runs the code of a size line, over an empty text. -/
lemma reads_trailer (t : Trailer) (hle : content.length ≤ maxSize) :
    Reads (inChunks b n .chunkSizeNewLine2 content 0 []) t.render
      (inChunks b n .chunkSizeNewLine2 content 0 []) := by
  obtain ⟨c, cs, e, hc, hcs⟩ := t.name_ok
  have h1 : Reads (inChunks b n .chunkSizeNewLine2 content 0 []) [c]
      (inChunks b n .chunkTrailerName content 0 []) := by
    have hcr : c ≠ CR := ne_of_isalnum (by simp [isalnum, hc]) (.inl (by decide))
    exact Reads.char (by simp [consume, inChunks, hcr, hc, next]) rfl
  have h2 : Reads (inChunks b n .chunkTrailerName content 0 []) cs
      (inChunks b n .chunkTrailerName content 0 []) := by
    refine Reads.skip rfl fun d hd => ?_
    simp [consume, inChunks, hcs d hd, next]
  have h3 : Reads (inChunks b n .chunkTrailerName content 0 []) [':'.toUInt8]
      (inChunks b n .chunkTrailerValue content 0 []) :=
    Reads.char rfl rfl
  have h4 : Reads (inChunks b n .chunkTrailerValue content 0 []) t.value
      (inChunks b n .chunkTrailerValue content 0 []) := by
    refine Reads.skip rfl fun d hd => ?_
    have : isalnum d ∨ d = SP := by simpa [isText] using t.value_ok d hd
    simp [consume, inChunks, this, next]
  have h5 : Reads (inChunks b n .chunkTrailerValue content 0 []) CRLF
      (inChunks b n .chunkSizeNewLine2 content 0 []) := by
    have lf : consume (inChunks b n .chunkSizeNewLine content 0 []) LF =
        (.ret .incomplete, inChunks b n .chunkSizeNewLine2 content 0 []) :=
      consume_sizeLine b n content (fun d hd => absurd hd (List.not_mem_nil)) 0 hle
    exact .step rfl rfl (.step lf rfl (.nil _))
  have := (((h1.append h2).append h3).append h4).append h5
  simpa [Trailer.render, e] using this

lemma reads_trailers (ts : List Trailer) (hle : content.length ≤ maxSize) :
    Reads (inChunks b n .chunkSizeNewLine2 content 0 []) (ts.flatMap Trailer.render)
      (inChunks b n .chunkSizeNewLine2 content 0 []) := by
  induction ts with
  | nil => exact .nil _
  | cons t ts ih =>
    rw [List.flatMap_cons]
    exact (reads_trailer b n content t hle).append ih

lemma completes_chunked (body : ChunkedBody) (hle : body.content.length ≤ maxSize) :
    Completes (inChunks b n .chunkSize [] 0 []) body.render
      (inChunks b n .chunkSizeNewLine3 body.content 0 []) := by
  have h1 : Reads (inChunks b n .chunkSize [] 0 []) (body.chunks.flatMap Chunk.render)
      (inChunks b n .chunkSize body.content 0 []) :=
    reads_chunks b n [] body.chunks hle
  have h2 := reads_sizeLine b n body.content body.last 0
  have h3 : Reads (inChunks b n .chunkSizeNewLine body.content 0 body.last.size) [LF]
      (inChunks b n .chunkSizeNewLine2 body.content 0 []) := by
    have := consume_sizeLine b n body.content body.last.size_ok 0
      (by rw [body.last_eq]; exact hle)
    rw [body.last_eq] at this
    exact .step this rfl (.nil _)
  have h4 := reads_trailers b n body.content body.trailers hle
  have h5 : Completes (inChunks b n .chunkSizeNewLine2 body.content 0 []) CRLF
      (inChunks b n .chunkSizeNewLine3 body.content 0 []) :=
    Run.halt (Reads.char rfl rfl)
      (Completes.last rfl rfl)
  have := (((h1.append h2).append h3).append h4).halt h5
  simpa [ChunkedBody.render, CRLF] using this

end Chunks

/-! ## Whole messages -/

/-- The request that a message stands for, read by a parser with the flag `k`. -/
def Message.buffer (m : Message) (k : Bool) : RequestBuffer :=
  RequestBuffer.setKeepAlive
    { method := m.head.line.method, uri := m.head.line.uri,
      httpVersionMajor := number 10 m.head.line.major, httpVersionMinor := number 10 m.head.line.minor,
      keepAlive := k, headers := m.head.sect.headers, content := m.body.content }

/-- The empty line and the body behind a header section. -/
lemma completes_body {l : RequestLine} {k : Bool} {s : Section} (body : Body) (ok : body.Fits s)
    (hs : s.contentSize ≤ maxSize) :
    ∃ q, Completes (atLine l k s) (CRLF ++ body.render) q ∧
      q.req = RequestBuffer.setKeepAlive { (atLine l k s).req with content := body.content } := by
  have h1 : Reads (atLine l k s) [CR] (inHeader l k .expectingNewline3 s) :=
    Reads.char rfl rfl
  have strict : Strict (inHeader l k .expectingNewline3 s) LF :=
    ⟨fun _ => rfl, fun h => by simp [inHeader] at h⟩
  let b := { (atLine l k s).req with keepAlive := (atLine l k s).req.keepAliveDecision.getD k }
  have hb : (inHeader l k .expectingNewline3 s).req.setKeepAlive = b := setKeepAlive_eq _
  have hq : ∀ c, { b with content := c } =
      RequestBuffer.setKeepAlive { (atLine l k s).req with content := c } :=
    fun c => (setKeepAlive_eq { (atLine l k s).req with content := c }).symm
  cases body with
  | sized content =>
    obtain ⟨hch, hlen⟩ := ok
    have hch' : (inHeader l k .expectingNewline3 s).chunked = false := hch
    have hlen' : (inHeader l k .expectingNewline3 s).contentSize = content.length := hlen
    by_cases hne : content = []
    · subst hne
      refine ⟨{ inHeader l k .expectingNewline3 s with req := b }, ?_, hq []⟩
      refine h1.halt (.one ?_ (by simp) strict)
      simp only [consume, endHeaders, hb, hch', hlen', done]
      rfl
    · have h2 : Reads (inHeader l k .expectingNewline3 s) [LF] (inSized b content.length []) := by
        refine .one ?_ strict
        have h0 : content.length ≠ 0 := by simpa using hne
        simp only [consume, endHeaders, hb, hch', hlen', h0, if_false, next]
        simp only [inHeader, atLine, hch]
        rfl
      have h3 := completes_sized b content hne (by rw [← hlen]; unfold maxSize at hs; omega)
      refine ⟨inSized b 0 content, ?_, hq content⟩
      simpa [CRLF, Body.render] using (h1.append h2).halt h3
  | chunked body =>
    obtain ⟨hch, hle⟩ := ok
    have hch' : (inHeader l k .expectingNewline3 s).chunked = true := hch
    have h2 : Reads (inHeader l k .expectingNewline3 s) [LF]
        (inChunks b s.contentSize .chunkSize [] 0 []) := by
      refine .one ?_ strict
      simp only [consume, endHeaders, hb, hch', if_true, next]
      simp only [inHeader, atLine, hch]
      rfl
    have h3 := completes_chunked b s.contentSize body hle
    refine ⟨inChunks b s.contentSize .chunkSizeNewLine3 body.content 0 [], ?_, hq body.content⟩
    simpa [CRLF, Body.render] using (h1.append h2).halt h3

/-- Accepted lines announce no content beyond the longest string. -/
lemma LinesOk.contentSize_le {body : Bool} {s : Section} {ls : List Line} (ok : LinesOk body s ls)
    (hs : s.contentSize ≤ maxSize) : (ls.foldl (Section.line body) s).contentSize ≤ maxSize := by
  induction ls generalizing s with
  | nil => exact hs
  | cons l ls ih => exact ih ok.2 ok.1.2

/-- An idle parser reads every message to its end, and holds the request the message stands for. -/
lemma completes_message (m : Message) (v : Int × Int) (k : Bool) :
    ∃ q, Completes (idle v k) m.render q ∧ q.req = m.buffer k := by
  have hs : m.head.sect.contentSize ≤ maxSize := m.head.lines_ok.contentSize_le (Nat.zero_le _)
  obtain ⟨q, h, e⟩ := completes_body (l := m.head.line) (k := k) m.body m.body_ok hs
  refine ⟨q, ?_, e⟩
  rw [Message.render, List.append_assoc]
  exact (reads_head m.head k v).halt h

end ArrowheadCore.Http
