import ArrowheadCore.Http.Reading

/-!
# Round trips

What is sent is what is read. The framing of a body is decided while the lines of the header section go by;
`Section.Framed` says what it amounts to in terms of the headers alone. With that, the two ways a client
frames a body give messages: `PlainRequest` with `Content-Length` and `ChunkedRequest` with
`Transfer-Encoding: chunked`. The two theorems at the end read them back.
-/

namespace ArrowheadCore.Http
open Lib RequestParser

/-! ## Framing by the headers -/

def Header.isLength (h : Header) : Bool := sameText h.name "Content-Length"

def Header.isEncoding (h : Header) : Bool := sameText h.name "Transfer-Encoding"

def Header.isChunked (h : Header) : Bool := h.isEncoding && sameText h.value "chunked"

/-- The header has chunks among its encodings. -/
def Header.NamesChunks (h : Header) : Prop := h.isEncoding ∧ bytes "chunked" <:+: h.value.map tolower

/-- The texts are equal up to letter case. -/
lemma sameText_iff {s : List UInt8} {t : String} (ht : 0 ∉ bytes t) :
    sameText s t ↔ (cStr s).map tolower = (bytes t).map tolower := by
  have hs : 0 ∉ cStr s := zero_cStr s
  rw [sameText, decide_eq_true_eq, strcasecmp_eq_zero_iff hs ht]

/-- No name is both. -/
lemma Header.isEncoding_of_isLength {h : Header} (hl : h.isLength) : h.isEncoding = false := by
  rw [Bool.eq_false_iff]
  intro he
  rw [Header.isLength, sameText_iff (by decide)] at hl
  rw [Header.isEncoding, sameText_iff (by decide), hl] at he
  revert he
  decide

lemma Header.NamesChunks.of_isChunked {h : Header} (hc : h.isChunked) : h.NamesChunks := by
  obtain ⟨he, hv⟩ := Bool.and_eq_true_iff.1 hc
  rw [sameText_iff (by decide)] at hv
  have hpre : (cStr h.value).map tolower <+: h.value.map tolower := (List.takeWhile_prefix _).map tolower
  rw [hv] at hpre
  exact ⟨he, hpre.isInfix⟩

/-- A value that grows still names what it named. -/
lemma Header.NamesChunks.append {h : Header} (hc : h.NamesChunks) (text : List UInt8) :
    Header.NamesChunks ⟨h.name, h.value ++ text⟩ := by
  obtain ⟨he, hv⟩ := hc
  refine ⟨he, ?_⟩
  rw [List.map_append]
  exact hv.trans (List.prefix_append _ _).isInfix

/-- What the last `Content-Length` converts to. -/
def lastLength (hs : List Header) : Nat :=
  match (hs.filter Header.isLength).getLast? with
  | some h => toSize (atoi h.value)
  | none => 0

@[simp] lemma lastLength_concat {hs : List Header} {h : Header} :
    lastLength (hs ++ [h]) = if h.isLength then toSize (atoi h.value) else lastLength hs := by
  unfold lastLength
  cases e : h.isLength
  · simp [e]
  · simp [e]

/-- The framing in terms of the headers; `body` says whether the method may carry a body. -/
structure Section.Framed (body : Bool) (s : Section) : Prop where
  size : s.contentSize = if body then lastLength s.headers else 0
  chunked : body → (∃ h ∈ s.headers, h.isChunked) → s.chunked
  encoding : s.chunked → body ∧ ∃ h ∈ s.headers, h.NamesChunks

lemma Section.finish_true (s : Section) (h : Header) :
    s.finish true h =
      if h.isLength then { s with contentSize := toSize (atoi h.value) }
      else if h.isEncoding then { s with chunked := s.chunked || sameText h.value "chunked" }
      else s := rfl

/-- Finishing the last header frames the section, if it was framed up to the value of that header. -/
lemma Section.Framed.finish {body : Bool} {s : Section} {hs h}
    (e : s.headers = hs ++ [h])
    (size : h.isLength = false → s.contentSize = if body then lastLength hs else 0)
    (zero : body = false → s.contentSize = 0)
    (chunked : body → (∃ h ∈ hs, h.isChunked) → s.chunked)
    (encoding : s.chunked → body ∧ ∃ h ∈ s.headers, h.NamesChunks) :
    Section.Framed body (s.finish body h) := by
  cases body with
  | false => exact ⟨by simpa [Section.finish] using zero rfl, by simp, encoding⟩
  | true =>
    rw [Section.finish_true]
    cases hl : h.isLength with
    | true =>
      have he := Header.isEncoding_of_isLength hl
      rw [if_pos rfl]
      refine ⟨by simp [e, hl], fun _ ⟨x, hx, hc⟩ => chunked rfl ?_, encoding⟩
      simp only [e, List.mem_append, List.mem_singleton] at hx
      obtain hx | rfl := hx
      · exact ⟨x, hx, hc⟩
      · simp [Header.isChunked, he] at hc
    | false =>
      have hsize := size hl
      rw [if_neg (by decide)]
      cases he : h.isEncoding with
      | true =>
        rw [if_pos rfl]
        refine ⟨by simpa [e, hl] using hsize, fun _ ⟨x, hx, hc⟩ => ?_, fun hc => ?_⟩
        · simp only [e, List.mem_append, List.mem_singleton] at hx
          obtain hx | rfl := hx
          · simp [chunked rfl ⟨x, hx, hc⟩]
          · simp only [Header.isChunked, he, Bool.true_and] at hc
            simp [hc]
        · obtain hc | hc := Bool.or_eq_true_iff.1 hc
          · exact encoding hc
          · have hx : h.isChunked := by simp [Header.isChunked, he, hc]
            exact ⟨rfl, h, by simp [e], .of_isChunked hx⟩
      | false =>
        rw [if_neg (by decide)]
        refine ⟨by simpa [e, hl] using hsize, fun _ ⟨x, hx, hc⟩ => chunked rfl ?_, encoding⟩
        simp only [e, List.mem_append, List.mem_singleton] at hx
        obtain hx | rfl := hx
        · exact ⟨x, hx, hc⟩
        · simp [Header.isChunked, he] at hc

lemma Section.Framed.line {body : Bool} {s : Section} (hs : s.Framed body) (l : Line)
    (ok : s.Accepts body l) : (s.line body l).Framed body := by
  cases l with
  | field f =>
    refine Section.Framed.finish rfl (fun _ => hs.size) (fun e => by simpa [e] using hs.size) hs.chunked ?_
    intro h
    obtain ⟨h1, x, hx, he⟩ := hs.encoding h
    exact ⟨h1, x, by simp [hx], he⟩
  | fold f =>
    obtain e | ⟨hs0, h, e⟩ := List.eq_nil_or_concat' s.headers
    · exact absurd e (ok.1 ⟨f, rfl⟩)
    rw [Section.line_fold f e]
    split
    · exact hs
    -- the value grows and the name stays, so only the value's own conversion has to be redone
    · refine Section.Framed.finish rfl ?_ (fun e => by simpa [e] using hs.size) ?_ ?_
      · intro hl
        have hl' : h.isLength = false := hl
        simpa [e, hl'] using hs.size
      · rintro hb ⟨x, hx, hc⟩
        exact hs.chunked hb ⟨x, by simp [e, hx], hc⟩
      · intro hc
        obtain ⟨hb, x, hx, he⟩ := hs.encoding hc
        refine ⟨hb, ?_⟩
        simp only [e, List.mem_append, List.mem_singleton] at hx
        obtain hx | rfl := hx
        · exact ⟨x, by simp [hx], he⟩
        · exact ⟨⟨x.name, x.value ++ f.text⟩, by simp, he.append f.text⟩

/-- So the framing of every head is the one of its headers. -/
lemma Head.framed (h : Head) : h.sect.Framed (hasBody h.line.method) := by
  suffices H : ∀ (body : Bool) (ls : List Line) (s : Section), s.Framed body → LinesOk body s ls →
      (ls.foldl (Section.line body) s).Framed body by
    refine H _ _ _ ⟨by simp [lastLength], by simp, by simp⟩ h.lines_ok
  intro body ls
  induction ls with
  | nil => exact fun s hs _ => hs
  | cons l ls ih => exact fun s hs ok => ih _ (hs.line l ok.1) ok.2

/-! ## Requests with `Content-Length` -/

def Field.header (f : Field) : Header := ⟨f.name, f.value⟩

@[simp] lemma Section.finish_headers (body : Bool) (s : Section) (h : Header) :
    (s.finish body h).headers = s.headers := by
  cases body
  · rfl
  · rw [Section.finish_true]
    split_ifs <;> rfl

lemma Section.finish_contentSize (body : Bool) (s : Section) (h : Header) :
    (s.finish body h).contentSize = s.contentSize ∨
      body ∧ h.isLength ∧ (s.finish body h).contentSize = toSize (atoi h.value) := by
  cases body
  · exact .inl rfl
  · rw [Section.finish_true]
    split_ifs with hl he
    · exact .inr ⟨rfl, hl, rfl⟩
    · exact .inl rfl
    · exact .inl rfl

/-- Lines without continuations are accepted when no `Content-Length` is beyond the longest string. -/
lemma linesOk_fields {body : Bool} {fs : List Field} {s : Section}
    (h : body → ∀ f ∈ fs, f.header.isLength → toSize (atoi f.value) ≤ maxSize)
    (hs : s.contentSize ≤ maxSize) : LinesOk body s (fs.map .field) := by
  induction fs generalizing s with
  | nil => trivial
  | cons f fs ih =>
    have hle : (s.line body (.field f)).contentSize ≤ maxSize := by
      obtain e | ⟨hb, hl, e⟩ :=
        Section.finish_contentSize body { s with headers := s.headers ++ [f.header] } f.header
      · exact e.trans_le hs
      · exact e.trans_le (h hb f (by simp) hl)
    refine ⟨⟨fun ⟨_, e⟩ => ?_, hle⟩, ih (fun hb g hg => h hb g (by simp [hg])) hle⟩
    cases e

lemma foldl_fields_headers (body : Bool) (fs : List Field) (s : Section) :
    ((fs.map Line.field).foldl (Section.line body) s).headers = s.headers ++ fs.map Field.header := by
  induction fs generalizing s with
  | nil => simp
  | cons f fs ih =>
    rw [List.map_cons, List.foldl_cons, ih, Section.line, Section.finish_headers]
    simp [Field.header]

/-- At most one `Content-Length`; a method that may carry a body has one of the length in decimal, if it
    has one at all. -/
def PlainFraming (method : List UInt8) (hs : List Header) (content : List UInt8) : Prop :=
  (hs.filter Header.isLength).length ≤ 1 ∧
    if hasBody method then
      ((∀ h ∈ hs, h.isLength = false) → content = []) ∧
        ∀ h ∈ hs, h.isLength → h.value ≠ [] ∧ (∀ d ∈ h.value, isDigitOf 10 d) ∧
          number 10 h.value = content.length ∧ content.length < 2 ^ 31
    else content = []

/-- A request whose body is framed by `Content-Length`. -/
structure PlainRequest where
  method : List UInt8
  uri : List UInt8
  major : Nat
  minor : Nat
  fields : List Field
  content : List UInt8
  method_ok : IsMethod method
  uri_ne : uri ≠ []
  uri_ok : ∀ c ∈ uri, isControl (promote c) = false ∧ c ≠ SP
  major_le : (major : Int) + 48 ≤ INT_MAX
  minor_le : (minor : Int) + 48 ≤ INT_MAX
  no_encoding : ∀ f ∈ fields, f.header.isEncoding = false
  framing : PlainFraming method (fields.map Field.header) content

namespace PlainRequest

def headers (r : PlainRequest) : List Header := r.fields.map Field.header

def render (r : PlainRequest) : List UInt8 :=
  r.method ++ SP :: (r.uri ++ SP ::
    (bytes "HTTP/" ++ (decimal r.major ++ '.'.toUInt8 :: decimal r.minor))) ++ CRLF ++
    r.fields.flatMap (fun f => f.name ++ ':'.toUInt8 :: SP :: f.value ++ CRLF) ++ CRLF ++ r.content

/-- Whether the connection is kept after the request. -/
def keepAlive (r : PlainRequest) : Bool :=
  match r.headers.find? (fun h => sameText h.name "Connection") with
  | some h => sameText h.value "keep-alive"
  | none => r.major = 1 ∧ r.minor = 1

/-- The only `Content-Length` converts to the length of the content. -/
lemma toSize_length (r : PlainRequest) (hb : hasBody r.method) {h : Header} (hh : h ∈ r.headers)
    (hl : h.isLength) : toSize (atoi h.value) = r.content.length ∧ r.content.length < 2 ^ 31 := by
  obtain ⟨-, h2⟩ := r.framing
  rw [if_pos hb] at h2
  obtain ⟨-, hd, hn, hlt⟩ := h2.2 h hh hl
  rw [toSize_atoi_digits hd (by omega), hn]
  exact ⟨rfl, hlt⟩

def line (r : PlainRequest) : RequestLine where
  method := r.method
  uri := r.uri
  major := decimal r.major
  minor := decimal r.minor
  method_ok := r.method_ok
  uri_ok := by
    obtain ⟨c, cs, e⟩ := List.exists_cons_of_ne_nil r.uri_ne
    exact ⟨c, cs, e, (r.uri_ok c (by simp [e])).1, fun d hd => r.uri_ok d (by simp [e, hd])⟩
  major_ok := ⟨decimal_ne_nil _, decimal_digits _, by rw [number_decimal]; exact r.major_le⟩
  minor_ok := ⟨decimal_ne_nil _, decimal_digits _, by rw [number_decimal]; exact r.minor_le⟩

def head (r : PlainRequest) : Head where
  line := r.line
  lines := r.fields.map .field
  lines_ok := by
    refine linesOk_fields (fun hb f hf hl => ?_) (Nat.zero_le _)
    obtain ⟨e, hlt⟩ := r.toSize_length hb (List.mem_map_of_mem hf) hl
    unfold maxSize
    have : toSize (atoi f.value) = r.content.length := e
    omega

lemma head_headers (r : PlainRequest) : r.head.sect.headers = r.headers :=
  foldl_fields_headers _ _ _

lemma fits (r : PlainRequest) : (Body.sized r.content).Fits r.head.sect := by
  have framed := r.head.framed
  refine ⟨?_, ?_⟩
  · rw [Bool.eq_false_iff]
    intro hc
    obtain ⟨-, h, hh, he⟩ := framed.encoding hc
    rw [head_headers] at hh
    obtain ⟨f, hf, rfl⟩ := List.mem_map.1 hh
    simp [Header.NamesChunks, r.no_encoding f hf] at he
  · rw [framed.size, head_headers]
    have hm : r.head.line.method = r.method := rfl
    rw [hm]
    obtain ⟨-, h2⟩ := r.framing
    cases hb : hasBody r.method
    · have h0 : r.content = [] := by simpa [hb] using h2
      simp [h0]
    · rw [if_pos rfl, lastLength]
      rw [if_pos hb] at h2
      split
      · rename_i h e
        obtain ⟨hh, hl⟩ := List.mem_filter.1 (List.mem_of_getLast? e)
        exact (r.toSize_length hb hh hl).1
      · rename_i e
        have none : ∀ h ∈ r.headers, h.isLength = false := by simpa using e
        simp [h2.1 none]

def message (r : PlainRequest) : Message := ⟨r.head, .sized r.content, r.fits⟩

lemma message_render (r : PlainRequest) : r.message.render = r.render := by
  simp [Message.render, message, Head.render, head, RequestLine.render, line, renderLines, render,
    Body.render, List.flatMap_map, Line.render]

end PlainRequest

/-- A message is read to its end and no further, and asks for more on the way. -/
lemma parse_message (m : Message) (v : Int × Int) (k : Bool) (rest : List UInt8) :
    (∀ n < m.render.length, ∃ p, (idle v k).parse (m.render.take n) = (.ret .incomplete, [], p)) ∧
      ∃ p, (idle v k).parse (m.render ++ rest) = (.ret .completed, rest, p) ∧
        p.inspect = m.buffer k := by
  obtain ⟨q, h, e⟩ := completes_message m v k
  refine ⟨fun n hn => ?_, q, ?_, e⟩
  · have whole := h.feed_eq []
    rw [List.append_nil, ← List.take_append_drop n m.render] at whole
    obtain ⟨p, hp⟩ := feed_proper_prefix whole (by simp) (by simp; omega)
    exact ⟨p, by rw [parse_eq_feed]; exact hp⟩
  · rw [parse_eq_feed]
    exact h.feed_eq rest

/-- The round trip of a request framed by `Content-Length`. -/
theorem plainRequest_round_trip (r : PlainRequest) (major minor : Int) (rest : List UInt8) :
    (∀ n < r.render.length, ∃ p,
      (fresh major minor).parse (r.render.take n) = (.ret .incomplete, [], p)) ∧
      ∃ p, (fresh major minor).parse (r.render ++ rest) = (.ret .completed, rest, p) ∧
        p.inspect =
          { method := r.method, uri := r.uri, httpVersionMajor := r.major, httpVersionMinor := r.minor,
            keepAlive := r.keepAlive, headers := r.headers, content := r.content } := by
  have h := parse_message r.message (major, minor) false rest
  rw [r.message_render] at h
  obtain ⟨h1, p, h2, e⟩ := h
  refine ⟨h1, p, h2, ?_⟩
  have hh := r.head_headers
  -- a new parser starts with the flag down, which is what is left when nothing decides it
  rw [e, Message.buffer, setKeepAlive_eq]
  simp only [PlainRequest.message, hh, RequestBuffer.keepAliveDecision, PlainRequest.keepAlive]
  simp only [PlainRequest.head, PlainRequest.line, number_decimal, Body.content]
  cases r.headers.find? (fun h => sameText h.name "Connection") with
  | some h => rfl
  | none => simp; split_ifs <;> simp_all

def lengthTwo : Field where
  name := bytes "Content-Length"
  value := bytes "2"
  name_ne := by decide
  name_ok := by decide
  value_ok := by decide

def putTwo : PlainRequest where
  method := bytes "PUT"
  uri := bytes "/a"
  major := 1
  minor := 1
  fields := [lengthTwo]
  content := bytes "ok"
  method_ok := ⟨'P'.toUInt8, bytes "UT", by decide, by decide, by decide⟩
  uri_ne := by decide
  uri_ok := by decide
  major_le := by decide
  minor_le := by decide
  no_encoding := by decide
  framing := by unfold PlainFraming; decide

theorem plainRequest_round_trip_putTwo :
    putTwo.render = bytes "PUT /a HTTP/1.1\r\nContent-Length: 2\r\n\r\nok" ∧
      ∃ p, (fresh 7 7).parse (putTwo.render ++ bytes "GET") = (.ret .completed, bytes "GET", p) ∧
        p.inspect.content = bytes "ok" ∧ p.inspect.keepAlive = true := by
  refine ⟨by decide, ?_⟩
  obtain ⟨-, p, h, e⟩ := plainRequest_round_trip putTwo 7 7 (bytes "GET")
  exact ⟨p, h, by rw [e]; rfl, by rw [e]; decide⟩

/-- HTTP/1.0 does not keep the connection, and the accumulator overflows before the largest `int`. -/
theorem plainRequest_not_kept_nor_every_int :
    (((fresh 0 0).parse (bytes "GET / HTTP/1.0\r\n\r\n")).1 = .ret .completed ∧
      ((fresh 0 0).parse (bytes "GET / HTTP/1.0\r\n\r\n")).2.2.inspect.keepAlive = false) ∧
      ((fresh 0 0).parse (bytes "GET / HTTP/2147483647.1\r\n\r\n")).1 = .raise .intOverflow := by
  decide +kernel

/-! ## Requests in chunks -/

def chunkedMessage (h : Head) (b : ChunkedBody) (hm : hasBody h.line.method)
    (te : ∃ x ∈ h.sect.headers, x.isChunked) (hle : b.content.length ≤ maxSize) : Message :=
  ⟨h, .chunked b, h.framed.chunked hm te, hle⟩

/-- Decoding undoes chunking. -/
theorem chunked_round_trip (h : Head) (b : ChunkedBody) (hm : hasBody h.line.method)
    (te : ∃ x ∈ h.sect.headers, x.isChunked) (hle : b.content.length ≤ maxSize)
    (major minor : Int) (rest : List UInt8) :
    (∀ n < (h.render ++ CRLF ++ b.render).length, ∃ p,
      (fresh major minor).parse ((h.render ++ CRLF ++ b.render).take n) = (.ret .incomplete, [], p)) ∧
      ∃ p, (fresh major minor).parse (h.render ++ CRLF ++ b.render ++ rest) =
          (.ret .completed, rest, p) ∧
        p.inspect.content = (b.chunks.map Chunk.data).flatten := by
  obtain ⟨h1, p, h2, e⟩ := parse_message (chunkedMessage h b hm te hle) (major, minor) false rest
  refine ⟨h1, p, h2, ?_⟩
  rw [e, Message.buffer, setKeepAlive_eq]
  exact List.flatMap_def

def encodingChunked : Field where
  name := bytes "Transfer-Encoding"
  value := bytes "Chunked"
  name_ne := by decide
  name_ok := by decide
  value_ok := by decide

def chunkedHead : Head where
  line := putTwo.line
  lines := [encodingChunked].map .field
  lines_ok := linesOk_fields (by decide) (by decide)

/-- A body of one chunk, sent as `0B;a=b`, and one trailer. -/
def chunkedHello : ChunkedBody where
  chunks :=
    [{ line := ⟨bytes "0B", bytes ";a=b", by decide, by decide,
        .value (n := bytes "a") (v := bytes "b") (by decide) (by decide)⟩,
       data := bytes "hello\r\nyou!", data_ne := by decide, size_eq := by decide }]
  last := ⟨bytes "00", [], by decide, by decide, .none⟩
  trailers :=
    [{ name := bytes "n1", value := bytes " v",
       name_ok := ⟨'n'.toUInt8, bytes "1", by decide, by decide, by decide⟩,
       value_ok := by decide }]
  last_eq := by decide

theorem chunked_round_trip_hello :
    chunkedHello.render = bytes "0B;a=b\r\nhello\r\nyou!\r\n00\r\nn1: v\r\n\r\n" ∧
      ∃ p, (fresh 0 0).parse (chunkedHead.render ++ CRLF ++ chunkedHello.render ++ bytes "GET") =
          (.ret .completed, bytes "GET", p) ∧
        p.inspect.content = bytes "hello\r\nyou!" := by
  refine ⟨by decide +kernel, ?_⟩
  obtain ⟨-, p, h, e⟩ := chunked_round_trip chunkedHead chunkedHello (by decide +kernel)
    ⟨encodingChunked.header, by decide +kernel, by decide +kernel⟩ (by decide +kernel) 0 0 (bytes "GET")
  exact ⟨p, h, by rw [e]; rfl⟩

/-- A chunk that no string can hold is an exception, and so is a `Content-Length` beside the chunks that
    converts to a negative `int`. -/
theorem chunked_too_long :
    ((fresh 0 0).parse
      (bytes "POST / HTTP/1.1\r\nTransfer-Encoding: chunked\r\n\r\n4000000000000000\r\n" ++
        (List.replicate (2 ^ 62) 0 ++ bytes "\r\n0\r\n\r\n"))).1 = .raise .lengthError ∧
      number 16 (bytes "4000000000000000") = 2 ^ 62 ∧
      ((fresh 0 0).parse (bytes "POST / HTTP/1.1\r\nContent-Length: 4294967295\r\n" ++
        bytes "Transfer-Encoding: chunked\r\n\r\n0\r\n\r\n")).1 = .raise .lengthError := by
  refine ⟨?_, by decide +kernel, by decide +kernel⟩
  -- the exception comes with the size line, whatever data follows
  have h : ∃ rest p, feed consume (.ret .incomplete) (fresh 0 0)
      (bytes "POST / HTTP/1.1\r\nTransfer-Encoding: chunked\r\n\r\n4000000000000000\r\n") =
        (.raise .lengthError, rest, p) :=
    ⟨_, _, Prod.ext (by decide +kernel) rfl⟩
  obtain ⟨rest, p, h⟩ := h
  rw [parse_eq_feed, feed_append_stop _ h (by simp)]

end ArrowheadCore.Http
