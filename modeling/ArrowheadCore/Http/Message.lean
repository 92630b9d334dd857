import ArrowheadCore.Http.Consume

/-!
# Messages

The requests the parser is for, as data: a request line, the lines of the header section, a body. Each
type carries the proof that its texts are well formed, so that every value has a rendering the grammar
derives:

    message      = request-line CR LF (line CR LF)* CR LF body
    request-line = method SP uri SP "HTTP/" digits "." digits
    line         = name ":" SP value | blanks text
    body         = bytes | (size-line CR LF data CR LF)* size-line CR LF (trailer CR LF)* CR LF
    size-line    = hex-digits [";" name ["=" value]]

A line that starts with blanks continues the value of the header before it. What the lines of a section
amount to (the headers and the framing of the body) is `Section`.
-/

namespace ArrowheadCore.Http
open Lib

def CRLF : List UInt8 := [CR, LF]

/-! ## The request line -/

/-- A method letter followed by tokens. -/
def IsMethod (m : List UInt8) : Prop :=
  ∃ c cs, m = c :: cs ∧ isMethodStart (promote c) ∧ ∀ d ∈ cs, isToken d

/-- A non-empty text without control characters; a blank can only stand in front. -/
def IsUri (u : List UInt8) : Prop :=
  ∃ c cs, u = c :: cs ∧ isControl (promote c) = false ∧
    ∀ d ∈ cs, isControl (promote d) = false ∧ d ≠ SP

/-- A digit string whose value the accumulator of the parser can reach. -/
def IsVersion (ds : List UInt8) : Prop :=
  ds ≠ [] ∧ (∀ d ∈ ds, isDigitOf 10 d) ∧ (number 10 ds : Int) + 48 ≤ INT_MAX

/-- The first line of a request. -/
structure RequestLine where
  method : List UInt8
  uri : List UInt8
  major : List UInt8
  minor : List UInt8
  method_ok : IsMethod method
  uri_ok : IsUri uri
  major_ok : IsVersion major
  minor_ok : IsVersion minor

def RequestLine.render (l : RequestLine) : List UInt8 :=
  l.method ++ SP :: (l.uri ++ SP :: (bytes "HTTP/" ++ (l.major ++ '.'.toUInt8 :: l.minor)))

/-! ## The header section -/

/-- A line that starts a header. -/
structure Field where
  name : List UInt8
  value : List UInt8
  name_ne : name ≠ []
  name_ok : ∀ c ∈ name, isToken c
  value_ok : ∀ c ∈ value, isControl (promote c) = false

/-- A line that continues the header before it. -/
structure Fold where
  blanks : List UInt8
  text : List UInt8
  blanks_ne : blanks ≠ []
  blanks_ok : ∀ c ∈ blanks, c = SP ∨ c = HT
  text_ok : ∀ c ∈ text, isControl (promote c) = false
  text_head : text.head? ≠ some SP

/-- A line of the header section. -/
inductive Line where
  | field (f : Field)
  | fold (f : Fold)

def Line.render : Line → List UInt8
  | .field f => f.name ++ ':'.toUInt8 :: SP :: f.value
  | .fold f => f.blanks ++ f.text

/-- The headers of a section and the framing of the body they announce. -/
structure Section where
  headers : List Header := []
  contentSize : Nat := 0
  chunked : Bool := false

/-- A line of the header `h` is finished; `body` says whether the method may carry a body. -/
def Section.finish (body : Bool) (s : Section) (h : Header) : Section :=
  if body then
    if sameText h.name "Content-Length" then { s with contentSize := toSize (atoi h.value) }
    else if sameText h.name "Transfer-Encoding" then
      { s with chunked := s.chunked || sameText h.value "chunked" }
    else s
  else s

/-- What one more line makes of a section. -/
def Section.line (body : Bool) (s : Section) : Line → Section
  | .field f =>
    Section.finish body { s with headers := s.headers ++ [⟨f.name, f.value⟩] } ⟨f.name, f.value⟩
  | .fold f =>
    match s.headers.getLast? with
    | none => s
    | some h =>
      if f.text = [] then s
      else
        Section.finish body { s with headers := s.headers.dropLast ++ [⟨h.name, h.value ++ f.text⟩] }
          ⟨h.name, h.value ++ f.text⟩

lemma Section.line_fold {body : Bool} {s : Section} {hs h} (f : Fold) (e : s.headers = hs ++ [h]) :
    s.line body (.fold f) =
      if f.text = [] then s
      else
        Section.finish body { s with headers := hs ++ [⟨h.name, h.value ++ f.text⟩] }
          ⟨h.name, h.value ++ f.text⟩ := by
  simp [Section.line, e]

/-- A continuation has a header to continue, and no `Content-Length` is beyond the longest string. -/
def Section.Accepts (body : Bool) (s : Section) (l : Line) : Prop :=
  ((∃ f, l = .fold f) → s.headers ≠ []) ∧ (s.line body l).contentSize ≤ maxSize

/-- Every line of the list is accepted after those before it. -/
def LinesOk (body : Bool) : Section → List Line → Prop
  | _, [] => True
  | s, l :: ls => s.Accepts body l ∧ LinesOk body (s.line body l) ls

def renderLines (ls : List Line) : List UInt8 := ls.flatMap (fun l => l.render ++ CRLF)

/-! ## Bodies -/

/-- Characters of chunk extensions and trailer values. -/
def isText (c : UInt8) : Bool := isalnum c ∨ c = SP

/-- Nothing, `;name` or `;name=value`. -/
inductive IsExtension : List UInt8 → Prop where
  | none : IsExtension []
  | name {n : List UInt8} : (∀ c ∈ n, isText c) → IsExtension (';'.toUInt8 :: n)
  | value {n v : List UInt8} : (∀ c ∈ n, isText c) → (∀ c ∈ v, isText c) →
    IsExtension (';'.toUInt8 :: (n ++ '='.toUInt8 :: v))

/-- A chunk-size line. -/
structure SizeLine where
  size : List UInt8
  ext : List UInt8
  size_ne : size ≠ []
  size_ok : ∀ d ∈ size, isDigitOf 16 d
  ext_ok : IsExtension ext

def SizeLine.render (l : SizeLine) : List UInt8 := l.size ++ l.ext

/-- A chunk with data. -/
structure Chunk where
  line : SizeLine
  data : List UInt8
  data_ne : data ≠ []
  size_eq : number 16 line.size = data.length

def Chunk.render (c : Chunk) : List UInt8 := c.line.render ++ CRLF ++ (c.data ++ CRLF)

/-- A trailer line. -/
structure Trailer where
  name : List UInt8
  value : List UInt8
  name_ok : ∃ c cs, name = c :: cs ∧ isalpha c ∧ ∀ d ∈ cs, isalnum d
  value_ok : ∀ c ∈ value, isText c

def Trailer.render (t : Trailer) : List UInt8 := t.name ++ ':'.toUInt8 :: t.value ++ CRLF

/-- A body in chunks: the chunks, the zero-size line, the trailers. -/
structure ChunkedBody where
  chunks : List Chunk
  last : SizeLine
  trailers : List Trailer
  last_eq : number 16 last.size = 0

def ChunkedBody.content (b : ChunkedBody) : List UInt8 := b.chunks.flatMap Chunk.data

def ChunkedBody.render (b : ChunkedBody) : List UInt8 :=
  b.chunks.flatMap Chunk.render ++ (b.last.render ++ CRLF ++ (b.trailers.flatMap Trailer.render ++ CRLF))

/-- A body. -/
inductive Body where
  | sized (content : List UInt8)
  | chunked (b : ChunkedBody)

def Body.render : Body → List UInt8
  | .sized content => content
  | .chunked b => b.render

def Body.content : Body → List UInt8
  | .sized content => content
  | .chunked b => b.content

/-- The body has the framing that the header section announces, and a string can hold it. -/
def Body.Fits (s : Section) : Body → Prop
  | .sized content => s.chunked = false ∧ s.contentSize = content.length
  | .chunked b => s.chunked = true ∧ b.content.length ≤ maxSize

/-! ## Whole messages -/

/-- A request line with the lines of its header section. -/
structure Head where
  line : RequestLine
  lines : List Line
  lines_ok : LinesOk (hasBody line.method) {} lines

def Head.render (h : Head) : List UInt8 := h.line.render ++ CRLF ++ renderLines h.lines

/-- What the header section of a head amounts to. -/
def Head.sect (h : Head) : Section := h.lines.foldl (Section.line (hasBody h.line.method)) {}

/-- A request: a head, the empty line, a body. -/
structure Message where
  head : Head
  body : Body
  body_ok : body.Fits head.sect

def Message.render (m : Message) : List UInt8 := m.head.render ++ CRLF ++ m.body.render

end ArrowheadCore.Http
