import ArrowheadCore.Lib.Feed
import ArrowheadCore.Http.Request

/-!
# The request parser

Embedding of `http/serv/RequestParser.h` and `http/serv/RequestParser.cpp`: the byte-at-a-time state
machine `consume`, the loop `parse` around it, and `request`/`reset`.

C++ and Lean: an `int` is an `Int` and leaving its range is a fault, a `std::size_t` is a `Nat` kept below
`2 ^ 64`, a `char` is a `UInt8` that is promoted where the source passes it to a function taking `int`.
`consume` can end in three ways that are no `result_t`, collected in `Fault`: `reserve` throws
`std::length_error`, signed arithmetic overflows, `headers.back()` is taken of an empty vector. Memory
itself is not bounded.
-/

namespace ArrowheadCore.Http
open Lib

/-- Result of parsing (C++ `result_t`). -/
inductive Result where
  | completed
  | incomplete
  | failed
deriving DecidableEq, Repr

/-- What a call can do instead of returning. -/
inductive Fault where
  | lengthError
  | intOverflow
  | emptyBack
deriving DecidableEq, Repr

/-- How a call of `consume` or `parse` ends. -/
inductive Outcome where
  | ret (r : Result)
  | raise (f : Fault)
deriving DecidableEq, Repr

/-- The states of the parser (C++ `state_t`). -/
inductive State where
  | requestMethodStart
  | requestMethod
  | requestUriStart
  | requestUri
  | requestHttpVersionH
  | requestHttpVersionHt
  | requestHttpVersionHtt
  | requestHttpVersionHttp
  | requestHttpVersionSlash
  | requestHttpVersionMajorStart
  | requestHttpVersionMajor
  | requestHttpVersionMinorStart
  | requestHttpVersionMinor
  | requestHttpVersionNewLine
  | headerLineStart
  | headerLws
  | headerName
  | spaceBeforeHeaderValue
  | headerValue
  | expectingNewline2
  | expectingNewline3
  | post
  | chunkSize
  | chunkExtensionName
  | chunkExtensionValue
  | chunkSizeNewLine
  | chunkSizeNewLine2
  | chunkSizeNewLine3
  | chunkTrailerName
  | chunkTrailerValue
  | chunkDataNewLine1
  | chunkDataNewLine2
  | chunkData
deriving DecidableEq, Repr

/-- The parser object (C++ `RequestParser`). -/
structure RequestParser where
  state : State := .requestMethodStart
  req : RequestBuffer
  contentSize : Nat := 0
  chunked : Bool := false
  chunkSize : Nat := 0
  chunkSizeStr : List UInt8 := []
deriving DecidableEq, Repr

/-- A newly constructed parser. `RequestParser{}` zeroes the two version numbers, `RequestParser parser;`
    leaves whatever the memory held. -/
def RequestParser.fresh (major minor : Int) : RequestParser :=
  { req := { httpVersionMajor := major, httpVersionMinor := minor } }

/-! ## Characters -/

/-- HTTP characters (C++ `isChar`). -/
def isChar (c : Int) : Bool := c ≥ 0 ∧ c ≤ 127

/-- HTTP control characters (C++ `isControl`). -/
def isControl (c : Int) : Bool := (c ≥ 0 ∧ c ≤ 31) ∨ c = 127

/-- HTTP special characters (C++ `isSpecial`). -/
def isSpecial (c : Int) : Bool := c ∈ (bytes "()<>@,;:\\\"/[]?=\x7b\x7d \t").map promote

/-- Decimal digits (C++ `isDigit`). -/
def isDigit (c : Int) : Bool := c ≥ promote '0'.toUInt8 ∧ c ≤ promote '9'.toUInt8

/-- First letters of the HTTP methods (C++ `isMethodStart`). -/
def isMethodStart (c : Int) : Bool := c ∈ (bytes "GPDHCOT").map promote

/-- The characters of methods and header names: the guard `consume` repeats in four states. -/
def isToken (c : UInt8) : Bool := ¬(!isChar (promote c) || isControl (promote c) || isSpecial (promote c))

def CR : UInt8 := '\r'.toUInt8

def LF : UInt8 := '\n'.toUInt8

def SP : UInt8 := ' '.toUInt8

def HT : UInt8 := '\t'.toUInt8

/-! ## Machine integers -/

def INT_MAX : Int := 2 ^ 31 - 1

/-- The range of `int`. -/
def inInt (x : Int) : Bool := -2 ^ 31 ≤ x ∧ x ≤ INT_MAX

/-- Conversion to `std::size_t`. -/
def toSize (x : Int) : Nat := (x % 2 ^ 64).toNat

/-- Decrement of a `std::size_t`, which wraps below zero. -/
def predSize (n : Nat) : Nat := toSize ((n : Int) - 1)

/-- `std::string::max_size()` of the target library: `reserve` throws above it. -/
def maxSize : Nat := 2 ^ 62 - 1

/-- `n * 10 + input - '0'` in `int`, evaluated from left to right; `none` on overflow. -/
def accumulate (n : Int) (input : UInt8) : Option Int :=
  if inInt (n * 10) ∧ inInt (n * 10 + promote input)
      ∧ inInt (n * 10 + promote input - promote '0'.toUInt8) then
    some (n * 10 + promote input - promote '0'.toUInt8)
  else none

/-! ## Headers -/

/-- Case-insensitive equality through `c_str()`, as the source asks of `strcasecmp`. -/
def sameText (s : List UInt8) (t : String) : Bool := strcasecmp (cStr s) (bytes t) = 0

/-- Change the last header; `none` stands for `back()` of an empty vector. -/
def modifyBack (f : Header → Header) (hs : List Header) : Option (List Header) :=
  match hs.getLast? with
  | none => none
  | some h => some (hs.dropLast ++ [f h])

def Header.pushName (c : UInt8) (h : Header) : Header := { h with name := h.name ++ [c] }

def Header.pushValue (c : UInt8) (h : Header) : Header := { h with value := h.value ++ [c] }

/-- The methods whose requests may carry a body. -/
def hasBody (method : List UInt8) : Bool :=
  method = bytes "POST" ∨ method = bytes "PUT" ∨ method = bytes "PATCH" ∨ method = bytes "DELETE"

/-- Whether the connection is kept, decided at the end of the header section. Without a `Connection`
    header and outside HTTP/1.1 the flag stays what it was. -/
def RequestBuffer.setKeepAlive (b : RequestBuffer) : RequestBuffer :=
  match b.headers.find? (fun h => sameText h.name "Connection") with
  | some h => { b with keepAlive := sameText h.value "keep-alive" }
  | none =>
    if b.httpVersionMajor = 1 ∧ b.httpVersionMinor = 1 then { b with keepAlive := true } else b

namespace RequestParser

/-- Leave the switch: `consume` returns `incomplete`. -/
def next (p : RequestParser) : Outcome × RequestParser := (.ret .incomplete, p)

def fail (p : RequestParser) : Outcome × RequestParser := (.ret .failed, p)

def done (p : RequestParser) : Outcome × RequestParser := (.ret .completed, p)

/-- Append to the last header and go on. -/
def updateBack (p : RequestParser) (f : Header → Header) : Outcome × RequestParser :=
  match modifyBack f p.req.headers with
  | none => (.raise .emptyBack, p)
  | some hs => next { p with req.headers := hs }

/-- End of a header line: `Content-Length` and `Transfer-Encoding` of a request with a body set the
    framing (C++ `consume`, `HeaderValue` on a carriage return). -/
def endValue (p : RequestParser) : Outcome × RequestParser :=
  if hasBody p.req.method then
    match p.req.headers.getLast? with
    | none => (.raise .emptyBack, p)
    | some h =>
      if sameText h.name "Content-Length" then
        if toSize (atoi h.value) ≤ maxSize then
          next { p with contentSize := toSize (atoi h.value), state := .expectingNewline2 }
        else (.raise .lengthError, { p with contentSize := toSize (atoi h.value) })
      else if sameText h.name "Transfer-Encoding" then
        next { p with chunked := p.chunked || sameText h.value "chunked", state := .expectingNewline2 }
      else next { p with state := .expectingNewline2 }
  else next { p with state := .expectingNewline2 }

/-- End of the header section (C++ `consume`, `ExpectingNewline_3`). Only the branch without a body looks
    at the character. -/
def endHeaders (p : RequestParser) (input : UInt8) : Outcome × RequestParser :=
  let p := { p with req := p.req.setKeepAlive }
  -- the two branches with a body take any character for the line feed
  if p.chunked then next { p with state := .chunkSize }
  else if p.contentSize = 0 then (if input = LF then done p else fail p)
  else next { p with state := .post }

/-- End of a chunk-size line and of a trailer line (C++ `consume`, `ChunkSizeNewLine` on a line feed). -/
def endChunkSize (p : RequestParser) : Outcome × RequestParser :=
  let size := toSize (strtol 16 p.chunkSizeStr)
  let p := { p with chunkSize := size, chunkSizeStr := [] }
  if (p.req.content.length + size) % 2 ^ 64 ≤ maxSize then
    next { p with state := if size = 0 then .chunkSizeNewLine2 else .chunkData }
  else (.raise .lengthError, p)

/-- Handle the next character of the input (C++ `RequestParser::consume`). -/
def consume (p : RequestParser) (input : UInt8) : Outcome × RequestParser :=
  match p.state with
  | .requestMethodStart =>
    if isMethodStart (promote input) then
      next { p with state := .requestMethod, req.method := p.req.method ++ [input] }
    else fail p
  | .requestMethod =>
    if input = SP then next { p with state := .requestUriStart }
    else if !isToken input then fail p
    else next { p with req.method := p.req.method ++ [input] }
  | .requestUriStart =>
    if isControl (promote input) then fail p
    else next { p with state := .requestUri, req.uri := p.req.uri ++ [input] }
  | .requestUri =>
    if input = SP then next { p with state := .requestHttpVersionH }
    else if input = CR then done { p with req.httpVersionMajor := 0, req.httpVersionMinor := 9 }
    else if isControl (promote input) then fail p
    else next { p with req.uri := p.req.uri ++ [input] }
  | .requestHttpVersionH =>
    if input = 'H'.toUInt8 then next { p with state := .requestHttpVersionHt } else fail p
  | .requestHttpVersionHt =>
    if input = 'T'.toUInt8 then next { p with state := .requestHttpVersionHtt } else fail p
  | .requestHttpVersionHtt =>
    if input = 'T'.toUInt8 then next { p with state := .requestHttpVersionHttp } else fail p
  | .requestHttpVersionHttp =>
    if input = 'P'.toUInt8 then next { p with state := .requestHttpVersionSlash } else fail p
  | .requestHttpVersionSlash =>
    if input = '/'.toUInt8 then
      next { p with
        state := .requestHttpVersionMajorStart, req.httpVersionMajor := 0, req.httpVersionMinor := 0 }
    else fail p
  | .requestHttpVersionMajorStart =>
    if isDigit (promote input) then
      next { p with
        state := .requestHttpVersionMajor,
        req.httpVersionMajor := promote input - promote '0'.toUInt8 }
    else fail p
  | .requestHttpVersionMajor =>
    if input = '.'.toUInt8 then next { p with state := .requestHttpVersionMinorStart }
    else if isDigit (promote input) then
      match accumulate p.req.httpVersionMajor input with
      | none => (.raise .intOverflow, p)
      | some n => next { p with req.httpVersionMajor := n }
    else fail p
  | .requestHttpVersionMinorStart =>
    if isDigit (promote input) then
      next { p with
        state := .requestHttpVersionMinor,
        req.httpVersionMinor := promote input - promote '0'.toUInt8 }
    else fail p
  | .requestHttpVersionMinor =>
    if input = CR then next { p with state := .requestHttpVersionNewLine }
    else if isDigit (promote input) then
      match accumulate p.req.httpVersionMinor input with
      | none => (.raise .intOverflow, p)
      | some n => next { p with req.httpVersionMinor := n }
    else fail p
  | .requestHttpVersionNewLine =>
    if input = LF then next { p with state := .headerLineStart } else fail p
  | .headerLineStart =>
    if input = CR then next { p with state := .expectingNewline3 }
    else if p.req.headers ≠ [] ∧ (input = SP ∨ input = HT) then next { p with state := .headerLws }
    else if !isToken input then fail p
    else next { p with state := .headerName, req.headers := p.req.headers ++ [{ name := [input] }] }
  | .headerLws =>
    -- a line of blanks ends without a look at its header
    if input = CR then next { p with state := .expectingNewline2 }
    else if input = SP ∨ input = HT then next p
    else if isControl (promote input) then fail p
    else updateBack { p with state := .headerValue } (Header.pushValue input)
  | .headerName =>
    if input = ':'.toUInt8 then next { p with state := .spaceBeforeHeaderValue }
    else if !isToken input then fail p
    else updateBack p (Header.pushName input)
  | .spaceBeforeHeaderValue =>
    if input = SP then next { p with state := .headerValue } else fail p
  | .headerValue =>
    if input = CR then endValue p
    else if isControl (promote input) then fail p
    else updateBack p (Header.pushValue input)
  | .expectingNewline2 =>
    if input = LF then next { p with state := .headerLineStart } else fail p
  | .expectingNewline3 => endHeaders p input
  | .post =>
    let p := { p with
      contentSize := predSize p.contentSize, req.content := p.req.content ++ [input] }
    if p.contentSize = 0 then done p else next p
  | .chunkSize =>
    if isalnum input then next { p with chunkSizeStr := p.chunkSizeStr ++ [input] }
    else if input = ';'.toUInt8 then next { p with state := .chunkExtensionName }
    else if input = CR then next { p with state := .chunkSizeNewLine }
    else fail p
  | .chunkExtensionName =>
    if isalnum input ∨ input = SP then next p
    else if input = '='.toUInt8 then next { p with state := .chunkExtensionValue }
    else if input = CR then next { p with state := .chunkSizeNewLine }
    else fail p
  | .chunkExtensionValue =>
    if isalnum input ∨ input = SP then next p
    else if input = CR then next { p with state := .chunkSizeNewLine }
    else fail p
  -- trailer lines end here as well, with nothing in the chunk-size text
  | .chunkSizeNewLine => if input = LF then endChunkSize p else fail p
  | .chunkSizeNewLine2 =>
    if input = CR then next { p with state := .chunkSizeNewLine3 }
    else if isalpha input then next { p with state := .chunkTrailerName }
    else fail p
  | .chunkSizeNewLine3 => if input = LF then done p else fail p
  | .chunkTrailerName =>
    if isalnum input then next p
    else if input = ':'.toUInt8 then next { p with state := .chunkTrailerValue }
    else fail p
  | .chunkTrailerValue =>
    if isalnum input ∨ input = SP then next p
    else if input = CR then next { p with state := .chunkSizeNewLine }
    else fail p
  | .chunkData =>
    let p := { p with chunkSize := predSize p.chunkSize, req.content := p.req.content ++ [input] }
    if p.chunkSize = 0 then next { p with state := .chunkDataNewLine1 } else next p
  | .chunkDataNewLine1 =>
    if input = CR then next { p with state := .chunkDataNewLine2 } else fail p
  | .chunkDataNewLine2 =>
    if input = LF then next { p with state := .chunkSize } else fail p

/-- Parse the bytes up to the first result other than `incomplete`: the result, the bytes not read and
    the parser (C++ `RequestParser::parse`). -/
def parse (p : RequestParser) : List UInt8 → Outcome × List UInt8 × RequestParser
  | [] => (.ret .incomplete, [], p)
  | c :: cs =>
    match consume p c with
    | (.ret .incomplete, p') => parse p' cs
    | (r, p') => (r, cs, p')

/-- The data collected so far (C++ `RequestParser::inspect`). -/
def inspect (p : RequestParser) : RequestBuffer := p.req

/-- Move the parsed request out (C++ `RequestParser::request`). -/
def request (p : RequestParser) : Request × RequestParser :=
  let (r, b) := p.req.toRequest
  (r, { p with req := b })

/-- Reset the state of the parser (C++ `RequestParser::reset`). -/
def reset (p : RequestParser) : RequestParser :=
  { state := .requestMethodStart, contentSize := 0, chunkSizeStr := [], chunkSize := 0,
    chunked := false, req := p.req.clear }

end RequestParser

end ArrowheadCore.Http
