import ArrowheadCore.Http.RequestParser

/-!
# The servlet

Embedding of `HTTPSServer::servlet` (`http/serv/HTTPSServer.h`), which serves one connection. What the
servlet meets outside the repository is a `Connection`: the answers of the TLS library, the address of the
peer, and the reply of the handler as a function of the request. What the servlet does is a list of events.
The TLS library hands out the bytes of the stream in buffers; the list of them ends where `SSL_read` gives
no more bytes.

`SSL_write` gives an `int` that the source compares with a `std::size_t`. The peer's certificate is a
pointer that each request wraps in an `X509Cert`; the destructors of the requests free it.
-/

namespace ArrowheadCore.Http
open Lib RequestParser

/-- What the servlet does, as far as others can tell. -/
inductive Event where
  | peer (x : X509)
  | free (x : X509)
  | handle (r : Request)
  | reply (keepAlive : Bool) (text : List UInt8)
  | error (source reason : List UInt8)
  | refuse (text : List UInt8)
deriving DecidableEq, Repr

/-- Why the servlet stops serving. -/
inductive Stop where
  | refused
  | failed
  | notKept
  | notSent
  | endOfStream
  | raised (f : Fault)
deriving DecidableEq, Repr

/-- What a connection is to the servlet. -/
structure Connection where
  /-- `SSL_accept` gives 1. -/
  accepted : Bool := true
  /-- `SSL_get_peer_certificate`. -/
  peer : Option X509 := none
  /-- `SSL_get_verify_result` gives `X509_V_OK`. -/
  verified : Bool := true
  /-- `getpeername`, then `inet_ntoa`. -/
  address : List UInt8 := []
  /-- What the memory of the parser's version numbers holds. -/
  memory : Int × Int := (0, 0)
  /-- `Parent::handle`, then `Response::to_string`. -/
  reply : Request → Bool → List UInt8
  /-- `Response::from_stock(BadRequest)`, then `to_string`. -/
  badRequest : List UInt8 := []
  /-- `SSL_write` of a text after what has happened so far. -/
  write : List Event → List UInt8 → Int

/-- The bytes of one `SSL_read` into `char buffer[1024]`. -/
structure Buffer where
  bytes : List UInt8
  ne : bytes ≠ []
  le : bytes.length ≤ 1023

def stream (buffers : List Buffer) : List UInt8 := buffers.flatMap Buffer.bytes

/-- The local state of the servlet, and what it has done so far. -/
structure Session where
  parser : RequestParser
  trace : List Event := []

namespace Connection

variable (c : Connection) (cert : Option X509)

/-- The branch of a completed request: hand it to the handler, send the reply, and keep the connection or
    not. The request is destroyed at the end of the branch, whichever way it is left. -/
def complete (s : Session) : Option Stop × Session :=
  let (req, parser) := s.parser.request
  let (req, swapped) := { req with remoteAddress := c.address }.setCert ⟨cert⟩
  let keepAlive := parser.inspect.keepAlive
  let text := c.reply req keepAlive
  let trace := s.trace ++ swapped.map .free ++ [.handle req, .reply keepAlive text]
  let freed := trace ++ req.destroy.map .free
  -- an `int` against a `std::size_t`: the -1 of a failed write is a large number here
  if toSize (c.write trace text) < text.length then (some .notSent, ⟨parser, freed⟩)
  else if keepAlive then (none, ⟨parser.reset, freed⟩)
  else (some .notKept, ⟨parser, freed⟩)

/-- The branch of a request that cannot be parsed. -/
def refuse (s : Session) : Session :=
  { s with
    trace := s.trace ++ [.error c.address (bytes "Cannot parse request."), .refuse c.badRequest] }

/-- Serve the requests of one buffer: the loop of the label `keep_alive`. The first argument bounds its
    rounds. The answer is `none` when the next buffer is to be read. -/
def serveBuffer : Nat → Session → List UInt8 → Option Stop × List UInt8 × Session
  | 0, s, buffer => (none, buffer, s)
  | n + 1, s, buffer =>
    match s.parser.parse buffer with
    | (.ret .completed, rest, p) =>
      match c.complete cert { s with parser := p } with
      | (none, s') => if rest ≠ [] then serveBuffer n s' rest else (none, [], s')
      | (some e, s') => (some e, rest, s')
    | (.ret .failed, rest, p) => (some .failed, rest, c.refuse { s with parser := p })
    | (.ret .incomplete, rest, p) => (none, rest, { s with parser := p })
    | (.raise f, rest, p) => (some (.raised f), rest, { s with parser := p })

/-- The reading loop. -/
def serveLoop : Session → List Buffer → Stop × List UInt8 × Session
  | s, [] => (.endOfStream, [], s)
  | s, buffer :: buffers =>
    match c.serveBuffer cert buffer.bytes.length s buffer.bytes with
    | (none, _, s') => serveLoop s' buffers
    | (some e, rest, s') => (e, rest ++ stream buffers, s')

end Connection

/-- What a call of `servlet` comes to: why it stopped, the bytes of the stream it did not parse, and what it
    did. -/
structure Served where
  stop : Stop
  unread : List UInt8
  trace : List Event
deriving DecidableEq, Repr

/-- The certificate that the requests get, after its verification, and what was done to it. -/
def Connection.certificate (c : Connection) : Option X509 × List Event :=
  match c.peer with
  | none => (none, [])
  | some x => if c.verified then (some x, [.peer x]) else (none, [.peer x, .free x])

/-- Serve the connection (C++ `HTTPSServer::servlet`). -/
def servlet (c : Connection) (buffers : List Buffer) : Served :=
  if c.accepted then
    let (cert, trace) := c.certificate
    let (stop, unread, s) := c.serveLoop cert ⟨fresh c.memory.1 c.memory.2, trace⟩ buffers
    ⟨stop, unread, s.trace⟩
  else ⟨.refused, stream buffers, []⟩

/-- A request as it was dispatched: method, URI, content. -/
def Request.parts (r : Request) : List UInt8 × List UInt8 × List UInt8 := (r.method, r.uri, r.content)

/-- The requests that were handed to the handler. -/
def requests (trace : List Event) : List (List UInt8 × List UInt8 × List UInt8) :=
  trace.filterMap fun
    | .handle r => some r.parts
    | _ => none

/-- The keep-alive flags of the replies. -/
def flags (trace : List Event) : List Bool :=
  trace.filterMap fun
    | .reply keepAlive _ => some keepAlive
    | _ => none

end ArrowheadCore.Http
