import ArrowheadCore.Lib.CString

/-!
# Requests and the buffer they are collected in

Embedding of `http/crate/X509Cert.h`, `http/crate/Request.h` and `http/serv/RequestBuffer.h`. Strings are
byte lists, a pointer to a certificate is an `Option`. A string that C++ moves from is left empty, which
is what the strings of the target library do.

`X509Cert` owns the reference behind its pointer: its destructor calls `X509_free`. The functions that
run a destructor give the pointers they free, so that a caller can account for them.
-/

namespace ArrowheadCore.Http

/-- A certificate object of the TLS library, known by its address. -/
structure X509 where
  address : Nat
deriving DecidableEq, Repr

/-- Owning wrapper of a certificate pointer (C++ `X509Cert`). -/
structure X509Cert where
  cert : Option X509 := none
deriving DecidableEq, Repr

/-- The pointers freed by the destructor (C++ `~X509Cert`). -/
def X509Cert.destroy (c : X509Cert) : List X509 := c.cert.toList

/-- Move assignment swaps the pointers: the new target, then the new source (C++ `operator=`). -/
def X509Cert.moveAssign (c other : X509Cert) : X509Cert × X509Cert := (other, c)

/-- The request handed to the dispatcher (C++ `Request`). -/
structure Request where
  remoteAddress : List UInt8
  method : List UInt8
  uri : List UInt8
  content : List UInt8
  cert : X509Cert := {}
deriving DecidableEq, Repr

/-- Set the certificate; the parameter, which holds the old one after the move, is destroyed on return
    (C++ `Request::setCert`). -/
def Request.setCert (r : Request) (c : X509Cert) : Request × List X509 :=
  let (target, source) := r.cert.moveAssign c
  ({ r with cert := target }, source.destroy)

/-- The pointers freed when a request goes out of scope. -/
def Request.destroy (r : Request) : List X509 := r.cert.destroy

/-- HTTP header structure (C++ `RequestBuffer::Header`). -/
structure Header where
  name : List UInt8 := []
  value : List UInt8 := []
deriving DecidableEq, Repr

/-- A request received from a client (C++ `RequestBuffer`). The two version numbers have no initializer
    in the source, so every construction of a buffer has to say what they hold. -/
structure RequestBuffer where
  remoteAddress : List UInt8 := []
  method : List UInt8 := []
  uri : List UInt8 := []
  httpVersionMajor : Int
  httpVersionMinor : Int
  keepAlive : Bool := false
  headers : List Header := []
  content : List UInt8 := []
deriving DecidableEq, Repr

/-- Clear the internal state of the buffer (C++ `RequestBuffer::clear`). -/
def RequestBuffer.clear (b : RequestBuffer) : RequestBuffer :=
  { b with method := [], uri := [], headers := [], content := [] }

/-- Convert the buffer into a request, moving its strings out (C++ `RequestBuffer::to_request() &&`). -/
def RequestBuffer.toRequest (b : RequestBuffer) : Request × RequestBuffer :=
  ({ remoteAddress := b.remoteAddress, method := b.method, uri := b.uri, content := b.content },
    { b with remoteAddress := [], method := [], uri := [], content := [] })

end ArrowheadCore.Http
