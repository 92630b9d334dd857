import ArrowheadCore.Http.RoundTrip
import ArrowheadCore.Http.Stream

/-!
# Pipelined requests

Requests that follow each other on one connection. A request with the body that its headers announce is a
message of the grammar (`Announces.fits`), a message is dispatched and leaves the parser idle right behind it
(`serve_message`), and so, by induction over the requests, every body is delivered with its own request and
the next request starts behind it.
-/

namespace ArrowheadCore.Http
open Lib RequestParser

/-! ## Bodies as the headers announce them -/

/-- The body that a method and its headers announce: in chunks, of the length that the last `Content-Length`
    says in decimal, or none. Only four methods have one. Chunks beside another encoding, as in
    `gzip, chunked`, are not covered. -/
inductive Announces (method : List UInt8) (hs : List Header) : Body → Prop where
  | chunked {b : ChunkedBody} : hasBody method → (∃ h ∈ hs, h.isChunked) → b.content.length ≤ maxSize →
    Announces method hs (.chunked b)
  | length {h : Header} {content : List UInt8} : hasBody method → (∀ h ∈ hs, ¬h.NamesChunks) →
    (hs.filter Header.isLength).getLast? = some h → h.value ≠ [] → (∀ d ∈ h.value, isDigitOf 10 d) →
    number 10 h.value = content.length → content.length < 2 ^ 31 → Announces method hs (.sized content)
  | nothing : hasBody method → (∀ h ∈ hs, ¬h.NamesChunks ∧ h.isLength = false) →
    Announces method hs (.sized [])
  | method : hasBody method = false → Announces method hs (.sized [])

/-- An announced body has the framing of the header section. -/
lemma Announces.fits {h : Head} {body : Body} (ha : Announces h.line.method h.sect.headers body) :
    body.Fits h.sect := by
  have framed := h.framed
  have plain : (∀ x ∈ h.sect.headers, ¬x.NamesChunks) → h.sect.chunked = false := by
    intro hx
    rw [Bool.eq_false_iff]
    intro hc
    obtain ⟨-, x, hm, he⟩ := framed.encoding hc
    exact hx x hm he
  cases ha with
  | chunked hb hc hle => exact ⟨framed.chunked hb hc, hle⟩
  | @length x content hb he hl hne hd hn hlt =>
    refine ⟨plain he, ?_⟩
    rw [framed.size, if_pos hb, lastLength, hl]
    show toSize (atoi x.value) = content.length
    rw [toSize_atoi_digits hd (by omega), hn]
  | nothing hb hx =>
    refine ⟨plain fun x hm => (hx x hm).1, ?_⟩
    have none : h.sect.headers.filter Header.isLength = [] := by
      rw [List.filter_eq_nil_iff]
      intro x hm hl
      simp [(hx x hm).2] at hl
    simp [framed.size, hb, lastLength, none]
  | method hb =>
    refine ⟨?_, by simp [framed.size, hb]⟩
    rw [Bool.eq_false_iff]
    intro hc
    obtain ⟨hb', -⟩ := framed.encoding hc
    simp [hb] at hb'

/-- A request with the body that it announces. -/
structure AnnouncedRequest where
  head : Head
  body : Body
  announces : Announces head.line.method head.sect.headers body

def AnnouncedRequest.message (r : AnnouncedRequest) : Message := ⟨r.head, r.body, r.announces.fits⟩

def AnnouncedRequest.parts (r : AnnouncedRequest) : List UInt8 × List UInt8 × List UInt8 :=
  (r.head.line.method, r.head.line.uri, r.body.content)

/-- The connection is kept after each of the requests; `k` is the flag the first of them finds. -/
def Kept : Bool → List AnnouncedRequest → Prop
  | _, [] => True
  | k, r :: rs => (r.message.buffer k).keepAlive = true ∧ Kept true rs

/-! ## Serving them -/

@[simp] lemma requests_append (tr tr' : List Event) : requests (tr ++ tr') = requests tr ++ requests tr' := by
  simp [requests]

lemma requests_visit (c : Connection) (cert : Option X509) (b : RequestBuffer) :
    requests (c.visit cert b) = [(b.method, b.uri, b.content)] := by
  cases cert <;> rfl

/-- A message that keeps the connection is dispatched as it is, and then either its reply is not sent or the
    servlet goes on right behind it with an idle parser. -/
lemma serve_message (c : Connection) (cert : Option X509) (r : AnnouncedRequest) (v : Int × Int) (k : Bool)
    (tr : List Event) (rest : List UInt8) (hk : (r.message.buffer k).keepAlive = true) :
    ∃ tr', requests tr' = requests tr ++ [r.parts] ∧
      (c.serveFrom cert ⟨idle v k, tr⟩ (r.message.render ++ rest) = ⟨.notSent, rest, tr'⟩ ∨
        ∃ v', c.serveFrom cert ⟨idle v k, tr⟩ (r.message.render ++ rest) =
          c.serveFrom cert ⟨idle v' true, tr'⟩ rest) := by
  obtain ⟨-, p, hp, e⟩ := parse_message r.message v k rest
  have hreq : p.req = r.message.buffer k := e
  refine ⟨tr ++ c.visit cert p.req, ?_, ?_⟩
  · rw [requests_append, requests_visit, hreq, Message.buffer, setKeepAlive_eq]
    rfl
  · have hfeed : feed (c.step cert) none ⟨idle v k, tr⟩ (r.message.render ++ rest) =
        c.resume cert ⟨idle v k, tr⟩ (.ret .completed, rest, p) := by
      rw [Connection.feed_step, hp]
    rw [← hreq] at hk
    simp only [Connection.serveFrom, hfeed, Connection.resume, Connection.complete_eq, hk, if_true]
    cases c.sends cert tr p.req with
    | true => exact .inr ⟨p.version, rfl⟩
    | false => exact .inl rfl

/-- All requests of a connection that keeps it. -/
lemma serve_messages (c : Connection) (cert : Option X509) (rs : List AnnouncedRequest) (v : Int × Int)
    (k : Bool) (tr : List Event) (rest : List UInt8) (kept : Kept k rs) :
    (∃ n ≤ rs.length, 0 < n ∧
      (c.serveFrom cert ⟨idle v k, tr⟩ (rs.flatMap (·.message.render) ++ rest)).stop = .notSent ∧
      requests (c.serveFrom cert ⟨idle v k, tr⟩ (rs.flatMap (·.message.render) ++ rest)).trace =
        requests tr ++ (rs.take n).map AnnouncedRequest.parts) ∨
      ∃ v' k' tr', requests tr' = requests tr ++ rs.map AnnouncedRequest.parts ∧
        c.serveFrom cert ⟨idle v k, tr⟩ (rs.flatMap (·.message.render) ++ rest) =
          c.serveFrom cert ⟨idle v' k', tr'⟩ rest := by
  induction rs generalizing v k tr with
  | nil => exact .inr ⟨v, k, tr, by simp, rfl⟩
  | cons r rs ih =>
    obtain ⟨hk, hrs⟩ := kept
    obtain ⟨tr1, h1, h | ⟨v1, h⟩⟩ := serve_message c cert r v k tr
      (rs.flatMap (·.message.render) ++ rest) hk
    · left
      rw [List.flatMap_cons, List.append_assoc, h]
      exact ⟨1, by simp, by simp, rfl, by simp [h1]⟩
    · rw [List.flatMap_cons, List.append_assoc, h]
      obtain ⟨n, hn, h0, hstop, hreq⟩ | ⟨v', k', tr', hreq, hserve⟩ := ih v1 true tr1 hrs
      · left
        exact ⟨n + 1, by simpa using hn, by simp, hstop, by rw [hreq, h1]; simp⟩
      · right
        exact ⟨v', k', tr', by rw [hreq, h1]; simp, hserve⟩

/-- However a stream of announced requests is cut: every body is delivered as the content of its request, in
    order, and what follows the last of them is read as the start of the next request. When a reply cannot be
    sent the servlet stops behind one of the requests. -/
theorem announced_bodies_delivered (c : Connection) (ha : c.accepted) (rs : List AnnouncedRequest)
    (kept : Kept false rs) (rest : List UInt8) (buffers : List Buffer)
    (hs : stream buffers = rs.flatMap (·.message.render) ++ rest) :
    (∃ n ≤ rs.length, 0 < n ∧ (servlet c buffers).stop = .notSent ∧
      requests (servlet c buffers).trace = (rs.take n).map AnnouncedRequest.parts) ∨
      ∃ v k tr, requests tr = rs.map AnnouncedRequest.parts ∧
        servlet c buffers = c.serveFrom c.certificate.1 ⟨idle v k, tr⟩ rest := by
  have h0 : requests c.certificate.2 = [] := by
    unfold Connection.certificate
    split
    · rfl
    · split <;> rfl
  rw [servlet_eq c buffers ha, hs]
  obtain ⟨n, hn, hpos, hstop, hreq⟩ | ⟨v, k, tr, hreq, hserve⟩ :=
    serve_messages c c.certificate.1 rs c.memory false c.certificate.2 rest kept
  · rw [h0, List.nil_append] at hreq
    exact .inl ⟨n, hn, hpos, hstop, hreq⟩
  · rw [h0, List.nil_append] at hreq
    exact .inr ⟨v, k, tr, hreq, hserve⟩

def announcedChunks : AnnouncedRequest where
  head := chunkedHead
  body := .chunked chunkedHello
  announces := .chunked (by decide) ⟨encodingChunked.header, by decide, by decide⟩ (by decide)

/-- Two of them in one buffer, with the start of a third request behind. -/
theorem announced_bodies_delivered_twice :
    requests (servlet okConnection
      [⟨announcedChunks.message.render ++ announcedChunks.message.render ++ bytes "GET", by decide,
        by decide +kernel⟩]).trace =
      [(bytes "PUT", bytes "/a", bytes "hello\r\nyou!"),
        (bytes "PUT", bytes "/a", bytes "hello\r\nyou!")] := by
  obtain ⟨n, hn, h0, hstop, -⟩ | ⟨v, k, tr, hreq, hserve⟩ := announced_bodies_delivered okConnection rfl
    [announcedChunks, announcedChunks] ⟨by decide, by decide, trivial⟩ (bytes "GET")
    [⟨announcedChunks.message.render ++ announcedChunks.message.render ++ bytes "GET", by decide,
      by decide +kernel⟩] (by simp [stream])
  · revert hstop
    decide +kernel
  · rw [hserve]
    exact hreq

/-- The body that a `GET` announces is parsed as the next request. So are the chunks of `gzip, chunked`,
    which cannot be parsed. -/
theorem announced_body_not_delivered :
    (requests (servlet okConnection
      [⟨bytes "GET /a HTTP/1.1\r\nContent-Length: 22\r\n\r\nGET /evil HTTP/1.1\r\n\r\n", by decide,
        by decide⟩]).trace =
      [(bytes "GET", bytes "/a", []), (bytes "GET", bytes "/evil", [])] ∧
      (bytes "GET /evil HTTP/1.1\r\n\r\n").length = 22) ∧
    requests (servlet okConnection
      [⟨bytes "PUT /a HTTP/1.1\r\nTransfer-Encoding: gzip, chunked\r\n\r\n1\r\na\r\n0\r\n\r\n", by decide,
        by decide⟩]).trace =
      [(bytes "PUT", bytes "/a", [])] ∧
    (servlet okConnection
      [⟨bytes "PUT /a HTTP/1.1\r\nTransfer-Encoding: gzip, chunked\r\n\r\n1\r\na\r\n0\r\n\r\n", by decide,
        by decide⟩]).stop = .failed := by
  decide +kernel

end ArrowheadCore.Http
