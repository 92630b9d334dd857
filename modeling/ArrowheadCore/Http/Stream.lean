import ArrowheadCore.Http.Protocol
import ArrowheadCore.Http.Servlet

/-!
# The servlet over the byte stream

The servlet works on buffers and, inside a buffer, on whatever the last request left over. What it does over
the stream is simpler: one machine that takes a byte at a time (`Connection.step`), fed with the library's
`feed`. The two-level loop of the source refines that machine for every way of cutting the stream
(`servlet_eq`), so a fact about the machine is one about the servlet.
-/

namespace ArrowheadCore.Http
open Lib RequestParser

@[simp] lemma stream_cons (b : Buffer) (bs : List Buffer) : stream (b :: bs) = b.bytes ++ stream bs := by
  simp [stream]

namespace Connection

variable (c : Connection) (cert : Option X509)

/-- The servlet over one byte: `none` asks for the next one. -/
def step (s : Session) (b : UInt8) : Option Stop × Session :=
  match consume s.parser b with
  | (.ret .incomplete, p) => (none, { s with parser := p })
  | (.ret .completed, p) => c.complete cert { s with parser := p }
  | (.ret .failed, p) => (some .failed, c.refuse { s with parser := p })
  | (.raise f, p) => (some (.raised f), { s with parser := p })

/-- What the machine does after a call of the parser's loop. -/
def resume (s : Session) : Outcome × List UInt8 × RequestParser → Option Stop × List UInt8 × Session
  | (.ret .incomplete, _, p) => (none, [], { s with parser := p })
  | (.ret .completed, rest, p) =>
    match c.complete cert { s with parser := p } with
    | (none, s') => feed (c.step cert) none s' rest
    | (some e, s') => (some e, rest, s')
  | (.ret .failed, rest, p) => (some .failed, rest, c.refuse { s with parser := p })
  | (.raise f, rest, p) => (some (.raised f), rest, { s with parser := p })

variable {c cert}

/-- The machine runs the parser's loop and goes on from there. -/
lemma feed_step (s : Session) (xs : List UInt8) :
    feed (c.step cert) none s xs = c.resume cert s (s.parser.parse xs) := by
  induction xs generalizing s with
  | nil => rfl
  | cons b xs ih =>
    rcases e : consume s.parser b with ⟨r, p⟩
    rcases r with (_ | _ | _) | f
    case ret.incomplete =>
      have h : c.step cert s b = (none, { s with parser := p }) := by simp only [step, e]
      rw [feed_cons_go xs h, ih]
      simp only [parse, e]
      rcases parse p xs with ⟨(_ | _ | _) | f, rest, q⟩ <;> rfl
    case ret.completed =>
      have h : c.step cert s b = c.complete cert { s with parser := p } := by simp only [step, e]
      simp only [parse, e, resume]
      rcases hc : c.complete cert { s with parser := p } with ⟨_ | stop, s'⟩
      · rw [hc] at h
        exact feed_cons_go xs h
      · rw [hc] at h
        exact feed_cons_stop xs h (by simp)
    case ret.failed =>
      have h : c.step cert s b = (some .failed, c.refuse { s with parser := p }) := by simp only [step, e]
      simp only [parse, e, resume]
      exact feed_cons_stop xs h (by simp)
    case raise =>
      have h : c.step cert s b = (some (.raised f), { s with parser := p }) := by simp only [step, e]
      simp only [parse, e, resume]
      exact feed_cons_stop xs h (by simp)

lemma parse_completed_length {p q : RequestParser} {xs rest : List UInt8}
    (h : p.parse xs = (.ret .completed, rest, q)) : rest.length < xs.length := by
  rw [parse_eq_feed] at h
  obtain ⟨ys, b, s1, rfl, -⟩ := feed_last h (by simp)
  simp
  omega

lemma serveBuffer_eq (n : Nat) (s : Session) (buffer : List UInt8) (hn : buffer.length ≤ n) :
    c.serveBuffer cert n s buffer = feed (c.step cert) none s buffer := by
  -- a round of the loop takes at least one byte, so the bound is never what ends it
  induction n generalizing s buffer with
  | zero =>
    obtain rfl : buffer = [] := List.length_eq_zero_iff.1 (Nat.le_zero.1 hn)
    rfl
  | succ n ih =>
    rw [feed_step, serveBuffer]
    rcases e : s.parser.parse buffer with ⟨(_ | _ | _) | f, rest, p⟩
    case ret.completed =>
      have hlt := parse_completed_length e
      simp only [resume]
      rcases c.complete cert { s with parser := p } with ⟨_ | stop, s'⟩
      · by_cases hr : rest = []
        · simp [hr]
        · simp only [hr, ne_eq, not_false_eq_true, if_true]
          exact ih s' rest (by omega)
      · rfl
    case ret.incomplete =>
      have hr : rest = [] := by
        rw [parse_eq_feed] at e
        exact feed_go_rest e
      rw [hr]
      rfl
    case ret.failed => rfl
    case raise => rfl

/-- What the machine has done with a stream when it stops. -/
def serveFrom (c : Connection) (cert : Option X509) (s : Session) (xs : List UInt8) : Served :=
  let (stop, unread, s') := feed (c.step cert) none s xs
  ⟨stop.getD .endOfStream, unread, s'.trace⟩

lemma serveLoop_eq (s : Session) (buffers : List Buffer) :
    c.serveLoop cert s buffers =
      ((feed (c.step cert) none s (stream buffers)).1.getD .endOfStream,
        (feed (c.step cert) none s (stream buffers)).2) := by
  induction buffers generalizing s with
  | nil => rfl
  | cons b bs ih =>
    rw [serveLoop, serveBuffer_eq _ _ _ (Nat.le_refl _), stream_cons]
    rcases e : feed (c.step cert) none s b.bytes with ⟨_ | stop, rest, s'⟩
    · have hr := feed_go_rest e
      subst hr
      rw [feed_append_go _ e]
      exact ih s'
    · rw [feed_append_stop _ e (by simp)]
      rfl

/-! ## One request -/

def incoming (c : Connection) (cert : Option X509) (b : RequestBuffer) : Request where
  remoteAddress := c.address
  method := b.method
  uri := b.uri
  content := b.content
  cert := ⟨cert⟩

/-- What serving one completed request adds to the trace. -/
def visit (c : Connection) (cert : Option X509) (b : RequestBuffer) : List Event :=
  [.handle (c.incoming cert b), .reply b.keepAlive (c.reply (c.incoming cert b) b.keepAlive)] ++
    cert.toList.map .free

/-- Whether the reply to a request is sent. -/
def sends (c : Connection) (cert : Option X509) (trace : List Event) (b : RequestBuffer) : Bool :=
  let text := c.reply (c.incoming cert b) b.keepAlive
  text.length ≤ toSize (c.write (trace ++ [.handle (c.incoming cert b), .reply b.keepAlive text]) text)

lemma complete_eq (s : Session) :
    c.complete cert s =
      if c.sends cert s.trace s.parser.req then
        if s.parser.req.keepAlive then
          (none, ⟨idle s.parser.version true, s.trace ++ c.visit cert s.parser.req⟩)
        else (some .notKept, ⟨s.parser.request.2, s.trace ++ c.visit cert s.parser.req⟩)
      else (some .notSent, ⟨s.parser.request.2, s.trace ++ c.visit cert s.parser.req⟩) := by
  simp only [complete, request, RequestBuffer.toRequest, Request.setCert, X509Cert.moveAssign,
    X509Cert.destroy, Request.destroy, inspect, Option.toList_none, List.map_nil, List.append_nil,
    List.append_assoc]
  by_cases hs : c.sends cert s.trace s.parser.req
  · rw [if_pos hs]
    refine (if_neg (Nat.not_lt.2 (of_decide_eq_true hs))).trans ?_
    by_cases hk : s.parser.req.keepAlive
    · rw [if_pos hk, if_pos hk, ← hk]
      rfl
    · rw [if_neg hk, if_neg hk]
      rfl
  · rw [if_neg hs]
    exact if_pos (Nat.not_le.1 fun h => hs (decide_eq_true h))

/-- A byte that the servlet goes on after keeps its parser on the protocol: after `completed` the request is
    taken and the parser reset. -/
lemma step_reachable {s s' : Session} {b : UInt8} (h : Reachable .reading s.parser)
    (e : c.step cert s b = (none, s')) : Reachable .reading s'.parser := by
  obtain ⟨major, minor, run⟩ := h
  have read := run.tail (.consume b)
  unfold step at e
  rcases hc : consume s.parser b with ⟨(_ | _ | _) | f, p⟩
  all_goals rw [hc] at e read
  · have reset := (read.tail .request).tail .reset
    simp only [complete_eq] at e
    split_ifs at e with hs hk
    · cases e
      have hp : p.request.2.reset = idle p.version true := by rw [request_reset, hk]
      exact ⟨major, minor, hp ▸ reset⟩
    all_goals cases e
  · cases e
    exact ⟨major, minor, read⟩
  · cases e
  · cases e

end Connection

/-- At every byte of the stream the servlet's parser is in a state that its protocol reaches. -/
theorem servlet_parser_reachable (c : Connection) (cert : Option X509) (tr : List Event) (xs : List UInt8)
    (s : Session) (h : feed (c.step cert) none ⟨fresh c.memory.1 c.memory.2, tr⟩ xs = (none, [], s)) :
    Reachable .reading s.parser := by
  refine feed_inv (I := fun s => Reachable .reading s.parser) ?_ ⟨_, _, .refl⟩ h
  intro s b hs e
  exact Connection.step_reachable hs (Prod.ext e rfl)

/-- The servlet refines the machine on the stream, however the stream is cut. -/
lemma servlet_eq (c : Connection) (buffers : List Buffer) (h : c.accepted) :
    servlet c buffers =
      c.serveFrom c.certificate.1 ⟨fresh c.memory.1 c.memory.2, c.certificate.2⟩ (stream buffers) := by
  rw [servlet, if_pos h]
  simp only [Connection.serveLoop_eq]
  rfl

/-! ## How the stream is cut -/

/-- `SSL_write` succeeds on every reply of the handler. -/
def Connection.Sends (c : Connection) : Prop :=
  ∀ tr r k, (c.reply r k).length ≤ toSize (c.write tr (c.reply r k))

/-- As long as all replies are sent it does not matter by what writes. -/
lemma Connection.complete_sends {c : Connection} {w : List Event → List UInt8 → Int} (h : c.Sends)
    (hw : { c with write := w }.Sends) (cert : Option X509) (s : Session) :
    { c with write := w }.complete cert s = c.complete cert s := by
  unfold Connection.complete
  simp only [Nat.not_lt.2 (h _ _ _), if_false]
  rw [if_neg (Nat.not_lt.2 (hw _ _ _))]

/-- Two ways of cutting a stream into buffers, over any writes that succeed: the same requests are
    dispatched, answered with the same flags, and the servlet stops at the same byte for the same reason. -/
theorem servlet_segmentation (c : Connection) (w : List Event → List UInt8 → Int) (h : c.Sends)
    (hw : { c with write := w }.Sends) (bs bs' : List Buffer) (e : stream bs = stream bs') :
    requests (servlet c bs).trace = requests (servlet { c with write := w } bs').trace ∧
      flags (servlet c bs).trace = flags (servlet { c with write := w } bs').trace ∧
      (servlet c bs).unread = (servlet { c with write := w } bs').unread ∧
      (servlet c bs).stop = (servlet { c with write := w } bs').stop := by
  suffices H : servlet c bs = servlet { c with write := w } bs' by rw [H]; exact ⟨rfl, rfl, rfl, rfl⟩
  by_cases ha : c.accepted
  · have hstep : ∀ cert, { c with write := w }.step cert = c.step cert := by
      intro cert
      funext s b
      simp only [Connection.step, Connection.complete_sends h hw, Connection.refuse]
    rw [servlet_eq c bs ha, servlet_eq { c with write := w } bs' ha, e]
    simp only [Connection.serveFrom, hstep]
    rfl
  · simp [servlet, ha, e]

def okConnection : Connection where
  reply _ _ := bytes "ok"
  write _ text := text.length

/-- Two requests in one buffer, or cut at the end of the first. -/
theorem servlet_segmentation_pipelined :
    requests (servlet okConnection
        [⟨bytes "GET /a HTTP/1.1\r\n\r\nGET /b HTTP/1.1\r\n\r\n", by decide, by decide⟩]).trace =
      requests (servlet okConnection
        [⟨bytes "GET /a HTTP/1.1\r\n\r\n", by decide, by decide⟩,
          ⟨bytes "GET /b HTTP/1.1\r\n\r\n", by decide, by decide⟩]).trace ∧
      requests (servlet okConnection
        [⟨bytes "GET /a HTTP/1.1\r\n\r\n", by decide, by decide⟩,
          ⟨bytes "GET /b HTTP/1.1\r\n\r\n", by decide, by decide⟩]).trace =
        [(bytes "GET", bytes "/a", []), (bytes "GET", bytes "/b", [])] := by
  have sends : okConnection.Sends := by
    intro _ _ _
    show (bytes "ok").length ≤ toSize ((bytes "ok").length : Int)
    decide +kernel
  exact ⟨(servlet_segmentation okConnection okConnection.write sends sends _ _ (by decide +kernel)).1,
    by decide +kernel⟩

end ArrowheadCore.Http
