import ArrowheadCore.Http.Consume

/-!
# What a reset parser remembers

After `completed` the servlet moves the request out and calls `reset`, which clears every member of the
parser but three: `RequestBuffer::clear` leaves the two version numbers and `keepAlive` alone. So a reset
parser and a new one run in lockstep (`feed_withMemory`), and differ in these three members until the
following bytes write them: the versions at the slash of `HTTP/` or at the end of an HTTP/0.9 line,
`keepAlive` at the end of a header section that has a `Connection` header or belongs to HTTP/1.1.

`reset_outcome_iff` says exactly when nothing of the previous request shows.
-/

namespace ArrowheadCore.Http
open Lib
namespace RequestParser

/-- Everything a caller can see of a parse: the result, the bytes not read and the collected request. -/
def outcome (p : RequestParser) (xs : List UInt8) :
    (Outcome × List UInt8) × (List UInt8 × List UInt8) × (Int × Int) × (List Header × List UInt8) × Bool :=
  let (r, rest, q) := p.parse xs
  ((r, rest), (q.inspect.method, q.inspect.uri),
    (q.inspect.httpVersionMajor, q.inspect.httpVersionMinor),
    (q.inspect.headers, q.inspect.content), q.inspect.keepAlive)

/-- The states before the version numbers are written. -/
def beforeVersion (s : State) : Bool :=
  s ∈ [.requestMethodStart, .requestMethod, .requestUriStart, .requestUri, .requestHttpVersionH,
    .requestHttpVersionHt, .requestHttpVersionHtt, .requestHttpVersionHttp, .requestHttpVersionSlash]

/-- The character writes the version numbers: the slash of `HTTP/` or the end of an HTTP/0.9 line. -/
def WritesVersion (p : RequestParser) (c : UInt8) : Prop :=
  p.state = .requestHttpVersionSlash ∧ c = '/'.toUInt8 ∨ p.state = .requestUri ∧ c = CR

/-- The character ends a header section that says whether to keep the connection. -/
def DecidesKeepAlive (p : RequestParser) (_ : UInt8) : Prop :=
  p.state = .expectingNewline3 ∧
    ((∃ h ∈ p.req.headers, sameText h.name "Connection") ∨
      p.req.httpVersionMajor = 1 ∧ p.req.httpVersionMinor = 1)

/-- `p` with other version numbers and another keep-alive flag. -/
def withMemory (p : RequestParser) (v : Int × Int) (k : Bool) : RequestParser :=
  { p with req := { p.req with httpVersionMajor := v.1, httpVersionMinor := v.2, keepAlive := k } }

/-- Before the versions are written no character looks at what is remembered. -/
lemma consume_before (q : RequestParser) (v : Int × Int) (k : Bool) (c : UInt8)
    (hq : beforeVersion q.state) :
    ∃ v', consume (q.withMemory v k) c = ((consume q c).1, (consume q c).2.withMemory v' k) ∧
      (beforeVersion (consume q c).2.state ∨ v' = (consume q c).2.version) ∧
      (v' = (consume q c).2.version ↔ v = q.version ∨ WritesVersion q c) ∧
      (consume q c).2.req.keepAlive = q.req.keepAlive := by
  refine ⟨(consume (q.withMemory v k) c).2.version, ?_⟩
  unfold consume
  cases e : q.state
  all_goals simp [beforeVersion, e] at hq
  all_goals simp only [withMemory, e, next, fail, done]
  all_goals repeat' split
  all_goals
    simp_all [RequestParser.version, WritesVersion, beforeVersion, Prod.ext_iff, show SP ≠ CR by decide]

/-- Once the versions are written only the flag is left, and only the end of the headers writes it. -/
lemma consume_after (q : RequestParser) (k : Bool) (c : UInt8) (hq : beforeVersion q.state = false) :
    ∃ k', consume (q.withMemory q.version k) c =
        ((consume q c).1, (consume q c).2.withMemory (consume q c).2.version k') ∧
      (k' = (consume q c).2.req.keepAlive ↔ k = q.req.keepAlive ∨ DecidesKeepAlive q c) := by
  by_cases e : q.state = .expectingNewline3
  · have hd : DecidesKeepAlive q c ↔ q.req.keepAliveDecision.isSome := by
      rw [keepAliveDecision_isSome]
      simp [DecidesKeepAlive, e]
    have hk : (q.withMemory q.version k).req.setKeepAlive =
        { q.req.setKeepAlive with keepAlive := q.req.keepAliveDecision.getD k } := by
      rw [setKeepAlive_eq, setKeepAlive_eq]; rfl
    have hq' : consume (q.withMemory q.version k) c = endHeaders (q.withMemory q.version k) c := by
      simp [consume, withMemory, e]
    have hc : consume q c = endHeaders q c := by simp [consume, e]
    refine ⟨q.req.keepAliveDecision.getD k, ?_, ?_⟩
    · rw [hq', hc]
      simp only [endHeaders, hk]
      simp only [withMemory, setKeepAlive_eq q.req, next, done, fail]
      split
      · rfl
      · split
        · split <;> rfl
        · rfl
    · have hkeep : (consume q c).2.req.keepAlive = q.req.keepAliveDecision.getD q.req.keepAlive := by
        rw [hc]
        simp only [endHeaders, setKeepAlive_eq, next, done, fail]
        split
        · rfl
        · split
          · split <;> rfl
          · rfl
      rw [hd, hkeep]
      cases q.req.keepAliveDecision <;> simp
  · refine ⟨k, ?_⟩
    unfold consume
    cases e : q.state
    all_goals simp [beforeVersion, e] at hq
    all_goals simp only [withMemory, e, updateBack, endValue, endChunkSize, next, fail, done]
    all_goals repeat' split
    all_goals simp_all [RequestParser.version, DecidesKeepAlive]

/-- Two runs that differ in what is remembered stay in lockstep; each member becomes equal with the first
    character that writes it. -/
lemma feed_withMemory (q : RequestParser) (v : Int × Int) (k : Bool) (xs : List UInt8)
    (hq : beforeVersion q.state ∨ v = q.version) :
    ∃ v' k', feed consume (.ret .incomplete) (q.withMemory v k) xs =
        ((feed consume (.ret .incomplete) q xs).1, (feed consume (.ret .incomplete) q xs).2.1,
          (feed consume (.ret .incomplete) q xs).2.2.withMemory v' k') ∧
      (v' = (feed consume (.ret .incomplete) q xs).2.2.version ↔
        v = q.version ∨ Hits consume (.ret .incomplete) WritesVersion q xs) ∧
      (k' = (feed consume (.ret .incomplete) q xs).2.2.req.keepAlive ↔
        k = q.req.keepAlive ∨ Hits consume (.ret .incomplete) DecidesKeepAlive q xs) := by
  induction xs generalizing q v k with
  | nil => exact ⟨v, k, rfl, by simp, by simp⟩
  | cons c cs ih =>
    -- one character: the remembered members after it, and when they agree with those of `q`
    have one : ∃ v1 k1, consume (q.withMemory v k) c = ((consume q c).1, (consume q c).2.withMemory v1 k1) ∧
        (beforeVersion (consume q c).2.state ∨ v1 = (consume q c).2.version) ∧
        (v1 = (consume q c).2.version ↔ v = q.version ∨ WritesVersion q c) ∧
        (k1 = (consume q c).2.req.keepAlive ↔ k = q.req.keepAlive ∨ DecidesKeepAlive q c) := by
      by_cases hb : beforeVersion q.state
      · obtain ⟨v1, e, h1, h2, h3⟩ := consume_before q v k c hb
        refine ⟨v1, k, e, h1, h2, ?_⟩
        have : ¬DecidesKeepAlive q c := by
          rintro ⟨h, -⟩
          simp [beforeVersion, h] at hb
        simp [h3, this]
      · obtain rfl := hq.resolve_left hb
        obtain ⟨k1, e, h1⟩ := consume_after q k c (by simpa using hb)
        exact ⟨_, k1, e, .inr rfl, by simp, h1⟩
    obtain ⟨v1, k1, e, h1, h2, h3⟩ := one
    by_cases hgo : (consume q c).1 = .ret .incomplete
    · obtain ⟨v', k', e', h4, h5⟩ := ih (consume q c).2 v1 k1 h1
      refine ⟨v', k', ?_, ?_, ?_⟩
      · simp only [feed, e, hgo, if_true]
        exact e'
      · simp only [feed, hgo, if_true, hits_cons, h4, h2, or_assoc, true_and]
      · simp only [feed, hgo, if_true, hits_cons, h5, h3, or_assoc, true_and]
    · refine ⟨v1, k1, ?_, ?_, ?_⟩
      · simp only [feed, e, hgo, if_false]
      · simp only [feed, hgo, if_false, hits_cons, h2, false_and, or_false]
      · simp only [feed, hgo, if_false, hits_cons, h3, false_and, or_false]

/-- A parser that was used for any requests before, emptied by `request` and `reset`, gives on the
    following bytes exactly the outcome of a new parser iff these bytes write the version numbers or the
    old ones equal the new parser's, and these bytes decide `keepAlive` or it was false. -/
theorem reset_outcome_iff (p : RequestParser) (major minor : Int) (xs : List UInt8) :
    p.request.2.reset.outcome xs = (fresh major minor).outcome xs ↔
      (p.version = (major, minor) ∨
        Hits consume (.ret .incomplete) WritesVersion (fresh major minor) xs) ∧
      (p.req.keepAlive = false ∨
        Hits consume (.ret .incomplete) DecidesKeepAlive (fresh major minor) xs) := by
  obtain ⟨v', k', e, hv, hk⟩ :=
    feed_withMemory (fresh major minor) p.version p.req.keepAlive xs (.inl rfl)
  rw [show (fresh major minor).version = (major, minor) from rfl] at hv
  rw [show (fresh major minor).req.keepAlive = false from rfl] at hk
  rw [show (fresh major minor).withMemory p.version p.req.keepAlive = idle p.version p.req.keepAlive
    from rfl] at e
  rw [← hv, ← hk, request_reset, outcome, outcome, parse_eq_feed, parse_eq_feed, e]
  rcases feed consume (.ret .incomplete) (fresh major minor) xs with ⟨r, rest, q⟩
  obtain ⟨v1, v2⟩ := v'
  simp [withMemory, inspect, RequestParser.version, and_assoc]

/-- After an HTTP/1.1 request the same connection keeps an HTTP/1.0 request alive that a new parser would
    let close. -/
theorem reset_keeps_alive :
    ∃ p, (fresh 0 0).parse (bytes "GET / HTTP/1.1\r\n\r\n") = (.ret .completed, [], p) ∧
      (p.request.2.reset.outcome (bytes "GET / HTTP/1.0\r\n\r\n")).2.2.2.2 = true ∧
      ((fresh 0 0).outcome (bytes "GET / HTTP/1.0\r\n\r\n")).2.2.2.2 = false := by
  refine ⟨((fresh 0 0).parse (bytes "GET / HTTP/1.1\r\n\r\n")).2.2, ?_, ?_, ?_⟩
  all_goals decide

end RequestParser
end ArrowheadCore.Http
