import ArrowheadCore.Http.Stream

/-!
# The peer's certificate

`SSL_get_peer_certificate` gives the servlet one reference to the certificate of its peer. Every request gets
an `X509Cert` around the same pointer, and its destructor gives the reference back; the servlet itself does
so only when the verification fails. `references` counts along a trace. The count comes out right iff the
certificate is refused or exactly one request is served.
-/

namespace ArrowheadCore.Http
open Lib RequestParser

/-- The references to `x` after an event, if there was none missing so far: a handler that is given the
    certificate may read it, which needs a reference, and so does giving one back. -/
def countReference (x : X509) : Option Nat → Event → Option Nat
  | some n, .peer y => if y = x then some (n + 1) else some n
  | some n, .free y => if y = x then (if n = 0 then none else some (n - 1)) else some n
  | some n, .handle r => if r.cert.cert = some x ∧ n = 0 then none else some n
  | n, _ => n

/-- The references that are left after a trace; `none` after a use without one. -/
def references (x : X509) (trace : List Event) : Option Nat := trace.foldl (countReference x) (some 0)

lemma references_append (x : X509) (tr tr' : List Event) :
    references x (tr ++ tr') = tr'.foldl (countReference x) (references x tr) := by
  simp [references]

lemma foldl_countReference_none (x : X509) (tr : List Event) :
    tr.foldl (countReference x) none = none := by
  induction tr with
  | nil => rfl
  | cons e tr ih => exact ih

/-- The count of a step without a certificate, or after a missing reference, does not change. -/
lemma Connection.step_references {c : Connection} {cert : Option X509} {x : X509} {n : Option Nat}
    (hn : n = none ∨ cert = none) (s : Session) (b : UInt8) (h : references x s.trace = n) :
    references x (c.step cert s b).2.trace = n := by
  have hvisit : ∀ r, (c.visit cert r).foldl (countReference x) n = n := by
    intro r
    obtain rfl | rfl := hn
    · exact foldl_countReference_none x _
    · cases n <;> simp [Connection.visit, countReference, Connection.incoming]
  unfold Connection.step
  rcases consume s.parser b with ⟨(_ | _ | _) | f, p⟩
  · simp only [Connection.complete_eq]
    split_ifs <;> simp only [references_append, h, hvisit]
  · exact h
  · simp only [Connection.refuse, references_append, h]
    cases n <;> rfl
  · exact h

lemma Connection.feed_references {c : Connection} {cert : Option X509} {x : X509} {n : Option Nat}
    (hn : n = none ∨ cert = none) (s : Session) (xs : List UInt8) (h : references x s.trace = n) :
    references x (feed (c.step cert) none s xs).2.2.trace = n :=
  feed_inv_last (I := fun s => references x s.trace = n) (fun s b h => step_references hn s b h) xs h

/-- A request with the certificate needs a reference and gives one back. -/
lemma Connection.visit_references (c : Connection) (x : X509) (b : RequestBuffer) (n : Option Nat) :
    (c.visit (some x) b).foldl (countReference x) n =
      n.bind fun n => if n = 0 then none else some (n - 1) := by
  cases n with
  | none => exact foldl_countReference_none x _
  | some n =>
    by_cases h0 : n = 0
    · simp [Connection.visit, Connection.incoming, countReference, h0]
    · simp [Connection.visit, Connection.incoming, countReference, h0]

lemma Connection.resume_references {c : Connection} {cert : Option X509} {x : X509} {n : Nat} (s : Session)
    (r : Outcome × List UInt8 × RequestParser) (hr : r.1 ≠ .ret .completed)
    (h : references x s.trace = some n) : references x (c.resume cert s r).2.2.trace = some n := by
  rcases r with ⟨(_ | _ | _) | f, rest, p⟩
  · exact absurd rfl hr
  · exact h
  · simp only [Connection.resume, Connection.refuse, references_append, h]
    rfl
  · exact h

/-- Once all references are given back, another request uses one that is missing. -/
lemma Connection.feed_references_zero {c : Connection} {x : X509} (s : Session) (xs : List UInt8)
    (h : references x s.trace = some 0) :
    references x (feed (c.step (some x)) none s xs).2.2.trace = some 0 ↔
      (s.parser.parse xs).1 ≠ .ret .completed := by
  rw [feed_step]
  by_cases hc : (s.parser.parse xs).1 = .ret .completed
  · rcases hp : s.parser.parse xs with ⟨r, rest, p⟩
    rw [hp] at hc
    obtain rfl : r = .ret .completed := hc
    have missing : references x (s.trace ++ c.visit (some x) p.req) = none := by
      rw [references_append, h, visit_references]
      rfl
    have gone : references x (c.resume (some x) s (.ret .completed, rest, p)).2.2.trace = none := by
      simp only [resume, complete_eq]
      cases c.sends (some x) s.trace p.req
      · exact missing
      · cases p.req.keepAlive
        · exact missing
        · exact feed_references (.inl rfl) _ rest missing
    simp [gone]
  · rw [resume_references s _ hc h]
    exact ⟨fun _ => hc, fun _ => rfl⟩

/-- Exactly one request is served: the stream completes one, and then its reply cannot be sent, or it does not
    keep the connection, or what follows completes no other. -/
def Connection.OneRequest (c : Connection) (x : X509) (xs : List UInt8) : Prop :=
  ∃ rest p, (fresh c.memory.1 c.memory.2).parse xs = (.ret .completed, rest, p) ∧
    (c.sends (some x) [.peer x] p.req = false ∨ p.req.keepAlive = false ∨
      ((idle p.version true).parse rest).1 ≠ .ret .completed)

/-- With a verified certificate, the count comes out at zero iff exactly one request is served. -/
lemma Connection.references_verified (c : Connection) (x : X509) (xs : List UInt8) :
    references x (c.serveFrom (some x) ⟨fresh c.memory.1 c.memory.2, [.peer x]⟩ xs).trace = some 0 ↔
      c.OneRequest x xs := by
  have one : references x [.peer x] = some 1 := by simp [references, countReference]
  simp only [serveFrom, feed_step]
  rcases hp : (fresh c.memory.1 c.memory.2).parse xs with ⟨r, rest, p⟩
  by_cases hc : r = .ret .completed
  -- the first request gives the only reference back; what matters is whether there is a second
  · subst hc
    have zero : references x ([.peer x] ++ c.visit (some x) p.req) = some 0 := by
      rw [references_append, one, visit_references]
      rfl
    have iff_one : c.OneRequest x xs ↔ c.sends (some x) [.peer x] p.req = false ∨
        p.req.keepAlive = false ∨ ((idle p.version true).parse rest).1 ≠ .ret .completed := by
      simp only [OneRequest, hp, Prod.mk.injEq, true_and]
      constructor
      · rintro ⟨_, _, ⟨rfl, rfl⟩, h⟩
        exact h
      · intro h
        exact ⟨rest, p, ⟨rfl, rfl⟩, h⟩
    rw [iff_one]
    simp only [resume, complete_eq]
    cases c.sends (some x) [.peer x] p.req with
    | false => exact ⟨fun _ => .inl rfl, fun _ => zero⟩
    | true =>
      cases p.req.keepAlive with
      | false => exact ⟨fun _ => .inr (.inl rfl), fun _ => zero⟩
      | true =>
        have again := feed_references_zero (c := c)
          ⟨idle p.version true, [.peer x] ++ c.visit (some x) p.req⟩ rest zero
        simpa using again
  · rw [resume_references ⟨fresh c.memory.1 c.memory.2, [.peer x]⟩ (r, rest, p) hc one]
    constructor
    · intro h
      cases h
    · rintro ⟨_, _, h, -⟩
      rw [hp] at h
      exact absurd (Prod.ext_iff.1 h).1 hc

/-- The reference to the peer's certificate is given back exactly once, with no use after that, iff the
    certificate was refused or exactly one request was served. -/
theorem certificate_released_once_iff (c : Connection) (buffers : List Buffer) :
    (∀ x, c.accepted → c.peer = some x → references x (servlet c buffers).trace = some 0) ↔
      ∀ x, c.accepted → c.peer = some x → c.verified → c.OneRequest x (stream buffers) := by
  refine forall_congr' fun x => forall_congr' fun ha => forall_congr' fun hx => ?_
  rw [servlet_eq c buffers ha]
  cases hv : c.verified with
  | false =>
    have hcert : c.certificate = (none, [.peer x, .free x]) := by simp [Connection.certificate, hx, hv]
    have zero : references x [.peer x, .free x] = some 0 := by simp [references, countReference]
    have kept : references x (c.serveFrom none ⟨fresh c.memory.1 c.memory.2, [.peer x, .free x]⟩
        (stream buffers)).trace = some 0 :=
      Connection.feed_references (.inr rfl) ⟨fresh c.memory.1 c.memory.2, [.peer x, .free x]⟩ _ zero
    simp [hcert, kept]
  | true =>
    have hcert : c.certificate = (some x, [.peer x]) := by simp [Connection.certificate, hx, hv]
    rw [hcert, Connection.references_verified]
    exact ⟨fun h _ => h, fun h => h rfl⟩

def peerConnection : Connection := { okConnection with peer := some ⟨7⟩ }

/-- The second of two requests uses a certificate that the first gave back, and without a request it is never
    given back. -/
theorem certificate_not_released_once :
    references ⟨7⟩ (servlet peerConnection
      [⟨bytes "GET /a HTTP/1.1\r\n\r\nGET /b HTTP/1.1\r\n\r\n", by decide, by decide⟩]).trace = none ∧
      references ⟨7⟩ (servlet peerConnection []).trace = some 1 := by
  decide +kernel

end ArrowheadCore.Http
