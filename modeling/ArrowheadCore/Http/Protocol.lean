import Mathlib.Logic.Relation
import ArrowheadCore.Http.Consume

/-!
# The parser under the servlet's protocol

`HTTPSServer::servlet` uses its parser in one way: it feeds bytes, in pieces of any size, until a result
other than `incomplete`; after `completed` it moves the request out and resets the parser; after `failed`
(or a fault) it feeds nothing more. `Move` is that protocol, one move a call, and `Reachable` its states
from a new parser.

Two invariants of the reachable states: `Rep` ties the hidden counters to the current state, `Clean` says
which characters the collected texts can hold. Each is kept by every move (`Rep.move`, `Clean.move`) and
so holds in every run.
-/

namespace ArrowheadCore.Http
open Lib RequestParser

/-- What the protocol does next: feed a byte, take the request, reset, or nothing. -/
inductive Phase where
  | reading
  | completed
  | taken
  | stopped
deriving DecidableEq, Repr

/-- The phase after a byte was fed. -/
def Phase.after : Outcome → Phase
  | .ret .incomplete => .reading
  | .ret .completed => .completed
  | _ => .stopped

/-- One call of the protocol. -/
inductive Move : Phase × RequestParser → Phase × RequestParser → Prop where
  | consume {p : RequestParser} (c : UInt8) :
    Move (.reading, p) (.after (consume p c).1, (consume p c).2)
  | request {p : RequestParser} :
    Move (.completed, p) (.taken, p.request.2)
  | reset {p : RequestParser} :
    Move (.taken, p) (.reading, p.reset)

/-- The states of all runs of the protocol from a new parser. -/
def Reachable (ph : Phase) (p : RequestParser) : Prop :=
  ∃ major minor, Relation.ReflTransGen Move (.reading, fresh major minor) (ph, p)

/-- Invariant rule: what a new parser has and every move keeps holds in every reachable state. -/
lemma Reachable.inv {I : Phase → RequestParser → Prop} (new : ∀ major minor, I .reading (fresh major minor))
    (move : ∀ {ph ph' p p'}, I ph p → Move (ph, p) (ph', p') → I ph' p') {ph p}
    (h : Reachable ph p) : I ph p := by
  obtain ⟨major, minor, h⟩ := h
  generalize e : (ph, p) = s at h
  induction h generalizing ph p with
  | refl => cases e; exact new major minor
  | @tail s1 s2 _ mv ih =>
    cases e
    exact move (ih rfl) mv

/-- Every prefix of a byte stream that the parser asks more after leads to a reachable state. -/
lemma reachable_parse {major minor xs p} (h : (fresh major minor).parse xs = (.ret .incomplete, [], p)) :
    Reachable .reading p := by
  rw [parse_eq_feed] at h
  refine feed_inv (I := Reachable .reading) ?_ ⟨major, minor, .refl⟩ h
  rintro q c ⟨a, b, hq⟩ e
  have mv := Move.consume (p := q) c
  rw [e] at mv
  exact ⟨a, b, hq.tail mv⟩

lemma reachable_completed {major minor xs rest p}
    (h : (fresh major minor).parse xs = (.ret .completed, rest, p)) : Reachable .completed p := by
  rw [parse_eq_feed] at h
  obtain ⟨ys, c, q, -, hq, e⟩ := feed_last h (by simp)
  rw [← parse_eq_feed] at hq
  obtain ⟨a, b, run⟩ := reachable_parse hq
  have mv := Move.consume (p := q) c
  rw [e] at mv
  exact ⟨a, b, run.tail mv⟩

/-! ## The representation invariant -/

/-- How the hidden members of the parser depend on its state. -/
structure Rep (ph : Phase) (p : RequestParser) : Prop where
  headers : p.state ∈ [.headerLws, .headerName, .spaceBeforeHeaderValue, .headerValue] →
    p.req.headers ≠ []
  post : p.state = .post → ph ≠ .completed → ph ≠ .taken → 0 < p.contentSize
  data : p.state = .chunkData → 0 < p.chunkSize
  str : p.chunkSizeStr ≠ [] →
    p.state ∈ [.chunkSize, .chunkExtensionName, .chunkExtensionValue, .chunkSizeNewLine]
  alnum : ∀ c ∈ p.chunkSizeStr, isalnum c
  contentSize_lt : p.contentSize < 2 ^ 64
  chunkSize_lt : p.chunkSize < 2 ^ 64

lemma Rep.consume {p} (h : Rep .reading p) (c : UInt8) :
    Rep (.after (consume p c).1) (consume p c).2 where
  headers e := by
    rcases consume_header_state p c e with h1 | h1
    · have hne := h.headers h1
      rcases consume_headers p c with h2 | ⟨h2, _⟩ | ⟨h2, _⟩ | ⟨h2, _⟩
      · rw [h2]; exact hne
      · simp [h2]
      all_goals
        obtain ⟨hs0, h0, _, e'⟩ := modifyBack_some h2
        simp [e']
    · exact h1
  post e ne _ := by
    -- the state is kept by the byte that ends the body, but then the phase is `completed`
    rcases (consume_contentSize p c).2 e with h1 | h1
    · exact Nat.pos_of_ne_zero h1
    · rw [h1] at ne
      exact absurd rfl ne
  data e := Nat.pos_of_ne_zero ((consume_chunkSize p c).2 e)
  str e := by
    rcases consume_chunkSizeStr p c with h1 | h1 | ⟨_, _, _, h1⟩
    · rw [h1] at e
      rcases consume_chunkSizeStr_state p c (h.str e) with h2 | h2
      · exact h2
      · exact absurd (h1.symm.trans h2) e
    · exact absurd h1 e
    · simp [h1]
  alnum d hd := by
    rcases consume_chunkSizeStr p c with h1 | h1 | ⟨h1, h2, _⟩
    · exact h.alnum d (h1 ▸ hd)
    · simp [h1] at hd
    · rw [h1, List.mem_append, List.mem_singleton] at hd
      rcases hd with hd | rfl
      · exact h.alnum d hd
      · exact h2
  contentSize_lt := by
    rcases (consume_contentSize p c).1 with h1 | h1
    · exact h1 ▸ h.contentSize_lt
    · exact h1
  chunkSize_lt := by
    rcases (consume_chunkSize p c).1 with h1 | h1
    · exact h1 ▸ h.chunkSize_lt
    · exact h1

/-- The content countdown does not wrap. -/
lemma Rep.post_countdown {p} (h : Rep .reading p) (c : UInt8) (e : p.state = .post) :
    (RequestParser.consume p c).2.contentSize + 1 = p.contentSize := by
  have e' : (RequestParser.consume p c).2.contentSize = predSize p.contentSize := by
    simp only [RequestParser.consume, e, done, next]; split <;> rfl
  rw [e']
  exact predSize_add_one (h.post e (by simp) (by simp)) h.contentSize_lt

/-- The chunk countdown does not wrap. -/
lemma Rep.data_countdown {p} (h : Rep .reading p) (c : UInt8) (e : p.state = .chunkData) :
    (RequestParser.consume p c).2.chunkSize + 1 = p.chunkSize := by
  have e' : (RequestParser.consume p c).2.chunkSize = predSize p.chunkSize := by
    simp only [RequestParser.consume, e, next]; split <;> rfl
  rw [e']
  exact predSize_add_one (h.data e) h.chunkSize_lt

lemma Rep.fresh (major minor : Int) : Rep .reading (fresh major minor) := by
  constructor <;> simp [RequestParser.fresh]

lemma Rep.move {ph ph' p p'} (h : Rep ph p) (mv : Move (ph, p) (ph', p')) : Rep ph' p' := by
  cases mv with
  | consume c => exact h.consume c
  | request => exact ⟨h.headers, fun _ _ ne => absurd rfl ne, h.data, h.str, h.alnum,
      h.contentSize_lt, h.chunkSize_lt⟩
  | reset => constructor <;> simp [RequestParser.reset]

lemma Reachable.rep {ph p} (h : Reachable ph p) : Rep ph p :=
  h.inv Rep.fresh Rep.move

/-- In every reachable state of the protocol the headers are non-empty inside a header line, the chunk
    countdown is positive in its state, the content countdown is positive unless the request was just
    completed, and the chunk-size text is empty outside a chunk-size line. So the next character never
    takes `back()` of an empty vector and never counts below zero, and the end of a trailer line finds the
    chunk-size text empty. -/
theorem reachable_representation {ph p} (h : Reachable ph p) :
    (p.state ∈ [.headerLws, .headerName, .spaceBeforeHeaderValue, .headerValue] → p.req.headers ≠ []) ∧
      (ph ≠ .completed → ph ≠ .taken → p.state = .post → 0 < p.contentSize) ∧
      (p.state = .chunkData → 0 < p.chunkSize) ∧
      (p.chunkSizeStr ≠ [] →
        p.state ∈ [.chunkSize, .chunkExtensionName, .chunkExtensionValue, .chunkSizeNewLine]) ∧
      (ph = .reading → ∀ c,
        (consume p c).1 ≠ .raise .emptyBack ∧
        (p.state = .post → (consume p c).2.contentSize + 1 = p.contentSize) ∧
        (p.state = .chunkData → (consume p c).2.chunkSize + 1 = p.chunkSize) ∧
        ((consume p c).2.state = .chunkSizeNewLine →
          p.state ∉ [.chunkSize, .chunkExtensionName, .chunkExtensionValue, .chunkSizeNewLine] →
          (consume p c).2.chunkSizeStr = [])) := by
  have rep := h.rep
  refine ⟨rep.headers, fun h1 h2 e => rep.post e h1 h2, rep.data, rep.str, ?_⟩
  rintro rfl c
  refine ⟨?_, rep.post_countdown c, rep.data_countdown c, ?_⟩
  · intro e
    obtain ⟨-, he, hs⟩ | ⟨hf, -⟩ | ⟨hf, -⟩ | ⟨hf, -⟩ := consume_raise p c _ e
    · exact rep.headers hs he
    all_goals cases hf
  · intro _ ne
    have e : p.chunkSizeStr = [] := by
      by_contra hne
      exact ne (rep.str hne)
    rcases consume_chunkSizeStr p c with h1 | h1 | ⟨_, _, h1, _⟩
    · rw [h1, e]
    · exact h1
    · rw [h1] at ne
      exact absurd (by simp) ne

/-- A request with a one-byte body, its last byte not yet read. -/
def postHead : List UInt8 := bytes "POST / HTTP/1.1\r\nContent-Length: 1\r\n\r\n"

theorem reachable_representation_post :
    ∃ p, Reachable .reading p ∧ p.state = .post ∧ 0 < p.contentSize := by
  have e : (fresh 0 0).parse postHead =
      (.ret .incomplete, [], ((fresh 0 0).parse postHead).2.2) := by decide +kernel
  have h : ((fresh 0 0).parse postHead).2.2.state = .post := by decide +kernel
  refine ⟨_, reachable_parse e, h, ?_⟩
  exact (reachable_representation (reachable_parse e)).2.1 (by simp) (by simp) h

/-- After the last byte of a body the parser stands in `Post` with nothing left to count. -/
theorem completed_post_counts_zero :
    ∃ p, Reachable .completed p ∧ p.state = .post ∧ p.contentSize = 0 := by
  have e : (fresh 0 0).parse (postHead ++ bytes "A") =
      (.ret .completed, [], ((fresh 0 0).parse (postHead ++ bytes "A")).2.2) := by decide +kernel
  exact ⟨_, reachable_completed e, by decide +kernel, by decide +kernel⟩

/-! ## The characters of the collected texts -/

/-- A header with a token for a name and no control character in its value. -/
structure Header.Clean (h : Header) : Prop where
  name_ne : h.name ≠ []
  name : ∀ c ∈ h.name, isToken c
  value : ∀ c ∈ h.value, isControl (promote c) = false

lemma Header.Clean.pushName {h : Header} (hh : h.Clean) {c} (hc : isToken c) :
    (h.pushName c).Clean where
  name_ne := by simp [Header.pushName]
  name := by
    simp only [Header.pushName, List.mem_append, List.mem_singleton]
    rintro d (hd | rfl)
    · exact hh.name d hd
    · exact hc
  value := hh.value

lemma Header.Clean.pushValue {h : Header} (hh : h.Clean) {c} (hc : isControl (promote c) = false) :
    (h.pushValue c).Clean where
  name_ne := hh.name_ne
  name := hh.name
  value := by
    simp only [Header.pushValue, List.mem_append, List.mem_singleton]
    rintro d (hd | rfl)
    · exact hh.value d hd
    · exact hc

lemma clean_modifyBack {f : Header → Header} {hs hs' : List Header} (h : modifyBack f hs = some hs')
    (hf : ∀ h, Header.Clean h → (f h).Clean) (hhs : ∀ h ∈ hs, h.Clean) : ∀ h ∈ hs', h.Clean := by
  obtain ⟨hs0, h0, rfl, rfl⟩ := modifyBack_some h
  simp only [List.mem_append, List.mem_singleton] at hhs ⊢
  rintro d (hd | rfl)
  · exact hhs d (.inl hd)
  · exact hf h0 (hhs h0 (.inr rfl))

/-- The texts the parser collects hold only the characters their states accept. -/
structure Clean (ph : Phase) (p : RequestParser) : Prop where
  start : ph ≠ .taken → (p.req.method = [] ↔ p.state = .requestMethodStart)
  method : ∀ m ms, p.req.method = m :: ms → isMethodStart (promote m) ∧ ∀ c ∈ ms, isToken c
  uri : ∀ c ∈ p.req.uri, isControl (promote c) = false
  headers : ∀ h ∈ p.req.headers, h.Clean

lemma Clean.consume {p} (h : Clean .reading p) (c : UInt8) :
    Clean (.after (consume p c).1) (consume p c).2 := by
  have hst := h.start (by simp)
  obtain ⟨hst1, hst2⟩ := consume_method_start p c
  refine ⟨?_, ?_, ?_, ?_⟩
  · intro _
    rw [hst1]
    rcases consume_method p c with e | ⟨e, hc | hc⟩
    · rw [e, hst]
      refine ⟨fun hs => ⟨hs, ?_⟩, And.left⟩
      by_contra hm
      have := (hst2 hs (by simpa using hm)).symm.trans e
      simp at this
    · simp [e, hc.2]
    · simp [e, hc.1]
  · intro m ms em
    rcases consume_method p c with e | ⟨e, hc | hc⟩
    · exact h.method m ms (e ▸ em)
    · rw [e, hst.2 hc.1, List.nil_append, List.cons.injEq] at em
      obtain ⟨rfl, rfl⟩ := em
      exact ⟨hc.2, by simp⟩
    · rcases hp : p.req.method with _ | ⟨m0, ms0⟩
      · rw [hst.1 hp] at hc
        exact absurd hc.1 (by simp)
      · rw [e, hp, List.cons_append, List.cons.injEq] at em
        obtain ⟨rfl, rfl⟩ := em
        obtain ⟨h1, h2⟩ := h.method m0 ms0 hp
        refine ⟨h1, ?_⟩
        simp only [List.mem_append, List.mem_singleton]
        rintro d (hd | rfl)
        · exact h2 d hd
        · exact hc.2
  · rcases consume_uri p c with e | ⟨e, hc⟩
    · rw [e]; exact h.uri
    · rw [e]
      simp only [List.mem_append, List.mem_singleton]
      rintro d (hd | rfl)
      · exact h.uri d hd
      · exact hc
  · rcases consume_headers p c with e | ⟨e, hc⟩ | ⟨e, hc⟩ | ⟨e, hc⟩
    · rw [e]; exact h.headers
    · rw [e]
      simp only [List.mem_append, List.mem_singleton]
      rintro d (hd | rfl)
      · exact h.headers d hd
      · exact ⟨by simp, by simpa using hc, by simp⟩
    · exact clean_modifyBack e (fun _ hh => hh.pushName hc) h.headers
    · exact clean_modifyBack e (fun _ hh => hh.pushValue hc) h.headers

lemma Clean.move {ph ph' p p'} (h : Clean ph p) (mv : Move (ph, p) (ph', p')) : Clean ph' p' := by
  cases mv with
  | consume c => exact h.consume c
  | request =>
    refine ⟨fun ne => absurd rfl ne, ?_, ?_, h.headers⟩
    · intro m ms e; cases e
    · intro c hc; cases hc
  | reset => constructor <;> simp [RequestParser.reset, RequestBuffer.clear]

lemma Reachable.clean {ph p} (h : Reachable ph p) : Clean ph p := by
  refine h.inv ?_ Clean.move
  intro major minor
  constructor <;> simp [RequestParser.fresh]

/-- In every reachable state the collected method is a method letter followed by ASCII characters that
    are neither control nor special (and there is none before the first letter and once it was moved out),
    the URI and the header values hold no byte 0-31 or 127, and every header name is a non-empty token. -/
theorem reachable_sanitised {ph p} (h : Reachable ph p) :
    (∀ m ms, p.req.method = m :: ms → m ∈ bytes "GPDHCOT" ∧
        ∀ c ∈ ms, c.toNat ≤ 127 ∧ ¬isControl (promote c) ∧ ¬isSpecial (promote c)) ∧
      (p.req.method = [] → p.state = .requestMethodStart ∨ ph = .taken) ∧
      (∀ c ∈ p.req.uri, 31 < c.toNat ∧ c.toNat ≠ 127) ∧
      ∀ h ∈ p.req.headers,
        (h.name ≠ [] ∧ ∀ c ∈ h.name, c.toNat ≤ 127 ∧ ¬isControl (promote c) ∧ ¬isSpecial (promote c)) ∧
        ∀ c ∈ h.value, 31 < c.toNat ∧ c.toNat ≠ 127 := by
  have clean := h.clean
  have token : ∀ c, isToken c → c.toNat ≤ 127 ∧ ¬isControl (promote c) ∧ ¬isSpecial (promote c) := by
    intro c hc
    rw [isToken_iff, isChar_iff] at hc
    exact hc
  have noControl : ∀ c, isControl (promote c) = false → 31 < c.toNat ∧ c.toNat ≠ 127 := by
    intro c hc
    have := isControl_iff (c := c)
    simp only [hc, Bool.false_eq_true, false_iff] at this
    omega
  refine ⟨?_, ?_, fun c hc => noControl c (clean.uri c hc), ?_⟩
  · intro m ms e
    obtain ⟨h1, h2⟩ := clean.method m ms e
    exact ⟨isMethodStart_iff.1 h1, fun c hc => token c (h2 c hc)⟩
  · intro e
    by_cases hph : ph = .taken
    · exact .inr hph
    · exact .inl ((clean.start hph).1 e)
  · intro d hd
    obtain ⟨h1, h2, h3⟩ := clean.headers d hd
    exact ⟨⟨h1, fun c hc => token c (h2 c hc)⟩, fun c hc => noControl c (h3 c hc)⟩

theorem reachable_sanitised_fold :
    ∃ p h, Reachable .reading p ∧ h ∈ p.req.headers ∧ h.value = bytes "ab" ∧
      ∀ c ∈ h.value, 31 < c.toNat ∧ c.toNat ≠ 127 := by
  have e : (fresh 0 0).parse (bytes "GET / HTTP/1.1\r\nX: a\r\n \tb") = (.ret .incomplete, [],
      ((fresh 0 0).parse (bytes "GET / HTTP/1.1\r\nX: a\r\n \tb")).2.2) := by decide +kernel
  have m : ({ name := bytes "X", value := bytes "ab" } : Header) ∈
      ((fresh 0 0).parse (bytes "GET / HTTP/1.1\r\nX: a\r\n \tb")).2.2.req.headers := by
    decide +kernel
  refine ⟨_, _, reachable_parse e, m, rfl, ?_⟩
  exact ((reachable_sanitised (reachable_parse e)).2.2.2 _ m).2

end ArrowheadCore.Http
