import ArrowheadCore.Http.Reading

/-!
# What is accepted

The converse of `Reading`: a run that completes without using a liberty of the source (`Strict`) has read an
HTTP/0.9 line or a message. The run is taken apart in the order of the grammar, state by state, with the
rules of the library's `Ends`; what was collected on the way is the message.
-/

namespace ArrowheadCore.Http
open Lib RequestParser

/-- The parser completes on a part of `xs`, leaves `rest` and stands as `q`. -/
abbrev Finishes (p : RequestParser) (xs rest : List UInt8) (q : RequestParser) : Prop :=
  Ends consume (.ret .incomplete) Strict p xs (.ret .completed) rest q

section
variable {rest : List UInt8} {q : RequestParser}

/-- The next character is answered with `incomplete` or it is the last one. -/
lemma Finishes.uncons {p xs} (h : Finishes p xs rest q) :
    ∃ c zs, xs = c :: zs ∧ Strict p c ∧
      ((consume p c).1 = .ret .incomplete ∧ Finishes (consume p c).2 zs rest q ∨
        consume p c = (.ret .completed, q) ∧ zs = rest) :=
  Ends.uncons h (by simp)

lemma Finishes.head {p p' c zs} (h : Finishes p (c :: zs) rest q)
    (e : consume p c = (.ret .incomplete, p')) : Finishes p' zs rest q := by
  obtain ⟨_, _, e', -, ⟨-, hz⟩ | ⟨hc, -⟩⟩ := h.uncons
  · cases e'
    rw [e] at hz
    exact hz
  · cases e'
    rw [e] at hc
    cases hc

lemma Finishes.not_refused {p c zs} (h : Finishes p (c :: zs) rest q)
    (e1 : (consume p c).1 ≠ .ret .incomplete) (e2 : (consume p c).1 ≠ .ret .completed) : False := by
  obtain ⟨_, _, e', -, ⟨hi, -⟩ | ⟨hc, -⟩⟩ := h.uncons
  · cases e'
    exact e1 hi
  · cases e'
    exact e2 (by rw [hc])

lemma Finishes.not_failed {p c zs} (h : Finishes p (c :: zs) rest q) (e : consume p c = fail p) : False :=
  h.not_refused (by simp [e, fail]) (by simp [e, fail])

/-- A state that waits for one character gets it. -/
lemma Finishes.expect {p xs} (x : UInt8) (p' : RequestParser) (h : Finishes p xs rest q)
    (hx : consume p x = (.ret .incomplete, p')) (hne : ∀ c, c ≠ x → consume p c = fail p) :
    ∃ zs, xs = x :: zs ∧ Finishes p' zs rest q := by
  obtain ⟨c, zs, rfl, -⟩ := h.uncons
  by_cases e : c = x
  · subst e
    exact ⟨zs, rfl, h.head hx⟩
  · exact (h.not_failed (hne c e)).elim

/-- A loop that collects a text. -/
lemma Finishes.span {f : List UInt8 → RequestParser} {xs} (C : UInt8 → Bool)
    (h : Finishes (f []) xs rest q)
    (loop : ∀ ys c, C c → consume (f ys) c = (.ret .incomplete, f (ys ++ [c]))) :
    ∃ ys c zs, xs = ys ++ c :: zs ∧ (∀ d ∈ ys, C d) ∧ C c = false ∧ Finishes (f ys) (c :: zs) rest q := by
  obtain ⟨ys, c, zs, e, hys, -, hc, hf⟩ :=
    Ends.span (I := fun _ => True) h (by simp) trivial fun ys c _ hc => .inl ⟨loop ys c hc, trivial⟩
  exact ⟨ys, c, zs, e, hys, hc, hf⟩

/-! ## The request line -/

lemma Finishes.method {v k xs} (h : Finishes (idle v k) xs rest q) :
    ∃ m zs, xs = m ++ SP :: zs ∧ IsMethod m ∧
      Finishes (inLine k .requestUriStart m [] v) zs rest q := by
  obtain ⟨c, zs, rfl, -⟩ := h.uncons
  cases hc : isMethodStart (promote c) with
  | false => exact (h.not_failed (by simp [consume, idle, hc])).elim
  | true =>
    have e : consume (idle v k) c = (.ret .incomplete, inLine k .requestMethod [c] [] v) := by
      simp [consume, idle, inLine, next, hc]
    obtain ⟨ys, d, ws, rfl, hys, hd, h⟩ := Finishes.span
      (f := fun ys => inLine k .requestMethod (c :: ys) [] v) isToken (h.head e) fun ys d hd => by
        have hsp := ne_of_isToken hd (d := SP) (by decide)
        simp [consume, inLine, next, hd, hsp]
    by_cases hsp : d = SP
    · subst hsp
      exact ⟨c :: ys, ws, rfl, ⟨c, ys, rfl, hc, hys⟩, h.head rfl⟩
    · exact (h.not_failed (by simp [consume, inLine, hsp, hd])).elim

/-- A URI, which ends an HTTP/0.9 line or is followed by the version. -/
lemma Finishes.uri {k m v xs} (h : Finishes (inLine k .requestUriStart m [] v) xs rest q) :
    ∃ u zs, IsUri u ∧
      (xs = u ++ SP :: zs ∧ Finishes (inLine k .requestHttpVersionH m u v) zs rest q ∨
        xs = u ++ CR :: zs ∧ zs = rest) := by
  obtain ⟨c, zs, rfl, -⟩ := h.uncons
  cases hc : isControl (promote c) with
  | true => exact (h.not_failed (by simp [consume, inLine, hc])).elim
  | false =>
    have e : consume (inLine k .requestUriStart m [] v) c =
        (.ret .incomplete, inLine k .requestUri m [c] v) := by
      simp [consume, inLine, next, hc]
    obtain ⟨ys, d, ws, rfl, hys, hd, h⟩ := Finishes.span (f := fun ys => inLine k .requestUri m (c :: ys) v)
      (fun d => !isControl (promote d) && d ≠ SP) (h.head e) fun ys d hd => by
        obtain ⟨hd, hsp⟩ : isControl (promote d) = false ∧ d ≠ SP := by simpa using hd
        have hcr := ne_of_not_isControl hd (d := CR) (by decide)
        simp [consume, inLine, next, hd, hsp, hcr]
    refine ⟨c :: ys, ws, ⟨c, ys, rfl, hc, fun d hd => by simpa using hys d hd⟩, ?_⟩
    by_cases hsp : d = SP
    · subst hsp
      exact .inl ⟨rfl, h.head rfl⟩
    · by_cases hcr : d = CR
      · subst hcr
        obtain ⟨_, _, e, -, ⟨hi, -⟩ | ⟨-, hr⟩⟩ := h.uncons
        · cases e
          simp [consume, inLine, done, show CR ≠ SP by decide] at hi
        · cases e
          exact .inr ⟨rfl, hr⟩
      · have hd' : isControl (promote d) = true := by simpa [hsp] using hd
        exact (h.not_failed (by simp [consume, inLine, hsp, hcr, hd'])).elim

lemma Finishes.http {k m u v xs} (h : Finishes (inLine k .requestHttpVersionH m u v) xs rest q) :
    ∃ zs, xs = bytes "HTTP/" ++ zs ∧
      Finishes (inLine k .requestHttpVersionMajorStart m u (0, 0)) zs rest q := by
  obtain ⟨_, rfl, h1⟩ := h.expect 'H'.toUInt8 (inLine k .requestHttpVersionHt m u v) rfl
    fun c hc => by simp [consume, inLine, hc]
  obtain ⟨_, rfl, h2⟩ := h1.expect 'T'.toUInt8 (inLine k .requestHttpVersionHtt m u v) rfl
    fun c hc => by simp [consume, inLine, hc]
  obtain ⟨_, rfl, h3⟩ := h2.expect 'T'.toUInt8 (inLine k .requestHttpVersionHttp m u v) rfl
    fun c hc => by simp [consume, inLine, hc]
  obtain ⟨_, rfl, h4⟩ := h3.expect 'P'.toUInt8 (inLine k .requestHttpVersionSlash m u v) rfl
    fun c hc => by simp [consume, inLine, hc]
  obtain ⟨zs, rfl, h5⟩ := h4.expect '/'.toUInt8 (inLine k .requestHttpVersionMajorStart m u (0, 0)) rfl
    fun c hc => by simp [consume, inLine, hc]
  exact ⟨zs, rfl, h5⟩

lemma Finishes.versionNumber {k m u s0 s v0 w x p xs} (acc : Accumulates k m u s0 s v0 w x p)
    (h : Finishes (inLine k s0 m u v0) xs rest q) :
    ∃ ds zs, xs = ds ++ x :: zs ∧ IsVersion ds ∧ Finishes (p (number 10 ds)) zs rest q := by
  obtain ⟨d, zs, rfl, -⟩ := h.uncons
  cases hd : isDigitOf 10 d with
  | false => exact (h.not_failed (by rw [acc.first, if_neg (by rw [isDigit_iff, hd]; decide)])).elim
  | true =>
    have h1 := h.head (by rw [acc.first, if_pos (isDigit_iff.2 hd), promote_sub_zero hd])
    have h0 : (number 10 [d] : Int) + 48 ≤ INT_MAX := by
      have := promote_digit hd
      rw [← promote_sub_zero hd, show promote '0'.toUInt8 = 48 by decide]
      unfold INT_MAX
      omega
    obtain ⟨ys, c, ws, rfl, hys, hle, hc, h2⟩ :=
      Ends.span (f := fun ys => inLine k s m u (w (number 10 (d :: ys))))
        (I := fun ys => (number 10 (d :: ys) : Int) + 48 ≤ INT_MAX) h1 (by simp) h0
        (C := isDigitOf 10) fun ys a _ ha => by
          have hax : a ≠ x := by
            rintro rfl
            rw [acc.end_ok] at ha
            cases ha
          rw [acc.more, if_neg hax, if_pos (isDigit_iff.2 ha), accumulate_digit ha, ← List.cons_append]
          split_ifs with hle
          · exact .inl ⟨rfl, hle⟩
          · exact .inr ⟨by simp, by simp⟩
    by_cases hcx : c = x
    · subst hcx
      refine ⟨d :: ys, ws, rfl, ⟨by simp, ?_, hle⟩, Finishes.head h2 (by rw [acc.more, if_pos rfl])⟩
      intro b hb
      obtain rfl | hb := List.mem_cons.1 hb
      · exact hd
      · exact hys b hb
    · have hc' : ¬isDigit (promote c) := by rw [isDigit_iff, hc]; decide
      exact (Finishes.not_failed h2 (by rw [acc.more, if_neg hcx, if_neg hc'])).elim

/-- A request line, or an HTTP/0.9 line that is the whole request. -/
lemma Finishes.requestLine {v k xs} (h : Finishes (idle v k) xs rest q) :
    (∃ m u, IsMethod m ∧ IsUri u ∧ xs = m ++ SP :: (u ++ CR :: rest)) ∨
      ∃ (l : RequestLine) (zs : List UInt8), xs = l.render ++ CRLF ++ zs ∧
        Finishes (atLine l k {}) zs rest q := by
  obtain ⟨m, zs, rfl, hm, h1⟩ := h.method
  obtain ⟨u, ws, hu, ⟨rfl, h2⟩ | ⟨rfl, rfl⟩⟩ := h1.uri
  · right
    obtain ⟨zs, rfl, h3⟩ := h2.http
    obtain ⟨a, zs, rfl, ha, h4⟩ := h3.versionNumber (accumulates_major k m u)
    obtain ⟨b, zs, rfl, hb, h5⟩ := h4.versionNumber (accumulates_minor k m u (number 10 a))
    obtain ⟨zs, rfl, h6⟩ := h5.expect LF (atLine ⟨m, u, a, b, hm, hu, ha, hb⟩ k {}) rfl
      fun c hc => by simp [consume, inLine, hc]
    exact ⟨⟨m, u, a, b, hm, hu, ha, hb⟩, zs, by simp [RequestLine.render, CRLF], h6⟩
  · left
    exact ⟨m, u, hm, hu, rfl⟩

/-! ## Header lines -/

/-- The end of a line finishes its header, or the content size is refused. -/
lemma endValue_cases {l : RequestLine} {k : Bool} {s : Section} {hs h} (e : s.headers = hs ++ [h])
    (hs : s.contentSize ≤ maxSize) :
    (s.finish (hasBody l.method) h).contentSize ≤ maxSize ∨
      ∃ p, endValue (inHeader l k .headerValue s) = (.raise .lengthError, p) := by
  have hl : (inHeader l k .headerValue s).req.headers.getLast? = some h := by
    simp [inHeader, atLine, e]
  unfold Section.finish
  cases hb : hasBody l.method
  · exact .inl hs
  · by_cases h1 : sameText h.name "Content-Length"
    · by_cases hle : toSize (atoi h.value) ≤ maxSize
      · exact .inl (by simpa [h1] using hle)
      · right
        have hb' : hasBody (inHeader l k .headerValue s).req.method = true := hb
        simp only [endValue, hl, hb', h1, hle, if_true, if_false]
        exact ⟨_, rfl⟩
    · left
      simp only [h1, if_true, Bool.false_eq_true, if_false]
      split <;> exact hs

lemma Finishes.value {l : RequestLine} {k : Bool} {s : Section} {hs : List Header} {n v0 xs : List UInt8}
    (h : Finishes (inHeader l k .headerValue { s with headers := hs ++ [⟨n, v0⟩] }) xs rest q)
    (hle : s.contentSize ≤ maxSize) :
    ∃ v zs, xs = v ++ CRLF ++ zs ∧ (∀ c ∈ v, isControl (promote c) = false) ∧
      (Section.finish (hasBody l.method) { s with headers := hs ++ [⟨n, v0 ++ v⟩] }
        ⟨n, v0 ++ v⟩).contentSize ≤ maxSize ∧
      Finishes (atLine l k (Section.finish (hasBody l.method) { s with headers := hs ++ [⟨n, v0 ++ v⟩] }
        ⟨n, v0 ++ v⟩)) zs rest q := by
  let f ys := inHeader l k .headerValue { s with headers := hs ++ [⟨n, v0 ++ ys⟩] }
  have h0 : Finishes (f []) xs rest q := by simpa [f] using h
  obtain ⟨v, c, zs, rfl, hv, hc, h1⟩ := h0.span (fun c => !isControl (promote c)) fun ys c hc => by
    have hc' : isControl (promote c) = false := by simpa using hc
    have hcr := ne_of_not_isControl hc' (d := CR) (by decide)
    simp [f, consume, inHeader, atLine, hc', hcr, updateBack, next, Header.pushValue]
  by_cases hcr : c = CR
  · subst hcr
    have e : consume (f v) CR = endValue (f v) := by simp [f, consume, inHeader]
    let s' : Section := { s with headers := hs ++ [⟨n, v0 ++ v⟩] }
    obtain hfin | ⟨p, hraise⟩ := endValue_cases (l := l) (k := k) (s := s') rfl hle
    · rw [endValue_inHeader rfl hfin] at e
      have h2 := h1.head e
      obtain ⟨ws, rfl, h3⟩ := h2.expect LF (atLine l k _) rfl fun c hc => by simp [consume, inHeader, hc]
      exact ⟨v, ws, by simp [CRLF], fun c hc => by simpa using hv c hc, hfin, h3⟩
    · rw [hraise] at e
      exact (h1.not_refused (by simp [e]) (by simp [e])).elim
  · have hc' : isControl (promote c) = true := by simpa using hc
    exact (h1.not_failed (by simp [f, consume, inHeader, hcr, hc'])).elim

/-- A line that starts a header, seen after its first character. -/
lemma Finishes.field {l : RequestLine} {k : Bool} {s : Section} {c xs} (hc : isToken c)
    (h : Finishes (inHeader l k .headerName { s with headers := s.headers ++ [⟨[c], []⟩] }) xs rest q)
    (hle : s.contentSize ≤ maxSize) :
    ∃ (f : Field) (zs : List UInt8), c :: xs = (Line.field f).render ++ CRLF ++ zs ∧
      (s.line (hasBody l.method) (.field f)).contentSize ≤ maxSize ∧
      Finishes (atLine l k (s.line (hasBody l.method) (.field f))) zs rest q := by
  let f ys := inHeader l k .headerName { s with headers := s.headers ++ [⟨c :: ys, []⟩] }
  obtain ⟨ys, d, zs, rfl, hys, hd, h1⟩ := Finishes.span (f := f) isToken h fun ys d hd => by
    have hcolon := ne_of_isToken hd (d := ':'.toUInt8) (by decide)
    simp [f, consume, inHeader, atLine, hd, hcolon, updateBack, next, Header.pushName]
  by_cases hcolon : d = ':'.toUInt8
  · subst hcolon
    let s' : Section := { s with headers := s.headers ++ [⟨c :: ys, []⟩] }
    have h2 : Finishes (inHeader l k .spaceBeforeHeaderValue s') zs rest q := h1.head rfl
    obtain ⟨ws, rfl, h3⟩ := h2.expect SP (inHeader l k .headerValue s') rfl
      fun c hc => by simp [consume, inHeader, hc]
    obtain ⟨v, us, rfl, hv, hfin, h4⟩ := h3.value hle
    have name_ok : ∀ d ∈ c :: ys, isToken d := by
      intro d hd
      obtain rfl | hd := List.mem_cons.1 hd
      · exact hc
      · exact hys d hd
    exact ⟨⟨c :: ys, v, by simp, name_ok, hv⟩, us, by simp [Line.render], hfin, h4⟩
  · exact (h1.not_failed (by simp [f, consume, inHeader, hcolon, hd])).elim

/-- A line that continues a header, seen after its first blank. -/
lemma Finishes.fold {l : RequestLine} {k : Bool} {s : Section} {b xs} (hb : b = SP ∨ b = HT)
    (h : Finishes (inHeader l k .headerLws s) xs rest q) (hne : s.headers ≠ [])
    (hle : s.contentSize ≤ maxSize) :
    ∃ (f : Fold) (zs : List UInt8), b :: xs = (Line.fold f).render ++ CRLF ++ zs ∧
      (s.line (hasBody l.method) (.fold f)).contentSize ≤ maxSize ∧
      Finishes (atLine l k (s.line (hasBody l.method) (.fold f))) zs rest q := by
  obtain e | ⟨hs, x, e⟩ := List.eq_nil_or_concat' s.headers
  · exact absurd e hne
  obtain ⟨ys, d, zs, rfl, hys, hd, h1⟩ := Finishes.span (f := fun _ => inHeader l k .headerLws s)
    (fun c => c = SP ∨ c = HT) h fun ys c hc => by
      obtain rfl | rfl : c = SP ∨ c = HT := by simpa using hc
      · rfl
      · rfl
  obtain ⟨hsp, hht⟩ : d ≠ SP ∧ d ≠ HT := by simpa using hd
  have blanks_ok : ∀ c ∈ b :: ys, c = SP ∨ c = HT := by
    intro c hc
    obtain rfl | hc := List.mem_cons.1 hc
    · exact hb
    · simpa using hys c hc
  by_cases hcr : d = CR
  · subst hcr
    have h2 : Finishes (inHeader l k .expectingNewline2 s) zs rest q := h1.head rfl
    obtain ⟨ws, rfl, h3⟩ := h2.expect LF (atLine l k s) rfl fun c hc => by simp [consume, inHeader, hc]
    let f : Fold := ⟨b :: ys, [], by simp, blanks_ok, by simp, by simp⟩
    have hline : s.line (hasBody l.method) (.fold f) = s := by
      rw [Section.line_fold f e]
      exact if_pos rfl
    refine ⟨f, ws, by simp [Line.render, f, CRLF], ?_, ?_⟩
    · rw [hline]; exact hle
    · rw [hline]; exact h3
  · cases hctl : isControl (promote d) with
    | true => exact (h1.not_failed (by simp [consume, inHeader, hcr, hsp, hht, hctl])).elim
    | false =>
      have first : consume (inHeader l k .headerLws s) d = (.ret .incomplete,
          inHeader l k .headerValue { s with headers := hs ++ [⟨x.name, x.value ++ [d]⟩] }) := by
        simp [consume, inHeader, atLine, e, hcr, hsp, hht, hctl, updateBack, next, Header.pushValue]
      obtain ⟨v, us, rfl, hv, hfin, h2⟩ := (h1.head first).value hle
      have text_ok : ∀ c ∈ d :: v, isControl (promote c) = false := by
        intro c hc
        obtain rfl | hc := List.mem_cons.1 hc
        · exact hctl
        · exact hv c hc
      let f : Fold := ⟨b :: ys, d :: v, by simp, blanks_ok, text_ok, by simpa using hsp⟩
      have hline : s.line (hasBody l.method) (.fold f) = Section.finish (hasBody l.method)
          { s with headers := hs ++ [⟨x.name, x.value ++ [d] ++ v⟩] } ⟨x.name, x.value ++ [d] ++ v⟩ := by
        rw [Section.line_fold f e, if_neg (by simp [f])]
        simp [f]
      refine ⟨f, us, by simp [Line.render, f], ?_, ?_⟩
      · rw [hline]; exact hfin
      · rw [hline]; exact h2

/-- The header section: lines, and the carriage return of the empty one. -/
lemma Finishes.lines {l : RequestLine} {k : Bool} {s : Section} {xs}
    (h : Finishes (atLine l k s) xs rest q) (hle : s.contentSize ≤ maxSize) :
    ∃ ls zs, xs = renderLines ls ++ CR :: zs ∧ LinesOk (hasBody l.method) s ls ∧
      Finishes (inHeader l k .expectingNewline3 (ls.foldl (Section.line (hasBody l.method)) s)) zs rest q := by
  induction hn : xs.length using Nat.strong_induction_on generalizing xs s with
  | _ n ih =>
    subst hn
    -- one line is read, the induction does the others
    have more : ∀ (ln : Line) (zs : List UInt8), xs = ln.render ++ CRLF ++ zs →
        s.Accepts (hasBody l.method) ln → Finishes (atLine l k (s.line (hasBody l.method) ln)) zs rest q →
        ∃ ls zs, xs = renderLines ls ++ CR :: zs ∧ LinesOk (hasBody l.method) s ls ∧
          Finishes (inHeader l k .expectingNewline3
            (ls.foldl (Section.line (hasBody l.method)) s)) zs rest q := by
      rintro ln zs rfl ok h'
      obtain ⟨ls, ws, rfl, hls, hf⟩ := ih zs.length (by simp [CRLF]; omega) h' ok.2 rfl
      exact ⟨ln :: ls, ws, by simp [renderLines], ⟨ok, hls⟩, hf⟩
    obtain ⟨c, zs, rfl, -⟩ := h.uncons
    by_cases hcr : c = CR
    · subst hcr
      exact ⟨[], zs, rfl, trivial, h.head rfl⟩
    · by_cases hb : s.headers ≠ [] ∧ (c = SP ∨ c = HT)
      · have e : consume (atLine l k s) c = (.ret .incomplete, inHeader l k .headerLws s) := by
          simp [consume, atLine, inHeader, hcr, hb, next]
        obtain ⟨f, ws, e, hfin, h'⟩ := (h.head e).fold hb.2 hb.1 hle
        exact more (.fold f) ws e ⟨fun _ => hb.1, hfin⟩ h'
      · cases hc : isToken c with
        | false => exact (h.not_failed (by simp [consume, atLine, hcr, hb, hc])).elim
        | true =>
          have e : consume (atLine l k s) c = (.ret .incomplete,
              inHeader l k .headerName { s with headers := s.headers ++ [⟨[c], []⟩] }) := by
            simp [consume, atLine, inHeader, hcr, hb, hc, next]
          obtain ⟨f, ws, e, hfin, h'⟩ := (h.head e).field hc hle
          refine more (.field f) ws e ⟨?_, hfin⟩ h'
          rintro ⟨_, e⟩
          cases e

/-! ## Bodies -/

lemma Finishes.sized {b : RequestBuffer} {n : Nat} {content xs} (hn : n < 2 ^ 64) (h0 : 0 < n)
    (h : Finishes (inSized b n content) xs rest q) :
    ∃ c, xs = c ++ rest ∧ c.length = n := by
  induction n generalizing content xs with
  | zero => exact absurd h0 (by decide)
  | succ n ih =>
    have hpred : predSize (n + 1) = n := by
      have := predSize_add_one h0 hn
      omega
    obtain ⟨c, zs, rfl, -, ⟨hi, h1⟩ | ⟨hc, rfl⟩⟩ := h.uncons
    · cases n with
      | zero => simp [consume, inSized, hpred, done] at hi
      | succ n =>
        have e : consume (inSized b (n + 1 + 1) content) c =
            (.ret .incomplete, inSized b (n + 1) (content ++ [c])) := by
          simp [consume, inSized, hpred, next]
        rw [e] at h1
        obtain ⟨cs, rfl, hlen⟩ := ih (by omega) (by omega) h1
        exact ⟨c :: cs, rfl, by simp [hlen]⟩
    · cases n with
      | zero => exact ⟨[c], rfl, rfl⟩
      | succ n => simp [consume, inSized, hpred, next] at hc

section Chunks

variable {b : RequestBuffer} {n : Nat} {content : List UInt8}

lemma Finishes.skip {p xs} (h : Finishes p xs rest q)
    (skip : ∀ c, isText c → consume p c = (.ret .incomplete, p)) :
    ∃ ys c zs, xs = ys ++ c :: zs ∧ (∀ d ∈ ys, isText d) ∧ isText c = false ∧ Finishes p (c :: zs) rest q :=
  Finishes.span (f := fun _ => p) isText h fun _ c hc => skip c hc

lemma Finishes.sizeLine {size xs} (h : Finishes (inChunks b n .chunkSize content size []) xs rest q) :
    ∃ (l : SizeLine) (zs : List UInt8), xs = l.render ++ CR :: zs ∧
      Finishes (inChunks b n .chunkSizeNewLine content size l.size) zs rest q := by
  obtain ⟨ds, c, zs, rfl, -, hc, h1⟩ := Finishes.span (f := inChunks b n .chunkSize content size) isalnum h
    fun ys c hc => by simp [consume, inChunks, hc, next]
  -- leaving the token is where strictness says what it is
  obtain ⟨hne, hdig⟩ : ds ≠ [] ∧ ∀ d ∈ ds, isDigitOf 16 d := by
    obtain ⟨_, _, e, hstrict, -⟩ := h1.uncons
    cases e
    exact hstrict.2 rfl hc
  by_cases hsemi : c = ';'.toUInt8
  · subst hsemi
    have h2 : Finishes (inChunks b n .chunkExtensionName content size ds) zs rest q := h1.head rfl
    obtain ⟨nm, c, zs, rfl, hnm, hc, h3⟩ := h2.skip fun c hc => by
      have : isalnum c ∨ c = SP := by simpa [isText] using hc
      simp [consume, inChunks, this, next]
    have htext : ¬(isalnum c ∨ c = SP) := by simpa [isText] using hc
    by_cases heq : c = '='.toUInt8
    · subst heq
      have h4 : Finishes (inChunks b n .chunkExtensionValue content size ds) zs rest q := h3.head rfl
      obtain ⟨v, c, zs, rfl, hv, hc, h5⟩ := h4.skip fun c hc => by
        have : isalnum c ∨ c = SP := by simpa [isText] using hc
        simp [consume, inChunks, this, next]
      have htext : ¬(isalnum c ∨ c = SP) := by simpa [isText] using hc
      by_cases hcr : c = CR
      · subst hcr
        exact ⟨⟨ds, _, hne, hdig, .value hnm hv⟩, zs, by simp [SizeLine.render], h5.head rfl⟩
      · exact (h5.not_failed (by simp [consume, inChunks, htext, hcr])).elim
    · by_cases hcr : c = CR
      · subst hcr
        exact ⟨⟨ds, _, hne, hdig, .name hnm⟩, zs, by simp [SizeLine.render], h3.head rfl⟩
      · exact (h3.not_failed (by simp [consume, inChunks, htext, heq, hcr])).elim
  · by_cases hcr : c = CR
    · subst hcr
      exact ⟨⟨ds, [], hne, hdig, .none⟩, zs, by simp [SizeLine.render], h1.head rfl⟩
    · exact (h1.not_failed (by simp [consume, inChunks, hc, hsemi, hcr])).elim

/-- The line feed of a size line: the size is the number of the text, and a string can hold the content. -/
lemma Finishes.endSizeLine {size ds xs} (hd : ∀ d ∈ ds, isDigitOf 16 d) (hle : content.length ≤ maxSize)
    (h : Finishes (inChunks b n .chunkSizeNewLine content size ds) xs rest q) :
    ∃ zs, xs = LF :: zs ∧ content.length + number 16 ds ≤ maxSize ∧
      Finishes (inChunks b n (if number 16 ds = 0 then .chunkSizeNewLine2 else .chunkData) content
        (number 16 ds) []) zs rest q := by
  obtain ⟨c, zs, rfl, -⟩ := h.uncons
  by_cases hc : c = LF
  · subst hc
    by_cases hfit : content.length + number 16 ds ≤ maxSize
    · exact ⟨zs, rfl, hfit, h.head (consume_sizeLine b n content hd size hfit)⟩
    · -- a size beyond `long` is the largest `long`, which no string can hold either
      have hmax : maxSize = 2 ^ 62 - 1 := rfl
      have e : ¬(content.length + toSize (strtol 16 ds)) % 2 ^ 64 ≤ maxSize := by
        have hlong : LONG_MAX = 2 ^ 63 - 1 := rfl
        rw [toSize_strtol_digits hd, Nat.mod_eq_of_lt (by omega)]
        omega
      have raise : (consume (inChunks b n .chunkSizeNewLine content size ds) LF).1 =
          .raise .lengthError := by
        simp only [consume, inChunks, if_true, endChunkSize, e, if_false]
      exact (h.not_refused (by simp [raise]) (by simp [raise])).elim
  · exact (h.not_failed (by simp [consume, inChunks, hc])).elim

lemma Finishes.data {m : Nat} {xs} (hm : m < 2 ^ 64) (h0 : 0 < m)
    (h : Finishes (inChunks b n .chunkData content m []) xs rest q) :
    ∃ d zs, xs = d ++ zs ∧ d.length = m ∧
      Finishes (inChunks b n .chunkDataNewLine1 (content ++ d) 0 []) zs rest q := by
  induction m generalizing content xs with
  | zero => exact absurd h0 (by decide)
  | succ m ih =>
    have hpred : predSize (m + 1) = m := by
      have := predSize_add_one h0 hm
      omega
    obtain ⟨c, zs, rfl, -⟩ := h.uncons
    cases m with
    | zero => exact ⟨[c], zs, rfl, rfl, h.head rfl⟩
    | succ m =>
      have e : consume (inChunks b n .chunkData content (m + 1 + 1) []) c =
          (.ret .incomplete, inChunks b n .chunkData (content ++ [c]) (m + 1) []) := by
        simp [consume, inChunks, hpred, next]
      obtain ⟨d, ws, rfl, hlen, h1⟩ := ih (by omega) (by omega) (h.head e)
      exact ⟨c :: d, ws, rfl, by simp [hlen], by simpa using h1⟩

lemma Finishes.trailers {xs} (hle : content.length ≤ maxSize)
    (h : Finishes (inChunks b n .chunkSizeNewLine2 content 0 []) xs rest q) :
    ∃ ts : List Trailer, xs = ts.flatMap Trailer.render ++ CRLF ++ rest := by
  induction hn : xs.length using Nat.strong_induction_on generalizing xs with
  | _ m ih =>
    subst hn
    obtain ⟨c, zs, rfl, -⟩ := h.uncons
    by_cases hcr : c = CR
    · subst hcr
      have h1 : Finishes (inChunks b n .chunkSizeNewLine3 content 0 []) zs rest q := h.head rfl
      obtain ⟨c, ws, rfl, -, ⟨hi, -⟩ | ⟨hdone, rfl⟩⟩ := h1.uncons
      all_goals by_cases hlf : c = LF
      · simp [consume, inChunks, hlf, done] at hi
      · simp [consume, inChunks, hlf, fail] at hi
      · subst hlf
        exact ⟨[], rfl⟩
      · simp [consume, inChunks, hlf, fail] at hdone
    · cases hal : isalpha c with
      | false => exact (h.not_failed (by simp [consume, inChunks, hcr, hal])).elim
      | true =>
        have e : consume (inChunks b n .chunkSizeNewLine2 content 0 []) c =
            (.ret .incomplete, inChunks b n .chunkTrailerName content 0 []) := by
          simp [consume, inChunks, hcr, hal, next]
        obtain ⟨nm, d, ws, rfl, hnm, hd, h1⟩ := Finishes.span
          (f := fun _ => inChunks b n .chunkTrailerName content 0 []) isalnum (h.head e)
          fun _ c hc => by simp [consume, inChunks, hc, next]
        by_cases hcolon : d = ':'.toUInt8
        · subst hcolon
          have h2 : Finishes (inChunks b n .chunkTrailerValue content 0 []) ws rest q := h1.head rfl
          obtain ⟨v, d, ws, rfl, hv, hd, h3⟩ := h2.skip fun c hc => by
            have : isalnum c ∨ c = SP := by simpa [isText] using hc
            simp [consume, inChunks, this, next]
          have htext : ¬(isalnum d ∨ d = SP) := by simpa [isText] using hd
          by_cases hcr : d = CR
          · subst hcr
            have h4 : Finishes (inChunks b n .chunkSizeNewLine content 0 []) ws rest q := h3.head rfl
            obtain ⟨us, rfl, -, h5⟩ := h4.endSizeLine (by simp) hle
            obtain ⟨ts, rfl⟩ := ih us.length (by simp; omega) h5 rfl
            refine ⟨⟨c :: nm, v, ⟨c, nm, rfl, hal, hnm⟩, hv⟩ :: ts, ?_⟩
            simp [Trailer.render, CRLF]
          · exact (h3.not_failed (by simp [consume, inChunks, htext, hcr])).elim
        · exact (h1.not_failed (by simp [consume, inChunks, hd, hcolon])).elim

lemma Finishes.chunked {xs} (hle : content.length ≤ maxSize)
    (h : Finishes (inChunks b n .chunkSize content 0 []) xs rest q) :
    ∃ body : ChunkedBody, xs = body.render ++ rest ∧ content.length + body.content.length ≤ maxSize := by
  induction hn : xs.length using Nat.strong_induction_on generalizing xs content with
  | _ m ih =>
    subst hn
    obtain ⟨l, zs, rfl, h1⟩ := h.sizeLine
    obtain ⟨ws, rfl, hfit, h2⟩ := h1.endSizeLine l.size_ok hle
    by_cases h0 : number 16 l.size = 0
    · rw [h0, if_pos rfl] at h2
      obtain ⟨ts, rfl⟩ := h2.trailers hle
      refine ⟨⟨[], l, ts, h0⟩, ?_, hle⟩
      simp [ChunkedBody.render, CRLF]
    · rw [if_neg h0] at h2
      have hmax : maxSize = 2 ^ 62 - 1 := rfl
      obtain ⟨d, us, rfl, hlen, h3⟩ := h2.data (by omega) (by omega)
      obtain ⟨us, rfl, h4⟩ := h3.expect CR (inChunks b n .chunkDataNewLine2 (content ++ d) 0 []) rfl
        fun c hc => by simp [consume, inChunks, hc]
      obtain ⟨us, rfl, h5⟩ := h4.expect LF (inChunks b n .chunkSize (content ++ d) 0 []) rfl
        fun c hc => by simp [consume, inChunks, hc]
      obtain ⟨body, rfl, hbody⟩ := ih us.length (by simp; omega) (by simp; omega) h5 rfl
      let c : Chunk := ⟨l, d, fun e => h0 (by rw [← hlen, e]; rfl), hlen.symm⟩
      refine ⟨{ body with chunks := c :: body.chunks }, ?_, ?_⟩
      · simp [ChunkedBody.render, Chunk.render, c, CRLF]
      · simpa [ChunkedBody.content, c, Nat.add_assoc] using hbody

end Chunks

/-- The line feed of the empty line, which strictness asks for, and the body. -/
lemma Finishes.body {l : RequestLine} {k : Bool} {s : Section} {xs} (hle : s.contentSize ≤ maxSize)
    (h : Finishes (inHeader l k .expectingNewline3 s) xs rest q) :
    ∃ body : Body, xs = LF :: (body.render ++ rest) ∧ body.Fits s := by
  have hmax : maxSize = 2 ^ 62 - 1 := rfl
  obtain ⟨c, zs, rfl, strict, hcase⟩ := h.uncons
  obtain rfl : c = LF := strict.1 rfl
  let b := (atLine l k s).req.setKeepAlive
  have hb : b = { b with content := [] } := by
    simp only [b, setKeepAlive_eq]
    rfl
  by_cases hch : s.chunked
  · have e : consume (inHeader l k .expectingNewline3 s) LF =
        (.ret .incomplete, inChunks b s.contentSize .chunkSize [] 0 []) := by
      simp only [consume, inHeader, endHeaders, inChunks, ← hb]
      simp only [atLine, hch, if_true]
      rfl
    obtain ⟨body, rfl, hbody⟩ := (h.head e).chunked (Nat.zero_le _)
    exact ⟨.chunked body, rfl, hch, by simpa using hbody⟩
  · have hch' : s.chunked = false := by simpa using hch
    by_cases h0 : s.contentSize = 0
    · obtain ⟨hi, -⟩ | ⟨-, rfl⟩ := hcase
      · simp [consume, inHeader, endHeaders, atLine, hch', h0, done] at hi
      · exact ⟨.sized [], rfl, hch', h0⟩
    · have e : consume (inHeader l k .expectingNewline3 s) LF =
          (.ret .incomplete, inSized b s.contentSize []) := by
        simp only [consume, inHeader, endHeaders, inSized, ← hb]
        simp only [atLine, hch', h0, if_false]
        rfl
      obtain ⟨cs, rfl, hlen⟩ := (h.head e).sized (by omega) (by omega)
      exact ⟨.sized cs, rfl, hch', hlen.symm⟩

/-- A run without liberties that completes has read an HTTP/0.9 line or a message. -/
lemma Finishes.message {v k xs} (h : Finishes (idle v k) xs rest q) :
    (∃ m u, IsMethod m ∧ IsUri u ∧ xs = m ++ SP :: (u ++ [CR]) ++ rest) ∨
      ∃ m : Message, xs = m.render ++ rest := by
  obtain ⟨m, u, hm, hu, rfl⟩ | ⟨l, zs, rfl, h1⟩ := h.requestLine
  · exact .inl ⟨m, u, hm, hu, by simp⟩
  · obtain ⟨ls, ws, rfl, hls, h2⟩ := h1.lines (Nat.zero_le _)
    obtain ⟨body, rfl, hfit⟩ := h2.body (hls.contentSize_le (Nat.zero_le _))
    exact .inr ⟨⟨⟨l, ls, hls⟩, body, hfit⟩, by simp [Message.render, Head.render, CRLF]⟩

end

/-! ## The grammar -/

/-- An HTTP/0.9 line or a message. -/
def Derives (cs : List UInt8) : Prop :=
  (∃ m u, IsMethod m ∧ IsUri u ∧ cs = m ++ SP :: (u ++ [CR])) ∨ ∃ m : Message, cs = m.render

lemma completes_simple {m u} (hm : IsMethod m) (hu : IsUri u) (v k) :
    ∃ q, Completes (idle v k) (m ++ SP :: (u ++ [CR])) q := by
  have h1 := reads_method hm k v
  have h2 : Reads (inLine k .requestMethod m [] v) [SP] (inLine k .requestUriStart m [] v) :=
    Reads.char rfl rfl
  have h3 := reads_uri hu k m v
  have h4 : Completes (inLine k .requestUri m u v) [CR] (inLine k .requestUri m u (0, 9)) :=
    Completes.last rfl rfl
  have := ((h1.append h2).append h3).halt h4
  exact ⟨_, by simpa using this⟩

/-- What the grammar derives is read without liberties, whatever follows. -/
lemma Derives.strict {cs} (h : Derives cs) (v k rest) :
    Along consume (.ret .incomplete) Strict (idle v k) (cs ++ rest) := by
  obtain ⟨m, u, hm, hu, rfl⟩ | ⟨m, rfl⟩ := h
  · obtain ⟨q, hq⟩ := completes_simple hm hu v k
    exact hq.along rest
  · obtain ⟨q, hq, -⟩ := completes_message m v k
    exact hq.along rest

/-- What a parser between requests has consumed when it completes is derived by the grammar iff no step on
    the way used a liberty. -/
theorem completed_derives_iff {v k cs rest p}
    (h : (idle v k).parse (cs ++ rest) = (.ret .completed, rest, p)) :
    Derives cs ↔ Along consume (.ret .incomplete) Strict (idle v k) (cs ++ rest) := by
  refine ⟨fun hd => hd.strict v k rest, fun hs => ?_⟩
  rw [parse_eq_feed] at h
  obtain ⟨m, u, hm, hu, e⟩ | ⟨m, e⟩ := Finishes.message ⟨h, hs⟩
  · exact .inl ⟨m, u, hm, hu, List.append_cancel_right e⟩
  · exact .inr ⟨m, List.append_cancel_right e⟩

/-- A request with a chunk of one byte, read without liberties. -/
theorem completed_derives_iff_chunk :
    Derives (bytes "PUT / HTTP/1.1\r\nTransfer-Encoding: chunked\r\n\r\n1\r\na\r\n0\r\n\r\n") := by
  have h : (idle (0, 0) false).parse
      (bytes "PUT / HTTP/1.1\r\nTransfer-Encoding: chunked\r\n\r\n1\r\na\r\n0\r\n\r\n" ++ []) =
      (.ret .completed, [], (parse (idle (0, 0) false)
        (bytes "PUT / HTTP/1.1\r\nTransfer-Encoding: chunked\r\n\r\n1\r\na\r\n0\r\n\r\n")).2.2) := by
    decide +kernel
  exact (completed_derives_iff h).2 (by decide +kernel)

/-- Before a body the empty line ends with any character, and a chunk size may be any word or none. -/
theorem completed_outside_grammar :
    (((fresh 0 0).parse (bytes "POST / HTTP/1.1\r\nContent-Length: 1\r\n\rab")).1 = .ret .completed ∧
      ¬Derives (bytes "POST / HTTP/1.1\r\nContent-Length: 1\r\n\rab")) ∧
    (((fresh 0 0).parse
        (bytes "POST / HTTP/1.1\r\nTransfer-Encoding: chunked\r\n\r\nzz\r\n\r\n")).1 = .ret .completed ∧
      ¬Derives (bytes "POST / HTTP/1.1\r\nTransfer-Encoding: chunked\r\n\r\nzz\r\n\r\n")) := by
  refine ⟨⟨by decide +kernel, fun h => ?_⟩, by decide +kernel, fun h => ?_⟩
  · have := h.strict (0, 0) false []
    revert this
    decide +kernel
  · have := h.strict (0, 0) false []
    revert this
    decide +kernel

end ArrowheadCore.Http
