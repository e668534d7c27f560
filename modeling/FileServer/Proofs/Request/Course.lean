import FileServer.Request.Parser

/-!
# The course of a parse

One call of the parser takes a line after the other and stops at a verdict.  The
relation `Course` has one rule for each way a line can go, so that an argument
about a call is an induction on its course instead of on the bytes left.

The parser looks outside of the buffer only if a line starts behind the cursor.
Every step puts the start of the next line where the cursor is, so no call on a
parser with its line start in place fails.
-/

namespace FileServer.Parser

/-- The parser with the next line starting at its cursor. -/
def beginLine (parser : Parser) : Parser :=
  { parser with lineStart := parser.cursor }

@[simp] theorem phase_beginLine (parser : Parser) : parser.beginLine.phase = parser.phase := rfl

@[simp] theorem url_beginLine (parser : Parser) : parser.beginLine.url = parser.url := rfl

@[simp] theorem cursor_beginLine (parser : Parser) : parser.beginLine.cursor = parser.cursor := rfl

@[simp] theorem lineStart_beginLine (parser : Parser) :
    parser.beginLine.lineStart = parser.cursor := rfl

/-- What one call on a buffer does, line by line, up to its verdict. -/
inductive Course (buffer : Bytes) : Parser → Verdict → Parser → Prop
  /-- The body is what is read. -/
  | body {parser after : Parser} {verdict : Verdict} (inBody : parser.phase = .body)
      (taken : parser.takeBody buffer = (verdict, after)) : Course buffer parser verdict after
  /-- The line at the cursor has no end yet. -/
  | unfinished {parser next : Parser} (beforeBody : parser.phase ≠ .body)
      (found : parser.nextLine buffer = (.unfinished, next)) :
      Course buffer parser .incomplete next
  /-- The line at the cursor is broken. -/
  | broken {parser next : Parser} (beforeBody : parser.phase ≠ .body)
      (found : parser.nextLine buffer = (.malformed, next)) :
      Course buffer parser .malformed next
  /-- The line at the cursor is taken, and the parser goes on. -/
  | goOn {parser next after last : Parser} {stop : Nat} {line : Bytes} {verdict : Verdict}
      (beforeBody : parser.phase ≠ .body)
      (found : parser.nextLine buffer = (.complete stop, next))
      (cut : slice? buffer parser.lineStart stop = some line)
      (taken : next.beginLine.takeLine line = (.incomplete, after))
      (rest : Course buffer after verdict last) : Course buffer parser verdict last
  /-- The line at the cursor decides. -/
  | decide {parser next after : Parser} {stop : Nat} {line : Bytes} {verdict : Verdict}
      (beforeBody : parser.phase ≠ .body)
      (found : parser.nextLine buffer = (.complete stop, next))
      (cut : slice? buffer parser.lineStart stop = some line)
      (taken : next.beginLine.takeLine line = (verdict, after))
      (decided : verdict ≠ .incomplete) : Course buffer parser verdict after

/-- A call that gives a result has a course. -/
theorem Course.of_advance? {parser after : Parser} {buffer : Bytes} {verdict : Verdict}
    (result : parser.advance? buffer = some (verdict, after)) :
    Course buffer parser verdict after := by
  fun_induction advance? parser buffer with
  | case1 parser inBody =>
      exact .body inBody (Option.some.inj result)
  | case2 parser beforeBody next found =>
      cases result
      exact .unfinished beforeBody found
  | case3 parser beforeBody next found =>
      cases result
      exact .broken beforeBody found
  | case4 => cases result
  | case5 parser beforeBody stop next found line cut after taken ih =>
      exact .goOn beforeBody found cut taken (ih result)
  | case6 parser beforeBody stop next found line cut decided =>
      have taken := Option.some.inj result
      refine .decide beforeBody found cut taken ?_
      rintro rfl
      exact decided after taken

/-- A course leads to the result of the call. -/
theorem Course.advance?_eq {parser after : Parser} {buffer : Bytes} {verdict : Verdict}
    (course : Course buffer parser verdict after) :
    parser.advance? buffer = some (verdict, after) := by
  induction course with
  | body inBody taken => rw [advance?, if_pos inBody, taken]
  | unfinished beforeBody found =>
      rw [advance?, if_neg beforeBody]
      split
      · next again => cases found.symm.trans again; rfl
      · next again => cases found.symm.trans again
      · next again => cases found.symm.trans again
  | broken beforeBody found =>
      rw [advance?, if_neg beforeBody]
      split
      · next again => cases found.symm.trans again
      · next again => cases found.symm.trans again; rfl
      · next again => cases found.symm.trans again
  | goOn beforeBody found cut taken _ ih =>
      rw [advance?, if_neg beforeBody]
      split
      · next again => cases found.symm.trans again
      · next again => cases found.symm.trans again
      · next again =>
          cases found.symm.trans again
          rw [cut]
          dsimp only
          split
          · next same => cases taken.symm.trans same; exact ih
          · next other => exact (other _ taken).elim
  | decide beforeBody found cut taken decided =>
      rw [advance?, if_neg beforeBody]
      split
      · next again => cases found.symm.trans again
      · next again => cases found.symm.trans again
      · next again =>
          cases found.symm.trans again
          rw [cut]
          dsimp only
          split
          · next same => cases taken.symm.trans same; exact (decided rfl).elim
          · exact congrArg some taken

/-! ## What taking a line leaves alone -/

/-- Two states of a parser that stand at the same place of the same buffer. -/
structure SamePlace (left right : Parser) : Prop where
  cursor : left.cursor = right.cursor
  lineStart : left.lineStart = right.lineStart
  capacity : left.capacity = right.capacity

/-- Taking a line moves nothing. -/
theorem samePlace_takeLine (parser : Parser) (line : Bytes) :
    SamePlace (parser.takeLine line).2 parser := by
  simp only [takeLine, takeRequestLine, takeHeaderLine, endHeaders]
  repeat' split
  all_goals exact ⟨rfl, rfl, rfl⟩

/-- Behind the request line, taking a line leaves the request line alone. -/
theorem takeLine_of_ne_requestLine {parser : Parser} (line : Bytes)
    (behind : parser.phase ≠ .requestLine) :
    (parser.takeLine line).2.phase ≠ .requestLine ∧
      (parser.takeLine line).2.url = parser.url := by
  simp only [takeLine, takeHeaderLine, endHeaders]
  repeat' split
  all_goals simp [behind]

/-- The request line is never the last line of a request. -/
theorem takeLine_of_requestLine {parser after : Parser} {line : Bytes} {verdict : Verdict}
    (first : parser.phase = .requestLine) (taken : parser.takeLine line = (verdict, after)) :
    verdict = .malformed ∨ verdict = .incomplete ∧ after.phase = .headers := by
  simp only [takeLine, first, takeRequestLine] at taken
  repeat' split at taken
  all_goals cases taken
  all_goals simp

/-- What a search for the end of a line changes is the cursor. -/
theorem nextLine_eq (parser : Parser) (buffer : Bytes) :
    (parser.nextLine buffer).2 =
      { parser with cursor := (parser.nextLine buffer).2.cursor } := by
  simp only [nextLine]
  split <;> rfl

/-- A search for the end of a line does not touch what was read before. -/
theorem nextLine_keeps {parser next : Parser} {buffer : Bytes} {status : LineStatus}
    (found : parser.nextLine buffer = (status, next)) :
    next.phase = parser.phase ∧ next.url = parser.url ∧ next.lineStart = parser.lineStart := by
  have same : next = { parser with cursor := next.cursor } := by
    have whole := nextLine_eq parser buffer
    rwa [found] at whole
  rw [same]
  exact ⟨rfl, rfl, rfl⟩

/-- A call keeps the capacity. -/
theorem Course.capacity_eq {parser after : Parser} {buffer : Bytes} {verdict : Verdict}
    (course : Course buffer parser verdict after) : after.capacity = parser.capacity := by
  have searched {parser next : Parser} {status : LineStatus}
      (found : parser.nextLine buffer = (status, next)) : next.capacity = parser.capacity := by
    have same := congrArg capacity (nextLine_eq parser buffer)
    rwa [found] at same
  have took {next after : Parser} {line : Bytes} {verdict : Verdict}
      (taken : next.beginLine.takeLine line = (verdict, after)) :
      after.capacity = next.capacity := by
    have same := (samePlace_takeLine next.beginLine line).capacity
    rwa [taken] at same
  induction course with
  | body inBody taken =>
      simp only [takeBody] at taken
      split at taken <;> cases taken <;> rfl
  | unfinished _ found => exact searched found
  | broken _ found => exact searched found
  | goOn _ found _ taken _ ih => exact ih.trans ((took taken).trans (searched found))
  | decide _ found _ taken _ => exact (took taken).trans (searched found)

/-! ## The request line is read once -/

/-- Behind the request line, a call leaves the request line alone. -/
theorem Course.behind_requestLine {parser after : Parser} {buffer : Bytes} {verdict : Verdict}
    (course : Course buffer parser verdict after) (behind : parser.phase ≠ .requestLine) :
    after.phase ≠ .requestLine ∧ after.url = parser.url := by
  induction course with
  | body inBody taken =>
      simp only [takeBody] at taken
      split at taken
      · cases taken
        exact ⟨behind, rfl⟩
      · cases taken
        exact ⟨behind, rfl⟩
  | unfinished _ found =>
      obtain ⟨samePhase, sameUrl, -⟩ := nextLine_keeps found
      exact ⟨samePhase ▸ behind, sameUrl⟩
  | broken _ found =>
      obtain ⟨samePhase, sameUrl, -⟩ := nextLine_keeps found
      exact ⟨samePhase ▸ behind, sameUrl⟩
  | @goOn _ next _ _ _ line _ _ found _ taken _ ih =>
      obtain ⟨samePhase, sameUrl, -⟩ := nextLine_keeps found
      have kept := takeLine_of_ne_requestLine line
        (show next.beginLine.phase ≠ .requestLine from samePhase ▸ behind)
      rw [taken] at kept
      obtain ⟨behindLast, urlLast⟩ := ih kept.1
      exact ⟨behindLast, urlLast.trans (kept.2.trans sameUrl)⟩
  | @decide _ next _ _ line _ _ found _ taken _ =>
      obtain ⟨samePhase, sameUrl, -⟩ := nextLine_keeps found
      have kept := takeLine_of_ne_requestLine line
        (show next.beginLine.phase ≠ .requestLine from samePhase ▸ behind)
      rw [taken] at kept
      exact ⟨kept.1, kept.2.trans sameUrl⟩

/-- A request is complete only behind its request line. -/
theorem Course.complete_behind {parser after : Parser} {buffer : Bytes}
    (course : Course buffer parser .complete after) : after.phase ≠ .requestLine := by
  by_cases behind : parser.phase = .requestLine
  · generalize complete : Verdict.complete = verdict at course
    cases course with
    | body inBody => simp [behind] at inBody
    | unfinished => cases complete
    | broken => cases complete
    | @goOn _ next _ _ _ _ _ _ found _ taken rest =>
        obtain ⟨samePhase, -, -⟩ := nextLine_keeps found
        have first : next.beginLine.phase = .requestLine := samePhase.trans behind
        rcases takeLine_of_requestLine first taken with wrong | ⟨-, headers⟩
        · cases wrong
        · exact (rest.behind_requestLine (by simp [headers])).1
    | @decide _ next _ _ _ _ _ found _ taken =>
        obtain ⟨samePhase, -, -⟩ := nextLine_keeps found
        have first : next.beginLine.phase = .requestLine := samePhase.trans behind
        rcases takeLine_of_requestLine first taken with wrong | ⟨wrong, -⟩
        · cases complete.trans wrong
        · cases complete.trans wrong
  · exact (course.behind_requestLine behind).1

/-! ## Calls do not fail -/

/-- A call on a parser whose line starts no later than the cursor gives a result. -/
theorem advance?_isSome {parser : Parser} (ordered : parser.lineStart ≤ parser.cursor)
    (buffer : Bytes) : ∃ verdict after, parser.advance? buffer = some (verdict, after) := by
  fun_induction advance? parser buffer with
  | case1 => exact ⟨_, _, rfl⟩
  | case2 => exact ⟨_, _, rfl⟩
  | case3 => exact ⟨_, _, rfl⟩
  | case4 parser beforeBody stop next found missing =>
      have moved := nextLine_complete found
      have inside : parser.lineStart ≤ stop ∧ stop ≤ buffer.length := by omega
      rw [← slice?_isSome_iff, missing] at inside
      cases inside
  | case5 parser beforeBody stop next found line cut after taken ih =>
      have place := samePlace_takeLine next.beginLine line
      rw [show next.beginLine.takeLine line = (.incomplete, after) from taken] at place
      apply ih
      rw [place.lineStart, place.cursor]
      exact Nat.le_refl next.cursor
  | case6 parser beforeBody stop next found line cut decided =>
      exact ⟨_, _, rfl⟩

end FileServer.Parser
