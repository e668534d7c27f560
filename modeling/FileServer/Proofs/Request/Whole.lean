import FileServer.Proofs.Request.Incremental
import FileServer.Proofs.Request.Recognition

/-!
# Whole requests

A whole request is a request line, the lines of the header up to an empty one, and
a body that is as long as the header says, with nothing behind it.  When it fits,
the parser completes it with its last byte and not before: any part in front of
that leaves the parser waiting, and bytes behind make no difference.
-/

namespace FileServer.Grammar

open FileServer.Parser (Course)

/-- A request for a url with some lines in its header, all of its body, and nothing
behind it. -/
inductive Whole (request : Bytes) (url : Text) (lines : List Bytes) : Prop
  | mk {rest body : Bytes} (headed : Headed request url lines rest)
      (opens : Opens rest (.line [] body))
      (exact : body.length = (Request.of url lines).contentLength) : Whole request url lines

variable {request : Bytes} {url : Text} {lines : List Bytes} {capacity : Nat}

/-- The parser completes a request behind its body. -/
theorem Headed.completes {rest body : Bytes} (headed : Headed request url lines rest)
    (opens : Opens rest (.line [] body))
    (enough : (Request.of url lines).contentLength ≤ body.length)
    (fits : (Request.of url lines).contentLength = 0 ∨
      request.length + (Request.of url lines).contentLength ≤ capacity + body.length) :
    ∃ parser, Course request (.fresh capacity) .complete parser ∧
      Request.ofParser parser = .of url lines ∧
      parser.cursor + body.length = request.length + (Request.of url lines).contentLength := by
  obtain ⟨start, place, left, room, said, known, goesOn, decides⟩ := headed.ends opens capacity
  by_cases bodiless : (Request.of url lines).contentLength = 0
  · refine ⟨start, decides start .complete ?_ (by simp), known, by omega⟩
    rw [Parser.endHeaders, if_pos (said.trans bodiless)]
  · have small := fits.resolve_left bodiless
    have taken : ({ start with phase := .body } : Parser).takeBody request =
        (.complete, { start with
          phase := .body
          cursor := start.cursor + start.contentLength
          lineStart := start.cursor + start.contentLength }) := by
      rw [Parser.takeBody, if_neg]
      dsimp only
      omega
    refine ⟨_, goesOn { start with phase := .body } _ _ ?_ (.body rfl taken), known, ?_⟩
    · rw [Parser.endHeaders, if_neg (by omega), if_neg (by omega)]
    · dsimp only
      omega

/-- The parser completes a whole request at its end. -/
theorem Whole.course (whole : Whole request url lines) (fits : request.length ≤ capacity) :
    ∃ parser, Course request (.fresh capacity) .complete parser ∧
      Request.ofParser parser = .of url lines ∧ parser.cursor = request.length := by
  obtain ⟨headed, opens, length⟩ := whole
  obtain ⟨parser, course, known, ending⟩ :=
    @Headed.completes _ _ _ capacity _ _ headed opens (Nat.le_of_eq length.symm) (by omega)
  exact ⟨parser, course, known, by omega⟩

/-- What the parser completes begins with a header and all of its body, and the parser
stops behind them. -/
theorem headed_of_advance? {parser : Parser}
    (advanced : (Parser.fresh capacity).advance? request = some (.complete, parser)) :
    ∃ url lines rest body, Headed request url lines rest ∧ Opens rest (.line [] body) ∧
      Request.ofParser parser = .of url lines ∧
      parser.cursor + body.length = request.length + (Request.of url lines).contentLength := by
  have reads := reads_of_advance? advanced
  generalize said : Request.ofParser parser = known at reads
  obtain ⟨url, lines, rest, body, headed, opens, enough, fits, rfl⟩ :
      ∃ url lines rest body, Headed request url lines rest ∧ Opens rest (.line [] body) ∧
        (Request.of url lines).contentLength ≤ body.length ∧
        ((Request.of url lines).contentLength = 0 ∨
          request.length + (Request.of url lines).contentLength ≤ capacity + body.length) ∧
        known = .of url lines := by
    cases reads with
    | noBody headed opens noLength =>
        exact ⟨_, _, _, _, headed, opens, by omega, .inl noLength, rfl⟩
    | wholeBody headed opens hasLength fits enough =>
        exact ⟨_, _, _, _, headed, opens, enough, .inr (by omega), rfl⟩
  obtain ⟨other, course, -, stops⟩ := headed.completes opens enough fits
  cases advanced.symm.trans course.advance?_eq
  exact ⟨url, lines, rest, body, headed, opens, rfl, stops⟩

/-- What the parser completes at its end is a whole request. -/
theorem whole_of_advance? {parser : Parser}
    (advanced : (Parser.fresh capacity).advance? request = some (.complete, parser))
    (ending : parser.cursor = request.length) :
    ∃ url lines, Whole request url lines ∧ Request.ofParser parser = .of url lines := by
  obtain ⟨url, lines, rest, body, headed, opens, known, stops⟩ := headed_of_advance? advanced
  exact ⟨url, lines, .mk headed opens (by omega), known⟩

/-- A front part of a whole request leaves the parser waiting. -/
theorem Whole.incomplete (whole : Whole request url lines) (fits : request.length ≤ capacity)
    {front : Bytes} (part : front <+: request) (short : front.length < request.length) :
    ∃ parser, (Parser.fresh capacity).advance? front = some (.incomplete, parser) := by
  obtain ⟨parser, course, -, ending⟩ := whole.course fits
  obtain ⟨more, rfl⟩ := part
  have inside := Parser.inside_fresh capacity front
  obtain ⟨verdict, after, result⟩ := Parser.advance?_isSome inside.ordered front
  by_cases waiting : verdict = .incomplete
  · exact ⟨after, waiting ▸ result⟩
  · -- What is decided stays, but the end of the request is behind the front part.
    have decided := Parser.advance?_append_of_decided inside result waiting more
    cases course.advance?_eq.symm.trans decided
    have early := (Course.of_advance? result).cursor_le inside
    omega

/-- A whole request is complete whatever is behind it. -/
theorem Whole.complete (whole : Whole request url lines) (fits : request.length ≤ capacity) :
    ∃ parser, Request.ofParser parser = .of url lines ∧
      ∀ more, (Parser.fresh capacity).advance? (request ++ more) = some (.complete, parser) := by
  obtain ⟨parser, course, known, -⟩ := whole.course fits
  refine ⟨parser, known, fun more => ?_⟩
  exact Parser.advance?_append_of_decided (Parser.inside_fresh capacity request)
    course.advance?_eq (by simp) more

/-! ## Requests that are too long -/

/-- Some bytes begin with the header of a request, up to the empty line, of a size. -/
def Header (bytes : Bytes) (url : Text) (lines : List Bytes) (size : Nat) : Prop :=
  ∃ rest body, Headed bytes url lines rest ∧ Opens rest (.line [] body) ∧
    size + body.length = bytes.length

/-- A stream that does not begin with a request of a limited length. -/
inductive Oversized (limit : Nat) (stream : Bytes) : Prop
  /-- The header has not ended when the limit is reached. -/
  | header (enough : limit ≤ stream.length)
      (unfinished : ∀ url lines size, Header stream url lines size → limit < size)
  /-- Header and body are longer than the limit. -/
  | body {url : Text} {lines : List Bytes} {size : Nat} (header : Header stream url lines size)
      (tooLong : limit < size + (Request.of url lines).contentLength)
  /-- The header gives a length that no machine word holds. -/
  | length {url : Text} {lines : List Bytes} {line rest after : Bytes}
      (headed : Headed stream url lines rest) (opens : Opens rest (.line line after))
      (bad : BadLength line)

theorem Headed.length_lt {bytes rest : Bytes} (headed : Headed bytes url lines rest) :
    rest.length < bytes.length := by
  induction headed with
  | first opens => exact opens.length_lt
  | next _ opens _ _ ih => exact Nat.lt_trans opens.length_lt ih

/-- A request that is too long is refused at the end of its header, or its header
reaches beyond the limit. -/
theorem Header.refused {size : Nat} (header : Header request url lines size)
    (tooLong : capacity < size + (Request.of url lines).contentLength) :
    ∃ verdict parser, (Parser.fresh capacity).advance? request = some (verdict, parser) ∧
      (verdict = .malformed ∨ verdict = .complete ∧ capacity < parser.cursor) := by
  obtain ⟨rest, body, headed, opens, length⟩ := header
  by_cases noLength : (Request.of url lines).contentLength = 0
  · obtain ⟨parser, course, -, stops⟩ :=
      @Headed.completes _ _ _ capacity _ _ headed opens (by omega) (.inl noLength)
    exact ⟨.complete, parser, course.advance?_eq, .inr ⟨rfl, by omega⟩⟩
  · obtain ⟨parser, course, -⟩ :=
      (.noRoom headed opens noLength (by omega) : Reads capacity request _ _).course
    exact ⟨.malformed, parser, course.advance?_eq, .inl rfl⟩

/-- Where the length of the body is no number, a request is refused. -/
theorem refused_of_badLength {line rest after : Bytes} (headed : Headed request url lines rest)
    (opens : Opens rest (.line line after)) (bad : BadLength line) :
    ∃ parser, (Parser.fresh capacity).advance? request = some (.malformed, parser) := by
  obtain ⟨parser, course, -⟩ := (.badLength headed opens bad : Reads capacity request _ _).course
  exact ⟨parser, course.advance?_eq⟩

/-- The parser does not complete a request that is too long within the limit. -/
theorem Oversized.cursor_gt {parser : Parser} (oversized : Oversized capacity request)
    (advanced : (Parser.fresh capacity).advance? request = some (.complete, parser)) :
    capacity < parser.cursor := by
  cases oversized with
  | header enough unfinished =>
      obtain ⟨url, lines, rest, body, headed, opens, -, stops⟩ := headed_of_advance? advanced
      have inside := headed.length_lt
      have within := opens.length_lt
      have beyond := unfinished url lines (request.length - body.length)
        ⟨rest, body, headed, opens, by omega⟩
      omega
  | body header tooLong =>
      obtain ⟨verdict, other, same, rfl | ⟨rfl, beyond⟩⟩ := header.refused tooLong
      · cases advanced.symm.trans same
      · cases advanced.symm.trans same
        exact beyond
  | length headed opens bad =>
      obtain ⟨other, same⟩ := refused_of_badLength headed opens bad
      cases advanced.symm.trans same

/-- Of a request that is too long the parser needs no more than the limit. -/
theorem Oversized.limit_le {parser : Parser} (oversized : Oversized capacity request)
    (advanced : (Parser.fresh capacity).advance? request = some (.incomplete, parser)) :
    capacity ≤ request.length := by
  cases oversized with
  | header enough => exact enough
  | body header tooLong =>
      obtain ⟨verdict, other, same, rfl | ⟨rfl, -⟩⟩ := header.refused tooLong
      · cases advanced.symm.trans same
      · cases advanced.symm.trans same
  | length headed opens bad =>
      obtain ⟨other, same⟩ := refused_of_badLength headed opens bad
      cases advanced.symm.trans same

end FileServer.Grammar
