import FileServer.Proofs.Request.Course
import FileServer.Proofs.Request.Lines

/-!
# The parser recognizes the grammar

One call of the parser on any bytes gives the verdict and the values that the
grammar gives to them.

Every rule of the grammar is followed by the parser: behind a request line and
some lines of the header it stands at the rest, with the values of these lines,
and what it finds there is what the rule says.  Conversely some rule applies to
any bytes, and since the parser gives only one result, it is the result of that
rule.
-/

namespace FileServer.Grammar

open FileServer.Parser (Course)

/-! ## Following the rules -/

/-- A parser that is about to read the rest of a buffer. -/
structure Stands (parser : Parser) (buffer rest : Bytes) : Prop where
  lineStart : parser.lineStart = parser.cursor
  bounded : parser.cursor ≤ buffer.length
  rest : buffer.drop parser.cursor = rest

theorem stands_fresh (capacity : Nat) (buffer : Bytes) :
    Stands (.fresh capacity) buffer buffer :=
  ⟨rfl, Nat.zero_le _, rfl⟩

theorem Stands.cursor_eq {parser : Parser} {buffer rest : Bytes}
    (stands : Stands parser buffer rest) : parser.cursor = buffer.length - rest.length := by
  have := stands.bounded
  rw [← stands.rest, List.length_drop]
  omega

theorem Stands.takeLine {parser after : Parser} {buffer rest line : Bytes} {verdict : Verdict}
    (stands : Stands parser buffer rest) (taken : parser.takeLine line = (verdict, after)) :
    Stands after buffer rest := by
  have place := Parser.samePlace_takeLine parser line
  rw [taken] at place
  constructor
  · rw [place.lineStart, place.cursor, stands.lineStart]
  · rw [place.cursor]
    exact stands.bounded
  · rw [place.cursor]
    exact stands.rest

/-- A parser at a line goes on with what it makes of the line. -/
theorem Stands.line {parser : Parser} {buffer rest content after : Bytes}
    (stands : Stands parser buffer rest) (beforeBody : parser.phase ≠ .body)
    (opens : Opens rest (.line content after)) :
    ∃ start : Parser, Stands start buffer after ∧ start.phase = parser.phase ∧
      Request.ofParser start = Request.ofParser parser ∧ start.capacity = parser.capacity ∧
      (∀ next verdict last, start.takeLine content = (.incomplete, next) →
        Course buffer next verdict last → Course buffer parser verdict last) ∧
      ∀ next verdict, start.takeLine content = (verdict, next) → verdict ≠ .incomplete →
        Course buffer parser verdict next := by
  obtain ⟨ending, scanned, taken, dropped⟩ := opens.scan_line
  have inside := (Line.scan_complete scanned).2
  have length : rest.length = buffer.length - parser.cursor := by
    rw [← stands.rest, List.length_drop]
  have bounded := stands.bounded
  have found : parser.nextLine buffer = (.complete (parser.cursor + content.length),
      { parser with cursor := parser.cursor + content.length + ending }) := by
    rw [Parser.nextLine, stands.rest, scanned]
  have cut : slice? buffer parser.lineStart (parser.cursor + content.length) = some content := by
    rw [slice?, if_pos (by rw [stands.lineStart]; omega), stands.lineStart, stands.rest,
      Nat.add_sub_cancel_left, taken]
  refine ⟨({ parser with cursor := parser.cursor + content.length + ending } : Parser).beginLine,
    ⟨rfl, ?_, ?_⟩, rfl, rfl, rfl, ?_, ?_⟩
  · rw [Parser.cursor_beginLine]
    dsimp only
    omega
  · rw [Parser.cursor_beginLine]
    dsimp only
    rw [← dropped, ← stands.rest, List.drop_drop, Nat.add_assoc]
  · intro next verdict last incomplete course
    exact .goOn beforeBody found cut incomplete course
  · intro next verdict decided notIncomplete
    exact .decide beforeBody found cut decided notIncomplete

/-- A parser at a broken line refuses it. -/
theorem Stands.broken {parser : Parser} {buffer rest : Bytes}
    (stands : Stands parser buffer rest) (beforeBody : parser.phase ≠ .body)
    (opens : Opens rest .broken) :
    ∃ last, Course buffer parser .malformed last ∧
      Request.ofParser last = Request.ofParser parser := by
  obtain ⟨skipped, scanned⟩ := opens.scan_broken
  refine ⟨{ parser with cursor := parser.cursor + skipped }, .broken beforeBody ?_, rfl⟩
  rw [Parser.nextLine, stands.rest, scanned]

/-- A parser at a line that has not ended waits for more. -/
theorem Stands.unfinished {parser : Parser} {buffer rest : Bytes}
    (stands : Stands parser buffer rest) (beforeBody : parser.phase ≠ .body)
    (opens : Opens rest .unfinished) :
    ∃ last, Course buffer parser .incomplete last ∧
      Request.ofParser last = Request.ofParser parser := by
  obtain ⟨skipped, scanned⟩ := opens.scan_unfinished
  refine ⟨{ parser with cursor := parser.cursor + skipped }, .unfinished beforeBody ?_, rfl⟩
  rw [Parser.nextLine, stands.rest, scanned]

/-- Behind a request line and some lines of the header the parser stands at the
rest and has the values of these lines. -/
structure Reaches (capacity : Nat) (bytes : Bytes) (url : Text) (lines : List Bytes)
    (rest : Bytes) (parser : Parser) : Prop where
  stands : Stands parser bytes rest
  sameCapacity : parser.capacity = capacity
  phase : parser.phase = .headers
  known : Request.ofParser parser = .of url lines
  course : ∀ verdict last, Course bytes parser verdict last →
    Course bytes (.fresh capacity) verdict last

theorem Reaches.beforeBody {capacity : Nat} {bytes rest : Bytes} {url : Text}
    {lines : List Bytes} {parser : Parser}
    (reaches : Reaches capacity bytes url lines rest parser) :
    parser.phase ≠ .body := by
  simp [reaches.phase]

/-- Every rule for the beginning of a request is followed. -/
theorem Headed.reaches {bytes rest : Bytes} {url : Text} {lines : List Bytes}
    (headed : Headed bytes url lines rest) (capacity : Nat) :
    ∃ parser, Reaches capacity bytes url lines rest parser := by
  induction headed with
  | first opens requests =>
      obtain ⟨start, stands, phase, known, room, goesOn, -⟩ :=
        (stands_fresh capacity bytes).line (by simp [Parser.fresh]) opens
      have taken := takeLine_of_requests phase requests
      refine ⟨_, stands.takeLine taken, room, rfl, ?_, fun verdict last =>
        goesOn _ verdict last taken⟩
      simp only [Request.ofParser, Request.mk.injEq] at known
      obtain ⟨-, -, noHost, noKeep, noLength⟩ := known
      simp only [Request.ofParser, noHost, noKeep, noLength]
      rfl
  | @next lines line rest after _ opens nonempty goodLength ih =>
      obtain ⟨parser, reaches⟩ := ih
      obtain ⟨start, stands, phase, known, room, goesOn, -⟩ :=
        reaches.stands.line reaches.beforeBody opens
      obtain ⟨next, taken, nextPhase, nextSays⟩ := takeLine_of_field
        (phase.trans reaches.phase) (known.trans reaches.known) nonempty goodLength
      have place := Parser.samePlace_takeLine start line
      rw [taken] at place
      exact ⟨next, stands.takeLine taken, (place.capacity.trans room).trans reaches.sameCapacity,
        nextPhase, nextSays, fun verdict last course =>
          reaches.course verdict last (goesOn next verdict last taken course)⟩

theorem takeLine_nil {parser : Parser} (phase : parser.phase = .headers) :
    parser.takeLine [] = parser.endHeaders := by
  simp [Parser.takeLine, phase, Parser.takeHeaderLine, Utf8.decodeLossy, Utf8.pieces]

/-- At the end of the header the parser stands at the body, and the length of the
body decides. -/
theorem Headed.ends {bytes rest body : Bytes} {url : Text} {lines : List Bytes}
    (headed : Headed bytes url lines rest) (opens : Opens rest (.line [] body))
    (capacity : Nat) :
    ∃ start : Parser, start.cursor = bytes.length - body.length ∧
      bytes.length - start.cursor = body.length ∧ start.capacity = capacity ∧
      start.contentLength = (Request.of url lines).contentLength ∧
      Request.ofParser start = .of url lines ∧
      (∀ next verdict last, start.endHeaders = (.incomplete, next) →
        Course bytes next verdict last → Course bytes (.fresh capacity) verdict last) ∧
      ∀ next verdict, start.endHeaders = (verdict, next) → verdict ≠ .incomplete →
        Course bytes (.fresh capacity) verdict next := by
  obtain ⟨parser, reaches⟩ := headed.reaches capacity
  obtain ⟨start, stands, phase, known, room, goesOn, decides⟩ :=
    reaches.stands.line reaches.beforeBody opens
  rw [takeLine_nil (phase.trans reaches.phase)] at goesOn decides
  have knownAll := known.trans reaches.known
  refine ⟨start, stands.cursor_eq, ?_, room.trans reaches.sameCapacity,
    congrArg Request.contentLength knownAll, knownAll, ?_, ?_⟩
  · rw [← stands.rest, List.length_drop]
  · intro next verdict last ended course
    exact reaches.course verdict last (goesOn next verdict last ended course)
  · intro next verdict ended decided
    exact reaches.course verdict next (decides next verdict ended decided)

/-- Every rule of the grammar is followed. -/
theorem Reads.course {capacity : Nat} {bytes : Bytes} {verdict : Verdict} {request : Request}
    (reads : Reads capacity bytes verdict request) :
    ∃ parser, Course bytes (.fresh capacity) verdict parser ∧
      Request.ofParser parser = request := by
  have fresh := stands_fresh capacity bytes
  have beforeBody : (Parser.fresh capacity).phase ≠ .body := by simp [Parser.fresh]
  cases reads with
  | noLine opens => exact fresh.unfinished beforeBody opens
  | brokenLine opens => exact fresh.broken beforeBody opens
  | noRequest opens other =>
      obtain ⟨start, -, phase, known, -, -, decides⟩ := fresh.line beforeBody opens
      exact ⟨start, decides start .malformed (takeLine_of_not_requests phase other) (by simp), known⟩
  | noField headed opens =>
      obtain ⟨parser, reaches⟩ := headed.reaches capacity
      obtain ⟨last, course, known⟩ := reaches.stands.unfinished reaches.beforeBody opens
      exact ⟨last, reaches.course _ last course, known.trans reaches.known⟩
  | brokenField headed opens =>
      obtain ⟨parser, reaches⟩ := headed.reaches capacity
      obtain ⟨last, course, known⟩ := reaches.stands.broken reaches.beforeBody opens
      exact ⟨last, reaches.course _ last course, known.trans reaches.known⟩
  | badLength headed opens bad =>
      obtain ⟨parser, reaches⟩ := headed.reaches capacity
      obtain ⟨start, -, phase, known, -, -, decides⟩ :=
        reaches.stands.line reaches.beforeBody opens
      have taken := takeLine_of_badLength (phase.trans reaches.phase) bad
      exact ⟨start, reaches.course _ start (decides start .malformed taken (by simp)),
        known.trans reaches.known⟩
  | noBody headed opens noLength =>
      obtain ⟨start, -, -, -, length, known, -, decides⟩ := headed.ends opens capacity
      refine ⟨start, decides start .complete ?_ (by simp), known⟩
      rw [Parser.endHeaders, if_pos (length.trans noLength)]
  | noRoom headed opens hasLength tooLong =>
      obtain ⟨start, place, -, room, length, known, -, decides⟩ := headed.ends opens capacity
      refine ⟨start, decides start .malformed ?_ (by simp), known⟩
      rw [Parser.endHeaders, if_neg (by omega), if_pos (by omega)]
  | partOfBody headed opens fits short =>
      obtain ⟨start, place, left, room, length, known, goesOn, -⟩ := headed.ends opens capacity
      refine ⟨{ start with phase := .body }, goesOn { start with phase := .body } _ _ ?_
        (.body rfl ?_), known⟩
      · rw [Parser.endHeaders, if_neg (by omega), if_neg (by omega)]
      · rw [Parser.takeBody, if_pos]
        dsimp only
        omega
  | wholeBody headed opens hasLength fits enough =>
      obtain ⟨start, place, left, room, length, known, goesOn, -⟩ := headed.ends opens capacity
      have taken : ({ start with phase := .body } : Parser).takeBody bytes =
          (.complete, { start with
            phase := .body
            cursor := start.cursor + start.contentLength
            lineStart := start.cursor + start.contentLength }) := by
        rw [Parser.takeBody, if_neg]
        dsimp only
        omega
      refine ⟨_, goesOn { start with phase := .body } _ _ ?_ (.body rfl taken), known⟩
      rw [Parser.endHeaders, if_neg (by omega), if_neg (by omega)]

/-! ## Some rule applies -/

/-- Behind the beginning of a request some rule applies. -/
theorem Headed.exists_reads {bytes rest : Bytes} {url : Text} {lines : List Bytes}
    (headed : Headed bytes url lines rest) (capacity : Nat) :
    ∃ verdict request, Reads capacity bytes verdict request := by
  induction size : rest.length using Nat.strongRecOn generalizing lines rest with
  | ind count ih =>
      obtain ⟨opening, opens⟩ := exists_opens rest
      cases opening with
      | unfinished => exact ⟨_, _, .noField headed opens⟩
      | broken => exact ⟨_, _, .brokenField headed opens⟩
      | line line after =>
          by_cases ends : line = []
          · subst ends
            by_cases noLength : (Request.of url lines).contentLength = 0
            · exact ⟨_, _, .noBody headed opens noLength⟩
            rcases Nat.lt_or_ge capacity
              (bytes.length - after.length + (Request.of url lines).contentLength) with
              tooLong | fits
            · exact ⟨_, _, .noRoom headed opens noLength tooLong⟩
            rcases Nat.lt_or_ge after.length (Request.of url lines).contentLength with
              short | enough
            · exact ⟨_, _, .partOfBody headed opens fits short⟩
            · exact ⟨_, _, .wholeBody headed opens noLength fits enough⟩
          · by_cases bad : BadLength line
            · exact ⟨_, _, .badLength headed opens bad⟩
            · exact ih after.length (size ▸ opens.length_lt) (.next headed opens ends bad) rfl

/-- Some rule applies to any bytes. -/
theorem exists_reads (capacity : Nat) (bytes : Bytes) :
    ∃ verdict request, Reads capacity bytes verdict request := by
  obtain ⟨opening, opens⟩ := exists_opens bytes
  cases opening with
  | unfinished => exact ⟨_, _, .noLine opens⟩
  | broken => exact ⟨_, _, .brokenLine opens⟩
  | line line rest =>
      by_cases requested : ∃ url, Requests line url
      · obtain ⟨url, requests⟩ := requested
        exact (Headed.first opens requests).exists_reads capacity
      · rw [not_exists] at requested
        exact ⟨_, _, .noRequest opens requested⟩

/-- What a call of the parser on some bytes gives is what the grammar gives to them. -/
theorem reads_of_advance? {capacity : Nat} {bytes : Bytes} {verdict : Verdict} {parser : Parser}
    (advanced : (Parser.fresh capacity).advance? bytes = some (verdict, parser)) :
    Reads capacity bytes verdict (.ofParser parser) := by
  obtain ⟨other, request, reads⟩ := exists_reads capacity bytes
  obtain ⟨last, course, known⟩ := reads.course
  cases course.advance?_eq.symm.trans advanced
  exact known ▸ reads

/-- The parser accepts exactly the grammar.  One call on any bytes gives a verdict
and a request, and they are those that the grammar gives to the bytes. -/
theorem recognizes_grammar (capacity : Nat) (bytes : Bytes) :
    ((Parser.fresh capacity).advance? bytes).isSome = true ∧
      ∀ verdict request,
        (∃ parser, (Parser.fresh capacity).advance? bytes = some (verdict, parser) ∧
          Request.ofParser parser = request) ↔ Reads capacity bytes verdict request := by
  obtain ⟨verdict, request, reads⟩ := exists_reads capacity bytes
  obtain ⟨parser, course, known⟩ := reads.course
  have result := course.advance?_eq
  refine ⟨by rw [result]; rfl, ?_⟩
  intro other asked
  constructor
  · rintro ⟨last, again, rfl⟩
    cases result.symm.trans again
    rwa [known]
  · intro readsToo
    obtain ⟨last, courseToo, knownToo⟩ := readsToo.course
    exact ⟨last, courseToo.advance?_eq, knownToo⟩

end FileServer.Grammar
