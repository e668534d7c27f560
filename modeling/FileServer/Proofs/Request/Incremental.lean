import FileServer.Proofs.Request.Course
import FileServer.Proofs.Request.Scanning

/-!
# Requests that arrive in pieces

The parser is called each time bytes have arrived, with all bytes received so
far.  What it keeps between two calls is enough: however the bytes are cut, the
verdict and the state are those of one call on all of them.

A scan for the end of a line goes on where an earlier one stopped, and what it
has found does not depend on what follows.  From the course of a call on a
front part of the bytes this carries over to the call.
-/

namespace FileServer

namespace Parser

/-- A search that found the end of a line, or a broken one, finds the same with
more bytes behind. -/
theorem nextLine_append_of_found {parser next : Parser} {front : Bytes} {status : LineStatus}
    (inside : parser.cursor ≤ front.length)
    (found : parser.nextLine front = (status, next)) (decided : status ≠ .unfinished)
    (more : Bytes) : parser.nextLine (front ++ more) = (status, next) := by
  rw [← found]
  have same : Line.scan ((front ++ more).drop parser.cursor) =
      Line.scan (front.drop parser.cursor) := by
    rw [List.drop_append_of_le_length inside]
    apply Line.scan_append_of_found
    intro skipped scanned
    simp only [nextLine, scanned, Prod.mk.injEq] at found
    exact decided found.1.symm
  simp only [nextLine, same]

/-- A search that ran out of bytes is taken up by the next one. -/
theorem nextLine_append_of_unfinished {parser next : Parser} {front : Bytes}
    (inside : parser.cursor ≤ front.length)
    (found : parser.nextLine front = (.unfinished, next)) (more : Bytes) :
    parser.nextLine (front ++ more) = next.nextLine (front ++ more) := by
  cases scanned : Line.scan (front.drop parser.cursor) with
  | complete | malformed => simp [nextLine, scanned] at found
  | unfinished skipped =>
      simp only [nextLine, scanned, Prod.mk.injEq, true_and] at found
      subst found
      have goesOn := Line.scan_append_of_unfinished scanned more
      rw [← List.drop_append_of_le_length inside, List.drop_drop] at goesOn
      simp only [nextLine]
      rw [goesOn]
      cases Line.scan ((front ++ more).drop (parser.cursor + skipped)) <;>
        simp only [Line.Scan.behind, Nat.add_assoc]

/-- Two parsers that find the same line at the same place have the same course. -/
theorem Course.of_sameSearch {left right after : Parser} {buffer : Bytes} {verdict : Verdict}
    (course : Course buffer right verdict after) (beforeBody : left.phase ≠ .body)
    (phases : right.phase = left.phase) (starts : right.lineStart = left.lineStart)
    (searches : left.nextLine buffer = right.nextLine buffer) :
    Course buffer left verdict after := by
  cases course with
  | body inBody => exact (beforeBody (phases ▸ inBody)).elim
  | unfinished _ found => exact .unfinished beforeBody (searches.trans found)
  | broken _ found => exact .broken beforeBody (searches.trans found)
  | goOn _ found cut taken rest =>
      exact .goOn beforeBody (searches.trans found) (starts ▸ cut) taken rest
  | decide _ found cut taken decided =>
      exact .decide beforeBody (searches.trans found) (starts ▸ cut) taken decided

/-- A parser that stands in a buffer: its line starts no later than its cursor,
and the cursor is not behind the end. -/
structure Inside (parser : Parser) (buffer : Bytes) : Prop where
  ordered : parser.lineStart ≤ parser.cursor
  bounded : parser.cursor ≤ buffer.length

theorem inside_fresh (capacity : Nat) (buffer : Bytes) : (fresh capacity).Inside buffer where
  ordered := Nat.le_refl 0
  bounded := Nat.zero_le _

theorem Inside.append {parser : Parser} {front : Bytes} (inside : parser.Inside front)
    (more : Bytes) : parser.Inside (front ++ more) where
  ordered := inside.ordered
  bounded := by
    have := inside.bounded
    simp only [List.length_append]
    omega

/-- After a line the parser stands behind it. -/
theorem Inside.takeLine {parser next after : Parser} {buffer line : Bytes} {stop : Nat}
    {verdict : Verdict} (found : parser.nextLine buffer = (.complete stop, next))
    (taken : next.beginLine.takeLine line = (verdict, after)) : after.Inside buffer := by
  have moved := nextLine_complete found
  have place := samePlace_takeLine next.beginLine line
  rw [taken] at place
  constructor
  · rw [place.lineStart, place.cursor]
    exact Nat.le_refl next.cursor
  · rw [place.cursor, cursor_beginLine]
    omega

/-- A call that needs more bytes leaves the parser inside of the buffer. -/
theorem Course.inside {parser after : Parser} {buffer : Bytes}
    (course : Course buffer parser .incomplete after) (inside : parser.Inside buffer) :
    after.Inside buffer := by
  generalize needed : Verdict.incomplete = verdict at course
  induction course with
  | @body parser _ _ inBody taken =>
      simp only [takeBody] at taken
      split at taken
      · cases taken
        exact inside
      · cases needed
        cases taken
  | @unfinished parser next _ found =>
      simp only [nextLine] at found
      split at found
      · cases found
      · cases found
      · next skipped scanned =>
          cases found
          have bound := Line.scan_unfinished scanned
          have := inside.ordered
          have := inside.bounded
          rw [List.length_drop] at bound
          constructor <;> dsimp only <;> omega
  | broken => cases needed
  | goOn _ found _ taken _ ih => exact ih (.takeLine found taken) needed
  | decide _ _ _ _ decided => exact (decided needed.symm).elim

/-- A complete request ends inside of the buffer. -/
theorem Course.cursor_le {parser after : Parser} {buffer : Bytes}
    (course : Course buffer parser .complete after) (inside : parser.Inside buffer) :
    after.cursor ≤ buffer.length := by
  generalize complete : Verdict.complete = verdict at course
  induction course with
  | body inBody taken =>
      simp only [takeBody] at taken
      split at taken
      · cases taken
        cases complete
      · cases taken
        have := inside.bounded
        dsimp only
        omega
  | unfinished => cases complete
  | broken => cases complete
  | goOn _ found _ taken _ ih => exact ih (.takeLine found taken) complete
  | decide _ found _ taken _ => exact (Inside.takeLine found taken).bounded

/-- What a call has decided does not depend on the bytes behind. -/
theorem Course.append_of_decided {parser after : Parser} {front : Bytes} {verdict : Verdict}
    (course : Course front parser verdict after) (inside : parser.Inside front)
    (decided : verdict ≠ .incomplete) (more : Bytes) :
    Course (front ++ more) parser verdict after := by
  induction course with
  | @body parser _ _ inBody taken =>
      apply Course.body inBody
      simp only [takeBody] at taken ⊢
      split at taken
      · cases taken
        exact (decided rfl).elim
      · next enough =>
          rw [if_neg, taken]
          simp only [List.length_append]
          omega
  | unfinished => exact (decided rfl).elim
  | broken beforeBody found =>
      exact .broken beforeBody
        (nextLine_append_of_found inside.bounded found (by simp) more)
  | goOn beforeBody found cut taken _ ih =>
      have moved := nextLine_complete found
      apply Course.goOn beforeBody
        (nextLine_append_of_found inside.bounded found (by simp) more) _ taken
      · exact ih (.takeLine found taken) decided
      · rw [slice?_append (by omega), cut]
  | decide beforeBody found cut taken decides =>
      have moved := nextLine_complete found
      apply Course.decide beforeBody
        (nextLine_append_of_found inside.bounded found (by simp) more) _ taken decides
      rw [slice?_append (by omega), cut]

/-- A call that needs more bytes stops at a place from which the next call goes on. -/
theorem Course.append_of_incomplete {parser middle after : Parser} {front more : Bytes}
    {verdict : Verdict} (course : Course front parser .incomplete middle)
    (inside : parser.Inside front) (rest : Course (front ++ more) middle verdict after) :
    Course (front ++ more) parser verdict after := by
  generalize needed : Verdict.incomplete = first at course
  induction course with
  | @body parser _ _ inBody taken =>
      simp only [takeBody] at taken
      split at taken
      · cases taken
        exact rest
      · cases needed
        cases taken
  | unfinished beforeBody found =>
      obtain ⟨samePhase, -, sameStart⟩ := nextLine_keeps found
      exact rest.of_sameSearch beforeBody samePhase sameStart
        (nextLine_append_of_unfinished inside.bounded found more)
  | broken => cases needed
  | goOn beforeBody found cut taken _ ih =>
      have moved := nextLine_complete found
      apply Course.goOn beforeBody
        (nextLine_append_of_found inside.bounded found (by simp) more) _ taken
      · exact ih (.takeLine found taken) rest needed
      · rw [slice?_append (by omega), cut]
  | decide _ _ _ _ decides => exact (decides needed.symm).elim

/-- After a call that needs more bytes, a call on more bytes does what the first
call would have done with them. -/
theorem advance?_append_of_incomplete {parser middle : Parser} {front : Bytes}
    (inside : parser.Inside front) (stopped : parser.advance? front = some (.incomplete, middle))
    (more : Bytes) : middle.advance? (front ++ more) = parser.advance? (front ++ more) := by
  have course := Course.of_advance? stopped
  obtain ⟨verdict, after, result⟩ :=
    advance?_isSome (course.inside inside).ordered (front ++ more)
  rw [result, (course.append_of_incomplete inside (Course.of_advance? result)).advance?_eq]

/-- Calls the parser after each of some pieces has arrived, until it comes to a
verdict.  The bytes `seen` have arrived before. -/
def feed? (parser : Parser) (seen : Bytes) : List Bytes → Option (Verdict × Parser)
  | [] => some (.incomplete, parser)
  | piece :: pieces =>
      match parser.advance? (seen ++ piece) with
      | some (.incomplete, next) => feed? next (seen ++ piece) pieces
      | result => result

/-- A parser that needs more bytes stays as it is when it is called without any. -/
theorem advance?_again {parser middle : Parser} {buffer : Bytes} (inside : parser.Inside buffer)
    (stopped : parser.advance? buffer = some (.incomplete, middle)) :
    middle.advance? buffer = some (.incomplete, middle) := by
  have same := advance?_append_of_incomplete inside stopped []
  rwa [List.append_nil, stopped] at same

/-- What a call has decided is decided on all bytes that begin with the buffer. -/
theorem advance?_append_of_decided {parser after : Parser} {front : Bytes} {verdict : Verdict}
    (inside : parser.Inside front) (result : parser.advance? front = some (verdict, after))
    (decided : verdict ≠ .incomplete) (more : Bytes) :
    parser.advance? (front ++ more) = some (verdict, after) :=
  ((Course.of_advance? result).append_of_decided inside decided more).advance?_eq

/-- Feeding pieces to a parser that waits for more gives what one call on all
bytes gives. -/
theorem feed?_eq_advance? {parser : Parser} {seen : Bytes} (inside : parser.Inside seen)
    (waiting : parser.advance? seen = some (.incomplete, parser)) (pieces : List Bytes) :
    parser.feed? seen pieces = parser.advance? (seen ++ pieces.flatten) := by
  induction pieces generalizing parser seen with
  | nil => rw [feed?, List.flatten_nil, List.append_nil, waiting]
  | cons piece pieces ih =>
      have inFront := inside.append piece
      obtain ⟨verdict, next, result⟩ := advance?_isSome inside.ordered (seen ++ piece)
      rw [feed?, result, List.flatten_cons, ← List.append_assoc]
      cases verdict with
      | incomplete =>
          dsimp only
          rw [ih ((Course.of_advance? result).inside inFront) (advance?_again inFront result)]
          exact advance?_append_of_incomplete inFront result pieces.flatten
      | complete => exact (advance?_append_of_decided inFront result (by simp) _).symm
      | malformed => exact (advance?_append_of_decided inFront result (by simp) _).symm

theorem advance?_fresh_nil (capacity : Nat) :
    (fresh capacity).advance? [] = some (.incomplete, fresh capacity) :=
  (Course.unfinished (by simp [fresh]) rfl).advance?_eq

/-- However the bytes are cut into pieces, calling the parser after each piece
until it comes to a verdict ends with the verdict and the state of one call on
all bytes.  A parser that waits stays as it is when nothing has arrived, and
what has been decided is not changed by bytes that follow. -/
theorem incremental_eq_oneShot (capacity : Nat) (pieces : List Bytes) :
    ∃ verdict parser,
      (fresh capacity).feed? [] pieces = some (verdict, parser) ∧
      (fresh capacity).advance? pieces.flatten = some (verdict, parser) ∧
      (verdict = .incomplete →
        parser.advance? pieces.flatten = some (.incomplete, parser)) ∧
      (verdict ≠ .incomplete → ∀ more,
        (fresh capacity).advance? (pieces.flatten ++ more) = some (verdict, parser)) := by
  have inside := inside_fresh capacity pieces.flatten
  obtain ⟨verdict, parser, result⟩ := advance?_isSome inside.ordered pieces.flatten
  refine ⟨verdict, parser, ?_, result, ?_, ?_⟩
  · rw [feed?_eq_advance? (inside_fresh capacity []) (advance?_fresh_nil capacity) pieces]
    exact result
  · rintro rfl
    exact advance?_again inside result
  · intro decided more
    exact advance?_append_of_decided inside result decided more

/-- A request that is cut inside a word and between the two bytes of a line end is complete
with its last piece, and the bytes behind it are left. -/
example : (feed? (fresh 64) [] (["GE", "T /a HTTP/1.1\r", "\n\r\nGET"].map fun piece =>
    Text.bytes piece.toList)).map (fun result => (result.1, result.2.cursor)) =
      some (.complete, 19) := by
  decide +kernel

/-- A line end whose second byte is a wrong one breaks a rule once that byte is there. -/
example : (feed? (fresh 64) [] (["GET /a HTTP/1.1\r", "x\r\n"].map fun piece =>
    Text.bytes piece.toList)).map Prod.fst = some .malformed := by
  decide +kernel

end Parser

end FileServer
