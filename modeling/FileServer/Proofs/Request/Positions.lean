import FileServer.Proofs.Request.Course
import FileServer.Proofs.Request.Scanning

/-!
# Where a parser stands

Two places belong to a parser, the start of the line that it reads and its cursor.  Whatever
buffer a call gets, the line starts no later than the cursor, and the cursor goes on, but never
past the end of the buffer.  A cursor that is behind the end already, since an earlier buffer
was longer, stays where it is.
-/

namespace FileServer

/-- A broken line has its carriage return inside of the bytes scanned. -/
theorem Line.scan_malformed {bytes : Bytes} {skipped : Nat}
    (found : scan bytes = .malformed skipped) : skipped < bytes.length := by
  induction bytes generalizing skipped with
  | nil => cases found
  | cons byte rest ih =>
      by_cases isReturn : byte = cr
      · simp only [scan, isReturn, ↓reduceIte] at found
        split at found
        · cases found
        · split at found <;> cases found
          exact Nat.zero_lt_succ _
      · by_cases isFeed : byte = lf
        · simp only [scan, if_neg isReturn, if_pos isFeed] at found
          cases found
        · rw [scan_cons_of_plain isReturn isFeed] at found
          cases scanned : scan rest with
          | complete | unfinished => simp [scanned, Scan.shift] at found
          | malformed inner =>
              rw [scanned] at found
              cases found
              exact Nat.succ_lt_succ (ih scanned)

namespace Parser

/-- The line that is read starts no later than the cursor. -/
def Ordered (parser : Parser) : Prop :=
  parser.lineStart ≤ parser.cursor

theorem ordered_fresh (capacity : Nat) : (fresh capacity).Ordered :=
  Nat.le_refl 0

/-- A search for the end of a line moves the cursor on. -/
theorem Ordered.nextLine {parser next : Parser} {buffer : Bytes} {status : LineStatus}
    (ordered : parser.Ordered) (found : parser.nextLine buffer = (status, next)) :
    next.Ordered := by
  simp only [Parser.nextLine] at found
  unfold Ordered at ordered ⊢
  split at found <;> cases found <;> dsimp only <;> omega

/-- Behind a line the next one starts at the cursor. -/
theorem ordered_takeLine {next after : Parser} {line : Bytes} {verdict : Verdict}
    (taken : next.beginLine.takeLine line = (verdict, after)) : after.Ordered := by
  have place := samePlace_takeLine next.beginLine line
  rw [taken] at place
  exact Nat.le_of_eq (place.lineStart.trans place.cursor.symm)

/-- Whatever a call concludes, the next one finds the line in place. -/
theorem Course.ordered {parser after : Parser} {buffer : Bytes} {verdict : Verdict}
    (course : Course buffer parser verdict after) (ordered : parser.Ordered) : after.Ordered := by
  induction course with
  | body _ taken =>
      simp only [takeBody] at taken
      split at taken
      · cases taken
        exact ordered
      · cases taken
        exact Nat.le_refl _
  | unfinished _ found | broken _ found => exact ordered.nextLine found
  | goOn _ _ _ taken _ ih => exact ih (ordered_takeLine taken)
  | decide _ _ _ taken _ => exact ordered_takeLine taken

/-! ## The cursor -/

/-- The cursor goes on, at most to the end of the buffer. -/
structure Advances (buffer : Bytes) (before after : Parser) : Prop where
  onward : before.cursor ≤ after.cursor
  bounded : after.cursor ≤ max before.cursor buffer.length

theorem Advances.trans {buffer : Bytes} {first second third : Parser}
    (early : Advances buffer first second) (late : Advances buffer second third) :
    Advances buffer first third := by
  obtain ⟨onward, bounded⟩ := early
  obtain ⟨onwardToo, boundedToo⟩ := late
  constructor <;> omega

/-- A cursor inside of the buffer stays inside. -/
theorem Advances.le_length {buffer : Bytes} {before after : Parser}
    (advances : Advances buffer before after) (inside : before.cursor ≤ buffer.length) :
    after.cursor ≤ buffer.length := by
  have := advances.bounded
  omega

theorem advances_nextLine {parser next : Parser} {buffer : Bytes} {status : LineStatus}
    (found : parser.nextLine buffer = (status, next)) : Advances buffer parser next := by
  cases status with
  | complete stop =>
      obtain ⟨before, behind, inside⟩ := nextLine_complete found
      constructor <;> omega
  | malformed =>
      simp only [nextLine] at found
      split at found <;> cases found
      next skipped scanned =>
        have inside := Line.scan_malformed scanned
        rw [List.length_drop] at inside
        constructor <;> dsimp only <;> omega
  | unfinished =>
      simp only [nextLine] at found
      split at found <;> cases found
      next skipped scanned =>
        have inside := Line.scan_unfinished scanned
        rw [List.length_drop] at inside
        constructor <;> dsimp only <;> omega

/-- Taking a line leaves the cursor behind it. -/
theorem advances_takeLine {next after : Parser} {buffer line : Bytes} {verdict : Verdict}
    (taken : next.beginLine.takeLine line = (verdict, after)) : Advances buffer next after := by
  have place := samePlace_takeLine next.beginLine line
  rw [taken] at place
  have same : after.cursor = next.cursor := place.cursor
  constructor <;> omega

theorem advances_takeBody {parser after : Parser} {buffer : Bytes} {verdict : Verdict}
    (taken : parser.takeBody buffer = (verdict, after)) : Advances buffer parser after := by
  simp only [takeBody] at taken
  split at taken
  · cases taken
    constructor <;> omega
  · cases taken
    constructor
    · exact Nat.le_add_right parser.cursor parser.contentLength
    · show parser.cursor + parser.contentLength ≤ max parser.cursor buffer.length
      omega

theorem Course.advances {parser after : Parser} {buffer : Bytes} {verdict : Verdict}
    (course : Course buffer parser verdict after) : Advances buffer parser after := by
  induction course with
  | body _ taken => exact advances_takeBody taken
  | unfinished _ found | broken _ found => exact advances_nextLine found
  | goOn _ found _ taken _ ih =>
      exact ((advances_nextLine found).trans (advances_takeLine taken)).trans ih
  | decide _ found _ taken _ => exact (advances_nextLine found).trans (advances_takeLine taken)

end Parser

end FileServer
