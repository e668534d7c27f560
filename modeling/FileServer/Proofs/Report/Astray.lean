import FileServer.Proofs.Report.Rotation
import Mathlib.Data.List.Perm.Basic

/-!
# When a file cannot be begun

A log that cannot begin the file that is due keeps the file that it has.  If this file was full,
the log is as it was but for what was held back, and the next line needs the same new file again.
If the date has changed, the log already has the new date and no lines of it, so no file is due
for the next line of this day: it goes to the file of the day before, and so do all others until
another file is due.  Meanwhile the log is astray.

The trees that writes meet are not related to each other here: others may change the files between
two writes in any way, so a file can fail to be begun at any of them.
-/

namespace FileServer

open LogFile

/-- An attempt to write a line on a day, with the files that it meets. -/
structure LogAttempt where
  tree : FileTree
  today : Nat
  line : Text

/-- A log with its history: whether it could not begin the file of a new day and has begun no file
since, how many lines were written since it began the file that it is at, and where each line was
written. -/
structure LogCourse where
  file : LogFile
  isAstray : Bool := false
  lines : Nat := 0
  written : List Location := []

namespace LogCourse

/-- The course behind an attempt. -/
def attempt (course : LogCourse) (attempted : LogAttempt) : LogCourse :=
  let due := decide (course.file.Due attempted.today)
  match course.file.writeLine attempted.tree attempted.today attempted.line with
  | (.ok (), file, _) =>
      { file
        isAstray := course.isAstray && !due
        lines := if due then 1 else course.lines + 1
        written := course.written ++ [file.place] }
  | (.error _, file, _) =>
      { course with
        file
        isAstray := course.isAstray || attempted.today != course.file.day }

/-- The course behind some attempts. -/
def run (course : LogCourse) (attempts : List LogAttempt) : LogCourse :=
  attempts.foldl attempt course

end LogCourse

variable {layout : LogLayout} {file next : LogFile} {tree later : FileTree}
variable {course after : LogCourse} {attempted : LogAttempt} {today day part : Nat} {line : Text}

/-! ## What one attempt does -/

namespace LogCourse

/-- The line comes behind the one before. -/
def goOn (course : LogCourse) (held : Bytes) : LogCourse where
  file := { course.file with count := course.file.count + 1, held }
  isAstray := course.isAstray
  lines := course.lines + 1
  written := course.written ++ [course.file.place]

/-- The line is the first one in a file. -/
def begin (course : LogCourse) (today : Nat) (place : Location) (held : Bytes) : LogCourse where
  file := { course.file.dated today with
    count := (course.file.dated today).count + 1
    place
    held }
  isAstray := false
  lines := 1
  written := course.written ++ [place]

/-- The file that was due could not be begun. -/
def fail (course : LogCourse) (today : Nat) : LogCourse :=
  { course with
    file := course.file.dated today
    isAstray := course.isAstray || today != course.file.day }

end LogCourse

/-- All that an attempt can do to a log and its history. -/
inductive Attempts (layout : LogLayout) (course : LogCourse) (today : Nat) : LogCourse → Prop where
  | continued (settled : ¬ course.file.Due today) (held : Bytes) :
      Attempts layout course today (course.goOn held)
  | begun (due : course.file.Due today) (held : Bytes) :
      Attempts layout course today
        (course.begin today (layout.place today (course.file.nextPart today)) held)
  | failed (due : course.file.Due today) : Attempts layout course today (course.fail today)

theorem attempts_attempt (of : layout.Of course.file) :
    Attempts layout course attempted.today (course.attempt attempted) := by
  unfold LogCourse.attempt
  dsimp only
  split
  · next next later wrote =>
      obtain ⟨turned, rotated, held, turning, rfl, -⟩ := writeLine_ok wrote
      rcases of.rotate_ok turning with ⟨settled, rfl, rfl⟩ | ⟨due, rfl, -, -⟩
      · simpa [settled, LogCourse.goOn] using @Attempts.continued layout _ _ settled held
      · simpa [due, LogCourse.begin] using @Attempts.begun layout _ _ due held
  · next kind next later wrote =>
      obtain ⟨due, rfl, -⟩ := rotate_error (writeLine_error wrote)
      exact .failed due

/-- The log has the date of the last attempt, whether it succeeded or not. -/
theorem Attempts.day_eq (attempts : Attempts layout course today after) :
    after.file.day = today := by
  cases attempts with
  | continued settled => exact (Decidable.of_not_not (not_or.1 settled).1).symm
  | begun | failed => rfl

/-- A log that is astray is at the file that it was at. -/
theorem Attempts.place_eq_of_astray (attempts : Attempts layout course today after)
    (astray : after.isAstray = true) : after.file.place = course.file.place := by
  cases attempts with
  | continued | failed => rfl
  | begun => cases astray

/-! ## Where the log is -/

/-- The log is at the file for a part.  If it is not astray, this is a part of its date, and it is
known how many lines came before. -/
structure LogCourse.At (layout : LogLayout) (course : LogCourse) (day part : Nat) : Prop where
  of : layout.Of course.file
  place : course.file.place = layout.place day part
  home : course.isAstray = false → day = course.file.day
  count : course.isAstray = false → course.file.count = part * layout.size + course.lines
  lines : course.isAstray = false → course.lines ≤ layout.size
  unbegun : course.isAstray = false → course.lines = 0 → part = 0

namespace LogCourse.At

/-- If the day goes on and the log is not astray, a file is due when this one is full, and it is
the one for the next part. -/
theorem nextPart_same (located : course.At layout day part) (due : course.file.Due today)
    (same : today = course.file.day) (settled : course.isAstray = false) :
    course.file.nextPart today = part + 1 := by
  have positive := (due.resolve_left fun new => new same).1
  have whole : course.file.count = course.file.nextPart today * layout.size := by
    rw [← located.of.size, ← dated_count_of_due due, dated, if_pos same]
  have count := located.count settled
  have lines := located.lines settled
  have some : 0 < course.lines := Nat.pos_of_ne_zero fun none => by
    rw [none, located.unbegun settled none, Nat.zero_mul] at count
    omega
  refine Nat.le_antisymm ?_ ?_
  · refine Nat.le_of_mul_le_mul_right ?_ layout.positive
    rw [← whole, count, Nat.succ_mul]
    omega
  · have more : part * layout.size < course.file.nextPart today * layout.size := by omega
    exact Nat.lt_of_mul_lt_mul_right more

theorem goOn (located : course.At layout day part) (settled : ¬ course.file.Due today)
    (held : Bytes) : (course.goOn held).At layout day part := by
  obtain ⟨-, room⟩ := not_or.1 settled
  rw [located.of.size] at room
  refine ⟨⟨located.of.directory, located.of.name, located.of.size⟩, located.place, located.home,
    fun home => ?_, fun home => ?_, nofun⟩
  · rw [LogCourse.goOn, located.count home, Nat.add_assoc]
  · have count := located.count home
    refine Nat.lt_of_le_of_ne (located.lines home) fun full => room ?_
    rw [full, ← Nat.succ_mul] at count
    rw [count]
    exact ⟨Nat.mul_pos part.succ_pos layout.positive, Nat.mul_mod_left _ _⟩

theorem begin (located : course.At layout day part) (due : course.file.Due today) (held : Bytes) :
    (course.begin today (layout.place today (course.file.nextPart today)) held).At layout today
      (course.file.nextPart today) where
  of := ⟨located.of.directory, located.of.name, located.of.size⟩
  place := rfl
  home _ := rfl
  count _ := by rw [LogCourse.begin, dated_count_of_due due, located.of.size]
  lines _ := layout.positive
  unbegun _ := nofun

theorem fail (located : course.At layout day part) (today : Nat) :
    (course.fail today).At layout day part := by
  have still (home : (course.fail today).isAstray = false) :
      course.isAstray = false ∧ today = course.file.day := by
    simpa [LogCourse.fail] using home
  refine ⟨⟨located.of.directory, located.of.name, located.of.size⟩, located.place,
    fun home => ?_, fun home => ?_, fun home => located.lines (still home).1,
    fun home => located.unbegun (still home).1⟩
  · exact (located.home (still home).1).trans (still home).2.symm
  · rw [LogCourse.fail, dated, if_pos (still home).2]
    exact located.count (still home).1

theorem attempts (located : course.At layout day part)
    (attempts : Attempts layout course today after) : ∃ day part, after.At layout day part := by
  cases attempts with
  | continued settled held => exact ⟨day, part, located.goOn settled held⟩
  | begun due held => exact ⟨_, _, located.begin due held⟩
  | failed => exact ⟨day, part, located.fail today⟩

end LogCourse.At

/-! ## Days that do not go back -/

/-- The log was never before at the file that it is at, and if it is astray, this is a file of an
earlier day. -/
structure LogCourse.InOrder (layout : LogLayout) (course : LogCourse) (day part : Nat) :
    Prop where
  located : course.At layout day part
  astray : course.isAstray = true → day < course.file.day
  counted : course.written.count course.file.place = course.lines
  earlier : ∀ place ∈ course.written, ∃ other rest, place = layout.place other rest ∧
    (other < day ∨ other = day ∧ rest ≤ part)

namespace LogCourse.InOrder

/-- The file that is begun is that of a later part, or of a later day. -/
theorem advances (inOrder : course.InOrder layout day part) (due : course.file.Due today)
    (late : course.file.day ≤ today) :
    day < today ∨ day = today ∧ part < course.file.nextPart today := by
  cases astray : course.isAstray with
  | true => exact .inl (Nat.lt_of_lt_of_le (inOrder.astray astray) late)
  | false =>
      rcases Nat.eq_or_lt_of_le late with same | new
      · refine .inr ⟨(inOrder.located.home astray).trans same, ?_⟩
        rw [inOrder.located.nextPart_same due same.symm astray]
        exact Nat.lt_succ_self part
      · exact .inl ((inOrder.located.home astray).symm ▸ new)

theorem attempts (inOrder : course.InOrder layout day part) (late : course.file.day ≤ today)
    (attempts : Attempts layout course today after) :
    ∃ day part, after.InOrder layout day part := by
  cases attempts with
  | continued settled held =>
      refine ⟨day, part, inOrder.located.goOn settled held, inOrder.astray, ?_, ?_⟩
      · simp [LogCourse.goOn, inOrder.counted]
      · refine fun place member => (List.mem_append.1 member).elim (inOrder.earlier place) ?_
        intro newest
        rw [List.mem_singleton.1 newest]
        exact ⟨day, part, inOrder.located.place, .inr ⟨rfl, Nat.le_refl part⟩⟩
  | begun due held =>
      have advances := inOrder.advances due late
      refine ⟨_, _, inOrder.located.begin due held, nofun, ?_, ?_⟩
      · have new : layout.place today (course.file.nextPart today) ∉ course.written := by
          intro member
          obtain ⟨other, rest, same, before⟩ := inOrder.earlier _ member
          obtain ⟨rfl, rfl⟩ := LogLayout.place_inj.1 same
          omega
        simp [LogCourse.begin, List.count_eq_zero.2 new]
      · refine fun place member => (List.mem_append.1 member).elim ?_ ?_
        · intro old
          obtain ⟨other, rest, same, before⟩ := inOrder.earlier place old
          exact ⟨other, rest, same, by omega⟩
        · intro newest
          exact ⟨_, _, List.mem_singleton.1 newest, .inr ⟨rfl, Nat.le_refl _⟩⟩
  | failed due =>
      refine ⟨day, part, inOrder.located.fail today, fun astray => ?_, inOrder.counted,
        inOrder.earlier⟩
      cases before : course.isAstray with
      | true => exact Nat.lt_of_lt_of_le (inOrder.astray before) late
      | false =>
          have new : today ≠ course.file.day := by
            simpa [LogCourse.fail, before] using astray
          rw [inOrder.located.home before]
          exact Nat.lt_of_le_of_ne late new.symm

end LogCourse.InOrder

/-! ## Runs -/

theorem LogCourse.At.run {attempts : List LogAttempt} (located : course.At layout day part) :
    ∃ day part, (course.run attempts).At layout day part := by
  induction attempts generalizing course day part with
  | nil => exact ⟨day, part, located⟩
  | cons first rest ih =>
      obtain ⟨_, _, next⟩ := located.attempts (@attempts_attempt layout course first located.of)
      exact ih next

theorem LogCourse.InOrder.run {attempts : List LogAttempt}
    (inOrder : course.InOrder layout day part)
    (ordered : (course.file.day :: attempts.map LogAttempt.today).Pairwise (· ≤ ·)) :
    ∃ day part, (course.run attempts).InOrder layout day part := by
  induction attempts generalizing course day part with
  | nil => exact ⟨day, part, inOrder⟩
  | cons first rest ih =>
      obtain ⟨late, others⟩ := List.pairwise_cons.1 ordered
      have attempted := @attempts_attempt layout course first inOrder.located.of
      obtain ⟨_, _, next⟩ := inOrder.attempts (late _ List.mem_cons_self) attempted
      exact ih next (by rwa [attempted.day_eq])

/-! ## What a failure leaves behind -/

/-- What a log is left with when the file that is due on a day cannot be begun. -/
structure LogFile.Refused (file : LogFile) (today : Nat) (next : LogFile) : Prop where
  place : next.place = file.place
  retries : today = file.day → next.day = file.day ∧ next.count = file.count ∧
    next.Due today ∧ next.nextPart today = file.nextPart today
  givesUp : today ≠ file.day → next.day = today ∧ next.count = 0 ∧
    ∀ tree line, ∃ kept later, next.writeLine tree today line = (.ok (), kept, later) ∧
      kept.place = file.place

/-- A log on whose date no file is due writes its line to the file that it has. -/
theorem LogFile.writeLine_of_not_due (settled : ¬ file.Due today) (tree : FileTree)
    (line : Text) :
    ∃ kept later, file.writeLine tree today line = (.ok (), kept, later) ∧
      kept.place = file.place := by
  obtain ⟨held, fields⟩ := putLine_fields { file with count := file.count + 1 } tree line
  refine ⟨_, _, by rw [writeLine, rotate_of_not_due settled], ?_⟩
  rw [fields]

theorem LogFile.refused_dated (due : file.Due today) : file.Refused today (file.dated today) where
  place := rfl
  retries same := by
    have count : (file.dated today).count = file.count := if_pos same
    refine ⟨same, count, .inr ?_, ?_⟩
    · rw [count]
      exact due.resolve_left fun new => new same
    · simp [nextPart, dated]
  givesUp new := by
    have count : (file.dated today).count = 0 := if_neg new
    refine ⟨rfl, count, writeLine_of_not_due fun due => ?_⟩
    rcases due with other | full
    · exact other rfl
    · rw [count] at full
      exact Nat.lt_irrefl 0 full.1

/-- Where a log is behind an attempt on a day, with its files in a directory: if it is not astray,
it is at a file of this day, and no more lines were written since this file was begun than a file
may have. -/
structure LogCourse.Filed (course : LogCourse) (directory : Location) (name : Text)
    (size today : Nat) : Prop where
  own : course.isAstray = false →
    ∃ part, course.file.place = directory ++ [partName name today part]
  room : course.isAstray = false → course.lines ≤ size

/-- The same if days do not go back: a file that a log that is not astray is at has no more lines
than a file may have, and a log that is astray is at a file of another day. -/
structure LogCourse.FiledInOrder (course : LogCourse) (directory : Location) (name : Text)
    (size today : Nat) : Prop where
  room : course.isAstray = false → course.written.count course.file.place ≤ size
  foreign : course.isAstray = true →
    ∀ part, course.file.place ≠ directory ++ [partName name today part]

theorem LogCourse.At.filed (located : course.At layout day part)
    (date : course.file.day = today) :
    course.Filed layout.above layout.name layout.size today where
  own settled := ⟨part, by
    rw [located.place, located.home settled, date]
    rfl⟩
  room := located.lines

theorem LogCourse.InOrder.filed (inOrder : course.InOrder layout day part)
    (date : course.file.day = today) :
    course.FiledInOrder layout.above layout.name layout.size today where
  room settled := by
    rw [inOrder.counted]
    exact inOrder.located.lines settled
  foreign astray other same := by
    have early := inOrder.astray astray
    obtain ⟨rfl, -⟩ := LogLayout.place_inj.1 (inOrder.located.place.symm.trans same)
    exact Nat.lt_irrefl _ (date ▸ early)

/-- A log that was just opened. -/
theorem LogCourse.inOrder_opened (of : layout.Of file) (count : file.count = 0)
    (place : file.place = layout.place file.day 0) :
    LogCourse.InOrder layout { file } file.day 0 where
  located := ⟨of, place, fun _ => rfl, fun _ => by simp [count], fun _ => Nat.zero_le _,
    fun _ _ => rfl⟩
  astray := nofun
  counted := rfl
  earlier := nofun

/-- Lines are misfiled exactly while the file of a new day cannot be begun.  When a rotation fails,
no line is written and the log keeps its file.  If the day goes on, it also keeps date and count,
and the next write of the day begins the same file; but if the day is new, date and count are those
of the new day already, and the next write of this day begins no file and writes its line to the
file that the log has.  Now let a log be opened, and let there be any attempts to write, each of
them meeting any files.  Behind each attempt, a log that is not astray is at a file of the day of
the attempt, to which no more lines were written since it was begun than a file may have, and a log
that is astray is at the file that it was at before.  If days do not go back, a file is begun only
once, so it has no more lines than that at all, and the file of a log that is astray is that of
another day.  A line that is written goes to the file that the log is then at. -/
theorem misfiled_iff_astray {path name : Text} {splitLines opened : Nat}
    (named : Path.fileName? path = some name)
    (started : LogFile.start tree path splitLines opened = (.ok file, later)) :
    (∀ (log : LogFile) (found : FileTree) (today : Nat) (kind : IoErrorKind) (kept : LogFile)
        (left : FileTree), log.rotate found today = (.error kind, kept, left) →
      log.Refused today kept ∧
        ∀ line, log.writeLine found today line = (.error kind, kept, left)) ∧
    ∀ (attempts : List LogAttempt) (last : LogAttempt),
      (LogCourse.run { file } (attempts ++ [last])).Filed file.place.dropLast name
          (max splitLines 1) last.today ∧
        ((LogCourse.run { file } (attempts ++ [last])).isAstray = true →
          (LogCourse.run { file } (attempts ++ [last])).file.place =
            (LogCourse.run { file } attempts).file.place) ∧
        ((opened :: (attempts ++ [last]).map LogAttempt.today).Pairwise (· ≤ ·) →
          (LogCourse.run { file } (attempts ++ [last])).FiledInOrder file.place.dropLast name
            (max splitLines 1) last.today) := by
  refine ⟨fun log found today kind kept left rotated => ?_, fun attempts last => ?_⟩
  · obtain ⟨due, rfl, rfl⟩ := rotate_error rotated
    exact ⟨refused_dated due, fun line => by rw [writeLine, rotated]⟩
  obtain ⟨layout, -, rfl, size, of, rfl, count, place, -⟩ :=
    LogLayout.exists_of_start named started
  have directory : file.place.dropLast = layout.above := by
    rw [place, LogLayout.place, List.dropLast_concat]
  rw [directory, ← size]
  have begins := LogCourse.inOrder_opened of count place
  obtain ⟨_, _, located⟩ := @LogCourse.At.run _ _ _ _ attempts begins.located
  have attempted := @attempts_attempt layout _ last located.of
  have behind : (LogCourse.run { file } attempts).attempt last =
      LogCourse.run { file } (attempts ++ [last]) := by
    rw [LogCourse.run, LogCourse.run, List.foldl_append]
    rfl
  rw [behind] at attempted
  obtain ⟨_, _, next⟩ := located.attempts attempted
  refine ⟨next.filed attempted.day_eq, attempted.place_eq_of_astray,
    fun ordered => ?_⟩
  obtain ⟨_, _, inOrder⟩ := begins.run ordered
  exact inOrder.filed attempted.day_eq

/-- A tree where a directory has the name of a log file. -/
def occupied : FileTree :=
  ((FileTree.empty 0o755).put ["1970_01_03_app.log".toList] (.directory 0o755)).put
    ["1970_01_02_app.log".toList] (.file ⟨[], 0o644, none⟩)

/-- A log with one line in each file that was opened on the day before. -/
def dayBefore : LogFile where
  directory := Path.current
  name := "app.log".toList
  splitLines := 1
  day := 1
  count := 0
  place := ["1970_01_02_app.log".toList]
  held := []

/-- The first line of the new day is refused, and the second one is not. -/
def refusedOnce : List LogAttempt :=
  [⟨occupied, 1, "a".toList⟩, ⟨occupied, 2, "b".toList⟩]

theorem misfiled_iff_astray_refused :
    (LogCourse.run { file := dayBefore }
        (refusedOnce ++ [⟨occupied, 2, "c".toList⟩])).isAstray = true ∧
      ∀ part, (LogCourse.run { file := dayBefore }
          (refusedOnce ++ [⟨occupied, 2, "c".toList⟩])).file.place ≠
        [] ++ [partName "app.log".toList 2 part] := by
  have named : Path.fileName? "app.log".toList = some "app.log".toList := by decide +kernel
  have started : LogFile.start occupied "app.log".toList 1 1 = (.ok dayBefore, occupied) := by
    decide +kernel
  have astray : (LogCourse.run { file := dayBefore }
      (refusedOnce ++ [⟨occupied, 2, "c".toList⟩])).isAstray = true := by decide +kernel
  obtain ⟨-, -, inOrder⟩ :=
    (misfiled_iff_astray named started).2 refusedOnce ⟨occupied, 2, "c".toList⟩
  exact ⟨astray, (inOrder (by decide)).foreign astray⟩

/-- The file of a new day cannot be begun, since a directory has its name.  The log is not as it
was: it has the new date and no lines, and the next line of this day does not need a file.  It
comes behind the line of the day before, into a file that is full. -/
theorem new_day_given_up :
    ∃ full kept written : LogFile, ∃ left last : FileTree,
      dayBefore.writeLine occupied 1 "a".toList = (.ok (), full, occupied) ∧
      full.writeLine occupied 2 "b".toList = (.error .isADirectory, kept, left) ∧
      (full.day, full.count) = (1, 1) ∧ (kept.day, kept.count) = (2, 0) ∧
      kept.writeLine left 2 "c".toList = (.ok (), written, last) ∧
      written.place = ["1970_01_02_app.log".toList] ∧
      (written.writeOut last).2.content ["1970_01_02_app.log".toList] =
        Text.bytes "a\nc\n".toList := by
  refine ⟨{ dayBefore with count := 1, held := Text.bytes "a\n".toList },
    { dayBefore with day := 2 },
    { dayBefore with day := 2, count := 1, held := Text.bytes "c\n".toList },
    occupied.appendTo dayBefore.place (Text.bytes "a\n".toList),
    occupied.appendTo dayBefore.place (Text.bytes "a\n".toList), ?_⟩
  decide +kernel

end FileServer
