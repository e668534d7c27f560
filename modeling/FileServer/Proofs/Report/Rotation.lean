import FileServer.Proofs.Document.Lasting
import FileServer.Proofs.Report.Contents
import FileServer.Proofs.Report.Parts

/-!
# Beginning the file for a part

A new file is due when the date has changed and when the one that the log is at is full, and in
both cases it is the file for the part that the next line comes into: the number of lines of the
day so far tells which.  The log has the new date before the file is begun, and it keeps this
date when no file can be begun.
-/

namespace FileServer

namespace LogFile

variable {file next : LogFile} {tree later : FileTree} {today : Nat} {line : Text}

/-! ## What is due -/

/-- A line of a day needs a file other than the one that the log is at. -/
def Due (file : LogFile) (today : Nat) : Prop :=
  today ≠ file.day ∨ 0 < file.count ∧ file.count % file.splitLines = 0

instance (file : LogFile) (today : Nat) : Decidable (file.Due today) :=
  inferInstanceAs (Decidable (_ ∨ _))

/-- The log with everything written out and the date of a day.  On a new day there are no lines
so far. -/
def dated (file : LogFile) (today : Nat) : LogFile :=
  { file with
    day := today
    count := if today = file.day then file.count else 0
    held := [] }

/-- The part that the next line of a day comes into, if a file is due. -/
def nextPart (file : LogFile) (today : Nat) : Nat :=
  (file.dated today).count / file.splitLines

theorem dated_count_of_due (due : file.Due today) :
    (file.dated today).count = file.nextPart today * file.splitLines := by
  by_cases same : today = file.day
  · have full := (due.resolve_left fun new => new same).2
    simp only [nextPart, dated, same, if_pos]
    exact (Nat.div_mul_cancel (Nat.dvd_of_mod_eq_zero full)).symm
  · simp [nextPart, dated, same]

/-- The path of the file for a part. -/
def partPath (directory name : Text) (day part : Nat) : Text :=
  Path.join directory (partName name day part)

/-- What is held back is written out, and then the file is begun that is due. -/
theorem rotate_of_due (due : file.Due today) (tree : FileTree) :
    file.rotate tree today =
      (file.dated today).beginFile (tree.appendTo file.place file.held)
        (partName file.name today (file.nextPart today)) := by
  by_cases same : today = file.day
  · obtain ⟨positive, full⟩ := due.resolve_left fun new => new same
    have fits : file.splitLines ≤ file.count := Nat.le_of_dvd positive (Nat.dvd_of_mod_eq_zero full)
    have split : 0 < file.splitLines := Nat.pos_of_ne_zero fun none => by
      rw [none, Nat.mod_zero] at full
      omega
    obtain ⟨part, later⟩ : ∃ part, file.count / file.splitLines = part + 1 :=
      Nat.exists_eq_succ_of_ne_zero (Nat.ne_of_gt (Nat.div_pos fits split))
    simp [rotate, same, positive, full, writeOut, dated, nextPart, partName, partNumber?, later]
  · simp [rotate, same, writeOut, dated, nextPart, partName, partNumber?]

/-- As long as no file is due, nothing happens. -/
theorem rotate_of_not_due (settled : ¬ file.Due today) (tree : FileTree) :
    file.rotate tree today = (.ok (), file, tree) := by
  obtain ⟨same, room⟩ := not_or.1 settled
  rw [rotate, if_neg same, if_neg room]

/-- A rotation that fails leaves the log at its file, with everything written out and with the
new date. -/
theorem rotate_error {kind : IoErrorKind}
    (rotated : file.rotate tree today = (.error kind, next, later)) :
    file.Due today ∧ next = file.dated today ∧ later = tree.appendTo file.place file.held := by
  by_cases due : file.Due today
  · rw [rotate_of_due due, beginFile] at rotated
    split at rotated
    · cases rotated
      exact ⟨due, rfl, rfl⟩
    · cases congrArg Prod.fst rotated
  · rw [rotate_of_not_due due] at rotated
    cases congrArg Prod.fst rotated

/-- A rotation that succeeds begins the file that is due. -/
theorem rotate_ok (rotated : file.rotate tree today = (.ok (), next, later)) :
    ¬ file.Due today ∧ next = file ∧ later = tree ∨
      file.Due today ∧ ∃ place,
        (tree.appendTo file.place file.held).touch
          (partPath file.directory file.name today (file.nextPart today)) = .ok (place, later) ∧
        next = { file.dated today with place } := by
  by_cases due : file.Due today
  · rw [rotate_of_due due, beginFile] at rotated
    split at rotated
    · cases congrArg Prod.fst rotated
    · next place touched opened =>
        cases rotated
        exact .inr ⟨due, place, opened, rfl⟩
  · rw [rotate_of_not_due due] at rotated
    cases rotated
    exact .inl ⟨due, rfl, rfl⟩

/-! ## What a write does to the log -/

/-- The bytes of a line make no files. -/
theorem gains_putLine (file : LogFile) (tree : FileTree) (line : Text) :
    tree.Gains (file.putLine tree line).2 [] :=
  putLine_induction (motive := fun written => tree.Gains written []) (.refl tree)
    fun _ _ gains => gains.trans (FileTree.gains_appendTo _ _ _)

/-- A line that is written is one line more, in the file of the log behind the rotation. -/
theorem writeLine_ok (wrote : file.writeLine tree today line = (.ok (), next, later)) :
    ∃ turned rotated held, file.rotate tree today = (.ok (), turned, rotated) ∧
      next = { turned with count := turned.count + 1, held } ∧ rotated.Gains later [] := by
  simp only [writeLine] at wrote
  split at wrote
  · cases congrArg Prod.fst wrote
  · next turned rotated turning =>
      simp only [Prod.mk.injEq, true_and] at wrote
      have gains := gains_putLine { turned with count := turned.count + 1 } rotated line
      obtain ⟨held, fields⟩ :=
        putLine_fields { turned with count := turned.count + 1 } rotated line
      rw [wrote] at gains fields
      exact ⟨turned, rotated, held, turning, fields, gains⟩

/-- A line is not written when the file that is due cannot be begun. -/
theorem writeLine_error {kind : IoErrorKind}
    (wrote : file.writeLine tree today line = (.error kind, next, later)) :
    file.rotate tree today = (.error kind, next, later) := by
  simp only [writeLine] at wrote
  split at wrote
  · next rotated =>
      rw [rotated, wrote]
  · cases congrArg Prod.fst wrote

end LogFile

/-! ## The places of the parts -/

/-- What stays the same of a log: the path of its directory and the place that it leads to, the
name of the log, and how many lines come into a file. -/
structure LogLayout where
  directory : Text
  above : Location
  name : Text
  size : Nat
  reached : ∃ tree : FileTree,
    tree.walk (.ofStart directory) (Path.ahead directory) = .ok above
  plain : '/' ∉ name
  positive : 0 < size

namespace LogLayout

open LogFile

variable {layout : LogLayout} {file next : LogFile} {tree later : FileTree}
variable {location : Location} {today day part other rest : Nat}

/-- The path of the file for a part. -/
def path (layout : LogLayout) (day part : Nat) : Text :=
  partPath layout.directory layout.name day part

/-- Where the file for a part is. -/
def place (layout : LogLayout) (day part : Nat) : Location :=
  layout.above ++ [partName layout.name day part]

/-- Each part has a file of its own. -/
theorem place_inj :
    layout.place day part = layout.place other rest ↔ day = other ∧ part = rest := by
  constructor
  · intro same
    exact partName_injective (List.cons.inj (List.append_cancel_left same)).1
  · rintro ⟨rfl, rfl⟩
    rfl

/-- The file that is opened for a part is at the place of the part, and the path of the part leads
to it if its directory is there. -/
theorem touch_path (opened : tree.touch (layout.path day part) = .ok (location, later)) :
    location = layout.place day part ∧ tree.Gains later [location] ∧
      (tree.HasDirectory layout.above → later.locate (layout.path day part) = .ok location) := by
  obtain ⟨gains, above, reached, rfl, located⟩ :=
    FileTree.touch_join_ok (slash_not_mem_partName layout.plain day part) opened
  obtain ⟨_, leads⟩ := layout.reached
  obtain rfl := FileTree.walk_unique reached leads
  exact ⟨rfl, gains, located⟩

/-- The log has this layout. -/
structure Of (layout : LogLayout) (file : LogFile) : Prop where
  directory : file.directory = layout.directory
  name : file.name = layout.name
  size : file.splitLines = layout.size

/-- A rotation that succeeds either goes on with the file, or begins the file for the part that is
due. -/
theorem Of.rotate_ok (of : layout.Of file)
    (rotated : file.rotate tree today = (.ok (), next, later)) :
    ¬ file.Due today ∧ next = file ∧ later = tree ∨
      file.Due today ∧
        next = { file.dated today with place := layout.place today (file.nextPart today) } ∧
        tree.Gains later [layout.place today (file.nextPart today)] ∧
        (tree.HasDirectory layout.above → later.locate (layout.path today (file.nextPart today)) =
          .ok (layout.place today (file.nextPart today))) := by
  rcases LogFile.rotate_ok rotated with settled | ⟨due, place, opened, rfl⟩
  · exact .inl settled
  · rw [of.directory, of.name] at opened
    obtain ⟨rfl, gains, located⟩ := touch_path opened
    have written := FileTree.gains_appendTo tree file.place file.held
    exact .inr ⟨due, rfl, written.trans gains,
      fun directory => located (written.hasDirectory _ directory)⟩

/-- A log that is opened is at the file for the first part of the day. -/
theorem exists_of_start {path name : Text} {splitLines : Nat}
    (named : Path.fileName? path = some name)
    (started : LogFile.start tree path splitLines today = (.ok file, later)) :
    ∃ layout : LogLayout, layout.directory = directoryOf path ∧ layout.name = name ∧
      layout.size = max splitLines 1 ∧ layout.Of file ∧ file.day = today ∧ file.count = 0 ∧
      file.place = layout.place today 0 ∧ tree.Gains later [file.place] ∧
      later.HasDirectory layout.above ∧ later.locate (layout.path today 0) = .ok file.place := by
  revert started
  fun_cases LogFile.start tree path splitLines today with
  | case1 | case2 | case3 => exact fun started => by cases congrArg Prod.fst started
  | case4 _ found _ above made making place touched opened =>
      intro started
      simp only [Prod.mk.injEq, Except.ok.injEq] at started
      obtain ⟨rfl, rfl⟩ := started
      cases named.symm.trans found
      obtain ⟨gains, reached, directory⟩ := FileTree.makePath_ok making
      let layout : LogLayout :=
        ⟨directoryOf path, above, name, max splitLines 1, ⟨made, reached⟩,
          Path.plain_of_fileName? named, Nat.le_max_right _ _⟩
      obtain ⟨rfl, begun, located⟩ := @touch_path layout made touched place today 0 opened
      exact ⟨layout, rfl, rfl, rfl, ⟨rfl, rfl, rfl⟩, rfl, rfl, rfl, gains.trans begun,
        begun.hasDirectory _ directory, located directory⟩

end LogLayout

end FileServer
