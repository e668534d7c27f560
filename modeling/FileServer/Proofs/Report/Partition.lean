import FileServer.Proofs.Report.LinesKept
import FileServer.Proofs.Report.Rotation
import Mathlib.Data.List.Induction

/-!
# Each line is in the file of its day and its part

A log without a queue writes each line when it is handed in.  If time never goes back, the lines
of a day come one after the other, so the number of lines of the day so far says which part the
next one comes into, also when a day ends in the middle of a part.  A file is begun just before
its first line is written, but for the file that is there since the log was opened.
-/

namespace FileServer

open LogFile

variable {layout : LogLayout} {file next : LogFile} {before tree later : FileTree}
variable {opened today : Nat} {line : Text} {entries : List (Nat × Text)}

/-- The files of a log have the lines that were written, by day and part, and no file was made
but those that are needed for them. -/
structure Partitioned (layout : LogLayout) (before : FileTree) (opened : Nat)
    (entries : List (Nat × Text)) (file : LogFile) (tree : FileTree) : Prop where
  of : layout.Of file
  counted : ∀ today, (∀ entry ∈ entries, entry.1 ≤ today) →
    (linesOf entries today).length = if today = file.day then file.count else 0
  hasPart : HasPart layout.size opened entries file.day ((file.count - 1) / layout.size)
  place : file.place = layout.place file.day ((file.count - 1) / layout.size)
  directory : tree.HasDirectory layout.above
  hasFile : ∀ location, tree.HasFile location ↔ before.HasFile location ∨
    ∃ day part, HasPart layout.size opened entries day part ∧ location = layout.place day part
  located : ∀ day part, HasPart layout.size opened entries day part →
    tree.locate (layout.path day part) = .ok (layout.place day part)
  contains : ∀ day part, file.contains tree (layout.place day part) =
    (group layout.size (linesOf entries day) part).flatMap lineBytes

/-- A line for which there is room comes into the part of the line before. -/
theorem LogLayout.part_of_room {count : Nat}
    (room : ¬ (0 < count ∧ count % layout.size = 0)) :
    (count - 1) / layout.size = count / layout.size := by
  rcases Nat.eq_zero_or_pos count with none | some
  · rw [none]
  · have rest := Nat.div_add_mod count layout.size
    have bound := Nat.mod_lt count layout.positive
    rw [Nat.div_eq_iff layout.positive, Nat.mul_comm]
    omega

namespace Partitioned

/-- The log is at a file that is there. -/
theorem hasFile_place (partitioned : Partitioned layout before opened entries file tree) :
    tree.HasFile file.place :=
  (partitioned.hasFile _).2 (.inr ⟨_, _, partitioned.hasPart, partitioned.place⟩)

/-- Behind the rotation the log is at the file for the part that the next line comes into. -/
structure Turned (layout : LogLayout) (entries : List (Nat × Text)) (today : Nat)
    (tree : FileTree) (turned : LogFile) (rotated : FileTree) : Prop where
  of : layout.Of turned
  day : turned.day = today
  count : turned.count = (linesOf entries today).length
  place : turned.place = layout.place today (turned.count / layout.size)
  gains : tree.Gains rotated [turned.place]
  located : rotated.locate (layout.path today (turned.count / layout.size)) = .ok turned.place

theorem rotate (partitioned : Partitioned layout before opened entries file tree)
    (late : ∀ entry ∈ entries, entry.1 ≤ today)
    (rotated : file.rotate tree today = (.ok (), next, later)) :
    Turned layout entries today tree next later := by
  have counted := partitioned.counted today late
  rcases partitioned.of.rotate_ok rotated with ⟨settled, rfl, rfl⟩ | ⟨due, rfl, gains, located⟩
  · obtain ⟨same, room⟩ := not_or.1 settled
    obtain rfl : today = next.day := Decidable.of_not_not same
    rw [partitioned.of.size] at room
    have place := partitioned.place
    have hasPart := partitioned.hasPart
    rw [LogLayout.part_of_room room] at place hasPart
    refine ⟨partitioned.of, rfl, by rw [counted, if_pos rfl], place,
      (FileTree.gains_singleton_iff partitioned.hasFile_place).2 (.refl _), ?_⟩
    rw [place]
    exact partitioned.located _ _ hasPart
  · have part : file.nextPart today = (file.dated today).count / layout.size := by
      rw [nextPart, partitioned.of.size]
    rw [part] at gains located ⊢
    exact ⟨⟨partitioned.of.directory, partitioned.of.name, partitioned.of.size⟩, rfl,
      counted.symm, rfl, gains, located partitioned.directory⟩

/-- A line comes behind those of its part, and each other part has the lines that it had. -/
theorem Turned.write {turned : LogFile} {rotated : FileTree} {held : Bytes}
    (turns : Turned layout entries today tree turned rotated)
    (partitioned : Partitioned layout before opened entries file tree)
    (late : ∀ entry ∈ entries, entry.1 ≤ today) (written : rotated.Gains later [])
    (added : file.Adds tree { turned with count := turned.count + 1, held } later
      (lineBytes line)) :
    Partitioned layout before opened (entries ++ [(today, line)])
      { turned with count := turned.count + 1, held } later := by
  have gains : tree.Gains later [turned.place] := by
    simpa only [List.append_nil] using turns.gains.trans written
  have lastPart : (linesOf entries today).length / layout.size = turned.count / layout.size := by
    rw [turns.count]
  exact {
    of := ⟨turns.of.directory, turns.of.name, turns.of.size⟩
    counted := fun day after => by
      -- On a day behind that of the line there are no lines yet.
      have newest : today ≤ day := after _ List.mem_concat_self
      rw [linesOf_append_singleton]
      simp only [turns.day]
      by_cases same : day = today
      · rw [if_pos same, if_pos same, same, turns.count, List.length_append, List.length_singleton]
      · have none : linesOf entries day = [] := linesOf_eq_nil fun entry member found =>
          same (Nat.le_antisymm (found ▸ late entry member) newest)
        rw [if_neg same, if_neg same, List.append_nil, none, List.length_nil]
    hasPart := by
      rw [hasPart_append layout.positive, lastPart]
      exact .inr ⟨turns.day, rfl⟩
    place := by
      simp only [turns.day]
      exact turns.place
    directory := gains.hasDirectory _ partitioned.directory
    hasFile := fun location => by
      rw [gains.hasFile, partitioned.hasFile, List.mem_singleton, or_assoc]
      simp only [hasPart_append layout.positive, lastPart, turns.place]
      refine or_congr_right ⟨?_, ?_⟩
      · intro found
        rcases found with ⟨day, part, has, rfl⟩ | rfl
        · exact ⟨day, part, .inl has, rfl⟩
        · exact ⟨today, _, .inr ⟨rfl, rfl⟩, rfl⟩
      · rintro ⟨day, part, found, rfl⟩
        rcases found with has | ⟨rfl, rfl⟩
        · exact .inl ⟨day, part, has, rfl⟩
        · exact .inr rfl
    located := fun day part has => by
      rcases (hasPart_append layout.positive).1 has with has | ⟨rfl, rfl⟩
      · exact gains.locate (partitioned.located day part has)
      · rw [lastPart, written.locate turns.located, turns.place]
    contains := fun day part => by
      rw [added.contains, partitioned.contains, group_linesOf_append layout.positive,
        List.flatMap_append, lastPart]
      simp only [turns.place, LogLayout.place_inj]
      split <;> simp }

theorem writeLine (partitioned : Partitioned layout before opened entries file tree)
    (late : ∀ entry ∈ entries, entry.1 ≤ today)
    (wrote : file.writeLine tree today line = (.ok (), next, later)) :
    Partitioned layout before opened (entries ++ [(today, line)]) next later := by
  have added := writeLine_adds partitioned.hasFile_place wrote
  obtain ⟨turned, rotated, held, turning, rfl, written⟩ := writeLine_ok wrote
  exact (partitioned.rotate late turning).write partitioned late written added

/-- A log that is opened in an empty directory has one file, which is empty. -/
theorem of_start {path name : Text} {splitLines : Nat} (named : Path.fileName? path = some name)
    (started : LogFile.start tree path splitLines today = (.ok file, later))
    (empty : ∀ other, ¬ tree.HasFile (file.place.dropLast ++ [other])) :
    ∃ layout : LogLayout, layout.directory = directoryOf path ∧ layout.name = name ∧
      layout.size = max splitLines 1 ∧ Partitioned layout tree today [] file later := by
  obtain ⟨layout, directory, name, size, of, day, count, place, gains, above, located⟩ :=
    LogLayout.exists_of_start named started
  have part : (file.count - 1) / layout.size = 0 := by rw [count, Nat.zero_sub, Nat.zero_div]
  have first {other rest : Nat} :
      HasPart layout.size today [] other rest ↔ rest = 0 ∧ other = today :=
    or_iff_left (Nat.not_lt_zero _)
  exact ⟨layout, directory, name, size, {
    of
    counted := fun other _ => by
      rw [count, ite_self]
      rfl
    hasPart := by
      rw [part, day, first]
      exact ⟨rfl, rfl⟩
    place := by rw [part, day, place]
    directory := above
    hasFile := fun location => by
      rw [gains.hasFile, List.mem_singleton, place]
      refine or_congr_right ⟨fun same => ⟨today, 0, first.2 ⟨rfl, rfl⟩, same⟩, ?_⟩
      rintro ⟨other, rest, has, rfl⟩
      obtain ⟨rfl, rfl⟩ := first.1 has
      rfl
    located := fun other rest has => by
      obtain ⟨rfl, rfl⟩ := first.1 has
      rw [located, place]
    contains := fun other rest => by
      have absent : ¬ tree.HasFile (layout.place other rest) := by
        have within := empty (partName layout.name other rest)
        rwa [place, LogLayout.place, List.dropLast_concat] at within
      rw [(start_ok started).2, FileTree.content_of_not_hasFile absent]
      simp [linesOf, group] }⟩

/-- What is held back is in the parts already. -/
theorem writeOut (partitioned : Partitioned layout before opened entries file tree) :
    Partitioned layout before opened entries (file.writeOut tree).1 (file.writeOut tree).2 := by
  have gains : tree.Gains (file.writeOut tree).2 [] :=
    FileTree.gains_appendTo tree file.place file.held
  exact {
    of := ⟨partitioned.of.directory, partitioned.of.name, partitioned.of.size⟩
    counted := partitioned.counted
    hasPart := partitioned.hasPart
    place := partitioned.place
    directory := gains.hasDirectory _ partitioned.directory
    hasFile := fun location => by
      rw [gains.hasFile, partitioned.hasFile]
      simp only [List.not_mem_nil, or_false]
    located := fun day part has => gains.locate (partitioned.located day part has)
    contains := fun day part => by
      rw [(writeOut_adds partitioned.hasFile_place).contains, ite_self, List.append_nil,
        partitioned.contains] }

end Partitioned

/-- The files that are in a tree behind a log, if these lines were written to it and those of a
tree were there before.  Each part of a day is found under its date and its number, with just the
lines of this part.  There are no other files but those from before, and no file is that of two
parts. -/
structure HoldsParts (before tree : FileTree) (path name : Text) (size opened : Nat)
    (entries : List (Nat × Text)) : Prop where
  found : ∀ day part, HasPart size opened entries day part →
    ∃ stored, tree.find (partPath (directoryOf path) name day part) = .ok (.file stored) ∧
      stored.content = (group size (linesOf entries day) part).flatMap lineBytes
  only : ∀ location, tree.HasFile location ↔ before.HasFile location ∨
    ∃ day part, HasPart size opened entries day part ∧
      tree.locate (partPath (directoryOf path) name day part) = .ok location
  apart : ∀ day part other rest location, HasPart size opened entries day part →
    HasPart size opened entries other rest →
    tree.locate (partPath (directoryOf path) name day part) = .ok location →
    tree.locate (partPath (directoryOf path) name other rest) = .ok location →
    day = other ∧ part = rest

/-- When nothing is held back, the lines are in the files themselves. -/
theorem Partitioned.holdsParts (partitioned : Partitioned layout before opened entries file tree)
    (written : file.held = []) {path : Text} (directory : layout.directory = directoryOf path) :
    HoldsParts before tree path layout.name layout.size opened entries := by
  have paths (day part : Nat) :
      partPath (directoryOf path) layout.name day part = layout.path day part := by
    rw [LogLayout.path, directory]
  refine ⟨fun day part has => ?_, fun location => ?_,
    fun day part other rest location has also leads meets => ?_⟩
  · have there := (partitioned.hasFile _).2 (.inr ⟨day, part, has, rfl⟩)
    obtain ⟨stored, found, content⟩ :=
      FileTree.find_of_locate (partitioned.located day part has) there
    refine ⟨stored, (paths day part).symm ▸ found, ?_⟩
    rw [content, ← partitioned.contains, LogFile.contains, written, ite_self, List.append_nil]
  · rw [partitioned.hasFile]
    refine or_congr_right (exists_congr fun day => exists_congr fun part =>
      and_congr_right fun has => ?_)
    rw [paths, partitioned.located day part has, Except.ok.injEq, eq_comm]
  · rw [paths, partitioned.located _ _ has] at leads
    rw [paths, partitioned.located _ _ also] at meets
    exact LogLayout.place_inj.1 (Except.ok.inj (leads.trans meets.symm))

namespace LogSink

variable {sink : LogSink}

/-- Takes lines, each at its moment. -/
def submitAll (sink : LogSink) (entries : List (Int × Text)) : LogSink :=
  entries.foldl (fun sink entry => sink.submit (dayNumber entry.1) entry.2) sink

/-- The lines with the days of their moments. -/
def byDay (entries : List (Int × Text)) : List (Nat × Text) :=
  entries.map fun entry => (dayNumber entry.1, entry.2)

theorem dayNumber_mono {first second : Int} (early : first ≤ second) :
    dayNumber first ≤ dayNumber second :=
  Nat.div_le_div_right (Int.toNat_le_toNat early)

/-- Without a complaint the line was written, and there were no complaints before. -/
theorem writeDirect_fine (fine : (sink.writeDirect today line).complaints = []) :
    sink.complaints = [] ∧ ∃ file tree, sink.file.writeLine sink.tree today line =
      (.ok (), file, tree) ∧ sink.writeDirect today line = { sink with file, tree } := by
  unfold writeDirect at fine ⊢
  split
  · next file tree wrote =>
      rw [wrote] at fine
      exact ⟨fine, file, tree, wrote, rfl⟩
  · next kind file tree wrote =>
      rw [wrote] at fine
      cases List.append_ne_nil_of_right_ne_nil _ (List.cons_ne_nil _ _) fine

theorem submit_of_bare (bare : sink.queue = none) :
    sink.submit today line = sink.writeDirect today line := by
  unfold submit
  rw [bare]

theorem queue_submitAll {entries : List (Int × Text)} (bare : sink.queue = none) :
    (sink.submitAll entries).queue = none := by
  induction entries generalizing sink with
  | nil => exact bare
  | cons entry rest ih =>
      have next : (sink.submit (dayNumber entry.1) entry.2).queue = none := by
        rw [submit_of_bare bare, writeDirect_queue, bare]
      exact ih next

theorem submitAll_append_singleton {entries : List (Int × Text)} (bare : sink.queue = none)
    (moment : Int) (line : Text) :
    sink.submitAll (entries ++ [(moment, line)]) =
      (sink.submitAll entries).writeDirect (dayNumber moment) line := by
  rw [← submit_of_bare (queue_submitAll bare), submitAll, List.foldl_append]
  rfl

/-- Each line that was handed in is in its part, if none was refused. -/
theorem partitioned_submitAll {entries : List (Int × Text)} (bare : sink.queue = none)
    (partitioned : Partitioned layout before opened [] sink.file sink.tree)
    (ordered : (entries.map Prod.fst).Pairwise (· ≤ ·))
    (fine : (sink.submitAll entries).complaints = []) :
    Partitioned layout before opened (byDay entries) (sink.submitAll entries).file
      (sink.submitAll entries).tree := by
  induction entries using List.reverseRecOn with
  | nil => exact partitioned
  | append_singleton front entry ih =>
      obtain ⟨moment, line⟩ := entry
      rw [submitAll_append_singleton bare] at fine ⊢
      rw [List.map_append, List.pairwise_append] at ordered
      obtain ⟨fineBefore, file, tree, wrote, whole⟩ := writeDirect_fine fine
      have late : ∀ entry ∈ byDay front, entry.1 ≤ dayNumber moment := by
        intro entry member
        obtain ⟨earlier, found, rfl⟩ := List.mem_map.1 member
        exact dayNumber_mono (ordered.2.2 _ (List.mem_map_of_mem found) _ List.mem_cons_self)
      have written := (ih ordered.1 fineBefore).writeLine late wrote
      rw [whole, byDay, List.map_append]
      exact written

/-- Rotation cuts the lines of a log exactly.  Let a log without a queue be opened at some moment,
with any path that ends in a name and any number of lines for each file, in a directory that has
no files, and let lines be handed in one after the other, at moments that never go back.  If no
line was refused, then behind a flush the lines of each day, in order, are cut into groups of that
number of lines, where zero counts as one, and each group is the content of the file with the date
of the day and the number of the group, each line with a line feed at its end.  There is no other
file, but for an empty one with the date when the log was opened if no line has this date, and no
two groups share a file. -/
theorem rotation_partitions {tree touched : FileTree} {path name : Text} {splitLines : Nat}
    {opened : Int} (named : Path.fileName? path = some name)
    (started : LogSink.start tree path 0 splitLines (dayNumber opened) = (.ok sink, touched))
    (empty : ∀ other, ¬ tree.HasFile (sink.file.place.dropLast ++ [other]))
    {entries : List (Int × Text)} (ordered : (entries.map Prod.fst).Pairwise (· ≤ ·))
    (fine : (sink.submitAll entries).flush.complaints = []) :
    HoldsParts tree (sink.submitAll entries).flush.tree path name (max splitLines 1)
      (dayNumber opened) (byDay entries) := by
  unfold LogSink.start at started
  split at started
  · cases congrArg Prod.fst started
  next file touched starting =>
  simp only [Prod.mk.injEq, Except.ok.injEq] at started
  obtain ⟨rfl, rfl⟩ := started
  obtain ⟨layout, directory, rfl, size, partitioned⟩ := Partitioned.of_start named starting empty
  rw [← size]
  exact (partitioned_submitAll rfl partitioned ordered fine).writeOut.holdsParts rfl directory

/-- Lines in the last and in the first second of a day. -/
def aroundMidnight : List (Int × Text) :=
  [(1728086399, "a".toList), (1728086399, "b\n".toList), (1728086399, "c".toList),
    (1728086400, "d".toList)]

/-- A log with files of two lines that was opened in an empty directory. -/
def eveningLog : LogSink where
  file := {
    directory := "logs".toList
    name := "app".toList
    splitLines := 2
    day := 20000
    count := 0
    place := ["logs".toList, "2024_10_04_app".toList]
    held := [] }
  queue := none
  tree := ((FileTree.empty 0o755).put ["logs".toList] (.directory 0o755)).put
    ["logs".toList, "2024_10_04_app".toList] (.file ⟨[], 0o644, none⟩)

theorem rotation_partitions_midnight :
    HoldsParts (.empty 0o755) (eveningLog.submitAll aroundMidnight).flush.tree
        "logs/app".toList "app".toList 2 20000 (byDay aroundMidnight) ∧
      ∃ stored, (eveningLog.submitAll aroundMidnight).flush.tree.find
        "logs/2024_10_04_app.1".toList = .ok (.file stored) ∧
        stored.content = Text.bytes "c\n".toList := by
  have started : LogSink.start (.empty 0o755) "logs/app".toList 0 2 (dayNumber 1728086399) =
      (.ok eveningLog, eveningLog.tree) := by decide +kernel
  have named : Path.fileName? "logs/app".toList = some "app".toList := by decide +kernel
  have ordered : (aroundMidnight.map Prod.fst).Pairwise (· ≤ ·) := by decide
  have fine : (eveningLog.submitAll aroundMidnight).flush.complaints = [] := by decide +kernel
  have holds : HoldsParts (.empty 0o755) (eveningLog.submitAll aroundMidnight).flush.tree
      "logs/app".toList "app".toList 2 20000 (byDay aroundMidnight) :=
    rotation_partitions named started (fun _ => FileTree.not_hasFile_empty 0o755 _) ordered fine
  have path : partPath (directoryOf "logs/app".toList) "app".toList 20000 1 =
      "logs/2024_10_04_app.1".toList := by decide +kernel
  have found := holds.found 20000 1 (.inr (by decide +kernel))
  rw [path] at found
  exact ⟨holds, found⟩

end LogSink

end FileServer
