import FileServer.Proofs.Document.Files
import FileServer.Report.LogFile

/-!
# What log files contain

Of what a log has taken a part is in its files and a part is held back, and the part that is
held back belongs to the file that the log is at.  Where a line is written to depends on the
date and on how many lines there are; what is in any file stays at the front of it.
-/

namespace FileServer

namespace LogFile

variable {file next : LogFile} {tree later : FileTree} {location : Location}

/-- What a file contains as soon as everything is written out. -/
def contains (file : LogFile) (tree : FileTree) (location : Location) : Bytes :=
  tree.content location ++ if location = file.place then file.held else []

/-- The log is at a file that is there, and what is contained has become more by what was
added to the file that the log is at. -/
structure Adds (file : LogFile) (tree : FileTree) (next : LogFile) (later : FileTree)
    (added : Bytes) : Prop where
  hasFile : later.HasFile next.place
  contains : ∀ location, next.contains later location =
    file.contains tree location ++ if location = next.place then added else []

theorem Adds.after {middle last : LogFile} {between final : FileTree} {added : Bytes}
    (second : middle.Adds between last final added) (first : file.Adds tree middle between []) :
    file.Adds tree last final added where
  hasFile := second.hasFile
  contains location := by
    rw [second.contains, first.contains, ite_self, List.append_nil]

/-- What is added to one file in two parts. -/
theorem Adds.append {middle last : LogFile} {between final : FileTree} {added more : Bytes}
    (first : file.Adds tree middle between added) (second : middle.Adds between last final more)
    (same : last.place = middle.place) : file.Adds tree last final (added ++ more) where
  hasFile := second.hasFile
  contains location := by
    rw [second.contains, first.contains, same]
    split <;> simp

theorem Adds.refl (opened : tree.HasFile file.place) : file.Adds tree file tree [] where
  hasFile := opened
  contains location := by rw [ite_self, List.append_nil]

/-- Writing out changes where bytes are, not which there are. -/
theorem writeOut_adds (opened : tree.HasFile file.place) :
    file.Adds tree (file.writeOut tree).1 (file.writeOut tree).2 [] where
  hasFile := opened.appendTo file.place file.held
  contains location := by
    simp [contains, writeOut, opened.content_appendTo]

/-- Bytes are held back. -/
theorem hold_adds (opened : tree.HasFile file.place) (bytes : Bytes) :
    file.Adds tree { file with held := file.held ++ bytes } tree bytes where
  hasFile := opened
  contains location := by
    simp only [contains, List.append_assoc]
    split <;> simp

/-- Bytes are written behind those that were written out. -/
theorem appendTo_adds (opened : tree.HasFile file.place) (empty : file.held = []) (bytes : Bytes) :
    file.Adds tree file (tree.appendTo file.place bytes) bytes where
  hasFile := opened.appendTo file.place bytes
  contains location := by
    simp only [contains, empty, ite_self, List.append_nil, opened.content_appendTo]

/-- Writing bytes changes nothing of the log but what is held back. -/
theorem put_fields (file : LogFile) (tree : FileTree) (bytes : Bytes) :
    ∃ held, (file.put tree bytes).1 = { file with held } := by
  unfold put
  dsimp only
  split
  · exact ⟨_, rfl⟩
  split <;> split <;> exact ⟨_, rfl⟩

/-- Writing bytes does nothing to the files but append to the one that the log is at. -/
theorem put_induction {motive : FileTree → Prop} {bytes : Bytes} (start : motive tree)
    (append : ∀ between more, motive between → motive (between.appendTo file.place more)) :
    motive (file.put tree bytes).2 := by
  have written : motive (file.writeOut tree).2 := append tree file.held start
  unfold put
  dsimp only
  split
  · exact start
  split <;> split
  · exact append _ bytes written
  · exact append _ bytes start
  · exact written
  · exact start

/-- Bytes are written, by one of three ways. -/
theorem put_adds (opened : tree.HasFile file.place) (bytes : Bytes) :
    file.Adds tree (file.put tree bytes).1 (file.put tree bytes).2 bytes := by
  have written := writeOut_adds opened
  by_cases fits : bytes.length < heldCapacity - file.held.length
  · rw [put, if_pos fits]
    exact hold_adds opened bytes
  · by_cases large : heldCapacity ≤ bytes.length
    · by_cases full : heldCapacity - file.held.length < bytes.length
      · simp only [put, fits, full, large, ↓reduceIte]
        exact (appendTo_adds written.hasFile rfl bytes).after written
      · have empty : file.held = [] := by
          refine List.length_eq_zero_iff.1 ?_
          simp only [heldCapacity] at *
          omega
        simp only [put, fits, full, large, ↓reduceIte]
        exact appendTo_adds opened empty bytes
    · by_cases full : heldCapacity - file.held.length < bytes.length
      · simp only [put, fits, full, large, ↓reduceIte]
        exact (hold_adds written.hasFile bytes).after written
      · simp only [put, fits, full, large, ↓reduceIte]
        exact hold_adds opened bytes

/-! ### Lines

A line is written in one or two parts. -/

theorem putLine_fields (file : LogFile) (tree : FileTree) (line : Text) :
    ∃ held, (file.putLine tree line).1 = { file with held } := by
  obtain ⟨held, first⟩ := put_fields file tree line.bytes
  unfold putLine
  dsimp only
  split
  · exact ⟨held, first⟩
  · obtain ⟨last, second⟩ := put_fields { file with held } (file.put tree line.bytes).2 [lineFeed]
    exact ⟨last, first ▸ second⟩

theorem putLine_induction {motive : FileTree → Prop} {line : Text} (start : motive tree)
    (append : ∀ between more, motive between → motive (between.appendTo file.place more)) :
    motive (file.putLine tree line).2 := by
  have first : motive (file.put tree line.bytes).2 := put_induction start append
  unfold putLine
  dsimp only
  split
  · exact first
  · obtain ⟨held, fields⟩ := put_fields file tree line.bytes
    rw [fields]
    exact put_induction first append

theorem putLine_adds (opened : tree.HasFile file.place) (line : Text) :
    file.Adds tree (file.putLine tree line).1 (file.putLine tree line).2 (lineBytes line) := by
  have first := put_adds opened line.bytes
  unfold putLine lineBytes
  dsimp only
  split
  · exact first
  · obtain ⟨held, fields⟩ := put_fields (file.put tree line.bytes).1
      (file.put tree line.bytes).2 [lineFeed]
    exact first.append (put_adds first.hasFile [lineFeed]) (by rw [fields])

/-- A file that is begun when nothing is held back changes no bytes. -/
theorem beginFile_adds {dated : Text} {result : Except IoErrorKind Unit}
    (opened : tree.HasFile file.place) (empty : file.held = [])
    (begun : file.beginFile tree dated = (result, next, later)) :
    file.Adds tree next later [] := by
  simp only [beginFile] at begun
  split at begun
  · cases begun
    exact ⟨opened, fun location => by simp⟩
  · next touched =>
      cases begun
      obtain ⟨hasFile, same⟩ := FileTree.touch_ok touched
      exact ⟨hasFile, fun location => by simp [contains, empty, same]⟩

theorem rotate_adds {today : Nat} {result : Except IoErrorKind Unit}
    (opened : tree.HasFile file.place) (rotated : file.rotate tree today = (result, next, later)) :
    file.Adds tree next later [] := by
  have written := writeOut_adds opened
  simp only [rotate] at rotated
  split at rotated
  · have dated : file.Adds tree { (file.writeOut tree).1 with day := today, count := 0 }
        (file.writeOut tree).2 [] := ⟨written.hasFile, written.contains⟩
    exact (beginFile_adds dated.hasFile rfl rotated).after dated
  · split at rotated
    · exact (beginFile_adds written.hasFile rfl rotated).after written
    · cases rotated
      exact .refl opened

/-- A line that is written without an error is added to one file. -/
theorem writeLine_adds {today : Nat} {line : Text} (opened : tree.HasFile file.place)
    (wrote : file.writeLine tree today line = (.ok (), next, later)) :
    file.Adds tree next later (lineBytes line) := by
  simp only [writeLine] at wrote
  split at wrote
  · cases wrote
  · next turned rotated turning =>
      have turns := rotate_adds opened turning
      have counted : file.Adds tree { turned with count := turned.count + 1 } rotated [] :=
        ⟨turns.hasFile, turns.contains⟩
      have added := (putLine_adds counted.hasFile line).after counted
      simp only [Prod.mk.injEq, true_and] at wrote
      rwa [wrote] at added

/-- Also a line that is not written leaves the log at a file. -/
theorem hasFile_writeLine {today : Nat} {line : Text} {result : Except IoErrorKind Unit}
    (opened : tree.HasFile file.place)
    (wrote : file.writeLine tree today line = (result, next, later)) :
    later.HasFile next.place := by
  cases result with
  | ok => exact (writeLine_adds opened wrote).hasFile
  | error kind =>
      simp only [writeLine] at wrote
      split at wrote
      · next turned rotated turning =>
          simp only [Prod.mk.injEq] at wrote
          obtain ⟨-, rfl, rfl⟩ := wrote
          exact (rotate_adds opened turning).hasFile
      · cases congrArg Prod.fst wrote

/-- A log that is opened is at a file, nothing is held back, and no file has other bytes than
before. -/
theorem start_ok {path : Text} {splitLines today : Nat}
    (started : start tree path splitLines today = (.ok file, later)) :
    later.HasFile file.place ∧
      ∀ location, file.contains later location = tree.content location := by
  revert started
  fun_cases start tree path splitLines today with
  | case1 | case2 | case3 => exact fun started => by cases congrArg Prod.fst started
  | case4 _ _ _ reached made making place touched opened =>
      intro started
      simp only [Prod.mk.injEq, Except.ok.injEq] at started
      obtain ⟨rfl, rfl⟩ := started
      obtain ⟨hasFile, same⟩ := FileTree.touch_ok opened
      refine ⟨hasFile, fun location => ?_⟩
      have unchanged := @FileTree.content_makePath tree (directoryOf path) location
      rw [making] at unchanged
      rw [contains, ite_self, List.append_nil, same, unchanged]

theorem bytes_prefix_lineBytes (line : Text) : line.bytes <+: lineBytes line := by
  unfold lineBytes
  split
  · exact List.prefix_rfl
  · exact List.prefix_append _ _

/-- A line ends with a line feed. -/
theorem getLast?_lineBytes (line : Text) : (lineBytes line).getLast? = some lineFeed := by
  unfold lineBytes
  split
  · next ends =>
      obtain ⟨front, rfl⟩ := List.getLast?_eq_some_iff.1 ends
      rw [Text.bytes_append]
      exact List.getLast?_concat
  · exact List.getLast?_concat

end LogFile

end FileServer
