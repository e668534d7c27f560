import FileServer.Document.Tree

/-!
# What the files of a tree contain

A tree changes by entries that are put at locations.  Each location has its own entry, so what
is put at one of them leaves the files at all others, and bytes that are appended to a file come
behind those that it contains.
-/

namespace FileServer

namespace FileTree

variable {tree : FileTree} {location other : Location}

/-- Whether a location is that of a directory in any tree. -/
def isFixed (location : Location) : Bool :=
  location.isEmpty || location.isAbove || location == Location.fileSystem

/-- There is a regular file at a location. -/
def HasFile (tree : FileTree) (location : Location) : Prop :=
  ∃ file, tree.entry? location = some (.file file)

/-- The bytes at a location: none where there is no regular file. -/
def content (tree : FileTree) (location : Location) : Bytes :=
  match tree.entry? location with
  | some (.file file) => file.content
  | _ => []

theorem content_of_not_hasFile (absent : ¬ tree.HasFile location) : tree.content location = [] := by
  unfold content
  split
  · next file found => exact (absent ⟨file, found⟩).elim
  · rfl

theorem entry?_of_not_fixed (free : isFixed location = false) :
    tree.entry? location = tree.entries.lookup location := by
  simp only [isFixed, Bool.or_eq_false_iff] at free
  unfold entry?
  simp [free]

theorem entry?_of_fixed (fixed : isFixed location = true) (tree : FileTree) :
    tree.entry? location = some (.directory
      (if location.isEmpty then tree.rootMode else defaultDirectoryMode)) := by
  simp only [isFixed, Bool.or_assoc] at fixed
  unfold entry?
  split
  · rfl
  · next named =>
      rw [if_pos (by simpa [named] using fixed)]

theorem lookup_put (entries : List (Location × Entry)) (location other : Location)
    (entry : Entry) :
    (entries.filter (fun (place, _) => place != location) ++ [(location, entry)]).lookup other =
      if other = location then some entry else entries.lookup other := by
  induction entries with
  | nil =>
      by_cases same : other = location
      · simp [same]
      · simp [List.lookup_cons, same, beq_eq_false_iff_ne.2 same]
  | cons first rest ih =>
      obtain ⟨place, held⟩ := first
      by_cases here : place = location
      · subst here
        by_cases same : other = place
        · simpa [same] using ih
        · simpa [List.lookup_cons, same, beq_eq_false_iff_ne.2 same] using ih
      · by_cases mine : other = place
        · subst mine
          simp [here]
        · simpa [here, List.lookup_cons, beq_eq_false_iff_ne.2 mine] using ih

/-- Putting an entry at a location leaves all others. -/
theorem entry?_put (free : isFixed location = false) (entry : Entry) (other : Location) :
    FileTree.entry? (tree.put location entry) other =
      if other = location then some entry else tree.entry? other := by
  cases fixed : isFixed other with
  | true =>
      have differ : other ≠ location := by
        rintro rfl
        cases fixed.symm.trans free
      rw [if_neg differ, entry?_of_fixed fixed, entry?_of_fixed fixed]
      rfl
  | false =>
      rw [entry?_of_not_fixed fixed, entry?_of_not_fixed fixed]
      exact lookup_put tree.entries location other entry

/-- Where there is no directory, an entry can be put. -/
theorem not_fixed_of_found {entry : Option Entry} (found : tree.entry? location = entry)
    (other : ∀ mode, entry ≠ some (.directory mode)) : isFixed location = false := by
  rw [← Bool.not_eq_true]
  exact fun fixed => other _ (found.symm.trans (entry?_of_fixed fixed tree))

theorem not_hasFile_empty (mode : Nat) (location : Location) : ¬ (empty mode).HasFile location := by
  rintro ⟨file, found⟩
  have free := not_fixed_of_found found nofun
  rw [entry?_of_not_fixed free] at found
  cases found

theorem HasFile.not_fixed (holds : tree.HasFile location) : isFixed location = false := by
  obtain ⟨file, found⟩ := holds
  exact not_fixed_of_found found nofun

theorem HasFile.put (holds : tree.HasFile other) (free : isFixed location = false) (file : File) :
    (tree.put location (.file file)).HasFile other := by
  obtain ⟨old, found⟩ := holds
  by_cases same : other = location
  · exact ⟨file, by rw [entry?_put free, if_pos same]⟩
  · exact ⟨old, by rw [entry?_put free, if_neg same, found]⟩

theorem content_put (free : isFixed location = false) (file : File) (other : Location) :
    (tree.put location (.file file)).content other =
      if other = location then file.content else tree.content other := by
  simp only [content, entry?_put free]
  by_cases same : other = location <;> simp [same]

/-- Appending to a file adds to this one alone. -/
theorem HasFile.content_appendTo (holds : tree.HasFile location) (bytes : Bytes)
    (other : Location) :
    (tree.appendTo location bytes).content other =
      tree.content other ++ if other = location then bytes else [] := by
  obtain ⟨file, found⟩ := holds
  simp only [appendTo, found]
  rw [content_put (HasFile.not_fixed ⟨file, found⟩)]
  split
  · next same => simp [content, same, found]
  · rw [List.append_nil]

theorem HasFile.appendTo (holds : tree.HasFile other) (location : Location) (bytes : Bytes) :
    (tree.appendTo location bytes).HasFile other := by
  simp only [FileTree.appendTo]
  split
  · next file found => exact holds.put (HasFile.not_fixed ⟨file, found⟩) _
  · exact holds

/-- A file that is touched is there, and no file has other bytes than before. -/
theorem touch_ok {path : Text} {touched : FileTree}
    (opened : tree.touch path = .ok (location, touched)) :
    touched.HasFile location ∧ ∀ other, touched.content other = tree.content other := by
  unfold touch at opened
  simp only [bind, Except.bind, pure, Except.pure, throw, throwThe, MonadExceptOf.throw] at opened
  repeat' split at opened
  all_goals try cases opened
  · next file found => exact ⟨⟨file, found⟩, fun _ => rfl⟩
  · next absent =>
      have free := not_fixed_of_found absent nofun
      refine ⟨⟨_, by rw [entry?_put free, if_pos rfl]⟩, fun other => ?_⟩
      rw [content_put free]
      split
      · next same => simp [content, same, absent]
      · rfl

/-- A directory that is put where nothing was changes no file. -/
theorem content_putDirectory (absent : tree.entry? location = none) (mode : Nat)
    (other : Location) :
    (tree.put location (.directory mode)).content other = tree.content other := by
  simp only [content, entry?_put (not_fixed_of_found absent nofun)]
  by_cases same : other = location
  · simp only [same, ↓reduceIte, absent]
  · rw [if_neg same]

theorem content_makeDirectories (hasMade : Bool) (here : Location) (names : List Text)
    (other : Location) :
    (tree.makeDirectories hasMade here names).2.content other = tree.content other := by
  fun_induction makeDirectories tree hasMade here names with
  | case1 => rfl
  | case2 _ _ _ _ ih => exact ih
  | case3 => rfl
  | case4 _ _ _ _ _ _ _ _ _ _ ih => exact ih
  | case5 => rfl
  | case6 _ _ _ _ _ _ _ _ absent ih =>
      rw [ih]
      exact content_putDirectory absent _ other

/-- Making directories changes no file. -/
theorem content_makePath (path : Text) (other : Location) :
    (tree.makePath path).2.content other = tree.content other := by
  unfold makePath
  split
  · rfl
  · exact content_makeDirectories false _ _ other

end FileTree

end FileServer
