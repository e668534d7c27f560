import FileServer.Document.Lookup
import FileServer.Proofs.Text.Splitting
import FileServer.Text.Ascii

/-!
# The way down from the document root

The path of a document is the document root with the url of a request behind it.  A
url without the component `..` leads down only: the path has the components of the
root and then names, and who follows it comes to the root first and from there to a
place below it.
-/

namespace FileServer

namespace Path

/-- A url that cannot lead out of a directory, in the form in which requests are kept. -/
structure Descends (url : Text) : Prop where
  slash : ∃ rest, url = '/' :: rest
  noMark : '?' ∉ url
  noBlank : Text.Plain Ascii.isBlank url
  noParent : parent ∉ components url

/-- A component that names something in a directory. -/
structure IsName (component : Text) : Prop where
  nonempty : component ≠ []
  notCurrent : component ≠ current
  notParent : component ≠ parent
  noSlash : '/' ∉ component

variable {root url : Text}

/-! ## Components of a path below a root -/

theorem components_append_slash (front back : Text) :
    components (front ++ '/' :: back) = components front ++ components back :=
  Text.splitAt_append_cons (by decide) front back

/-- Without its leading slashes a path has no other components than with them. -/
theorem components_relative_subset (url : Text) : components (relative url) ⊆ components url := by
  induction url with
  | nil => exact List.Subset.refl _
  | cons char rest ih =>
      by_cases slash : char = '/'
      · subst slash
        have same : relative ('/' :: rest) = relative rest := rfl
        rw [same, ← List.nil_append ('/' :: rest), components_append_slash]
        exact List.subset_append_of_subset_right _ ih
      · have same : relative (char :: rest) = char :: rest :=
          List.dropWhile_cons_of_neg (by simpa using slash)
        rw [same]
        exact List.Subset.refl _

/-- The components that lead to a directory, without an empty one at the end. -/
def ahead (directory : Text) : List Text :=
  if directory.isEmpty || directory.getLast? = some '/' then (components directory).dropLast
  else components directory

/-- A directory has one component more than those ahead, an empty one, or none. -/
theorem components_eq_ahead_append (directory : Text) :
    ∃ idle, components directory = ahead directory ++ idle ∧
      ∀ component ∈ idle, component = [] := by
  by_cases nothing : directory = []
  · subst nothing
    exact ⟨[[]], rfl, by simp⟩
  by_cases closed : directory.getLast? = some '/'
  · obtain ⟨init, rfl⟩ := List.getLast?_eq_some_iff.1 closed
    have whole : components (init ++ ['/']) = components init ++ [[]] :=
      components_append_slash init []
    exact ⟨[[]], by rw [ahead, whole]; simp, by simp⟩
  · exact ⟨[], by simp [ahead, nothing, closed], nofun⟩

/-- What lies in a directory is reached behind what leads to the directory. -/
theorem components_join {directory below : Text} (relative : isAbsolute below = false) :
    components (join directory below) = ahead directory ++ components below := by
  by_cases nothing : directory = []
  · subst nothing
    rw [join, List.isEmpty_nil, Bool.or_true, if_pos rfl]
    rfl
  by_cases closed : directory.getLast? = some '/'
  · obtain ⟨init, rfl⟩ := List.getLast?_eq_some_iff.1 closed
    have whole : components (init ++ ['/']) = components init ++ [[]] :=
      components_append_slash init []
    have path : join (init ++ ['/']) below = init ++ '/' :: below := by
      simp [join, relative]
    rw [path, components_append_slash, ahead, whole]
    simp
  · have path : join directory below = directory ++ '/' :: below := by
      simp [join, relative, nothing, closed]
    rw [path, components_append_slash]
    simp [ahead, nothing, closed]

/-- The path of a document has the components of the root, up to an empty one at the
end, and those of the url without its leading slashes. -/
theorem components_documentPath (root url : Text) :
    ∃ front idle, components root = front ++ idle ∧ (∀ component ∈ idle, component = []) ∧
      components (documentPath root url) = front ++ components (relative url) := by
  obtain ⟨idle, whole, empty⟩ := components_eq_ahead_append root
  exact ⟨ahead root, idle, whole, empty, components_join (isAbsolute_relative url)⟩

/-- The path of a document leads along the root and then along the url. -/
theorem moves_documentPath (root url : Text) :
    moves (documentPath root url) = moves root ++ moves (relative url) := by
  obtain ⟨front, idle, whole, empty, path⟩ := components_documentPath root url
  have still : idle.filter (fun component => !isIdle component) = [] := by
    rw [List.filter_eq_nil_iff]
    intro component member
    simp [empty component member, isIdle]
  rw [moves, moves, path, whole, List.filter_append, List.filter_append, still, List.append_nil]
  rfl

/-- What lies in a directory starts where the directory starts. -/
theorem isAbsolute_join {directory below : Text} (relative : isAbsolute below = false) :
    isAbsolute (join directory below) = isAbsolute directory := by
  cases directory with
  | nil =>
      rw [join, List.isEmpty_nil, Bool.or_true, if_pos rfl, relative]
      rfl
  | cons char rest =>
      have start (more : Text) : isAbsolute (char :: rest ++ more) = isAbsolute (char :: rest) := by
        by_cases slash : char = '/' <;> simp [isAbsolute, slash]
      simp only [join, relative, List.isEmpty_cons, Bool.or_self, Bool.false_eq_true, ↓reduceIte]
      split
      · exact start _
      · exact start _

/-- The path of a document starts where the root starts. -/
theorem isAbsolute_documentPath (root url : Text) :
    isAbsolute (documentPath root url) = isAbsolute root :=
  isAbsolute_join (isAbsolute_relative url)

/-- A url that leads down leads along names. -/
theorem Descends.isName (descends : Descends url) {name : Text}
    (member : name ∈ moves (relative url)) : IsName name := by
  obtain ⟨piece, moving⟩ := List.mem_filter.1 member
  simp only [isIdle, Bool.not_or, Bool.and_eq_true, Bool.not_eq_eq_eq_not, Bool.not_true,
    List.isEmpty_eq_false_iff, beq_eq_false_iff_ne] at moving
  refine ⟨moving.1, moving.2, fun same => ?_, fun slash => ?_⟩
  · exact descends.noParent (components_relative_subset url (same ▸ piece))
  · have plain := Text.not_separator_of_mem_splitAt piece slash
    simp at plain

end Path

namespace FileTree

variable {tree : FileTree} {root url : Text} {here there : Location}

/-! ## Following a path -/

/-- Components are followed one part after the other. -/
theorem walk_append {front back : List Text} :
    tree.walk here (front ++ back) = .ok there ↔
      ∃ middle, tree.walk here front = .ok middle ∧ tree.walk middle back = .ok there := by
  induction front generalizing here with
  | nil => simp [walk]
  | cons component rest ih =>
      rw [List.cons_append, walk, walk]
      cases tree.entry? here with
      | none => simp
      | some entry =>
          cases entry with
          | file stored => simp
          | directory mode =>
              dsimp only
              split
              · exact ih
              split
              · exact ih
              split
              · simp
              split
              · simp
              · exact ih

/-- Components are followed from a directory. -/
theorem directory_of_walk {components : List Text} (nonempty : components ≠ [])
    (followed : tree.walk here components = .ok there) :
    ∃ mode, tree.entry? here = some (.directory mode) := by
  obtain ⟨component, rest, rfl⟩ := List.exists_cons_of_ne_nil nonempty
  unfold walk at followed
  split at followed
  · cases followed
  · cases followed
  · next mode entry => exact ⟨mode, entry⟩

/-- Without `..` the way leads down. -/
theorem walk_down {components : List Text} (noParent : Path.parent ∉ components)
    (followed : tree.walk here components = .ok there) :
    there = here ++ components.filter fun component => !Path.isIdle component := by
  induction components generalizing here with
  | nil =>
      cases followed
      simp
  | cons component rest ih =>
      obtain ⟨notParent, further⟩ := not_or.1 (mt List.mem_cons.2 noParent)
      unfold walk at followed
      split at followed
      · cases followed
      · cases followed
      by_cases moving : Path.isIdle component = true
      · rw [if_pos moving] at followed
        rw [ih further followed, List.filter_cons_of_neg (by simp [moving])]
      rw [if_neg moving, if_neg (Ne.symm notParent)] at followed
      split at followed
      · cases followed
      split at followed
      · cases followed
      · rw [ih further followed, List.filter_cons_of_pos (by simpa using moving)]
        simp

/-- Empty components lead nowhere. -/
theorem walk_empty {idle : List Text} (empty : ∀ component ∈ idle, component = []) {mode : Nat}
    (entry : tree.entry? here = some (.directory mode)) : tree.walk here idle = .ok here := by
  induction idle with
  | nil => rfl
  | cons component rest ih =>
      obtain ⟨rfl, others⟩ := List.forall_mem_cons.1 empty
      simp [walk, entry, Path.isIdle, ih others]

/-- The path of a document leads to the root, which is a directory, and down from
there. -/
theorem locate_documentPath {location : Location}
    (noParent : Path.parent ∉ Path.components (Path.relative url))
    (located : tree.locate (documentPath root url) = .ok location) :
    ∃ directory mode, tree.walk (.ofStart root) (Path.components root) = .ok directory ∧
      tree.entry? directory = some (.directory mode) ∧
      location = directory ++ Path.moves (Path.relative url) := by
  unfold locate at located
  split at located
  · cases located
  split at located
  · cases located
  obtain ⟨front, idle, whole, empty, path⟩ := Path.components_documentPath root url
  rw [path, Location.ofStart, Path.isAbsolute_documentPath, ← Location.ofStart] at located
  obtain ⟨directory, reached, down⟩ := walk_append.1 located
  obtain ⟨mode, entry⟩ := directory_of_walk (Text.splitAt_ne_nil _ _) down
  refine ⟨directory, mode, ?_, entry, walk_down noParent down⟩
  rw [whole]
  exact walk_append.2 ⟨directory, reached, walk_empty empty entry⟩

/-- A file with some content lies below the document root. -/
def HoldsBelow (tree : FileTree) (root : Text) (content : Bytes) : Prop :=
  ∃ directory names stored, tree.walk (.ofStart root) (Path.components root) = .ok directory ∧
    names ≠ [] ∧ (∀ name ∈ names, Path.IsName name) ∧
    tree.entry? (directory ++ names) = some (.file stored) ∧ stored.content = content

/-- What is looked up is the file that the path leads to. -/
theorem locate_of_lookup {path : Text} {stored : File} (found : tree.lookup path = .ok stored) :
    ∃ location, tree.locate path = .ok location ∧ tree.entry? location = some (.file stored) := by
  unfold lookup at found
  split at found
  · cases found
  · next entry led =>
      split at found
      · cases found
      split at found
      · cases found
      split at found
      · cases found
      cases found
      cases located : tree.locate path with
      | error kind =>
          simp only [find, located, bind, Except.bind] at led
          cases led
      | ok location =>
          simp only [find, located, bind, Except.bind] at led
          refine ⟨location, rfl, ?_⟩
          split at led
          · next held =>
              cases led
              exact held
          · cases led

/-- The document that a url without `..` asks for lies below the root. -/
theorem holdsBelow_of_lookup {stored : File} (descends : Path.Descends url)
    (found : tree.lookup (documentPath root url) = .ok stored) :
    tree.HoldsBelow root stored.content := by
  obtain ⟨location, located, entry⟩ := locate_of_lookup found
  have noParent : Path.parent ∉ Path.components (Path.relative url) :=
    fun member => descends.noParent (Path.components_relative_subset url member)
  obtain ⟨directory, mode, reached, above, rfl⟩ := locate_documentPath noParent located
  refine ⟨directory, _, stored, reached, fun none => ?_, fun name => descends.isName, entry, rfl⟩
  rw [none, List.append_nil, above] at entry
  cases entry

end FileTree

end FileServer
