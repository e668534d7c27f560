import FileServer.Proofs.Document.Descent
import FileServer.Proofs.Document.Files

/-!
# Files that are made in a directory

Where a path leads to depends on its components alone: a tree only decides whether they can be
followed.  A tree in which files and directories are made keeps those that it has, so a path
that could be followed can still be followed, and it leads to the same place.  A directory that
is made for a path is the one that the path leads to, and a file that is made in it is found by
the path of the directory with the name behind it.
-/

namespace FileServer

namespace Path

variable {directory name : Text}

/-! ## Paths of what lies in a directory -/

theorem isAbsolute_of_plain (plain : '/' ∉ name) : isAbsolute name = false := by
  unfold isAbsolute
  split
  · exact absurd List.mem_cons_self plain
  · rfl

theorem components_of_plain (plain : '/' ∉ name) : components name = [name] :=
  Text.splitAt_of_plain fun char member => by
    simpa using fun slash : char = '/' => plain (slash ▸ member)

/-- Something in a directory is the last component of its path. -/
theorem components_join_name (plain : '/' ∉ name) :
    components (join directory name) = ahead directory ++ [name] := by
  rw [components_join (isAbsolute_of_plain plain), components_of_plain plain]

/-- The name that a path ends in has no slash. -/
theorem plain_of_fileName? {path : Text} (named : fileName? path = some name) : '/' ∉ name := by
  have member : name ∈ moves path := by
    unfold fileName? at named
    split at named
    · next last found =>
        split at named
        · cases named
        · cases named
          exact List.mem_of_getLast? found
    · cases named
  exact fun slash => by
    simpa using Text.not_separator_of_mem_splitAt (List.mem_filter.1 member).1 slash

end Path

theorem Location.ofStart_join {directory name : Text} (plain : '/' ∉ name) :
    ofStart (Path.join directory name) = ofStart directory := by
  rw [ofStart, Path.isAbsolute_join (Path.isAbsolute_of_plain plain), ofStart]

namespace FileTree

variable {tree other later last : FileTree} {here there location : Location}
variable {directory name : Text}

/-! ## Trees that keep what they have -/

/-- There is a directory at a location. -/
def HasDirectory (tree : FileTree) (location : Location) : Prop :=
  ∃ mode, tree.entry? location = some (.directory mode)

/-- The tree keeps its directories and its files, and all files that it gains are among
these. -/
structure Gains (tree later : FileTree) (gained : List Location) : Prop where
  hasDirectory : ∀ location, tree.HasDirectory location → later.HasDirectory location
  hasFile : ∀ location, later.HasFile location ↔ tree.HasFile location ∨ location ∈ gained

theorem Gains.refl (tree : FileTree) : tree.Gains tree [] where
  hasDirectory _ := id
  hasFile _ := by simp

theorem Gains.trans {gained more : List Location} (first : tree.Gains later gained)
    (second : later.Gains last more) : tree.Gains last (gained ++ more) where
  hasDirectory location := second.hasDirectory location ∘ first.hasDirectory location
  hasFile location := by
    rw [second.hasFile, first.hasFile, List.mem_append, or_assoc]

/-- A file that was there before may be counted as gained or not. -/
theorem gains_singleton_iff (there : tree.HasFile location) :
    tree.Gains later [location] ↔ tree.Gains later [] := by
  have same (place : Location) :
      (tree.HasFile place ∨ place ∈ [location]) ↔ (tree.HasFile place ∨ place ∈ []) := by
    simp only [List.mem_singleton, List.not_mem_nil, or_false, or_iff_left_iff_imp]
    rintro rfl
    exact there
  constructor
  · exact fun gains => ⟨gains.hasDirectory, fun place => (gains.hasFile place).trans (same place)⟩
  · exact fun gains =>
      ⟨gains.hasDirectory, fun place => (gains.hasFile place).trans (same place).symm⟩

/-- A file that is put where there is no directory. -/
theorem gains_putFile (free : isFixed location = false)
    (noDirectory : ¬ tree.HasDirectory location) (file : File) :
    tree.Gains (tree.put location (.file file)) [location] where
  hasDirectory place := by
    rintro ⟨mode, found⟩
    have differ : place ≠ location := by
      rintro rfl
      exact noDirectory ⟨mode, found⟩
    exact ⟨mode, by rw [entry?_put free, if_neg differ, found]⟩
  hasFile place := by
    by_cases same : place = location
    · simp [HasFile, entry?_put free, same]
    · simp [HasFile, entry?_put free, same]

/-- A directory that is put where nothing was. -/
theorem gains_putDirectory (absent : tree.entry? location = none) (mode : Nat) :
    tree.Gains (tree.put location (.directory mode)) [] := by
  have free : isFixed location = false := not_fixed_of_found absent nofun
  refine ⟨fun place => ?_, fun place => ?_⟩
  · rintro ⟨old, found⟩
    have differ : place ≠ location := by
      rintro rfl
      cases absent.symm.trans found
    exact ⟨old, by rw [entry?_put free, if_neg differ, found]⟩
  · by_cases same : place = location
    · simp [HasFile, entry?_put free, same, absent]
    · simp [HasFile, entry?_put free, same]

theorem hasDirectory_put (absent : tree.entry? location = none) (mode : Nat) :
    (tree.put location (.directory mode)).HasDirectory location := by
  have free : isFixed location = false := not_fixed_of_found absent nofun
  exact ⟨mode, by rw [entry?_put free, if_pos rfl]⟩

theorem gains_appendTo (tree : FileTree) (location : Location) (bytes : Bytes) :
    tree.Gains (tree.appendTo location bytes) [] := by
  unfold appendTo
  split
  · next file found =>
      have free := HasFile.not_fixed ⟨file, found⟩
      have noDirectory : ¬ tree.HasDirectory location := by
        rintro ⟨mode, directory⟩
        cases found.symm.trans directory
      exact (gains_singleton_iff ⟨file, found⟩).1 (gains_putFile free noDirectory _)
  · exact .refl tree

/-! ## Paths in trees that keep what they have -/

/-- Where a component leads to, if it can be followed. -/
def after (here : Location) (component : Text) : Location :=
  if Path.isIdle component then here
  else if component = Path.parent then here.parent
  else here ++ [component]

/-- A component can be followed: from a directory, and to something that is there. -/
structure Passes (tree : FileTree) (here : Location) (component : Text) : Prop where
  hasDirectory : tree.HasDirectory here
  named : Path.isIdle component = false → component ≠ Path.parent →
    component.byteSize ≤ maxNameSize ∧ ∃ entry, tree.entry? (here ++ [component]) = some entry

theorem walk_cons_eq_ok {component : Text} {rest : List Text} :
    tree.walk here (component :: rest) = .ok there ↔
      tree.Passes here component ∧ tree.walk (after here component) rest = .ok there := by
  constructor
  · intro followed
    unfold walk at followed
    split at followed
    · cases followed
    · cases followed
    next mode directory =>
    split at followed
    · next idle =>
        exact ⟨⟨⟨mode, directory⟩, fun moving => by cases idle.symm.trans moving⟩,
          by rwa [after, if_pos idle]⟩
    next moving =>
    split at followed
    · next up =>
        exact ⟨⟨⟨mode, directory⟩, fun _ down => absurd up down⟩,
          by rwa [after, if_neg moving, if_pos up]⟩
    next down =>
    split at followed
    · cases followed
    next short =>
    split at followed
    · cases followed
    next entry found =>
    exact ⟨⟨⟨mode, directory⟩, fun _ _ => ⟨Nat.le_of_not_lt short, entry, found⟩⟩,
      by rwa [after, if_neg moving, if_neg down]⟩
  · rintro ⟨⟨⟨mode, directory⟩, named⟩, followed⟩
    rw [walk, directory]
    dsimp only
    unfold after at followed
    split
    · next idle => rwa [if_pos idle] at followed
    next moving =>
    rw [if_neg moving] at followed
    split
    · next up => rwa [if_pos up] at followed
    next down =>
    obtain ⟨short, entry, found⟩ := named (by simpa using moving) down
    rw [if_neg (Nat.not_lt.2 short), found]
    rwa [if_neg down] at followed

theorem walk_cons_up {rest : List Text} (hasDirectory : tree.HasDirectory here)
    (followed : tree.walk here.parent rest = .ok there) :
    tree.walk here (Path.parent :: rest) = .ok there :=
  walk_cons_eq_ok.2 ⟨⟨hasDirectory, fun _ down => (down rfl).elim⟩, followed⟩

theorem walk_cons_down {component : Text} {rest : List Text} {entry : Entry}
    (hasDirectory : tree.HasDirectory here) (moving : Path.isIdle component = false)
    (down : component ≠ Path.parent) (short : component.byteSize ≤ maxNameSize)
    (found : tree.entry? (here ++ [component]) = some entry)
    (followed : tree.walk (here ++ [component]) rest = .ok there) :
    tree.walk here (component :: rest) = .ok there := by
  refine walk_cons_eq_ok.2 ⟨⟨hasDirectory, fun _ _ => ⟨short, entry, found⟩⟩, ?_⟩
  rwa [after, moving, if_neg Bool.false_ne_true, if_neg down]

/-- Where a path leads to does not depend on the tree. -/
theorem walk_unique {components : List Text} {elsewhere : Location}
    (followed : tree.walk here components = .ok there)
    (again : other.walk here components = .ok elsewhere) : there = elsewhere := by
  induction components generalizing here with
  | nil =>
      cases followed
      cases again
      rfl
  | cons component rest ih =>
      exact ih (walk_cons_eq_ok.1 followed).2 (walk_cons_eq_ok.1 again).2

theorem Gains.passes {gained : List Location} {component : Text} (gains : tree.Gains later gained)
    (passes : tree.Passes here component) : later.Passes here component where
  hasDirectory := gains.hasDirectory here passes.hasDirectory
  named moving down := by
    obtain ⟨short, entry, found⟩ := passes.named moving down
    refine ⟨short, ?_⟩
    cases entry with
    | directory mode =>
        obtain ⟨mode, stays⟩ := gains.hasDirectory _ ⟨mode, found⟩
        exact ⟨_, stays⟩
    | file file =>
        obtain ⟨file, stays⟩ := (gains.hasFile _).2 (.inl ⟨file, found⟩)
        exact ⟨_, stays⟩

/-- A path that could be followed can still be followed. -/
theorem Gains.walk {gained : List Location} (gains : tree.Gains later gained)
    {components : List Text} (followed : tree.walk here components = .ok there) :
    later.walk here components = .ok there := by
  induction components generalizing here with
  | nil => exact followed
  | cons component rest ih =>
      obtain ⟨passes, further⟩ := walk_cons_eq_ok.1 followed
      exact walk_cons_eq_ok.2 ⟨gains.passes passes, ih further⟩

theorem Gains.locate {gained : List Location} {path : Text} (gains : tree.Gains later gained)
    (located : tree.locate path = .ok location) : later.locate path = .ok location := by
  unfold FileTree.locate at located ⊢
  split at located
  · cases located
  next nonempty =>
  rw [if_neg nonempty]
  split at located
  · cases located
  · exact gains.walk located

/-- Components that do nothing can be left out of the path of a directory. -/
theorem walk_of_moves {components : List Text} (start : tree.HasDirectory here)
    (goal : tree.HasDirectory there)
    (followed : tree.walk here (components.filter fun component => !Path.isIdle component) =
      .ok there) : tree.walk here components = .ok there := by
  induction components generalizing here with
  | nil => exact followed
  | cons component rest ih =>
      by_cases idle : Path.isIdle component = true
      · rw [List.filter_cons_of_neg (by simp [idle])] at followed
        refine walk_cons_eq_ok.2 ⟨⟨start, fun moving => by cases idle.symm.trans moving⟩, ?_⟩
        rw [after, if_pos idle]
        exact ih start followed
      · rw [List.filter_cons_of_pos (by simp [idle])] at followed
        obtain ⟨passes, further⟩ := walk_cons_eq_ok.1 followed
        have next : tree.HasDirectory (after here component) := by
          by_cases last : (rest.filter fun component => !Path.isIdle component) = []
          · rw [last] at further
            cases further
            exact goal
          · exact directory_of_walk last further
        exact walk_cons_eq_ok.2 ⟨passes, ih next further⟩

/-! ## Making directories -/

/-- A location and all that it lies in are directories. -/
def Grounded (tree : FileTree) (here : Location) : Prop :=
  ∀ above, above <+: here → tree.HasDirectory above

theorem hasDirectory_of_fixed (fixed : isFixed location = true) : tree.HasDirectory location :=
  ⟨_, entry?_of_fixed fixed tree⟩

theorem Grounded.hasDirectory (grounded : tree.Grounded here) : tree.HasDirectory here :=
  grounded here List.prefix_rfl

theorem Grounded.gains {gained : List Location} (grounded : tree.Grounded here)
    (gains : tree.Gains later gained) : later.Grounded here :=
  fun above leads => gains.hasDirectory above (grounded above leads)

theorem Grounded.child (grounded : tree.Grounded here)
    (child : tree.HasDirectory (here ++ [name])) : tree.Grounded (here ++ [name]) := by
  intro above leads
  rcases List.prefix_concat_iff.1 leads with rfl | shorter
  · exact child
  · exact grounded above shorter

theorem Grounded.parent (grounded : tree.Grounded here) : tree.Grounded here.parent := by
  unfold Location.parent
  split
  · next above =>
      refine grounded.child (hasDirectory_of_fixed ?_)
      have further : Location.isAbove (here ++ [Path.parent]) = true := by
        simp only [Location.isAbove] at above ⊢
        simp [above]
      simp [isFixed, further]
  split
  · next root => exact root ▸ grounded
  · exact fun above leads => grounded above (leads.trans (List.dropLast_prefix here))

theorem grounded_ofStart (tree : FileTree) (path : Text) : tree.Grounded (.ofStart path) := by
  have root : tree.Grounded [] := by
    intro above leads
    rw [List.prefix_nil.1 leads]
    exact hasDirectory_of_fixed rfl
  unfold Location.ofStart
  split
  · exact root.child (hasDirectory_of_fixed rfl)
  · exact root

/-- What is made is what the steps lead to then, and no file is made. -/
theorem makeDirectories_ok {hasMade : Bool} {names : List Text} (grounded : tree.Grounded here)
    (moving : ∀ name ∈ names, Path.isIdle name = false)
    (made : tree.makeDirectories hasMade here names = (.ok there, later)) :
    tree.Gains later [] ∧ later.walk here names = .ok there ∧ later.HasDirectory there := by
  revert made
  fun_induction makeDirectories tree hasMade here names with
  | case1 tree hasMade here =>
      intro made
      cases made
      exact ⟨.refl _, rfl, grounded.hasDirectory⟩
  | case2 tree hasMade here rest ih =>
      intro made
      obtain ⟨gains, followed, goal⟩ := ih grounded.parent (List.forall_mem_cons.1 moving).2 made
      exact ⟨gains, walk_cons_up (gains.hasDirectory _ grounded.hasDirectory) followed, goal⟩
  | case3 | case5 => exact fun made => by cases congrArg Prod.fst made
  | case4 tree hasMade here component rest down short there mode found ih =>
      intro made
      obtain ⟨moves, others⟩ := List.forall_mem_cons.1 moving
      obtain ⟨gains, followed, goal⟩ := ih (grounded.child ⟨mode, found⟩) others made
      obtain ⟨_, stays⟩ := gains.hasDirectory _ ⟨mode, found⟩
      exact ⟨gains, walk_cons_down (gains.hasDirectory _ grounded.hasDirectory) moves down
        (Nat.le_of_not_lt short) stays followed, goal⟩
  | case6 tree hasMade here component rest down short there absent ih =>
      intro made
      have putting := gains_putDirectory absent defaultDirectoryMode
      have child := hasDirectory_put absent defaultDirectoryMode
      obtain ⟨moves, others⟩ := List.forall_mem_cons.1 moving
      obtain ⟨gains, followed, goal⟩ := ih ((grounded.gains putting).child child) others made
      have whole := putting.trans gains
      obtain ⟨_, stays⟩ := gains.hasDirectory _ child
      exact ⟨whole, walk_cons_down (whole.hasDirectory _ grounded.hasDirectory) moves down
        (Nat.le_of_not_lt short) stays followed, goal⟩

/-- The directory that is made for a path is the one that the path leads to, and no file is
made. -/
theorem makePath_ok (made : tree.makePath directory = (.ok there, later)) :
    tree.Gains later [] ∧ later.walk (.ofStart directory) (Path.ahead directory) = .ok there ∧
      later.HasDirectory there := by
  unfold makePath at made
  split at made
  · cases congrArg Prod.fst made
  obtain ⟨gains, followed, goal⟩ := makeDirectories_ok (grounded_ofStart tree directory)
    (fun name member => by simpa using (List.mem_filter.1 member).2) made
  have start := (grounded_ofStart later directory).hasDirectory
  have whole := walk_of_moves start goal followed
  obtain ⟨idle, components, empty⟩ := Path.components_eq_ahead_append directory
  rw [components] at whole
  obtain ⟨middle, reached, rest⟩ := walk_append.1 whole
  cases idle with
  | nil =>
      cases rest
      exact ⟨gains, reached, goal⟩
  | cons component others =>
      obtain ⟨mode, found⟩ := directory_of_walk (List.cons_ne_nil _ _) rest
      rw [walk_empty empty found] at rest
      cases rest
      exact ⟨gains, reached, goal⟩

/-! ## Files in a directory -/

/-- A file is opened in the directory whose path stands in front of its name.  If that is a
directory, then the path leads to the file. -/
theorem touch_join_ok (plain : '/' ∉ name)
    (opened : tree.touch (Path.join directory name) = .ok (location, later)) :
    tree.Gains later [location] ∧
      ∃ above, tree.walk (.ofStart directory) (Path.ahead directory) = .ok above ∧
        location = above ++ [name] ∧
        (tree.HasDirectory above → later.locate (Path.join directory name) = .ok location) := by
  unfold touch at opened
  simp only [bind, Except.bind, pure, Except.pure, throw, throwThe, MonadExceptOf.throw,
    Path.components_join_name plain, Location.ofStart_join plain, List.dropLast_concat,
    List.getLast?_concat, Option.getD_some] at opened
  split at opened
  · cases opened
  next checked =>
  split at opened
  · cases opened
  split at opened
  · cases opened
  next above reached =>
  split at opened
  · cases opened
  next moving =>
  split at opened
  · cases opened
  next short =>
  have found : tree.Gains later [location] ∧ location = above ++ [name] := by
    split at opened
    · cases opened
    · next file found =>
        cases opened
        exact ⟨(gains_singleton_iff ⟨file, found⟩).2 (.refl _), rfl⟩
    · next absent =>
        cases opened
        refine ⟨gains_putFile (not_fixed_of_found absent nofun) ?_ _, rfl⟩
        rintro ⟨mode, found⟩
        cases absent.symm.trans found
  obtain ⟨gains, rfl⟩ := found
  refine ⟨gains, above, reached, rfl, fun goal => ?_⟩
  obtain ⟨file, stays⟩ := (gains.hasFile (above ++ [name])).2 (.inr List.mem_cons_self)
  simp only [Bool.or_eq_true, decide_eq_true_eq, not_or, Bool.not_eq_true] at moving
  have nonempty : (Path.join directory name).isEmpty = false := by
    refine List.isEmpty_eq_false_iff.2 fun nothing => ?_
    have whole := @Path.components_join_name directory name plain
    rw [nothing] at whole
    have last := congrArg List.getLast? whole
    rw [List.getLast?_concat] at last
    cases last
    cases moving.1
  rw [locate, nonempty, if_neg Bool.false_ne_true, checked, Path.components_join_name plain,
    Location.ofStart_join plain]
  exact walk_append.2 ⟨above, gains.walk reached, walk_cons_down (gains.hasDirectory above goal)
    moving.1 moving.2 (Nat.le_of_not_lt short) stays rfl⟩

/-- What is found at a path is the file at the location that it leads to. -/
theorem find_of_locate {path : Text} (located : tree.locate path = .ok location)
    (there : tree.HasFile location) :
    ∃ stored, tree.find path = .ok (.file stored) ∧ stored.content = tree.content location := by
  obtain ⟨stored, found⟩ := there
  refine ⟨stored, ?_, ?_⟩
  · simp only [find, located, bind, Except.bind, found]
  · simp only [content, found]

end FileTree

end FileServer
