/-!
# Tables by descriptor

A descriptor is the number under which the operating system knows an open
socket.  A table keeps one value per descriptor, in ascending order of
descriptors.
-/

namespace FileServer

/-- The number of an open socket.  Numbers that come from outside may be
negative. -/
abbrev Fd := Int

/-- Values by descriptor. -/
structure FdMap (α : Type) where
  entries : List (Fd × α)
  deriving DecidableEq, Repr

namespace FdMap

variable {α : Type}

/-- The table without values. -/
def empty : FdMap α := ⟨[]⟩

/-- Puts a value in front of the first greater descriptor, in the place of a
value for the same one. -/
def insertEntry (fd : Fd) (value : α) : List (Fd × α) → List (Fd × α)
  | [] => [(fd, value)]
  | (other, held) :: rest =>
      if fd < other then (fd, value) :: (other, held) :: rest
      else if fd = other then (fd, value) :: rest
      else (other, held) :: insertEntry fd value rest

/-- The value of a descriptor. -/
def find? (map : FdMap α) (fd : Fd) : Option α :=
  map.entries.lookup fd

/-- Sets the value of a descriptor. -/
def insert (map : FdMap α) (fd : Fd) (value : α) : FdMap α :=
  ⟨insertEntry fd value map.entries⟩

/-- Removes the value of a descriptor. -/
def erase (map : FdMap α) (fd : Fd) : FdMap α :=
  ⟨map.entries.filter fun (other, _) => other != fd⟩

/-- Changes the value of a descriptor, if it has one. -/
def modify (map : FdMap α) (fd : Fd) (change : α → α) : FdMap α :=
  ⟨map.entries.map fun (other, value) => (other, if other = fd then change value else value)⟩

/-- Whether a descriptor has a value. -/
def contains (map : FdMap α) (fd : Fd) : Bool :=
  (map.find? fd).isSome

/-- The descriptors that have a value. -/
def keys (map : FdMap α) : List Fd :=
  map.entries.map Prod.fst

@[simp] theorem find?_empty (fd : Fd) : (empty : FdMap α).find? fd = none := rfl

@[simp] theorem find?_insert_self (map : FdMap α) (fd : Fd) (value : α) :
    (map.insert fd value).find? fd = some value := by
  obtain ⟨entries⟩ := map
  simp only [insert, find?]
  induction entries with
  | nil => simp [insertEntry]
  | cons entry rest ih =>
      obtain ⟨other, held⟩ := entry
      simp only [insertEntry]
      split
      · simp
      · split
        · simp
        · next differ =>
            have : (fd == other) = false := by simpa using differ
            simp [List.lookup_cons, this, ih]

theorem find?_insert_of_ne {map : FdMap α} {fd other : Fd} (differ : other ≠ fd) (value : α) :
    (map.insert fd value).find? other = map.find? other := by
  obtain ⟨entries⟩ := map
  have apart : (other == fd) = false := by simpa using differ
  simp only [insert, find?]
  induction entries with
  | nil => simp [insertEntry, List.lookup_cons, apart]
  | cons entry rest ih =>
      obtain ⟨key, held⟩ := entry
      simp only [insertEntry]
      split
      · simp [List.lookup_cons, apart]
      · split
        · next equal =>
            subst equal
            simp [List.lookup_cons, apart]
        · simp [List.lookup_cons, ih]

@[simp] theorem find?_erase_self (map : FdMap α) (fd : Fd) : (map.erase fd).find? fd = none := by
  obtain ⟨entries⟩ := map
  simp only [erase, find?]
  induction entries with
  | nil => rfl
  | cons entry rest ih =>
      obtain ⟨key, held⟩ := entry
      by_cases same : key = fd
      · simpa [List.filter_cons, same] using ih
      · have apart : (fd == key) = false := by simpa using Ne.symm same
        simp [same, List.lookup_cons, apart]
        simpa using ih

theorem find?_erase_of_ne {map : FdMap α} {fd other : Fd} (differ : other ≠ fd) :
    (map.erase fd).find? other = map.find? other := by
  obtain ⟨entries⟩ := map
  simp only [erase, find?]
  induction entries with
  | nil => rfl
  | cons entry rest ih =>
      obtain ⟨key, held⟩ := entry
      by_cases same : key = fd
      · subst same
        have apart : (other == key) = false := by simpa using differ
        simpa [List.lookup_cons, apart] using ih
      · simp only [List.filter_cons, bne_iff_ne, ne_eq, same, not_false_eq_true, ↓reduceIte,
          List.lookup_cons]
        split <;> simp_all

end FdMap

end FileServer
