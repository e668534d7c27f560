import FileServer.Proofs.Idle.Links
import Mathlib.Data.List.Perm.Subperm

/-!
# The list of timers is sorted

The cells that are in use are the cells of one list, linked in the order of their
deadlines; all other cells are free, and each of them once.  Every operation on a
list that is in this state goes through, leaves a list in this state, and changes
the order as a list of deadlines would be changed: a timer is inserted behind all
that expire no later, and nothing else moves.
-/

namespace FileServer.Timers

variable {α : Type} {timers next : Timers α}

/-- The deadline of the timer in a cell. -/
def expiry (timers : Timers α) (index : Nat) : Nat :=
  ((timers.held? index).map Prod.fst).getD 0

theorem expiry_of_timer? {index : Nat} {timer : Timer α}
    (present : timers.timer? index = some timer) : timers.expiry index = timer.expire := by
  simp [expiry, held?, present]

theorem expiry_of_held? {index expire : Nat} {data : α}
    (entry : timers.held? index = some (expire, data)) : timers.expiry index = expire := by
  rw [expiry, entry]
  rfl

theorem expiry_congr {index : Nat} (same : next.held? index = timers.held? index) :
    next.expiry index = timers.expiry index := by
  rw [expiry, same, ← expiry]

/-- The deadlines do not fall along a list of cells. -/
def Sorted (timers : Timers α) (order : List Nat) : Prop :=
  order.Pairwise fun early late => timers.expiry early ≤ timers.expiry late

theorem Sorted.congr {order : List Nat} (sorted : timers.Sorted order)
    (same : ∀ index ∈ order, next.held? index = timers.held? index) : next.Sorted order := by
  refine List.Pairwise.imp_of_mem ?_ sorted
  intro early late first second before
  rwa [expiry_congr (same early first), expiry_congr (same late second)]

/-- A timer is inserted where its deadline belongs. -/
theorem Sorted.insert {front behind : List Nat} {index : Nat}
    (sorted : timers.Sorted (front ++ behind))
    (early : ∀ other ∈ front, timers.expiry other ≤ timers.expiry index)
    (late : ∀ other ∈ behind.head?, timers.expiry index ≤ timers.expiry other) :
    timers.Sorted (front ++ index :: behind) := by
  obtain ⟨first, last, across⟩ := List.pairwise_append.1 sorted
  have later : ∀ other ∈ behind, timers.expiry index ≤ timers.expiry other := by
    cases behind with
    | nil => intro other member; cases member
    | cons head rest =>
        intro other member
        have start := late head rfl
        rcases List.mem_cons.1 member with rfl | further
        · exact start
        · exact Nat.le_trans start ((List.pairwise_cons.1 last).1 other further)
  refine List.pairwise_append.2 ⟨first, List.pairwise_cons.2 ⟨later, last⟩, ?_⟩
  intro other member following beside
  rcases List.mem_cons.1 beside with rfl | further
  · exact early other member
  · exact across other member following further

theorem Sorted.remove {front behind : List Nat} {index : Nat}
    (sorted : timers.Sorted (front ++ index :: behind)) : timers.Sorted (front ++ behind) :=
  sorted.sublist (List.Sublist.append_left (List.sublist_cons_self index behind) front)

/-- A deadline that comes before that of the first timer comes before all. -/
theorem Sorted.beyond {order : List Nat} (sorted : timers.Sorted order) {bound : Nat}
    (first : ∀ index ∈ order.head?, bound < timers.expiry index) :
    ∀ index ∈ order, bound < timers.expiry index := by
  cases order with
  | nil => nofun
  | cons head rest =>
      intro index member
      have start := first head rfl
      rcases List.mem_cons.1 member with rfl | further
      · exact start
      · exact Nat.lt_of_lt_of_le start ((List.pairwise_cons.1 sorted).1 index further)

/-! ## Cells in use -/

/-- The cells in use are the given ones, and the others are free. -/
structure Stocked (timers : Timers α) (used : List Nat) : Prop where
  occupied : ∀ index, (timers.held? index).isSome ↔ index ∈ used
  nodup : timers.free.Nodup
  vacant : ∀ index, index ∈ timers.free ↔ index < timers.cells.size ∧ index ∉ used
  size : timers.size = used.length

theorem Stocked.relinked {used : List Nat} (stocked : timers.Stocked used)
    (relinked : Relinked timers next) : next.Stocked used where
  occupied index := by rw [relinked.entry, stocked.occupied]
  nodup := by rw [relinked.free]; exact stocked.nodup
  vacant index := by rw [relinked.free, relinked.cells, stocked.vacant]
  size := relinked.size.trans stocked.size

theorem Stocked.perm {used other : List Nat} (stocked : timers.Stocked used)
    (same : used.Perm other) : timers.Stocked other where
  occupied index := by rw [stocked.occupied, same.mem_iff]
  nodup := stocked.nodup
  vacant index := by rw [stocked.vacant, same.mem_iff]
  size := stocked.size.trans same.length_eq

theorem Stocked.timer? {used : List Nat} (stocked : timers.Stocked used) {index : Nat}
    (member : index ∈ used) : ∃ timer, timers.timer? index = some timer := by
  have present := (stocked.occupied index).2 member
  simp only [held?, Option.isSome_map] at present
  exact Option.isSome_iff_exists.1 present

theorem Stocked.length_le {used : List Nat} (stocked : timers.Stocked used) (nodup : used.Nodup) :
    used.length ≤ timers.cells.size := by
  have inside : used ⊆ List.range timers.cells.size := by
    intro index member
    obtain ⟨timer, present⟩ := stocked.timer? member
    exact List.mem_range.2 (index_lt present)
  have short := (nodup.subperm inside).length_le
  rwa [List.length_range] at short

/-- A timer was put into an empty cell, or an empty cell was made of one. -/
structure Refilled (before : Timers α) (index : Nat) (timer : Option (Timer α))
    (after : Timers α) : Prop where
  own : after.timer? index = timer
  others : ∀ other, other ≠ index → after.timer? other = before.timer? other
  head : after.head = before.head
  tail : after.tail = before.tail

theorem Refilled.held? {index : Nat} {timer : Option (Timer α)}
    (refilled : Refilled timers index timer next) {other : Nat} (differ : other ≠ index) :
    next.held? other = timers.held? other := by
  rw [Timers.held?, refilled.others other differ, ← Timers.held?]

/-- A list without the cell stays linked. -/
theorem Refilled.linked {index : Nat} {timer : Option (Timer α)} {order : List Nat}
    (refilled : Refilled timers index timer next) (linked : timers.Linked order)
    (absent : index ∉ order) : next.Linked order := by
  have same (other : Nat) (member : other ∈ order) : next.timer? other = timers.timer? other := by
    apply refilled.others
    intro equal
    exact absent (equal ▸ member)
  exact ⟨linked.nodup, linked.front.congr refilled.head same, linked.rear.congr refilled.tail same⟩

/-- Without free cells there are no more cells than timers. -/
theorem Stocked.size_le {used : List Nat} (stocked : timers.Stocked used)
    (full : timers.free = []) : timers.cells.size ≤ timers.size := by
  have inside : List.range timers.cells.size ⊆ used := by
    intro index member
    have vacant := (stocked.vacant index).not
    rw [full] at vacant
    by_contra absent
    exact vacant.1 List.not_mem_nil ⟨List.mem_range.1 member, absent⟩
  have long := (List.nodup_range.subperm inside).length_le
  rwa [List.length_range, ← stocked.size] at long

/-- A timer is placed in a cell that was not in use; a new cell is made only when all
cells are in use. -/
theorem Stocked.place {used : List Nat} (stocked : timers.Stocked used) (timer : Timer α) :
    ∃ index placed, timers.place timer = (index, placed) ∧ index ∉ used ∧
      Refilled timers index (some timer) placed ∧ placed.Stocked (index :: used) ∧
      placed.cells.size ≤ max timers.cells.size placed.size ∧
      ∀ other, placed.generation other = timers.generation other := by
  have entries {index : Nat} {placed : Timers α}
      (refilled : Refilled timers index (some timer) placed) (absent : index ∉ used) (other : Nat) :
      (placed.held? other).isSome ↔ other ∈ index :: used := by
    by_cases mine : other = index
    · subst mine
      simp [Timers.held?, refilled.own]
    · rw [refilled.held? mine, stocked.occupied]
      simp [mine]
  cases free : timers.free with
  | nil =>
      have absent : timers.cells.size ∉ used := by
        intro member
        obtain ⟨timer, present⟩ := stocked.timer? member
        exact Nat.lt_irrefl _ (index_lt present)
      obtain ⟨placed, made⟩ : ∃ placed, { timers with
          cells := timers.cells.push ⟨0, some timer⟩, size := timers.size + 1 } = placed :=
        ⟨_, rfl⟩
      have refilled : Refilled timers timers.cells.size (some timer) placed := by
        subst made
        refine ⟨by simp [Timers.timer?], fun other differ => ?_, rfl, rfl⟩
        simp [Timers.timer?, Array.getElem?_push, differ]
      refine ⟨timers.cells.size, placed, ?_, absent, refilled, ?_, ?_, ?_⟩
      · simp [Timers.place, free, ← made]
      · refine ⟨entries refilled absent, ?_, fun other => ?_, ?_⟩
        · simp [← made, free]
        · have outside := (stocked.vacant other).not
          simp only [free, List.not_mem_nil, not_false_eq_true, true_iff, not_and, not_not]
            at outside
          simp only [← made, free, List.not_mem_nil, Array.size_push, List.mem_cons, not_or,
            false_iff, not_and, not_not]
          intro inside differ
          exact outside (by omega)
        · simp [← made, stocked.size]
      · have enough := stocked.size_le free
        simp only [← made, Array.size_push]
        omega
      · intro other
        subst made
        by_cases mine : other = timers.cells.size
        · subst mine
          simp [generation]
        · simp [generation, Array.getElem?_push, mine]
  | cons index rest =>
      obtain ⟨inside, absent⟩ : index < timers.cells.size ∧ index ∉ used := by
        apply (stocked.vacant index).1
        rw [free]
        exact List.mem_cons_self
      have nodup := stocked.nodup
      rw [free, List.nodup_cons] at nodup
      obtain ⟨placed, made⟩ : ∃ placed, { timers with
          cells := timers.cells.modify index fun cell => { cell with timer := some timer }
          free := rest, size := timers.size + 1 } = placed := ⟨_, rfl⟩
      have refilled : Refilled timers index (some timer) placed := by
        subst made
        refine ⟨?_, fun other differ => ?_, rfl, rfl⟩
        · simp [Timers.timer?, inside, Array.getElem_modify]
        · simp [Timers.timer?, Array.getElem?_modify, Ne.symm differ]
      refine ⟨index, placed, ?_, absent, refilled, ?_, ?_, ?_⟩
      · simp [Timers.place, free, ← made]
      · refine ⟨entries refilled absent, ?_, fun other => ?_, ?_⟩
        · simp [← made, nodup.2]
        · have before := stocked.vacant other
          rw [free, List.mem_cons] at before
          simp only [← made, Array.size_modify, List.mem_cons, not_or]
          by_cases mine : other = index
          · subst mine
            simp [nodup.1]
          · simpa [mine] using before
        · simp [← made, stocked.size]
      · rw [← made, Array.size_modify]
        exact Nat.le_max_left _ _
      · intro other
        simp only [← made, generation, Array.getElem?_modify]
        split
        · cases timers.cells[other]? <;> rfl
        · rfl

/-- The cell of a timer in use can be emptied. -/
theorem Stocked.release {used : List Nat} {index : Nat} {timer : Timer α}
    (stocked : timers.Stocked (index :: used)) (absent : index ∉ used)
    (present : timers.timer? index = some timer) :
    ∃ released, timers.release? index = some (timer, released) ∧
      Refilled timers index none released ∧ released.Stocked used ∧
      released.cells.size = timers.cells.size ∧
      (∀ other, other ≠ index → released.generation other = timers.generation other) ∧
      released.generation index = (timers.generation index + 1) % generationBound := by
  have found := timer?_eq_some present
  have inside := index_lt present
  have refilled : Refilled timers index none { timers with
      cells := timers.cells.setIfInBounds index
        ⟨(timers.generation index + 1) % generationBound, none⟩
      free := index :: timers.free, size := timers.size - 1 } := by
    refine ⟨?_, fun other differ => ?_, rfl, rfl⟩
    · simp [Timers.timer?, inside]
    · simp [Timers.timer?, Ne.symm differ]
  refine ⟨_, by simp only [release?, found], refilled, ?_, Array.size_setIfInBounds, ?_, ?_⟩
  · refine ⟨fun other => ?_, ?_, fun other => ?_, ?_⟩
    · by_cases mine : other = index
      · subst mine
        simp [Timers.held?, refilled.own, absent]
      · rw [refilled.held? mine, stocked.occupied]
        simp [mine]
    · refine List.nodup_cons.2 ⟨fun member => ?_, stocked.nodup⟩
      exact ((stocked.vacant index).1 member).2 List.mem_cons_self
    · have before := stocked.vacant other
      simp only [List.mem_cons, not_or] at before
      simp only [Array.size_setIfInBounds, List.mem_cons, before]
      by_cases mine : other = index
      · subst mine
        simp [inside, absent]
      · simp [mine]
    · simp [stocked.size]
  · intro other differ
    simp [generation, Ne.symm differ]
  · simp [generation, inside]

end FileServer.Timers
