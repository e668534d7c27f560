import FileServer.Proofs.Interleaving.Confinement
import Mathlib.Data.List.Nodup

/-!
# Descriptors in use

Values by descriptor are kept in ascending order, and the table of slots has a
value only for descriptors that it has a place for.  So the list of the slots of
some kind names each descriptor once, and when one slot changes, the length of the
list changes by what this slot counts.
-/

namespace FileServer

namespace FdMap

variable {α : Type} {map : FdMap α} {fd other : Fd} {value : α}

/-- The descriptors ascend. -/
def Ordered (map : FdMap α) : Prop :=
  map.keys.Pairwise (· < ·)

theorem ordered_empty : (empty : FdMap α).Ordered :=
  .nil

theorem mem_keys_insert : other ∈ (map.insert fd value).keys ↔ other = fd ∨ other ∈ map.keys := by
  obtain ⟨entries⟩ := map
  simp only [keys, insert]
  induction entries with
  | nil => simp [insertEntry]
  | cons entry rest ih =>
      obtain ⟨key, held⟩ := entry
      simp only [insertEntry]
      split
      · simp
      · split
        · next same => simp [same]
        · simp only [List.map_cons, List.mem_cons, ih]
          exact or_left_comm

theorem Ordered.insert (ordered : map.Ordered) (fd : Fd) (value : α) :
    (map.insert fd value).Ordered := by
  obtain ⟨entries⟩ := map
  simp only [Ordered, keys, FdMap.insert] at ordered ⊢
  induction entries with
  | nil => simp [insertEntry]
  | cons entry rest ih =>
      obtain ⟨key, held⟩ := entry
      obtain ⟨least, later⟩ := List.pairwise_cons.1 ordered
      simp only [insertEntry]
      split
      · next before =>
          refine List.pairwise_cons.2 ⟨?_, ordered⟩
          intro later member
          rcases List.mem_cons.1 member with rfl | behind
          · exact before
          · exact Int.lt_trans before (least later behind)
      · next after =>
          split
          · next same => exact same ▸ ordered
          · next differ =>
              refine List.pairwise_cons.2 ⟨?_, ih later⟩
              intro number member
              rcases mem_keys_insert.1 (show number ∈ (FdMap.insert ⟨rest⟩ fd value).keys from member)
                with rfl | behind
              · exact Int.lt_iff_le_and_ne.2 ⟨Int.not_lt.1 after, Ne.symm differ⟩
              · exact least number behind

/-- In ascending order each entry is found. -/
theorem Ordered.find?_eq_some_iff (ordered : map.Ordered) :
    map.find? fd = some value ↔ (fd, value) ∈ map.entries := by
  obtain ⟨entries⟩ := map
  simp only [Ordered, keys, find?] at ordered ⊢
  induction entries with
  | nil => simp
  | cons entry rest ih =>
      obtain ⟨key, held⟩ := entry
      obtain ⟨least, later⟩ := List.pairwise_cons.1 ordered
      by_cases same : fd = key
      · subst same
        have absent : (fd, value) ∉ rest := fun member =>
          Int.lt_irrefl fd (least fd (List.mem_map_of_mem member))
        simp [absent, eq_comm]
      · have apart : (fd == key) = false := by simpa using same
        rw [List.lookup_cons, apart, ih later]
        simp [same]

end FdMap

namespace Slots

variable {table : Slots} {fd : Fd}

/-- The slots ascend, and each has a place. -/
structure Regular (table : Slots) : Prop where
  ordered : table.slots.Ordered
  inside : ∀ fd ∈ table.slots.keys, table.fits fd = true

theorem regular_ofLimit (limit : Nat) : (ofLimit limit).Regular :=
  ⟨FdMap.ordered_empty, nofun⟩

theorem Regular.set (regular : table.Regular) (inside : table.fits fd = true) (slot : Slot) :
    (table.set fd slot).Regular where
  ordered := regular.ordered.insert fd slot
  inside other member := by
    rcases FdMap.mem_keys_insert.1 member with rfl | before
    · exact inside
    · exact regular.inside other before

theorem Regular.release (regular : table.Regular) (fd : Fd) : (table.release fd).Regular := by
  simp only [Slots.release]
  split
  · next slot found => exact regular.set (fits_of_slot? found) slot.release
  · exact regular

/-- The descriptors whose slot is of some kind, in ascending order. -/
def fdsWhere (table : Slots) (kind : Fd → Slot → Bool) : List Fd :=
  (table.slots.entries.filter fun entry => kind entry.1 entry.2).map Prod.fst

theorem Regular.mem_fdsWhere (regular : table.Regular) {kind : Fd → Slot → Bool} :
    fd ∈ table.fdsWhere kind ↔ ∃ slot, table.slot? fd = some slot ∧ kind fd slot = true := by
  simp only [fdsWhere, List.mem_map, List.mem_filter, Prod.exists, exists_and_right, exists_eq_right]
  constructor
  · rintro ⟨slot, member, same⟩
    refine ⟨slot, ?_, same⟩
    rw [slot?, if_pos (regular.inside fd (List.mem_map_of_mem member))]
    exact regular.ordered.find?_eq_some_iff.2 member
  · rintro ⟨slot, found, same⟩
    refine ⟨slot, ?_, same⟩
    rw [slot?, if_pos (fits_of_slot? found)] at found
    exact regular.ordered.find?_eq_some_iff.1 found

theorem Regular.nodup_fdsWhere (regular : table.Regular) (kind : Fd → Slot → Bool) :
    (table.fdsWhere kind).Nodup := by
  have sorted : (table.fdsWhere kind).Pairwise (· < ·) :=
    regular.ordered.sublist (List.filter_sublist.map Prod.fst)
  exact sorted.imp Int.ne_of_lt

/-- There are no more slots of a narrower kind. -/
theorem length_fdsWhere_le (table : Slots) {narrow wide : Fd → Slot → Bool}
    (included : ∀ fd slot, narrow fd slot = true → wide fd slot = true) :
    (table.fdsWhere narrow).length ≤ (table.fdsWhere wide).length := by
  simp only [fdsWhere, List.length_map]
  apply List.Sublist.length_le
  apply List.monotone_filter_right
  intro entry
  exact included entry.1 entry.2

theorem openFds_eq (table : Slots) :
    table.openFds = table.fdsWhere fun _ slot => slot.custody != .free := rfl

theorem Regular.nodup_openFds (regular : table.Regular) : table.openFds.Nodup :=
  regular.nodup_fdsWhere fun _ slot => slot.custody != .free

end Slots

/-- Two lists without repetition that differ in one element differ in length by this
element. -/
theorem length_add_ite {α : Type} [DecidableEq α] {before after : List α} {element : α}
    (nodup : before.Nodup) (nodup' : after.Nodup)
    (same : ∀ other, other ≠ element → (other ∈ after ↔ other ∈ before)) :
    after.length + (if element ∈ before then 1 else 0) =
      before.length + (if element ∈ after then 1 else 0) := by
  have length {list : List α} (nodup : list.Nodup) :
      list.length = (list.erase element).length + if element ∈ list then 1 else 0 := by
    split
    · next member =>
        rw [List.length_erase_of_mem member, Nat.sub_add_cancel (List.length_pos_of_mem member)]
    · next absent => rw [List.erase_of_not_mem absent, Nat.add_zero]
  have others : (after.erase element).Perm (before.erase element) := by
    rw [List.perm_ext_iff_of_nodup (nodup'.erase element) (nodup.erase element)]
    intro other
    by_cases mine : other = element
    · simp [mine, nodup.mem_erase_iff, nodup'.mem_erase_iff]
    · simp [mine, nodup.mem_erase_iff, nodup'.mem_erase_iff, same other mine]
  rw [length nodup, length nodup', others.length_eq]
  omega

end FileServer
