import FileServer.Proofs.Idle.Operations

/-!
# What a list of timers holds

To those who hold identifiers a list of timers is a table: it has the deadline and the
data of a timer under its identifier until the timer is deleted or fires.  Adding fills
one place of this table, deleting empties one, a new deadline changes one, and firing
empties those of the timers that are due.  Who asks for the data alone does not see that
deadlines move.
-/

namespace FileServer.Timers

variable {α : Type} {timers : Timers α}

/-- The timers are in some order. -/
def Sound (timers : Timers α) : Prop :=
  ∃ order, timers.Keeps order

theorem sound_empty : (empty : Timers α).Sound :=
  ⟨[], keeps_empty⟩

/-- The deadline and the data of a timer that is still waiting. -/
def pending? (timers : Timers α) (id : TimerId) : Option (Nat × α) :=
  if timers.contains id then timers.held? id.index else none

/-! ## Cells and identifiers -/

/-- A timer is found under the identifier of its cell and under no other one. -/
theorem pending?_eq (timers : Timers α) (id : TimerId) :
    timers.pending? id =
      if timers.generation id.index = id.generation then timers.held? id.index else none := by
  rw [pending?]
  by_cases present : timers.contains id = true
  · rw [if_pos present, if_pos (contains_iff.1 present).1]
  · rw [if_neg present]
    split
    · next current =>
        symm
        rw [← Option.not_isSome_iff_eq_none]
        exact fun held => present (contains_iff.2 ⟨current, held⟩)
    · rfl

theorem get?_eq (timers : Timers α) (id : TimerId) :
    timers.get? id = (timers.pending? id).map Prod.snd := by
  rw [get?, pending?]
  split
  · rw [held?, Option.map_map]
    rfl
  · rfl

theorem pending?_idAt (timers : Timers α) (index : Nat) :
    timers.pending? (timers.idAt index) = timers.held? index := by
  rw [pending?_eq]
  exact if_pos rfl

theorem get?_idAt (timers : Timers α) (index : Nat) :
    timers.get? (timers.idAt index) = (timers.held? index).map Prod.snd := by
  rw [get?_eq, pending?_idAt]

/-- What is found under an identifier is in its cell, and the identifier is the one of
the cell. -/
theorem held?_of_pending? {id : TimerId} {entry : Nat × α}
    (present : timers.pending? id = some entry) :
    timers.held? id.index = some entry ∧ timers.idAt id.index = id := by
  rw [pending?_eq] at present
  split at present
  · next same => exact ⟨present, by rw [idAt, same]⟩
  · cases present

/-- A timer is found, with some deadline, where its data are. -/
theorem exists_pending?_of_get? {id : TimerId} {data : α} (present : timers.get? id = some data) :
    ∃ deadline, timers.pending? id = some (deadline, data) := by
  rw [get?_eq] at present
  obtain ⟨⟨deadline, own⟩, found, rfl⟩ := Option.map_eq_some_iff.1 present
  exact ⟨deadline, found⟩

theorem get?_of_pending? {id : TimerId} {deadline : Nat} {data : α}
    (present : timers.pending? id = some (deadline, data)) : timers.get? id = some data := by
  rw [get?_eq, present]
  rfl

theorem idAt_of_get? {id : TimerId} {data : α} (present : timers.get? id = some data) :
    timers.idAt id.index = id := by
  obtain ⟨deadline, found⟩ := exists_pending?_of_get? present
  exact (held?_of_pending? found).2

/-- Two lists that agree on a cell agree on the identifiers of this cell. -/
theorem pending?_congr {next : Timers α} {id : TimerId}
    (entry : next.held? id.index = timers.held? id.index)
    (generation : next.generation id.index = timers.generation id.index) :
    next.pending? id = timers.pending? id := by
  rw [pending?_eq, pending?_eq, entry, generation]

/-- Nothing is found in an empty cell. -/
theorem pending?_of_vacant {id : TimerId} (vacant : timers.held? id.index = none) :
    timers.pending? id = none := by
  rw [pending?_eq, vacant]
  split <;> rfl

/-- An identifier that is not the present one of its cell means an earlier timer. -/
theorem pending?_of_ne {id other : TimerId} (current : timers.idAt id.index = id)
    (same : other.index = id.index) (differ : other ≠ id) : timers.pending? other = none := by
  rw [pending?_eq, if_neg]
  intro equal
  apply differ
  rw [← current, ← same, idAt, equal]

/-- A cell that is not in the list is empty. -/
theorem Keeps.vacant {order : List Nat} (keeps : timers.Keeps order) {index : Nat}
    (absent : index ∉ order) : timers.held? index = none := by
  rw [← Option.not_isSome_iff_eq_none]
  exact fun present => absent ((keeps.stocked.occupied index).1 present)

/-! ## Operations -/

/-- An added timer is found under its identifier, which was the name of no timer. -/
theorem Sound.pending?_add (sound : timers.Sound) (expire : Nat) (data : α) {id : TimerId}
    {next : Timers α} (added : timers.add expire data = (id, next)) :
    next.Sound ∧ timers.pending? id = none ∧ next.pending? id = some (expire, data) ∧
      ∀ other, other ≠ id → next.pending? other = timers.pending? other := by
  obtain ⟨order, keeps⟩ := sound
  obtain ⟨early, late, index, result, -, absent, same, kept, own, others, generations, -⟩ :=
    keeps.add expire data
  rw [Timers.add, same] at added
  cases added
  have vacant := keeps.vacant absent
  have named : next.idAt index = timers.idAt index := by rw [idAt, idAt, generations]
  refine ⟨⟨_, kept⟩, pending?_of_vacant vacant, ?_, ?_⟩
  · rw [← named, pending?_idAt, own]
  · intro other differ
    by_cases mine : other.index = index
    · rw [pending?_of_ne named mine differ, pending?_of_vacant (mine ▸ vacant)]
    · exact pending?_congr (others _ mine) (generations _)

theorem Sound.add (sound : timers.Sound) (expire : Nat) (data : α) {id : TimerId}
    {next : Timers α} (added : timers.add expire data = (id, next)) :
    next.Sound ∧ timers.get? id = none ∧ next.get? id = some data ∧
      ∀ other, other ≠ id → next.get? other = timers.get? other := by
  obtain ⟨kept, fresh, own, others⟩ := sound.pending?_add expire data added
  refine ⟨kept, by rw [get?_eq, fresh]; rfl, get?_of_pending? own, fun other differ => ?_⟩
  rw [get?_eq, get?_eq, others other differ]

/-- A timer that is waiting gets its new deadline. -/
theorem Sound.pending?_adjust (sound : timers.Sound) (id : TimerId) (expire : Nat) :
    (timers.adjust id expire).Sound ∧
      (timers.adjust id expire).pending? id =
        (timers.pending? id).map (fun entry => (expire, entry.2)) ∧
      ∀ other, other ≠ id → (timers.adjust id expire).pending? other = timers.pending? other := by
  cases present : timers.contains id with
  | false =>
      have same : timers.adjust id expire = timers := by simp [Timers.adjust, adjust?, present]
      rw [same]
      exact ⟨sound, by simp [pending?, present], fun _ _ => rfl⟩
  | true =>
      obtain ⟨order, keeps⟩ := sound
      obtain ⟨front, behind, before, after, old, data, next, -, -, entry, adjusted, kept, own,
        others, generations, -⟩ := keeps.adjust present expire
      have same : timers.adjust id expire = next := by rw [Timers.adjust, adjusted]
      have current : timers.generation id.index = id.generation := (contains_iff.1 present).1
      have named : timers.idAt id.index = id := by rw [idAt, current]
      have kind : next.idAt id.index = id := by rw [idAt, generations, current]
      rw [same]
      refine ⟨⟨_, kept⟩, ?_, fun other differ => ?_⟩
      · rw [pending?_eq, pending?_eq, generations, if_pos current, if_pos current, own, entry]
        rfl
      · by_cases mine : other.index = id.index
        · rw [pending?_of_ne kind mine differ, pending?_of_ne named mine differ]
        · exact pending?_congr (others _ mine) (generations _)

/-- A new deadline changes nothing about what is found. -/
theorem Sound.adjust (sound : timers.Sound) (id : TimerId) (expire : Nat) :
    (timers.adjust id expire).Sound ∧
      ∀ other, (timers.adjust id expire).get? other = timers.get? other := by
  obtain ⟨kept, own, others⟩ := sound.pending?_adjust id expire
  refine ⟨kept, fun other => ?_⟩
  rw [get?_eq, get?_eq]
  by_cases mine : other = id
  · rw [mine, own, Option.map_map]
    rfl
  · rw [others other mine]

/-- A deleted timer is not found any more. -/
theorem Sound.pending?_delete (sound : timers.Sound) (id : TimerId) :
    (timers.delete id).Sound ∧ (timers.delete id).pending? id = none ∧
      ∀ other, other ≠ id → (timers.delete id).pending? other = timers.pending? other := by
  cases present : timers.contains id with
  | false =>
      have same : timers.delete id = timers := by simp [Timers.delete, delete?, present]
      rw [same]
      exact ⟨sound, by simp [pending?, present], fun _ _ => rfl⟩
  | true =>
      obtain ⟨order, keeps⟩ := sound
      obtain ⟨front, behind, expire, data, next, rfl, entry, deleted, kept, others, generations,
        -⟩ := keeps.delete present
      have same : timers.delete id = next := by rw [Timers.delete, deleted]
      have named : timers.idAt id.index = id := by rw [idAt, (contains_iff.1 present).1]
      have vacant : next.held? id.index = none :=
        kept.vacant (List.nodup_cons.1 (List.nodup_middle.1 keeps.linked.nodup)).1
      rw [same]
      refine ⟨⟨_, kept⟩, pending?_of_vacant vacant, fun other differ => ?_⟩
      by_cases mine : other.index = id.index
      · rw [pending?_of_vacant (mine ▸ vacant), pending?_of_ne named mine differ]
      · exact pending?_congr (others _ mine) (generations _ mine)

theorem Sound.delete (sound : timers.Sound) (id : TimerId) :
    (timers.delete id).Sound ∧ (timers.delete id).get? id = none ∧
      ∀ other, other ≠ id → (timers.delete id).get? other = timers.get? other := by
  obtain ⟨kept, deleted, others⟩ := sound.pending?_delete id
  refine ⟨kept, by rw [get?_eq, deleted]; rfl, fun other differ => ?_⟩
  rw [get?_eq, get?_eq, others other differ]

/-- The timers that are due fire, each once, and those that are not are left. -/
theorem Sound.pending?_tick (sound : timers.Sound) (now : Nat) :
    (timers.tick now).2.Sound ∧ ((timers.tick now).1.map Prod.fst).Nodup ∧
      (∀ id data, (id, data) ∈ (timers.tick now).1 ↔
        ∃ expire, timers.pending? id = some (expire, data) ∧ expire ≤ now) ∧
      ∀ id expire data, (timers.tick now).2.pending? id = some (expire, data) ↔
        timers.pending? id = some (expire, data) ∧ now < expire := by
  obtain ⟨order, keeps⟩ := sound
  obtain ⟨due, left, next, rfl, fired, kept, past, ahead, others, generations, -⟩ :=
    keeps.fire now (keeps.stocked.length_le keeps.linked.nodup) 0
  have same : timers.tick now = (due.filterMap timers.named?, next) := by
    rw [Timers.tick, tick?, fireAll?, fired]
    rfl
  obtain ⟨nodupDue, -, apart⟩ := List.nodup_append.1 keeps.linked.nodup
  have later : ∀ index ∈ left, now < timers.expiry index := by
    have remains : ∀ index ∈ left, next.held? index = timers.held? index := fun index inside =>
      others index fun gone => apart index gone index inside rfl
    refine Sorted.beyond ?_ ahead
    exact kept.sorted.congr fun index inside => (remains index inside).symm
  rw [same]
  refine ⟨⟨_, kept⟩, ?_, fun id data => ⟨?_, ?_⟩, fun id expire data => ⟨?_, ?_⟩⟩
  · rw [List.map_filterMap]
    refine List.Nodup.filterMap ?_ nodupDue
    intro first second id own other
    have index {place : Nat} (name : id ∈ (timers.named? place).map Prod.fst) :
        id.index = place := by
      obtain ⟨entry, made, rfl⟩ := Option.map_eq_some_iff.1 name
      obtain ⟨held, -, rfl⟩ := Option.map_eq_some_iff.1 made
      rfl
    rw [← index own, ← index other]
  · intro member
    obtain ⟨index, inside, made⟩ := List.mem_filterMap.1 member
    obtain ⟨⟨expire, own⟩, held, equal⟩ := Option.map_eq_some_iff.1 made
    cases equal
    refine ⟨expire, by rw [pending?_idAt, held], ?_⟩
    rw [← expiry_of_held? held]
    exact past index inside
  · rintro ⟨expire, present, overdue⟩
    obtain ⟨held, named⟩ := held?_of_pending? present
    have inside : id.index ∈ due := by
      have waiting := (keeps.stocked.occupied id.index).1 (Option.isSome_iff_exists.2 ⟨_, held⟩)
      refine (List.mem_append.1 waiting).resolve_right fun ahead => ?_
      have unripe := later id.index ahead
      rw [expiry_of_held? held] at unripe
      omega
    refine List.mem_filterMap.2 ⟨id.index, inside, ?_⟩
    rw [named?, held, Option.map_some, named]
  · intro present
    obtain ⟨held, -⟩ := held?_of_pending? present
    have inside := (kept.stocked.occupied id.index).1 (Option.isSome_iff_exists.2 ⟨_, held⟩)
    have outside : id.index ∉ due := fun gone => apart id.index gone id.index inside rfl
    rw [pending?_congr (others _ outside) (generations _ outside)] at present
    refine ⟨present, ?_⟩
    rw [← expiry_of_held? (held?_of_pending? present).1]
    exact later id.index inside
  · rintro ⟨present, unripe⟩
    have outside : id.index ∉ due := by
      intro inside
      have overdue := past id.index inside
      rw [expiry_of_held? (held?_of_pending? present).1] at overdue
      omega
    rw [pending?_congr (others _ outside) (generations _ outside), present]

/-- The timers that fire are found before and not afterwards; each fires once. -/
theorem Sound.tick (sound : timers.Sound) (now : Nat) :
    (timers.tick now).2.Sound ∧ ((timers.tick now).1.map Prod.fst).Nodup ∧
      (∀ fired ∈ (timers.tick now).1, timers.get? fired.1 = some fired.2) ∧
      (∀ fired ∈ (timers.tick now).1, (timers.tick now).2.get? fired.1 = none) ∧
      ∀ id ∉ (timers.tick now).1.map Prod.fst, (timers.tick now).2.get? id = timers.get? id := by
  obtain ⟨kept, nodup, fires, remains⟩ := sound.pending?_tick now
  refine ⟨kept, nodup, ?_, ?_, ?_⟩
  · intro fired member
    obtain ⟨expire, present, -⟩ := (fires fired.1 fired.2).1 member
    exact get?_of_pending? present
  · intro fired member
    obtain ⟨expire, present, overdue⟩ := (fires fired.1 fired.2).1 member
    rw [get?_eq, Option.map_eq_none_iff, Option.eq_none_iff_forall_ne_some]
    rintro ⟨deadline, data⟩ found
    obtain ⟨before, unripe⟩ := (remains fired.1 deadline data).1 found
    have same := congrArg Prod.fst (Option.some.inj (present.symm.trans before))
    change expire = deadline at same
    omega
  · intro id outside
    rw [get?_eq, get?_eq]
    congr 1
    ext ⟨expire, data⟩
    refine (remains id expire data).trans ⟨And.left, fun present => ⟨present, ?_⟩⟩
    refine Nat.lt_of_not_le fun overdue => outside ?_
    exact List.mem_map.2 ⟨(id, data), (fires id data).2 ⟨expire, present, overdue⟩, rfl⟩

/-! ## Deadlines -/

/-- A timer with some data waits for a deadline. -/
def Pends (timers : Timers α) (data : α) (deadline : Nat) : Prop :=
  ∃ id, timers.pending? id = some (deadline, data)

/-- No timer waits that did not wait before, for the same deadline. -/
def Wanes (before after : Timers α) : Prop :=
  ∀ data deadline, after.Pends data deadline → before.Pends data deadline

theorem Wanes.refl (timers : Timers α) : Wanes timers timers :=
  fun _ _ => id

theorem Sound.wanes_delete (sound : timers.Sound) (id : TimerId) :
    Wanes timers (timers.delete id) := by
  rintro data deadline ⟨other, present⟩
  obtain ⟨-, deleted, others⟩ := sound.pending?_delete id
  have differ : other ≠ id := by
    rintro rfl
    cases deleted.symm.trans present
  exact ⟨other, by rw [← others other differ, present]⟩

/-- What does not fire goes on waiting, and only what is not due does not fire. -/
theorem Sound.pends_tick (sound : timers.Sound) (now : Nat) (data : α) (deadline : Nat) :
    (timers.tick now).2.Pends data deadline ↔ timers.Pends data deadline ∧ now < deadline := by
  obtain ⟨-, -, -, remains⟩ := sound.pending?_tick now
  simp only [Pends, remains, exists_and_right]

end FileServer.Timers
