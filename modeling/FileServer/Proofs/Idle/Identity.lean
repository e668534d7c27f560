import FileServer.Proofs.Idle.Chronicle

/-!
# An identifier means one timer for ever

The cell of a timer is used again for later timers, so its place alone does not tell which
timer is meant.  An identifier also has the number of times that the cell had been
released, and this number never comes again, unless it runs through all of its values.  As
long as no cell is released that often, a timer is found under its identifier from the
time at which it is added up to the time at which it is removed, and nothing is found
there afterwards, whichever timer is in the cell by then.
-/

namespace FileServer.Timers

variable {α : Type} {timers next : Timers α} {order : List Nat}

namespace Moment

/-- The timer that an operation has added, and its data. -/
def added? (moment : Moment α) : Option (TimerId × α) :=
  match moment.operation, moment.answer with
  | .add _ data, .added id => some (id, data)
  | _, _ => none

/-- The timers that an operation has removed: the deleted one, those that fired, or all. -/
def removed (moment : Moment α) : List TimerId :=
  match moment.operation, moment.answer with
  | .delete id, .deleted (some _) => [id]
  | .tick _, .fired timers _ => timers.map Prod.fst
  | .clear, .cleared => moment.before.map Waiting.id
  | _, _ => []

end Moment

/-- The timers that were removed. -/
def removed (past : List (Moment α)) : List TimerId :=
  past.flatMap Moment.removed

/-- How often a cell was released. -/
def releases (past : List (Moment α)) (index : Nat) : Nat :=
  ((removed past).map TimerId.index).count index

/-- A timer was added with its data, and `later` was done since. -/
def Added (past later : List (Moment α)) (id : TimerId) (data : α) : Prop :=
  ∃ moment earlier, past = later ++ moment :: earlier ∧ moment.added? = some (id, data)

theorem removed_cons (moment : Moment α) (past : List (Moment α)) :
    removed (moment :: past) = moment.removed ++ removed past :=
  List.flatMap_cons

theorem releases_cons (moment : Moment α) (past : List (Moment α)) (index : Nat) :
    releases (moment :: past) index =
      (moment.removed.map TimerId.index).count index + releases past index := by
  rw [releases, removed_cons, List.map_append, List.count_append, ← releases]

/-! ## Cells that are released -/

/-- Some cells were released, each of them once. -/
structure Renews (before : Timers α) (cells : List Nat) (after : Timers α) : Prop where
  nodup : cells.Nodup
  inside : ∀ index ∈ cells,
    after.generation index = (before.generation index + 1) % generationBound
  outside : ∀ index ∉ cells, after.generation index = before.generation index

/-- An operation releases the cells of the timers that it removes. -/
theorem Keeps.renews (keeps : timers.Keeps order) {operation : Operation α} {answer : Answer α}
    (done : timers.perform? operation = some (answer, next)) :
    Renews timers
      ((Moment.removed ⟨timers.along order, operation, answer⟩).map TimerId.index) next := by
  have steady (same : ∀ index, next.generation index = timers.generation index) :
      Renews timers [] next := ⟨List.nodup_nil, nofun, fun index _ => same index⟩
  cases operation with
  | add expire data =>
      obtain ⟨_, _, _, _, _, _, added, _, _, _, generations, -⟩ := keeps.add expire data
      rw [perform?, added] at done
      cases done
      exact steady generations
  | adjust id expire =>
      cases present : timers.contains id with
      | false =>
          simp only [perform?, adjust?, present, Bool.false_eq_true, ↓reduceIte] at done
          cases done
          exact steady fun _ => rfl
      | true =>
          obtain ⟨_, _, _, _, _, _, _, _, _, _, adjusted, _, _, _, generations, -⟩ :=
            keeps.adjust present expire
          rw [perform?, adjusted] at done
          cases done
          exact steady generations
  | delete id =>
      cases present : timers.contains id with
      | false =>
          simp only [perform?, delete?, present, Bool.false_eq_true, ↓reduceIte] at done
          cases done
          exact steady fun _ => rfl
      | true =>
          obtain ⟨_, _, _, _, _, _, _, deleted, _, _, generations, _, renewed⟩ :=
            keeps.delete present
          rw [perform?, deleted] at done
          cases done
          refine ⟨List.nodup_singleton _, fun index member => ?_, fun index member => ?_⟩
          · rw [List.mem_singleton.1 member]
            exact renewed
          · exact generations index fun same => member (List.mem_singleton.2 same)
  | tick now =>
      have present := fun index => (keeps.stocked.occupied index).2
      obtain ⟨due, left, _, rfl, fired, -, -, -, -, generations, -, renewed⟩ :=
        keeps.fire now (keeps.stocked.length_le keeps.linked.nodup) 0
      rw [perform?, fireAll?, fired] at done
      cases done
      have names : (due.filterMap timers.named?).map Prod.fst =
          (timers.along due).map Waiting.id := by
        rw [filterMap_named?, List.map_map]
        rfl
      have cells := indices_along fun index member =>
        present index (List.mem_append_left left member)
      change Renews timers (((due.filterMap timers.named?).map Prod.fst).map TimerId.index) next
      rw [names, cells]
      exact ⟨(List.nodup_append.1 keeps.linked.nodup).1, renewed, generations⟩
  | clear =>
      obtain ⟨_, cleared, -, -, generations, renewed⟩ := keeps.clear
      rw [perform?, cleared] at done
      cases done
      have cells := indices_along fun index => (keeps.stocked.occupied index).2
      change Renews timers (((timers.along order).map Waiting.id).map TimerId.index) next
      rw [cells]
      exact ⟨keeps.linked.nodup, renewed, generations⟩

/-- The cells' counts go on with the releases, as long as none starts again. -/
theorem Renews.counted {past : List (Moment α)} {moment : Moment α}
    (renews : Renews timers (moment.removed.map TimerId.index) next)
    (counted : ∀ index, timers.generation index = releases past index)
    (seldom : ∀ index, releases (moment :: past) index < generationBound) (index : Nat) :
    next.generation index = releases (moment :: past) index := by
  have bounded := seldom index
  rw [releases_cons] at bounded ⊢
  by_cases inside : index ∈ moment.removed.map TimerId.index
  · rw [List.count_eq_one_of_mem renews.nodup inside] at bounded ⊢
    rw [renews.inside index inside, counted, Nat.add_comm, Nat.mod_eq_of_lt bounded]
  · rw [List.count_eq_zero_of_not_mem inside, renews.outside index inside, counted, Nat.zero_add]

/-! ## Timers that stay -/

/-- A timer that is not removed stays, with its name and its data. -/
theorem Acts.remains {schedule after : List (Waiting α)} {operation : Operation α}
    {answer : Answer α} (acts : Acts schedule operation answer after) {timer : Waiting α}
    (member : timer ∈ schedule)
    (kept : timer.id ∉ Moment.removed ⟨schedule, operation, answer⟩) :
    ∃ later ∈ after, later.id = timer.id ∧ later.data = timer.data := by
  cases acts with
  | add =>
      refine ⟨timer, ?_, rfl, rfl⟩
      exact List.perm_middle.mem_iff.2 (List.mem_cons_of_mem _ member)
  | adjust others =>
      rcases List.mem_cons.1 (List.perm_middle.mem_iff.1 member) with rfl | beside
      · exact ⟨_, List.mem_append_right _ List.mem_cons_self, rfl, rfl⟩
      · rw [others] at beside
        exact ⟨timer, List.perm_middle.mem_iff.2 (List.mem_cons_of_mem _ beside), rfl, rfl⟩
  | adjustGone | deleteGone => exact ⟨timer, member, rfl, rfl⟩
  | delete =>
      rcases List.mem_cons.1 (List.perm_middle.mem_iff.1 member) with rfl | beside
      · exact absurd List.mem_cons_self kept
      · exact ⟨timer, beside, rfl, rfl⟩
  | tick =>
      rcases List.mem_append.1 member with due | left
      · exact absurd (List.mem_map_of_mem (List.mem_map_of_mem due)) kept
      · exact ⟨timer, left, rfl, rfl⟩
  | clear => exact absurd (List.mem_map_of_mem member) kept

/-- A timer that is added gets a name that no other one has. -/
theorem Acts.arrives {schedule after : List (Waiting α)} {operation : Operation α}
    {answer : Answer α} (acts : Acts schedule operation answer after) {id : TimerId} {data : α}
    (added : Moment.added? ⟨schedule, operation, answer⟩ = some (id, data)) :
    id ∉ schedule.map Waiting.id ∧ ∃ timer ∈ after, timer.id = id ∧ timer.data = data := by
  cases acts with
  | add fresh =>
      cases added
      exact ⟨fresh, _, List.mem_append_right _ List.mem_cons_self, rfl, rfl⟩
  | adjust | adjustGone | delete | deleteGone | tick | clear => cases added

theorem Moment.removed_of_added? {moment : Moment α} {entry : TimerId × α}
    (added : moment.added? = some entry) : moment.removed = [] := by
  obtain ⟨before, operation, answer⟩ := moment
  cases operation with
  | add => rfl
  | adjust | delete | tick | clear => cases added

/-! ## Identifiers -/

/-- What identifiers mean after all that was done. -/
structure Named (chronicle : Chronicle α) : Prop where
  counted : ∀ index, chronicle.timers.generation index = releases chronicle.past index
  distinct : ((chronicle.past.filterMap Moment.added?).map Prod.fst).Nodup
  found : ∀ later id data, Added chronicle.past later id data → id ∉ removed later →
    chronicle.timers.get? id = some data
  passed : ∀ later id data, Added chronicle.past later id data → id ∈ removed later →
    id.generation < releases chronicle.past id.index

theorem contains_of_get? {id : TimerId} {data : α} (present : timers.get? id = some data) :
    timers.contains id = true := by
  rw [get?] at present
  split at present
  · assumption
  · cases present

/-- An identifier with an earlier count means nothing. -/
theorem Named.not_contains {chronicle : Chronicle α} (named : Named chronicle) {id : TimerId}
    (passed : id.generation < releases chronicle.past id.index) :
    chronicle.timers.contains id = false := by
  rw [Bool.eq_false_iff]
  intro present
  have current := (contains_iff.1 present).1
  rw [named.counted] at current
  omega

/-- A timer that was not removed is found after one more operation too. -/
theorem Named.found_step {chronicle : Chronicle α} (named : Named chronicle)
    (keeps : chronicle.timers.Keeps order) {operation : Operation α} {answer : Answer α}
    {after : List Nat} (kept : next.Keeps after)
    (acts : Acts (chronicle.timers.along order) operation answer (next.along after))
    {later : List (Moment α)} {id : TimerId} {data : α}
    (added : Added (⟨chronicle.timers.along order, operation, answer⟩ :: chronicle.past) later id
      data)
    (remains : id ∉ removed later) : next.get? id = some data := by
  obtain ⟨first, earlier, parts, added⟩ := added
  cases later with
  | nil =>
      obtain ⟨rfl, -⟩ := List.cons.inj parts
      exact kept.get?_eq_some_iff.2 (acts.arrives added).2
  | cons last later =>
      obtain ⟨rfl, tail⟩ := List.cons.inj parts
      rw [removed_cons, List.mem_append, not_or] at remains
      have before := named.found later id data ⟨first, earlier, tail, added⟩ remains.2
      obtain ⟨timer, member, rfl, rfl⟩ := keeps.get?_eq_some_iff.1 before
      exact kept.get?_eq_some_iff.2 (acts.remains member remains.1)

/-- A timer that has been removed after one more operation has its cell's count behind it. -/
theorem Named.passed_step {chronicle : Chronicle α} (named : Named chronicle) {moment : Moment α}
    {later : List (Moment α)} {id : TimerId} {data : α}
    (added : Added (moment :: chronicle.past) later id data) (gone : id ∈ removed later) :
    id.generation < releases (moment :: chronicle.past) id.index := by
  obtain ⟨first, earlier, parts, added⟩ := added
  cases later with
  | nil => cases gone
  | cons last later =>
      obtain ⟨rfl, tail⟩ := List.cons.inj parts
      have past : Added chronicle.past later id data := ⟨first, earlier, tail, added⟩
      rw [releases_cons]
      by_cases before : id ∈ removed later
      · exact Nat.lt_of_lt_of_le (named.passed later id data past before) (Nat.le_add_left _ _)
      · have waits := contains_of_get? (named.found later id data past before)
        have current := (contains_iff.1 waits).1
        rw [named.counted] at current
        rw [removed_cons, List.mem_append] at gone
        have now := List.count_pos_iff.2
          (List.mem_map_of_mem (f := TimerId.index) (gone.resolve_right before))
        omega

/-- Every operation leaves to each identifier its meaning. -/
theorem Named.step {chronicle : Chronicle α} (named : Named chronicle)
    (keeps : chronicle.timers.Keeps order) {operation : Operation α} {answer : Answer α}
    (done : chronicle.timers.perform? operation = some (answer, next)) {after : List Nat}
    (kept : next.Keeps after)
    (acts : Acts (chronicle.timers.along order) operation answer (next.along after))
    (seldom : ∀ index, releases (⟨chronicle.timers.along order, operation, answer⟩ ::
      chronicle.past) index < generationBound) :
    Named ⟨next, ⟨chronicle.timers.along order, operation, answer⟩ :: chronicle.past⟩ := by
  have counted := (keeps.renews done).counted named.counted seldom
  refine ⟨counted, ?_, fun later id data => named.found_step keeps kept acts,
    fun later id data => named.passed_step⟩
  cases added : Moment.added? ⟨chronicle.timers.along order, operation, answer⟩ with
  | none => rw [List.filterMap_cons_none added]; exact named.distinct
  | some entry =>
      rw [List.filterMap_cons_some added, List.map_cons, List.nodup_cons]
      refine ⟨fun again => ?_, named.distinct⟩
      obtain ⟨⟨id, data⟩, old, equal⟩ := List.mem_map.1 again
      obtain ⟨first, member, early⟩ := List.mem_filterMap.1 old
      obtain ⟨later, earlier, parts⟩ := List.append_of_mem member
      have past : Added chronicle.past later id data := ⟨first, earlier, parts, early⟩
      obtain ⟨own, present⟩ := entry
      cases (equal : id = own)
      by_cases gone : id ∈ removed later
      · -- The name is found now, with the count that it had been passed by before.
        have passed := named.passed later id data past gone
        have now : Added (_ :: chronicle.past) [] id present := ⟨_, _, rfl, added⟩
        have waits := named.found_step keeps kept acts now List.not_mem_nil
        have current := (contains_iff.1 (contains_of_get? waits)).1
        rw [counted, releases_cons, Moment.removed_of_added? added] at current
        simp only [List.map_nil, List.count_nil] at current
        omega
      · have waits := contains_of_get? (named.found later id data past gone)
        exact (acts.arrives added).1 (keeps.contains_iff.1 waits)

/-- Identifiers are never confused.  Let any operations be done to a list of timers that
was empty at first, in which no cell is released so often that its count starts again.  Then
no two timers were added under one name.  From the time at which it is added until it is
deleted, fired or cleared, a timer is found under its name, with the data that were given
to it; afterwards nothing is found there, and to delete it or to give it a deadline changes
nothing. -/
theorem ids_never_confused (operations : List (Operation α)) :
    ∃ chronicle, Chronicle.of? operations = some chronicle ∧
      (empty : Timers α).run? operations = some chronicle.timers ∧
      ((∀ index, releases chronicle.past index < generationBound) →
        ((chronicle.past.filterMap Moment.added?).map Prod.fst).Nodup ∧
        ∀ later id data, Added chronicle.past later id data →
          (id ∉ removed later →
            chronicle.timers.contains id = true ∧ chronicle.timers.get? id = some data) ∧
          (id ∈ removed later →
            chronicle.timers.contains id = false ∧ chronicle.timers.get? id = none ∧
            chronicle.timers.delete? id = some (none, chronicle.timers) ∧
            ∀ expire, chronicle.timers.adjust? id expire = some (false, chronicle.timers))) := by
  obtain ⟨chronicle, order, told, ran, -, holds⟩ :=
    Chronicle.exists_of? (fun chronicle _ =>
      (∀ index, releases chronicle.past index < generationBound) → Named chronicle)
      (fun _ => ⟨fun _ => rfl, List.nodup_nil, by simp [Added, Chronicle.start], by
        simp [Added, Chronicle.start]⟩)
      (fun {chronicle order} keeps holds operation => by
        obtain ⟨answer, next, after, done, kept, -, acts⟩ := keeps.perform operation
        refine ⟨answer, next, after, done, kept, fun seldom => ?_⟩
        have named := holds fun index => by
          have bounded := seldom index
          rw [releases_cons] at bounded
          exact Nat.lt_of_le_of_lt (Nat.le_add_left _ _) bounded
        exact named.step keeps done kept acts seldom)
      operations
  refine ⟨chronicle, told, ran, fun seldom => ?_⟩
  have named := holds seldom
  refine ⟨named.distinct, fun later id data added => ⟨fun remains => ?_, fun gone => ?_⟩⟩
  · have present := named.found later id data added remains
    exact ⟨contains_of_get? present, present⟩
  · have absent := named.not_contains (named.passed later id data added gone)
    refine ⟨absent, ?_, ?_, fun expire => ?_⟩
    · rw [get?, absent]
      rfl
    · rw [delete?, absent]
      rfl
    · rw [adjust?, absent]
      rfl

/-- The first timer is deleted and its cell used again. -/
theorem ids_never_confused_reused :
    ∃ chronicle : Chronicle Nat,
      Chronicle.of? [.add 5 0, .delete ⟨0, 0⟩, .add 7 1] = some chronicle ∧
      (∀ index, releases chronicle.past index < generationBound) ∧
      chronicle.timers.get? ⟨0, 1⟩ = some 1 ∧
      chronicle.timers.get? ⟨0, 0⟩ = none ∧
      chronicle.timers.delete? ⟨0, 0⟩ = some (none, chronicle.timers) := by
  obtain ⟨chronicle, told, -, means⟩ :=
    ids_never_confused (α := Nat) [.add 5 0, .delete ⟨0, 0⟩, .add 7 1]
  have seen : (Chronicle.of? (α := Nat) [.add 5 0, .delete ⟨0, 0⟩, .add 7 1]).map
      (fun chronicle => chronicle.past.map fun moment => (moment.added?, moment.removed)) =
      some [(some (⟨0, 1⟩, 1), []), (none, [⟨0, 0⟩]), (some (⟨0, 0⟩, 0), [])] := by
    decide +kernel
  rw [told, Option.map_some, Option.some.injEq] at seen
  obtain ⟨timers, past⟩ := chronicle
  match past, seen with
  | [last, middle, first], seen =>
    simp only [List.map_cons, List.map_nil, List.cons.injEq, Prod.mk.injEq, and_true] at seen
    obtain ⟨⟨added, still⟩, ⟨-, deleted⟩, ⟨earlier, nothing⟩⟩ := seen
    have seldom (index : Nat) : releases [last, middle, first] index < generationBound := by
      refine Nat.lt_of_le_of_lt List.count_le_length ?_
      simp [removed, still, deleted, nothing, generationBound]
    obtain ⟨-, means⟩ := means seldom
    have now := (means [] ⟨0, 1⟩ 1 ⟨last, [middle, first], rfl, added⟩).1 List.not_mem_nil
    have gone := (means [last, middle] ⟨0, 0⟩ 0 ⟨first, [], rfl, earlier⟩).2
      (by simp [removed, still, deleted])
    exact ⟨_, told, seldom, now.2, gone.2.1, gone.2.2.1⟩

end FileServer.Timers
