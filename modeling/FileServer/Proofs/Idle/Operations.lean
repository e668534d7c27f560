import FileServer.Proofs.Idle.Sorting

/-!
# What the operations do to the list of timers

A list of timers keeps an order when the links agree with it, when its cells are
just the cells in use, and when the deadlines do not fall along it.  From such a
list every operation comes to an end without meeting an empty cell, and keeps
another order: the old one with a timer put in behind all that expire no later,
with one taken out, or without those in front that are due.
-/

namespace FileServer.Timers

variable {α : Type} {timers : Timers α}

/-- The timers are in order. -/
structure Keeps (timers : Timers α) (order : List Nat) : Prop where
  linked : timers.Linked order
  stocked : timers.Stocked order
  sorted : timers.Sorted order

theorem keeps_empty : (empty : Timers α).Keeps [] where
  linked := ⟨List.nodup_nil, ⟨rfl, trivial⟩, ⟨rfl, trivial⟩⟩
  stocked := ⟨fun index => by simp [held?, timer?, empty], List.nodup_nil,
    fun index => by simp [empty], rfl⟩
  sorted := List.Pairwise.nil

/-! ## Inserting -/

/-- Where a deadline belongs behind a timer: behind those that expire no later, and
before the first that expires later. -/
theorem seek?_spec {expire steps anchor : Nat} {behind : List Nat}
    (chain : timers.Chain (some anchor) behind none) (enough : behind.length ≤ steps) :
    ∃ early late, behind = early ++ late ∧
      timers.seek? expire steps anchor behind.head? =
        some (early.getLast?.getD anchor, late.head?) ∧
      (∀ other ∈ early, timers.expiry other ≤ expire) ∧
      ∀ other ∈ late.head?, expire < timers.expiry other := by
  induction behind generalizing anchor steps with
  | nil => exact ⟨[], [], rfl, by simp [seek?], nofun, nofun⟩
  | cons next rest ih =>
      obtain ⟨⟨timer, present, -, forward⟩, chain⟩ := chain
      cases steps with
      | zero => simp at enough
      | succ steps =>
          rw [List.length_cons] at enough
          rw [List.head?_cons, seek?, present]
          dsimp only
          split
          · next later =>
              refine ⟨[], next :: rest, rfl, rfl, nofun, ?_⟩
              intro other member
              cases member
              rwa [expiry_of_timer? present]
          · next soon =>
              obtain ⟨early, late, parts, found, before, behind⟩ := @ih steps next chain (by omega)
              refine ⟨next :: early, late, by rw [parts, List.cons_append], ?_, ?_, behind⟩
              · rw [forward, Option.or_none, found, List.getLast?_cons, Option.getD_some]
              · intro other member
                rcases List.mem_cons.1 member with rfl | further
                · rw [expiry_of_timer? present]
                  omega
                · exact before other further

/-- A placed timer is put where its deadline belongs behind a timer. -/
theorem Linked.insertBehind {front behind : List Nat} {index anchor : Nat} {timer : Timer α}
    (linked : timers.Linked (front ++ anchor :: behind))
    (present : timers.timer? index = some timer) (absent : index ∉ front ++ anchor :: behind)
    (enough : behind.length ≤ timers.cells.size) :
    ∃ early late next, behind = early ++ late ∧
      timers.insertBehind? index anchor = some next ∧
      next.Linked (front ++ anchor :: early ++ index :: late) ∧ Relinked timers next ∧
      (∀ other ∈ early, timers.expiry other ≤ timer.expire) ∧
      ∀ other ∈ late.head?, timer.expire < timers.expiry other := by
  obtain ⟨-, -, last⟩ := linked_append.1 linked
  obtain ⟨⟨start, held, -, forward⟩, chain⟩ := last.chain
  rw [Option.or_none] at forward
  obtain ⟨early, late, parts, found, before, later⟩ :=
    @seek?_spec _ _ timer.expire _ _ _ chain enough
  subst parts
  rw [← List.cons_append, ← List.append_assoc] at linked absent
  obtain ⟨next, inserted, order, relinked⟩ := linked.insert present absent
  refine ⟨early, late, next, rfl, ?_, order, relinked, before, later⟩
  have neighbour : (front ++ anchor :: early).getLast? = some (early.getLast?.getD anchor) := by
    rw [List.getLast?_append, List.getLast?_cons]
    rfl
  rw [neighbour] at inserted
  simp only [insertBehind?, present, held, forward, found, Option.bind_eq_bind, Option.bind_some,
    inserted]

/-- A placed timer is put where its deadline belongs. -/
theorem Linked.insertSorted {order : List Nat} {index : Nat} {timer : Timer α}
    (linked : timers.Linked order) (present : timers.timer? index = some timer)
    (absent : index ∉ order) (enough : order.length ≤ timers.cells.size) :
    ∃ early late next, order = early ++ late ∧
      timers.insert? index timer.expire = some next ∧
      next.Linked (early ++ index :: late) ∧ Relinked timers next ∧
      (∀ other ∈ early, timers.expiry other ≤ timer.expire) ∧
      ∀ other ∈ late.head?, timer.expire < timers.expiry other := by
  have start := linked.front.head
  rw [Option.or_none] at start
  cases order with
  | nil =>
      obtain ⟨next, inserted, alone, relinked⟩ :=
        @Linked.insert _ timers [] [] index timer linked present absent
      refine ⟨[], [], next, rfl, ?_, alone, relinked, nofun, nofun⟩
      simp only [insert?, start, List.head?_nil]
      exact inserted
  | cons head rest =>
      obtain ⟨first, held⟩ := linked.front.chain.timer? List.mem_cons_self
      simp only [insert?, start, List.head?_cons, held, Option.bind_eq_bind, Option.bind_some]
      split
      · next sooner =>
          obtain ⟨next, inserted, order, relinked⟩ :=
            @Linked.insert _ timers [] (head :: rest) index timer linked present absent
          refine ⟨[], head :: rest, next, rfl, inserted, order, relinked, nofun, ?_⟩
          intro other member
          cases member
          rwa [expiry_of_timer? held]
      · next later =>
          rw [List.length_cons] at enough
          obtain ⟨early, late, next, parts, inserted, order, relinked, before, behind⟩ :=
            @Linked.insertBehind _ timers [] rest index head timer linked present absent (by omega)
          refine ⟨head :: early, late, next, by rw [parts, List.cons_append], inserted, order,
            relinked, ?_, behind⟩
          intro other member
          rcases List.mem_cons.1 member with rfl | further
          · rw [expiry_of_timer? held]
            omega
          · exact before other further

/-- A timer that was put where its deadline belongs. -/
theorem Keeps.of_insert {next : Timers α} {early late : List Nat} {index : Nat}
    (linked : next.Linked (early ++ index :: late))
    (stocked : timers.Stocked (index :: (early ++ late))) (relinked : Relinked timers next)
    (sorted : timers.Sorted (early ++ late))
    (before : ∀ other ∈ early, timers.expiry other ≤ timers.expiry index)
    (behind : ∀ other ∈ late.head?, timers.expiry index ≤ timers.expiry other) :
    next.Keeps (early ++ index :: late) where
  linked := linked
  stocked := (stocked.perm List.perm_middle.symm).relinked relinked
  sorted := (sorted.insert before behind).congr fun other _ => relinked.entry other

/-- What is added is found under its identifier, and nothing else changes but its
place in the order. -/
theorem Keeps.add {order : List Nat} (keeps : timers.Keeps order) (expire : Nat) (data : α) :
    ∃ early late index next, order = early ++ late ∧ index ∉ order ∧
      timers.add? expire data = some (timers.idAt index, next) ∧
      next.Keeps (early ++ index :: late) ∧ next.held? index = some (expire, data) ∧
      (∀ other, other ≠ index → next.held? other = timers.held? other) ∧
      (∀ other, next.generation other = timers.generation other) ∧
      (∀ other ∈ early, timers.expiry other ≤ expire) ∧
      (∀ other ∈ late.head?, expire < timers.expiry other) ∧
      next.cells.size ≤ max timers.cells.size next.size := by
  obtain ⟨index, placed, place, absent, refilled, stocked, cells, generation⟩ :=
    keeps.stocked.place { expire, data }
  have enough : order.length ≤ placed.cells.size := by
    have used := stocked.length_le (List.nodup_cons.2 ⟨absent, keeps.linked.nodup⟩)
    rw [List.length_cons] at used
    omega
  obtain ⟨early, late, next, parts, inserted, linked, relinked, before, behind⟩ :=
    (refilled.linked keeps.linked absent).insertSorted refilled.own absent enough
  have own : placed.held? index = some (expire, data) := by simp [held?, refilled.own]
  have deadline : placed.expiry index = expire := expiry_of_timer? refilled.own
  have entries (other : Nat) (member : other ∈ order) :
      placed.held? other = timers.held? other := by
    apply refilled.held?
    intro same
    exact absent (same ▸ member)
  have sorted : placed.Sorted order := keeps.sorted.congr entries
  subst parts
  refine ⟨early, late, index, next, rfl, absent, ?_, ?_, (relinked.entry index).trans own, ?_, ?_,
    ?_, ?_, ?_⟩
  · have same : next.idAt index = timers.idAt index := by
      rw [idAt, idAt, relinked.generation, generation]
    simp only [add?, place, Option.bind_eq_bind, inserted, Option.bind_some, same]
    rfl
  · apply Keeps.of_insert linked stocked relinked sorted
    · intro other member
      rw [deadline]
      exact before other member
    · intro other member
      rw [deadline]
      exact Nat.le_of_lt (behind other member)
  · intro other differ
    rw [relinked.entry, refilled.held? differ]
  · intro other
    rw [relinked.generation, generation]
  · intro other member
    rw [← expiry_congr (entries other (List.mem_append_left late member))]
    exact before other member
  · intro other member
    have inside := List.mem_append_right early (List.mem_of_mem_head? member)
    rw [← expiry_congr (entries other inside)]
    exact behind other member
  · rw [relinked.cells, relinked.size]
    exact cells

/-! ## Removing -/

/-- A timer is taken out and its cell emptied. -/
theorem Keeps.remove {front behind : List Nat} {index : Nat}
    (keeps : timers.Keeps (front ++ index :: behind)) :
    ∃ timer next, timers.held? index = some (timer.expire, timer.data) ∧
      timers.remove? index = some (timer, next) ∧ next.Keeps (front ++ behind) ∧
      (∀ other, other ≠ index → next.held? other = timers.held? other) ∧
      (∀ other, other ≠ index → next.generation other = timers.generation other) ∧
      next.cells.size = timers.cells.size ∧
      next.generation index = (timers.generation index + 1) % generationBound := by
  have absent := (List.nodup_cons.1 (List.nodup_middle.1 keeps.linked.nodup)).1
  obtain ⟨unlinked, taken, linked, relinked⟩ := keeps.linked.unlink
  have stocked := (keeps.stocked.relinked relinked).perm List.perm_middle
  obtain ⟨timer, present⟩ := stocked.timer? List.mem_cons_self
  obtain ⟨next, released, refilled, left, cells, generation, renewed⟩ :=
    stocked.release absent present
  have entries (other : Nat) (differ : other ≠ index) :
      next.held? other = timers.held? other := by
    rw [refilled.held? differ, relinked.entry]
  refine ⟨timer, next, ?_, ?_, ?_, entries, fun other differ => ?_, cells.trans relinked.cells,
    by rw [renewed, relinked.generation]⟩
  · rw [← relinked.entry, held?, present]
    rfl
  · simp only [remove?, taken, Option.bind_eq_bind, Option.bind_some, released]
  · refine ⟨refilled.linked linked absent, left, keeps.sorted.remove.congr ?_⟩
    intro other member
    apply entries
    intro same
    exact absent (same ▸ member)
  · rw [generation other differ, relinked.generation]

theorem contains_iff {id : TimerId} :
    timers.contains id = true ↔
      timers.generation id.index = id.generation ∧ (timers.held? id.index).isSome := by
  simp only [contains, generation, held?, timer?]
  cases timers.cells[id.index]? with
  | none => simp
  | some cell => simp

/-- A timer that is waiting is somewhere in the order. -/
theorem Keeps.split {order : List Nat} (keeps : timers.Keeps order) {index : Nat}
    (present : (timers.held? index).isSome) : ∃ front behind, order = front ++ index :: behind :=
  List.append_of_mem ((keeps.stocked.occupied index).1 present)

/-- A timer that is waiting can be deleted. -/
theorem Keeps.delete {order : List Nat} (keeps : timers.Keeps order) {id : TimerId}
    (present : timers.contains id = true) :
    ∃ front behind expire data next, order = front ++ id.index :: behind ∧
      timers.held? id.index = some (expire, data) ∧
      timers.delete? id = some (some data, next) ∧ next.Keeps (front ++ behind) ∧
      (∀ other, other ≠ id.index → next.held? other = timers.held? other) ∧
      (∀ other, other ≠ id.index → next.generation other = timers.generation other) ∧
      next.cells.size = timers.cells.size ∧
      next.generation id.index = (timers.generation id.index + 1) % generationBound := by
  obtain ⟨front, behind, parts⟩ := keeps.split (contains_iff.1 present).2
  obtain ⟨timer, next, entry, removed, kept, entries, generation, cells, renewed⟩ :=
    (parts ▸ keeps).remove
  refine ⟨front, behind, timer.expire, timer.data, next, parts, entry, ?_, kept, entries,
    generation, cells, renewed⟩
  simp only [delete?, present, ↓reduceIte, removed, Option.bind_eq_bind, Option.bind_some]
  rfl

/-! ## Moving -/

/-- Links do not depend on deadlines. -/
theorem Chain.updated {next : Timers α} {index : Nat} {old new : Timer α}
    (updated : Updated timers index new next) (present : timers.timer? index = some old)
    (prev : new.prev = old.prev) (forward : new.next = old.next) {order : List Nat}
    {before behind : Option Nat} (chain : timers.Chain before order behind) :
    next.Chain before order behind := by
  induction order generalizing before with
  | nil => trivial
  | cons first rest ih =>
      obtain ⟨⟨timer, held, links⟩, chain⟩ := chain
      refine ⟨?_, ih chain⟩
      by_cases mine : first = index
      · subst mine
        cases present.symm.trans held
        exact ⟨new, updated.own, prev.trans links.1, forward.trans links.2⟩
      · exact ⟨timer, (updated.others first mine).trans held, links⟩

theorem Linked.updated {next : Timers α} {index : Nat} {old new : Timer α}
    (updated : Updated timers index new next) (present : timers.timer? index = some old)
    (prev : new.prev = old.prev) (forward : new.next = old.next) {order : List Nat}
    (linked : timers.Linked order) : next.Linked order where
  nodup := linked.nodup
  front := ⟨updated.head.trans linked.front.head,
    linked.front.chain.updated updated present prev forward⟩
  rear := ⟨updated.tail.trans linked.rear.tail,
    linked.rear.chain.updated updated present prev forward⟩

theorem Stocked.updated {next : Timers α} {index : Nat} {old new : Timer α} {used : List Nat}
    (updated : Updated timers index new next) (present : timers.timer? index = some old)
    (stocked : timers.Stocked used) : next.Stocked used where
  occupied other := by
    rw [← stocked.occupied]
    by_cases mine : other = index
    · subst mine
      simp [held?, updated.own, present]
    · simp only [held?, updated.others other mine]
  nodup := by rw [updated.free]; exact stocked.nodup
  vacant other := by rw [updated.free, updated.cells, stocked.vacant]
  size := updated.size.trans stocked.size

/-- Where a timer comes to stand whose deadline was changed, between `before` and `after`
and no longer between `front` and `behind`.  It stays with its old deadline, and also in
front of a timer that has the new one; otherwise it comes behind all that expire no
later. -/
def Placed {β : Type} (expiry : β → Nat) (old expire : Nat) (front behind before after : List β) :
    Prop :=
  (before = front ∧ after = behind ∧ (old = expire ∨ behind.head?.map expiry = some expire)) ∨
  (old ≠ expire ∧ behind.head?.map expiry ≠ some expire ∧
    ∀ deadline ∈ after.head?.map expiry, expire < deadline)

/-- A list that is in order but for one timer, which has got another deadline. -/
structure Displaced (timers : Timers α) (front : List Nat) (index : Nat) (behind : List Nat)
    (timer : Timer α) : Prop where
  linked : timers.Linked (front ++ index :: behind)
  stocked : timers.Stocked (front ++ index :: behind)
  sorted : timers.Sorted (front ++ behind)
  present : timers.timer? index = some timer

/-- That timer is moved to where it belongs, if it does not stand there already. -/
def Relocates (timers : Timers α) (front : List Nat) (index : Nat) (behind : List Nat)
    (timer : Timer α) (old : Nat) : Prop :=
  ∃ before after next, front ++ behind = before ++ after ∧
    timers.relocate? index old timer.expire front.getLast? behind.head? = some next ∧
    next.Keeps (before ++ index :: after) ∧ Relinked timers next ∧
    Placed timers.expiry old timer.expire front behind before after

section Displaced

variable {front behind : List Nat} {index old : Nat} {timer : Timer α}

/-- The timer is where its deadline belongs. -/
theorem Displaced.settles (displaced : timers.Displaced front index behind timer)
    {early late : List Nat} {next : Timers α} (parts : front ++ behind = early ++ late)
    (linked : next.Linked (early ++ index :: late)) (relinked : Relinked timers next)
    (before : ∀ other ∈ early, timers.expiry other ≤ timer.expire)
    (after : ∀ other ∈ late.head?, timer.expire ≤ timers.expiry other) :
    next.Keeps (early ++ index :: late) := by
  have stocked := displaced.stocked.perm List.perm_middle
  rw [← expiry_of_timer? displaced.present] at before after
  exact Keeps.of_insert linked (parts ▸ stocked) relinked (parts ▸ displaced.sorted) before after

/-- Nothing has to move when the neighbours allow the new deadline. -/
theorem Displaced.stays (displaced : timers.Displaced front index behind timer)
    (before : ∀ other ∈ front, timers.expiry other ≤ timer.expire)
    (after : ∀ other ∈ behind.head?, timer.expire ≤ timers.expiry other) :
    timers.Keeps (front ++ index :: behind) :=
  displaced.settles rfl displaced.linked (.refl timers) before after

/-- The timer is taken out of the links, and all deadlines stay. -/
theorem Displaced.loosen (displaced : timers.Displaced front index behind timer) :
    ∃ alone unlinked, timers.unlink? index = some unlinked ∧
      unlinked.Linked (front ++ behind) ∧ Relinked timers unlinked ∧
      unlinked.timer? index = some alone ∧ index ∉ front ++ behind ∧
      front.length + behind.length < unlinked.cells.size ∧
      alone.expire = timer.expire ∧ unlinked.expiry = timers.expiry := by
  obtain ⟨unlinked, taken, rest, relinked⟩ := displaced.linked.unlink
  have nodup := List.nodup_middle.1 displaced.linked.nodup
  have stocked := (displaced.stocked.perm List.perm_middle).relinked relinked
  have length := stocked.length_le nodup
  rw [List.length_cons, List.length_append] at length
  obtain ⟨alone, loose⟩ := stocked.timer? List.mem_cons_self
  have expiries : unlinked.expiry = timers.expiry :=
    funext fun other => expiry_congr (relinked.entry other)
  refine ⟨alone, unlinked, taken, rest, relinked, loose, (List.nodup_cons.1 nodup).1, length, ?_,
    expiries⟩
  rw [← expiry_of_timer? loose, expiries, expiry_of_timer? displaced.present]

theorem forall_head?_expiry {others : List Nat} {expire : Nat}
    (beyond : ∀ other ∈ others.head?, expire < timers.expiry other) :
    ∀ deadline ∈ others.head?.map timers.expiry, expire < deadline := by
  intro deadline member
  obtain ⟨other, leads, rfl⟩ := Option.map_eq_some_iff.1 member
  exact beyond other leads

/-- With a later deadline it goes behind the others that expire no later. -/
theorem Displaced.relocates_later (displaced : timers.Displaced front index behind timer)
    (later : old ≤ timer.expire) (early : ∀ other ∈ front, timers.expiry other ≤ timer.expire)
    (late : ∀ other ∈ behind.head?, old ≤ timers.expiry other) :
    timers.Relocates front index behind timer old := by
  unfold Relocates relocate?
  rw [if_pos later]
  cases behind with
  | nil =>
      refine ⟨front, [], timers, rfl, rfl, displaced.stays early (by simp), .refl timers, ?_⟩
      by_cases same : old = timer.expire
      · exact .inl ⟨rfl, rfl, .inl same⟩
      · exact .inr ⟨same, by simp, by simp⟩
  | cons neighbour others =>
      obtain ⟨held, found⟩ := displaced.stocked.timer? (List.mem_append_right front
        (List.mem_cons_of_mem index List.mem_cons_self))
      have least := late neighbour rfl
      have final := expiry_of_timer? found
      simp only [List.head?_cons, found, Option.bind_eq_bind, Option.bind_some]
      split
      · next passes =>
          obtain ⟨alone, unlinked, taken, rest, relinked, loose, absent, length, same, expiries⟩ :=
            displaced.loosen
          rw [List.length_cons] at length
          obtain ⟨passed, last, next, parts, inserted, order, links, before, after⟩ :=
            rest.insertBehind loose absent (by omega)
          subst parts
          rw [same, expiries] at before after
          have whole : front ++ neighbour :: (passed ++ last) =
              (front ++ neighbour :: passed) ++ last := by simp
          refine ⟨front ++ neighbour :: passed, last, next, whole, ?_, ?_, relinked.trans links,
            .inr ⟨by omega, ?_, forall_head?_expiry after⟩⟩
          · simp only [taken, Option.bind_some, inserted]
          · refine displaced.settles whole order (relinked.trans links) ?_
              fun other member => Nat.le_of_lt (after other member)
            intro other member
            rcases List.mem_append.1 member with ahead | further
            · exact early other ahead
            · rcases List.mem_cons.1 further with rfl | between
              · omega
              · exact before other between
          · intro equal
            have := Option.some.inj equal
            omega
      · next stands =>
          refine ⟨front, neighbour :: others, timers, rfl, rfl, displaced.stays early ?_,
            .refl timers, ?_⟩
          · rintro other ⟨⟩
            omega
          · rcases Nat.eq_or_lt_of_le (Nat.le_of_not_lt stands) with equal | beyond
            · exact .inl ⟨rfl, rfl, .inr (congrArg some (final.trans equal.symm))⟩
            · by_cases unchanged : old = timer.expire
              · exact .inl ⟨rfl, rfl, .inl unchanged⟩
              · refine .inr ⟨unchanged, ?_, forall_head?_expiry ?_⟩
                · intro equal
                  have := Option.some.inj equal
                  omega
                · rintro other ⟨⟩
                  omega

/-- With an earlier deadline it goes to where it belongs from the front, and before all
that were behind it. -/
theorem Displaced.relocates_sooner (displaced : timers.Displaced front index behind timer)
    (sooner : timer.expire < old) (early : ∀ other ∈ front, timers.expiry other ≤ old)
    (beyond : ∀ other ∈ behind.head?, timer.expire < timers.expiry other) :
    timers.Relocates front index behind timer old := by
  have differ : old ≠ timer.expire := Nat.ne_of_gt sooner
  have late : ∀ other ∈ behind.head?, timer.expire ≤ timers.expiry other :=
    fun other member => Nat.le_of_lt (beyond other member)
  have apart : behind.head?.map timers.expiry ≠ some timer.expire := fun equal =>
    Nat.lt_irrefl _ (forall_head?_expiry beyond _ equal)
  unfold Relocates relocate?
  rw [if_neg (Nat.not_le.2 sooner)]
  rcases List.eq_nil_or_concat front with rfl | ⟨init, neighbour, rfl⟩
  · exact ⟨[], behind, timers, rfl, rfl, displaced.stays (by simp) late, .refl timers,
      .inr ⟨differ, apart, forall_head?_expiry beyond⟩⟩
  · rw [List.concat_eq_append] at *
    obtain ⟨held, found⟩ := displaced.stocked.timer? (List.mem_append_left _
      (List.mem_append_right init List.mem_cons_self))
    have final := expiry_of_timer? found
    simp only [List.getLast?_concat, found, Option.bind_eq_bind, Option.bind_some]
    split
    · next passes =>
        obtain ⟨alone, unlinked, taken, rest, relinked, loose, absent, length, same, expiries⟩ :=
          displaced.loosen
        rw [← List.length_append] at length
        obtain ⟨ahead, last, next, parts, inserted, order, links, before, after⟩ :=
          rest.insertSorted loose absent (Nat.le_of_lt length)
        rw [same, expiries] at before after
        rw [same] at inserted
        refine ⟨ahead, last, next, parts, ?_, ?_, relinked.trans links,
          .inr ⟨differ, apart, forall_head?_expiry after⟩⟩
        · simp only [taken, Option.bind_some, inserted]
        · exact displaced.settles parts order (relinked.trans links) before
            fun other member => Nat.le_of_lt (after other member)
    · next stands =>
        refine ⟨init ++ [neighbour], behind, timers, rfl, rfl, displaced.stays ?_ late,
          .refl timers, .inr ⟨differ, apart, forall_head?_expiry beyond⟩⟩
        intro other member
        rcases List.mem_append.1 member with ahead | last
        · have ordered := List.pairwise_append.1 (List.pairwise_append.1 displaced.sorted).1
          have := ordered.2.2 other ahead neighbour List.mem_cons_self
          omega
        · rw [List.mem_singleton.1 last]
          omega

theorem Displaced.relocates (displaced : timers.Displaced front index behind timer)
    (early : ∀ other ∈ front, timers.expiry other ≤ old)
    (late : ∀ other ∈ behind.head?, old ≤ timers.expiry other) :
    timers.Relocates front index behind timer old := by
  rcases Nat.lt_or_ge timer.expire old with sooner | later
  · refine displaced.relocates_sooner sooner early fun other member => ?_
    exact Nat.lt_of_lt_of_le sooner (late other member)
  · refine displaced.relocates_later later (fun other member => ?_) late
    exact Nat.le_trans (early other member) later

end Displaced

/-- A timer that is waiting can be given another deadline; all others keep theirs,
and their order. -/
theorem Keeps.adjust {order : List Nat} (keeps : timers.Keeps order) {id : TimerId}
    (present : timers.contains id = true) (expire : Nat) :
    ∃ front behind before after old data next, order = front ++ id.index :: behind ∧
      front ++ behind = before ++ after ∧ timers.held? id.index = some (old, data) ∧
      timers.adjust? id expire = some (true, next) ∧
      next.Keeps (before ++ id.index :: after) ∧
      next.held? id.index = some (expire, data) ∧
      (∀ other, other ≠ id.index → next.held? other = timers.held? other) ∧
      (∀ other, next.generation other = timers.generation other) ∧
      next.cells.size = timers.cells.size ∧
      Placed timers.expiry old expire front behind before after := by
  obtain ⟨front, behind, rfl⟩ := keeps.split (contains_iff.1 present).2
  obtain ⟨-, -, last⟩ := linked_append.1 keeps.linked
  obtain ⟨⟨timer, found, back, forward⟩, -⟩ := last.chain
  rw [Option.or_none] at forward
  obtain ⟨changed, set, updated⟩ := update?_spec found fun timer => { timer with expire }
  have linked := keeps.linked.updated updated found rfl rfl
  have stocked := keeps.stocked.updated updated found
  have absent := (List.nodup_cons.1 (List.nodup_middle.1 keeps.linked.nodup)).1
  have entries (other : Nat) (differ : other ≠ id.index) :
      changed.held? other = timers.held? other := by
    simp only [held?, updated.others other differ]
  have apart {other : Nat} (member : other ∈ front ++ behind) : other ≠ id.index := by
    intro same
    exact absent (same ▸ member)
  have sorted : changed.Sorted (front ++ behind) := by
    apply keeps.sorted.remove.congr
    intro other member
    exact entries other (apart member)
  have old := expiry_of_timer? found
  obtain ⟨-, ordered, across⟩ := List.pairwise_append.1 keeps.sorted
  have early : ∀ other ∈ front, changed.expiry other ≤ timer.expire := by
    intro other member
    rw [expiry_congr (entries other (apart (List.mem_append_left behind member))), ← old]
    exact across other member id.index List.mem_cons_self
  have late : ∀ other ∈ behind.head?, timer.expire ≤ changed.expiry other := by
    intro other first
    have member := List.mem_of_mem_head? first
    rw [expiry_congr (entries other (apart (List.mem_append_right front member))), ← old]
    exact (List.pairwise_cons.1 ordered).1 other member
  obtain ⟨before, after, next, parts, moved, kept, relinked, placed⟩ :=
    Displaced.relocates ⟨linked, stocked, sorted, updated.own⟩ early late
  refine ⟨front, behind, before, after, timer.expire, timer.data, next, rfl, parts, ?_, ?_, kept,
    ?_, ?_, ?_, relinked.cells.trans updated.cells, ?_⟩
  · simp [held?, found]
  · rw [← back, ← forward] at moved
    simp only [adjust?, present, ↓reduceIte, found, Option.bind_eq_bind, Option.bind_some, set,
      moved]
    rfl
  · rw [relinked.entry, held?, updated.own]
    rfl
  · intro other differ
    rw [relinked.entry, entries other differ]
  · intro other
    rw [relinked.generation, updated.generation]
  · have same {others : List Nat} (inside : others ⊆ front ++ behind) :
        others.head?.map changed.expiry = others.head?.map timers.expiry := by
      refine Option.map_congr fun other member => expiry_congr (entries other (apart ?_))
      exact inside (List.mem_of_mem_head? member)
    have beside := same (List.subset_append_right front behind)
    have ahead := same (parts ▸ List.subset_append_right before after)
    rwa [Placed, beside, ahead] at placed

/-! ## Firing -/

/-- A timer as it is handed out when it fires. -/
def named? (timers : Timers α) (index : Nat) : Option (TimerId × α) :=
  (timers.held? index).map fun entry => (timers.idAt index, entry.2)

/-- The timers that are due are taken from the front of the list, in its order, and
counted. -/
theorem Keeps.fire {order : List Nat} (keeps : timers.Keeps order) (now : Nat) {steps : Nat}
    (enough : order.length ≤ steps) (count : Nat) :
    ∃ due left next, order = due ++ left ∧
      fire? now steps count timers =
        some (due.filterMap timers.named?, count + due.length, next) ∧
      next.Keeps left ∧ (∀ index ∈ due, timers.expiry index ≤ now) ∧
      (∀ index ∈ left.head?, now < timers.expiry index) ∧
      (∀ index ∉ due, next.held? index = timers.held? index) ∧
      (∀ index ∉ due, next.generation index = timers.generation index) ∧
      next.cells.size = timers.cells.size ∧
      ∀ index ∈ due, next.generation index = (timers.generation index + 1) % generationBound := by
  have start := keeps.linked.front.head
  rw [Option.or_none] at start
  induction order generalizing timers steps count with
  | nil =>
      refine ⟨[], [], timers, rfl, ?_, keeps, nofun, nofun, fun _ _ => rfl, fun _ _ => rfl, rfl,
        nofun⟩
      rw [fire?, start]
      rfl
  | cons head rest ih =>
      obtain ⟨first, held⟩ := keeps.linked.front.chain.timer? List.mem_cons_self
      have deadline := expiry_of_timer? held
      rw [fire?, start]
      simp only [List.head?_cons, held]
      split
      · next early =>
          refine ⟨[], head :: rest, timers, rfl, rfl, keeps, nofun, ?_, fun _ _ => rfl,
            fun _ _ => rfl, rfl, nofun⟩
          intro index member
          cases member
          rwa [deadline]
      · next due =>
          cases steps with
          | zero => simp at enough
          | succ steps =>
              rw [List.length_cons] at enough
              obtain ⟨timer, removed, entry, taken, kept, entries, generation, cells, renewed⟩ :=
                @Keeps.remove _ timers [] rest head keeps
              have begins := kept.linked.front.head
              rw [Option.or_none] at begins
              obtain ⟨others, left, next, parts, fired, remains, passed, ahead, same, counted,
                  stays, further⟩ := @ih removed kept steps (by omega) (count + 1) begins
              subst parts
              have absent : head ∉ others ++ left :=
                (List.nodup_cons.1 keeps.linked.nodup).1
              have apart {index : Nat} (member : index ∈ others ++ left) : index ≠ head := by
                intro equal
                exact absent (equal ▸ member)
              refine ⟨head :: others, left, next, rfl, ?_, remains, ?_, ?_, ?_, ?_,
                stays.trans cells, ?_⟩
              · have own : timers.named? head = some (timers.idAt head, first.data) := by
                  simp [named?, held?, held]
                have later : others.filterMap removed.named? = others.filterMap timers.named? := by
                  apply List.filterMap_congr
                  intro index member
                  have differ := apart (List.mem_append_left left member)
                  simp only [named?, entries index differ, idAt, generation index differ]
                rw [List.filterMap_cons_some own, ← later]
                rw [List.length_cons, Nat.add_comm others.length, ← Nat.add_assoc]
                simp only [taken, Option.bind_eq_bind, Option.bind_some, fired]
                rfl
              · intro index member
                rcases List.mem_cons.1 member with rfl | further
                · rw [deadline]
                  omega
                · rw [← expiry_congr (entries index (apart (List.mem_append_left left further)))]
                  exact passed index further
              · intro index member
                have inside := List.mem_append_right others (List.mem_of_mem_head? member)
                rw [← expiry_congr (entries index (apart inside))]
                exact ahead index member
              · intro index outside
                rw [List.mem_cons, not_or] at outside
                rw [same index outside.2, entries index outside.1]
              · intro index outside
                rw [List.mem_cons, not_or] at outside
                rw [counted index outside.2, generation index outside.1]
              · intro index inside
                rcases List.mem_cons.1 inside with rfl | later
                · rw [counted _ fun again => absent (List.mem_append_left left again), renewed]
                · rw [further index later,
                    generation index (apart (List.mem_append_left left later))]

end FileServer.Timers
