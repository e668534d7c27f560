import FileServer.Idle.Timers
import Mathlib.Data.List.Nodup

/-!
# The links between timers

The timers of a list lie in the cells of an arena, and what makes them a list are
the links between neighbours.  A chain is a list of cells whose links agree with
it, from a link that leads back out of it to one that leads forward out of it.  A
chain does not care about any cell but its own, so it can be cut anywhere, and an
operation on links touches the two ends of a cut and nothing else.

What a timer is without its links is its entry.
-/

namespace FileServer.Timers

variable {α : Type} {timers : Timers α}

/-! ## Cells -/

/-- A timer without its links: its deadline and its data. -/
def held? (timers : Timers α) (index : Nat) : Option (Nat × α) :=
  (timers.timer? index).map fun timer => (timer.expire, timer.data)

/-- One timer was changed in its cell. -/
structure Updated (before : Timers α) (index : Nat) (timer : Timer α) (after : Timers α) :
    Prop where
  own : after.timer? index = some timer
  others : ∀ other, other ≠ index → after.timer? other = before.timer? other
  generation : ∀ other, after.generation other = before.generation other
  cells : after.cells.size = before.cells.size
  free : after.free = before.free
  head : after.head = before.head
  tail : after.tail = before.tail
  size : after.size = before.size

theorem timer?_eq_some {index : Nat} {timer : Timer α}
    (present : timers.timer? index = some timer) :
    timers.cells[index]? = some ⟨timers.generation index, some timer⟩ := by
  simp only [timer?, Option.bind_eq_some_iff] at present
  obtain ⟨cell, found, held⟩ := present
  rw [found, generation, found, Option.map_some, Option.getD_some, ← held]

theorem index_lt {index : Nat} {timer : Timer α} (present : timers.timer? index = some timer) :
    index < timers.cells.size :=
  (Array.getElem?_eq_some_iff.1 (timer?_eq_some present)).1

/-- A timer that is there can be changed. -/
theorem update?_spec {index : Nat} {timer : Timer α} (present : timers.timer? index = some timer)
    (change : Timer α → Timer α) :
    ∃ next, timers.update? index change = some next ∧
      Updated timers index (change timer) next := by
  have found := timer?_eq_some present
  have inside := index_lt present
  apply Exists.intro
  constructor
  · simp only [update?, found]
    rfl
  constructor
  · simp [timer?, inside]
  · intro other differ
    simp [timer?, Ne.symm differ]
  · intro other
    by_cases same : index = other
    · subst same
      simp [generation, inside]
    · simp [generation, same]
  · simp
  · rfl
  · rfl
  · rfl
  · rfl

/-- Only links have changed. -/
structure Relinked (before after : Timers α) : Prop where
  entry : ∀ index, after.held? index = before.held? index
  generation : ∀ index, after.generation index = before.generation index
  cells : after.cells.size = before.cells.size
  free : after.free = before.free
  size : after.size = before.size

theorem Relinked.refl (timers : Timers α) : Relinked timers timers :=
  ⟨fun _ => rfl, fun _ => rfl, rfl, rfl, rfl⟩

theorem Relinked.trans {first second third : Timers α} (early : Relinked first second)
    (late : Relinked second third) : Relinked first third where
  entry index := (late.entry index).trans (early.entry index)
  generation index := (late.generation index).trans (early.generation index)
  cells := late.cells.trans early.cells
  free := late.free.trans early.free
  size := late.size.trans early.size

/-- Changing the links of one timer. -/
theorem Updated.relinked {index : Nat} {old new : Timer α} {next : Timers α}
    (updated : Updated timers index new next) (present : timers.timer? index = some old)
    (same : new.expire = old.expire ∧ new.data = old.data) : Relinked timers next where
  entry other := by
    by_cases mine : other = index
    · subst mine
      simp [held?, updated.own, present, same]
    · simp only [held?, updated.others other mine]
  generation := updated.generation
  cells := updated.cells
  free := updated.free
  size := updated.size

/-! ## Chains -/

/-- Cells whose links agree with a list.  `prev` is where the first one leads back
to, and `next` where the last one leads on to. -/
def Chain (timers : Timers α) (prev : Option Nat) : List Nat → Option Nat → Prop
  | [], _ => True
  | index :: rest, next =>
      (∃ timer, timers.timer? index = some timer ∧ timer.prev = prev ∧
        timer.next = rest.head?.or next) ∧
      Chain timers (some index) rest next

/-- A chain depends on its own cells alone. -/
theorem Chain.congr {other : Timers α} {prev next : Option Nat} {order : List Nat}
    (chain : timers.Chain prev order next)
    (same : ∀ index ∈ order, other.timer? index = timers.timer? index) :
    other.Chain prev order next := by
  induction order generalizing prev with
  | nil => trivial
  | cons index rest ih =>
      obtain ⟨⟨timer, present, links⟩, chain⟩ := chain
      constructor
      · exact ⟨timer, (same index List.mem_cons_self).trans present, links⟩
      · apply ih chain
        intro later member
        exact same later (List.mem_cons_of_mem index member)

/-- A chain can be cut anywhere. -/
theorem chain_append {prev next : Option Nat} {front behind : List Nat} :
    timers.Chain prev (front ++ behind) next ↔
      timers.Chain prev front (behind.head?.or next) ∧
        timers.Chain (front.getLast?.or prev) behind next := by
  induction front generalizing prev with
  | nil => simp [Chain]
  | cons index rest ih =>
      have last : (index :: rest).getLast?.or prev = rest.getLast?.or (some index) := by
        rw [List.getLast?_cons]
        cases rest.getLast? <;> rfl
      rw [List.cons_append, Chain, Chain, ih, List.head?_append, Option.or_assoc, last, and_assoc]

/-- Each cell of a chain has a timer. -/
theorem Chain.timer? {prev next : Option Nat} {order : List Nat}
    (chain : timers.Chain prev order next) {index : Nat} (member : index ∈ order) :
    ∃ timer, timers.timer? index = some timer := by
  induction order generalizing prev with
  | nil => cases member
  | cons first rest ih =>
      obtain ⟨⟨timer, present, -⟩, chain⟩ := chain
      rcases List.mem_cons.1 member with rfl | later
      · exact ⟨timer, present⟩
      · exact ih chain later

/-! ## Both ends of a cut -/

/-- The front part of a list, from its start up to a link that leads on. -/
structure Front (timers : Timers α) (order : List Nat) (next : Option Nat) : Prop where
  head : timers.head = order.head?.or next
  chain : timers.Chain none order next

/-- The rear part of a list, from a link that leads back up to its end. -/
structure Rear (timers : Timers α) (prev : Option Nat) (order : List Nat) : Prop where
  tail : timers.tail = order.getLast?.or prev
  chain : timers.Chain prev order none

/-- The links agree with a list of different cells. -/
structure Linked (timers : Timers α) (order : List Nat) : Prop where
  nodup : order.Nodup
  front : timers.Front order none
  rear : timers.Rear none order

/-- A list can be cut anywhere, and put together again. -/
theorem linked_append {front behind : List Nat} :
    timers.Linked (front ++ behind) ↔ (front ++ behind).Nodup ∧
      timers.Front front behind.head? ∧ timers.Rear front.getLast? behind := by
  constructor
  · intro linked
    have cut := chain_append.1 linked.front.chain
    rw [Option.or_none, Option.or_none] at cut
    refine ⟨linked.nodup, ⟨?_, cut.1⟩, ⟨?_, cut.2⟩⟩
    · rw [linked.front.head, List.head?_append, Option.or_none]
    · rw [linked.rear.tail, List.getLast?_append, Option.or_none]
  · rintro ⟨nodup, first, last⟩
    have chain : timers.Chain none (front ++ behind) none := by
      apply chain_append.2
      rw [Option.or_none, Option.or_none]
      exact ⟨first.chain, last.chain⟩
    refine ⟨nodup, ⟨?_, chain⟩, ⟨?_, chain⟩⟩
    · rw [first.head, List.head?_append, Option.or_none]
    · rw [last.tail, List.getLast?_append, Option.or_none]

/-- The link that leads on from a front part is set. -/
theorem Front.link {order : List Nat} {next : Option Nat} (front : timers.Front order next)
    (nodup : order.Nodup) (target : Option Nat) :
    ∃ linked, timers.linkForward? order.getLast? target = some linked ∧ linked.Front order target ∧
      Relinked timers linked ∧ linked.tail = timers.tail ∧
      ∀ index ∉ order, linked.timer? index = timers.timer? index := by
  rcases List.eq_nil_or_concat order with rfl | ⟨init, last, rfl⟩
  · exact ⟨{ timers with head := target }, rfl, ⟨rfl, trivial⟩,
      ⟨fun _ => rfl, fun _ => rfl, rfl, rfl, rfl⟩,
      rfl, fun _ _ => rfl⟩
  · rw [List.concat_eq_append] at front nodup ⊢
    rw [List.getLast?_concat]
    obtain ⟨chain, ⟨timer, present, back, -⟩, -⟩ := chain_append.1 front.chain
    obtain ⟨linked, updated, change⟩ :=
      update?_spec present fun timer => { timer with next := target }
    have apart (index : Nat) (member : index ∈ init) : index ≠ last := by
      intro same
      subst same
      exact (List.disjoint_of_nodup_append nodup) member List.mem_cons_self
    refine ⟨linked, updated, ⟨?_, ?_⟩, change.relinked present ⟨rfl, rfl⟩, change.tail, ?_⟩
    · rw [change.head, front.head]
      cases init <;> rfl
    · apply chain_append.2
      constructor
      · apply chain.congr
        intro index member
        exact change.others index (apart index member)
      · exact ⟨⟨_, change.own, back, rfl⟩, trivial⟩
    · intro index absent
      apply change.others
      intro same
      subst same
      exact absent (List.mem_append_right init List.mem_cons_self)

/-- The link that leads back from a rear part is set. -/
theorem Rear.link {order : List Nat} {prev : Option Nat} (rear : timers.Rear prev order)
    (nodup : order.Nodup) (target : Option Nat) :
    ∃ linked, timers.linkBack? order.head? target = some linked ∧ linked.Rear target order ∧
      Relinked timers linked ∧ linked.head = timers.head ∧
      ∀ index ∉ order, linked.timer? index = timers.timer? index := by
  cases order with
  | nil =>
      exact ⟨{ timers with tail := target }, rfl, ⟨rfl, trivial⟩,
        ⟨fun _ => rfl, fun _ => rfl, rfl, rfl, rfl⟩, rfl, fun _ _ => rfl⟩
  | cons first rest =>
      obtain ⟨⟨timer, present, -, forward⟩, chain⟩ := rear.chain
      obtain ⟨linked, updated, change⟩ :=
        update?_spec present fun timer => { timer with prev := target }
      refine ⟨linked, updated, ⟨?_, ?_⟩, change.relinked present ⟨rfl, rfl⟩, change.head, ?_⟩
      · rw [change.tail, rear.tail, List.getLast?_cons]
        rfl
      · constructor
        · exact ⟨_, change.own, rfl, forward⟩
        · apply chain.congr
          intro index member
          apply change.others
          intro same
          subst same
          exact (List.nodup_cons.1 nodup).1 member
      · intro index absent
        apply change.others
        intro same
        subst same
        exact absent List.mem_cons_self

theorem Front.congr {other : Timers α} {order : List Nat} {next : Option Nat}
    (front : timers.Front order next) (head : other.head = timers.head)
    (same : ∀ index ∈ order, other.timer? index = timers.timer? index) :
    other.Front order next :=
  ⟨head.trans front.head, front.chain.congr same⟩

theorem Rear.congr {other : Timers α} {order : List Nat} {prev : Option Nat}
    (rear : timers.Rear prev order) (tail : other.tail = timers.tail)
    (same : ∀ index ∈ order, other.timer? index = timers.timer? index) :
    other.Rear prev order :=
  ⟨tail.trans rear.tail, rear.chain.congr same⟩

/-- The front part reaches up to a cell that leads on. -/
theorem Front.snoc {order : List Nat} {index : Nat} {next : Option Nat}
    (front : timers.Front order (some index))
    (own : ∃ timer, timers.timer? index = some timer ∧ timer.prev = order.getLast? ∧
      timer.next = next) : timers.Front (order ++ [index]) next := by
  obtain ⟨timer, present, back, forward⟩ := own
  constructor
  · rw [front.head, List.head?_append]
    cases order <;> rfl
  · apply chain_append.2
    refine ⟨front.chain, ⟨timer, present, ?_, ?_⟩, trivial⟩
    · rw [back, Option.or_none]
    · rw [forward]
      rfl

/-! ## Operations on links -/

/-- A placed timer that is put between two neighbours is in the list. -/
theorem Linked.insert {front behind : List Nat} {index : Nat} {timer : Timer α}
    (linked : timers.Linked (front ++ behind)) (present : timers.timer? index = some timer)
    (absent : index ∉ front ++ behind) :
    ∃ next, timers.linkBetween? index front.getLast? behind.head? = some next ∧
      next.Linked (front ++ index :: behind) ∧ Relinked timers next := by
  obtain ⟨nodup, first, last⟩ := linked_append.1 linked
  obtain ⟨notFront, notBehind⟩ := not_or.1 (mt List.mem_append.2 absent)
  obtain ⟨nodupFront, nodupBehind, apart⟩ := List.nodup_append.1 nodup
  -- The timer gets its links, then the cell before it, then the one behind it.
  obtain ⟨own, set, change⟩ := update?_spec present
    fun timer => { timer with prev := front.getLast?, next := behind.head? }
  have beside (order : List Nat) (absent : index ∉ order) (other : Nat) (member : other ∈ order) :
      own.timer? other = timers.timer? other := by
    apply change.others
    intro same
    exact absent (same ▸ member)
  obtain ⟨forward, ahead, leads, relinked, tail, others⟩ :=
    (first.congr change.head (beside front notFront)).link nodupFront (some index)
  have rear : forward.Rear front.getLast? behind := by
    apply last.congr (tail.trans change.tail)
    intro other member
    rw [others other fun early => apart other early other member rfl]
    exact beside behind notBehind other member
  obtain ⟨next, back, returns, relinkedBack, head, othersBack⟩ := rear.link nodupBehind (some index)
  refine ⟨next, ?_, ?_, ?_⟩
  · simp only [linkBetween?, set, Option.bind_eq_bind, Option.bind_some, ahead, back]
  · have fixed : next.timer? index = own.timer? index :=
      (othersBack index notBehind).trans (others index notFront)
    have whole : next.Front (front ++ [index]) behind.head? := by
      apply Front.snoc
      · apply leads.congr head
        intro other member
        exact othersBack other fun late => apart other member other late rfl
      · exact ⟨_, fixed.trans change.own, rfl, rfl⟩
    have order : front ++ index :: behind = (front ++ [index]) ++ behind := by simp
    rw [order]
    refine linked_append.2 ⟨?_, whole, ?_⟩
    · rw [← order]
      exact (List.nodup_middle.2 (List.nodup_cons.2 ⟨absent, nodup⟩))
    · rw [List.getLast?_concat]
      exact returns
  · exact ((change.relinked present ⟨rfl, rfl⟩).trans relinked).trans relinkedBack

/-- A timer that is taken out of the list leaves its neighbours linked. -/
theorem Linked.unlink {front behind : List Nat} {index : Nat}
    (linked : timers.Linked (front ++ index :: behind)) :
    ∃ next, timers.unlink? index = some next ∧ next.Linked (front ++ behind) ∧
      Relinked timers next := by
  have parts := List.nodup_middle.1 linked.nodup
  obtain ⟨absent, nodup⟩ := List.nodup_cons.1 parts
  obtain ⟨notFront, notBehind⟩ := not_or.1 (mt List.mem_append.2 absent)
  obtain ⟨nodupFront, nodupBehind, apart⟩ := List.nodup_append.1 nodup
  obtain ⟨-, first, last⟩ := linked_append.1 linked
  obtain ⟨⟨timer, present, back, forth⟩, chain⟩ := last.chain
  rw [Option.or_none] at forth
  have rear : timers.Rear (some index) behind := by
    refine ⟨?_, chain⟩
    rw [last.tail, List.getLast?_cons]
    cases behind.getLast? <;> rfl
  obtain ⟨alone, cleared, change⟩ := update?_spec present
    fun timer => { timer with prev := none, next := none }
  have beside (order : List Nat) (absent : index ∉ order) (other : Nat) (member : other ∈ order) :
      alone.timer? other = timers.timer? other := by
    apply change.others
    intro same
    exact absent (same ▸ member)
  obtain ⟨forward, ahead, leads, relinked, tail, others⟩ :=
    (first.congr change.head (beside front notFront)).link nodupFront behind.head?
  have kept : forward.Rear (some index) behind := by
    apply rear.congr (tail.trans change.tail)
    intro other member
    rw [others other fun early => apart other early other member rfl]
    exact beside behind notBehind other member
  obtain ⟨next, returned, returns, relinkedBack, head, othersBack⟩ :=
    kept.link nodupBehind front.getLast?
  refine ⟨next, ?_, ?_, ?_⟩
  · simp only [unlink?, present, back, forth, Option.bind_eq_bind, Option.bind_some, cleared, ahead,
      returned]
  · refine linked_append.2 ⟨nodup, ?_, returns⟩
    apply leads.congr head
    intro other member
    exact othersBack other fun late => apart other member other late rfl
  · exact ((change.relinked present ⟨rfl, rfl⟩).trans relinked).trans relinkedBack

end FileServer.Timers
