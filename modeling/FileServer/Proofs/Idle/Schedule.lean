import FileServer.Proofs.Idle.Contents
import Mathlib.Data.List.Induction

/-!
# The list of timers is a sorted sequence

Whoever uses the list of timers need not know of cells, links and free cells: a list
of timers is a sequence of identifiers with deadlines and data.  Whatever is done to
a list that was empty at first, its links read forward and backward are the same
sequence, in which no deadline is followed by an earlier one, every cell is either
linked once or free once, and there are no more cells than timers ever waited at the
same time.  What an operation does to the sequence is said by `Acts`, which knows
nothing of cells; the operations never meet a broken link.
-/

namespace FileServer.Timers

variable {α : Type} {timers next : Timers α} {order : List Nat}

/-! ## The sequence of timers -/

/-- A timer as it is seen from outside: its name, its deadline and its data. -/
structure Waiting (α : Type) where
  id : TimerId
  expire : Nat
  data : α
  deriving DecidableEq, Repr

/-- The timer that waits in a cell. -/
def waiting? (timers : Timers α) (index : Nat) : Option (Waiting α) :=
  (timers.held? index).map fun entry => ⟨timers.idAt index, entry.1, entry.2⟩

/-- The timers in the order of the list. -/
def schedule? (timers : Timers α) : Option (List (Waiting α)) :=
  timers.order?.bind fun order => order.mapM timers.waiting?

/-- The cells of a chain that is followed backward.  The first number bounds the
steps. -/
def chainBack? (timers : Timers α) : Nat → Option Nat → Option (List Nat)
  | _, none => some []
  | 0, some _ => none
  | steps + 1, some index => do
      let timer ← timers.timer? index
      return index :: (← timers.chainBack? steps timer.prev)

/-- The cells of the list, from its end to its start. -/
def orderBack? (timers : Timers α) : Option (List Nat) :=
  timers.chainBack? timers.cells.size timers.tail

/-- A chain is what is met when its links are followed. -/
theorem Chain.chain? {prev : Option Nat} {steps : Nat} (chain : timers.Chain prev order none)
    (enough : order.length ≤ steps) : timers.chain? steps order.head? = some order := by
  induction order generalizing prev steps with
  | nil => simp [Timers.chain?]
  | cons index rest ih =>
      obtain ⟨⟨timer, present, -, forward⟩, chain⟩ := chain
      cases steps with
      | zero => simp at enough
      | succ steps =>
          have further := ih chain (Nat.le_of_succ_le_succ enough)
          rw [Option.or_none] at forward
          simp [Timers.chain?, present, forward, further]

/-- The links that lead back are followed from the end of the chain. -/
theorem Chain.chainBack? {behind : Option Nat} {steps : Nat}
    (chain : timers.Chain none order behind) (enough : order.length ≤ steps) :
    timers.chainBack? steps order.getLast? = some order.reverse := by
  induction order using List.reverseRecOn generalizing behind steps with
  | nil => simp [Timers.chainBack?]
  | append_singleton front index ih =>
      obtain ⟨chain, ⟨timer, present, back, -⟩, -⟩ := chain_append.1 chain
      rw [List.length_append] at enough
      cases steps with
      | zero => simp at enough
      | succ steps =>
          have further := ih chain (Nat.le_of_succ_le_succ enough)
          rw [Option.or_none] at back
          simp [Timers.chainBack?, present, back, further]

theorem Keeps.order? (keeps : timers.Keeps order) : timers.order? = some order := by
  have start := keeps.linked.front.head
  rw [Option.or_none] at start
  rw [Timers.order?, start]
  exact keeps.linked.front.chain.chain? (keeps.stocked.length_le keeps.linked.nodup)

theorem Keeps.orderBack? (keeps : timers.Keeps order) :
    timers.orderBack? = some order.reverse := by
  have final := keeps.linked.rear.tail
  rw [Option.or_none] at final
  rw [Timers.orderBack?, final]
  exact keeps.linked.front.chain.chainBack? (keeps.stocked.length_le keeps.linked.nodup)

/-- The timers that wait in some cells. -/
def along (timers : Timers α) (order : List Nat) : List (Waiting α) :=
  order.filterMap timers.waiting?

@[simp] theorem along_append (front behind : List Nat) :
    timers.along (front ++ behind) = timers.along front ++ timers.along behind :=
  List.filterMap_append

theorem waiting?_eq {index expire : Nat} {data : α}
    (entry : timers.held? index = some (expire, data)) :
    timers.waiting? index = some ⟨timers.idAt index, expire, data⟩ := by
  rw [waiting?, entry]
  rfl

theorem along_cons {index expire : Nat} {data : α}
    (entry : timers.held? index = some (expire, data)) (rest : List Nat) :
    timers.along (index :: rest) = ⟨timers.idAt index, expire, data⟩ :: timers.along rest :=
  List.filterMap_cons_some (waiting?_eq entry)

/-- The timers in some cells depend on these cells alone. -/
theorem along_congr (entry : ∀ index ∈ order, next.held? index = timers.held? index)
    (generation : ∀ index ∈ order, next.generation index = timers.generation index) :
    next.along order = timers.along order := by
  apply List.filterMap_congr
  intro index member
  rw [waiting?, waiting?, idAt, idAt, entry index member, generation index member]

theorem mem_along {timer : Waiting α} :
    timer ∈ timers.along order ↔ ∃ index ∈ order,
      timers.held? index = some (timer.expire, timer.data) ∧ timer.id = timers.idAt index := by
  obtain ⟨id, expire, data⟩ := timer
  simp only [along, waiting?, List.mem_filterMap, Option.map_eq_some_iff, Prod.exists,
    Waiting.mk.injEq]
  constructor
  · rintro ⟨index, member, _, _, entry, rfl, rfl, rfl⟩
    exact ⟨index, member, entry, rfl⟩
  · rintro ⟨index, member, entry, rfl⟩
    exact ⟨index, member, expire, data, entry, rfl, rfl, rfl⟩

/-- What holds of the deadlines of cells holds of the timers in them. -/
theorem forall_along (property : Nat → Prop)
    (each : ∀ index ∈ order, property (timers.expiry index)) :
    ∀ timer ∈ timers.along order, property timer.expire := by
  intro timer member
  obtain ⟨index, inside, entry, -⟩ := mem_along.1 member
  rw [← expiry_of_held? entry]
  exact each index inside

theorem Sorted.along (sorted : timers.Sorted order) :
    (timers.along order).Pairwise fun early late => early.expire ≤ late.expire := by
  apply List.Pairwise.filterMap _ _ sorted
  intro early late before first waits second follows
  obtain ⟨entry, held, rfl⟩ := Option.map_eq_some_iff.1 waits
  obtain ⟨other, found, rfl⟩ := Option.map_eq_some_iff.1 follows
  rwa [expiry_of_held? held, expiry_of_held? found] at before

/-- A timer waits in each of the cells. -/
theorem mapM_waiting? (present : ∀ index ∈ order, (timers.held? index).isSome) :
    order.mapM timers.waiting? = some (timers.along order) := by
  induction order with
  | nil => rfl
  | cons index rest ih =>
      obtain ⟨entry, held⟩ := Option.isSome_iff_exists.1 (present index List.mem_cons_self)
      have others := ih fun other member => present other (List.mem_cons_of_mem index member)
      rw [List.mapM_cons, along_cons held, waiting?_eq held, others]
      rfl

theorem Keeps.schedule? (keeps : timers.Keeps order) :
    timers.schedule? = some (timers.along order) := by
  rw [Timers.schedule?, keeps.order?, Option.bind_some]
  exact mapM_waiting? fun index => (keeps.stocked.occupied index).2

theorem length_along (present : ∀ index ∈ order, (timers.held? index).isSome) :
    (timers.along order).length = order.length := by
  rw [along, List.length_filterMap_eq_countP, List.countP_eq_length]
  intro index member
  rw [waiting?, Option.isSome_map]
  exact present index member

/-- The identifiers of the timers in some cells name these cells. -/
theorem indices_along (present : ∀ index ∈ order, (timers.held? index).isSome) :
    ((timers.along order).map Waiting.id).map TimerId.index = order := by
  induction order with
  | nil => rfl
  | cons index rest ih =>
      obtain ⟨entry, held⟩ := Option.isSome_iff_exists.1 (present index List.mem_cons_self)
      have others := ih fun other member => present other (List.mem_cons_of_mem index member)
      rw [along_cons held, List.map_cons, List.map_cons, others]
      rfl

/-- The timers in the order of the list are those whose identifiers mean something. -/
theorem Keeps.contains_iff (keeps : timers.Keeps order) {id : TimerId} :
    timers.contains id = true ↔ id ∈ (timers.along order).map Waiting.id := by
  rw [Timers.contains_iff, List.mem_map]
  constructor
  · rintro ⟨current, present⟩
    obtain ⟨entry, held⟩ := Option.isSome_iff_exists.1 present
    have inside := (keeps.stocked.occupied id.index).1 present
    have own : timers.idAt id.index = id := by rw [idAt, current]
    exact ⟨⟨id, entry.1, entry.2⟩, mem_along.2 ⟨id.index, inside, held, own.symm⟩, rfl⟩
  · rintro ⟨timer, member, rfl⟩
    obtain ⟨index, -, entry, name⟩ := mem_along.1 member
    rw [name]
    exact ⟨rfl, Option.isSome_iff_exists.2 ⟨_, entry⟩⟩

/-- The data found under an identifier are those of the timer with this name. -/
theorem Keeps.get?_eq_some_iff (keeps : timers.Keeps order) {id : TimerId} {data : α} :
    timers.get? id = some data ↔
      ∃ timer ∈ timers.along order, timer.id = id ∧ timer.data = data := by
  constructor
  · intro present
    have own := idAt_of_get? present
    rw [← own, get?_idAt, Option.map_eq_some_iff] at present
    obtain ⟨entry, held, rfl⟩ := present
    have inside := (keeps.stocked.occupied id.index).1 (Option.isSome_iff_exists.2 ⟨entry, held⟩)
    exact ⟨⟨id, entry.1, entry.2⟩, mem_along.2 ⟨id.index, inside, held, own.symm⟩, rfl, rfl⟩
  · rintro ⟨timer, member, rfl, rfl⟩
    obtain ⟨index, -, entry, name⟩ := mem_along.1 member
    rw [name, get?_idAt, entry]
    rfl

/-- The timers in the order of the list are those that are found under identifiers. -/
theorem Sound.schedule (sound : timers.Sound) :
    ∃ schedule, timers.schedule? = some schedule ∧ ∀ id data,
      timers.get? id = some data ↔ ∃ timer ∈ schedule, timer.id = id ∧ timer.data = data := by
  obtain ⟨order, keeps⟩ := sound
  exact ⟨timers.along order, keeps.schedule?, fun _ _ => keeps.get?_eq_some_iff⟩

theorem Keeps.nodup_ids (keeps : timers.Keeps order) :
    ((timers.along order).map Waiting.id).Nodup := by
  rw [Timers.along, List.map_filterMap]
  refine List.Nodup.filterMap ?_ keeps.linked.nodup
  intro first second id own other
  have index {place : Nat} (name : id ∈ (timers.waiting? place).map Waiting.id) :
      id.index = place := by
    obtain ⟨timer, waits, rfl⟩ := Option.map_eq_some_iff.1 name
    obtain ⟨entry, held, rfl⟩ := Option.map_eq_some_iff.1 waits
    rfl
  rw [← index own, ← index other]

/-! ## Clearing -/

/-- The cells of a chain are emptied one after the other. -/
theorem Stocked.releaseChain {prev : Option Nat} {steps : Nat} (stocked : timers.Stocked order)
    (chain : timers.Chain prev order none) (nodup : order.Nodup) (enough : order.length ≤ steps) :
    ∃ next, releaseChain? steps order.head? timers = some next ∧ next.Stocked [] ∧
      next.cells.size = timers.cells.size ∧
      (∀ index ∉ order, next.generation index = timers.generation index) ∧
      ∀ index ∈ order, next.generation index = (timers.generation index + 1) % generationBound := by
  induction order generalizing timers prev steps with
  | nil => exact ⟨timers, by simp [releaseChain?], stocked, rfl, fun _ _ => rfl, nofun⟩
  | cons index rest ih =>
      obtain ⟨⟨timer, present, -, forward⟩, chain⟩ := chain
      obtain ⟨absent, nodup⟩ := List.nodup_cons.1 nodup
      cases steps with
      | zero => simp at enough
      | succ steps =>
          obtain ⟨released, freed, refilled, stocked, cells, generation, renewed⟩ :=
            stocked.release absent present
          have others : released.Chain (some index) rest none := by
            apply chain.congr
            intro other member
            apply refilled.others
            intro same
            exact absent (same ▸ member)
          obtain ⟨next, cleared, empty, same, counted, further⟩ :=
            ih stocked others nodup (Nat.le_of_succ_le_succ enough)
          refine ⟨next, ?_, empty, same.trans cells, fun other outside => ?_,
            fun other inside => ?_⟩
          · rw [Option.or_none] at forward
            simp only [List.head?_cons, releaseChain?, freed, Option.bind_eq_bind, Option.bind_some,
              forward, cleared]
          · rw [List.mem_cons, not_or] at outside
            rw [counted other outside.2, generation other outside.1]
          · rcases List.mem_cons.1 inside with rfl | later
            · rw [counted _ absent, renewed]
            · rw [further other later, generation other fun equal => absent (equal ▸ later)]

/-- All timers can be removed. -/
theorem Keeps.clear (keeps : timers.Keeps order) :
    ∃ next, timers.clear? = some next ∧ next.Keeps [] ∧ next.cells.size = timers.cells.size ∧
      (∀ index ∉ order, next.generation index = timers.generation index) ∧
      ∀ index ∈ order, next.generation index = (timers.generation index + 1) % generationBound := by
  have start := keeps.linked.front.head
  rw [Option.or_none] at start
  obtain ⟨released, freed, stocked, cells, generations⟩ := keeps.stocked.releaseChain
    keeps.linked.front.chain keeps.linked.nodup (keeps.stocked.length_le keeps.linked.nodup)
  refine ⟨{ released with head := none, tail := none }, ?_, ?_, cells, generations⟩
  · simp only [clear?, start, freed, Option.bind_eq_bind, Option.bind_some]
    rfl
  · refine ⟨⟨List.nodup_nil, ⟨rfl, trivial⟩, ⟨rfl, trivial⟩⟩, ?_, List.Pairwise.nil⟩
    exact ⟨stocked.occupied, stocked.nodup, stocked.vacant, stocked.size⟩

/-! ## Operations on the sequence -/

/-- What can be done to a list of timers. -/
inductive Operation (α : Type) where
  | add (expire : Nat) (data : α)
  | adjust (id : TimerId) (expire : Nat)
  | delete (id : TimerId)
  | tick (now : Nat)
  | clear
  deriving Repr

/-- What an operation returns.  Firing hands out the timers and tells their number. -/
inductive Answer (α : Type) where
  | added (id : TimerId)
  | adjusted (present : Bool)
  | deleted (data : Option α)
  | fired (timers : List (TimerId × α)) (number : Nat)
  | cleared
  deriving Repr

/-- Does one operation. -/
def perform? (timers : Timers α) : Operation α → Option (Answer α × Timers α)
  | .add expire data => (timers.add? expire data).map fun (id, next) => (.added id, next)
  | .adjust id expire =>
      (timers.adjust? id expire).map fun (present, next) => (.adjusted present, next)
  | .delete id => (timers.delete? id).map fun (data, next) => (.deleted data, next)
  | .tick now =>
      (timers.fireAll? now).map fun (fired, count, next) => (.fired fired count, next)
  | .clear => timers.clear?.map fun next => (.cleared, next)

/-- Does operations one after the other. -/
def run? (timers : Timers α) (operations : List (Operation α)) : Option (Timers α) :=
  operations.foldlM (fun current operation => (current.perform? operation).map Prod.snd) timers

/-- What an operation does to the sequence of timers, and what it returns. -/
inductive Acts : List (Waiting α) → Operation α → Answer α → List (Waiting α) → Prop
  /-- A new timer comes behind all that expire no later, under a name that none of them has. -/
  | add {early late : List (Waiting α)} {id : TimerId} {expire : Nat} {data : α}
      (fresh : id ∉ (early ++ late).map Waiting.id)
      (before : ∀ timer ∈ early, timer.expire ≤ expire)
      (behind : ∀ timer ∈ late, expire < timer.expire) :
      Acts (early ++ late) (.add expire data) (.added id) (early ++ ⟨id, expire, data⟩ :: late)
  /-- A timer gets another deadline and another place, and all others stay as they are. -/
  | adjust {front behind early late : List (Waiting α)} {timer : Waiting α} {expire : Nat}
      (others : front ++ behind = early ++ late) :
      Acts (front ++ timer :: behind) (.adjust timer.id expire) (.adjusted true)
        (early ++ { timer with expire } :: late)
  | adjustGone {schedule : List (Waiting α)} {id : TimerId} {expire : Nat}
      (gone : id ∉ schedule.map Waiting.id) :
      Acts schedule (.adjust id expire) (.adjusted false) schedule
  | delete {front behind : List (Waiting α)} {timer : Waiting α} :
      Acts (front ++ timer :: behind) (.delete timer.id) (.deleted (some timer.data))
        (front ++ behind)
  | deleteGone {schedule : List (Waiting α)} {id : TimerId} (gone : id ∉ schedule.map Waiting.id) :
      Acts schedule (.delete id) (.deleted none) schedule
  /-- The timers that are due are those in front. -/
  | tick {due left : List (Waiting α)} {now : Nat} (past : ∀ timer ∈ due, timer.expire ≤ now)
      (ahead : ∀ timer ∈ left, now < timer.expire) :
      Acts (due ++ left) (.tick now)
        (.fired (due.map fun timer => (timer.id, timer.data)) due.length) left
  | clear {schedule : List (Waiting α)} : Acts schedule .clear .cleared []

/-- The timers in cells that an operation leaves alone. -/
theorem along_except {index : Nat} (absent : index ∉ order)
    (entry : ∀ other, other ≠ index → next.held? other = timers.held? other)
    (generation : ∀ other, other ≠ index → next.generation other = timers.generation other) :
    next.along order = timers.along order := by
  have apart {other : Nat} (member : other ∈ order) : other ≠ index := by
    intro same
    exact absent (same ▸ member)
  exact along_congr (fun other member => entry other (apart member))
    fun other member => generation other (apart member)

theorem Keeps.perform_add (keeps : timers.Keeps order) (expire : Nat) (data : α) :
    ∃ answer next after, timers.perform? (.add expire data) = some (answer, next) ∧
      next.Keeps after ∧ next.cells.size ≤ max timers.cells.size next.size ∧
      Acts (timers.along order) (.add expire data) answer (next.along after) := by
  obtain ⟨early, late, index, next, rfl, absent, added, kept, own, others, generations, before,
    behind, cells⟩ := keeps.add expire data
  refine ⟨_, next, _, by rw [perform?, added]; rfl, kept, cells, ?_⟩
  obtain ⟨notEarly, notLate⟩ := not_or.1 (mt List.mem_append.2 absent)
  have name : next.idAt index = timers.idAt index := by rw [idAt, idAt, generations]
  rw [along_append, along_append, along_cons own, name,
    along_except notEarly others fun other _ => generations other,
    along_except notLate others fun other _ => generations other]
  refine .add ?_ (forall_along (· ≤ expire) before) (forall_along (expire < ·) ?_)
  · rw [← along_append]
    intro member
    obtain ⟨timer, inside, same⟩ := List.mem_map.1 member
    obtain ⟨other, place, -, own⟩ := mem_along.1 inside
    have place' : other = index := congrArg TimerId.index (own.symm.trans same)
    exact absent (place' ▸ place)
  · have sorted : timers.Sorted late := (List.pairwise_append.1 keeps.sorted).2.1
    exact sorted.beyond behind

/-- The deadline of the first of the timers that wait in some cells. -/
theorem head?_along (present : ∀ index ∈ order, (timers.held? index).isSome) :
    (timers.along order).head?.map Waiting.expire = order.head?.map timers.expiry := by
  cases order with
  | nil => rfl
  | cons index rest =>
      obtain ⟨entry, held⟩ := Option.isSome_iff_exists.1 (present index List.mem_cons_self)
      rw [along_cons held]
      exact congrArg some (expiry_of_held? held).symm

/-- A timer that is waiting gets its new deadline and its place. -/
theorem Keeps.adjust_along (keeps : timers.Keeps order) {id : TimerId}
    (present : timers.contains id = true) (expire : Nat) :
    ∃ front timer behind early late next after, timer.id = id ∧
      timers.along order = front ++ timer :: behind ∧ front ++ behind = early ++ late ∧
      timers.perform? (.adjust id expire) = some (.adjusted true, next) ∧ next.Keeps after ∧
      next.cells.size = timers.cells.size ∧
      next.along after = early ++ { timer with expire } :: late ∧
      Placed Waiting.expire timer.expire expire front behind early late := by
  obtain ⟨front, behind, before, after, old, data, next, rfl, parts, entry, adjusted, kept, own,
    others, generations, cells, placed⟩ := keeps.adjust present expire
  have absent := (List.nodup_cons.1 (List.nodup_middle.1 keeps.linked.nodup)).1
  have whole : next.along before ++ next.along after =
      timers.along front ++ timers.along behind := by
    rw [← along_append, ← along_append, ← parts,
      along_except absent others fun other _ => generations other]
  have name : timers.idAt id.index = id := by rw [idAt, (Timers.contains_iff.1 present).1]
  have same : next.idAt id.index = id := by rw [idAt, generations, ← idAt, name]
  refine ⟨timers.along front, ⟨id, old, data⟩, timers.along behind, next.along before,
    next.along after, next, _, rfl, ?_, whole.symm, by rw [perform?, adjusted]; rfl, kept, cells, ?_,
    ?_⟩
  · rw [along_append, along_cons entry, name]
  · rw [along_append, along_cons own, same]
  · have waits (index : Nat) (member : index ∈ front ++ id.index :: behind) :=
      (keeps.stocked.occupied index).2 member
    have remain {cells : List Nat} (inside : cells ⊆ front ++ behind) :
        next.along cells = timers.along cells :=
      along_except (fun member => absent (inside member)) others fun other _ => generations other
    have settled {cells : List Nat} (inside : cells ⊆ front ++ behind) :
        (timers.along cells).head?.map Waiting.expire = cells.head?.map timers.expiry := by
      refine head?_along fun index member => waits index ?_
      exact List.mem_append.2 ((List.mem_append.1 (inside member)).imp_right
        (List.mem_cons_of_mem id.index))
    have left : before ⊆ front ++ behind := parts ▸ List.subset_append_left before after
    have right : after ⊆ front ++ behind := parts ▸ List.subset_append_right before after
    rw [Placed, remain left, remain right, settled (List.subset_append_right front behind),
      settled right]
    rcases placed with ⟨rfl, rfl, stays⟩ | moves
    · exact .inl ⟨rfl, rfl, stays⟩
    · exact .inr moves

theorem Keeps.perform_adjust (keeps : timers.Keeps order) (id : TimerId) (expire : Nat) :
    ∃ answer next after, timers.perform? (.adjust id expire) = some (answer, next) ∧
      next.Keeps after ∧ next.cells.size = timers.cells.size ∧
      Acts (timers.along order) (.adjust id expire) answer (next.along after) := by
  cases present : timers.contains id with
  | false =>
      refine ⟨.adjusted false, timers, order, by simp [perform?, adjust?, present], keeps, rfl, ?_⟩
      exact .adjustGone (by simp [← keeps.contains_iff, present])
  | true =>
      obtain ⟨front, timer, behind, early, late, next, after, rfl, whole, others, done, kept, cells,
        result, -⟩ := keeps.adjust_along present expire
      refine ⟨_, next, after, done, kept, cells, ?_⟩
      rw [whole, result]
      exact .adjust others

theorem Keeps.perform_delete (keeps : timers.Keeps order) (id : TimerId) :
    ∃ answer next after, timers.perform? (.delete id) = some (answer, next) ∧
      next.Keeps after ∧ next.cells.size = timers.cells.size ∧
      Acts (timers.along order) (.delete id) answer (next.along after) := by
  cases present : timers.contains id with
  | false =>
      refine ⟨.deleted none, timers, order, by simp [perform?, delete?, present], keeps, rfl, ?_⟩
      exact .deleteGone (by simp [← keeps.contains_iff, present])
  | true =>
      obtain ⟨front, behind, expire, data, next, rfl, entry, deleted, kept, others, generations,
        cells, -⟩ := keeps.delete present
      refine ⟨_, next, _, by rw [perform?, deleted]; rfl, kept, cells, ?_⟩
      have absent := (List.nodup_cons.1 (List.nodup_middle.1 keeps.linked.nodup)).1
      have name : timers.idAt id.index = id := by rw [idAt, (Timers.contains_iff.1 present).1]
      rw [along_except absent others generations, along_append, along_append, along_cons entry,
        name]
      exact .delete

/-- What is handed out when the timers in some cells fire. -/
theorem filterMap_named? (timers : Timers α) (order : List Nat) :
    order.filterMap timers.named? =
      (timers.along order).map fun timer => (timer.id, timer.data) := by
  rw [along, List.map_filterMap]
  apply List.filterMap_congr
  intro index _
  rw [named?, waiting?, Option.map_map]
  rfl

theorem Keeps.perform_tick (keeps : timers.Keeps order) (now : Nat) :
    ∃ answer next after, timers.perform? (.tick now) = some (answer, next) ∧
      next.Keeps after ∧ next.cells.size = timers.cells.size ∧
      Acts (timers.along order) (.tick now) answer (next.along after) := by
  obtain ⟨due, left, next, rfl, fired, kept, past, ahead, others, generations, cells, -⟩ :=
    keeps.fire now (keeps.stocked.length_le keeps.linked.nodup) 0
  refine ⟨_, next, left, by rw [perform?, fireAll?, fired]; rfl, kept, cells, ?_⟩
  have apart := (List.nodup_append.1 keeps.linked.nodup).2.2
  have outside {index : Nat} (member : index ∈ left) : index ∉ due := by
    intro inside
    exact apart index inside index member rfl
  have same : next.along left = timers.along left :=
    along_congr (fun index member => others index (outside member))
      fun index member => generations index (outside member)
  have number : (timers.along due).length = due.length :=
    length_along fun index member =>
      (keeps.stocked.occupied index).2 (List.mem_append_left left member)
  rw [along_append, same, filterMap_named?, Nat.zero_add, ← number]
  refine .tick (forall_along (· ≤ now) past) (forall_along (now < ·) ?_)
  have sorted : timers.Sorted left := (List.pairwise_append.1 keeps.sorted).2.1
  exact sorted.beyond ahead

/-- Every operation comes to an end, keeps the list in order, and acts as it should. -/
theorem Keeps.perform (keeps : timers.Keeps order) (operation : Operation α) :
    ∃ answer next after, timers.perform? operation = some (answer, next) ∧
      next.Keeps after ∧ next.cells.size ≤ max timers.cells.size next.size ∧
      Acts (timers.along order) operation answer (next.along after) := by
  have bounded {next : Timers α} (cells : next.cells.size = timers.cells.size) :
      next.cells.size ≤ max timers.cells.size next.size :=
    cells ▸ Nat.le_max_left _ _
  cases operation with
  | add expire data => exact keeps.perform_add expire data
  | adjust id expire =>
      obtain ⟨answer, next, after, done, kept, cells, acts⟩ := keeps.perform_adjust id expire
      exact ⟨answer, next, after, done, kept, bounded cells, acts⟩
  | delete id =>
      obtain ⟨answer, next, after, done, kept, cells, acts⟩ := keeps.perform_delete id
      exact ⟨answer, next, after, done, kept, bounded cells, acts⟩
  | tick now =>
      obtain ⟨answer, next, after, done, kept, cells, acts⟩ := keeps.perform_tick now
      exact ⟨answer, next, after, done, kept, bounded cells, acts⟩
  | clear =>
      obtain ⟨next, cleared, kept, cells, -⟩ := keeps.clear
      exact ⟨.cleared, next, [], by rw [perform?, cleared]; rfl, kept, bounded cells, .clear⟩

/-! ## Any operations -/

/-- Links, cells, size and identifiers of a list of timers agree with a sequence. -/
structure Represents (timers : Timers α) (schedule : List (Waiting α)) : Prop where
  /-- Both directions of the links lead through the same cells, each of them once. -/
  links : ∃ order, timers.order? = some order ∧ timers.orderBack? = some order.reverse ∧
    (order ++ timers.free).Perm (List.range timers.cells.size)
  waiting : timers.schedule? = some schedule
  sorted : schedule.Pairwise fun early late => early.expire ≤ late.expire
  size : timers.size = schedule.length
  ids : (schedule.map Waiting.id).Nodup
  contains : ∀ id, timers.contains id = true ↔ id ∈ schedule.map Waiting.id

theorem Keeps.represents (keeps : timers.Keeps order) : timers.Represents (timers.along order) where
  links := by
    refine ⟨order, keeps.order?, keeps.orderBack?, ?_⟩
    have apart : ∀ index ∈ order, ∀ other ∈ timers.free, index ≠ other := by
      rintro index member _ free rfl
      exact ((keeps.stocked.vacant index).1 free).2 member
    have nodup := List.nodup_append.2 ⟨keeps.linked.nodup, keeps.stocked.nodup, apart⟩
    refine (List.perm_ext_iff_of_nodup nodup List.nodup_range).2 fun index => ?_
    rw [List.mem_append, List.mem_range, keeps.stocked.vacant]
    constructor
    · rintro (member | ⟨inside, -⟩)
      · obtain ⟨timer, present⟩ := keeps.stocked.timer? member
        exact index_lt present
      · exact inside
    · intro inside
      by_cases member : index ∈ order
      · exact .inl member
      · exact .inr ⟨inside, member⟩
  waiting := keeps.schedule?
  sorted := keeps.sorted.along
  size := keeps.stocked.size.trans
    (length_along fun index => (keeps.stocked.occupied index).2).symm
  ids := keeps.nodup_ids
  contains _ := keeps.contains_iff

theorem run?_concat (operations : List (Operation α)) (operation : Operation α) :
    timers.run? (operations ++ [operation]) =
      (timers.run? operations).bind fun current => (current.perform? operation).map Prod.snd := by
  simp [run?, List.foldlM_append]

/-- A list that was empty at first is in order whatever was done to it, and has no
more cells than timers waited at some time. -/
theorem keeps_of_run? (operations : List (Operation α)) :
    ∃ timers order, (empty : Timers α).run? operations = some timers ∧ timers.Keeps order ∧
      ∃ earlier before, earlier <+: operations ∧ (empty : Timers α).run? earlier = some before ∧
        timers.cells.size ≤ before.size := by
  induction operations using List.reverseRecOn with
  | nil => exact ⟨empty, [], rfl, keeps_empty, [], empty, List.prefix_refl [], rfl, Nat.le_refl 0⟩
  | append_singleton operations operation ih =>
      obtain ⟨timers, order, ran, keeps, earlier, before, sooner, reached, cells⟩ := ih
      obtain ⟨answer, next, after, done, kept, grown, -⟩ := keeps.perform operation
      have whole : (empty : Timers α).run? (operations ++ [operation]) = some next := by
        rw [run?_concat, ran, Option.bind_some, done]
        rfl
      refine ⟨next, after, whole, kept, ?_⟩
      -- Either the cells are no more than before, or all of them are in use just now.
      have either : next.cells.size ≤ timers.cells.size ∨ next.cells.size ≤ next.size := by omega
      rcases either with same | full
      · exact ⟨earlier, before, sooner.trans (List.prefix_append operations [operation]), reached,
          Nat.le_trans same cells⟩
      · exact ⟨_, next, List.prefix_refl _, whole, full⟩

/-- Whatever was done to a list of timers that was empty at first, it represents a
sorted sequence of timers, its cells are no more than the timers that waited at some
time, and whatever is done next acts on this sequence as it should. -/
theorem run?_refines (operations : List (Operation α)) :
    ∃ timers schedule, (empty : Timers α).run? operations = some timers ∧
      timers.Represents schedule ∧
      (∃ earlier before, earlier <+: operations ∧ (empty : Timers α).run? earlier = some before ∧
        timers.cells.size ≤ before.size) ∧
      ∀ operation, ∃ answer next after, timers.perform? operation = some (answer, next) ∧
        next.schedule? = some after ∧ Acts schedule operation answer after := by
  obtain ⟨timers, order, ran, keeps, bounded⟩ := keeps_of_run? operations
  refine ⟨timers, timers.along order, ran, keeps.represents, bounded, fun operation => ?_⟩
  obtain ⟨answer, next, after, done, kept, -, acts⟩ := keeps.perform operation
  exact ⟨answer, next, next.along after, done, kept.schedule?, acts⟩

/-- The second timer moves behind the first one, which fires; its cell is used again for
a timer of the same deadline as the second. -/
example : ((empty : Timers Nat).run? [.add 5 0, .add 1 1, .adjust ⟨1, 0⟩ 9, .tick 5, .add 9 2]).bind
    schedule? = some [⟨⟨1, 0⟩, 9, 1⟩, ⟨⟨0, 1⟩, 9, 2⟩] := by
  decide +kernel

end FileServer.Timers
