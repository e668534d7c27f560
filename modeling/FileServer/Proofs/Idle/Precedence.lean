import FileServer.Proofs.Idle.Chronicle

/-!
# The order of timers with one deadline

Among timers with one deadline the sequence shows in which order they were given it.  A
timer is given its deadline when it is added, and again whenever it gets another one.
Whoever is given a deadline comes behind all timers that have it already, but for one
way to push in: a timer stays where it is if the timer right behind it has just the
deadline that it is given, and then it comes before all timers with that deadline.

So the order is that of the arrivals, backward where the later one has pushed in, and it
is the order in which the timers fire.
-/

namespace FileServer.Timers

variable {α : Type} {timers next : Timers α} {order : List Nat}

/-! ## Arrivals -/

/-- A timer and those behind it. -/
def startingAt (schedule : List (Waiting α)) (id : TimerId) : List (Waiting α) :=
  schedule.dropWhile fun timer => timer.id ≠ id

namespace Moment

/-- Whether an operation has given a timer a deadline that it did not have. -/
def gives (moment : Moment α) (id : TimerId) : Bool :=
  match moment.operation, moment.answer with
  | .add _ _, .added own => own = id
  | .adjust own expire, .adjusted true =>
      own = id ∧ (startingAt moment.before own).head?.map Waiting.expire ≠ some expire
  | _, _ => false

/-- Whether an operation gives a timer the deadline of the timer right behind it. -/
def pushesIn (moment : Moment α) : Bool :=
  match moment.operation with
  | .adjust id expire => (startingAt moment.before id).tail.head?.map Waiting.expire = some expire
  | _ => false

end Moment

/-- How a timer came to its deadline: the number of operations before, and whether it was
given the deadline of the timer right behind it. -/
structure Arrival where
  turn : Nat
  pushesIn : Bool
  deriving DecidableEq, Repr

/-- Of two timers with one deadline, the one that arrived later comes behind the other,
unless it has pushed in. -/
def Arrival.Precedes (first second : Arrival) : Prop :=
  first.turn < second.turn ∧ second.pushesIn = false ∨
    second.turn < first.turn ∧ first.pushesIn = true

/-- The last operation that gave a timer its deadline. -/
def arrival? : List (Moment α) → TimerId → Option Arrival
  | [], _ => none
  | moment :: earlier, id =>
      if moment.gives id then some ⟨earlier.length, moment.pushesIn⟩ else arrival? earlier id

theorem arrival?_of_gives {moment : Moment α} {id : TimerId} (gives : moment.gives id = true)
    (past : List (Moment α)) :
    arrival? (moment :: past) id = some ⟨past.length, moment.pushesIn⟩ :=
  if_pos gives

theorem arrival?_of_not_gives {moment : Moment α} {id : TimerId}
    (quiet : moment.gives id = false) (past : List (Moment α)) :
    arrival? (moment :: past) id = arrival? past id :=
  if_neg (Bool.eq_false_iff.1 quiet)

theorem startingAt_append {front behind : List (Waiting α)} {timer : Waiting α}
    (absent : timer.id ∉ front.map Waiting.id) :
    startingAt (front ++ timer :: behind) timer.id = timer :: behind := by
  rw [startingAt, List.dropWhile_append_of_pos, List.dropWhile_cons_of_neg (by simp)]
  intro other member
  simp only [ne_eq, decide_not, Bool.not_eq_true', decide_eq_false_iff_not]
  intro same
  exact absent (same ▸ List.mem_map_of_mem member)

/-! ## The order of arrivals -/

/-- Timers with one deadline stand in the order in which they arrived, but for those that
have pushed in. -/
structure Fair (past : List (Moment α)) (schedule : List (Waiting α)) : Prop where
  arrived : ∀ timer ∈ schedule, ∃ arrival, arrival? past timer.id = some arrival ∧
    arrival.turn < past.length
  ordered : schedule.Pairwise fun first second => first.expire = second.expire →
    ∀ early ∈ arrival? past first.id, ∀ late ∈ arrival? past second.id, early.Precedes late

/-- Whoever goes leaves the others in order. -/
theorem Fair.thin {past : List (Moment α)} {moment : Moment α} {schedule left : List (Waiting α)}
    (fair : Fair past schedule) (part : left.Sublist schedule)
    (quiet : ∀ id, moment.gives id = false) : Fair (moment :: past) left where
  arrived timer member := by
    obtain ⟨arrival, found, turn⟩ := fair.arrived timer (part.subset member)
    exact ⟨arrival, by rw [arrival?_of_not_gives (quiet _), found], Nat.lt_succ_of_lt turn⟩
  ordered := by
    refine (fair.ordered.sublist part).imp fun ordered => ?_
    simpa only [arrival?_of_not_gives (quiet _)] using ordered

/-- Whoever arrives comes behind those that have its deadline, or pushes in before
them. -/
theorem Fair.place {past : List (Moment α)} {moment : Moment α} {early late : List (Waiting α)}
    {timer : Waiting α} (fair : Fair past (early ++ late)) (gives : moment.gives timer.id = true)
    (quiet : ∀ other ∈ early ++ late, moment.gives other.id = false)
    (before : ∀ other ∈ early, other.expire = timer.expire → moment.pushesIn = false)
    (behind : ∀ other ∈ late, timer.expire = other.expire → moment.pushesIn = true) :
    Fair (moment :: past) (early ++ timer :: late) := by
  have own := arrival?_of_gives gives past
  have kept (other : Waiting α) (member : other ∈ early ++ late) :
      arrival? (moment :: past) other.id = arrival? past other.id :=
    arrival?_of_not_gives (quiet other member) past
  have earlier {other : Waiting α} (member : other ∈ early ++ late) {arrival : Arrival}
      (found : arrival ∈ arrival? (moment :: past) other.id) : arrival.turn < past.length := by
    obtain ⟨known, same, turn⟩ := fair.arrived other member
    rw [kept other member, same] at found
    cases found
    exact turn
  have others : (early ++ late).Pairwise fun first second => first.expire = second.expire →
      ∀ early ∈ arrival? (moment :: past) first.id, ∀ late ∈ arrival? (moment :: past) second.id,
        early.Precedes late := by
    refine fair.ordered.imp_of_mem ?_
    intro first second inside present ordered
    rwa [kept first inside, kept second present]
  obtain ⟨front, rear, across⟩ := List.pairwise_append.1 others
  constructor
  · intro other member
    rcases List.mem_cons.1 (List.perm_middle.mem_iff.1 member) with rfl | member
    · exact ⟨_, own, Nat.lt_succ_self _⟩
    · obtain ⟨arrival, found, turn⟩ := fair.arrived other member
      exact ⟨arrival, by rw [kept other member, found], Nat.lt_succ_of_lt turn⟩
  · refine List.pairwise_append.2 ⟨front, List.pairwise_cons.2 ⟨?_, rear⟩, ?_⟩
    · intro other member same first mine second yours
      cases own.symm.trans mine
      exact .inr ⟨earlier (List.mem_append_right early member) yours, behind other member same⟩
    · intro other member following beside same first mine second yours
      rcases List.mem_cons.1 beside with rfl | further
      · cases own.symm.trans yours
        exact .inl ⟨earlier (List.mem_append_left late member) mine, before other member same⟩
      · exact across other member following further same first mine second yours

/-! ## Operations -/

/-- In a sorted sequence, whoever comes behind the first that is later is later too. -/
theorem later_of_head? {late : List (Waiting α)} {expire : Nat}
    (sorted : late.Pairwise fun first second => first.expire ≤ second.expire)
    (beyond : ∀ deadline ∈ late.head?.map Waiting.expire, expire < deadline) :
    ∀ other ∈ late, expire < other.expire := by
  cases late with
  | nil => exact nofun
  | cons head rest =>
      have first := beyond head.expire rfl
      intro other member
      rcases List.mem_cons.1 member with rfl | further
      · exact first
      · exact Nat.lt_of_lt_of_le first ((List.pairwise_cons.1 sorted).1 other further)

/-- A timer that gets another deadline is in order with it wherever it is put. -/
theorem Fair.adjust {past : List (Moment α)} {moment : Moment α}
    {front behind early late : List (Waiting α)} {timer : Waiting α} {expire : Nat}
    (fair : Fair past (front ++ timer :: behind))
    (absent : timer.id ∉ (front ++ behind).map Waiting.id)
    (gives : ∀ other, moment.gives other = true ↔ timer.id = other ∧ timer.expire ≠ expire)
    (pushes : moment.pushesIn = true ↔ behind.head?.map Waiting.expire = some expire)
    (parts : front ++ behind = early ++ late)
    (sorted : (front ++ timer :: behind).Pairwise fun first second => first.expire ≤ second.expire)
    (resorted : late.Pairwise fun first second => first.expire ≤ second.expire)
    (placed : Placed Waiting.expire timer.expire expire front behind early late) :
    Fair (moment :: past) (early ++ { timer with expire } :: late) := by
  have quiet (other : Waiting α) (member : other ∈ front ++ behind) :
      moment.gives other.id = false := by
    rw [Bool.eq_false_iff, ne_eq, gives]
    rintro ⟨same, -⟩
    exact absent (same ▸ List.mem_map_of_mem member)
  have rest : Fair past (front ++ behind) :=
    ⟨fun other member => fair.arrived other
        (List.perm_middle.mem_iff.2 (List.mem_cons_of_mem timer member)),
      fair.ordered.sublist (List.Sublist.append_left (List.sublist_cons_self timer behind) front)⟩
  rcases placed with ⟨rfl, rfl, stays⟩ | ⟨differ, apart, beyond⟩
  · by_cases unchanged : timer.expire = expire
    · subst unchanged
      refine fair.thin (List.Sublist.refl _) fun other => ?_
      rw [Bool.eq_false_iff, ne_eq, gives]
      exact fun given => given.2 rfl
    · have pushed := stays.resolve_left unchanged
      refine rest.place ((gives timer.id).2 ⟨rfl, unchanged⟩) quiet ?_
        fun _ _ _ => pushes.2 pushed
      -- Those before it expire no later than it did, and it expires later now.
      intro other member same
      obtain ⟨-, ordered, across⟩ := List.pairwise_append.1 sorted
      obtain ⟨neighbour, leads, equal⟩ := Option.map_eq_some_iff.1 pushed
      have first := across other member timer List.mem_cons_self
      have second := (List.pairwise_cons.1 ordered).1 neighbour (List.mem_of_mem_head? leads)
      dsimp only at same
      omega
  · refine Fair.place (parts ▸ rest) ((gives timer.id).2 ⟨rfl, differ⟩) (parts ▸ quiet)
      (fun _ _ _ => Bool.eq_false_iff.2 (mt pushes.1 apart)) ?_
    intro other member same
    exact absurd same (Nat.ne_of_lt (later_of_head? resorted beyond other member))

theorem Keeps.fair_adjust (keeps : timers.Keeps order) {past : List (Moment α)}
    (fair : Fair past (timers.along order)) (id : TimerId) (expire : Nat) :
    ∃ answer next after, timers.perform? (.adjust id expire) = some (answer, next) ∧
      next.Keeps after ∧
      Fair (⟨timers.along order, .adjust id expire, answer⟩ :: past) (next.along after) := by
  cases present : timers.contains id with
  | false =>
      refine ⟨.adjusted false, timers, order, by simp [perform?, adjust?, present], keeps, ?_⟩
      exact fair.thin (List.Sublist.refl _) fun _ => rfl
  | true =>
      obtain ⟨front, timer, behind, early, late, next, after, rfl, whole, parts, done, kept, -,
        result, placed⟩ := keeps.adjust_along present expire
      refine ⟨_, next, after, done, kept, ?_⟩
      have nodup := keeps.nodup_ids
      have sorted := keeps.sorted.along
      have resorted := kept.sorted.along
      rw [whole] at fair nodup sorted ⊢
      rw [result] at resorted ⊢
      rw [List.map_append, List.map_cons] at nodup
      have absent := (List.nodup_cons.1 (List.nodup_middle.1 nodup)).1
      have found : startingAt (front ++ timer :: behind) timer.id = timer :: behind :=
        startingAt_append fun member => absent (List.mem_append_left _ member)
      rw [← List.map_append] at absent
      exact fair.adjust absent (fun other => by simp [Moment.gives, found])
        (by simp [Moment.pushesIn, found]) parts sorted
        (List.pairwise_cons.1 (List.pairwise_append.1 resorted).2.1).2 placed

/-- Every operation leaves timers with one deadline in the order of their arrivals. -/
theorem Keeps.fair (keeps : timers.Keeps order) {past : List (Moment α)}
    (fair : Fair past (timers.along order)) (operation : Operation α) :
    ∃ answer next after, timers.perform? operation = some (answer, next) ∧ next.Keeps after ∧
      Fair (⟨timers.along order, operation, answer⟩ :: past) (next.along after) := by
  cases operation with
  | adjust id expire => exact keeps.fair_adjust fair id expire
  | add expire data =>
      obtain ⟨answer, next, after, done, kept, -, acts⟩ := keeps.perform (.add expire data)
      refine ⟨answer, next, after, done, kept, ?_⟩
      generalize timers.along order = schedule, next.along after = result at fair acts ⊢
      cases acts with
      | @add early late id _ _ fresh before behind =>
          refine fair.place (by simp [Moment.gives]) ?_ (fun _ _ _ => rfl) ?_
          · intro other member
            simp only [Moment.gives, decide_eq_false_iff_not]
            intro same
            exact fresh (same ▸ List.mem_map_of_mem member)
          · intro other member same
            have := behind other member
            dsimp only at same
            omega
  | delete id =>
      obtain ⟨answer, next, after, done, kept, -, acts⟩ := keeps.perform (.delete id)
      refine ⟨answer, next, after, done, kept, ?_⟩
      generalize timers.along order = schedule, next.along after = result at fair acts ⊢
      cases acts with
      | @delete front behind timer =>
          exact fair.thin (List.Sublist.append_left (List.sublist_cons_self timer behind) front)
            fun _ => rfl
      | deleteGone gone => exact fair.thin (List.Sublist.refl _) fun _ => rfl
  | tick now =>
      obtain ⟨answer, next, after, done, kept, -, acts⟩ := keeps.perform (.tick now)
      refine ⟨answer, next, after, done, kept, ?_⟩
      generalize timers.along order = schedule, next.along after = result at fair acts ⊢
      cases acts with
      | tick past ahead => exact fair.thin (List.sublist_append_right _ _) fun _ => rfl
  | clear =>
      obtain ⟨answer, next, after, done, kept, -, acts⟩ := keeps.perform .clear
      refine ⟨answer, next, after, done, kept, ?_⟩
      generalize timers.along order = schedule, next.along after = result at fair acts ⊢
      cases acts with
      | clear => exact fair.thin (List.nil_sublist _) fun _ => rfl

/-! ## The order of firing -/

/-- One timer comes before another in the sequence, and fires before it. -/
structure Ahead (timers : Timers α) (first second : Waiting α) : Prop where
  listed : ∃ schedule, timers.schedule? = some schedule ∧ [first, second].Sublist schedule
  fired : ∀ now, first.expire ≤ now → second.expire ≤ now → ∃ fired next,
    timers.tick? now = some (fired, next) ∧
      [(first.id, first.data), (second.id, second.data)].Sublist fired

/-- Timers that are due fire in the order of the sequence. -/
theorem Keeps.ahead (keeps : timers.Keeps order) {first second : Waiting α}
    (listed : [first, second].Sublist (timers.along order)) : timers.Ahead first second where
  listed := ⟨_, keeps.schedule?, listed⟩
  fired now early late := by
    obtain ⟨answer, next, after, done, -, -, acts⟩ := keeps.perform_tick now
    obtain ⟨⟨fired, count, rest⟩, all, same⟩ := Option.map_eq_some_iff.1 done
    refine ⟨fired, rest, by rw [tick?, all]; rfl, ?_⟩
    generalize timers.along order = schedule, next.along after = left at listed acts
    cases acts with
    | @tick due _ _ past ahead =>
        simp only [Prod.mk.injEq, Answer.fired.injEq] at same
        obtain ⟨⟨rfl, -⟩, -⟩ := same
        have whole : (due ++ left).filter (·.expire ≤ now) = due := by
          rw [List.filter_append, List.filter_eq_self.2 (by simpa using past),
            List.filter_eq_nil_iff.2 (by simpa using ahead), List.append_nil]
        have both : [first, second].filter (·.expire ≤ now) = [first, second] := by
          simp [early, late]
        have inside := listed.filter (·.expire ≤ now)
        rw [whole, both] at inside
        exact inside.map fun timer => (timer.id, timer.data)

/-- Of two members of a list one comes before the other. -/
theorem pair_sublist {β : Type} {members : List β} {first second : β} (one : first ∈ members)
    (other : second ∈ members) (differ : first ≠ second) :
    [first, second].Sublist members ∨ [second, first].Sublist members := by
  obtain ⟨front, behind, rfl⟩ := List.append_of_mem one
  rcases List.mem_append.1 other with ahead | further
  · exact .inr ((List.singleton_sublist.2 ahead).append
      (List.singleton_sublist.2 List.mem_cons_self))
  · have later := (List.mem_cons.1 further).resolve_left (Ne.symm differ)
    exact .inl (((List.singleton_sublist.2 later).cons_cons first).trans
      (List.sublist_append_right front _))

/-- Ties are broken by arrival.  Let any operations be done to a list of timers that was
empty at first.  Of two timers with one deadline that are waiting then, the one that was
given this deadline later is the second in the list, and fires as the second, unless it
has pushed in: unless it was given the deadline of the timer right behind it.  Then it is
the first one. -/
theorem ties_by_arrival (operations : List (Operation α)) :
    ∃ chronicle schedule, Chronicle.of? operations = some chronicle ∧
      (empty : Timers α).run? operations = some chronicle.timers ∧
      chronicle.timers.schedule? = some schedule ∧
      ∀ first ∈ schedule, ∀ second ∈ schedule, first ≠ second → first.expire = second.expire →
        ∃ early late, arrival? chronicle.past first.id = some early ∧
          arrival? chronicle.past second.id = some late ∧ early.turn ≠ late.turn ∧
          (early.turn < late.turn →
            (late.pushesIn = false → chronicle.timers.Ahead first second) ∧
            (late.pushesIn = true → chronicle.timers.Ahead second first)) := by
  obtain ⟨chronicle, order, told, ran, keeps, fair⟩ :=
    Chronicle.exists_of? (fun chronicle order =>
      Fair chronicle.past (chronicle.timers.along order))
      ⟨nofun, List.Pairwise.nil⟩ (fun keeps fair => keeps.fair fair) operations
  refine ⟨chronicle, _, told, ran, keeps.schedule?, ?_⟩
  intro first one second other differ same
  obtain ⟨early, mine, -⟩ := fair.arrived first one
  obtain ⟨late, yours, -⟩ := fair.arrived second other
  have ordered {one other : Waiting α}
      (listed : [one, other].Sublist (chronicle.timers.along order)) :=
    List.pairwise_iff_forall_sublist.1 fair.ordered listed
  refine ⟨early, late, mine, yours, ?_⟩
  rcases pair_sublist one other differ with listed | listed
  · rcases ordered listed same early mine late yours with ⟨before, waits⟩ | ⟨behind, pushed⟩
    · refine ⟨Nat.ne_of_lt before, fun _ => ⟨fun _ => keeps.ahead listed, fun pushed => ?_⟩⟩
      cases waits.symm.trans pushed
    · exact ⟨Nat.ne_of_gt behind, fun before => absurd before (Nat.lt_asymm behind)⟩
  · rcases ordered listed same.symm late yours early mine with ⟨behind, waits⟩ | ⟨before, pushed⟩
    · exact ⟨Nat.ne_of_gt behind, fun before => absurd before (Nat.lt_asymm behind)⟩
    · refine ⟨Nat.ne_of_lt before, fun _ => ⟨fun waits => ?_, fun _ => keeps.ahead listed⟩⟩
      cases waits.symm.trans pushed

/-- The first timer passes the second one and comes behind the third, and then the second
one pushes in before both. -/
theorem ties_by_arrival_passing :
    ∃ chronicle : Chronicle Nat,
      Chronicle.of? [.add 5 0, .add 7 1, .add 9 2, .adjust ⟨0, 0⟩ 9, .adjust ⟨1, 0⟩ 9] =
        some chronicle ∧
      arrival? chronicle.past ⟨2, 0⟩ = some ⟨2, false⟩ ∧
      arrival? chronicle.past ⟨0, 0⟩ = some ⟨3, false⟩ ∧
      arrival? chronicle.past ⟨1, 0⟩ = some ⟨4, true⟩ ∧
      chronicle.timers.Ahead ⟨⟨2, 0⟩, 9, 2⟩ ⟨⟨0, 0⟩, 9, 0⟩ ∧
      chronicle.timers.Ahead ⟨⟨1, 0⟩, 9, 1⟩ ⟨⟨0, 0⟩, 9, 0⟩ := by
  obtain ⟨chronicle, schedule, told, -, listed, ties⟩ :=
    ties_by_arrival (α := Nat) [.add 5 0, .add 7 1, .add 9 2, .adjust ⟨0, 0⟩ 9, .adjust ⟨1, 0⟩ 9]
  have seen : (Chronicle.of? (α := Nat)
      [.add 5 0, .add 7 1, .add 9 2, .adjust ⟨0, 0⟩ 9, .adjust ⟨1, 0⟩ 9]).map (fun chronicle =>
        ([⟨2, 0⟩, ⟨0, 0⟩, ⟨1, 0⟩].map (arrival? chronicle.past), chronicle.timers.schedule?)) =
      some ([some ⟨2, false⟩, some ⟨3, false⟩, some ⟨4, true⟩],
        some [⟨⟨1, 0⟩, 9, 1⟩, ⟨⟨2, 0⟩, 9, 2⟩, ⟨⟨0, 0⟩, 9, 0⟩]) := by decide +kernel
  rw [told, Option.map_some, listed] at seen
  simp only [Option.some.injEq, Prod.mk.injEq, List.map_cons, List.map_nil, List.cons.injEq,
    and_true] at seen
  obtain ⟨⟨third, first, second⟩, rfl⟩ := seen
  obtain ⟨early, late, mine, yours, -, waits⟩ := ties ⟨⟨2, 0⟩, 9, 2⟩ (by simp) ⟨⟨0, 0⟩, 9, 0⟩
    (by simp) (by simp) rfl
  cases third.symm.trans mine
  cases first.symm.trans yours
  obtain ⟨before, last, own, other, -, pushes⟩ := ties ⟨⟨0, 0⟩, 9, 0⟩ (by simp) ⟨⟨1, 0⟩, 9, 1⟩
    (by simp) (by simp) rfl
  cases first.symm.trans own
  cases second.symm.trans other
  exact ⟨chronicle, told, third, first, second, (waits (by decide)).1 rfl,
    (pushes (by decide)).2 rfl⟩

/-- A timer that is given the deadline of the one right behind it comes before it, and
fires before it, though the other had this deadline first. -/
theorem latecomer_ahead :
    ∃ chronicle : Chronicle Nat,
      Chronicle.of? [.add 5 0, .add 9 1, .adjust ⟨0, 0⟩ 9] = some chronicle ∧
      arrival? chronicle.past ⟨1, 0⟩ = some ⟨1, false⟩ ∧
      arrival? chronicle.past ⟨0, 0⟩ = some ⟨2, true⟩ ∧
      chronicle.timers.schedule? = some [⟨⟨0, 0⟩, 9, 0⟩, ⟨⟨1, 0⟩, 9, 1⟩] ∧
      (chronicle.timers.tick? 9).map (fun ticked => ticked.1.map Prod.snd) = some [0, 1] ∧
      ¬ chronicle.timers.Ahead ⟨⟨1, 0⟩, 9, 1⟩ ⟨⟨0, 0⟩, 9, 0⟩ := by
  have seen : (Chronicle.of? (α := Nat) [.add 5 0, .add 9 1, .adjust ⟨0, 0⟩ 9]).map
      (fun chronicle => ([⟨1, 0⟩, ⟨0, 0⟩].map (arrival? chronicle.past),
        chronicle.timers.schedule?,
        (chronicle.timers.tick? 9).map fun ticked => ticked.1.map Prod.snd)) =
      some ([some ⟨1, false⟩, some ⟨2, true⟩], some [⟨⟨0, 0⟩, 9, 0⟩, ⟨⟨1, 0⟩, 9, 1⟩],
        some [0, 1]) := by decide +kernel
  obtain ⟨chronicle, told, same⟩ := Option.map_eq_some_iff.1 seen
  simp only [Prod.mk.injEq, List.map_cons, List.map_nil, List.cons.injEq, and_true] at same
  obtain ⟨⟨second, first⟩, listed, fired⟩ := same
  refine ⟨chronicle, told, second, first, listed, fired, fun ahead => ?_⟩
  obtain ⟨schedule, found, order⟩ := ahead.listed
  cases listed.symm.trans found
  revert order
  decide

end FileServer.Timers
