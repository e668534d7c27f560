import FileServer.Proofs.Idle.Contents
import FileServer.Proofs.Interleaving.Moves

/-!
# Timers and connections

The server finds the timer of a connection by its descriptor, and the connection of
a timer by the descriptor and the generation that the timer carries.  Both ways
lead back to where they start from.  A handler that is called for a descriptor
leaves the timers of all others alone and the one of its own in order: it moves the
deadline, starts a timer with a connection, or deletes it with the connection.
-/

namespace FileServer

namespace Ledger

variable {ledger next : Ledger} {fd : Fd}

/-! ## The timer of one descriptor -/

/-- A descriptor has a connection of a generation. -/
def Occupied (ledger : Ledger) (fd : Fd) (generation : Nat) : Prop :=
  ∃ slot, ledger.table.slot? fd = some slot ∧ slot.generation = generation ∧
    slot.custody ≠ .free

/-- The timers that carry a descriptor are the one that is known for it, or none. -/
structure Named (ledger : Ledger) (fd : Fd) : Prop where
  own : ∀ id generation, ledger.timers.get? id = some (fd, generation) →
    ledger.timerIds.find? fd = some id
  known : ∀ id, ledger.timerIds.find? fd = some id →
    ∃ generation, ledger.timers.get? id = some (fd, generation)

/-- A descriptor has no timer. -/
structure Untimed (ledger : Ledger) (fd : Fd) : Prop where
  unnamed : ledger.timerIds.find? fd = none
  absent : ∀ id generation, ledger.timers.get? id ≠ some (fd, generation)

/-- The timer of a descriptor is that of its connection, and there is one unless the
connection is to be closed. -/
structure Timed (ledger : Ledger) (fd : Fd) : Prop where
  named : ledger.Named fd
  occupied : ∀ id generation, ledger.timers.get? id = some (fd, generation) →
    ledger.Occupied fd generation
  clocked : ledger.table.custody fd = .loop ∨ ledger.table.custody fd = .worker →
    ledger.timerIds.find? fd ≠ none

/-- The timer of a connection has fired and is still known. -/
structure Due (ledger : Ledger) (fd : Fd) (generation : Nat) : Prop where
  occupied : ledger.Occupied fd generation
  known : ledger.timerIds.find? fd ≠ none
  absent : ∀ id generation, ledger.timers.get? id ≠ some (fd, generation)

/-- The timers that carry a descriptor have not changed. -/
structure SameTimers (fd : Fd) (before after : Ledger) : Prop where
  id : after.timerIds.find? fd = before.timerIds.find? fd
  timers : ∀ id generation, after.timers.get? id = some (fd, generation) ↔
    before.timers.get? id = some (fd, generation)

/-- Of connections and their timers none have changed but those of one
descriptor. -/
structure Retimes (fd : Fd) (before after : Ledger) : Prop where
  sound : after.timers.Sound
  slots : ∀ other, other ≠ fd → after.table.slot? other = before.table.slot? other
  others : ∀ other, other ≠ fd → SameTimers other before after

theorem SameTimers.refl (fd : Fd) (ledger : Ledger) : SameTimers fd ledger ledger :=
  ⟨rfl, fun _ _ => .rfl⟩

theorem Retimes.refl (sound : ledger.timers.Sound) (fd : Fd) : Retimes fd ledger ledger :=
  ⟨sound, fun _ _ => rfl, fun other _ => .refl other ledger⟩

theorem Retimes.trans {first second third : Ledger} (early : Retimes fd first second)
    (late : Retimes fd second third) : Retimes fd first third where
  sound := late.sound
  slots other differ := (late.slots other differ).trans (early.slots other differ)
  others other differ := by
    have before := early.others other differ
    have after := late.others other differ
    exact ⟨after.id.trans before.id, fun id generation =>
      (after.timers id generation).trans (before.timers id generation)⟩

theorem Untimed.named (untimed : ledger.Untimed fd) : ledger.Named fd where
  own id generation present := (untimed.absent id generation present).elim
  known id named := by cases untimed.unnamed.symm.trans named

/-- A descriptor without a timer has no connection, or one that is to be closed. -/
theorem Untimed.timed (untimed : ledger.Untimed fd)
    (custody : ledger.table.custody fd = .free ∨ ledger.table.custody fd = .closing) :
    ledger.Timed fd where
  named := untimed.named
  occupied id generation present := (untimed.absent id generation present).elim
  clocked attended := by
    rcases custody with same | same <;> simp [same] at attended

/-- A descriptor without a connection has no timer. -/
theorem Timed.untimed (timed : ledger.Timed fd) (unused : ledger.table.custody fd = .free) :
    ledger.Untimed fd := by
  have absent (id : TimerId) (generation : Nat) :
      ledger.timers.get? id ≠ some (fd, generation) := by
    intro present
    obtain ⟨slot, found, -, used⟩ := timed.occupied id generation present
    rw [Slots.custody_of_slot? found] at unused
    exact used unused
  refine ⟨?_, absent⟩
  cases known : ledger.timerIds.find? fd with
  | none => rfl
  | some id =>
      obtain ⟨generation, present⟩ := timed.named.known id known
      exact (absent id generation present).elim

theorem Timed.of_same (timed : ledger.Timed fd) (same : SameTimers fd ledger next)
    (occupied : ∀ generation, ledger.Occupied fd generation → next.Occupied fd generation)
    (clocked : next.table.custody fd = .loop ∨ next.table.custody fd = .worker →
      ledger.table.custody fd = .loop ∨ ledger.table.custody fd = .worker) :
    next.Timed fd where
  named := by
    constructor
    · intro id generation present
      exact same.id.trans (timed.named.own id generation ((same.timers id generation).1 present))
    · intro id known
      obtain ⟨generation, present⟩ := timed.named.known id (same.id.symm.trans known)
      exact ⟨generation, (same.timers id generation).2 present⟩
  occupied id generation present :=
    occupied generation (timed.occupied id generation ((same.timers id generation).1 present))
  clocked attended := by
    rw [same.id]
    exact timed.clocked (clocked attended)

theorem Timed.of_slot (timed : ledger.Timed fd) (same : SameTimers fd ledger next)
    (slot : next.table.slot? fd = ledger.table.slot? fd) : next.Timed fd := by
  refine timed.of_same same ?_ ?_
  · intro generation occupied
    rwa [Occupied, slot]
  · intro attended
    rwa [Slots.custody, ← slot]

theorem Due.of_same {generation : Nat} (due : ledger.Due fd generation)
    (same : SameTimers fd ledger next)
    (occupied : ledger.Occupied fd generation → next.Occupied fd generation) :
    next.Due fd generation where
  occupied := occupied due.occupied
  known := by
    rw [same.id]
    exact due.known
  absent id generation present := due.absent id generation ((same.timers id generation).1 present)

/-- From timers in order, of which that of a descriptor is in order too, this is what
is left after a step that concerns the descriptor. -/
def KeepsTime (fd : Fd) (before after : Ledger) : Prop :=
  before.timers.Sound → before.Timed fd → Retimes fd before after ∧ after.Timed fd

theorem KeepsTime.refl (fd : Fd) (ledger : Ledger) : KeepsTime fd ledger ledger :=
  fun sound timed => ⟨.refl sound fd, timed⟩

theorem KeepsTime.trans {first second third : Ledger} (early : KeepsTime fd first second)
    (late : KeepsTime fd second third) : KeepsTime fd first third := by
  intro sound timed
  obtain ⟨before, between⟩ := early sound timed
  obtain ⟨after, last⟩ := late before.sound between
  exact ⟨before.trans after, last⟩

end Ledger

namespace Server

open Ledger

variable {server next : Server} {fd : Fd}

/-! ## Operations -/

theorem occupied_putSlot {slot : Slot} {generation : Nat}
    (found : server.table.slot? fd = some slot) (changed : Slot)
    (same : changed.generation = slot.generation)
    (used : slot.custody ≠ .free → changed.custody ≠ .free)
    (occupied : server.ledger.Occupied fd generation) :
    (server.putSlot fd changed).ledger.Occupied fd generation := by
  obtain ⟨held, earlier, current, before⟩ := occupied
  cases found.symm.trans earlier
  exact ⟨changed, Slots.slot?_set_of_slot? found changed, same.trans current, used before⟩

/-- Another custody of a connection is not about its timer, unless somebody takes
care of it again. -/
theorem keepsTime_putSlot {slot : Slot} (found : server.table.slot? fd = some slot)
    (changed : Slot) (generation : changed.generation = slot.generation)
    (used : changed.custody ≠ .free)
    (clocked : changed.custody = .closing ∨ slot.custody = .loop ∨ slot.custody = .worker) :
    KeepsTime fd server.ledger (server.putSlot fd changed).ledger := by
  intro sound timed
  constructor
  · exact ⟨sound, fun _ differ => Slots.slot?_set_of_ne differ changed,
      fun _ _ => ⟨rfl, fun _ _ => .rfl⟩⟩
  · refine timed.of_same ⟨rfl, fun _ _ => .rfl⟩ ?_ ?_
    · intro held occupied
      exact occupied_putSlot found changed generation (fun _ => used) occupied
    · intro attended
      have custody := Slots.custody_of_slot? (Slots.slot?_set_of_slot? found changed)
      have before := Slots.custody_of_slot? found
      change (server.table.set fd changed).custody fd = .loop ∨
        (server.table.set fd changed).custody fd = .worker at attended
      change server.table.custody fd = .loop ∨ server.table.custody fd = .worker
      rw [custody] at attended
      rw [before]
      rcases clocked with closing | clocked
      · simp [closing] at attended
      · exact clocked

theorem retimes_dropTimer (sound : server.timers.Sound) (named : server.ledger.Named fd) :
    Retimes fd server.ledger (server.dropTimer fd).ledger ∧
      (server.dropTimer fd).ledger.Untimed fd := by
  cases known : server.timerIds.find? fd with
  | none =>
      simp only [dropTimer, known]
      refine ⟨.refl sound fd, known, fun id generation present => ?_⟩
      cases known.symm.trans (named.own id generation present)
  | some id =>
      simp only [dropTimer, known]
      obtain ⟨generation, present⟩ := named.known id known
      obtain ⟨kept, deleted, others⟩ := sound.delete id
      refine ⟨⟨kept, fun _ _ => rfl, fun other differ => ⟨FdMap.find?_erase_of_ne differ, ?_⟩⟩,
        FdMap.find?_erase_self _ _, ?_⟩
      · intro name held
        change (server.timers.delete id).get? name = _ ↔ server.timers.get? name = _
        by_cases mine : name = id
        · subst mine
          have apart : (fd, generation) ≠ (other, held) := by
            intro equal
            exact differ (congrArg Prod.fst equal).symm
          change server.timers.get? name = _ at present
          simp [deleted, present, apart]
        · rw [others name mine]
      · intro name held left
        change (server.timers.delete id).get? name = _ at left
        by_cases mine : name = id
        · subst mine
          cases deleted.symm.trans left
        · rw [others name mine] at left
          cases known.symm.trans (named.own name held left)
          exact mine rfl

theorem retimes_startTimer (sound : server.timers.Sound) (untimed : server.ledger.Untimed fd)
    (generation deadline : Nat) :
    Retimes fd server.ledger (server.startTimer fd generation deadline).ledger ∧
      (server.startTimer fd generation deadline).ledger.Named fd ∧
      (server.startTimer fd generation deadline).timerIds.find? fd ≠ none ∧
      ∀ id held, (server.startTimer fd generation deadline).timers.get? id = some (fd, held) →
        held = generation := by
  obtain ⟨⟨id, timers⟩, added⟩ :
      ∃ result, server.timers.add deadline (fd, generation) = result := ⟨_, rfl⟩
  obtain ⟨kept, fresh, own, others⟩ := sound.add deadline (fd, generation) added
  have known : (server.timerIds.insert fd id).find? fd = some id := FdMap.find?_insert_self _ _ _
  have mine {name : TimerId} {held : Nat} (present : timers.get? name = some (fd, held)) :
      name = id := by
    by_cases same : name = id
    · exact same
    · rw [others name same] at present
      exact (untimed.absent name held present).elim
  simp only [startTimer, added]
  refine ⟨⟨kept, fun _ _ => rfl, fun other differ => ⟨FdMap.find?_insert_of_ne differ id, ?_⟩⟩,
    ⟨?_, ?_⟩, ?_, ?_⟩
  · intro name held
    change timers.get? name = _ ↔ server.timers.get? name = _
    by_cases same : name = id
    · subst same
      have apart : (fd, generation) ≠ (other, held) := by
        intro equal
        exact differ (congrArg Prod.fst equal).symm
      simp [own, fresh, apart]
    · rw [others name same]
  · intro name held present
    exact mine present ▸ known
  · intro name found
    cases known.symm.trans found
    exact ⟨generation, own⟩
  · rw [known]
    nofun
  · intro name held present
    rw [mine present, own] at present
    cases present
    rfl

/-- A connection that the loop has keeps its timer when it was active. -/
theorem keepsTime_refreshTimer {slot : Slot} (found : server.table.slot? fd = some slot)
    (held : slot.custody = .loop)
    (refreshed : server.refreshTimer fd slot.generation = .ok next) :
    KeepsTime fd server.ledger next.ledger := by
  intro sound timed
  have custody := Slots.custody_of_slot? found
  have clocked := timed.clocked (.inl (custody.trans held))
  obtain ⟨id, known⟩ := Option.ne_none_iff_exists'.1 clocked
  obtain ⟨generation, present⟩ := timed.named.known id known
  obtain ⟨current, here, same, -⟩ := timed.occupied id generation present
  cases found.symm.trans here
  subst same
  change server.timerIds.find? fd = some id at known
  change server.timers.get? id = some (fd, slot.generation) at present
  simp only [refreshTimer, known, present, ↓reduceIte] at refreshed
  split at refreshed
  · cases refreshed
  · next deadline within =>
      cases refreshed
      obtain ⟨kept, others⟩ := sound.adjust id deadline
      have same (other : Fd) : SameTimers other server.ledger
          { server with timers := server.timers.adjust id deadline }.ledger := by
        refine ⟨rfl, fun name generation => ?_⟩
        exact iff_of_eq (congrArg (fun held => held = some (other, generation)) (others name))
      exact ⟨⟨kept, fun _ _ => rfl, fun other _ => same other⟩, timed.of_slot (same fd) rfl⟩

theorem ledger_release (server : Server) (fd : Fd) :
    (server.release fd).ledger = { server.ledger with table := server.table.release fd } := by
  cases found : server.table.slot? fd with
  | none => simp only [release, Slots.release, found]; rfl
  | some slot => simp only [release, found]; rfl

/-- A connection that is closed gives up its timer and its slot, and is counted. -/
theorem ledger_closeNow (used : server.table.custody fd ≠ .free) :
    (server.closeNow fd).ledger = { server.ledger with
      table := server.table.release fd
      timers := (server.dropTimer fd).timers
      timerIds := (server.dropTimer fd).timerIds
      live := server.shared.live - 1
      closed := server.shared.counters.closed + 1 } := by
  rw [closeNow, if_neg used]
  refine (ledger_release _ fd).trans ?_
  cases known : server.timerIds.find? fd with
  | none => simp only [dropTimer, known]; rfl
  | some id => simp only [dropTimer, known]; rfl

/-- Closing a connection takes its timer with it. -/
theorem retimes_closeNow (sound : server.timers.Sound) (named : server.ledger.Named fd)
    (used : server.table.custody fd ≠ .free) :
    Retimes fd server.ledger (server.closeNow fd).ledger ∧
      (server.closeNow fd).ledger.Timed fd := by
  obtain ⟨retimes, untimed⟩ := retimes_dropTimer sound named
  have free := custody_closeNow server fd
  change (server.closeNow fd).ledger.table.custody fd = .free at free
  rw [ledger_closeNow used] at free ⊢
  constructor
  · refine ⟨retimes.sound, fun other differ => Slots.slot?_release_of_ne differ,
      fun other differ => ?_⟩
    exact ⟨(retimes.others other differ).id, (retimes.others other differ).timers⟩
  · exact Untimed.timed ⟨untimed.unnamed, untimed.absent⟩ (.inl free)

theorem keepsTime_closeNow (used : server.table.custody fd ≠ .free) :
    KeepsTime fd server.ledger (server.closeNow fd).ledger :=
  fun sound timed => retimes_closeNow sound timed.named used

/-- Counting is not about timers. -/
theorem keepsTime_record (server : Server) (fd : Fd) (change : Counters → Counters) :
    KeepsTime fd server.ledger (server.record change).ledger := by
  intro sound timed
  constructor
  · exact ⟨sound, fun _ _ => rfl, fun _ _ => ⟨rfl, fun _ _ => .rfl⟩⟩
  · exact timed.of_slot ⟨rfl, fun _ _ => .rfl⟩ rfl

/-- Each operation of a handler keeps the timers in order. -/
theorem adds_keepsTime : Adds KeepsTime where
  refl := KeepsTime.refl
  trans := KeepsTime.trans
  putSlot changed found generation _ used clocked :=
    keepsTime_putSlot found changed generation used clocked
  refreshTimer := keepsTime_refreshTimer
  closeNow := keepsTime_closeNow
  reject {server fd} held := by
    have used : (server.record Counters.countRejection).table.custody fd ≠ .free := by
      change server.table.custody fd ≠ .free
      simp [held]
    exact (keepsTime_record server fd _).trans (keepsTime_closeNow used)

/-! ## New connections and evictions -/

theorem TakesIn.keepsTime {peer : Address} (takesIn : TakesIn server fd peer next) :
    KeepsTime fd server.ledger next.ledger := by
  cases takesIn with
  | busy | dropped => exact .refl fd server.ledger
  | unwatched opened refused =>
      intro sound timed
      obtain ⟨-, unused, -, -, rfl⟩ := Slots.open?_cases opened
      have free := custody_release { server with
        table := server.table.set fd ((server.table.vacancy fd).opened peer) } fd
      have untimed := timed.untimed unused
      rw [ledger_release]
      constructor
      · refine ⟨sound, fun other differ => ?_, fun _ _ => ⟨rfl, fun _ _ => .rfl⟩⟩
        exact (Slots.slot?_release_of_ne differ).trans (Slots.slot?_set_of_ne differ _)
      · refine Untimed.timed ⟨untimed.unnamed, untimed.absent⟩ (.inl ?_)
        change (Server.ledger _).table.custody fd = .free at free
        rwa [ledger_release] at free
  | @watched generation deadline table kernel room opened registered =>
      intro sound timed
      obtain ⟨inside, unused, -, counted, rfl⟩ := Slots.open?_cases opened
      have untimed := timed.untimed unused
      have here := Slots.slot?_set_self inside ((server.table.vacancy fd).opened peer)
      obtain ⟨retimes, named, known, current⟩ := @retimes_startTimer { server with
        table := server.table.set fd ((server.table.vacancy fd).opened peer), kernel,
        shared := server.shared.connectionOpened.record Counters.countAccept } fd sound
          ⟨untimed.unnamed, untimed.absent⟩ generation deadline
      constructor
      · refine ⟨retimes.sound, fun other differ => Slots.slot?_set_of_ne differ _, ?_⟩
        intro other differ
        exact ⟨(retimes.others other differ).id, (retimes.others other differ).timers⟩
      · refine ⟨named, fun id held present => ?_, fun _ => known⟩
        rw [current id held present, counted]
        exact ⟨_, here, rfl, nofun⟩

/-- What is due is looked after, and then there is no timer left. -/
theorem Evicts.retimes {generation : Nat} (evicts : Evicts server fd generation next)
    (sound : server.timers.Sound) (due : server.ledger.Due fd generation) :
    Retimes fd server.ledger next.ledger ∧ next.ledger.Timed fd := by
  have forgets : Retimes fd server.ledger (server.forgetTimer fd).ledger :=
    ⟨sound, fun _ _ => rfl, fun _ differ => ⟨FdMap.find?_erase_of_ne differ, fun _ _ => .rfl⟩⟩
  have untimed : (server.forgetTimer fd).ledger.Untimed fd :=
    ⟨FdMap.find?_erase_self _ _, due.absent⟩
  obtain ⟨slot, found, current, used⟩ := due.occupied
  cases evicts with
  | stale other => exact (other slot found current).elim
  | counted here same parts =>
      cases parts with
      | absent unused => exact (used ((Slots.custody_of_slot? found).symm.trans unused)).elim
      | now held =>
          obtain ⟨closes, closed⟩ := @retimes_closeNow
            ((server.forgetTimer fd).record Counters.countEviction) fd sound
            ⟨untimed.named.own, untimed.named.known⟩ (by simp [held])
          refine ⟨forgets.trans ⟨closes.sound, closes.slots, fun other differ => ?_⟩, closed⟩
          exact ⟨(closes.others other differ).id, (closes.others other differ).timers⟩
      | @later slot present lent =>
          refine ⟨⟨sound, fun _ differ => Slots.slot?_set_of_ne differ _, fun _ differ =>
            ⟨FdMap.find?_erase_of_ne differ, fun _ _ => .rfl⟩⟩, ?_⟩
          refine Untimed.timed ⟨untimed.unnamed, untimed.absent⟩ (.inr ?_)
          exact Slots.custody_of_slot? (Slots.slot?_set_of_slot? present _)

end Server

end FileServer
