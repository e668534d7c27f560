import FileServer.Proofs.Interleaving.Clocks
import FileServer.Proofs.Table.Descriptors

/-!
# The accounts of connections

A connection is counted when it is accepted and when it is closed, and the number
of open connections goes up and down with it; each of these happens in another
place than the change of its slot.  An operation that is about one descriptor
changes the counters by what the slot of this descriptor counts, before and after.
So the counters stay what they are over all slots.

A connection is counted as evicted once because its timer is known until then and
never afterwards, and as rejected only when it is closed at once.
-/

namespace FileServer

/-- The descriptors whose connection is to be closed when a worker gives it back. -/
def Slots.closingFds (table : Slots) : List Fd :=
  table.fdsWhere fun _ slot => slot.custody == .closing

namespace Ledger

variable {ledger next : Ledger} {fd : Fd}

/-- What a descriptor counts among the open connections. -/
def occupancy (ledger : Ledger) (fd : Fd) : Nat :=
  if ledger.table.custody fd = .free then 0 else 1

/-- What a descriptor counts among the connections that are to be closed and have no
timer any more. -/
def forsaken (ledger : Ledger) (fd : Fd) : Nat :=
  if ledger.table.custody fd = .closing ∧ ledger.timerIds.find? fd = none then 1 else 0

/-- The counters have changed by what one descriptor counts before and after. -/
structure Squares (fd : Fd) (before after : Ledger) : Prop where
  regular : after.table.Regular
  settings : after.settings = before.settings
  accepted : after.accepted + before.closed + before.live =
    before.accepted + after.closed + after.live
  live : after.live + before.occupancy fd = before.live + after.occupancy fd
  bounded : before.live ≤ before.settings.maxConnections →
    after.live ≤ before.settings.maxConnections
  /-- Who is evicted or rejected is closed, or is to be closed and has no timer. -/
  once : after.evicted + after.rejected + before.closed + before.forsaken fd ≤
    before.evicted + before.rejected + after.closed + after.forsaken fd

/-- From books in order, in which one descriptor is counted if it has a connection,
this is what is left after a step that concerns the descriptor. -/
def KeepsBooks (fd : Fd) (before after : Ledger) : Prop :=
  before.table.Regular → before.occupancy fd ≤ before.live → Squares fd before after

theorem KeepsBooks.refl (fd : Fd) (ledger : Ledger) : KeepsBooks fd ledger ledger :=
  fun regular _ => ⟨regular, rfl, rfl, rfl, id, Nat.le_refl _⟩

theorem KeepsBooks.trans {first second third : Ledger} (early : KeepsBooks fd first second)
    (late : KeepsBooks fd second third) : KeepsBooks fd first third := by
  intro regular counted
  have before := early regular counted
  have live := before.live
  have after := late before.regular (by omega)
  have accepted := before.accepted
  have accepted' := after.accepted
  have live' := after.live
  have once := before.once
  have once' := after.once
  refine ⟨after.regular, after.settings.trans before.settings, by omega, by omega, ?_, by omega⟩
  intro bounded
  have limit := after.bounded
  rw [before.settings] at limit
  exact limit (before.bounded bounded)

/-- Nothing is counted of a descriptor without a connection. -/
theorem counts_of_free (free : ledger.table.custody fd = .free) :
    ledger.occupancy fd = 0 ∧ ledger.forsaken fd = 0 := by
  simp [occupancy, forsaken, free]

/-- A connection that the loop has is not to be closed later. -/
theorem counts_of_loop (held : ledger.table.custody fd = .loop) :
    ledger.occupancy fd = 1 ∧ ledger.forsaken fd = 0 := by
  simp [occupancy, forsaken, held]

theorem occupancy_of_used (used : ledger.table.custody fd ≠ .free) : ledger.occupancy fd = 1 :=
  if_neg used

theorem forsaken_le (ledger : Ledger) (fd : Fd) : ledger.forsaken fd ≤ 1 := by
  simp only [forsaken]
  split <;> omega

/-- A connection that is closed is not counted any more, and was.  This pays for one
eviction or rejection of a connection that was not to be closed. -/
theorem Squares.of_close {table : Slots} {timers : Timers (Fd × Nat)} {timerIds : FdMap TimerId}
    {evicted rejected : Nat} (regular : table.Regular) (closed : table.custody fd = .free)
    (used : ledger.table.custody fd ≠ .free) (counted : ledger.occupancy fd ≤ ledger.live)
    (paid : evicted + rejected + ledger.forsaken fd ≤ ledger.evicted + ledger.rejected + 1) :
    Squares fd ledger { ledger with
      table, timers, timerIds, evicted, rejected
      live := ledger.live - 1
      closed := ledger.closed + 1 } := by
  have occupied := occupancy_of_used used
  obtain ⟨empty, none⟩ := @counts_of_free { ledger with
    table, timers, timerIds, evicted, rejected
    live := ledger.live - 1
    closed := ledger.closed + 1 } fd closed
  refine ⟨regular, rfl, ?_, ?_, ?_, ?_⟩
  · change ledger.accepted + ledger.closed + ledger.live =
      ledger.accepted + (ledger.closed + 1) + (ledger.live - 1)
    omega
  · rw [occupied, empty]
    change ledger.live - 1 + 1 = ledger.live + 0
    omega
  · intro bounded
    exact Nat.le_trans (Nat.sub_le _ 1) bounded
  · rw [none]
    change evicted + rejected + ledger.closed + ledger.forsaken fd ≤
      ledger.evicted + ledger.rejected + (ledger.closed + 1) + 0
    omega

end Ledger

namespace Server

open Ledger

variable {server next : Server} {fd : Fd}

/-! ## Operations -/

theorem keepsBooks_putSlot {slot : Slot} (changed : Slot)
    (found : server.table.slot? fd = some slot) (before : slot.custody ≠ .free)
    (after : changed.custody ≠ .free)
    (clocked : changed.custody = .closing ∨ slot.custody = .loop ∨ slot.custody = .worker) :
    KeepsBooks fd server.ledger (server.putSlot fd changed).ledger := by
  intro regular counted
  have custody : server.ledger.table.custody fd = slot.custody := Slots.custody_of_slot? found
  have custody' : (server.putSlot fd changed).ledger.table.custody fd = changed.custody :=
    Slots.custody_of_slot? (Slots.slot?_set_of_slot? found changed)
  have occupied := occupancy_of_used (custody.trans_ne before)
  have occupied' := occupancy_of_used (custody'.trans_ne after)
  have forsaken : server.ledger.forsaken fd ≤ (server.putSlot fd changed).ledger.forsaken fd := by
    simp only [Ledger.forsaken, custody, custody']
    change (if _ ∧ server.timerIds.find? fd = none then 1 else 0) ≤
      (if _ ∧ server.timerIds.find? fd = none then 1 else 0)
    rcases clocked with closing | held | held
    · by_cases unknown : server.timerIds.find? fd = none
      · simp only [closing, unknown, and_self, and_true, ↓reduceIte]
        split <;> omega
      · simp [unknown]
    · simp [held]
    · simp [held]
  refine ⟨regular.set (Slots.fits_of_slot? found) changed, rfl, rfl, by rw [occupied, occupied']; rfl,
    id, ?_⟩
  exact Nat.add_le_add_left forsaken _

/-- A timer makes no difference while the loop has the connection. -/
theorem keepsBooks_refreshTimer {slot : Slot} (found : server.table.slot? fd = some slot)
    (held : slot.custody = .loop) (refreshed : server.refreshTimer fd slot.generation = .ok next) :
    KeepsBooks fd server.ledger next.ledger := by
  intro regular counted
  have custody : server.ledger.table.custody fd = .loop :=
    (Slots.custody_of_slot? found).trans held
  obtain ⟨timers, timerIds, rfl⟩ := refreshTimer_eq refreshed
  have before := counts_of_loop custody
  have after := @counts_of_loop { server with timers, timerIds }.ledger fd custody
  refine ⟨regular, rfl, rfl, ?_, id, ?_⟩
  · rw [before.1, after.1]
    rfl
  · rw [before.2, after.2]
    exact Nat.le_refl _

theorem keepsBooks_closeNow (used : server.table.custody fd ≠ .free) :
    KeepsBooks fd server.ledger (server.closeNow fd).ledger := by
  intro regular counted
  have closed := custody_closeNow server fd
  change (server.closeNow fd).ledger.table.custody fd = .free at closed
  rw [ledger_closeNow used] at closed ⊢
  apply Squares.of_close (regular.release fd) closed used counted
  exact Nat.add_le_add_left (forsaken_le server.ledger fd) _

/-- A connection that is rejected is closed at once. -/
theorem keepsBooks_reject (held : server.table.custody fd = .loop) :
    KeepsBooks fd server.ledger
      ((server.record Counters.countRejection).closeNow fd).ledger := by
  intro regular counted
  have used : server.table.custody fd ≠ .free := by simp [held]
  have closed := custody_closeNow (server.record Counters.countRejection) fd
  change (Server.ledger _).table.custody fd = .free at closed
  rw [ledger_closeNow (by exact used)] at closed ⊢
  apply Squares.of_close (regular.release fd) closed used counted
  rw [(counts_of_loop (by exact held)).2]
  exact Nat.le_of_eq (Nat.add_assoc _ _ 1).symm

/-- Each operation of a handler keeps the books in order. -/
theorem adds_keepsBooks : Adds KeepsBooks where
  refl := KeepsBooks.refl
  trans := KeepsBooks.trans
  putSlot changed found _ before after clocked :=
    keepsBooks_putSlot changed found before after clocked
  refreshTimer := keepsBooks_refreshTimer
  closeNow := keepsBooks_closeNow
  reject := keepsBooks_reject

/-! ## New connections and evictions -/

theorem TakesIn.keepsBooks {peer : Address} (takesIn : TakesIn server fd peer next) :
    KeepsBooks fd server.ledger next.ledger := by
  cases takesIn with
  | busy | dropped => exact .refl fd server.ledger
  | unwatched opened refused =>
      intro regular counted
      obtain ⟨inside, unused, -, -, rfl⟩ := Slots.open?_cases opened
      obtain ⟨empty, none⟩ := @counts_of_free server.ledger fd unused
      obtain ⟨empty', none'⟩ := @counts_of_free (Server.ledger _) fd (custody_release { server with
        table := server.table.set fd ((server.table.vacancy fd).opened peer) } fd)
      rw [ledger_release] at empty' none' ⊢
      refine ⟨(regular.set inside _).release fd, rfl, rfl, ?_, id, ?_⟩
      · rw [empty, empty']
        rfl
      · rw [none, none']
        exact Nat.le_refl _
  | @watched generation deadline table kernel room opened registered =>
      intro regular counted
      obtain ⟨inside, unused, -, counts, rfl⟩ := Slots.open?_cases opened
      obtain ⟨empty, none⟩ := @counts_of_free server.ledger fd unused
      have custody := Slots.custody_of_slot?
        (Slots.slot?_set_self inside ((server.table.vacancy fd).opened peer))
      obtain ⟨occupied, none'⟩ := @counts_of_loop (Server.ledger (Server.watched { server with
        table := server.table.set fd ((server.table.vacancy fd).opened peer) } fd generation deadline
          kernel)) fd custody
      have limit : server.ledger.live < server.ledger.settings.maxConnections := by
        simp only [isFull, Bool.or_eq_false_iff, decide_eq_false_iff_not] at room
        exact Nat.lt_of_not_le room.1
      refine ⟨regular.set inside _, rfl, ?_, ?_, fun _ => limit, ?_⟩
      · change server.ledger.accepted + 1 + server.ledger.closed + server.ledger.live =
          server.ledger.accepted + server.ledger.closed + (server.ledger.live + 1)
        omega
      · rw [empty, occupied]
        rfl
      · rw [none, none']
        exact Nat.le_refl _

/-- An eviction is counted once: until then the timer of the connection is known. -/
theorem Evicts.keepsBooks {generation : Nat} (evicts : Evicts server fd generation next)
    (due : server.ledger.Due fd generation) : KeepsBooks fd server.ledger next.ledger := by
  intro regular counted
  obtain ⟨slot, found, current, used⟩ := due.occupied
  have custody : server.ledger.table.custody fd = slot.custody := Slots.custody_of_slot? found
  have occupied := occupancy_of_used (custody.trans_ne used)
  have known : server.ledger.forsaken fd = 0 := by
    simp only [forsaken, due.known, and_false, ↓reduceIte]
  cases evicts with
  | stale other => exact (other slot found current).elim
  | counted here same parts =>
      cases parts with
      | absent unused => exact (used ((Slots.custody_of_slot? found).symm.trans unused)).elim
      | now held =>
          have closed := custody_closeNow
            ((server.forgetTimer fd).record Counters.countEviction) fd
          change (Server.ledger _).table.custody fd = .free at closed
          rw [ledger_closeNow (by simp [held])] at closed ⊢
          apply Squares.of_close (regular.release fd) closed (custody.trans_ne used) counted
          rw [known]
          exact Nat.le_of_eq (Nat.add_right_comm _ 1 _)
      | @later slot present lent =>
          have here := Slots.custody_of_slot?
            (Slots.slot?_set_of_slot? present { slot with custody := .closing })
          have gone : (server.timerIds.erase fd).find? fd = none := FdMap.find?_erase_self _ _
          have forsaken : (((server.forgetTimer fd).record Counters.countEviction).putSlot fd
              { slot with custody := .closing }).ledger.forsaken fd = 1 := if_pos ⟨here, gone⟩
          have occupied' := @occupancy_of_used (((server.forgetTimer fd).record
            Counters.countEviction).putSlot fd { slot with custody := .closing }).ledger fd
            (Eq.trans_ne here nofun)
          refine ⟨regular.set (Slots.fits_of_slot? present) _, rfl, rfl, ?_, id, ?_⟩
          · rw [occupied, occupied']
            rfl
          · rw [known, forsaken]
            change server.ledger.evicted + 1 + server.ledger.rejected + server.ledger.closed + 0 ≤
              server.ledger.evicted + server.ledger.rejected + server.ledger.closed + 1
            omega

end Server

/-! ## All descriptors together -/

namespace Ledger

variable {ledger next : Ledger} {fd : Fd} {limit : Nat}

/-- The descriptors whose connection is to be closed and has no timer any more. -/
def forsakenFds (ledger : Ledger) : List Fd :=
  ledger.table.fdsWhere fun fd slot =>
    slot.custody == .closing && (ledger.timerIds.find? fd).isNone

/-- The counters agree with the slots. -/
structure Balanced (ledger : Ledger) (limit : Nat) : Prop where
  settings : ledger.settings.maxConnections = limit
  regular : ledger.table.Regular
  accepted : ledger.accepted = ledger.closed + ledger.live
  live : ledger.live = ledger.table.openFds.length
  bounded : ledger.live ≤ limit
  once : ledger.evicted + ledger.rejected ≤ ledger.closed + ledger.forsakenFds.length

theorem mem_openFds (regular : ledger.table.Regular) :
    fd ∈ ledger.table.openFds ↔ ledger.table.custody fd ≠ .free := by
  rw [Slots.openFds_eq, regular.mem_fdsWhere]
  cases found : ledger.table.slot? fd with
  | none => simp [Slots.custody, found]
  | some slot => simp [Slots.custody_of_slot? found]

theorem mem_forsakenFds (regular : ledger.table.Regular) :
    fd ∈ ledger.forsakenFds ↔
      ledger.table.custody fd = .closing ∧ ledger.timerIds.find? fd = none := by
  rw [forsakenFds, regular.mem_fdsWhere]
  cases found : ledger.table.slot? fd with
  | none => simp [Slots.custody, found]
  | some slot => simp [Slots.custody_of_slot? found]

theorem occupancy_eq (regular : ledger.table.Regular) :
    ledger.occupancy fd = if fd ∈ ledger.table.openFds then 1 else 0 := by
  simp only [occupancy, mem_openFds regular, ite_not]

theorem forsaken_eq (regular : ledger.table.Regular) :
    ledger.forsaken fd = if fd ∈ ledger.forsakenFds then 1 else 0 := by
  simp only [forsaken, mem_forsakenFds regular]

/-- A connection is one of those that are counted. -/
theorem Balanced.counted (balanced : ledger.Balanced limit) :
    ledger.occupancy fd ≤ ledger.live := by
  rw [occupancy_eq balanced.regular, balanced.live]
  split
  · next member => exact List.length_pos_of_mem member
  · exact Nat.zero_le _

/-- What keeps the books of one descriptor and leaves all others alone keeps the
balance. -/
theorem Balanced.of_keepsBooks (balanced : ledger.Balanced limit)
    (keeps : KeepsBooks fd ledger next)
    (slots : ∀ other, other ≠ fd → next.table.slot? other = ledger.table.slot? other)
    (timerIds : ∀ other, other ≠ fd →
      next.timerIds.find? other = ledger.timerIds.find? other) : next.Balanced limit := by
  have squares := keeps balanced.regular balanced.counted
  have regular := squares.regular
  have custody (other : Fd) (differ : other ≠ fd) :
      next.table.custody other = ledger.table.custody other := by
    rw [Slots.custody, slots other differ, ← Slots.custody]
  have occupied := @length_add_ite _ _ ledger.table.openFds next.table.openFds fd
    balanced.regular.nodup_openFds regular.nodup_openFds fun other differ => by
      rw [mem_openFds regular, mem_openFds balanced.regular, custody other differ]
  have forsaken := @length_add_ite _ _ ledger.forsakenFds next.forsakenFds fd
    (balanced.regular.nodup_fdsWhere _) (regular.nodup_fdsWhere _) fun other differ => by
      rw [mem_forsakenFds regular, mem_forsakenFds balanced.regular, custody other differ,
        timerIds other differ]
  rw [← occupancy_eq regular, ← occupancy_eq balanced.regular] at occupied
  rw [← forsaken_eq regular, ← forsaken_eq balanced.regular] at forsaken
  have accepted := squares.accepted
  have live := squares.live
  have once := squares.once
  have accepted' := balanced.accepted
  have live' := balanced.live
  have once' := balanced.once
  refine ⟨squares.settings ▸ balanced.settings, regular, by omega, by omega, ?_, by omega⟩
  rw [← balanced.settings]
  exact squares.bounded (balanced.settings ▸ balanced.bounded)

end Ledger

namespace System

open Ledger

variable {system next : System} {fd : Fd} {limit : Nat}

/-- What a handler does with a descriptor keeps the balance, since it leaves the slots and
timers of all others alone. -/
theorem Timely.balanced_of_keeps (timely : system.Timely) (idle : system.place.expired = [])
    (balanced : system.server.ledger.Balanced limit) {before after : Ledger}
    (same : before = system.server.ledger) (time : KeepsTime fd before after)
    (books : KeepsBooks fd before after) : after.Balanced limit := by
  subst same
  obtain ⟨retimes, -⟩ := time timely.sound ((timely.clocked fd).timed idle)
  exact balanced.of_keepsBooks books retimes.slots fun other differ =>
    (retimes.others other differ).id

/-- Every step of the loop and of the workers keeps the balance. -/
theorem Timely.balanced_of_moves (timely : system.Timely)
    (balanced : system.server.ledger.Balanced limit) (moves : system.Moves next) :
    next.server.ledger.Balanced limit := by
  cases moves with
  | still same => exact same ▸ balanced
  | @worked fd slot _ connection found lent same =>
      rw [same]
      refine balanced.of_keepsBooks (Server.keepsBooks_putSlot { slot with connection } found
        ?_ ?_ ?_) (fun other differ => Slots.slot?_set_of_ne differ _) (fun _ _ => rfl)
      · rcases lent with custody | custody <;> simp [custody]
      · rcases lent with custody | custody <;> simp [custody]
      · rcases lent with custody | custody <;> simp [custody]
  | takesIn takes same idle =>
      exact timely.balanced_of_keeps idle balanced same takes.keepsTime takes.keepsBooks
  | handles handles idle =>
      exact timely.balanced_of_keeps idle balanced rfl (Server.adds_keepsTime.handles handles)
        (Server.adds_keepsBooks.handles handles)
  | settles settles idle =>
      exact timely.balanced_of_keeps idle balanced rfl (Server.adds_keepsTime.settles settles)
        (Server.adds_keepsBooks.settles settles)
  | sweeps same =>
      rw [same]
      exact ⟨balanced.settings, balanced.regular, balanced.accepted, balanced.live, balanced.bounded,
        balanced.once⟩
  | evicts position evicts =>
      obtain ⟨-, due⟩ := timely.due position
      obtain ⟨retimes, -⟩ := evicts.retimes timely.sound due
      exact balanced.of_keepsBooks (evicts.keepsBooks due) retimes.slots fun other differ =>
        (retimes.others other differ).id

theorem balanced_launch {settings : Settings} {tree : FileTree} {now : Nat}
    (launched : launch? settings tree now = some system) :
    system.server.ledger.Balanced settings.maxConnections := by
  obtain ⟨-, rfl⟩ := launch?_eq_some launched
  exact ⟨rfl, Slots.regular_ofLimit settings.maxFd, rfl, rfl, Nat.zero_le _, Nat.le_refl 0⟩

theorem balanced_run (reached : Reachable system)
    (balanced : system.server.ledger.Balanced limit) {actions : List Action}
    (ran : system.run? actions = some next) : next.server.ledger.Balanced limit := by
  induction actions generalizing system with
  | nil =>
      obtain rfl := eq_of_run?_nil ran
      exact balanced
  | cons action actions ih =>
      obtain ⟨middle, stepped, rest⟩ := run?_cons_eq_some.1 ran
      have moves := Moves.of_step? reached.owned stepped
      exact ih (reached.step stepped) (reached.timely.balanced_of_moves balanced moves) rest

/-- Between two calls of handlers, in every run of the server: each connection that
was accepted is closed or live; there are as many live ones as slots in use, and
never more than the settings allow; closing one counts it down, for the count is not
zero; and those that were evicted or rejected are closed or to be closed, no
connection being counted twice. -/
theorem connections_accounted {settings : Settings} {tree : FileTree} {now : Nat}
    {first : System} {actions : List Action} (launched : launch? settings tree now = some first)
    (ran : first.run? actions = some system) :
    system.server.shared.counters.accepted =
        system.server.shared.counters.closed + system.server.shared.live ∧
      system.server.shared.live = system.server.table.openFds.length ∧
      system.server.shared.live ≤ settings.maxConnections ∧
      (∀ fd, system.server.table.custody fd ≠ .free →
        (system.server.closeNow fd).shared.live + 1 = system.server.shared.live) ∧
      system.server.shared.counters.evicted + system.server.shared.counters.rejected ≤
        system.server.shared.counters.closed + system.server.table.closingFds.length := by
  have balanced := balanced_run (.start launched) (balanced_launch launched) ran
  refine ⟨balanced.accepted, balanced.live, balanced.bounded, fun fd used => ?_, ?_⟩
  · have counted := @Balanced.counted _ fd _ balanced
    rw [occupancy_of_used (by exact used)] at counted
    have closed : (system.server.closeNow fd).shared.live = system.server.shared.live - 1 :=
      congrArg Ledger.live (Server.ledger_closeNow used)
    rw [closed]
    exact Nat.sub_add_cancel counted
  · -- Whoever has no timer any more is one of those that are to be closed.
    have some : system.server.ledger.forsakenFds.length ≤
        system.server.table.closingFds.length := by
      apply Slots.length_fdsWhere_le
      intro fd slot both
      exact (Bool.and_eq_true_iff.1 both).1
    exact Nat.le_trans balanced.once (Nat.add_le_add_left some _)

/-- A connection is accepted, and while a worker has it its timer fires. -/
def evictionDuringWork : List Action :=
  [.outside (.arrive [.connection 7 ⟨.short [10, 0, 0, 1], 4000⟩ [] []]),
    .deliver [.arrivals], .advance, .advance, .advance, .advance, .advance,
    .outside (.feed 7 [.data [71]] [] []),
    .deliver [.ready 7 ⟨true, false, false⟩], .advance,
    .proceed 0, .proceed 0, .proceed 0, .outside (.elapse 100000 []),
    .advance, .advance, .advance]

/-- After such a run the connection is counted as evicted though it is not closed yet;
it is live and in the one slot that is in use, and it is to be closed. -/
theorem connections_accounted_eviction :
    ∃ system : System, system.server.shared.counters.evicted = 1 ∧
      system.server.shared.counters.closed = 0 ∧ system.server.shared.counters.accepted = 1 ∧
      system.server.table.openFds.length = 1 ∧ 1 ≤ system.server.table.closingFds.length := by
  have evaluated : ((launch? {} ⟨0, [], []⟩ 0).bind fun first =>
      (first.run? evictionDuringWork).map fun system =>
        (system.server.shared.counters.evicted, system.server.shared.counters.closed,
          system.server.shared.live)) = some (1, 0, 1) := by decide +kernel
  simp only [Option.bind_eq_some_iff, Option.map_eq_some_iff, Prod.mk.injEq] at evaluated
  obtain ⟨first, launched, system, ran, evicted, closed, live⟩ := evaluated
  obtain ⟨accepted, counted, -, -, once⟩ := connections_accounted launched ran
  exact ⟨system, evicted, closed, by omega, by omega, by omega⟩

end System

end FileServer
