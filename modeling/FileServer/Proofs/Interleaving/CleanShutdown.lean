import FileServer.Proofs.Interleaving.Life

/-!
# Nothing is left after a stop

When the loop has ended some connections are still with the workers: their tasks wait, or
are carried out, or have left completions that nobody acts on any more.  Closing everything
does not ask who has a connection.  That each is closed once all the same rests on the
account of sockets, which every step of a life keeps, and that nothing else is left of it
on the order of the timers and the balance of the counters.
-/

namespace FileServer

/-- A connection is closed if there is one, and all other sockets stay as they are. -/
theorem Server.tends_closeAny (server : Server) (closing fd : Fd) :
    Tends fd 0 server (server.closeNow closing) := by
  by_cases used : server.table.custody closing = .free
  · rw [closeNow, if_pos used]
    exact .refl fd server
  · by_cases mine : fd = closing
    · subst mine
      exact tends_closeNow used
    · exact ((confined_closeNow server closing).leaves fd mine).tends

namespace Life

variable {life next last : Life} {action : Action} {actions : List Action} {limit : Nat}

/-- The number that the kernel hands out with a new socket in a step. -/
def acceptedBy (life : Life) (action : Action) : List Fd :=
  life.system.acceptedBy action

/-- The loop that has ended closes sockets with their connections. -/
theorem tends_conclude? (concluded : life.conclude? = some next) (fd : Fd) :
    Server.Tends fd 0 life.system.server next.system.server := by
  obtain ⟨-, ⟨closing, same⟩ | ⟨table, closed, -⟩⟩ := conclude?_cases concluded
  · rw [same]
    exact Server.tends_closeAny life.system.server closing fd
  · exact Server.tends_of_same (by rw [table]) (by rw [closed])

/-- Every step of a life keeps the account of sockets, and one that accepts adds one. -/
theorem Reached.tends (reached : life.Reached limit) (stepped : life.step? action = some next)
    (fd : Fd) :
    Server.Tends fd ((life.acceptedBy action).count fd) life.system.server next.system.server := by
  cases steps_of_step? stepped with
  | @runs after goesOn moved =>
      cases reached with
      | runs _ reached _ => exact System.tends_of_step? reached.owned moved fd
      | closes closes =>
          have other : action ≠ .advance := fun loops => goesOn loops closes.place
          rw [acceptedBy, System.acceptedBy_of_other other]
          exact System.tends_of_other closes.entrusted other moved fd
  | concludes loops ended concluded =>
      subst loops
      have none : life.acceptedBy .advance = [] := by
        simp [acceptedBy, System.acceptedBy, System.incoming?, ended]
      rw [none]
      exact tends_conclude? concluded fd

/-- A life keeps the account of sockets from its beginning on. -/
theorem Reached.tends_of_run? (reached : life.Reached limit) (ran : life.run? actions = some last)
    (fd : Fd) :
    last.Reached limit ∧ Server.Tends fd ((tale acceptedBy life actions).count fd)
      life.system.server last.system.server := by
  induction actions generalizing life with
  | nil =>
      obtain rfl := eq_of_run?_nil ran
      exact ⟨reached, .refl fd _⟩
  | cons action actions ih =>
      obtain ⟨next, stepped, rest⟩ := run?_cons_eq_some.1 ran
      obtain ⟨reaches, tends⟩ := ih (reached.step? stepped) rest
      refine ⟨reaches, ?_⟩
      simp only [tale, stepped, List.count_append]
      exact (reached.tends stepped fd).trans tends

/-- Nothing is left: no connection, no timer, no task, and no counter that tells of one. -/
structure Gone (server : Server) : Prop where
  slots : ∀ fd slot, server.table.slot? fd = some slot →
    slot.custody = .free ∧ slot.connection.isOpen = false ∧ slot.connection.file = none
  timers : server.timers.schedule? = some [] ∧ server.timers.size = 0
  timerIds : server.timerIds = .empty
  live : server.shared.live = 0
  closed : server.shared.counters.closed = server.shared.counters.accepted
  queued : server.pool.queue.items = []
  running : server.pool.running = []

theorem Gone.custody {server : Server} (gone : Gone server) (fd : Fd) :
    server.table.custody fd = .free := by
  by_contra used
  obtain ⟨slot, found, held⟩ := Slots.exists_slot?_of_used used
  exact held (gone.slots fd slot found).1

/-- The account of a server to which no connection was made. -/
theorem proper_launch {settings : Settings} {tree : FileTree} {now : Nat} {first : System}
    (launched : System.launch? settings tree now = some first) (fd : Fd) :
    (first.server.table.vacancy fd).Proper ∧ first.server.socketsOf fd = 0 := by
  obtain ⟨-, rfl⟩ := System.launch?_eq_some launched
  have vacant : (Slots.ofLimit settings.maxFd).custody fd = .free := by
    rw [Slots.custody, Slots.slot?_ofLimit]
    rfl
  refine ⟨?_, ?_⟩
  · exact Slots.proper_ofLimit settings.maxFd fd
  · change 0 + (if (Slots.ofLimit settings.maxFd).custody fd = .free then 0 else 1) = 0
    rw [if_pos vacant]

/-- The books of a life that has returned. -/
theorem Closes.gone (closes : life.Closes limit) (returned : life.ending = .returned)
    (proper : ∀ fd, (life.system.server.table.vacancy fd).Proper) :
    Gone life.system.server := by
  have closed := closes.closed returned
  have joined := closes.joined (by rw [returned]; rfl)
  have live : life.system.server.shared.live = 0 := by
    have none : life.system.server.table.openFds = [] := by
      rw [List.eq_nil_iff_forall_not_mem]
      intro fd member
      exact (Ledger.mem_openFds closes.balanced.regular).1 member (closed.custody fd)
    exact closes.balanced.live.trans (congrArg List.length none)
  refine ⟨fun fd slot found => ?_, closed.timers, closed.timerIds, live, ?_,
    closes.drained (by rw [returned]; rfl), by rw [Pool.running, joined]; rfl⟩
  · have unused : slot.custody = .free := Slots.custody_of_slot? found ▸ closed.custody fd
    obtain ⟨isOpen, unmapped⟩ := Slots.vacancy_of_slot? found ▸ proper fd
    exact ⟨unused, by rw [isOpen, unused]; rfl, unmapped unused⟩
  · have accepted := closes.balanced.accepted
    change _ = _ + life.system.server.shared.live at accepted
    rw [live] at accepted
    exact accepted.symm

/-- The sockets that were accepted under a number are those that were closed, and one more
if there is a connection. -/
theorem account_of_run? {settings : Settings} {tree : FileTree} {now : Nat} {first : System}
    (launched : System.launch? settings tree now = some first)
    (ran : (ofSystem first).run? actions = some last) (fd : Fd) :
    (last.system.server.table.vacancy fd).Proper ∧
      (tale acceptedBy (ofSystem first) actions).count fd =
        last.system.server.kernel.history.closed.count fd +
          if last.system.server.table.custody fd = .free then 0 else 1 := by
  have begins : (ofSystem first).Reached settings.maxConnections := reached_launch launched
  obtain ⟨proper, none⟩ := proper_launch launched fd
  obtain ⟨after, sockets⟩ := (begins.tends_of_run? ran fd).2 proper
  refine ⟨after, ?_⟩
  change _ = last.system.server.socketsOf fd
  rw [sockets, ofSystem, none, Nat.zero_add]

/-- Nothing is left when the loop has returned. -/
theorem gone_of_run? {settings : Settings} {tree : FileTree} {now : Nat} {first : System}
    (launched : System.launch? settings tree now = some first)
    (ran : (ofSystem first).run? actions = some last) (returned : last.ending = .returned) :
    Gone last.system.server := by
  have closes : last.Closes settings.maxConnections := by
    cases ((reached_launch launched).tends_of_run? ran 0).1 with
    | runs running => cases running.symm.trans returned
    | closes closes => exact closes
  exact closes.gone returned fun fd => (account_of_run? launched ran fd).1

/-- A server that was stopped leaves nothing behind.  At every moment of its life the sockets
that were accepted under a number are those that were closed, and one more if there is a
connection; and when the loop has returned there is none, each socket was closed once, and
neither slots nor timers, counters or tasks tell of a connection any more. -/
theorem clean_shutdown {settings : Settings} {tree : FileTree} {now : Nat} {first : System}
    (launched : System.launch? settings tree now = some first)
    (ran : (ofSystem first).run? actions = some last) :
    (∀ fd, (tale acceptedBy (ofSystem first) actions).count fd =
      last.system.server.kernel.history.closed.count fd +
        if last.system.server.table.custody fd = .free then 0 else 1) ∧
    (last.ending = .returned → Gone last.system.server ∧
      ∀ fd, last.system.server.kernel.history.closed.count fd =
        (tale acceptedBy (ofSystem first) actions).count fd) := by
  refine ⟨fun fd => (account_of_run? launched ran fd).2, fun returned => ?_⟩
  have gone := gone_of_run? launched ran returned
  refine ⟨gone, fun fd => ?_⟩
  rw [(account_of_run? launched ran fd).2, gone.custody fd]
  rfl

/-- Four connections are accepted.  A stop is asked for in the turn in which three of them
are lent and one of these is hung up. -/
def stopAmidWork : List Action :=
  [.outside (.arrive ([7, 8, 9, 10].map fun fd =>
      .connection fd ⟨.short [10, 0, 0, 1], 4000⟩ [] [])),
    .deliver [.arrivals], .advance, .advance, .advance, .advance, .advance, .advance, .advance,
    .advance,
    .outside (.feed 7 [.data [71]] [] []), .outside (.feed 8 [.data [71]] [] []),
    .outside (.feed 9 [.data [71]] [] []), .outside (.signal .interrupt),
    .deliver [.ready 7 ⟨true, false, false⟩, .ready 8 ⟨true, false, false⟩,
      .ready 9 ⟨true, false, false⟩, .ready 7 ⟨false, false, true⟩, .notices],
    .advance, .advance, .advance, .advance, .advance, .advance,
    .proceed 0, .proceed 0, .proceed 0, .proceed 1, .proceed 1, .proceed 1,
    .perform 1, .report 1, .wake 1, .advance]

/-- The workers go on between the sections in which the pool stops. -/
def closeAll : List Action :=
  [.advance, .advance, .advance, .advance, .perform 0, .report 0, .wake 0, .proceed 0,
    .proceed 1, .advance, .advance, .advance, .advance, .advance, .advance, .advance, .advance,
    .advance]

set_option synthInstance.maxSize 512 in
/-- When the loop ends one connection is to be closed and a worker is busy with it, one has
left a completion, the task of one waits, and the loop has the last.  All four are closed
once, and nothing is left. -/
theorem clean_shutdown_amid_work :
    ∃ ended last : Life,
      [7, 8, 9, 10].map ended.system.server.table.custody = [.closing, .worker, .worker, .loop] ∧
      ended.system.server.pool.running = [⟨7, 1⟩] ∧
      ended.system.server.shared.completions = [⟨8, 1, .needMore⟩] ∧
      ended.system.server.pool.queue.items = [⟨9, 1⟩] ∧
      ended.run? closeAll = some last ∧ Gone last.system.server ∧
      ∀ fd ∈ [7, 8, 9, 10], last.system.server.kernel.history.closed.count fd = 1 := by
  have evaluated : ((System.launch? { threads := 2 } ⟨0, [], []⟩ 0).bind fun first =>
      ((ofSystem first).run? stopAmidWork).bind fun ended => (ended.run? closeAll).map fun last =>
        ([7, 8, 9, 10].map ended.system.server.table.custody, ended.system.server.pool.running,
          ended.system.server.shared.completions, ended.system.server.pool.queue.items,
          last.ending, tale acceptedBy (ofSystem first) (stopAmidWork ++ closeAll))) =
      some ([.closing, .worker, .worker, .loop], [⟨7, 1⟩], [⟨8, 1, .needMore⟩], [⟨9, 1⟩],
        .returned, [7, 8, 9, 10]) := by decide +kernel
  simp only [Option.bind_eq_some_iff, Option.map_eq_some_iff, Prod.mk.injEq] at evaluated
  obtain ⟨first, launched, ended, ran, last, closed, custody, running, left, waiting, returned,
    accepted⟩ := evaluated
  have through : (ofSystem first).run? (stopAmidWork ++ closeAll) = some last := by
    rw [run?_append, ran]
    exact closed
  obtain ⟨gone, once⟩ := (clean_shutdown launched through).2 returned
  refine ⟨ended, last, custody, running, left, waiting, closed, gone, fun fd member => ?_⟩
  rw [once fd, accepted]
  exact List.count_eq_one_of_mem (by decide) member

end Life

end FileServer
