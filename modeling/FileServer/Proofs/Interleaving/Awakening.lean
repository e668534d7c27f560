import FileServer.Proofs.Interleaving.Confinement
import FileServer.Proofs.Interleaving.System

/-!
# No completion is forgotten

A worker first leaves its completion and then writes to the notification channel; the
loop first reads the channel and then takes the completions.  Between any two of these
sections others may come, entries are read that belong to completions which are not
left yet, and an entry is dropped when the channel is full.

What is left between two turns has an entry in the channel all the same, or its worker
has not come to writing yet.  The loop reads the channel only before it takes the
completions, so an entry that is written later stays until the next wait.  A write that
finds the channel full drops its entry, but then there are others, if the channel has
room for one at all.
-/

namespace FileServer

namespace Server

/-- The completions and the channel are as they were. -/
structure SameMail (before after : Server) : Prop where
  completions : after.shared.completions = before.shared.completions
  channel : after.shared.channel = before.shared.channel

theorem SameMail.refl (server : Server) : SameMail server server :=
  ⟨rfl, rfl⟩

theorem SameMail.trans {first second third : Server} (early : SameMail first second)
    (late : SameMail second third) : SameMail first third :=
  ⟨late.completions.trans early.completions, late.channel.trans early.channel⟩

/-- Before a change that leaves the mail alone, other parts of the server may change. -/
theorem SameMail.behind {first second third : Server} (late : SameMail second third)
    (completions : second.shared.completions = first.shared.completions)
    (channel : second.shared.channel = first.shared.channel) : SameMail first third :=
  ⟨late.completions.trans completions, late.channel.trans channel⟩

variable {server next : Server}

/-! ## Handlers leave the mail alone -/

theorem sameMail_release (server : Server) (fd : Fd) : SameMail server (server.release fd) := by
  simp only [release]
  split
  · exact ⟨rfl, rfl⟩
  · exact .refl server

theorem sameMail_dropTimer (server : Server) (fd : Fd) : SameMail server (server.dropTimer fd) := by
  simp only [dropTimer]
  split
  · exact ⟨rfl, rfl⟩
  · exact .refl server

theorem sameMail_closeNow (server : Server) (fd : Fd) : SameMail server (server.closeNow fd) := by
  simp only [closeNow]
  split
  · exact .refl server
  · refine .trans ?_ (sameMail_release _ fd)
    have dropped := sameMail_dropTimer { server with kernel := server.kernel.unregister fd } fd
    exact ⟨dropped.completions, dropped.channel⟩

theorem sameMail_closeOrDefer (server : Server) (fd : Fd) :
    SameMail server (server.closeOrDefer fd) := by
  simp only [closeOrDefer]
  split
  · exact .refl server
  · split
    · exact .refl server
    · exact sameMail_closeNow server fd
    · exact ⟨rfl, rfl⟩
    · exact ⟨rfl, rfl⟩

theorem sameMail_rearm (server : Server) (fd : Fd) (interest : Interest) :
    SameMail server (server.rearm fd interest) := by
  simp only [rearm]
  split
  · exact ⟨rfl, rfl⟩
  · exact sameMail_closeNow server fd

theorem sameMail_refreshTimer {fd : Fd} {generation : Nat}
    (refreshed : server.refreshTimer fd generation = .ok next) : SameMail server next := by
  simp only [refreshTimer] at refreshed
  split at refreshed
  · cases refreshed
  · split at refreshed
    · cases refreshed
      exact ⟨rfl, rfl⟩
    · split at refreshed <;> cases refreshed <;> exact ⟨rfl, rfl⟩

theorem sameMail_takeIn {fd : Fd} {peer : Address} (taken : server.takeIn fd peer = .ok next) :
    SameMail server next := by
  simp only [takeIn] at taken
  split at taken
  · cases taken
    exact ⟨rfl, rfl⟩
  · split at taken
    · cases taken
      exact ⟨rfl, rfl⟩
    · split at taken
      · cases taken
        exact ⟨rfl, rfl⟩
      · next generation table opened =>
          simp only [watch] at taken
          split at taken
          · cases taken
            exact (sameMail_release _ fd).behind rfl rfl
          · split at taken
            · cases taken
            · cases taken
              exact ⟨rfl, rfl⟩

theorem sameMail_dispatch (server : Server) (fd : Fd) (slot : Slot) :
    SameMail server (server.dispatch fd slot) := by
  simp only [dispatch]
  split
  · exact ⟨rfl, rfl⟩
  · have closed := sameMail_closeNow (server.record Counters.countRejection) fd
    exact ⟨closed.completions, closed.channel⟩

theorem sameMail_handleReadable {fd : Fd} (handled : server.handleReadable fd = .ok next) :
    SameMail server next := by
  simp only [handleReadable] at handled
  split at handled
  · cases handled
    exact .refl server
  · split at handled
    · cases handled
      exact .refl server
    · split at handled
      · cases handled
        exact (sameMail_closeNow _ fd).behind rfl rfl
      · split at handled
        · cases handled
        · next timed =>
            cases handled
            exact .behind (.trans (sameMail_refreshTimer timed) (sameMail_dispatch _ fd _)) rfl rfl

theorem sameMail_handleWritable {fd : Fd} (handled : server.handleWritable fd = .ok next) :
    SameMail server next := by
  have rearmed {written last : Server} {generation : Nat} {interest : Interest}
      (refreshed : (written.refreshTimer fd generation).map (fun next => next.rearm fd interest) =
        .ok last) : SameMail written last := by
    obtain ⟨middle, timed, rfl⟩ := exists_of_map_eq_ok refreshed
    exact (sameMail_refreshTimer timed).trans (sameMail_rearm middle fd interest)
  simp only [handleWritable] at handled
  split at handled
  · cases handled
    exact .refl server
  · split at handled
    · cases handled
      exact .refl server
    · split at handled
      · exact (rearmed handled).behind rfl rfl
      · exact (rearmed handled).behind rfl rfl
      · cases handled
        exact (sameMail_closeNow _ fd).behind rfl rfl
      · cases handled
        exact (sameMail_closeNow _ fd).behind rfl rfl

theorem sameMail_handleReady {fd : Fd} {readiness : Readiness}
    (handled : server.handleReady fd readiness = .ok next) : SameMail server next := by
  simp only [handleReady] at handled
  split at handled
  · cases handled
    exact sameMail_closeOrDefer server fd
  · split at handled
    · exact sameMail_handleReadable handled
    · split at handled
      · exact sameMail_handleWritable handled
      · cases handled
        exact .refl server

theorem sameMail_handleCompletion (server : Server) (done : Completion) :
    SameMail server (server.handleCompletion done) := by
  simp only [handleCompletion]
  split
  · exact .refl server
  · split
    · exact .refl server
    · split
      · split
        · exact sameMail_closeNow server done.fd
        · exact .refl server
      · split
        · exact (sameMail_rearm _ done.fd .readable).behind rfl rfl
        · exact (sameMail_rearm _ done.fd .writable).behind rfl rfl
        · exact (sameMail_closeNow _ done.fd).behind rfl rfl

theorem sameMail_evict (server : Server) (expired : Fd × Nat) :
    SameMail server (server.evict expired) := by
  simp only [evict]
  split
  · exact ⟨rfl, rfl⟩
  · split
    · exact (sameMail_closeOrDefer _ expired.1).behind rfl rfl
    · exact ⟨rfl, rfl⟩

/-- Acting on notices changes neither completions nor channel. -/
theorem sameMail_notices (notices : List Notice) (state : Bool × Server) :
    SameMail state.2 (notices.foldl handleNotice state).2 := by
  induction notices generalizing state with
  | nil => exact .refl state.2
  | cons first rest ih =>
      have one : SameMail state.2 (handleNotice state first).2 := by
        cases first <;> exact ⟨rfl, rfl⟩
      exact one.trans (ih (handleNotice state first))

/-- Reading the channel leaves it empty and the completions as they are. -/
theorem mail_handleNotices (server : Server) :
    server.handleNotices.2.shared.completions = server.shared.completions ∧
      server.handleNotices.2.shared.channel = ⟨server.shared.channel.capacity, []⟩ := by
  have same := sameMail_notices server.shared.channel.drain.1
    (false, { server with shared := { server.shared with channel := server.shared.channel.drain.2 } })
  exact ⟨same.completions, same.channel⟩

end Server

namespace System

/-! ## What one step does to the mail -/

/-- A system whose channel has room for so many entries, and has none. -/
def withChannel (system : System) (capacity : Nat) : System :=
  { system with server := { system.server with
      shared := { system.server.shared with channel := .ofCapacity capacity } } }

/-- Whether the loop is between its wait and the moment when it takes the completions. -/
def isServing (system : System) : Bool :=
  match system.place with
  | .serving _ _ | .accepting _ _ => true
  | .waiting | .settling _ _ | .sweeping _ | .stopped => false

/-- The completion that an action leaves. -/
def leftBy (system : System) : Action → List Completion
  | .report index =>
      match system.server.pool.workers[index]?, system.stages[index]? with
      | some (.busy task), some (.worked outcome) => [task.completion outcome]
      | _, _ => []
  | _ => []

/-- The completions that an action takes. -/
def takenBy (system : System) : Action → List Completion
  | .advance =>
      match system.place with
      | .serving [] _ => system.server.shared.completions
      | _ => []
  | _ => []

/-- The completion that an action acts on. -/
def settledBy (system : System) : Action → List Completion
  | .advance =>
      match system.place with
      | .settling (done :: _) _ => [done]
      | _ => []
  | _ => []

theorem settledBy_of_ne {action : Action} (other : action ≠ .advance) (system : System) :
    system.settledBy action = [] := by
  cases action with
  | advance => exact (other rfl).elim
  | outside | proceed | perform | report | wake | deliver => rfl

/-- What one step does to completions and channel, which completions it leaves, and which it
takes. -/
inductive Posts (system next : System) : List Completion → List Completion → Prop
  /-- Nothing happens to them. -/
  | none (mail : Server.SameMail system.server next.server) (stages : next.stages = system.stages)
      (place : next.isServing = system.isServing) : Posts system next [] []
  /-- A worker has worked on a connection. -/
  | works {index : Nat} {outcome : Processed}
      (mail : Server.SameMail system.server next.server) (place : next.isServing = system.isServing)
      (stage : system.stages[index]? = some .clear)
      (stages : next.stages = system.stages.set index (.worked outcome)) : Posts system next [] []
  /-- A worker leaves a completion. -/
  | leaves {index : Nat} {done : Completion} {outcome : Processed}
      (completions : next.server.shared.completions = system.server.shared.completions ++ [done])
      (channel : next.server.shared.channel = system.server.shared.channel)
      (stage : system.stages[index]? = some (.worked outcome))
      (stages : next.stages = system.stages.set index .reported) : Posts system next [done] []
  /-- A worker, or someone outside, writes to the channel. -/
  | sends (signal : Signal)
      (completions : next.server.shared.completions = system.server.shared.completions)
      (channel : next.server.shared.channel = system.server.shared.channel.send signal) :
      Posts system next [] []
  /-- The wait of the loop ends. -/
  | awakes (mail : Server.SameMail system.server next.server) (place : next.isServing = true) :
      Posts system next [] []
  /-- The loop reads the channel. -/
  | reads (completions : next.server.shared.completions = system.server.shared.completions)
      (channel : next.server.shared.channel = ⟨system.server.shared.channel.capacity, []⟩)
      (place : next.isServing = true) : Posts system next [] []
  /-- The loop takes the completions. -/
  | takes (completions : next.server.shared.completions = [])
      (channel : next.server.shared.channel = system.server.shared.channel) :
      Posts system next [] system.server.shared.completions

theorem isServing_endTurn (system : System) : system.endTurn.isServing = false := by
  cases stopping : system.server.stopping <;> simp [endTurn, isServing, stopping]

variable {system next : System}

theorem posts_of_perform? {index : Nat} (stepped : system.perform? index = some next) :
    system.Posts next [] [] := by
  simp only [perform?] at stepped
  split at stepped
  · next task busy clear =>
      split at stepped
      · cases stepped
      · next slot found =>
          cases stepped
          refine .works ⟨?_, ?_⟩ rfl clear rfl
          · simp only [Task.perform]
            split <;> rfl
          · simp only [Task.perform]
            split <;> rfl
  · cases stepped

theorem posts_of_report? {index : Nat} (stepped : system.report? index = some next) :
    system.Posts next (system.leftBy (.report index)) [] := by
  simp only [report?] at stepped
  split at stepped
  · next task outcome busy worked =>
      cases stepped
      simp only [leftBy, busy, worked]
      exact .leaves rfl rfl worked rfl
  · cases stepped

/-- A step of the loop, as far as the mail is concerned. -/
theorem Advances.posts (advances : system.Advances next) :
    system.Posts next [] (system.takenBy .advance) := by
  cases advances with
  | collect place =>
      simp only [takenBy, place]
      exact .takes rfl rfl
  | listen place =>
      simp only [takenBy, place]
      exact .none (.refl _) rfl (by simp only [isServing, place])
  | @handle event events sweepDue due server place other handled =>
      simp only [takenBy, place]
      cases event with
      | arrivals => exact (other rfl).elim
      | notices =>
          obtain rfl : system.server.handleNotices.2 = server :=
            congrArg Prod.snd (Except.ok.inj handled)
          obtain ⟨completions, channel⟩ := Server.mail_handleNotices system.server
          exact .reads completions channel rfl
      | ready fd readiness =>
          obtain ⟨handledOne, ready, same⟩ := exists_of_map_eq_ok handled
          cases same
          exact .none (Server.sameMail_handleReady ready) rfl (by simp only [isServing, place])
  | acceptNone place =>
      simp only [takenBy, place]
      exact .none (.refl _) rfl (by simp only [isServing, place])
  | acceptAgain place =>
      simp only [takenBy, place]
      exact .none ⟨rfl, rfl⟩ rfl (by simp only [isServing, place])
  | acceptFails place =>
      simp only [takenBy, place]
      exact .none ⟨rfl, rfl⟩ rfl (by simp only [isServing, place])
  | accept place _ taken =>
      simp only [takenBy, place]
      exact .none ((Server.sameMail_takeIn taken).behind rfl rfl) rfl
        (by simp only [isServing, place])
  | settle place =>
      simp only [takenBy, place]
      exact .none (Server.sameMail_handleCompletion _ _) rfl (by simp only [isServing, place])
  | beginSweep place =>
      simp only [takenBy, place]
      exact .none ⟨rfl, rfl⟩ rfl (by simp only [isServing, place])
  | rest place =>
      simp only [takenBy, place]
      exact .none (.refl _) rfl (by rw [isServing_endTurn]; simp only [isServing, place])
  | evict place =>
      simp only [takenBy, place]
      exact .none (Server.sameMail_evict _ _) rfl (by simp only [isServing, place])
  | endSweep place =>
      simp only [takenBy, place]
      exact .none ⟨rfl, rfl⟩ rfl (by rw [isServing_endTurn]; simp only [isServing, place])

/-- Every step is one of these. -/
theorem posts_of_step? {action : Action} (stepped : system.step? action = some next) :
    system.Posts next (system.leftBy action) (system.takenBy action) := by
  cases action with
  | outside circumstance =>
      cases stepped
      cases circumstance with
      | signal signal => exact .sends signal rfl rfl
      | elapse | arrive | feed => exact .none ⟨rfl, rfl⟩ rfl rfl
  | proceed index =>
      simp only [step?, proceed?] at stepped
      split at stepped
      · cases stepped
        exact .none ⟨rfl, rfl⟩ rfl rfl
      · cases stepped
  | perform index => exact posts_of_perform? stepped
  | report index => exact posts_of_report? stepped
  | wake index =>
      simp only [step?, wake?] at stepped
      split at stepped
      · cases stepped
        exact .sends .wake rfl rfl
      · cases stepped
  | deliver events =>
      simp only [step?, deliver?] at stepped
      split at stepped
      · cases stepped
        exact .awakes ⟨rfl, rfl⟩ rfl
      · cases stepped
  | advance => exact (Advances.of_advance? stepped).posts

/-! ## What is left is told -/

/-- The channel has room for an entry, and outside of the part of a turn in which the loop
reads it, completions that are left have an entry there or a worker about to write it. -/
structure Told (capacity : Nat) (system : System) : Prop where
  size : system.server.shared.channel.capacity = capacity
  bounded : system.server.shared.channel.pending.length ≤ capacity
  told : system.isServing = false → system.server.shared.completions ≠ [] →
    system.server.shared.channel.pending ≠ [] ∨
      ∃ index : Nat, system.stages[index]? = some .reported

theorem Told.posts {capacity : Nat} (told : system.Told capacity) (positive : 0 < capacity)
    {left taken : List Completion} (posts : system.Posts next left taken) :
    next.Told capacity := by
  cases posts with
  | none mail stages place =>
      refine ⟨by rw [mail.channel, told.size], by rw [mail.channel]; exact told.bounded, ?_⟩
      rw [place, mail.completions, mail.channel, stages]
      exact told.told
  | @works index outcome mail place stage stages =>
      refine ⟨by rw [mail.channel, told.size], by rw [mail.channel]; exact told.bounded, ?_⟩
      rw [place, mail.completions, mail.channel, stages]
      intro idle some_left
      rcases told.told idle some_left with pending | ⟨other, reported⟩
      · exact .inl pending
      · have differs : index ≠ other := by
          rintro rfl
          cases stage.symm.trans reported
        exact .inr ⟨other, by rw [List.getElem?_set_ne differs, reported]⟩
  | @leaves index done outcome completions channel stage stages =>
      refine ⟨by rw [channel, told.size], by rw [channel]; exact told.bounded, ?_⟩
      intro _ _
      obtain ⟨inside, -⟩ := List.getElem?_eq_some_iff.1 stage
      exact .inr ⟨index, by rw [stages, List.getElem?_set_self inside]⟩
  | sends signal completions channel =>
      have room : 0 < system.server.shared.channel.capacity := by rwa [told.size]
      have keeps : (system.server.shared.channel.send signal).capacity = capacity := by
        rw [← told.size, Channel.send]
        split <;> rfl
      have within := Channel.send_le_capacity (told.size ▸ told.bounded) signal
      refine ⟨by rw [channel, keeps], by rw [channel]; rwa [keeps] at within, fun _ _ => ?_⟩
      rw [channel]
      exact .inl (Channel.pending_send_ne_nil room signal)
  | awakes mail place =>
      refine ⟨by rw [mail.channel, told.size], by rw [mail.channel]; exact told.bounded, ?_⟩
      intro idle
      cases place.symm.trans idle
  | reads completions channel place =>
      refine ⟨by rw [channel, told.size], by rw [channel]; exact Nat.zero_le capacity, ?_⟩
      intro idle
      cases place.symm.trans idle
  | takes completions channel =>
      refine ⟨by rw [channel, told.size], by rw [channel]; exact told.bounded, ?_⟩
      intro _ some_left
      exact (some_left completions).elim

/-- What a step leaves and what it takes add up. -/
theorem Posts.balance {left taken : List Completion} (posts : system.Posts next left taken) :
    system.server.shared.completions ++ left = taken ++ next.server.shared.completions := by
  cases posts with
  | none mail | works mail | awakes mail => rw [mail.completions, List.append_nil, List.nil_append]
  | leaves completions => rw [completions, List.nil_append]
  | sends _ completions | reads completions =>
      rw [completions, List.append_nil, List.nil_append]
  | takes completions => rw [completions]

/-- What the loop has taken it acts on in order. -/
theorem settled_of_step? {action : Action} (stepped : system.step? action = some next) :
    system.place.taken ++ system.takenBy action = system.settledBy action ++ next.place.taken := by
  cases action with
  | outside | proceed | perform | report | wake =>
      have same : next.place = system.place := by
        simp only [step?, proceed?, perform?, report?, wake?] at stepped
        repeat' split at stepped
        all_goals cases stepped
        all_goals rfl
      simp only [same, takenBy, settledBy, List.append_nil, List.nil_append]
  | deliver events =>
      simp only [step?, deliver?] at stepped
      split at stepped
      · next place =>
          cases stepped
          simp only [place, takenBy, settledBy, Place.taken, List.append_nil]
      · cases stepped
  | advance =>
      have ends (other : System) : other.endTurn.place.taken = [] := by
        cases stopping : other.server.stopping <;> simp [endTurn, stopping, Place.taken]
      cases Advances.of_advance? stepped with
      | collect place | listen place | handle place | acceptNone place | acceptAgain place
      | acceptFails place | accept place | settle place | beginSweep place | evict place =>
          simp [place, takenBy, settledBy, Place.taken, Shared.takeCompletions]
      | rest place | endSweep place =>
          rw [ends]
          simp [place, takenBy, settledBy, Place.taken]

theorem Told.run {capacity : Nat} (told : system.Told capacity) (positive : 0 < capacity)
    {actions : List Action} (ran : system.run? actions = some next) : next.Told capacity := by
  induction actions generalizing system with
  | nil =>
      obtain rfl := eq_of_run?_nil ran
      exact told
  | cons action actions ih =>
      obtain ⟨middle, stepped, rest⟩ := run?_cons_eq_some.1 ran
      exact ih (told.posts positive (posts_of_step? stepped)) rest

/-- A quantity that each step carries on, carried on by a run: what is there at the beginning
and what comes in is what goes out and what is there at the end. -/
theorem tale_balance {comesIn goesOut : System → Action → List Completion}
    (stock : System → List Completion)
    (balance : ∀ {system next : System} {action : Action}, system.step? action = some next →
      stock system ++ comesIn system action = goesOut system action ++ stock next)
    {actions : List Action} (ran : system.run? actions = some next) :
    stock system ++ tale comesIn system actions =
      tale goesOut system actions ++ stock next := by
  induction actions generalizing system with
  | nil =>
      obtain rfl := eq_of_run?_nil ran
      exact List.append_nil _
  | cons action actions ih =>
      obtain ⟨middle, stepped, rest⟩ := run?_cons_eq_some.1 ran
      simp only [tale, stepped]
      rw [← List.append_assoc, balance stepped, List.append_assoc, ih rest, List.append_assoc]

/-- No completion is forgotten.  Let the notification channel have room for any number of
entries but none, and let workers and loop take their steps in any order.  Whenever the loop
is about to wait and completions are left, the channel has an entry, or a worker has left its
completion and not written to the channel yet; then nothing keeps it from writing, and there
will be an entry.  The loop takes the completions in the order in which they were left, each
of them once, and acts on each that it has taken once. -/
theorem no_completion_forgotten {settings : Settings} {tree : FileTree} {now capacity : Nat}
    {first : System} (launched : launch? settings tree now = some first) (positive : 0 < capacity)
    {actions : List Action} (ran : (first.withChannel capacity).run? actions = some system) :
    (system.place = .waiting → system.server.shared.completions ≠ [] →
      system.server.shared.channel.pending ≠ [] ∨
        ∃ (index : Nat) (next : System), system.stages[index]? = some .reported ∧
          system.step? (.wake index) = some next ∧
          next.server.shared.channel.pending ≠ []) ∧
    system.server.shared.channel.pending.length ≤ capacity ∧
    tale leftBy (first.withChannel capacity) actions =
      tale takenBy (first.withChannel capacity) actions ++ system.server.shared.completions ∧
    tale takenBy (first.withChannel capacity) actions =
      tale settledBy (first.withChannel capacity) actions ++ system.place.taken := by
  obtain ⟨blank, idle⟩ : first.server.shared.completions = [] ∧ first.place.taken = [] := by
    obtain ⟨-, rfl⟩ := launch?_eq_some launched
    exact ⟨rfl, rfl⟩
  have initially : (first.withChannel capacity).Told capacity :=
    ⟨rfl, Nat.zero_le capacity, fun _ some_left => (some_left blank).elim⟩
  have told := initially.run positive ran
  have taken := tale_balance (fun system => system.server.shared.completions)
    (fun stepped => (posts_of_step? stepped).balance) ran
  have settled := tale_balance (fun system => system.place.taken) settled_of_step? ran
  rw [show (first.withChannel capacity).server.shared.completions = [] from blank,
    List.nil_append] at taken
  rw [show (first.withChannel capacity).place.taken = [] from idle, List.nil_append] at settled
  refine ⟨?_, told.bounded, taken, settled⟩
  intro waiting some_left
  refine (told.told (by simp only [isServing, waiting]) some_left).imp_right ?_
  rintro ⟨index, reported⟩
  obtain ⟨next, stepped⟩ : ∃ next, system.step? (.wake index) = some next := by
    simp [step?, wake?, reported]
  refine ⟨index, next, reported, stepped, ?_⟩
  simp only [step?, wake?, reported, Option.some.injEq] at stepped
  subst stepped
  exact Channel.pending_send_ne_nil (by rw [told.size]; exact positive) .wake

/-- A worker leaves a completion right after the loop has taken them, and the loop comes to
its wait before the worker writes. -/
def reportBehindTheLoop : List Action :=
  [.outside (.arrive [.connection 7 ⟨.short [10, 0, 0, 1], 4000⟩ [] []]),
    .deliver [.arrivals], .advance, .advance, .advance, .advance, .advance,
    .outside (.feed 7 [.data [71]] [] []),
    .deliver [.ready 7 ⟨true, false, false⟩], .advance,
    .proceed 0, .proceed 0, .proceed 0, .perform 0, .advance, .report 0, .advance]

/-- The loop is about to wait, a completion is left and the channel is empty; the worker will
write to it, though there is room for a single entry. -/
theorem no_completion_forgotten_behind :
    ∃ (system next : System) (index : Nat), system.place = .waiting ∧
      system.server.shared.completions = [⟨7, 1, .needMore⟩] ∧
      system.server.shared.channel.pending = [] ∧
      system.step? (.wake index) = some next ∧ next.server.shared.channel.pending ≠ [] := by
  have evaluated : ((launch? {} ⟨0, [], []⟩ 0).bind fun first =>
      ((first.withChannel 1).run? reportBehindTheLoop).map fun system =>
        (system.place, system.server.shared.completions,
          system.server.shared.channel.pending)) =
      some (.waiting, [⟨7, 1, .needMore⟩], []) := by decide +kernel
  simp only [Option.bind_eq_some_iff, Option.map_eq_some_iff, Prod.mk.injEq] at evaluated
  obtain ⟨first, launched, system, ran, waiting, left, empty⟩ := evaluated
  obtain ⟨told, -⟩ := no_completion_forgotten launched (Nat.le_refl 1) ran
  rcases told waiting (by rw [left]; exact List.cons_ne_nil _ _) with
    pending | ⟨index, next, -, stepped, awake⟩
  · exact (pending empty).elim
  · exact ⟨system, next, index, waiting, left, empty, stepped, awake⟩

end System

end FileServer
