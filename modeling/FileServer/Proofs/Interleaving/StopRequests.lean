import FileServer.Proofs.Interleaving.Activity
import FileServer.Proofs.Interleaving.Awakening
import FileServer.Proofs.Interleaving.Lawful
import FileServer.Proofs.Interleaving.Marks

/-!
# Requests to stop

Whoever asks the server to end writes an entry to the notification channel, and so does a
worker that wakes the loop.  A write that finds the channel full drops its entry.  That
does no harm to an entry that only wakes the loop, since the loop is woken by those
before it; a request to stop is lost with its entry.

What the loop is told when it reads the channel are the entries that were written first
since it read it last, as many as the channel has room for.  So a request to stop is
heeded exactly if it is among these, and then the turn is the last one.
-/

namespace FileServer

namespace Channel

/-- Of entries that are written one after the other those are kept that find room. -/
theorem foldl_send (signals : List Signal) (channel : Channel) :
    signals.foldl send channel = { channel with
      pending := channel.pending ++
        signals.take (channel.capacity - channel.pending.length) } := by
  induction signals generalizing channel with
  | nil => simp
  | cons signal rest ih =>
      rw [List.foldl_cons, ih, send]
      split
      · next room =>
          obtain ⟨left, enough⟩ : ∃ left,
              channel.capacity - channel.pending.length = left + 1 :=
            ⟨channel.capacity - channel.pending.length - 1, by omega⟩
          have after : channel.capacity - (channel.pending ++ [signal]).length = left := by
            rw [List.length_append, List.length_singleton]
            omega
          simp only [after, enough, List.take_succ_cons, List.append_assoc, List.cons_append,
            List.nil_append]
      · next full =>
          have none : channel.capacity - channel.pending.length = 0 := by omega
          simp only [none, List.take_zero]

/-- What is read from a channel that was empty are the first entries. -/
theorem drain_foldl_send (capacity : Nat) (signals : List Signal) :
    (signals.foldl send (ofCapacity capacity)).drain.1 =
      (signals.take capacity).map Signal.notice := by
  rw [foldl_send]
  rfl

/-- A request to stop that is written behind as many other entries as the channel has room
for is not read: the loop is told of nothing but these entries. -/
theorem stop_request_lost :
    ¬∀ (capacity : Nat) (signals : List Signal), 1 ≤ capacity →
      (∃ signal ∈ signals, signal.notice = .stop) →
      .stop ∈ (signals.foldl send (ofCapacity capacity)).drain.1 := by
  intro heeded
  have told := heeded defaultCapacity (List.replicate defaultCapacity .wake ++ [.terminate])
    (by decide) ⟨.terminate, by simp, rfl⟩
  rw [drain_foldl_send, List.take_left' List.length_replicate, List.map_replicate] at told
  cases List.eq_of_mem_replicate told

end Channel

namespace System

/-! ## What is written until the channel is read -/

/-- The entries that an action writes to the channel, if there is room for them. -/
def writtenBy (_ : System) : Action → List Signal
  | .outside (.signal signal) => [signal]
  | .wake _ => [.wake]
  | _ => []

/-- Whether the next step of the loop is to read the channel. -/
def isListening (system : System) : Bool :=
  match system.place with
  | .serving (.notices :: _) _ => true
  | _ => false

/-- The channel is not read. -/
def LeavesUnread : Rule
  | system, .advance => system.isListening = false
  | _, _ => True

instance decidableLeavesUnread (system : System) :
    (action : Action) → Decidable (LeavesUnread system action)
  | .advance => inferInstanceAs (Decidable (system.isListening = false))
  | .outside _ | .proceed _ | .perform _ | .report _ | .wake _ | .deliver _ => .isTrue trivial

variable {system next last : System} {action : Action} {actions : List Action}

/-- A step of the loop leaves the channel as it is, unless it reads it. -/
theorem Advances.channel_eq (advances : system.Advances next)
    (unread : system.isListening = false) :
    next.server.shared.channel = system.server.shared.channel := by
  cases advances with
  | collect | listen | acceptNone | acceptAgain | acceptFails | beginSweep | rest | endSweep => rfl
  | @handle event events sweepDue due server place other handled =>
      cases event with
      | arrivals => exact (other rfl).elim
      | notices => simp [isListening, place] at unread
      | ready fd readiness =>
          obtain ⟨-, acted⟩ := Server.handleReady_of_handle handled
          exact (Server.sameMail_handleReady acted).channel
  | accept _ _ taken => exact (Server.sameMail_takeIn taken).channel
  | settle => exact (Server.sameMail_handleCompletion _ _).channel
  | evict => exact (Server.sameMail_evict _ _).channel

/-- A loop that listens reads the channel and goes on with the events behind. -/
theorem Advances.reads (advances : system.Advances next) (listening : system.isListening = true) :
    next.server = system.server.handleNotices.2 ∧
      ∃ events sweepDue, next.place = .serving events sweepDue := by
  cases advances with
  | @handle event events sweepDue due server place other handled =>
      cases event with
      | arrivals => exact (other rfl).elim
      | ready fd readiness => simp [isListening, place] at listening
      | notices => exact ⟨(congrArg Prod.snd (Except.ok.inj handled)).symm, _, _, rfl⟩
  | listen place => simp [isListening, place] at listening
  | collect place | acceptNone place | acceptAgain place | acceptFails place | accept place
  | settle place | beginSweep place | rest place | evict place | endSweep place =>
      simp [isListening, place] at listening

theorem channel_of_step? (stepped : system.step? action = some next)
    (unread : LeavesUnread system action) :
    next.server.shared.channel =
      (system.writtenBy action).foldl Channel.send system.server.shared.channel := by
  cases action with
  | advance => exact (Advances.of_advance? stepped).channel_eq unread
  | outside circumstance =>
      cases stepped
      cases circumstance <;> rfl
  | perform worker =>
      obtain ⟨task, slot, -, -, -, rfl⟩ := perform?_eq_some stepped
      simp only [Task.perform]
      split <;> rfl
  | proceed | report | wake | deliver =>
      simp only [step?, proceed?, report?, wake?, deliver?] at stepped
      split at stepped
      · cases stepped
        rfl
      · cases stepped

theorem Owned.run (owned : system.Owned) (ran : system.run? actions = some last) :
    last.Owned := by
  induction actions generalizing system with
  | nil =>
      obtain rfl := eq_of_run?_nil ran
      exact owned
  | cons action actions ih =>
      obtain ⟨next, stepped, rest⟩ := run?_cons_eq_some.1 ran
      exact ih (owned.step? stepped) rest

/-- Where the channel is not read, what is written is added to it, and nobody learns of a
request to stop. -/
theorem unread_of_run (owned : system.Owned) (ran : system.run? actions = some last)
    (unread : system.Observes LeavesUnread actions) :
    last.server.shared.channel =
        (tale writtenBy system actions).foldl Channel.send system.server.shared.channel ∧
      last.server.stopping = system.server.stopping := by
  induction actions generalizing system with
  | nil =>
      obtain rfl := eq_of_run?_nil ran
      exact ⟨rfl, rfl⟩
  | cons action actions ih =>
      obtain ⟨next, stepped, rest⟩ := run?_cons_eq_some.1 ran
      obtain ⟨now, later⟩ := unread
      rw [stepped] at later
      obtain ⟨channel, flag⟩ := ih (owned.step? stepped) rest later
      have same : next.server.stopping = system.server.stopping := by
        have marks := leavesMarks_of_step? owned stepped
        cases marks with
        | none same => exact congrArg Marks.stopping same
        | reads position => simp [LeavesUnread, isListening, position] at now
        | works _ _ marks | sends _ _ _ _ marks => exact congrArg Marks.stopping marks
      refine ⟨?_, flag.trans same⟩
      rw [channel, channel_of_step? stepped now]
      simp only [tale, stepped, List.foldl_append]

/-! ## The last turn -/

/-- A turn in which the loop is asked to end is not followed by another. -/
structure Ends (system : System) : Prop where
  stopping : system.server.stopping = true
  place : system.place ≠ .waiting

theorem Ends.step? (ends : system.Ends) (owned : system.Owned)
    (stepped : system.step? action = some next) : next.Ends := by
  have stopping : next.server.stopping = true := by
    have flag := ends.stopping
    cases leavesMarks_of_step? owned stepped with
    | none same => exact (congrArg Marks.stopping same).trans flag
    | reads _ marks =>
        have asked := congrArg Marks.stopping marks
        simp only [flag, Bool.true_or] at asked
        exact asked
    | works _ _ marks | sends _ _ _ _ marks => exact (congrArg Marks.stopping marks).trans flag
  refine ⟨stopping, ?_⟩
  by_cases loops : action = .advance
  · subst loops
    cases Advances.of_advance? stepped with
    | rest | endSweep =>
        simp only [endTurn] at stopping ⊢
        simp [stopping]
    | acceptAgain | accept => exact ends.place
    | collect | listen | handle | acceptNone | acceptFails | settle | beginSweep | evict => simp
  · rcases (rests_of_step? loops stepped).2 with same | ⟨events, -, serving⟩
    · exact same ▸ ends.place
    · simp [serving]

theorem Ends.run (ends : system.Ends) (owned : system.Owned)
    (ran : system.run? actions = some last) : last.Ends := by
  induction actions generalizing system with
  | nil =>
      obtain rfl := eq_of_run?_nil ran
      exact ends
  | cons action actions ih =>
      obtain ⟨next, stepped, rest⟩ := run?_cons_eq_some.1 ran
      exact ih (ends.step? owned stepped) (owned.step? stepped) rest

/-- A request to stop is heeded exactly if the channel has room for it.  Let the channel be
empty, let anything happen until the loop is to read it, and let any entries be written on
the way.  The loop then reads the first of them, as many as the channel has room for, and
it is asked to end if it was so before or if a request to stop is among these.  When it is
asked to end it does not wait again. -/
theorem stop_heeded_iff {settings : Settings} {tree : FileTree} {now capacity : Nat}
    {first system : System} {before between : List Action}
    (launched : launch? settings tree now = some first)
    (ran : (first.withChannel capacity).run? before = some system)
    (empty : system.server.shared.channel = .ofCapacity capacity)
    (went : system.run? between = some last) (unread : system.Observes LeavesUnread between)
    (listening : last.isListening = true) (stepped : last.step? .advance = some next) :
    last.server.shared.channel.drain.1 =
        ((tale writtenBy system between).take capacity).map Signal.notice ∧
      (next.server.stopping = true ↔ system.server.stopping = true ∨
        ∃ signal ∈ (tale writtenBy system between).take capacity, signal.notice = .stop) ∧
      (next.server.stopping = true → ∀ (after : List Action) (late : System),
        next.run? after = some late → late.server.stopping = true ∧ late.place ≠ .waiting) := by
  have start : (first.withChannel capacity).Owned :=
    (owned_launch launched).of_same rfl rfl rfl
  have owned := (start.run ran).run went
  obtain ⟨channel, same⟩ := unread_of_run (start.run ran) went unread
  have read : last.server.shared.channel.drain.1 =
      ((tale writtenBy system between).take capacity).map Signal.notice := by
    rw [channel, empty, Channel.drain_foldl_send]
  obtain ⟨told, events, due, serving⟩ := (Advances.of_advance? stepped).reads listening
  have flag : next.server.stopping =
      (last.server.stopping || last.server.shared.channel.drain.1.contains .stop) := by
    rw [told]
    exact congrArg Marks.stopping (Server.marks_handleNotices last.server)
  refine ⟨read, ?_, fun stopping after late wentOn => ?_⟩
  · rw [flag, read, same, Bool.or_eq_true, List.contains_iff_mem, List.mem_map]
  · have ends := Ends.run ⟨stopping, by simp [serving]⟩ (owned.step? stepped) wentOn
    exact ⟨ends.stopping, ends.place⟩

/-- Two entries and a request to stop are written, and then the loop is woken. -/
def requestBehindTwo : List Action :=
  [.outside (.signal .alarm), .outside (.signal .alarm), .outside (.signal .interrupt),
    .deliver [.notices]]

/-- With room for three entries the loop is told of the request, and its turn is the last
one. -/
theorem stop_heeded_iff_third :
    ∃ last next : System, last.server.shared.channel.drain.1 = [.sweep, .sweep, .stop] ∧
      last.step? .advance = some next ∧
      ∀ (after : List Action) (late : System), next.run? after = some late →
        late.server.stopping = true ∧ late.place ≠ .waiting := by
  have evaluated : ((launch? {} ⟨0, [], []⟩ 0).bind fun first =>
      ((first.withChannel 3).run? requestBehindTwo).bind fun last =>
        (last.step? .advance).map fun _ => (last.isListening,
          decide ((first.withChannel 3).Observes LeavesUnread requestBehindTwo),
          tale writtenBy (first.withChannel 3) requestBehindTwo)) =
      some (true, true, [.alarm, .alarm, .interrupt]) := by decide +kernel
  simp only [Option.bind_eq_some_iff, Option.map_eq_some_iff, Prod.mk.injEq,
    decide_eq_true_eq] at evaluated
  obtain ⟨first, launched, last, ran, next, stepped, listening, unread, written⟩ := evaluated
  have started : (first.withChannel 3).run? [] = some (first.withChannel 3) := rfl
  obtain ⟨told, heeded, ends⟩ :=
    stop_heeded_iff launched started rfl ran unread listening stepped
  rw [written] at told heeded
  exact ⟨last, next, told, stepped, ends (heeded.2 (.inr ⟨.interrupt, by decide, rfl⟩))⟩

end System

end FileServer
