import FileServer.Proofs.Report.LinesKept
import FileServer.Proofs.Text.Encoding
import FileServer.Report.Logger

/-!
# Whole calls of a sink are sections of a shared sink

The functions of a sink make whole calls: a line is handed in, the flusher takes and writes
lines until it has to wait, the sink is stopped.  Each of them is some sections of a shared sink
in a row, so what holds between any two sections holds of the sinks that these functions leave.
In particular it holds of the log of a server, from its first event to its end.
-/

namespace FileServer

open LogFile

namespace SharedSink

variable {shared later last : SharedSink} {lines more : List Text}

/-- Some sections that hand in these lines lead to a shared sink. -/
def Leads (shared : SharedSink) (lines : List Text) (later : SharedSink) : Prop :=
  ∃ sections, shared.run? sections = some later ∧ submitted sections = lines

theorem leads_refl (shared : SharedSink) : shared.Leads [] shared :=
  ⟨[], rfl, rfl⟩

theorem Leads.trans (early : shared.Leads lines later) (late : later.Leads more last) :
    shared.Leads (lines ++ more) last := by
  obtain ⟨front, ranFront, rfl⟩ := early
  obtain ⟨back, ranBack, rfl⟩ := late
  refine ⟨front ++ back, ?_, List.filterMap_append⟩
  rw [run?_append, ranFront]
  exact ranBack

theorem leads_of_step? {first : Section} (due : shared.step? first = some later) :
    shared.Leads first.line?.toList later := by
  refine ⟨[first], ?_, ?_⟩
  · rw [run?, due]
    rfl
  · cases handed : first.line? <;> simp [submitted, handed]

/-- No call is under way, stopping has not begun, each line in the queue has its permit, and the
flusher waits if there is a queue. -/
structure AtRest (shared : SharedSink) : Prop where
  entering : shared.entering = none
  direct : shared.direct = []
  stopping : shared.stopping = .unbegun
  flusher : shared.flusher = if shared.sink.isAsync then .waiting else .absent
  isOpen : ∀ queue, shared.sink.queue = some queue → queue.isClosed = false
  permits : ∀ queue, shared.sink.queue = some queue →
    queue.available.permits = queue.items.length

theorem queue_start {tree touched : FileTree} {path : Text} {capacity splitLines today : Nat}
    {sink : LogSink}
    (started : LogSink.start tree path capacity splitLines today = (.ok sink, touched)) :
    sink.queue = none ∨ sink.queue = some (.ofCapacity capacity) := by
  unfold LogSink.start at started
  split at started
  · cases congrArg Prod.fst started
  · simp only [Prod.mk.injEq, Except.ok.injEq] at started
    obtain ⟨rfl, -⟩ := started
    by_cases positive : 0 < capacity
    · exact .inr (if_pos positive)
    · exact .inl (if_neg positive)

/-- A sink that was opened comes to rest as soon as its flusher is started. -/
theorem leads_ofSink {tree touched : FileTree} {path : Text} {capacity splitLines today : Nat}
    {sink : LogSink}
    (started : LogSink.start tree path capacity splitLines today = (.ok sink, touched)) :
    ∃ later, (ofSink sink).Leads [] later ∧ later.AtRest ∧ later.sink = sink := by
  have spawned : (ofSink sink).step? .spawn =
      some (if sink.isAsync then { ofSink sink with flusher := .waiting } else ofSink sink) := rfl
  refine ⟨_, leads_of_step? spawned, ?_, by split <;> rfl⟩
  obtain bare | queued := queue_start started
  · rw [if_neg (by rw [LogSink.isAsync, bare]; nofun)]
    refine ⟨rfl, rfl, rfl, ?_, fun queue found => ?_, fun queue found => ?_⟩
    · rw [ofSink, LogSink.isAsync, bare]
      rfl
    · cases bare.symm.trans found
    · cases bare.symm.trans found
  · rw [if_pos (by rw [LogSink.isAsync, queued]; rfl)]
    refine ⟨rfl, rfl, rfl, ?_, fun queue found => ?_, fun queue found => ?_⟩
    · rw [ofSink, LogSink.isAsync, queued]
      rfl
    · cases queued.symm.trans found
      rfl
    · cases queued.symm.trans found
      rfl

/-! ## Handing in a line -/

/-- A line is written by its own call. -/
theorem AtRest.write (rest : shared.AtRest) (today : Nat) {line : Text}
    (due : shared.submit? line = some { shared with direct := shared.direct ++ [line] }) :
    ∃ later, shared.Leads [line] later ∧ later.AtRest ∧
      later.sink = shared.sink.writeDirect today line := by
  have handed : shared.step? (.submit line) =
      some { shared with direct := shared.direct ++ [line] } := due
  have wrote : ({ shared with direct := shared.direct ++ [line] } : SharedSink).step?
      (.write 0 today) = some { shared.record today line with direct := [] } := by
    simp [step?, SharedSink.write, record, rest.direct]
  refine ⟨_, (leads_of_step? handed).trans (leads_of_step? wrote),
    ⟨rest.entering, rfl, rest.stopping, ?_, ?_, ?_⟩, rfl⟩
  · rw [LogSink.isAsync, record_queue]
    exact rest.flusher
  · rw [record_queue]
    exact rest.isOpen
  · rw [record_queue]
    exact rest.permits

/-- A line is put into the queue. -/
theorem AtRest.push (rest : shared.AtRest) {queue grown : Queue Text} {line : Text}
    (queued : shared.sink.queue = some queue) (pushed : queue.push? line = some grown) :
    ∃ later, shared.Leads [line] later ∧ later.AtRest ∧
      later.sink = { shared.sink with queue := some grown } := by
  obtain ⟨longer, found, rfl⟩ := Option.map_eq_some_iff.1 pushed
  obtain ⟨-, rfl⟩ := Queue.append?_eq_some found
  have first : shared.step? (.submit line) = some { shared with entering := some line } := by
    simp only [step?, submit?, queued, rest.entering, found]
  let inside : SharedSink :=
    { shared.setQueue { queue with items := queue.items ++ [line] } with
      entering := none
      posting := shared.posting + 1 }
  have second : SharedSink.step? { shared with entering := some line } .append = some inside := by
    simp only [step?, append?, queued]
    rfl
  have third : inside.step? .post =
      some { inside.setQueue { queue with items := queue.items ++ [line] }.post with
        posting := shared.posting } := rfl
  refine ⟨_, (leads_of_step? first).trans ((leads_of_step? second).trans (leads_of_step? third)),
    ⟨rfl, rest.direct, rest.stopping, ?_, ?_, ?_⟩, rfl⟩
  · have waits := rest.flusher
    rw [LogSink.isAsync, queued] at waits
    exact waits
  · rintro _ ⟨⟩
    exact rest.isOpen queue queued
  · rintro _ ⟨⟩
    have same := rest.permits queue queued
    simp only [Queue.post, Semaphore.supply, List.length_append, List.length_singleton]
    omega

/-- A call that hands in a line is two sections or three. -/
theorem AtRest.submit (rest : shared.AtRest) (today : Nat) (line : Text) :
    ∃ later, shared.Leads [line] later ∧ later.AtRest ∧
      later.sink = shared.sink.submit today line := by
  unfold LogSink.submit
  split
  · next bare =>
      refine rest.write today ?_
      rw [submit?, bare]
  · next queue queued =>
      split
      · next grown pushed => exact rest.push queued pushed
      · next refused =>
          refine rest.write today ?_
          rw [Queue.push?, Option.map_eq_none_iff] at refused
          simp only [submit?, queued, rest.entering, refused]

/-! ## The flusher -/

/-- At rest, the flusher gets a line exactly if there is one. -/
theorem AtRest.takeLine?_eq (rest : shared.AtRest) {queue : Queue Text}
    (queued : shared.sink.queue = some queue) :
    shared.sink.takeLine? = match queue.items with
      | [] => none
      | line :: items => some (some line, { shared.sink with
          queue := some { queue with items, available := ⟨items.length, false⟩ } }) := by
  have isOpen := rest.isOpen queue queued
  have posted := rest.permits queue queued
  obtain ⟨items, ⟨permits, closed⟩, capacity⟩ := queue
  obtain rfl : closed = false := isOpen
  obtain rfl : permits = items.length := posted
  cases items <;> simp [LogSink.takeLine?, queued, Queue.pop?, Queue.wait, Semaphore.attempt,
    Queue.remove]

/-- A line that the flusher takes and writes is three sections. -/
theorem AtRest.takeLine (rest : shared.AtRest) (today : Nat) {line : Text} {sink : LogSink}
    (taken : shared.sink.takeLine? = some (some line, sink)) :
    ∃ later, shared.Leads [] later ∧ later.AtRest ∧ later.sink = sink.writeDirect today line := by
  cases queued : shared.sink.queue with
  | none => simp [LogSink.takeLine?, queued] at taken
  | some queue =>
      have isOpen := rest.isOpen queue queued
      have posted := rest.permits queue queued
      have waits := rest.flusher
      rw [LogSink.isAsync, queued, Option.isSome_some, if_pos rfl] at waits
      rw [rest.takeLine?_eq queued] at taken
      obtain ⟨_ | ⟨first, items⟩, ⟨permits, closed⟩, capacity⟩ := queue
      · cases taken
      · obtain ⟨⟨⟩, ⟨⟩⟩ := taken
        obtain rfl : closed = false := isOpen
        obtain rfl : permits = items.length + 1 := posted
        let granted : SharedSink :=
          { shared.setQueue ⟨line :: items, ⟨items.length, false⟩, capacity⟩ with
            flusher := .granted }
        let holding : SharedSink :=
          { shared.setQueue ⟨items, ⟨items.length, false⟩, capacity⟩ with
            flusher := .holding line }
        have wait : shared.step? .wait = some granted := by
          simp [step?, wait?, queued, waits, Queue.wait, Semaphore.attempt, granted]
        have remove : granted.step? .remove = some holding := by
          simp [step?, remove?, granted, SharedSink.setQueue, rest.entering, Queue.remove, holding]
        have deliver : holding.step? (.deliver today) =
            some { holding.record today line with flusher := .waiting } := rfl
        have queue := record_queue holding today line
        refine ⟨_, (leads_of_step? wait).trans
          ((leads_of_step? remove).trans (leads_of_step? deliver)),
          ⟨rest.entering, rest.direct, rest.stopping, ?_, ?_, ?_⟩, rfl⟩
        · rw [LogSink.isAsync, queue]
          rfl
        · rw [queue]
          rintro _ ⟨⟩
          rfl
        · rw [queue]
          rintro _ ⟨⟩
          rfl

/-- Without a queue there is nothing for a flusher to take. -/
theorem AtRest.takeLine_none (rest : shared.AtRest) {sink : LogSink}
    (taken : shared.sink.takeLine? = some (none, sink)) : sink = shared.sink := by
  cases queued : shared.sink.queue with
  | none =>
      simp only [LogSink.takeLine?, queued, Option.some.injEq, Prod.mk.injEq, true_and] at taken
      exact taken.symm
  | some queue =>
      rw [rest.takeLine?_eq queued] at taken
      split at taken <;> cases taken

theorem AtRest.runFlusherFor (rest : shared.AtRest) (today count : Nat) :
    ∃ later, shared.Leads [] later ∧ later.AtRest ∧
      later.sink = LogSink.runFlusherFor today count shared.sink := by
  induction count generalizing shared with
  | zero => exact ⟨shared, leads_refl shared, rest, rfl⟩
  | succ count ih =>
      unfold LogSink.runFlusherFor
      split
      · next line sink taken =>
          obtain ⟨middle, first, resting, wrote⟩ := rest.takeLine today taken
          obtain ⟨later, others, rests, done⟩ := ih resting
          exact ⟨later, first.trans others, rests, by rw [done, wrote]⟩
      · next sink taken =>
          exact ⟨shared, leads_refl shared, rest, (rest.takeLine_none taken).symm⟩
      · exact ⟨shared, leads_refl shared, rest, rfl⟩

/-! ## Stopping -/

/-- The lines that were in the queue are written one after the other. -/
theorem leads_writing {left : List Text} (writing : shared.stopping = .writing left)
    (today : Nat) :
    ∃ later, shared.Leads [] later ∧ later.stopping = .returned ∧
      later.direct = shared.direct ∧ later.flusher = shared.flusher ∧
      later.sink =
        (left.foldl (fun sink line => sink.writeDirect today line) shared.sink).flush := by
  induction left generalizing shared with
  | nil =>
      have due : shared.step? (.stop today) =
          some { shared with sink := shared.sink.flush, stopping := .returned } := by
        simp only [step?, stop?, writing]
      exact ⟨_, leads_of_step? due, rfl, rfl, rfl, rfl⟩
  | cons line left ih =>
      have due : shared.step? (.stop today) =
          some { shared.record today line with stopping := .writing left } := by
        simp only [step?, stop?, writing]
      obtain ⟨later, others, stopped, direct, flusher, sink⟩ :=
        @ih { shared.record today line with stopping := .writing left } rfl
      exact ⟨later, (leads_of_step? due).trans others, stopped, direct, flusher, sink⟩

/-- A call that stops the sink is some sections, with one of the flusher in the end. -/
theorem AtRest.stop (rest : shared.AtRest) (today : Nat) :
    ∃ later, shared.Leads [] later ∧ later.stopping = .returned ∧
      later.flusher.isGone = true ∧ later.direct = [] ∧ later.sink = shared.sink.stop today := by
  cases queued : shared.sink.queue with
  | none =>
      have begins : shared.step? (.stop today) = some { shared with stopping := .writing [] } := by
        simp only [step?, stop?, rest.stopping, queued]
      obtain ⟨later, others, stopped, direct, flusher, sink⟩ :=
        @leads_writing { shared with stopping := .writing [] } [] rfl today
      refine ⟨later, (leads_of_step? begins).trans others, stopped, ?_,
        direct.trans rest.direct, ?_⟩
      · rw [flusher, rest.flusher, LogSink.isAsync, queued]
        rfl
      · rw [sink, LogSink.stop, LogSink.closeQueue, queued]
  | some queue =>
      have closes : shared.step? (.stop today) =
          some { shared.setQueue queue.close with stopping := .closed } := by
        simp only [step?, stop?, rest.stopping, queued]
      let drained : SharedSink :=
        { shared.setQueue { queue.close with items := [] } with stopping := .writing queue.items }
      have drains : SharedSink.step? { shared.setQueue queue.close with stopping := .closed }
          (.stop today) = some drained := by
        simp only [step?, stop?, drained, SharedSink.setQueue, rest.entering]
        rfl
      have refused : drained.step? .wait = some { drained with flusher := .stopped } := by
        have waits := rest.flusher
        rw [LogSink.isAsync, queued, Option.isSome_some, if_pos rfl] at waits
        simp [step?, wait?, drained, SharedSink.setQueue, waits, Queue.wait, Queue.close,
          Semaphore.close, Semaphore.attempt]
      obtain ⟨later, others, stopped, direct, flusher, sink⟩ :=
        @leads_writing { drained with flusher := .stopped } queue.items rfl today
      refine ⟨later, (leads_of_step? closes).trans ((leads_of_step? drains).trans
        ((leads_of_step? refused).trans others)), stopped, by rw [flusher]; rfl,
        direct.trans rest.direct, ?_⟩
      rw [sink, LogSink.stop, LogSink.closeQueue, queued]
      rfl

end SharedSink

namespace Logger

open SharedSink

variable {shared : SharedSink} {logger : Logger}

/-- Logs some events, each at its moment. -/
def logAll (logger : Logger) (events : List (Int × LogEvent)) : Logger :=
  events.foldl (fun logger event => logger.log event.1 event.2) logger

/-- The lines of those events that a filter lets through. -/
def linesOf (filter : LogFilter) (events : List (Int × LogEvent)) : List Text :=
  (events.filter fun event => event.2.passes filter).map fun event =>
    LogLine.ofEvent event.1 (some mainThread) event.2

theorem linesOf_cons (filter : LogFilter) (event : Int × LogEvent)
    (events : List (Int × LogEvent)) :
    linesOf filter (event :: events) = linesOf filter [event] ++ linesOf filter events := by
  cases passes : event.2.passes filter <;> simp [linesOf, passes]

/-- A line that comes in one piece is handed in as it is. -/
theorem submitEvent_bytes (sink : LogSink) (today : Nat) {line : Text} (filled : line ≠ []) :
    sink.submitEvent today [line.bytes] = sink.submit today line := by
  have whole : Utf8.decodeLossy line.bytes = line :=
    Utf8.decodeLossy_of_decode? (Utf8.decode?_eq_some_iff.2 rfl)
  have some_bytes : line.bytes ≠ [] := by
    intro nothing
    rw [nothing] at whole
    exact filled whole.symm
  unfold LogSink.submitEvent
  rw [List.flatten_singleton, if_neg (by simpa using some_bytes), whole]

/-- An event that is logged is a line that is handed in, if the filter lets it through, and then
the flusher has its turn. -/
theorem leads_log (rest : shared.AtRest) (kept : logger.destination = .file shared.sink)
    (event : Int × LogEvent) :
    ∃ later, shared.Leads (linesOf logger.filter [event]) later ∧ later.AtRest ∧
      logger.log event.1 event.2 = { logger with destination := .file later.sink } := by
  unfold log
  split
  · next passes =>
      have filled : LogLine.ofEvent event.1 (some mainThread) event.2 ≠ [] :=
        List.append_ne_nil_of_right_ne_nil _ (List.cons_ne_nil _ _)
      obtain ⟨middle, first, resting, sink⟩ := rest.submit (dayNumber event.1)
        (LogLine.ofEvent event.1 (some mainThread) event.2)
      obtain ⟨later, others, rests, done⟩ :=
        resting.runFlusherFor (dayNumber event.1) middle.sink.waiting
      refine ⟨later, ?_, rests, ?_⟩
      · simpa [linesOf, passes] using first.trans others
      · simp only [kept, submitEvent_bytes _ _ filled]
        rw [done, sink]
        rfl
  · next stopped =>
      refine ⟨shared, ?_, rest, by rw [← kept]⟩
      simpa [linesOf, stopped] using leads_refl shared

theorem leads_logAll (rest : shared.AtRest) (kept : logger.destination = .file shared.sink)
    (events : List (Int × LogEvent)) :
    ∃ later, shared.Leads (linesOf logger.filter events) later ∧ later.AtRest ∧
      logger.logAll events = { logger with destination := .file later.sink } := by
  induction events generalizing shared logger with
  | nil => exact ⟨shared, leads_refl shared, rest, by rw [← kept]; rfl⟩
  | cons event events ih =>
      obtain ⟨middle, first, resting, logged⟩ := leads_log rest kept event
      obtain ⟨later, others, rests, all⟩ :=
        @ih middle { logger with destination := .file middle.sink } resting rfl
      refine ⟨later, ?_, rests, ?_⟩
      · rw [linesOf_cons]
        exact first.trans others
      · rw [logAll, List.foldl_cons, logged]
        exact all

/-- A log in a file was opened as a sink. -/
theorem start_file {settings : Settings} {environment : List (String × Text)} {moment : Int}
    {tree touched : FileTree} {sink : LogSink}
    (started : start settings environment moment tree = (.ok logger, touched))
    (kept : logger.destination = .file sink) :
    ∃ path, LogSink.start tree path settings.logQueue settings.logSplitLines
      (dayNumber moment) = (.ok sink, touched) := by
  revert started
  fun_cases start settings environment moment tree with
  | case1 => exact fun started => by cases congrArg Prod.fst started
  | case2 =>
      intro started
      cases started
      cases kept
  | case3 _ _ path _ _ _ opened =>
      intro started
      cases started
      cases kept
      exact ⟨path, opened⟩
  | case4 => exact fun started => by cases congrArg Prod.fst started

/-- The log of a server loses no line and writes none twice: when some events were logged and
the log was ended, and there was nothing to complain about, each file contains the bytes from
before, and then lines that are, over all files, those of the events that passed the filter. -/
theorem files_of_log {settings : Settings} {environment : List (String × Text)} {moment : Int}
    {tree touched : FileTree} {sink : LogSink}
    (started : start settings environment moment tree = (.ok logger, touched))
    (kept : logger.destination = .file sink) (events : List (Int × LogEvent)) (ending : Int)
    (fine : ((logger.logAll events).close ending).errorText = []) :
    ∃ written : List (Location × Text),
      (written.map Prod.snd).Perm (linesOf logger.filter events) ∧
      ∀ location, (((logger.logAll events).close ending).files tree).content location =
        tree.content location ++
          (linesAt written location).flatMap lineBytes := by
  obtain ⟨path, opened⟩ := start_file started kept
  obtain ⟨first, spawned, resting, same⟩ := leads_ofSink opened
  obtain ⟨middle, logged, rests, all⟩ := leads_logAll resting (kept.trans (by rw [same])) events
  obtain ⟨last, ended, stopped, joined, returned, done⟩ := rests.stop (dayNumber ending)
  obtain ⟨sections, ran, handed⟩ := (spawned.trans logged).trans ended
  have sound := (sound_ofSink opened).run? ran
  rw [handed, List.nil_append, List.nil_append, List.append_nil] at sound
  have closed : (logger.logAll events).close ending =
      { logger with destination := .file last.sink } := by
    rw [all, done]
    rfl
  have uncomplaining : last.sink.complaints = [] := by
    rw [closed, errorText, List.flatMap_eq_nil_iff] at fine
    refine List.eq_nil_iff_forall_not_mem.2 fun complaint member => ?_
    exact List.append_ne_nil_of_right_ne_nil _ (List.cons_ne_nil _ _) (fine complaint member)
  have empty : last.sink.file.held = [] := by
    rw [done]
    rfl
  refine ⟨last.written, sound.perm_written stopped joined returned, fun location => ?_⟩
  rw [closed]
  exact sound.content uncomplaining empty location

end Logger

end FileServer
