import FileServer.Proofs.Report.Contents
import FileServer.Proofs.Report.SharedSink
import Mathlib.Data.List.Perm.Basic

/-!
# No line of a log is lost or written twice

A line that was handed in is at one place at each moment: it was written, it is in the queue, or
it is in the hands of the call that handed it in, of the flusher, or of the call that stops the
sink.  Each section hands it on.  When the queue was emptied no line comes into it any more,
since a call that still finds room holds the lock that emptying needs, and any later one finds
the queue closed.
-/

namespace FileServer

open LogFile

theorem LogSink.writeDirect_queue (sink : LogSink) (today : Nat) (line : Text) :
    (sink.writeDirect today line).queue = sink.queue := by
  unfold LogSink.writeDirect
  split <;> rfl

/-- A taker that gets a permit, or does not, leaves the items, and the queue open or closed. -/
theorem Queue.wait_eq {α : Type} {queue rest : Queue α} {attempt : Semaphore.Attempt}
    (waited : queue.wait = (attempt, rest)) :
    rest.items = queue.items ∧ rest.isClosed = queue.isClosed := by
  obtain ⟨items, ⟨permits, closed⟩, capacity⟩ := queue
  unfold Queue.wait at waited
  cases closed <;> cases permits <;> cases waited <;> exact ⟨rfl, rfl⟩

/-- A queue that takes an item is open, and has the item as its last one then. -/
theorem Queue.append?_eq_some {α : Type} {queue grown : Queue α} {item : α}
    (appended : queue.append? item = some grown) :
    queue.isClosed = false ∧ grown = { queue with items := queue.items ++ [item] } := by
  unfold Queue.append? at appended
  split at appended
  · cases appended
  · next room =>
      rw [Bool.or_eq_true, not_or, Bool.not_eq_true] at room
      exact ⟨room.1, (Option.some.inj appended).symm⟩

namespace SharedSink

variable {shared next last : SharedSink} {before : Location → Bytes} {lines : List Text}

/-- The lines that are not written yet. -/
def pending (shared : SharedSink) : List Text :=
  shared.items ++ shared.entering.toList ++ shared.direct ++ shared.flusher.held ++
    shared.stopping.held

/-- How often a line is there, written or not. -/
def copies (shared : SharedSink) (line : Text) : Nat :=
  (shared.written.map Prod.snd).count line + shared.pending.count line

/-- The log is at a file that is there, and if nothing went wrong, each file contains these bytes
from before and then the lines that were written to it. -/
structure Filed (before : Location → Bytes) (file : LogFile) (tree : FileTree)
    (complaints : List String) (written : List (Location × Text)) : Prop where
  hasFile : tree.HasFile file.place
  contents : complaints = [] → ∀ location,
    file.contains tree location = before location ++ (linesAt written location).flatMap lineBytes

/-- What holds of a shared sink between any two sections, if these lines were handed in and the
files contained these bytes before. -/
structure Sound (before : Location → Bytes) (lines : List Text) (shared : SharedSink) : Prop where
  account : ∀ line, shared.copies line = lines.count line
  filed : Filed before shared.sink.file shared.sink.tree shared.sink.complaints shared.written
  closed : shared.stopping ≠ .unbegun →
    ∀ queue, shared.sink.queue = some queue → queue.isClosed = true
  emptied : shared.stopping.hasDrained = true → shared.items = [] ∧ shared.entering = none
  bare : shared.sink.queue = none → shared.entering = none

theorem sound_ofSink {tree touched : FileTree} {path : Text} {capacity splitLines today : Nat}
    {sink : LogSink}
    (started : LogSink.start tree path capacity splitLines today = (.ok sink, touched)) :
    (ofSink sink).Sound tree.content [] := by
  unfold LogSink.start at started
  split at started
  · cases congrArg Prod.fst started
  · next file touched opened =>
      simp only [Prod.mk.injEq, Except.ok.injEq] at started
      obtain ⟨rfl, rfl⟩ := started
      obtain ⟨hasFile, same⟩ := start_ok opened
      refine ⟨fun line => ?_, ⟨hasFile, fun _ location => ?_⟩, by simp [ofSink], by
        simp [ofSink, SinkStopping.hasDrained], fun _ => rfl⟩
      · simp only [copies, pending, items, ofSink]
        split <;> rfl
      · rw [← same location]
        exact (List.append_nil _).symm

/-! ## Writing -/

@[simp] theorem record_queue (shared : SharedSink) (today : Nat) (line : Text) :
    (shared.record today line).sink.queue = shared.sink.queue :=
  LogSink.writeDirect_queue shared.sink today line

@[simp] theorem record_items (shared : SharedSink) (today : Nat) (line : Text) :
    (shared.record today line).items = shared.items := by
  simp only [items, record_queue]

/-- A line that is written is one more line in the file that the log is then at. -/
theorem Sound.filed_record (sound : shared.Sound before lines) (today : Nat) (line : Text) :
    Filed before (shared.record today line).sink.file (shared.record today line).sink.tree
      (shared.record today line).sink.complaints (shared.record today line).written := by
  simp only [record, LogSink.writeDirect]
  split
  · next file tree wrote =>
      have added := writeLine_adds sound.filed.hasFile wrote
      refine ⟨added.hasFile, fun fine location => ?_⟩
      rw [added.contains, sound.filed.contents fine, List.append_assoc]
      simp only [linesAt, List.filter_append, List.map_append, List.flatMap_append]
      by_cases here : location = file.place
      · simp [here]
      · simp [here, Ne.symm here]
  · next kind file tree wrote =>
      refine ⟨hasFile_writeLine sound.filed.hasFile wrote, fun fine => ?_⟩
      cases List.append_ne_nil_of_right_ne_nil shared.sink.complaints
        (List.cons_ne_nil _ _) fine

/-- What is written out is in the files as before. -/
theorem Sound.flush (sound : shared.Sound before lines) :
    Sound before lines { shared with sink := shared.sink.flush } := by
  have added := writeOut_adds sound.filed.hasFile
  refine ⟨sound.account, ⟨added.hasFile, fun fine location => ?_⟩, sound.closed, sound.emptied,
    sound.bare⟩
  rw [LogSink.flush, added.contains, ite_self, List.append_nil]
  exact sound.filed.contents fine location

/-- A line that is written is no longer in any hands. -/
theorem Sound.of_record (sound : shared.Sound before lines) {today : Nat} {line : Text}
    (sink : next.sink = (shared.record today line).sink)
    (written : next.written = (shared.record today line).written)
    (handed : ∀ other, [line].count other + next.pending.count other = shared.pending.count other)
    (entering : next.entering = shared.entering)
    (begun : next.stopping ≠ .unbegun → shared.stopping ≠ .unbegun)
    (drained : next.stopping.hasDrained = true → shared.stopping.hasDrained = true) :
    next.Sound before lines := by
  have queue : next.sink.queue = shared.sink.queue := by rw [sink, record_queue]
  refine ⟨fun other => ?_, ?_, ?_, ?_, ?_⟩
  · rw [← sound.account other, copies, copies, ← handed other, written]
    simp only [record, List.map_append, List.count_append, List.map_cons, List.map_nil]
    omega
  · rw [sink, written]
    exact sound.filed_record today line
  · rw [queue]
    exact fun late => sound.closed (begun late)
  · rw [items, queue, entering]
    exact fun late => sound.emptied (drained late)
  · rw [queue, entering]
    exact sound.bare

/-! ## Calls that hand in a line -/

theorem Sound.submit (sound : shared.Sound before lines) {line : Text}
    (due : shared.submit? line = some next) : next.Sound before (lines ++ [line]) := by
  have directly : Sound before (lines ++ [line])
      { shared with direct := shared.direct ++ [line] } := by
    refine ⟨fun other => ?_, sound.filed, sound.closed, sound.emptied,
      sound.bare⟩
    have kept := sound.account other
    simp only [copies, pending, items, List.count_append] at kept ⊢
    omega
  unfold submit? at due
  split at due
  · cases due
    exact directly
  · cases due
  · next queue queued free =>
      split at due
      · cases due
        exact directly
      · next grown found =>
          cases due
          -- There is room only in an open queue, and so stopping has not begun.
          have unbegun : shared.stopping = .unbegun := by
            by_contra begun
            cases (Queue.append?_eq_some found).1.symm.trans (sound.closed begun queue queued)
          refine ⟨fun other => ?_, sound.filed, sound.closed, ?_, ?_⟩
          · have kept := sound.account other
            simp only [copies, pending, items, free, Option.toList, List.count_append,
              List.count_nil] at kept ⊢
            omega
          · simp [unbegun, SinkStopping.hasDrained]
          · exact fun bare => by cases queued.symm.trans bare

theorem Sound.append (sound : shared.Sound before lines) (due : shared.append? = some next) :
    next.Sound before lines := by
  unfold append? at due
  split at due
  · next queue line queued entering =>
      cases due
      refine ⟨fun other => ?_, sound.filed, ?_, fun drained => ?_, nofun⟩
      · have kept := sound.account other
        simp only [copies, pending, items, queued, entering, setQueue, Option.map_some,
          Option.getD_some, Option.toList, List.count_append, List.count_nil] at kept ⊢
        omega
      · rintro begun _ ⟨⟩
        exact sound.closed begun queue queued
      · -- The call has had the lock of the items since it found room.
        cases entering.symm.trans (sound.emptied drained).2
  · cases due

/-- A queue that has the same items, and is still closed if it was, changes nothing. -/
theorem Sound.of_setQueue (sound : shared.Sound before lines) {queue rest : Queue Text}
    (queued : shared.sink.queue = some queue) (items : rest.items = queue.items)
    (closed : queue.isClosed = true → rest.isClosed = true) :
    (shared.setQueue rest).Sound before lines := by
  have same : (shared.setQueue rest).items = shared.items := by
    simp only [SharedSink.items, SharedSink.setQueue, queued, Option.map_some, items]
  refine ⟨fun line => ?_, sound.filed, ?_, ?_, nofun⟩
  · rw [← sound.account line, copies, pending, same]
    rfl
  · rintro begun _ ⟨⟩
    exact closed (sound.closed begun queue queued)
  · rw [same]
    exact sound.emptied

theorem Sound.post (sound : shared.Sound before lines) (due : shared.post? = some next) :
    next.Sound before lines := by
  unfold post? at due
  split at due
  · next queue posting queued _ =>
      cases due
      have posted : (shared.setQueue queue.post).Sound before lines :=
        sound.of_setQueue queued rfl id
      exact ⟨posted.account, posted.filed, posted.closed, posted.emptied,
        posted.bare⟩
  · cases due

theorem Sound.write (sound : shared.Sound before lines) {index today : Nat} {line : Text}
    (due : shared.direct[index]? = some line) :
    (shared.write index today line).Sound before lines := by
  obtain ⟨inside, rfl⟩ := List.getElem?_eq_some_iff.1 due
  refine sound.of_record rfl rfl (fun other => ?_) rfl id id
  have moved := (List.getElem_cons_eraseIdx_perm inside).count_eq other
  simp only [pending, SharedSink.write, List.count_append, List.count_cons, List.count_nil]
    at moved ⊢
  simp only [items, record_queue]
  simp only [record]
  omega

/-! ## The flusher -/

/-- The flusher goes on without taking a line or giving one away. -/
theorem Sound.of_flusher (sound : shared.Sound before lines) {flusher : Flusher}
    (same : flusher.held = shared.flusher.held) :
    Sound before lines { shared with flusher } := by
  refine ⟨fun line => ?_, sound.filed, sound.closed, sound.emptied, sound.bare⟩
  rw [← sound.account line]
  simp only [copies, pending, same]
  rfl

theorem Sound.spawn (sound : shared.Sound before lines) (due : shared.spawn? = some next) :
    next.Sound before lines := by
  unfold spawn? at due
  split at due
  · next absent =>
      cases due
      split
      · exact sound.of_flusher (by rw [absent]; rfl)
      · exact sound
  · cases due

theorem Sound.wait (sound : shared.Sound before lines) (due : shared.wait? = some next) :
    next.Sound before lines := by
  unfold wait? at due
  split at due
  · next queue queued waiting =>
      have empty : shared.flusher.held = [] := by rw [waiting]; rfl
      split at due
      · next rest waited =>
          cases due
          obtain ⟨items, closed⟩ := Queue.wait_eq waited
          exact (sound.of_setQueue queued items closed.trans).of_flusher empty.symm
      · next rest waited =>
          cases due
          obtain ⟨items, closed⟩ := Queue.wait_eq waited
          exact (sound.of_setQueue queued items closed.trans).of_flusher empty.symm
      · cases due
  · cases due

theorem Sound.remove (sound : shared.Sound before lines) (due : shared.remove? = some next) :
    next.Sound before lines := by
  unfold remove? at due
  split at due
  · next queue queued granted free =>
      obtain ⟨items, available, capacity⟩ := queue
      cases items with
      | nil =>
          cases due
          have taken : (shared.setQueue ⟨[], available, capacity⟩).Sound before lines :=
            sound.of_setQueue queued rfl id
          exact taken.of_flusher (by rw [SharedSink.setQueue, granted]; rfl)
      | cons line rest =>
          cases due
          refine ⟨fun other => ?_, sound.filed, ?_, fun drained => ?_, nofun⟩
          · have kept := sound.account other
            simp only [copies, pending, SharedSink.items, SharedSink.setQueue, queued, granted,
              Option.map_some, Option.getD_some, Flusher.held, List.count_append, List.count_cons,
              List.count_nil] at kept ⊢
            omega
          · rintro begun _ ⟨⟩
            exact sound.closed begun ⟨line :: rest, available, capacity⟩ queued
          · have none := (sound.emptied drained).1
            simp only [SharedSink.items, queued] at none
            cases none
  · cases due

theorem Sound.deliver (sound : shared.Sound before lines) {today : Nat}
    (due : shared.deliver? today = some next) : next.Sound before lines := by
  unfold deliver? at due
  split at due
  · next line holding =>
      cases due
      refine sound.of_record rfl rfl (fun other => ?_) rfl id id
      simp only [pending, items, record_queue]
      simp only [record, holding, Flusher.held, List.count_append, List.count_nil]
      omega
  · cases due

/-! ## Stopping -/

/-- Stopping begins with closing the queue. -/
theorem Sound.close (sound : shared.Sound before lines) {queue : Queue Text}
    (queued : shared.sink.queue = some queue) (unbegun : shared.stopping = .unbegun) :
    Sound before lines { shared.setQueue queue.close with stopping := .closed } := by
  refine ⟨fun other => ?_, sound.filed, ?_, nofun, nofun⟩
  · rw [← sound.account other]
    simp only [copies, pending, items, SharedSink.setQueue, unbegun, queued]
    rfl
  · rintro _ _ ⟨⟩
    rfl

/-- Without a queue there is nothing to close and to empty. -/
theorem Sound.pass (sound : shared.Sound before lines) (bare : shared.sink.queue = none)
    (unbegun : shared.stopping = .unbegun) :
    Sound before lines { shared with stopping := .writing [] } := by
  refine ⟨fun other => ?_, sound.filed, ?_, fun _ => ⟨?_, sound.bare bare⟩, sound.bare⟩
  · rw [← sound.account other]
    simp only [copies, pending, unbegun]
    rfl
  · exact fun _ queue found => by cases bare.symm.trans found
  · simp only [items, bare]
    rfl

/-- The lines that are in the queue when it is emptied go to the call that stops the sink.  As
this call had to get the lock of the items, no line is on its way into the queue. -/
theorem Sound.drain (sound : shared.Sound before lines) {queue : Queue Text}
    (queued : shared.sink.queue = some queue) (closed : shared.stopping = .closed)
    (free : shared.entering = none) :
    Sound before lines
      { shared.setQueue queue.drain.2 with stopping := .writing queue.drain.1 } := by
  refine ⟨fun other => ?_, sound.filed, ?_, fun _ => ⟨rfl, free⟩, nofun⟩
  · have kept := sound.account other
    simp only [copies, pending, items, SharedSink.setQueue, Queue.drain, queued, closed,
      Option.map_some, Option.getD_some, SinkStopping.held, List.count_append,
      List.count_nil] at kept ⊢
    omega
  · rintro _ _ ⟨⟩
    exact sound.closed (by rw [closed]; nofun) queue queued

theorem Sound.stop (sound : shared.Sound before lines) {today : Nat}
    (due : shared.stop? today = some next) : next.Sound before lines := by
  unfold stop? at due
  split at due
  · next unbegun bare =>
      cases due
      exact sound.pass bare unbegun
  · next queue unbegun queued =>
      cases due
      exact sound.close queued unbegun
  · next queue closed queued =>
      split at due
      · next free =>
          cases due
          exact sound.drain queued closed free
      · cases due
  · cases due
  · next line rest writing =>
      cases due
      refine sound.of_record rfl rfl (fun other => ?_) rfl (fun _ => by rw [writing]; nofun)
        (fun _ => by rw [writing]; rfl)
      simp only [pending, items, record_queue]
      simp only [record, writing, SinkStopping.held, List.count_append, List.count_cons,
        List.count_nil]
      omega
  · next writing =>
      cases due
      refine ⟨fun other => ?_, sound.flush.filed,
        fun _ => sound.closed (by rw [writing]; nofun),
        fun _ => sound.emptied (by rw [writing]; rfl), sound.bare⟩
      rw [← sound.account other]
      simp only [copies, pending, writing]
      rfl
  · cases due

/-! ## Runs -/

/-- Each section keeps the account of the lines, with the line that it hands in. -/
theorem Sound.step? (sound : shared.Sound before lines) {first : Section}
    (due : shared.step? first = some next) :
    next.Sound before (lines ++ first.line?.toList) := by
  cases first with
  | submit line => exact sound.submit due
  | append => simpa [Section.line?] using sound.append due
  | post => simpa [Section.line?] using sound.post due
  | write index today =>
      obtain ⟨line, found, rfl⟩ := Option.map_eq_some_iff.1 due
      simpa [Section.line?] using sound.write found
  | spawn => simpa [Section.line?] using sound.spawn due
  | wait => simpa [Section.line?] using sound.wait due
  | remove => simpa [Section.line?] using sound.remove due
  | deliver today => simpa [Section.line?] using sound.deliver due
  | flush =>
      cases due
      simpa [Section.line?] using sound.flush
  | stop today => simpa [Section.line?] using sound.stop due

theorem Sound.run? (sound : shared.Sound before lines) {sections : List Section}
    (ran : shared.run? sections = some last) : last.Sound before (lines ++ submitted sections) := by
  induction sections generalizing shared lines with
  | nil =>
      cases ran
      simpa [submitted] using sound
  | cons first rest ih =>
      obtain ⟨middle, due, ranOn⟩ := Option.bind_eq_some_iff.1 ran
      have kept := ih (sound.step? due) ranOn
      rw [List.append_assoc] at kept
      convert kept using 2
      cases handed : first.line? <;> simp [submitted, handed]

/-- When stopping has returned, the flusher is gone, and each call has returned, the lines that
were written are those that were handed in. -/
theorem Sound.perm_written (sound : shared.Sound before lines)
    (stopped : shared.stopping = .returned) (joined : shared.flusher.isGone = true)
    (returned : shared.direct = []) : (shared.written.map Prod.snd).Perm lines := by
  obtain ⟨empty, free⟩ := sound.emptied (by rw [stopped]; rfl)
  have held : shared.flusher.held = [] := by
    cases flusher : shared.flusher with
    | absent | stopped => rfl
    | waiting | granted | holding => cases (congrArg Flusher.isGone flusher).symm.trans joined
  have nothing : shared.pending = [] := by
    rw [pending, empty, free, returned, held, stopped]
    rfl
  refine List.perm_iff_count.2 fun line => ?_
  rw [← sound.account line, copies, nothing, List.count_nil, Nat.add_zero]

/-- When nothing is held back, each file contains what it contained before, and then the lines
that were written to it, in order. -/
theorem Sound.content (sound : shared.Sound before lines) (fine : shared.sink.complaints = [])
    (empty : shared.sink.file.held = []) (location : Location) :
    shared.sink.tree.content location =
      before location ++ (linesAt shared.written location).flatMap lineBytes := by
  rw [← sound.filed.contents fine location, LogFile.contains, empty, ite_self, List.append_nil]

/-- No line of a log is lost or written twice.  Let a log be opened with a queue of any capacity,
or without one, and let all calls come in any order, section by section: any number of threads
hand in lines, also after the log was stopped, a flusher may be started, files may be flushed,
and one call stops the log; the date may change at any time.  Suppose that no write failed,
stopping has returned, the flusher, if there was one, has stopped, each call that handed in a
line has returned, and the last section is a flush.  Then there is a list of lines with places
that has each line that was handed in as often as it was handed in, and each file of the tree
contains the bytes from before the log was opened and then, one after the other, the lines of
this list that have its place, each with a line feed at its end. -/
theorem each_line_once {tree touched : FileTree} {path : Text} {capacity splitLines today : Nat}
    {sink : LogSink}
    (started : LogSink.start tree path capacity splitLines today = (.ok sink, touched))
    {sections : List Section} (ran : (ofSink sink).run? (sections ++ [.flush]) = some last)
    (stopped : last.stopping = .returned) (joined : last.flusher.isGone = true)
    (returned : last.direct = []) (fine : last.sink.complaints = []) :
    ∃ written : List (Location × Text),
      (written.map Prod.snd).Perm (submitted sections) ∧
      (∀ location, last.sink.tree.content location = tree.content location ++
        (linesAt written location).flatMap lineBytes) ∧
      ∀ line ∈ submitted sections,
        line.bytes <+: lineBytes line ∧ (lineBytes line).getLast? = some lineFeed := by
  have sound := (sound_ofSink started).run? ran
  obtain ⟨middle, _, flushed⟩ : ∃ middle, (ofSink sink).run? sections = some middle ∧
      middle.run? [.flush] = some last := by
    rw [run?_append] at ran
    exact Option.bind_eq_some_iff.1 ran
  have empty : last.sink.file.held = [] := by
    cases flushed
    rfl
  have all := sound.perm_written stopped joined returned
  refine ⟨last.written, ?_, sound.content fine empty, fun line _ => ?_⟩
  · simpa only [submitted, List.filterMap_append, Section.line?, List.filterMap_cons,
      List.filterMap_nil, List.nil_append, List.append_nil] using all
  · exact ⟨bytes_prefix_lineBytes line, getLast?_lineBytes line⟩

/-- A log with files of two lines and with a queue for one line. -/
def smallLog : LogSink where
  file := {
    directory := Path.current
    name := "log".toList
    splitLines := 2
    day := 20000
    count := 0
    place := ["2024_10_04_log".toList]
    held := [] }
  queue := some (.ofCapacity 1)
  tree := (FileTree.empty 0o755).put ["2024_10_04_log".toList] (.file ⟨[], 0o644, none⟩)

/-- The first line is in the hands of the flusher when the date changes and the log is stopped.
The second one finds the queue full, the third one comes into a queue that was closed after it
had found room, and is written by the call that stops the log, and the fourth one comes when the
queue is closed. -/
def twoDays : List Section :=
  [.spawn, .submit "a".toList, .append, .submit "b\n".toList, .post, .wait, .remove,
    .submit "c".toList, .stop 20001, .append, .write 0 20000, .deliver 20000, .post, .stop 20001,
    .submit "a".toList, .wait, .stop 20001, .write 0 20001, .stop 20001]

set_option synthInstance.maxSize 256 in
theorem each_line_once_two_days :
    ∃ last : SharedSink, (ofSink smallLog).run? (twoDays ++ [.flush]) = some last ∧
      last.sink.tree.content ["2024_10_04_log".toList] = Text.bytes "b\na\n".toList ∧
      last.sink.tree.content ["2024_10_05_log".toList] = Text.bytes "c\na\n".toList ∧
      ∃ written : List (Location × Text),
        (written.map Prod.snd).Perm ["a".toList, "b\n".toList, "c".toList, "a".toList] ∧
        ∀ location, last.sink.tree.content location =
          (FileTree.empty 0o755).content location ++
            (linesAt written location).flatMap lineBytes := by
  have started : LogSink.start (.empty 0o755) "log".toList 1 2 20000 =
      (.ok smallLog, smallLog.tree) := by decide +kernel
  have result : ((ofSink smallLog).run? (twoDays ++ [.flush])).map (fun last =>
      (last.stopping, last.flusher, last.direct, last.sink.complaints, last.sink.tree)) =
      some (.returned, .stopped, [], [],
        (smallLog.tree.put ["2024_10_04_log".toList]
            (.file ⟨Text.bytes "b\na\n".toList, 0o644, none⟩)).put
          ["2024_10_05_log".toList]
            (.file ⟨Text.bytes "c\na\n".toList, 0o644, none⟩)) := by decide +kernel
  obtain ⟨last, ran, seen⟩ := Option.map_eq_some_iff.1 result
  simp only [Prod.mk.injEq] at seen
  obtain ⟨stopped, joined, returned, fine, left⟩ := seen
  obtain ⟨written, all, contents, -⟩ :=
    each_line_once started ran stopped (by rw [joined]; rfl) returned fine
  exact ⟨last, ran, by rw [left]; decide +kernel, by rw [left]; decide +kernel, written, all,
    contents⟩

end SharedSink

end FileServer
