import FileServer.Proofs.Report.LinesKept

/-!
# What is in the files of a log that was dropped

Dropping a log closes its queue, writes the lines in it, writes out what the file holds back,
and only then waits for the flusher.  A line that the flusher has in its hands all the while is
written behind that: it is held back, and as long as others have the log nobody writes it out.
It is the only one.  Every other line that was handed in before the log was dropped, and whose
call had returned, is in the files.

What is in a file stays there.  So it is enough to know what is written out at the one section
that writes out what is held back.
-/

namespace FileServer

/-! ## Files only become longer -/

/-- Each file has its bytes still, perhaps with others behind. -/
def FileTree.Extends (tree later : FileTree) : Prop :=
  ∀ location, tree.content location <+: later.content location

namespace FileTree

theorem Extends.refl (tree : FileTree) : tree.Extends tree :=
  fun _ => List.prefix_rfl

theorem Extends.trans {first second third : FileTree} (early : first.Extends second)
    (late : second.Extends third) : first.Extends third :=
  fun location => (early location).trans (late location)

theorem extends_appendTo (tree : FileTree) (location : Location) (bytes : Bytes) :
    tree.Extends (tree.appendTo location bytes) := by
  by_cases there : tree.HasFile location
  · intro other
    rw [there.content_appendTo]
    exact List.prefix_append _ _
  · have same : tree.appendTo location bytes = tree := by
      unfold appendTo
      split
      · next file found => exact (there ⟨file, found⟩).elim
      · rfl
    rw [same]
    exact .refl tree

end FileTree

namespace LogFile

variable (file : LogFile) (tree : FileTree)

theorem extends_putLine (line : Text) : tree.Extends (file.putLine tree line).2 :=
  putLine_induction (.refl tree) fun _ _ longer => longer.trans (FileTree.extends_appendTo _ _ _)

theorem extends_beginFile (dated : Text) : tree.Extends (file.beginFile tree dated).2.2 := by
  unfold beginFile
  split
  · exact .refl tree
  · next touched =>
      intro location
      simp only [(FileTree.touch_ok touched).2, List.prefix_rfl]

theorem extends_rotate (today : Nat) : tree.Extends (file.rotate tree today).2.2 := by
  have written : tree.Extends (file.writeOut tree).2 := tree.extends_appendTo file.place file.held
  unfold rotate
  split
  · exact written.trans (extends_beginFile _ _ _)
  · split
    · exact written.trans (extends_beginFile _ _ _)
    · exact .refl tree

theorem extends_writeLine (today : Nat) (line : Text) :
    tree.Extends (file.writeLine tree today line).2.2 := by
  have turned := extends_rotate file tree today
  unfold writeLine
  split
  · next rotating =>
      rw [rotating] at turned
      exact turned
  · next rotating =>
      rw [rotating] at turned
      exact turned.trans (extends_putLine _ _ _)

end LogFile

namespace LogSink

/-- The files have become longer, and so have the complaints. -/
structure Grows (sink next : LogSink) : Prop where
  files : sink.tree.Extends next.tree
  complaints : sink.complaints <+: next.complaints

theorem Grows.refl (sink : LogSink) : sink.Grows sink :=
  ⟨.refl sink.tree, List.prefix_rfl⟩

theorem Grows.trans {first second third : LogSink} (early : first.Grows second)
    (late : second.Grows third) : first.Grows third :=
  ⟨early.files.trans late.files, early.complaints.trans late.complaints⟩

theorem grows_writeDirect (sink : LogSink) (today : Nat) (line : Text) :
    sink.Grows (sink.writeDirect today line) := by
  have longer := sink.file.extends_writeLine sink.tree today line
  unfold writeDirect
  split
  · next wrote =>
      rw [wrote] at longer
      exact ⟨longer, List.prefix_rfl⟩
  · next wrote =>
      rw [wrote] at longer
      exact ⟨longer, List.prefix_append _ _⟩

theorem grows_flush (sink : LogSink) : sink.Grows sink.flush :=
  ⟨sink.tree.extends_appendTo sink.file.place sink.file.held, List.prefix_rfl⟩

end LogSink

namespace SharedSink

open LogFile

variable {shared next last : SharedSink}

/-- The lines in the hands of the calls that handed them in. -/
def underway (shared : SharedSink) : List Text :=
  shared.entering.toList ++ shared.direct

/-- What one section does to the files and to the lines of calls that have not returned: only a
line that is handed in comes to these. -/
structure Onward (shared : SharedSink) (handed : List Text) (next : SharedSink) : Prop where
  grows : shared.sink.Grows next.sink
  underway : ∀ line, next.underway.count line ≤ shared.underway.count line + handed.count line

theorem Onward.trans {first second third : SharedSink} {handed more : List Text}
    (early : first.Onward handed second) (late : second.Onward more third) :
    first.Onward (handed ++ more) third := by
  refine ⟨early.grows.trans late.grows, fun line => ?_⟩
  have before := early.underway line
  have behind := late.underway line
  rw [List.count_append]
  omega

/-- A section that leaves the lines of calls where they are, and takes no line. -/
theorem onward_of_same (grows : shared.sink.Grows next.sink)
    (same : next.underway = shared.underway) : shared.Onward [] next :=
  ⟨grows, fun line => Nat.le_of_eq (by rw [same]; rfl)⟩

theorem grows_setQueue (shared : SharedSink) (queue : Queue Text) :
    shared.sink.Grows (shared.setQueue queue).sink :=
  ⟨.refl _, List.prefix_rfl⟩

theorem grows_record (shared : SharedSink) (today : Nat) (line : Text) :
    shared.sink.Grows (shared.record today line).sink :=
  shared.sink.grows_writeDirect today line

theorem onward_submit {line : Text} (due : shared.submit? line = some next) :
    shared.Onward [line] next := by
  have direct : shared.Onward [line] { shared with direct := shared.direct ++ [line] } := by
    refine ⟨.refl _, fun other => ?_⟩
    simp only [underway, List.count_append]
    omega
  unfold submit? at due
  split at due
  · cases due
    exact direct
  · cases due
  · next free =>
      split at due
      · cases due
        exact direct
      · cases due
        refine ⟨.refl _, fun other => ?_⟩
        simp only [underway, free, List.count_append, Option.toList_some, Option.toList_none,
          List.count_nil]
        omega

theorem onward_append (due : shared.append? = some next) : shared.Onward [] next := by
  unfold append? at due
  split at due
  · cases due
    refine ⟨grows_setQueue shared _, fun other => ?_⟩
    simp only [underway, setQueue, List.count_append, Option.toList_none, List.count_nil]
    omega
  · cases due

theorem onward_write {index today : Nat} {line : Text} :
    shared.Onward [] (shared.write index today line) := by
  refine ⟨grows_record shared today line, fun other => ?_⟩
  have fewer := (List.eraseIdx_sublist shared.direct index).count_le other
  simp only [underway, write, record, List.count_append]
  omega

theorem onward_stop {today : Nat} (due : shared.stop? today = some next) :
    shared.Onward [] next := by
  unfold stop? at due
  split at due
  · cases due
    exact onward_of_same (.refl _) rfl
  · cases due
    exact onward_of_same (grows_setQueue shared _) rfl
  · split at due
    · cases due
      exact onward_of_same (grows_setQueue shared _) rfl
    · cases due
  · cases due
  · cases due
    exact onward_of_same (grows_record shared _ _) rfl
  · cases due
    exact onward_of_same shared.sink.grows_flush rfl
  · cases due

/-- Each section leaves what is in the files, and the lines of calls come from where they are
handed in. -/
theorem onward_step? {first : Section} (due : shared.step? first = some next) :
    shared.Onward first.line?.toList next := by
  cases first with
  | submit line => exact onward_submit due
  | append => exact onward_append due
  | post =>
      simp only [step?, post?] at due
      split at due <;> cases due
      exact onward_of_same (grows_setQueue shared _) rfl
  | write index today =>
      obtain ⟨line, found, rfl⟩ := Option.map_eq_some_iff.1 due
      exact onward_write
  | spawn =>
      simp only [step?, spawn?] at due
      split at due <;> cases due
      split <;> exact onward_of_same (.refl _) rfl
  | wait =>
      simp only [step?, wait?] at due
      split at due
      · split at due <;> cases due <;> exact onward_of_same (grows_setQueue shared _) rfl
      · cases due
  | remove =>
      simp only [step?, remove?] at due
      split at due
      · split at due <;> cases due <;> exact onward_of_same (grows_setQueue shared _) rfl
      · cases due
  | deliver today =>
      simp only [step?, deliver?] at due
      split at due <;> cases due
      exact onward_of_same (grows_record shared _ _) rfl
  | flush =>
      cases due
      exact onward_of_same shared.sink.grows_flush rfl
  | stop today => exact onward_stop due

theorem onward_run? {sections : List Section} (ran : shared.run? sections = some last) :
    shared.Onward (submitted sections) last := by
  induction sections generalizing shared with
  | nil =>
      cases ran
      exact onward_of_same (.refl _) rfl
  | cons first rest ih =>
      obtain ⟨middle, due, ranOn⟩ := Option.bind_eq_some_iff.1 ran
      have onward := (onward_step? due).trans (ih ranOn)
      convert onward using 2
      cases handed : first.line? <;> simp [submitted, handed]

/-! ## The section that writes out -/

/-- The log behind the section that ends stopping. -/
def flushed (shared : SharedSink) : SharedSink :=
  { shared with sink := shared.sink.flush, stopping := .returned }

/-- Only the call that stops the log goes on with stopping. -/
theorem stopping_of_step? {first : Section} (due : shared.step? first = some next)
    (other : ∀ today, first ≠ .stop today) : next.stopping = shared.stopping := by
  cases first with
  | stop today => exact (other today rfl).elim
  | submit line =>
      simp only [step?, submit?] at due
      repeat' split at due
      all_goals cases due
      all_goals rfl
  | append =>
      simp only [step?, append?] at due
      split at due <;> cases due
      rfl
  | post =>
      simp only [step?, post?] at due
      split at due <;> cases due
      rfl
  | write index today =>
      obtain ⟨line, -, rfl⟩ := Option.map_eq_some_iff.1 due
      rfl
  | spawn =>
      simp only [step?, spawn?] at due
      split at due <;> cases due
      split <;> rfl
  | wait =>
      simp only [step?, wait?] at due
      repeat' split at due
      all_goals cases due
      all_goals rfl
  | remove =>
      simp only [step?, remove?] at due
      repeat' split at due
      all_goals cases due
      all_goals rfl
  | deliver today =>
      simp only [step?, deliver?] at due
      split at due <;> cases due
      rfl
  | flush =>
      cases due
      rfl

/-- Stopping returns with the section that writes out what is held back. -/
theorem returns_of_step? {first : Section} (due : shared.step? first = some next)
    (before : shared.stopping ≠ .returned) (returned : next.stopping = .returned) :
    (∃ today, first = .stop today) ∧ shared.stopping = .writing [] ∧ next = shared.flushed := by
  by_cases stops : ∃ today, first = .stop today
  · refine ⟨stops, ?_⟩
    obtain ⟨today, rfl⟩ := stops
    simp only [step?, stop?] at due
    split at due
    · cases due; cases returned
    · cases due; cases returned
    · split at due <;> cases due
      cases returned
    · cases due
    · cases due; cases returned
    · next writing =>
        cases due
        exact ⟨writing, rfl⟩
    · cases due
  · exact (before ((stopping_of_step? due fun today same =>
      stops ⟨today, same⟩).symm.trans returned)).elim

/-- In a run in which stopping returns there is the section that writes out what is held back. -/
theorem returns_of_run? {sections : List Section} (ran : shared.run? sections = some last)
    (before : shared.stopping ≠ .returned) (returned : last.stopping = .returned) :
    ∃ front today back middle, sections = front ++ .stop today :: back ∧
      shared.run? front = some middle ∧ middle.stopping = .writing [] ∧
      middle.flushed.run? back = some last := by
  induction sections generalizing shared with
  | nil =>
      cases ran
      exact (before returned).elim
  | cons first rest ih =>
      obtain ⟨second, due, ranOn⟩ := Option.bind_eq_some_iff.1 ran
      by_cases now : second.stopping = .returned
      · obtain ⟨⟨today, rfl⟩, writing, rfl⟩ := returns_of_step? due before now
        exact ⟨[], today, rest, shared, rfl, rfl, writing, ranOn⟩
      · obtain ⟨front, today, back, middle, rfl, ranFront, writing, ranBack⟩ := ih ranOn now
        refine ⟨first :: front, today, back, middle, rfl, ?_, writing, ranBack⟩
        rw [run?, due]
        exact ranFront

/-- What is in the files when a log was dropped.  Let a log be opened with a queue of any capacity,
or without one, and be used in any way, section by section, until it is dropped; then let it be
stopped, while others go on to use it in any way.  Suppose that no write failed and that stopping
has returned, as it has when the log was dropped.  There is one section at which stopping has
written out what is held back.  Take the lines that were handed in before the log was dropped,
without those that were still in the hands of the calls that handed them in.  Each of them was
written, and is in the files, as often as it was handed in, but for one: the line that the flusher
had in its hands at this section. -/
theorem durable_but_one {tree touched : FileTree} {path : Text}
    {capacity splitLines today : Nat} {sink : LogSink}
    (started : LogSink.start tree path capacity splitLines today = (.ok sink, touched))
    {early late : List Section} {dropped : SharedSink}
    (ranEarly : (ofSink sink).run? early = some dropped) (unbegun : dropped.stopping = .unbegun)
    (ranLate : dropped.run? late = some last) (stopped : last.stopping = .returned)
    (fine : last.sink.complaints = []) :
    ∃ front day back flushing missing, late = front ++ .stop day :: back ∧
      dropped.run? front = some flushing ∧ flushing.stopping = .writing [] ∧
      flushing.flusher.held = Option.toList missing ∧
      (∀ location, tree.content location ++
        (linesAt flushing.written location).flatMap lineBytes <+: last.sink.tree.content location) ∧
      ∀ line, (submitted early).count line ≤ (flushing.written.map Prod.snd).count line +
        dropped.underway.count line + (Option.toList missing).count line := by
  obtain ⟨front, day, back, flushing, rfl, ranFront, writing, ranBack⟩ :=
    returns_of_run? ranLate (by rw [unbegun]; nofun) stopped
  obtain ⟨missing, held⟩ : ∃ missing, flushing.flusher.held = Option.toList missing := by
    cases flushing.flusher with
    | holding line => exact ⟨some line, rfl⟩
    | absent | waiting | granted | stopped => exact ⟨none, rfl⟩
  have soundDropped := (sound_ofSink started).run? ranEarly
  have sound := soundDropped.run? ranFront
  refine ⟨front, day, back, flushing, missing, rfl, ranFront, writing, held, fun location => ?_,
    fun line => ?_⟩
  · have rest := onward_run? ranBack
    have fineThen : flushing.sink.flush.complaints = [] :=
      List.prefix_nil.1 (fine ▸ rest.grows.complaints)
    have out := sound.flush.content fineThen rfl location
    exact out ▸ rest.grows.files location
  · have account := sound.account line
    have moved := (onward_run? ranFront).underway line
    obtain ⟨empty, free⟩ := sound.emptied (by rw [writing]; rfl)
    simp only [copies, pending, empty, writing, held, SinkStopping.held, List.count_append,
      List.nil_append, List.append_nil] at account
    simp only [underway, List.count_append] at moved ⊢
    omega

/-- The flusher takes a line out of the queue, and writes it only when stopping has returned. -/
def whileDropped : List Section :=
  [.wait, .remove, .stop 20000, .stop 20000, .stop 20000, .deliver 20000, .wait]

/-- The flusher has written a first line when a second one comes into the queue. -/
def twoLines : List Section :=
  [.spawn, .submit "a".toList, .append, .post, .wait, .remove, .deliver 20000,
    .submit "b".toList, .append, .post]

/-- Of two lines the first is in the file, and the second is the one in the hands of the
flusher. -/
theorem durable_but_one_second :
    ∃ dropped last : SharedSink,
      (ofSink smallLog).run? twoLines = some dropped ∧ dropped.run? whileDropped = some last ∧
      last.sink.tree.content smallLog.file.place = lineBytes "a".toList ∧
      ∃ flushing : SharedSink, ∃ missing : Option Text,
        flushing.flusher.held = missing.toList ∧
        (∀ location, (FileTree.empty 0o755).content location ++
          (linesAt flushing.written location).flatMap lineBytes <+:
            last.sink.tree.content location) ∧
        ∀ line, ["a".toList, "b".toList].count line ≤
          (flushing.written.map Prod.snd).count line + missing.toList.count line := by
  have started : LogSink.start (.empty 0o755) "log".toList 1 2 20000 =
      (.ok smallLog, smallLog.tree) := by decide +kernel
  have first : ((ofSink smallLog).run? twoLines).map (fun dropped =>
      (dropped.underway, dropped.stopping)) = some ([], .unbegun) := by
    decide +kernel
  obtain ⟨dropped, ranEarly, seen⟩ := Option.map_eq_some_iff.1 first
  have second : ((ofSink smallLog).run? (twoLines ++ whileDropped)).map (fun last =>
      (last.stopping, last.sink.complaints, last.sink.tree.content smallLog.file.place)) =
      some (.returned, [], lineBytes "a".toList) := by
    decide +kernel
  obtain ⟨last, ran, ended⟩ := Option.map_eq_some_iff.1 second
  rw [run?_append, ranEarly] at ran
  simp only [Prod.mk.injEq] at seen ended
  obtain ⟨returned, unbegun⟩ := seen
  obtain ⟨stopped, fine, content⟩ := ended
  obtain ⟨-, -, -, flushing, missing, -, -, -, held, files, counts⟩ :=
    durable_but_one started ranEarly unbegun ran stopped fine
  refine ⟨dropped, last, ranEarly, ran, content, flushing, missing, held, files, fun line => ?_⟩
  have counted := counts line
  rw [returned, List.count_nil, Nat.add_zero] at counted
  exact counted

/-- A line that comes into the queue before the log is dropped. -/
def beforeDrop : List Section :=
  [.spawn, .submit "a".toList, .append, .post]

/-- A log that was dropped does not have all its lines in its files.  The call that handed in the
line has returned before the log is dropped, nothing goes wrong, and when stopping has returned
and the flusher has stopped, no file has changed: the line is held back. -/
theorem line_left_behind :
    ∃ dropped last : SharedSink,
      LogSink.start (.empty 0o755) "log".toList 1 2 20000 = (.ok smallLog, smallLog.tree) ∧
      (ofSink smallLog).run? beforeDrop = some dropped ∧ submitted beforeDrop = ["a".toList] ∧
      dropped.underway = [] ∧ dropped.posting = 0 ∧ dropped.stopping = .unbegun ∧
      dropped.run? whileDropped = some last ∧
      last.stopping = .returned ∧ last.flusher = .stopped ∧ last.sink.complaints = [] ∧
      last.sink.tree = smallLog.tree ∧ last.sink.tree.content smallLog.file.place = [] ∧
      last.sink.file = { smallLog.file with count := 1, held := lineBytes "a".toList } := by
  have first : ((ofSink smallLog).run? beforeDrop).map (fun dropped =>
      (dropped.underway, dropped.posting, dropped.stopping)) = some ([], 0, .unbegun) := by
    decide +kernel
  obtain ⟨dropped, ranEarly, seen⟩ := Option.map_eq_some_iff.1 first
  have second : ((ofSink smallLog).run? (beforeDrop ++ whileDropped)).map (fun last =>
      (last.stopping, last.flusher, last.sink.complaints, last.sink.tree, last.sink.file)) =
      some (.returned, .stopped, [], smallLog.tree,
        { smallLog.file with count := 1, held := lineBytes "a".toList }) := by
    decide +kernel
  obtain ⟨last, ran, ended⟩ := Option.map_eq_some_iff.1 second
  rw [run?_append, ranEarly] at ran
  simp only [Prod.mk.injEq] at seen ended
  obtain ⟨returned, posted, unbegun⟩ := seen
  obtain ⟨stopped, joined, fine, left, held⟩ := ended
  have started : LogSink.start (.empty 0o755) "log".toList 1 2 20000 =
      (.ok smallLog, smallLog.tree) := by decide +kernel
  have unchanged : smallLog.tree.content smallLog.file.place = [] := by decide +kernel
  exact ⟨dropped, last, started, ranEarly, rfl, returned, posted, unbegun, ran, stopped, joined,
    fine, left, by rw [left, unchanged], held⟩

end SharedSink

end FileServer
