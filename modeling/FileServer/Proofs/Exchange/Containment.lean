import FileServer.Proofs.Document.Descent
import FileServer.Proofs.Exchange.Resumption
import FileServer.Proofs.Request.Lines

/-!
# Nothing is sent from outside of the document root

The url of a request is tested once, when the request line is read, and used
elsewhere, when the document is opened.  In between the scheme, the authority and the
query are gone, and the slashes in front are taken off before the url is put behind
the root.  Whatever bytes a connection received, in whatever pieces and with whatever
calls in between, the url that it keeps leads down, and the file that it sends lies
below the root.
-/

namespace FileServer

/-! ## The url of a request -/

namespace Grammar

/-- A target asks for a part of itself. -/
theorem AsksFor.part {target url : Text} (asks : AsksFor target url) :
    ∃ front back, target = front ++ url ++ back ∧ PathOf (url ++ back) url := by
  have parts {address : Text} (path : PathOf address url) :
      ∃ back, address = url ++ back ∧ PathOf (url ++ back) url := by
    rcases path.query with rfl | ⟨query, rfl⟩
    · exact ⟨[], (List.append_nil _).symm, by rwa [List.append_nil]⟩
    · exact ⟨'?' :: query, rfl, path⟩
  cases asks with
  | @absolute scheme authority _ _ _ _ path =>
      obtain ⟨back, rfl, path⟩ := parts path
      exact ⟨scheme ++ authority, back, by simp, path⟩
  | address _ path =>
      obtain ⟨back, rfl, path⟩ := parts path
      exact ⟨[], back, by simp, path⟩

/-- A url that is requested leads down. -/
theorem Requests.descends {line : Bytes} {url : Text} (requests : Requests line url) :
    Path.Descends url := by
  obtain ⟨text, method, target, -, spells, -, asks⟩ := requests
  obtain ⟨front, back, rfl, path⟩ := asks.part
  have plain : Text.Plain Ascii.isBlank (front ++ url ++ back) := by
    apply spells.plain
    simp
  refine ⟨path.slash, path.noMark, fun char member => plain char (by simp [member]), ?_⟩
  exact fun climbs => path.noParent (Text.mem_splitAt_iff.1 climbs)

end Grammar

namespace Parser

/-- The request line is not read yet, or a url is known that leads down. -/
def KeepsDown (parser : Parser) : Prop :=
  parser.phase = .requestLine ∧ parser.url = [] ∨ Path.Descends parser.url

theorem keepsDown_fresh (capacity : Nat) : (fresh capacity).KeepsDown :=
  .inl ⟨rfl, rfl⟩

theorem KeepsDown.of_same {before after : Parser} (keeps : before.KeepsDown)
    (phase : after.phase = before.phase) (url : after.url = before.url) : after.KeepsDown := by
  rwa [KeepsDown, phase, url]

theorem KeepsDown.descends {parser : Parser} (keeps : parser.KeepsDown)
    (known : parser.url ≠ [] ∨ parser.phase ≠ .requestLine) : Path.Descends parser.url := by
  rcases keeps with ⟨first, blank⟩ | descends
  · exact (known.elim (· blank) (· first)).elim
  · exact descends

/-- A line that is taken either requests a url or leaves the url as it is. -/
theorem KeepsDown.takeLine {parser after : Parser} {line : Bytes} {verdict : Verdict}
    (keeps : parser.KeepsDown) (taken : parser.takeLine line = (verdict, after)) :
    after.KeepsDown := by
  by_cases first : parser.phase = .requestLine
  · by_cases requested : ∃ url, Grammar.Requests line url
    · obtain ⟨url, requests⟩ := requested
      cases taken.symm.trans (Grammar.takeLine_of_requests first requests)
      exact .inr requests.descends
    · cases taken.symm.trans (Grammar.takeLine_of_not_requests first (not_exists.1 requested))
      exact keeps
  · have same := (takeLine_of_ne_requestLine line first).2
    rw [taken] at same
    exact .inr (same ▸ keeps.descends (.inr first))

theorem KeepsDown.nextLine {parser next : Parser} {buffer : Bytes} {status : LineStatus}
    (keeps : parser.KeepsDown) (found : parser.nextLine buffer = (status, next)) :
    next.KeepsDown :=
  keeps.of_same (nextLine_keeps found).1 (nextLine_keeps found).2.1

theorem KeepsDown.beginLine {parser : Parser} (keeps : parser.KeepsDown) :
    parser.beginLine.KeepsDown :=
  keeps.of_same rfl rfl

/-- A call keeps no url but one that leads down. -/
theorem Course.keepsDown {parser after : Parser} {buffer : Bytes} {verdict : Verdict}
    (course : Course buffer parser verdict after) (keeps : parser.KeepsDown) :
    after.KeepsDown := by
  induction course with
  | body _ taken =>
      simp only [takeBody] at taken
      split at taken <;> cases taken <;> exact keeps.of_same rfl rfl
  | unfinished _ found | broken _ found => exact keeps.nextLine found
  | goOn _ found _ taken _ ih => exact ih ((keeps.nextLine found).beginLine.takeLine taken)
  | decide _ found _ taken => exact (keeps.nextLine found).beginLine.takeLine taken

end Parser

/-! ## The file of a connection -/

/-- The path that a url is opened under: what is put behind the root is no path of its own
and leads along names only. -/
structure LeadsDown (root url : Text) : Prop where
  relative : Path.isAbsolute (Path.relative url) = false
  start : Path.isAbsolute (documentPath root url) = Path.isAbsolute root
  moves : Path.moves (documentPath root url) = Path.moves root ++ Path.moves (Path.relative url)
  names : ∀ name ∈ Path.moves (Path.relative url), Path.IsName name

theorem Path.Descends.leadsDown {url : Text} (descends : Path.Descends url) (root : Text) :
    LeadsDown root url where
  relative := Path.isAbsolute_relative url
  start := Path.isAbsolute_documentPath root url
  moves := Path.moves_documentPath root url
  names _ := descends.isName

namespace Connection

variable {tree : FileTree} {root : Text} {start connection : Connection}

theorem keepsDown_reset (connection : Connection) : connection.reset.parser.KeepsDown :=
  Parser.keepsDown_fresh connection.parser.capacity

/-- Sending leaves the request alone or forgets it. -/
theorem keepsDown_advance (connection : Connection) (count : Nat)
    (keeps : connection.parser.KeepsDown) : (connection.advance count).2.parser.KeepsDown := by
  rcases advance_cases connection count with ⟨-, same⟩ | ⟨-, ⟨-, same⟩ | ⟨-, same⟩⟩
  · rw [same]; exact keeps
  · rw [same]; exact keepsDown_reset connection
  · rw [same]; exact keeps

theorem Transmission.keepsDown {before after : Connection} {outcome : Written} {taken : Bytes}
    (sent : Transmission before outcome after taken) (keeps : before.parser.KeepsDown) :
    after.parser.KeepsDown := by
  induction sent with
  | again | gaveUp => exact keeps
  | @finished connection _ _ taken _ _ advanced =>
      have kept := keepsDown_advance connection taken.length keeps
      rwa [advanced] at kept
  | @goesOn connection _ _ _ taken _ _ _ advanced _ ih =>
      have kept := keepsDown_advance connection taken.length keeps
      rw [advanced] at kept
      exact ih kept

/-- Whatever a connection has been through, it keeps no url but one that leads
down. -/
theorem History.keepsDown (history : History tree root start connection)
    {capacity : Nat} (blank : start.parser = .fresh capacity) : connection.parser.KeepsDown := by
  induction history with
  | start => exact blank ▸ Parser.keepsDown_fresh capacity
  | accept | reset | close => exact keepsDown_reset _
  | @read connection _ socket ih =>
      obtain ⟨input, same⟩ := read_eq connection socket
      rw [same]
      exact ih
  | @process connection next outcome _ processed ih =>
      obtain ⟨verdict, parser, advanced, worked⟩ := process?_cases processed
      have parsed := (Parser.Course.of_advance? advanced).keepsDown ih
      rcases worked with ⟨-, -, rfl⟩ | ⟨reply, -, responded⟩
      · exact parsed
      · rcases respond_cases { connection with parser } reply with
          ⟨next, answered, answers⟩ | ⟨next, refused, -, same⟩
        · cases responded.symm.trans answered
          rw [answers.parser]
          exact parsed
        · cases responded.symm.trans refused
          rw [same]
          exact parsed
  | @write connection _ socket ih =>
      obtain ⟨⟨outcome, next, after⟩, written⟩ : ∃ result, connection.write socket = result :=
        ⟨_, rfl⟩
      rw [written]
      rcases write_cases written with ⟨-, -, rfl, -⟩ | ⟨-, -, rfl, -⟩ | ⟨-, -, taken, sent, -⟩
      · exact ih
      · exact keepsDown_reset connection
      · exact sent.keepsDown ih

/-- The socket takes a front part of what is left of head and file. -/
theorem Transmission.taken_prefix {before after : Connection} {outcome : Written} {taken : Bytes}
    (sent : Transmission before outcome after taken) : taken <+: before.unsent := by
  induction sent with
  | again | gaveUp => exact List.nil_prefix
  | finished front => exact front
  | @goesOn connection next _ _ taken more front _ advanced _ ih =>
      rcases advance_cases connection taken.length with ⟨-, goesOn⟩ | ⟨-, ⟨-, final⟩ | ⟨-, final⟩⟩
      · cases advanced.symm.trans goesOn
        obtain ⟨left, whole⟩ := front
        have rest : ({ connection with haveSent := connection.haveSent + taken.length } :
            Connection).unsent = left := by
          change connection.answer.drop (connection.haveSent + taken.length) = left
          rw [← List.drop_drop, ← unsent, ← whole, List.drop_left]
        rw [← whole]
        exact (List.prefix_append_right_inj taken).2 (rest ▸ ih)
      · cases advanced.symm.trans final
      · cases advanced.symm.trans final

/-- A file that a connection has lies below the root. -/
theorem History.holdsBelow (history : History tree root start connection)
    (unmapped : start.file = none) {capacity : Nat} (blank : start.parser = .fresh capacity)
    {content : Bytes} (found : connection.file = some content) : tree.HoldsBelow root content := by
  obtain ⟨-, behind, asked⟩ := history.mapped unmapped content found
  have descends := (history.keepsDown blank).descends (.inr behind)
  unfold Reply.ofPath at asked
  split at asked
  · next stored looked =>
      cases asked
      exact FileTree.holdsBelow_of_lookup descends looked
  · cases asked

/-- Nothing escapes from the document root.  Let a connection that began without a file
and without a request go through any calls, in any order, whatever its sockets answer
and however the bytes are cut.  When it has a url, this starts with a slash, has no
question mark, no blank and no segment `..`, and the path that is opened for it is the
root with names behind it.  What a socket takes from it is the next part of the head and
of a file that lies below the root. -/
theorem no_escape (history : History tree root start connection) (unmapped : start.file = none)
    {capacity : Nat} (blank : start.parser = .fresh capacity) :
    (connection.parser.url ≠ [] →
      Path.Descends connection.parser.url ∧ LeadsDown root connection.parser.url) ∧
    (∀ socket, ∃ taken, (connection.write socket).2.2.sent = socket.sent ++ taken ∧
      taken <+: (connection.output.contents ++ connection.file.getD []).drop connection.haveSent) ∧
    ∀ content, connection.file = some content → tree.HoldsBelow root content := by
  refine ⟨fun known => ?_, fun socket => ?_, fun content => history.holdsBelow unmapped blank⟩
  · have descends := (history.keepsDown blank).descends (.inl known)
    exact ⟨descends, descends.leadsDown root⟩
  · obtain ⟨⟨outcome, next, after⟩, written⟩ : ∃ result, connection.write socket = result :=
      ⟨_, rfl⟩
    rw [written]
    rcases write_cases written with ⟨-, -, -, rfl⟩ | ⟨-, -, -, rfl⟩ | ⟨-, -, taken, sent, grown⟩
    · exact ⟨[], (List.append_nil _).symm, List.nil_prefix⟩
    · exact ⟨[], (List.append_nil _).symm, List.nil_prefix⟩
    · exact ⟨taken, grown, sent.taken_prefix⟩

/-- The small request has the url of the document that is sent for it. -/
theorem no_escape_small :
    Path.Descends smallAnswer.parser.url ∧ smallTree.HoldsBelow [] [104, 105] := by
  have history : History smallTree [] smallRequest smallAnswer :=
    .process .start process?_smallRequest
  obtain ⟨descends, -, below⟩ :=
    no_escape history rfl (show smallRequest.parser = .fresh inputCapacity from rfl)
  exact ⟨(descends (by decide +kernel)).1, below _ (by decide +kernel)⟩

end Connection

end FileServer
