import FileServer.Proofs.Request.Incremental
import FileServer.Proofs.Request.Positions
import FileServer.Proofs.Storage.Access
import FileServer.Text.Literal
import Mathlib.Data.List.Basic

/-!
# The parser never looks outside of its buffer

The parser as a machine carries it out: it looks at one byte after the other, cuts lines out of
the buffer between two places that were found in different calls, cuts targets at places among
their bytes, and adds the length of a body, which the client chooses, to its cursor.  Each of
these may fail here.  None does, whatever the calls were and whatever buffers they got, since
the start of the line is never behind the cursor: what is found on a buffer is found behind the
cursor, and a line that starts before it lies inside of this buffer, too.
-/

namespace FileServer

open Access

/-! ## Targets -/

namespace Text

/-- The first bytes of a text are the bytes of its first characters. -/
theorem prefix_of_takeBytes? {count : Nat} {text front : Text}
    (taken : takeBytes? count text = some front) : front <+: text := by
  induction text generalizing count front with
  | nil =>
      cases count with
      | zero => cases taken; exact List.prefix_rfl
      | succ count => cases taken
  | cons char rest ih =>
      cases count with
      | zero => cases taken; exact List.nil_prefix
      | succ count =>
          simp only [takeBytes?] at taken
          split at taken
          · obtain ⟨inner, found, rfl⟩ := Option.map_eq_some_iff.1 taken
            exact List.cons_prefix_cons.2 ⟨rfl, ih found⟩
          · cases taken

/-- Characters of one byte each are as many bytes as characters. -/
theorem cut_of_single {front : Text} (single : ∀ char ∈ front, char.utf8Size = 1) (back : Text) :
    takeBytes? front.length (front ++ back) = some front ∧
      dropBytes? front.length (front ++ back) = some back := by
  induction front with
  | nil => exact ⟨by rw [List.length_nil, takeBytes?], by rw [List.length_nil, dropBytes?]; rfl⟩
  | cons char rest ih =>
      obtain ⟨one, others⟩ := List.forall_mem_cons.1 single
      obtain ⟨taken, dropped⟩ := ih others
      rw [List.length_cons, Nat.add_comm, ← one, List.cons_append]
      exact ⟨by rw [takeBytes?_add, taken]; rfl, by rw [dropBytes?_add, dropped]⟩

end Text

/-- A character that is ASCII in lower case is ASCII. -/
theorem Ascii.utf8Size_of_lower {char : Char} (ascii : (lower char).toNat < 128) :
    char.utf8Size = 1 := by
  rw [Char.utf8Size_eq_one_iff]
  delta lower Char.toLower at ascii
  split at ascii
  · next capital =>
      have := capital.2
      simp only [UInt32.le_iff_toNat_le] at this ⊢
      exact Nat.le_trans this (by decide)
  · exact Nat.le_of_lt_succ ascii

namespace Target

/-- A text that spells the scheme has one byte for each character. -/
theorem single_of_scheme {front : Text} (spelled : Ascii.sameText front scheme = true) :
    front.length = scheme.length ∧ ∀ char ∈ front, char.utf8Size = 1 := by
  rw [Ascii.sameText_iff] at spelled
  constructor
  · simpa using congrArg List.length spelled
  · intro char member
    apply Ascii.utf8Size_of_lower
    have image : Ascii.lower char ∈ scheme.map Ascii.lower :=
      spelled ▸ List.mem_map_of_mem member
    revert image
    generalize Ascii.lower char = lowered
    have small : (scheme.map Ascii.lower).all (·.toNat < 128) = true := by decide +kernel
    exact fun image => of_decide_eq_true (List.all_eq_true.1 small lowered image)

/-- `withoutAuthority?` with places among the bytes of the target. -/
def withoutAuthorityAt (target : Text) : Except Fault (Option Text) :=
  match target.takeBytes? scheme.length with
  | none => .ok (some target)
  | some front =>
      if Ascii.sameText front scheme then do
        let rest ← textFrom scheme.length target
        match placeOf? '/' rest with
        | none => return none
        | some place => return some (← textFrom place rest)
      else
        .ok (some target)

theorem withoutAuthorityAt_eq (target : Text) :
    withoutAuthorityAt target = .ok (withoutAuthority? target) := by
  by_cases spelled : Ascii.sameText (target.take scheme.length) scheme = true
  · obtain ⟨size, single⟩ := single_of_scheme spelled
    obtain ⟨taken, dropped⟩ := Text.cut_of_single single (target.drop scheme.length)
    rw [List.take_append_drop, size] at taken dropped
    simp only [withoutAuthorityAt, taken, spelled, ↓reduceIte, textFrom, dropped, withoutAuthority?,
      bind, Except.bind]
    rcases placeOf?_cases '/' (target.drop scheme.length) with
      ⟨none, empty, -⟩ | ⟨place, there, back, -, nonempty⟩
    · rw [none, empty]
      rfl
    · simp only [there, back]
      rfl
  · simp only [withoutAuthority?, spelled, withoutAuthorityAt]
    split
    · rfl
    · next front taken =>
        rw [if_neg]
        · rfl
        · intro spelledToo
          apply spelled
          rw [← (single_of_scheme spelledToo).1,
            ← List.prefix_iff_eq_take.1 (Text.prefix_of_takeBytes? taken)]
          exact spelledToo

/-- `withoutQuery` with places among the bytes of the path. -/
def withoutQueryAt (path : Text) : Except Fault Text :=
  match placeOf? '?' path with
  | none => .ok path
  | some place => textUpTo place path

theorem withoutQueryAt_eq (path : Text) : withoutQueryAt path = .ok (withoutQuery path) := by
  rcases placeOf?_cases '?' path with ⟨none, -, whole⟩ | ⟨place, there, -, front, -⟩
  · rw [withoutQueryAt, none, withoutQuery, whole]
  · simp only [withoutQueryAt, there, textUpTo, front, withoutQuery]

/-- `path?` with places among the bytes of the target. -/
def pathAt (target : Text) : Except Fault (Option Text) := do
  match ← withoutAuthorityAt target with
  | some address =>
      if address.head? = some '/' then
        let path ← withoutQueryAt address
        return if (segments path).contains parent then none else some path
      else
        return none
  | none => return none

theorem pathAt_eq (target : Text) : pathAt target = .ok (path? target) := by
  simp only [pathAt, withoutAuthorityAt_eq, withoutQueryAt_eq, path?, bind, Except.bind, Option.bind]
  cases withoutAuthority? target with
  | none => rfl
  | some address =>
      cases address with
      | nil => rfl
      | cons first rest =>
          by_cases slash : first = '/'
          · subst slash
            rfl
          · simp only [List.head?_cons, Option.some.injEq, slash, ↓reduceIte]
            split
            · next same => exact (slash (List.cons.inj same).1).elim
            · rfl

end Target

namespace Parser

/-! ## Lines -/

/-- `nextLine`, byte for byte. -/
def nextLineAt (parser : Parser) (buffer : Bytes) : Except Fault (LineStatus × Parser) :=
  if _more : parser.cursor < buffer.length then do
    let byte ← entryAt buffer parser.cursor
    if byte = Line.cr then
      let behind ← sum parser.cursor 1
      if behind = buffer.length then
        return (.unfinished, parser)
      else
        let next ← entryAt buffer behind
        if next = Line.lf then
          let cursor ← sum parser.cursor 2
          return (.complete parser.cursor, { parser with cursor })
        else
          return (.malformed, parser)
    else if byte = Line.lf then
      let cursor ← sum parser.cursor 1
      return (.complete parser.cursor, { parser with cursor })
    else
      match _moved : sum parser.cursor 1 with
      | .error fault => .error fault
      | .ok cursor => nextLineAt { parser with cursor } buffer
  else
    .ok (.unfinished, parser)
  termination_by buffer.length - parser.cursor
  decreasing_by
    unfold sum at _moved
    split at _moved <;> cases _moved
    omega

/-- A byte that ends no line is passed. -/
theorem nextLine_of_plain {parser : Parser} {buffer rest : Bytes} {byte : UInt8}
    (here : buffer.drop parser.cursor = byte :: rest) (notReturn : byte ≠ Line.cr)
    (notFeed : byte ≠ Line.lf) :
    parser.nextLine buffer = { parser with cursor := parser.cursor + 1 }.nextLine buffer := by
  have behind : buffer.drop (parser.cursor + 1) = rest := by
    rw [← List.drop_drop, here, List.drop_succ_cons, List.drop_zero]
  simp only [nextLine, here, behind, Line.scan_cons_of_plain notReturn notFeed]
  cases Line.scan rest <;>
    simp only [Line.Scan.shift, Nat.add_right_comm, ← Nat.add_assoc]

/-- Looking at the bytes of a line one after the other stays inside of the buffer, and a place in
a buffer whose length is a machine word is a machine word. -/
theorem nextLineAt_cases (parser : Parser) (buffer : Bytes) :
    parser.nextLineAt buffer = .ok (parser.nextLine buffer) ∨
      parser.nextLineAt buffer = .error .overflow ∧ Decimal.wordBound ≤ buffer.length := by
  induction left : buffer.length - parser.cursor generalizing parser with
  | zero =>
      have behind : buffer.drop parser.cursor = [] := List.drop_eq_nil_of_le (by omega)
      rw [nextLineAt, dif_neg (by omega), nextLine, behind]
      exact .inl rfl
  | succ left ih =>
      have inside : parser.cursor < buffer.length := by omega
      have here := List.drop_eq_getElem_cons inside
      rw [nextLineAt, dif_pos inside, entryAt_eq_ok (List.getElem?_eq_getElem inside)]
      generalize buffer[parser.cursor] = byte at here
      rcases sum_cases parser.cursor 1 with next | ⟨failed, large⟩
      · simp only [bind, Except.bind, next]
        split
        · next isReturn =>
            split
            · next last =>
                rw [List.drop_eq_nil_of_le (Nat.le_of_eq last.symm)] at here
                simp only [nextLine, here, Line.scan, isReturn, ↓reduceIte]
                exact .inl rfl
            · next more =>
                have insideToo : parser.cursor + 1 < buffer.length := by omega
                rw [List.drop_eq_getElem_cons insideToo] at here
                rw [entryAt_eq_ok (List.getElem?_eq_getElem insideToo)]
                generalize buffer[parser.cursor + 1] = follower at here
                simp only [nextLine, here, Line.scan, isReturn, ↓reduceIte]
                split
                · rcases sum_cases parser.cursor 2 with behind | ⟨failed, large⟩
                  · rw [behind]
                    exact .inl rfl
                  · rw [failed]
                    exact .inr ⟨rfl, by omega⟩
                · exact .inl rfl
        · next notReturn =>
            split
            · next isFeed =>
                simp only [nextLine, here, Line.scan, isFeed, ↓reduceIte]
                exact .inl rfl
            · next notFeed =>
                rw [nextLine_of_plain here notReturn notFeed]
                split
                · next failed => cases next.symm.trans failed
                · next cursor moved =>
                    cases next.symm.trans moved
                    exact ih { parser with cursor := parser.cursor + 1 } (by dsimp only; omega)
      · refine .inr ⟨?_, by omega⟩
        simp only [bind, Except.bind, failed]
        split
        · rfl
        · split
          · rfl
          · split
            · next same => cases failed.symm.trans same; rfl
            · next moved => cases failed.symm.trans moved

theorem nextLineAt_eq (parser : Parser) {buffer : Bytes}
    (small : buffer.length < Decimal.wordBound) :
    parser.nextLineAt buffer = .ok (parser.nextLine buffer) :=
  (nextLineAt_cases parser buffer).resolve_right fun large => Nat.not_lt_of_le large.2 small

/-- What is found by places is found. -/
theorem nextLine_of_nextLineAt {parser next : Parser} {buffer : Bytes} {status : LineStatus}
    (found : parser.nextLineAt buffer = .ok (status, next)) :
    parser.nextLine buffer = (status, next) := by
  rcases nextLineAt_cases parser buffer with same | ⟨failed, -⟩
  · exact Except.ok.inj (same.symm.trans found)
  · cases failed.symm.trans found

/-! ## Whole calls -/

/-- `takeRequestLine`, with the words of the line looked up by their places. -/
def takeRequestLineAt (parser : Parser) (line : Text) : Except Fault (Verdict × Parser) :=
  let words := line.words Ascii.isBlank
  if words.length ≠ 3 then
    .ok (.malformed, parser)
  else do
    match Method.parse? (← entryAt words 0) with
    | none => return (.malformed, parser)
    | some method =>
        let version ← entryAt words 2
        if version = protocolVersion then
          match ← Target.pathAt (← entryAt words 1) with
          | none => return (.malformed, parser)
          | some url => return (.incomplete, { parser with method, url, version, phase := .headers })
        else
          return (.malformed, parser)

theorem takeRequestLineAt_eq (parser : Parser) (line : Text) :
    parser.takeRequestLineAt line = .ok (parser.takeRequestLine line) := by
  unfold takeRequestLineAt takeRequestLine
  dsimp only
  split
  · next other =>
      split
      · next spelled => simp [spelled] at other
      · rfl
  · next three =>
      obtain ⟨name, target, version, spelled⟩ := List.length_eq_three.1 (not_not.1 three)
      simp only [spelled, entryAt, List.getElem?_cons_zero, List.getElem?_cons_succ, bind,
        Except.bind, Target.pathAt_eq]
      cases Method.parse? name with
      | none => rfl
      | some method =>
          by_cases accepted : version = protocolVersion
          · simp only [accepted, ↓reduceIte]
            cases Target.path? target <;> rfl
          · simp only [accepted, ↓reduceIte]
            rfl

/-- `takeLine`, where a line of a body is a case that should not occur. -/
def takeLineAt (parser : Parser) (line : Bytes) : Except Fault (Verdict × Parser) :=
  match parser.phase with
  | .requestLine =>
      match Utf8.decode? line with
      | some text => parser.takeRequestLineAt text
      | none => .ok (.malformed, parser)
  | .headers => .ok (parser.takeHeaderLine (Utf8.decodeLossy line))
  | .body => .error .unforeseen

theorem takeLineAt_eq {parser : Parser} (beforeBody : parser.phase ≠ .body) (line : Bytes) :
    parser.takeLineAt line = .ok (parser.takeLine line) := by
  unfold takeLineAt takeLine
  cases phase : parser.phase with
  | requestLine =>
      dsimp only
      cases Utf8.decode? line with
      | none => rfl
      | some text => exact takeRequestLineAt_eq parser text
  | headers => rfl
  | body => exact (beforeBody phase).elim

theorem takeLine_of_takeLineAt {parser after : Parser} {line : Bytes} {verdict : Verdict}
    (taken : parser.takeLineAt line = .ok (verdict, after)) :
    parser.takeLine line = (verdict, after) := by
  by_cases inBody : parser.phase = .body
  · simp only [takeLineAt, inBody] at taken
    cases taken
  · exact Except.ok.inj ((takeLineAt_eq inBody line).symm.trans taken)

/-- `takeBody` with the sum of the cursor and the length of the body. -/
def takeBodyAt (parser : Parser) (buffer : Bytes) : Except Fault (Verdict × Parser) :=
  if buffer.length - parser.cursor < parser.contentLength then
    .ok (.incomplete, parser)
  else do
    let cursor ← sum parser.cursor parser.contentLength
    return (.complete, { parser with cursor, lineStart := cursor })

/-- The length of a body is added only if the body is there. -/
theorem takeBodyAt_eq {parser : Parser} {buffer : Bytes}
    (small : buffer.length < Decimal.wordBound) (placed : parser.cursor < Decimal.wordBound) :
    parser.takeBodyAt buffer = .ok (parser.takeBody buffer) := by
  unfold takeBodyAt takeBody
  split
  · rfl
  · next there =>
      rw [sum_of_lt (by omega)]
      rfl

/-- `advance?`, byte for byte and with every place looked up. -/
def advanceAt (parser : Parser) (buffer : Bytes) : Except Fault (Verdict × Parser) :=
  if parser.phase = .body then
    parser.takeBodyAt buffer
  else
    match _found : parser.nextLineAt buffer with
    | .error fault => .error fault
    | .ok (.unfinished, next) => .ok (.incomplete, next)
    | .ok (.malformed, next) => .ok (.malformed, next)
    | .ok (.complete stop, next) =>
        match part buffer parser.lineStart stop with
        | .error fault => .error fault
        | .ok line =>
            match _taken : { next with lineStart := next.cursor }.takeLineAt line with
            | .ok (.incomplete, after) => advanceAt after buffer
            | result => result
  termination_by buffer.length - parser.cursor
  decreasing_by
    have moved := nextLine_complete (nextLine_of_nextLineAt _found)
    have same := cursor_takeLine { next with lineStart := next.cursor } line
    rw [takeLine_of_takeLineAt _taken] at same
    dsimp only at same
    omega

section

variable {parser next after : Parser} {buffer line : Bytes} {stop : Nat} {verdict : Verdict}

theorem advanceAt_of_unfinished (small : buffer.length < Decimal.wordBound)
    (beforeBody : parser.phase ≠ .body) (found : parser.nextLine buffer = (.unfinished, next)) :
    parser.advanceAt buffer = .ok (.incomplete, next) := by
  have foundAt := (nextLineAt_eq parser small).trans (congrArg Except.ok found)
  rw [advanceAt, if_neg beforeBody]
  split <;> next again => cases foundAt.symm.trans again <;> rfl

theorem advanceAt_of_broken (small : buffer.length < Decimal.wordBound)
    (beforeBody : parser.phase ≠ .body) (found : parser.nextLine buffer = (.malformed, next)) :
    parser.advanceAt buffer = .ok (.malformed, next) := by
  have foundAt := (nextLineAt_eq parser small).trans (congrArg Except.ok found)
  rw [advanceAt, if_neg beforeBody]
  split <;> next again => cases foundAt.symm.trans again <;> rfl

/-- What follows on a line is decided by the line. -/
theorem advanceAt_of_line (small : buffer.length < Decimal.wordBound)
    (beforeBody : parser.phase ≠ .body) (found : parser.nextLine buffer = (.complete stop, next))
    (cut : slice? buffer parser.lineStart stop = some line)
    (taken : next.beginLine.takeLine line = (verdict, after)) :
    parser.advanceAt buffer =
      if verdict = .incomplete then after.advanceAt buffer else .ok (verdict, after) := by
  have foundAt := (nextLineAt_eq parser small).trans (congrArg Except.ok found)
  have phase : next.beginLine.phase ≠ .body := by
    rw [phase_beginLine, (nextLine_keeps found).1]
    exact beforeBody
  have takenAt : { next with lineStart := next.cursor }.takeLineAt line = .ok (verdict, after) :=
    (takeLineAt_eq phase line).trans (congrArg Except.ok taken)
  rw [advanceAt, if_neg beforeBody]
  split
  · next again => cases foundAt.symm.trans again
  · next again => cases foundAt.symm.trans again
  · next again => cases foundAt.symm.trans again
  · next again =>
      cases foundAt.symm.trans again
      rw [part_eq_ok cut]
      dsimp only
      split
      · next goesOn =>
          cases takenAt.symm.trans goesOn
          rfl
      · next decides =>
          rw [takenAt, if_neg]
          rintro rfl
          exact decides after takenAt

end

/-- A call that gives a result gives it also when every place is looked up. -/
theorem Course.advanceAt_eq {parser after : Parser} {buffer : Bytes} {verdict : Verdict}
    (course : Course buffer parser verdict after) (small : buffer.length < Decimal.wordBound)
    (placed : parser.cursor < Decimal.wordBound) :
    parser.advanceAt buffer = .ok (verdict, after) := by
  induction course with
  | body inBody taken => rw [advanceAt, if_pos inBody, takeBodyAt_eq small placed, taken]
  | unfinished beforeBody found => exact advanceAt_of_unfinished small beforeBody found
  | broken beforeBody found => exact advanceAt_of_broken small beforeBody found
  | goOn beforeBody found cut taken _ ih =>
      have inside := (Inside.takeLine found taken).bounded
      rw [advanceAt_of_line small beforeBody found cut taken, if_pos rfl]
      exact ih (by omega)
  | decide beforeBody found cut taken decided =>
      rw [advanceAt_of_line small beforeBody found cut taken, if_neg decided]

/-! ## Calls in any order -/

/-- A parser in any use: its line starts no later than its cursor, which is a machine word. -/
structure Placed (parser : Parser) : Prop where
  ordered : parser.Ordered
  cursor : parser.cursor < Decimal.wordBound

theorem placed_fresh (capacity : Nat) : (fresh capacity).Placed :=
  ⟨ordered_fresh capacity, (by decide : 0 < Decimal.wordBound)⟩

/-- How much of a buffer is read: up to a verdict on the request, or the next line only. -/
inductive Extent where
  | request
  | line
  deriving DecidableEq, Repr

/-- A call on a parser. -/
inductive Call where
  | read (extent : Extent) (buffer : Bytes)
  | reset
  deriving DecidableEq, Repr

/-- The buffer of a call, which has none if it starts over. -/
def Call.buffer : Call → Bytes
  | .read _ buffer => buffer
  | .reset => []

/-- What a call finds. -/
inductive Finding where
  | request (verdict : Verdict)
  | line (status : LineStatus)
  | nothing
  deriving DecidableEq, Repr

/-- One call. -/
def call (parser : Parser) : Call → Except Fault (Finding × Parser)
  | .read .request buffer =>
      match parser.advance? buffer with
      | some (verdict, next) => .ok (.request verdict, next)
      | none => .error .outside
  | .read .line buffer =>
      match parser.nextLine buffer with
      | (status, next) => .ok (.line status, next)
  | .reset => .ok (.nothing, parser.reset)

/-- One call, with every place looked up. -/
def callAt (parser : Parser) : Call → Except Fault (Finding × Parser)
  | .read .request buffer =>
      match parser.advanceAt buffer with
      | .ok (verdict, next) => .ok (.request verdict, next)
      | .error fault => .error fault
  | .read .line buffer =>
      match parser.nextLineAt buffer with
      | .ok (status, next) => .ok (.line status, next)
      | .error fault => .error fault
  | .reset => .ok (.nothing, parser.reset)

/-- What any number of calls find, with the parser after each of them. -/
def calls (step : Parser → Call → Except Fault (Finding × Parser)) (parser : Parser) :
    List Call → Except Fault (List (Finding × Parser))
  | [] => .ok []
  | first :: rest =>
      match step parser first with
      | .error fault => .error fault
      | .ok (finding, next) =>
          match calls step next rest with
          | .error fault => .error fault
          | .ok later => .ok ((finding, next) :: later)

/-- Reading a buffer fails nowhere and moves the cursor on. -/
theorem Placed.read {parser : Parser} (placed : parser.Placed) (extent : Extent) {buffer : Bytes}
    (small : buffer.length < Decimal.wordBound) :
    ∃ finding next, parser.callAt (.read extent buffer) = .ok (finding, next) ∧
      parser.call (.read extent buffer) = .ok (finding, next) ∧
      next.Placed ∧ Advances buffer parser next := by
  have placedToo {next : Parser} (ordered : next.Ordered) (advances : Advances buffer parser next) :
      next.Placed := by
    have := placed.cursor
    have := advances.bounded
    exact ⟨ordered, by omega⟩
  cases extent with
  | request =>
      obtain ⟨verdict, next, result⟩ := advance?_isSome placed.ordered buffer
      have course := Course.of_advance? result
      refine ⟨.request verdict, next, ?_, ?_, ?_, course.advances⟩
      · rw [callAt, course.advanceAt_eq small placed.cursor]
      · rw [call, result]
      · exact placedToo (course.ordered placed.ordered) course.advances
  | line =>
      obtain ⟨⟨status, next⟩, found⟩ : ∃ result, parser.nextLine buffer = result := ⟨_, rfl⟩
      have advances := advances_nextLine found
      refine ⟨.line status, next, ?_, ?_, ?_, advances⟩
      · rw [callAt, nextLineAt_eq parser small, found]
      · rw [call, found]
      · exact placedToo (placed.ordered.nextLine found) advances

/-- Any call fails nowhere. -/
theorem Placed.call {parser : Parser} (placed : parser.Placed) {made : Call}
    (small : made.buffer.length < Decimal.wordBound) :
    ∃ finding next, parser.callAt made = .ok (finding, next) ∧
      parser.call made = .ok (finding, next) ∧ next.Placed := by
  cases made with
  | read extent buffer =>
      obtain ⟨finding, next, foundAt, found, placedToo, -⟩ := placed.read extent small
      exact ⟨finding, next, foundAt, found, placedToo⟩
  | reset => exact ⟨.nothing, parser.reset, rfl, rfl, placed_fresh parser.capacity⟩

/-- Any number of calls fail nowhere. -/
theorem Placed.calls {parser : Parser} (placed : parser.Placed) {made : List Call}
    (small : ∀ call ∈ made, call.buffer.length < Decimal.wordBound) :
    ∃ results, parser.calls callAt made = .ok results ∧ parser.calls Parser.call made = .ok results ∧
      ∀ result ∈ results, result.2.Placed := by
  induction made generalizing parser with
  | nil => exact ⟨[], rfl, rfl, by simp⟩
  | cons first rest ih =>
      obtain ⟨smallFirst, smallRest⟩ := List.forall_mem_cons.1 small
      obtain ⟨finding, next, foundAt, found, placedNext⟩ := placed.call smallFirst
      obtain ⟨later, laterAt, laterToo, placedLater⟩ := ih placedNext smallRest
      refine ⟨(finding, next) :: later, ?_, ?_, List.forall_mem_cons.2 ⟨placedNext, placedLater⟩⟩
      · simp only [Parser.calls, foundAt, laterAt]
      · simp only [Parser.calls, found, laterToo]

/-! ## Growing buffers -/

/-- Calls on a buffer that grows: each piece is read behind all bytes from before. -/
def growing (seen : Bytes) : List (Extent × Bytes) → List Call
  | [] => []
  | (extent, more) :: rest => .read extent (seen ++ more) :: growing (seen ++ more) rest

/-- On a buffer that grows the cursor never goes back and stays inside. -/
theorem Placed.growing {parser : Parser} (placed : parser.Placed) {seen : Bytes}
    (inside : parser.cursor ≤ seen.length) {pieces : List (Extent × Bytes)}
    (small : (seen ++ pieces.flatMap Prod.snd).length < Decimal.wordBound) :
    ∃ results, parser.calls callAt (growing seen pieces) = .ok results ∧
      (parser.cursor :: results.map (·.2.cursor)).Pairwise (· ≤ ·) ∧
      List.Forall₂ (fun call result => result.2.cursor ≤ call.buffer.length)
        (growing seen pieces) results := by
  induction pieces generalizing parser seen with
  | nil => exact ⟨[], rfl, by simp, .nil⟩
  | cons piece rest ih =>
      obtain ⟨extent, more⟩ := piece
      rw [List.flatMap_cons, ← List.append_assoc] at small
      have smallFirst : (seen ++ more).length < Decimal.wordBound := by
        rw [List.length_append] at small
        exact Nat.lt_of_le_of_lt (Nat.le_add_right _ _) small
      obtain ⟨finding, next, foundAt, -, placedNext, advances⟩ := placed.read extent smallFirst
      have insideNext : next.cursor ≤ (seen ++ more).length := by
        apply advances.le_length
        rw [List.length_append]
        omega
      obtain ⟨later, laterAt, ascends, stay⟩ := ih placedNext insideNext small
      refine ⟨(finding, next) :: later, ?_, ?_, .cons insideNext stay⟩
      · simp only [Parser.growing, Parser.calls, foundAt, laterAt]
      · refine List.pairwise_cons.2 ⟨?_, ascends⟩
        refine List.forall_mem_cons.2 ⟨advances.onward, fun cursor member => ?_⟩
        exact Nat.le_trans advances.onward ((List.pairwise_cons.1 ascends).1 cursor member)

/-- The parser is safe on any buffers.  Let it be called any number of times, from the first use
on: for a verdict on a request, for the end of a line only, or to start over, each time with any
buffer whose length is a machine word, also after a request was complete or malformed.  Then no
place that it looks up is outside, no sum that it forms is too large, and no case occurs that is
taken to be impossible: the calls end, with the same results as those on lists.  After each of
them the line starts no later than the cursor.  A search for the end of a line that starts inside
of a buffer ends inside.  And on a buffer that grows the cursor never goes back, and is never
behind the end. -/
theorem safe_on_any_buffers (capacity : Nat) {made : List Call}
    (small : ∀ call ∈ made, call.buffer.length < Decimal.wordBound) :
    ∃ results, (fresh capacity).calls callAt made = .ok results ∧
      (fresh capacity).calls call made = .ok results ∧
      ∀ parser ∈ fresh capacity :: results.map Prod.snd,
        parser.lineStart ≤ parser.cursor ∧
        (∀ buffer, buffer.length < Decimal.wordBound → parser.cursor ≤ buffer.length →
          ∃ status next, parser.nextLineAt buffer = .ok (status, next) ∧
            parser.cursor ≤ next.cursor ∧ next.cursor ≤ buffer.length) ∧
        ∀ seen pieces, parser.cursor ≤ seen.length →
          (seen ++ pieces.flatMap Prod.snd).length < Decimal.wordBound →
          ∃ later, parser.calls callAt (growing seen pieces) = .ok later ∧
            (parser.cursor :: later.map (·.2.cursor)).Pairwise (· ≤ ·) ∧
            List.Forall₂ (fun call result => result.2.cursor ≤ call.buffer.length)
              (growing seen pieces) later := by
  obtain ⟨results, resultsAt, same, placed⟩ := (placed_fresh capacity).calls small
  refine ⟨results, resultsAt, same, fun parser member => ?_⟩
  have here : parser.Placed := by
    rcases List.mem_cons.1 member with rfl | later
    · exact placed_fresh capacity
    · obtain ⟨result, among, rfl⟩ := List.mem_map.1 later
      exact placed result among
  refine ⟨here.ordered, fun buffer smallToo inside => ?_, fun seen pieces inside smallToo =>
    here.growing inside smallToo⟩
  obtain ⟨⟨status, next⟩, found⟩ : ∃ result, parser.nextLine buffer = result := ⟨_, rfl⟩
  have advances := advances_nextLine found
  exact ⟨status, next, by rw [nextLineAt_eq parser smallToo, found], advances.onward,
    advances.le_length inside⟩

/-- Calls with a buffer that ends inside of a body, with a shorter one, with the whole body and
more, with the same one again, with a line in another one, and with a line that is broken. -/
def unsteady : List Call :=
  [.read .request (utf8 "GET /a HTTP/1.1\r\nContent-Length: 3\r\n\r\nxy"),
    .read .request (utf8 "GET"),
    .read .request (utf8 "GET /a HTTP/1.1\r\nContent-Length: 3\r\n\r\nxyz..."),
    .read .request (utf8 "GET /a HTTP/1.1\r\nContent-Length: 3\r\n\r\nxyz..."),
    .reset,
    .read .line (utf8 "0123\n"),
    .read .request (utf8 "\r0\n"),
    .read .request (utf8 "GET /\r\n\r0")]

theorem safe_on_any_buffers_unsteady :
    (∀ call ∈ unsteady, call.buffer.length < Decimal.wordBound) ∧
      ∃ results, (fresh 64).calls callAt unsteady = .ok results ∧
        results.map Prod.fst = [.request .incomplete, .request .incomplete, .request .complete,
          .request .complete, .nothing, .line (.complete 4), .request .incomplete,
          .request .malformed] := by
  have small : ∀ call ∈ unsteady, call.buffer.length < Decimal.wordBound := by decide +kernel
  obtain ⟨results, resultsAt, same, -⟩ := safe_on_any_buffers 64 small
  refine ⟨small, results, resultsAt, ?_⟩
  have found : ((fresh 64).calls call unsteady).map (List.map Prod.fst) =
      .ok [.request .incomplete, .request .incomplete, .request .complete, .request .complete,
        .nothing, .line (.complete 4), .request .incomplete, .request .malformed] := by
    decide +kernel
  rw [same] at found
  exact Except.ok.inj found

end Parser

end FileServer
