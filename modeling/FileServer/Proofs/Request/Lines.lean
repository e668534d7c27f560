import FileServer.Proofs.Request.Grammar
import FileServer.Proofs.Request.Scanning
import FileServer.Proofs.Text.Encoding

/-!
# Lines and what the parser makes of them

The parser finds the lines that bytes begin with, takes a line as a request line
exactly if it requests a url, and takes a line of the header as what it gives to
the fields.
-/

namespace FileServer.Grammar

/-! ## Lines -/

/-- Bytes hold no end of a line, or there is a first place where one may be. -/
theorem unbroken_or_exists (bytes : Bytes) :
    Unbroken bytes ∨ ∃ content mark rest, bytes = content ++ mark :: rest ∧
      Unbroken content ∧ (mark = Line.cr ∨ mark = Line.lf) := by
  induction bytes with
  | nil => exact .inl (by simp [Unbroken])
  | cons byte rest ih =>
      by_cases marked : byte = Line.cr ∨ byte = Line.lf
      · exact .inr ⟨[], byte, rest, rfl, by simp [Unbroken], marked⟩
      · rw [not_or] at marked
        rcases ih with unbroken | ⟨content, mark, others, rfl, unbroken, isMark⟩
        · exact .inl (List.forall_mem_cons.2 ⟨marked, unbroken⟩)
        · exact .inr ⟨byte :: content, mark, others, rfl,
            List.forall_mem_cons.2 ⟨marked, unbroken⟩, isMark⟩

theorem exists_opens (bytes : Bytes) : ∃ opening, Opens bytes opening := by
  rcases unbroken_or_exists bytes with unbroken | ⟨content, mark, rest, rfl, unbroken, isMark⟩
  · exact ⟨.unfinished, .endless unbroken⟩
  rcases isMark with rfl | rfl
  · cases rest with
    | nil => exact ⟨.unfinished, .cut unbroken⟩
    | cons next rest =>
        by_cases feed : next = Line.lf
        · subst feed
          exact ⟨.line content rest, .returnAndFeed unbroken⟩
        · exact ⟨.broken, .lone unbroken feed⟩
  · exact ⟨.line content rest, .lineFeed unbroken⟩

/-- Bytes without an end of a line are passed. -/
theorem scan_append_of_unbroken {content : Bytes} (unbroken : Unbroken content) (rest : Bytes) :
    Line.scan (content ++ rest) = (Line.scan rest).behind content.length := by
  induction content with
  | nil => simp
  | cons byte content ih =>
      obtain ⟨⟨notReturn, notFeed⟩, others⟩ := List.forall_mem_cons.1 unbroken
      rw [List.cons_append, Line.scan_cons_of_plain notReturn notFeed, ih others,
        Line.Scan.shift_behind, List.length_cons]

theorem Opens.scan_line {bytes content rest : Bytes} (opens : Opens bytes (.line content rest)) :
    ∃ ending, Line.scan bytes = .complete content.length ending ∧
      bytes.take content.length = content ∧ bytes.drop (content.length + ending) = rest := by
  cases opens with
  | lineFeed unbroken =>
      refine ⟨1, ?_, by simp, by simp⟩
      rw [scan_append_of_unbroken unbroken]
      simp [Line.scan, Line.Scan.behind, Line.cr, Line.lf]
  | returnAndFeed unbroken =>
      refine ⟨2, ?_, by simp, by simp⟩
      rw [scan_append_of_unbroken unbroken]
      simp [Line.scan, Line.Scan.behind]

theorem Opens.length_lt {bytes content rest : Bytes}
    (opens : Opens bytes (.line content rest)) : rest.length < bytes.length := by
  cases opens <;> simp <;> omega

/-- A scan stops at a carriage return that is broken off. -/
theorem Opens.scan_broken {bytes : Bytes} (opens : Opens bytes .broken) :
    ∃ skipped, Line.scan bytes = .malformed skipped := by
  cases opens with
  | @lone content rest next unbroken other =>
      refine ⟨content.length, ?_⟩
      rw [scan_append_of_unbroken unbroken]
      simp [Line.scan, Line.Scan.behind, other]

/-- A scan runs out of bytes before the line has ended. -/
theorem Opens.scan_unfinished {bytes : Bytes} (opens : Opens bytes .unfinished) :
    ∃ skipped, Line.scan bytes = .unfinished skipped := by
  cases opens with
  | @cut content unbroken =>
      refine ⟨content.length, ?_⟩
      rw [scan_append_of_unbroken unbroken]
      simp [Line.scan, Line.Scan.behind]
  | endless unbroken =>
      refine ⟨bytes.length, ?_⟩
      have scanned := scan_append_of_unbroken unbroken []
      rw [List.append_nil] at scanned
      rw [scanned]
      rfl

/-! ## Request lines -/

theorem pathOf_iff {address url : Text} :
    PathOf address url ↔ (∃ rest, address = '/' :: rest) ∧
      (Target.segments (Target.withoutQuery address)).contains Target.parent = false ∧
      Target.withoutQuery address = url := by
  have noParent : ∀ path, (Target.segments path).contains Target.parent = false ↔
      ¬Text.Segment (· == '/') path "..".toList := by
    intro path
    rw [← Text.mem_splitAt_iff, Bool.eq_false_iff, ne_eq, List.contains_iff_mem]
    rfl
  constructor
  · rintro ⟨⟨rest, slash⟩, noMark, query, allowed⟩
    have front : Target.withoutQuery address = url :=
      Text.takeWhile_ne_eq_iff.2 ⟨noMark, query⟩
    refine ⟨?_, ?_, front⟩
    · rcases query with rfl | ⟨query, rfl⟩
      · exact ⟨rest, slash⟩
      · exact ⟨rest ++ '?' :: query, by rw [slash, List.cons_append]⟩
    · rw [front, noParent]
      exact allowed
  · rintro ⟨⟨rest, rfl⟩, allowed, rfl⟩
    obtain ⟨noMark, query⟩ := Text.takeWhile_ne_eq_iff.1
      (rfl : Target.withoutQuery ('/' :: rest) = Target.withoutQuery ('/' :: rest))
    exact ⟨⟨Target.withoutQuery rest, rfl⟩, noMark, query, (noParent _).1 allowed⟩

/-- The scheme that the parser looks for is a scheme, in any case. -/
theorem sameText_scheme_iff {text : Text} :
    Ascii.sameText text Target.scheme = true ↔ IsScheme text := by
  rw [Ascii.sameText_iff, IsScheme]
  rfl

theorem IsScheme.length_eq {scheme : Text} (isScheme : IsScheme scheme) :
    scheme.length = Target.scheme.length := by
  rw [← List.length_map Ascii.lower, isScheme]
  rfl

theorem path?_eq_some_iff {target url : Text} :
    Target.path? target = some url ↔
      ∃ address, Target.withoutAuthority? target = some address ∧ PathOf address url := by
  simp only [Target.path?, Option.bind_eq_bind, Option.bind_eq_some_iff]
  apply exists_congr
  intro address
  apply and_congr_right
  intro _
  rw [pathOf_iff]
  split
  · next rest _ =>
      cases climbs : (Target.segments (Target.withoutQuery ('/' :: rest))).contains
        Target.parent with
      | true => simp
      | false => simp
  · next other =>
      simp only [reduceCtorEq, false_iff, not_and]
      rintro ⟨rest, slash⟩
      exact (other rest slash).elim

/-- A target with a scheme has a path from the next slash on. -/
theorem withoutAuthority?_absolute {scheme authority : Text} (isScheme : IsScheme scheme)
    (noSlash : '/' ∉ authority) (rest : Text) :
    Target.withoutAuthority? (scheme ++ authority ++ '/' :: rest) = some ('/' :: rest) := by
  have passes : ∀ char ∈ authority, (char != '/') = true := by
    intro char member
    rw [bne_iff_ne]
    exact fun same => noSlash (same ▸ member)
  rw [Target.withoutAuthority?, List.append_assoc, ← isScheme.length_eq, List.take_left,
    List.drop_left, if_pos (sameText_scheme_iff.2 isScheme), List.dropWhile_append_of_pos passes,
    List.dropWhile_cons_of_neg (by simp)]

/-- What is left of a target without its authority: all of it, or what follows the
authority from a slash on. -/
theorem withoutAuthority?_cases {target address : Text}
    (left : Target.withoutAuthority? target = some address) :
    (∃ scheme authority, IsScheme scheme ∧ '/' ∉ authority ∧
        target = scheme ++ authority ++ address) ∨
      (∀ scheme rest, IsScheme scheme → target ≠ scheme ++ rest) ∧ target = address := by
  rw [Target.withoutAuthority?] at left
  split at left
  · next isScheme =>
      cases cut : (target.drop Target.scheme.length).dropWhile (· != '/') with
      | nil =>
          rw [cut] at left
          cases left
      | cons slash rest =>
          rw [cut] at left
          cases left
          refine .inl ⟨target.take Target.scheme.length,
            (target.drop Target.scheme.length).takeWhile (· != '/'),
            sameText_scheme_iff.1 isScheme, ?_, ?_⟩
          · exact (Text.takeWhile_ne_eq_iff.1 rfl).1
          · rw [← cut, List.append_assoc, List.takeWhile_append_dropWhile,
              List.take_append_drop]
  · next noScheme =>
      cases left
      refine .inr ⟨?_, rfl⟩
      rintro scheme rest isScheme rfl
      apply noScheme
      rw [← isScheme.length_eq, List.take_left]
      exact sameText_scheme_iff.2 isScheme

/-- A target asks for the path that the parser takes from it. -/
theorem asksFor_iff {target url : Text} :
    AsksFor target url ↔ Target.path? target = some url := by
  rw [path?_eq_some_iff]
  constructor
  · intro asks
    cases asks with
    | absolute isScheme noSlash path =>
        obtain ⟨⟨rest, rfl⟩, -⟩ := pathOf_iff.1 path
        exact ⟨_, withoutAuthority?_absolute isScheme noSlash rest, path⟩
    | address noScheme path =>
        refine ⟨target, ?_, path⟩
        rw [Target.withoutAuthority?, if_neg]
        intro found
        exact noScheme (target.take Target.scheme.length) (target.drop Target.scheme.length)
          (sameText_scheme_iff.1 found) (List.take_append_drop _ _).symm
  · rintro ⟨address, left, path⟩
    rcases withoutAuthority?_cases left with
      ⟨scheme, authority, isScheme, noSlash, rfl⟩ | ⟨noScheme, rfl⟩
    · exact .absolute isScheme noSlash path
    · exact .address noScheme path

theorem parse?_method_iff {name : Text} :
    Method.parse? name = some .get ↔ name.map Ascii.lower = "get".toList := by
  have lowered : "GET".toList.map Ascii.lower = "get".toList := by decide
  rw [Method.parse?, ← lowered]
  split
  · next same => simpa using Ascii.sameText_iff.1 same
  · next other =>
      simp only [reduceCtorEq, false_iff]
      exact fun same => other (Ascii.sameText_iff.2 same)

/-- A line requests a url exactly if the parser takes it as its request line. -/
theorem requests_iff {line : Bytes} {url : Text} :
    Requests line url ↔ ∃ text method target, Utf8.decode? line = some text ∧
      text.words Ascii.isBlank = [method, target, protocolVersion] ∧
      Method.parse? method = some .get ∧ Target.path? target = some url := by
  simp only [Requests, Utf8.decode?_eq_some_iff, Text.words_eq_iff, parse?_method_iff, asksFor_iff]
  rfl

theorem takeLine_of_requests {parser : Parser} {line : Bytes} {url : Text}
    (first : parser.phase = .requestLine) (requests : Requests line url) :
    parser.takeLine line =
      (.incomplete, { parser with url, version := protocolVersion, phase := .headers }) := by
  obtain ⟨text, method, target, decoded, words, isGet, path⟩ := requests_iff.1 requests
  simp only [Parser.takeLine, first, decoded, Parser.takeRequestLine, words, isGet, path, ↓reduceIte]

theorem takeLine_of_not_requests {parser : Parser} {line : Bytes}
    (first : parser.phase = .requestLine) (other : ∀ url, ¬Requests line url) :
    parser.takeLine line = (.malformed, parser) := by
  simp only [Parser.takeLine, first]
  split
  · next text decoded =>
      simp only [Parser.takeRequestLine]
      split
      · next name target version words =>
          cases method : Method.parse? name with
          | none => rfl
          | some served =>
              dsimp only
              split
              · next isVersion =>
                  subst isVersion
                  cases path : Target.path? target with
                  | none => rfl
                  | some url =>
                      exact (other url (requests_iff.2
                        ⟨text, name, target, decoded, words, method, path⟩)).elim
              · rfl
      · rfl
  · rfl

/-! ## Fields -/

/-- Later lines count before earlier ones. -/
theorem last?_append (name : String) (lines : List Bytes) (line : Bytes) :
    last? name (lines ++ [line]) = (value? name line).or (last? name lines) := by
  rw [last?, List.filterMap_append, List.getLast?_append]
  cases found : value? name line <;> simp [found, last?]

/-- A line that is not empty is not read as an empty text. -/
theorem decodeLossy_ne_nil {line : Bytes} (nonempty : line ≠ []) : Utf8.decodeLossy line ≠ [] := by
  intro nothing
  exact nonempty (Utf8.eq_nil_of_pieces (List.map_eq_nil_iff.1 nothing))

/-- What a line gives to a field, by the two sides of its colon. -/
theorem value?_of_cut {line : Bytes} {front back : Text}
    (cut : Text.cut? ':' (Utf8.decodeLossy line) = some (front, back)) (name : String) :
    value? name line = if (Text.trimmed front).map Ascii.lower = name.toList.map Ascii.lower then
      some (Text.trimmed back) else none := by
  rw [value?, cut]

/-- A line gives a value to one field at most, and is read as saying so. -/
theorem ofLine_cases (line : Bytes) :
    (∃ value, value? "Connection" line = some value ∧ value? "Content-Length" line = none ∧
        value? "Host" line = none ∧ Field.ofLine (Utf8.decodeLossy line) =
          .connection (Ascii.sameText value "keep-alive".toList)) ∨
      (∃ value, value? "Content-Length" line = some value ∧ value? "Connection" line = none ∧
        value? "Host" line = none ∧ Field.ofLine (Utf8.decodeLossy line) =
          match Decimal.parse? Decimal.wordBound value with
          | some length => .contentLength length
          | none => .badLength) ∨
      (∃ value, value? "Host" line = some value ∧ value? "Connection" line = none ∧
        value? "Content-Length" line = none ∧
        Field.ofLine (Utf8.decodeLossy line) = .host value) ∨
      value? "Connection" line = none ∧ value? "Content-Length" line = none ∧
        value? "Host" line = none ∧ Field.ofLine (Utf8.decodeLossy line) = .ignored := by
  cases cut : Text.cut? ':' (Utf8.decodeLossy line) with
  | none => exact .inr (.inr (.inr (by simp [value?, cut, Field.ofLine])))
  | some sides =>
      obtain ⟨front, back⟩ := sides
      have gives := value?_of_cut cut
      simp only [Field.ofLine, cut, Ascii.sameText_iff]
      by_cases connection :
          (Text.trimmed front).map Ascii.lower = "Connection".toList.map Ascii.lower
      · have notLength : "Connection".toList.map Ascii.lower ≠
            "Content-Length".toList.map Ascii.lower := by decide
        have notHost : "Connection".toList.map Ascii.lower ≠ "Host".toList.map Ascii.lower := by
          decide
        exact .inl ⟨Text.trimmed back, by simp [gives, connection],
          by rw [gives, connection, if_neg notLength], by rw [gives, connection, if_neg notHost],
          by rw [if_pos connection]⟩
      by_cases length :
          (Text.trimmed front).map Ascii.lower = "Content-Length".toList.map Ascii.lower
      · have notHost : "Content-Length".toList.map Ascii.lower ≠
            "Host".toList.map Ascii.lower := by decide
        exact .inr (.inl ⟨Text.trimmed back, by rw [gives, if_pos length],
          by rw [gives, if_neg connection], by rw [gives, length, if_neg notHost],
          (if_neg connection).trans (if_pos length)⟩)
      by_cases host : (Text.trimmed front).map Ascii.lower = "Host".toList.map Ascii.lower
      · exact .inr (.inr (.inl ⟨Text.trimmed back, by rw [gives, if_pos host],
          by rw [gives, if_neg connection], by rw [gives, if_neg length],
          by rw [if_neg connection, if_neg length, if_pos host]⟩))
      · exact .inr (.inr (.inr ⟨by rw [gives, if_neg connection], by rw [gives, if_neg length],
          by rw [gives, if_neg host], by rw [if_neg connection, if_neg length, if_neg host]⟩))

theorem sameText_keepAlive (value : Text) :
    Ascii.sameText value "keep-alive".toList =
      decide (value.map Ascii.lower = "keep-alive".toList) := by
  have lowered : "keep-alive".toList.map Ascii.lower = "keep-alive".toList := by decide
  rw [Bool.eq_iff_iff, Ascii.sameText_iff, lowered, decide_eq_true_iff]

/-- In the header a line that is not empty is taken as what it says. -/
theorem takeLine_of_headers {parser : Parser} {line : Bytes} (phase : parser.phase = .headers)
    (nonempty : line ≠ []) :
    parser.takeLine line =
      match Field.ofLine (Utf8.decodeLossy line) with
      | .connection keepAlive => (.incomplete, { parser with keepAlive })
      | .contentLength contentLength => (.incomplete, { parser with contentLength })
      | .badLength => (.malformed, parser)
      | .host name => (.incomplete, { parser with host := some name })
      | .ignored => (.incomplete, parser) := by
  have notEmpty : ¬(Utf8.decodeLossy line).isEmpty = true := by
    simpa using decodeLossy_ne_nil nonempty
  simp only [Parser.takeLine, phase, Parser.takeHeaderLine]
  exact if_neg notEmpty

/-- A line of the header without a bad length is taken, and its values count. -/
theorem takeLine_of_field {parser : Parser} {url : Text} {lines : List Bytes} {line : Bytes}
    (phase : parser.phase = .headers) (known : Request.ofParser parser = .of url lines)
    (nonempty : line ≠ []) (goodLength : ¬BadLength line) :
    ∃ after, parser.takeLine line = (.incomplete, after) ∧ after.phase = .headers ∧
      Request.ofParser after = .of url (lines ++ [line]) := by
  rw [takeLine_of_headers phase nonempty]
  simp only [Request.ofParser, Request.of, Request.mk.injEq, last?_append] at known ⊢
  obtain ⟨sameUrl, sameVersion, sameHost, sameKeep, sameLength⟩ := known
  rcases ofLine_cases line with ⟨value, given, noLength, noHost, field⟩ |
    ⟨value, given, noKeep, noHost, field⟩ | ⟨value, given, noKeep, noLength, field⟩ |
    ⟨noKeep, noLength, noHost, field⟩
  · rw [field, given, noLength, noHost]
    refine ⟨_, rfl, phase, sameUrl, sameVersion, sameHost, ?_, sameLength⟩
    exact sameText_keepAlive value
  · cases parsed : Decimal.parse? Decimal.wordBound value with
    | none => exact (goodLength ⟨value, given, parsed⟩).elim
    | some length =>
        rw [field, given, noKeep, noHost, parsed]
        refine ⟨_, rfl, phase, sameUrl, sameVersion, sameHost, sameKeep, ?_⟩
        rw [Option.some_or, Option.bind_some, parsed]
        rfl
  · rw [field, given, noKeep, noLength]
    exact ⟨_, rfl, phase, sameUrl, sameVersion, rfl, sameKeep, sameLength⟩
  · rw [field, noKeep, noLength, noHost]
    exact ⟨_, rfl, phase, sameUrl, sameVersion, sameHost, sameKeep, sameLength⟩

theorem takeLine_of_badLength {parser : Parser} {line : Bytes} (phase : parser.phase = .headers)
    (bad : BadLength line) : parser.takeLine line = (.malformed, parser) := by
  obtain ⟨value, given, parsed⟩ := bad
  have nonempty : line ≠ [] := by
    rintro rfl
    cases given
  rw [takeLine_of_headers phase nonempty]
  rcases ofLine_cases line with ⟨_, _, noLength, _⟩ | ⟨other, same, _, _, field⟩ |
    ⟨_, _, _, noLength, _⟩ | ⟨_, noLength, _⟩
  · cases given.symm.trans noLength
  · cases given.symm.trans same
    rw [field, parsed]
  · cases given.symm.trans noLength
  · cases given.symm.trans noLength

end FileServer.Grammar
