import FileServer.Pattern.Escape

/-!
# Sets of characters in patterns

Between brackets there are characters, ranges, named sets of ASCII characters, and sets in
brackets of their own.  Two sets can be combined by a doubled `&`, `-` or `~`; what is
combined reaches to the next such sign or to the end of the brackets.
-/

namespace FileServer.CharClass

/-- The names of sets of ASCII characters. -/
def asciiNames : List String :=
  ["alnum", "alpha", "ascii", "blank", "cntrl", "digit", "graph", "lower", "print", "punct",
    "space", "upper", "word", "xdigit"]

/-- Reads the name of a set of ASCII characters, between colons and behind the bracket that
opens it. -/
def asciiName? : Text → Option (CharClass × Text)
  | ':' :: text =>
      let (isNegated, text) :=
        match text with
        | '^' :: rest => (true, rest)
        | _ => (false, text)
      let name := text.takeWhile (· != ':')
      match text.dropWhile (· != ':') with
      | ':' :: ']' :: rest =>
          if asciiNames.contains (String.ofList name) then some (.ascii isNegated, rest) else none
      | _ => none
  | _ => none

/-- The set that a part of a pattern stands for between brackets. -/
def ofPart? : Pattern → Option CharClass
  | .one char => some (.one char)
  | .kind isNegated => some (.kind isNegated)
  | _ => none

/-- Reads a character, or what is behind a backslash. -/
def item? (spaced : Bool) : Text → Option (Pattern × Text)
  | [] => none
  | '\\' :: rest => Pattern.escape? spaced rest
  | char :: rest => some (.one { char }, rest)

/-- The character behind a hyphen that decides whether the hyphen makes a range.  In a
spaced pattern blanks and one number sign are passed over. -/
def behindHyphen? (spaced : Bool) (text : Text) : Option Char :=
  if spaced then
    match text.dropWhile Text.isBlank with
    | '#' :: rest => (rest.dropWhile Text.isBlank).head?
    | rest => rest.head?
  else
    text.head?

/-- Reads a character or a range.  A hyphen in front of a closing bracket or of another
hyphen makes no range. -/
def range? (spaced : Bool) (text : Text) : Option (CharClass × Text) := do
  let (first, rest) ← item? spaced text
  match Pattern.skip spaced rest with
  | [] => none
  | '-' :: rest =>
      if [some ']', some '-'].contains (behindHyphen? spaced rest) then
        return (← ofPart? first, '-' :: rest)
      else
        let (last, rest) ← item? spaced (Pattern.skip spaced rest)
        match first, last with
        | .one low, .one high =>
            if low.char ≤ high.char then some (.range low high, rest) else none
        | _, _ => none
  | rest => return (← ofPart? first, rest)

/-- A set that is being read: whether it is negated, what it is combined with, and its parts
so far, the last one first. -/
structure Opened where
  isNegated : Bool
  combined : Option CharClass := none
  parts : List CharClass := []
  deriving Repr

/-- The set inside of brackets as far as it is read. -/
def Opened.inner (opened : Opened) : CharClass :=
  match opened.combined with
  | some left => .operation left (.ofUnion opened.parts.reverse)
  | none => .ofUnion opened.parts.reverse

/-- Adds a part. -/
def Opened.add (opened : Opened) (part : CharClass) : Opened :=
  { opened with parts := part :: opened.parts }

/-- Combines what is read so far with what comes next. -/
def Opened.combine (opened : Opened) : Opened :=
  { opened with combined := some opened.inner, parts := [] }

/-- The set with its brackets. -/
def Opened.close (opened : Opened) : CharClass :=
  .bracketed opened.isNegated opened.inner

/-- A character that stands for itself. -/
def single (char : Char) : CharClass :=
  .one { char }

/-- Reads the hyphens that a set starts with, at most a number of them. -/
def hyphens (spaced : Bool) : Nat → Opened → Text → Opened × Text
  | limit + 1, opened, '-' :: rest =>
      hyphens spaced limit (opened.add (single '-')) (Pattern.skip spaced rest)
  | _, opened, text => (opened, text)

/-- Reads the start of a set behind its bracket.  Hyphens stand for themselves there, and so
does a closing bracket that comes first. -/
def open? (spaced : Bool) (text : Text) : Option (Opened × Text) :=
  let text := Pattern.skip spaced text
  let (isNegated, text) :=
    match text with
    | '^' :: rest => (true, Pattern.skip spaced rest)
    | _ => (false, text)
  let (opened, text) := hyphens spaced text.length { isNegated } text
  match text with
  | [] => none
  | ']' :: rest =>
      if opened.parts.isEmpty then
        match Pattern.skip spaced rest with
        | [] => none
        | rest => some (opened.add (single ']'), rest)
      else
        some (opened, text)
  | _ => some (opened, text)

/-- Reads the rest of a set, which lies inside of other sets.  As many steps are made as
there is fuel, and each of them reads a character at least. -/
def rest? (spaced : Bool) : Nat → Opened → List Opened → Text → Option (CharClass × Text)
  | 0, _, _, _ => none
  | fuel + 1, opened, outer, text =>
      match Pattern.skip spaced text with
      | [] => none
      | ']' :: rest =>
          match outer with
          | [] => some (opened.close, rest)
          | surrounding :: others =>
              rest? spaced fuel (surrounding.add opened.close) others rest
      | '[' :: rest =>
          match asciiName? rest with
          | some (part, rest) => rest? spaced fuel (opened.add part) outer rest
          | none =>
              match open? spaced rest with
              | some (inner, rest) => rest? spaced fuel inner (opened :: outer) rest
              | none => none
      | '&' :: '&' :: rest => rest? spaced fuel opened.combine outer rest
      | '-' :: '-' :: rest => rest? spaced fuel opened.combine outer rest
      | '~' :: '~' :: rest => rest? spaced fuel opened.combine outer rest
      | text =>
          match range? spaced text with
          | some (part, rest) => rest? spaced fuel (opened.add part) outer rest
          | none => none

/-- Reads a set of characters behind the bracket that opens it. -/
def parse? (spaced : Bool) (text : Text) : Option (CharClass × Text) :=
  match open? spaced text with
  | some (opened, rest) => rest? spaced (text.length + 1) opened [] rest
  | none => none

end FileServer.CharClass
