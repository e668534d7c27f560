import FileServer.Pattern.Parser

/-!
# Automata for patterns

The values of fields are matched by an automaton over bytes, and not every pattern can be
made into one.  Without tables of scripts the automaton knows neither the other case of
characters nor which of them are digits, blanks, or characters of words, unless it is about
bytes.  When it is about bytes it must not match a part of a character.  And it finds edges
of words only among bytes.
-/

namespace FileServer.Pattern

/-- Why there is no automaton for a pattern. -/
inductive AutomatonError where
  | malformed
  /-- The pattern asks for edges of words among characters of all scripts. -/
  | wordEdge
  deriving DecidableEq, Repr

/-- The text of the error. -/
def AutomatonError.message : AutomatonError → String
  | .malformed => "error building NFA"
  | .wordEdge =>
      "unsupported regex feature for DFAs: cannot build DFAs for regexes with Unicode word " ++
        "boundaries; switch to ASCII word boundaries, or heuristically enable Unicode word " ++
        "boundaries or use a different regex engine"

/-- The flags that decide what a pattern stands for. -/
structure Mode where
  anyCase : Bool := false
  allScripts : Bool := true
  deriving DecidableEq, Repr

namespace Mode

/-- The mode behind a list of flags. -/
def change (mode : Mode) (signs : List FlagSign) : Mode where
  anyCase := (setting? .anyCase signs).getD mode.anyCase
  allScripts := (setting? .allScripts signs).getD mode.allScripts

/-- Whether a character can be matched. -/
def accepts (mode : Mode) (char : PatternChar) : Bool :=
  if mode.allScripts then !mode.anyCase else !char.isByte || char.char.toNat < 0x80

/-- Whether a character can be in a set. -/
def acceptsInSet (mode : Mode) (char : PatternChar) : Bool :=
  if mode.allScripts then !mode.anyCase else char.char.toNat < 0x80

/-- Whether the set of all digits, blanks, or characters of words is known, or of all
others. -/
def acceptsKind (mode : Mode) (isNegated : Bool) : Bool :=
  !mode.allScripts && !isNegated

end Mode

end FileServer.Pattern

namespace FileServer.CharClass

mutual

/-- Whether it is known what is in a set. -/
def isKnown (mode : Pattern.Mode) : CharClass → Bool
  | .empty => true
  | .one char => mode.acceptsInSet char
  | .range low high => mode.acceptsInSet low && mode.acceptsInSet high
  | .ascii isNegated => if mode.allScripts then !mode.anyCase else !isNegated
  | .kind isNegated => mode.acceptsKind isNegated
  | .union parts => areKnown mode parts
  | .bracketed isNegated inner => inner.isKnown mode && (mode.allScripts || !isNegated)
  | .operation left right => left.isKnown mode && right.isKnown mode

/-- Whether it is known what is in some sets. -/
def areKnown (mode : Pattern.Mode) : List CharClass → Bool
  | [] => true
  | part :: parts => part.isKnown mode && areKnown mode parts

end

end FileServer.CharClass

namespace FileServer.Pattern

mutual

/-- The mode behind a pattern, and whether the pattern asks for edges of words among
characters of all scripts; `none` if it is not known what the pattern stands for.  Flags
inside a group end with it. -/
def survey (mode : Mode) : Pattern → Option (Mode × Bool)
  | .empty | .edge => some (mode, false)
  | .flags signs => some (mode.change signs, false)
  | .one char => if mode.accepts char then some (mode, false) else none
  | .dot => if mode.allScripts then some (mode, false) else none
  | .wordEdge => some (mode, mode.allScripts)
  | .kind isNegated => if mode.acceptsKind isNegated then some (mode, false) else none
  | .set chars => if chars.isKnown mode then some (mode, false) else none
  | .repetition body => body.survey mode
  | .group signs body =>
      match body.survey (mode.change signs) with
      | some (_, hasEdge) => some (mode, hasEdge)
      | none => none
  | .concatenation parts => surveyAll mode parts
  | .alternation branches => surveyAll mode branches

/-- The same for patterns one behind the other. -/
def surveyAll (mode : Mode) : List Pattern → Option (Mode × Bool)
  | [] => some (mode, false)
  | part :: parts =>
      match part.survey mode with
      | some (next, hasEdge) =>
          (surveyAll next parts).map fun (last, hasMore) => (last, hasEdge || hasMore)
      | none => none

end

/-- Why there is no automaton for the pattern of a text, if there is none. -/
def automatonError? (text : Text) : Option AutomatonError :=
  match (parse? text).bind (survey {}) with
  | none => some .malformed
  | some (_, true) => some .wordEdge
  | some (_, false) => none

end FileServer.Pattern
