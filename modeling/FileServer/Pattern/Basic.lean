import FileServer.Text.Basic

/-!
# Patterns

A pattern is a regular expression.  This module has the tree that the text of a pattern
stands for, as far as it decides whether an automaton can be made from it.  What the
automaton would match is left out, for instance how often a repetition repeats.
-/

namespace FileServer

/-- What can be switched on and off inside a pattern. -/
inductive PatternFlag where
  /-- Letters stand for their other case too. -/
  | anyCase
  | multiLine
  | dotMatchesLineEnd
  | swapGreed
  /-- The pattern is about characters of all scripts, not about bytes. -/
  | allScripts
  | crlf
  /-- Blanks and comments in the pattern are skipped. -/
  | spaced
  deriving DecidableEq, Repr

/-- One sign of a list of flags.  Flags behind the negation are switched off. -/
inductive FlagSign where
  | negation
  | flag (flag : PatternFlag)
  deriving DecidableEq, Repr

/-- A character that stands for itself.  One that is written by two hexadecimal digits can
be a byte. -/
structure PatternChar where
  char : Char
  isByte : Bool := false
  deriving DecidableEq, Repr

/-- A set of characters between brackets, or a part of one. -/
inductive CharClass where
  | empty
  | one (char : PatternChar)
  | range (low high : PatternChar)
  /-- One of the named sets of ASCII characters. -/
  | ascii (isNegated : Bool)
  /-- Digits, blanks, or characters of words. -/
  | kind (isNegated : Bool)
  | union (parts : List CharClass)
  | bracketed (isNegated : Bool) (inner : CharClass)
  /-- What two sets have in common, their difference, or their symmetric difference. -/
  | operation (left right : CharClass)
  deriving Repr

/-- A pattern or a part of one. -/
inductive Pattern where
  | empty
  | flags (signs : List FlagSign)
  | one (char : PatternChar)
  | dot
  /-- The start or the end of a line or a text. -/
  | edge
  /-- A place where a word starts or ends, or one where none does. -/
  | wordEdge
  /-- Digits, blanks, or characters of words. -/
  | kind (isNegated : Bool)
  | set (chars : CharClass)
  | repetition (body : Pattern)
  | group (signs : List FlagSign) (body : Pattern)
  | concatenation (parts : List Pattern)
  | alternation (branches : List Pattern)
  deriving Repr

namespace CharClass

/-- The set that has what any of several sets has. -/
def ofUnion : List CharClass → CharClass
  | [] => .empty
  | [part] => part
  | parts => .union parts

mutual

/-- How deep sets are nested in a set. -/
def height : CharClass → Nat
  | .union parts => 1 + heights parts
  | .bracketed _ inner => 1 + inner.height
  | .operation left right => 1 + max left.height right.height
  | _ => 0

/-- How deep sets are nested in some sets. -/
def heights : List CharClass → Nat
  | [] => 0
  | part :: parts => max part.height (heights parts)

end

end CharClass

namespace Pattern

/-- The pattern that matches several patterns one behind the other. -/
def ofConcatenation : List Pattern → Pattern
  | [] => .empty
  | [part] => part
  | parts => .concatenation parts

/-- The pattern that matches any of several patterns. -/
def ofAlternation : List Pattern → Pattern
  | [] => .empty
  | [branch] => branch
  | branches => .alternation branches

mutual

/-- How deep patterns are nested in a pattern. -/
def height : Pattern → Nat
  | .set chars => chars.height
  | .repetition body => 1 + body.height
  | .group _ body => 1 + body.height
  | .concatenation parts => 1 + heights parts
  | .alternation branches => 1 + heights branches
  | _ => 0

/-- How deep patterns are nested in some patterns. -/
def heights : List Pattern → Nat
  | [] => 0
  | part :: parts => max part.height (heights parts)

end

end Pattern

end FileServer
