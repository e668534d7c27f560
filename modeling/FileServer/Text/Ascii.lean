import FileServer.Text.Basic

/-!
# ASCII classes

Methods, schemes and field names are compared without regard to the case of
the letters `A` to `Z`; no other character has a case here.  Words of a request
line are separated by the five ASCII blanks.
-/

namespace FileServer.Ascii

/-- Lower case of an ASCII letter; every other character is unchanged. -/
def lower (char : Char) : Char :=
  char.toLower

/-- Equality of texts up to the case of ASCII letters. -/
def sameText (left right : Text) : Bool :=
  left.map lower == right.map lower

@[simp] theorem sameText_iff {left right : Text} :
    sameText left right = true ↔ left.map lower = right.map lower := by
  simp [sameText]

/-- Space, tab, line feed, form feed and carriage return. -/
def isBlank (char : Char) : Bool :=
  char = ' ' || char = '\t' || char = '\n' || char = '\x0c' || char = '\r'

/-- A decimal digit. -/
def isDigit (char : Char) : Bool :=
  '0' ≤ char && char ≤ '9'

end FileServer.Ascii
