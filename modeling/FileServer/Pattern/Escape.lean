import FileServer.Pattern.Basic
import FileServer.Text.Ascii
import FileServer.Text.Blank

/-!
# Escapes in patterns

A backslash and what is behind it stand for a character, a set of characters, or a place
in the text.  Characters can be written by two, four or eight hexadecimal digits.

In a spaced pattern blanks do not count, and neither does the rest of a line behind a
number sign.
-/

namespace FileServer.Pattern

/-- A text without the blanks and comments it starts with; `inComment` says whether it
starts inside a comment. -/
def skipSpace (inComment : Bool) : Text → Text
  | [] => []
  | char :: rest =>
      if inComment then skipSpace (char != '\n') rest
      else if Text.isBlank char then skipSpace false rest
      else if char = '#' then skipSpace true rest
      else char :: rest

/-- A text without what does not count at its front. -/
def skip (spaced : Bool) (text : Text) : Text :=
  if spaced then skipSpace false text else text

/-- The value of a hexadecimal digit. -/
def hexDigit? (char : Char) : Option Nat :=
  if Ascii.isDigit char then some (char.toNat - '0'.toNat)
  else if 'a' ≤ char && char ≤ 'f' then some (char.toNat - 'a'.toNat + 10)
  else if 'A' ≤ char && char ≤ 'F' then some (char.toNat - 'A'.toNat + 10)
  else none

/-- Reads a number of hexadecimal digits behind a value. -/
def hexValue? (spaced : Bool) : Nat → Nat → Text → Option (Nat × Text)
  | 0, value, text => some (value, text)
  | _ + 1, _, [] => none
  | digits + 1, value, char :: rest =>
      match hexDigit? char with
      | some digit => hexValue? spaced digits (16 * value + digit) (skip spaced rest)
      | none => none

/-- The character with a number. -/
def charOf? (value : Nat) : Option Char :=
  if value.isValidChar then some (Char.ofNat value) else none

/-- Reads a character that is written by a number of hexadecimal digits. -/
def hexChar? (spaced : Bool) (digits : Nat) (text : Text) : Option (Pattern × Text) :=
  match hexValue? spaced digits 0 (skip spaced text) with
  | some (value, rest) =>
      (charOf? value).map fun char => (.one { char, isByte := digits == 2 }, rest)
  | none => none

/-- Whether a character stands for itself behind a backslash: all signs of ASCII do, but
for the two angles, which stand for edges of words. -/
def isPlainEscaped (char : Char) : Bool :=
  char.toNat < 0x80 && !char.isAlphanum && char != '<' && char != '>'

/-- What a letter or an angle stands for behind a backslash. -/
def ofLetter? : Char → Option Pattern
  | 'a' => some (.one { char := '\x07' })
  | 'f' => some (.one { char := '\x0c' })
  | 't' => some (.one { char := '\t' })
  | 'n' => some (.one { char := '\n' })
  | 'r' => some (.one { char := '\r' })
  | 'v' => some (.one { char := '\x0b' })
  | 'A' | 'z' => some .edge
  | 'b' | 'B' | '<' | '>' => some .wordEdge
  | 'd' | 's' | 'w' => some (.kind false)
  | 'D' | 'S' | 'W' => some (.kind true)
  | _ => none

/-- Reads what is behind a backslash.  Properties of characters, which begin with a `p`,
are not known, and digits refer to nothing. -/
def escape? (spaced : Bool) : Text → Option (Pattern × Text)
  | [] => none
  | 'x' :: rest => hexChar? spaced 2 rest
  | 'u' :: rest => hexChar? spaced 4 rest
  | 'U' :: rest => hexChar? spaced 8 rest
  | char :: rest =>
      if isPlainEscaped char then some (.one { char }, rest)
      else (ofLetter? char).map fun part => (part, rest)

end FileServer.Pattern
