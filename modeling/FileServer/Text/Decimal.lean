import FileServer.Text.Ascii

/-!
# Decimal numbers

Numbers are written in decimal without sign or leading zeros.  Reading is more
generous: a plus sign may stand in front and zeros may lead, but at least one
digit is needed and the value has to lie below a bound.
-/

namespace FileServer.Decimal

/-- The decimal digits of a number. -/
def digits (value : Nat) : Text :=
  Nat.toDigits 10 value

/-- The decimal digits of a number, filled up with zeros on the left. -/
def padded (width value : Nat) : Text :=
  List.replicate (width - (digits value).length) '0' ++ digits value

/-- The value of one digit. -/
def digitValue (char : Char) : Nat :=
  char.toNat - '0'.toNat

/-- The value of a digit string, read from the left. -/
def valueOf (digits : Text) : Nat :=
  digits.foldl (fun value char => 10 * value + digitValue char) 0

/-- A text without one leading plus sign. -/
def unsigned : Text → Text
  | '+' :: rest => rest
  | text => text

/-- Reads an unsigned number below `bound`. -/
def parse? (bound : Nat) (text : Text) : Option Nat :=
  let body := unsigned text
  if !body.isEmpty && body.all Ascii.isDigit && valueOf body < bound then
    some (valueOf body)
  else
    none

/-- Reads a number below `bound` before which a minus sign may stand; a negative
number lies below every bound and is not accepted, minus zero is zero. -/
def parseSigned? (bound : Nat) : Text → Option Nat
  | '-' :: rest =>
      if !rest.isEmpty && rest.all Ascii.isDigit && valueOf rest = 0 then some 0 else none
  | text => parse? bound text

/-- One more than the largest machine word. -/
def wordBound : Nat := 0x10000000000000000

end FileServer.Decimal
