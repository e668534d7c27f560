import FileServer.Pattern.Automaton

/-!
# Fields in log filters

A directive of a log filter can name a field, and give a truth value, a number or a pattern
for its value.  Truth values are patterns that match themselves; a number need not be a
pattern, since it can have a plus sign.
-/

namespace FileServer

/-- A field that an event has to have. -/
structure FieldPattern where
  name : Text
  hasValue : Bool
  deriving DecidableEq, Repr

namespace FieldPattern

/-- A text without one leading sign. -/
def unsigned : Text → Text
  | '+' :: rest | '-' :: rest => rest
  | text => text

/-- Whether a text is an exponent of a number, or nothing. -/
def isExponent : Text → Bool
  | [] => true
  | mark :: rest =>
      (mark == 'e' || mark == 'E') && !(unsigned rest).isEmpty && (unsigned rest).all Ascii.isDigit

/-- Whether a text is a number without a sign: digits, among which there can be a point, and
an exponent. -/
def isDecimal (text : Text) : Bool :=
  let whole := text.takeWhile Ascii.isDigit
  let rest := text.dropWhile Ascii.isDigit
  match rest with
  | '.' :: rest =>
      let fraction := rest.takeWhile Ascii.isDigit
      !(whole ++ fraction).isEmpty && isExponent (rest.dropWhile Ascii.isDigit)
  | _ => !whole.isEmpty && isExponent rest

/-- The names of numbers that have no digits. -/
def numberNames : List String := ["inf", "infinity", "nan"]

/-- Whether a text is a number. -/
def isNumber (text : Text) : Bool :=
  numberNames.any (fun name => Ascii.sameText (unsigned text) name.toList) ||
    isDecimal (unsigned text)

/-- Reads a field and the value it has to have.  The value ends before a second equals
sign. -/
def parse (text : Text) : Except Pattern.AutomatonError FieldPattern :=
  match Text.splitAt (· == '=') text with
  | name :: value :: _ =>
      if isNumber value then
        .ok ⟨name, true⟩
      else
        match Pattern.automatonError? value with
        | some error => .error error
        | none => .ok ⟨name, true⟩
  | _ => .ok ⟨text, false⟩

end FieldPattern

end FileServer
