import FileServer.Text.Basic

/-!
# Unicode white space

The characters with the Unicode property `White_Space`.  Field names and values
lose them at both ends.
-/

namespace FileServer.Text

/-- The ranges of `White_Space`, ends included, in ascending order. -/
def blankRanges : List (Nat × Nat) :=
  [(0x09, 0x0D), (0x20, 0x20), (0x85, 0x85), (0xA0, 0xA0), (0x1680, 0x1680),
   (0x2000, 0x200A), (0x2028, 0x2029), (0x202F, 0x202F), (0x205F, 0x205F),
   (0x3000, 0x3000)]

/-- Whether a character has the property `White_Space`. -/
def isBlank (char : Char) : Bool :=
  inRanges blankRanges char

/-- A text without white space at its two ends. -/
def trimmed (text : Text) : Text :=
  text.trim isBlank

end FileServer.Text
