/-!
# Bytes and text

What travels over a socket is a list of bytes; what the server compares and
prints is text, a list of characters.  This module fixes both and the few
general operations on them: splitting at separators, words, trimming, and the
UTF-8 form of a text.
-/

namespace FileServer

/-- A finite sequence of bytes. -/
abbrev Bytes := List UInt8

/-- A finite sequence of characters. -/
abbrev Text := List Char

namespace Text

/-- The UTF-8 form of a text. -/
def bytes (text : Text) : Bytes :=
  text.flatMap String.utf8EncodeChar

@[simp] theorem bytes_nil : bytes [] = [] := rfl

@[simp] theorem bytes_append (left right : Text) :
    bytes (left ++ right) = bytes left ++ bytes right := by
  simp [bytes]

/-- The number of bytes of the UTF-8 form. -/
def byteSize (text : Text) : Nat :=
  text.foldr (fun char size => char.utf8Size + size) 0

theorem length_bytes (text : Text) : text.bytes.length = text.byteSize := by
  induction text with
  | nil => rfl
  | cons char rest ih =>
      simp only [bytes, List.flatMap_cons, List.length_append] at ih ⊢
      simp [ih, byteSize]

/-- The first bytes of a text; `none` if they end inside a character or behind the text. -/
def takeBytes? : Nat → Text → Option Text
  | 0, _ => some []
  | _ + 1, [] => none
  | count + 1, char :: rest =>
      if char.utf8Size ≤ count + 1 then
        (takeBytes? (count + 1 - char.utf8Size) rest).map (char :: ·)
      else
        none

/-- A text without its first bytes; `none` if these end inside a character or behind the
text. -/
def dropBytes? : Nat → Text → Option Text
  | 0, text => some text
  | _ + 1, [] => none
  | count + 1, char :: rest =>
      if char.utf8Size ≤ count + 1 then dropBytes? (count + 1 - char.utf8Size) rest else none

/-- The pieces between separators.  There is always one piece more than there
are separators, and pieces may be empty. -/
def splitAt (separator : Char → Bool) : Text → List Text
  | [] => [[]]
  | char :: rest =>
      if separator char then
        [] :: splitAt separator rest
      else
        match splitAt separator rest with
        | [] => [[char]]
        | piece :: pieces => (char :: piece) :: pieces

theorem splitAt_ne_nil (separator : Char → Bool) (text : Text) :
    splitAt separator text ≠ [] := by
  induction text with
  | nil => simp [splitAt]
  | cons char rest ih =>
      simp only [splitAt]
      split
      · simp
      · split <;> simp

/-- No piece holds a separator. -/
theorem not_separator_of_mem_splitAt {separator : Char → Bool} {text piece : Text}
    (member : piece ∈ splitAt separator text) {char : Char} (inside : char ∈ piece) :
    separator char = false := by
  induction text generalizing piece with
  | nil =>
      simp only [splitAt, List.mem_singleton] at member
      simp [member] at inside
  | cons head rest ih =>
      simp only [splitAt] at member
      split at member
      · rcases List.mem_cons.mp member with rfl | member
        · simp at inside
        · exact ih member inside
      · next plain =>
          split at member
          · next none => exact absurd none (splitAt_ne_nil separator rest)
          · next first others split =>
              rcases List.mem_cons.mp member with rfl | member
              · rcases List.mem_cons.mp inside with rfl | inside
                · simpa using plain
                · exact ih (by rw [split]; exact List.mem_cons_self) inside
              · exact ih (by rw [split]; exact List.mem_cons_of_mem _ member) inside

/-- The non-empty pieces between separators. -/
def words (separator : Char → Bool) (text : Text) : List Text :=
  (splitAt separator text).filter fun piece => !piece.isEmpty

/-- A text without the characters of one class at its two ends. -/
def trim (blank : Char → Bool) (text : Text) : Text :=
  ((text.dropWhile blank).reverse.dropWhile blank).reverse

/-- Puts a character in front of the first line. -/
def extendLine (char : Char) : List Text → List Text
  | [] => [[char]]
  | line :: rest => (char :: line) :: rest

/-- The lines of a text, each with the line feed that ends it. -/
def lines : Text → List Text
  | [] => []
  | char :: rest => if char = '\n' then [char] :: lines rest else extendLine char (lines rest)

/-- Whether a text does not come after another one in the order of characters. -/
def notAfter : Text → Text → Bool
  | [], _ => true
  | _ :: _, [] => false
  | left :: lefts, right :: rights =>
      left.toNat < right.toNat || (left == right && notAfter lefts rights)

/-- Whether a list of texts does not come after another one: the first texts that
differ decide. -/
def listNotAfter : List Text → List Text → Bool
  | [], _ => true
  | _ :: _, [] => false
  | left :: lefts, right :: rights =>
      if left = right then listNotAfter lefts rights else notAfter left right

/-- Splits at the first occurrence of a character, which is dropped.  The
result is `none` when the character does not occur. -/
def cut? (mark : Char) : Text → Option (Text × Text)
  | [] => none
  | char :: rest =>
      if char = mark then
        some ([], rest)
      else
        (cut? mark rest).map fun (before, after) => (char :: before, after)

@[simp] theorem cut?_eq_none_iff {mark : Char} {text : Text} :
    cut? mark text = none ↔ mark ∉ text := by
  induction text with
  | nil => simp [cut?]
  | cons char rest ih =>
      simp only [cut?]
      split
      · next equal => simp [equal]
      · next differ => simp [ih, Ne.symm differ]

/-- Whether a character lies in one of some ranges, ends included. -/
def inRanges (ranges : List (Nat × Nat)) (char : Char) : Bool :=
  ranges.any fun (low, high) => low ≤ char.toNat && char.toNat ≤ high

end Text

end FileServer
