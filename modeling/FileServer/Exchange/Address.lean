import FileServer.Text.Decimal

/-!
# Addresses of sockets

A connection knows the address of its other side: a host and a port.  A host has four
numbers between dots, or eight numbers in hexadecimal between colons, of which the
longest row of zeros is left out.  Several texts stand for one address, and each address
has one text that it is written as.
-/

namespace FileServer

/-- A host.  The short form has four numbers below 256; the long form has eight below
65536, and the number of a zone, which is zero for a host that is in none. -/
inductive Host where
  | short (octets : List Nat)
  | long (groups : List Nat) (zone : Nat)
  deriving DecidableEq, Repr

/-- A host and a port. -/
structure Address where
  host : Host
  port : Nat
  deriving DecidableEq, Repr

namespace Address

/-! ## Writing -/

/-- A number in hexadecimal. -/
def hexadecimal (value : Nat) : Text :=
  Nat.toDigits 16 value

/-- Numbers between dots. -/
def dotted (octets : List Nat) : Text :=
  List.intercalate ['.'] (octets.map Decimal.digits)

/-- Numbers between colons. -/
def coloned (groups : List Nat) : Text :=
  List.intercalate [':'] (groups.map hexadecimal)

/-- The two octets of a group. -/
def octetsOf (group : Nat) : List Nat :=
  [group / 256, group % 256]

/-- Where the longest row of zeros begins and how long it is; of several longest rows it
is the first. -/
def zeroRow (groups : List Nat) : Nat × Nat :=
  (List.range groups.length).foldl
    (fun best start =>
      let length := ((groups.drop start).takeWhile (· == 0)).length
      if best.2 < length then (start, length) else best)
    (0, 0)

/-- The text of eight groups.  A host of the short form that is mapped into the long one
is written with dots, and a single zero is not left out. -/
def groupsText (groups : List Nat) : Text :=
  match groups with
  | [0, 0, 0, 0, 0, 0xFFFF, high, low] =>
      "::ffff:".toList ++ dotted (octetsOf high ++ octetsOf low)
  | _ =>
      let (start, length) := zeroRow groups
      if 1 < length then
        coloned (groups.take start) ++ "::".toList ++ coloned (groups.drop (start + length))
      else
        coloned groups

/-- The text of an address. -/
def text : Address → Text
  | ⟨.short octets, port⟩ => dotted octets ++ ':' :: Decimal.digits port
  | ⟨.long groups zone, port⟩ =>
      let zoneText := if zone = 0 then [] else '%' :: Decimal.digits zone
      '[' :: groupsText groups ++ zoneText ++ ']' :: ':' :: Decimal.digits port

/-! ## Reading -/

/-- The value of a digit in a base up to sixteen. -/
def digit? (base : Nat) (char : Char) : Option Nat :=
  let value :=
    if Ascii.isDigit char then char.toNat - '0'.toNat
    else if 'a' ≤ char && char ≤ 'f' then char.toNat - 'a'.toNat + 10
    else if 'A' ≤ char && char ≤ 'F' then char.toNat - 'A'.toNat + 10
    else base
  if value < base then some value else none

/-- Reads the number that a text starts with, which lies below a bound, and leaves the
rest. -/
def number? (base bound : Nat) (input : Text) : Option (Nat × Text) :=
  let isDigit (char : Char) : Bool := (digit? base char).isSome
  let digits := input.takeWhile isDigit
  let value := digits.foldl (fun value char => base * value + (digit? base char).getD 0) 0
  if digits.isEmpty || bound ≤ value then none else some (value, input.dropWhile isDigit)

/-- Reads a character. -/
def mark? (mark : Char) : Text → Option Text
  | char :: rest => if char = mark then some rest else none
  | [] => none

/-- Reads a number of the short form, which has no more digits than it needs. -/
def octet? (input : Text) : Option (Nat × Text) :=
  match number? 10 256 input with
  | some (value, rest) =>
      if rest.length + (Decimal.digits value).length = input.length then some (value, rest)
      else none
  | none => none

/-- Reads a host of the short form. -/
def short? (input : Text) : Option (List Nat × Text) := do
  let (first, rest) ← octet? input
  let (second, rest) ← octet? (← mark? '.' rest)
  let (third, rest) ← octet? (← mark? '.' rest)
  let (fourth, rest) ← octet? (← mark? '.' rest)
  return ([first, second, third, fourth], rest)

/-- Reads a number of the long form, which has four digits at most. -/
def group? (input : Text) : Option (Nat × Text) :=
  match number? 16 65536 input with
  | some (value, rest) => if input.length ≤ rest.length + 4 then some (value, rest) else none
  | none => none

/-- Reads the colon before a group that is not the first. -/
def separator? (isFirst : Bool) (input : Text) : Option Text :=
  if isFirst then some input else mark? ':' input

/-- Reads groups, at most as many as there is room for, and tells whether the last two of
them were written as a host of the short form. -/
def groups : Nat → Bool → Text → List Nat × Bool × Text
  | 0, _, input => ([], false, input)
  | room + 1, isFirst, input =>
      match separator? isFirst input with
      | none => ([], false, input)
      | some start =>
          match if 0 < room then short? start else none with
          | some ([first, second, third, fourth], rest) =>
              ([256 * first + second, 256 * third + fourth], true, rest)
          | _ =>
              match group? start with
              | none => ([], false, input)
              | some (value, rest) =>
                  let (others, isMixed, rest) := groups room false rest
                  (value :: others, isMixed, rest)

/-- Reads a host of the long form: eight groups, or fewer with two colons in the place of
the zeros between them. -/
def long? (input : Text) : Option (List Nat × Text) :=
  match groups 8 true input with
  | (front, isMixed, rest) =>
      if front.length = 8 then
        some (front, rest)
      else if isMixed then
        none
      else do
        let (back, _, rest) := groups (7 - front.length) true (← mark? ':' (← mark? ':' rest))
        return (front ++ List.replicate (8 - front.length - back.length) 0 ++ back, rest)

/-- Reads a port behind its colon, at the end of a text. -/
def port? (input : Text) : Option Nat := do
  let (port, rest) ← number? 10 65536 (← mark? ':' input)
  if rest.isEmpty then some port else none

/-- Reads the number of a zone. -/
def zone? (input : Text) : Option (Nat × Text) := do
  number? 10 0x100000000 (← mark? '%' input)

/-- Reads an address. -/
def parse? (input : Text) : Option Address :=
  match short? input with
  | some (octets, rest) => (port? rest).map fun port => ⟨.short octets, port⟩
  | none => do
      let (groups, rest) ← long? (← mark? '[' input)
      let (zone, rest) := (zone? rest).getD (0, rest)
      let port ← port? (← mark? ']' rest)
      return ⟨.long groups zone, port⟩

end Address

end FileServer
