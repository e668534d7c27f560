import FileServer.Text.Basic

/-!
# Reading UTF-8

A byte sequence is read as a sequence of units: a unit is a character or an
ill-formed piece.  An ill-formed piece is as long as it could still have become
a character.  The strict reading accepts only sequences without ill-formed
pieces; the lossy reading puts the replacement character in the place of each.
-/

namespace FileServer.Utf8

/-- What is still owed to complete a character: the number of bytes, the range
the next byte has to lie in, and the bits collected so far. -/
structure Partial where
  owed : Nat
  low : UInt8
  high : UInt8
  bits : Nat
  deriving DecidableEq, Repr

/-- The state between two bytes. -/
inductive Progress where
  /-- Between two characters. -/
  | boundary
  /-- Inside a character. -/
  | inside (rest : Partial)
  deriving DecidableEq, Repr

/-- One unit of a byte sequence: a character, or `none` for an ill-formed
piece. -/
abbrev Piece := Option Char

/-- Takes the first byte of a unit. -/
def start (byte : UInt8) : List Piece × Progress :=
  if byte < 0x80 then ([some (Char.ofNat byte.toNat)], .boundary)
  else if byte < 0xC2 then ([none], .boundary)
  else if byte < 0xE0 then ([], .inside ⟨1, 0x80, 0xBF, byte.toNat - 0xC0⟩)
  else if byte = 0xE0 then ([], .inside ⟨2, 0xA0, 0xBF, 0⟩)
  else if byte = 0xED then ([], .inside ⟨2, 0x80, 0x9F, 0x0D⟩)
  else if byte < 0xF0 then ([], .inside ⟨2, 0x80, 0xBF, byte.toNat - 0xE0⟩)
  else if byte = 0xF0 then ([], .inside ⟨3, 0x90, 0xBF, 0⟩)
  else if byte < 0xF4 then ([], .inside ⟨3, 0x80, 0xBF, byte.toNat - 0xF0⟩)
  else if byte = 0xF4 then ([], .inside ⟨3, 0x80, 0x8F, 4⟩)
  else ([none], .boundary)

/-- Takes one byte and says which units it completed.  A byte that cannot go on
with the character begun ends it as an ill-formed piece and begins anew. -/
def step : Progress → UInt8 → List Piece × Progress
  | .boundary, byte => start byte
  | .inside rest, byte =>
      if rest.low ≤ byte ∧ byte ≤ rest.high then
        let bits := 64 * rest.bits + (byte.toNat - 0x80)
        if rest.owed ≤ 1 then ([some (Char.ofNat bits)], .boundary)
        else ([], .inside ⟨rest.owed - 1, 0x80, 0xBF, bits⟩)
      else
        let (pieces, progress) := start byte
        (none :: pieces, progress)

/-- The units of a byte sequence.  A character cut off by the end is an
ill-formed piece. -/
def pieces : Progress → Bytes → List Piece
  | .boundary, [] => []
  | .inside _, [] => [none]
  | progress, byte :: rest =>
      let (done, next) := step progress byte
      done ++ pieces next rest

/-- Replacement for an ill-formed piece. -/
def replacement : Char := '\uFFFD'

/-- The lossy reading: each ill-formed piece becomes the replacement
character. -/
def decodeLossy (bytes : Bytes) : Text :=
  (pieces .boundary bytes).map fun piece => piece.getD replacement

/-- The strict reading, `none` for a sequence with an ill-formed piece. -/
def decode? (bytes : Bytes) : Option Text :=
  (pieces .boundary bytes).mapM id

/-- Where the strict reading succeeds, the lossy reading agrees with it. -/
theorem decodeLossy_of_decode? {bytes : Bytes} {text : Text}
    (decoded : decode? bytes = some text) : decodeLossy bytes = text := by
  unfold decode? at decoded
  unfold decodeLossy
  generalize pieces .boundary bytes = units at decoded
  induction units generalizing text with
  | nil => simpa using decoded
  | cons piece others ih =>
      cases piece with
      | none => simp at decoded
      | some char =>
          simp only [List.mapM_cons, id_eq, Option.bind_eq_bind, Option.bind_some,
            Option.pure_def, Option.bind_eq_some_iff, Option.some.injEq] at decoded
          obtain ⟨tail, found, rfl⟩ := decoded
          simp [ih found]

end FileServer.Utf8
