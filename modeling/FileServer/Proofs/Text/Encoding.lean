import FileServer.Text.Utf8

/-!
# Reading undoes writing

A byte sequence is accepted by the strict reading exactly if it is the UTF-8 form
of a text, and it is read as that text.

The relation `Encodes` lists the well-formed sequences of one character by the
number of their bytes.  The second byte is bounded further behind four of the
first bytes: there the character would have a shorter form, be a surrogate, or
lie behind the last one.
-/

namespace FileServer.Utf8

/-- A byte behind the first one of a character. -/
structure Continues (byte : UInt8) : Prop where
  low : 0x80 ≤ byte.toNat
  high : byte.toNat ≤ 0xBF

/-- The code of a character and its bytes. -/
inductive Encodes : Nat → Bytes → Prop
  | one {first : UInt8} (ascii : first.toNat < 0x80) : Encodes first.toNat [first]
  | two {first second : UInt8} (low : 0xC2 ≤ first.toNat) (high : first.toNat < 0xE0)
      (next : Continues second) :
      Encodes (64 * (first.toNat - 0xC0) + (second.toNat - 0x80)) [first, second]
  | three {first second third : UInt8} (low : 0xE0 ≤ first.toNat) (high : first.toNat < 0xF0)
      (next : Continues second) (notShorter : first.toNat = 0xE0 → 0xA0 ≤ second.toNat)
      (noSurrogate : first.toNat = 0xED → second.toNat ≤ 0x9F) (last : Continues third) :
      Encodes (64 * (64 * (first.toNat - 0xE0) + (second.toNat - 0x80)) + (third.toNat - 0x80))
        [first, second, third]
  | four {first second third fourth : UInt8} (low : 0xF0 ≤ first.toNat)
      (high : first.toNat < 0xF5) (next : Continues second)
      (notShorter : first.toNat = 0xF0 → 0x90 ≤ second.toNat)
      (notBehind : first.toNat = 0xF4 → second.toNat ≤ 0x8F) (middle : Continues third)
      (last : Continues fourth) :
      Encodes (64 * (64 * (64 * (first.toNat - 0xF0) + (second.toNat - 0x80)) +
        (third.toNat - 0x80)) + (fourth.toNat - 0x80)) [first, second, third, fourth]

theorem Encodes.isValidChar {code : Nat} {bytes : Bytes} (encodes : Encodes code bytes) :
    code.isValidChar := by
  unfold Nat.isValidChar
  cases encodes with
  | one ascii => omega
  | two low high next =>
      obtain ⟨nextLow, nextHigh⟩ := next
      omega
  | three low high next notShorter noSurrogate last =>
      obtain ⟨nextLow, nextHigh⟩ := next
      obtain ⟨lastLow, lastHigh⟩ := last
      omega
  | four low high next notShorter notBehind middle last =>
      obtain ⟨nextLow, nextHigh⟩ := next
      obtain ⟨middleLow, middleHigh⟩ := middle
      obtain ⟨lastLow, lastHigh⟩ := last
      omega

theorem toNat_ofNat_of_isValidChar {code : Nat} (valid : code.isValidChar) :
    (Char.ofNat code).val.toNat = code := by
  rw [Char.ofNat, dif_pos valid]
  rfl

/-- The bytes are those that the character is written with. -/
theorem Encodes.utf8EncodeChar_eq {code : Nat} {bytes : Bytes} (encodes : Encodes code bytes) :
    String.utf8EncodeChar (Char.ofNat code) = bytes := by
  have same := toNat_ofNat_of_isValidChar encodes.isValidChar
  simp only [String.utf8EncodeChar, same]
  cases encodes with
  | one ascii =>
      rw [if_pos (by omega)]
      simp
  | two low high next =>
      obtain ⟨nextLow, nextHigh⟩ := next
      rw [if_neg (by omega), if_pos (by omega)]
      simp only [List.cons.injEq, ← UInt8.toNat_inj, UInt8.toNat_ofNat', and_true]
      omega
  | three low high next notShorter noSurrogate last =>
      obtain ⟨nextLow, nextHigh⟩ := next
      obtain ⟨lastLow, lastHigh⟩ := last
      rw [if_neg (by omega), if_neg (by omega), if_pos (by omega)]
      simp only [List.cons.injEq, ← UInt8.toNat_inj, UInt8.toNat_ofNat', and_true]
      omega
  | four low high next notShorter notBehind middle last =>
      obtain ⟨nextLow, nextHigh⟩ := next
      obtain ⟨middleLow, middleHigh⟩ := middle
      obtain ⟨lastLow, lastHigh⟩ := last
      rw [if_neg (by omega), if_neg (by omega), if_neg (by omega)]
      simp only [List.cons.injEq, ← UInt8.toNat_inj, UInt8.toNat_ofNat', and_true]
      omega

theorem toNat_ofNat_of_lt {value : Nat} (small : value < 256) :
    (UInt8.ofNat value).toNat = value := by
  rw [UInt8.toNat_ofNat']
  omega

/-- Six bits behind the mark of a byte that goes on with a character. -/
theorem continues_ofNat (value : Nat) : Continues (UInt8.ofNat (value % 64 + 0x80)) := by
  constructor <;> rw [toNat_ofNat_of_lt (by omega)] <;> omega

/-- Every character has its bytes. -/
theorem encodes_utf8EncodeChar (char : Char) :
    Encodes char.toNat (String.utf8EncodeChar char) := by
  have valid : char.val.toNat.isValidChar := char.valid
  simp only [Nat.isValidChar] at valid
  have mark : ∀ value, (UInt8.ofNat (value % 64 + 0x80)).toNat = value % 64 + 0x80 :=
    fun value => toNat_ofNat_of_lt (by omega)
  simp only [String.utf8EncodeChar, Char.toNat]
  generalize char.val.toNat = code at valid
  by_cases single : code ≤ 0x7F
  · rw [if_pos single]
    have first : (UInt8.ofNat code).toNat = code := toNat_ofNat_of_lt (by omega)
    have encodes := @Encodes.one (UInt8.ofNat code) (by omega)
    rwa [first] at encodes
  rw [if_neg single]
  by_cases double : code ≤ 0x7FF
  · rw [if_pos double]
    have first : (UInt8.ofNat (code / 64 % 0x20 + 0xC0)).toNat = code / 64 % 0x20 + 0xC0 :=
      toNat_ofNat_of_lt (by omega)
    have encodes := @Encodes.two (UInt8.ofNat (code / 64 % 0x20 + 0xC0)) _ (by omega) (by omega)
      (continues_ofNat code)
    have whole : 64 * (code / 64 % 0x20 + 0xC0 - 0xC0) + (code % 64 + 0x80 - 0x80) = code := by
      omega
    rwa [first, mark, whole] at encodes
  rw [if_neg double]
  by_cases triple : code ≤ 0xFFFF
  · rw [if_pos triple]
    have first : (UInt8.ofNat (code / 4096 % 0x10 + 0xE0)).toNat = code / 4096 % 0x10 + 0xE0 :=
      toNat_ofNat_of_lt (by omega)
    have encodes := @Encodes.three (UInt8.ofNat (code / 4096 % 0x10 + 0xE0)) _ _ (by omega)
      (by omega) (continues_ofNat (code / 64)) (by rw [mark]; omega) (by rw [mark]; omega)
      (continues_ofNat code)
    have whole : 64 * (64 * (code / 4096 % 0x10 + 0xE0 - 0xE0) +
        (code / 64 % 64 + 0x80 - 0x80)) + (code % 64 + 0x80 - 0x80) = code := by
      omega
    rwa [first, mark, mark, whole] at encodes
  · rw [if_neg triple]
    have first : (UInt8.ofNat (code / 262144 % 0x08 + 0xF0)).toNat = code / 262144 % 0x08 + 0xF0 :=
      toNat_ofNat_of_lt (by omega)
    have encodes := @Encodes.four (UInt8.ofNat (code / 262144 % 0x08 + 0xF0)) _ _ _ (by omega)
      (by omega) (continues_ofNat (code / 4096)) (by rw [mark]; omega) (by rw [mark]; omega)
      (continues_ofNat (code / 64)) (continues_ofNat code)
    have whole : 64 * (64 * (64 * (code / 262144 % 0x08 + 0xF0 - 0xF0) +
        (code / 4096 % 64 + 0x80 - 0x80)) + (code / 64 % 64 + 0x80 - 0x80)) +
        (code % 64 + 0x80 - 0x80) = code := by
      omega
    rwa [first, mark, mark, mark, whole] at encodes

/-! ## The first byte of a character -/

theorem start_one {byte : UInt8} (ascii : byte.toNat < 0x80) :
    start byte = ([some (Char.ofNat byte.toNat)], .boundary) := by
  have small : byte < 0x80 := UInt8.lt_iff_toNat_lt.2 ascii
  rw [start, if_pos small]

theorem start_two {byte : UInt8} (low : 0xC2 ≤ byte.toNat) (high : byte.toNat < 0xE0) :
    start byte = ([], .inside ⟨1, 0x80, 0xBF, byte.toNat - 0xC0⟩) := by
  simp only [start, UInt8.lt_iff_toNat_lt, UInt8.reduceToNat]
  rw [if_neg (by omega), if_neg (by omega), if_pos high]

theorem start_three {byte : UInt8} (low : 0xE0 ≤ byte.toNat) (high : byte.toNat < 0xF0) :
    start byte = ([], .inside ⟨2, if byte.toNat = 0xE0 then 0xA0 else 0x80,
      if byte.toNat = 0xED then 0x9F else 0xBF, byte.toNat - 0xE0⟩) := by
  simp only [start, UInt8.lt_iff_toNat_lt, ← UInt8.toNat_inj, UInt8.reduceToNat]
  rw [if_neg (by omega), if_neg (by omega), if_neg (by omega)]
  by_cases isLow : byte.toNat = 0xE0
  · simp [isLow]
  · by_cases isSurrogate : byte.toNat = 0xED
    · simp [isSurrogate]
    · simp [isLow, isSurrogate, high]

theorem start_four {byte : UInt8} (low : 0xF0 ≤ byte.toNat) (high : byte.toNat < 0xF5) :
    start byte = ([], .inside ⟨3, if byte.toNat = 0xF0 then 0x90 else 0x80,
      if byte.toNat = 0xF4 then 0x8F else 0xBF, byte.toNat - 0xF0⟩) := by
  simp only [start, UInt8.lt_iff_toNat_lt, ← UInt8.toNat_inj, UInt8.reduceToNat]
  rw [if_neg (by omega), if_neg (by omega), if_neg (by omega), if_neg (by omega),
    if_neg (by omega), if_neg (by omega)]
  by_cases isLow : byte.toNat = 0xF0
  · simp [isLow]
  · by_cases isLast : byte.toNat = 0xF4
    · simp [isLast]
    · rw [if_neg isLow, if_pos (by omega), if_neg isLow, if_neg isLast]

/-- No other byte begins a character. -/
theorem start_none {byte : UInt8} (other : 0x80 ≤ byte.toNat ∧ byte.toNat < 0xC2 ∨
    0xF5 ≤ byte.toNat) : start byte = ([none], .boundary) := by
  simp only [start, UInt8.lt_iff_toNat_lt, ← UInt8.toNat_inj, UInt8.reduceToNat]
  rw [if_neg (by omega)]
  split
  · rfl
  · rw [if_neg (by omega), if_neg (by omega), if_neg (by omega), if_neg (by omega),
      if_neg (by omega), if_neg (by omega), if_neg (by omega)]

/-! ## Reading a character -/

theorem pieces_boundary_cons (byte : UInt8) (rest : Bytes) :
    pieces .boundary (byte :: rest) = (start byte).1 ++ pieces (start byte).2 rest := rfl

theorem pieces_inside_last {low high byte : UInt8} {bits : Nat} (above : low ≤ byte)
    (below : byte ≤ high) (rest : Bytes) :
    pieces (.inside ⟨1, low, high, bits⟩) (byte :: rest) =
      some (Char.ofNat (64 * bits + (byte.toNat - 0x80))) :: pieces .boundary rest := by
  rw [pieces, step, if_pos ⟨above, below⟩]
  rfl

theorem pieces_inside_more {owed : Nat} {low high byte : UInt8} {bits : Nat}
    (above : low ≤ byte) (below : byte ≤ high) (rest : Bytes) :
    pieces (.inside ⟨owed + 2, low, high, bits⟩) (byte :: rest) =
      pieces (.inside ⟨owed + 1, 0x80, 0xBF, 64 * bits + (byte.toNat - 0x80)⟩) rest := by
  rw [pieces, step, if_pos ⟨above, below⟩]
  simp

/-- Inside of a character only a byte in the range goes on with it. -/
theorem exists_of_pieces_inside {rest : Partial} {bytes : Bytes} {char : Char}
    {units : List Piece} (found : pieces (.inside rest) bytes = some char :: units) :
    ∃ byte others, bytes = byte :: others ∧ rest.low ≤ byte ∧ byte ≤ rest.high := by
  cases bytes with
  | nil => simp [pieces] at found
  | cons byte others =>
      refine ⟨byte, others, rfl, ?_⟩
      by_cases inRange : rest.low ≤ byte ∧ byte ≤ rest.high
      · exact inRange
      · simp [pieces, step, inRange] at found

theorem continues_iff {byte : UInt8} : Continues byte ↔ 0x80 ≤ byte ∧ byte ≤ 0xBF := by
  simp only [UInt8.le_iff_toNat_le, UInt8.reduceToNat]
  exact ⟨fun both => ⟨both.low, both.high⟩, fun both => ⟨both.1, both.2⟩⟩

/-- A lower bound that is raised behind one first byte. -/
theorem raised_le_iff {condition : Prop} [Decidable condition] {plain raised byte : UInt8}
    (higher : plain ≤ raised) :
    (if condition then raised else plain) ≤ byte ↔
      plain ≤ byte ∧ (condition → raised ≤ byte) := by
  split
  · next holds => exact ⟨fun above => ⟨UInt8.le_trans higher above, fun _ => above⟩,
      fun both => both.2 holds⟩
  · next fails => exact ⟨fun above => ⟨above, fun holds => (fails holds).elim⟩,
      fun both => both.1⟩

/-- An upper bound that is lowered behind one first byte. -/
theorem le_lowered_iff {condition : Prop} [Decidable condition] {plain lowered byte : UInt8}
    (smaller : lowered ≤ plain) :
    byte ≤ (if condition then lowered else plain) ↔
      byte ≤ plain ∧ (condition → byte ≤ lowered) := by
  split
  · next holds => exact ⟨fun below => ⟨UInt8.le_trans below smaller, fun _ => below⟩,
      fun both => both.2 holds⟩
  · next fails => exact ⟨fun below => ⟨below, fun holds => (fails holds).elim⟩,
      fun both => both.1⟩

/-- The bytes of a character are read as this character. -/
theorem Encodes.pieces_append {code : Nat} {front : Bytes} (encodes : Encodes code front)
    (rest : Bytes) :
    pieces .boundary (front ++ rest) = some (Char.ofNat code) :: pieces .boundary rest := by
  cases encodes with
  | one ascii =>
      rw [List.singleton_append, pieces_boundary_cons, start_one ascii]
      rfl
  | two low high next =>
      obtain ⟨above, below⟩ := continues_iff.1 next
      rw [List.cons_append, pieces_boundary_cons, start_two low high]
      exact pieces_inside_last above below rest
  | three low high next notShorter noSurrogate last =>
      obtain ⟨above, below⟩ := continues_iff.1 next
      obtain ⟨aboveLast, belowLast⟩ := continues_iff.1 last
      rw [List.cons_append, pieces_boundary_cons, start_three low high]
      refine (pieces_inside_more ?_ ?_ _).trans (pieces_inside_last aboveLast belowLast rest)
      · exact (raised_le_iff (by decide)).2 ⟨above, notShorter⟩
      · exact (le_lowered_iff (by decide)).2 ⟨below, noSurrogate⟩
  | four low high next notShorter notBehind middle last =>
      obtain ⟨above, below⟩ := continues_iff.1 next
      obtain ⟨aboveMiddle, belowMiddle⟩ := continues_iff.1 middle
      obtain ⟨aboveLast, belowLast⟩ := continues_iff.1 last
      rw [List.cons_append, pieces_boundary_cons, start_four low high]
      refine (pieces_inside_more ?_ ?_ _).trans
        ((pieces_inside_more aboveMiddle belowMiddle _).trans
          (pieces_inside_last aboveLast belowLast rest))
      · exact (raised_le_iff (by decide)).2 ⟨above, notShorter⟩
      · exact (le_lowered_iff (by decide)).2 ⟨below, notBehind⟩

/-- What is read as a character are the bytes of this character. -/
theorem encodes_of_pieces {bytes : Bytes} {char : Char} {units : List Piece}
    (found : pieces .boundary bytes = some char :: units) :
    ∃ code front rest, Encodes code front ∧ bytes = front ++ rest ∧ char = Char.ofNat code ∧
      units = pieces .boundary rest := by
  -- Once the bytes are known to encode something, reading them gives the rest.
  have finish : ∀ {code front rest}, Encodes code front → bytes = front ++ rest →
      ∃ code front rest, Encodes code front ∧ bytes = front ++ rest ∧
        char = Char.ofNat code ∧ units = pieces .boundary rest := by
    intro code front rest encodes whole
    rw [whole, encodes.pieces_append] at found
    cases found
    exact ⟨code, front, rest, encodes, whole, rfl, rfl⟩
  cases bytes with
  | nil => simp [pieces] at found
  | cons first others =>
      rw [pieces_boundary_cons] at found
      by_cases ascii : first.toNat < 0x80
      · exact finish (.one ascii) rfl
      by_cases other : first.toNat < 0xC2 ∨ 0xF5 ≤ first.toNat
      · rw [start_none (by omega)] at found
        cases found
      by_cases double : first.toNat < 0xE0
      · rw [start_two (by omega) double] at found
        obtain ⟨second, rest, rfl, above, below⟩ := exists_of_pieces_inside found
        exact finish (.two (by omega) double (continues_iff.2 ⟨above, below⟩)) rfl
      by_cases triple : first.toNat < 0xF0
      · rw [start_three (by omega) triple] at found
        obtain ⟨second, rest, rfl, above, below⟩ := exists_of_pieces_inside found
        rw [pieces_inside_more above below] at found
        obtain ⟨third, rest, rfl, aboveLast, belowLast⟩ := exists_of_pieces_inside found
        obtain ⟨above, notShorter⟩ := (raised_le_iff (by decide)).1 above
        obtain ⟨below, noSurrogate⟩ := (le_lowered_iff (by decide)).1 below
        exact finish (.three (by omega) triple (continues_iff.2 ⟨above, below⟩) notShorter
          noSurrogate (continues_iff.2 ⟨aboveLast, belowLast⟩)) rfl
      · rw [start_four (by omega) (by omega)] at found
        obtain ⟨second, rest, rfl, above, below⟩ := exists_of_pieces_inside found
        rw [pieces_inside_more above below] at found
        obtain ⟨third, rest, rfl, aboveMiddle, belowMiddle⟩ := exists_of_pieces_inside found
        rw [pieces_inside_more aboveMiddle belowMiddle] at found
        obtain ⟨fourth, rest, rfl, aboveLast, belowLast⟩ := exists_of_pieces_inside found
        obtain ⟨above, notShorter⟩ := (raised_le_iff (by decide)).1 above
        obtain ⟨below, notBehind⟩ := (le_lowered_iff (by decide)).1 below
        exact finish (.four (by omega) (by omega) (continues_iff.2 ⟨above, below⟩) notShorter
          notBehind (continues_iff.2 ⟨aboveMiddle, belowMiddle⟩)
          (continues_iff.2 ⟨aboveLast, belowLast⟩)) rfl

/-! ## Texts -/

/-- A character that was begun becomes a unit. -/
theorem pieces_inside_ne_nil (rest : Partial) (bytes : Bytes) :
    pieces (.inside rest) bytes ≠ [] := by
  induction bytes generalizing rest with
  | nil => simp [pieces]
  | cons byte others ih =>
      simp only [pieces, step]
      split
      · split
        · simp
        · exact ih _
      · simp

/-- There are no units only without bytes. -/
theorem eq_nil_of_pieces {bytes : Bytes} (none : pieces .boundary bytes = []) : bytes = [] := by
  cases bytes with
  | nil => rfl
  | cons byte rest =>
      rw [pieces_boundary_cons, List.append_eq_nil_iff] at none
      obtain ⟨nothing, left⟩ := none
      cases started : start byte with
      | mk done progress =>
          rw [started] at nothing left
          cases progress with
          | inside partly => exact (pieces_inside_ne_nil partly rest left).elim
          | boundary =>
              exfalso
              cases nothing
              simp only [start] at started
              repeat' split at started
              all_goals cases started

/-- The strict reading is a text if all units are its characters. -/
theorem decode?_eq_some_iff_pieces {bytes : Bytes} {text : Text} :
    decode? bytes = some text ↔ pieces .boundary bytes = text.map some := by
  rw [decode?]
  generalize pieces .boundary bytes = units
  induction units generalizing text with
  | nil => cases text <;> simp
  | cons unit units ih =>
      cases unit with
      | none => cases text <;> simp
      | some char =>
          cases text with
          | nil => cases found : units.mapM id <;> simp [found]
          | cons first text =>
              rw [List.map_cons, List.cons.injEq, Option.some.injEq, ← ih]
              cases found : units.mapM id <;> simp [found]

/-- The strict reading accepts exactly the UTF-8 forms of texts. -/
theorem decode?_eq_some_iff {bytes : Bytes} {text : Text} :
    decode? bytes = some text ↔ text.bytes = bytes := by
  rw [decode?_eq_some_iff_pieces]
  induction text generalizing bytes with
  | nil =>
      constructor
      · intro nothing
        rw [eq_nil_of_pieces nothing]
        rfl
      · rintro rfl
        rfl
  | cons char text ih =>
      have encodes := encodes_utf8EncodeChar char
      have split : Text.bytes (char :: text) = String.utf8EncodeChar char ++ Text.bytes text := rfl
      constructor
      · intro found
        obtain ⟨code, front, rest, encoded, rfl, same, units⟩ := encodes_of_pieces found
        rw [split, ih.1 units.symm, same, encoded.utf8EncodeChar_eq]
      · rintro rfl
        rw [split, encodes.pieces_append, ih.2 rfl, Char.ofNat_toNat, List.map_cons]

end FileServer.Utf8
