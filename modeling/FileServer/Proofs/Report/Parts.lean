import FileServer.Proofs.Report.Calendar
import FileServer.Proofs.Response.Framing
import FileServer.Report.LogFile

/-!
# The parts of a log

The lines of a day are cut into groups of equal size, and each group is a part of the log with
a file of its own.  The name of this file has the date in front and the number of the part at
the end, with the name of the log between them.  This name may have any characters in it, also
those that separate the numbers: the date is what stands in front of the first separators, and
then the rest of the name is known but for the number at its end.
-/

namespace FileServer

/-! ## Numbers that are filled up -/

namespace Decimal

/-- Zeros in front change no value. -/
theorem valueOf_padded (width value : Nat) : valueOf (padded width value) = value := by
  have zeros (count : Nat) : valueOf (List.replicate count '0' ++ digits value) = value := by
    induction count with
    | zero => rw [List.replicate_zero, List.nil_append, valueOf_eq, digits,
        Nat.ofDigitChars_ten_toDigits]
    | succ count ih => exact ih
  exact zeros _

theorem padded_injective {width first second : Nat}
    (same : padded width first = padded width second) : first = second := by
  rw [← valueOf_padded width first, same, valueOf_padded]

theorem isDigit_of_mem_padded {width value : Nat} {char : Char}
    (member : char ∈ padded width value) : Ascii.isDigit char = true := by
  rcases List.mem_append.1 member with filling | digit
  · rw [List.eq_of_mem_replicate filling]
    rfl
  · exact isDigit_of_mem_digits digit

theorem not_mem_padded {mark : Char} (other : Ascii.isDigit mark = false) (width value : Nat) :
    mark ∉ padded width value :=
  fun member => Bool.false_ne_true (other.symm.trans (isDigit_of_mem_padded member))

end Decimal

/-- What stands in front of a mark is known if the mark is not in it. -/
theorem Text.append_mark_inj {mark : Char} {front other back rest : Text} (absent : mark ∉ front)
    (free : mark ∉ other) (same : front ++ mark :: back = other ++ mark :: rest) :
    front = other ∧ back = rest := by
  have cuts := Text.cut?_append_cons absent back
  rw [same, Text.cut?_append_cons free, Option.some.injEq, Prod.mk.injEq] at cuts
  exact ⟨cuts.1.symm, cuts.2.symm⟩

namespace LogFile

/-! ## Names -/

/-- The number that the name of a part ends with, which the first part of a day has not. -/
def partNumber? : Nat → Option Nat
  | 0 => none
  | part + 1 => some (part + 1)

/-- The name of the file for a part of a day. -/
def partName (name : Text) (day part : Nat) : Text :=
  datedName name day (partNumber? part)

/-- What the name of a part ends with. -/
def partSuffix : Nat → Text
  | 0 => []
  | part + 1 => '.' :: Decimal.digits (part + 1)

theorem datedName_eq {date : Date} {day : Nat} (dated : Date.ofDays day = date) (name : Text) :
    datedName name day none = yearText date.year ++
      '_' :: (Decimal.padded 2 date.month ++ '_' :: (Decimal.padded 2 date.day ++ '_' :: name)) := by
  have plain : datedName name day none = yearText date.year ++ '_' :: Decimal.padded 2 date.month ++
      '_' :: Decimal.padded 2 date.day ++ '_' :: name := by
    rw [← dated]
    rfl
  simp only [plain, List.append_assoc, List.cons_append]

/-- A file has its date and the name of the log in front of its number. -/
theorem exists_append_of_datedName (name : Text) (day : Nat) (part : Option Nat) :
    ∃ back, datedName name day part = datedName name day none ++ back := by
  cases part with
  | none => exact ⟨[], (List.append_nil _).symm⟩
  | some number => exact ⟨_, rfl⟩

theorem partName_eq_append (name : Text) (day part : Nat) :
    partName name day part = datedName name day none ++ partSuffix part := by
  have numbered (number : Nat) :
      datedName name day (some number) = datedName name day none ++ '.' :: Decimal.digits number :=
    rfl
  cases part with
  | zero => simp only [partName, partNumber?, partSuffix, List.append_nil]
  | succ part => simp only [partName, partNumber?, numbered, partSuffix]

theorem partName_eq {date : Date} {day : Nat} (dated : Date.ofDays day = date) (name : Text)
    (part : Nat) :
    partName name day part = yearText date.year ++
      '_' :: (Decimal.padded 2 date.month ++
        '_' :: (Decimal.padded 2 date.day ++ '_' :: (name ++ partSuffix part))) := by
  simp only [partName_eq_append, datedName_eq dated, List.append_assoc, List.cons_append]

theorem partSuffix_injective {part other : Nat} (same : partSuffix part = partSuffix other) :
    part = other := by
  cases part with
  | zero => cases other with
    | zero => rfl
    | succ other => cases same
  | succ part => cases other with
    | zero => cases same
    | succ other =>
        have read := congrArg Decimal.valueOf (List.cons.inj same).2
        simpa only [Decimal.valueOf_eq, Decimal.digits, Nat.ofDigitChars_ten_toDigits] using read

/-- A year is written with digits, and perhaps a sign in front of them. -/
theorem isDigit_of_mem_yearText {year : Int} {char : Char} (member : char ∈ yearText year) :
    char = '-' ∨ Ascii.isDigit char = true := by
  unfold yearText at member
  split at member
  · rcases List.mem_cons.1 member with sign | digit
    · exact .inl sign
    · exact .inr (Decimal.isDigit_of_mem_padded digit)
  · exact .inr (Decimal.isDigit_of_mem_padded member)

theorem not_mem_yearText {mark : Char} (other : Ascii.isDigit mark = false) (unsigned : mark ≠ '-')
    (year : Int) : mark ∉ yearText year := by
  intro member
  rcases isDigit_of_mem_yearText member with sign | digit
  · exact unsigned sign
  · exact Bool.false_ne_true (other.symm.trans digit)

theorem sign_mem_yearText_iff {year : Int} : '-' ∈ yearText year ↔ year < 0 := by
  unfold yearText
  split
  · next negative => simp [negative]
  · next positive =>
      exact iff_of_false (Decimal.not_mem_padded rfl 4 _) positive

theorem yearText_injective {year other : Int} (same : yearText year = yearText other) :
    year = other := by
  have signs : year < 0 ↔ other < 0 := by
    rw [← sign_mem_yearText_iff, same, sign_mem_yearText_iff]
  unfold yearText at same
  by_cases negative : year < 0
  · rw [if_pos negative, if_pos (signs.1 negative)] at same
    have absolute := Decimal.padded_injective (List.cons.inj same).2
    omega
  · rw [if_neg negative, if_neg (mt signs.2 negative)] at same
    have absolute := Decimal.padded_injective same
    omega

/-- The date in front of a name belongs to one day. -/
theorem day_eq_of_append {name back rest : Text} {day other : Nat}
    (same : datedName name day none ++ back = datedName name other none ++ rest) :
    day = other := by
  have inYear (year : Int) : '_' ∉ yearText year := not_mem_yearText rfl (by decide) year
  have inNumber (value : Nat) : '_' ∉ Decimal.padded 2 value := Decimal.not_mem_padded rfl 2 value
  obtain ⟨first, dated⟩ : ∃ date, Date.ofDays day = date := ⟨_, rfl⟩
  obtain ⟨second, datedToo⟩ : ∃ date, Date.ofDays other = date := ⟨_, rfl⟩
  simp only [datedName_eq dated, datedName_eq datedToo, List.append_assoc, List.cons_append] at same
  obtain ⟨years, same⟩ := Text.append_mark_inj (inYear _) (inYear _) same
  obtain ⟨months, same⟩ := Text.append_mark_inj (inNumber _) (inNumber _) same
  obtain ⟨days, -⟩ := Text.append_mark_inj (inNumber _) (inNumber _) same
  have dates : first = second :=
    Date.ext (yearText_injective years) (Decimal.padded_injective months)
      (Decimal.padded_injective days)
  exact Int.ofNat_inj.1 (Date.ofDays_injective (dated.trans (dates.trans datedToo.symm)))

/-- Files of a log that have one name are of one day, whatever number they end with. -/
theorem day_eq_of_datedName {name : Text} {day other : Nat} {part rest : Option Nat}
    (same : datedName name day part = datedName name other rest) : day = other := by
  obtain ⟨back, parts⟩ := exists_append_of_datedName name day part
  obtain ⟨behind, others⟩ := exists_append_of_datedName name other rest
  exact day_eq_of_append (by rw [← parts, same, others])

/-- Parts of a log have different names, of one day or of two. -/
theorem partName_injective {name : Text} {day other part rest : Nat}
    (same : partName name day part = partName name other rest) : day = other ∧ part = rest := by
  rw [partName_eq_append, partName_eq_append] at same
  obtain rfl := day_eq_of_append same
  exact ⟨rfl, partSuffix_injective (List.append_cancel_left same)⟩

/-- A part has a name in the directory of the log. -/
theorem slash_not_mem_partName {name : Text} (plain : '/' ∉ name) (day part : Nat) :
    '/' ∉ partName name day part := by
  have inSuffix : '/' ∉ partSuffix part := fun member => by
    cases part with
    | zero => cases member
    | succ part =>
        rcases List.mem_cons.1 member with dot | digit
        · cases dot
        · cases Decimal.isDigit_of_mem_digits digit
  have inYear (year : Int) : '/' ∉ yearText year := not_mem_yearText rfl (by decide) year
  have inNumber (value : Nat) : '/' ∉ Decimal.padded 2 value := Decimal.not_mem_padded rfl 2 value
  obtain ⟨date, dated⟩ : ∃ date, Date.ofDays day = date := ⟨_, rfl⟩
  simp [partName_eq dated, inYear, inNumber, plain, inSuffix]

/-! ## Groups of lines -/

/-- The lines of a day, in order. -/
def linesOf (entries : List (Nat × Text)) (day : Nat) : List Text :=
  (entries.filter fun entry => entry.1 == day).map Prod.snd

/-- The lines of one part, if so many come into each of them. -/
def group (size : Nat) (lines : List Text) (part : Nat) : List Text :=
  (lines.drop (part * size)).take size

/-- A day has a part if there are lines in it, and the log was opened with the first part of a
day. -/
def HasPart (size opened : Nat) (entries : List (Nat × Text)) (day part : Nat) : Prop :=
  part = 0 ∧ day = opened ∨ part * size < (linesOf entries day).length

variable {size opened today day part : Nat} {entries : List (Nat × Text)} {line : Text}

theorem linesOf_append_singleton (entries : List (Nat × Text)) (today : Nat) (line : Text)
    (day : Nat) :
    linesOf (entries ++ [(today, line)]) day =
      linesOf entries day ++ if day = today then [line] else [] := by
  by_cases same : day = today
  · simp [linesOf, same]
  · simp [linesOf, same, Ne.symm same]

theorem linesOf_eq_nil (other : ∀ entry ∈ entries, entry.1 ≠ day) : linesOf entries day = [] := by
  rw [linesOf, List.map_eq_nil_iff, List.filter_eq_nil_iff]
  exact fun entry member same => other entry member (eq_of_beq same)

/-- One line more is one line more in the last part, or the first one of a new part. -/
theorem group_append_singleton (positive : 0 < size) (lines : List Text) (line : Text)
    (part : Nat) :
    group size (lines ++ [line]) part =
      group size lines part ++ if part = lines.length / size then [line] else [] := by
  have lastPart : part = lines.length / size ↔
      part * size ≤ lines.length ∧ lines.length < part * size + size := by
    rw [eq_comm, Nat.div_eq_iff positive]
    have positions : (part + 1) * size = part * size + size := Nat.succ_mul part size
    omega
  by_cases behind : lines.length < part * size
  · rw [if_neg (by rw [lastPart]; omega), group, group, List.drop_eq_nil_of_le (by simpa),
      List.drop_eq_nil_of_le (Nat.le_of_lt behind), List.append_nil]
  rw [group, group, List.drop_append_of_le_length (by omega)]
  by_cases room : lines.length < part * size + size
  · rw [if_pos (lastPart.2 ⟨by omega, room⟩), List.take_of_length_le (by simp; omega),
      List.take_of_length_le (by simp; omega)]
  · rw [if_neg (by rw [lastPart]; omega), List.take_append_of_le_length (by simp; omega),
      List.append_nil]

/-- The part of the newest line gets this line, and no other part does. -/
theorem group_linesOf_append (positive : 0 < size) (entries : List (Nat × Text)) (today : Nat)
    (line : Text) (day part : Nat) :
    group size (linesOf (entries ++ [(today, line)]) day) part =
      group size (linesOf entries day) part ++
        if day = today ∧ part = (linesOf entries today).length / size then [line] else [] := by
  rw [linesOf_append_singleton]
  by_cases same : day = today
  · subst same
    rw [if_pos rfl, group_append_singleton positive]
    simp only [true_and]
  · rw [if_neg same, if_neg (fun both => same both.1), List.append_nil, List.append_nil]

/-- The part of the newest line is there, and those that were there before. -/
theorem hasPart_append (positive : 0 < size) :
    HasPart size opened (entries ++ [(today, line)]) day part ↔
      HasPart size opened entries day part ∨
        day = today ∧ part = (linesOf entries today).length / size := by
  by_cases same : day = today
  · subst same
    have room : part * size < (linesOf entries day).length + 1 ↔
        part * size < (linesOf entries day).length ∨
          part = (linesOf entries day).length / size := by
      rw [eq_comm, Nat.div_eq_iff positive]
      have positions : (part + 1) * size = part * size + size := Nat.succ_mul part size
      omega
    simp only [HasPart, linesOf_append_singleton, if_pos, List.length_append, List.length_singleton,
      room, true_and, or_assoc]
  · simp only [HasPart, linesOf_append_singleton, same, if_false, List.append_nil, false_and,
      or_false]

end LogFile

end FileServer
