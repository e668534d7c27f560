import FileServer.Response.Head

/-!
# Appending to an answer

A buffer that holds some bytes takes further pieces as a whole or not at all.
The test is one comparison: whether the bytes held and all pieces together are
more than the capacity.  Status line, header section and body are such pieces.
-/

namespace FileServer.Buffer

/-- The bytes in use are the given ones, and all of them lie inside the cells. -/
structure Holds (buffer : Buffer) (bytes : Bytes) : Prop where
  contents : buffer.contents = bytes
  used : buffer.used = bytes.length

theorem Holds.used_le {buffer : Buffer} {bytes : Bytes} (holds : buffer.Holds bytes) :
    buffer.used ≤ buffer.capacity := by
  have lengths := congrArg List.length holds.contents
  rw [← holds.used, Buffer.contents, List.length_take] at lengths
  simp only [capacity]
  omega

/-- What is not in use is left. -/
theorem Holds.length_add_room {buffer : Buffer} {bytes : Bytes} (holds : buffer.Holds bytes) :
    bytes.length + buffer.room = buffer.capacity := by
  have inside := holds.used_le
  rw [room, ← holds.used]
  omega

theorem holds_clear (buffer : Buffer) : buffer.clear.Holds [] where
  contents := contents_clear buffer
  used := rfl

/-! ## Filling cells -/

@[simp] theorem length_fill (cells : Bytes) (offset : Nat) (pieces : List Bytes) :
    (fill cells offset pieces).1.length = cells.length := by
  induction pieces generalizing cells offset with
  | nil => rfl
  | cons piece pieces ih =>
      simp only [fill]
      split
      · rw [ih, length_overwrite]
      · rw [length_overwrite]

/-- Pieces that fit are written one behind the other. -/
theorem fill_of_fits {cells : Bytes} {offset : Nat} {pieces : List Bytes}
    (fits : offset + pieces.flatten.length ≤ cells.length) :
    (fill cells offset pieces).2 = some (offset + pieces.flatten.length) ∧
      (fill cells offset pieces).1.take (offset + pieces.flatten.length) =
        cells.take offset ++ pieces.flatten := by
  induction pieces generalizing cells offset with
  | nil => simp [fill]
  | cons piece pieces ih =>
      rw [List.flatten_cons, List.length_append] at fits
      have first : offset + piece.length ≤ cells.length := by omega
      have others : offset + piece.length + pieces.flatten.length ≤
          (overwrite cells offset piece).length := by
        rw [length_overwrite]
        omega
      obtain ⟨stop, written⟩ := ih others
      rw [take_overwrite_end first] at written
      simp only [fill, if_pos first, List.flatten_cons, List.length_append]
      rw [← Nat.add_assoc]
      exact ⟨stop, by rw [written, List.append_assoc]⟩

/-- Pieces that do not fit leave the cells in front of them alone. -/
theorem fill_of_overflow {cells : Bytes} {offset : Nat} {pieces : List Bytes}
    (tooLong : cells.length < offset + pieces.flatten.length) (inside : offset ≤ cells.length) :
    (fill cells offset pieces).2 = none ∧
      (fill cells offset pieces).1.take offset = cells.take offset := by
  induction pieces generalizing cells offset with
  | nil =>
      simp only [List.flatten_nil, List.length_nil] at tooLong
      omega
  | cons piece pieces ih =>
      rw [List.flatten_cons, List.length_append] at tooLong
      simp only [fill]
      split
      · next first =>
          have written : (overwrite cells offset piece).take offset = cells.take offset :=
            take_overwrite (Nat.le_refl offset)
          obtain ⟨stop, kept⟩ := @ih (overwrite cells offset piece) (offset + piece.length)
            (by rw [length_overwrite]; omega) (by rw [length_overwrite]; exact first)
          refine ⟨stop, ?_⟩
          have shorter := congrArg (List.take offset) kept
          rw [List.take_take, List.take_take, Nat.min_eq_left (Nat.le_add_right offset _)]
            at shorter
          exact shorter.trans written
      · exact ⟨rfl, take_overwrite (Nat.le_refl offset)⟩

/-! ## Appending pieces -/

theorem Holds.append_of_fits {buffer : Buffer} {bytes : Bytes} {pieces : List Bytes}
    (holds : buffer.Holds bytes)
    (fits : (bytes ++ pieces.flatten).length ≤ buffer.capacity) :
    ∃ next, buffer.append pieces = (true, next) ∧ next.Holds (bytes ++ pieces.flatten) ∧
      next.capacity = buffer.capacity := by
  rw [List.length_append, ← holds.used] at fits
  obtain ⟨stop, written⟩ := fill_of_fits fits
  have filled : fill buffer.cells buffer.used pieces =
      ((fill buffer.cells buffer.used pieces).1,
        some (buffer.used + pieces.flatten.length)) := by
    rw [← stop]
  refine ⟨⟨(fill buffer.cells buffer.used pieces).1, buffer.used + pieces.flatten.length⟩,
    by rw [append, filled], ⟨?_, ?_⟩, length_fill buffer.cells buffer.used pieces⟩
  · rw [Buffer.contents, written]
    exact congrArg (· ++ pieces.flatten) holds.contents
  · simp only [List.length_append, holds.used]

/-- Pieces that do not fit leave the bytes in use alone. -/
theorem Holds.append_of_overflow {buffer : Buffer} {bytes : Bytes} {pieces : List Bytes}
    (holds : buffer.Holds bytes)
    (tooLong : buffer.capacity < (bytes ++ pieces.flatten).length) :
    ∃ next, buffer.append pieces = (false, next) ∧ next.Holds bytes ∧
      next.capacity = buffer.capacity := by
  rw [List.length_append, ← holds.used] at tooLong
  obtain ⟨stop, kept⟩ := fill_of_overflow tooLong holds.used_le
  have filled : fill buffer.cells buffer.used pieces =
      ((fill buffer.cells buffer.used pieces).1, none) := by
    rw [← stop]
  refine ⟨{ buffer with cells := (fill buffer.cells buffer.used pieces).1 },
    by rw [append, filled], ⟨?_, holds.used⟩, length_fill buffer.cells buffer.used pieces⟩
  rw [Buffer.contents, kept]
  exact holds.contents

/-- What an accepted call has appended. -/
theorem Holds.append_true {buffer next : Buffer} {bytes : Bytes} {pieces : List Bytes}
    (holds : buffer.Holds bytes) (accepted : buffer.append pieces = (true, next)) :
    next.Holds (bytes ++ pieces.flatten) := by
  rcases Nat.lt_or_ge buffer.capacity (bytes ++ pieces.flatten).length with tooLong | fits
  · obtain ⟨other, refused, -⟩ := holds.append_of_overflow tooLong
    cases accepted.symm.trans refused
  · obtain ⟨other, appended, stays, -⟩ := holds.append_of_fits fits
    cases accepted.symm.trans appended
    exact stays

/-- Two parts are accepted if each of them is. -/
theorem andThen_true {first : Bool × Buffer} {second : Buffer → Bool × Buffer} {next : Buffer}
    (accepted : andThen first second = (true, next)) :
    ∃ middle, first = (true, middle) ∧ second middle = (true, next) := by
  obtain ⟨done, middle⟩ := first
  cases done with
  | false => cases accepted
  | true => exact ⟨middle, rfl, accepted⟩

/-- An accepted head is behind what was there. -/
theorem Holds.appendHead_true {buffer next : Buffer} {bytes : Bytes} {status : Status}
    {bodyLength : Nat} {keepAlive : Bool} (holds : buffer.Holds bytes)
    (accepted : buffer.appendHead status bodyLength keepAlive = (true, next)) :
    next.Holds (bytes ++ Response.head status bodyLength keepAlive) := by
  obtain ⟨middle, first, second⟩ := andThen_true accepted
  rw [Response.head, ← List.append_assoc]
  exact (holds.append_true first).append_true second

/-- An accepted error answer is behind what was there. -/
theorem Holds.appendError_true {buffer next : Buffer} {bytes : Bytes} {status : Status}
    {keepAlive : Bool} (holds : buffer.Holds bytes)
    (accepted : buffer.appendError status keepAlive = (true, next)) :
    next.Holds (bytes ++ Response.errorAnswer status keepAlive) := by
  obtain ⟨middle, first, second⟩ := andThen_true accepted
  have appended := (holds.appendHead_true first).append_true second
  rw [List.flatten_cons, List.flatten_nil, List.append_nil] at appended
  rwa [Response.errorAnswer, ← List.append_assoc]

/-- Two parts that fit are accepted. -/
theorem Holds.appendHead_of_fits {buffer : Buffer} {bytes : Bytes} {status : Status}
    {bodyLength : Nat} {keepAlive : Bool} (holds : buffer.Holds bytes)
    (fits : (bytes ++ Response.head status bodyLength keepAlive).length ≤ buffer.capacity) :
    ∃ next, buffer.appendHead status bodyLength keepAlive = (true, next) ∧
      next.Holds (bytes ++ Response.head status bodyLength keepAlive) ∧
      next.capacity = buffer.capacity := by
  rw [Response.head, ← List.append_assoc] at fits ⊢
  have front := fits
  rw [List.length_append] at front
  obtain ⟨middle, first, between, size⟩ := holds.append_of_fits (Nat.le_of_add_right_le front)
  obtain ⟨next, second, behind, sizeToo⟩ := between.append_of_fits (size ▸ fits)
  exact ⟨next, by rw [appendHead, appendStatusLine, first]; exact second, behind,
    sizeToo.trans size⟩

theorem Holds.appendError_of_fits {buffer : Buffer} {bytes : Bytes} {status : Status}
    {keepAlive : Bool} (holds : buffer.Holds bytes)
    (fits : (bytes ++ Response.errorAnswer status keepAlive).length ≤ buffer.capacity) :
    ∃ next, buffer.appendError status keepAlive = (true, next) := by
  rw [Response.errorAnswer, ← List.append_assoc] at fits
  have front := fits
  rw [List.length_append] at front
  obtain ⟨middle, first, between, size⟩ := holds.appendHead_of_fits (Nat.le_of_add_right_le front)
  have all : (bytes ++ Response.head status (Response.errorBody status).length keepAlive ++
      [Response.errorBody status].flatten).length ≤ middle.capacity := by
    rwa [List.flatten_singleton, size]
  obtain ⟨next, second, -⟩ := between.append_of_fits all
  exact ⟨next, by rw [appendError, first]; exact second⟩

end FileServer.Buffer

/-! ## Answers fit -/

namespace FileServer

/-- A character has four bytes at most. -/
theorem Text.byteSize_le (text : Text) : text.byteSize ≤ 4 * text.length := by
  induction text with
  | nil => exact Nat.le_refl 0
  | cons char rest ih =>
      have size := char.utf8Size_le_four
      simp only [byteSize, List.foldr_cons, List.length_cons] at ih ⊢
      omega

namespace Response

/-- The head of an answer with a file fits, if the length of the file is a machine
word. -/
theorem length_head_le {bodyLength : Nat} (small : bodyLength < Decimal.wordBound)
    (keepAlive : Bool) : (head .ok bodyLength keepAlive).length ≤ defaultCapacity := by
  have digits : (Decimal.digits bodyLength).length ≤ 20 := by
    refine (Nat.length_toDigits_le_iff (by decide) (by decide)).2 (Nat.lt_of_lt_of_le small ?_)
    decide
  have number : (Text.bytes (Decimal.digits bodyLength)).length ≤ 80 := by
    have size := Text.byteSize_le (Decimal.digits bodyLength)
    rw [Text.length_bytes]
    omega
  have token : (utf8 (connectionToken keepAlive)).length ≤ 10 := by cases keepAlive <;> decide
  have line : (statusLine .ok).flatten.length = 17 := by decide +kernel
  have before : (utf8 "Content-Length: ").length = 16 := by decide
  have between : (utf8 "\r\nContent-Type: text/html\r\nConnection: ").length = 39 := by decide
  have behind : (utf8 "\r\n\r\n").length = 4 := by decide
  simp only [head, headers, List.length_append, List.flatten_cons, List.flatten_nil,
    List.length_nil, line, before, between, behind, defaultCapacity]
  omega

theorem length_errorAnswer_le (status : Status) (keepAlive : Bool) :
    (errorAnswer status keepAlive).length ≤ defaultCapacity := by
  cases status <;> cases keepAlive <;> decide +kernel

end Response

end FileServer
