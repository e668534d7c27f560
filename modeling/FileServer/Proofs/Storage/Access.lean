import FileServer.Storage.Slice
import FileServer.Text.Decimal

/-!
# Access that can fail

A program that keeps places in its storage as numbers can look outside of the storage, and it can
come to a number that no machine word holds.  Lists end by themselves and natural numbers have no
largest one, so a definition over them does neither.  The operations here take places and sums
as the machine does and say when it would stop.  A definition that is made of them, and that is
equal to one over lists and numbers, shows that the machine never stops there.
-/

namespace FileServer

/-- Why the machine stops. -/
inductive Fault where
  /-- A place that is outside of the storage, or inside of a character. -/
  | outside
  /-- A number that is no machine word. -/
  | overflow
  /-- A case that is taken to be impossible. -/
  | unforeseen
  deriving DecidableEq, Repr

namespace Access

/-- The entry at a place. -/
def entryAt {α : Type} (entries : List α) (place : Nat) : Except Fault α :=
  match entries[place]? with
  | some entry => .ok entry
  | none => .error .outside

/-- The bytes from one place up to another one. -/
def part (bytes : Bytes) (start stop : Nat) : Except Fault Bytes :=
  match slice? bytes start stop with
  | some bytes => .ok bytes
  | none => .error .outside

/-- The sum of two numbers. -/
def sum (left right : Nat) : Except Fault Nat :=
  if left + right < Decimal.wordBound then .ok (left + right) else .error .overflow

/-- A number as a machine word with a sign. -/
def signed (value : Int) : Except Fault Int :=
  if -0x8000000000000000 ≤ value ∧ value < 0x8000000000000000 then .ok value
  else .error .overflow

/-- A number as a word of half the size that has no sign. -/
def unsigned (value : Int) : Except Fault Nat :=
  if 0 ≤ value ∧ value < 0x100000000 then .ok value.toNat else .error .overflow

/-- A text from a place among its bytes on. -/
def textFrom (place : Nat) (text : Text) : Except Fault Text :=
  match text.dropBytes? place with
  | some back => .ok back
  | none => .error .outside

/-- A text up to a place among its bytes. -/
def textUpTo (place : Nat) (text : Text) : Except Fault Text :=
  match text.takeBytes? place with
  | some front => .ok front
  | none => .error .outside

/-- A step that does not fail hands on its result. -/
theorem ok_bind {α β : Type} (value : α) (next : α → Except Fault β) :
    (.ok value >>= next) = next value :=
  pure_bind value next

theorem entryAt_eq_ok {α : Type} {entries : List α} {place : Nat} {entry : α}
    (there : entries[place]? = some entry) : entryAt entries place = .ok entry := by
  rw [entryAt, there]

theorem part_eq_ok {bytes cut : Bytes} {start stop : Nat}
    (there : slice? bytes start stop = some cut) : part bytes start stop = .ok cut := by
  rw [part, there]

/-- The bytes between two places that are inside and in order. -/
theorem part_of_le {bytes : Bytes} {start stop : Nat} (ordered : start ≤ stop)
    (inside : stop ≤ bytes.length) :
    part bytes start stop = .ok ((bytes.drop start).take (stop - start)) :=
  part_eq_ok (if_pos ⟨ordered, inside⟩)

theorem sum_of_lt {left right : Nat} (small : left + right < Decimal.wordBound) :
    sum left right = .ok (left + right) :=
  if_pos small

/-- A sum is formed, or it is no machine word. -/
theorem sum_cases (left right : Nat) :
    sum left right = .ok (left + right) ∨
      sum left right = .error .overflow ∧ Decimal.wordBound ≤ left + right := by
  unfold sum
  split
  · exact .inl rfl
  · next large => exact .inr ⟨rfl, Nat.le_of_not_lt large⟩

theorem signed_eq_ok {value : Int}
    (within : -0x8000000000000000 ≤ value ∧ value < 0x8000000000000000) :
    signed value = .ok value :=
  if_pos within

theorem unsigned_eq_ok {value : Int} (within : 0 ≤ value ∧ value < 0x100000000) :
    unsigned value = .ok value.toNat :=
  if_pos within

/-! ## Places of characters -/

/-- The place of the first occurrence of a character, counted in bytes. -/
def placeOf? (mark : Char) : Text → Option Nat
  | [] => none
  | char :: rest => if char = mark then some 0 else (placeOf? mark rest).map (char.utf8Size + ·)

theorem takeBytes?_add (char : Char) (rest : Text) (place : Nat) :
    Text.takeBytes? (char.utf8Size + place) (char :: rest) =
      (Text.takeBytes? place rest).map (char :: ·) := by
  obtain ⟨size, sized⟩ := Nat.exists_eq_succ_of_ne_zero (Nat.ne_of_gt char.utf8Size_pos)
  rw [sized, Nat.succ_add, Text.takeBytes?, if_pos (by omega), sized]
  congr 2
  omega

theorem dropBytes?_add (char : Char) (rest : Text) (place : Nat) :
    Text.dropBytes? (char.utf8Size + place) (char :: rest) = Text.dropBytes? place rest := by
  obtain ⟨size, sized⟩ := Nat.exists_eq_succ_of_ne_zero (Nat.ne_of_gt char.utf8Size_pos)
  rw [sized, Nat.succ_add, Text.dropBytes?, if_pos (by omega), sized]
  congr 1
  omega

/-- A character occurs, and its place cuts the text there, or every character is another one. -/
theorem placeOf?_cases (mark : Char) (text : Text) :
    placeOf? mark text = none ∧ text.dropWhile (· != mark) = [] ∧
        text.takeWhile (· != mark) = text ∨
      ∃ place, placeOf? mark text = some place ∧
        text.dropBytes? place = some (text.dropWhile (· != mark)) ∧
        text.takeBytes? place = some (text.takeWhile (· != mark)) ∧
        text.dropWhile (· != mark) ≠ [] := by
  induction text with
  | nil => exact .inl ⟨rfl, rfl, rfl⟩
  | cons char rest ih =>
      by_cases found : char = mark
      · refine .inr ⟨0, ?_⟩
        simp [placeOf?, Text.takeBytes?, Text.dropBytes?, found]
      · have passed : (char != mark) = true := by simpa using found
        simp only [placeOf?, found, List.dropWhile_cons, List.takeWhile_cons, passed, ↓reduceIte]
        rcases ih with ⟨none, empty, whole⟩ | ⟨place, there, back, front, nonempty⟩
        · exact .inl ⟨by rw [none]; rfl, empty, by rw [whole]⟩
        · refine .inr ⟨char.utf8Size + place, by rw [there]; rfl, ?_, ?_, nonempty⟩
          · rw [dropBytes?_add, back]
          · rw [takeBytes?_add, front]
            rfl

end Access

end FileServer
