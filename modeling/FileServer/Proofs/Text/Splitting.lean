import FileServer.Text.Basic

/-!
# Pieces and words

Splitting a text at one of its separators splits the two sides apart, and a text
without separators is one piece.  Everything about pieces and words follows from
these two equations.

The relation `Spells` says what it means that a text consists of some words: it
builds the text from words and separators, so it says so without splitting.
-/

namespace FileServer.Text

variable {separator : Char → Bool}

/-- No character of a text is a separator. -/
def Plain (separator : Char → Bool) (text : Text) : Prop :=
  ∀ char ∈ text, separator char = false

/-- A text has no separator, or it has a first one. -/
theorem plain_or_exists (separator : Char → Bool) (text : Text) :
    Plain separator text ∨ ∃ front mark back, text = front ++ mark :: back ∧
      Plain separator front ∧ separator mark = true := by
  induction text with
  | nil => exact .inl (by simp [Plain])
  | cons char rest ih =>
      cases marked : separator char with
      | true => exact .inr ⟨[], char, rest, rfl, by simp [Plain], marked⟩
      | false =>
          rcases ih with plain | ⟨front, mark, back, rfl, plain, isMark⟩
          · exact .inl (List.forall_mem_cons.2 ⟨marked, plain⟩)
          · exact .inr ⟨char :: front, mark, back, rfl, List.forall_mem_cons.2 ⟨marked, plain⟩,
              isMark⟩

/-- The part of a text in front of the first mark. -/
theorem takeWhile_ne_eq_iff {mark : Char} {text front : Text} :
    text.takeWhile (· != mark) = front ↔
      mark ∉ front ∧ (text = front ∨ ∃ back, text = front ++ mark :: back) := by
  have stops : ∀ {front : Text}, mark ∉ front → ∀ rest : Text,
      (front ++ rest).takeWhile (· != mark) = front ++ rest.takeWhile (· != mark) := by
    intro front absent rest
    apply List.takeWhile_append_of_pos
    intro char member
    rw [bne_iff_ne]
    exact fun same => absent (same ▸ member)
  constructor
  · rintro rfl
    rcases plain_or_exists (· == mark) text with plain | ⟨front, char, back, rfl, plain, isMark⟩
    · have absent : mark ∉ text := fun member => by simpa using plain mark member
      have whole := stops absent []
      rw [List.append_nil, List.takeWhile_nil, List.append_nil] at whole
      rw [whole]
      exact ⟨absent, .inl rfl⟩
    · rw [beq_iff_eq] at isMark
      subst isMark
      have absent : char ∉ front := fun member => by simpa using plain char member
      rw [stops absent, List.takeWhile_cons_of_neg (by simp), List.append_nil]
      exact ⟨absent, .inr ⟨back, rfl⟩⟩
  · rintro ⟨absent, rfl | ⟨back, rfl⟩⟩
    · have whole := stops absent []
      rwa [List.append_nil, List.takeWhile_nil, List.append_nil] at whole
    · rw [stops absent, List.takeWhile_cons_of_neg (by simp), List.append_nil]

/-! ## Pieces -/

/-- A text without separators is one piece. -/
theorem splitAt_of_plain {text : Text} (plain : Plain separator text) :
    splitAt separator text = [text] := by
  induction text with
  | nil => rfl
  | cons char rest ih =>
      obtain ⟨unmarked, plainRest⟩ := List.forall_mem_cons.1 plain
      simp [splitAt, unmarked, ih plainRest]

/-- A separator splits its two sides apart. -/
theorem splitAt_append_cons {mark : Char} (isMark : separator mark = true) (front back : Text) :
    splitAt separator (front ++ mark :: back) =
      splitAt separator front ++ splitAt separator back := by
  induction front with
  | nil => simp [splitAt, isMark]
  | cons char front ih =>
      simp only [List.cons_append, splitAt, ih]
      split
      · rfl
      · cases pieces : splitAt separator front with
        | nil => exact (splitAt_ne_nil separator front pieces).elim
        | cons piece others => rfl

/-- A part of a text that stands between separators or ends of the text. -/
structure Segment (separator : Char → Bool) (text piece : Text) : Prop where
  plain : Plain separator piece
  between : ∃ front back, text = front ++ piece ++ back ∧
    (front = [] ∨ ∃ before mark, front = before ++ [mark] ∧ separator mark = true) ∧
    (back = [] ∨ ∃ mark after, back = mark :: after ∧ separator mark = true)

/-- The pieces of a text are its segments. -/
theorem mem_splitAt_iff {text piece : Text} :
    piece ∈ splitAt separator text ↔ Segment separator text piece := by
  constructor
  · intro member
    induction size : text.length using Nat.strongRecOn generalizing text with
    | ind count ih =>
        rcases plain_or_exists separator text with plain | ⟨front, mark, back, rfl, plain, isMark⟩
        · rw [splitAt_of_plain plain, List.mem_singleton] at member
          subst member
          exact ⟨plain, [], [], by simp, .inl rfl, .inl rfl⟩
        · rw [splitAt_append_cons isMark, splitAt_of_plain plain, List.mem_append,
            List.mem_singleton] at member
          rcases member with rfl | member
          · exact ⟨plain, [], mark :: back, by simp, .inl rfl, .inr ⟨mark, back, rfl, isMark⟩⟩
          · have shorter : back.length < count := by
              rw [← size, List.length_append, List.length_cons]
              omega
            obtain ⟨plainPiece, before, after, rfl, starts, ends⟩ := ih _ shorter member rfl
            refine ⟨plainPiece, front ++ mark :: before, after, by simp, .inr ?_, ends⟩
            rcases starts with rfl | ⟨others, last, rfl, isLast⟩
            · exact ⟨front, mark, rfl, isMark⟩
            · exact ⟨front ++ mark :: others, last, by simp, isLast⟩
  · rintro ⟨plain, front, back, rfl, starts, ends⟩
    have inFront : piece ∈ splitAt separator (piece ++ back) := by
      rcases ends with rfl | ⟨mark, after, rfl, isMark⟩
      · rw [List.append_nil, splitAt_of_plain plain]
        exact List.mem_cons_self
      · rw [splitAt_append_cons isMark, splitAt_of_plain plain]
        exact List.mem_cons_self
    rcases starts with rfl | ⟨before, mark, rfl, isMark⟩
    · exact inFront
    · rw [List.append_assoc, List.append_assoc, List.singleton_append,
        splitAt_append_cons isMark]
      exact List.mem_append_right _ inFront

/-! ## Words -/

/-- A separator splits the words on its two sides apart. -/
theorem words_append_cons {mark : Char} (isMark : separator mark = true) (front back : Text) :
    words separator (front ++ mark :: back) =
      words separator front ++ words separator back := by
  rw [words, splitAt_append_cons isMark, List.filter_append]
  rfl

/-- A text without separators is one word, unless it is empty. -/
theorem words_of_plain {text : Text} (plain : Plain separator text) (nonempty : text ≠ []) :
    words separator text = [text] := by
  rw [words, splitAt_of_plain plain]
  simp [nonempty]

/-- A text that consists of the given words, with any number of separators around
them and at least one between two of them. -/
inductive Spells (separator : Char → Bool) : Text → List Text → Prop
  | nil : Spells separator [] []
  | gap {mark : Char} {text : Text} {words : List Text} (isMark : separator mark = true)
      (rest : Spells separator text words) : Spells separator (mark :: text) words
  | last {word : Text} (nonempty : word ≠ []) (plain : Plain separator word) :
      Spells separator word [word]
  | word {mark : Char} {word text : Text} {words : List Text} (nonempty : word ≠ [])
      (plain : Plain separator word) (isMark : separator mark = true)
      (rest : Spells separator text words) :
      Spells separator (word ++ mark :: text) (word :: words)

/-- Every text consists of some words. -/
theorem exists_spells (separator : Char → Bool) (text : Text) :
    ∃ words, Spells separator text words := by
  induction size : text.length using Nat.strongRecOn generalizing text with
  | ind count ih =>
      rcases plain_or_exists separator text with plain | ⟨front, mark, back, rfl, plain, isMark⟩
      · cases text with
        | nil => exact ⟨[], .nil⟩
        | cons char rest => exact ⟨[char :: rest], .last (List.cons_ne_nil char rest) plain⟩
      · have shorter : back.length < count := by
          rw [← size, List.length_append, List.length_cons]
          omega
        obtain ⟨words, rest⟩ := ih _ shorter back rfl
        cases front with
        | nil => exact ⟨words, .gap isMark rest⟩
        | cons char front =>
            exact ⟨(char :: front) :: words,
              .word (List.cons_ne_nil char front) plain isMark rest⟩

/-- A text consists of no other words than its own. -/
theorem Spells.words_eq {text : Text} {spelled : List Text}
    (spells : Spells separator text spelled) : words separator text = spelled := by
  induction spells with
  | nil => rfl
  | gap isMark _ ih => rw [← List.nil_append (_ :: _), words_append_cons isMark, ih]; rfl
  | last nonempty plain => exact words_of_plain plain nonempty
  | word nonempty plain isMark _ ih =>
      rw [words_append_cons isMark, words_of_plain plain nonempty, ih, List.singleton_append]

/-- No word that a text consists of has a separator. -/
theorem Spells.plain {text word : Text} {words : List Text} (spells : Spells separator text words)
    (member : word ∈ words) : Plain separator word := by
  induction spells with
  | nil => cases member
  | gap _ _ ih => exact ih member
  | last _ plain =>
      rw [List.mem_singleton] at member
      exact member ▸ plain
  | word _ plain _ _ ih =>
      rcases List.mem_cons.1 member with rfl | later
      · exact plain
      · exact ih later

/-- The words of a text are those that it consists of. -/
theorem words_eq_iff {text : Text} {spelled : List Text} :
    words separator text = spelled ↔ Spells separator text spelled := by
  constructor
  · rintro rfl
    obtain ⟨words, spells⟩ := exists_spells separator text
    rwa [spells.words_eq]
  · exact Spells.words_eq

end FileServer.Text
