import FileServer.Report.Tally

/-!
# What tallies count

A tally is kept as a list in ascending order, and a number is looked up in it.  The order is
what makes looking up right: a number that is inserted before a greater one does not stand
behind it a second time.
-/

namespace FileServer

namespace Tally

/-- The tally of numbers that came up. -/
def ofNumbers (numbers : List Nat) : Tally :=
  numbers.foldr (fun number tally => tally.add number) empty

/-- The numbers of a tally stand in ascending order. -/
def Ascends (tally : Tally) : Prop :=
  tally.counts.Pairwise fun early late => early.1 < late.1

/-- Counting a number keeps the others where they are. -/
theorem mem_increment {number : Nat} {counts : List (Nat × Nat)} {entry : Nat × Nat}
    (member : entry ∈ increment number counts) :
    entry.1 = number ∨ entry ∈ counts := by
  induction counts with
  | nil =>
      simp only [increment, List.mem_singleton] at member
      exact .inl (member ▸ rfl)
  | cons first rest ih =>
      simp only [increment] at member
      split at member
      · rcases List.mem_cons.1 member with rfl | old
        · exact .inl rfl
        · exact .inr old
      · split at member
        · next same =>
            rcases List.mem_cons.1 member with rfl | old
            · exact .inl same.symm
            · exact .inr (List.mem_cons_of_mem first old)
        · rcases List.mem_cons.1 member with rfl | old
          · exact .inr List.mem_cons_self
          · exact (ih old).imp_right (List.mem_cons_of_mem first)

theorem Ascends.add {tally : Tally} (ascends : tally.Ascends) (number : Nat) :
    (tally.add number).Ascends := by
  obtain ⟨counts⟩ := tally
  simp only [Ascends, Tally.add] at ascends ⊢
  induction counts with
  | nil => exact List.pairwise_singleton _ _
  | cons first rest ih =>
      obtain ⟨least, ordered⟩ := List.pairwise_cons.1 ascends
      simp only [increment]
      split
      · next less =>
          refine List.pairwise_cons.2 ⟨fun entry member => ?_, ascends⟩
          rcases List.mem_cons.1 member with rfl | old
          · exact less
          · exact Nat.lt_trans less (least entry old)
      · next notLess =>
          split
          · exact List.pairwise_cons.2 ⟨least, ordered⟩
          · next differ =>
              refine List.pairwise_cons.2 ⟨fun entry member => ?_, ih ordered⟩
              rcases mem_increment member with same | old
              · dsimp only
                omega
              · exact least entry old

theorem count_cons (number value other : Nat) (rest : List (Nat × Nat)) :
    (mk ((number, value) :: rest)).count other =
      if other = number then value else (mk rest).count other := by
  simp only [count, List.lookup_cons]
  split
  · next same => rw [if_pos (beq_iff_eq.1 same), Option.getD_some]
  · next differ => rw [if_neg (beq_eq_false_iff_ne.1 differ)]

/-- A number below all others did not come up. -/
theorem count_of_lt {counts : List (Nat × Nat)} {number : Nat}
    (below : ∀ entry ∈ counts, number < entry.1) : (mk counts).count number = 0 := by
  induction counts with
  | nil => rfl
  | cons first rest ih =>
      have less := below first List.mem_cons_self
      rw [count_cons, if_neg (by omega), ih fun entry member =>
        below entry (List.mem_cons_of_mem first member)]

/-- Counting a number counts this one once more and no other. -/
theorem Ascends.count_add {tally : Tally} (ascends : tally.Ascends) (number other : Nat) :
    (tally.add number).count other = tally.count other + if number = other then 1 else 0 := by
  obtain ⟨counts⟩ := tally
  simp only [Ascends, Tally.add] at ascends ⊢
  induction counts with
  | nil =>
      rw [increment, count_cons]
      simp only [eq_comm, count, List.lookup_nil, Option.getD_none, Nat.zero_add]
  | cons first rest ih =>
      obtain ⟨held, value⟩ := first
      obtain ⟨least, ordered⟩ := List.pairwise_cons.1 ascends
      simp only [increment]
      split
      · next less =>
          rw [count_cons]
          split
          · next same =>
              have absent : (mk ((held, value) :: rest)).count other = 0 := by
                refine count_of_lt fun entry member => ?_
                rcases List.mem_cons.1 member with rfl | old
                · exact same ▸ less
                · exact same ▸ Nat.lt_trans less (least entry old)
              rw [absent, if_pos same.symm]
          · next differ => rw [if_neg (Ne.symm differ), Nat.add_zero]
      · split
        · next same =>
            subst same
            rw [count_cons, count_cons]
            split
            · next mine => rw [if_pos mine.symm]
            · next differ => rw [if_neg (Ne.symm differ), Nat.add_zero]
        · next differ =>
            rw [count_cons, count_cons, ih ordered]
            split
            · next mine => rw [if_neg (mine ▸ differ), Nat.add_zero]
            · rfl

theorem ascends_ofNumbers (numbers : List Nat) : (ofNumbers numbers).Ascends := by
  induction numbers with
  | nil => exact List.Pairwise.nil
  | cons number rest ih => exact ih.add number

/-- A tally counts how often each number came up. -/
theorem count_ofNumbers (numbers : List Nat) (number : Nat) :
    (ofNumbers numbers).count number = numbers.count number := by
  induction numbers with
  | nil => rfl
  | cons first rest ih =>
      change ((ofNumbers rest).add first).count number = _
      rw [(ascends_ofNumbers rest).count_add, ih, List.count_cons]
      simp only [beq_iff_eq]

theorem total_ofNumbers (numbers : List Nat) : (ofNumbers numbers).total = numbers.length := by
  induction numbers with
  | nil => rfl
  | cons first rest ih => exact (total_add (ofNumbers rest) first).trans (congrArg (· + 1) ih)

end Tally

end FileServer
