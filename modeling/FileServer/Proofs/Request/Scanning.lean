import FileServer.Request.Line

/-!
# Scanning on

What a scan for the end of a line finds when more bytes arrive.  A line that was
found, or a broken one, stays what it is.  A scan that ran out of bytes stopped
at a place from which the next one goes on; a carriage return at the end was not
passed, so the byte behind it still decides.
-/

namespace FileServer.Line

/-- The same finding with more bytes in front. -/
def Scan.behind (count : Nat) : Scan → Scan
  | .complete length terminator => .complete (count + length) terminator
  | .malformed skipped => .malformed (count + skipped)
  | .unfinished skipped => .unfinished (count + skipped)

theorem Scan.shift_behind (count : Nat) (found : Scan) :
    (found.behind count).shift = found.behind (count + 1) := by
  cases found <;> simp only [behind, shift, Nat.add_right_comm]

@[simp] theorem Scan.behind_zero (found : Scan) : found.behind 0 = found := by
  cases found <;> simp [behind]

/-- A byte that ends no line is passed. -/
theorem scan_cons_of_plain {byte : UInt8} (notReturn : byte ≠ cr) (notFeed : byte ≠ lf)
    (rest : Bytes) : scan (byte :: rest) = (scan rest).shift := by
  simp only [scan, if_neg notReturn, if_neg notFeed]

/-- A scan that ran out of bytes goes on where it stopped. -/
theorem scan_append_of_unfinished {bytes : Bytes} {skipped : Nat}
    (found : scan bytes = .unfinished skipped) (more : Bytes) :
    scan (bytes ++ more) = (scan ((bytes ++ more).drop skipped)).behind skipped := by
  induction bytes generalizing skipped with
  | nil =>
      cases found
      simp
  | cons byte rest ih =>
      simp only [scan] at found
      split at found
      · split at found
        · cases found
          simp
        · split at found <;> cases found
      · next notReturn =>
          split at found
          · cases found
          · next notFeed =>
              cases scanned : scan rest with
              | complete | malformed => simp [scanned, Scan.shift] at found
              | unfinished inner =>
                  rw [scanned] at found
                  cases found
                  rw [List.cons_append, scan_cons_of_plain notReturn notFeed, ih scanned,
                    Scan.shift_behind, List.drop_succ_cons]

/-- What a scan has found does not depend on what follows. -/
theorem scan_append_of_found {bytes : Bytes} (found : ∀ skipped, scan bytes ≠ .unfinished skipped)
    (more : Bytes) : scan (bytes ++ more) = scan bytes := by
  induction bytes with
  | nil => exact (found 0 rfl).elim
  | cons byte rest ih =>
      simp only [List.cons_append, scan]
      split
      · next isReturn =>
          cases rest with
          | nil => exact (found 0 (by simp [scan, isReturn])).elim
          | cons next others => rfl
      · next notReturn =>
          split
          · rfl
          · next notFeed =>
              rw [ih]
              intro skipped scanned
              apply found (skipped + 1)
              rw [scan_cons_of_plain notReturn notFeed, scanned]
              rfl

end FileServer.Line
