import FileServer.Text.Basic

/-!
# Lines of a request

A line ends at a line feed, or at a carriage return with a line feed behind it.
A carriage return before any other byte is an error.  A carriage return that is
the last byte received decides nothing yet: the scan stops in front of it.
-/

namespace FileServer.Line

/-- Carriage return. -/
def cr : UInt8 := 13

/-- Line feed. -/
def lf : UInt8 := 10

/-- What a scan for the end of a line finds.  The number is how many bytes lie
before the place where the scan stopped. -/
inductive Scan where
  /-- A line, without the `terminator` bytes that end it. -/
  | complete (length terminator : Nat)
  /-- A carriage return with something else than a line feed behind it. -/
  | malformed (skipped : Nat)
  /-- No end so far. -/
  | unfinished (skipped : Nat)
  deriving DecidableEq, Repr

/-- The same finding with one more byte in front. -/
def Scan.shift : Scan → Scan
  | .complete length terminator => .complete (length + 1) terminator
  | .malformed skipped => .malformed (skipped + 1)
  | .unfinished skipped => .unfinished (skipped + 1)

/-- Scans for the end of the first line. -/
def scan : Bytes → Scan
  | [] => .unfinished 0
  | byte :: rest =>
      if byte = cr then
        match rest with
        | [] => .unfinished 0
        | next :: _ => if next = lf then .complete 0 2 else .malformed 0
      else if byte = lf then
        .complete 0 1
      else
        (scan rest).shift

/-- A complete line and its terminator lie inside the bytes scanned. -/
theorem scan_complete {bytes : Bytes} {length terminator : Nat}
    (found : scan bytes = .complete length terminator) :
    0 < terminator ∧ length + terminator ≤ bytes.length := by
  induction bytes generalizing length with
  | nil => simp [scan] at found
  | cons byte rest ih =>
      simp only [scan] at found
      split at found
      · split at found
        · cases found
        · split at found
          · cases found
            simp
          · cases found
      · split at found
        · cases found
          simp
        · cases scanned : scan rest with
          | complete inner ending =>
              simp only [scanned, Scan.shift, Scan.complete.injEq] at found
              obtain ⟨rfl, rfl⟩ := found
              have := ih scanned
              simp only [List.length_cons]
              omega
          | malformed skipped => simp [scanned, Scan.shift] at found
          | unfinished skipped => simp [scanned, Scan.shift] at found

/-- A scan never stops beyond the end. -/
theorem scan_unfinished {bytes : Bytes} {skipped : Nat}
    (found : scan bytes = .unfinished skipped) : skipped ≤ bytes.length := by
  induction bytes generalizing skipped with
  | nil =>
      simp only [scan, Scan.unfinished.injEq] at found
      omega
  | cons byte rest ih =>
      simp only [scan] at found
      split at found
      · split at found
        · cases found
          simp
        · split at found <;> cases found
      · split at found
        · cases found
        · cases scanned : scan rest with
          | complete inner ending => simp [scanned, Scan.shift] at found
          | malformed inner => simp [scanned, Scan.shift] at found
          | unfinished inner =>
              simp only [scanned, Scan.shift, Scan.unfinished.injEq] at found
              have := ih scanned
              simp only [List.length_cons]
              omega

end FileServer.Line
