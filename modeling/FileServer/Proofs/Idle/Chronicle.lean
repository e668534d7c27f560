import FileServer.Proofs.Idle.Schedule

/-!
# Chronicles of a list of timers

What is to be said of a timer can depend on what was done long ago: which operation gave
it its deadline, and whether it was removed since it was added.  A chronicle is a list
of timers with every operation that was done to it, each with the sequence that it found
and with what it returned.  The last operation stands in front, so that the operations
before one are those behind it.
-/

namespace FileServer.Timers

variable {α : Type}

/-- An operation that was done: the sequence that it found, and what it returned. -/
structure Moment (α : Type) where
  before : List (Waiting α)
  operation : Operation α
  answer : Answer α
  deriving Repr

/-- A list of timers, and all that was done to it. -/
structure Chronicle (α : Type) where
  timers : Timers α
  /-- The last operation is the first one here. -/
  past : List (Moment α)
  deriving Repr

namespace Chronicle

/-- Nothing was done yet. -/
def start : Chronicle α :=
  ⟨empty, []⟩

/-- Does one operation and writes it down. -/
def perform? (chronicle : Chronicle α) (operation : Operation α) : Option (Chronicle α) := do
  let before ← chronicle.timers.schedule?
  let (answer, next) ← chronicle.timers.perform? operation
  return ⟨next, ⟨before, operation, answer⟩ :: chronicle.past⟩

/-- The chronicle of operations that are done one after the other. -/
def of? (operations : List (Operation α)) : Option (Chronicle α) :=
  operations.foldlM perform? start

theorem perform?_eq {chronicle : Chronicle α} {order : List Nat} {operation : Operation α}
    {answer : Answer α} {next : Timers α} (keeps : chronicle.timers.Keeps order)
    (done : chronicle.timers.perform? operation = some (answer, next)) :
    chronicle.perform? operation =
      some ⟨next, ⟨chronicle.timers.along order, operation, answer⟩ :: chronicle.past⟩ := by
  simp only [perform?, keeps.schedule?, done, Option.bind_eq_bind, Option.bind_some]
  rfl

theorem of?_concat (operations : List (Operation α)) (operation : Operation α) :
    of? (operations ++ [operation]) = (of? operations).bind fun chronicle =>
      chronicle.perform? operation := by
  simp [of?, List.foldlM_append]

/-- What holds at the start, and after an operation if it held before, holds after any
operations; and these come to an end. -/
theorem exists_of? (Holds : Chronicle α → List Nat → Prop) (holds : Holds start [])
    (step : ∀ {chronicle order}, chronicle.timers.Keeps order → Holds chronicle order →
      ∀ operation, ∃ answer next after,
        chronicle.timers.perform? operation = some (answer, next) ∧ next.Keeps after ∧
        Holds ⟨next, ⟨chronicle.timers.along order, operation, answer⟩ :: chronicle.past⟩ after)
    (operations : List (Operation α)) :
    ∃ chronicle order, of? operations = some chronicle ∧
      (empty : Timers α).run? operations = some chronicle.timers ∧
      chronicle.timers.Keeps order ∧ Holds chronicle order := by
  induction operations using List.reverseRecOn with
  | nil => exact ⟨start, [], rfl, rfl, keeps_empty, holds⟩
  | append_singleton operations operation ih =>
      obtain ⟨chronicle, order, told, ran, keeps, held⟩ := ih
      obtain ⟨answer, next, after, done, kept, further⟩ := step keeps held operation
      refine ⟨_, after, ?_, ?_, kept, further⟩
      · rw [of?_concat, told, Option.bind_some, perform?_eq keeps done]
      · rw [run?_concat, ran, Option.bind_some, done]
        rfl

end Chronicle

end FileServer.Timers
