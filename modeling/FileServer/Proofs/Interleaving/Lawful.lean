import FileServer.Proofs.Interleaving.System

/-!
# What the operating system promises

A run of the system may deliver any events at any time.  The operating system does
not: it tells of a connection only what the loop waits for, or that the other side
has hung up, and after it has told it says nothing more until it is asked again.
A rule says which actions are allowed in which system, and what a run can come to
under a rule is what holds when the rule is kept.
-/

namespace FileServer

/-- Whether an event says something that an interest asks for, or a hangup, and
nothing else. -/
def Readiness.tells (readiness : Readiness) (interest : Interest) : Bool :=
  (readiness.readable || readiness.writable || readiness.hangup) &&
    (!readiness.readable || interest = .readable) && (!readiness.writable || interest = .writable)

/-- Whether the events of a batch, delivered one after the other, are of
descriptors that are armed for them.  A delivery disarms. -/
def Kernel.delivers : Kernel → List Event → Bool
  | _, [] => true
  | kernel, .ready fd readiness :: rest =>
      (match kernel.registrations.find? fd with
        | some (.armed interest) => readiness.tells interest
        | some .silent | none => false) && (kernel.disarm fd).delivers rest
  | kernel, .arrivals :: rest | kernel, .notices :: rest => kernel.delivers rest

namespace System

/-- A rule for the actions of a run. -/
abbrev Rule := System → Action → Prop

/-- Events are delivered to armed descriptors only, and say only what was asked
for. -/
def DeliversArmed : Rule
  | system, .deliver events => system.server.kernel.delivers events = true
  | _, _ => True

instance (system : System) (action : Action) : Decidable (DeliversArmed system action) := by
  cases action <;> unfold DeliversArmed <;> infer_instance

/-- Each action of a run follows a rule, as far as the run goes. -/
def Observes (rule : Rule) : System → List Action → Prop
  | _, [] => True
  | system, action :: rest =>
      rule system action ∧
        match system.step? action with
        | some next => Observes rule next rest
        | none => True

instance decidableObserves (rule : Rule) [∀ system action, Decidable (rule system action)] :
    (system : System) → (actions : List Action) → Decidable (Observes rule system actions)
  | _, [] => .isTrue trivial
  | system, action :: rest =>
      have : Decidable (match system.step? action with
          | some next => Observes rule next rest
          | none => True) :=
        match system.step? action with
        | some next => decidableObserves rule next rest
        | none => .isTrue trivial
      inferInstanceAs (Decidable (_ ∧ _))

/-- The systems that a run which follows a rule can come to. -/
inductive ReachableUnder (rule : Rule) : System → Prop where
  | start {settings : Settings} {tree : FileTree} {now : Nat} {system : System}
      (launched : launch? settings tree now = some system) : ReachableUnder rule system
  | step {system next : System} {action : Action} (reached : ReachableUnder rule system)
      (allowed : rule system action) (stepped : system.step? action = some next) :
      ReachableUnder rule next

variable {rule : Rule} {system last : System}

theorem ReachableUnder.reachable (reached : ReachableUnder rule system) : Reachable system := by
  induction reached with
  | start launched => exact .start launched
  | step _ _ stepped ih => exact ih.step stepped

/-- What a run under a rule comes to. -/
theorem ReachableUnder.run (reached : ReachableUnder rule system) {actions : List Action}
    (observed : system.Observes rule actions) (ran : system.run? actions = some last) :
    ReachableUnder rule last := by
  induction actions generalizing system with
  | nil =>
      obtain rfl := eq_of_run?_nil ran
      exact reached
  | cons action actions ih =>
      obtain ⟨next, stepped, rest⟩ := run?_cons_eq_some.1 ran
      obtain ⟨allowed, later⟩ := observed
      rw [stepped] at later
      exact ih (reached.step allowed stepped) later rest

/-- The rest of a run that follows a rule follows it too. -/
theorem Observes.of_append {actions rest : List Action}
    (observed : system.Observes rule (actions ++ rest)) (ran : system.run? actions = some last) :
    system.Observes rule actions ∧ last.Observes rule rest := by
  induction actions generalizing system with
  | nil =>
      obtain rfl := eq_of_run?_nil ran
      exact ⟨trivial, observed⟩
  | cons action actions ih =>
      obtain ⟨next, stepped, goesOn⟩ := run?_cons_eq_some.1 ran
      obtain ⟨allowed, later⟩ := observed
      rw [stepped] at later
      obtain ⟨early, late⟩ := ih later goesOn
      refine ⟨⟨allowed, ?_⟩, late⟩
      rw [stepped]
      exact early

end System

/-! ## Batches -/

namespace FdMap

variable {α : Type}

theorem find?_modify_self (map : FdMap α) (fd : Fd) (change : α → α) :
    (map.modify fd change).find? fd = (map.find? fd).map change := by
  obtain ⟨entries⟩ := map
  simp only [modify, find?]
  induction entries with
  | nil => rfl
  | cons entry rest ih =>
      obtain ⟨key, held⟩ := entry
      by_cases same : fd = key
      · simp [same]
      · have apart : (fd == key) = false := by simpa using same
        simpa [List.lookup_cons, apart] using ih

theorem find?_modify_of_ne {map : FdMap α} {fd other : Fd} (differ : other ≠ fd)
    (change : α → α) : (map.modify fd change).find? other = map.find? other := by
  obtain ⟨entries⟩ := map
  simp only [modify, find?]
  induction entries with
  | nil => rfl
  | cons entry rest ih =>
      obtain ⟨key, held⟩ := entry
      by_cases same : other = key
      · subst same
        simp [differ]
      · have apart : (other == key) = false := by simpa using same
        simpa [List.lookup_cons, apart] using ih

end FdMap

/-- Delivering events changes registrations alone. -/
theorem Kernel.disarmAll_eq (kernel : Kernel) (events : List Event) :
    ∃ registrations, kernel.disarmAll events = { kernel with registrations } := by
  induction events generalizing kernel with
  | nil => exact ⟨_, rfl⟩
  | cons event rest ih =>
      cases event with
      | arrivals | notices => exact ih kernel
      | ready fd readiness => exact ih (kernel.disarm fd)

/-- Delivering events registers nothing. -/
theorem Kernel.find?_disarmAll_of_none {kernel : Kernel} {fd : Fd}
    (unregistered : kernel.registrations.find? fd = none) (events : List Event) :
    (kernel.disarmAll events).registrations.find? fd = none := by
  induction events generalizing kernel with
  | nil => exact unregistered
  | cons event rest ih =>
      cases event with
      | arrivals | notices => exact ih unregistered
      | ready other readiness =>
          refine @ih (kernel.disarm other) ?_
          by_cases mine : fd = other
          · subst mine
            rw [disarm, FdMap.find?_modify_self, unregistered]
            rfl
          · rw [disarm, FdMap.find?_modify_of_ne mine, unregistered]

/-- What an event says about a descriptor. -/
def Event.readiness? (fd : Fd) : Event → Option Readiness
  | .ready other readiness => if other = fd then some readiness else none
  | .arrivals | .notices => none

/-- A batch has at most one event for each descriptor.  Without one the
registration stays; with one it was armed for what the event tells, and is silent
now. -/
theorem Kernel.delivers_cases {kernel : Kernel} {events : List Event}
    (delivered : kernel.delivers events = true) (fd : Fd) :
    events.filterMap (Event.readiness? fd) = [] ∧
        (kernel.disarmAll events).registrations.find? fd = kernel.registrations.find? fd ∨
      ∃ readiness interest, events.filterMap (Event.readiness? fd) = [readiness] ∧
        kernel.registrations.find? fd = some (.armed interest) ∧
        readiness.tells interest = true ∧
        (kernel.disarmAll events).registrations.find? fd = some .silent := by
  induction events generalizing kernel with
  | nil => exact .inl ⟨rfl, rfl⟩
  | cons event rest ih =>
      cases event with
      | arrivals | notices => exact ih delivered
      | ready other readiness =>
          simp only [delivers, Bool.and_eq_true] at delivered
          obtain ⟨asked, later⟩ := delivered
          change _ ∨ ∃ _ _, _ ∧ _ ∧ _ ∧
            ((kernel.disarm other).disarmAll rest).registrations.find? fd = _
          by_cases mine : other = fd
          · subst mine
            split at asked
            · next interest armed =>
                have disarmed : (kernel.disarm other).registrations.find? other =
                    some .silent := by
                  rw [disarm, FdMap.find?_modify_self, armed]
                  rfl
                -- A second event would have to find the descriptor armed again.
                rcases ih later with ⟨none, kept⟩ | ⟨_, _, -, again, -⟩
                · refine .inr ⟨readiness, interest, ?_, armed, asked, kept.trans disarmed⟩
                  have mine : (Event.ready other readiness).readiness? other = some readiness := by
                    simp [Event.readiness?]
                  rw [List.filterMap_cons_some mine, none]
                · cases disarmed.symm.trans again
            · cases asked
            · cases asked
          · have kept : (kernel.disarm other).registrations.find? fd =
                kernel.registrations.find? fd := FdMap.find?_modify_of_ne (Ne.symm mine) _
            rw [List.filterMap_cons_none (by simp [Event.readiness?, mine]), ← kept]
            exact ih later

end FileServer
