import FileServer.Work.Semaphore

/-!
# Waiting for permits

A call that waits for a permit holds the lock of the semaphore while it asks for one.  When there
is none it gives the lock back and sleeps, until it is notified of a new permit or of the end, or
wakes up for no reason.  Then it takes the lock again and asks again.

A call that has just begun may come first and take the permit that another one was notified of.
So a call may be asleep while there are permits.  But for each of these permits there is a call
that was notified and has not asked yet, and one of them finds it.  No permit comes from nowhere,
and none is lost unless the machine word in which they are counted comes round.
-/

namespace FileServer

/-- Where a call that waits for a permit is. -/
inductive Waiter where
  /-- It is about to take the lock, and was not notified. -/
  | running
  /-- It is asleep, and was not notified. -/
  | blocked
  /-- It was notified, and is about to take the lock. -/
  | notified
  /-- It has returned and tells whether it got a permit. -/
  | returned (granted : Bool)
  deriving DecidableEq, Repr

/-- What may happen at a semaphore.  All but a new call and the end of a sleep are sections under
its lock. -/
inductive SemaphoreEvent where
  /-- A thread calls for a permit. -/
  | call
  /-- A call that is not asleep asks for a permit. -/
  | ask (index : Nat)
  /-- A call wakes up without being notified. -/
  | wake (index : Nat)
  /-- A permit is added, and one of the calls that are asleep is notified, if there is one. -/
  | post (notified? : Option Nat)
  /-- The semaphore is closed, and all calls that are asleep are notified. -/
  | close
  deriving DecidableEq, Repr

namespace SemaphoreEvent

/-- Whether a permit is added. -/
def isPost : SemaphoreEvent → Bool
  | .post _ => true
  | _ => false

end SemaphoreEvent

namespace Waiter

/-- Whether a call is about to take the lock. -/
def isAwake : Waiter → Bool
  | .running | .notified => true
  | .blocked | .returned _ => false

/-- What becomes of a call that has asked for a permit. -/
def ofAttempt : Semaphore.Attempt → Waiter
  | .granted => .returned true
  | .refused => .returned false
  | .blocked => .blocked

/-- What becomes of a call when all that are asleep are notified. -/
def notify : Waiter → Waiter
  | .blocked => .notified
  | waiter => waiter

/-! ## How many calls are where -/

variable {waiters : List Waiter} {index : Nat} {waiter : Waiter}

/-- A call that moves is no more where it was, and is where it goes. -/
theorem count_set (found : waiters[index]? = some waiter) (next place : Waiter) :
    (waiters.set index next).count place + (if waiter = place then 1 else 0) =
      waiters.count place + if next = place then 1 else 0 := by
  have present : 0 < waiters.count waiter := List.count_pos_iff.2 (List.mem_of_getElem? found)
  obtain ⟨inside, rfl⟩ := List.getElem?_eq_some_iff.1 found
  simp only [List.count_set inside, beq_iff_eq]
  by_cases same : waiters[index] = place
  · rw [same] at present
    simp only [same, if_true]
    omega
  · simp only [same, if_false]
    omega

/-- A call that was about to take the lock is one more where it goes. -/
theorem count_set_of_awake (found : waiters[index]? = some waiter) (awake : waiter.isAwake = true)
    (next place : Waiter) (elsewhere : place.isAwake = false) :
    (waiters.set index next).count place =
      waiters.count place + if next = place then 1 else 0 := by
  have moved := count_set found next place
  rwa [if_neg (fun same => by cases (same ▸ awake).symm.trans elsewhere), Nat.add_zero] at moved

/-- A call that has just begun is neither asleep nor has it returned. -/
theorem count_append_running (waiters : List Waiter) {place : Waiter}
    (elsewhere : place.isAwake = false) :
    (waiters ++ [running]).count place = waiters.count place := by
  have absent : place ∉ [running] := by
    intro present
    cases List.mem_singleton.1 present
    cases elsewhere
  rw [List.count_append, List.count_eq_zero.2 absent, Nat.add_zero]

/-- A call whose sleep ends is one less that is asleep, and none that has returned. -/
theorem count_set_of_blocked (asleep : waiters[index]? = some blocked) (next : Waiter)
    (awake : next.isAwake = true) :
    (∀ granted, (waiters.set index next).count (.returned granted) =
        waiters.count (.returned granted)) ∧
      (waiters.set index next).count .blocked + 1 = waiters.count .blocked ∧
      (waiters.set index next).count .notified =
        waiters.count .notified + if next = .notified then 1 else 0 := by
  have other (place : Waiter) (elsewhere : place.isAwake = false) : next ≠ place := by
    rintro rfl
    cases awake.symm.trans elsewhere
  refine ⟨fun granted => ?_, ?_, count_set asleep next .notified⟩
  · have moved := count_set asleep next (.returned granted)
    rwa [if_neg nofun, if_neg (other _ rfl)] at moved
  · have moved := count_set asleep next .blocked
    rwa [if_pos rfl, if_neg (other _ rfl)] at moved

/-- One call that moves is at most one that was notified. -/
theorem count_notified_le (found : waiters[index]? = some waiter) (next : Waiter) :
    waiters.count .notified ≤ (waiters.set index next).count .notified + 1 := by
  have moved := count_set found next .notified
  have one : (if waiter = .notified then 1 else 0) ≤ 1 := by
    split <;> decide
  omega

/-- When all calls that are asleep are notified no other call moves. -/
theorem count_map_notify (waiters : List Waiter) :
    (waiters.map notify).count .blocked = 0 ∧
      ∀ granted, (waiters.map notify).count (.returned granted) =
        waiters.count (.returned granted) := by
  constructor
  · refine List.count_eq_zero.2 fun asleep => ?_
    obtain ⟨waiter, -, same⟩ := List.mem_map.1 asleep
    cases waiter <;> cases same
  · intro granted
    simp only [List.count_eq_countP, List.countP_map]
    refine List.countP_congr fun waiter _ => ?_
    cases waiter <;> simp [notify]

end Waiter

/-- A semaphore and the calls that wait, or have waited, for its permits. -/
structure SharedSemaphore where
  semaphore : Semaphore
  waiters : List Waiter
  deriving DecidableEq, Repr

namespace SharedSemaphore

/-- A new semaphore, for which no call has come. -/
def start (permits : Nat) : SharedSemaphore where
  semaphore := { permits }
  waiters := []

/-- A call goes from one of some places to the next one. -/
def move? (shared : SharedSemaphore) (index : Nat) (leaves : Waiter → Bool) (semaphore : Semaphore)
    (next : Waiter) : Option SharedSemaphore :=
  match shared.waiters[index]? with
  | some waiter => if leaves waiter then some ⟨semaphore, shared.waiters.set index next⟩ else none
  | none => none

/-- What happens next, `none` if it cannot happen now. -/
def step? (shared : SharedSemaphore) : SemaphoreEvent → Option SharedSemaphore
  | .call => some { shared with waiters := shared.waiters ++ [.running] }
  | .ask index =>
      let (attempt, semaphore) := shared.semaphore.attempt
      shared.move? index Waiter.isAwake semaphore (.ofAttempt attempt)
  | .wake index => shared.move? index (· == .blocked) shared.semaphore .running
  | .post (some index) => shared.move? index (· == .blocked) shared.semaphore.post .notified
  | .post none =>
      if .blocked ∈ shared.waiters then none
      else some { shared with semaphore := shared.semaphore.post }
  | .close => some ⟨shared.semaphore.close, shared.waiters.map Waiter.notify⟩

/-- One thing happens after the other. -/
def run? (shared : SharedSemaphore) : List SemaphoreEvent → Option SharedSemaphore
  | [] => some shared
  | event :: rest => (shared.step? event).bind (run? · rest)

/-- How one thing that happens goes. -/
inductive Goes (shared : SharedSemaphore) : SemaphoreEvent → SharedSemaphore → Prop
  | call : Goes shared .call { shared with waiters := shared.waiters ++ [.running] }
  /-- The semaphore is open and has a permit. -/
  | grant {index permits : Nat} {waiter : Waiter} (found : shared.waiters[index]? = some waiter)
      (awake : waiter.isAwake = true) (isOpen : shared.semaphore.closed = false)
      (available : shared.semaphore.permits = permits + 1) :
      Goes shared (.ask index)
        ⟨{ shared.semaphore with permits }, shared.waiters.set index (.returned true)⟩
  /-- The semaphore is closed. -/
  | refuse {index : Nat} {waiter : Waiter} (found : shared.waiters[index]? = some waiter)
      (awake : waiter.isAwake = true) (closed : shared.semaphore.closed = true) :
      Goes shared (.ask index) ⟨shared.semaphore, shared.waiters.set index (.returned false)⟩
  /-- The semaphore is open and has no permit. -/
  | sleep {index : Nat} {waiter : Waiter} (found : shared.waiters[index]? = some waiter)
      (awake : waiter.isAwake = true) (isOpen : shared.semaphore.closed = false)
      (empty : shared.semaphore.permits = 0) :
      Goes shared (.ask index) ⟨shared.semaphore, shared.waiters.set index .blocked⟩
  | wake {index : Nat} (asleep : shared.waiters[index]? = some .blocked) :
      Goes shared (.wake index) ⟨shared.semaphore, shared.waiters.set index .running⟩
  | notify {index : Nat} (asleep : shared.waiters[index]? = some .blocked) :
      Goes shared (.post (some index))
        ⟨shared.semaphore.post, shared.waiters.set index .notified⟩
  /-- No call is asleep. -/
  | post (nobody : .blocked ∉ shared.waiters) :
      Goes shared (.post none) { shared with semaphore := shared.semaphore.post }
  | close : Goes shared .close ⟨shared.semaphore.close, shared.waiters.map Waiter.notify⟩

variable {shared next last : SharedSemaphore} {event : SemaphoreEvent}
  {events : List SemaphoreEvent}

theorem move?_eq_some {index : Nat} {leaves : Waiter → Bool} {semaphore : Semaphore}
    {place : Waiter} (moved : shared.move? index leaves semaphore place = some next) :
    ∃ waiter, shared.waiters[index]? = some waiter ∧ leaves waiter = true ∧
      next = ⟨semaphore, shared.waiters.set index place⟩ := by
  unfold move? at moved
  split at moved
  · next waiter found =>
      split at moved
      · next left => exact ⟨waiter, found, left, (Option.some.inj moved).symm⟩
      · cases moved
  · cases moved

theorem goes_of_step? (stepped : shared.step? event = some next) : shared.Goes event next := by
  cases event with
  | call =>
      cases stepped
      exact .call
  | ask index =>
      obtain ⟨waiter, found, awake, rfl⟩ := move?_eq_some stepped
      obtain ⟨⟨permits, closed⟩, waiters⟩ := shared
      cases closed with
      | true => exact .refuse found awake rfl
      | false =>
          cases permits with
          | zero => exact .sleep found awake rfl rfl
          | succ permits => exact .grant found awake rfl rfl
  | wake index =>
      obtain ⟨waiter, found, asleep, rfl⟩ := move?_eq_some stepped
      cases eq_of_beq asleep
      exact .wake found
  | post notified? =>
      cases notified? with
      | some index =>
          obtain ⟨waiter, found, asleep, rfl⟩ := move?_eq_some stepped
          cases eq_of_beq asleep
          exact .notify found
      | none =>
          simp only [step?] at stepped
          split at stepped
          · cases stepped
          · next nobody =>
              cases stepped
              exact .post nobody
  | close =>
      cases stepped
      exact .close

theorem run?_cons_eq_some (ran : shared.run? (event :: events) = some last) :
    ∃ next, shared.Goes event next ∧ next.run? events = some last := by
  obtain ⟨next, stepped, rest⟩ := Option.bind_eq_some_iff.1 ran
  exact ⟨next, goes_of_step? stepped, rest⟩

theorem run?_append (shared : SharedSemaphore) (front back : List SemaphoreEvent) :
    shared.run? (front ++ back) = (shared.run? front).bind (run? · back) := by
  induction front generalizing shared with
  | nil => rfl
  | cons event rest ih =>
      simp only [List.cons_append, run?, ih, Option.bind_assoc]

/-! ## Permits and calls -/

/-- What holds between any two sections, when so many permits were there or have been added. -/
structure Sound (permits : Nat) (shared : SharedSemaphore) : Prop where
  account : shared.waiters.count (.returned true) + shared.semaphore.permits ≤ permits ∧
    (permits < Decimal.wordBound →
      shared.waiters.count (.returned true) + shared.semaphore.permits = permits)
  closed : shared.semaphore.closed = true → shared.waiters.count .blocked = 0
  refused : shared.semaphore.closed = false → shared.waiters.count (.returned false) = 0
  awaited : shared.semaphore.closed = false → 0 < shared.waiters.count .blocked →
    shared.semaphore.permits ≤ shared.waiters.count .notified

theorem sound_start (permits : Nat) : (start permits).Sound permits where
  account := ⟨Nat.le_of_eq (Nat.zero_add permits), fun _ => Nat.zero_add permits⟩
  closed _ := rfl
  refused _ := rfl
  awaited _ asleep := absurd asleep (Nat.lt_irrefl 0)

variable {permits : Nat}

/-- One permit more is in the account, and is counted while the counter does not come round. -/
theorem account_post {granted : Nat} {semaphore : Semaphore}
    (account : granted + semaphore.permits ≤ permits ∧
      (permits < Decimal.wordBound → granted + semaphore.permits = permits)) :
    granted + semaphore.post.permits ≤ permits + 1 ∧
      (permits + 1 < Decimal.wordBound → granted + semaphore.post.permits = permits + 1) := by
  have more := semaphore.permits_post_le
  refine ⟨by omega, fun few => ?_⟩
  have counted := account.2 (by omega)
  rw [Semaphore.post_eq_supply (by omega), Semaphore.supply]
  dsimp only
  omega

/-- What happens keeps the account.  A permit that a call takes may be the one that another call was
notified of, but then there is one permit less, too. -/
theorem Goes.sound (goes : shared.Goes event next) (sound : shared.Sound permits) :
    next.Sound (permits + if event.isPost then 1 else 0) := by
  obtain ⟨account, closed, refused, awaited⟩ := sound
  cases goes with
  | call =>
      have notified : shared.waiters.count .notified ≤
          (shared.waiters ++ [Waiter.running]).count .notified :=
        (List.sublist_append_left _ _).count_le _
      change Sound permits _
      constructor
      · rwa [Waiter.count_append_running _ rfl]
      · rwa [Waiter.count_append_running _ rfl]
      · rwa [Waiter.count_append_running _ rfl]
      · rw [Waiter.count_append_running _ rfl]
        exact fun isOpen waits => Nat.le_trans (awaited isOpen waits) notified
  | @grant index left waiter found awake isOpen available =>
      have granted := Waiter.count_set_of_awake found awake (.returned true) (.returned true) rfl
      have rejected := Waiter.count_set_of_awake found awake (.returned true) (.returned false) rfl
      have asleep := Waiter.count_set_of_awake found awake (.returned true) .blocked rfl
      have notified := Waiter.count_notified_le found (.returned true)
      rw [if_pos rfl] at granted
      rw [if_neg nofun] at rejected asleep
      have fewer := awaited isOpen
      have none := refused isOpen
      change Sound permits _
      refine ⟨?_, fun shut => ?_, fun _ => ?_, fun _ waits => ?_⟩
      · dsimp only
        omega
      · cases isOpen.symm.trans shut
      · dsimp only
        omega
      · dsimp only at waits ⊢
        omega
  | @refuse index waiter found awake isClosed =>
      have granted := Waiter.count_set_of_awake found awake (.returned false) (.returned true) rfl
      have asleep := Waiter.count_set_of_awake found awake (.returned false) .blocked rfl
      rw [if_neg nofun] at granted asleep
      change Sound permits _
      refine ⟨?_, fun shut => ?_, fun isOpen => ?_, fun isOpen => ?_⟩
      · dsimp only
        rwa [granted]
      · exact asleep.trans (closed shut)
      · cases isOpen.symm.trans isClosed
      · cases isOpen.symm.trans isClosed
  | @sleep index waiter found awake isOpen empty =>
      have granted := Waiter.count_set_of_awake found awake .blocked (.returned true) rfl
      have rejected := Waiter.count_set_of_awake found awake .blocked (.returned false) rfl
      rw [if_neg nofun] at granted rejected
      change Sound permits _
      refine ⟨?_, fun shut => ?_, fun _ => ?_, fun _ _ => ?_⟩
      · dsimp only
        rwa [granted]
      · cases isOpen.symm.trans shut
      · exact rejected.trans (refused isOpen)
      -- There is no permit, whoever was notified.
      · exact Nat.le_trans (Nat.le_of_eq empty) (Nat.zero_le _)
  | @wake index asleep =>
      obtain ⟨returned, fewer, notified⟩ := Waiter.count_set_of_blocked asleep .running rfl
      change Sound permits _
      refine ⟨?_, fun shut => ?_, fun isOpen => ?_, fun isOpen waits => ?_⟩
      · dsimp only
        rwa [returned]
      · have nobody := closed shut
        omega
      · exact (returned false).trans (refused isOpen)
      · have enough := awaited isOpen
        dsimp only at waits ⊢
        omega
  | @notify index asleep =>
      obtain ⟨returned, fewer, notified⟩ := Waiter.count_set_of_blocked asleep .notified rfl
      rw [if_pos rfl] at notified
      change Sound (permits + 1) _
      refine ⟨?_, fun shut => ?_, fun isOpen => ?_, fun isOpen _ => ?_⟩
      · dsimp only
        rw [returned]
        exact account_post account
      · have nobody := closed shut
        omega
      · exact (returned false).trans (refused isOpen)
      -- The call was asleep, and so the permits were no more than the notified calls.
      · have enough := awaited isOpen (by omega)
        have more := shared.semaphore.permits_post_le
        dsimp only
        omega
  | post nobody =>
      change Sound (permits + 1) _
      refine ⟨?_, closed, refused, fun _ waits => ?_⟩
      · exact account_post account
      · exact absurd (List.count_pos_iff.1 waits) nobody
  | close =>
      obtain ⟨blocked, returned⟩ := Waiter.count_map_notify shared.waiters
      change Sound permits _
      refine ⟨?_, fun _ => blocked, nofun, nofun⟩
      dsimp only [Semaphore.close]
      rwa [returned]

variable {index : Nat} {granted : Bool}

/-- A call that has returned does not move. -/
theorem Goes.returned (goes : shared.Goes event next)
    (ended : shared.waiters[index]? = some (.returned granted)) :
    next.waiters[index]? = some (.returned granted) := by
  have other {moving : Nat} {waiter : Waiter} (place : Waiter)
      (found : shared.waiters[moving]? = some waiter) (moves : waiter ≠ .returned granted) :
      (shared.waiters.set moving place)[index]? = some (.returned granted) := by
    rwa [List.getElem?_set_ne]
    rintro rfl
    exact moves (Option.some.inj (found.symm.trans ended))
  cases goes with
  | call =>
      obtain ⟨inside, -⟩ := List.getElem?_eq_some_iff.1 ended
      rwa [List.getElem?_append_left inside]
  | grant found awake => exact other _ found (by rintro rfl; cases awake)
  | refuse found awake => exact other _ found (by rintro rfl; cases awake)
  | sleep found awake => exact other _ found (by rintro rfl; cases awake)
  | wake asleep => exact other _ asleep nofun
  | notify asleep => exact other _ asleep nofun
  | post => exact ended
  | close => rw [List.getElem?_map, ended]; rfl

theorem Goes.refused (goes : shared.Goes (.ask index) next)
    (closed : shared.semaphore.closed = true) :
    next.waiters[index]? = some (.returned false) := by
  cases goes with
  | refuse found =>
      obtain ⟨inside, -⟩ := List.getElem?_eq_some_iff.1 found
      exact List.getElem?_set_self inside
  | grant _ _ isOpen => cases isOpen.symm.trans closed
  | sleep _ _ isOpen => cases isOpen.symm.trans closed

end SharedSemaphore

end FileServer
