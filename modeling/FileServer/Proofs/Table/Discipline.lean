import FileServer.Proofs.Interleaving.Sockets
import FileServer.Proofs.Table.Descriptors

/-!
# Calls on the table of slots

Whoever has the table can open a slot, release it, and hand its connection over, for any
descriptor and at any time.  A slot keeps its custody, its generation and its connection in
three places, and each call changes them one after the other.  Whatever calls are made, the
three agree: a slot is in use as long as its connection has a socket, its custody only
changes in the way that a call is meant to change it, and the generations of a descriptor
count the connections that it has had.

They count in a machine word, and start anew when it is used up.  So two connections of a
descriptor have different names unless the descriptor was used for as many in between as there
are words.
-/

namespace FileServer

/-- What the table can be asked to do with a descriptor. -/
inductive SlotRequest where
  | accept (peer : Address)
  | release
  | checkOut
  | checkIn
  | deferClose
  deriving DecidableEq, Repr

/-- What a call on the table returns. -/
inductive SlotAnswer where
  /-- The slot is open, in this generation. -/
  | opened (generation : Nat)
  | refused
  | released
  /-- What the slot says to a change of custody. -/
  | told (answer : Bool)
  /-- The descriptor has no slot yet. -/
  | noSlot
  deriving DecidableEq, Repr

/-- A call on the table. -/
structure SlotCall where
  fd : Fd
  request : SlotRequest
  deriving DecidableEq, Repr

/-- The custody that a request leads to, `none` where it is to change nothing. -/
def SlotRequest.target? : SlotRequest → Custody → Option Custody
  | .accept _, .free => some .loop
  | .checkOut, .loop => some .worker
  | .checkIn, .worker => some .loop
  | .deferClose, .worker => some .closing
  | .release, _ => some .free
  | _, _ => none

/-- Whether a slot is asked for a change of custody. -/
def SlotRequest.asks : SlotRequest → Bool
  | .accept _ | .release => false
  | .checkOut | .checkIn | .deferClose => true

/-- The generation that a call has handed out. -/
def SlotAnswer.generation? : SlotAnswer → Option Nat
  | .opened generation => some generation
  | _ => none

namespace Slots

variable {table next : Slots} {fd : Fd} {request : SlotRequest} {answer : SlotAnswer}

/-- Asks the slot of a descriptor for a change of custody. -/
def ask (table : Slots) (fd : Fd) (change : Slot → Bool × Slot) : SlotAnswer × Slots :=
  match table.slot? fd with
  | none => (.noSlot, table)
  | some slot => (.told (change slot).1, table.set fd (change slot).2)

/-- Makes a call. -/
def call (table : Slots) (call : SlotCall) : SlotAnswer × Slots :=
  match call.request with
  | .accept peer =>
      match table.open? call.fd peer with
      | some (generation, next) => (.opened generation, next)
      | none => (.refused, table)
  | .release => (.released, table.release call.fd)
  | .checkOut => table.ask call.fd Slot.checkOut
  | .checkIn => table.ask call.fd Slot.checkIn
  | .deferClose => table.ask call.fd Slot.deferClose

/-! ## What a call does -/

/-- What a call returns, and what it does. -/
inductive Replies (table : Slots) (fd : Fd) : SlotRequest → SlotAnswer → Slots → Prop
  | accept {peer : Address} (inside : table.fits fd = true) (unused : table.custody fd = .free) :
      Replies table fd (.accept peer) (.opened (table.vacancy fd).nextGeneration)
        (table.set fd ((table.vacancy fd).opened peer))
  | refuse {peer : Address} (taken : ¬(table.fits fd = true ∧ table.custody fd = .free)) :
      Replies table fd (.accept peer) .refused table
  | release {slot : Slot} (found : table.slot? fd = some slot) :
      Replies table fd .release .released (table.set fd slot.release)
  | releaseNone (absent : table.slot? fd = none) : Replies table fd .release .released table
  /-- A slot that was never used is asked for a change. -/
  | askNone {request : SlotRequest} (asks : request.asks = true) (absent : table.slot? fd = none) :
      Replies table fd request .noSlot table
  /-- The custody of the slot changes. -/
  | change {request : SlotRequest} {slot : Slot} {target : Custody} (asks : request.asks = true)
      (found : table.slot? fd = some slot) (used : slot.custody ≠ .free ∧ target ≠ .free)
      (leads : request.target? slot.custody = some target) :
      Replies table fd request (.told true) (table.set fd { slot with custody := target })
  /-- The custody of the slot stays, and so does all else. -/
  | keep {request : SlotRequest} {slot : Slot} {said : Bool} (asks : request.asks = true)
      (found : table.slot? fd = some slot) (stays : request.target? slot.custody = none)
      (negative : said = true ↔ request = .deferClose ∧ slot.custody = .closing) :
      Replies table fd request (.told said) (table.set fd slot)

theorem open?_eq_none_iff {peer : Address} :
    table.open? fd peer = none ↔ ¬(table.fits fd = true ∧ table.custody fd = .free) := by
  simp only [open?]
  split
  · next inside =>
      have found : table.slots.find? fd = table.slot? fd := by rw [slot?, if_pos inside]
      have custody : ((table.slots.find? fd).getD .fresh).custody = table.custody fd := by
        rw [found]
        exact custody_vacancy table fd
      simp only [Slot.open?, custody]
      by_cases unused : table.custody fd = .free <;> simp [inside, unused]
  · next outside => simp [outside]

/-- Each way in which a slot is asked for a change of custody. -/
theorem replies_ask (asks : request.asks = true) (change : Slot → Bool × Slot)
    (changes : ∀ slot : Slot,
      (∃ target, request.target? slot.custody = some target ∧ slot.custody ≠ .free ∧
        target ≠ .free ∧ change slot = (true, { slot with custody := target })) ∨
      (∃ said, request.target? slot.custody = none ∧ change slot = (said, slot) ∧
        (said = true ↔ request = .deferClose ∧ slot.custody = .closing))) :
    Replies table fd request (table.ask fd change).1 (table.ask fd change).2 := by
  unfold ask
  cases found : table.slot? fd with
  | none => exact .askNone asks found
  | some slot =>
      obtain ⟨target, leads, used, kept, made⟩ | ⟨said, stays, made, negative⟩ := changes slot
      · simp only [made]
        exact .change asks found ⟨used, kept⟩ leads
      · simp only [made]
        exact .keep asks found stays negative

/-- The ways in which a call goes. -/
theorem replies_call (table : Slots) (call : SlotCall) :
    Replies table call.fd call.request (table.call call).1 (table.call call).2 := by
  obtain ⟨fd, request⟩ := call
  cases request with
  | accept peer =>
      simp only [Slots.call]
      split
      · next generation next accepted =>
          obtain ⟨inside, unused, -, rfl, rfl⟩ := open?_cases accepted
          exact .accept inside unused
      · next refused => exact .refuse (open?_eq_none_iff.1 refused)
  | release =>
      simp only [Slots.call, Slots.release]
      split
      · next slot found => exact .release found
      · next absent => exact .releaseNone absent
  | checkOut =>
      refine replies_ask rfl Slot.checkOut fun slot => ?_
      obtain ⟨custody, generation, connection⟩ := slot
      cases custody <;> simp [SlotRequest.target?, Slot.checkOut, Slot.transfer]
  | checkIn =>
      refine replies_ask rfl Slot.checkIn fun slot => ?_
      obtain ⟨custody, generation, connection⟩ := slot
      cases custody <;> simp [SlotRequest.target?, Slot.checkIn, Slot.transfer]
  | deferClose =>
      refine replies_ask rfl Slot.deferClose fun slot => ?_
      obtain ⟨custody, generation, connection⟩ := slot
      cases custody <;> simp [SlotRequest.target?, Slot.deferClose]

/-- No call changes the slot of another descriptor. -/
theorem Replies.others (replies : Replies table fd request answer next) {other : Fd}
    (differ : other ≠ fd) : next.slot? other = table.slot? other := by
  cases replies with
  | accept | release | change | keep => exact slot?_set_of_ne differ _
  | refuse | releaseNone | askNone => rfl

/-- A slot that is set to itself stays. -/
theorem slot?_set_same {slot : Slot} (found : table.slot? fd = some slot) (other : Fd) :
    (table.set fd slot).slot? other = table.slot? other := by
  by_cases same : other = fd
  · rw [same, slot?_set_of_slot? found, found]
  · exact slot?_set_of_ne same slot

theorem custody_set_self {slot : Slot} (inside : table.fits fd = true) :
    (table.set fd slot).custody fd = slot.custody :=
  custody_of_slot? (slot?_set_self inside slot)

/-- No call makes the table larger or smaller. -/
theorem Replies.fits (replies : Replies table fd request answer next) (other : Fd) :
    next.fits other = table.fits other := by
  cases replies <;> rfl

/-- The custody changes as it is meant to. -/
theorem Replies.moves (replies : Replies table fd request answer next)
    (inside : table.fits fd = true) {target : Custody}
    (leads : request.target? (table.custody fd) = some target) : next.custody fd = target := by
  cases replies with
  | accept _ unused =>
      rw [unused] at leads
      cases leads
      exact custody_set_self inside
  | refuse taken =>
      refine (taken ⟨inside, ?_⟩).elim
      cases held : table.custody fd <;> simp_all [SlotRequest.target?]
  | release found =>
      cases leads
      exact custody_set_self inside
  | releaseNone absent =>
      cases leads
      simp [custody, absent]
  | askNone asks absent =>
      have unused : table.custody fd = .free := by simp [custody, absent]
      cases request <;> simp_all [SlotRequest.target?, SlotRequest.asks]
  | change asks found used meant =>
      rw [custody_of_slot? found, meant] at leads
      cases leads
      exact custody_set_self inside
  | keep asks found stays negative =>
      rw [custody_of_slot? found, stays] at leads
      cases leads

/-- Where the custody is not meant to change, nothing does. -/
theorem Replies.stays (replies : Replies table fd request answer next)
    (idle : table.fits fd = true → request.target? (table.custody fd) = none) (other : Fd) :
    next.slot? other = table.slot? other := by
  cases replies with
  | accept inside unused =>
      have leads := idle inside
      rw [unused] at leads
      cases leads
  | release found => cases idle (fits_of_slot? found)
  | refuse | releaseNone | askNone => rfl
  | change asks found used leads =>
      rw [custody_of_slot? found, leads] at idle
      cases idle (fits_of_slot? found)
  | keep asks found => exact slot?_set_same found other

/-- A slot that is asked for a change of custody changes nothing else. -/
theorem Replies.leaves (replies : Replies table fd request answer next)
    (asks : request.asks = true) {slot : Slot} (found : table.slot? fd = some slot) :
    next.slot? fd = some { slot with custody := next.custody fd } := by
  cases replies with
  | accept | refuse | release | releaseNone => cases asks
  | askNone _ absent => cases absent.symm.trans found
  | change _ present | keep _ present =>
      cases present.symm.trans found
      rw [custody_set_self (fits_of_slot? found), slot?_set_of_slot? found]

/-! ## What calls keep -/

theorem vacancy_set_self {slot : Slot} (inside : table.fits fd = true) :
    (table.set fd slot).vacancy fd = slot :=
  vacancy_of_slot? (slot?_set_self inside slot)

theorem Replies.regular (replies : Replies table fd request answer next)
    (regular : table.Regular) : next.Regular := by
  cases replies with
  | accept inside => exact regular.set inside _
  | release found | change _ found | keep _ found => exact regular.set (fits_of_slot? found) _
  | refuse | releaseNone | askNone => exact regular

/-- The slot of the descriptor stays proper. -/
theorem Replies.proper (replies : Replies table fd request answer next)
    (proper : (table.vacancy fd).Proper) : (next.vacancy fd).Proper := by
  cases replies with
  | accept inside =>
      rw [vacancy_set_self inside]
      exact Slot.proper_opened _ _
  | release found =>
      rw [vacancy_set_self (fits_of_slot? found)]
      exact Slot.proper_release _
  | change _ found used =>
      rw [vacancy_set_self (fits_of_slot? found)]
      rw [vacancy_of_slot? found] at proper
      exact proper.change used.1 used.2 rfl
  | keep _ found =>
      rw [vacancy_set_self (fits_of_slot? found), ← vacancy_of_slot? found]
      exact proper
  | refuse | releaseNone | askNone => exact proper

/-- Only a call that opens the slot starts a generation in it, the next one. -/
theorem Replies.generation (replies : Replies table fd request answer next) :
    match answer.generation? with
    | some generation => generation = (table.vacancy fd).nextGeneration ∧
        (next.vacancy fd).generation = generation
    | none => (next.vacancy fd).generation = (table.vacancy fd).generation := by
  cases replies with
  | accept inside => exact ⟨rfl, by rw [vacancy_set_self inside]; rfl⟩
  | release found =>
      rw [vacancy_set_self (fits_of_slot? found), vacancy_of_slot? found]
      rfl
  | change _ found | keep _ found =>
      rw [vacancy_set_self (fits_of_slot? found), vacancy_of_slot? found]
      rfl
  | refuse | releaseNone | askNone => rfl

end Slots

/-- A table that calls were made on, and the descriptors that it has opened, each with the
generation that was handed out, in order. -/
structure SlotRecord where
  table : Slots
  opened : List (Fd × Nat)
  deriving DecidableEq, Repr

namespace SlotRecord

variable {record : SlotRecord} {call : SlotCall} {fd : Fd}

/-- No call was made yet. -/
def start (limit : Nat) : SlotRecord :=
  ⟨.ofLimit limit, []⟩

/-- Makes a call. -/
def after (record : SlotRecord) (call : SlotCall) : SlotRecord where
  table := (record.table.call call).2
  opened := record.opened ++
    ((record.table.call call).1.generation?.map fun generation => (call.fd, generation)).toList

/-- The generations that were handed out for a descriptor, in order. -/
def generations (record : SlotRecord) (fd : Fd) : List Nat :=
  (record.opened.filter (·.1 = fd)).map Prod.snd

/-- How many connections a descriptor has had. -/
def uses (record : SlotRecord) (fd : Fd) : Nat :=
  (record.generations fd).length

/-- The generation of the last connection that a descriptor had, zero without one. -/
def latest (record : SlotRecord) (fd : Fd) : Nat :=
  (record.generations fd).getLast?.getD 0

/-- What calls keep of a table and its record. -/
structure Kept (record : SlotRecord) : Prop where
  regular : record.table.Regular
  proper : ∀ fd, (record.table.vacancy fd).Proper
  counted : ∀ fd, record.generations fd =
    (List.range' 1 (record.uses fd)).map (· % Decimal.wordBound)
  present : ∀ fd, (record.table.vacancy fd).generation = record.uses fd % Decimal.wordBound

theorem generations_after (record : SlotRecord) (call : SlotCall) (fd : Fd) :
    (record.after call).generations fd = record.generations fd ++
      if call.fd = fd then (record.table.call call).1.generation?.toList else [] := by
  simp only [generations, after, List.filter_append, List.map_append]
  congr 1
  cases (record.table.call call).1.generation? with
  | none => simp
  | some generation => by_cases same : call.fd = fd <;> simp [same]

theorem vacancy_after_of_ne (record : SlotRecord) (call : SlotCall) {fd : Fd}
    (differ : fd ≠ call.fd) : (record.after call).table.vacancy fd = record.table.vacancy fd := by
  have same := (record.table.replies_call call).others differ
  rw [Slots.vacancy, Slots.vacancy]
  exact congrArg (Option.getD · Slot.fresh) same

/-- A call that opens a slot counts on, and no other call does. -/
theorem Kept.counts (kept : record.Kept) (call : SlotCall) (fd : Fd) :
    (record.after call).generations fd =
        (List.range' 1 ((record.after call).uses fd)).map (· % Decimal.wordBound) ∧
      ((record.after call).table.vacancy fd).generation =
        (record.after call).uses fd % Decimal.wordBound := by
  have handed := record.generations_after call fd
  by_cases same : call.fd = fd
  · subst same
    have generation := (record.table.replies_call call).generation
    rw [if_pos rfl] at handed
    split at generation
    · next number told =>
        rw [told, Option.toList_some] at handed
        have next : number = (record.uses call.fd + 1) % Decimal.wordBound := by
          rw [generation.1, Slot.nextGeneration, kept.present, Nat.mod_add_mod]
        have used : (record.after call).uses call.fd = record.uses call.fd + 1 := by
          rw [uses, handed, List.length_append, List.length_singleton, uses]
        constructor
        · rw [handed, used, kept.counted, List.range'_1_concat, List.map_append,
            List.map_singleton, next, Nat.add_comm 1]
        · rw [used, ← next]
          exact generation.2
    · next nothing =>
        rw [nothing, Option.toList_none, List.append_nil] at handed
        rw [uses, handed]
        exact ⟨kept.counted call.fd, generation.trans (kept.present call.fd)⟩
  · rw [if_neg same, List.append_nil] at handed
    rw [uses, handed, record.vacancy_after_of_ne call (Ne.symm same)]
    exact ⟨kept.counted fd, kept.present fd⟩

theorem Kept.after (kept : record.Kept) (call : SlotCall) : (record.after call).Kept where
  regular := (record.table.replies_call call).regular kept.regular
  proper fd := by
    by_cases same : fd = call.fd
    · subst same
      exact (record.table.replies_call call).proper (kept.proper call.fd)
    · rw [record.vacancy_after_of_ne call same]
      exact kept.proper fd
  counted fd := (kept.counts call fd).1
  present fd := (kept.counts call fd).2

theorem Kept.calls (kept : record.Kept) (calls : List SlotCall) :
    (calls.foldl SlotRecord.after record).Kept := by
  induction calls generalizing record with
  | nil => exact kept
  | cons call rest ih => exact ih (kept.after call)

namespace Kept

variable (kept : record.Kept)

include kept

end Kept

/-! ## One descriptor used again and again -/

end SlotRecord

end FileServer
