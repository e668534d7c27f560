import FileServer.Proofs.Response.Appending

/-!
# Composing answers

An answer is composed of texts, and each of them goes into its buffer as a whole or not at all.
A text comes in pieces, which are written one after the other behind the bytes in use, so that a
text that is too long has already written some of them when this is noticed.  They stay in cells
that are not in use, where the next text is written over them.  So whatever was composed before,
and however often this has failed, the bytes in use are the texts that were accepted since the
buffer was cleared last.

An error answer is three texts.  When one of them is refused the later ones are not tried, and
the earlier ones stay.
-/

namespace FileServer

/-- A call that appends one text. -/
inductive Addition where
  /-- Any text, with the pieces that it comes in. -/
  | formatted (pieces : List Bytes)
  | statusLine (status : Status)
  | headers (bodyLength : Nat) (keepAlive : Bool)
  | content (body : Bytes)
  deriving DecidableEq, Repr

namespace Addition

/-- The pieces of the text. -/
def pieces : Addition → List Bytes
  | .formatted pieces => pieces
  | .statusLine status => Response.statusLine status
  | .headers bodyLength keepAlive => Response.headers bodyLength keepAlive
  | .content body => [body]

/-- The text as a whole. -/
def text (addition : Addition) : Bytes :=
  addition.pieces.flatten

/-- Makes the call. -/
def perform (buffer : Buffer) : Addition → Bool × Buffer
  | .formatted pieces => buffer.append pieces
  | .statusLine status => buffer.appendStatusLine status
  | .headers bodyLength keepAlive => buffer.appendHeaders bodyLength keepAlive
  | .content body => buffer.appendContent body

/-- Makes calls one after the other until one is refused. -/
def performAll (buffer : Buffer) : List Addition → Bool × Buffer
  | [] => (true, buffer)
  | addition :: rest => Buffer.andThen (addition.perform buffer) fun next => performAll next rest

/-- The texts of these calls that are accepted. -/
def accepted (buffer : Buffer) : List Addition → List Bytes
  | [] => []
  | addition :: rest =>
      match addition.perform buffer with
      | (true, next) => addition.text :: accepted next rest
      | (false, _) => []

/-- The calls that an error answer is made of. -/
def ofError (status : Status) (keepAlive : Bool) : List Addition :=
  [.statusLine status, .headers (Response.errorBody status).length keepAlive,
    .content (Response.errorBody status)]

theorem perform_eq (buffer : Buffer) (addition : Addition) :
    addition.perform buffer = buffer.append addition.pieces := by
  cases addition <;> rfl

theorem performAll_ofError (buffer : Buffer) (status : Status) (keepAlive : Bool) :
    performAll buffer (ofError status keepAlive) = buffer.appendError status keepAlive := by
  simp only [ofError, performAll, perform, Buffer.appendError, Buffer.appendHead]
  cases buffer.appendStatusLine status with
  | mk first next =>
      cases first with
      | false => rfl
      | true =>
          simp only [Buffer.andThen]
          cases next.appendHeaders (Response.errorBody status).length keepAlive with
          | mk second last =>
              cases second with
              | false => rfl
              | true =>
                  simp only
                  cases last.appendContent (Response.errorBody status) with
                  | mk third whole => cases third <;> rfl

theorem text_ofError (status : Status) (keepAlive : Bool) :
    ((ofError status keepAlive).map text).flatten = Response.errorAnswer status keepAlive := by
  simp [ofError, text, pieces, Response.errorAnswer, Response.head]

end Addition

namespace Buffer

variable {buffer next : Buffer} {bytes : Bytes}

/-- A text was appended as a whole, since there was room for it, or was refused for lack of room
and has left the bytes in use alone. -/
structure AppendsWhole (buffer : Buffer) (text : Bytes) (outcome : Bool × Buffer) : Prop where
  accepted_iff : outcome.1 = true ↔ text.length ≤ buffer.room
  accepts : outcome.1 = true → outcome.2.contents = buffer.contents ++ text ∧
    outcome.2.used = buffer.used + text.length
  refuses : outcome.1 = false → outcome.2.contents = buffer.contents ∧
    outcome.2.used = buffer.used

/-- What a call does to a buffer that holds some bytes. -/
theorem Holds.perform_cases (holds : buffer.Holds bytes) (addition : Addition) :
    ∃ done next, addition.perform buffer = (done, next) ∧ next.capacity = buffer.capacity ∧
      (done = true ↔ addition.text.length ≤ buffer.room) ∧
      next.Holds (bytes ++ if done then addition.text else []) := by
  have total := holds.length_add_room
  rw [Addition.perform_eq]
  rcases Nat.lt_or_ge buffer.capacity (bytes ++ addition.text).length with tooLong | fits
  · obtain ⟨next, refused, stays, size⟩ := holds.append_of_overflow tooLong
    rw [List.length_append] at tooLong
    refine ⟨false, next, refused, size, iff_of_false Bool.false_ne_true (by omega), ?_⟩
    simpa using stays
  · obtain ⟨next, appended, stays, size⟩ := holds.append_of_fits fits
    rw [List.length_append] at fits
    exact ⟨true, next, appended, size, iff_of_true rfl (by omega), stays⟩

theorem Holds.appendsWhole (holds : buffer.Holds bytes) (addition : Addition) :
    buffer.AppendsWhole addition.text (addition.perform buffer) := by
  obtain ⟨done, next, performed, -, room, stays⟩ := holds.perform_cases addition
  rw [performed]
  refine ⟨room, ?_, ?_⟩
  · rintro rfl
    rw [stays.contents, stays.used, holds.contents, holds.used]
    exact ⟨rfl, List.length_append⟩
  · rintro rfl
    rw [stays.contents, stays.used, holds.contents, holds.used]
    simp

/-- Calls that follow one another are all accepted if there is room for all their texts. -/
theorem Holds.performAll (holds : buffer.Holds bytes) (additions : List Addition) :
    ∃ done next, Addition.performAll buffer additions = (done, next) ∧
      next.capacity = buffer.capacity ∧
      (done = true ↔ (additions.map Addition.text).flatten.length ≤ buffer.room) ∧
      (done = true → Addition.accepted buffer additions = additions.map Addition.text) ∧
      next.Holds (bytes ++ (Addition.accepted buffer additions).flatten) := by
  induction additions generalizing buffer bytes with
  | nil => exact ⟨true, buffer, rfl, rfl, by simp, fun _ => rfl, by simpa [Addition.accepted]⟩
  | cons addition rest ih =>
      obtain ⟨done, next, performed, size, room, stays⟩ := holds.perform_cases addition
      have before := holds.length_add_room
      have after := stays.length_add_room
      simp only [Addition.performAll, Addition.accepted, performed, List.map_cons,
        List.flatten_cons, List.length_append]
      cases done with
      | false =>
          refine ⟨false, next, rfl, size, ?_, nofun, by simpa using stays⟩
          have tooLong := mt room.2 Bool.false_ne_true
          exact iff_of_false Bool.false_ne_true (by omega)
      | true =>
          obtain ⟨all, last, made, sizeToo, others, whole, held⟩ := ih stays
          have fits := room.1 rfl
          refine ⟨all, last, made, sizeToo.trans size, others.trans ?_,
            fun accepted => congrArg _ (whole accepted), ?_⟩
          · simp only [if_true, List.length_append] at after
            omega
          · simpa using held

end Buffer

/-- What the buffer of an answer can be asked for. -/
inductive BufferRequest where
  | add (addition : Addition)
  | error (status : Status) (keepAlive : Bool)
  | clear
  deriving DecidableEq, Repr

/-- A buffer and the texts that it has accepted since it was cleared last, in order. -/
structure Composition where
  buffer : Buffer
  accepted : List Bytes
  deriving DecidableEq, Repr

namespace Composition

variable {composition : Composition} {capacity : Nat}

/-- The buffer is new. -/
def start (capacity : Nat) : Composition :=
  ⟨.ofCapacity capacity, []⟩

/-- Asks the buffer for something. -/
def after (composition : Composition) : BufferRequest → Composition
  | .add addition => {
      buffer := (addition.perform composition.buffer).2
      accepted := composition.accepted ++ Addition.accepted composition.buffer [addition] }
  | .error status keepAlive => {
      buffer := (composition.buffer.appendError status keepAlive).2
      accepted := composition.accepted ++
        Addition.accepted composition.buffer (Addition.ofError status keepAlive) }
  | .clear => ⟨composition.buffer.clear, []⟩

/-- Asks a new buffer for one thing after the other. -/
def ofRequests (capacity : Nat) (requests : List BufferRequest) : Composition :=
  requests.foldl after (start capacity)

/-- What holds between two requests. -/
structure Sound (capacity : Nat) (composition : Composition) : Prop where
  capacity : composition.buffer.capacity = capacity
  holds : composition.buffer.Holds composition.accepted.flatten

theorem sound_start (capacity : Nat) : (start capacity).Sound capacity where
  capacity := List.length_replicate
  holds := ⟨rfl, rfl⟩

/-- Calls that are made one after the other keep what holds. -/
theorem Sound.performAll (sound : composition.Sound capacity) (additions : List Addition) :
    Sound capacity ⟨(Addition.performAll composition.buffer additions).2,
      composition.accepted ++ Addition.accepted composition.buffer additions⟩ := by
  obtain ⟨done, next, performed, size, -, -, stays⟩ := sound.holds.performAll additions
  rw [performed]
  exact ⟨size.trans sound.capacity, by rwa [List.flatten_append]⟩

theorem Sound.after (sound : composition.Sound capacity) (request : BufferRequest) :
    (composition.after request).Sound capacity := by
  cases request with
  | add addition =>
      have single : Addition.performAll composition.buffer [addition] =
          addition.perform composition.buffer := by
        simp only [Addition.performAll]
        rcases addition.perform composition.buffer with ⟨_ | _, next⟩ <;> rfl
      have kept := sound.performAll [addition]
      rwa [single] at kept
  | error status keepAlive =>
      have kept := sound.performAll (Addition.ofError status keepAlive)
      rwa [Addition.performAll_ofError] at kept
  | clear => exact ⟨sound.capacity, Buffer.holds_clear _⟩

theorem Sound.run (sound : composition.Sound capacity) (requests : List BufferRequest) :
    (requests.foldl Composition.after composition).Sound capacity := by
  induction requests generalizing composition with
  | nil => exact sound
  | cons request rest ih => exact ih (sound.after request)

/-- Texts are appended as a whole or not at all. -/
structure AppendsOrNothing (capacity : Nat) (composition : Composition) : Prop where
  /-- The bytes in use stay inside of the cells, and there are always as many of these. -/
  bound : composition.buffer.used ≤ capacity ∧ composition.buffer.capacity = capacity
  /-- The bytes in use are the accepted texts, one behind the other. -/
  contents : composition.buffer.contents = composition.accepted.flatten ∧
    composition.buffer.used = composition.accepted.flatten.length
  /-- Whatever text comes next, there is room for all of it or nothing changes. -/
  addition (addition : Addition) :
    composition.buffer.AppendsWhole addition.text (addition.perform composition.buffer)
  /-- An error answer is complete just when there is room for all of it. -/
  error (status : Status) (keepAlive : Bool) :
    ((composition.buffer.appendError status keepAlive).1 = true ↔
      (Response.errorAnswer status keepAlive).length ≤ composition.buffer.room) ∧
    ((composition.buffer.appendError status keepAlive).1 = true →
      (composition.buffer.appendError status keepAlive).2.contents =
        composition.buffer.contents ++ Response.errorAnswer status keepAlive)

/-- The buffer of an answer appends texts as a whole or not at all.  Let a buffer of any size be
asked for any texts and error answers, and be cleared, in any order.  Then the bytes in use are
no more than it has cells, and are the texts that it has accepted since it was cleared last.
Each text that may come next is accepted just when it fits into the room that is left, exactly
filled or not, and is behind those bytes then; otherwise these bytes and their number stay as
they are, however many pieces of the text had fitted.  An error answer succeeds just when its
status line, header section and body fit together. -/
theorem append_or_nothing (capacity : Nat) (requests : List BufferRequest) :
    (ofRequests capacity requests).AppendsOrNothing capacity := by
  have sound : (ofRequests capacity requests).Sound capacity := (sound_start capacity).run requests
  have holds := sound.holds
  have bound := holds.used_le
  rw [sound.capacity] at bound
  refine ⟨⟨bound, sound.capacity⟩, ⟨holds.contents, holds.used⟩,
    holds.appendsWhole, fun status keepAlive => ?_⟩
  obtain ⟨done, next, performed, -, room, whole, stays⟩ :=
    holds.performAll (Addition.ofError status keepAlive)
  rw [Addition.performAll_ofError] at performed
  rw [Addition.text_ofError] at room
  rw [performed]
  refine ⟨room, fun complete => ?_⟩
  rw [stays.contents, holds.contents, whole complete, Addition.text_ofError]

/-- The header section is refused and leaves its first pieces behind; the body fits exactly, and
is written over them. -/
example :
    (ofRequests 40 [.add (.statusLine .ok), .add (.headers 3 true),
      .add (.content (utf8 "Twenty-three characters"))]).buffer.contents =
        utf8 "HTTP/1.1 200 OK\r\nTwenty-three characters" := by
  decide +kernel

end Composition

end FileServer
