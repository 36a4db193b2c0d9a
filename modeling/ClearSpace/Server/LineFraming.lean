import ClearSpace.Foundation.Delimited
import ClearSpace.Server.LineHandling

/-! # Lines from bytes

`doReadLine` and `onReadLine` of `client_session.cpp`: the bytes of a connection
arrive in chunks of any size, and a handler takes one line at a time out of the
buffer. Writes and stops do not interfere here. -/

namespace ClearSpace.Server

open ClearSpace.Core ClearSpace.Transport Delimited

def newline : UInt8 := 10

/-- An exception of `handleLine` leaves the handler before the next read. -/
inductive ReadStatus
  | reading
  | stopped
  | crashed
  deriving DecidableEq, Repr

/-- What a handler finds in the rest of the server when it runs. -/
structure Surroundings where
  registry : UnorderedSet ClientId
  core : ServerCore
  now : TimePoint

/-- A session as far as it reads. `incoming` are the chunks to come before the
stream ends; `handled` is history: the lines given to `handleLine`. -/
structure LineReader where
  readBuffer : ByteString := []
  incoming : List ByteString
  currentRoom : Option RoomId := none
  handled : List ByteString := []
  status : ReadStatus := .reading

namespace LineReader

section Reading

variable (library : JsonLibrary) (client : ClientId) (surroundings : Nat → Surroundings)

/-- `onReadLine` without an error: the buffer has a newline. -/
def onReadLine (reader : LineReader) : LineReader :=
  let (line, rest) := getline newline reader.readBuffer
  let found := surroundings reader.handled.length
  let reader := { reader with
    readBuffer := rest
    handled := reader.handled ++ [line] }
  match handleLine library found.registry found.core client reader.currentRoom found.now
      line with
  | none => { reader with status := .crashed }
  | some (handled, _) => { reader with currentRoom := handled.currentRoom }

/-- One read and its handler. At the end of the stream the read fails, which
stops the session. -/
def turn (reader : LineReader) : LineReader :=
  match reader.status with
  | .reading =>
      let (buffer, incoming) := fill newline reader.readBuffer reader.incoming
      let reader := { reader with readBuffer := buffer, incoming }
      if newline ∈ buffer then reader.onReadLine library client surroundings
      else { reader with status := .stopped }
  | _ => reader

def turns (reader : LineReader) : Nat → LineReader
  | 0 => reader
  | count + 1 => (reader.turn library client surroundings).turns count

/-- Every line of the stream is handled once and in order, and then the session
stops. -/
def FramesLines (stream : ByteString) (chunks : List ByteString) : Prop :=
  ∃ count, (turns library client surroundings { incoming := chunks } count).handled =
      terminated newline stream ∧
    (turns library client surroundings { incoming := chunks } count).status = .stopped

end Reading

def ahead (reader : LineReader) : ByteString :=
  reader.readBuffer ++ reader.incoming.flatten

/-- Handling the line throws no exception: it is JSON, or what the parser quotes
of it can be sent back. -/
def Completes (library : JsonLibrary) (line : ByteString) : Prop :=
  ∀ failure, library.parse line = .error failure → Utf8.WellFormed failure.token

/-! ## One turn -/

section Turns

variable (library : JsonLibrary) (client : ClientId) (surroundings : Nat → Surroundings)
  {reader : LineReader}

private theorem turn_idle (idle : reader.status ≠ .reading) :
    reader.turn library client surroundings = reader := by
  unfold turn
  split
  next isReading => exact absurd isReading idle
  next => rfl

private theorem turn_at_end (isReading : reader.status = .reading)
    (absent : newline ∉ reader.ahead) :
    (reader.turn library client surroundings).status = .stopped ∧
      (reader.turn library client surroundings).handled = reader.handled := by
  have unfound : newline ∉ (fill newline reader.readBuffer reader.incoming).1 :=
    fun found => absent (mem_fill.mp found)
  simp only [turn, isReading, if_neg unfound, and_self]

theorem turn_line {library : JsonLibrary} (lawful : library.Lawful)
    (isReading : reader.status = .reading)
    (present : newline ∈ reader.ahead) :
    ∃ line, terminated newline reader.ahead =
        line :: terminated newline (reader.turn library client surroundings).ahead ∧
      (reader.turn library client surroundings).handled = reader.handled ++ [line] ∧
      (Completes library line ∧
          (reader.turn library client surroundings).status = .reading ∨
        ¬ Completes library line ∧
          (reader.turn library client surroundings).status = .crashed) := by
  have found : newline ∈ (fill newline reader.readBuffer reader.incoming).1 :=
    mem_fill.mpr present
  have first := terminated_turn found
  simp only [turn, isReading, if_pos found, onReadLine]
  generalize getline newline (fill newline reader.readBuffer reader.incoming).1 = taken
    at first ⊢
  generalize surroundings reader.handled.length = found
  have completes := handleLine_completes lawful found.registry found.core client
    reader.currentRoom found.now taken.1
  refine ⟨taken.1, ?_⟩
  split
  next threw =>
    rw [threw] at completes
    exact ⟨first, rfl, .inr ⟨fun complete => absurd (completes.mpr complete) nofun, rfl⟩⟩
  next handled lines answered =>
    rw [answered] at completes
    exact ⟨first, rfl, .inl ⟨completes.mp rfl, rfl⟩⟩

/-! ## Whole streams -/

private theorem turns_idle (idle : reader.status ≠ .reading) (count : Nat) :
    turns library client surroundings reader count = reader := by
  induction count with
  | zero => rfl
  | succ count induction =>
      rw [turns, turn_idle library client surroundings idle, induction]

section Lawful

variable {library : JsonLibrary} (lawful : library.Lawful)

include lawful

/-- If no line makes the handler throw, all of them are handled. -/
theorem turns_complete {lines : List ByteString} (isReading : reader.status = .reading)
    (isAhead : terminated newline reader.ahead = lines)
    (completes : ∀ line ∈ lines, Completes library line) :
    (turns library client surroundings reader (lines.length + 1)).handled =
        reader.handled ++ lines ∧
      (turns library client surroundings reader (lines.length + 1)).status =
        .stopped := by
  induction lines generalizing reader with
  | nil =>
      have absent : newline ∉ reader.ahead := by
        intro present
        rcases turn_line client surroundings lawful isReading present with
          ⟨line, first, _⟩
        rw [isAhead] at first
        cases first
      rcases turn_at_end library client surroundings isReading absent with ⟨stopped, same⟩
      exact ⟨same.trans (List.append_nil _).symm, stopped⟩
  | cons line rest induction =>
      have present : newline ∈ reader.ahead := by
        by_contra absent
        rw [terminated_of_not_mem absent] at isAhead
        cases isAhead
      rcases turn_line client surroundings lawful isReading present with
        ⟨taken, first, handled, answer⟩
      rw [isAhead] at first
      injection first with isTaken later
      subst isTaken
      rcases answer with ⟨_, stillReading⟩ | ⟨throws, _⟩
      · have final := induction stillReading later.symm fun other member =>
          completes other (List.mem_cons_of_mem _ member)
        rw [handled, List.append_assoc, List.singleton_append] at final
        exact final
      · exact absurd (completes line List.mem_cons_self) throws

/-- After a line that makes the handler throw, the session does not stop. -/
theorem turns_crashing (isReading : reader.status = .reading)
    (throws : ∃ line ∈ terminated newline reader.ahead, ¬ Completes library line)
    (count : Nat) :
    (turns library client surroundings reader count).status ≠ .stopped := by
  induction count generalizing reader with
  | zero =>
      rw [turns, isReading]
      exact nofun
  | succ count induction =>
      rcases throws with ⟨line, member, throws⟩
      have present : newline ∈ reader.ahead := by
        by_contra absent
        rw [terminated_of_not_mem absent] at member
        cases member
      rcases turn_line client surroundings lawful isReading present with
        ⟨taken, first, _, answer⟩
      rw [turns]
      rcases answer with ⟨completes, stillReading⟩ | ⟨_, crashed⟩
      · rw [first] at member
        rcases List.mem_cons.mp member with isTaken | later
        · rw [isTaken] at throws
          exact absurd completes throws
        · exact induction stillReading ⟨line, later, throws⟩
      · have idle : (reader.turn library client surroundings).status ≠ .reading := by
          rw [crashed]
          exact nofun
        rw [turns_idle library client surroundings idle, crashed]
        exact nofun

end Lawful

end Turns

/-- However the stream is divided, it is read line by line, exactly if no line
makes its handler throw. -/
theorem lines_framed (library : JsonLibrary) (lawful : library.Lawful) (client : ClientId)
    (surroundings : Nat → Surroundings) (stream : ByteString) (chunks : List ByteString)
    (division : chunks.flatten = stream) :
    FramesLines library client surroundings stream chunks ↔
      ∀ line ∈ terminated newline stream, Completes library line := by
  have isAhead : ({ incoming := chunks } : LineReader).ahead = stream := division
  constructor
  · intro frames line member
    by_contra throws
    rcases frames with ⟨count, _, stopped⟩
    have crashing :
        ∃ line ∈ terminated newline ({ incoming := chunks } : LineReader).ahead,
          ¬ Completes library line := by
      rw [isAhead]
      exact ⟨line, member, throws⟩
    exact turns_crashing client surroundings lawful rfl crashing count stopped
  · intro completes
    have sameLines := congrArg (terminated newline) isAhead
    exact ⟨_, turns_complete client surroundings lawful rfl sameLines completes⟩

/-- Two requests; the first one and half of the second arrive together. -/
def pingStream : List ByteString :=
  [pingLine ++ [newline] ++ pingLine.take 5, pingLine.drop 5 ++ [newline, 0x7B]]

def noSurroundings (_ : Nat) : Surroundings := ⟨∅, {}, 0⟩

private theorem terminated_pingStream :
    terminated newline pingStream.flatten = [pingLine, pingLine] := by
  decide

theorem lines_framed_ping :
    FramesLines pingLibrary 1 noSurroundings pingStream.flatten pingStream := by
  apply (lines_framed pingLibrary pingLibrary_lawful 1 noSurroundings _ pingStream
    rfl).mpr
  rw [terminated_pingStream]
  intro line member failure failed
  have isPing : line = pingLine := by simpa using member
  rw [isPing] at failed
  cases failed

/-- The line after the stray byte is never handled. -/
theorem lines_lost :
    ¬ ∀ library : JsonLibrary, library.Lawful → ∀ client surroundings stream chunks,
      (∀ chunk ∈ chunks, chunk ≠ []) → chunks.flatten = stream →
        FramesLines library client surroundings stream chunks := by
  intro always
  rcases always pingLibrary pingLibrary_lawful 1 noSurroundings _
    [[0xFF, newline] ++ pingLine ++ [newline]] (by decide) rfl with ⟨count, _, stopped⟩
  refine turns_crashing 1 noSurroundings pingLibrary_lawful rfl ⟨[0xFF], ?_, ?_⟩ count
    stopped
  · decide
  · intro completes
    exact absurd (completes (invalidLiteral [0xFF]) rfl) (by decide)

end LineReader

end ClearSpace.Server
