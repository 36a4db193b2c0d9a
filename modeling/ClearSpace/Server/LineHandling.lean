import ClearSpace.Server.ClientSession
import ClearSpace.Transport.JsonProtocol

/-! # Lines from clients

`handleLine` from the bytes of a line to the lines it posts. An exception of the
JSON writer is not caught anywhere on the way and ends the program. -/

namespace ClearSpace.Server

open ClearSpace.Core ClearSpace.Transport

/-- The lines posted by the steps of a handler; nothing when an exception leaves
it. Events for a client that is not registered are not even written. -/
def postedLines (library : JsonLibrary) (registry : UnorderedSet ClientId)
    (client : ClientId) : List HandlerStep → Option (List (ClientId × ByteString))
  | [] => some []
  | .deliver message :: rest => do
      let text ← serializeServerMessage library message
      let later ← postedLines library registry client rest
      return (client, text ++ .ascii "\n") :: later
  | .forward event :: rest =>
      if event.recipient ∈ registry then do
        let text ← serializeServerMessage library (toServerMessage event)
        let later ← postedLines library registry client rest
        return (event.recipient, text ++ .ascii "\n") :: later
      else postedLines library registry client rest
  | .remove :: rest => postedLines library registry client rest
  | .doReadLine :: rest => postedLines library registry client rest

def handleLine (library : JsonLibrary) (registry : UnorderedSet ClientId)
    (core : ServerCore) (client : ClientId) (currentRoom : Option RoomId)
    (now : TimePoint) (line : ByteString) :
    Option (Handled × List (ClientId × ByteString)) :=
  let handled :=
    handleParsed core client currentRoom now (parseClientMessage library line)
  (postedLines library registry client handled.steps).map fun lines => (handled, lines)

/-! ## The texts of core errors -/

def ReadableError (error : Error) : Prop := Utf8.WellFormed error.message

private theorem leave_readable (room : Room) (client : ClientId) :
    FailsWith ReadableError (room.leave client).result := by
  unfold Room.leave
  split
  · exact .ok _
  · exact .error (wellFormed_ascii _)

private theorem apply_readable (room : Room) (client : ClientId) (event : EventPayload)
    (now : TimePoint) : FailsWith ReadableError (room.apply client event now).result := by
  unfold Room.apply
  split
  · cases event with
    | strokeBegin color thickness start =>
        simp only [Room.applyStrokeBegin]
        split
        · exact .error (wellFormed_ascii _)
        · exact .ok _
    | strokePoint p =>
        simp only [Room.applyStrokePoint]
        split
        · exact .error (wellFormed_ascii _)
        · split
          · exact .error (wellFormed_ascii _)
          · exact .ok _
    | strokeEnd =>
        simp only [Room.applyStrokeEnd]
        split
        · exact .error (wellFormed_ascii _)
        · split
          · exact .error (wellFormed_ascii _)
          · exact .ok _
    | cursorMove p =>
        simp only [Room.applyCursorMove]
        split
        · exact .ok _
        · exact .ok _
    | clear => exact .ok _
  · exact .error (wellFormed_ascii _)

private theorem call_readable (room : Room) (call : Call) :
    FailsWith ReadableError (room.call call).result := by
  cases call with
  | join client => exact .ok _
  | leave client => exact (leave_readable room client).map _
  | apply client event now => exact (apply_readable room client event now).map _

private theorem toCoreEvent_readable (request : EventRequest) :
    FailsWith ReadableError (toCoreEvent request) := by
  cases request with
  | strokeBegin color thickness start =>
      have colorReadable : FailsWith ReadableError (toColor color) :=
        .ite (fun _ => .error (wellFormed_ascii _)) fun _ => .ok _
      have thicknessReadable : FailsWith ReadableError (toThickness thickness) :=
        .ite (fun _ => .error (wellFormed_ascii _)) fun _ => .ok _
      apply colorReadable.bind
      intro color
      apply thicknessReadable.bind
      exact fun _ => .ok _
  | strokePoint => exact .ok _
  | strokeEnd => exact .ok _
  | cursorMove => exact .ok _
  | clear => exact .ok _

/-! ## The posts of a request -/

theorem sendError_sendable {error : Error} :
    (∀ step ∈ sendError error, Sendable step) ↔ ReadableError error := by
  have code : Utf8.WellFormed (errorCodeToString error.code) := by
    cases error.code <;> exact wellFormed_ascii _
  simp [sendError, Sendable, toErrorMessage, ServerMessage.Writable, ServerMessage.texts,
    code, ReadableError]

theorem dispatchOutgoing_sendable (events : List OutgoingEvent) :
    ∀ step ∈ dispatchOutgoing events, Sendable step := by
  intro step member
  rcases List.mem_map.mp member with ⟨event, _, rfl⟩
  trivial

/-- The core has readable reasons, so all it takes is that the line was parsed. -/
theorem Served.sendable {core : ServerCore} {client : ClientId}
    {currentRoom : Option RoomId} {now : TimePoint} {message : ClientMessage}
    {handled : Handled}
    (served : Served core client currentRoom now (.ok message) handled) :
    ∀ step ∈ handled.steps, Sendable step := by
  cases served with
  | refused _ error reason =>
      apply sendError_sendable.mpr
      cases reason with
      | invalidEvent id request _ failed =>
          exact toCoreEvent_readable request error failed
      | _ => exact wellFormed_ascii _
  | ponged => simp [Sendable, ServerMessage.Writable, ServerMessage.texts]
  | created => simp [Sendable, ServerMessage.Writable, ServerMessage.texts]
  | failed _ id room call next error asks found relays =>
      exact sendError_sendable.mpr (call_readable room call error relays.result.symm)
  | joined id room next snapshot free found relays =>
      simp [Sendable, toSnapshotMessage, ServerMessage.Writable, ServerMessage.texts]
  | left id room next events inside found relays =>
      rw [List.forall_mem_append]
      refine ⟨dispatchOutgoing_sendable events, ?_⟩
      simp [Sendable, ServerMessage.Writable, ServerMessage.texts, wellFormed_ascii]
  | applied id request event room next events inside read found relays =>
      exact dispatchOutgoing_sendable events

/-- Events carry no text of their own, so only direct replies can fail. -/
theorem postedLines_isSome {library : JsonLibrary} (lawful : library.Lawful)
    (registry : UnorderedSet ClientId) (client : ClientId) (steps : List HandlerStep) :
    (postedLines library registry client steps).isSome = true ↔
      ∀ step ∈ steps, Sendable step := by
  induction steps with
  | nil => simp [postedLines]
  | cons step rest induction =>
      rw [List.forall_mem_cons, ← induction]
      cases step with
      | deliver message =>
          rw [Sendable, ← serializeServerMessage_isSome lawful]
          cases written : serializeServerMessage library message <;>
            cases later : postedLines library registry client rest <;>
            simp [postedLines, written, later]
      | forward event =>
          have isWritten : (serializeServerMessage library
              (toServerMessage event)).isSome = true := by
            rw [serializeServerMessage_isSome lawful]
            exact nofun
          rcases Option.isSome_iff_exists.mp isWritten with ⟨text, written⟩
          by_cases registered : event.recipient ∈ registry <;>
            cases later : postedLines library registry client rest <;>
            simp [postedLines, written, later, registered, Sendable]
      | remove => simp [postedLines, Sendable]
      | doReadLine => simp [postedLines, Sendable]

/-- A line is handled without an exception exactly if it is JSON or the token at
which parsing stopped is well-formed UTF-8. -/
theorem handleLine_completes {library : JsonLibrary} (lawful : library.Lawful)
    (registry : UnorderedSet ClientId) (core : ServerCore) (client : ClientId)
    (currentRoom : Option RoomId) (now : TimePoint) (line : ByteString) :
    (handleLine library registry core client currentRoom now line).isSome = true ↔
      ∀ failure, library.parse line = .error failure →
        Utf8.WellFormed failure.token := by
  rw [← parseClientMessage_readable lawful, handleLine, Option.isSome_map,
    postedLines_isSome lawful]
  cases parseClientMessage library line with
  | error error =>
      rw [handleParsed, sendError_sendable]
      constructor
      · exact fun readable => .error readable
      · exact fun readable => readable error rfl
  | ok message =>
      refine iff_of_true ?_ (.ok message)
      exact (handleParsed_served (.ok message)).sendable

/-! ## One request and one stray byte -/

def pingLine : ByteString := .ascii "\x7b\"type\":\"ping\"\x7d"

/-- The failure of the parser at the first byte of a line. -/
def invalidLiteral (token : ByteString) : ParseFailure where
  before := .ascii ("[json.exception.parse_error.101] parse error at line 1, column 1: " ++
    "syntax error while parsing value - invalid literal; last read: '")
  token := token
  after := .ascii "'"
  beforeAscii := ByteString.ascii_lt _
  afterAscii := ByteString.ascii_lt _

/-- A library that reads `pingLine` and writes objects with one text. -/
def pingLibrary : JsonLibrary where
  parse line :=
    if line = pingLine then .ok (makeObject [("type", .string (.ascii "ping"))])
    else .error (invalidLiteral line)
  dump value :=
    if value.encodable then
      match value with
      | .object [(key, .string text)] =>
          some (.ascii "\x7b\"" ++ key ++ .ascii "\":\"" ++ text ++ .ascii "\"\x7d")
      | _ => some []
    else none
  floatToDouble _ := 0
  doubleToFloat _ := 0
  unsignedToFloat _ := 0
  integerToFloat _ := 0
  doubleToUInt64 _ := 0
  doubleToUInt32 _ := 0

theorem pingLibrary_lawful : pingLibrary.Lawful where
  parse_encodable line value read := by
    simp only [pingLibrary] at read
    split at read
    · cases read
      decide
    · cases read
  dump_isSome value := by
    simp only [pingLibrary]
    cases value.encodable with
    | false => rfl
    | true =>
        rw [if_pos rfl]
        split <;> rfl

theorem handleLine_completes_ping :
    ((handleLine pingLibrary ∅ {} 1 none 0 pingLine).map Prod.snd =
      some [(1, .ascii "\x7b\"type\":\"pong\"\x7d\n")]) ∧
      (handleLine pingLibrary ∅ {} 1 none 0 pingLine).isSome = true := by
  refine ⟨by decide, ?_⟩
  apply (handleLine_completes pingLibrary_lawful ∅ {} 1 none 0 pingLine).mpr
  intro failure failed
  cases failed

/-- The byte `0xFF` is quoted in the error that is to be sent back. -/
theorem handleLine_throws :
    ¬ ∀ library : JsonLibrary, library.Lawful → ∀ registry core client currentRoom now
      line, (handleLine library registry core client currentRoom now line).isSome =
        true := by
  intro always
  have completes := always pingLibrary pingLibrary_lawful ∅ {} 1 none 0 [0xFF]
  have failed : parseClientMessage pingLibrary [0xFF] =
      .error ⟨.invalidJson, (invalidLiteral [0xFF]).what⟩ := rfl
  rw [handleLine, Option.isSome_map, postedLines_isSome pingLibrary_lawful, failed,
    handleParsed, sendError_sendable] at completes
  have quoted : Utf8.WellFormed [0xFF] :=
    (invalidLiteral [0xFF]).what_wellFormed.mp completes
  exact absurd quoted (by decide)

end ClearSpace.Server
