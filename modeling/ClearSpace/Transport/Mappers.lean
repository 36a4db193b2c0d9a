import ClearSpace.Transport.Messages
import Mathlib.Data.List.Sort

/-! # Mapping between core values and messages

`transport/src/mappers.cpp`. -/

namespace ClearSpace.Transport

open ClearSpace.Core

/-! ## Requests -/

/-- An enumeration is read from a byte that is at most its last value. -/
def checkedEnum {Value : Type} (build : UInt8 → Value) (last : UInt8)
    (message : ByteString) (byte : UInt8) : Except Error Value :=
  if last < byte then .error (.invalidParams message) else .ok (build byte)

def toColor : UInt8 → Except Error Color :=
  checkedEnum Color.mk Color.blue.value (.ascii "invalid color")

def toThickness : UInt8 → Except Error Thickness :=
  checkedEnum Thickness.mk Thickness.thick.value (.ascii "invalid thickness")

def toCorePoint (point : PointDto) : Point where
  x := point.x
  y := point.y

def toCoreEvent : EventRequest → Except Error EventPayload
  | .strokeBegin color thickness start => do
      let color ← toColor color
      let thickness ← toThickness thickness
      return .strokeBegin color thickness (toCorePoint start)
  | .strokePoint point => .ok (.strokePoint (toCorePoint point))
  | .strokeEnd => .ok .strokeEnd
  | .cursorMove point => .ok (.cursorMove (toCorePoint point))
  | .clear => .ok .clear

/-! ## Responses and events -/

def fromCorePoint (point : Point) : PointDto where
  x := point.x
  y := point.y

def fromCoreStroke (stroke : Stroke) : StrokeDto where
  id := stroke.id
  author := stroke.author
  color := stroke.color.value
  thickness := stroke.thickness.value
  strokeOrder := stroke.strokeOrder
  points := stroke.points.map fromCorePoint
  finished := stroke.finished

def errorCodeToString : ErrorCode → ByteString
  | .roomNotFound => .ascii "room_not_found"
  | .notInRoom => .ascii "not_in_room"
  | .protocolViolation => .ascii "protocol_violation"
  | .invalidParams => .ascii "invalid_params"

def toErrorMessage (error : Error) : ServerMessage :=
  .errorResponse (errorCodeToString error.code) error.message

def toSnapshotMessage (snapshot : RoomSnapshot) : ServerMessage :=
  let cursors := snapshot.state.cursors.entries.map fun entry =>
    { client := entry.1, point := fromCorePoint entry.2 : CursorDto }
  .roomSnapshotResponse snapshot.room snapshot.lastSeq
    (snapshot.members.insertionSort (· ≤ ·))
    (snapshot.state.strokes.map fromCoreStroke)
    (cursors.insertionSort fun lhs rhs => lhs.client ≤ rhs.client)

def toEventDto : ServerEventPayload → EventDto
  | .strokeBeginOut author id strokeOrder color thickness start =>
      .strokeBegin author id strokeOrder color.value thickness.value
        (fromCorePoint start)
  | .strokePointOut author id p => .strokePoint author id (fromCorePoint p)
  | .strokeEndOut author id => .strokeEnd author id
  | .cursorMoveOut author p => .cursorMove author (fromCorePoint p)
  | .clearOut author => .clear author
  | .memberLeftOut client => .memberLeft client

def toServerMessage (event : OutgoingEvent) : ServerMessage :=
  .event event.room event.seq (toEventDto event.payload)

end ClearSpace.Transport
