import ClearSpace.Core.Types

/-! # Messages between client and server

The alternatives of `transport/messages.hpp`. The five requests that act on the
board of the current room, and the six events, share their leading fields here;
everything else is as in the source. -/

namespace ClearSpace.Transport

open ClearSpace.Core

structure PointDto where
  x : FloatBits
  y : FloatBits
  deriving DecidableEq, Repr

structure CursorDto where
  client : ClientId
  point : PointDto
  deriving DecidableEq, Repr

structure StrokeDto where
  id : StrokeId
  author : ClientId
  color : UInt8
  thickness : UInt8
  strokeOrder : Seq
  points : List PointDto
  finished : Bool
  deriving DecidableEq, Repr

inductive EventRequest
  | strokeBegin (color : UInt8) (thickness : UInt8) (start : PointDto)
  | strokePoint (point : PointDto)
  | strokeEnd
  | cursorMove (point : PointDto)
  | clear
  deriving DecidableEq, Repr

inductive ClientMessage
  | pingRequest
  | createRoomRequest
  | joinRoomRequest (room : RoomId)
  | leaveRoomRequest (room : RoomId)
  | eventRequest (room : RoomId) (request : EventRequest)
  deriving DecidableEq, Repr

inductive EventDto
  | strokeBegin (author : ClientId) (id : StrokeId) (strokeOrder : Seq)
      (color : UInt8) (thickness : UInt8) (start : PointDto)
  | strokePoint (author : ClientId) (id : StrokeId) (point : PointDto)
  | strokeEnd (author : ClientId) (id : StrokeId)
  | cursorMove (author : ClientId) (point : PointDto)
  | clear (author : ClientId)
  | memberLeft (client : ClientId)
  deriving DecidableEq, Repr

inductive ServerMessage
  | pongResponse
  | roomCreatedResponse (room : RoomId)
  | okResponse (request : ByteString) (room : RoomId)
  | errorResponse (code : ByteString) (message : ByteString)
  | roomSnapshotResponse (room : RoomId) (lastSeq : Seq) (members : List ClientId)
      (strokes : List StrokeDto) (cursors : List CursorDto)
  | event (room : RoomId) (seq : Seq) (payload : EventDto)
  deriving DecidableEq, Repr

inductive ProtocolErrorCode
  | invalidJson
  | missingField
  | invalidFieldType
  | unknownMessageType
  | invalidMessage
  deriving DecidableEq, Repr

structure ProtocolError where
  code : ProtocolErrorCode
  message : ByteString
  deriving DecidableEq, Repr

end ClearSpace.Transport
