import ClearSpace.Foundation.ByteString
import ClearSpace.Foundation.Containers
import Mathlib.Algebra.Ring.Int.Defs
import Mathlib.Algebra.Ring.Nat

/-! # Data model of the core

The value types of `core/include/clearspace/core`: identifiers, drawings,
events, errors and snapshots. -/

namespace ClearSpace.Core

/-! ## Identifiers and time -/

abbrev RoomId := UInt64
abbrev ClientId := UInt64
abbrev StrokeId := UInt64
abbrev Seq := UInt64

/-- Nanoseconds of the steady clock, in the 64 bits of its representation. -/
abbrev TimePoint := Int64

namespace Config

/-- `kCursorMinInterval`, 40 ms. -/
def cursorMinInterval : Int64 := 40 * 1000000

end Config

/-! ## Drawings -/

/-- The bit pattern of a C++ `float`. The modelled code copies coordinates and
never computes with them. -/
abbrev FloatBits := UInt32

structure Point where
  x : FloatBits
  y : FloatBits
  deriving DecidableEq, Repr

/-- `enum class Color : std::uint8_t`. A value of the enumeration may hold any
byte, and stored snapshots are read back without a check, so the named colours
are constants and not constructors. -/
structure Color where
  value : UInt8
  deriving DecidableEq, Repr

namespace Color

def black : Color := ⟨0⟩
def red : Color := ⟨1⟩
def green : Color := ⟨2⟩
def blue : Color := ⟨3⟩

end Color

/-- `enum class Thickness : std::uint8_t`, again open to any byte. -/
structure Thickness where
  value : UInt8
  deriving DecidableEq, Repr

namespace Thickness

def thin : Thickness := ⟨0⟩
def medium : Thickness := ⟨1⟩
def thick : Thickness := ⟨2⟩

end Thickness

structure Stroke where
  id : StrokeId
  author : ClientId
  color : Color
  thickness : Thickness
  strokeOrder : Seq
  points : List Point
  finished : Bool
  deriving DecidableEq, Repr

namespace Stroke

def push (stroke : Stroke) (point : Point) : Stroke :=
  { stroke with points := stroke.points ++ [point] }

def finish (stroke : Stroke) : Stroke :=
  { stroke with finished := true }

end Stroke

structure BoardState where
  strokes : List Stroke := []
  cursors : UnorderedMap ClientId Point := ∅
  deriving DecidableEq

/-! ## Events -/

inductive EventPayload
  | strokeBegin (color : Color) (thickness : Thickness) (start : Point)
  | strokePoint (p : Point)
  | strokeEnd
  | cursorMove (p : Point)
  | clear
  deriving DecidableEq, Repr

inductive ServerEventPayload
  | strokeBeginOut (author : ClientId) (id : StrokeId) (strokeOrder : Seq)
      (color : Color) (thickness : Thickness) (start : Point)
  | strokePointOut (author : ClientId) (id : StrokeId) (p : Point)
  | strokeEndOut (author : ClientId) (id : StrokeId)
  | cursorMoveOut (author : ClientId) (p : Point)
  | clearOut (author : ClientId)
  | memberLeftOut (client : ClientId)
  deriving DecidableEq, Repr

/-- `recipient` is the field `to` of the source, a keyword here. -/
structure OutgoingEvent where
  room : RoomId
  recipient : ClientId
  seq : Seq
  payload : ServerEventPayload
  deriving DecidableEq, Repr

/-! ## Errors -/

inductive ErrorCode
  | roomNotFound
  | notInRoom
  | protocolViolation
  | invalidParams
  deriving DecidableEq, Repr

structure Error where
  code : ErrorCode
  message : ByteString
  deriving DecidableEq, Repr

namespace Error

def roomNotFound : Error := ⟨.roomNotFound, .ascii "room not found"⟩

def notInRoom : Error := ⟨.notInRoom, .ascii "client is not in room"⟩

def protocolViolation (message : ByteString) : Error :=
  ⟨.protocolViolation, message⟩

def invalidParams (message : ByteString) : Error :=
  ⟨.invalidParams, message⟩

end Error

/-! ## Snapshots -/

/-- What a joining client is given. -/
structure RoomSnapshot where
  room : RoomId
  lastSeq : Seq
  state : BoardState
  members : List ClientId
  deriving DecidableEq

/-- What is handed to the snapshot sink; cursors are not stored. -/
structure PersistedBoardSnapshot where
  room : RoomId
  lastSeq : Seq
  strokes : List Stroke
  deriving DecidableEq, Repr

end ClearSpace.Core
