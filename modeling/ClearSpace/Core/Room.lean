import ClearSpace.Core.Types
import ClearSpace.Foundation.Execution

/-! # Rooms

`Room` of `core/src/room.cpp`. Every member function holds the room mutex from
its first to its last line, so each is one state transformer; the reading of
the clock is an argument of the operations that look at it. -/

namespace ClearSpace.Core

structure Room where
  id : RoomId
  members : UnorderedSet ClientId := ∅
  board : BoardState := {}
  nextSeq : Seq := 1
  nextStrokeId : StrokeId := 1
  lastCursorUpdate : UnorderedMap ClientId TimePoint := ∅
  activeStrokeByClient : UnorderedMap ClientId StrokeId := ∅
  strokeIndexById : UnorderedMap StrokeId Nat := ∅

/-- A sequence number that was drawn, with the payload broadcast under it. -/
structure Issued where
  seq : Seq
  payload : ServerEventPayload
  deriving DecidableEq, Repr

/-- What a call leaves behind. `issued` is history: the source keeps no record
of it, and nothing here reads it back. -/
structure Outcome (Value : Type) where
  room : Room
  result : Except Error Value
  issued : List Issued := []

namespace Room

def new (id : RoomId) : Room := { id }

def memberCount (room : Room) : Nat := room.members.size

def lastSeq (room : Room) : Seq :=
  if room.nextSeq = 0 then 0 else room.nextSeq - 1

def makePersistedSnapshot (room : Room) : PersistedBoardSnapshot where
  room := room.id
  lastSeq := room.lastSeq
  strokes := room.board.strokes

def broadcast (room : Room) (sender : ClientId) (seq : Seq)
    (payload : ServerEventPayload) : List OutgoingEvent :=
  (room.members.others sender).map fun member =>
    { room := room.id, recipient := member, seq, payload }

/-- The room, events and history of the last lines of every operation: draw
`nextSeq_++` and broadcast under it. -/
structure Emission where
  room : Room
  events : List OutgoingEvent
  issued : List Issued

/-- `nextSeq_++`, which wraps at `2 ^ 64`. -/
def advance (room : Room) : Room :=
  { room with nextSeq := room.nextSeq + 1 }

def issue (room : Room) (sender : ClientId) (payload : ServerEventPayload) :
    Emission where
  room := room.advance
  events := room.broadcast sender room.nextSeq payload
  issued := [⟨room.nextSeq, payload⟩]

def Emission.succeed (emission : Emission) : Outcome (List OutgoingEvent) where
  room := emission.room
  result := .ok emission.events
  issued := emission.issued

def refuse (room : Room) (error : Error) : Outcome (List OutgoingEvent) where
  room := room
  result := .error error

/-! ## Joining and leaving -/

def snapshot (room : Room) : RoomSnapshot where
  room := room.id
  lastSeq := room.lastSeq
  state := room.board
  members := room.members.elements

def addMember (room : Room) (client : ClientId) : Room :=
  { room with members := room.members.insert client }

def join (room : Room) (client : ClientId) : Outcome RoomSnapshot where
  room := room.addMember client
  result := .ok (room.addMember client).snapshot

/-- `board_.strokes[index]` updated in place. Out of range the source has no
defined behaviour; `Invariant.index_in_range` excludes that case. -/
def modifyStroke (room : Room) (index : Nat) (change : Stroke → Stroke) : Room :=
  { room with board.strokes := room.board.strokes.modify index change }

def deactivate (room : Room) (client : ClientId) : Room :=
  { room with activeStrokeByClient := room.activeStrokeByClient.erase client }

/-- The first half of `leave`: a stroke the client is still drawing ends. -/
def endActiveStroke (room : Room) (client : ClientId) : Emission :=
  match room.activeStrokeByClient.lookup client with
  | none => { room, events := [], issued := [] }
  | some sid =>
      let room := match room.strokeIndexById.lookup sid with
        | some index => room.modifyStroke index Stroke.finish
        | none => room
      (room.deactivate client).issue client (.strokeEndOut client sid)

/-- The second half of `leave`: cursor, throttle entry and membership go. -/
def forget (room : Room) (client : ClientId) : Room :=
  { room with
    board.cursors := room.board.cursors.erase client
    lastCursorUpdate := room.lastCursorUpdate.erase client
    members := room.members.erase client }

def leave (room : Room) (client : ClientId) : Outcome (List OutgoingEvent) :=
  if client ∈ room.members then
    let ended := room.endActiveStroke client
    let left := (ended.room.forget client).issue client (.memberLeftOut client)
    { room := left.room
      result := .ok (ended.events ++ left.events)
      issued := ended.issued ++ left.issued }
  else
    room.refuse .notInRoom

/-! ## Drawing -/

def freshStroke (room : Room) (client : ClientId) (color : Color)
    (thickness : Thickness) (start : Point) : Stroke where
  id := room.nextStrokeId
  author := client
  color := color
  thickness := thickness
  strokeOrder := room.nextSeq
  points := [start]
  finished := false

def addStroke (room : Room) (stroke : Stroke) : Room :=
  { room with
    nextStrokeId := room.nextStrokeId + 1
    board.strokes := room.board.strokes ++ [stroke]
    strokeIndexById :=
      room.strokeIndexById.insert stroke.id room.board.strokes.length
    activeStrokeByClient :=
      room.activeStrokeByClient.insert stroke.author stroke.id }

def applyStrokeBegin (room : Room) (client : ClientId) (color : Color)
    (thickness : Thickness) (start : Point) : Outcome (List OutgoingEvent) :=
  match room.activeStrokeByClient.lookup client with
  | some _ => room.refuse (.protocolViolation (.ascii "stroke already active"))
  | none =>
      let stroke := room.freshStroke client color thickness start
      ((room.addStroke stroke).issue client (.strokeBeginOut client stroke.id
        stroke.strokeOrder color thickness start)).succeed

def applyStrokePoint (room : Room) (client : ClientId) (p : Point) :
    Outcome (List OutgoingEvent) :=
  match room.activeStrokeByClient.lookup client with
  | none =>
      room.refuse (.protocolViolation (.ascii "stroke point without begin"))
  | some sid =>
      match room.strokeIndexById.lookup sid with
      | none => room.refuse (.protocolViolation (.ascii "unknown stroke id"))
      | some index =>
          let room := room.modifyStroke index fun stroke => stroke.push p
          (room.issue client (.strokePointOut client sid p)).succeed

def applyStrokeEnd (room : Room) (client : ClientId) :
    Outcome (List OutgoingEvent) :=
  match room.activeStrokeByClient.lookup client with
  | none =>
      room.refuse (.protocolViolation (.ascii "stroke end without begin"))
  | some sid =>
      match room.strokeIndexById.lookup sid with
      | none => room.refuse (.protocolViolation (.ascii "unknown stroke id"))
      | some index =>
          let room := (room.modifyStroke index Stroke.finish).deactivate client
          (room.issue client (.strokeEndOut client sid)).succeed

/-- The early return of `applyCursorMove_`: the last accepted move of the
client is less than the minimum interval ago. -/
def throttled (room : Room) (client : ClientId) (now : TimePoint) : Bool :=
  match room.lastCursorUpdate.lookup client with
  | none => false
  | some last => decide (now - last < Config.cursorMinInterval)

def moveCursor (room : Room) (client : ClientId) (p : Point)
    (now : TimePoint) : Room :=
  { room with
    lastCursorUpdate := room.lastCursorUpdate.insert client now
    board.cursors := room.board.cursors.insert client p }

def applyCursorMove (room : Room) (client : ClientId) (p : Point)
    (now : TimePoint) : Outcome (List OutgoingEvent) :=
  if room.throttled client now then
    { room, result := .ok [] }
  else
    ((room.moveCursor client p now).issue client (.cursorMoveOut client p)).succeed

def clearBoard (room : Room) : Room :=
  { room with
    board.strokes := []
    activeStrokeByClient := ∅
    strokeIndexById := ∅ }

def applyClear (room : Room) (client : ClientId) : Outcome (List OutgoingEvent) :=
  (room.clearBoard.issue client (.clearOut client)).succeed

def apply (room : Room) (client : ClientId) (event : EventPayload)
    (now : TimePoint) : Outcome (List OutgoingEvent) :=
  if client ∈ room.members then
    match event with
    | .strokeBegin color thickness start =>
        room.applyStrokeBegin client color thickness start
    | .strokePoint p => room.applyStrokePoint client p
    | .strokeEnd => room.applyStrokeEnd client
    | .cursorMove p => room.applyCursorMove client p now
    | .clear => room.applyClear client
  else
    room.refuse .notInRoom

end Room

/-! ## Calls and runs -/

inductive Call
  | join (client : ClientId)
  | leave (client : ClientId)
  | apply (client : ClientId) (event : EventPayload) (now : TimePoint)
  deriving DecidableEq, Repr

def Call.client : Call → ClientId
  | .join client => client
  | .leave client => client
  | .apply client _ _ => client

inductive Reply
  | snapshot (snapshot : RoomSnapshot)
  | events (events : List OutgoingEvent)
  deriving DecidableEq

def Outcome.map {Value Other : Type} (transform : Value → Other)
    (outcome : Outcome Value) : Outcome Other where
  room := outcome.room
  result := outcome.result.map transform
  issued := outcome.issued

namespace Room

def call (room : Room) : Call → Outcome Reply
  | .join client => (room.join client).map .snapshot
  | .leave client => (room.leave client).map .events
  | .apply client event now => (room.apply client event now).map .events

def machine : Machine Room Call (Outcome Reply) where
  step room call := ((room.call call).room, room.call call)

def run (room : Room) (calls : List Call) : Room := machine.final room calls

def results (room : Room) (calls : List Call) : List (Except Error Reply) :=
  (machine.outputs room calls).map Outcome.result

def history (room : Room) (calls : List Call) : List Issued :=
  (machine.outputs room calls).flatMap Outcome.issued

end Room

end ClearSpace.Core
