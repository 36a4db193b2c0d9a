import ClearSpace.Core.ServerCore
import ClearSpace.Transport.JsonProtocol
import ClearSpace.Transport.Mappers

/-! # Client sessions

`server/src/client_session.cpp`. A session runs its handlers one at a time on
its strand. A handler makes its call of the core first; the posts that follow
are left in `rest` and happen one by one, with other sessions in between. A
message stands for the line that `serializeServerMessage` makes of it. -/

namespace ClearSpace.Server

open ClearSpace.Core ClearSpace.Transport

/-- What a running handler still does: `deliver` posts to the session's own
strand, `forward` to that of the recipient of an event, through the registry. -/
inductive HandlerStep
  | deliver (message : ServerMessage)
  | forward (event : OutgoingEvent)
  | remove
  | doReadLine
  deriving DecidableEq

/-- The step throws no exception. `deliver` writes its line before it posts anything,
which throws for a text that is not UTF-8; events have no texts. -/
def Sendable : HandlerStep → Prop
  | .deliver message => message.Writable
  | .forward _ => True
  | .remove => True
  | .doReadLine => True

instance : DecidablePred Sendable
  | .deliver message => inferInstanceAs (Decidable message.Writable)
  | .forward _ => .isTrue trivial
  | .remove => .isTrue trivial
  | .doReadLine => .isTrue trivial

/-- The bodies posted to a strand by `start`, `deliver` and `stop`. -/
inductive Task
  | start
  | push (message : ServerMessage)
  | stop
  deriving DecidableEq

/-- `reading` and `writing` tell whether an asynchronous operation is
outstanding. `queued` is history: every message ever put into `writeQueue`. -/
structure ClientSession where
  currentRoom : Option RoomId := none
  stopped : Bool := false
  reading : Bool := false
  writing : Bool := false
  strand : List Task := []
  rest : List HandlerStep := []
  writeQueue : List ServerMessage := []
  queued : List ServerMessage := []

namespace ClientSession

def doReadLine (session : ClientSession) : ClientSession :=
  if session.stopped then session else { session with reading := true }

def doWrite (session : ClientSession) : ClientSession :=
  if session.writeQueue.isEmpty || session.stopped then session
  else { session with writing := true }

/-- The body that `deliver` posts. -/
def push (session : ClientSession) (message : ServerMessage) : ClientSession :=
  let wasIdle := session.writeQueue.isEmpty
  let session := { session with
    writeQueue := session.writeQueue ++ [message]
    queued := session.queued ++ [message] }
  if wasIdle then session.doWrite else session

/-- `onWrite` without an error. -/
def onWrite (session : ClientSession) : ClientSession :=
  let session := { session with
    writing := false
    writeQueue := session.writeQueue.tail }
  if session.writeQueue.isEmpty then session else session.doWrite

end ClientSession

/-! ## Requests -/

def protocolToCoreError (error : ProtocolError) : Error :=
  .invalidParams error.message

def sendError (error : Error) : List HandlerStep := [.deliver (toErrorMessage error)]

def dispatchOutgoing (events : List OutgoingEvent) : List HandlerStep :=
  events.map .forward

/-- What a request does to the core and to `currentRoom_`, and the posts that
are left to make. -/
structure Handled where
  core : ServerCore
  currentRoom : Option RoomId
  steps : List HandlerStep

def handleJoin (core : ServerCore) (client : ClientId) (currentRoom : Option RoomId)
    (room : RoomId) : Handled :=
  if currentRoom ≠ none ∧ currentRoom ≠ some room then
    ⟨core, currentRoom, sendError
      (.invalidParams (.ascii "session already joined to another room"))⟩
  else
    match core.joinRoom client room with
    | (core, .error error) => ⟨core, currentRoom, sendError error⟩
    | (core, .ok snapshot) => ⟨core, some room, [.deliver (toSnapshotMessage snapshot)]⟩

def handleLeave (core : ServerCore) (client : ClientId) (currentRoom : Option RoomId)
    (room : RoomId) : Handled :=
  if currentRoom ≠ some room then
    ⟨core, currentRoom, sendError .notInRoom⟩
  else
    match core.leaveRoom client room with
    | (core, .error error) => ⟨core, currentRoom, sendError error⟩
    | (core, .ok events) =>
        ⟨core, none, dispatchOutgoing events ++
          [.deliver (.okResponse (.ascii "leave_room") room)]⟩

def handleEventRequest (core : ServerCore) (client : ClientId)
    (currentRoom : Option RoomId) (room : RoomId) (request : EventRequest)
    (now : TimePoint) : Handled :=
  if currentRoom ≠ some room then
    ⟨core, currentRoom, sendError .notInRoom⟩
  else
    match toCoreEvent request with
    | .error error => ⟨core, currentRoom, sendError error⟩
    | .ok event =>
        match core.handleEvent client room event now with
        | (core, .error error) => ⟨core, currentRoom, sendError error⟩
        | (core, .ok events) => ⟨core, currentRoom, dispatchOutgoing events⟩

def handleMessage (core : ServerCore) (client : ClientId)
    (currentRoom : Option RoomId) (now : TimePoint) : ClientMessage → Handled
  | .pingRequest => ⟨core, currentRoom, [.deliver .pongResponse]⟩
  | .createRoomRequest =>
      let created := core.createRoom
      ⟨created.1, currentRoom, [.deliver (.roomCreatedResponse created.2)]⟩
  | .joinRoomRequest room => handleJoin core client currentRoom room
  | .leaveRoomRequest room => handleLeave core client currentRoom room
  | .eventRequest room request =>
      handleEventRequest core client currentRoom room request now

/-- `handleLine` once `parseClientMessage` has read the line. -/
def handleParsed (core : ServerCore) (client : ClientId)
    (currentRoom : Option RoomId) (now : TimePoint) :
    Except ProtocolError ClientMessage → Handled
  | .error error => ⟨core, currentRoom, sendError (protocolToCoreError error)⟩
  | .ok message => handleMessage core client currentRoom now message

/-! ## Stopping -/

/-- `stopImpl` takes the client out of its room, if it is in one, and has the
events of that dispatched. -/
def leaveCurrentRoom (core : ServerCore) (client : ClientId) :
    Option RoomId → ServerCore × List HandlerStep
  | none => (core, [])
  | some room =>
      match core.leaveRoom client room with
      | (core, .error _) => (core, [])
      | (core, .ok events) => (core, dispatchOutgoing events)

def stopImpl (core : ServerCore) (client : ClientId) (session : ClientSession) :
    ServerCore × ClientSession :=
  if session.stopped then
    (core, session)
  else
    let left := leaveCurrentRoom core client session.currentRoom
    (left.1, { session with
      stopped := true
      currentRoom := none
      rest := left.2 ++ [HandlerStep.remove] })

/-! ## How requests end -/

inductive Asks (client : ClientId) (currentRoom : Option RoomId) (now : TimePoint) :
    ClientMessage → RoomId → Call → Prop
  | join (id : RoomId) (free : currentRoom = none ∨ currentRoom = some id) :
      Asks client currentRoom now (.joinRoomRequest id) id (.join client)
  | leave (id : RoomId) (inside : currentRoom = some id) :
      Asks client currentRoom now (.leaveRoomRequest id) id (.leave client)
  | event (id : RoomId) (request : EventRequest) (event : EventPayload)
      (inside : currentRoom = some id) (read : toCoreEvent request = .ok event) :
      Asks client currentRoom now (.eventRequest id request) id
        (.apply client event now)

/-- Why a request does not get as far as a room. -/
inductive Refused (core : ServerCore) (client : ClientId)
    (currentRoom : Option RoomId) (now : TimePoint) :
    Except ProtocolError ClientMessage → Error → Prop
  | unreadable (error : ProtocolError) :
      Refused core client currentRoom now (.error error) (protocolToCoreError error)
  | elsewhere (id : RoomId) (other : currentRoom ≠ none ∧ currentRoom ≠ some id) :
      Refused core client currentRoom now (.ok (.joinRoomRequest id))
        (.invalidParams (.ascii "session already joined to another room"))
  | leaveOutside (id : RoomId) (outside : currentRoom ≠ some id) :
      Refused core client currentRoom now (.ok (.leaveRoomRequest id)) .notInRoom
  | eventOutside (id : RoomId) (request : EventRequest)
      (outside : currentRoom ≠ some id) :
      Refused core client currentRoom now (.ok (.eventRequest id request)) .notInRoom
  | invalidEvent (id : RoomId) (request : EventRequest) (error : Error)
      (failed : toCoreEvent request = .error error) :
      Refused core client currentRoom now (.ok (.eventRequest id request)) error
  | noRoom (message : ClientMessage) (id : RoomId) (call : Call)
      (asks : Asks client currentRoom now message id call)
      (missing : core.rooms.getRoom id = none) :
      Refused core client currentRoom now (.ok message) .roomNotFound

/-- Everything a request can lead to. -/
inductive Served (core : ServerCore) (client : ClientId)
    (currentRoom : Option RoomId) (now : TimePoint) :
    Except ProtocolError ClientMessage → Handled → Prop
  | refused (request : Except ProtocolError ClientMessage) (error : Error)
      (reason : Refused core client currentRoom now request error) :
      Served core client currentRoom now request ⟨core, currentRoom, sendError error⟩
  | ponged :
      Served core client currentRoom now (.ok .pingRequest)
        ⟨core, currentRoom, [.deliver .pongResponse]⟩
  | created :
      Served core client currentRoom now (.ok .createRoomRequest)
        ⟨core.createRoom.1, currentRoom,
          [.deliver (.roomCreatedResponse core.createRoom.2)]⟩
  | failed (message : ClientMessage) (id : RoomId) (room : Room) (call : Call)
      (next : ServerCore) (error : Error)
      (asks : Asks client currentRoom now message id call)
      (found : core.rooms.getRoom id = some room)
      (relays : core.Relays id room call next (.error error)) :
      Served core client currentRoom now (.ok message)
        ⟨next, currentRoom, sendError error⟩
  | joined (id : RoomId) (room : Room) (next : ServerCore) (snapshot : RoomSnapshot)
      (free : currentRoom = none ∨ currentRoom = some id)
      (found : core.rooms.getRoom id = some room)
      (relays : core.Relays id room (.join client) next (.ok (.snapshot snapshot))) :
      Served core client currentRoom now (.ok (.joinRoomRequest id))
        ⟨next, some id, [.deliver (toSnapshotMessage snapshot)]⟩
  | left (id : RoomId) (room : Room) (next : ServerCore) (events : List OutgoingEvent)
      (inside : currentRoom = some id) (found : core.rooms.getRoom id = some room)
      (relays : core.Relays id room (.leave client) next (.ok (.events events))) :
      Served core client currentRoom now (.ok (.leaveRoomRequest id))
        ⟨next, none, dispatchOutgoing events ++
          [.deliver (.okResponse (.ascii "leave_room") id)]⟩
  | applied (id : RoomId) (request : EventRequest) (event : EventPayload) (room : Room)
      (next : ServerCore) (events : List OutgoingEvent)
      (inside : currentRoom = some id) (read : toCoreEvent request = .ok event)
      (found : core.rooms.getRoom id = some room)
      (relays : core.Relays id room (.apply client event now) next
        (.ok (.events events))) :
      Served core client currentRoom now (.ok (.eventRequest id request))
        ⟨next, currentRoom, dispatchOutgoing events⟩

section Requests

variable {core : ServerCore} {client : ClientId} {currentRoom : Option RoomId}
  {now : TimePoint}

private theorem handleJoin_served (id : RoomId) :
    Served core client currentRoom now (.ok (.joinRoomRequest id))
      (handleJoin core client currentRoom id) := by
  rw [handleJoin]
  split
  next other => exact .refused _ _ (.elsewhere id other)
  next notElsewhere =>
    have free : currentRoom = none ∨ currentRoom = some id := by
      by_contra neither
      exact notElsewhere (not_or.mp neither)
    cases found : core.rooms.getRoom id with
    | none =>
        rw [ServerCore.joinRoom_none client found]
        exact .refused _ _ (.noRoom _ id _ (.join id free) found)
    | some room =>
        have relays := ServerCore.joinRoom_relays client found
        generalize core.joinRoom client id = answer at relays ⊢
        rcases answer with ⟨next, error | snapshot⟩
        · exact .failed _ id room _ next error (.join id free) found relays
        · exact .joined id room next snapshot free found relays

private theorem handleLeave_served (id : RoomId) :
    Served core client currentRoom now (.ok (.leaveRoomRequest id))
      (handleLeave core client currentRoom id) := by
  rw [handleLeave]
  split
  next outside => exact .refused _ _ (.leaveOutside id outside)
  next notOutside =>
    have inside : currentRoom = some id := not_ne_iff.mp notOutside
    cases found : core.rooms.getRoom id with
    | none =>
        rw [ServerCore.leaveRoom_none client found]
        exact .refused _ _ (.noRoom _ id _ (.leave id inside) found)
    | some room =>
        have relays := ServerCore.leaveRoom_relays client found
        generalize core.leaveRoom client id = answer at relays ⊢
        rcases answer with ⟨next, error | events⟩
        · exact .failed _ id room _ next error (.leave id inside) found relays
        · exact .left id room next events inside found relays

private theorem handleEventRequest_served (id : RoomId) (request : EventRequest) :
    Served core client currentRoom now (.ok (.eventRequest id request))
      (handleEventRequest core client currentRoom id request now) := by
  rw [handleEventRequest]
  split
  next outside => exact .refused _ _ (.eventOutside id request outside)
  next notOutside =>
    have inside : currentRoom = some id := not_ne_iff.mp notOutside
    cases read : toCoreEvent request with
    | error error => exact .refused _ _ (.invalidEvent id request error read)
    | ok event =>
        cases found : core.rooms.getRoom id with
        | none =>
            simp only [ServerCore.handleEvent_none client event now found]
            exact .refused _ _
              (.noRoom _ id _ (.event id request event inside read) found)
        | some room =>
            have relays := ServerCore.handleEvent_relays client event now found
            simp only
            generalize core.handleEvent client id event now = answer at relays ⊢
            rcases answer with ⟨next, error | events⟩
            · exact .failed _ id room _ next error (.event id request event inside read)
                found relays
            · exact .applied id request event room next events inside read found relays

theorem handleParsed_served (request : Except ProtocolError ClientMessage) :
    Served core client currentRoom now request
      (handleParsed core client currentRoom now request) := by
  rcases request with error | message
  · exact .refused _ _ (.unreadable error)
  · cases message with
    | pingRequest => exact .ponged
    | createRoomRequest => exact .created
    | joinRoomRequest id => exact handleJoin_served id
    | leaveRoomRequest id => exact handleLeave_served id
    | eventRequest id request => exact handleEventRequest_served id request

end Requests

inductive Departed (core : ServerCore) (client : ClientId) :
    Option RoomId → ServerCore × List HandlerStep → Prop
  | nowhere (currentRoom : Option RoomId)
      (missing : ∀ id, currentRoom = some id → core.rooms.getRoom id = none) :
      Departed core client currentRoom (core, [])
  | failed (id : RoomId) (room : Room) (next : ServerCore) (error : Error)
      (found : core.rooms.getRoom id = some room)
      (relays : core.Relays id room (.leave client) next (.error error)) :
      Departed core client (some id) (next, [])
  | left (id : RoomId) (room : Room) (next : ServerCore) (events : List OutgoingEvent)
      (found : core.rooms.getRoom id = some room)
      (relays : core.Relays id room (.leave client) next (.ok (.events events))) :
      Departed core client (some id) (next, dispatchOutgoing events)

theorem leaveCurrentRoom_departed (core : ServerCore) (client : ClientId)
    (currentRoom : Option RoomId) :
    Departed core client currentRoom (leaveCurrentRoom core client currentRoom) := by
  rcases currentRoom with _ | id
  · exact .nowhere none nofun
  · rw [leaveCurrentRoom]
    cases found : core.rooms.getRoom id with
    | none =>
        rw [ServerCore.leaveRoom_none client found]
        refine .nowhere (some id) ?_
        rintro other ⟨⟩
        exact found
    | some room =>
        have relays := ServerCore.leaveRoom_relays client found
        generalize core.leaveRoom client id = answer at relays ⊢
        rcases answer with ⟨next, error | events⟩
        · exact .failed id room next error found relays
        · exact .left id room next events found relays

end ClearSpace.Server
