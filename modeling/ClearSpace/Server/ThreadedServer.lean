import ClearSpace.Core.ThreadedCore
import ClearSpace.Server.RoomCalls

/-! # Handlers inside the core

The sessions of a server on the threads of its pool. A handler that calls the core
goes through the locks of `ServerCore` one by one, with the handlers of all other
sessions in between, and posts nothing before the call has returned. -/

namespace ClearSpace.Server

open ClearSpace.Core ClearSpace.Transport

/-! ## Handlers up to their call, and from there on -/

inductive Errand
  | create
  | join (room : RoomId)
  | leave (room : RoomId)
  | event
  | stop
  deriving DecidableEq

inductive Begun
  | done (steps : List HandlerStep)
  | calls (errand : Errand) (call : ServerCall)

def beginJoin (client : ClientId) (currentRoom : Option RoomId) (room : RoomId) : Begun :=
  if currentRoom ≠ none ∧ currentRoom ≠ some room then
    .done (sendError (.invalidParams (.ascii "session already joined to another room")))
  else
    .calls (.join room) (.on room (.join client))

def beginLeave (client : ClientId) (currentRoom : Option RoomId) (room : RoomId) : Begun :=
  if currentRoom ≠ some room then .done (sendError .notInRoom)
  else .calls (.leave room) (.on room (.leave client))

def beginEvent (client : ClientId) (currentRoom : Option RoomId) (room : RoomId)
    (request : EventRequest) (now : TimePoint) : Begun :=
  if currentRoom ≠ some room then .done (sendError .notInRoom)
  else
    match toCoreEvent request with
    | .error error => .done (sendError error)
    | .ok event => .calls .event (.on room (.apply client event now))

/-- `handleMessage` before its call of the core. -/
def beginMessage (client : ClientId) (currentRoom : Option RoomId) (now : TimePoint) :
    ClientMessage → Begun
  | .pingRequest => .done [.deliver .pongResponse]
  | .createRoomRequest => .calls .create .createRoom
  | .joinRoomRequest room => beginJoin client currentRoom room
  | .leaveRoomRequest room => beginLeave client currentRoom room
  | .eventRequest room request => beginEvent client currentRoom room request now

def beginParsed (client : ClientId) (currentRoom : Option RoomId) (now : TimePoint) :
    Except ProtocolError ClientMessage → Begun
  | .error error => .done (sendError (protocolToCoreError error))
  | .ok message => beginMessage client currentRoom now message

/-- `currentRoom_` after the call, and the posts that follow it. The last case is that
of an answer to another call, which the core does not give. -/
def Errand.resume (currentRoom : Option RoomId) :
    Errand → ServerReply → Option RoomId × List HandlerStep
  | .create, .created room => (currentRoom, [.deliver (.roomCreatedResponse room)])
  | .join room, .answered (.ok (.snapshot snapshot)) =>
      (some room, [.deliver (toSnapshotMessage snapshot)])
  | .leave room, .answered (.ok (.events events)) =>
      (none, dispatchOutgoing events ++
        [.deliver (.okResponse (.ascii "leave_room") room)])
  | .event, .answered (.ok (.events events)) => (currentRoom, dispatchOutgoing events)
  | .stop, .answered (.ok (.events events)) => (none, dispatchOutgoing events)
  | .stop, _ => (none, [])
  | _, .answered (.error error) => (currentRoom, sendError error)
  | _, _ => (currentRoom, [])

def Errand.last : Errand → HandlerStep
  | .stop => .remove
  | _ => .doReadLine

def ClientSession.resume (session : ClientSession) (errand : Errand)
    (reply : ServerReply) : ClientSession :=
  let resumed := errand.resume session.currentRoom reply
  { session with currentRoom := resumed.1, rest := resumed.2 ++ [errand.last] }

section Atomic

variable (core : ServerCore) (client : ClientId) (currentRoom : Option RoomId)

def Begun.finish : Begun → Handled
  | .done steps => ⟨core, currentRoom, steps⟩
  | .calls errand call =>
      let answered := core.call call
      let resumed := errand.resume currentRoom answered.2
      ⟨answered.1, resumed.1, resumed.2⟩

private theorem handleJoin_begun (room : RoomId) :
    handleJoin core client currentRoom room =
      (beginJoin client currentRoom room).finish core currentRoom := by
  rw [handleJoin, beginJoin]
  split
  · rfl
  · simp only [Begun.finish, ServerCore.call]
    generalize core.joinRoom client room = answer
    rcases answer with ⟨next, error | snapshot⟩
    · rfl
    · rfl

private theorem handleLeave_begun (room : RoomId) :
    handleLeave core client currentRoom room =
      (beginLeave client currentRoom room).finish core currentRoom := by
  rw [handleLeave, beginLeave]
  split
  · rfl
  · simp only [Begun.finish, ServerCore.call]
    generalize core.leaveRoom client room = answer
    rcases answer with ⟨next, error | events⟩
    · rfl
    · rfl

private theorem handleEventRequest_begun (room : RoomId) (request : EventRequest)
    (now : TimePoint) :
    handleEventRequest core client currentRoom room request now =
      (beginEvent client currentRoom room request now).finish core currentRoom := by
  rw [handleEventRequest, beginEvent]
  split
  · rfl
  · cases toCoreEvent request with
    | error error => rfl
    | ok event =>
        simp only [Begun.finish, ServerCore.call]
        generalize core.handleEvent client room event now = answer
        rcases answer with ⟨next, error | events⟩
        · rfl
        · rfl

theorem handleParsed_begun (now : TimePoint)
    (request : Except ProtocolError ClientMessage) :
    handleParsed core client currentRoom now request =
      (beginParsed client currentRoom now request).finish core currentRoom := by
  rcases request with error | message
  · rfl
  · cases message with
    | pingRequest => rfl
    | createRoomRequest => rfl
    | joinRoomRequest room => exact handleJoin_begun core client currentRoom room
    | leaveRoomRequest room => exact handleLeave_begun core client currentRoom room
    | eventRequest room request =>
        exact handleEventRequest_begun core client currentRoom room request now

private theorem leaveCurrentRoom_begun (room : RoomId) :
    leaveCurrentRoom core client (some room) =
      ((core.call (.on room (.leave client))).1,
        (Errand.stop.resume currentRoom (core.call (.on room (.leave client))).2).2) := by
  simp only [leaveCurrentRoom, ServerCore.call]
  generalize core.leaveRoom client room = answer
  rcases answer with ⟨next, error | events⟩
  · rfl
  · rfl

private theorem resume_stop (reply : ServerReply) :
    (Errand.stop.resume currentRoom reply).1 = none := by
  rcases reply with room | (error | reply)
  · rfl
  · rfl
  · cases reply with
    | snapshot snapshot => rfl
    | events events => rfl

/-- What a handler calls the core for, the session before and after it has begun,
and what it runs for. -/
inductive Begins (client : ClientId) (origin : ClientSession) :
    ClientSession → Errand → ServerCall → ServerState.Action → Prop
  | request (request : Except ProtocolError ClientMessage) (now : TimePoint)
      (errand : Errand) (call : ServerCall) (idle : origin.rest = [])
      (reads : origin.reading = true)
      (calls : beginParsed client origin.currentRoom now request = .calls errand call) :
      Begins client origin { origin with reading := false } errand call
        (.readLine client request now)
  | readFailed (room : RoomId) (idle : origin.rest = []) (reads : origin.reading = true)
      (running : origin.stopped = false) (inside : origin.currentRoom = some room) :
      Begins client origin { origin with reading := false, stopped := true } .stop
        (.on room (.leave client)) (.readError client)
  | writeFailed (room : RoomId) (idle : origin.rest = []) (writes : origin.writing = true)
      (running : origin.stopped = false) (inside : origin.currentRoom = some room) :
      Begins client origin { origin with writing := false, stopped := true } .stop
        (.on room (.leave client)) (.writeError client)
  | asked (room : RoomId) (tasks : List Task) (idle : origin.rest = [])
      (front : origin.strand = .stop :: tasks) (running : origin.stopped = false)
      (inside : origin.currentRoom = some room) :
      Begins client origin { origin with strand := tasks, stopped := true } .stop
        (.on room (.leave client)) (.runTask client)

end Atomic

private theorem beginParsed_last {client : ClientId} {currentRoom : Option RoomId}
    {now : TimePoint} {request : Except ProtocolError ClientMessage} {errand : Errand}
    {call : ServerCall}
    (calls : beginParsed client currentRoom now request = .calls errand call) :
    errand.last = .doReadLine := by
  rcases request with error | message
  · cases calls
  cases message with
  | pingRequest => cases calls
  | createRoomRequest =>
      cases calls
      rfl
  | joinRoomRequest room =>
      simp only [beginParsed, beginMessage, beginJoin] at calls
      split at calls
      · cases calls
      · cases calls
        rfl
  | leaveRoomRequest room =>
      simp only [beginParsed, beginMessage, beginLeave] at calls
      split at calls
      · cases calls
      · cases calls
        rfl
  | eventRequest room request =>
      simp only [beginParsed, beginMessage, beginEvent] at calls
      split at calls
      · cases calls
      · cases read : toCoreEvent request with
        | error error =>
            rw [read] at calls
            cases calls
        | ok event =>
            rw [read] at calls
            cases calls
            rfl

namespace Begins

variable {client : ClientId} {origin session : ClientSession} {errand : Errand}
  {call : ServerCall} {cause : ServerState.Action}

theorem idle (begins : Begins client origin session errand call cause) :
    session.rest = [] := by
  cases begins with
  | request request now errand call idle => exact idle
  | readFailed room idle => exact idle
  | writeFailed room idle => exact idle
  | asked room tasks idle => exact idle

theorem trail_eq (begins : Begins client origin session errand call cause) :
    session.trail = origin.trail := by
  cases begins with
  | asked room tasks idle front =>
      simp only [ClientSession.trail, front]
      rfl
  | _ => rfl

theorem post (begins : Begins client origin session errand call cause) (task : Task) :
    Begins client { origin with strand := origin.strand ++ [task] }
      { session with strand := session.strand ++ [task] } errand call cause := by
  cases begins with
  | request request now errand call idle reads calls =>
      exact .request request now errand call idle reads calls
  | readFailed room idle reads running inside =>
      exact .readFailed room idle reads running inside
  | writeFailed room idle writes running inside =>
      exact .writeFailed room idle writes running inside
  | asked room tasks idle front running inside =>
      have behind : origin.strand ++ [task] = .stop :: (tasks ++ [task]) := by
        rw [front]
        rfl
      exact .asked room (tasks ++ [task]) idle behind running inside

theorem stopSession_atomic (state : ServerState) (stopping : ClientSession) {room : RoomId}
    (running : stopping.stopped = false) (inside : stopping.currentRoom = some room) :
    state.stopSession client stopping =
      { state with core := (state.core.call (.on room (.leave client))).1 }.putSession
        client ({ stopping with stopped := true }.resume .stop
          (state.core.call (.on room (.leave client))).2) := by
  have left := leaveCurrentRoom_begun state.core client stopping.currentRoom room
  simp only [ServerState.stopSession, stopImpl, running, Bool.false_eq_true, if_false,
    ClientSession.resume, resume_stop, inside] at left ⊢
  rw [left]
  rfl

theorem atomic {state : ServerState}
    (begins : Begins client origin session errand call cause)
    (found : state.sessions.lookup client = some origin) :
    state.step cause = some
      ({ state with core := (state.core.call call).1 }.putSession client
        (session.resume errand (state.core.call call).2)) := by
  cases begins with
  | request request now errand call idle reads calls =>
      have isIdle := ServerState.idleSession_eq_some.mpr ⟨found, idle⟩
      have handled := handleParsed_begun state.core client origin.currentRoom now request
      rw [calls] at handled
      simp only [ServerState.step, isIdle, Option.filter_some, reads, if_true,
        Option.map_some, ServerState.readLine, handled, Begun.finish]
      rw [ClientSession.resume, beginParsed_last calls]
  | readFailed room idle reads running inside =>
      have isIdle := ServerState.idleSession_eq_some.mpr ⟨found, idle⟩
      simp only [ServerState.step, isIdle, Option.filter_some, reads, if_true,
        Option.map_some]
      exact congrArg some
        (stopSession_atomic state { origin with reading := false } running inside)
  | writeFailed room idle writes running inside =>
      have isIdle := ServerState.idleSession_eq_some.mpr ⟨found, idle⟩
      simp only [ServerState.step, isIdle, Option.filter_some, writes, if_true,
        Option.map_some]
      exact congrArg some
        (stopSession_atomic state { origin with writing := false } running inside)
  | asked room tasks idle front running inside =>
      have isIdle := ServerState.idleSession_eq_some.mpr ⟨found, idle⟩
      simp only [ServerState.step, isIdle, Option.bind_some, front, ServerState.runTask]
      exact congrArg some
        (stopSession_atomic state { origin with strand := tasks } running inside)

end Begins

/-! ## Sessions on threads -/

/-- A handler inside the core. `cause` is history: what the handler runs for. -/
structure Handling where
  errand : Errand
  cause : ServerState.Action

/-- The thread that runs the handlers of a session inside the core goes by the id of
its client. -/
structure ThreadedServer where
  server : ServerState := {}
  stage : Nat → Stage := fun _ => .outside
  handling : ClientId → Option Handling := fun _ => none

namespace ThreadedServer

def threads (state : ThreadedServer) : ThreadedCore where
  rooms := state.server.core.rooms
  snapshotSink := state.server.core.snapshotSink
  stage := state.stage

def withThreads (state : ThreadedServer) (threads : ThreadedCore) : ThreadedServer :=
  { state with
    server := { state.server with core := ⟨threads.rooms, threads.snapshotSink⟩ }
    stage := threads.stage }

def putSession (state : ThreadedServer) (client : ClientId) (session : ClientSession) :
    ThreadedServer :=
  { state with server := state.server.putSession client session }

def setHandling (state : ThreadedServer) (client : ClientId)
    (handling : Option Handling) : ThreadedServer :=
  { state with handling := Function.update state.handling client handling }

/-- The step of a session's handler inside the core is `core`; all others are those
of the server. -/
inductive Action
  | server (action : ServerState.Action)
  | core (client : ClientId)

def idleSession (state : ThreadedServer) (client : ClientId) : Option ClientSession :=
  match state.handling client with
  | none => state.server.idleSession client
  | some _ => none

def enter (state : ThreadedServer) (client : ClientId) (session : ClientSession)
    (cause : ServerState.Action) (errand : Errand) (call : ServerCall) :
    Option ThreadedServer :=
  (state.threads.step (.invoke client.toNat call)).map fun threads =>
    ((state.withThreads threads).putSession client session).setHandling client
      (some ⟨errand, cause⟩)

/-- `onReadLine` without an error up to its call of the core, or to its first post. -/
def readLine (state : ThreadedServer) (client : ClientId) (session : ClientSession)
    (request : Except ProtocolError ClientMessage) (now : TimePoint) :
    Option ThreadedServer :=
  let begun := { session with reading := false }
  match beginParsed client session.currentRoom now request with
  | .done steps =>
      some (state.putSession client { begun with rest := steps ++ [.doReadLine] })
  | .calls errand call =>
      state.enter client begun (.readLine client request now) errand call

def stopImpl (state : ThreadedServer) (client : ClientId) (session : ClientSession)
    (cause : ServerState.Action) : Option ThreadedServer :=
  if session.stopped then some (state.putSession client session)
  else
    let stopped := { session with stopped := true }
    match session.currentRoom with
    | none => some (state.putSession client { stopped with rest := [.remove] })
    | some room => state.enter client stopped cause .stop (.on room (.leave client))

def proceed (state : ThreadedServer) (client : ClientId) (session : ClientSession)
    (errand : Errand) : Stage → ThreadedServer
  | .leaving reply =>
      (state.putSession client (session.resume errand reply)).setHandling client none
  | _ => state

def step (state : ThreadedServer) : Action → Option ThreadedServer
  | .server (.runTask client) =>
      (state.idleSession client).bind fun session =>
        match session.strand with
        | [] => none
        | .start :: tasks =>
            some (state.putSession client { session with strand := tasks }.doReadLine)
        | .push message :: tasks =>
            some (state.putSession client ({ session with strand := tasks }.push message))
        | .stop :: tasks =>
            state.stopImpl client { session with strand := tasks } (.runTask client)
  | .server (.readLine client request now) =>
      ((state.idleSession client).filter (·.reading)).bind fun session =>
        state.readLine client session request now
  | .server (.readError client) =>
      ((state.idleSession client).filter (·.reading)).bind fun session =>
        state.stopImpl client { session with reading := false } (.readError client)
  | .server (.writeDone client) =>
      ((state.idleSession client).filter (·.writing)).map fun session =>
        state.putSession client session.onWrite
  | .server (.writeError client) =>
      ((state.idleSession client).filter (·.writing)).bind fun session =>
        state.stopImpl client { session with writing := false } (.writeError client)
  | .server action => (state.server.step action).map fun server => { state with server }
  | .core client =>
      (state.handling client).bind fun handling =>
        (state.server.sessions.lookup client).bind fun session =>
          (state.threads.step (.advance client.toNat)).map fun threads =>
            (state.withThreads threads).proceed client session handling.errand
              (state.stage client.toNat)

def system : StepSystem ThreadedServer Action := ⟨step⟩

def start (sinks : Bool) : ThreadedServer where
  server := ServerState.start (if sinks then some [] else none)

end ThreadedServer

end ClearSpace.Server
