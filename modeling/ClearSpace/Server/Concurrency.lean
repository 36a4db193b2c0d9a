import ClearSpace.Server.ClientSession

/-! # Sessions side by side

The sessions of a server, their registry and the shared core. Handlers of
different sessions interleave after every post; posts to one strand run in the
order in which they were made. Completions of reads and writes run in any order
between the posted bodies.

An exception that leaves a handler leaves its worker thread too, which ends the
program. The step that throws is then not taken, and nothing of its session runs any
more; what the other threads still do until the program is gone is a run like any
other. -/

namespace ClearSpace.Server

open ClearSpace.Core ClearSpace.Transport

/-- `registry` has the ids for which `SessionRegistry::find` returns a session.
A session leaves it in `stopImpl`, which also ends its last pending read, so a
registered session is alive. -/
structure ServerState where
  core : ServerCore := {}
  sessions : UnorderedMap ClientId ClientSession := ∅
  registry : UnorderedSet ClientId := ∅
  nextClientId : ClientId := 1

namespace ServerState

/-- Everything that can happen next. `readLine` and `writeDone` are completions
without an error; a read completion carries what the line was parsed to and the
clock reading its handler sees. -/
inductive Action
  | accept
  | stop (client : ClientId)
  | runTask (client : ClientId)
  | readLine (client : ClientId) (request : Except ProtocolError ClientMessage)
      (now : TimePoint)
  | readError (client : ClientId)
  | writeDone (client : ClientId)
  | writeError (client : ClientId)
  | act (client : ClientId)

def putSession (state : ServerState) (client : ClientId) (session : ClientSession) :
    ServerState :=
  { state with sessions := state.sessions.insert client session }

/-- `boost::asio::post` to the strand of a session. -/
def post (state : ServerState) (client : ClientId) (task : Task) : ServerState :=
  match state.sessions.lookup client with
  | none => state
  | some session =>
      state.putSession client { session with strand := session.strand ++ [task] }

/-- `onAccept`: the session is registered and `start` posts its first read. -/
def accept (state : ServerState) : ServerState :=
  let client := state.nextClientId
  { (state.putSession client { strand := [.start] }) with
    registry := state.registry.insert client
    nextClientId := client + 1 }

/-- A session whose strand is free to run the next handler. -/
def idleSession (state : ServerState) (client : ClientId) : Option ClientSession :=
  (state.sessions.lookup client).filter (·.rest.isEmpty)

def stopSession (state : ServerState) (client : ClientId) (session : ClientSession) :
    ServerState :=
  let stopped := stopImpl state.core client session
  { state with core := stopped.1 }.putSession client stopped.2

def runTask (state : ServerState) (client : ClientId) (session : ClientSession) :
    Task → ServerState
  | .start => state.putSession client session.doReadLine
  | .push message => state.putSession client (session.push message)
  | .stop => state.stopSession client session

/-- `onReadLine` without an error up to its first post. -/
def readLine (state : ServerState) (client : ClientId) (session : ClientSession)
    (request : Except ProtocolError ClientMessage) (now : TimePoint) : ServerState :=
  let handled := handleParsed state.core client session.currentRoom now request
  { state with core := handled.core }.putSession client
    { session with
      reading := false
      currentRoom := handled.currentRoom
      rest := handled.steps ++ [HandlerStep.doReadLine] }

/-- The next step of a running handler; `session` is what it leaves. -/
def perform (state : ServerState) (client : ClientId) (session : ClientSession) :
    HandlerStep → ServerState
  | .deliver message => (state.putSession client session).post client (.push message)
  | .forward event =>
      if event.recipient ∈ state.registry then
        (state.putSession client session).post event.recipient
          (.push (toServerMessage event))
      else
        state.putSession client session
  | .remove =>
      { (state.putSession client session) with
        registry := state.registry.erase client }
  | .doReadLine => state.putSession client session.doReadLine

def step (state : ServerState) : Action → Option ServerState
  | .accept => some state.accept
  | .stop client =>
      (state.sessions.lookup client).map fun _ => state.post client .stop
  | .runTask client =>
      (state.idleSession client).bind fun session =>
        match session.strand with
        | [] => none
        | task :: tasks =>
            some (state.runTask client { session with strand := tasks } task)
  | .readLine client request now =>
      ((state.idleSession client).filter (·.reading)).map fun session =>
        state.readLine client session request now
  | .readError client =>
      ((state.idleSession client).filter (·.reading)).map fun session =>
        state.stopSession client { session with reading := false }
  | .writeDone client =>
      ((state.idleSession client).filter (·.writing)).map fun session =>
        state.putSession client session.onWrite
  | .writeError client =>
      ((state.idleSession client).filter (·.writing)).map fun session =>
        state.stopSession client { session with writing := false }
  | .act client =>
      (state.sessions.lookup client).bind fun session =>
        match session.rest with
        | [] => none
        | next :: rest =>
            if Sendable next then some (state.perform client { session with rest } next)
            else none

def system : StepSystem ServerState Action := ⟨step⟩

/-- A server as `main` sets it up, with a snapshot sink or without. -/
def start (sink : Option (List PersistedBoardSnapshot)) : ServerState :=
  { core := { snapshotSink := sink } }

/-- Every way in which a server can take a step. -/
inductive Stepped (state : ServerState) : Action → ServerState → Prop
  | accept : Stepped state .accept state.accept
  | stop (client : ClientId) (session : ClientSession)
      (found : state.sessions.lookup client = some session) :
      Stepped state (.stop client) (state.post client .stop)
  | runTask (client : ClientId) (session : ClientSession) (task : Task)
      (tasks : List Task) (found : state.sessions.lookup client = some session)
      (idle : session.rest = []) (front : session.strand = task :: tasks) :
      Stepped state (.runTask client)
        (state.runTask client { session with strand := tasks } task)
  | readLine (client : ClientId) (session : ClientSession)
      (request : Except ProtocolError ClientMessage) (now : TimePoint)
      (found : state.sessions.lookup client = some session)
      (idle : session.rest = []) (isReading : session.reading = true) :
      Stepped state (.readLine client request now)
        (state.readLine client session request now)
  | readError (client : ClientId) (session : ClientSession)
      (found : state.sessions.lookup client = some session)
      (idle : session.rest = []) (isReading : session.reading = true) :
      Stepped state (.readError client)
        (state.stopSession client { session with reading := false })
  | writeDone (client : ClientId) (session : ClientSession)
      (found : state.sessions.lookup client = some session)
      (idle : session.rest = []) (isWriting : session.writing = true) :
      Stepped state (.writeDone client) (state.putSession client session.onWrite)
  | writeError (client : ClientId) (session : ClientSession)
      (found : state.sessions.lookup client = some session)
      (idle : session.rest = []) (isWriting : session.writing = true) :
      Stepped state (.writeError client)
        (state.stopSession client { session with writing := false })
  | act (client : ClientId) (session : ClientSession) (next : HandlerStep)
      (later : List HandlerStep) (found : state.sessions.lookup client = some session)
      (running : session.rest = next :: later) (sendable : Sendable next) :
      Stepped state (.act client)
        (state.perform client { session with rest := later } next)

theorem idleSession_eq_some {state : ServerState} {client : ClientId}
    {session : ClientSession} :
    state.idleSession client = some session ↔
      state.sessions.lookup client = some session ∧ session.rest = [] := by
  simp [idleSession, Option.filter_eq_some_iff]

theorem step_cases {state next : ServerState} {action : Action}
    (stepped : state.step action = some next) : Stepped state action next := by
  cases action with
  | accept =>
      cases stepped
      exact .accept
  | stop client =>
      rcases Option.map_eq_some_iff.mp stepped with ⟨session, found, rfl⟩
      exact .stop client session found
  | runTask client =>
      rcases Option.bind_eq_some_iff.mp stepped with ⟨session, isIdle, ran⟩
      rcases idleSession_eq_some.mp isIdle with ⟨found, idle⟩
      cases front : session.strand with
      | nil =>
          simp only [front] at ran
          cases ran
      | cons task tasks =>
          simp only [front] at ran
          cases ran
          exact .runTask client session task tasks found idle front
  | readLine client request now =>
      rcases Option.map_eq_some_iff.mp stepped with ⟨session, completed, rfl⟩
      rcases Option.filter_eq_some_iff.mp completed with ⟨isIdle, isReading⟩
      rcases idleSession_eq_some.mp isIdle with ⟨found, idle⟩
      exact .readLine client session request now found idle isReading
  | readError client =>
      rcases Option.map_eq_some_iff.mp stepped with ⟨session, completed, rfl⟩
      rcases Option.filter_eq_some_iff.mp completed with ⟨isIdle, isReading⟩
      rcases idleSession_eq_some.mp isIdle with ⟨found, idle⟩
      exact .readError client session found idle isReading
  | writeDone client =>
      rcases Option.map_eq_some_iff.mp stepped with ⟨session, completed, rfl⟩
      rcases Option.filter_eq_some_iff.mp completed with ⟨isIdle, isWriting⟩
      rcases idleSession_eq_some.mp isIdle with ⟨found, idle⟩
      exact .writeDone client session found idle isWriting
  | writeError client =>
      rcases Option.map_eq_some_iff.mp stepped with ⟨session, completed, rfl⟩
      rcases Option.filter_eq_some_iff.mp completed with ⟨isIdle, isWriting⟩
      rcases idleSession_eq_some.mp isIdle with ⟨found, idle⟩
      exact .writeError client session found idle isWriting
  | act client =>
      rcases Option.bind_eq_some_iff.mp stepped with ⟨session, found, ran⟩
      cases running : session.rest with
      | nil =>
          simp only [running] at ran
          cases ran
      | cons next later =>
          simp only [running] at ran
          split at ran
          next sendable =>
            cases ran
            exact .act client session next later found running sendable
          next => cases ran

end ServerState

/-! ## What is under way to a client -/

def HandlerStep.target (client : ClientId) :
    HandlerStep → Option (ClientId × ServerMessage)
  | .deliver message => some (client, message)
  | .forward event => some (event.recipient, toServerMessage event)
  | .remove => none
  | .doReadLine => none

def Task.message : Task → Option ServerMessage
  | .push message => some message
  | .start => none
  | .stop => none

/-- Every message posted to the strand of the session so far. -/
def ClientSession.trail (session : ClientSession) : List ServerMessage :=
  session.queued ++ session.strand.filterMap Task.message

def ClientSession.pending (session : ClientSession) (client : ClientId) :
    List (ClientId × ServerMessage) :=
  session.rest.filterMap (HandlerStep.target client)

namespace ClientSession

variable (session : ClientSession)

@[simp] theorem doReadLine_trail : session.doReadLine.trail = session.trail := by
  unfold doReadLine
  split <;> rfl

@[simp] theorem doReadLine_rest : session.doReadLine.rest = session.rest := by
  unfold doReadLine
  split <;> rfl

@[simp] theorem doWrite_trail : session.doWrite.trail = session.trail := by
  unfold doWrite
  split <;> rfl

@[simp] theorem doWrite_rest : session.doWrite.rest = session.rest := by
  unfold doWrite
  split <;> rfl

@[simp] theorem push_trail (message : ServerMessage) :
    (session.push message).trail =
      session.queued ++ message :: session.strand.filterMap Task.message := by
  unfold push
  simp only
  split
  · rw [doWrite_trail]
    simp [trail]
  · simp [trail]

@[simp] theorem push_rest (message : ServerMessage) :
    (session.push message).rest = session.rest := by
  unfold push
  simp only
  split <;> simp

@[simp] theorem onWrite_trail : session.onWrite.trail = session.trail := by
  unfold onWrite
  simp only
  split
  · rfl
  · rw [doWrite_trail]
    rfl

@[simp] theorem onWrite_rest : session.onWrite.rest = session.rest := by
  unfold onWrite
  simp only
  split <;> simp

end ClientSession

namespace ServerState

def queued (state : ServerState) (client : ClientId) : List ServerMessage :=
  match state.sessions.lookup client with
  | none => []
  | some session => session.queued

def trail (state : ServerState) (client : ClientId) : List ServerMessage :=
  match state.sessions.lookup client with
  | none => []
  | some session => session.trail

def pending (state : ServerState) (client : ClientId) :
    List (ClientId × ServerMessage) :=
  match state.sessions.lookup client with
  | none => []
  | some session => session.pending client

end ServerState

/-! ## The calls of sessions -/

def asked (client : ClientId) (currentRoom : Option RoomId) (now : TimePoint) :
    Except ProtocolError ClientMessage → Option (RoomId × Call)
  | .ok (.joinRoomRequest id) =>
      if currentRoom = none ∨ currentRoom = some id then some (id, .join client) else none
  | .ok (.leaveRoomRequest id) =>
      if currentRoom = some id then some (id, .leave client) else none
  | .ok (.eventRequest id request) =>
      if currentRoom = some id then
        match toCoreEvent request with
        | .ok event => some (id, .apply client event now)
        | .error _ => none
      else none
  | _ => none

def ClientSession.departing (session : ClientSession) (client : ClientId) :
    Option (RoomId × Call) :=
  if session.stopped then none
  else session.currentRoom.map fun id => (id, .leave client)

namespace ServerState

def attempted (state : ServerState) : Action → Option (RoomId × Call)
  | .readLine client request now =>
      (state.sessions.lookup client).bind fun session =>
        asked client session.currentRoom now request
  | .readError client =>
      (state.sessions.lookup client).bind fun session => session.departing client
  | .writeError client =>
      (state.sessions.lookup client).bind fun session => session.departing client
  | .runTask client =>
      (state.sessions.lookup client).bind fun session =>
        match session.strand with
        | .stop :: _ => session.departing client
        | _ => none
  | _ => none

def roomCall (state : ServerState) (action : Action) : Option (RoomId × Call) :=
  (state.attempted action).filter fun made =>
    (state.core.rooms.getRoom made.1).isSome

end ServerState

theorem Asks.asked_eq {client : ClientId} {currentRoom : Option RoomId} {now : TimePoint}
    {message : ClientMessage} {id : RoomId} {call : Call}
    (asks : Asks client currentRoom now message id call) :
    asked client currentRoom now (.ok message) = some (id, call) := by
  cases asks with
  | join id free => exact if_pos free
  | leave id inside => exact if_pos inside
  | event id request event inside read => simp only [asked, if_pos inside, read]

theorem Refused.asked_filter {core : ServerCore} {client : ClientId}
    {currentRoom : Option RoomId} {now : TimePoint}
    {request : Except ProtocolError ClientMessage} {error : Error}
    (refused : Refused core client currentRoom now request error) :
    (asked client currentRoom now request).filter
      (fun made => (core.rooms.getRoom made.1).isSome) = none := by
  cases refused with
  | unreadable => rfl
  | elsewhere id other => simp only [asked, if_neg (not_or.mpr other), Option.filter_none]
  | leaveOutside id outside => simp only [asked, if_neg outside, Option.filter_none]
  | eventOutside id request outside =>
      simp only [asked, if_neg outside, Option.filter_none]
  | invalidEvent id request error failed =>
      simp only [asked, failed, ite_self, Option.filter_none]
  | noRoom message id call asks missing =>
      simp only [asks.asked_eq, Option.filter_some, missing, Option.isSome_none,
        Bool.false_eq_true, if_false]

theorem leave_filter_of_missing {core : ServerCore} {client : ClientId}
    {currentRoom : Option RoomId}
    (missing : ∀ id, currentRoom = some id → core.rooms.getRoom id = none) :
    (currentRoom.map fun id => (id, Call.leave client)).filter
      (fun made => (core.rooms.getRoom made.1).isSome) = none := by
  cases currentRoom with
  | none => rfl
  | some id =>
      rw [Option.map_some, Option.filter_some, missing id rfl]
      rfl

namespace ServerState

section Calls

variable {state : ServerState} {client : ClientId} {session : ClientSession}

theorem roomCall_readLine (found : state.sessions.lookup client = some session)
    (request : Except ProtocolError ClientMessage) (now : TimePoint) :
    state.roomCall (.readLine client request now) =
      (asked client session.currentRoom now request).filter fun made =>
        (state.core.rooms.getRoom made.1).isSome := by
  simp only [roomCall, attempted, found, Option.bind_some]

theorem roomCall_readError (found : state.sessions.lookup client = some session) :
    state.roomCall (.readError client) = (session.departing client).filter fun made =>
      (state.core.rooms.getRoom made.1).isSome := by
  simp only [roomCall, attempted, found, Option.bind_some]

theorem roomCall_writeError (found : state.sessions.lookup client = some session) :
    state.roomCall (.writeError client) = (session.departing client).filter fun made =>
      (state.core.rooms.getRoom made.1).isSome := by
  simp only [roomCall, attempted, found, Option.bind_some]

theorem roomCall_runTask (found : state.sessions.lookup client = some session)
    {task : Task} {tasks : List Task} (front : session.strand = task :: tasks) :
    state.roomCall (.runTask client) =
      (match task with
        | .stop => session.departing client
        | _ => none).filter fun made => (state.core.rooms.getRoom made.1).isSome := by
  simp only [roomCall, attempted, found, Option.bind_some, front]
  cases task <;> rfl

end Calls

end ServerState

end ClearSpace.Server
