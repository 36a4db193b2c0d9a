import ClearSpace.Foundation.Projection
import ClearSpace.Server.Mail
import ClearSpace.Server.Places

/-! # The rooms of a server

Whatever the sessions do and however their handlers interleave, a room changes
only by the calls that they make on it, one at a time. What holds of every run
of a room therefore holds of every room of a server. -/

namespace ClearSpace.Server

open ClearSpace.Core ClearSpace.Transport

namespace ServerState

def callOn (id : RoomId) (state : ServerState) (action : Action) : Option Call :=
  (state.roomCall action).bind fun made => if made.1 = id then some made.2 else none

def callsOn (sink : Option (List PersistedBoardSnapshot)) (id : RoomId)
    (actions : List Action) : List Call :=
  system.inputs (callOn id) (start sink) actions

end ServerState

/-! ## What happens to the rooms -/

inductive RoomsStep (rooms : RoomManager) :
    Option (RoomId × Call) → RoomManager → Prop
  | unchanged : RoomsStep rooms none rooms
  | created : RoomsStep rooms none rooms.createRoom.1
  | called (id : RoomId) (room : Room) (call : Call)
      (found : rooms.getRoom id = some room) :
      RoomsStep rooms (some (id, call)) (rooms.putRoom id (room.call call).room)

section Handlers

variable {core : ServerCore} {client : ClientId} {currentRoom : Option RoomId}

theorem relayed_roomsStep {id : RoomId} {room : Room} {call : Call} {next : ServerCore}
    {result : Except Error Reply} (found : core.rooms.getRoom id = some room)
    (relays : core.Relays id room call next result) {made : Option (RoomId × Call)}
    (isMade : made = some (id, call)) :
    RoomsStep core.rooms
      (made.filter fun made => (core.rooms.getRoom made.1).isSome) next.rooms := by
  rw [isMade, Option.filter_some, found, relays.rooms]
  exact .called id room call found

theorem Served.roomsStep {now : TimePoint}
    {request : Except ProtocolError ClientMessage} {handled : Handled}
    (served : Served core client currentRoom now request handled) :
    RoomsStep core.rooms
      ((asked client currentRoom now request).filter fun made =>
        (core.rooms.getRoom made.1).isSome)
      handled.core.rooms := by
  cases served with
  | refused _ _ reason =>
      rw [reason.asked_filter]
      exact .unchanged
  | ponged => exact .unchanged
  | created => exact .created
  | failed message id room call next error asks found relays =>
      exact relayed_roomsStep found relays asks.asked_eq
  | joined id room next snapshot free found relays =>
      exact relayed_roomsStep found relays (Asks.asked_eq (.join id free))
  | left id room next events inside found relays =>
      exact relayed_roomsStep found relays (Asks.asked_eq (.leave id inside))
  | applied id request event room next events inside read found relays =>
      exact relayed_roomsStep found relays
        (Asks.asked_eq (.event id request event inside read))

theorem Departed.roomsStep {left : ServerCore × List HandlerStep}
    (departed : Departed core client currentRoom left) :
    RoomsStep core.rooms
      ((currentRoom.map fun id => (id, Call.leave client)).filter fun made =>
        (core.rooms.getRoom made.1).isSome)
      left.1.rooms := by
  cases departed with
  | nowhere _ missing =>
      rw [leave_filter_of_missing missing]
      exact .unchanged
  | failed id room next error found relays => exact relayed_roomsStep found relays rfl
  | left id room next events found relays => exact relayed_roomsStep found relays rfl

end Handlers

namespace ServerState

section Steps

variable {state next : ServerState} {client : ClientId} {session : ClientSession}

theorem stopSession_roomsStep (state : ServerState) (client : ClientId)
    (session : ClientSession) :
    RoomsStep state.core.rooms
      ((session.departing client).filter fun made =>
        (state.core.rooms.getRoom made.1).isSome)
      (state.stopSession client session).core.rooms := by
  unfold stopSession stopImpl ClientSession.departing
  split
  · exact .unchanged
  · exact (leaveCurrentRoom_departed _ _ _).roomsStep

private theorem runTask_roomsStep {task : Task} {tasks : List Task}
    (found : state.sessions.lookup client = some session)
    (front : session.strand = task :: tasks) :
    RoomsStep state.core.rooms (state.roomCall (.runTask client))
      (state.runTask client { session with strand := tasks } task).core.rooms := by
  rw [roomCall_runTask found front]
  cases task with
  | start => exact .unchanged
  | push message => exact .unchanged
  | stop => exact stopSession_roomsStep state client { session with strand := tasks }

theorem perform_core (state : ServerState) (client : ClientId) (session : ClientSession)
    (next : HandlerStep) : (state.perform client session next).core = state.core := by
  cases next with
  | deliver message => exact core_post ..
  | forward event =>
      rw [perform]
      split
      · exact core_post ..
      · rfl
  | remove => rfl
  | doReadLine => rfl

theorem step_rooms {action : Action} (stepped : state.step action = some next) :
    RoomsStep state.core.rooms (state.roomCall action) next.core.rooms := by
  cases step_cases stepped with
  | accept => exact .unchanged
  | stop client =>
      rw [core_post]
      exact .unchanged
  | runTask client session task tasks found idle front =>
      exact runTask_roomsStep found front
  | readLine client session request now found =>
      rw [roomCall_readLine found]
      exact (handleParsed_served request).roomsStep
  | readError client session found =>
      rw [roomCall_readError found]
      exact stopSession_roomsStep state client { session with reading := false }
  | writeDone => exact .unchanged
  | writeError client session found =>
      rw [roomCall_writeError found]
      exact stopSession_roomsStep state client { session with writing := false }
  | act client session first later found =>
      rw [perform_core]
      exact .unchanged

end Steps

/-! ## Runs -/

/-- No counter is about to wrap when the action happens. -/
def Counted (state : ServerState) (_ : Action) : Prop := state.CountersLeft

theorem step_sound (state : ServerState) (action : Action) (next : ServerState)
    (counted : state.Counted action) (stepped : system.step state action = some next)
    (sound : state.core.rooms.Sound) : next.core.rooms.Sound := by
  have step := step_rooms stepped
  generalize state.roomCall action = made at step
  generalize next.core.rooms = rooms at step
  cases step with
  | unchanged => exact sound
  | created => exact sound.createRoom
  | called id room call found => exact sound.putRoom counted.rooms found call

def Serving (state : ServerState) (action : Action) : Prop :=
  state.Counted action ∧ state.core.rooms.Sound

theorem callOn_of_roomCall {state : ServerState} {action : Action} {id other : RoomId}
    {call : Call} (made : state.roomCall action = some (other, call)) :
    state.callOn id action = if other = id then some call else none := by
  rw [callOn, made]
  rfl

theorem callOn_of_none {state : ServerState} {action : Action}
    (nothing : state.roomCall action = none) (id : RoomId) :
    state.callOn id action = none := by
  rw [callOn, nothing]
  rfl

/-- A server hosts each of its rooms. -/
theorem hosts_room (id : RoomId) :
    system.Hosts Serving Room.machine Room.Fits (Room.new id)
      (fun state => state.core.rooms.getRoom id) (callOn id) where
  absent := by
    intro state next action serving stepped missing
    have step := step_rooms stepped
    generalize next.core.rooms = rooms at step
    generalize made : state.roomCall action = call at step
    cases step with
    | unchanged => exact ⟨callOn_of_none made id, .inl missing⟩
    | created =>
        refine ⟨callOn_of_none made id, ?_⟩
        rw [RoomManager.getRoom_createRoom]
        split
        next isNew => exact .inr (by rw [isNew])
        next => exact .inl missing
    | called other room call found =>
        have different : other ≠ id := by
          rintro rfl
          rw [missing] at found
          cases found
        rw [callOn_of_roomCall made, if_neg different, RoomManager.getRoom_putRoom,
          if_neg different.symm]
        exact ⟨rfl, .inl missing⟩
  present := by
    intro state next action current serving stepped isRoom
    have step := step_rooms stepped
    generalize next.core.rooms = rooms at step
    generalize made : state.roomCall action = call at step
    cases step with
    | unchanged =>
        rw [callOn_of_none made]
        exact isRoom
    | created =>
        rw [callOn_of_none made]
        have old : id ≠ state.core.rooms.nextRoomId := by
          rintro rfl
          rw [serving.1.rooms.freshId] at isRoom
          cases isRoom
        simp only [RoomManager.getRoom_createRoom, if_neg old]
        exact isRoom
    | called other room call found =>
        rw [callOn_of_roomCall made]
        by_cases isThis : other = id
        · subst isThis
          cases isRoom.symm.trans found
          simp only [if_true, RoomManager.getRoom_putRoom]
          exact ⟨serving.2.fits serving.1.rooms found call, rfl⟩
        · simp only [if_neg isThis, RoomManager.getRoom_putRoom, if_neg (Ne.symm isThis)]
          exact isRoom

theorem serving_of_counted {sink : Option (List PersistedBoardSnapshot)}
    {actions : List Action} {final : ServerState}
    (runs : system.Runs Counted (start sink) actions final) :
    system.Runs Serving (start sink) actions final :=
  runs.with_invariant step_sound RoomManager.sound_empty

/-- A room is where a fresh one is after the calls made on it, and none of them
was made before there was a room. -/
theorem room_run {sink : Option (List PersistedBoardSnapshot)} {actions : List Action}
    {final : ServerState} (runs : system.Runs Counted (start sink) actions final)
    (id : RoomId) :
    StepSystem.Hosted Room.machine Room.Fits (Room.new id)
      (final.core.rooms.getRoom id) (callsOn sink id actions) :=
  (hosts_room id).hosted_run (serving_of_counted runs) rfl

/-! ## Where calls come from -/

inductive Stops (client : ClientId) (session : ClientSession) : Action → Prop
  | readFailed : Stops client session (.readError client)
  | writeFailed : Stops client session (.writeError client)
  | stopRequested (tasks : List Task) (front : session.strand = .stop :: tasks) :
      Stops client session (.runTask client)

/-- What makes a session call a room: a request of its client, or its end. -/
inductive Causes (state : ServerState) : Action → RoomId → Call → Prop
  | requested (client : ClientId) (session : ClientSession) (message : ClientMessage)
      (now : TimePoint) (id : RoomId) (call : Call)
      (found : state.sessions.lookup client = some session)
      (asks : Asks client session.currentRoom now message id call) :
      Causes state (.readLine client (.ok message) now) id call
  | departed (client : ClientId) (session : ClientSession) (action : Action)
      (id : RoomId) (found : state.sessions.lookup client = some session)
      (running : session.stopped = false) (inside : session.currentRoom = some id)
      (stops : Stops client session action) :
      Causes state action id (.leave client)

private theorem asks_of_asked {client : ClientId} {currentRoom : Option RoomId}
    {now : TimePoint} {request : Except ProtocolError ClientMessage} {id : RoomId}
    {call : Call} (isAsked : asked client currentRoom now request = some (id, call)) :
    ∃ message, request = .ok message ∧
      Asks client currentRoom now message id call := by
  rcases request with error | message
  · cases isAsked
  refine ⟨message, rfl, ?_⟩
  cases message with
  | joinRoomRequest room =>
      rcases Option.ite_none_right_eq_some.mp isAsked with ⟨free, same⟩
      cases same
      exact .join _ free
  | leaveRoomRequest room =>
      rcases Option.ite_none_right_eq_some.mp isAsked with ⟨inside, same⟩
      cases same
      exact .leave _ inside
  | eventRequest room request =>
      rcases Option.ite_none_right_eq_some.mp isAsked with ⟨inside, same⟩
      cases read : toCoreEvent request with
      | error error =>
          rw [read] at same
          cases same
      | ok event =>
          rw [read] at same
          cases same
          exact .event _ request event inside read
  | _ => cases isAsked

private theorem departing_eq_some {session : ClientSession} {client : ClientId}
    {id : RoomId}
    {call : Call} (departs : session.departing client = some (id, call)) :
    session.stopped = false ∧ session.currentRoom = some id ∧ call = .leave client := by
  unfold ClientSession.departing at departs
  split at departs
  next => cases departs
  next running =>
    rcases Option.map_eq_some_iff.mp departs with ⟨room, inside, same⟩
    cases same
    exact ⟨Bool.eq_false_iff.mpr running, inside, rfl⟩

private theorem causes_of_attempted {state : ServerState} {action : Action} {id : RoomId}
    {call : Call} (attempts : state.attempted action = some (id, call)) :
    state.Causes action id call := by
  have departure : ∀ client session, state.sessions.lookup client = some session →
      Stops client session action → session.departing client = some (id, call) →
      state.Causes action id call := by
    intro client session found stops departs
    rcases departing_eq_some departs with ⟨running, inside, rfl⟩
    exact .departed client session action id found running inside stops
  cases action with
  | readLine client request now =>
      rcases Option.bind_eq_some_iff.mp attempts with ⟨session, found, isAsked⟩
      rcases asks_of_asked isAsked with ⟨message, rfl, asks⟩
      exact .requested client session message now id call found asks
  | readError client =>
      rcases Option.bind_eq_some_iff.mp attempts with ⟨session, found, departs⟩
      exact departure client session found .readFailed departs
  | writeError client =>
      rcases Option.bind_eq_some_iff.mp attempts with ⟨session, found, departs⟩
      exact departure client session found .writeFailed departs
  | runTask client =>
      rcases Option.bind_eq_some_iff.mp attempts with ⟨session, found, departs⟩
      split at departs
      next tasks front =>
        exact departure client session found (.stopRequested tasks front) departs
      next => cases departs
  | _ => cases attempts

theorem causes_of_callOn {state : ServerState} {action : Action} {id : RoomId}
    {call : Call} (made : state.callOn id action = some call) :
    state.Causes action id call := by
  rcases Option.bind_eq_some_iff.mp made with ⟨⟨other, theirs⟩, isCall, same⟩
  rcases Option.ite_none_right_eq_some.mp same with ⟨rfl, isThis⟩
  cases isThis
  exact causes_of_attempted (Option.filter_eq_some_iff.mp isCall).1

/-- In every interleaving a room is where a room of its own would be after the
calls made on it in the order of the run, so it keeps the invariant, and each of
these calls was made for a client by its own session. -/
theorem rooms_serialized {sink : Option (List PersistedBoardSnapshot)}
    {actions : List Action} {final : ServerState}
    (runs : system.Runs Counted (start sink) actions final) (id : RoomId) (room : Room)
    (found : final.core.rooms.getRoom id = some room) :
    room = (Room.new id).run (callsOn sink id actions) ∧ room.Invariant ∧
      ∀ call ∈ callsOn sink id actions, ∃ before action after middle,
        actions = before ++ action :: after ∧
        system.Runs Counted (start sink) before middle ∧
        middle.Causes action id call := by
  rcases room_run runs id with ⟨missing, _⟩ | ⟨isRun, fits⟩
  · rw [missing] at found
    cases found
  rw [found] at isRun
  cases isRun
  refine ⟨rfl, Room.run_invariant (Room.new_invariant id) fits, ?_⟩
  intro call member
  rcases runs.mem_inputs member with ⟨before, action, after, middle, split, begins, _,
    made⟩
  exact ⟨before, action, after, middle, split, begins, causes_of_callOn made⟩

def counted (state : ServerState) (_ : Action) : Bool := decide state.CountersLeft

theorem counted_sound (state : ServerState) (action : Action)
    (isCounted : state.counted action = true) : state.Counted action := by
  change state.CountersLeft
  exact of_decide_eq_true isCounted

/-- Client 2 draws, and its connection breaks while client 1 has a line read. -/
def brokenOff : List Action :=
  [.accept, .accept, .runTask 1, .runTask 2,
    .readLine 1 (.ok .createRoomRequest) 0, .act 1, .act 1,
    .readLine 1 (.ok (.joinRoomRequest 1)) 0, .act 1, .act 1,
    .readLine 2 (.ok (.joinRoomRequest 1)) 0, .act 2, .act 2,
    .readLine 2 (.ok (.eventRequest 1 (.strokeBegin 1 0 ⟨0, 0⟩))) 5, .act 2, .act 2,
    .readLine 1 (.ok (.eventRequest 1 .strokeEnd)) 7, .readError 2, .act 1, .act 2]

theorem rooms_serialized_brokenOff :
    ∃ final room, system.Runs Counted (start none) brokenOff final ∧
      final.core.rooms.getRoom 1 = some room ∧
      callsOn none 1 brokenOff = [.join 1, .join 2,
        .apply 2 (.strokeBegin .red .thin ⟨0, 0⟩) 5, .apply 1 .strokeEnd 7, .leave 2] ∧
      room = (Room.new 1).run (callsOn none 1 brokenOff) := by
  have computed : (system.execute counted (start none) brokenOff).map
      (fun final => (final.core.rooms.getRoom 1).isSome) = some true := by
    decide
  rcases Option.map_eq_some_iff.mp computed with ⟨final, executed, isSome⟩
  rcases Option.isSome_iff_exists.mp isSome with ⟨room, found⟩
  have runs := StepSystem.runs_of_execute counted_sound executed
  exact ⟨final, room, runs, found, by decide, (rooms_serialized runs 1 room found).1⟩

end ServerState

end ClearSpace.Server
