import ClearSpace.Server.Concurrency
import Mathlib.Logic.Function.Basic

/-! # Where the sessions are

The part of a server that decides who is in which room: the core, and of every
session its current room and whether it was stopped. A step of the server
accepts a connection, stops a session, handles a request, or leaves all places
as they are; a request and a stop move one client, and its session knows where. -/

namespace ClearSpace.Server

open ClearSpace.Core ClearSpace.Transport

structure Place where
  currentRoom : Option RoomId
  stopped : Bool

namespace ClientSession

def place (session : ClientSession) : Place := ⟨session.currentRoom, session.stopped⟩

def SamePlace (next session : ClientSession) : Prop :=
  next.currentRoom = session.currentRoom ∧ next.stopped = session.stopped

theorem doReadLine_samePlace (session : ClientSession) :
    session.doReadLine.SamePlace session := by
  unfold doReadLine
  split <;> exact ⟨rfl, rfl⟩

theorem doWrite_samePlace (session : ClientSession) :
    session.doWrite.SamePlace session := by
  unfold doWrite
  split <;> exact ⟨rfl, rfl⟩

private theorem push_samePlace (session : ClientSession) (message : ServerMessage) :
    (session.push message).SamePlace session := by
  unfold push
  simp only
  split
  · exact doWrite_samePlace _
  · exact ⟨rfl, rfl⟩

private theorem onWrite_samePlace (session : ClientSession) :
    session.onWrite.SamePlace session := by
  unfold onWrite
  simp only
  split
  · exact ⟨rfl, rfl⟩
  · exact doWrite_samePlace _

theorem SamePlace.place_eq {next session : ClientSession}
    (same : next.SamePlace session) : next.place = session.place := by
  rw [place, same.1, same.2, place]

end ClientSession

namespace ServerState

def place (state : ServerState) (client : ClientId) : Option Place :=
  (state.sessions.lookup client).map ClientSession.place

section Session

variable {state : ServerState} {client : ClientId} {session : ClientSession}

theorem place_of_found (found : state.sessions.lookup client = some session) :
    state.place client = some session.place := by
  simp only [place, found, Option.map_some]

theorem place_putSession (state : ServerState) (client : ClientId)
    (session : ClientSession) :
    (state.putSession client session).place =
      Function.update state.place client (some session.place) := by
  funext other
  by_cases isThis : other = client
  · subst isThis
    simp [place, putSession]
  · simp [place, putSession, isThis]

theorem place_putSession_same (found : state.sessions.lookup client = some session)
    {next : ClientSession} (same : next.SamePlace session) :
    (state.putSession client next).place = state.place := by
  rw [place_putSession, same.place_eq, ← place_of_found found, Function.update_eq_self]

theorem place_post (state : ServerState) (client : ClientId) (task : Task) :
    (state.post client task).place = state.place := by
  unfold post
  cases found : state.sessions.lookup client with
  | none => rfl
  | some session => exact place_putSession_same found ⟨rfl, rfl⟩

theorem core_post (state : ServerState) (client : ClientId) (task : Task) :
    (state.post client task).core = state.core := by
  unfold post
  cases state.sessions.lookup client <;> rfl

end Session

inductive Moved (state : ServerState) : Action → ServerState → Prop
  | stayed (action : Action) (next : ServerState) (core : next.core = state.core)
      (place : next.place = state.place) : Moved state action next
  | accepted (next : ServerState) (core : next.core = state.core)
      (place : next.place =
        Function.update state.place state.nextClientId (some ⟨none, false⟩)) :
      Moved state .accept next
  | stopped (action : Action) (next : ServerState) (client : ClientId)
      (currentRoom : Option RoomId)
      (was : state.place client = some ⟨currentRoom, false⟩)
      (core : next.core = (leaveCurrentRoom state.core client currentRoom).1)
      (place : next.place =
        Function.update state.place client (some ⟨none, true⟩)) :
      Moved state action next
  | handled (client : ClientId) (request : Except ProtocolError ClientMessage)
      (now : TimePoint) (next : ServerState) (before : Place) (handled : Handled)
      (was : state.place client = some before)
      (served : Served state.core client before.currentRoom now request handled)
      (core : next.core = handled.core)
      (place : next.place = Function.update state.place client
        (some ⟨handled.currentRoom, before.stopped⟩)) :
      Moved state (.readLine client request now) next

section Steps

variable {state : ServerState} {client : ClientId} {session : ClientSession}

theorem stopSession_moved {action : Action}
    (found : state.sessions.lookup client = some session) {next : ClientSession}
    (same : next.SamePlace session) :
    Moved state action (state.stopSession client next) := by
  have was : state.place client = some next.place :=
    (place_of_found found).trans (congrArg some same.place_eq.symm)
  unfold stopSession stopImpl
  split
  next => exact .stayed _ _ rfl (place_putSession_same found same)
  next running =>
    have isRunning : next.stopped = false := Bool.eq_false_iff.mpr running
    rw [ClientSession.place, isRunning] at was
    exact .stopped _ _ client next.currentRoom was rfl (place_putSession ..)

private theorem perform_moved {action : Action}
    (found : state.sessions.lookup client = some session) (later : List HandlerStep)
    (next : HandlerStep) :
    Moved state action (state.perform client { session with rest := later } next) := by
  have same : (state.putSession client { session with rest := later }).place =
      state.place :=
    place_putSession_same found ⟨rfl, rfl⟩
  cases next with
  | deliver message =>
      exact .stayed _ _ (core_post ..) ((place_post ..).trans same)
  | forward event =>
      simp only [perform]
      split
      · exact .stayed _ _ (core_post ..) ((place_post ..).trans same)
      · exact .stayed _ _ rfl same
  | remove => exact .stayed _ _ rfl same
  | doReadLine =>
      exact .stayed _ _ rfl
        (place_putSession_same found (ClientSession.doReadLine_samePlace _))

theorem step_moved {next : ServerState} {action : Action}
    (stepped : state.step action = some next) : Moved state action next := by
  cases step_cases stepped with
  | accept => exact .accepted _ rfl (place_putSession ..)
  | stop client => exact .stayed _ _ (core_post ..) (place_post ..)
  | runTask client session task tasks found =>
      cases task with
      | start =>
          exact .stayed _ _ rfl
            (place_putSession_same found (ClientSession.doReadLine_samePlace _))
      | push message =>
          exact .stayed _ _ rfl
            (place_putSession_same found (ClientSession.push_samePlace _ message))
      | stop => exact stopSession_moved found ⟨rfl, rfl⟩
  | readLine client session request now found =>
      exact .handled client request now _ session.place _ (place_of_found found)
        (handleParsed_served request) rfl (place_putSession ..)
  | readError client session found => exact stopSession_moved found ⟨rfl, rfl⟩
  | writeDone client session found =>
      exact .stayed _ _ rfl (place_putSession_same found session.onWrite_samePlace)
  | writeError client session found => exact stopSession_moved found ⟨rfl, rfl⟩
  | act client session next later found => exact perform_moved found later next

end Steps

end ServerState

/-! ## Where a request puts the client -/

/-- A handler of `client` moves nobody else; and if `currentRoom` told the room
of its client before, `nextRoom` does so afterwards. Where a room may take the id
of another one its members get lost: then `Rel` is implication, otherwise `Iff`. -/
structure Settles (Rel : Prop → Prop → Prop) (core : ServerCore) (client : ClientId)
    (currentRoom : Option RoomId) (next : ServerCore) (nextRoom : Option RoomId) :
    Prop where
  others : ∀ id other, other ≠ client →
    Rel (next.rooms.HasMember id other) (core.rooms.HasMember id other)
  own : (∀ id, Rel (core.rooms.HasMember id client) (currentRoom = some id)) →
    ∀ id, Rel (next.rooms.HasMember id client) (nextRoom = some id)

namespace Settles

variable {Rel : Prop → Prop → Prop} (same : ∀ fact : Prop, Rel fact fact)
  (chain : ∀ first second third : Prop, Rel first second → Rel second third →
    Rel first third)
  {core next : ServerCore} {client : ClientId} {currentRoom : Option RoomId}

include chain in
theorem of_unmoved
    (unmoved : ∀ id other,
      Rel (next.rooms.HasMember id other) (core.rooms.HasMember id other)) :
    Settles Rel core client currentRoom next currentRoom where
  others id other _ := unmoved id other
  own known id := chain _ _ _ (unmoved id client) (known id)

include same

theorem unchanged : Settles Rel core client currentRoom core currentRoom where
  others _ _ _ := same _
  own known := known

variable {id : RoomId} {room : Room} {call : Call} {result : Except Error Reply}

include chain in
private theorem of_failed {error : Error} (found : core.rooms.getRoom id = some room)
    (relays : core.Relays id room call next (.error error)) :
    Settles Rel core client currentRoom next currentRoom := by
  apply of_unmoved chain
  intro other someone
  rw [relays.rooms, (Room.call_failed relays.result.symm).1,
    RoomManager.hasMember_putRoom_self found]
  exact same _

include chain in
private theorem of_applied {event : EventPayload} {now : TimePoint}
    (found : core.rooms.getRoom id = some room)
    (relays : core.Relays id room (.apply client event now) next result) :
    Settles Rel core client currentRoom next currentRoom := by
  apply of_unmoved chain
  intro other someone
  have unmoved : next.rooms.HasMember other someone ↔
      core.rooms.HasMember other someone := by
    rw [relays.rooms, RoomManager.hasMember_putRoom]
    split
    next isRoom =>
      subst isRoom
      rw [Room.mem_call_members]
      simp [RoomManager.HasMember, found]
    next => rfl
  rw [unmoved]
  exact same _

theorem others_of_relays (found : core.rooms.getRoom id = some room)
    (relays : core.Relays id room call next result) (isCaller : call.client = client)
    (other : RoomId) (someone : ClientId) (different : someone ≠ client) :
    Rel (next.rooms.HasMember other someone) (core.rooms.HasMember other someone) := by
  rw [relays.rooms, RoomManager.hasMember_putRoom_other found
    (isCaller ▸ Ne.symm different)]
  exact same _

private theorem of_join (found : core.rooms.getRoom id = some room)
    (relays : core.Relays id room (.join client) next result)
    (free : currentRoom = none ∨ currentRoom = some id) :
    Settles Rel core client currentRoom next (some id) where
  others := others_of_relays same found relays rfl
  own known other := by
    rw [relays.rooms, RoomManager.hasMember_putRoom]
    split
    next isRoom =>
      have inside : client ∈ (room.call (.join client)).room.members ↔
          some id = some other := by
        rw [Room.mem_call_members, isRoom]
        exact ⟨fun _ => rfl, fun _ => .inl rfl⟩
      rw [inside]
      exact same _
    next isOther =>
      have sameRoom : some id = some other ↔ currentRoom = some other := by
        have different : id ≠ other := Ne.symm isOther
        rcases free with outside | inside
        · simp [outside, different]
        · rw [inside]
      rw [sameRoom]
      exact known other

theorem of_leave (found : core.rooms.getRoom id = some room)
    (relays : core.Relays id room (.leave client) next result)
    (inside : currentRoom = some id) :
    Settles Rel core client currentRoom next none where
  others := others_of_relays same found relays rfl
  own known other := by
    rw [relays.rooms, RoomManager.hasMember_putRoom]
    split
    next isRoom =>
      have outside : client ∈ (room.call (.leave client)).room.members ↔
          none = some other := by
        rw [Room.mem_call_members]
        exact ⟨fun member => absurd rfl member.1, nofun⟩
      rw [outside]
      exact same _
    next isOther =>
      have elsewhere : (none : Option RoomId) = some other ↔ currentRoom = some other := by
        have different : id ≠ other := Ne.symm isOther
        rw [inside]
        simp [different]
      rw [elsewhere]
      exact known other

end Settles

section Settles

variable {Rel : Prop → Prop → Prop} (same : ∀ fact : Prop, Rel fact fact)
  (chain : ∀ first second third : Prop, Rel first second → Rel second third →
    Rel first third)
  {core : ServerCore} {client : ClientId} {currentRoom : Option RoomId}

include same chain in
theorem Served.settles {now : TimePoint} {request : Except ProtocolError ClientMessage}
    {handled : Handled} (served : Served core client currentRoom now request handled)
    (created : request = .ok .createRoomRequest → ∀ id other,
      Rel (core.createRoom.1.rooms.HasMember id other) (core.rooms.HasMember id other)) :
    Settles Rel core client currentRoom handled.core handled.currentRoom := by
  cases served with
  | refused => exact .unchanged same
  | ponged => exact .unchanged same
  | created => exact .of_unmoved chain (created rfl)
  | failed message id room call next error asks found relays =>
      exact .of_failed same chain found relays
  | joined id room next snapshot free found relays =>
      exact .of_join same found relays free
  | left id room next events inside found relays =>
      exact .of_leave same found relays inside
  | applied id request event room next events inside read found relays =>
      exact .of_applied same chain found relays

include same in
theorem Departed.settles {left : ServerCore × List HandlerStep}
    (departed : Departed core client currentRoom left) :
    Settles Rel core client currentRoom left.1 none := by
  cases departed with
  | nowhere _ missing =>
      refine ⟨fun _ _ _ => same _, ?_⟩
      intro known id
      by_cases isCurrent : currentRoom = some id
      · -- the client can only be in a room that does not exist
        have nobody : core.rooms.HasMember id client ↔ none = some id := by
          simp [RoomManager.HasMember, missing id isCurrent]
        rw [nobody]
        exact same _
      · have elsewhere : (none : Option RoomId) = some id ↔ currentRoom = some id := by
          simp [isCurrent]
        rw [elsewhere]
        exact known id
  | failed id room next error found relays => exact .of_leave same found relays rfl
  | left id room next events found relays => exact .of_leave same found relays rfl

end Settles

end ClearSpace.Server
