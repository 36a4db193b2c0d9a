import ClearSpace.Server.Places

/-! # Sessions and members

A session keeps the room it is in, and every room its members. Both are only
changed together, so that a session never leaves or draws in a room that does
not know it. -/

namespace ClearSpace.Server

open ClearSpace.Core ClearSpace.Transport

/-! ## The invariant -/

namespace ServerState

def roomOf (state : ServerState) (client : ClientId) : Option RoomId :=
  (state.place client).bind Place.currentRoom

def Settled (state : ServerState) : Prop :=
  ∀ client id, state.core.rooms.HasMember id client ↔ state.roomOf client = some id

/-- Neither a connection nor a room gets an id that is in use. -/
def UniqueIds (state : ServerState) : Action → Prop
  | .accept => state.nextClientId ∉ state.sessions
  | .readLine _ (.ok .createRoomRequest) _ =>
      state.core.rooms.getRoom state.core.rooms.nextRoomId = none
  | _ => True

section Steps

variable {state next : ServerState} {client : ClientId}

private theorem roomOf_update {place : Place}
    (places : next.place = Function.update state.place client (some place)) :
    next.roomOf = Function.update state.roomOf client place.currentRoom := by
  funext other
  unfold roomOf
  rw [places]
  by_cases isClient : other = client
  · subst isClient
    simp
  · simp [isClient]

theorem Settled.moved (settled : state.Settled) {place : Place}
    (places : next.place = Function.update state.place client (some place))
    (settles : Settles Iff state.core client (state.roomOf client) next.core
      place.currentRoom) : next.Settled := by
  intro other id
  rw [roomOf_update places]
  by_cases isClient : other = client
  · subst isClient
    rw [Function.update_self]
    exact settles.own (settled other) id
  · rw [Function.update_of_ne isClient, settles.others id other isClient]
    exact settled other id

theorem step_settled (state : ServerState) (action : Action) (next : ServerState)
    (unique : state.UniqueIds action)
    (stepped : system.step state action = some next) (settled : state.Settled) :
    next.Settled := by
  cases step_moved stepped with
  | stayed _ _ core place =>
      intro client id
      rw [core, roomOf, place]
      exact settled client id
  | accepted _ core place =>
      have fresh : state.roomOf state.nextClientId = none := by
        rw [roomOf, ServerState.place, AList.lookup_eq_none.mpr unique]
        rfl
      apply settled.moved place
      rw [core, fresh]
      exact .unchanged fun _ => Iff.rfl
  | stopped _ _ client currentRoom was core place =>
      have known : state.roomOf client = currentRoom := by
        rw [roomOf, was]
        rfl
      apply settled.moved place
      rw [core, known]
      exact (leaveCurrentRoom_departed _ _ _).settles fun _ => Iff.rfl
  | handled client request now _ before handled was served core place =>
      have known : state.roomOf client = before.currentRoom := by
        rw [roomOf, was]
        rfl
      apply settled.moved place
      rw [core, known]
      apply served.settles (fun _ => Iff.rfl) (fun _ _ _ => Iff.trans)
      rintro rfl id other
      exact RoomManager.hasMember_createRoom unique

end Steps

/-! ## Runs -/

/-- Between its handlers a session and the rooms agree on where its client is;
so the core refuses neither the leave of a session from its room nor an event of
a client for being outside. -/
structure Agrees (state : ServerState) (client : ClientId) (session : ClientSession) :
    Prop where
  member : ∀ id,
    session.currentRoom = some id ↔ state.core.rooms.HasMember id client
  alone : ∀ id other, state.core.rooms.HasMember id client →
    state.core.rooms.HasMember other client → id = other
  leaves : ∀ id, session.currentRoom = some id →
    ∃ events, (state.core.leaveRoom client id).2 = .ok events
  draws : ∀ id event now error, session.currentRoom = some id →
    (state.core.handleEvent client id event now).2 = .error error →
    error ≠ .notInRoom ∧ error ≠ .roomNotFound

theorem Settled.agrees {state : ServerState} (settled : state.Settled)
    {client : ClientId} {session : ClientSession}
    (found : state.sessions.lookup client = some session) :
    state.Agrees client session := by
  have known : state.roomOf client = session.currentRoom := by
    rw [roomOf, place_of_found found]
    rfl
  have member : ∀ id,
      session.currentRoom = some id ↔ state.core.rooms.HasMember id client := by
    intro id
    rw [← known]
    exact (settled client id).symm
  refine ⟨member, ?_, ?_, ?_⟩
  · intro id other inId inOther
    have sameRoom := ((member id).mpr inId).symm.trans ((member other).mpr inOther)
    exact Option.some.inj sameRoom
  · intro id isCurrent
    exact ServerCore.leaveRoom_of_member ((member id).mp isCurrent)
  · intro id event now error isCurrent failed
    exact ServerCore.handleEvent_of_member ((member id).mp isCurrent) failed

/-- Whatever the interleaving and whatever the requests, as long as no new connection and
no new room gets an id that is in use. -/
theorem membership_agrees {sink : Option (List PersistedBoardSnapshot)}
    {actions : List Action} {final : ServerState}
    (runs : system.Runs UniqueIds (start sink) actions final) {client : ClientId}
    {session : ClientSession} (found : final.sessions.lookup client = some session)
    (_ : session.rest = []) : final.Agrees client session := by
  have settled : final.Settled := by
    apply runs.invariant step_settled
    intro client id
    exact ⟨fun ⟨_, isRoom, _⟩ => (by cases isRoom), nofun⟩
  exact settled.agrees found

def idsUnused (state : ServerState) : Action → Bool
  | .accept => decide (state.nextClientId ∉ state.sessions)
  | .readLine _ (.ok .createRoomRequest) _ =>
      (state.core.rooms.getRoom state.core.rooms.nextRoomId).isNone
  | _ => true

private theorem uniqueIds_of_idsUnused (state : ServerState) (action : Action)
    (unused : state.idsUnused action = true) : state.UniqueIds action := by
  unfold UniqueIds
  split
  · exact of_decide_eq_true unused
  · exact Option.isNone_iff_eq_none.mp unused
  · trivial

/-- Client 1 opens room 1 and enters it; client 2 follows and asks for a room
that does not exist. -/
def entering : List Action :=
  [.accept, .runTask 1, .accept, .runTask 2, .readLine 1 (.ok .createRoomRequest) 0,
    .act 1, .act 1, .readLine 1 (.ok (.joinRoomRequest 1)) 0,
    .readLine 2 (.ok (.joinRoomRequest 1)) 0, .act 2, .act 1, .act 2, .act 1,
    .readLine 2 (.ok (.joinRoomRequest 5)) 0, .act 2, .act 2]

theorem membership_agrees_entering :
    ∃ final session, system.Runs UniqueIds (start none) entering final ∧
      final.sessions.lookup 2 = some session ∧ session.currentRoom = some 1 ∧
      final.Agrees 2 session := by
  have executed : ∃ final session,
      system.execute idsUnused (start none) entering = some final ∧
        final.sessions.lookup 2 = some session ∧ session.currentRoom = some 1 ∧
        session.rest = [] :=
    ⟨_, _, rfl, rfl, rfl, rfl⟩
  rcases executed with ⟨final, session, executed, found, isCurrent, idle⟩
  have runs := StepSystem.runs_of_execute uniqueIds_of_idsUnused executed
  exact ⟨final, session, runs, found, isCurrent, membership_agrees runs found idle⟩

end ServerState

end ClearSpace.Server
