import ClearSpace.Server.Places

/-! # Stopped sessions

A session that was stopped is in no room, and a client that disconnects leaves
its room. The handler of a read that completed before the stop does not look at
`stopped_`, though, and may join a room once more. -/

namespace ClearSpace.Server

open ClearSpace.Core ClearSpace.Transport

/-- Without a current room only a join of an existing room gives one. -/
theorem Served.outside {core : ServerCore} {client : ClientId} {now : TimePoint}
    {request : Except ProtocolError ClientMessage} {handled : Handled}
    (served : Served core client none now request handled)
    (noJoin : ∀ id, request = .ok (.joinRoomRequest id) →
      core.rooms.getRoom id = none) : handled.currentRoom = none := by
  cases served with
  | joined id room next snapshot free found relays =>
      rw [noJoin id rfl] at found
      cases found
  | _ => rfl

/-! ## The invariant -/

namespace ServerState

/-- Every member of a room has a session that knows the room, and a stopped
session knows of none. -/
structure Located (state : ServerState) : Prop where
  known : ∀ id client, state.core.rooms.HasMember id client →
    ∃ session, state.sessions.lookup client = some session ∧
      session.currentRoom = some id
  stopped : ∀ client session, state.sessions.lookup client = some session →
    session.stopped = true → session.currentRoom = none

private theorem start_located (sink : Option (List PersistedBoardSnapshot)) :
    (start sink).Located where
  known id client member := by
    rcases member with ⟨room, found, _⟩
    cases found
  stopped client session found := by cases found

section Steps

variable {state next : ServerState} {client : ClientId}

theorem located_iff :
    state.Located ↔
      (∀ id client, state.core.rooms.HasMember id client →
        ∃ place, state.place client = some place ∧ place.currentRoom = some id) ∧
      ∀ client place, state.place client = some place → place.stopped = true →
        place.currentRoom = none := by
  constructor
  · intro located
    constructor
    · intro id client member
      rcases located.known id client member with ⟨session, found, isCurrent⟩
      exact ⟨session.place, place_of_found found, isCurrent⟩
    · intro client place isPlace
      rcases Option.map_eq_some_iff.mp isPlace with ⟨session, found, rfl⟩
      exact located.stopped client session found
  · intro placed
    rcases placed with ⟨known, stopped⟩
    constructor
    · intro id client member
      rcases known id client member with ⟨place, isPlace, isCurrent⟩
      rcases Option.map_eq_some_iff.mp isPlace with ⟨session, found, rfl⟩
      exact ⟨session, found, isCurrent⟩
    · intro client session found
      exact stopped client session.place (place_of_found found)

theorem Located.own (located : state.Located) {place : Place}
    (isPlace : state.place client = some place) (id : RoomId)
    (member : state.core.rooms.HasMember id client) : place.currentRoom = some id := by
  rcases (located_iff.mp located).1 id client member with ⟨other, isOther, isCurrent⟩
  rw [isPlace] at isOther
  cases isOther
  exact isCurrent

theorem Located.moved (located : state.Located) {place : Place}
    (places : next.place = Function.update state.place client (some place))
    (others : ∀ id other, other ≠ client → next.core.rooms.HasMember id other →
      state.core.rooms.HasMember id other)
    (own : ∀ id, next.core.rooms.HasMember id client → place.currentRoom = some id)
    (stopped : place.stopped = true → place.currentRoom = none) : next.Located := by
  rcases located_iff.mp located with ⟨known, knownStopped⟩
  apply located_iff.mpr
  rw [places]
  constructor
  · intro id other member
    by_cases isClient : other = client
    · subst isClient
      exact ⟨place, Function.update_self .., own id member⟩
    · rw [Function.update_of_ne isClient]
      exact known id other (others id other isClient member)
  · intro other found isFound
    by_cases isClient : other = client
    · subst isClient
      rw [Function.update_self] at isFound
      cases isFound
      exact stopped
    · rw [Function.update_of_ne isClient] at isFound
      exact knownStopped other found isFound

theorem Located.accepted (located : state.Located)
    (fresh : state.nextClientId ∉ state.sessions) (core : next.core = state.core)
    (places : next.place =
      Function.update state.place state.nextClientId (some ⟨none, false⟩)) :
    next.Located := by
  apply located.moved places
  · rw [core]
    exact fun _ _ _ member => member
  · intro id member
    rw [core] at member
    rcases located.known id _ member with ⟨session, found, _⟩
    rw [AList.lookup_eq_none.mpr fresh] at found
    cases found
  · exact nofun

theorem Located.stop (located : state.Located) {currentRoom : Option RoomId}
    (was : state.place client = some ⟨currentRoom, false⟩)
    (core : next.core = (leaveCurrentRoom state.core client currentRoom).1)
    (places : next.place = Function.update state.place client (some ⟨none, true⟩)) :
    next.Located := by
  have departed : Settles (· → ·) state.core client currentRoom
      (leaveCurrentRoom state.core client currentRoom).1 none :=
    (leaveCurrentRoom_departed _ _ _).settles fun _ => id
  rw [← core] at departed
  apply located.moved places departed.others
  · exact departed.own (located.own was)
  · exact fun _ => rfl

theorem Located.handled (located : state.Located) {before : Place} {handled : Handled}
    {request : Except ProtocolError ClientMessage} {now : TimePoint}
    (was : state.place client = some before)
    (served : Served state.core client before.currentRoom now request handled)
    (core : next.core = handled.core)
    (places : next.place = Function.update state.place client
      (some ⟨handled.currentRoom, before.stopped⟩))
    (noLateJoin : before.stopped = true → ∀ id,
      request = .ok (.joinRoomRequest id) → state.core.rooms.getRoom id = none) :
    next.Located := by
  have placed : Settles (· → ·) state.core client before.currentRoom handled.core
      handled.currentRoom := by
    have same : ∀ fact : Prop, fact → fact := fun _ => id
    have chain : ∀ first second third : Prop, (first → second) → (second → third) →
        first → third := fun _ _ _ earlier later => later ∘ earlier
    exact served.settles same chain fun _ _ _ member => member.of_createRoom
  rw [← core] at placed
  apply located.moved places placed.others
  · exact placed.own (located.own was)
  · intro isStopped
    have outside := (located_iff.mp located).2 client before was isStopped
    rw [outside] at served
    exact served.outside (noLateJoin isStopped)

end Steps

/-! ## Runs -/

def StoppedOutside (state : ServerState) : Prop :=
  ∀ client session, state.sessions.lookup client = some session →
    session.stopped = true → session.rest = [] →
    session.currentRoom = none ∧ ∀ id, ¬ state.core.rooms.HasMember id client

/-- Connections get new ids, and no read that completes on a stopped session
asks to join a room that exists. -/
def NoLateJoin (state : ServerState) : Action → Prop
  | .accept => state.nextClientId ∉ state.sessions
  | .readLine client (.ok (.joinRoomRequest id)) _ => ∀ session,
      state.sessions.lookup client = some session → session.stopped = true →
      state.core.rooms.getRoom id = none
  | _ => True

private theorem step_located (state : ServerState) (action : Action) (next : ServerState)
    (noLateJoin : state.NoLateJoin action)
    (stepped : system.step state action = some next)
    (located : state.Located) : next.Located := by
  cases step_moved stepped with
  | stayed _ _ core place =>
      apply located_iff.mpr
      rw [core, place]
      exact located_iff.mp located
  | accepted _ core place => exact located.accepted noLateJoin core place
  | stopped _ _ client currentRoom was core place => exact located.stop was core place
  | handled client request now _ before handled was served core place =>
      apply located.handled was served core place
      rintro isStopped id rfl
      rcases Option.map_eq_some_iff.mp was with ⟨session, found, rfl⟩
      exact noLateJoin session found isStopped

/-- As long as no stopped session is made to join a room, every stopped session
is in no room. -/
theorem stopped_outside {sink : Option (List PersistedBoardSnapshot)}
    {actions : List Action} {final : ServerState}
    (runs : system.Runs NoLateJoin (start sink) actions final) :
    final.StoppedOutside := by
  have located : final.Located := runs.invariant step_located (start_located sink)
  intro client session found isStopped _
  have outside := located.stopped client session found isStopped
  refine ⟨outside, ?_⟩
  intro id member
  have isCurrent : session.currentRoom = some id :=
    located.own (place_of_found found) id member
  rw [isCurrent] at outside
  cases outside

def joinsInTime (state : ServerState) : Action → Bool
  | .accept => decide (state.nextClientId ∉ state.sessions)
  | .readLine client (.ok (.joinRoomRequest id)) _ =>
      (state.sessions.lookup client).all (fun session => !session.stopped) ||
        (state.core.rooms.getRoom id).isNone
  | _ => true

private theorem noLateJoin_of_joinsInTime (state : ServerState) (action : Action)
    (inTime : state.joinsInTime action = true) : state.NoLateJoin action := by
  unfold NoLateJoin
  split
  · exact of_decide_eq_true inTime
  · intro session found isStopped
    simpa [joinsInTime, found, isStopped] using inTime
  · trivial

def writing : List Action :=
  [.accept, .runTask 1, .readLine 1 (.ok .createRoomRequest) 0, .act 1, .act 1,
    .runTask 1]

/-- It enters the room, the write fails, and one more request arrives. -/
def disconnecting : List Action := writing ++
  [.readLine 1 (.ok (.joinRoomRequest 1)) 0, .act 1, .act 1, .writeError 1, .act 1,
    .readLine 1 (.ok .pingRequest) 0, .act 1, .act 1]

/-- The write fails first; the request to enter had already been read. -/
def returning : List Action := writing ++
  [.writeError 1, .act 1, .readLine 1 (.ok (.joinRoomRequest 1)) 0, .act 1, .act 1]

def seen (state : ServerState) (client : ClientId) :
    Option (Bool × Bool × Option RoomId) :=
  (state.sessions.lookup client).map fun session =>
    (session.stopped, session.rest.isEmpty, session.currentRoom)

theorem stopped_outside_disconnecting :
    ∃ final, system.Runs NoLateJoin (start none) disconnecting final ∧
      final.seen 1 = some (true, true, none) ∧ final.StoppedOutside := by
  have computed : (system.execute joinsInTime (start none) disconnecting).map
      (·.seen 1) = some (some (true, true, none)) := by
    decide
  rcases Option.map_eq_some_iff.mp computed with ⟨final, executed, isSeen⟩
  have runs := StepSystem.runs_of_execute noLateJoin_of_joinsInTime executed
  exact ⟨final, runs, isSeen, stopped_outside runs⟩

theorem stopped_inside :
    ¬ ∀ sink actions final, system.Runs StepSystem.Any (start sink) actions final →
      final.StoppedOutside := by
  intro always
  have computed : (system.execute StepSystem.unchecked (start none) returning).map
      (·.seen 1) = some (some (true, true, some 1)) := by
    decide
  rcases Option.map_eq_some_iff.mp computed with ⟨final, executed, isSeen⟩
  have runs := StepSystem.runs_of_unchecked executed
  rcases Option.map_eq_some_iff.mp isSeen with ⟨session, found, fields⟩
  simp only [Prod.mk.injEq, List.isEmpty_iff] at fields
  have outside := always none returning final runs 1 session found fields.1 fields.2.1
  rw [fields.2.2] at outside
  cases outside.1

end ServerState

end ClearSpace.Server
