import ClearSpace.Core.ConcurrentCore
import ClearSpace.Foundation.Threads

/-! # The last board of a room

A leave counts the members and copies the board after it has given up the room.
Whoever empties the room last still finds it empty, unless somebody came in. -/

namespace ClearSpace.Core

namespace Room

theorem not_mem_of_memberCount {room : Room} (empty : room.memberCount = 0)
    (client : ClientId) : client ∉ room.members := by
  intro member
  have nothing : room.members.elements = [] := List.length_eq_zero_iff.mp empty
  rw [UnorderedSet.mem_def, nothing] at member
  cases member

private theorem memberCount_join (room : Room) (client : ClientId) :
    (room.join client).room.memberCount ≠ 0 := by
  intro empty
  exact not_mem_of_memberCount empty client (UnorderedSet.mem_insert.mpr (.inl rfl))

private theorem apply_emptied {room : Room} {client : ClientId} {event : EventPayload}
    {now : TimePoint} (empty : (room.apply client event now).room.memberCount = 0) :
    (room.apply client event now).room = room := by
  have before : room.memberCount = 0 := by
    unfold memberCount at empty ⊢
    rw [(room.apply_frame client event now).2] at empty
    exact empty
  rw [apply_outside (not_mem_of_memberCount before client)]
  rfl

end Room

namespace ConcurrentCore

/-- Note the rooms that somebody has left. A room that is created under an id
is another room than the one that had it. -/
def noteLeave (state : ConcurrentCore) : Action → List RoomId → List RoomId
  | .createRoom, left => left.filter (· ≠ state.rooms.nextRoomId)
  | .leaveRoom _ client id, left =>
      match state.rooms.getRoom id with
      | none => left
      | some room =>
          match (room.leave client).result with
          | .error _ => left
          | .ok _ => id :: left
  | _, left => left

def leftRooms (actions : List Action) : List RoomId :=
  system.noted noteLeave {} [] actions

/-! ## The invariant -/

/-- The thread is still going to enqueue the board, or to look whether the room
is empty and then to enqueue it. -/
def WillStore (id : RoomId) (room : Room) : Progress → Prop
  | .idle => False
  | .counting other => other = id
  | .saving other => other = id
  | .holding snapshot => snapshot = room.makePersistedSnapshot

def InHand (state : ConcurrentCore) (id : RoomId) (room : Room) : Prop :=
  room.makePersistedSnapshot ∈ state.enqueued ∨
    ∃ thread, WillStore id room (state.progress thread)

structure Watched (state : ConcurrentCore) (left : List RoomId) : Prop where
  named : ∀ id room, state.rooms.getRoom id = some room → room.id = id
  inHand : ∀ id ∈ left, ∀ room, state.rooms.getRoom id = some room →
    room.memberCount = 0 → state.InHand id room

section Steps

variable {state : ConcurrentCore} {id : RoomId} {room : Room} {thread : Nat}

theorem InHand.goTo (inHand : state.InHand id room) {next : Progress}
    (keeps : WillStore id room (state.progress thread) → WillStore id room next) :
    (state.goTo thread next).InHand id room := by
  rcases inHand with stored | willStore
  · exact .inl stored
  · exact .inr (Threads.exists_update willStore keeps)

theorem InHand.operate (inHand : state.InHand id room)
    (doing : state.progress thread = .idle) (target : RoomId)
    (outcome : Outcome (List OutgoingEvent)) (next : Progress) :
    (state.operate thread target outcome next).InHand id room := by
  unfold ConcurrentCore.operate
  cases outcome.result with
  | error => exact inHand
  | ok =>
      have begun : InHand { state with
          rooms := state.rooms.putRoom target outcome.room } id room := inHand
      apply begun.goTo
      intro willStore
      change WillStore id room (state.progress thread) at willStore
      rw [doing] at willStore
      exact willStore.elim

theorem InHand.enqueue (inHand : state.InHand id room)
    {snapshot : PersistedBoardSnapshot}
    (doing : state.progress thread = .holding snapshot) :
    InHand ({ state with enqueued := state.enqueued ++ [snapshot] }.goTo thread .idle)
      id room := by
  rcases inHand with stored | ⟨other, willStore⟩
  · exact .inl (List.mem_append_left _ stored)
  · by_cases isThis : other = thread
    · rw [isThis, doing] at willStore
      left
      rw [← willStore]
      exact List.mem_append_right _ (.head _)
    · right
      refine ⟨other, ?_⟩
      rw [goTo_progress_of_ne _ isThis]
      exact willStore

variable {left : List RoomId}

theorem Watched.goTo (holds : state.Watched left) {next : Progress}
    (keeps : ∀ id room, state.rooms.getRoom id = some room → room.memberCount = 0 →
      WillStore id room (state.progress thread) → WillStore id room next) :
    (state.goTo thread next).Watched left where
  named := holds.named
  inHand id noted room found empty :=
    (holds.inHand id noted room found empty).goTo (keeps id room found empty)

/-- The room operation of a call: the room keeps its name, and if it is empty
and was left, it is in hand. -/
theorem Watched.putRoom (holds : state.Watched left) {next : ConcurrentCore}
    {target : RoomId} {changed : Room} (sameId : changed.id = target)
    (rooms : next.rooms = state.rooms.putRoom target changed)
    (keeps : ∀ id room, state.InHand id room → next.InHand id room)
    {nextLeft : List RoomId}
    (others : ∀ id ∈ nextLeft, id ≠ target → id ∈ left)
    (own : target ∈ nextLeft → changed.memberCount = 0 → next.InHand target changed) :
    next.Watched nextLeft where
  named id room found := by
    rw [rooms, RoomManager.getRoom_putRoom] at found
    split at found
    next isTarget =>
      cases found
      rw [sameId, isTarget]
    next => exact holds.named id room found
  inHand id noted room found empty := by
    rw [rooms, RoomManager.getRoom_putRoom] at found
    split at found
    next isTarget =>
      cases found
      subst isTarget
      exact own noted empty
    next isOther =>
      exact keeps id room
        (holds.inHand id (others id noted isOther) room found empty)

theorem Watched.createRoom (holds : state.Watched left) :
    Watched { state with rooms := state.rooms.createRoom.1 }
      (state.noteLeave .createRoom left) where
  named id room found := by
    rw [RoomManager.getRoom_createRoom] at found
    split at found
    next isNew =>
      cases found
      exact isNew.symm
    next => exact holds.named id room found
  inHand id noted room found empty := by
    rcases List.mem_filter.mp noted with ⟨before, different⟩
    rw [RoomManager.getRoom_createRoom, if_neg (of_decide_eq_true different)] at found
    exact holds.inHand id before room found empty

theorem Watched.leaveRoom (holds : state.Watched left)
    (doing : state.progress thread = .idle)
    (found : state.rooms.getRoom id = some room) (client : ClientId) :
    (state.operate thread id (room.leave client) (.counting id)).Watched
      (state.noteLeave (.leaveRoom thread client id) left) := by
  have sameId : (room.leave client).room.id = id :=
    (room.call_id (.leave client)).trans (holds.named id room found)
  simp only [noteLeave, found]
  cases result : (room.leave client).result with
  | ok events =>
      apply holds.putRoom sameId (operate_rooms ..)
      · intro other stored inHand
        exact inHand.operate doing ..
      · intro other noted different
        exact (List.mem_cons.mp noted).resolve_left different
      · intro _ _
        -- the leaver itself has yet to count the members
        right
        refine ⟨thread, ?_⟩
        unfold ConcurrentCore.operate
        simp only [result, goTo_progress_self]
        rfl
  | error error =>
      apply holds.putRoom sameId (operate_rooms ..)
      · intro other stored inHand
        exact inHand.operate doing ..
      · intro other noted _
        exact noted
      · rw [Room.leave_failed result]
        intro noted empty
        exact (holds.inHand id noted room found empty).operate doing ..

theorem Watched.apply (holds : state.Watched left)
    (doing : state.progress thread = .idle)
    (found : state.rooms.getRoom id = some room) (client : ClientId)
    (event : EventPayload) (now : TimePoint) (next : Progress) :
    (state.operate thread id (room.apply client event now) next).Watched left := by
  have sameId : (room.apply client event now).room.id = id :=
    (room.apply_frame client event now).1.trans (holds.named id room found)
  apply holds.putRoom sameId (operate_rooms ..)
  · intro other stored inHand
    exact inHand.operate doing ..
  · intro other noted _
    exact noted
  · intro noted empty
    have unchanged := Room.apply_emptied empty
    rw [unchanged] at empty ⊢
    exact (holds.inHand id noted room found empty).operate doing ..

private theorem step_watched (state : ConcurrentCore) (action : Action)
    (next : ConcurrentCore) (left : List RoomId) (_ : StepSystem.Any state action)
    (stepped : system.step state action = some next) (holds : state.Watched left) :
    next.Watched (state.noteLeave action left) := by
  cases step_cases stepped with
  | createRoom => exact holds.createRoom
  | joinMissing => exact holds
  | joinRoom client id room found =>
      have sameId : (room.join client).room.id = id := holds.named id room found
      apply holds.putRoom sameId rfl
      · intro _ _ inHand
        exact inHand
      · intro other noted _
        exact noted
      · intro _ empty
        exact absurd empty (room.memberCount_join client)
  | leaveMissing thread client id doing missing =>
      simp only [noteLeave, missing]
      exact holds
  | leaveRoom thread client id room doing found =>
      exact holds.leaveRoom doing found client
  | eventMissing => exact holds
  | savedEvent thread client id event now room doing found =>
      have applied := holds.apply doing found client event now (.saving id)
      exact ⟨applied.named, applied.inHand⟩
  | event thread client id event now room doing found =>
      exact holds.apply doing found client event now .idle
  | memberCount thread id room doing found =>
      apply holds.goTo
      intro other stored isStored empty willStore
      rw [doing] at willStore
      cases willStore
      cases found.symm.trans isStored
      rw [if_pos empty]
      rfl
  | makePersistedSnapshot thread id room doing found =>
      apply holds.goTo
      intro other stored isStored _ willStore
      rw [doing] at willStore
      cases willStore
      cases found.symm.trans isStored
      rfl
  | enqueue thread snapshot doing =>
      refine ⟨holds.named, ?_⟩
      intro id noted room found empty
      exact (holds.inHand id noted room found empty).enqueue doing

end Steps

/-! ## Runs -/

theorem runs_stored {actions : List Action} {final : ConcurrentCore}
    (runs : system.Runs StepSystem.Any {} actions final)
    (completed : ∀ thread, final.progress thread = .idle) {id : RoomId}
    (left : id ∈ leftRooms actions) {room : Room}
    (found : final.rooms.getRoom id = some room) (empty : room.memberCount = 0) :
    room.id = id ∧ room.makePersistedSnapshot ∈ final.enqueued := by
  have started : Watched {} [] :=
    ⟨fun _ _ found => (by cases found), fun _ noted => absurd noted List.not_mem_nil⟩
  have watched := runs.invariant_noted step_watched started
  refine ⟨watched.named id room found, ?_⟩
  rcases watched.inHand id left room found empty with stored | ⟨thread, willStore⟩
  · exact stored
  · rw [completed thread] at willStore
    exact willStore.elim

/-- When all calls are through, an empty room that somebody has left has its
board in the sink. -/
theorem emptied_room_stored {actions : List Action} {final : ConcurrentCore}
    (runs : system.Runs StepSystem.Any {} actions final)
    (completed : ∀ thread, final.progress thread = .idle) {id : RoomId}
    (left : id ∈ leftRooms actions) {room : Room}
    (found : final.rooms.getRoom id = some room) (empty : room.memberCount = 0) :
    ∃ snapshot ∈ final.enqueued, snapshot.room = id ∧
      snapshot.strokes = room.board.strokes ∧ snapshot.lastSeq = room.lastSeq := by
  rcases runs_stored runs completed left found empty with ⟨isId, stored⟩
  exact ⟨_, stored, isId, rfl, rfl⟩

/-- Two clients leave room 1 at once; a third comes and goes before the first
leaver has counted the members. -/
def leaving : List Action :=
  [.createRoom, .joinRoom 7 1, .joinRoom 9 1,
    .handleEvent 0 7 1 (.strokeBegin .red .thin ⟨0, 0⟩) 0,
    .leaveRoom 0 7 1, .leaveRoom 1 9 1, .joinRoom 5 1, .memberCount 0,
    .leaveRoom 2 5 1, .memberCount 1, .makePersistedSnapshot 1, .memberCount 2,
    .enqueue 1, .makePersistedSnapshot 2, .enqueue 2]

theorem emptied_room_stored_leaving :
    ∃ final room, system.Runs StepSystem.Any {} leaving final ∧
      final.rooms.getRoom 1 = some room ∧ room.lastSeq = 5 ∧
      ∃ snapshot ∈ final.enqueued, snapshot.room = 1 ∧
        snapshot.strokes = room.board.strokes ∧ snapshot.lastSeq = room.lastSeq := by
  have executed : ∃ final room,
      system.execute StepSystem.unchecked {} leaving = some final ∧
        final.rooms.getRoom 1 = some room ∧ room.lastSeq = 5 ∧
        room.memberCount = 0 ∧ ∀ thread, final.progress thread = .idle := by
    refine ⟨_, _, rfl, rfl, rfl, rfl, ?_⟩
    intro thread
    rcases thread with _ | _ | _ | thread <;> rfl
  rcases executed with ⟨final, room, executed, found, last, empty, completed⟩
  have runs := StepSystem.runs_of_unchecked executed
  exact ⟨final, room, runs, found, last,
    emptied_room_stored runs completed (by decide) found empty⟩

end ConcurrentCore

end ClearSpace.Core
