import ClearSpace.Core.ServerCore

/-! # Runs of the server core

The operations of `ServerCore` one after the other. An operation on a room is a
call of the room together with the decision whether to store the board. -/

namespace ClearSpace.Core

inductive ServerCall
  | createRoom
  | on (room : RoomId) (call : Call)
  deriving DecidableEq, Repr

inductive ServerReply
  | created (room : RoomId)
  | answered (result : Except Error Reply)
  deriving DecidableEq

/-- When a call that came to this outcome has the board stored. -/
def Call.saves (call : Call) (outcome : Outcome Reply) : Bool :=
  match outcome.result with
  | .error _ => false
  | .ok _ =>
      match call with
      | .join _ => false
      | .leave _ => decide (outcome.room.memberCount = 0)
      | .apply _ event _ => ServerCore.shouldSave event

namespace ServerCore

def call (core : ServerCore) : ServerCall → ServerCore × ServerReply
  | .createRoom =>
      let created := core.createRoom
      (created.1, .created created.2)
  | .on room (.join client) =>
      let joined := core.joinRoom client room
      (joined.1, .answered (joined.2.map .snapshot))
  | .on room (.leave client) =>
      let left := core.leaveRoom client room
      (left.1, .answered (left.2.map .events))
  | .on room (.apply client event now) =>
      let handled := core.handleEvent client room event now
      (handled.1, .answered (handled.2.map .events))

def machine : Machine ServerCore ServerCall ServerReply where
  step := call

def run (core : ServerCore) (calls : List ServerCall) : ServerCore :=
  machine.final core calls

def enqueuedFor (core : ServerCore) (id : RoomId) : List PersistedBoardSnapshot :=
  (core.snapshotSink.getD []).filter fun snapshot => snapshot.room = id

section OnRoom

variable {core : ServerCore} {id : RoomId} {room : Room}

theorem call_on_none (missing : core.rooms.getRoom id = none) (call : Call) :
    core.call (.on id call) = (core, .answered (.error .roomNotFound)) := by
  cases call with
  | join client =>
      rw [ServerCore.call, joinRoom_none client missing]
      rfl
  | leave client =>
      rw [ServerCore.call, leaveRoom_none client missing]
      rfl
  | apply client event now =>
      rw [ServerCore.call, handleEvent_none client event now missing]
      rfl

/-- The operation on a room that exists: call it, put it back, store it. -/
theorem call_on_some (found : core.rooms.getRoom id = some room) (call : Call) :
    core.call (.on id call) =
      (let core := { core with rooms := core.rooms.putRoom id (room.call call).room }
       if call.saves (room.call call) then core.persist (room.call call).room else core,
        .answered (room.call call).result) := by
  cases call with
  | join client =>
      simp only [ServerCore.call, joinRoom, found, Call.saves]
      rfl
  | leave client =>
      cases result : (room.leave client).result with
      | error error =>
          simp [ServerCore.call, leaveRoom, found, Call.saves, Room.call, Outcome.map,
            result, Except.map]
      | ok events =>
          simp only [ServerCore.call, leaveRoom, found, Call.saves, Room.call,
            Outcome.map, result, Except.map, decide_eq_true_eq]
          split <;> rfl
  | apply client event now =>
      cases result : (room.apply client event now).result with
      | error error =>
          simp [ServerCore.call, handleEvent, found, Call.saves, Room.call, Outcome.map,
            result, Except.map]
      | ok events =>
          simp only [ServerCore.call, handleEvent, found, Call.saves, Room.call,
            Outcome.map, result, Except.map]
          split <;> rfl

theorem enqueuedFor_persist (sinks : core.snapshotSink.isSome = true) (room : Room)
    (other : RoomId) :
    (core.persist room).enqueuedFor other =
      core.enqueuedFor other ++
        if room.id = other then [room.makePersistedSnapshot] else [] := by
  rcases Option.isSome_iff_exists.mp sinks with ⟨snapshots, isSink⟩
  simp only [enqueuedFor, persist, isSink, Option.map_some, Option.getD_some,
    List.filter_append]
  by_cases isRoom : room.id = other <;> simp [Room.makePersistedSnapshot, isRoom]

end OnRoom

end ServerCore

end ClearSpace.Core
