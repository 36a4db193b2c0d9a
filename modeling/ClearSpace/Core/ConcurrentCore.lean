import ClearSpace.Core.ServerCore
import Mathlib.Logic.Function.Basic

/-! # The server core under threads

`handleEvent` and `leaveRoom` of a core with a snapshot sink, run by several
threads. The room operation, the member count, the copy of the board and the
call of `enqueue` each take their own lock, so other threads may come in
between. -/

namespace ClearSpace.Core

/-- What a thread inside `handleEvent` or `leaveRoom` has yet to do. -/
inductive Progress
  | idle
  | counting (room : RoomId)
  | saving (room : RoomId)
  | holding (snapshot : PersistedBoardSnapshot)
  deriving DecidableEq

/-- `saved` is history: the room and number of every `StrokeEnd` and `Clear`
that was applied. -/
structure ConcurrentCore where
  rooms : RoomManager := {}
  progress : Nat → Progress := fun _ => .idle
  enqueued : List PersistedBoardSnapshot := []
  saved : List (RoomId × Seq) := []

namespace ConcurrentCore

inductive Action
  | createRoom
  | joinRoom (client : ClientId) (room : RoomId)
  | leaveRoom (thread : Nat) (client : ClientId) (room : RoomId)
  | handleEvent (thread : Nat) (client : ClientId) (room : RoomId)
      (event : EventPayload) (now : TimePoint)
  | memberCount (thread : Nat)
  | makePersistedSnapshot (thread : Nat)
  | enqueue (thread : Nat)

def goTo (state : ConcurrentCore) (thread : Nat) (progress : Progress) :
    ConcurrentCore :=
  { state with progress := Function.update state.progress thread progress }

theorem goTo_progress_self (state : ConcurrentCore) (thread : Nat) (next : Progress) :
    (state.goTo thread next).progress thread = next :=
  Function.update_self ..

theorem goTo_progress_of_ne (state : ConcurrentCore) {thread other : Nat}
    (different : other ≠ thread) (next : Progress) :
    (state.goTo thread next).progress other = state.progress other :=
  Function.update_of_ne different ..

/-- The room operation of a call. A thread that has nothing left to do after it
stays idle. -/
def operate (state : ConcurrentCore) (thread : Nat) (id : RoomId)
    (outcome : Outcome (List OutgoingEvent)) (next : Progress) : ConcurrentCore :=
  let state := { state with rooms := state.rooms.putRoom id outcome.room }
  match outcome.result with
  | .error _ => state
  | .ok _ => state.goTo thread next

def leaveRoom (state : ConcurrentCore) (thread : Nat) (client : ClientId)
    (id : RoomId) : ConcurrentCore :=
  match state.rooms.getRoom id with
  | none => state
  | some room => state.operate thread id (room.leave client) (.counting id)

def record (state : ConcurrentCore) (id : RoomId) (issued : List Issued) :
    ConcurrentCore :=
  { state with saved := state.saved ++ issued.map fun entry => (id, entry.seq) }

def handleEvent (state : ConcurrentCore) (thread : Nat) (client : ClientId)
    (id : RoomId) (event : EventPayload) (now : TimePoint) : ConcurrentCore :=
  match state.rooms.getRoom id with
  | none => state
  | some room =>
      let outcome := room.apply client event now
      if ServerCore.shouldSave event then
        (state.operate thread id outcome (.saving id)).record id outcome.issued
      else
        state.operate thread id outcome .idle

def step (state : ConcurrentCore) : Action → Option ConcurrentCore
  | .createRoom => some { state with rooms := state.rooms.createRoom.1 }
  | .joinRoom client id =>
      match state.rooms.getRoom id with
      | none => some state
      | some room =>
          some { state with rooms := state.rooms.putRoom id (room.join client).room }
  | .leaveRoom thread client id =>
      match state.progress thread with
      | .idle => some (state.leaveRoom thread client id)
      | _ => none
  | .handleEvent thread client id event now =>
      match state.progress thread with
      | .idle => some (state.handleEvent thread client id event now)
      | _ => none
  | .memberCount thread =>
      match state.progress thread with
      | .counting id =>
          (state.rooms.getRoom id).map fun room =>
            state.goTo thread (if room.memberCount = 0 then .saving id else .idle)
      | _ => none
  | .makePersistedSnapshot thread =>
      match state.progress thread with
      | .saving id =>
          (state.rooms.getRoom id).map fun room =>
            state.goTo thread (.holding room.makePersistedSnapshot)
      | _ => none
  | .enqueue thread =>
      match state.progress thread with
      | .holding snapshot =>
          some ({ state with enqueued := state.enqueued ++ [snapshot] }.goTo thread .idle)
      | _ => none

def system : StepSystem ConcurrentCore Action := ⟨step⟩

/-! ## What the steps do -/

inductive Stepped (state : ConcurrentCore) : Action → ConcurrentCore → Prop
  | createRoom :
      Stepped state .createRoom { state with rooms := state.rooms.createRoom.1 }
  | joinMissing (client : ClientId) (id : RoomId)
      (missing : state.rooms.getRoom id = none) :
      Stepped state (.joinRoom client id) state
  | joinRoom (client : ClientId) (id : RoomId) (room : Room)
      (found : state.rooms.getRoom id = some room) :
      Stepped state (.joinRoom client id)
        { state with rooms := state.rooms.putRoom id (room.join client).room }
  | leaveMissing (thread : Nat) (client : ClientId) (id : RoomId)
      (doing : state.progress thread = .idle)
      (missing : state.rooms.getRoom id = none) :
      Stepped state (.leaveRoom thread client id) state
  | leaveRoom (thread : Nat) (client : ClientId) (id : RoomId) (room : Room)
      (doing : state.progress thread = .idle)
      (found : state.rooms.getRoom id = some room) :
      Stepped state (.leaveRoom thread client id)
        (state.operate thread id (room.leave client) (.counting id))
  | eventMissing (thread : Nat) (client : ClientId) (id : RoomId)
      (event : EventPayload) (now : TimePoint)
      (doing : state.progress thread = .idle)
      (missing : state.rooms.getRoom id = none) :
      Stepped state (.handleEvent thread client id event now) state
  | savedEvent (thread : Nat) (client : ClientId) (id : RoomId)
      (event : EventPayload) (now : TimePoint) (room : Room)
      (doing : state.progress thread = .idle)
      (found : state.rooms.getRoom id = some room)
      (saves : ServerCore.shouldSave event = true) :
      Stepped state (.handleEvent thread client id event now)
        ((state.operate thread id (room.apply client event now) (.saving id)).record id
          (room.apply client event now).issued)
  | event (thread : Nat) (client : ClientId) (id : RoomId)
      (event : EventPayload) (now : TimePoint) (room : Room)
      (doing : state.progress thread = .idle)
      (found : state.rooms.getRoom id = some room)
      (skips : ServerCore.shouldSave event = false) :
      Stepped state (.handleEvent thread client id event now)
        (state.operate thread id (room.apply client event now) .idle)
  | memberCount (thread : Nat) (id : RoomId) (room : Room)
      (doing : state.progress thread = .counting id)
      (found : state.rooms.getRoom id = some room) :
      Stepped state (.memberCount thread)
        (state.goTo thread (if room.memberCount = 0 then .saving id else .idle))
  | makePersistedSnapshot (thread : Nat) (id : RoomId) (room : Room)
      (doing : state.progress thread = .saving id)
      (found : state.rooms.getRoom id = some room) :
      Stepped state (.makePersistedSnapshot thread)
        (state.goTo thread (.holding room.makePersistedSnapshot))
  | enqueue (thread : Nat) (snapshot : PersistedBoardSnapshot)
      (doing : state.progress thread = .holding snapshot) :
      Stepped state (.enqueue thread)
        ({ state with enqueued := state.enqueued ++ [snapshot] }.goTo thread .idle)

private theorem handleEvent_stepped {state : ConcurrentCore} {thread : Nat}
    (doing : state.progress thread = .idle) (client : ClientId) (id : RoomId)
    (event : EventPayload) (now : TimePoint) :
    Stepped state (.handleEvent thread client id event now)
      (state.handleEvent thread client id event now) := by
  unfold handleEvent
  cases found : state.rooms.getRoom id with
  | none => exact .eventMissing thread client id event now doing found
  | some room =>
      simp only
      split
      next saves => exact .savedEvent thread client id event now room doing found saves
      next skips =>
        exact .event thread client id event now room doing found
          (Bool.eq_false_iff.mpr skips)

theorem step_cases {state next : ConcurrentCore} {action : Action}
    (stepped : state.step action = some next) : Stepped state action next := by
  cases action with
  | createRoom =>
      cases stepped
      exact .createRoom
  | joinRoom client id =>
      cases found : state.rooms.getRoom id with
      | none =>
          simp only [step, found] at stepped
          cases stepped
          exact .joinMissing client id found
      | some room =>
          simp only [step, found] at stepped
          cases stepped
          exact .joinRoom client id room found
  | leaveRoom thread client id =>
      cases doing : state.progress thread with
      | idle =>
          simp only [step, doing] at stepped
          cases stepped
          unfold leaveRoom
          cases found : state.rooms.getRoom id with
          | none => exact .leaveMissing thread client id doing found
          | some room => exact .leaveRoom thread client id room doing found
      | _ =>
          simp only [step, doing] at stepped
          cases stepped
  | handleEvent thread client id event now =>
      cases doing : state.progress thread with
      | idle =>
          simp only [step, doing] at stepped
          cases stepped
          exact handleEvent_stepped doing client id event now
      | _ =>
          simp only [step, doing] at stepped
          cases stepped
  | memberCount thread =>
      cases doing : state.progress thread with
      | counting id =>
          simp only [step, doing, Option.map_eq_some_iff] at stepped
          rcases stepped with ⟨room, found, rfl⟩
          exact .memberCount thread id room doing found
      | _ =>
          simp only [step, doing] at stepped
          cases stepped
  | makePersistedSnapshot thread =>
      cases doing : state.progress thread with
      | saving id =>
          simp only [step, doing, Option.map_eq_some_iff] at stepped
          rcases stepped with ⟨room, found, rfl⟩
          exact .makePersistedSnapshot thread id room doing found
      | _ =>
          simp only [step, doing] at stepped
          cases stepped
  | enqueue thread =>
      cases doing : state.progress thread with
      | holding snapshot =>
          simp only [step, doing] at stepped
          cases stepped
          exact .enqueue thread snapshot doing
      | _ =>
          simp only [step, doing] at stepped
          cases stepped

theorem operate_rooms (state : ConcurrentCore) (thread : Nat) (id : RoomId)
    (outcome : Outcome (List OutgoingEvent)) (next : Progress) :
    (state.operate thread id outcome next).rooms =
      state.rooms.putRoom id outcome.room := by
  unfold operate
  cases outcome.result <;> rfl

end ConcurrentCore

end ClearSpace.Core
