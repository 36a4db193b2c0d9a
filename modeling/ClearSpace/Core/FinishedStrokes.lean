import ClearSpace.Core.ServerRun

/-! # Finished strokes and stored boards

A board is stored when a stroke is ended or the board cleared, and when the last
member leaves. A stroke also ends when its author leaves; if others stay, that
stroke waits for the next reason to store the board. -/

namespace ClearSpace.Core

open KeyedLists

namespace ServerCore

/-- Every finished stroke is in the last snapshot enqueued for its room. -/
def FinishedStored (core : ServerCore) : Prop :=
  ∀ id room, core.rooms.getRoom id = some room →
    ∀ stroke ∈ room.board.strokes, stroke.finished = true →
    ∃ snapshot, (core.enqueuedFor id).getLast? = some snapshot ∧
      stroke ∈ snapshot.strokes

/-- Nobody leaves in mid-stroke while others stay. -/
def NoneLeftDrawing (core : ServerCore) : ServerCall → Prop
  | .on id (.leave client) => ∀ room, core.rooms.getRoom id = some room →
      room.activeStrokeByClient.lookup client = none ∨
        ∀ other ∈ room.members, other = client
  | _ => True

def Orderly (core : ServerCore) (call : ServerCall) : Prop :=
  core.rooms.CountersLeft ∧ core.NoneLeftDrawing call

end ServerCore

namespace Room

private theorem memberCount_forget {room : Room} {client : ClientId}
    (alone : ∀ other ∈ room.members, other = client) :
    (room.forget client).memberCount = 0 := by
  apply List.length_eq_zero_iff.mpr
  apply List.eq_nil_iff_forall_not_mem.mpr
  intro other member
  rcases UnorderedSet.mem_erase.mp (UnorderedSet.mem_def.mpr member) with
    ⟨different, before⟩
  exact different (alone other before)

private theorem Step.finished_before {room : Room} {call : Call} {outcome : Outcome Reply}
    (step : Step room call outcome) (consistent : room.Consistent)
    (notSaved : call.saves outcome = false)
    (inOrder : ∀ client, call = .leave client →
      room.activeStrokeByClient.lookup client = none ∨
        ∀ other ∈ room.members, other = client) {stroke : Stroke}
    (member : stroke ∈ outcome.room.board.strokes) (finished : stroke.finished = true) :
    stroke ∈ room.board.strokes := by
  cases step with
  | leftDrawing client sid _ drawing =>
      rcases inOrder client rfl with inactive | alone
      · rw [inactive] at drawing
        cases drawing
      · have emptied : ((room.finishStroke client sid).advance.forget
            client).memberCount = 0 :=
          memberCount_forget alone
        exact absurd emptied (of_decide_eq_false notSaved)
  | began client color thickness start now _ inactive =>
      rcases List.mem_append.mp member with before | isNew
      · exact before
      · rw [List.mem_singleton.mp isNew] at finished
        cases finished
  | extended client sid p now _ drawing =>
      rcases mem_updateBy.mp member with ⟨source, inBoard, isSource⟩
      split at isSource
      next isActive =>
        have unfinished := ((consistent.id_eq_iff drawing inBoard).mp isActive).2
        rw [← isSource, Stroke.push, unfinished] at finished
        cases finished
      next => rwa [← isSource]
  | ended => cases notSaved
  | cleared => cases notSaved
  | _ => exact member

end Room

namespace ServerCore

structure InStore (core : ServerCore) : Prop where
  sound : core.rooms.Sound
  hasSink : core.snapshotSink.isSome = true
  stored : core.FinishedStored

theorem InStore.createRoom {core : ServerCore} (inStore : core.InStore) :
    core.createRoom.1.InStore where
  sound := inStore.sound.createRoom
  hasSink := inStore.hasSink
  stored id room found stroke member finished := by
    change core.rooms.createRoom.1.getRoom id = some room at found
    rw [RoomManager.getRoom_createRoom] at found
    split at found
    next =>
      cases found
      exact absurd member List.not_mem_nil
    next => exact inStore.stored id room found stroke member finished

theorem InStore.saved {core : ServerCore} {id : RoomId} {room : Room}
    (inStore : core.InStore) (counters : core.rooms.CountersLeft)
    (found : core.rooms.getRoom id = some room) (call : Call) :
    (persist { core with rooms := core.rooms.putRoom id (room.call call).room }
      (room.call call).room).InStore where
  sound := inStore.sound.putRoom counters found call
  hasSink := by
    rw [persist, Option.isSome_map]
    exact inStore.hasSink
  stored other stored isStored stroke member finished := by
    have sameId : (room.call call).room.id = id := by
      rw [Room.call_id, (inStore.sound id room found).sameId]
    have hasSink : (ServerCore.mk (core.rooms.putRoom id (room.call call).room)
        core.snapshotSink).snapshotSink.isSome = true := inStore.hasSink
    rw [enqueuedFor_persist hasSink, sameId]
    change (core.rooms.putRoom id (room.call call).room).getRoom other = some stored
      at isStored
    rw [RoomManager.getRoom_putRoom] at isStored
    split at isStored
    next isRoom =>
      cases isStored
      rw [if_pos isRoom.symm]
      exact ⟨_, List.getLast?_concat, member⟩
    next notRoom =>
      rw [if_neg (Ne.symm notRoom), List.append_nil]
      exact inStore.stored other stored isStored stroke member finished

theorem InStore.notSaved {core : ServerCore} {id : RoomId} {room : Room}
    (inStore : core.InStore) (counters : core.rooms.CountersLeft)
    (found : core.rooms.getRoom id = some room) {call : Call}
    (notSaved : call.saves (room.call call) = false)
    (inOrder : core.NoneLeftDrawing (.on id call)) :
    InStore { core with rooms := core.rooms.putRoom id (room.call call).room } where
  sound := inStore.sound.putRoom counters found call
  hasSink := inStore.hasSink
  stored other stored isStored stroke member finished := by
    change (core.rooms.putRoom id (room.call call).room).getRoom other = some stored
      at isStored
    rw [RoomManager.getRoom_putRoom] at isStored
    split at isStored
    next isRoom =>
      subst isRoom
      cases isStored
      have consistent := (inStore.sound other room found).holds.toConsistent
      apply inStore.stored other room found stroke _ finished
      apply (Room.call_step consistent call).finished_before consistent notSaved _ member
        finished
      rintro client rfl
      exact inOrder room found
    next => exact inStore.stored other stored isStored stroke member finished

theorem InStore.call {core : ServerCore} (inStore : core.InStore) (call : ServerCall)
    (orderly : core.Orderly call) : (core.call call).1.InStore := by
  rcases orderly with ⟨counters, inOrder⟩
  cases call with
  | createRoom => exact inStore.createRoom
  | on id call =>
      cases found : core.rooms.getRoom id with
      | none =>
          rw [call_on_none found]
          exact inStore
      | some room =>
          rw [call_on_some found]
          simp only
          split
          next => exact inStore.saved counters found call
          next isNot =>
            exact inStore.notSaved counters found ((Bool.not_eq_true _).mp isNot) inOrder

/-- While nobody leaves in mid-stroke with others staying, no finished stroke is
missing from the last snapshot of its room. -/
theorem finished_stored (calls : List ServerCall)
    (orderly : machine.Along Orderly { snapshotSink := some [] } calls) :
    (run { snapshotSink := some [] } calls).FinishedStored := by
  have start : InStore { snapshotSink := some [] } := by
    refine ⟨RoomManager.sound_empty, rfl, ?_⟩
    intro id room found
    cases found
  have reached : InStore (run { snapshotSink := some [] } calls) :=
    machine.invariant_final (fun _ call orderly inStore => inStore.call call orderly)
      calls _ start orderly
  exact reached.stored

/-- A client draws one stroke, begins another and leaves as the last one. -/
def lastOneLeaves : List ServerCall :=
  [.createRoom, .on 1 (.join 7), .on 1 (.apply 7 (.strokeBegin .red .thin ⟨0, 0⟩) 0),
    .on 1 (.apply 7 .strokeEnd 0), .on 1 (.apply 7 (.strokeBegin .blue .thin ⟨1, 1⟩) 0),
    .on 1 (.leave 7)]

theorem finished_stored_lastOneLeaves :
    machine.Along Orderly { snapshotSink := some [] } lastOneLeaves ∧
      (run { snapshotSink := some [] } lastOneLeaves).FinishedStored := by
  have orderly : machine.Along Orderly { snapshotSink := some [] } lastOneLeaves := by
    refine ⟨⟨by decide, trivial⟩, ⟨by decide, trivial⟩, ⟨by decide, trivial⟩,
      ⟨by decide, trivial⟩, ⟨by decide, trivial⟩, ⟨by decide, ?_⟩, trivial⟩
    intro room found
    right
    intro other member
    have alone : ((run { snapshotSink := some [] } lastOneLeaves.dropLast).rooms.getRoom
        1).map (fun room => room.members.elements) = some [7] := by
      decide
    have only : room.members.elements = [7] := by
      rw [show (run { snapshotSink := some [] } lastOneLeaves.dropLast).rooms.getRoom 1 =
        some room from found] at alone
      exact Option.some.inj alone
    rw [UnorderedSet.mem_def, only] at member
    exact List.mem_singleton.mp member
  exact ⟨orderly, finished_stored lastOneLeaves orderly⟩

/-- Client 7 leaves in the middle of a stroke while client 9 stays. -/
def leftDrawing : List ServerCall :=
  [.createRoom, .on 1 (.join 7), .on 1 (.join 9),
    .on 1 (.apply 7 (.strokeBegin .red .thin ⟨0, 0⟩) 0), .on 1 (.leave 7)]

theorem finished_not_stored :
    ¬ ∀ calls, (run { snapshotSink := some [] } calls).FinishedStored := by
  intro always
  have finished : ((run { snapshotSink := some [] } leftDrawing).rooms.getRoom 1).map
      (fun room => room.board.strokes.map Stroke.finished) = some [true] := by
    decide
  have nothing : (run { snapshotSink := some [] } leftDrawing).enqueuedFor 1 = [] := by
    decide
  rcases Option.map_eq_some_iff.mp finished with ⟨room, found, flags⟩
  rcases List.map_eq_singleton_iff.mp flags with ⟨stroke, board, isFinished⟩
  rcases always leftDrawing 1 room found stroke (by simp [board]) isFinished with
    ⟨snapshot, last, _⟩
  rw [nothing] at last
  cases last

end ServerCore

end ClearSpace.Core
