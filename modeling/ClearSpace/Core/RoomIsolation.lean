import ClearSpace.Core.ServerRun
import ClearSpace.Foundation.Interleaving

/-! # Rooms side by side

A room of a core behaves as if it were the only one. Its ids are given out once
each, in order. -/

namespace ClearSpace.Core

/-! ## A room by itself -/

/-- A single room with the rule by which a core has its boards stored. -/
structure SavedRoom where
  room : Room
  snapshotSink : Option (List PersistedBoardSnapshot)

namespace SavedRoom

def call (saved : SavedRoom) (call : Call) : SavedRoom × ServerReply :=
  let outcome := saved.room.call call
  let sink := if call.saves outcome then
      saved.snapshotSink.map (· ++ [outcome.room.makePersistedSnapshot])
    else saved.snapshotSink
  (⟨outcome.room, sink⟩, .answered outcome.result)

def machine : Machine SavedRoom Call ServerReply := ⟨call⟩

end SavedRoom

def ServerCall.callOn (id : RoomId) : ServerCall → Option Call
  | .createRoom => none
  | .on room call => if room = id then some call else none

def ServerReply.created? : ServerReply → Option RoomId
  | .created id => some id
  | .answered _ => none

namespace ServerCore

def fresh (persists : Bool) : ServerCore :=
  { snapshotSink := if persists then some [] else none }

def sinkFor (core : ServerCore) (id : RoomId) : Option (List PersistedBoardSnapshot) :=
  core.snapshotSink.map fun snapshots =>
    snapshots.filter fun snapshot => snapshot.room = id

def savedRoom (core : ServerCore) (id : RoomId) : SavedRoom where
  room := (core.rooms.getRoom id).getD (Room.new id)
  snapshotSink := core.sinkFor id

def createdIds (core : ServerCore) (calls : List ServerCall) : List RoomId :=
  (machine.outputs core calls).filterMap ServerReply.created?

/-! ## Ids -/

/-- The rooms of a core are those that were created, under ids counted from 1. -/
structure Numbered (core : ServerCore) (created : List RoomId) : Prop where
  next : core.rooms.nextRoomId.toNat = created.length + 1
  exists_iff : ∀ id, (∃ room, core.rooms.getRoom id = some room) ↔ id ∈ created
  below : ∀ id ∈ created, id.toNat < core.rooms.nextRoomId.toNat
  distinct : created.Nodup
  named : ∀ id room, core.rooms.getRoom id = some room → room.id = id
  stored : ∀ snapshot ∈ core.snapshotSink.getD [], snapshot.room ∈ created

section Numbered

variable {core : ServerCore} {created : List RoomId}

private theorem numbered_fresh (persists : Bool) : (fresh persists).Numbered [] where
  next := rfl
  exists_iff id := by
    constructor
    · intro exists_room
      rcases exists_room with ⟨room, found⟩
      cases found
    · exact nofun
  below := nofun
  distinct := List.nodup_nil
  named id room found := by cases found
  stored := by
    cases persists <;> exact nofun

theorem Numbered.missing (numbered : core.Numbered created) {id : RoomId}
    (unknown : id ∉ created) : core.rooms.getRoom id = none := by
  apply Option.eq_none_iff_forall_not_mem.mpr
  intro room found
  exact unknown ((numbered.exists_iff id).mp ⟨room, found⟩)

theorem Numbered.fresh_id (numbered : core.Numbered created) :
    core.rooms.nextRoomId ∉ created := by
  intro member
  exact Nat.lt_irrefl _ (numbered.below _ member)

theorem Numbered.createRoom (numbered : core.Numbered created)
    (few : created.length + 2 < 2 ^ 64) :
    core.createRoom.1.Numbered (created ++ [core.rooms.nextRoomId]) := by
  have isNext := numbered.next
  have after : (core.rooms.nextRoomId + 1).toNat = created.length + 2 := by
    rw [UInt64.toNat_add, isNext]
    exact Nat.mod_eq_of_lt few
  have found : ∀ id, core.createRoom.1.rooms.getRoom id =
      if id = core.rooms.nextRoomId then some (Room.new core.rooms.nextRoomId)
      else core.rooms.getRoom id :=
    core.rooms.getRoom_createRoom
  refine ⟨?_, ?_, ?_, ?_, ?_, ?_⟩
  · change (core.rooms.nextRoomId + 1).toNat = _
    rw [after, List.length_append]
    rfl
  · intro id
    rw [found, List.mem_append, List.mem_singleton]
    by_cases isNew : id = core.rooms.nextRoomId
    · simp [isNew]
    · rw [if_neg isNew, or_iff_left isNew]
      exact numbered.exists_iff id
  · intro id member
    change id.toNat < (core.rooms.nextRoomId + 1).toNat
    rcases List.mem_append.mp member with before | isNew
    · have lower := numbered.below id before
      omega
    · rw [List.mem_singleton.mp isNew]
      omega
  · exact List.nodup_append.mpr ⟨numbered.distinct, List.nodup_singleton _, by
      intro id before other isNew same
      rw [same, List.mem_singleton.mp isNew] at before
      exact numbered.fresh_id before⟩
  · intro id room isRoom
    rw [found] at isRoom
    split at isRoom
    next isNew =>
      cases isRoom
      exact isNew.symm
    next => exact numbered.named id room isRoom
  · intro snapshot member
    exact List.mem_append_left _ (numbered.stored snapshot member)

theorem Numbered.putRoom (numbered : core.Numbered created) {id : RoomId} {room : Room}
    (found : core.rooms.getRoom id = some room) (call : Call) :
    Numbered { core with rooms := core.rooms.putRoom id (room.call call).room }
      created where
  next := numbered.next
  exists_iff other := by
    rw [← numbered.exists_iff other]
    change (∃ stored, (core.rooms.putRoom id _).getRoom other = some stored) ↔ _
    rw [RoomManager.getRoom_putRoom]
    split
    next isRoom =>
      rw [isRoom]
      exact ⟨fun _ => ⟨room, found⟩, fun _ => ⟨_, rfl⟩⟩
    next => rfl
  below := numbered.below
  distinct := numbered.distinct
  named other stored isStored := by
    change (core.rooms.putRoom id _).getRoom other = some stored at isStored
    rw [RoomManager.getRoom_putRoom] at isStored
    split at isStored
    next isRoom =>
      cases isStored
      rw [Room.call_id, numbered.named id room found, isRoom]
    next => exact numbered.named other stored isStored
  stored := numbered.stored

theorem Numbered.persist (numbered : core.Numbered created) (id : RoomId) {room : Room}
    (found : core.rooms.getRoom id = some room) : (core.persist room).Numbered created :=
  { numbered with
    stored := by
      intro snapshot member
      have known : room.id ∈ created := by
        rw [numbered.named id room found]
        exact (numbered.exists_iff id).mp ⟨room, found⟩
      rw [ServerCore.persist] at member
      cases sink : core.snapshotSink with
      | none =>
          rw [sink] at member
          cases member
      | some snapshots =>
          rw [sink] at member
          rcases List.mem_append.mp member with before | isNew
          · apply numbered.stored snapshot
            rw [sink]
            exact before
          · rw [List.mem_singleton.mp isNew]
            exact known }

theorem Numbered.on (numbered : core.Numbered created) (id : RoomId) (call : Call) :
    (core.call (.on id call)).1.Numbered created := by
  cases found : core.rooms.getRoom id with
  | none =>
      rw [call_on_none found]
      exact numbered
  | some room =>
      rw [call_on_some found]
      have put := numbered.putRoom found call
      simp only
      split
      · exact put.persist id (by simp)
      · exact put

theorem Numbered.call (numbered : core.Numbered created) {call : ServerCall}
    {rest : List ServerCall}
    (few : created.length + (call :: rest).count .createRoom + 1 < 2 ^ 64) :
    (core.call call).1.Numbered (created ++ (core.call call).2.created?.toList) ∧
      (created ++ (core.call call).2.created?.toList).length +
        rest.count .createRoom + 1 < 2 ^ 64 := by
  cases call with
  | createRoom =>
      rw [List.count_cons_self] at few
      refine ⟨numbered.createRoom (by omega), ?_⟩
      change (created ++ [core.rooms.nextRoomId]).length + _ + 1 < _
      rw [List.length_append, List.length_singleton]
      omega
  | on id call =>
      have notCreate : ServerCall.on id call ≠ .createRoom := nofun
      have nothing : (core.call (.on id call)).2.created? = none := by
        cases call <;> rfl
      rw [List.count_cons_of_ne notCreate] at few
      rw [nothing, Option.toList_none, List.append_nil]
      exact ⟨numbered.on id call, few⟩

private theorem createdIds_cons (core : ServerCore) (call : ServerCall)
    (rest : List ServerCall) :
    core.createdIds (call :: rest) =
      (core.call call).2.created?.toList ++ (core.call call).1.createdIds rest := by
  unfold createdIds
  rw [Machine.outputs]
  change ((core.call call).2 :: machine.outputs (core.call call).1 rest).filterMap _ = _
  cases created : (core.call call).2.created? with
  | none =>
      rw [List.filterMap_cons_none created]
      rfl
  | some id =>
      rw [List.filterMap_cons_some created]
      rfl

theorem Numbered.run {front later : List ServerCall} (numbered : core.Numbered created)
    (few : created.length + (front ++ later).count .createRoom + 1 < 2 ^ 64) :
    (core.run front).Numbered (created ++ core.createdIds front) ∧
      (created ++ core.createdIds front).length + later.count .createRoom + 1 <
        2 ^ 64 := by
  induction front generalizing core created with
  | nil =>
      rw [createdIds, Machine.outputs, List.filterMap_nil, List.append_nil]
      exact ⟨numbered, few⟩
  | cons call rest induction =>
      rcases numbered.call few with ⟨called, left⟩
      rw [createdIds_cons, ← List.append_assoc]
      exact induction called left

end Numbered

/-! ## Isolation -/

structure Apart (id : RoomId) (core : ServerCore) (call : ServerCall) : Prop where
  found : ∃ room, core.rooms.getRoom id = some room
  named : ∀ other room, core.rooms.getRoom other = some room → room.id = other
  notReplaced : call = .createRoom → core.rooms.nextRoomId ≠ id

private theorem along_apart {core : ServerCore} {created : List RoomId} {id : RoomId}
    {calls : List ServerCall} (numbered : core.Numbered created) (known : id ∈ created)
    (few : created.length + calls.count .createRoom + 1 < 2 ^ 64) :
    machine.Along (Apart id) core calls := by
  induction calls generalizing core created with
  | nil => trivial
  | cons call rest induction =>
      rcases numbered.call few with ⟨called, left⟩
      refine ⟨⟨(numbered.exists_iff id).mpr known, numbered.named, ?_⟩,
        induction called (List.mem_append_left _ known) left⟩
      intro _ same
      exact numbered.fresh_id (same ▸ known)

private theorem sinkFor_persist (core : ServerCore) (room : Room) (id : RoomId) :
    (core.persist room).sinkFor id =
      if room.id = id then (core.sinkFor id).map (· ++ [room.makePersistedSnapshot])
      else core.sinkFor id := by
  unfold sinkFor persist
  cases core.snapshotSink with
  | none => simp
  | some snapshots =>
      by_cases isRoom : room.id = id <;>
        simp [List.filter_append, Room.makePersistedSnapshot, isRoom]

theorem savedRoom_putRoom (core : ServerCore) (other : RoomId) (room : Room)
    (id : RoomId) :
    savedRoom { core with rooms := core.rooms.putRoom other room } id =
      if id = other then ⟨room, core.sinkFor id⟩ else core.savedRoom id := by
  unfold savedRoom
  rw [RoomManager.getRoom_putRoom]
  split <;> rfl

theorem savedRoom_persist (core : ServerCore) (room : Room) (id : RoomId) :
    (core.persist room).savedRoom id =
      if room.id = id then
        ⟨(core.savedRoom id).room,
          (core.sinkFor id).map (· ++ [room.makePersistedSnapshot])⟩
      else core.savedRoom id := by
  unfold savedRoom
  rw [sinkFor_persist]
  split <;> rfl

private theorem savedRoom_on {core : ServerCore} {id : RoomId} {room : Room}
    (found : core.rooms.getRoom id = some room) (named : room.id = id) (call : Call) :
    (core.savedRoom id).call call =
      ((core.call (.on id call)).1.savedRoom id, (core.call (.on id call)).2) := by
  have isSaved : core.savedRoom id = ⟨room, core.sinkFor id⟩ := by
    rw [savedRoom, found]
    rfl
  have sameId : (room.call call).room.id = id := (room.call_id call).trans named
  rw [call_on_some found, SavedRoom.call, isSaved]
  simp only
  split
  · rw [savedRoom_persist, if_pos sameId, savedRoom_putRoom, if_pos rfl]
    rfl
  · rw [savedRoom_putRoom, if_pos rfl]

private theorem savedRoom_on_other {core : ServerCore} {id other : RoomId}
    (named : ∀ room, core.rooms.getRoom other = some room → room.id = other)
    (different : other ≠ id) (call : Call) :
    (core.call (.on other call)).1.savedRoom id = core.savedRoom id := by
  cases found : core.rooms.getRoom other with
  | none => rw [call_on_none found]
  | some room =>
      have otherId : (room.call call).room.id ≠ id := by
        rw [Room.call_id, named room found]
        exact different
      rw [call_on_some found]
      simp only
      split
      · rw [savedRoom_persist, if_neg otherId, savedRoom_putRoom, if_neg different.symm]
      · rw [savedRoom_putRoom, if_neg different.symm]

private theorem projects_room (id : RoomId) :
    machine.Projects (Apart id) (ServerCall.callOn id) (fun reply => reply)
      (fun core => core.savedRoom id) SavedRoom.machine where
  own core call own apart selected := by
    cases call with
    | createRoom => cases selected
    | on other call =>
        rw [ServerCall.callOn] at selected
        split at selected
        next isRoom =>
          cases selected
          subst isRoom
          rcases apart.found with ⟨room, found⟩
          exact savedRoom_on found (apart.named other room found) own
        next => cases selected
  other core call apart notSelected := by
    cases call with
    | createRoom =>
        change (⟨(core.rooms.createRoom.1.getRoom id).getD _, _⟩ : SavedRoom) = _
        rw [RoomManager.getRoom_createRoom, if_neg (apart.notReplaced rfl).symm]
        rfl
    | on other call =>
        rw [ServerCall.callOn] at notSelected
        split at notSelected
        next => cases notSelected
        next different => exact savedRoom_on_other (apart.named other) different call

/-! ## Runs -/

/-- In a run of calls every room that is created goes its own way, under an id
of its own; and no other id leads to a room. -/
structure Isolates (core : ServerCore) (calls : List ServerCall) : Prop where
  alone : ∀ before after id, calls = before ++ .createRoom :: after →
    ((core.run before).call .createRoom).2 = .created id →
    let start : SavedRoom := ⟨Room.new id, core.snapshotSink⟩
    let own := after.filterMap (ServerCall.callOn id)
    machine.answers (ServerCall.callOn id) (fun reply => reply)
        ((core.run before).call .createRoom).1 after =
      SavedRoom.machine.outputs start own ∧
    (core.run calls).rooms.getRoom id = some (SavedRoom.machine.final start own).room ∧
    (core.run calls).sinkFor id = (SavedRoom.machine.final start own).snapshotSink
  distinct : (core.createdIds calls).Nodup
  notReplaced : ∀ before after id, calls = before ++ .createRoom :: after →
    ((core.run before).call .createRoom).2 = .created id →
    (core.run before).rooms.getRoom id = none
  unknown : ∀ before id call after, calls = before ++ .on id call :: after →
    id ∉ core.createdIds before →
    ((core.run before).call (.on id call)).2 = .answered (.error .roomNotFound)

private theorem sinkFor_fresh {persists : Bool} {core : ServerCore}
    {created : List RoomId}
    (numbered : core.Numbered created)
    (sameSink : core.snapshotSink.isSome = persists) {id : RoomId}
    (unknown : id ∉ created) : core.sinkFor id = (fresh persists).snapshotSink := by
  subst sameSink
  unfold sinkFor fresh
  cases sink : core.snapshotSink with
  | none => rfl
  | some snapshots =>
      simp only [Option.map_some, Option.isSome_some, if_true, Option.some.injEq,
        List.filter_eq_nil_iff, decide_eq_true_eq]
      intro snapshot member isRoom
      apply unknown
      rw [← isRoom]
      apply numbered.stored
      rw [sink]
      exact member

private theorem call_sink_isSome (core : ServerCore) (call : ServerCall) :
    (core.call call).1.snapshotSink.isSome = core.snapshotSink.isSome := by
  cases call with
  | createRoom => rfl
  | on id call =>
      cases found : core.rooms.getRoom id with
      | none => rw [call_on_none found]
      | some room =>
          rw [call_on_some found]
          simp only
          split
          · simp [persist]
          · rfl

private theorem run_sink_isSome (core : ServerCore) (calls : List ServerCall) :
    (core.run calls).snapshotSink.isSome = core.snapshotSink.isSome := by
  induction calls generalizing core with
  | nil => rfl
  | cons call rest induction =>
      change ((core.call call).1.run rest).snapshotSink.isSome = _
      rw [induction, call_sink_isSome]

theorem run_append (core : ServerCore) (front back : List ServerCall) :
    core.run (front ++ back) = (core.run front).run back :=
  machine.final_append core front back

/-- From its creation on a room is a room by itself. -/
theorem Numbered.alone {persists : Bool} {core : ServerCore} {created : List RoomId}
    (numbered : core.Numbered created) (sameSink : core.snapshotSink.isSome = persists)
    {after : List ServerCall}
    (few : created.length + (.createRoom :: after).count .createRoom + 1 < 2 ^ 64) :
    let id := core.rooms.nextRoomId
    let start : SavedRoom := ⟨Room.new id, (fresh persists).snapshotSink⟩
    let own := after.filterMap (ServerCall.callOn id)
    machine.answers (ServerCall.callOn id) (fun reply => reply) core.createRoom.1 after =
      SavedRoom.machine.outputs start own ∧
    (core.createRoom.1.run after).rooms.getRoom id =
      some (SavedRoom.machine.final start own).room ∧
    (core.createRoom.1.run after).sinkFor id =
      (SavedRoom.machine.final start own).snapshotSink := by
  intro id start own
  have started : core.createRoom.1.savedRoom id = start := by
    change (⟨(core.rooms.createRoom.1.getRoom id).getD _, core.sinkFor id⟩ :
      SavedRoom) = _
    rw [RoomManager.getRoom_createRoom, if_pos rfl,
      sinkFor_fresh numbered sameSink numbered.fresh_id]
    rfl
  rcases numbered.call few with ⟨called, left⟩
  have known : id ∈ created ++ [id] :=
    List.mem_append_right _ (List.mem_singleton_self id)
  have apart : machine.Along (Apart id) core.createRoom.1 after :=
    along_apart called known left
  have projected := (projects_room id).run after _ apart
  rw [started] at projected
  have exists_room : ∃ room,
      (core.createRoom.1.run after).rooms.getRoom id = some room := by
    rw [← List.append_nil after] at left
    exact ((called.run left).1.exists_iff id).mpr (List.mem_append_left _ known)
  rcases exists_room with ⟨room, found⟩
  refine ⟨projected.2, ?_, ?_⟩
  · have isRoom : ((core.createRoom.1.run after).savedRoom id).room = room := by
      rw [savedRoom, found]
      rfl
    rw [found, ← isRoom]
    exact congrArg (some ∘ SavedRoom.room) projected.1
  · exact congrArg SavedRoom.snapshotSink projected.1

/-- With fewer than `2 ^ 64 - 1` rooms the ids do not run out. -/
theorem rooms_isolated (persists : Bool) (calls : List ServerCall)
    (few : calls.count .createRoom < 2 ^ 64 - 1) : (fresh persists).Isolates calls := by
  have reached : ∀ {before later}, calls = before ++ later →
      ((fresh persists).run before).Numbered ((fresh persists).createdIds before) ∧
        ((fresh persists).createdIds before).length + later.count .createRoom + 1 <
          2 ^ 64 := by
    rintro before later rfl
    apply (numbered_fresh persists).run
    rw [List.length_nil]
    omega
  refine ⟨?_, ?_, ?_, ?_⟩
  · intro before after id split isCreated
    cases ServerReply.created.inj isCreated
    rcases reached split with ⟨numbered, left⟩
    have sameSink : ((fresh persists).run before).snapshotSink.isSome = persists := by
      rw [run_sink_isSome]
      cases persists <;> rfl
    rw [split, run_append]
    exact numbered.alone sameSink left
  · exact (reached (List.append_nil calls).symm).1.distinct
  · intro before after id split isCreated
    cases ServerReply.created.inj isCreated
    have numbered := (reached split).1
    exact numbered.missing numbered.fresh_id
  · intro before id call after split unknown
    have missing := (reached split).1.missing unknown
    rw [call_on_none missing]

/-- Client 7 draws in both rooms, client 9 asks for a third one. -/
def twoRooms : List ServerCall :=
  [.createRoom, .on 1 (.join 7), .createRoom, .on 2 (.join 7),
    .on 1 (.apply 7 (.strokeBegin .red .thin ⟨0, 0⟩) 0), .on 3 (.join 9),
    .on 2 (.apply 7 .clear 1), .on 1 (.apply 7 .strokeEnd 2)]

theorem rooms_isolated_twoRooms :
    ((fresh true).run twoRooms).enqueuedFor 2 = [⟨2, 1, []⟩] ∧
      (fresh true).Isolates twoRooms :=
  ⟨by decide, rooms_isolated true twoRooms (by decide)⟩

end ServerCore

end ClearSpace.Core
