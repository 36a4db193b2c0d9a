import ClearSpace.Core.RoomSequence

/-! # The server core

`RoomManager` and `ServerCore`. Rooms are never removed and a room keeps the
id under which it is stored. -/

namespace ClearSpace.Core

structure RoomManager where
  rooms : UnorderedMap RoomId Room := ∅
  nextRoomId : RoomId := 1

namespace RoomManager

def createRoom (manager : RoomManager) : RoomManager × RoomId :=
  let id := manager.nextRoomId
  ({ rooms := manager.rooms.insert id (Room.new id), nextRoomId := id + 1 }, id)

def getRoom (manager : RoomManager) (room : RoomId) : Option Room :=
  manager.rooms.lookup room

def putRoom (manager : RoomManager) (id : RoomId) (room : Room) : RoomManager :=
  { manager with rooms := manager.rooms.insert id room }

@[simp] theorem getRoom_putRoom (manager : RoomManager) (id : RoomId) (room : Room)
    (other : RoomId) :
    (manager.putRoom id room).getRoom other =
      if other = id then some room else manager.getRoom other :=
  UnorderedMap.lookup_insert_eq manager.rooms id other room

@[simp] theorem getRoom_createRoom (manager : RoomManager) (other : RoomId) :
    manager.createRoom.1.getRoom other =
      if other = manager.nextRoomId then some (Room.new manager.nextRoomId)
      else manager.getRoom other :=
  UnorderedMap.lookup_insert_eq manager.rooms manager.nextRoomId other _

structure Kept (id : RoomId) (room : Room) : Prop where
  sameId : room.id = id
  holds : room.Invariant
  positive : 0 < room.nextSeq.toNat

def Sound (manager : RoomManager) : Prop :=
  ∀ id room, manager.getRoom id = some room → Kept id room

/-- No counter is about to wrap: the next room id is unused, and every room has
left two sequence numbers, the most that one call draws. -/
structure CountersLeft (manager : RoomManager) : Prop where
  freshId : manager.getRoom manager.nextRoomId = none
  seqsLeft : ∀ id room, manager.getRoom id = some room →
    room.nextSeq.toNat + 2 < 2 ^ 64

private theorem countersLeft_iff {manager : RoomManager} :
    manager.CountersLeft ↔
      (manager.getRoom manager.nextRoomId).isNone ∧
        ∀ entry ∈ manager.rooms.entries, entry.2.nextSeq.toNat + 2 < 2 ^ 64 := by
  rw [Option.isNone_iff_eq_none]
  constructor
  · intro counters
    refine ⟨counters.freshId, ?_⟩
    intro entry member
    exact counters.seqsLeft entry.1 entry.2 (AList.mem_lookup_iff.mpr member)
  · rintro ⟨freshId, seqsLeft⟩
    refine ⟨freshId, ?_⟩
    intro id room found
    exact seqsLeft ⟨id, room⟩ (AList.mem_lookup_iff.mp found)

instance (manager : RoomManager) : Decidable manager.CountersLeft :=
  decidable_of_iff' _ countersLeft_iff

def HasDrawn (manager : RoomManager) (id : RoomId) (seq : Seq) : Prop :=
  ∃ room, manager.getRoom id = some room ∧ seq < room.nextSeq

theorem sound_empty : Sound {} := by
  intro id room found
  cases found

theorem Sound.createRoom {manager : RoomManager} (sound : manager.Sound) :
    manager.createRoom.1.Sound := by
  intro id room found
  rw [getRoom_createRoom] at found
  split at found
  next isNew =>
    cases found
    exact ⟨isNew.symm, Room.new_invariant _, Nat.zero_lt_one⟩
  next => exact sound id room found

theorem HasDrawn.createRoom {manager : RoomManager} {id : RoomId} {seq : Seq}
    (drawn : manager.HasDrawn id seq) (counters : manager.CountersLeft) :
    manager.createRoom.1.HasDrawn id seq := by
  rcases drawn with ⟨room, found, below⟩
  refine ⟨room, ?_, below⟩
  rw [getRoom_createRoom, if_neg]
  · exact found
  · intro isNew
    rw [isNew, counters.freshId] at found
    cases found

end RoomManager

namespace RoomManager

/-! ## A call on one of the rooms -/

section Call

variable {manager : RoomManager} {id : RoomId} {room : Room}

theorem Sound.fits (sound : manager.Sound) (counters : manager.CountersLeft)
    (found : manager.getRoom id = some room) (call : Call) : room.Fits call := by
  have kept := sound id room found
  have few := (Room.call_step kept.holds.toConsistent call).issued_length_le
  have left := counters.seqsLeft id room found
  unfold Room.Fits
  omega

theorem Sound.call_nextSeq (sound : manager.Sound) (counters : manager.CountersLeft)
    (found : manager.getRoom id = some room) (call : Call) :
    (room.call call).room.nextSeq.toNat =
      room.nextSeq.toNat + (room.call call).issued.length :=
  Room.call_nextSeq (sound.fits counters found call) (sound id room found).holds

theorem Sound.putRoom (sound : manager.Sound) (counters : manager.CountersLeft)
    (found : manager.getRoom id = some room) (call : Call) :
    (manager.putRoom id (room.call call).room).Sound := by
  intro other stored isStored
  rw [getRoom_putRoom] at isStored
  split at isStored
  next isThis =>
    cases isStored
    have kept := sound id room found
    refine ⟨?_, Room.call_invariant (sound.fits counters found call) kept.holds, ?_⟩
    · rw [Room.call_id room call, kept.sameId, isThis]
    · rw [sound.call_nextSeq counters found call]
      exact Nat.lt_add_right _ kept.positive
  next => exact sound other stored isStored

theorem HasDrawn.putRoom {other : RoomId} {seq : Seq}
    (drawn : manager.HasDrawn other seq) (sound : manager.Sound)
    (counters : manager.CountersLeft) (found : manager.getRoom id = some room)
    (call : Call) : (manager.putRoom id (room.call call).room).HasDrawn other seq := by
  rcases drawn with ⟨stored, isStored, below⟩
  by_cases isThis : other = id
  · subst isThis
    cases found.symm.trans isStored
    refine ⟨(room.call call).room, by simp, ?_⟩
    rw [UInt64.lt_iff_toNat_lt] at below ⊢
    rw [sound.call_nextSeq counters found call]
    omega
  · exact ⟨stored, by rw [getRoom_putRoom, if_neg isThis, isStored], below⟩

theorem Sound.issued_drawn (sound : manager.Sound) (counters : manager.CountersLeft)
    (found : manager.getRoom id = some room) (call : Call) {entry : Issued}
    (issued : entry ∈ (room.call call).issued) :
    (manager.putRoom id (room.call call).room).HasDrawn id entry.seq ∧
      room.nextSeq ≤ entry.seq := by
  have kept := sound id room found
  have fits := sound.fits counters found call
  have seqs := (Room.call_step kept.holds.toConsistent call).seqs_eq fits
  have inRange : entry.seq.toNat ∈
      List.range' room.nextSeq.toNat (room.call call).issued.length := by
    rw [← seqs]
    exact List.mem_map.mpr ⟨entry, issued, rfl⟩
  rcases List.mem_range'_1.mp inRange with ⟨lower, upper⟩
  refine ⟨⟨(room.call call).room, by simp, ?_⟩, ?_⟩
  · rw [UInt64.lt_iff_toNat_lt, sound.call_nextSeq counters found call]
    exact upper
  · rw [UInt64.le_iff_toNat_le]
    exact lower

/-- `lastSeq` is the largest number drawn. -/
theorem Sound.lastSeq_drawn (sound : manager.Sound)
    (found : manager.getRoom id = some room) : manager.HasDrawn id room.lastSeq := by
  have positive := (sound id room found).positive
  refine ⟨room, found, ?_⟩
  rw [UInt64.lt_iff_toNat_lt, Room.lastSeq_toNat positive]
  omega

theorem HasDrawn.le_lastSeq {seq : Seq} (drawn : manager.HasDrawn id seq)
    (sound : manager.Sound) (found : manager.getRoom id = some room) :
    seq ≤ room.lastSeq := by
  rcases drawn with ⟨stored, isStored, below⟩
  cases found.symm.trans isStored
  rw [UInt64.lt_iff_toNat_lt] at below
  rw [UInt64.le_iff_toNat_le, Room.lastSeq_toNat (sound id room found).positive]
  omega

theorem HasDrawn.lt_issued {seq : Seq} (drawn : manager.HasDrawn id seq)
    (sound : manager.Sound) (counters : manager.CountersLeft)
    (found : manager.getRoom id = some room) (call : Call) {entry : Issued}
    (issued : entry ∈ (room.call call).issued) : seq < entry.seq := by
  rcases drawn with ⟨stored, isStored, below⟩
  cases found.symm.trans isStored
  have lower := (sound.issued_drawn counters found call issued).2
  rw [UInt64.lt_iff_toNat_lt] at below ⊢
  rw [UInt64.le_iff_toNat_le] at lower
  omega

theorem Sound.issued_increase (sound : manager.Sound) (counters : manager.CountersLeft)
    (found : manager.getRoom id = some room) (call : Call) :
    ((room.call call).issued.map Issued.seq).Pairwise (· < ·) := by
  have kept := sound id room found
  have seqs := (Room.call_step kept.holds.toConsistent call).seqs_eq
    (sound.fits counters found call)
  have increasing : ((room.call call).issued.map fun entry => entry.seq.toNat).Pairwise
      (· < ·) := by
    rw [seqs]
    exact List.pairwise_lt_range'
  rw [List.pairwise_map] at increasing ⊢
  apply increasing.imp
  intro earlier later below
  exact UInt64.lt_iff_toNat_lt.mpr below

end Call

/-! ## Who is where -/

def HasMember (manager : RoomManager) (id : RoomId) (client : ClientId) : Prop :=
  ∃ room, manager.getRoom id = some room ∧ client ∈ room.members

section Member

variable {manager : RoomManager} {id other : RoomId} {room : Room} {call : Call}
  {client : ClientId}

theorem hasMember_putRoom :
    (manager.putRoom id (room.call call).room).HasMember other client ↔
      if other = id then client ∈ (room.call call).room.members
      else manager.HasMember other client := by
  unfold HasMember
  by_cases isRoom : other = id
  · subst isRoom
    simp
  · simp [isRoom]

theorem hasMember_putRoom_other (found : manager.getRoom id = some room)
    (different : call.client ≠ client) :
    (manager.putRoom id (room.call call).room).HasMember other client ↔
      manager.HasMember other client := by
  rw [hasMember_putRoom]
  split
  next isRoom =>
    subst isRoom
    rw [Room.mem_call_members]
    have same : manager.HasMember other client ↔ client ∈ room.members := by
      simp [HasMember, found]
    rw [same]
    cases call with
    | join caller => exact or_iff_right (fun isCaller => different isCaller.symm)
    | leave caller => exact and_iff_right (fun isCaller => different isCaller.symm)
    | apply => rfl
  next => rfl

theorem HasMember.of_putRoom
    (member : (manager.putRoom id (room.call call).room).HasMember other client)
    (found : manager.getRoom id = some room) :
    manager.HasMember other client ∨ other = id ∧ call = .join client := by
  rw [hasMember_putRoom] at member
  split at member
  next isRoom =>
    subst isRoom
    rw [Room.mem_call_members] at member
    cases call with
    | join caller =>
        rcases member with isCaller | before
        · exact .inr ⟨rfl, by rw [isCaller]⟩
        · exact .inl ⟨room, found, before⟩
    | leave caller => exact .inl ⟨room, found, member.2⟩
    | apply => exact .inl ⟨room, found, member⟩
  next => exact .inl member

theorem not_hasMember_leave :
    ¬ (manager.putRoom id (room.call (.leave client)).room).HasMember id client := by
  rw [hasMember_putRoom, if_pos rfl, Room.mem_call_members]
  exact fun member => member.1 rfl

theorem hasMember_putRoom_self (found : manager.getRoom id = some room) :
    (manager.putRoom id room).HasMember other client ↔
      manager.HasMember other client := by
  unfold HasMember
  by_cases isRoom : other = id
  · subst isRoom
    simp [found]
  · simp [isRoom]

theorem HasMember.of_createRoom (member : manager.createRoom.1.HasMember other client) :
    manager.HasMember other client := by
  rcases member with ⟨stored, found, isMember⟩
  rw [getRoom_createRoom] at found
  split at found
  next =>
    cases found
    exact absurd isMember (UnorderedSet.not_mem_empty client)
  next => exact ⟨stored, found, isMember⟩

theorem hasMember_createRoom (freshId : manager.getRoom manager.nextRoomId = none) :
    manager.createRoom.1.HasMember other client ↔ manager.HasMember other client := by
  constructor
  · exact HasMember.of_createRoom
  · rintro ⟨stored, found, isMember⟩
    refine ⟨stored, ?_, isMember⟩
    rw [getRoom_createRoom, if_neg]
    · exact found
    · intro isNew
      rw [isNew, freshId] at found
      cases found

end Member

end RoomManager

/-! ## Operations -/

/-- `snapshotSink` is empty for a core without a sink; otherwise it lists the
snapshots enqueued so far. -/
structure ServerCore where
  rooms : RoomManager := {}
  snapshotSink : Option (List PersistedBoardSnapshot) := none

namespace ServerCore

def createRoom (core : ServerCore) : ServerCore × RoomId :=
  let created := core.rooms.createRoom
  ({ core with rooms := created.1 }, created.2)

def joinRoom (core : ServerCore) (client : ClientId) (room : RoomId) :
    ServerCore × Except Error RoomSnapshot :=
  match core.rooms.getRoom room with
  | none => (core, .error .roomNotFound)
  | some r =>
      let outcome := r.join client
      ({ core with rooms := core.rooms.putRoom room outcome.room }, outcome.result)

/-- `snapshotSink_->enqueue(r->makePersistedSnapshot())` behind its null check. -/
def persist (core : ServerCore) (room : Room) : ServerCore :=
  { core with
    snapshotSink := core.snapshotSink.map (· ++ [room.makePersistedSnapshot]) }

def leaveRoom (core : ServerCore) (client : ClientId) (room : RoomId) :
    ServerCore × Except Error (List OutgoingEvent) :=
  match core.rooms.getRoom room with
  | none => (core, .error .roomNotFound)
  | some r =>
      let outcome := r.leave client
      let core := { core with rooms := core.rooms.putRoom room outcome.room }
      match outcome.result with
      | .error error => (core, .error error)
      | .ok events =>
          if outcome.room.memberCount = 0 then
            (core.persist outcome.room, .ok events)
          else
            (core, .ok events)

/-- The events after which a room is stored. -/
def shouldSave : EventPayload → Bool
  | .strokeEnd => true
  | .clear => true
  | _ => false

def handleEvent (core : ServerCore) (client : ClientId) (room : RoomId)
    (event : EventPayload) (now : TimePoint) :
    ServerCore × Except Error (List OutgoingEvent) :=
  match core.rooms.getRoom room with
  | none => (core, .error .roomNotFound)
  | some r =>
      let outcome := r.apply client event now
      let core := { core with rooms := core.rooms.putRoom room outcome.room }
      match outcome.result with
      | .error error => (core, .error error)
      | .ok events =>
          if shouldSave event then
            (core.persist outcome.room, .ok events)
          else
            (core, .ok events)

/-! ## Operations as calls on a room -/

structure Relays (core : ServerCore) (id : RoomId) (room : Room) (call : Call)
    (next : ServerCore) (result : Except Error Reply) : Prop where
  rooms : next.rooms = core.rooms.putRoom id (room.call call).room
  result : result = (room.call call).result

section Relay

variable {core : ServerCore} {id : RoomId} {room : Room}

theorem joinRoom_none (client : ClientId) (missing : core.rooms.getRoom id = none) :
    core.joinRoom client id = (core, .error .roomNotFound) := by
  simp only [joinRoom, missing]

theorem leaveRoom_none (client : ClientId) (missing : core.rooms.getRoom id = none) :
    core.leaveRoom client id = (core, .error .roomNotFound) := by
  simp only [leaveRoom, missing]

theorem handleEvent_none (client : ClientId) (event : EventPayload) (now : TimePoint)
    (missing : core.rooms.getRoom id = none) :
    core.handleEvent client id event now = (core, .error .roomNotFound) := by
  simp only [handleEvent, missing]

theorem joinRoom_relays (client : ClientId)
    (found : core.rooms.getRoom id = some room) :
    Relays core id room (.join client) (core.joinRoom client id).1
      ((core.joinRoom client id).2.map .snapshot) := by
  simp only [joinRoom, found]
  exact ⟨rfl, rfl⟩

theorem leaveRoom_relays (client : ClientId)
    (found : core.rooms.getRoom id = some room) :
    Relays core id room (.leave client) (core.leaveRoom client id).1
      ((core.leaveRoom client id).2.map .events) := by
  simp only [leaveRoom, found]
  cases result : (room.leave client).result with
  | error => exact ⟨rfl, by simp only [Room.call, Outcome.map, result]⟩
  | ok =>
      simp only
      split
      · exact ⟨rfl, by simp only [Room.call, Outcome.map, result]⟩
      · exact ⟨rfl, by simp only [Room.call, Outcome.map, result]⟩

theorem handleEvent_relays (client : ClientId) (event : EventPayload)
    (now : TimePoint) (found : core.rooms.getRoom id = some room) :
    Relays core id room (.apply client event now)
      (core.handleEvent client id event now).1
      ((core.handleEvent client id event now).2.map .events) := by
  simp only [handleEvent, found]
  cases result : (room.apply client event now).result with
  | error => exact ⟨rfl, by simp only [Room.call, Outcome.map, result]⟩
  | ok =>
      simp only
      split
      · exact ⟨rfl, by simp only [Room.call, Outcome.map, result]⟩
      · exact ⟨rfl, by simp only [Room.call, Outcome.map, result]⟩

end Relay

/-! ## Calls of members -/

theorem leaveRoom_of_member {core : ServerCore} {id : RoomId} {client : ClientId}
    (member : core.rooms.HasMember id client) :
    ∃ events, (core.leaveRoom client id).2 = .ok events := by
  rcases member with ⟨room, found, inside⟩
  have left : ∃ events, (room.leave client).result = .ok events := by
    unfold Room.leave
    rw [if_pos inside]
    exact ⟨_, rfl⟩
  rcases left with ⟨events, left⟩
  simp only [leaveRoom, found, left]
  split <;> exact ⟨events, rfl⟩

theorem handleEvent_of_member {core : ServerCore} {id : RoomId} {client : ClientId}
    {event : EventPayload} {now : TimePoint} {error : Error}
    (member : core.rooms.HasMember id client)
    (failed : (core.handleEvent client id event now).2 = .error error) :
    error ≠ .notInRoom ∧ error ≠ .roomNotFound := by
  rcases member with ⟨room, found, inside⟩
  have refused : (room.apply client event now).result = .error error := by
    simp only [handleEvent, found] at failed
    cases result : (room.apply client event now).result with
    | error other =>
        simp only [result] at failed
        exact failed
    | ok events =>
        simp only [result] at failed
        split at failed <;> cases failed
  rcases (Room.apply_refuses inside event now error refused).2 with ⟨message, rfl⟩
  exact ⟨nofun, nofun⟩

end ServerCore

end ClearSpace.Core
