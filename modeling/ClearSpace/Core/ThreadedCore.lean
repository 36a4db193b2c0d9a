import ClearSpace.Core.ServerRun
import ClearSpace.Foundation.Linearization

/-! # Threads in the server core

The member functions of `ServerCore` as several threads run them: the lookup of
the room, the operation on it, the member count, the copy of the board and the
call of `enqueue` each take a lock of their own. What the threads get to see is
what one core would answer that serves them one at a time. -/

namespace ClearSpace.Core

open Linearization

/-- Where a thread is inside a member function. The pointer to the room that it
has looked up is named by the id, as rooms are never removed, and a call carries the
time that `apply` will read. -/
inductive Stage
  | outside
  | entered (call : ServerCall)
  | found (id : RoomId) (call : Call)
  | counting (id : RoomId) (reply : ServerReply)
  | saving (id : RoomId) (reply : ServerReply)
  | holding (snapshot : PersistedBoardSnapshot) (reply : ServerReply)
  | leaving (reply : ServerReply)
  deriving DecidableEq

def Stage.after (sinks : Bool) (id : RoomId) (call : Call) (result : Except Error Reply) :
    Stage :=
  match result, call with
  | .ok reply, .leave _ =>
      if sinks then .counting id (.answered (.ok reply)) else .leaving (.answered (.ok reply))
  | .ok reply, .apply _ event _ =>
      if sinks && ServerCore.shouldSave event then .saving id (.answered (.ok reply))
      else .leaving (.answered (.ok reply))
  | result, _ => .leaving (.answered result)

def Stage.room? : Stage → Option RoomId
  | .found id _ => some id
  | .counting id _ => some id
  | .saving id _ => some id
  | _ => none

def Stage.snapshot? : Stage → Option PersistedBoardSnapshot
  | .holding snapshot _ => some snapshot
  | _ => none

/-- The call of a thread that has yet to take effect. -/
def Stage.pending? : Stage → Option ServerCall
  | .entered call => some call
  | .found id call => some (.on id call)
  | _ => none

/-- The answer to a call that has taken effect. -/
def Stage.reply? : Stage → Option ServerReply
  | .counting _ reply => some reply
  | .saving _ reply => some reply
  | .holding _ reply => some reply
  | .leaving reply => some reply
  | _ => none

theorem Stage.reply?_of_pending {stage : Stage} {call : ServerCall}
    (pending : stage.pending? = some call) : stage.reply? = none := by
  cases stage with
  | entered call => rfl
  | found id call => rfl
  | _ => cases pending

private theorem Stage.reply?_after (sinks : Bool) (id : RoomId) (call : Call)
    (result : Except Error Reply) :
    (after sinks id call result).reply? = some (.answered result) := by
  unfold after
  split
  · split <;> rfl
  · split <;> rfl
  · rfl

structure ThreadedCore where
  rooms : RoomManager := {}
  snapshotSink : Option (List PersistedBoardSnapshot) := none
  stage : Nat → Stage := fun _ => .outside

namespace ThreadedCore

inductive Action
  | invoke (thread : Nat) (call : ServerCall)
  | advance (thread : Nat)

def goTo (state : ThreadedCore) (thread : Nat) (stage : Stage) : ThreadedCore :=
  { state with stage := Function.update state.stage thread stage }

def advance (state : ThreadedCore) (thread : Nat) : Stage → Option ThreadedCore
  | .outside => none
  | .entered .createRoom =>
      let created := state.rooms.createRoom
      some ({ state with rooms := created.1 }.goTo thread (.leaving (.created created.2)))
  | .entered (.on id call) =>
      match state.rooms.getRoom id with
      | none => some (state.goTo thread (.leaving (.answered (.error .roomNotFound))))
      | some _ => some (state.goTo thread (.found id call))
  | .found id call =>
      (state.rooms.getRoom id).map fun room =>
        let outcome := room.call call
        { state with rooms := state.rooms.putRoom id outcome.room }.goTo thread
          (.after state.snapshotSink.isSome id call outcome.result)
  | .counting id reply =>
      (state.rooms.getRoom id).map fun room =>
        state.goTo thread
          (if room.memberCount = 0 then .saving id reply else .leaving reply)
  | .saving id reply =>
      (state.rooms.getRoom id).map fun room =>
        state.goTo thread (.holding room.makePersistedSnapshot reply)
  | .holding snapshot reply =>
      some ({ state with snapshotSink := state.snapshotSink.map (· ++ [snapshot]) }.goTo
        thread (.leaving reply))
  | .leaving _ => some (state.goTo thread .outside)

def step (state : ThreadedCore) : Action → Option ThreadedCore
  | .invoke thread call =>
      match state.stage thread with
      | .outside => some (state.goTo thread (.entered call))
      | _ => none
  | .advance thread => state.advance thread (state.stage thread)

def system : StepSystem ThreadedCore Action := ⟨step⟩

def start (sinks : Bool) : ThreadedCore :=
  { snapshotSink := if sinks then some [] else none }

/-- What a step means to those who call the core. A call takes effect under the
lock of its room, or in `getRoom` if there is none. -/
def event (state : ThreadedCore) : Action → Event ServerCall ServerReply
  | .invoke thread call => .invoke thread call
  | .advance thread =>
      match state.stage thread with
      | .entered .createRoom => .effect thread (.created state.rooms.createRoom.2)
      | .entered (.on id _) =>
          match state.rooms.getRoom id with
          | none => .effect thread (.answered (.error .roomNotFound))
          | some _ => .internal
      | .found id call =>
          match state.rooms.getRoom id with
          | none => .internal
          | some room => .effect thread (.answered (room.call call).result)
      | .leaving _ => .answer thread
      | _ => .internal

inductive Advanced (state : ThreadedCore) (thread : Nat) (stage : Stage) :
    Event ServerCall ServerReply → ThreadedCore → Prop
  | effect (call : ServerCall) (reply : ServerReply) (rooms : RoomManager) (after : Stage)
      (pending : stage.pending? = some call)
      (answers : ServerCore.call { rooms := state.rooms } call = ({ rooms }, reply))
      (answered : after.reply? = some reply) :
      Advanced state thread stage (.effect thread reply)
        ({ state with rooms }.goTo thread after)
  | quiet (sink : Option (List PersistedBoardSnapshot)) (after : Stage)
      (pending : after.pending? = stage.pending?) (reply : after.reply? = stage.reply?)
      (inside : ∀ reply, stage ≠ .leaving reply) :
      Advanced state thread stage .internal
        ({ state with snapshotSink := sink }.goTo thread after)
  | answer (reply : ServerReply) (leaves : stage = .leaving reply) :
      Advanced state thread stage (.answer thread) (state.goTo thread .outside)

theorem call_on_room {rooms : RoomManager} {id : RoomId} {room : Room}
    (found : rooms.getRoom id = some room) (call : Call) :
    ServerCore.call { rooms := rooms } (.on id call) =
      ({ rooms := rooms.putRoom id (room.call call).room },
        .answered (room.call call).result) := by
  have isFound : (ServerCore.rooms { rooms := rooms }).getRoom id = some room := found
  rw [ServerCore.call_on_some isFound]
  simp only [ServerCore.persist, Option.map_none, ite_self]

theorem advance_cases {state next : ThreadedCore} {thread : Nat}
    (stepped : state.step (.advance thread) = some next) :
    Advanced state thread (state.stage thread) (state.event (.advance thread)) next := by
  rw [event]
  simp only [step] at stepped
  generalize state.stage thread = stage at stepped
  cases stage with
  | outside => cases stepped
  | entered call =>
      cases call with
      | createRoom =>
          cases stepped
          exact .effect .createRoom _ _ _ rfl rfl rfl
      | on id call =>
          simp only [advance] at stepped
          cases found : state.rooms.getRoom id with
          | none =>
              rw [found] at stepped
              cases stepped
              simp only [found]
              exact .effect _ _ state.rooms _ rfl (ServerCore.call_on_none found call) rfl
          | some room =>
              rw [found] at stepped
              cases stepped
              simp only [found]
              exact .quiet state.snapshotSink _ rfl rfl nofun
  | found id call =>
      simp only [advance] at stepped
      rcases Option.map_eq_some_iff.mp stepped with ⟨room, found, rfl⟩
      simp only [found]
      exact .effect _ _ _ _ rfl (call_on_room found call) (Stage.reply?_after ..)
  | counting id reply =>
      simp only [advance] at stepped
      rcases Option.map_eq_some_iff.mp stepped with ⟨room, found, rfl⟩
      refine .quiet state.snapshotSink _ ?_ ?_ nofun
      · split <;> rfl
      · split <;> rfl
  | saving id reply =>
      simp only [advance] at stepped
      rcases Option.map_eq_some_iff.mp stepped with ⟨room, found, rfl⟩
      exact .quiet state.snapshotSink _ rfl rfl nofun
  | holding snapshot reply =>
      cases stepped
      exact .quiet _ _ rfl rfl nofun
  | leaving reply =>
      cases stepped
      exact .answer reply rfl

def recorded (sinks : Bool) (actions : List Action) : Recorder ServerCall ServerReply :=
  system.noted (fun state action seen => seen.note (state.event action)) (start sinks) {}
    actions

/-- The snapshot is the board of its room after the first of the calls. -/
def Cut (order : List ServerCall) (snapshot : PersistedBoardSnapshot) : Prop :=
  ∃ before, before <+: order ∧ ∃ room,
    (ServerCore.run {} before).rooms.getRoom snapshot.room = some room ∧
      snapshot = room.makePersistedSnapshot

theorem Cut.mono {order longer : List ServerCall} {snapshot : PersistedBoardSnapshot}
    (cut : Cut order snapshot) (isPrefix : order <+: longer) : Cut longer snapshot := by
  rcases cut with ⟨before, isBefore, isBoard⟩
  exact ⟨before, isBefore.trans isPrefix, isBoard⟩

/-! ## Threads and what was recorded -/

inductive Agrees : Stage → Phase ServerCall ServerReply → Prop
  | outside : Agrees .outside .outside
  | entered (call : ServerCall) (invoked : Nat) :
      Agrees (.entered call) (.pending call invoked)
  | found (id : RoomId) (call : Call) (invoked : Nat) :
      Agrees (.found id call) (.pending (.on id call) invoked)
  | counting (id : RoomId) (call : ServerCall) (reply : ServerReply) (invoked : Nat) :
      Agrees (.counting id reply) (.effected call reply invoked)
  | saving (id : RoomId) (call : ServerCall) (reply : ServerReply) (invoked : Nat) :
      Agrees (.saving id reply) (.effected call reply invoked)
  | holding (snapshot : PersistedBoardSnapshot) (call : ServerCall) (reply : ServerReply)
      (invoked : Nat) : Agrees (.holding snapshot reply) (.effected call reply invoked)
  | leaving (call : ServerCall) (reply : ServerReply) (invoked : Nat) :
      Agrees (.leaving reply) (.effected call reply invoked)

theorem Agrees.after (sinks : Bool) (id : RoomId) (call : Call)
    (result : Except Error Reply) (served : ServerCall) (invoked : Nat) :
    Agrees (.after sinks id call result) (.effected served (.answered result) invoked) := by
  unfold Stage.after
  split
  · split
    · exact .counting ..
    · exact .leaving ..
  · split
    · exact .saving ..
    · exact .leaving ..
  · exact .leaving ..

/-- What a thread relies on: its room is still there, and the board that it has
copied was one. -/
structure Backed (rooms : RoomManager) (order : List ServerCall) (stage : Stage) :
    Prop where
  known : ∀ id, stage.room? = some id → (rooms.getRoom id).isSome = true
  copied : ∀ snapshot, stage.snapshot? = some snapshot → Cut order snapshot

theorem Backed.mono {rooms nextRooms : RoomManager} {order longer : List ServerCall}
    {stage : Stage} (backed : Backed rooms order stage)
    (kept : ∀ id, (rooms.getRoom id).isSome = true →
      (nextRooms.getRoom id).isSome = true)
    (isPrefix : order <+: longer) : Backed nextRooms longer stage where
  known id holds := kept id (backed.known id holds)
  copied snapshot holds := (backed.copied snapshot holds).mono isPrefix

theorem Backed.of_none {rooms : RoomManager} {order : List ServerCall} {stage : Stage}
    (noRoom : stage.room? = none) (noSnapshot : stage.snapshot? = none) :
    Backed rooms order stage where
  known _ holds := by rw [noRoom] at holds; cases holds
  copied _ holds := by rw [noSnapshot] at holds; cases holds

private theorem backed_after {rooms : RoomManager} {order : List ServerCall} {id : RoomId}
    (isSome : (rooms.getRoom id).isSome = true) (sinks : Bool) (call : Call)
    (result : Except Error Reply) : Backed rooms order (.after sinks id call result) := by
  have ofRoom : ∀ stage : Stage, stage.room? = some id → stage.snapshot? = none →
      Backed rooms order stage := by
    intro stage itsRoom noSnapshot
    refine ⟨?_, fun _ holds => by rw [noSnapshot] at holds; cases holds⟩
    intro other holds
    rw [itsRoom] at holds
    cases holds
    exact isSome
  unfold Stage.after
  split
  · split
    · exact ofRoom _ rfl rfl
    · exact .of_none rfl rfl
  · split
    · exact ofRoom _ rfl rfl
    · exact .of_none rfl rfl
  · exact .of_none rfl rfl

/-- One core that has answered the calls in the recorded order is where the
threads have got it. -/
structure Follows (state : ThreadedCore) (seen : Recorder ServerCall ServerReply) :
    Prop where
  sound : seen.Sound ServerCore.machine {}
  rooms : ServerCore.machine.final {} seen.order = { rooms := state.rooms }
  agrees : ∀ thread, Agrees (state.stage thread) (seen.phase thread)
  backed : ∀ thread, Backed state.rooms seen.order (state.stage thread)
  named : ∀ id room, state.rooms.getRoom id = some room → room.id = id
  saved : ∀ snapshot ∈ state.snapshotSink.getD [], Cut seen.order snapshot

theorem start_follows (sinks : Bool) : (start sinks).Follows {} where
  sound := Recorder.sound_empty
  rooms := rfl
  agrees _ := .outside
  backed _ := .of_none rfl rfl
  named _ _ found := by cases found
  saved _ member := by
    cases sinks with
    | false => cases member
    | true => cases member

section Steps

variable {state next : ThreadedCore} {seen : Recorder ServerCall ServerReply}
  {thread : Nat} {stage : Stage}

theorem Follows.cut (follows : state.Follows seen) {id : RoomId} {room : Room}
    (found : state.rooms.getRoom id = some room) :
    Cut seen.order room.makePersistedSnapshot := by
  refine ⟨seen.order, List.prefix_rfl, room, ?_, rfl⟩
  rw [ServerCore.run, follows.rooms]
  have isRoom : room.makePersistedSnapshot.room = id := follows.named id room found
  rw [isRoom]
  exact found

theorem Follows.move (follows : state.Follows seen) {event : Event ServerCall ServerReply}
    {phase : Phase ServerCall ServerReply}
    (sound : (seen.note event).Sound ServerCore.machine {})
    (rooms : ServerCore.machine.final {} (seen.note event).order = { rooms := next.rooms })
    (stages : next.stage = Function.update state.stage thread stage)
    (phases : (seen.note event).phase = Function.update seen.phase thread phase)
    (agrees : Agrees stage phase)
    (backed : Backed next.rooms (seen.note event).order stage)
    (named : ∀ id room, next.rooms.getRoom id = some room → room.id = id)
    (saved : ∀ snapshot ∈ next.snapshotSink.getD [], Cut seen.order snapshot)
    (kept : ∀ id, (state.rooms.getRoom id).isSome = true →
      (next.rooms.getRoom id).isSome = true) : next.Follows (seen.note event) where
  sound := sound
  rooms := rooms
  agrees other := by
    rw [stages, phases]
    by_cases same : other = thread
    · subst same
      rw [Function.update_self, Function.update_self]
      exact agrees
    · rw [Function.update_of_ne same, Function.update_of_ne same]
      exact follows.agrees other
  backed other := by
    rw [stages]
    by_cases same : other = thread
    · subst same
      rw [Function.update_self]
      exact backed
    · rw [Function.update_of_ne same]
      exact (follows.backed other).mono kept (seen.order_prefix_note event)
  named := named
  saved snapshot member := (saved snapshot member).mono (seen.order_prefix_note event)

theorem Follows.invoke (follows : state.Follows seen) (thread : Nat) (call : ServerCall) :
    Follows (state.goTo thread (.entered call)) (seen.note (.invoke thread call)) := by
  have stages : (state.goTo thread (.entered call)).stage =
      Function.update state.stage thread (.entered call) := rfl
  exact follows.move (follows.sound.invoke thread call) follows.rooms stages rfl
    (.entered call _) (.of_none rfl rfl) follows.named follows.saved
    fun _ isSome => isSome

theorem Follows.quietly (follows : state.Follows seen)
    {sink : Option (List PersistedBoardSnapshot)}
    (agrees : Agrees stage (seen.phase thread))
    (backed : Backed state.rooms seen.order stage)
    (saved : ∀ snapshot ∈ sink.getD [], Cut seen.order snapshot) :
    Follows ({ state with snapshotSink := sink }.goTo thread stage)
      (seen.note .internal) := by
  have phases : (seen.note .internal).phase =
      Function.update seen.phase thread (seen.phase thread) :=
    (Function.update_eq_self ..).symm
  exact follows.move follows.sound.tick follows.rooms rfl phases agrees backed
    follows.named saved fun _ isSome => isSome

theorem Follows.effect (follows : state.Follows seen) {call : ServerCall}
    {rooms : RoomManager} {reply : ServerReply} {invoked : Nat}
    (pending : seen.phase thread = .pending call invoked)
    (answers : ServerCore.call { rooms := state.rooms } call = ({ rooms := rooms }, reply))
    (agrees : Agrees stage (.effected call reply invoked))
    (backed : Backed rooms (seen.order ++ [call]) stage)
    (named : ∀ id room, rooms.getRoom id = some room → room.id = id)
    (kept : ∀ id, (state.rooms.getRoom id).isSome = true →
      (rooms.getRoom id).isSome = true) :
    Follows ({ state with rooms := rooms }.goTo thread stage)
      (seen.note (.effect thread reply)) := by
  have replies : reply =
      (ServerCore.machine.step (ServerCore.machine.final {} seen.order) call).2 := by
    rw [follows.rooms]
    exact (congrArg Prod.snd answers).symm
  have order := Recorder.note_effect_order pending reply
  refine follows.move (follows.sound.effect pending replies) ?_ rfl
    (Recorder.note_effect_phase pending reply) agrees ?_ named follows.saved kept
  · rw [order, Machine.final_append, follows.rooms]
    exact congrArg Prod.fst answers
  · rw [order]
    exact backed

theorem Follows.answer (follows : state.Follows seen) {call : ServerCall}
    {reply : ServerReply} {invoked : Nat}
    (effected : seen.phase thread = .effected call reply invoked) :
    Follows (state.goTo thread .outside) (seen.note (.answer thread)) := by
  have stages : (state.goTo thread .outside).stage =
      Function.update state.stage thread .outside := rfl
  refine follows.move (follows.sound.answer effected) ?_ stages
    (Recorder.note_answer_phase effected) .outside (.of_none rfl rfl) follows.named
    follows.saved fun _ isSome => isSome
  rw [Recorder.note_answer_order effected]
  exact follows.rooms

private theorem isSome_getRoom_putRoom {rooms : RoomManager} {id : RoomId}
    {room changed : Room}
    (found : rooms.getRoom id = some room) (other : RoomId) :
    ((rooms.putRoom id changed).getRoom other).isSome =
      (rooms.getRoom other).isSome := by
  rw [RoomManager.getRoom_putRoom]
  split
  next same => rw [same, found]; rfl
  next => rfl

private theorem isSome_getRoom_createRoom {rooms : RoomManager} {id : RoomId}
    (isSome : (rooms.getRoom id).isSome = true) :
    (rooms.createRoom.1.getRoom id).isSome = true := by
  rw [RoomManager.getRoom_createRoom]
  split
  · rfl
  · exact isSome

theorem Follows.advance (follows : state.Follows seen)
    (stepped : state.advance thread (state.stage thread) = some next) :
    next.Follows (seen.note (state.event (.advance thread))) := by
  have agrees := follows.agrees thread
  have backed := follows.backed thread
  rw [event]
  generalize state.stage thread = stage at stepped agrees backed
  generalize isPhase : seen.phase thread = phase at agrees
  cases agrees with
  | outside => cases stepped
  | entered call invoked =>
      cases call with
      | createRoom =>
          cases stepped
          refine follows.effect isPhase rfl (.leaving ..) (.of_none rfl rfl) ?_
            (fun _ => isSome_getRoom_createRoom)
          intro id room found
          rw [RoomManager.getRoom_createRoom] at found
          split at found
          next isNew =>
            cases found
            exact isNew.symm
          next => exact follows.named id room found
      | on id call =>
          simp only [ThreadedCore.advance] at stepped
          cases found : state.rooms.getRoom id with
          | none =>
              rw [found] at stepped
              cases stepped
              simp only [found]
              exact follows.effect isPhase (ServerCore.call_on_none found call)
                (.leaving ..) (.of_none rfl rfl) follows.named (fun _ isSome => isSome)
          | some room =>
              rw [found] at stepped
              cases stepped
              simp only [found]
              refine follows.quietly ?_ ⟨?_, nofun⟩ follows.saved
              · rw [isPhase]
                exact .found id call invoked
              · intro other holds
                cases holds
                rw [found]
                rfl
  | found id call invoked =>
      simp only [ThreadedCore.advance] at stepped
      rcases Option.map_eq_some_iff.mp stepped with ⟨room, found, rfl⟩
      simp only [found]
      have kept : ∀ other,
          ((state.rooms.putRoom id (room.call call).room).getRoom other).isSome =
            (state.rooms.getRoom other).isSome :=
        isSome_getRoom_putRoom found
      apply follows.effect isPhase (call_on_room found call) (.after ..)
      · apply backed_after
        rw [kept, found]
        rfl
      · intro other changed isFound
        rw [RoomManager.getRoom_putRoom] at isFound
        split at isFound
        next same =>
          cases isFound
          rw [Room.call_id, same]
          exact follows.named id room found
        next => exact follows.named other changed isFound
      · intro other isSome
        exact (kept other).trans isSome
  | counting id call reply invoked =>
      simp only [ThreadedCore.advance] at stepped
      rcases Option.map_eq_some_iff.mp stepped with ⟨room, found, rfl⟩
      refine follows.quietly ?_ ?_ follows.saved
      · rw [isPhase]
        split
        · exact .saving ..
        · exact .leaving ..
      · split
        · exact ⟨backed.known, nofun⟩
        · exact .of_none rfl rfl
  | saving id call reply invoked =>
      simp only [ThreadedCore.advance] at stepped
      rcases Option.map_eq_some_iff.mp stepped with ⟨room, found, rfl⟩
      refine follows.quietly ?_ ⟨nofun, ?_⟩ follows.saved
      · rw [isPhase]
        exact .holding ..
      · intro snapshot holds
        cases holds
        exact follows.cut found
  | holding snapshot call reply invoked =>
      cases stepped
      refine follows.quietly ?_ (.of_none rfl rfl) ?_
      · rw [isPhase]
        exact .leaving ..
      · intro enqueued member
        cases isSink : state.snapshotSink with
        | none =>
            rw [isSink] at member
            cases member
        | some sink =>
            rw [isSink] at member
            rcases List.mem_append.mp member with earlier | last
            · apply follows.saved
              rw [isSink]
              exact earlier
            · rw [List.mem_singleton.mp last]
              exact backed.copied snapshot rfl
  | leaving call reply invoked =>
      cases stepped
      exact follows.answer isPhase

theorem step_follows {action : Action} (follows : state.Follows seen)
    (stepped : state.step action = some next) :
    next.Follows (seen.note (state.event action)) := by
  cases action with
  | invoke thread call =>
      simp only [step] at stepped
      split at stepped
      next =>
        cases stepped
        exact follows.invoke thread call
      next => cases stepped
  | advance thread => exact follows.advance stepped

theorem Follows.progress (follows : state.Follows seen)
    (inside : state.stage thread ≠ .outside) :
    (state.step (.advance thread)).isSome = true := by
  have known := (follows.backed thread).known
  simp only [step]
  generalize state.stage thread = stage at inside known
  cases stage with
  | outside => exact absurd rfl inside
  | entered call =>
      cases call with
      | createRoom => rfl
      | on id call =>
          simp only [ThreadedCore.advance]
          split <;> rfl
  | found id call =>
      simp only [ThreadedCore.advance, Option.isSome_map]
      exact known id rfl
  | counting id reply =>
      simp only [ThreadedCore.advance, Option.isSome_map]
      exact known id rfl
  | saving id reply =>
      simp only [ThreadedCore.advance, Option.isSome_map]
      exact known id rfl
  | holding snapshot reply => rfl
  | leaving reply => rfl

end Steps

/-! ## Runs -/

/-- `nextRoomId_` has not come round to a room that exists. The threads that have a
pointer to the old room would go on with it, so a stage could no longer name it by
its id. -/
def FreshIds (state : ThreadedCore) (_ : Action) : Prop :=
  state.rooms.getRoom state.rooms.nextRoomId = none

/-- Every run of the threads, as long as no room id comes round, is linearizable: the
calls that have returned have a point each between their invocation and their return,
and one core that answers the calls in the order of these points gives the same
answers and ends with the same rooms. Every snapshot that was enqueued is a board
that this core went through, and no thread waits for another one inside the core. -/
theorem core_linearizable {sinks : Bool} {actions : List Action} {final : ThreadedCore}
    (runs : system.Runs FreshIds (start sinks) actions final) :
    let seen := recorded sinks actions
    Linearizes ServerCore.machine {} seen.points seen.operations ∧
      final.rooms = (ServerCore.run {} seen.order).rooms ∧
      (∀ snapshot ∈ final.snapshotSink.getD [], Cut seen.order snapshot) ∧
      ∀ thread, final.stage thread ≠ .outside →
        (final.step (.advance thread)).isSome = true := by
  intro seen
  have follows : final.Follows seen := by
    apply runs.invariant_noted _ (start_follows sinks)
    intro state action next record _ stepped before
    exact step_follows before stepped
  refine ⟨follows.sound.toLinearizes, ?_, follows.saved, fun _ => follows.progress⟩
  exact (congrArg ServerCore.rooms follows.rooms).symm

/-- Thread 1 overtakes thread 0 on the way to the room, and clears the board while
thread 0 is about to copy it. -/
def overtaken : List Action :=
  [.invoke 0 .createRoom, .advance 0, .advance 0,
    .invoke 0 (.on 1 (.join 10)), .invoke 1 (.on 1 (.join 20)), .advance 0, .advance 1,
    .advance 1, .advance 0, .advance 0, .advance 1,
    .invoke 0 (.on 1 (.apply 10 .clear 5)), .advance 0, .advance 0,
    .invoke 1 (.on 1 (.apply 20 .clear 6)), .advance 1, .advance 1, .advance 0,
    .advance 0, .advance 0, .advance 1]

theorem core_linearizable_overtaken :
    ∃ final, system.Runs FreshIds (start true) overtaken final ∧
      (recorded true overtaken).order = [.createRoom, .on 1 (.join 20), .on 1 (.join 10),
        .on 1 (.apply 10 .clear 5), .on 1 (.apply 20 .clear 6)] ∧
      (recorded true overtaken).operations.length = 4 ∧
      Linearizes ServerCore.machine {} (recorded true overtaken).points
        (recorded true overtaken).operations ∧
      ∀ snapshot ∈ final.snapshotSink.getD [],
        Cut (recorded true overtaken).order snapshot := by
  have computed : (system.execute
      (fun state _ => (state.rooms.getRoom state.rooms.nextRoomId).isNone) (start true)
      overtaken).isSome = true := by
    decide
  rcases Option.isSome_iff_exists.mp computed with ⟨final, executed⟩
  have allows : ∀ (state : ThreadedCore) (action : Action),
      (state.rooms.getRoom state.rooms.nextRoomId).isNone = true → FreshIds state action :=
    fun _ _ isNone => Option.isNone_iff_eq_none.mp isNone
  have runs := StepSystem.runs_of_execute allows executed
  rcases core_linearizable runs with ⟨linearizes, _, saved, _⟩
  exact ⟨final, runs, by decide, by decide, linearizes, saved⟩

end ThreadedCore

end ClearSpace.Core
