import ClearSpace.Core.ServerRun
import ClearSpace.Server.Concurrency

/-! # Refused requests

A request that is answered with an error has no other effect. -/

namespace ClearSpace.Core

/-- The core offers the same rooms, in the same state, and has stored nothing. -/
structure ServerCore.Unchanged (core next : ServerCore) : Prop where
  rooms : ∀ id, next.rooms.getRoom id = core.rooms.getRoom id
  nextRoomId : next.rooms.nextRoomId = core.rooms.nextRoomId
  snapshotSink : next.snapshotSink = core.snapshotSink

namespace ServerCore

variable {core : ServerCore} {id : RoomId} {client : ClientId} {error : Error}

theorem Unchanged.refl : core.Unchanged core := ⟨fun _ => rfl, rfl, rfl⟩

theorem call_failed {call : Call}
    (failed : (core.call (.on id call)).2 = .answered (.error error)) :
    core.Unchanged (core.call (.on id call)).1 := by
  cases found : core.rooms.getRoom id with
  | none =>
      rw [call_on_none found]
      exact .refl
  | some room =>
      rw [call_on_some found] at failed ⊢
      have refused : (room.call call).result = .error error :=
        ServerReply.answered.inj failed
      have notSaved : call.saves (room.call call) = false := by
        simp only [Call.saves, refused]
      simp only [notSaved, Bool.false_eq_true, if_false]
      refine ⟨?_, rfl, rfl⟩
      intro other
      rw [RoomManager.getRoom_putRoom, (Room.call_failed refused).1]
      split
      next isRoom => rw [isRoom, found]
      next => rfl

private theorem joinRoom_failed (failed : (core.joinRoom client id).2 = .error error) :
    core.Unchanged (core.joinRoom client id).1 := by
  have refused : (core.call (.on id (.join client))).2 = .answered (.error error) := by
    simp only [call, failed, Except.map]
  exact call_failed refused

private theorem leaveRoom_failed (failed : (core.leaveRoom client id).2 = .error error) :
    core.Unchanged (core.leaveRoom client id).1 := by
  have refused : (core.call (.on id (.leave client))).2 = .answered (.error error) := by
    simp only [call, failed, Except.map]
  exact call_failed refused

private theorem handleEvent_failed {event : EventPayload} {now : TimePoint}
    (failed : (core.handleEvent client id event now).2 = .error error) :
    core.Unchanged (core.handleEvent client id event now).1 := by
  have refused : (core.call (.on id (.apply client event now))).2 =
      .answered (.error error) := by
    simp only [call, failed, Except.map]
  exact call_failed refused

end ServerCore

end ClearSpace.Core

namespace ClearSpace.Server

open ClearSpace.Core ClearSpace.Transport

/-! ## Handlers -/

def RepliesError (steps : List HandlerStep) : Prop :=
  ∃ code message, HandlerStep.deliver (.errorResponse code message) ∈ steps

theorem not_repliesError_events (events : List OutgoingEvent) :
    ¬ RepliesError (dispatchOutgoing events) := by
  intro replies
  rcases replies with ⟨code, message, replied⟩
  rcases List.mem_map.mp replied with ⟨event, _, isForward⟩
  cases isForward

structure OnlyError (core : ServerCore) (currentRoom : Option RoomId)
    (handled : Handled) : Prop where
  core : core.Unchanged handled.core
  currentRoom : handled.currentRoom = currentRoom
  steps : ∃ error, handled.steps = sendError error

section Handlers

variable {core : ServerCore} {client : ClientId} {currentRoom : Option RoomId}

theorem OnlyError.refused (error : Error) :
    OnlyError core currentRoom ⟨core, currentRoom, sendError error⟩ :=
  ⟨.refl, rfl, error, rfl⟩

private theorem handleJoin_onlyError {id : RoomId}
    (replies : RepliesError (handleJoin core client currentRoom id).steps) :
    OnlyError core currentRoom (handleJoin core client currentRoom id) := by
  unfold handleJoin at replies ⊢
  split at replies
  next other =>
    rw [if_pos other]
    exact .refused _
  next free =>
    rw [if_neg free]
    have failed := @ServerCore.joinRoom_failed core id client
    generalize core.joinRoom client id = answer at replies failed ⊢
    rcases answer with ⟨next, error | snapshot⟩
    · exact ⟨failed rfl, rfl, error, rfl⟩
    · rcases replies with ⟨code, message, replied⟩
      cases List.mem_singleton.mp replied

private theorem handleLeave_onlyError {id : RoomId}
    (replies : RepliesError (handleLeave core client currentRoom id).steps) :
    OnlyError core currentRoom (handleLeave core client currentRoom id) := by
  unfold handleLeave at replies ⊢
  split at replies
  next outside =>
    rw [if_pos outside]
    exact .refused _
  next inside =>
    rw [if_neg inside]
    have failed := @ServerCore.leaveRoom_failed core id client
    generalize core.leaveRoom client id = answer at replies failed ⊢
    rcases answer with ⟨next, error | events⟩
    · exact ⟨failed rfl, rfl, error, rfl⟩
    · rcases replies with ⟨code, message, replied⟩
      rcases List.mem_append.mp replied with isEvent | isLast
      · exact absurd ⟨code, message, isEvent⟩ (not_repliesError_events events)
      · cases List.mem_singleton.mp isLast

private theorem handleEventRequest_onlyError {id : RoomId} {request : EventRequest}
    {now : TimePoint}
    (replies : RepliesError
      (handleEventRequest core client currentRoom id request now).steps) :
    OnlyError core currentRoom
      (handleEventRequest core client currentRoom id request now) := by
  unfold handleEventRequest at replies ⊢
  split at replies
  next outside =>
    rw [if_pos outside]
    exact .refused _
  next inside =>
    rw [if_neg inside]
    cases read : toCoreEvent request with
    | error error => exact .refused error
    | ok event =>
        simp only [read] at replies ⊢
        have failed := fun error =>
          @ServerCore.handleEvent_failed core id client error event now
        generalize core.handleEvent client id event now = answer at replies failed ⊢
        rcases answer with ⟨next, error | events⟩
        · exact ⟨failed error rfl, rfl, error, rfl⟩
        · exact absurd replies (not_repliesError_events events)

private theorem handleParsed_onlyError {now : TimePoint}
    {request : Except ProtocolError ClientMessage}
    (replies : RepliesError (handleParsed core client currentRoom now request).steps) :
    OnlyError core currentRoom (handleParsed core client currentRoom now request) := by
  rcases request with error | message
  · exact .refused _
  · cases message with
    | pingRequest =>
        rcases replies with ⟨code, message, replied⟩
        cases List.mem_singleton.mp replied
    | createRoomRequest =>
        rcases replies with ⟨code, message, replied⟩
        cases List.mem_singleton.mp replied
    | joinRoomRequest id => exact handleJoin_onlyError replies
    | leaveRoomRequest id => exact handleLeave_onlyError replies
    | eventRequest id request => exact handleEventRequest_onlyError replies

end Handlers

/-! ## Servers -/

namespace ServerState

/-- All that a refused request does to a server: the handler of the client has
one error to deliver to its own session before it reads on. -/
structure Refuses (state : ServerState) (client : ClientId) (next : ServerState) :
    Prop where
  core : state.core.Unchanged next.core
  own : ∃ session error, state.sessions.lookup client = some session ∧
    next.sessions.lookup client = some { session with
      reading := false
      rest := sendError error ++ [.doReadLine] }
  others : ∀ other, other ≠ client →
    next.sessions.lookup other = state.sessions.lookup other
  registry : next.registry = state.registry
  nextClientId : next.nextClientId = state.nextClientId

/-- The request is what `parseClientMessage` made of a line, in any state. -/
theorem refused_request {state next : ServerState} {client : ClientId}
    {request : Except ProtocolError ClientMessage} {now : TimePoint}
    (stepped : system.step state (.readLine client request now) = some next)
    {after : ClientSession} (found : next.sessions.lookup client = some after)
    (replies : RepliesError after.rest) : state.Refuses client next := by
  change state.step (.readLine client request now) = some next at stepped
  cases step_cases stepped with
  | readLine _ session _ _ isSession idle isReading =>
      change (state.sessions.insert client _).lookup client = some after at found
      rw [UnorderedMap.lookup_insert_eq, if_pos rfl] at found
      cases found
      have handlerReplies : RepliesError
          (handleParsed state.core client session.currentRoom now request).steps := by
        rcases replies with ⟨code, message, replied⟩
        refine ⟨code, message, (List.mem_append.mp replied).resolve_right ?_⟩
        intro isLast
        cases List.mem_singleton.mp isLast
      have only := handleParsed_onlyError handlerReplies
      rcases only.steps with ⟨error, isError⟩
      refine ⟨only.core, ⟨session, error, isSession, ?_⟩, ?_, rfl, rfl⟩
      · change (state.sessions.insert client _).lookup client = _
        rw [UnorderedMap.lookup_insert_eq, if_pos rfl, only.currentRoom, isError]
      · intro other different
        change (state.sessions.insert client _).lookup other = _
        rw [UnorderedMap.lookup_insert_eq, if_neg different]

/-- Client 1 opens room 1 and enters it. -/
def hosting : List Action :=
  [.accept, .runTask 1, .readLine 1 (.ok .createRoomRequest) 0, .act 1, .act 1,
    .readLine 1 (.ok (.joinRoomRequest 1)) 0, .act 1, .act 1]

/-- It continues a stroke that it has not begun. -/
theorem refused_request_strokePoint :
    ∃ state next, system.Runs StepSystem.Any (start (some [])) hosting state ∧
      system.step state
        (.readLine 1 (.ok (.eventRequest 1 (.strokePoint ⟨2, 2⟩))) 5) = some next ∧
      state.Refuses 1 next := by
  have executed : ∃ state next after,
      system.execute StepSystem.unchecked (start (some [])) hosting = some state ∧
        system.step state
          (.readLine 1 (.ok (.eventRequest 1 (.strokePoint ⟨2, 2⟩))) 5) = some next ∧
        next.sessions.lookup 1 = some after ∧
        after.rest = [.deliver (toErrorMessage
          (.protocolViolation (.ascii "stroke point without begin"))), .doReadLine] :=
    ⟨_, _, _, rfl, rfl, rfl, rfl⟩
  rcases executed with ⟨state, next, after, executed, stepped, found, isRest⟩
  have runs := StepSystem.runs_of_unchecked executed
  refine ⟨state, next, runs, stepped, refused_request stepped found ?_⟩
  rw [isRest]
  exact ⟨_, _, .head _⟩

end ServerState

end ClearSpace.Server
