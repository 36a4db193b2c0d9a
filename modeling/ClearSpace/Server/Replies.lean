import ClearSpace.Server.Exceptions
import ClearSpace.Server.RoomCalls

/-! # Requests and their replies

Apart from events a client is sent nothing but the replies to its requests. They
come in the order of the requests, one for each; only an event that is accepted
gets none, and neither does the line at which an exception ends the program. -/

namespace ClearSpace.Server

open ClearSpace.Core ClearSpace.Transport

def reply : ServerMessage → Option ServerMessage
  | .event _ _ _ => none
  | message => some message

inductive Replies : Except ProtocolError ClientMessage → List ServerMessage → Prop
  | unreadable (error : ProtocolError) :
      Replies (.error error) [toErrorMessage (protocolToCoreError error)]
  | pong : Replies (.ok .pingRequest) [.pongResponse]
  | created (room : RoomId) : Replies (.ok .createRoomRequest) [.roomCreatedResponse room]
  | joined (room : RoomId) (lastSeq : Seq) (members : List ClientId)
      (strokes : List StrokeDto) (cursors : List CursorDto) :
      Replies (.ok (.joinRoomRequest room))
        [.roomSnapshotResponse room lastSeq members strokes cursors]
  | joinFailed (room : RoomId) (error : Error) :
      Replies (.ok (.joinRoomRequest room)) [toErrorMessage error]
  | left (room : RoomId) :
      Replies (.ok (.leaveRoomRequest room)) [.okResponse (.ascii "leave_room") room]
  | leaveFailed (room : RoomId) (error : Error) :
      Replies (.ok (.leaveRoomRequest room)) [toErrorMessage error]
  | accepted (room : RoomId) (request : EventRequest) :
      Replies (.ok (.eventRequest room request)) []
  | eventFailed (room : RoomId) (request : EventRequest) (error : Error) :
      Replies (.ok (.eventRequest room request)) [toErrorMessage error]

def HandlerStep.reply : HandlerStep → Option ServerMessage
  | .deliver message => ClearSpace.Server.reply message
  | _ => none

/-! ## One request -/

theorem replies_of_error (error : Error) :
    (sendError error).filterMap HandlerStep.reply = [toErrorMessage error] := rfl

theorem replies_dispatchOutgoing (events : List OutgoingEvent) :
    (dispatchOutgoing events).filterMap HandlerStep.reply = [] := by
  apply List.filterMap_eq_nil_iff.mpr
  intro next member
  rcases List.mem_map.mp member with ⟨event, _, rfl⟩
  rfl

theorem Refused.replies {core : ServerCore} {client : ClientId}
    {currentRoom : Option RoomId} {now : TimePoint}
    {request : Except ProtocolError ClientMessage} {error : Error}
    (refused : Refused core client currentRoom now request error) :
    Replies request [toErrorMessage error] := by
  cases refused with
  | unreadable error => exact .unreadable error
  | elsewhere id => exact .joinFailed id _
  | leaveOutside id => exact .leaveFailed id _
  | eventOutside id request => exact .eventFailed id request _
  | invalidEvent id request error => exact .eventFailed id request error
  | noRoom message id call asks =>
      cases asks with
      | join => exact .joinFailed id _
      | leave => exact .leaveFailed id _
      | event => exact .eventFailed id _ _

theorem Served.replies {core : ServerCore} {client : ClientId}
    {currentRoom : Option RoomId} {now : TimePoint}
    {request : Except ProtocolError ClientMessage} {handled : Handled}
    (served : Served core client currentRoom now request handled)
    (sound : core.rooms.Sound) :
    Replies request (handled.steps.filterMap HandlerStep.reply) := by
  cases served with
  | refused _ error reason =>
      rw [replies_of_error]
      exact reason.replies
  | ponged => exact .pong
  | created => exact .created _
  | failed message id room call next error asks =>
      rw [replies_of_error]
      cases asks with
      | join => exact .joinFailed id error
      | leave => exact .leaveFailed id error
      | event => exact .eventFailed id _ error
  | joined id room next snapshot free found relays =>
      have result := relays.result
      have sameId := (sound id room found).sameId
      cases result
      have isRoom : (room.addMember client).snapshot.room = id := sameId
      simp only [List.filterMap_cons, List.filterMap_nil, HandlerStep.reply, reply,
        toSnapshotMessage, isRoom]
      exact .joined id _ _ _ _
  | left id room next events =>
      rw [List.filterMap_append, replies_dispatchOutgoing]
      exact .left id
  | applied id request event room next events =>
      rw [replies_dispatchOutgoing]
      exact .accepted id request

theorem Departed.noReplies {core : ServerCore} {client : ClientId}
    {currentRoom : Option RoomId} {left : ServerCore × List HandlerStep}
    (departed : Departed core client currentRoom left) :
    left.2.filterMap HandlerStep.reply = [] := by
  cases departed with
  | nowhere => rfl
  | failed => rfl
  | left id room next events => exact replies_dispatchOutgoing events

/-! ## Sessions -/

/-- The replies posted to the session and those that its handler has yet to post. -/
def ClientSession.replied (session : ClientSession) : List ServerMessage :=
  session.trail.filterMap reply ++ session.rest.filterMap HandlerStep.reply

theorem ClientSession.replied_of_same {session next : ClientSession}
    (sameTrail : next.trail = session.trail) (sameRest : next.rest = session.rest) :
    next.replied = session.replied := by
  rw [replied, sameTrail, sameRest, replied]

namespace ServerState

def replied (state : ServerState) (client : ClientId) : List ServerMessage :=
  match state.sessions.lookup client with
  | none => []
  | some session => session.replied

def exchange (client : ClientId) (state : ServerState) :
    Action → Option (Except ProtocolError ClientMessage × List ServerMessage)
  | .readLine reader request now =>
      if reader = client then
        (state.sessions.lookup reader).map fun session =>
          (request, (handleParsed state.core reader session.currentRoom now
            request).steps.filterMap HandlerStep.reply)
      else none
  | _ => none

def exchanges (sink : Option (List PersistedBoardSnapshot)) (client : ClientId)
    (actions : List Action) :
    List (Except ProtocolError ClientMessage × List ServerMessage) :=
  system.inputs (exchange client) (start sink) actions

def Action.request? (client : ClientId) :
    Action → Option (Except ProtocolError ClientMessage)
  | .readLine reader request _ => if reader = client then some request else none
  | _ => none

section Steps

variable {state next : ServerState} {client other : ClientId} {session : ClientSession}

theorem replied_of_found (found : state.sessions.lookup client = some session) :
    state.replied client = session.replied := by
  simp only [replied, found]

theorem replied_putSession (state : ServerState) (client other : ClientId)
    (session : ClientSession) :
    (state.putSession other session).replied client =
      if client = other then session.replied else state.replied client := by
  simp only [replied, putSession, UnorderedMap.lookup_insert_eq]
  by_cases same : client = other
  · simp [same]
  · simp [same]

theorem replied_putSession_same (found : state.sessions.lookup other = some session)
    {changed : ClientSession} (same : changed.replied = session.replied)
    (client : ClientId) : (state.putSession other changed).replied client =
      state.replied client := by
  rw [replied_putSession, same]
  split
  next isOther => rw [isOther, replied_of_found found]
  next => rfl

theorem replied_post (state : ServerState) (other : ClientId) {task : Task}
    (noReply : task.message.bind reply = none) (client : ClientId) :
    (state.post other task).replied client = state.replied client := by
  unfold post
  cases found : state.sessions.lookup other with
  | none => rfl
  | some session =>
      apply replied_putSession_same found
      rw [ClientSession.replied, ClientSession.trail, List.filterMap_append,
        List.filterMap_append, ClientSession.replied, ClientSession.trail,
        List.filterMap_append]
      cases message : task.message with
      | none => simp [message]
      | some text =>
          rw [message, Option.bind_some] at noReply
          simp [message, noReply]

theorem replied_stopSession (found : state.sessions.lookup other = some session)
    {changed : ClientSession} (sameTrail : changed.trail = session.trail)
    (sameRest : changed.rest = session.rest) (idle : session.rest = [])
    (client : ClientId) :
    (state.stopSession other changed).replied client = state.replied client := by
  unfold stopSession stopImpl
  split
  · exact replied_putSession_same found
      (ClientSession.replied_of_same sameTrail sameRest) client
  · have noReplies := (leaveCurrentRoom_departed state.core other
      changed.currentRoom).noReplies
    apply replied_putSession_same found
    rw [ClientSession.replied, ClientSession.replied, idle, List.filterMap_append,
      noReplies]
    change changed.trail.filterMap reply ++ [] = _
    rw [sameTrail]
    rfl

private theorem replied_runTask {task : Task} {tasks : List Task}
    (found : state.sessions.lookup other = some session) (idle : session.rest = [])
    (front : session.strand = task :: tasks) (client : ClientId) :
    (state.runTask other { session with strand := tasks } task).replied client =
      state.replied client := by
  cases task with
  | start =>
      apply replied_putSession_same found
      apply ClientSession.replied_of_same
      · rw [ClientSession.doReadLine_trail, ClientSession.trail, ClientSession.trail,
          front]
        rfl
      · simp
  | push message =>
      apply replied_putSession_same found
      apply ClientSession.replied_of_same
      · rw [ClientSession.push_trail, ClientSession.trail, front]
        rfl
      · simp
  | stop =>
      have sameTrail : ClientSession.trail { session with strand := tasks } =
          session.trail := by
        rw [ClientSession.trail, ClientSession.trail, front]
        rfl
      exact replied_stopSession found sameTrail rfl idle client

private theorem replied_perform {first : HandlerStep} {later : List HandlerStep}
    (found : state.sessions.lookup other = some session)
    (running : session.rest = first :: later) (client : ClientId) :
    (state.perform other { session with rest := later } first).replied client =
      state.replied client := by
  -- a step that is no reply takes none away
  have advanced : first.reply = none → (state.putSession other
      { session with rest := later }).replied client = state.replied client := by
    intro noReply
    apply replied_putSession_same found
    rw [ClientSession.replied, ClientSession.replied, running,
      List.filterMap_cons_none noReply]
    rfl
  cases first with
  | deliver message =>
      have isFound : (state.putSession other
          { session with rest := later }).sessions.lookup other =
            some { session with rest := later } :=
        AList.lookup_insert state.sessions
      simp only [perform, post, isFound]
      rw [replied_putSession, replied_putSession]
      split
      next isOther =>
        rw [isOther, replied_of_found found, ClientSession.replied,
          ClientSession.replied, running]
        simp only [ClientSession.trail, List.filterMap_append, List.filterMap_cons,
          List.filterMap_nil, Task.message, HandlerStep.reply]
        cases reply message <;> simp
      next => rfl
  | forward event =>
      simp only [perform]
      split
      · rw [replied_post _ _ rfl]
        exact advanced rfl
      · exact advanced rfl
  | remove => exact advanced rfl
  | doReadLine =>
      apply replied_putSession_same found
      rw [ClientSession.replied, ClientSession.replied, ClientSession.doReadLine_trail,
        ClientSession.doReadLine_rest, running]
      rfl

private theorem step_replied {action : Action}
    (fresh : state.nextClientId ∉ state.sessions)
    (stepped : state.step action = some next) (client : ClientId) :
    next.replied client =
      state.replied client ++ ((exchange client state action).map Prod.snd).getD [] := by
  cases step_cases stepped with
  | accept =>
      change (state.putSession state.nextClientId { strand := [.start] }).replied client =
        state.replied client ++ []
      rw [List.append_nil, replied_putSession]
      split
      next isNew =>
        rw [isNew, replied, AList.lookup_eq_none.mpr fresh]
        rfl
      next => rfl
  | stop other session found =>
      rw [replied_post _ _ rfl]
      exact (List.append_nil _).symm
  | runTask other session task tasks found idle front =>
      rw [replied_runTask found idle front]
      exact (List.append_nil _).symm
  | readLine reader session request now found idle =>
      unfold readLine
      simp only
      rw [replied_putSession]
      simp only [exchange, found, Option.map_some]
      by_cases isReader : client = reader
      · subst isReader
        rw [if_pos rfl, if_pos rfl, replied_of_found found, ClientSession.replied,
          ClientSession.replied, idle]
        simp only [List.filterMap_append, List.filterMap_nil, List.append_nil,
          Option.map_some, Option.getD_some]
        rw [List.filterMap_cons_none rfl, List.filterMap_nil, List.append_nil]
        rfl
      · rw [if_neg isReader, if_neg (Ne.symm isReader)]
        exact (List.append_nil _).symm
  | readError other session found idle =>
      have sameTrail : ClientSession.trail { session with reading := false } =
          session.trail := rfl
      rw [replied_stopSession found sameTrail rfl idle]
      exact (List.append_nil _).symm
  | writeDone other session found =>
      rw [replied_putSession_same found
        (ClientSession.replied_of_same session.onWrite_trail session.onWrite_rest)]
      exact (List.append_nil _).symm
  | writeError other session found idle =>
      have sameTrail : ClientSession.trail { session with writing := false } =
          session.trail := rfl
      rw [replied_stopSession found sameTrail rfl idle]
      exact (List.append_nil _).symm
  | act other session first later found running =>
      rw [replied_perform found running]
      exact (List.append_nil _).symm

end Steps

/-! ## Runs -/

private theorem request?_of_exchange {state next : ServerState} {action : Action}
    (client : ClientId) (stepped : state.step action = some next) :
    (exchange client state action).map Prod.fst = action.request? client := by
  cases step_cases stepped with
  | readLine reader session request now found =>
      simp only [exchange, found, Action.request?]
      split <;> rfl
  | _ => rfl

private theorem replies_of_exchange {state : ServerState} {action : Action}
    {client : ClientId}
    {pair : Except ProtocolError ClientMessage × List ServerMessage}
    (exchanged : exchange client state action = some pair)
    (sound : state.core.rooms.Sound) : Replies pair.1 pair.2 := by
  cases action with
  | readLine reader request now =>
      rcases Option.ite_none_right_eq_some.mp exchanged with ⟨_, isPair⟩
      rcases Option.map_eq_some_iff.mp isPair with ⟨session, _, rfl⟩
      exact (handleParsed_served request).replies sound
  | _ => cases exchanged

def Replied (client : ClientId) (state : ServerState)
    (taken : List (Except ProtocolError ClientMessage × List ServerMessage)) : Prop :=
  state.replied client = taken.flatMap Prod.snd

theorem Replied.step {client : ClientId} {state next : ServerState} {action : Action}
    {taken : List (Except ProtocolError ClientMessage × List ServerMessage)}
    (counted : state.Counted action) (stepped : state.step action = some next)
    (isReplied : state.Replied client taken) :
    next.Replied client (taken ++ (exchange client state action).toList) := by
  unfold Replied at isReplied ⊢
  rw [step_replied counted.freshClient stepped client, isReplied, List.flatMap_append]
  cases exchange client state action with
  | none => rfl
  | some pair => simp

section Exchanges

variable {sink : Option (List PersistedBoardSnapshot)} {actions : List Action}
  {final : ServerState} (runs : system.Runs Counted (start sink) actions final)
  (client : ClientId)

include runs

theorem exchanges_requests : (exchanges sink client actions).map Prod.fst =
    actions.filterMap (Action.request? client) := by
  unfold exchanges
  generalize start sink = state at runs
  induction runs with
  | nil => rfl
  | @cons state middle final action actions counted stepped _ induction =>
      have first := request?_of_exchange client stepped
      rw [StepSystem.inputs_cons stepped, List.map_append, induction]
      rw [List.filterMap_cons, ← first]
      cases exchange client state action <;> rfl

theorem exchanges_replies : ∀ pair ∈ exchanges sink client actions,
    Replies pair.1 pair.2 := by
  intro pair member
  rcases (serving_of_counted runs).mem_inputs member with
    ⟨before, action, after, middle, _, _, serving, exchanged⟩
  exact replies_of_exchange exchanged serving.2

theorem runs_replied : final.Replied client (exchanges sink client actions) := by
  have nothing : (start sink).Replied client [] := rfl
  apply runs.invariant_noted _ nothing
  intro state action next taken counted stepped isReplied
  exact isReplied.step counted stepped

end Exchanges

/-- Every line that was read from a client has the replies that its request may
have, and what has been posted to the client besides events, with what its running
handler has yet to post, is these replies in the order of the requests. A handler
can go on with them unless it throws, which only happens to one that answers an
unreadable line. -/
theorem replies_in_order {sink : Option (List PersistedBoardSnapshot)}
    {actions : List Action} {final : ServerState}
    (runs : system.Runs Counted (start sink) actions final) (client : ClientId) :
    (exchanges sink client actions).map Prod.fst =
        actions.filterMap (Action.request? client) ∧
      (∀ pair ∈ exchanges sink client actions, Replies pair.1 pair.2) ∧
      final.replied client = (exchanges sink client actions).flatMap Prod.snd ∧
      ∀ session, final.sessions.lookup client = some session →
        (session.rest = [] → session.trail.filterMap reply =
          (exchanges sink client actions).flatMap Prod.snd) ∧
        ∀ first later, session.rest = first :: later →
          Sendable first ∨ session.Thrown := by
  have replied := runs_replied runs client
  refine ⟨exchanges_requests runs client, exchanges_replies runs client, replied, ?_⟩
  intro session found
  constructor
  · intro idle
    rw [Replied, replied_of_found found, ClientSession.replied, idle] at replied
    rw [← replied]
    exact (List.append_nil _).symm
  · intro first later running
    rw [or_iff_not_imp_left]
    exact (runs_answering runs).thrown found running

/-- A client that pings, creates a room, draws outside of it, joins and draws. -/
def askingAround : List Action :=
  [.accept, .runTask 1, .readLine 1 (.ok .pingRequest) 0, .act 1, .act 1,
    .readLine 1 (.ok .createRoomRequest) 0, .act 1, .act 1,
    .readLine 1 (.ok (.eventRequest 1 .clear)) 0, .act 1, .act 1,
    .readLine 1 (.ok (.joinRoomRequest 1)) 0, .act 1, .act 1,
    .readLine 1 (.ok (.eventRequest 1 .clear)) 0, .act 1,
    .readLine 1 (.ok (.leaveRoomRequest 1)) 0]

theorem replies_in_order_askingAround :
    ∃ final, system.Runs Counted (start none) askingAround final ∧
      final.replied 1 = [.pongResponse, .roomCreatedResponse 1,
        toErrorMessage .notInRoom, .roomSnapshotResponse 1 0 [1] [] [],
        .okResponse (.ascii "leave_room") 1] ∧
      final.replied 1 = (exchanges none 1 askingAround).flatMap Prod.snd := by
  have computed : (system.execute counted (start none) askingAround).map
      (fun final => final.replied 1) = some [.pongResponse, .roomCreatedResponse 1,
        toErrorMessage .notInRoom, .roomSnapshotResponse 1 0 [1] [] [],
        .okResponse (.ascii "leave_room") 1] := by
    decide
  rcases Option.map_eq_some_iff.mp computed with ⟨final, executed, replied⟩
  have runs := StepSystem.runs_of_execute counted_sound executed
  exact ⟨final, runs, replied, (replies_in_order runs 1).2.2.1⟩

end ServerState

end ClearSpace.Server
