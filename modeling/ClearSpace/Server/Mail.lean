import ClearSpace.Server.SessionLife
import Mathlib.Logic.Function.Basic

/-! # Mail

The part of a server that decides in which order messages reach a client: the
rooms, what has been posted to every client, and what the running handlers have
yet to post. Every step of a server is a step of its mail, with the handler that
posts and the room call that is made. -/

namespace ClearSpace.Server

open ClearSpace.Core ClearSpace.Transport

structure Mail where
  rooms : RoomManager
  registry : UnorderedSet ClientId
  trail : ClientId → List ServerMessage
  pending : ClientId → List (ClientId × ServerMessage)

namespace Mail

def setPending (mail : Mail) (client : ClientId)
    (posts : List (ClientId × ServerMessage)) : Mail :=
  { mail with pending := Function.update mail.pending client posts }

def setTrail (mail : Mail) (client : ClientId) (messages : List ServerMessage) : Mail :=
  { mail with trail := Function.update mail.trail client messages }

def append (mail : Mail) (client : ClientId) (message : ServerMessage) : Mail :=
  mail.setTrail client (mail.trail client ++ [message])

theorem setPending_self (mail : Mail) (client : ClientId) :
    mail.setPending client (mail.pending client) = mail := by
  rw [setPending, Function.update_eq_self]

theorem setTrail_self (mail : Mail) (client : ClientId) :
    mail.setTrail client (mail.trail client) = mail := by
  rw [setTrail, Function.update_eq_self]

def outgoing (events : List OutgoingEvent) : List (ClientId × ServerMessage) :=
  events.map fun event => (event.recipient, toServerMessage event)

/-- The posts that may follow the result of a room call. The error of a leave is
not reported to a session that is being stopped, nor its success confirmed. -/
inductive Answers (client : ClientId) (id : RoomId) :
    Call → Except Error Reply → List (ClientId × ServerMessage) → Prop
  | silent (call : Call) (error : Error) (isCaller : call.client = client) :
      Answers client id call (.error error) []
  | refused (call : Call) (error : Error) (isCaller : call.client = client) :
      Answers client id call (.error error) [(client, toErrorMessage error)]
  | joined (snapshot : RoomSnapshot) :
      Answers client id (.join client) (.ok (.snapshot snapshot))
        [(client, toSnapshotMessage snapshot)]
  | stopped (events : List OutgoingEvent) :
      Answers client id (.leave client) (.ok (.events events)) (outgoing events)
  | left (events : List OutgoingEvent) :
      Answers client id (.leave client) (.ok (.events events))
        (outgoing events ++ [(client, .okResponse (.ascii "leave_room") id)])
  | applied (event : EventPayload) (now : TimePoint) (events : List OutgoingEvent) :
      Answers client id (.apply client event now) (.ok (.events events))
        (outgoing events)

inductive Plain : ServerMessage → Prop
  | pong : Plain .pongResponse
  | roomCreated (room : RoomId) : Plain (.roomCreatedResponse room)
  | error (code message : ByteString) : Plain (.errorResponse code message)

/-- What can happen to the mail. Only a handler that runs, `poster`, posts, and an event
is dropped only if its recipient is not registered. -/
inductive Step (mail : Mail) (poster : Option ClientId) :
    Option (RoomId × Call) → Mail → Prop
  | quiet (registry : UnorderedSet ClientId) :
      Step mail poster none { mail with registry := registry }
  | replied (client : ClientId) (message : ServerMessage)
      (idle : mail.pending client = []) (plain : Plain message) :
      Step mail poster none (mail.setPending client [(client, message)])
  | created (client : ClientId) (idle : mail.pending client = []) :
      Step mail poster none
        ({ mail with rooms := mail.rooms.createRoom.1 }.setPending client
          [(client, .roomCreatedResponse mail.rooms.createRoom.2)])
  | called (client : ClientId) (id : RoomId) (room : Room) (call : Call)
      (posts : List (ClientId × ServerMessage)) (idle : mail.pending client = [])
      (found : mail.rooms.getRoom id = some room)
      (answers : Answers client id call (room.call call).result posts) :
      Step mail poster (some (id, call))
        ({ mail with rooms := mail.rooms.putRoom id (room.call call).room }.setPending
          client posts)
  | posted (sender recipient : ClientId) (message : ServerMessage)
      (later : List (ClientId × ServerMessage)) (isPoster : poster = some sender)
      (next : mail.pending sender = (recipient, message) :: later)
      (isOpen : recipient = sender ∨ recipient ∈ mail.registry) :
      Step mail poster none ((mail.setPending sender later).append recipient message)
  | dropped (sender : ClientId) (event : OutgoingEvent)
      (later : List (ClientId × ServerMessage))
      (next : mail.pending sender = (event.recipient, toServerMessage event) :: later)
      (unregistered : event.recipient ∉ mail.registry) :
      Step mail poster none (mail.setPending sender later)

end Mail

namespace ServerState

def mail (state : ServerState) : Mail where
  rooms := state.core.rooms
  registry := state.registry
  trail := state.trail
  pending := state.pending

section Session

variable {state : ServerState} {client : ClientId} {session : ClientSession}

theorem trail_of_found (found : state.sessions.lookup client = some session) :
    state.trail client = session.trail := by
  simp only [trail, found]

theorem pending_of_found (found : state.sessions.lookup client = some session) :
    state.pending client = session.pending client := by
  simp only [pending, found]

theorem mail_putSession (state : ServerState) (client : ClientId)
    (session : ClientSession) :
    (state.putSession client session).mail =
      (state.mail.setTrail client session.trail).setPending client
        (session.pending client) := by
  simp only [mail, Mail.setTrail, Mail.setPending, putSession, Mail.mk.injEq, true_and]
  constructor
  · funext other
    by_cases isThis : other = client
    · subst isThis
      simp [trail]
    · simp [trail, isThis]
  · funext other
    by_cases isThis : other = client
    · subst isThis
      simp [pending]
    · simp [pending, isThis]

theorem mail_putSession_same {next : ClientSession}
    (found : state.sessions.lookup client = some session)
    (sameTrail : next.trail = session.trail) :
    (state.putSession client next).mail =
      state.mail.setPending client (next.pending client) := by
  rw [mail_putSession, sameTrail, ← trail_of_found found]
  change (state.mail.setTrail client (state.mail.trail client)).setPending _ _ = _
  rw [Mail.setTrail_self]

theorem mail_putSession_quiet {next : ClientSession}
    (found : state.sessions.lookup client = some session)
    (sameTrail : next.trail = session.trail) (sameRest : next.rest = session.rest) :
    (state.putSession client next).mail = state.mail := by
  have samePending : next.pending client = state.mail.pending client := by
    rw [ClientSession.pending, sameRest]
    exact (pending_of_found found).symm
  rw [mail_putSession_same found sameTrail, samePending, Mail.setPending_self]

theorem mail_post (found : state.sessions.lookup client = some session) (task : Task) :
    (state.post client task).mail =
      match task.message with
      | none => state.mail
      | some message => state.mail.append client message := by
  simp only [post, found]
  cases message : task.message with
  | none =>
      refine mail_putSession_quiet found ?_ rfl
      simp [ClientSession.trail, message]
  | some text =>
      rw [mail_putSession]
      have longer : ClientSession.trail { session with
          strand := session.strand ++ [task] } = state.mail.trail client ++ [text] := by
        change _ = state.trail client ++ [text]
        rw [trail_of_found found]
        simp [ClientSession.trail, message]
      have samePending : ClientSession.pending { session with
          strand := session.strand ++ [task] } client = state.mail.pending client :=
        (pending_of_found found).symm
      rw [longer, samePending]
      exact (state.mail.append client text).setPending_self client

end Session

end ServerState

/-! ## Handlers -/

theorem targets_dispatchOutgoing (client : ClientId) (events : List OutgoingEvent) :
    (dispatchOutgoing events).filterMap (HandlerStep.target client) =
      Mail.outgoing events := by
  simp only [dispatchOutgoing, List.filterMap_map, Mail.outgoing]
  exact congrFun List.filterMap_eq_map events

def Handled.mail (handled : Handled) (mail : Mail) (client : ClientId) : Mail :=
  { mail with rooms := handled.core.rooms }.setPending client
    (handled.steps.filterMap (HandlerStep.target client))

section Handlers

variable {core : ServerCore} {mail : Mail} {client : ClientId}

theorem relayed_mail (sameRooms : mail.rooms = core.rooms)
    (idle : mail.pending client = []) {id : RoomId} {room : Room} {call : Call}
    {next : ServerCore} {result : Except Error Reply}
    (found : core.rooms.getRoom id = some room)
    (relays : core.Relays id room call next result)
    {posts : List (ClientId × ServerMessage)}
    (answers : Mail.Answers client id call result posts)
    {made : Option (RoomId × Call)} (isMade : made = some (id, call)) :
    Mail.Step mail none (made.filter fun made => (core.rooms.getRoom made.1).isSome)
      ({ mail with rooms := next.rooms }.setPending client posts) := by
  rw [isMade, Option.filter_some, found, relays.rooms, ← sameRooms]
  rw [relays.result] at answers
  exact .called client id room call posts idle (sameRooms ▸ found) answers

theorem Served.mailStep (sameRooms : mail.rooms = core.rooms)
    (idle : mail.pending client = []) {currentRoom : Option RoomId} {now : TimePoint}
    {request : Except ProtocolError ClientMessage} {handled : Handled}
    (served : Served core client currentRoom now request handled) :
    Mail.Step mail none
      ((asked client currentRoom now request).filter fun made =>
        (core.rooms.getRoom made.1).isSome)
      (handled.mail mail client) := by
  cases served with
  | refused _ error reason =>
      rw [reason.asked_filter, Handled.mail, ← sameRooms]
      exact .replied client _ idle (.error _ _)
  | ponged =>
      rw [Handled.mail, ← sameRooms]
      exact .replied client _ idle .pong
  | created =>
      simp only [Handled.mail, ServerCore.createRoom]
      rw [← sameRooms]
      exact .created client idle
  | failed message id room call next error asks found relays =>
      have isCaller : call.client = client := by cases asks <;> rfl
      exact relayed_mail sameRooms idle found relays (.refused call error isCaller)
        asks.asked_eq
  | joined id room next snapshot free found relays =>
      exact relayed_mail sameRooms idle found relays (.joined snapshot)
        (Asks.asked_eq (.join id free))
  | left id room next events inside found relays =>
      rw [Handled.mail, List.filterMap_append, targets_dispatchOutgoing]
      exact relayed_mail sameRooms idle found relays (.left events)
        (Asks.asked_eq (.leave id inside))
  | applied id request event room next events inside read found relays =>
      rw [Handled.mail, targets_dispatchOutgoing]
      exact relayed_mail sameRooms idle found relays (.applied event now events)
        (Asks.asked_eq (.event id request event inside read))

theorem Departed.mailStep (sameRooms : mail.rooms = core.rooms)
    (idle : mail.pending client = []) {currentRoom : Option RoomId}
    {left : ServerCore × List HandlerStep}
    (departed : Departed core client currentRoom left) :
    Mail.Step mail none
      ((currentRoom.map fun id => (id, Call.leave client)).filter fun made =>
        (core.rooms.getRoom made.1).isSome)
      (Handled.mail ⟨left.1, none, left.2⟩ mail client) := by
  cases departed with
  | nowhere _ missing =>
      -- with nothing to post the mail stays as it is
      rw [leave_filter_of_missing missing, Handled.mail, ← sameRooms, List.filterMap_nil,
        ← idle, Mail.setPending_self]
      exact .quiet _
  | failed id room next error found relays =>
      exact relayed_mail sameRooms idle found relays (.silent _ error rfl) rfl
  | left id room next events found relays =>
      rw [Handled.mail, targets_dispatchOutgoing]
      exact relayed_mail sameRooms idle found relays (.stopped events) rfl

end Handlers

/-! ## Steps of a server -/

namespace ServerState

section Steps

variable {state : ServerState} {client : ClientId} {session : ClientSession}

theorem quiet_step {next : ClientSession}
    (found : state.sessions.lookup client = some session)
    (sameTrail : next.trail = session.trail) (sameRest : next.rest = session.rest)
    (poster : Option ClientId) :
    Mail.Step state.mail poster none (state.putSession client next).mail := by
  rw [mail_putSession_quiet found sameTrail sameRest]
  exact .quiet _

theorem idle_pending (found : state.sessions.lookup client = some session)
    (idle : session.rest = []) : state.mail.pending client = [] := by
  change state.pending client = []
  rw [pending_of_found found, ClientSession.pending, idle]
  rfl

theorem handled_step (found : state.sessions.lookup client = some session)
    (handled : Handled) {next : ClientSession} (sameTrail : next.trail = session.trail)
    (posts : next.pending client =
      handled.steps.filterMap (HandlerStep.target client)) :
    ({ state with core := handled.core }.putSession client next).mail =
      handled.mail state.mail client := by
  have isFound : (ServerState.sessions
      { state with core := handled.core }).lookup client = some session := found
  rw [mail_putSession_same isFound sameTrail, posts]
  rfl

theorem stopSession_step {next : ClientSession}
    (found : state.sessions.lookup client = some session)
    (sameTrail : next.trail = session.trail) (sameRest : next.rest = session.rest)
    (idle : session.rest = []) :
    Mail.Step state.mail none
      ((next.departing client).filter fun made =>
        (state.core.rooms.getRoom made.1).isSome)
      (state.stopSession client next).mail := by
  unfold stopSession stopImpl ClientSession.departing
  split
  · exact quiet_step found sameTrail sameRest none
  · simp only
    rw [handled_step found ⟨_, none, _⟩]
    · exact (leaveCurrentRoom_departed _ _ next.currentRoom).mailStep rfl
        (idle_pending found idle)
    · exact sameTrail
    · simp [ClientSession.pending, HandlerStep.target]

private theorem readLine_step (found : state.sessions.lookup client = some session)
    (idle : session.rest = []) (request : Except ProtocolError ClientMessage)
    (now : TimePoint) :
    Mail.Step state.mail none (state.roomCall (.readLine client request now))
      (state.readLine client session request now).mail := by
  rw [roomCall_readLine found]
  unfold readLine
  simp only
  rw [handled_step found]
  · exact (handleParsed_served request).mailStep rfl (idle_pending found idle)
  · rfl
  · simp [ClientSession.pending, HandlerStep.target]

private theorem runTask_step {task : Task} {tasks : List Task}
    (found : state.sessions.lookup client = some session) (idle : session.rest = [])
    (front : session.strand = task :: tasks) :
    Mail.Step state.mail none (state.roomCall (.runTask client))
      (state.runTask client { session with strand := tasks } task).mail := by
  rw [roomCall_runTask found front]
  cases task with
  | start =>
      apply quiet_step found
      · rw [ClientSession.doReadLine_trail, ClientSession.trail, ClientSession.trail,
          front]
        rfl
      · simp
  | push message =>
      apply quiet_step found
      · rw [ClientSession.push_trail, ClientSession.trail, front]
        rfl
      · simp
  | stop =>
      have sameTrail : ClientSession.trail { session with strand := tasks } =
          session.trail := by
        rw [ClientSession.trail, ClientSession.trail, front]
        rfl
      exact stopSession_step found sameTrail rfl idle

private theorem perform_step (alive : state.Alive) {next : HandlerStep}
    {later : List HandlerStep}
    (found : state.sessions.lookup client = some session)
    (running : session.rest = next :: later) :
    Mail.Step state.mail (some client) none
      (state.perform client { session with rest := later } next).mail := by
  have posts : state.mail.pending client =
      (next :: later).filterMap (HandlerStep.target client) := by
    rw [← running]
    exact pending_of_found found
  have advanced : (state.putSession client { session with rest := later }).mail =
      state.mail.setPending client (later.filterMap (HandlerStep.target client)) :=
    mail_putSession_same found rfl
  have isFound : (state.putSession client { session with rest := later }).sessions.lookup
      client = some { session with rest := later } :=
    AList.lookup_insert state.sessions
  cases next with
  | deliver message =>
      simp only [perform]
      rw [mail_post isFound, advanced]
      exact .posted client client message _ rfl posts (.inl rfl)
  | forward event =>
      simp only [perform]
      split
      next registered =>
        have known : event.recipient ∈ (state.putSession client
            { session with rest := later }).sessions :=
          (AList.mem_insert _).mpr (.inr (alive.known _ registered))
        rcases Option.isSome_iff_exists.mp (AList.lookup_isSome.mpr known) with
          ⟨target, isTarget⟩
        rw [mail_post isTarget, advanced]
        exact .posted client event.recipient _ _ rfl posts (.inr registered)
      next unregistered =>
        rw [advanced]
        exact .dropped client event _ posts unregistered
  | remove =>
      have same : (state.putSession client { session with rest := later }).mail =
          state.mail := by
        rw [advanced]
        exact posts ▸ state.mail.setPending_self client
      have sameMail : (state.perform client { session with rest := later } .remove).mail =
          { state.mail with registry := state.registry.erase client } := by
        rw [← same]
        rfl
      rw [sameMail]
      exact .quiet _
  | doReadLine =>
      have same : (state.putSession client
          ({ session with rest := later } : ClientSession).doReadLine).mail =
          state.mail := by
        rw [mail_putSession_same found (by simp; rfl)]
        rw [ClientSession.pending, ClientSession.doReadLine_rest]
        exact posts ▸ state.mail.setPending_self client
      simp only [perform]
      rw [same]
      exact .quiet _

end Steps

def Action.poster : Action → Option ClientId
  | .act client => some client
  | _ => none

private theorem accept_step {state : ServerState}
    (fresh : state.nextClientId ∉ state.sessions) :
    Mail.Step state.mail none none state.accept.mail := by
  have empty : state.mail.trail state.nextClientId = [] ∧
      state.mail.pending state.nextClientId = [] := by
    change state.trail _ = [] ∧ state.pending _ = []
    simp only [trail, pending, AList.lookup_eq_none.mpr fresh, and_self]
  have same : (state.putSession state.nextClientId { strand := [.start] }).mail =
      state.mail := by
    rw [mail_putSession]
    change (state.mail.setTrail state.nextClientId []).setPending _ [] = state.mail
    rw [← empty.1, Mail.setTrail_self, ← empty.2]
    exact state.mail.setPending_self _
  have sameMail : state.accept.mail =
      { state.mail with registry := state.registry.insert state.nextClientId } := by
    rw [← same]
    rfl
  rw [sameMail]
  exact .quiet _

/-- Every step of a server is a step of its mail with the call that it makes. -/
theorem step_mail {state next : ServerState} {action : Action}
    (fresh : state.nextClientId ∉ state.sessions) (alive : state.Alive)
    (stepped : state.step action = some next) :
    Mail.Step state.mail action.poster (state.roomCall action) next.mail := by
  cases step_cases stepped with
  | accept => exact accept_step fresh
  | stop client session found =>
      rw [mail_post found]
      exact .quiet _
  | runTask client session task tasks found idle front =>
      exact runTask_step found idle front
  | readLine client session request now found idle =>
      exact readLine_step found idle request now
  | readError client session found idle =>
      rw [roomCall_readError found]
      have sameTrail : ClientSession.trail { session with reading := false } =
          session.trail := rfl
      exact stopSession_step found sameTrail rfl idle
  | writeDone client session found =>
      exact quiet_step found session.onWrite_trail session.onWrite_rest none
  | writeError client session found idle =>
      rw [roomCall_writeError found]
      have sameTrail : ClientSession.trail { session with writing := false } =
          session.trail := rfl
      exact stopSession_step found sameTrail rfl idle
  | act client session next later found running => exact perform_step alive found running

/-! ## Runs -/

/-- No counter is about to wrap: neither the one for client ids nor those of the
core. -/
structure CountersLeft (state : ServerState) : Prop where
  freshClient : state.nextClientId ∉ state.sessions
  rooms : state.core.rooms.CountersLeft

instance (state : ServerState) : Decidable state.CountersLeft :=
  decidable_of_iff (state.nextClientId ∉ state.sessions ∧ state.core.rooms.CountersLeft)
    ⟨fun both => ⟨both.1, both.2⟩, fun left => ⟨left.freshClient, left.rooms⟩⟩

theorem trail_eq_queued_append (state : ServerState) (client : ClientId) :
    ∃ posted, state.trail client = state.queued client ++ posted := by
  cases found : state.sessions.lookup client with
  | none => exact ⟨[], by simp only [trail, queued, found, List.append_nil]⟩
  | some session =>
      exact ⟨session.strand.filterMap Task.message, by
        simp only [trail, queued, found, ClientSession.trail]⟩

def undisturbed (state : ServerState) (action : Action) : Bool :=
  decide state.CountersLeft &&
    match action.poster with
    | none => true
    | some sender => state.sessions.entries.all fun entry =>
        decide (entry.1 = sender) || entry.2.rest.isEmpty

theorem pending_of_undisturbed {state : ServerState} {action : Action}
    (alone : state.undisturbed action = true) {sender : ClientId}
    (isPoster : action.poster = some sender) {other : ClientId}
    (different : other ≠ sender) : state.mail.pending other = [] := by
  simp only [undisturbed, isPoster, Bool.and_eq_true, List.all_eq_true] at alone
  cases found : state.sessions.lookup other with
  | none =>
      change state.pending other = []
      simp only [pending, found]
  | some session =>
      have idle := alone.2 ⟨other, session⟩ (AList.mem_lookup_iff.mp found)
      simp only [different, decide_false, Bool.false_or, List.isEmpty_iff] at idle
      exact idle_pending found idle

end ServerState

end ClearSpace.Server
