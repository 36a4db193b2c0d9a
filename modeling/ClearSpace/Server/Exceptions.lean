import ClearSpace.Server.LineHandling
import ClearSpace.Server.SessionSteps

/-! # Exceptions

Where an exception leaves a handler. Everything that a server posts can be written,
but for the reply to a line that could not be read: it quotes the line. -/

namespace ClearSpace.Server

open ClearSpace.Core ClearSpace.Transport

/-- The handler has a line to answer that could not be read, with a text that cannot be
written: `deliver` throws, and that is the end of the program. -/
def ClientSession.Thrown (session : ClientSession) : Prop :=
  ∃ error : ProtocolError,
    session.rest = sendError (protocolToCoreError error) ++ [HandlerStep.doReadLine] ∧
      ¬ error.Readable

private theorem Served.sendable_or {core : ServerCore} {client : ClientId}
    {currentRoom : Option RoomId} {now : TimePoint}
    {request : Except ProtocolError ClientMessage} {handled : Handled}
    (served : Served core client currentRoom now request handled) :
    (∀ step ∈ handled.steps, Sendable step) ∨
      ∃ error : ProtocolError,
        handled.steps = sendError (protocolToCoreError error) ∧ ¬ error.Readable := by
  rcases request with error | message
  · cases served with
    | refused _ _ reason =>
        cases reason with
        | unreadable =>
            by_cases readable : error.Readable
            · exact .inl (sendError_sendable.mpr readable)
            · exact .inr ⟨error, rfl, readable⟩
  · exact .inl served.sendable

namespace ClientSession

/-- Whatever the handler has yet to do can be done, or it is at the step that throws. -/
def Answers (session : ClientSession) : Prop :=
  (∀ step ∈ session.rest, Sendable step) ∨ session.Thrown

theorem Answers.congr {session next : ClientSession} (answers : session.Answers)
    (same : next.rest = session.rest) : next.Answers := by
  unfold Answers Thrown
  rw [same]
  exact answers

theorem Answers.advance {session : ClientSession} (answers : session.Answers)
    {first : HandlerStep} {later : List HandlerStep} (running : session.rest = first :: later)
    (sendable : Sendable first) : ∀ step ∈ later, Sendable step := by
  rcases answers with all | ⟨error, isReply, unreadable⟩
  · rw [running] at all
    exact (List.forall_mem_cons.mp all).2
  · rw [running] at isReply
    cases isReply
    have readable : ∀ step ∈ sendError (protocolToCoreError error), Sendable step := by
      intro step member
      rw [List.mem_singleton.mp member]
      exact sendable
    exact absurd (sendError_sendable.mp readable) unreadable

theorem stopImpl_trail {core : ServerCore} {client : ClientId} {session : ClientSession} :
    (stopImpl core client session).2.trail = session.trail := by
  unfold stopImpl
  split <;> rfl

theorem stopImpl_answers {core : ServerCore} {client : ClientId} {session : ClientSession}
    (answers : session.Answers) : (stopImpl core client session).2.Answers := by
  unfold stopImpl
  split
  · exact answers
  · refine .inl (List.forall_mem_append.mpr ⟨?_, by simp [Sendable]⟩)
    generalize session.currentRoom = currentRoom
    have departed := leaveCurrentRoom_departed core client currentRoom
    generalize leaveCurrentRoom core client currentRoom = left at departed ⊢
    cases departed with
    | nowhere => exact List.forall_mem_nil _
    | failed => exact List.forall_mem_nil _
    | left id room next events => exact dispatchOutgoing_sendable events

end ClientSession

namespace ServerState

section Steps

variable {state : ServerState} {client : ClientId} {before after : ClientSession}

theorem SessionStep.answers (step : SessionStep state client before after)
    (answers : before.Answers) : after.Answers := by
  cases step with
  | posted => exact answers.congr rfl
  | started => exact answers.congr (ClientSession.doReadLine_rest _)
  | pushed => exact answers.congr (ClientSession.push_rest _ _)
  | stopped => exact ClientSession.stopImpl_answers (answers.congr rfl)
  | read request now handled idle isReading served =>
      rcases served.sendable_or with all | ⟨error, steps, unreadable⟩
      · exact .inl (List.forall_mem_append.mpr ⟨all, by simp [Sendable]⟩)
      · exact .inr ⟨error, by rw [steps], unreadable⟩
  | readFailed => exact ClientSession.stopImpl_answers (answers.congr rfl)
  | wrote => exact answers.congr (ClientSession.onWrite_rest _)
  | writeFailed => exact ClientSession.stopImpl_answers (answers.congr rfl)
  | acted first later running sendable => exact .inl (answers.advance running sendable)
  | readAgain later running =>
      refine .inl ?_
      rw [ClientSession.doReadLine_rest]
      exact answers.advance running trivial

theorem SessionStep.writable (step : SessionStep state client before after)
    (writable : ∀ message ∈ before.trail, message.Writable) :
    ∀ message ∈ after.trail, message.Writable := by
  cases step with
  | posted task notStart isWritable =>
      intro message member
      rw [ClientSession.trail, List.filterMap_append, ← List.append_assoc,
        List.mem_append] at member
      rcases member with earlier | isPosted
      · exact writable message earlier
      · rcases List.mem_filterMap.mp isPosted with ⟨other, isTask, isMessage⟩
        cases List.mem_singleton.mp isTask
        cases task with
        | push text =>
            cases isMessage
            exact isWritable message rfl
        | _ => cases isMessage
  | started tasks idle front =>
      have same : (ClientSession.doReadLine { before with strand := tasks }).trail =
          before.trail := by
        rw [ClientSession.doReadLine_trail, ClientSession.trail, ClientSession.trail, front]
        rfl
      rw [same]
      exact writable
  | pushed message tasks idle front =>
      have same : (ClientSession.push { before with strand := tasks } message).trail =
          before.trail := by
        rw [ClientSession.push_trail, ClientSession.trail, front]
        rfl
      rw [same]
      exact writable
  | stopped tasks idle front =>
      have same : ClientSession.trail { before with strand := tasks } = before.trail := by
        rw [ClientSession.trail, ClientSession.trail, front]
        rfl
      rw [ClientSession.stopImpl_trail, same]
      exact writable
  | read => exact writable
  | readFailed =>
      rw [ClientSession.stopImpl_trail]
      exact writable
  | wrote =>
      rw [ClientSession.onWrite_trail]
      exact writable
  | writeFailed =>
      rw [ClientSession.stopImpl_trail]
      exact writable
  | acted => exact writable
  | readAgain =>
      rw [ClientSession.doReadLine_trail]
      exact writable

end Steps

def Answering (state : ServerState) : Prop :=
  ∀ client session, state.sessions.lookup client = some session → session.Answers

theorem step_answering (state : ServerState) (action : Action) (next : ServerState)
    (stepped : system.step state action = some next) (answering : state.Answering) :
    next.Answering :=
  step_sessions (.inl nofun) SessionStep.answers stepped answering

theorem Answering.thrown {state : ServerState} (answering : state.Answering)
    {client : ClientId} {session : ClientSession}
    (found : state.sessions.lookup client = some session) {first : HandlerStep}
    {later : List HandlerStep} (running : session.rest = first :: later)
    (throws : ¬ Sendable first) : session.Thrown := by
  rcases answering client session found with all | thrown
  · rw [running] at all
    exact absurd (all first List.mem_cons_self) throws
  · exact thrown

section Runs

variable {Allowed : ServerState → Action → Prop}
  {sink : Option (List PersistedBoardSnapshot)} {actions : List Action}
  {final : ServerState} (runs : system.Runs Allowed (start sink) actions final)

include runs

theorem runs_answering : final.Answering :=
  runs.invariant (fun state action next _ => step_answering state action next) nofun

theorem runs_writable {client : ClientId} {session : ClientSession}
    (found : final.sessions.lookup client = some session) :
    ∀ message ∈ session.queued, message.Writable := by
  have writable : ∀ message ∈ session.trail, message.Writable :=
    runs_sessions nofun SessionStep.writable runs found
  exact fun message member => writable message (List.mem_append_left _ member)

end Runs

/-! ## Whole handlers -/

section Handlers

variable {state : ServerState} {client : ClientId} {session : ClientSession}

theorem post_rest (found : state.sessions.lookup client = some session) (other : ClientId)
    (task : Task) :
    ∃ after, (state.post other task).sessions.lookup client = some after ∧
      after.rest = session.rest := by
  unfold post
  cases isOther : state.sessions.lookup other with
  | none => exact ⟨session, found, rfl⟩
  | some target =>
      simp only [putSession, UnorderedMap.lookup_insert_eq]
      split
      next same =>
        rw [← same, found] at isOther
        cases isOther
        exact ⟨_, rfl, rfl⟩
      next => exact ⟨session, found, rfl⟩

private theorem perform_rest (state : ServerState) (client : ClientId)
    (session : ClientSession)
    (step : HandlerStep) :
    ∃ after, (state.perform client session step).sessions.lookup client = some after ∧
      after.rest = session.rest := by
  have found : (state.putSession client session).sessions.lookup client = some session :=
    AList.lookup_insert state.sessions
  cases step with
  | deliver message => exact post_rest found client (.push message)
  | forward event =>
      simp only [perform]
      split
      · exact post_rest found event.recipient _
      · exact ⟨session, found, rfl⟩
  | remove => exact ⟨session, found, rfl⟩
  | doReadLine =>
      exact ⟨session.doReadLine, AList.lookup_insert state.sessions,
        session.doReadLine_rest⟩

/-- A handler that is left to itself gets to its end exactly if no step of it throws. -/
theorem acts_iff (found : state.sessions.lookup client = some session)
    {steps : List HandlerStep} (running : session.rest = steps) :
    (∀ step ∈ steps, Sendable step) ↔
      ∃ final, system.Runs StepSystem.Any state
        (List.replicate steps.length (.act client)) final := by
  induction steps generalizing state session with
  | nil => exact iff_of_true nofun ⟨state, .nil _⟩
  | cons first later induction =>
      rcases perform_rest state client { session with rest := later } first with
        ⟨after, isAfter, isLater⟩
      rw [List.forall_mem_cons, induction isAfter isLater]
      constructor
      · rintro ⟨sendable, final, runs⟩
        have stepped : system.step state (.act client) =
            some (state.perform client { session with rest := later } first) := by
          simp only [system, step, found, Option.bind_some, running, if_pos sendable]
        exact ⟨final, .cons trivial stepped runs⟩
      · rintro ⟨final, runs⟩
        cases runs with
        | @cons _ middle _ _ _ _ stepped runs =>
            have acted : state.step (.act client) = some middle := stepped
            cases step_cases acted with
            | act _ other next rest isFound isRunning sendable =>
                rw [found] at isFound
                cases isFound
                rw [running] at isRunning
                cases isRunning
                exact ⟨sendable, final, runs⟩

end Handlers

/-- The handler of a line gets to its end in the server exactly if `handleLine` completes
without an exception. -/
theorem handleLine_runs {library : JsonLibrary} (lawful : library.Lawful)
    {state : ServerState} {client : ClientId} {session : ClientSession}
    (found : state.sessions.lookup client = some session) (idle : session.rest = [])
    (isReading : session.reading = true) (now : TimePoint) (line : ByteString) :
    (handleLine library state.registry state.core client session.currentRoom now
        line).isSome = true ↔
      ∃ final, system.Runs StepSystem.Any state
        (.readLine client (parseClientMessage library line) now ::
          List.replicate ((handleParsed state.core client session.currentRoom now
            (parseClientMessage library line)).steps.length + 1) (.act client)) final := by
  generalize isRequest : parseClientMessage library line = request
  generalize isHandled : handleParsed state.core client session.currentRoom now request =
    handled
  have completes : (handleLine library state.registry state.core client session.currentRoom
      now line).isSome = true ↔ ∀ step ∈ handled.steps, Sendable step := by
    rw [handleLine, Option.isSome_map, postedLines_isSome lawful, isRequest, isHandled]
  have isIdle := idleSession_eq_some.mpr ⟨found, idle⟩
  have stepped : system.step state (.readLine client request now) =
      some (state.readLine client session request now) := by
    simp only [system, step, isIdle, Option.filter_some, isReading, if_true,
      Option.map_some]
  have handling : (state.readLine client session request now).sessions.lookup client =
      some { session with
        reading := false
        currentRoom := handled.currentRoom
        rest := handled.steps ++ [HandlerStep.doReadLine] } := by
    rw [← isHandled]
    exact AList.lookup_insert state.sessions
  have acts := acts_iff handling rfl
  have last : ∀ step ∈ [HandlerStep.doReadLine], Sendable step := by simp [Sendable]
  rw [List.forall_mem_append, and_iff_left last, List.length_append] at acts
  rw [completes, acts]
  constructor
  · rintro ⟨final, runs⟩
    exact ⟨final, .cons trivial stepped runs⟩
  · rintro ⟨final, runs⟩
    cases runs with
    | cons _ isStep runs =>
        rw [stepped] at isStep
        cases isStep
        exact ⟨final, runs⟩

end ServerState

end ClearSpace.Server
