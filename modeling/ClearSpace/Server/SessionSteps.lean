import ClearSpace.Server.Concurrency
import Mathlib.Logic.Relation

/-! # One session at a time

What a step of the server does to a single session, whoever takes it. A property of
sessions that these changes keep holds of all sessions in every run. -/

namespace ClearSpace.Server

open ClearSpace.Core ClearSpace.Transport Relation

namespace ServerState

inductive SessionStep (state : ServerState) (client : ClientId) :
    ClientSession → ClientSession → Prop
  | posted (session : ClientSession) (task : Task) (notStart : task ≠ .start)
      (writable : ∀ message, task = .push message → message.Writable) :
      SessionStep state client session { session with strand := session.strand ++ [task] }
  | started (session : ClientSession) (tasks : List Task) (idle : session.rest = [])
      (front : session.strand = .start :: tasks) :
      SessionStep state client session
        (ClientSession.doReadLine { session with strand := tasks })
  | pushed (session : ClientSession) (message : ServerMessage) (tasks : List Task)
      (idle : session.rest = []) (front : session.strand = .push message :: tasks) :
      SessionStep state client session
        (ClientSession.push { session with strand := tasks } message)
  | stopped (session : ClientSession) (tasks : List Task) (idle : session.rest = [])
      (front : session.strand = .stop :: tasks) :
      SessionStep state client session
        (stopImpl state.core client { session with strand := tasks }).2
  | read (session : ClientSession) (request : Except ProtocolError ClientMessage)
      (now : TimePoint) (handled : Handled) (idle : session.rest = [])
      (isReading : session.reading = true)
      (served : Served state.core client session.currentRoom now request handled) :
      SessionStep state client session
        { session with
          reading := false
          currentRoom := handled.currentRoom
          rest := handled.steps ++ [HandlerStep.doReadLine] }
  | readFailed (session : ClientSession) (idle : session.rest = [])
      (isReading : session.reading = true) :
      SessionStep state client session
        (stopImpl state.core client { session with reading := false }).2
  | wrote (session : ClientSession) (idle : session.rest = [])
      (isWriting : session.writing = true) :
      SessionStep state client session session.onWrite
  | writeFailed (session : ClientSession) (idle : session.rest = [])
      (isWriting : session.writing = true) :
      SessionStep state client session
        (stopImpl state.core client { session with writing := false }).2
  | acted (session : ClientSession) (first : HandlerStep) (later : List HandlerStep)
      (running : session.rest = first :: later) (sendable : Sendable first) :
      SessionStep state client session { session with rest := later }
  | readAgain (session : ClientSession) (later : List HandlerStep)
      (running : session.rest = .doReadLine :: later) :
      SessionStep state client session
        (ClientSession.doReadLine { session with rest := later })

abbrev SessionSteps (state : ServerState) (client : ClientId) :
    ClientSession → ClientSession → Prop :=
  ReflTransGen (SessionStep state client)

/-- Every session has come from one that was there before. -/
def Evolves (state next : ServerState) : Prop :=
  ∀ client after, next.sessions.lookup client = some after →
    ∃ before, state.sessions.lookup client = some before ∧
      SessionSteps state client before after

section Steps

variable {state middle next : ServerState} {client : ClientId}
  {session before : ClientSession}

theorem Evolves.putSession (evolves : state.Evolves middle)
    (found : state.sessions.lookup client = some before)
    (steps : SessionSteps state client before session) :
    state.Evolves (middle.putSession client session) := by
  intro other after isAfter
  change (middle.sessions.insert client session).lookup other = some after at isAfter
  rw [UnorderedMap.lookup_insert_eq] at isAfter
  split at isAfter
  next isClient =>
    cases isAfter
    subst isClient
    exact ⟨before, found, steps⟩
  next => exact evolves other after isAfter

theorem Evolves.post (evolves : state.Evolves middle) (client : ClientId) {task : Task}
    (notStart : task ≠ .start)
    (writable : ∀ message, task = .push message → message.Writable) :
    state.Evolves (middle.post client task) := by
  unfold ServerState.post
  cases found : middle.sessions.lookup client with
  | none => exact evolves
  | some session =>
      rcases evolves client session found with ⟨before, isBefore, steps⟩
      exact evolves.putSession isBefore
        (steps.tail (.posted session task notStart writable))

theorem evolves_put (found : state.sessions.lookup client = some before)
    (step : SessionStep state client before session) :
    state.Evolves (state.putSession client session) := by
  have unchanged : state.Evolves state := fun _ after isAfter => ⟨after, isAfter, .refl⟩
  exact unchanged.putSession found (.single step)

private theorem event_writable (event : OutgoingEvent) : (toServerMessage event).Writable
    := by
  intro text member
  cases member

private theorem perform_evolves {first : HandlerStep} {later : List HandlerStep}
    (found : state.sessions.lookup client = some session)
    (running : session.rest = first :: later) (sendable : Sendable first) :
    state.Evolves (state.perform client { session with rest := later } first) := by
  have advanced := evolves_put found (.acted session first later running sendable)
  cases first with
  | deliver message =>
      refine advanced.post client (by simp) ?_
      rintro other ⟨⟩
      exact sendable
  | forward event =>
      simp only [perform]
      split
      · refine advanced.post event.recipient (by simp) ?_
        rintro other ⟨⟩
        exact event_writable event
      · exact advanced
  | remove => exact advanced
  | doReadLine => exact evolves_put found (.readAgain session later running)

private theorem step_evolves {action : Action} (stepped : state.step action = some next) :
    next.sessions = state.sessions.insert state.nextClientId { strand := [.start] } ∧
        action = .accept ∨
      state.Evolves next := by
  cases step_cases stepped with
  | accept => exact .inl ⟨rfl, rfl⟩
  | stop client session found =>
      have unchanged : state.Evolves state :=
        fun _ after isAfter => ⟨after, isAfter, .refl⟩
      exact .inr (unchanged.post client (by simp) nofun)
  | runTask client session task tasks found idle front =>
      cases task with
      | start => exact .inr (evolves_put found (.started session tasks idle front))
      | push message =>
          exact .inr (evolves_put found (.pushed session message tasks idle front))
      | stop => exact .inr (evolves_put found (.stopped session tasks idle front))
  | readLine client session request now found idle isReading =>
      exact .inr (evolves_put found
        (.read session request now _ idle isReading (handleParsed_served request)))
  | readError client session found idle isReading =>
      exact .inr (evolves_put found (.readFailed session idle isReading))
  | writeDone client session found idle isWriting =>
      exact .inr (evolves_put found (.wrote session idle isWriting))
  | writeError client session found idle isWriting =>
      exact .inr (evolves_put found (.writeFailed session idle isWriting))
  | act client session first later found running sendable =>
      exact .inr (perform_evolves found running sendable)

/-- What holds of a fresh session and is kept by every change holds of all sessions. -/
theorem step_sessions {Holds : ClientSession → Prop} (fresh : Holds { strand := [.start] })
    (kept : ∀ {client before after}, SessionStep state client before after →
      Holds before → Holds after)
    {action : Action} (stepped : state.step action = some next)
    (holds : ∀ client session, state.sessions.lookup client = some session →
      Holds session) :
    ∀ client session, next.sessions.lookup client = some session → Holds session := by
  intro client session found
  rcases step_evolves stepped with ⟨accepted, _⟩ | evolves
  · rw [accepted, UnorderedMap.lookup_insert_eq] at found
    split at found
    · cases found
      exact fresh
    · exact holds client session found
  · rcases evolves client session found with ⟨before, isBefore, steps⟩
    have isHeld := holds client before isBefore
    clear isBefore found
    induction steps with
    | refl => exact isHeld
    | tail _ step induction => exact kept step induction

end Steps

theorem runs_sessions {Holds : ClientSession → Prop} (fresh : Holds { strand := [.start] })
    (kept : ∀ {state client before after}, SessionStep state client before after →
      Holds before → Holds after)
    {Allowed : ServerState → Action → Prop} {sink : Option (List PersistedBoardSnapshot)}
    {actions : List Action} {final : ServerState}
    (runs : system.Runs Allowed (start sink) actions final) {client : ClientId}
    {session : ClientSession} (found : final.sessions.lookup client = some session) :
    Holds session := by
  have holds : ∀ client session, final.sessions.lookup client = some session →
      Holds session := by
    apply runs.invariant
    · intro state action next _ stepped
      exact step_sessions fresh kept stepped
    · exact nofun
  exact holds client session found

end ServerState

end ClearSpace.Server
