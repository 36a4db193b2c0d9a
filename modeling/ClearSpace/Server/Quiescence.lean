import ClearSpace.Foundation.Progress
import ClearSpace.Server.Exceptions
import ClearSpace.Server.SessionLife
import ClearSpace.Server.WriteQueue

/-! # The server comes to rest

Between two lines of its clients the server has only so much to do: no event
causes another one, and every post ends up in a queue that is written out. When
it has done all of it, every session that was not stopped waits for its next line
and owes its client nothing, unless an exception has ended the program. -/

namespace ClearSpace.Server

open ClearSpace.Core ClearSpace.Transport

def Task.load : Task → Nat
  | .start => 1
  | .push _ => 3
  | .stop => 1

namespace ClientSession

def live (session : ClientSession) : Nat := if session.stopped then 0 else 1

/-- What there is to do before the session is at rest. A step of a handler may
post a body, a body may queue a line and a line may start a write. -/
def load (session : ClientSession) : Nat :=
  4 * session.rest.length + (session.strand.map Task.load).sum +
    session.writeQueue.length + session.writing.toNat

/-- Nothing is left to do for the session. A session that was not stopped is
registered, reads and has written everything; a stopped one is gone. -/
structure AtRest (session : ClientSession) (registered : Prop) : Prop where
  strand : session.strand = []
  rest : session.rest = []
  writing : session.writing = false
  running : session.stopped = false →
    session.reading = true ∧ registered ∧ session.writeQueue = []
  stopped : session.stopped = true → ¬ registered

end ClientSession

namespace ServerState

/-- The steps that the server makes on its own: everything but a new connection, a
call of `stop` and what arrives from a client. -/
def Action.internal : Action → Bool
  | .runTask _ => true
  | .writeDone _ => true
  | .writeError _ => true
  | .act _ => true
  | _ => false

/-- Stopping a session may cause any number of steps, but happens once. -/
def distance (state : ServerState) : Nat × Nat :=
  (UnorderedMap.total ClientSession.live state.sessions,
    UnorderedMap.total ClientSession.load state.sessions)

/-- Fewer sessions run, or as many with less to do. -/
def Closer : Nat × Nat → Nat × Nat → Prop := Prod.Lex (· < ·) (· < ·)

private theorem closer_wellFounded : WellFounded Closer :=
  WellFounded.prod_lex Nat.lt_wfRel.wf Nat.lt_wfRel.wf

/-! ## Steps -/

section Sessions

variable {session : ClientSession}

theorem doReadLine_weights (session : ClientSession) :
    session.doReadLine.live = session.live ∧ session.doReadLine.load = session.load := by
  unfold ClientSession.doReadLine
  split <;> exact ⟨rfl, rfl⟩

theorem doWrite_live (session : ClientSession) :
    session.doWrite.live = session.live := by
  unfold ClientSession.doWrite
  split <;> rfl

theorem doWrite_load_le (session : ClientSession) :
    session.doWrite.load ≤ session.load + 1 := by
  unfold ClientSession.doWrite
  split
  · exact Nat.le_succ _
  · simp only [ClientSession.load, Bool.toNat_true]
    omega

private theorem push_weights (session : ClientSession) (message : ServerMessage) :
    (session.push message).live = session.live ∧
      (session.push message).load ≤ session.load + 2 := by
  have queued : ClientSession.load { session with
      writeQueue := session.writeQueue ++ [message]
      queued := session.queued ++ [message] } = session.load + 1 := by
    simp only [ClientSession.load, List.length_append, List.length_singleton]
    omega
  simp only [ClientSession.push]
  split
  · rw [doWrite_live]
    refine ⟨rfl, (doWrite_load_le _).trans ?_⟩
    omega
  · refine ⟨rfl, ?_⟩
    omega

private theorem onWrite_weights (isWriting : session.writing = true) :
    session.onWrite.live = session.live ∧ session.onWrite.load < session.load := by
  simp only [ClientSession.onWrite]
  cases isQueue : session.writeQueue with
  | nil =>
      refine ⟨rfl, ?_⟩
      simp [ClientSession.load, isQueue, isWriting]
  | cons front rest =>
      have popped : ClientSession.load { session with writing := false, writeQueue := rest } +
          2 = session.load := by
        simp only [ClientSession.load, isQueue, isWriting, List.length_cons,
          Bool.toNat_true, Bool.toNat_false]
        omega
      split
      · refine ⟨rfl, ?_⟩
        simp only [List.tail_cons]
        omega
      · rw [doWrite_live]
        refine ⟨rfl, Nat.lt_of_le_of_lt (doWrite_load_le _) ?_⟩
        simp only [List.tail_cons]
        omega

private theorem stopImpl_weights (core : ServerCore) (client : ClientId)
    (session : ClientSession) :
    (stopImpl core client session).2.live < session.live ∨
      (stopImpl core client session).2 = session := by
  unfold stopImpl
  split
  · exact .inr rfl
  next running =>
    left
    simp [ClientSession.live, running]

end Sessions

section Steps

variable {state next : ServerState} {client : ClientId} {session changed : ClientSession}

theorem total_putSession (found : state.sessions.lookup client = some session)
    (weight : ClientSession → Nat) (changed : ClientSession) :
    UnorderedMap.total weight (state.putSession client changed).sessions + weight session =
      UnorderedMap.total weight state.sessions + weight changed :=
  UnorderedMap.total_insert found weight changed

theorem closer_putSession (found : state.sessions.lookup client = some session)
    (less : changed.live < session.live ∨
      changed.live = session.live ∧ changed.load < session.load) :
    Closer (state.putSession client changed).distance state.distance := by
  have lives := total_putSession found ClientSession.live changed
  have loads := total_putSession found ClientSession.load changed
  rcases less with fewer | ⟨same, lighter⟩
  · exact .left _ _ (by omega)
  · have sameTotal : UnorderedMap.total ClientSession.live
        (state.putSession client changed).sessions =
          UnorderedMap.total ClientSession.live state.sessions := by
      omega
    rw [distance, distance, sameTotal]
    exact .right _ (by omega)

private theorem post_totals (state : ServerState) (client : ClientId) (task : Task) :
    UnorderedMap.total ClientSession.live (state.post client task).sessions =
        UnorderedMap.total ClientSession.live state.sessions ∧
      UnorderedMap.total ClientSession.load (state.post client task).sessions ≤
        UnorderedMap.total ClientSession.load state.sessions + task.load := by
  unfold ServerState.post
  split
  · exact ⟨rfl, Nat.le_add_right ..⟩
  next session found =>
    have lives := total_putSession found ClientSession.live
      { session with strand := session.strand ++ [task] }
    have loads := total_putSession found ClientSession.load
      { session with strand := session.strand ++ [task] }
    have posted : ClientSession.load { session with strand := session.strand ++ [task] } =
        session.load + task.load := by
      simp only [ClientSession.load, List.map_append, List.sum_append, List.map_cons,
        List.map_nil, List.sum_cons, List.sum_nil]
      omega
    have sameLive : ClientSession.live { session with strand := session.strand ++ [task] } =
        session.live := rfl
    omega

theorem closer_stopSession (found : state.sessions.lookup client = some session)
    (same : changed.live = session.live) (lighter : changed.load < session.load) :
    Closer (state.stopSession client changed).distance state.distance := by
  apply closer_putSession found
  rcases stopImpl_weights state.core client changed with fewer | unchanged
  · left
    rw [← same]
    exact fewer
  · right
    rw [unchanged]
    exact ⟨same, lighter⟩

private theorem closer_runTask (found : state.sessions.lookup client = some session)
    {task : Task}
    {tasks : List Task} (front : session.strand = task :: tasks) :
    Closer (state.runTask client { session with strand := tasks } task).distance
      state.distance := by
  have popped : ClientSession.load { session with strand := tasks } + task.load =
      session.load := by
    simp only [ClientSession.load, front, List.map_cons, List.sum_cons]
    omega
  have sameLive : ClientSession.live { session with strand := tasks } = session.live := rfl
  cases task with
  | start =>
      change _ + 1 = _ at popped
      have weights := doReadLine_weights { session with strand := tasks }
      apply closer_putSession found
      right
      omega
  | push message =>
      change _ + 3 = _ at popped
      have weights := push_weights { session with strand := tasks } message
      apply closer_putSession found
      right
      omega
  | stop =>
      change _ + 1 = _ at popped
      exact closer_stopSession found sameLive (by omega)

private theorem closer_perform (found : state.sessions.lookup client = some session)
    {first : HandlerStep} {later : List HandlerStep}
    (running : session.rest = first :: later) :
    Closer (state.perform client { session with rest := later } first).distance
      state.distance := by
  have popped : ClientSession.load { session with rest := later } + 4 = session.load := by
    simp only [ClientSession.load, running, List.length_cons]
    omega
  have sameLive : ClientSession.live { session with rest := later } = session.live := rfl
  have put : Closer (state.putSession client { session with rest := later }).distance
      state.distance :=
    closer_putSession found (.inr ⟨rfl, by omega⟩)
  have lives := total_putSession found ClientSession.live { session with rest := later }
  have loads := total_putSession found ClientSession.load { session with rest := later }
  -- the body that is posted weighs less than the step that posts it
  have post : ∀ recipient message, Closer
      ((state.putSession client { session with rest := later }).post recipient
        (.push message)).distance state.distance := by
    intro recipient message
    have totals := post_totals (state.putSession client { session with rest := later })
      recipient (.push message)
    have weight : (Task.push message).load = 3 := rfl
    have sameTotal : UnorderedMap.total ClientSession.live
        ((state.putSession client { session with rest := later }).post recipient
          (.push message)).sessions =
        UnorderedMap.total ClientSession.live state.sessions := by
      omega
    rw [distance, distance, sameTotal]
    exact .right _ (by omega)
  cases first with
  | deliver message => exact post client message
  | forward event =>
      rw [perform]
      split
      · exact post _ _
      · exact put
  | remove => exact put
  | doReadLine =>
      have weights := doReadLine_weights { session with rest := later }
      apply closer_putSession found
      right
      omega

private theorem step_closer {action : Action} (isInternal : action.internal = true)
    (stepped : state.step action = some next) : Closer next.distance state.distance := by
  cases step_cases stepped with
  | accept => cases isInternal
  | stop => cases isInternal
  | readLine => cases isInternal
  | readError => cases isInternal
  | runTask client session task tasks found idle front => exact closer_runTask found front
  | writeDone client session found idle isWriting =>
      exact closer_putSession found (.inr (onWrite_weights isWriting))
  | writeError client session found idle isWriting =>
      refine closer_stopSession found rfl ?_
      simp [ClientSession.load, isWriting]
  | act client session first later found running => exact closer_perform found running

end Steps

/-! ## Rest -/

/-- A queue that nobody writes out is empty, unless the session was stopped. -/
theorem writeQueue_eq_nil {session : ClientSession} (queues : session.Queues)
    (running : session.stopped = false) (idle : session.writing = false) :
    session.writeQueue = [] := by
  rcases queues with ⟨actions, queue, runs, writes⟩
  have orderly := WriteQueue.runs_orderly runs WriteQueue.orderly_empty
  have sameQueue : session.writeQueue = queue.writeQueue.map QueuedLine.line :=
    congrArg SessionWrites.writeQueue writes
  have sameStopped : session.stopped = queue.stopped :=
    congrArg SessionWrites.stopped writes
  have sameWriting : session.writing = !queue.outstanding.isEmpty :=
    congrArg SessionWrites.writing writes
  have none : queue.outstanding = [] := by
    rw [idle] at sameWriting
    simpa using sameWriting
  have empty : queue.writeQueue = [] := by
    by_contra more
    exact orderly.busy (sameStopped.symm.trans running) more none
  rw [sameQueue, empty]
  rfl

/-- The server has nothing more to do on its own. -/
def Blocked (state : ServerState) : Prop :=
  ∀ action, action.internal = true → state.step action = none

theorem Blocked.throws {state : ServerState} (blocked : state.Blocked) {client : ClientId}
    {session : ClientSession} (found : state.sessions.lookup client = some session)
    {first : HandlerStep} {later : List HandlerStep}
    (running : session.rest = first :: later) : ¬ Sendable first := by
  intro sendable
  have stuck := blocked (.act client) rfl
  simp only [step, found, Option.bind_some, running, if_pos sendable] at stuck
  cases stuck

theorem Blocked.atRest {state : ServerState} (blocked : state.Blocked)
    (alive : state.Alive) (queues : state.QueuesLines) {client : ClientId}
    {session : ClientSession} (found : state.sessions.lookup client = some session)
    (rest : session.rest = []) : session.AtRest (client ∈ state.registry) := by
  have lives := alive.lives client session found
  have idle : state.idleSession client = some session :=
    idleSession_eq_some.mpr ⟨found, rest⟩
  have strand : session.strand = [] := by
    cases front : session.strand with
    | nil => rfl
    | cons task tasks =>
        have stuck := blocked (.runTask client) rfl
        simp only [step, idle, Option.bind_some, front] at stuck
        cases stuck
  have writing : session.writing = false := by
    by_contra isWriting
    have stuck := blocked (.writeDone client) rfl
    simp only [step, idle, Option.filter_some, Bool.eq_true_of_not_eq_false isWriting,
      if_true] at stuck
    cases stuck
  refine ⟨strand, rest, writing, ?_, ?_⟩
  · intro running
    have reads := lives.reading running
    refine ⟨?_, lives.registration.mpr (.inl running),
      writeQueue_eq_nil (queues client session found) running writing⟩
    by_contra notReading
    simp [ClientSession.reads, strand, rest, notReading] at reads
  · intro isStopped registered
    rcases lives.registration.mp registered with running | removes
    · rw [isStopped] at running
      cases running
    · rw [rest] at removes
      cases removes

/-! ## Runs -/

/-- From wherever the server has got to, it cannot keep itself busy for ever
without new input, and however its threads are scheduled, when it has done what
there was to do every session is at rest, or its handler has thrown. -/
theorem server_quiesces {sink : Option (List PersistedBoardSnapshot)}
    {actions : List Action} {state : ServerState}
    (runs : system.Runs StepSystem.Any (start sink) actions state) :
    (¬ ∃ path : Nat → ServerState, path 0 = state ∧ ∀ time, ∃ action : Action,
      action.internal = true ∧ (path time).step action = some (path (time + 1))) ∧
    ∀ rest final, system.Runs (fun _ action => action.internal = true) state rest final →
      final.Blocked → ∀ client session, final.sessions.lookup client = some session →
        session.AtRest (client ∈ final.registry) ∨ session.Thrown := by
  constructor
  · rintro ⟨path, _, goesOn⟩
    have stops : ¬ ∀ time, ∃ action : Action, action.internal = true ∧
        system.step (path time) action = some (path (time + 1)) :=
      StepSystem.no_infinite_run closer_wellFounded distance
        (fun _ _ _ isInternal stepped => step_closer isInternal stepped) path
    exact stops goesOn
  · intro rest final continues blocked client session found
    have alive : final.Alive :=
      continues.invariant (fun state action next _ => step_alive state action next)
        (runs_alive runs)
    have queues : final.QueuesLines :=
      continues.invariant
        (fun state action next _ => step_queuesLines state action next trivial)
        (runs_queuesLines runs)
    cases running : session.rest with
    | nil => exact .inl (blocked.atRest alive queues found running)
    | cons first later =>
        have answering : final.Answering :=
          continues.invariant
            (fun state action next _ => step_answering state action next)
            (runs_answering runs)
        exact .inr (answering.thrown found running (blocked.throws found running))

/-- Client 2 draws, and client 1 is stopped before it has been told. -/
def inTheMiddle : List Action :=
  [.accept, .accept, .runTask 1, .runTask 2,
    .readLine 1 (.ok .createRoomRequest) 0, .act 1, .act 1, .runTask 1,
    .readLine 1 (.ok (.joinRoomRequest 1)) 0, .act 1, .act 1,
    .readLine 2 (.ok (.joinRoomRequest 1)) 0, .act 2, .act 2, .runTask 2,
    .readLine 2 (.ok (.eventRequest 1 (.strokeBegin 1 0 ⟨0, 0⟩))) 5, .stop 1]

theorem server_quiesces_inTheMiddle :
    ∃ state, system.Runs StepSystem.Any (start none) inTheMiddle state ∧
      (¬ ∃ path : Nat → ServerState, path 0 = state ∧ ∀ time, ∃ action : Action,
        action.internal = true ∧ (path time).step action = some (path (time + 1))) ∧
      ∀ rest final,
        system.Runs (fun _ action => action.internal = true) state rest final →
        final.Blocked → ∀ client session, final.sessions.lookup client = some session →
          session.AtRest (client ∈ final.registry) ∨ session.Thrown := by
  have computed : (system.execute StepSystem.unchecked (start none)
      inTheMiddle).isSome = true := by
    decide
  rcases Option.isSome_iff_exists.mp computed with ⟨state, executed⟩
  have runs := StepSystem.runs_of_unchecked executed
  exact ⟨state, runs, server_quiesces runs⟩

end ServerState

end ClearSpace.Server
