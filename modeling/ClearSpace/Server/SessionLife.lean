import ClearSpace.Foundation.Projection
import ClearSpace.Server.Concurrency

/-! # The life of a session

A session reads one line at a time for as long as it is not stopped, and it is
registered from its first read to the end of its `stopImpl`. All that time some
handler holds it, so the weak pointers of the registry never expire. -/

namespace ClearSpace.Server

open ClearSpace.Core ClearSpace.Transport

/-! ## What handlers leave to do -/

def HandlerStep.posts : HandlerStep → Bool
  | .deliver _ => true
  | .forward _ => true
  | .remove => false
  | .doReadLine => false

def OnlyPosts (steps : List HandlerStep) : Prop := ∀ next ∈ steps, next.posts = true

theorem onlyPosts_reply (message : ServerMessage) :
    OnlyPosts [.deliver message] := by
  simp [OnlyPosts, HandlerStep.posts]

theorem onlyPosts_dispatchOutgoing (events : List OutgoingEvent) :
    OnlyPosts (dispatchOutgoing events) := by
  intro next member
  rcases List.mem_map.mp member with ⟨event, _, rfl⟩
  rfl

theorem OnlyPosts.append {front back : List HandlerStep} (frontPosts : OnlyPosts front)
    (backPosts : OnlyPosts back) : OnlyPosts (front ++ back) := by
  intro next member
  rcases List.mem_append.mp member with inFront | inBack
  · exact frontPosts next inFront
  · exact backPosts next inBack

theorem OnlyPosts.not_mem {steps : List HandlerStep} (onlyPosts : OnlyPosts steps)
    {next : HandlerStep} (notPost : next.posts = false) : next ∉ steps := by
  intro member
  rw [onlyPosts next member] at notPost
  cases notPost

theorem Served.onlyPosts {core : ServerCore} {client : ClientId}
    {currentRoom : Option RoomId} {now : TimePoint}
    {request : Except ProtocolError ClientMessage} {handled : Handled}
    (served : Served core client currentRoom now request handled) :
    OnlyPosts handled.steps := by
  cases served with
  | left id room next events =>
      exact (onlyPosts_dispatchOutgoing events).append (onlyPosts_reply _)
  | applied id request event room next events => exact onlyPosts_dispatchOutgoing events
  | _ => exact onlyPosts_reply _

theorem Departed.onlyPosts {core : ServerCore} {client : ClientId}
    {currentRoom : Option RoomId} {left : ServerCore × List HandlerStep}
    (departed : Departed core client currentRoom left) : OnlyPosts left.2 := by
  cases departed with
  | nowhere => exact nofun
  | failed => exact nofun
  | left id room next events => exact onlyPosts_dispatchOutgoing events

/-! ## One session -/

namespace ClientSession

/-- The read that is outstanding and those that are about to be started. -/
def reads (session : ClientSession) : Nat :=
  session.reading.toNat + session.strand.count .start + session.rest.count .doReadLine

/-- Whether anything holds the session: an outstanding read or write, a posted
body or the handler that runs. -/
def alive (session : ClientSession) : Bool :=
  session.reading || session.writing || !session.strand.isEmpty ||
    !session.rest.isEmpty

structure Lives (session : ClientSession) (registered : Prop) : Prop where
  once : session.reads ≤ 1
  reading : session.stopped = false → session.reads = 1
  registration : registered ↔ session.stopped = false ∨ .remove ∈ session.rest
  removing : .remove ∈ session.rest → session.stopped = true
  removesOnce : session.rest.count .remove ≤ 1

variable {session : ClientSession} {registered : Prop}

private theorem alive_of_reads (reads : 0 < session.reads) : session.alive = true := by
  unfold ClientSession.reads at reads
  by_contra dead
  simp only [alive, Bool.not_eq_true, Bool.or_eq_false_iff, Bool.not_eq_false',
    List.isEmpty_iff] at dead
  simp [dead] at reads

theorem Lives.alive (lives : session.Lives registered) (isRegistered : registered) :
    session.alive = true := by
  rcases lives.registration.mp isRegistered with running | removes
  · exact alive_of_reads (by rw [lives.reading running]; exact Nat.one_pos)
  · have busy : session.rest ≠ [] := List.ne_nil_of_mem removes
    simp [ClientSession.alive, busy]

private theorem fresh_lives : ClientSession.Lives { strand := [.start] } True where
  once := by decide
  reading := by decide
  registration := by decide
  removing := by decide
  removesOnce := by decide

theorem Lives.congr (lives : session.Lives registered) {next : ClientSession}
    (reads : next.reads = session.reads) (stopped : next.stopped = session.stopped)
    (rest : next.rest = session.rest) : next.Lives registered where
  once := by rw [reads]; exact lives.once
  reading := by rw [reads, stopped]; exact lives.reading
  registration := by rw [stopped, rest]; exact lives.registration
  removing := by rw [stopped, rest]; exact lives.removing
  removesOnce := by rw [rest]; exact lives.removesOnce

theorem Lives.post (lives : session.Lives registered) {task : Task}
    (notStart : task ≠ .start) :
    Lives { session with strand := session.strand ++ [task] } registered := by
  refine lives.congr ?_ rfl rfl
  simp [reads, List.count_append, notStart]

theorem doWrite_life (session : ClientSession) :
    session.doWrite.reads = session.reads ∧ session.doWrite.stopped = session.stopped ∧
      session.doWrite.rest = session.rest := by
  unfold doWrite
  split <;> exact ⟨rfl, rfl, rfl⟩

theorem Lives.doWrite (lives : session.Lives registered) :
    session.doWrite.Lives registered :=
  lives.congr session.doWrite_life.1 session.doWrite_life.2.1 session.doWrite_life.2.2

theorem Lives.push (lives : session.Lives registered) (message : ServerMessage) :
    (session.push message).Lives registered := by
  unfold ClientSession.push
  simp only
  split
  · apply Lives.doWrite
    exact lives.congr rfl rfl rfl
  · exact lives.congr rfl rfl rfl

theorem Lives.onWrite (lives : session.Lives registered) :
    session.onWrite.Lives registered := by
  unfold ClientSession.onWrite
  simp only
  split
  · exact lives.congr rfl rfl rfl
  · apply Lives.doWrite
    exact lives.congr rfl rfl rfl

/-- A read that was about to be started is outstanding now, unless the session
was stopped in between. -/
theorem Lives.doReadLine (lives : session.Lives registered) {next : ClientSession}
    (stopped : next.stopped = session.stopped)
    (reads : next.reads + 1 = session.reads) (idle : next.reading = false)
    (removes : HandlerStep.remove ∈ next.rest ↔ .remove ∈ session.rest)
    (removesOnce : next.rest.count .remove ≤ 1) :
    next.doReadLine.Lives registered := by
  have once := lives.once
  unfold ClientSession.doReadLine
  split
  next isStopped =>
    exact {
      once := by omega
      reading := by
        intro running
        rw [isStopped] at running
        cases running
      registration := by rw [stopped, removes]; exact lives.registration
      removing := fun _ => isStopped
      removesOnce := removesOnce }
  next =>
    have more : ClientSession.reads { next with reading := true } = session.reads := by
      rw [← reads]
      simp only [ClientSession.reads, idle, Bool.toNat_true, Bool.toNat_false]
      omega
    exact {
      once := by rw [more]; exact once
      reading := by rw [more]; exact fun running => lives.reading (stopped ▸ running)
      registration := by
        simp only [stopped, removes]
        exact lives.registration
      removing := by
        intro member
        exact stopped.trans (lives.removing (removes.mp member))
      removesOnce := removesOnce }

theorem Lives.start (lives : session.Lives registered) {tasks : List Task}
    (front : session.strand = .start :: tasks) :
    (ClientSession.doReadLine { session with strand := tasks }).Lives registered := by
  have counted : session.reads =
      session.reading.toNat + (tasks.count .start + 1) +
        session.rest.count .doReadLine := by
    rw [reads, front, List.count_cons_self]
  have once := lives.once
  apply lives.doReadLine
  · rfl
  · rw [counted]
    simp only [reads]
    omega
  · cases isReading : session.reading with
    | false => rfl
    | true =>
        rw [isReading, Bool.toNat_true] at counted
        omega
  · exact Iff.rfl
  · exact lives.removesOnce

theorem Lives.pop (lives : session.Lives registered) {task : Task} {tasks : List Task}
    (front : session.strand = task :: tasks) (notStart : task ≠ .start) :
    Lives { session with strand := tasks } registered := by
  refine lives.congr ?_ rfl rfl
  simp [reads, front, notStart]

private theorem stopImpl_lives {core : ServerCore} {client : ClientId}
    (once : session.reads ≤ 1) (idle : session.rest = [])
    (registration : registered ↔ session.stopped = false) :
    (stopImpl core client session).2.Lives registered := by
  unfold stopImpl
  split
  next isStopped =>
    exact {
      once := once
      reading := by
        intro running
        rw [isStopped] at running
        cases running
      registration := by
        simp only [idle, List.not_mem_nil, or_false]
        exact registration
      removing := fun _ => isStopped
      removesOnce := by simp [idle] }
  next running =>
    have onlyPosts := (leaveCurrentRoom_departed core client
      session.currentRoom).onlyPosts
    generalize leaveCurrentRoom core client session.currentRoom = left at onlyPosts ⊢
    have noRead : (left.2 ++ [HandlerStep.remove]).count .doReadLine = 0 := by
      rw [List.count_append, List.count_eq_zero.mpr (onlyPosts.not_mem rfl)]
      rfl
    have oneRemove : (left.2 ++ [HandlerStep.remove]).count .remove = 1 := by
      rw [List.count_append, List.count_eq_zero.mpr (onlyPosts.not_mem rfl)]
      rfl
    have isRegistered : registered := registration.mpr (Bool.eq_false_iff.mpr running)
    exact {
      once := by
        rw [reads, idle] at once
        simp only [reads, noRead]
        exact once
      reading := nofun
      registration := by simp [isRegistered]
      removing := fun _ => rfl
      removesOnce := oneRemove.le }

theorem Lives.handle (lives : session.Lives registered) (idle : session.rest = [])
    (isReading : session.reading = true) {steps : List HandlerStep}
    (onlyPosts : OnlyPosts steps) (currentRoom : Option RoomId) :
    Lives { session with
      reading := false
      currentRoom := currentRoom
      rest := steps ++ [HandlerStep.doReadLine] } registered := by
  have oneRead : (steps ++ [HandlerStep.doReadLine]).count .doReadLine = 1 := by
    rw [List.count_append, List.count_eq_zero.mpr (onlyPosts.not_mem rfl)]
    rfl
  have noRemove : HandlerStep.remove ∉ steps ++ [HandlerStep.doReadLine] := by
    intro member
    rcases List.mem_append.mp member with inSteps | last
    · exact onlyPosts.not_mem rfl inSteps
    · cases List.mem_singleton.mp last
  have same : ClientSession.reads { session with
      reading := false
      currentRoom := currentRoom
      rest := steps ++ [HandlerStep.doReadLine] } = session.reads := by
    simp only [reads, oneRead, isReading, idle, List.count_nil, Bool.toNat_true,
      Bool.toNat_false]
    omega
  have registration := lives.registration
  rw [idle] at registration
  exact {
    once := by rw [same]; exact lives.once
    reading := by rw [same]; exact lives.reading
    registration := by
      rw [registration]
      simp [noRemove]
    removing := fun member => absurd member noRemove
    removesOnce := by simp [List.count_eq_zero.mpr noRemove] }

theorem Lives.advance (lives : session.Lives registered) {next : HandlerStep}
    {later : List HandlerStep} (running : session.rest = next :: later)
    (isPost : next.posts = true) :
    Lives { session with rest := later } registered := by
  have different : ∀ other : HandlerStep, other.posts = false → next ≠ other := by
    rintro other notPost rfl
    rw [isPost] at notPost
    cases notPost
  have sameReads : ClientSession.reads { session with rest := later } =
      session.reads := by
    simp [reads, running, different .doReadLine rfl]
  have sameRemoves : HandlerStep.remove ∈ later ↔ .remove ∈ session.rest := by
    simp [running, (different .remove rfl).symm]
  have removesOnce := lives.removesOnce
  rw [running, List.count_cons_of_ne (different .remove rfl)] at removesOnce
  exact {
    once := by rw [sameReads]; exact lives.once
    reading := by rw [sameReads]; exact lives.reading
    registration := by rw [sameRemoves]; exact lives.registration
    removing := fun member => lives.removing (sameRemoves.mp member)
    removesOnce := removesOnce }

theorem Lives.remove (lives : session.Lives registered) {later : List HandlerStep}
    (running : session.rest = .remove :: later) :
    Lives { session with rest := later } False := by
  have isStopped : session.stopped = true := lives.removing (by simp [running])
  have removesOnce := lives.removesOnce
  rw [running, List.count_cons_self] at removesOnce
  have noMore : HandlerStep.remove ∉ later := List.count_eq_zero.mp (by omega)
  have sameReads : ClientSession.reads { session with rest := later } =
      session.reads := by
    simp [reads, running]
  exact {
    once := by rw [sameReads]; exact lives.once
    reading := by rw [sameReads]; exact lives.reading
    registration := by simp [isStopped, noMore]
    removing := fun _ => isStopped
    removesOnce := (List.count_eq_zero.mpr noMore).trans_le (Nat.zero_le 1) }

theorem Lives.again (lives : session.Lives registered) {later : List HandlerStep}
    (running : session.rest = .doReadLine :: later) :
    (ClientSession.doReadLine { session with rest := later }).Lives registered := by
  have counted : session.reads =
      session.reading.toNat + session.strand.count .start +
        (later.count .doReadLine + 1) := by
    rw [reads, running, List.count_cons_self]
  have once := lives.once
  have removesOnce := lives.removesOnce
  rw [running, List.count_cons_of_ne (by decide)] at removesOnce
  apply lives.doReadLine
  · rfl
  · rw [counted]
    simp only [reads]
    omega
  · cases isReading : session.reading with
    | false => rfl
    | true =>
        rw [isReading, Bool.toNat_true] at counted
        omega
  · simp [running]
  · exact removesOnce

end ClientSession

/-! ## All sessions -/

namespace ServerState

structure Alive (state : ServerState) : Prop where
  lives : ∀ client session, state.sessions.lookup client = some session →
    session.Lives (client ∈ state.registry)
  known : ∀ client, client ∈ state.registry → client ∈ state.sessions

theorem start_alive (sink : Option (List PersistedBoardSnapshot)) :
    (start sink).Alive where
  lives client session found := by cases found
  known client registered := absurd registered (UnorderedSet.not_mem_empty client)

section Steps

variable {state next : ServerState} {client : ClientId} {session : ClientSession}

theorem Alive.update (alive : state.Alive)
    (sessions : next.sessions = state.sessions.insert client session)
    (others : ∀ other, other ≠ client →
      (other ∈ next.registry ↔ other ∈ state.registry))
    (own : session.Lives (client ∈ next.registry)) : next.Alive where
  lives other found isFound := by
    rw [sessions, UnorderedMap.lookup_insert_eq] at isFound
    split at isFound
    next isClient =>
      cases isFound
      exact isClient ▸ own
    next different =>
      rw [others other different]
      exact alive.lives other found isFound
  known other registered := by
    rw [sessions, AList.mem_insert]
    by_cases isClient : other = client
    · exact .inl isClient
    · exact .inr (alive.known other ((others other isClient).mp registered))

theorem Alive.putSession (alive : state.Alive)
    (own : session.Lives (client ∈ state.registry)) :
    (state.putSession client session).Alive :=
  alive.update rfl (fun _ _ => Iff.rfl) own

theorem Alive.post (alive : state.Alive) (client : ClientId) {task : Task}
    (notStart : task ≠ .start) : (state.post client task).Alive := by
  unfold ServerState.post
  cases found : state.sessions.lookup client with
  | none => exact alive
  | some session => exact alive.putSession ((alive.lives client session found).post notStart)

theorem Alive.withCore (alive : state.Alive) (core : ServerCore) :
    Alive { state with core := core } where
  lives := alive.lives
  known := alive.known

theorem Alive.stopSession (alive : state.Alive) (once : session.reads ≤ 1)
    (idle : session.rest = [])
    (registration : client ∈ state.registry ↔ session.stopped = false) :
    (state.stopSession client session).Alive :=
  (alive.withCore _).putSession
    (ClientSession.stopImpl_lives once idle registration)

theorem registration_of_idle (lives : session.Lives (client ∈ state.registry))
    (idle : session.rest = []) :
    client ∈ state.registry ↔ session.stopped = false := by
  rw [lives.registration, idle]
  simp

theorem Alive.runTask (alive : state.Alive)
    (found : state.sessions.lookup client = some session) (idle : session.rest = [])
    {task : Task} {tasks : List Task} (front : session.strand = task :: tasks) :
    (state.runTask client { session with strand := tasks } task).Alive := by
  have lives := alive.lives client session found
  cases task with
  | start => exact alive.putSession (lives.start front)
  | push message =>
      have popped := lives.pop front (by simp)
      exact alive.putSession (popped.push message)
  | stop =>
      have popped := lives.pop front (by simp)
      exact alive.stopSession popped.once idle (registration_of_idle popped idle)

theorem Alive.perform (alive : state.Alive)
    (found : state.sessions.lookup client = some session) {first : HandlerStep}
    {later : List HandlerStep} (running : session.rest = first :: later) :
    (state.perform client { session with rest := later } first).Alive := by
  have lives := alive.lives client session found
  cases first with
  | deliver message =>
      exact (alive.putSession (lives.advance running rfl)).post client (by simp)
  | forward event =>
      have advanced := alive.putSession (lives.advance running rfl)
      simp only [ServerState.perform]
      split
      · exact advanced.post event.recipient (by simp)
      · exact advanced
  | remove =>
      have gone : client ∉ state.registry.erase client := by simp
      have sessions : (state.perform client { session with rest := later }
          .remove).sessions =
            state.sessions.insert client { session with rest := later } := rfl
      apply alive.update sessions
      · intro other different
        simp [ServerState.perform, different]
      · rw [ServerState.perform]
        simp only [gone]
        exact lives.remove running
  | doReadLine => exact alive.putSession (lives.again running)

private theorem accept_alive (alive : state.Alive) : state.accept.Alive := by
  have sessions : state.accept.sessions =
      state.sessions.insert state.nextClientId { strand := [.start] } := rfl
  apply alive.update sessions
  · intro other different
    simp [accept, different]
  · simp only [accept, UnorderedSet.mem_insert, true_or]
    exact ClientSession.fresh_lives

end Steps

theorem step_alive (state : ServerState) (action : Action) (next : ServerState)
    (stepped : system.step state action = some next) (alive : state.Alive) :
    next.Alive := by
  cases step_cases stepped with
  | accept => exact accept_alive alive
  | stop client => exact alive.post client (by simp)
  | runTask client session task tasks found idle front =>
      exact alive.runTask found idle front
  | readLine client session request now found idle isReading =>
      exact (alive.withCore _).putSession
        ((alive.lives client session found).handle idle isReading
          (handleParsed_served request).onlyPosts _)
  | readError client session found idle isReading =>
      have lives := alive.lives client session found
      have registration := registration_of_idle lives idle
      refine alive.stopSession ?_ idle registration
      have once := lives.once
      simp only [ClientSession.reads] at once ⊢
      simp only [Bool.toNat_false]
      omega
  | writeDone client session found =>
      exact alive.putSession (alive.lives client session found).onWrite
  | writeError client session found idle =>
      have lives := alive.lives client session found
      have registration := registration_of_idle lives idle
      exact alive.stopSession lives.once idle registration
  | act client session first later found running => exact alive.perform found running

theorem runs_with_alive {Allowed : ServerState → Action → Prop}
    {sink : Option (List PersistedBoardSnapshot)} {actions : List Action}
    {final : ServerState} (runs : system.Runs Allowed (start sink) actions final) :
    system.Runs (fun state action => Allowed state action ∧ state.Alive) (start sink)
      actions final :=
  runs.with_invariant (fun state action next _ => step_alive state action next)
    (start_alive sink)

theorem runs_alive {Allowed : ServerState → Action → Prop}
    {sink : Option (List PersistedBoardSnapshot)} {actions : List Action}
    {final : ServerState} (runs : system.Runs Allowed (start sink) actions final) :
    final.Alive :=
  runs.invariant (fun state action next _ => step_alive state action next)
    (start_alive sink)

/-- In every interleaving a session that was not stopped has exactly one read
outstanding or about to be started, and none ever has two; a session is
registered until the end of its `stopImpl`, and something holds it all along. A
handler that throws ends the program before it gets to its read. -/
theorem one_read_at_a_time {sink : Option (List PersistedBoardSnapshot)}
    {actions : List Action} {final : ServerState}
    (runs : system.Runs StepSystem.Any (start sink) actions final) {client : ClientId}
    {session : ClientSession} (found : final.sessions.lookup client = some session) :
    (session.stopped = false → session.reads = 1) ∧ session.reads ≤ 1 ∧
      (session.reading = true →
        .start ∉ session.strand ∧ .doReadLine ∉ session.rest) ∧
      (client ∈ final.registry ↔
        session.stopped = false ∨ .remove ∈ session.rest) ∧
      (client ∈ final.registry → session.alive = true) := by
  have lives := (runs_alive runs).lives client session found
  refine ⟨lives.reading, lives.once, ?_, lives.registration, lives.alive⟩
  intro isReading
  have once := lives.once
  simp only [ClientSession.reads, isReading, Bool.toNat_true] at once
  exact ⟨List.count_eq_zero.mp (by omega), List.count_eq_zero.mp (by omega)⟩

/-- Client 1 is stopped while its request is being handled; client 2 reads on. -/
def stoppedWhileReading : List Action :=
  [.accept, .accept, .runTask 1, .runTask 2, .stop 1,
    .readLine 1 (.ok .pingRequest) 0, .act 1, .act 1, .runTask 1]

theorem one_read_at_a_time_stoppedWhileReading :
    ∃ final session, system.Runs StepSystem.Any (start none) stoppedWhileReading final ∧
      final.sessions.lookup 1 = some session ∧ session.stopped = true ∧
      session.reading = true ∧ 1 ∈ final.registry ∧ session.alive = true := by
  have executed : ∃ final session,
      system.execute StepSystem.unchecked (start none) stoppedWhileReading = some final ∧
        final.sessions.lookup 1 = some session ∧ session.stopped = true ∧
        session.reading = true ∧ 1 ∈ final.registry :=
    ⟨_, _, rfl, rfl, rfl, rfl, by decide⟩
  rcases executed with ⟨final, session, executed, found, isStopped, isReading,
    registered⟩
  have runs := StepSystem.runs_of_unchecked executed
  have life := one_read_at_a_time runs found
  exact ⟨final, session, runs, found, isStopped, isReading, registered,
    life.2.2.2.2 registered⟩

/-! ## Weak pointers -/

/-- Whether `lock()` on the pointer to a session gives it. -/
def locks (state : ServerState) (client : ClientId) : Bool :=
  (state.sessions.lookup client).any ClientSession.alive

/-- `SessionRegistry::find`: an entry whose pointer has expired is erased. -/
def find (state : ServerState) (id : ClientId) : UnorderedSet ClientId × Bool :=
  if id ∈ state.registry then
    if state.locks id then (state.registry, true) else (state.registry.erase id, false)
  else
    (state.registry, false)

/-- `perform` with events delivered as `SessionRegistry::deliver` does it. The
handler that runs holds its own session meanwhile. -/
def performWeak (state : ServerState) (client : ClientId) (session : ClientSession) :
    HandlerStep → ServerState
  | .forward event =>
      let found := state.find event.recipient
      let next := { (state.putSession client session) with registry := found.1 }
      if found.2 then next.post event.recipient (.push (toServerMessage event)) else next
  | other => state.perform client session other

def stepWeak (state : ServerState) : Action → Option ServerState
  | .act client =>
      (state.sessions.lookup client).bind fun session =>
        match session.rest with
        | [] => none
        | next :: rest =>
            if Sendable next then
              some (state.performWeak client { session with rest } next)
            else none
  | other => state.step other

/-- The server with a registry of weak pointers. -/
def weakSystem : StepSystem ServerState Action := ⟨stepWeak⟩

/-- The pointers of a registry never expire, so `find` erases nothing. -/
theorem Alive.find_eq {state : ServerState} (alive : state.Alive) (id : ClientId) :
    state.find id = (state.registry, decide (id ∈ state.registry)) := by
  unfold ServerState.find
  split
  next registered =>
    have isSome := AList.lookup_isSome.mpr (alive.known id registered)
    rcases Option.isSome_iff_exists.mp isSome with ⟨session, found⟩
    have held : state.locks id = true := by
      rw [locks, found]
      exact (alive.lives id session found).alive registered
    rw [if_pos held, decide_eq_true registered]
  next unregistered => rw [decide_eq_false unregistered]

private theorem Alive.performWeak_eq {state : ServerState} (alive : state.Alive)
    (client : ClientId) (session : ClientSession) (next : HandlerStep) :
    state.performWeak client session next = state.perform client session next := by
  cases next with
  | forward event =>
      simp only [performWeak, alive.find_eq, decide_eq_true_eq]
      rfl
  | _ => rfl

theorem Alive.stepWeak_eq {state : ServerState} (alive : state.Alive)
    (action : Action) : weakSystem.step state action = system.step state action := by
  cases action with
  | act client =>
      change stepWeak state (.act client) = step state (.act client)
      simp only [stepWeak, alive.performWeak_eq]
      rfl
  | _ => rfl

/-- With weak pointers in the registry a server has the runs that it has without
them: no message is lost to an expired pointer, and none is erased by `find`. -/
theorem weak_pointers_hold (sink : Option (List PersistedBoardSnapshot))
    (actions : List Action) (final : ServerState) :
    weakSystem.Runs StepSystem.Any (start sink) actions final ↔
      system.Runs StepSystem.Any (start sink) actions final := by
  constructor
  · intro runs
    refine runs.transfer (fun state action alive => (alive.stepWeak_eq action).symm)
      ?_ (start_alive sink)
    intro state action next stepped alive
    rw [alive.stepWeak_eq action] at stepped
    exact step_alive state action next stepped alive
  · intro runs
    exact runs.transfer (fun state action alive => alive.stepWeak_eq action) step_alive
      (start_alive sink)

end ServerState

end ClearSpace.Server
