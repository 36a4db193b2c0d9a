import ClearSpace.Server.ThreadedServer

/-! # Calls as one step

The sessions on threads, seen from a server in which a handler makes its call of the
core in one step: there the handler runs at the point where the call takes effect,
and whatever else the threads do in between makes no difference. -/

namespace ClearSpace.Server.ThreadedServer

open ClearSpace.Core ClearSpace.Transport

/-! ## What a step stands for -/

def strand? : ServerState.Action → Option ClientId
  | .runTask client => some client
  | .readLine client _ _ => some client
  | .readError client => some client
  | .writeDone client => some client
  | .writeError client => some client
  | _ => none

/-- What a step stands for if calls of the core are one step each: a handler that
calls the core is run when its call takes effect. -/
def serves (state : ThreadedServer) : Action → Option ServerState.Action
  | .server action =>
      match strand? action with
      | none => some action
      | some client =>
          (state.step (.server action)).bind fun next =>
            match next.handling client with
            | none => some action
            | some _ => none
  | .core client =>
      match state.threads.event (.advance client.toNat) with
      | .effect _ _ => (state.handling client).map Handling.cause
      | _ => none

def served (sinks : Bool) (actions : List Action) : List ServerState.Action :=
  system.inputs serves (start sinks) actions

/-- A session here and in the server with calls as one step, which is behind while a
call is pending and ahead once it has taken effect. -/
inductive Tells (client : ClientId) :
    Option Handling → Stage → Option ClientSession → Option ClientSession → Prop
  | free (session : Option ClientSession) : Tells client none .outside session session
  | pending (handling : Handling) (stage : Stage) (origin session : ClientSession)
      (call : ServerCall) (isPending : stage.pending? = some call)
      (begins : Begins client origin session handling.errand call handling.cause) :
      Tells client (some handling) stage (some session) (some origin)
  | answered (handling : Handling) (stage : Stage) (session : ClientSession)
      (reply : ServerReply) (isReply : stage.reply? = some reply)
      (idle : session.rest = []) :
      Tells client (some handling) stage (some session)
        (some (session.resume handling.errand reply))

theorem Tells.none_iff {client : ClientId} {handling : Option Handling} {stage : Stage}
    {here there : Option ClientSession} (tells : Tells client handling stage here there) :
    there = none ↔ here = none := by
  cases tells with
  | free => exact Iff.rfl
  | pending => simp
  | answered => simp

structure Refines (state : ThreadedServer) (atomic : ServerState) : Prop where
  core : atomic.core = { rooms := state.server.core.rooms }
  registry : atomic.registry = state.server.registry
  nextClientId : atomic.nextClientId = state.server.nextClientId
  sessions : ∀ client, Tells client (state.handling client) (state.stage client.toNat)
    (state.server.sessions.lookup client) (atomic.sessions.lookup client)

private theorem start_refines (sinks : Bool) : (start sinks).Refines (.start none) where
  core := rfl
  registry := rfl
  nextClientId := rfl
  sessions _ := .free none

section Steps

variable {state next : ThreadedServer} {atomic : ServerState} {client : ClientId}
  {session : ClientSession}

theorem idleSession_eq_some : state.idleSession client = some session ↔
    state.handling client = none ∧ state.server.sessions.lookup client = some session ∧
      session.rest = [] := by
  unfold idleSession
  cases state.handling client with
  | none => simp [ServerState.idleSession_eq_some]
  | some handling => simp

theorem Refines.of_free (refines : state.Refines atomic)
    (free : state.handling client = none) :
    state.stage client.toNat = .outside ∧
      atomic.sessions.lookup client = state.server.sessions.lookup client := by
  have tells := refines.sessions client
  rw [free] at tells
  generalize state.stage client.toNat = stage at tells ⊢
  generalize state.server.sessions.lookup client = found at tells ⊢
  generalize atomic.sessions.lookup client = other at tells ⊢
  cases tells with
  | free => exact ⟨rfl, rfl⟩

theorem Refines.idleSession (refines : state.Refines atomic)
    (isIdle : state.idleSession client = some session) :
    atomic.idleSession client = some session := by
  rcases idleSession_eq_some.mp isIdle with ⟨free, found, idle⟩
  exact ServerState.idleSession_eq_some.mpr ⟨(refines.of_free free).2.trans found, idle⟩

private theorem Refines.free_of_running (refines : state.Refines atomic)
    (found : state.server.sessions.lookup client = some session)
    (running : session.rest ≠ []) : state.handling client = none := by
  have tells := refines.sessions client
  rw [found] at tells
  generalize state.handling client = handling at tells ⊢
  generalize state.stage client.toNat = stage at tells
  generalize atomic.sessions.lookup client = other at tells
  cases tells with
  | free => rfl
  | pending handling stage origin session call isPending begins =>
      exact absurd begins.idle running
  | answered handling stage session reply isReply idle => exact absurd idle running

theorem Refines.update (refines : state.Refines atomic) {after : ServerState}
    (client : ClientId)
    (core : after.core = { rooms := next.server.core.rooms })
    (registry : after.registry = next.server.registry)
    (nextClientId : after.nextClientId = next.server.nextClientId)
    (tells : Tells client (next.handling client) (next.stage client.toNat)
      (next.server.sessions.lookup client) (after.sessions.lookup client))
    (others : ∀ other, other ≠ client → next.handling other = state.handling other ∧
      next.stage other.toNat = state.stage other.toNat ∧
      next.server.sessions.lookup other = state.server.sessions.lookup other ∧
      after.sessions.lookup other = atomic.sessions.lookup other) :
    next.Refines after where
  core := core
  registry := registry
  nextClientId := nextClientId
  sessions other := by
    by_cases same : other = client
    · subst same
      exact tells
    · rcases others other same with ⟨handling, stage, found, foundThere⟩
      rw [handling, stage, found, foundThere]
      exact refines.sessions other

theorem Refines.put (refines : state.Refines atomic) (free : state.handling client = none)
    (session : ClientSession) :
    (state.putSession client session).Refines (atomic.putSession client session) := by
  refine refines.update client refines.core refines.registry refines.nextClientId ?_ ?_
  · change Tells client (state.handling client) (state.stage client.toNat)
      ((state.server.sessions.insert client session).lookup client)
      ((atomic.sessions.insert client session).lookup client)
    rw [free, (refines.of_free free).1, AList.lookup_insert, AList.lookup_insert]
    exact .free _
  · intro other different
    exact ⟨rfl, rfl, AList.lookup_insert_ne different, AList.lookup_insert_ne different⟩

theorem Refines.post (refines : state.Refines atomic) (client : ClientId) (task : Task) :
    Refines { state with server := state.server.post client task }
      (atomic.post client task) := by
  have tells := refines.sessions client
  cases found : state.server.sessions.lookup client with
  | none =>
      have foundThere := tells.none_iff.mpr found
      simp only [ServerState.post, found, foundThere]
      exact refines
  | some session =>
      cases foundThere : atomic.sessions.lookup client with
      | none =>
          rw [tells.none_iff.mp foundThere] at found
          cases found
      | some origin =>
          rw [found, foundThere] at tells
          simp only [ServerState.post, found, foundThere]
          refine refines.update client refines.core refines.registry
            refines.nextClientId ?_ ?_
          · change Tells client (state.handling client) (state.stage client.toNat)
              ((state.server.sessions.insert client _).lookup client)
              ((atomic.sessions.insert client _).lookup client)
            rw [AList.lookup_insert, AList.lookup_insert]
            generalize state.handling client = handling at tells ⊢
            generalize state.stage client.toNat = stage at tells ⊢
            cases tells with
            | free => exact .free _
            | pending handling stage origin session call isPending begins =>
                exact .pending handling stage _ _ call isPending (begins.post task)
            | answered handling stage session reply isReply idle =>
                exact .answered handling stage
                  { session with strand := session.strand ++ [task] } reply isReply idle
          · intro other different
            exact ⟨rfl, rfl, AList.lookup_insert_ne different,
              AList.lookup_insert_ne different⟩

theorem Refines.act (refines : state.Refines atomic)
    {server : ServerState} (stepped : state.server.step (.act client) = some server) :
    ∃ after, atomic.step (.act client) = some after ∧
      Refines { state with server } after := by
  cases ServerState.step_cases stepped with
  | act client session next later found running sendable =>
      have free : state.handling client = none :=
        refines.free_of_running found (by rw [running]; exact List.cons_ne_nil _ _)
      have foundThere := (refines.of_free free).2.trans found
      have put := refines.put free { session with rest := later }
      refine ⟨atomic.perform client { session with rest := later } next, ?_, ?_⟩
      · simp only [ServerState.step, foundThere, Option.bind_some, running,
          if_pos sendable]
      · cases next with
        | deliver message => exact put.post client (.push message)
        | forward event =>
            simp only [ServerState.perform, refines.registry]
            split
            · exact put.post event.recipient (.push (toServerMessage event))
            · exact put
        | remove =>
            refine { put with registry := ?_ }
            exact congrArg (·.erase client) refines.registry
        | doReadLine => exact refines.put free { session with rest := later }.doReadLine

theorem Refines.accept (refines : state.Refines atomic)
    (fresh : state.server.nextClientId ∉ state.server.sessions) :
    Refines { state with server := state.server.accept } atomic.accept := by
  have missing := AList.lookup_eq_none.mpr fresh
  have free : state.handling state.server.nextClientId = none := by
    have tells := refines.sessions state.server.nextClientId
    rw [missing] at tells
    generalize state.handling state.server.nextClientId = handling at tells ⊢
    generalize state.stage state.server.nextClientId.toNat = stage at tells
    generalize atomic.sessions.lookup state.server.nextClientId = other at tells
    cases tells with
    | free => rfl
  have there : atomic.accept =
      { (atomic.putSession state.server.nextClientId { strand := [.start] }) with
        registry := state.server.registry.insert state.server.nextClientId
        nextClientId := state.server.nextClientId + 1 } := by
    rw [ServerState.accept, refines.nextClientId, refines.registry]
  have put := refines.put free { strand := [.start] }
  rw [there]
  exact { put with registry := rfl, nextClientId := rfl }

/-- What has to hold after a handler has begun: either it ran without the core, or its
turn is still to come. -/
def Matched (next : ThreadedServer) (atomic : ServerState) (client : ClientId)
    (action : ServerState.Action) : Prop :=
  match next.handling client with
  | none => ∃ after, atomic.step action = some after ∧ next.Refines after
  | some _ => next.Refines atomic

theorem Refines.putMatched (refines : state.Refines atomic)
    (free : state.handling client = none) {action : ServerState.Action}
    (stepped : atomic.step action = some (atomic.putSession client session)) :
    Matched (state.putSession client session) atomic client action := by
  have same : (state.putSession client session).handling client = none := free
  rw [Matched, same]
  exact ⟨_, stepped, refines.put free session⟩

theorem Refines.move (refines : state.Refines atomic) {after : ServerState}
    (client : ClientId) {core : ServerCore} {here : ClientSession} {stage : Stage}
    {handling : Option Handling}
    (isCore : after.core = { rooms := core.rooms })
    (registry : after.registry = state.server.registry)
    (nextClientId : after.nextClientId = state.server.nextClientId)
    (tells : Tells client handling stage (some here) (after.sessions.lookup client))
    (others : ∀ other, other ≠ client →
      after.sessions.lookup other = atomic.sessions.lookup other) :
    Refines
      { server := { state.server with core }.putSession client here
        stage := Function.update state.stage client.toNat stage
        handling := Function.update state.handling client handling } after := by
  refine refines.update client isCore registry nextClientId ?_ ?_
  · change Tells client (Function.update state.handling client handling client)
      (Function.update state.stage client.toNat stage client.toNat)
      ((state.server.sessions.insert client here).lookup client) _
    rw [Function.update_self, Function.update_self, AList.lookup_insert]
    exact tells
  · intro other different
    refine ⟨Function.update_of_ne different .., Function.update_of_ne ?_ ..,
      AList.lookup_insert_ne different, others other different⟩
    exact fun same => different (UInt64.toNat_inj.mp same)

theorem Refines.enter (refines : state.Refines atomic)
    (free : state.handling client = none) {origin : ClientSession}
    (found : state.server.sessions.lookup client = some origin) {errand : Errand}
    {call : ServerCall} {cause : ServerState.Action}
    (begins : Begins client origin session errand call cause)
    (entered : state.enter client session cause errand call = some next) :
    Matched next atomic client cause := by
  rcases refines.of_free free with ⟨isOutside, same⟩
  have invoked : state.threads.step (.invoke client.toNat call) =
      some (state.threads.goTo client.toNat (.entered call)) := by
    simp only [ThreadedCore.step, threads, isOutside]
  rw [ThreadedServer.enter, invoked, Option.map_some] at entered
  have isNext := Option.some.inj entered
  have isHandling : next.handling client = some ⟨errand, cause⟩ := by
    rw [← isNext]
    exact Function.update_self ..
  rw [Matched, isHandling]
  change next.Refines atomic
  rw [← isNext]
  refine refines.move client refines.core refines.registry refines.nextClientId ?_
    (fun _ _ => rfl)
  rw [same, found]
  exact .pending ⟨errand, cause⟩ (.entered call) origin session call rfl begins

theorem Refines.readLine (refines : state.Refines atomic)
    (free : state.handling client = none)
    (found : state.server.sessions.lookup client = some session) (idle : session.rest = [])
    (reads : session.reading = true) {request : Except ProtocolError ClientMessage}
    {now : TimePoint} (read : state.readLine client session request now = some next) :
    Matched next atomic client (.readLine client request now) := by
  have foundThere := (refines.of_free free).2.trans found
  unfold ThreadedServer.readLine at read
  cases begun : beginParsed client session.currentRoom now request with
  | done steps =>
      simp only [begun] at read
      cases read
      apply refines.putMatched free
      have isIdle := ServerState.idleSession_eq_some.mpr ⟨foundThere, idle⟩
      have handled := handleParsed_begun atomic.core client session.currentRoom now request
      rw [begun] at handled
      simp only [ServerState.step, isIdle, Option.filter_some, reads, if_true,
        Option.map_some, ServerState.readLine, handled, Begun.finish]
  | calls errand call =>
      simp only [begun] at read
      exact refines.enter free found (.request request now errand call idle reads begun) read

/-- A handler that stops a session; `stopping` is the session as the handler finds
it. -/
theorem Refines.stopImpl (refines : state.Refines atomic)
    (free : state.handling client = none) {origin stopping : ClientSession}
    (found : state.server.sessions.lookup client = some origin)
    {cause : ServerState.Action}
    (begins : ∀ room, stopping.stopped = false → stopping.currentRoom = some room →
      Begins client origin { stopping with stopped := true } .stop
        (.on room (.leave client)) cause)
    (alone : atomic.step cause = some (atomic.stopSession client stopping))
    (stopped : state.stopImpl client stopping cause = some next) :
    Matched next atomic client cause := by
  unfold ThreadedServer.stopImpl at stopped
  split at stopped
  next already =>
    cases stopped
    apply refines.putMatched free
    rw [alone, ServerState.stopSession, Server.stopImpl, if_pos already]
  next running =>
    have isRunning : stopping.stopped = false := Bool.eq_false_of_not_eq_true running
    simp only at stopped
    split at stopped
    next inside =>
      cases stopped
      apply refines.putMatched free
      rw [alone, ServerState.stopSession, Server.stopImpl, if_neg running, inside]
      rfl
    next room inside =>
      exact refines.enter free found (begins room isRunning inside) stopped

theorem proceed_of_inside {stage : Stage} (inside : ∀ reply, stage ≠ .leaving reply)
    (errand : Errand) : state.proceed client session errand stage = state := by
  cases stage with
  | leaving reply => exact absurd rfl (inside reply)
  | _ => rfl

theorem Refines.goTo (refines : state.Refines atomic) {after : ServerState}
    (client : ClientId) {threads : ThreadedCore} {stage : Stage}
    (stages : threads.stage = Function.update state.stage client.toNat stage)
    (isCore : after.core = { rooms := threads.rooms })
    (registry : after.registry = state.server.registry)
    (nextClientId : after.nextClientId = state.server.nextClientId)
    (tells : Tells client (state.handling client) stage
      (state.server.sessions.lookup client) (after.sessions.lookup client))
    (others : ∀ other, other ≠ client →
      after.sessions.lookup other = atomic.sessions.lookup other) :
    (state.withThreads threads).Refines after := by
  refine refines.update client isCore registry nextClientId ?_ ?_
  · change Tells client (state.handling client) (threads.stage client.toNat)
      (state.server.sessions.lookup client) _
    rw [stages, Function.update_self]
    exact tells
  · intro other different
    refine ⟨rfl, ?_, rfl, others other different⟩
    change threads.stage other.toNat = _
    rw [stages, Function.update_of_ne fun same => different (UInt64.toNat_inj.mp same)]

private theorem Refines.core_step (refines : state.Refines atomic)
    (stepped : state.step (.core client) = some next) :
    match state.serves (.core client) with
    | none => next.Refines atomic
    | some seen => ∃ after, atomic.step seen = some after ∧ next.Refines after := by
  rcases Option.bind_eq_some_iff.mp stepped with ⟨handling, isHandling, hasSession⟩
  rcases Option.bind_eq_some_iff.mp hasSession with ⟨session, found, goesOn⟩
  rcases Option.map_eq_some_iff.mp goesOn with ⟨threads, advanced, rfl⟩
  have tells := refines.sessions client
  have cases := ThreadedCore.advance_cases advanced
  simp only [serves]
  rw [isHandling, found] at tells
  generalize state.threads.event (.advance client.toNat) = event at cases ⊢
  have isStage : state.threads.stage client.toNat = state.stage client.toNat := rfl
  rw [isStage] at cases
  generalize foundThere : atomic.sessions.lookup client = there at tells
  generalize state.stage client.toNat = stage at tells cases ⊢
  cases cases with
  | effect call reply rooms after pending answers answered =>
      have inside : ∀ reply, stage ≠ .leaving reply := by
        rintro reply rfl
        cases pending
      rw [proceed_of_inside inside, isHandling]
      cases tells with
      | pending handling stage origin session waiting isPending begins =>
          cases pending.symm.trans isPending
          refine ⟨_, begins.atomic foundThere, ?_⟩
          rw [refines.core]
          have called : ServerCore.call { rooms := state.server.core.rooms } call =
            ({ rooms }, reply) := answers
          rw [called]
          refine refines.goTo client rfl rfl refines.registry refines.nextClientId ?_ ?_
          · change Tells client _ after _ ((atomic.sessions.insert client _).lookup client)
            rw [isHandling, found, AList.lookup_insert]
            exact .answered handling after session reply answered begins.idle
          · intro other different
            exact AList.lookup_insert_ne different
      | answered handling stage session reply isReply idle =>
          rw [Stage.reply?_of_pending pending] at isReply
          cases isReply
  | quiet sink after samePending sameReply inside =>
      rw [proceed_of_inside inside]
      refine refines.goTo client rfl refines.core refines.registry refines.nextClientId ?_
        (fun _ _ => rfl)
      rw [isHandling, found, foundThere]
      cases tells with
      | pending handling stage origin session waiting isPending begins =>
          exact .pending handling after origin session waiting
            (samePending.trans isPending) begins
      | answered handling stage session reply isReply idle =>
          exact .answered handling after session reply (sameReply.trans isReply) idle
  | answer reply leaves =>
      subst leaves
      cases tells with
      | pending handling stage origin session waiting isPending begins => cases isPending
      | answered handling stage session reply isReply idle =>
          cases isReply
          refine refines.move client refines.core refines.registry refines.nextClientId ?_
            (fun _ _ => rfl)
          rw [foundThere]
          exact .free _

/-! ## Runs -/

/-- No counter is about to wrap. -/
def Counted (state : ThreadedServer) (_ : Action) : Prop := state.server.CountersLeft

theorem Refines.counted (refines : state.Refines atomic) {action : Action}
    (counted : state.Counted action) (seen : ServerState.Action) : atomic.Counted seen where
  freshClient := by
    rw [refines.nextClientId, ← AList.lookup_eq_none]
    exact (refines.sessions _).none_iff.mpr (AList.lookup_eq_none.mpr counted.freshClient)
  rooms := by
    rw [refines.core]
    exact counted.rooms

theorem Matched.simulates {action : ServerState.Action}
    (isStrand : strand? action = some client)
    (stepped : state.step (.server action) = some next)
    (matched : Matched next atomic client action) :
    match state.serves (.server action) with
    | none => next.Refines atomic
    | some seen => ∃ after, atomic.step seen = some after ∧ next.Refines after := by
  simp only [serves, isStrand, stepped, Option.bind_some]
  unfold Matched at matched
  cases handling : next.handling client with
  | none =>
      simp only [handling] at matched ⊢
      exact matched
  | some handling =>
      simp only [handling] at matched ⊢
      exact matched

theorem Refines.runTask (refines : state.Refines atomic)
    (stepped : state.step (.server (.runTask client)) = some next) :
    Matched next atomic client (.runTask client) := by
  rcases Option.bind_eq_some_iff.mp stepped with ⟨session, isIdle, ran⟩
  rcases idleSession_eq_some.mp isIdle with ⟨free, found, idle⟩
  have alone : ∀ task tasks, session.strand = task :: tasks →
      atomic.step (.runTask client) =
        some (atomic.runTask client { session with strand := tasks } task) := by
    intro task tasks front
    simp only [ServerState.step, refines.idleSession isIdle, Option.bind_some, front]
  cases front : session.strand with
  | nil =>
      simp only [front] at ran
      cases ran
  | cons task tasks =>
      cases task with
      | start =>
          simp only [front] at ran
          cases ran
          exact refines.putMatched free (alone _ _ front)
      | push message =>
          simp only [front] at ran
          cases ran
          exact refines.putMatched free (alone _ _ front)
      | stop =>
          simp only [front] at ran
          refine refines.stopImpl free found ?_ (alone _ _ front) ran
          intro room running inside
          exact .asked room tasks idle front running inside

private theorem step_refines {action : Action} (counted : state.Counted action)
    (stepped : system.step state action = some next) (refines : state.Refines atomic) :
    match state.serves action with
    | none => next.Refines atomic
    | some seen => ∃ after, atomic.step seen = some after ∧ next.Refines after := by
  cases action with
  | core client => exact refines.core_step stepped
  | server action =>
      cases action with
      | accept =>
          cases stepped
          exact ⟨atomic.accept, rfl, refines.accept counted.freshClient⟩
      | stop client =>
          rcases Option.map_eq_some_iff.mp stepped with ⟨server, asked, rfl⟩
          rcases Option.map_eq_some_iff.mp asked with ⟨session, found, rfl⟩
          refine ⟨atomic.post client .stop, ?_, refines.post client .stop⟩
          have tells := refines.sessions client
          cases foundThere : atomic.sessions.lookup client with
          | none =>
              rw [tells.none_iff.mp foundThere] at found
              cases found
          | some origin => simp only [ServerState.step, foundThere, Option.map_some]
      | runTask client => exact (refines.runTask stepped).simulates rfl stepped
      | readLine client request now =>
          rcases Option.bind_eq_some_iff.mp stepped with ⟨session, completed, read⟩
          rcases Option.filter_eq_some_iff.mp completed with ⟨isIdle, reads⟩
          rcases idleSession_eq_some.mp isIdle with ⟨free, found, idle⟩
          exact (refines.readLine free found idle reads read).simulates rfl stepped
      | readError client =>
          rcases Option.bind_eq_some_iff.mp stepped with ⟨session, completed, stopped⟩
          rcases Option.filter_eq_some_iff.mp completed with ⟨isIdle, reads⟩
          rcases idleSession_eq_some.mp isIdle with ⟨free, found, idle⟩
          refine (refines.stopImpl free found ?_ ?_ stopped).simulates rfl stepped
          · intro room running inside
            exact .readFailed room idle reads running inside
          · simp only [ServerState.step, refines.idleSession isIdle, Option.filter_some,
              reads, if_true, Option.map_some]
      | writeDone client =>
          rcases Option.map_eq_some_iff.mp stepped with ⟨session, completed, rfl⟩
          rcases Option.filter_eq_some_iff.mp completed with ⟨isIdle, writes⟩
          rcases idleSession_eq_some.mp isIdle with ⟨free, found, idle⟩
          refine (refines.putMatched free ?_).simulates rfl stepped
          simp only [ServerState.step, refines.idleSession isIdle, Option.filter_some,
            writes, if_true, Option.map_some]
      | writeError client =>
          rcases Option.bind_eq_some_iff.mp stepped with ⟨session, completed, stopped⟩
          rcases Option.filter_eq_some_iff.mp completed with ⟨isIdle, writes⟩
          rcases idleSession_eq_some.mp isIdle with ⟨free, found, idle⟩
          refine (refines.stopImpl free found ?_ ?_ stopped).simulates rfl stepped
          · intro room running inside
            exact .writeFailed room idle writes running inside
          · simp only [ServerState.step, refines.idleSession isIdle, Option.filter_some,
              writes, if_true, Option.map_some]
      | act client =>
          rcases Option.map_eq_some_iff.mp stepped with ⟨server, performed, rfl⟩
          exact refines.act performed

def Threads (state next : ThreadedServer) : Prop :=
  next.threads = state.threads ∨ ∃ inner, state.threads.step inner = some next.threads

theorem enter_threads {cause : ServerState.Action} {errand : Errand} {call : ServerCall}
    (entered : state.enter client session cause errand call = some next) :
    Threads state next := by
  rcases Option.map_eq_some_iff.mp entered with ⟨threads, invoked, rfl⟩
  exact .inr ⟨_, invoked⟩

theorem stopImpl_threads {cause : ServerState.Action}
    (stopped : state.stopImpl client session cause = some next) : Threads state next := by
  unfold stopImpl at stopped
  split at stopped
  · cases stopped
    exact .inl rfl
  · simp only at stopped
    split at stopped
    · cases stopped
      exact .inl rfl
    · exact enter_threads stopped

private theorem step_threads {action : Action} (stepped : state.step action = some next) :
    Threads state next := by
  have moved : ∀ {server : ServerState}, server.core = state.server.core →
      threads { state with server } = state.threads := by
    intro server same
    simp only [threads, same]
  cases action with
  | core client =>
      rcases Option.bind_eq_some_iff.mp stepped with ⟨handling, _, hasSession⟩
      rcases Option.bind_eq_some_iff.mp hasSession with ⟨session, _, goesOn⟩
      rcases Option.map_eq_some_iff.mp goesOn with ⟨threads, advanced, rfl⟩
      refine .inr ⟨_, advanced.trans ?_⟩
      cases state.stage client.toNat <;> rfl
  | server action =>
      cases action with
      | accept =>
          cases stepped
          exact .inl rfl
      | stop client =>
          rcases Option.map_eq_some_iff.mp stepped with ⟨server, asked, rfl⟩
          rcases Option.map_eq_some_iff.mp asked with ⟨session, found, rfl⟩
          exact .inl (moved (ServerState.core_post ..))
      | runTask client =>
          rcases Option.bind_eq_some_iff.mp stepped with ⟨session, _, ran⟩
          split at ran
          · cases ran
          · cases ran
            exact .inl rfl
          · cases ran
            exact .inl rfl
          · exact stopImpl_threads ran
      | readLine client request now =>
          rcases Option.bind_eq_some_iff.mp stepped with ⟨session, _, read⟩
          simp only [readLine] at read
          split at read
          · cases read
            exact .inl rfl
          · exact enter_threads read
      | readError client =>
          rcases Option.bind_eq_some_iff.mp stepped with ⟨session, _, isStopped⟩
          exact stopImpl_threads isStopped
      | writeDone client =>
          rcases Option.map_eq_some_iff.mp stepped with ⟨session, _, rfl⟩
          exact .inl rfl
      | writeError client =>
          rcases Option.bind_eq_some_iff.mp stepped with ⟨session, _, isStopped⟩
          exact stopImpl_threads isStopped
      | act client =>
          rcases Option.map_eq_some_iff.mp stepped with ⟨server, performed, rfl⟩
          cases ServerState.step_cases performed with
          | act client session next later => exact .inl (moved (ServerState.perform_core ..))

/-- A handler inside the core is never stuck there. -/
theorem Refines.progress (refines : state.Refines atomic)
    {seen : Linearization.Recorder ServerCall ServerReply}
    (follows : state.threads.Follows seen) (inside : state.handling client ≠ none) :
    (state.step (.core client)).isSome = true := by
  have tells := refines.sessions client
  have advances : state.stage client.toNat ≠ .outside →
      (state.threads.step (.advance client.toNat)).isSome = true :=
    fun goesOn => follows.progress goesOn
  simp only [step]
  generalize state.handling client = handling at tells inside ⊢
  generalize state.stage client.toNat = stage at tells advances ⊢
  generalize state.server.sessions.lookup client = found at tells ⊢
  generalize atomic.sessions.lookup client = there at tells
  cases tells with
  | free => exact absurd rfl inside
  | pending handling stage origin session call isPending begins =>
      simp only [Option.bind_some, Option.isSome_map]
      apply advances
      rintro rfl
      cases isPending
  | answered handling stage session reply isReply idle =>
      simp only [Option.bind_some, Option.isSome_map]
      apply advances
      rintro rfl
      cases isReply

end Steps

/-- One core that serves the calls one at a time gets to the same rooms. -/
def Sequential (state : ThreadedServer) : Prop := ∃ seen, state.threads.Follows seen

private theorem step_sequential {state next : ThreadedServer} {action : Action}
    (stepped : state.step action = some next) (sequential : state.Sequential) :
    next.Sequential := by
  rcases sequential with ⟨seen, follows⟩
  rcases step_threads stepped with same | ⟨inner, moved⟩
  · exact ⟨seen, same ▸ follows⟩
  · exact ⟨_, ThreadedCore.step_follows follows moved⟩

theorem Refines.trail_eq {state : ThreadedServer} {atomic : ServerState}
    (refines : state.Refines atomic) (client : ClientId) :
    atomic.trail client = state.server.trail client := by
  have tells := refines.sessions client
  unfold ServerState.trail
  generalize state.server.sessions.lookup client = found at tells ⊢
  generalize atomic.sessions.lookup client = there at tells ⊢
  generalize state.handling client = handling at tells
  generalize state.stage client.toNat = stage at tells
  cases tells with
  | free => rfl
  | pending handling stage origin session call isPending begins =>
      exact begins.trail_eq.symm
  | answered => rfl

/-- Every run of the sessions on threads is a run of the server in which the calls of
the core are one step each, in the order in which they took effect: with the same
rooms, the same registry and the same messages posted to every client in the same
order. No handler is ever stuck inside the core. -/
theorem threads_refine {sinks : Bool} {actions : List Action} {final : ThreadedServer}
    (runs : system.Runs Counted (start sinks) actions final) :
    (∃ atomic, ServerState.system.Runs ServerState.Counted (ServerState.start none)
        (served sinks actions) atomic ∧
      atomic.core.rooms = final.server.core.rooms ∧
      atomic.registry = final.server.registry ∧
      (∀ client, atomic.trail client = final.server.trail client) ∧
      ∀ client, final.handling client = none →
        atomic.sessions.lookup client = final.server.sessions.lookup client) ∧
    ∀ client, final.handling client ≠ none →
      (final.step (.core client)).isSome = true := by
  have simulated : ∃ atomic, ServerState.system.Runs ServerState.Counted
      (ServerState.start none) (served sinks actions) atomic ∧ final.Refines atomic := by
    refine runs.refines ?_ (start_refines sinks)
    intro state next action atomic counted stepped refines
    have step := step_refines counted stepped refines
    generalize state.serves action = seen at step ⊢
    cases seen with
    | none => exact step
    | some seen => exact ⟨refines.counted counted seen, step⟩
  have sequential : final.Sequential := by
    have atStart : (start sinks).Sequential := ⟨_, ThreadedCore.start_follows sinks⟩
    refine runs.invariant ?_ atStart
    intro state action next _ stepped
    exact step_sequential stepped
  rcases simulated with ⟨atomic, atomicRuns, refines⟩
  rcases sequential with ⟨seen, follows⟩
  refine ⟨⟨atomic, atomicRuns, ?_, refines.registry, refines.trail_eq, ?_⟩, ?_⟩
  · rw [refines.core]
  · exact fun client free => (refines.of_free free).2
  · exact fun client => refines.progress follows

def counted (state : ThreadedServer) (_ : Action) : Bool :=
  decide state.server.CountersLeft

theorem counted_sound (state : ThreadedServer) (action : Action)
    (isCounted : state.counted action = true) : state.Counted action := by
  change state.server.CountersLeft
  exact of_decide_eq_true isCounted

/-- Client 2 overtakes client 1 on the way into the room, and leaves it while client 1
is about to store the board that it has cleared. -/
def overtaking : List Action :=
  [.server .accept, .server .accept, .server (.runTask 1), .server (.runTask 2),
    .server (.readLine 1 (.ok .createRoomRequest) 0), .core 1, .core 1,
    .server (.act 1), .server (.act 1),
    .server (.readLine 1 (.ok (.joinRoomRequest 1)) 0), .core 1,
    .server (.readLine 2 (.ok (.joinRoomRequest 1)) 0), .core 2, .core 2, .core 1,
    .core 1, .core 2, .server (.act 1), .server (.act 2), .server (.act 1),
    .server (.act 2), .server (.readLine 1 (.ok (.eventRequest 1 .clear)) 3), .core 1,
    .core 1, .server (.readError 2), .core 2, .core 2, .core 1]

theorem threads_refine_overtaking :
    ∃ final, system.Runs Counted (start true) overtaking final ∧
      (final.step (.core 1)).isSome = true ∧ (final.step (.core 2)).isSome = true ∧
      ∃ atomic, ServerState.system.Runs ServerState.Counted (ServerState.start none)
        (served true overtaking) atomic ∧
        atomic.core.rooms = final.server.core.rooms ∧
        ∀ client, atomic.trail client = final.server.trail client := by
  have computed : (system.execute counted (start true) overtaking).map
      (fun final => (final.handling 1).isSome && (final.handling 2).isSome) =
        some true := by
    decide
  rcases Option.map_eq_some_iff.mp computed with ⟨final, executed, areInside⟩
  rcases Bool.and_eq_true_iff.mp areInside with ⟨first, second⟩
  have runs := StepSystem.runs_of_execute counted_sound executed
  rcases threads_refine runs with ⟨⟨atomic, atomicRuns, rooms, _, trails, _⟩, progress⟩
  exact ⟨final, runs, progress 1 (Option.isSome_iff_ne_none.mp first),
    progress 2 (Option.isSome_iff_ne_none.mp second), atomic, atomicRuns, rooms, trails⟩

end ClearSpace.Server.ThreadedServer
