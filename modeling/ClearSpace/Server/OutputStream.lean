import ClearSpace.Server.Exceptions
import ClearSpace.Server.LineFraming
import ClearSpace.Server.WriteQueue
import ClearSpace.Transport.MessageText

/-! # Bytes to a client

The server together with its sockets. `async_write` hands the line in front of the
queue to the socket in pieces of any size and completes when all of it is through;
it may fail at any point. What a client reads line by line are the messages that
its session has queued, in their order. -/

namespace ClearSpace.Server

open ClearSpace.Core ClearSpace.Transport Delimited StepSystem

section Lines

variable (library : JsonLibrary)

/-- What `deliver` puts into the queue; nothing where `serializeServerMessage`
throws. -/
def lineOf (message : ServerMessage) : Option ByteString :=
  (serializeServerMessage library message).map (· ++ [newline])

/-- The buffer of the write that is outstanding. -/
def ClientSession.frontLine (session : ClientSession) : Option ByteString :=
  session.writeQueue.head?.bind (lineOf library)

end Lines

/-- `transferred` tells how much of the front line has been handed to the socket of
a client. `sent` is history: all the bytes that were handed to it. -/
structure OutputStream where
  server : ServerState
  transferred : ClientId → Nat := fun _ => 0
  sent : ClientId → ByteString := fun _ => []

namespace OutputStream

inductive Action
  | server (action : ServerState.Action)
  | transfer (client : ClientId) (count : Nat)

def Action.server? : Action → Option ServerState.Action
  | .server action => some action
  | .transfer .. => none

section Steps

variable (library : JsonLibrary)

/-- What a step of the server means for the write that is outstanding. -/
def advance (state : OutputStream) (next : ServerState) :
    ServerState.Action → Option OutputStream
  | .accept =>
      some { server := next
             transferred := Function.update state.transferred state.server.nextClientId 0
             sent := Function.update state.sent state.server.nextClientId [] }
  | .writeDone client =>
      (state.server.sessions.lookup client).bind fun session =>
        (session.frontLine library).bind fun line =>
          if state.transferred client = line.length then
            some { state with
              server := next
              transferred := Function.update state.transferred client 0 }
          else none
  | _ => some { state with server := next }

def step (state : OutputStream) : Action → Option OutputStream
  | .server action =>
      (state.server.step action).bind fun next => state.advance library next action
  | .transfer client count =>
      (state.server.sessions.lookup client).bind fun session =>
        (session.frontLine library).bind fun line =>
          if session.writing ∧ state.transferred client + count ≤ line.length then
            some { state with
              transferred :=
                Function.update state.transferred client (state.transferred client + count)
              sent := Function.update state.sent client
                (state.sent client ++ (line.drop (state.transferred client)).take count) }
          else none

def system : StepSystem OutputStream Action := ⟨step library⟩

def start (sink : Option (List PersistedBoardSnapshot)) : OutputStream where
  server := ServerState.start sink

end Steps

/-! ## What was sent -/

def Serialized (library : JsonLibrary) (text : ByteString) (message : ServerMessage) : Prop :=
  serializeServerMessage library message = some text

/-- The messages that have left the queue have been sent, each with its text as a
line, and then as much of the front line as has been transferred. -/
structure Sends (library : JsonLibrary) (session : ClientSession) (transferred : Nat)
    (sent : ByteString) (written : List ServerMessage) (texts : List ByteString)
    (part : ByteString) : Prop where
  queued : session.queued = written ++ session.writeQueue
  serialized : List.Forall₂ (Serialized library) texts written
  sent : sent = texts.flatMap (· ++ [newline]) ++ part
  transferred : part.length = transferred
  front : part = [] ∨ ∃ line, session.frontLine library = some line ∧ part <+: line

def Framed (library : JsonLibrary) (session : ClientSession) (transferred : Nat)
    (sent : ByteString) : Prop :=
  ∃ written texts part, Sends library session transferred sent written texts part

section Session

variable {library : JsonLibrary} {session next : ClientSession} {transferred : Nat}
  {sent line : ByteString}

def SameQueue (next session : ClientSession) : Prop :=
  next.queued = session.queued ∧ next.writeQueue = session.writeQueue

theorem Framed.congr (framed : Framed library session transferred sent)
    (same : SameQueue next session) : Framed library next transferred sent := by
  rcases framed with ⟨written, texts, part, sends⟩
  refine ⟨written, texts, part, ?_, sends.serialized, sends.sent, sends.transferred, ?_⟩
  · rw [same.1, same.2]
    exact sends.queued
  · rw [ClientSession.frontLine, same.2]
    exact sends.front

theorem doReadLine_sameQueue (session : ClientSession) :
    SameQueue session.doReadLine session := by
  unfold ClientSession.doReadLine
  split <;> exact ⟨rfl, rfl⟩

theorem doWrite_sameQueue (session : ClientSession) :
    SameQueue session.doWrite session := by
  unfold ClientSession.doWrite
  split <;> exact ⟨rfl, rfl⟩

theorem stopImpl_sameQueue (core : ServerCore) (client : ClientId)
    (session : ClientSession) : SameQueue (stopImpl core client session).2 session := by
  have same := stopImpl_writes core client session
  exact ⟨congrArg SessionWrites.queued same, congrArg SessionWrites.writeQueue same⟩

private theorem fresh_framed (library : JsonLibrary) {session : ClientSession}
    (same : SameQueue session {}) : Framed library session 0 [] := by
  apply Framed.congr _ same
  exact ⟨[], [], [], rfl, .nil, rfl, rfl, .inl rfl⟩

theorem Framed.push (framed : Framed library session transferred sent)
    (message : ServerMessage) :
    Framed library (session.push message) transferred sent := by
  rcases framed with ⟨written, texts, part, sends⟩
  have same : SameQueue (session.push message)
      { session with
        writeQueue := session.writeQueue ++ [message]
        queued := session.queued ++ [message] } := by
    simp only [ClientSession.push]
    split
    · exact doWrite_sameQueue _
    · exact ⟨rfl, rfl⟩
  apply Framed.congr _ same
  refine ⟨written, texts, part, ?_, sends.serialized, sends.sent, sends.transferred, ?_⟩
  · change session.queued ++ [message] = written ++ (session.writeQueue ++ [message])
    rw [sends.queued, List.append_assoc]
  · rcases sends.front with nothing | ⟨line, isFront, begins⟩
    · exact .inl nothing
    · rcases Option.bind_eq_some_iff.mp isFront with ⟨front, isHead, isLine⟩
      refine .inr ⟨line, ?_, begins⟩
      rw [ClientSession.frontLine, List.head?_append_of_ne_nil, isHead]
      · exact isLine
      · rintro isEmpty
        rw [isEmpty] at isHead
        cases isHead

theorem Framed.onWrite (framed : Framed library session transferred sent)
    (isFront : session.frontLine library = some line)
    (whole : transferred = line.length) : Framed library session.onWrite 0 sent := by
  rcases framed with ⟨written, texts, part, sends⟩
  have isWhole : part = line := by
    have sameLength : part.length = line.length := sends.transferred.trans whole
    rcases sends.front with nothing | ⟨other, isOther, begins⟩
    · rw [nothing, List.length_nil] at sameLength
      rw [nothing, List.eq_nil_of_length_eq_zero sameLength.symm]
    · rw [isFront] at isOther
      cases isOther
      exact begins.eq_of_length sameLength
  have same : SameQueue session.onWrite
      { session with writing := false, writeQueue := session.writeQueue.tail } := by
    simp only [ClientSession.onWrite]
    split
    · exact ⟨rfl, rfl⟩
    · exact doWrite_sameQueue _
  rcases Option.bind_eq_some_iff.mp isFront with ⟨front, isHead, isLine⟩
  rcases Option.map_eq_some_iff.mp isLine with ⟨text, isText, rfl⟩
  have isQueue := List.eq_cons_of_mem_head? isHead
  apply Framed.congr _ same
  refine ⟨written ++ [front], texts ++ [text], [], ?_, ?_, ?_, rfl, .inl rfl⟩
  · change session.queued = written ++ [front] ++ session.writeQueue.tail
    rw [sends.queued, List.append_assoc, List.singleton_append, ← isQueue]
  · exact List.rel_append sends.serialized (.cons isText .nil)
  · rw [sends.sent, isWhole, List.flatMap_append, List.flatMap_singleton, List.append_nil]

theorem Framed.transfer (framed : Framed library session transferred sent) {count : Nat}
    (isFront : session.frontLine library = some line)
    (within : transferred + count ≤ line.length) :
    Framed library session (transferred + count)
      (sent ++ (line.drop transferred).take count) := by
  rcases framed with ⟨written, texts, part, sends⟩
  have isPart : part = line.take transferred := by
    rcases sends.front with nothing | ⟨other, isOther, begins⟩
    · rw [← sends.transferred, nothing]
      rfl
    · rw [isFront] at isOther
      cases isOther
      rw [← sends.transferred]
      exact List.prefix_iff_eq_take.mp begins
  have longer : part ++ (line.drop transferred).take count =
      line.take (transferred + count) := by
    rw [isPart, List.take_add]
  refine ⟨written, texts, line.take (transferred + count), sends.queued, sends.serialized,
    ?_, ?_, .inr ⟨line, isFront, List.take_prefix _ _⟩⟩
  · rw [sends.sent, List.append_assoc, longer]
  · exact List.length_take_of_le within

end Session

/-! ## Steps of the server -/

def AllFramed (library : JsonLibrary) (transferred : ClientId → Nat)
    (sent : ClientId → ByteString) (server : ServerState) : Prop :=
  ∀ client session, server.sessions.lookup client = some session →
    Framed library session (transferred client) (sent client)

section Server

variable {library : JsonLibrary} {transferred : ClientId → Nat}
  {sent : ClientId → ByteString} {server next : ServerState} {client : ClientId}
  {session : ClientSession}

theorem AllFramed.update (framed : AllFramed library transferred sent server)
    {moreTransferred : ClientId → Nat} {moreSent : ClientId → ByteString}
    (own : Framed library session (moreTransferred client) (moreSent client))
    (others : ∀ other, other ≠ client →
      moreTransferred other = transferred other ∧ moreSent other = sent other) :
    AllFramed library moreTransferred moreSent (server.putSession client session) := by
  intro other found isFound
  change (server.sessions.insert client session).lookup other = some found at isFound
  rw [UnorderedMap.lookup_insert_eq] at isFound
  split at isFound
  next same =>
    cases isFound
    rw [same]
    exact own
  next different =>
    rw [(others other different).1, (others other different).2]
    exact framed other found isFound

theorem AllFramed.putSession (framed : AllFramed library transferred sent server)
    (own : Framed library session (transferred client) (sent client)) :
    AllFramed library transferred sent (server.putSession client session) :=
  framed.update own fun _ _ => ⟨rfl, rfl⟩

theorem AllFramed.post (framed : AllFramed library transferred sent server)
    (client : ClientId) (task : Task) :
    AllFramed library transferred sent (server.post client task) := by
  unfold ServerState.post
  split
  · exact framed
  next session found =>
    exact framed.putSession ((framed client session found).congr ⟨rfl, rfl⟩)

theorem AllFramed.runTask (framed : AllFramed library transferred sent server)
    (own : Framed library session (transferred client) (sent client)) (task : Task) :
    AllFramed library transferred sent (server.runTask client session task) := by
  cases task with
  | start => exact framed.putSession (own.congr (doReadLine_sameQueue session))
  | push message => exact framed.putSession (own.push message)
  | stop =>
      exact AllFramed.putSession framed (own.congr (stopImpl_sameQueue _ _ session))

theorem AllFramed.perform (framed : AllFramed library transferred sent server)
    (own : Framed library session (transferred client) (sent client))
    (step : HandlerStep) :
    AllFramed library transferred sent (server.perform client session step) := by
  cases step with
  | deliver message => exact (framed.putSession own).post _ _
  | forward event =>
      rw [ServerState.perform]
      split
      · exact (framed.putSession own).post _ _
      · exact framed.putSession own
  | remove => exact framed.putSession own
  | doReadLine => exact framed.putSession (own.congr (doReadLine_sameQueue session))

end Server

section Steps

variable {library : JsonLibrary} {state next : OutputStream}

private theorem advance_framed {action : ServerState.Action} {server : ServerState}
    (moved : state.server.step action = some server)
    (advanced : state.advance library server action = some next)
    (framed : AllFramed library state.transferred state.sent state.server) :
    AllFramed library next.transferred next.sent next.server := by
  cases ServerState.step_cases moved with
  | accept =>
      cases advanced
      apply AllFramed.update framed
      · simp only [Function.update_self]
        exact fresh_framed library ⟨rfl, rfl⟩
      · intro other different
        exact ⟨Function.update_of_ne different .., Function.update_of_ne different ..⟩
  | writeDone client session found =>
      simp only [advance, found, Option.bind_some] at advanced
      rcases Option.bind_eq_some_iff.mp advanced with ⟨line, isFront, completed⟩
      split at completed
      next whole =>
        cases completed
        apply framed.update
        · simp only [Function.update_self]
          exact (framed client session found).onWrite isFront whole
        · intro other different
          exact ⟨Function.update_of_ne different .., rfl⟩
      next => cases completed
  | stop client session found =>
      cases advanced
      exact framed.post _ _
  | runTask client session task tasks found =>
      cases advanced
      apply framed.runTask
      exact (framed client session found).congr ⟨rfl, rfl⟩
  | readLine client session request now found =>
      cases advanced
      exact AllFramed.putSession framed ((framed client session found).congr ⟨rfl, rfl⟩)
  | readError client session found =>
      cases advanced
      exact AllFramed.putSession framed
        ((framed client session found).congr (stopImpl_sameQueue _ _ _))
  | writeError client session found =>
      cases advanced
      exact AllFramed.putSession framed
        ((framed client session found).congr (stopImpl_sameQueue _ _ _))
  | act client session first later found =>
      cases advanced
      apply framed.perform
      exact (framed client session found).congr ⟨rfl, rfl⟩

def Transmits (library : JsonLibrary) (state : OutputStream) : Prop :=
  AllFramed library state.transferred state.sent state.server

theorem step_transmits {action : Action} (stepped : state.step library action = some next)
    (framed : state.Transmits library) : next.Transmits library := by
  cases action with
  | server action =>
      rcases Option.bind_eq_some_iff.mp stepped with ⟨server, moved, advanced⟩
      exact advance_framed moved advanced framed
  | transfer client count =>
      rcases Option.bind_eq_some_iff.mp stepped with ⟨session, found, front⟩
      rcases Option.bind_eq_some_iff.mp front with ⟨line, isFront, moved⟩
      split at moved
      next within =>
        cases moved
        intro other known isKnown
        by_cases same : other = client
        · subst same
          cases found.symm.trans isKnown
          simp only [Function.update_self]
          exact (framed other session found).transfer isFront within.2
        · simp only [Function.update_of_ne same]
          exact framed other known isKnown
      next => cases moved

end Steps

/-! ## What a client reads -/

section Reading

variable {library : JsonLibrary} {session : ClientSession} {transferred : Nat}
  {sent received : ByteString}

private theorem Serialized.newline_not_mem (writes : library.Writes) {text : ByteString}
    {message : ServerMessage} (serialized : Serialized library text message) :
    newline ∉ text := by
  intro member
  exact absurd (writes.escapes _ text serialized newline member) (by decide)

theorem terminated_texts (writes : library.Writes) {texts : List ByteString}
    {messages : List ServerMessage}
    (serialized : List.Forall₂ (Serialized library) texts messages) (rest : ByteString) :
    terminated newline (texts.flatMap (· ++ [newline]) ++ rest) =
      texts ++ terminated newline rest := by
  apply terminated_append
  intro text member
  rcases List.mem_iff_getElem.mp member with ⟨index, bound, rfl⟩
  have known := (List.forall₂_iff_get.mp serialized).2 index bound
    (serialized.length_eq ▸ bound)
  exact Serialized.newline_not_mem writes known

private theorem Framed.sent_begins (framed : Framed library session transferred sent) :
    ∃ texts messages, List.Forall₂ (Serialized library) texts messages ∧
      messages <+: session.queued ∧ sent <+: texts.flatMap (· ++ [newline]) := by
  rcases framed with ⟨written, texts, part, sends⟩
  rcases sends.front with nothing | ⟨line, isFront, begins⟩
  · have isSent : texts.flatMap (· ++ [newline]) = sent := by
      rw [sends.sent, nothing, List.append_nil]
    refine ⟨texts, written, sends.serialized, ?_, ?_⟩
    · rw [sends.queued]
      exact List.prefix_append ..
    · simp only [isSent, List.prefix_rfl]
  · rcases Option.bind_eq_some_iff.mp isFront with ⟨front, isHead, isLine⟩
    rcases Option.map_eq_some_iff.mp isLine with ⟨text, isText, rfl⟩
    refine ⟨texts ++ [text], written ++ [front],
      List.rel_append sends.serialized (.cons isText .nil), ?_, ?_⟩
    · rw [sends.queued, List.eq_cons_of_mem_head? isHead]
      exact (List.prefix_append_right_inj written).mpr (List.prefix_append [front] _)
    · rw [sends.sent, List.flatMap_append, List.flatMap_singleton]
      exact (List.prefix_append_right_inj _).mpr begins

/-- The lines that a client has received are the texts of the first messages. -/
theorem Framed.lines (framed : Framed library session transferred sent)
    (writes : library.Writes) (isReceived : received <+: sent) :
    List.Forall₂ (Serialized library) (terminated newline received)
      (session.queued.take (terminated newline received).length) := by
  rcases framed.sent_begins with ⟨texts, messages, serialized, queued, begins⟩
  rcases isReceived.trans begins with ⟨rest, split⟩
  have isFirst : terminated newline received <+: texts := by
    have whole := terminated_texts writes serialized []
    rw [List.append_nil, terminated_of_not_mem List.not_mem_nil, List.append_nil] at whole
    rw [← whole, ← split]
    exact terminated_begins received rest
  have count := isFirst.length_le
  rw [serialized.length_eq] at count
  have sameMessages : session.queued.take (terminated newline received).length =
      messages.take (terminated newline received).length := by
    rcases queued with ⟨later, isQueued⟩
    rw [← isQueued, List.take_append_of_le_length count]
  rw [sameMessages]
  have taken := List.forall₂_take (terminated newline received).length serialized
  rw [← List.prefix_iff_eq_take.mp isFirst] at taken
  exact taken

theorem Framed.reads (framed : Framed library session transferred sent)
    (writes : library.Writes) (exact : library.Exact) (isReceived : received <+: sent) :
    List.Forall₂ (fun line message => message.Finite →
        readText library line = some message.value)
      (terminated newline received)
      (session.queued.take (terminated newline received).length) := by
  apply (framed.lines writes isReceived).imp
  intro line message serialized finite
  exact readText_serialized writes exact finite serialized

end Reading

/-! ## Runs -/

section Runs

variable {library : JsonLibrary} {sink : Option (List PersistedBoardSnapshot)}
  {actions : List Action} {final : OutputStream}

theorem step_server {state next : OutputStream} {action : Action}
    (stepped : state.step library action = some next) :
    match action.server? with
    | none => next.server = state.server
    | some seen => state.server.step seen = some next.server := by
  cases action with
  | server action =>
      rcases Option.bind_eq_some_iff.mp stepped with ⟨server, moved, advanced⟩
      have isServer : next.server = server := by
        unfold advance at advanced
        split at advanced
        · cases advanced
          rfl
        · rcases Option.bind_eq_some_iff.mp advanced with ⟨session, _, front⟩
          rcases Option.bind_eq_some_iff.mp front with ⟨line, _, completed⟩
          split at completed
          · cases completed
            rfl
          · cases completed
        · cases advanced
          rfl
      rw [← isServer] at moved
      exact moved
  | transfer client count =>
      rcases Option.bind_eq_some_iff.mp stepped with ⟨session, _, front⟩
      rcases Option.bind_eq_some_iff.mp front with ⟨line, _, moved⟩
      split at moved
      · cases moved
        rfl
      · cases moved

theorem runs_server {state : OutputStream}
    (runs : (system library).Runs Any state actions final) :
    ServerState.system.Runs Any state.server (actions.filterMap Action.server?)
      final.server := by
  induction runs with
  | nil => exact .nil _
  | @cons state middle final action rest _ stepped _ induction =>
      have step := step_server stepped
      rw [List.filterMap_cons]
      generalize action.server? = seen at step ⊢
      cases seen with
      | none =>
          rw [step] at induction
          exact induction
      | some seen => exact .cons trivial step induction

theorem runs_transmits (runs : (system library).Runs Any (start sink) actions final) :
    final.Transmits library := by
  have atStart : (start sink).Transmits library := by
    intro _ _ found
    cases found
  refine runs.invariant ?_ atStart
  intro state action next _ stepped
  exact step_transmits stepped

/-- No write is held up for want of a line: everything in a queue can be written. -/
theorem frontLine_isSome (lawful : library.Lawful)
    (runs : (system library).Runs Any (start sink) actions final) {client : ClientId}
    {session : ClientSession} (found : final.server.sessions.lookup client = some session)
    (waiting : session.writeQueue ≠ []) : (session.frontLine library).isSome = true := by
  rcases List.exists_cons_of_ne_nil waiting with ⟨front, later, isQueue⟩
  rcases runs_transmits runs client session found with ⟨written, texts, part, sends⟩
  have isQueued : front ∈ session.queued := by
    rw [sends.queued, isQueue]
    exact List.mem_append_right _ List.mem_cons_self
  have writable := ServerState.runs_writable (runs_server runs) found front isQueued
  rw [ClientSession.frontLine, isQueue, List.head?_cons, Option.bind_some, lineOf,
    Option.isSome_map]
  exact (serializeServerMessage_isSome lawful front).mpr writable

end Runs

end OutputStream

end ClearSpace.Server
