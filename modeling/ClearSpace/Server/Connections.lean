import ClearSpace.Server.Delivery
import ClearSpace.Server.OutputStream
import ClearSpace.Server.Replies

/-! # Connections

Bytes both ways. `async_read_until` takes what arrives into the buffer of its session
until there is a newline in it, and a handler takes one line out of the buffer; the
replies go out as in `OutputStream`. A client that sends lines gets them answered one
after the other, however the bytes are cut and whatever the others do. -/

namespace ClearSpace.Server

open ClearSpace.Core ClearSpace.Transport Delimited StepSystem

/-- `arrived` is history: all the bytes taken from the socket of a client. -/
structure Connections where
  output : OutputStream
  readBuffer : ClientId → ByteString := fun _ => []
  arrived : ClientId → ByteString := fun _ => []

namespace Connections

/-- A read completes with `readLine`, not with that of the server, as the line comes
from the buffer. -/
inductive Action
  | output (action : OutputStream.Action)
  | receive (client : ClientId) (bytes : ByteString)
  | readLine (client : ClientId) (now : TimePoint)

section Steps

variable (library : JsonLibrary)

def request (state : Connections) (client : ClientId) :
    Except ProtocolError ClientMessage :=
  parseClientMessage library (getline newline (state.readBuffer client)).1

def step (state : Connections) : Action → Option Connections
  | .output (.server (.readLine ..)) => none
  | .output (.server .accept) =>
      (state.output.step library (.server .accept)).map fun output =>
        { output
          readBuffer := Function.update state.readBuffer state.output.server.nextClientId []
          arrived := Function.update state.arrived state.output.server.nextClientId [] }
  | .output action =>
      (state.output.step library action).map fun output => { state with output }
  | .receive client bytes =>
      (state.output.server.sessions.lookup client).bind fun session =>
        if session.reading ∧ newline ∉ state.readBuffer client then
          some { state with
            readBuffer :=
              Function.update state.readBuffer client (state.readBuffer client ++ bytes)
            arrived := Function.update state.arrived client (state.arrived client ++ bytes) }
        else none
  | .readLine client now =>
      if newline ∈ state.readBuffer client then
        (state.output.step library
          (.server (.readLine client (state.request library client) now))).map fun output =>
            { state with
              output
              readBuffer := Function.update state.readBuffer client
                (getline newline (state.readBuffer client)).2 }
      else none

def system : StepSystem Connections Action := ⟨step library⟩

def start (sink : Option (List PersistedBoardSnapshot)) : Connections where
  output := OutputStream.start sink

def serves (state : Connections) : Action → Option ServerState.Action
  | .output action => action.server?
  | .receive .. => none
  | .readLine client now => some (.readLine client (state.request library client) now)

def served (sink : Option (List PersistedBoardSnapshot)) (actions : List Action) :
    List ServerState.Action :=
  (system library).inputs (serves library) (start sink) actions

end Steps

def Transmits (library : JsonLibrary) (state : Connections) : Prop :=
  state.output.Transmits library

def Counted (state : Connections) (_ : Action) : Prop := state.output.server.CountersLeft

section Steps

variable {library : JsonLibrary} {state next : Connections} {action : Action}

/-- Every step is one of the server with its sockets, or none. -/
theorem step_output (stepped : state.step library action = some next) :
    next.output = state.output ∧ state.serves library action = none ∨
      ∃ inner : OutputStream.Action,
        state.output.step library inner = some next.output ∧
          inner.server? = state.serves library action := by
  unfold step at stepped
  split at stepped
  · cases stepped
  · rcases Option.map_eq_some_iff.mp stepped with ⟨output, moved, rfl⟩
    exact .inr ⟨_, moved, rfl⟩
  · rcases Option.map_eq_some_iff.mp stepped with ⟨output, moved, rfl⟩
    exact .inr ⟨_, moved, rfl⟩
  · rcases Option.bind_eq_some_iff.mp stepped with ⟨session, _, received⟩
    split at received
    · cases received
      exact .inl ⟨rfl, rfl⟩
    · cases received
  · split at stepped
    · rcases Option.map_eq_some_iff.mp stepped with ⟨output, moved, rfl⟩
      exact .inr ⟨_, moved, rfl⟩
    · cases stepped

theorem step_server (stepped : state.step library action = some next) :
    match state.serves library action with
    | none => next.output.server = state.output.server
    | some seen => state.output.server.step seen = some next.output.server := by
  rcases step_output stepped with ⟨same, nothing⟩ | ⟨inner, moved, isSeen⟩
  · rw [nothing, same]
  · rw [← isSeen]
    exact OutputStream.step_server moved

theorem step_transmits (stepped : state.step library action = some next)
    (transmits : state.Transmits library) : next.Transmits library := by
  rcases step_output stepped with ⟨same, _⟩ | ⟨inner, moved, _⟩
  · rw [Transmits, same]
    exact transmits
  · exact OutputStream.step_transmits moved transmits

end Steps

/-! ## Lines out of the buffer -/

/-- The lines that were handled are the first of what has arrived, and the buffer has
the rest of it. -/
structure Reads (library : JsonLibrary) (client : ClientId) (state : Connections)
    (served : List ServerState.Action) (lines : List ByteString) : Prop where
  closed : ∀ line ∈ lines, newline ∉ line
  arrived : state.arrived client =
    lines.flatMap (· ++ [newline]) ++ state.readBuffer client
  requests : served.filterMap (ServerState.Action.request? client) =
    lines.map (parseClientMessage library)
  unknown : state.output.server.sessions.lookup client = none → lines = []

section Reading

variable {library : JsonLibrary} {state next : Connections} {client : ClientId}
  {served : List ServerState.Action} {lines : List ByteString}

theorem Reads.keep (reads : state.Reads library client served lines)
    {seen : Option ServerState.Action} (bytes : ByteString)
    (quiet : seen.bind (ServerState.Action.request? client) = none)
    (arrived : next.arrived client = state.arrived client ++ bytes)
    (buffered : next.readBuffer client = state.readBuffer client ++ bytes)
    (missing : next.output.server.sessions.lookup client = none →
      state.output.server.sessions.lookup client = none) :
    next.Reads library client (served ++ seen.toList) lines where
  closed := reads.closed
  arrived := by rw [arrived, buffered, reads.arrived, List.append_assoc]
  requests := by
    rw [List.filterMap_append, reads.requests]
    cases seen with
    | none => exact List.append_nil _
    | some action =>
        have none : ServerState.Action.request? client action = none := quiet
        rw [Option.toList_some, List.filterMap_cons_none none]
        exact List.append_nil _
  unknown isMissing := reads.unknown (missing isMissing)

theorem Reads.take (reads : state.Reads library client served lines) {now : TimePoint}
    (ready : newline ∈ state.readBuffer client)
    (arrived : next.arrived client = state.arrived client)
    (buffered : next.readBuffer client =
      (getline newline (state.readBuffer client)).2)
    (known : next.output.server.sessions.lookup client ≠ none) :
    next.Reads library client
      (served ++ [.readLine client (state.request library client) now])
      (lines ++ [(getline newline (state.readBuffer client)).1]) := by
  rcases getline_eq ready with ⟨split, absent⟩
  refine ⟨?_, ?_, ?_, fun missing => absurd missing known⟩
  · intro line member
    rcases List.mem_append.mp member with earlier | last
    · exact reads.closed line earlier
    · rw [List.mem_singleton.mp last]
      exact absent
  · rw [arrived, buffered, reads.arrived, List.flatMap_append, List.flatMap_singleton,
      List.append_assoc, List.append_assoc, List.singleton_append, ← split]
  · have taken : ServerState.Action.request? client
        (.readLine client (state.request library client) now) =
        some (state.request library client) := if_pos rfl
    rw [List.filterMap_append, reads.requests, List.filterMap_cons_some taken,
      List.map_append]
    rfl

end Reading

/-! ## Conversations -/

section Runs

variable {library : JsonLibrary} {sink : Option (List PersistedBoardSnapshot)}
  {actions : List Action} {final : Connections}

theorem runs_server {state : Connections}
    (runs : (system library).Runs Counted state actions final) :
    ServerState.system.Runs ServerState.Counted state.output.server
      ((system library).inputs (serves library) state actions) final.output.server := by
  refine runs.projects (fun state => state.output.server) ?_
  intro state next action counted stepped
  have step := step_server stepped
  generalize state.serves library action = seen at step ⊢
  cases seen with
  | none => exact step
  | some seen => exact ⟨counted, step⟩

private theorem runs_transmits
    (runs : (system library).Runs Counted (start sink) actions final) :
    final.Transmits library := by
  have atStart : (start sink).Transmits library := by
    intro _ _ found
    cases found
  refine runs.invariant ?_ atStart
  intro state action next _ stepped
  exact step_transmits stepped

def counted (state : Connections) (_ : Action) : Bool :=
  decide state.output.server.CountersLeft

theorem counted_sound (state : Connections) (action : Action)
    (isCounted : state.counted action = true) : state.Counted action := by
  change state.output.server.CountersLeft
  exact of_decide_eq_true isCounted

end Runs

end Connections

end ClearSpace.Server
