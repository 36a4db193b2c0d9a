import ClearSpace.Server.SessionSteps

/-! # The write queue of a session

`deliver`, `doWrite`, `onWrite` and `stopImpl` of `client_session.cpp`, seen from
the queue. A started write refers to an element of the queue, so elements have
an identity here: the number of lines put in before. -/

namespace ClearSpace.Server

open StepSystem

structure QueuedLine (Line : Type) where
  id : Nat
  line : Line
  deriving DecidableEq, Repr

/-- `outstanding` has the elements whose writes have started and not completed.
`started`, `posted` and `written` are history, and `emptyPop` tells whether
`pop_front` was ever called on an empty queue. -/
structure WriteQueue (Line : Type) where
  writeQueue : List (QueuedLine Line) := []
  stopped : Bool := false
  outstanding : List Nat := []
  started : List Nat := []
  posted : List Line := []
  written : List Line := []
  emptyPop : Bool := false
  deriving DecidableEq, Repr

namespace WriteQueue

variable {Line : Type}

/-- `async_write` of the front element, unless the session has stopped. -/
def doWrite (queue : WriteQueue Line) : WriteQueue Line :=
  match queue.writeQueue with
  | [] => queue
  | front :: _ =>
      if queue.stopped then queue
      else { queue with
        outstanding := queue.outstanding ++ [front.id]
        started := queue.started ++ [front.id] }

def pushBack (queue : WriteQueue Line) (line : Line) : WriteQueue Line :=
  { queue with
    writeQueue := queue.writeQueue ++ [⟨queue.posted.length, line⟩]
    posted := queue.posted ++ [line] }

/-- The body that `deliver` posts. -/
def deliver (queue : WriteQueue Line) (line : Line) : WriteQueue Line :=
  let wasIdle := queue.writeQueue.isEmpty
  let queue := queue.pushBack line
  if wasIdle then queue.doWrite else queue

def popFront (queue : WriteQueue Line) : WriteQueue Line :=
  match queue.writeQueue with
  | [] => { queue with emptyPop := true }
  | _ :: rest => { queue with writeQueue := rest }

def stopImpl (queue : WriteQueue Line) : WriteQueue Line :=
  { queue with stopped := true }

def onWrite (queue : WriteQueue Line) (failed : Bool) : WriteQueue Line :=
  if failed then queue.stopImpl
  else
    let queue := queue.popFront
    if queue.writeQueue.isEmpty then queue else queue.doWrite

/-- What an element of the queue holds; nothing if it is no longer there. -/
def lineOf (queue : WriteQueue Line) (id : Nat) : List Line :=
  ((queue.writeQueue.find? (·.id = id)).map QueuedLine.line).toList

def complete (queue : WriteQueue Line) (id : Nat) (failed : Bool) : WriteQueue Line :=
  { queue with
    outstanding := queue.outstanding.erase id
    written := if failed then queue.written else queue.written ++ queue.lineOf id
  }.onWrite failed

inductive Action (Line : Type)
  | deliver (line : Line)
  | complete (id : Nat) (failed : Bool)
  | stop
  deriving DecidableEq, Repr

/-- Only a write that was started can complete. -/
def step (queue : WriteQueue Line) : Action Line → Option (WriteQueue Line)
  | .deliver line => some (queue.deliver line)
  | .complete id failed =>
      if id ∈ queue.outstanding then some (queue.complete id failed) else none
  | .stop => some queue.stopImpl

def system : StepSystem (WriteQueue Line) (Action Line) := ⟨step⟩

def Action.line? : Action Line → Option Line
  | .deliver line => some line
  | _ => none

/-! ## What starting a write leaves alone -/

theorem doWrite_of_stopped {queue : WriteQueue Line} (stopped : queue.stopped = true) :
    queue.doWrite = queue := by
  unfold doWrite
  split
  · rfl
  · exact if_pos stopped

theorem doWrite_frame (queue : WriteQueue Line) :
    queue.doWrite.writeQueue = queue.writeQueue ∧ queue.doWrite.posted = queue.posted ∧
      queue.doWrite.stopped = queue.stopped := by
  unfold doWrite
  split
  · exact ⟨rfl, rfl, rfl⟩
  · split <;> exact ⟨rfl, rfl, rfl⟩

theorem popFront_frame (queue : WriteQueue Line) :
    queue.popFront.posted = queue.posted ∧ queue.popFront.stopped = queue.stopped ∧
      queue.popFront.started = queue.started := by
  unfold popFront
  split <;> exact ⟨rfl, rfl, rfl⟩

private theorem onWrite_posted (queue : WriteQueue Line) (failed : Bool) :
    (queue.onWrite failed).posted = queue.posted := by
  unfold onWrite
  split
  · rfl
  · simp only
    split
    · exact queue.popFront_frame.1
    · exact queue.popFront.doWrite_frame.2.1.trans queue.popFront_frame.1

private theorem deliver_posted (queue : WriteQueue Line) (line : Line) :
    (queue.deliver line).posted = queue.posted ++ [line] := by
  unfold deliver
  simp only
  split
  · exact (queue.pushBack line).doWrite_frame.2.1
  · rfl

/-! ### After the stop -/

private theorem onWrite_stopped {queue : WriteQueue Line} (stopped : queue.stopped = true)
    (failed : Bool) :
    (queue.onWrite failed).stopped = true ∧
      (queue.onWrite failed).started = queue.started := by
  have popped : queue.popFront.stopped = true := queue.popFront_frame.2.1.trans stopped
  unfold onWrite
  split
  · exact ⟨rfl, rfl⟩
  · simp only [doWrite_of_stopped popped, ite_self]
    exact queue.popFront_frame.2.imp_left fun _ => popped

private theorem deliver_stopped {queue : WriteQueue Line} (stopped : queue.stopped = true)
    (line : Line) :
    (queue.deliver line).stopped = true ∧
      (queue.deliver line).started = queue.started := by
  have pushed : (queue.pushBack line).stopped = true := stopped
  unfold deliver
  simp only [doWrite_of_stopped pushed, ite_self]
  exact ⟨pushed, rfl⟩

/-! ## Order in the queue -/

/-- A write is under way for the front element or for none, and it is only when
stopped that elements wait without one. -/
structure Orderly (queue : WriteQueue Line) : Prop where
  writes : queue.outstanding = [] ∨
    ∃ front rest, queue.writeQueue = front :: rest ∧ queue.outstanding = [front.id]
  busy : queue.stopped = false → queue.writeQueue ≠ [] → queue.outstanding ≠ []
  held : ∀ element ∈ queue.writeQueue, queue.posted[element.id]? = some element.line
  noEmptyPop : queue.emptyPop = false
  conserved : queue.written ++ queue.writeQueue.map QueuedLine.line = queue.posted

theorem orderly_empty : ({} : WriteQueue Line).Orderly where
  writes := .inl rfl
  busy _ nonempty := absurd rfl nonempty
  held := nofun
  noEmptyPop := rfl
  conserved := rfl

theorem Orderly.doWrite {queue : WriteQueue Line} (none : queue.outstanding = [])
    (held : ∀ element ∈ queue.writeQueue, queue.posted[element.id]? = some element.line)
    (noEmptyPop : queue.emptyPop = false)
    (conserved : queue.written ++ queue.writeQueue.map QueuedLine.line = queue.posted) :
    queue.doWrite.Orderly := by
  unfold WriteQueue.doWrite
  split
  next empty =>
    exact ⟨.inl none, fun _ nonempty => absurd empty nonempty, held, noEmptyPop,
      conserved⟩
  next front rest split =>
    by_cases isStopped : queue.stopped = true
    · rw [if_pos isStopped]
      refine ⟨.inl none, fun notStopped => ?_, held, noEmptyPop, conserved⟩
      rw [isStopped] at notStopped
      cases notStopped
    · rw [if_neg isStopped]
      refine ⟨.inr ⟨front, rest, split, ?_⟩, fun _ _ => ?_, held, noEmptyPop, conserved⟩
      · rw [none]
        rfl
      · simp

theorem Orderly.deliver {queue : WriteQueue Line} (orderly : queue.Orderly)
    (line : Line) : (queue.deliver line).Orderly := by
  have held : ∀ element ∈ (queue.pushBack line).writeQueue,
      (queue.pushBack line).posted[element.id]? = some element.line := by
    intro element member
    rcases List.mem_append.mp member with old | isNew
    · have before := orderly.held element old
      have inPosted := (List.getElem?_eq_some_iff.mp before).1
      exact (List.getElem?_append_left inPosted).trans before
    · rw [List.mem_singleton.mp isNew]
      exact List.getElem?_concat_length
  have conserved : (queue.pushBack line).written ++
      (queue.pushBack line).writeQueue.map QueuedLine.line =
        (queue.pushBack line).posted := by
    simp only [pushBack, List.map_append, ← List.append_assoc, orderly.conserved]
    rfl
  unfold WriteQueue.deliver
  by_cases idle : queue.writeQueue = []
  · have none : queue.outstanding = [] := by
      rcases orderly.writes with none | ⟨front, rest, split, _⟩
      · exact none
      · rw [idle] at split
        cases split
    simp only [idle, List.isEmpty_nil, if_true]
    exact .doWrite none held orderly.noEmptyPop conserved
  · rcases List.exists_cons_of_ne_nil idle with ⟨front, rest, split⟩
    simp only [split, List.isEmpty_cons, Bool.false_eq_true, if_false]
    refine ⟨?_, fun notStopped _ => orderly.busy notStopped idle, held,
      orderly.noEmptyPop, conserved⟩
    rcases orderly.writes with none | ⟨other, others, otherSplit, one⟩
    · exact .inl none
    · refine .inr ⟨other, others ++ [⟨queue.posted.length, line⟩], ?_, one⟩
      simp only [pushBack, otherSplit, List.cons_append]

theorem Orderly.stopImpl {queue : WriteQueue Line} (orderly : queue.Orderly) :
    queue.stopImpl.Orderly :=
  { orderly with busy := nofun }

theorem Orderly.front_of_outstanding {queue : WriteQueue Line} (orderly : queue.Orderly)
    {id : Nat} (outstanding : id ∈ queue.outstanding) :
    ∃ front rest, queue.writeQueue = front :: rest ∧ front.id = id ∧
      queue.outstanding = [id] := by
  rcases orderly.writes with none | ⟨front, rest, split, one⟩
  · rw [none] at outstanding
    cases outstanding
  · rw [one, List.mem_singleton] at outstanding
    refine ⟨front, rest, split, outstanding.symm, ?_⟩
    rw [one, outstanding]

theorem Orderly.complete {queue : WriteQueue Line} (orderly : queue.Orderly) {id : Nat}
    (outstanding : id ∈ queue.outstanding) (failed : Bool) :
    (queue.complete id failed).Orderly := by
  rcases orderly.front_of_outstanding outstanding with ⟨front, rest, split, isFront, one⟩
  have ended : queue.outstanding.erase id = [] := by
    rw [one, List.erase_cons_head]
  cases failed with
  | true =>
      exact { orderly with
        writes := .inl ended
        busy := nofun }
  | false =>
      have line : queue.lineOf id = [front.line] := by
        simp [lineOf, split, isFront]
      have held : ∀ element ∈ rest, queue.posted[element.id]? = some element.line := by
        intro element member
        exact orderly.held element (by simp [split, member])
      have conserved : queue.written ++ [front.line] ++ rest.map QueuedLine.line =
          queue.posted := by
        rw [← orderly.conserved, split, List.map_cons, List.append_assoc,
          List.singleton_append]
      let popped : WriteQueue Line := { queue with
        writeQueue := rest
        outstanding := []
        written := queue.written ++ [front.line] }
      have completed : queue.complete id false =
          if popped.writeQueue.isEmpty then popped else popped.doWrite := by
        simp only [WriteQueue.complete, onWrite, popFront, split, ended, line,
          Bool.false_eq_true, if_false, popped]
      have next : popped.doWrite.Orderly := .doWrite rfl held orderly.noEmptyPop conserved
      rw [completed]
      cases rest with
      | nil => exact next
      | cons second others => exact next

theorem step_orderly {queue next : WriteQueue Line} {action : Action Line}
    (stepped : queue.step action = some next) (orderly : queue.Orderly) :
    next.Orderly := by
  cases action with
  | deliver line =>
      cases stepped
      exact orderly.deliver line
  | complete id failed =>
      rw [step] at stepped
      split at stepped
      next outstanding =>
        cases stepped
        exact orderly.complete outstanding failed
      next => cases stepped
  | stop =>
      cases stepped
      exact orderly.stopImpl

/-! ## Runs -/

private theorem step_posted {queue next : WriteQueue Line} {action : Action Line}
    (stepped : queue.step action = some next) :
    next.posted = queue.posted ++ action.line?.toList := by
  cases action with
  | deliver line =>
      cases stepped
      exact queue.deliver_posted line
  | complete id failed =>
      rw [step] at stepped
      split at stepped
      next =>
        cases stepped
        exact (onWrite_posted _ failed).trans (List.append_nil _).symm
      next => cases stepped
  | stop =>
      cases stepped
      exact (List.append_nil _).symm

private theorem step_stopped {queue next : WriteQueue Line} {action : Action Line}
    (stepped : queue.step action = some next) (stopped : queue.stopped = true) :
    next.stopped = true ∧ next.started = queue.started := by
  cases action with
  | deliver line =>
      cases stepped
      exact deliver_stopped stopped line
  | complete id failed =>
      rw [step] at stepped
      split at stepped
      next =>
        cases stepped
        refine onWrite_stopped ?_ failed
        exact stopped
      next => cases stepped
  | stop =>
      cases stepped
      exact ⟨rfl, rfl⟩

private theorem step_front {queue next : WriteQueue Line} {action : Action Line}
    (stepped : queue.step action = some next) (orderly : queue.Orderly) {id : Nat}
    (outstanding : id ∈ queue.outstanding)
    (pending : ∀ failed, action ≠ .complete id failed) :
    next.writeQueue.head? = queue.writeQueue.head? ∧ id ∈ next.outstanding := by
  rcases orderly.front_of_outstanding outstanding with ⟨front, rest, split, _, one⟩
  cases action with
  | deliver line =>
      cases stepped
      have busy : queue.deliver line = queue.pushBack line := by
        simp [deliver, split]
      rw [busy]
      exact ⟨by simp [pushBack, split], outstanding⟩
  | complete other failed =>
      rw [step] at stepped
      split at stepped
      next isOutstanding =>
        rw [one, List.mem_singleton] at isOutstanding
        exact absurd (by rw [isOutstanding]) (pending failed)
      next => cases stepped
  | stop =>
      cases stepped
      exact ⟨rfl, outstanding⟩

section Runs

variable {queue next : WriteQueue Line} {actions : List (Action Line)}

theorem runs_orderly (runs : system.Runs Any queue actions next)
    (orderly : queue.Orderly) : next.Orderly := by
  refine runs.invariant ?_ orderly
  intro state action following _ stepped holds
  exact step_orderly stepped holds

private theorem runs_posted (runs : system.Runs Any queue actions next) :
    next.posted = queue.posted ++ actions.filterMap Action.line? := by
  induction runs with
  | nil => simp
  | @cons state middle final action rest _ stepped _ induction =>
      rw [induction, step_posted stepped, List.filterMap_cons]
      cases action.line? <;> simp

private theorem runs_stopped (runs : system.Runs Any queue actions next)
    (stopped : queue.stopped = true) :
    next.stopped = true ∧ next.started = queue.started := by
  induction runs with
  | nil => exact ⟨stopped, rfl⟩
  | cons _ stepped _ induction =>
      rcases step_stopped stepped stopped with ⟨stillStopped, sameStarted⟩
      rcases induction stillStopped with ⟨finallyStopped, noneStarted⟩
      exact ⟨finallyStopped, noneStarted.trans sameStarted⟩

private theorem runs_front (runs : system.Runs Any queue actions next)
    (orderly : queue.Orderly)
    {id : Nat} (outstanding : id ∈ queue.outstanding)
    (pending : ∀ failed, .complete id failed ∉ actions) :
    next.writeQueue.head? = queue.writeQueue.head? ∧ id ∈ next.outstanding := by
  induction runs with
  | nil => exact ⟨rfl, outstanding⟩
  | cons _ stepped _ induction =>
      have now := step_front stepped orderly outstanding fun failed same =>
        pending failed (by simp [same])
      have later := induction (step_orderly stepped orderly) now.2 fun failed member =>
        pending failed (by simp [member])
      exact ⟨later.1.trans now.1, later.2⟩

end Runs

structure Delivers (queue : WriteQueue Line) (actions : List (Action Line)) : Prop where
  single : queue.outstanding.length ≤ 1
  busy : queue.stopped = false → (queue.outstanding ≠ [] ↔ queue.writeQueue ≠ [])
  front : ∀ id ∈ queue.outstanding, ∃ element, queue.writeQueue.head? = some element ∧
    element.id = id ∧ queue.posted[id]? = some element.line
  inPlace : ∀ id ∈ queue.outstanding, ∀ later next, system.Runs Any queue later next →
    (∀ failed, .complete id failed ∉ later) →
      next.writeQueue.head? = queue.writeQueue.head? ∧ id ∈ next.outstanding
  noEmptyPop : queue.emptyPop = false
  posted : queue.posted = actions.filterMap Action.line?
  conserved : queue.written ++ queue.writeQueue.map QueuedLine.line = queue.posted
  noneStarted : queue.stopped = true → ∀ later next, system.Runs Any queue later next →
    next.started = queue.started

/-- In every run of its handlers the queue neither overlaps nor loses, repeats
or reorders what it is given. -/
theorem write_queue_delivers (actions : List (Action Line)) (queue : WriteQueue Line)
    (runs : system.Runs Any {} actions queue) : queue.Delivers actions := by
  have orderly := runs_orderly runs orderly_empty
  have front : ∀ id ∈ queue.outstanding, ∃ element,
      queue.writeQueue.head? = some element ∧ element.id = id ∧
        queue.posted[id]? = some element.line := by
    intro id outstanding
    rcases orderly.front_of_outstanding outstanding with ⟨front, rest, split, rfl, _⟩
    exact ⟨front, by rw [split, List.head?_cons], rfl,
      orderly.held front (by simp [split])⟩
  refine ⟨?_, ?_, front, ?_, orderly.noEmptyPop, runs_posted runs, orderly.conserved, ?_⟩
  · rcases orderly.writes with none | ⟨_, _, _, one⟩
    · rw [none]
      exact Nat.zero_le 1
    · rw [one]
      exact Nat.le_refl 1
  · intro notStopped
    refine ⟨?_, orderly.busy notStopped⟩
    intro writing empty
    rcases List.exists_mem_of_ne_nil _ writing with ⟨id, outstanding⟩
    rcases front id outstanding with ⟨element, isFront, _⟩
    rw [empty] at isFront
    cases isFront
  · intro id outstanding later next ranOn pending
    exact runs_front ranOn orderly outstanding pending
  · intro stopped later next ranOn
    exact (runs_stopped ranOn stopped).2

/-- Two lines, of which the second waits for the first; then the socket fails. -/
def twoLines : List (Action String) :=
  [.deliver "pong", .deliver "ok", .complete 0 false, .deliver "error", .complete 1 true]

theorem write_queue_delivers_twoLines :
    ∃ queue : WriteQueue String, system.Runs Any {} twoLines queue ∧
      queue.written = ["pong"] ∧ queue.writeQueue.map QueuedLine.line = ["ok", "error"] ∧
      queue.Delivers twoLines := by
  have executed : system.execute unchecked ({} : WriteQueue String) twoLines = some
      { writeQueue := [⟨1, "ok"⟩, ⟨2, "error"⟩], stopped := true, started := [0, 1]
        posted := ["pong", "ok", "error"], written := ["pong"] } := by
    decide
  have runs := runs_of_unchecked executed
  exact ⟨_, runs, rfl, rfl, write_queue_delivers twoLines _ runs⟩

end WriteQueue

/-! ## The queues of a server -/

open ClearSpace.Core ClearSpace.Transport

structure SessionWrites where
  writeQueue : List ServerMessage
  queued : List ServerMessage
  stopped : Bool
  writing : Bool

def ClientSession.writes (session : ClientSession) : SessionWrites where
  writeQueue := session.writeQueue
  queued := session.queued
  stopped := session.stopped
  writing := session.writing

def WriteQueue.writes (queue : WriteQueue ServerMessage) : SessionWrites where
  writeQueue := queue.writeQueue.map QueuedLine.line
  queued := queue.posted
  stopped := queue.stopped
  writing := !queue.outstanding.isEmpty

namespace ClientSession

variable {session other : ClientSession} {queue : WriteQueue ServerMessage}

theorem doWrite_writes (same : session.writes = queue.writes) :
    session.doWrite.writes = queue.doWrite.writes := by
  have sameQueue : session.writeQueue = queue.writeQueue.map QueuedLine.line :=
    congrArg SessionWrites.writeQueue same
  have sameStopped : session.stopped = queue.stopped :=
    congrArg SessionWrites.stopped same
  unfold doWrite WriteQueue.doWrite
  rw [sameQueue, sameStopped]
  cases queue.writeQueue with
  | nil => exact same
  | cons front rest =>
      cases queue.stopped with
      | true => exact same
      | false =>
          simp [writes, WriteQueue.writes] at same ⊢
          exact same.2.1

private theorem push_writes (same : session.writes = queue.writes)
    (message : ServerMessage) :
    (session.push message).writes = (queue.deliver message).writes := by
  have sameQueue : session.writeQueue = queue.writeQueue.map QueuedLine.line :=
    congrArg SessionWrites.writeQueue same
  have pushed : { session with
      writeQueue := session.writeQueue ++ [message]
      queued := session.queued ++ [message] }.writes =
        (queue.pushBack message).writes := by
    simp only [writes, WriteQueue.writes, SessionWrites.mk.injEq] at same ⊢
    exact ⟨by simp [WriteQueue.pushBack, same.1], by simp [WriteQueue.pushBack, same.2.1],
      same.2.2⟩
  unfold push WriteQueue.deliver
  rw [sameQueue, List.isEmpty_map, ← sameQueue]
  simp only
  split
  · exact doWrite_writes pushed
  · exact pushed

private theorem onWrite_writes (same : session.writes = queue.writes)
    (orderly : queue.Orderly)
    {id : Nat} (outstanding : id ∈ queue.outstanding) :
    session.onWrite.writes = (queue.complete id false).writes := by
  rcases orderly.front_of_outstanding outstanding with ⟨front, rest, split, _, one⟩
  have popped : { session with
      writing := false
      writeQueue := session.writeQueue.tail }.writes =
        ({ queue with
          outstanding := queue.outstanding.erase id
          written := queue.written ++ queue.lineOf id
        } : WriteQueue ServerMessage).popFront.writes := by
    simp only [writes, WriteQueue.writes, SessionWrites.mk.injEq] at same ⊢
    simp [WriteQueue.popFront, split, one, same]
  have sameQueue := congrArg SessionWrites.writeQueue popped
  simp only [writes, WriteQueue.writes] at sameQueue
  have sameEmpty := congrArg List.isEmpty sameQueue
  rw [List.isEmpty_map] at sameEmpty
  unfold onWrite WriteQueue.complete WriteQueue.onWrite
  simp only [Bool.false_eq_true, if_false, sameEmpty]
  split
  · exact popped
  · exact doWrite_writes popped

def Queues (session : ClientSession) : Prop :=
  ∃ actions queue, WriteQueue.system.Runs Any {} actions queue ∧
    session.writes = queue.writes

theorem Queues.congr (queues : session.Queues) (same : other.writes = session.writes) :
    other.Queues := by
  rcases queues with ⟨actions, queue, runs, writes⟩
  exact ⟨actions, queue, runs, same.trans writes⟩

theorem Queues.push (queues : session.Queues) (message : ServerMessage) :
    (session.push message).Queues := by
  rcases queues with ⟨actions, queue, runs, writes⟩
  have stepped : WriteQueue.system.step queue (.deliver message) =
      some (queue.deliver message) := rfl
  exact ⟨_, _, runs.concat trivial stepped, push_writes writes message⟩

theorem Queues.outstanding {queue : WriteQueue ServerMessage}
    (writes : session.writes = queue.writes) (writing : session.writing = true) :
    ∃ id, id ∈ queue.outstanding := by
  have same : session.writing = !queue.outstanding.isEmpty :=
    congrArg SessionWrites.writing writes
  rw [writing] at same
  cases held : queue.outstanding with
  | nil =>
      rw [held] at same
      cases same
  | cons id rest => exact ⟨id, List.mem_cons_self⟩

theorem Queues.onWrite (queues : session.Queues) (writing : session.writing = true) :
    session.onWrite.Queues := by
  rcases queues with ⟨actions, queue, runs, writes⟩
  rcases Queues.outstanding writes writing with ⟨id, outstanding⟩
  have stepped : WriteQueue.system.step queue (.complete id false) =
      some (queue.complete id false) :=
    if_pos outstanding
  exact ⟨_, _, runs.concat trivial stepped, onWrite_writes writes
    (WriteQueue.runs_orderly runs WriteQueue.orderly_empty) outstanding⟩

theorem Queues.stop (queues : session.Queues)
    (same : other.writes = { session.writes with stopped := true }) : other.Queues := by
  rcases queues with ⟨actions, queue, runs, writes⟩
  have stepped : WriteQueue.system.step queue .stop = some queue.stopImpl := rfl
  refine ⟨_, _, runs.concat trivial stepped, ?_⟩
  rw [same, writes]
  rfl

theorem Queues.fail (queues : session.Queues) (writing : session.writing = true)
    (same : other.writes = { session.writes with stopped := true, writing := false }) :
    other.Queues := by
  rcases queues with ⟨actions, queue, runs, writes⟩
  rcases Queues.outstanding writes writing with ⟨id, outstanding⟩
  have orderly := WriteQueue.runs_orderly runs WriteQueue.orderly_empty
  rcases orderly.front_of_outstanding outstanding with ⟨_, _, _, _, one⟩
  have stepped : WriteQueue.system.step queue (.complete id true) =
      some (queue.complete id true) :=
    if_pos outstanding
  refine ⟨_, _, runs.concat trivial stepped, ?_⟩
  rw [same, writes]
  simp [WriteQueue.writes, WriteQueue.complete, WriteQueue.onWrite,
    WriteQueue.stopImpl, one]

end ClientSession

theorem doReadLine_writes (session : ClientSession) :
    session.doReadLine.writes = session.writes := by
  unfold ClientSession.doReadLine
  split <;> rfl

theorem stopImpl_writes (core : ServerCore) (client : ClientId)
    (session : ClientSession) :
    (stopImpl core client session).2.writes =
      { session.writes with stopped := true } := by
  unfold stopImpl
  split
  next stopped =>
    simp only [ClientSession.writes, stopped]
  next => rfl

namespace ServerState

def QueuesLines (state : ServerState) : Prop :=
  ∀ client session, state.sessions.lookup client = some session → session.Queues

theorem SessionStep.queues {state : ServerState} {client : ClientId}
    {before after : ClientSession} (step : SessionStep state client before after)
    (queues : before.Queues) : after.Queues := by
  cases step with
  | posted => exact queues.congr rfl
  | started => exact queues.congr (doReadLine_writes _)
  | pushed message tasks =>
      have popped : ClientSession.Queues { before with strand := tasks } :=
        queues.congr rfl
      exact popped.push message
  | stopped => exact queues.stop (stopImpl_writes _ _ _)
  | read => exact queues.congr rfl
  | readFailed => exact queues.stop (stopImpl_writes _ _ _)
  | wrote idle isWriting => exact queues.onWrite isWriting
  | writeFailed idle isWriting => exact queues.fail isWriting (stopImpl_writes _ _ _)
  | acted => exact queues.congr rfl
  | readAgain => exact queues.congr (doReadLine_writes _)

private theorem fresh_queues : ClientSession.Queues { strand := [.start] } :=
  ⟨[], {}, .nil _, rfl⟩

theorem step_queuesLines (state : ServerState) (action : Action) (next : ServerState)
    (_ : Any state action) (stepped : system.step state action = some next)
    (queues : state.QueuesLines) : next.QueuesLines :=
  step_sessions fresh_queues SessionStep.queues stepped queues

/-- The write queue of every session of a running server behaves as above. -/
theorem runs_queuesLines {sink : Option (List PersistedBoardSnapshot)}
    {actions : List Action} {final : ServerState}
    (runs : system.Runs Any (start sink) actions final) : final.QueuesLines :=
  runs.invariant step_queuesLines nofun

end ServerState

end ClearSpace.Server
