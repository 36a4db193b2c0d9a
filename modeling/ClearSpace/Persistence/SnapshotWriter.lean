import ClearSpace.Core.Types
import ClearSpace.Foundation.Execution
import Mathlib.Logic.Function.Basic

/-! # The snapshot writer

Threads that call `enqueue` and `flush`, the worker in `run_` and the destructor.
Every critical section and every atomic operation is one step; between two
steps of a thread the others may do as they like. -/

namespace ClearSpace.Persistence

open ClearSpace.Core

inductive Worker
  | locking
  | waiting
  | holding (task : PersistedBoardSnapshot)
  | saved (task : PersistedBoardSnapshot)
  | processed
  | decremented
  | exited
  deriving DecidableEq

/-- Where a thread is in `enqueue` or `flush`. A pushed snapshot is named by its
place in the order of the pushes, and a flush carries the snapshots whose
`enqueue` had returned when it was called. -/
inductive Caller
  | idle
  | counted (snapshot : PersistedBoardSnapshot)
  | pushed (position : Nat)
  | locking (before : List Nat)
  | evaluating (before : List Nat)
  | blocking (before : List Nat)
  | blocked (before : List Nat)
  | returning (before : List Nat)
  deriving DecidableEq

inductive Destructor
  | notCalled
  | stopping
  | joining
  | joined
  deriving DecidableEq

/-- `pending` counts snapshots that are in memory, so 64 bits suffice for it.
The last six fields are history: the snapshots in the order of the pushes, the
arguments of the calls of `save` and of `pruneKeepLatest`, the places of the
snapshots whose `enqueue` has returned, what the flushes that have returned had
to wait for, and what had been pushed when `stop_` was set. -/
structure SnapshotWriter where
  keepLatest : Nat := 10
  queue : List PersistedBoardSnapshot := []
  stop : Bool := false
  worker : Worker := .locking
  pending : Nat := 0
  flushM : Option Nat := none
  callers : Nat → Caller := fun _ => .idle
  destructor : Destructor := .notCalled
  pushed : List PersistedBoardSnapshot := []
  handed : List PersistedBoardSnapshot := []
  pruned : List (RoomId × Nat) := []
  returned : List Nat := []
  flushed : List (List Nat) := []
  pushedAtStop : List PersistedBoardSnapshot := []

def Worker.notified : Worker → Worker
  | .waiting => .locking
  | worker => worker

/-- A notification of `flushCv_`: the wait locks `flushM_` again before it
evaluates its predicate. -/
def Caller.notified : Caller → Caller
  | .blocked before => .locking before
  | caller => caller

namespace SnapshotWriter

inductive Action
  | enqueue (thread : Nat) (snapshot : PersistedBoardSnapshot)
  | push (thread : Nat)
  | notifyOne (thread : Nat)
  | flush (thread : Nat)
  | lockFlush (thread : Nat)
  | evaluate (thread : Nat)
  | block (thread : Nat)
  | wakeFlush (thread : Nat)
  | unlockFlush (thread : Nat)
  | take
  | wakeWorker
  | save (throws : Bool)
  | prune (throws : Bool)
  | decrement
  | notifyFlush
  | setStop
  | notifyWorker
  | join
  deriving DecidableEq

def goTo (state : SnapshotWriter) (thread : Nat) (caller : Caller) : SnapshotWriter :=
  { state with callers := Function.update state.callers thread caller }

/-- The critical section of `run_`. -/
def take (state : SnapshotWriter) : SnapshotWriter :=
  match state.stop, state.queue with
  | false, [] => { state with worker := .waiting }
  | true, [] => { state with worker := .exited }
  | _, task :: rest => { state with worker := .holding task, queue := rest }

/-- `wakeFlush` and `wakeWorker` are the spurious wake-ups of the two waits. -/
def step (state : SnapshotWriter) : Action → Option SnapshotWriter
  | .enqueue thread snapshot =>
      match state.callers thread with
      | .idle =>
          some ({ state with pending := state.pending + 1 }.goTo thread
            (.counted snapshot))
      | _ => none
  | .push thread =>
      match state.callers thread with
      | .counted snapshot =>
          some ({ state with
              queue := state.queue ++ [snapshot]
              pushed := state.pushed ++ [snapshot] }.goTo thread
            (.pushed state.pushed.length))
      | _ => none
  | .notifyOne thread =>
      match state.callers thread with
      | .pushed position =>
          some ({ state with
              worker := state.worker.notified
              returned := position :: state.returned }.goTo thread .idle)
      | _ => none
  | .flush thread =>
      match state.callers thread with
      | .idle => some (state.goTo thread (.locking state.returned))
      | _ => none
  | .lockFlush thread =>
      match state.callers thread, state.flushM with
      | .locking before, none =>
          some ({ state with flushM := some thread }.goTo thread (.evaluating before))
      | _, _ => none
  | .evaluate thread =>
      match state.callers thread with
      | .evaluating before =>
          some (state.goTo thread
            (if state.pending = 0 then .returning before else .blocking before))
      | _ => none
  | .block thread =>
      match state.callers thread with
      | .blocking before =>
          some ({ state with flushM := none }.goTo thread (.blocked before))
      | _ => none
  | .wakeFlush thread =>
      match state.callers thread with
      | .blocked before => some (state.goTo thread (.locking before))
      | _ => none
  | .unlockFlush thread =>
      match state.callers thread with
      | .returning before =>
          some ({ state with
              flushM := none
              flushed := before :: state.flushed }.goTo thread .idle)
      | _ => none
  | .take =>
      match state.worker with
      | .locking => some state.take
      | _ => none
  | .wakeWorker =>
      match state.worker with
      | .waiting => some { state with worker := .locking }
      | _ => none
  | .save throws =>
      match state.worker with
      | .holding task =>
          some { state with
            worker := if throws then .processed else .saved task
            handed := state.handed ++ [task] }
      | _ => none
  -- the handler swallows an exception, so both outcomes go on alike
  | .prune _ =>
      match state.worker with
      | .saved task =>
          some { state with
            worker := .processed
            pruned := state.pruned ++ [(task.room, state.keepLatest)] }
      | _ => none
  | .decrement =>
      match state.worker with
      | .processed =>
          some { state with worker := .decremented, pending := state.pending - 1 }
      | _ => none
  | .notifyFlush =>
      match state.worker with
      | .decremented =>
          some { state with
            worker := .locking
            callers := fun thread => (state.callers thread).notified }
      | _ => none
  | .setStop =>
      match state.destructor with
      | .notCalled =>
          some { state with
            stop := true, destructor := .stopping, pushedAtStop := state.pushed }
      | _ => none
  | .notifyWorker =>
      match state.destructor with
      | .stopping =>
          some { state with worker := state.worker.notified, destructor := .joining }
      | _ => none
  | .join =>
      match state.destructor, state.worker with
      | .joining, .exited => some { state with destructor := .joined }
      | _, _ => none

def system : StepSystem SnapshotWriter Action := ⟨step⟩

/-! ## What the steps do -/

inductive Stepped (state : SnapshotWriter) : Action → SnapshotWriter → Prop
  | enqueue (thread : Nat) (snapshot : PersistedBoardSnapshot)
      (doing : state.callers thread = .idle) :
      Stepped state (.enqueue thread snapshot)
        ({ state with pending := state.pending + 1 }.goTo thread (.counted snapshot))
  | push (thread : Nat) (snapshot : PersistedBoardSnapshot)
      (doing : state.callers thread = .counted snapshot) :
      Stepped state (.push thread)
        ({ state with
            queue := state.queue ++ [snapshot]
            pushed := state.pushed ++ [snapshot] }.goTo thread
          (.pushed state.pushed.length))
  | notifyOne (thread position : Nat)
      (doing : state.callers thread = .pushed position) :
      Stepped state (.notifyOne thread)
        ({ state with
            worker := state.worker.notified
            returned := position :: state.returned }.goTo thread .idle)
  | flush (thread : Nat) (doing : state.callers thread = .idle) :
      Stepped state (.flush thread) (state.goTo thread (.locking state.returned))
  | lockFlush (thread : Nat) (before : List Nat)
      (doing : state.callers thread = .locking before) (free : state.flushM = none) :
      Stepped state (.lockFlush thread)
        ({ state with flushM := some thread }.goTo thread (.evaluating before))
  | finished (thread : Nat) (before : List Nat)
      (doing : state.callers thread = .evaluating before) (done : state.pending = 0) :
      Stepped state (.evaluate thread) (state.goTo thread (.returning before))
  | unfinished (thread : Nat) (before : List Nat)
      (doing : state.callers thread = .evaluating before) (more : state.pending ≠ 0) :
      Stepped state (.evaluate thread) (state.goTo thread (.blocking before))
  | block (thread : Nat) (before : List Nat)
      (doing : state.callers thread = .blocking before) :
      Stepped state (.block thread)
        ({ state with flushM := none }.goTo thread (.blocked before))
  | wakeFlush (thread : Nat) (before : List Nat)
      (doing : state.callers thread = .blocked before) :
      Stepped state (.wakeFlush thread) (state.goTo thread (.locking before))
  | unlockFlush (thread : Nat) (before : List Nat)
      (doing : state.callers thread = .returning before) :
      Stepped state (.unlockFlush thread)
        ({ state with
            flushM := none
            flushed := before :: state.flushed }.goTo thread .idle)
  | wait (doing : state.worker = .locking) (empty : state.queue = [])
      (running : state.stop = false) :
      Stepped state .take { state with worker := .waiting }
  | exit (doing : state.worker = .locking) (empty : state.queue = [])
      (stopped : state.stop = true) :
      Stepped state .take { state with worker := .exited }
  | pop (task : PersistedBoardSnapshot) (rest : List PersistedBoardSnapshot)
      (doing : state.worker = .locking) (queued : state.queue = task :: rest) :
      Stepped state .take { state with worker := .holding task, queue := rest }
  | wakeWorker (doing : state.worker = .waiting) :
      Stepped state .wakeWorker { state with worker := .locking }
  | save (task : PersistedBoardSnapshot) (throws : Bool)
      (doing : state.worker = .holding task) :
      Stepped state (.save throws)
        { state with
          worker := if throws then .processed else .saved task
          handed := state.handed ++ [task] }
  | prune (task : PersistedBoardSnapshot) (throws : Bool)
      (doing : state.worker = .saved task) :
      Stepped state (.prune throws)
        { state with
          worker := .processed
          pruned := state.pruned ++ [(task.room, state.keepLatest)] }
  | decrement (doing : state.worker = .processed) :
      Stepped state .decrement
        { state with worker := .decremented, pending := state.pending - 1 }
  | notifyFlush (doing : state.worker = .decremented) :
      Stepped state .notifyFlush
        { state with
          worker := .locking
          callers := fun thread => (state.callers thread).notified }
  | setStop (doing : state.destructor = .notCalled) :
      Stepped state .setStop
        { state with
          stop := true, destructor := .stopping, pushedAtStop := state.pushed }
  | notifyWorker (doing : state.destructor = .stopping) :
      Stepped state .notifyWorker
        { state with worker := state.worker.notified, destructor := .joining }
  | join (doing : state.destructor = .joining) (done : state.worker = .exited) :
      Stepped state .join { state with destructor := .joined }

private theorem take_stepped {state : SnapshotWriter} (doing : state.worker = .locking) :
    Stepped state .take state.take := by
  unfold take
  split
  next running empty => exact .wait doing empty running
  next stopped empty => exact .exit doing empty stopped
  next task rest queued => exact .pop task rest doing queued

private theorem evaluate_stepped {state : SnapshotWriter} {thread : Nat}
    {before : List Nat}
    (doing : state.callers thread = .evaluating before) :
    Stepped state (.evaluate thread) (state.goTo thread
      (if state.pending = 0 then .returning before else .blocking before)) := by
  split
  next done => exact .finished thread before doing done
  next more => exact .unfinished thread before doing more

theorem step_cases {state next : SnapshotWriter} {action : Action}
    (stepped : state.step action = some next) : Stepped state action next := by
  cases action <;> simp only [step] at stepped <;> split at stepped <;> cases stepped
  next doing => exact .enqueue _ _ doing
  next doing => exact .push _ _ doing
  next doing => exact .notifyOne _ _ doing
  next doing => exact .flush _ doing
  next doing free => exact .lockFlush _ _ doing free
  next doing => exact evaluate_stepped doing
  next doing => exact .block _ _ doing
  next doing => exact .wakeFlush _ _ doing
  next doing => exact .unlockFlush _ _ doing
  next doing => exact take_stepped doing
  next doing => exact .wakeWorker doing
  next doing => exact .save _ _ doing
  next doing => exact .prune _ _ doing
  next doing => exact .decrement doing
  next doing => exact .notifyFlush doing
  next doing => exact .setStop doing
  next doing => exact .notifyWorker doing
  next doing done => exact .join doing done

end SnapshotWriter

end ClearSpace.Persistence
