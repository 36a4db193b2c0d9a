import ClearSpace.Foundation.Progress
import ClearSpace.Persistence.WriterAccounting

/-! # The destructor returns

Once `stop_` is set and nobody enqueues any more, the worker has so many steps
left as its queue has work for it, and no thread that it waits for can fail to
come. So the destructor joins it, whatever the store throws and however the other
threads are scheduled. -/

namespace ClearSpace.Persistence

open ClearSpace.Core

def Worker.remaining : Worker → Nat
  | .exited => 0
  | .locking => 1
  | .waiting => 2
  | .decremented => 2
  | .processed => 3
  | .saved _ => 4
  | .holding _ => 5

def Destructor.remaining : Destructor → Nat
  | .notCalled => 3
  | .stopping => 2
  | .joining => 1
  | .joined => 0

theorem Worker.notified_remaining (worker : Worker) :
    worker.notified.remaining ≤ worker.remaining := by
  cases worker with
  | waiting => exact Nat.le_succ 1
  | _ => exact Nat.le_refl _

namespace SnapshotWriter

def Action.works : Action → Bool
  | .take => true
  | .save _ => true
  | .prune _ => true
  | .decrement => true
  | .notifyFlush => true
  | _ => false

/-- Nobody enqueues while the writer is destroyed. -/
def Closing (_ : SnapshotWriter) : Action → Prop
  | .push _ => False
  | _ => True

def work (state : SnapshotWriter) : Nat :=
  5 * state.queue.length + state.worker.remaining

structure Closed (snapshots : List PersistedBoardSnapshot) (state : SnapshotWriter) :
    Prop where
  holds : state.Invariant
  stopped : state.stop = true
  called : state.destructor ≠ .notCalled
  pushed : state.pushed = snapshots
  atStop : state.pushedAtStop = snapshots

variable {state next : SnapshotWriter} {action : Action}
  {pushed : List PersistedBoardSnapshot}

theorem step_closed (stepped : state.step action = some next)
    (closing : Closing state action) (closed : state.Closed pushed) :
    next.Closed pushed := by
  have holds := step_invariant state action next trivial stepped closed.holds
  cases step_cases stepped with
  | push => exact closing.elim
  | setStop doing => exact absurd doing closed.called
  | notifyWorker => exact { closed with holds, called := nofun }
  | join => exact { closed with holds, called := nofun }
  | _ => exact { closed with holds }

/-- A step of the loop leaves one less of them to do, and no other step adds to
them. -/
theorem step_work (stepped : state.step action = some next)
    (closing : Closing state action) (closed : state.Closed pushed) :
    (if action.works then 1 else 0) + next.work ≤ state.work := by
  cases step_cases stepped with
  | push => exact closing.elim
  | notifyOne =>
      have less := state.worker.notified_remaining
      simp only [Action.works, work, goTo, Bool.false_eq_true, if_false]
      omega
  | wait doing empty running =>
      rw [closed.stopped] at running
      cases running
  | exit doing empty stopped => simp [Action.works, work, doing, empty, Worker.remaining]
  | pop task rest doing queued =>
      simp only [Action.works, work, doing, queued, Worker.remaining, List.length_cons,
        if_true]
      omega
  | wakeWorker doing => simp [Action.works, work, doing, Worker.remaining]
  | save task throws doing =>
      cases throws with
      | false =>
          simp [Action.works, work, doing, Worker.remaining]
          omega
      | true =>
          simp [Action.works, work, doing, Worker.remaining]
          omega
  | prune task throws doing =>
      simp only [Action.works, work, doing, Worker.remaining, if_true]
      omega
  | decrement doing =>
      simp only [Action.works, work, doing, Worker.remaining, if_true]
      omega
  | notifyFlush doing =>
      simp only [Action.works, work, doing, Worker.remaining, if_true]
      omega
  | notifyWorker =>
      have less := state.worker.notified_remaining
      simp only [Action.works, work, Bool.false_eq_true, if_false]
      omega
  | _ => simp [Action.works, work, goTo]

/-! ## Progress -/

def left (state : SnapshotWriter) : Nat := state.work + state.destructor.remaining

private theorem left_lt_of_works (stepped : state.step action = some next)
    (closing : Closing state action) (closed : state.Closed pushed)
    (works : action.works = true) : next.left < state.left := by
  have same : next.destructor = state.destructor := by
    cases step_cases stepped <;> first | rfl | cases works
  have less := step_work stepped closing closed
  rw [works, if_pos rfl] at less
  rw [left, left, same]
  omega

/-- A worker that sleeps is about to be notified. -/
theorem Closed.notifies (closed : state.Closed pushed) (waiting : state.worker = .waiting)
    (joining : state.destructor = .joining) :
    ∃ thread next, state.step (.notifyOne thread) = some next ∧ next.left < state.left := by
  rcases closed.holds.awake waiting (.inr closed.stopped) with
    ⟨thread, isPushed⟩ | isStopping
  · cases doing : state.callers thread with
    | pushed position =>
        have stepped : (state.step (.notifyOne thread)).isSome = true := by
          simp only [step, doing]
          rfl
        rcases Option.isSome_iff_exists.mp stepped with ⟨next, isNext⟩
        refine ⟨thread, next, isNext, ?_⟩
        simp only [step, doing] at isNext
        cases isNext
        simp [left, work, goTo, waiting, Worker.notified, Worker.remaining]
    | _ =>
        rw [doing] at isPushed
        exact isPushed.elim
  · rw [joining] at isStopping
    cases isStopping

theorem Closed.progress (closed : state.Closed pushed)
    (notJoined : state.destructor ≠ .joined) :
    ∃ action next, Closing state action ∧ state.step action = some next ∧
      next.Closed pushed ∧ next.left < state.left := by
  -- the next step of the loop, when there is one
  have works : ∀ action : Action, Closing state action → action.works = true →
      (state.step action).isSome = true →
      ∃ action next, Closing state action ∧ state.step action = some next ∧
        next.Closed pushed ∧ next.left < state.left := by
    intro action closing itWorks enabled
    rcases Option.isSome_iff_exists.mp enabled with ⟨next, stepped⟩
    exact ⟨action, next, closing, stepped, step_closed stepped closing closed,
      left_lt_of_works stepped closing closed itWorks⟩
  cases called : state.destructor with
  | notCalled => exact absurd called closed.called
  | joined => exact absurd called notJoined
  | stopping =>
      have stepped : state.step .notifyWorker = some
          { state with worker := state.worker.notified, destructor := .joining } := by
        simp only [step, called]
      refine ⟨.notifyWorker, _, trivial, stepped, step_closed stepped trivial closed, ?_⟩
      have less := state.worker.notified_remaining
      simp only [left, work, called, Destructor.remaining]
      omega
  | joining =>
      cases doing : state.worker with
      | exited =>
          have stepped : state.step .join = some { state with destructor := .joined } := by
            simp only [step, called, doing]
          refine ⟨.join, _, trivial, stepped, step_closed stepped trivial closed, ?_⟩
          simp [left, work, called, Destructor.remaining]
      | waiting =>
          rcases closed.notifies doing called with ⟨thread, next, stepped, less⟩
          exact ⟨.notifyOne thread, next, trivial, stepped,
            step_closed stepped trivial closed, less⟩
      | locking => exact works .take trivial rfl (by simp only [step, doing]; rfl)
      | holding task =>
          exact works (.save false) trivial rfl (by simp only [step, doing]; rfl)
      | saved task =>
          exact works (.prune false) trivial rfl (by simp only [step, doing]; rfl)
      | processed => exact works .decrement trivial rfl (by simp only [step, doing]; rfl)
      | decremented =>
          exact works .notifyFlush trivial rfl (by simp only [step, doing]; rfl)

/-! ## The destructor -/

private theorem Closed.handed_of_joined (closed : state.Closed pushed)
    (joined : state.destructor = .joined) : state.handed = pushed := by
  have shutDown := closed.holds.shutDown
  have all : pushed <+: state.handed := by
    rw [← closed.atStop]
    exact (shutDown.exited (shutDown.joined joined)).2
  have part : state.handed <+: pushed := by
    rw [← closed.pushed, closed.holds.counts.order, List.append_assoc]
    exact List.prefix_append ..
  exact part.eq_of_length (Nat.le_antisymm part.length_le all.length_le)

/-- After `stop_` is set, with no `enqueue` under way or called any more, the worker
makes a bounded number of steps, however it is scheduled and whatever the store
throws. Wherever the threads have got to, the
destructor can still return, and then every snapshot pushed before has been
handed to the store. -/
theorem destructor_returns {keepLatest : Nat} {before after : List Action}
    {stopping final : SnapshotWriter}
    (runs : system.Runs StepSystem.Any { keepLatest } before state)
    (stops : state.step .setStop = some stopping)
    (closes : system.Runs Closing stopping after final) :
    after.countP Action.works ≤ 5 * state.queue.length + 5 ∧
      ∃ rest returned, system.Runs Closing final rest returned ∧
        returned.destructor = .joined ∧ returned.handed = state.pushed ∧
        rest.length ≤ final.left := by
  have holds := runs.invariant step_invariant (initial_invariant keepLatest)
  have closed : stopping.Closed state.pushed := by
    have still := step_invariant state .setStop stopping trivial stops holds
    cases step_cases stops
    exact ⟨still, rfl, nofun, rfl, rfl⟩
  have bound : stopping.work ≤ 5 * state.queue.length + 5 := by
    cases step_cases stops
    apply Nat.add_le_add_left
    cases state.worker <;> simp [Worker.remaining]
  have kept : final.Closed state.pushed := by
    apply closes.invariant _ closed
    intro state action next closing stepped closed
    exact step_closed stepped closing closed
  have few := closes.countP_le work Action.works
    (fun _ _ _ closing stepped closed =>
      ⟨step_closed stepped closing closed, step_work stepped closing closed⟩) closed
  refine ⟨by omega, ?_⟩
  have reaches : ∃ rest returned, system.Runs Closing final rest returned ∧
      returned.destructor = .joined ∧ rest.length ≤ final.left :=
    StepSystem.exists_runs_of_progress left
      (fun _ closed notJoined => closed.progress notJoined) final kept
  rcases reaches with ⟨rest, returned, continues, joined, short⟩
  have closedStill : returned.Closed state.pushed := by
    apply continues.invariant _ kept
    intro state action next closing stepped closed
    exact step_closed stepped closing closed
  exact ⟨rest, returned, continues, joined, closedStill.handed_of_joined joined, short⟩

def notPushing (_ : SnapshotWriter) : Action → Bool
  | .push _ => false
  | _ => true

private theorem notPushing_sound (state : SnapshotWriter) (action : Action)
    (checked : notPushing state action = true) : Closing state action := by
  cases action with
  | push thread => cases checked
  | _ => trivial

/-- A snapshot is under way to the store and one is queued when the writer is
destroyed; the store refuses the first. -/
def queuedAtStop : List Action :=
  [.enqueue 0 ⟨1, 5, []⟩, .push 0, .notifyOne 0, .take, .enqueue 1 ⟨2, 3, []⟩, .push 1]

theorem destructor_returns_queuedAtStop :
    ∃ state stopping final,
      system.Runs StepSystem.Any { keepLatest := 10 } queuedAtStop state ∧
      state.step .setStop = some stopping ∧
      system.Runs Closing stopping [.save true, .decrement] final ∧
      ∃ rest returned, system.Runs Closing final rest returned ∧
        returned.destructor = .joined ∧ returned.handed = [⟨1, 5, []⟩, ⟨2, 3, []⟩] ∧
        rest.length ≤ 9 := by
  have computed : ((system.execute StepSystem.unchecked { keepLatest := 10 }
      queuedAtStop).bind fun state => (state.step .setStop).bind fun stopping =>
        (system.execute notPushing stopping [.save true, .decrement]).map
          fun final => (state.pushed, final.left)) =
      some ([⟨1, 5, []⟩, ⟨2, 3, []⟩], 9) := by
    decide
  rcases Option.bind_eq_some_iff.mp computed with ⟨state, executed, later⟩
  rcases Option.bind_eq_some_iff.mp later with ⟨stopping, stops, last⟩
  rcases Option.map_eq_some_iff.mp last with ⟨final, closed, seen⟩
  simp only [Prod.mk.injEq] at seen
  have runs := StepSystem.runs_of_unchecked executed
  have closes := StepSystem.runs_of_execute notPushing_sound closed
  refine ⟨state, stopping, final, runs, stops, closes, ?_⟩
  rw [← seen.1, ← seen.2]
  exact (destructor_returns runs stops closes).2

end SnapshotWriter

end ClearSpace.Persistence
