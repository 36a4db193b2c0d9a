import ClearSpace.Persistence.SnapshotWriter

/-! # Flushes that sleep on

The worker counts down and notifies `flushCv_` without `flushM_`. A flush that
has found work pending and is about to block does not hear the notification. -/

namespace ClearSpace.Persistence

open ClearSpace.Core

/-- The thread is between the first step and the return of an `enqueue`. -/
def Caller.Enqueues : Caller → Prop
  | .counted _ => True
  | .pushed _ => True
  | _ => False

namespace SnapshotWriter

/-- The flush of a thread sleeps although nothing is pending and nobody is going
to wake it. -/
structure SleepsOn (state : SnapshotWriter) (thread : Nat) : Prop where
  blocked : ∃ before, state.callers thread = .blocked before
  nothingPending : state.pending = 0
  noEnqueue : ∀ other, ¬ (state.callers other).Enqueues
  notNotified : state.worker ≠ .decremented

/-- The worker does not announce that nothing is pending while a flush is
between its look at `pending_` and its sleep. -/
def Heard (state : SnapshotWriter) : Action → Prop
  | .notifyFlush => state.pending = 0 →
      ∀ thread before, state.callers thread ≠ .blocking before
  | _ => True

/-! ## The invariant -/

end SnapshotWriter

def Caller.Waits : Caller → Prop
  | .blocking _ => True
  | .blocked _ => True
  | _ => False

private theorem Caller.notified_enqueues (caller : Caller) :
    caller.notified.Enqueues ↔ caller.Enqueues := by
  cases caller <;> rfl

namespace SnapshotWriter

def Owing (state : SnapshotWriter) : Prop :=
  state.pending ≠ 0 ∨ state.worker = .decremented

def Attended (state : SnapshotWriter) : Prop :=
  ∀ thread, (state.callers thread).Waits → state.Owing

theorem Attended.goTo {state : SnapshotWriter} (holds : state.Attended) (thread : Nat)
    {next : Caller} (owing : next.Waits → state.Owing) :
    (state.goTo thread next).Attended := by
  intro other waits
  by_cases isThis : other = thread
  · rw [isThis] at waits
    change (Function.update state.callers thread next thread).Waits at waits
    rw [Function.update_self] at waits
    exact owing waits
  · change (Function.update state.callers thread next other).Waits at waits
    rw [Function.update_of_ne isThis] at waits
    exact holds other waits

theorem Attended.withWorker {state : SnapshotWriter} (holds : state.Attended)
    {current : Worker} (doing : state.worker = current)
    (notOwing : current ≠ .decremented) (next : Worker) :
    Attended { state with worker := next } := by
  intro thread waits
  rcases holds thread waits with pending | decremented
  · exact .inl pending
  · exact absurd (doing.symm.trans decremented) notOwing

theorem Attended.notify {state : SnapshotWriter} (holds : state.Attended) :
    Attended { state with worker := state.worker.notified } := by
  intro thread waits
  rcases holds thread waits with pending | decremented
  · exact .inl pending
  · right
    change state.worker.notified = .decremented
    rw [decremented]
    rfl

private theorem step_attended (state : SnapshotWriter) (action : Action)
    (next : SnapshotWriter) (heard : state.Heard action)
    (stepped : system.step state action = some next) (holds : state.Attended) :
    next.Attended := by
  have waiting : ∀ {thread current}, state.callers thread = current → current.Waits →
      state.Owing := by
    intro thread current doing waits
    rw [← doing] at waits
    exact holds thread waits
  cases step_cases stepped with
  | enqueue thread snapshot doing =>
      intro _ _
      exact .inl (Nat.succ_ne_zero _)
  | push thread snapshot doing => exact holds.goTo thread nofun
  | notifyOne thread position doing => exact holds.notify.goTo thread nofun
  | flush thread doing => exact holds.goTo thread nofun
  | lockFlush thread before doing free => exact holds.goTo thread nofun
  | finished thread before doing done => exact holds.goTo thread nofun
  | unfinished thread before doing more =>
      exact holds.goTo thread (fun _ => .inl more)
  | block thread before doing =>
      exact holds.goTo thread (fun _ => waiting doing trivial)
  | wakeFlush thread before doing => exact holds.goTo thread nofun
  | unlockFlush thread before doing => exact holds.goTo thread nofun
  | wait doing => exact holds.withWorker doing nofun _
  | exit doing => exact holds.withWorker doing nofun _
  | pop task rest doing queued => exact holds.withWorker doing nofun _
  | wakeWorker doing => exact holds.withWorker doing nofun _
  | save task throws doing => exact holds.withWorker doing nofun _
  | prune task throws doing => exact holds.withWorker doing nofun _
  | decrement doing =>
      intro _ _
      exact .inr rfl
  | notifyFlush doing =>
      -- the blocked flushes wake up; one on its way to block still sees work
      intro thread waits
      left
      intro done
      cases atWork : state.callers thread with
      | blocking before => exact heard done thread before atWork
      | _ =>
          change ((state.callers thread).notified).Waits at waits
          rw [atWork] at waits
          exact waits
  | setStop doing => exact holds
  | notifyWorker doing => exact holds.notify
  | join doing done => exact holds

/-! ## Runs -/

/-- As long as no notification goes unheard, no flush sleeps on. -/
theorem flush_wakes {keepLatest : Nat} {actions : List Action} {final : SnapshotWriter}
    (runs : system.Runs Heard { keepLatest } actions final) (thread : Nat) :
    ¬ final.SleepsOn thread := by
  intro sleeps
  have attended : final.Attended := runs.invariant step_attended nofun
  rcases sleeps.blocked with ⟨before, blocked⟩
  have waits : (final.callers thread).Waits := by
    rw [blocked]
    trivial
  rcases attended thread waits with pending | decremented
  · exact pending sleeps.nothingPending
  · exact sleeps.notNotified decremented

/-- Thread 1 is asleep by the time the worker finishes its task. -/
def heard : List Action :=
  [.enqueue 0 ⟨1, 5, []⟩, .push 0, .notifyOne 0, .take, .flush 1, .lockFlush 1,
    .evaluate 1, .block 1, .save false, .prune false, .decrement, .notifyFlush]

theorem flush_wakes_heard :
    ∃ final, system.Runs Heard {} heard final ∧ final.callers 1 = .locking [0] ∧
      ¬ final.SleepsOn 1 := by
  have runs : ∃ final, system.Runs Heard {} heard final ∧
      final.callers 1 = .locking [0] := by
    refine ⟨_, .cons trivial rfl (.cons trivial rfl (.cons trivial rfl
      (.cons trivial rfl (.cons trivial rfl (.cons trivial rfl (.cons trivial rfl
      (.cons trivial rfl (.cons trivial rfl (.cons trivial rfl (.cons trivial rfl
      (.cons ?_ rfl (.nil _)))))))))))), rfl⟩
    intro _ thread before blocking
    rcases thread with _ | _ | thread <;> cases blocking
  rcases runs with ⟨final, run, woken⟩
  exact ⟨final, run, woken, flush_wakes run 1⟩

/-- A notification that a flush does not hear is the last one it could hear. -/
theorem sleepsOn_of_unheard {state : SnapshotWriter} {thread : Nat} {before : List Nat}
    (notifies : state.worker = .decremented) (done : state.pending = 0)
    (doing : state.callers thread = .blocking before)
    (quiet : ∀ other, ¬ (state.callers other).Enqueues) :
    ∃ final, system.Runs StepSystem.Any state [.notifyFlush, .block thread] final ∧
      final.SleepsOn thread := by
  let middle : SnapshotWriter := { state with
    worker := .locking
    callers := fun other => (state.callers other).notified }
  have notified : system.step state .notifyFlush = some middle := by
    simp only [system, step, notifies]
    rfl
  have stillBlocking : middle.callers thread = .blocking before := by
    change (state.callers thread).notified = _
    rw [doing]
    rfl
  have blocks : system.step middle (.block thread) =
      some ({ middle with flushM := none }.goTo thread (.blocked before)) := by
    simp only [system, step, stillBlocking]
  refine ⟨_, .cons trivial notified (.cons trivial blocks (.nil _)), ?_⟩
  refine ⟨⟨before, Function.update_self ..⟩, done, ?_, ?_⟩
  · intro other enqueues
    change (Function.update middle.callers thread _ other).Enqueues at enqueues
    by_cases isThis : other = thread
    · rw [isThis, Function.update_self] at enqueues
      exact enqueues
    · rw [Function.update_of_ne isThis] at enqueues
      exact quiet other ((state.callers other).notified_enqueues.mp enqueues)
  · intro decremented
    cases decremented

/-- The worker finishes its task after thread 1 has seen it pending and before
the thread blocks. -/
def unheard : List Action :=
  [.enqueue 0 ⟨1, 5, []⟩, .push 0, .notifyOne 0, .take, .flush 1, .lockFlush 1,
    .evaluate 1, .save false, .prune false, .decrement, .notifyFlush, .block 1]

theorem flush_sleeps_on :
    ¬ ∀ actions final, system.Runs StepSystem.Any {} actions final →
      ∀ thread, ¬ final.SleepsOn thread := by
  intro never
  have executed : ∃ final,
      system.execute StepSystem.unchecked {} unheard = some final ∧
        final.SleepsOn 1 := by
    refine ⟨_, rfl, ⟨[0], rfl⟩, rfl, ?_, nofun⟩
    intro other enqueues
    rcases other with _ | _ | other <;> exact enqueues
  rcases executed with ⟨final, executed, sleeps⟩
  have runs := StepSystem.runs_of_unchecked executed
  exact never _ _ runs 1 sleeps

end SnapshotWriter

end ClearSpace.Persistence
