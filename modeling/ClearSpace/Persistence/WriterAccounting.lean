import ClearSpace.Foundation.Threads
import ClearSpace.Persistence.SnapshotWriter

/-! # What the snapshot writer owes

`pending_` counts the snapshots that were enqueued and are not worked off yet.
From this count follow that the worker hands every snapshot to the store once
and in order, that a flush waits for what was enqueued before it, and that the
destructor leaves nothing behind. -/

namespace ClearSpace.Persistence

open ClearSpace.Core

/-! ## The count -/

def Caller.IsCounted : Caller → Prop
  | .counted _ => True
  | _ => False

/-- The worker has a task that it has not taken off `pending_` yet. -/
def Worker.owed : Worker → Nat
  | .holding _ => 1
  | .saved _ => 1
  | .processed => 1
  | _ => 0

def Worker.taken : Worker → List PersistedBoardSnapshot
  | .holding task => [task]
  | _ => []

@[simp] theorem Worker.notified_owed (worker : Worker) :
    worker.notified.owed = worker.owed := by
  cases worker <;> rfl

@[simp] theorem Worker.notified_taken (worker : Worker) :
    worker.notified.taken = worker.taken := by
  cases worker <;> rfl

private theorem Caller.notified_isCounted (caller : Caller) :
    caller.notified.IsCounted ↔ caller.IsCounted := by
  cases caller <;> rfl

namespace SnapshotWriter

/-- The threads between the increment and the push of an `enqueue`. -/
def counting (state : SnapshotWriter) : Set Nat :=
  Threads.which Caller.IsCounted state.callers

structure Counts (state : SnapshotWriter) : Prop where
  finite : state.counting.Finite
  pending : state.pending =
    state.queue.length + state.counting.ncard + state.worker.owed
  order : state.pushed = state.handed ++ state.worker.taken ++ state.queue

private theorem Counts.processed_pos {state : SnapshotWriter} (holds : state.Counts)
    (doing : state.worker = .processed) : 0 < state.pending := by
  rw [holds.pending, doing]
  exact Nat.succ_pos _

private theorem Counts.handed_all {state : SnapshotWriter} (holds : state.Counts)
    (done : state.pending = 0) : state.handed = state.pushed := by
  have count := holds.pending
  have empty : state.queue = [] := List.length_eq_zero_iff.mp (by omega)
  have free : state.worker.owed = 0 := by omega
  have nothing : state.worker.taken = [] := by
    cases atWork : state.worker with
    | holding task =>
        rw [atWork] at free
        cases free
    | _ => rfl
  rw [holds.order, nothing, empty, List.append_nil, List.append_nil]

private theorem initial_counts (keepLatest : Nat) : Counts { keepLatest } where
  finite := Set.finite_empty
  pending := by
    have none : counting { keepLatest } = ∅ := rfl
    rw [none, Set.ncard_empty]
    rfl
  order := rfl

/-- Only the increment and the push of an `enqueue` change who is between the
two. -/
theorem counting_goTo {state : SnapshotWriter} {thread : Nat} {next : Caller}
    (before : ¬ (state.callers thread).IsCounted) (after : ¬ next.IsCounted) :
    (state.goTo thread next).counting = state.counting :=
  Threads.which_stay before after

theorem Counts.goTo {state : SnapshotWriter} (holds : state.Counts) {thread : Nat}
    {current : Caller} (doing : state.callers thread = current) (next : Caller)
    (before : ¬ current.IsCounted) (after : ¬ next.IsCounted) :
    (state.goTo thread next).Counts := by
  rw [← doing] at before
  have same := counting_goTo before after
  constructor
  · rw [same]
    exact holds.finite
  · rw [same]
    exact holds.pending
  · exact holds.order

/-- A worker that is woken, or goes to sleep, has nothing in hand before and
after. -/
theorem Counts.withWorker {state : SnapshotWriter} (holds : state.Counts)
    (worker : Worker) (owed : worker.owed = state.worker.owed)
    (taken : worker.taken = state.worker.taken) :
    Counts { state with worker := worker } where
  finite := holds.finite
  pending := by
    change _ = _ + _ + worker.owed
    rw [owed]
    exact holds.pending
  order := by
    change _ = _ ++ worker.taken ++ _
    rw [taken]
    exact holds.order

theorem Counts.enqueue {state : SnapshotWriter} (holds : state.Counts) {thread : Nat}
    (doing : state.callers thread = .idle) (snapshot : PersistedBoardSnapshot) :
    Counts ({ state with pending := state.pending + 1 }.goTo thread
      (.counted snapshot)) := by
  have notBefore : ¬ (state.callers thread).IsCounted := by
    rw [doing]
    exact id
  have after : (Caller.counted snapshot).IsCounted := trivial
  have entered : (state.goTo thread (.counted snapshot)).counting =
      insert thread state.counting :=
    Threads.which_enter after
  have more : (state.goTo thread (.counted snapshot)).counting.ncard =
      state.counting.ncard + 1 :=
    Threads.ncard_enter holds.finite notBefore after
  constructor
  · change (state.goTo thread (.counted snapshot)).counting.Finite
    rw [entered]
    exact holds.finite.insert thread
  · change state.pending + 1 = state.queue.length +
      (state.goTo thread (.counted snapshot)).counting.ncard + state.worker.owed
    have count := holds.pending
    omega
  · exact holds.order

theorem Counts.push {state : SnapshotWriter} (holds : state.Counts) {thread : Nat}
    {snapshot : PersistedBoardSnapshot}
    (doing : state.callers thread = .counted snapshot) (position : Nat) :
    Counts ({ state with
        queue := state.queue ++ [snapshot]
        pushed := state.pushed ++ [snapshot] }.goTo thread (.pushed position)) := by
  have before : (state.callers thread).IsCounted := by
    rw [doing]
    trivial
  have notAfter : ¬ (Caller.pushed position).IsCounted := id
  have left : (state.goTo thread (.pushed position)).counting =
      state.counting \ {thread} :=
    Threads.which_leave notAfter
  have less : (state.goTo thread (.pushed position)).counting.ncard + 1 =
      state.counting.ncard :=
    Threads.ncard_leave holds.finite before notAfter
  constructor
  · change (state.goTo thread (.pushed position)).counting.Finite
    rw [left]
    exact holds.finite.sdiff
  · change state.pending = (state.queue ++ [snapshot]).length +
      (state.goTo thread (.pushed position)).counting.ncard + state.worker.owed
    have count := holds.pending
    rw [List.length_append, List.length_singleton]
    omega
  · change state.pushed ++ [snapshot] =
      state.handed ++ state.worker.taken ++ (state.queue ++ [snapshot])
    rw [holds.order, List.append_assoc _ state.queue]

theorem Counts.pop {state : SnapshotWriter} (holds : state.Counts)
    {task : PersistedBoardSnapshot} {rest : List PersistedBoardSnapshot}
    (doing : state.worker = .locking) (queued : state.queue = task :: rest) :
    Counts { state with worker := .holding task, queue := rest } := by
  have count := holds.pending
  have order := holds.order
  rw [doing, queued] at count order
  constructor
  · exact holds.finite
  · change state.pending = rest.length + state.counting.ncard + 1
    change state.pending = rest.length + 1 + state.counting.ncard + 0 at count
    omega
  · change state.pushed = state.handed ++ [task] ++ rest
    change state.pushed = state.handed ++ [] ++ (task :: rest) at order
    rw [order, List.append_nil, List.append_assoc]
    rfl

theorem Counts.save {state : SnapshotWriter} (holds : state.Counts)
    {task : PersistedBoardSnapshot} (doing : state.worker = .holding task)
    (throws : Bool) :
    Counts { state with
      worker := if throws then .processed else .saved task
      handed := state.handed ++ [task] } := by
  have count := holds.pending
  have order := holds.order
  rw [doing] at count order
  have nothing : (if throws then Worker.processed else .saved task).taken = [] := by
    cases throws <;> rfl
  constructor
  · exact holds.finite
  · cases throws <;> exact count
  · change state.pushed = state.handed ++ [task] ++
      (if throws then Worker.processed else .saved task).taken ++ state.queue
    rw [nothing, List.append_nil]
    exact order

theorem Counts.decrement {state : SnapshotWriter} (holds : state.Counts)
    (doing : state.worker = .processed) :
    Counts { state with worker := .decremented, pending := state.pending - 1 } := by
  have count := holds.pending
  have order := holds.order
  rw [doing] at count order
  constructor
  · exact holds.finite
  · change state.pending - 1 = state.queue.length + state.counting.ncard + 0
    change state.pending = state.queue.length + state.counting.ncard + 1 at count
    omega
  · exact order

theorem Counts.notifyFlush {state : SnapshotWriter} (holds : state.Counts)
    (doing : state.worker = .decremented) :
    Counts { state with
      worker := .locking
      callers := fun thread => (state.callers thread).notified } := by
  have same : Threads.which Caller.IsCounted
      (fun thread => (state.callers thread).notified) = state.counting := by
    ext thread
    exact (state.callers thread).notified_isCounted
  have count := holds.pending
  have order := holds.order
  rw [doing] at count order
  constructor
  · change (Threads.which _ _).Finite
    rw [same]
    exact holds.finite
  · change _ = _ + (Threads.which _ _).ncard + 0
    rw [same]
    exact count
  · exact order

private theorem step_counts {state next : SnapshotWriter} {action : Action}
    (stepped : Stepped state action next) (holds : state.Counts) : next.Counts := by
  -- a wait that begins or ends leaves the worker without a task
  have rests : ∀ {current : Worker} (next : Worker), state.worker = current →
      next.owed = current.owed → next.taken = current.taken →
      Counts { state with worker := next } := by
    intro current next doing owed taken
    rw [← doing] at owed taken
    exact holds.withWorker next owed taken
  have woken := holds.withWorker state.worker.notified state.worker.notified_owed
    state.worker.notified_taken
  cases stepped with
  | enqueue thread snapshot doing => exact holds.enqueue doing snapshot
  | push thread snapshot doing => exact holds.push doing _
  | notifyOne thread position doing =>
      have moved := woken.goTo doing .idle id id
      exact ⟨moved.finite, moved.pending, moved.order⟩
  | flush thread doing => exact holds.goTo doing _ id id
  | lockFlush thread before doing free =>
      have moved := holds.goTo doing (.evaluating before) id id
      exact ⟨moved.finite, moved.pending, moved.order⟩
  | finished thread before doing done => exact holds.goTo doing _ id id
  | unfinished thread before doing more => exact holds.goTo doing _ id id
  | block thread before doing =>
      have moved := holds.goTo doing (.blocked before) id id
      exact ⟨moved.finite, moved.pending, moved.order⟩
  | wakeFlush thread before doing => exact holds.goTo doing _ id id
  | unlockFlush thread before doing =>
      have moved := holds.goTo doing .idle id id
      exact ⟨moved.finite, moved.pending, moved.order⟩
  | wait doing => exact rests .waiting doing rfl rfl
  | exit doing => exact rests .exited doing rfl rfl
  | pop task rest doing queued => exact holds.pop doing queued
  | wakeWorker doing => exact rests .locking doing rfl rfl
  | save task throws doing => exact holds.save doing throws
  | prune task throws doing =>
      have worked := rests .processed doing rfl rfl
      exact ⟨worked.finite, worked.pending, worked.order⟩
  | decrement doing => exact holds.decrement doing
  | notifyFlush doing => exact holds.notifyFlush doing
  | setStop doing => exact ⟨holds.finite, holds.pending, holds.order⟩
  | notifyWorker doing => exact ⟨woken.finite, woken.pending, woken.order⟩
  | join doing done => exact ⟨holds.finite, holds.pending, holds.order⟩

/-! ## Flushes -/

end SnapshotWriter

def Caller.positions : Caller → List Nat
  | .idle => []
  | .counted _ => []
  | .pushed position => [position]
  | .locking before => before
  | .evaluating before => before
  | .blocking before => before
  | .blocked before => before
  | .returning before => before

@[simp] theorem Caller.notified_positions (caller : Caller) :
    caller.notified.positions = caller.positions := by
  cases caller <;> rfl

namespace SnapshotWriter

/-- With so many snapshots pushed and so many handed over, every thread knows of
pushed ones only, and the flushes that are through had to wait for handed ones
only. -/
structure Waited (callers : Nat → Caller) (returned : List Nat)
    (flushed : List (List Nat)) (pushed handed : Nat) : Prop where
  known : ∀ thread, ∀ position ∈ (callers thread).positions, position < pushed
  returned : ∀ position ∈ returned, position < pushed
  returning : ∀ thread before, callers thread = .returning before →
    ∀ position ∈ before, position < handed
  flushed : ∀ before ∈ flushed, ∀ position ∈ before, position < handed

namespace Waited

variable {callers : Nat → Caller} {returned : List Nat} {flushed : List (List Nat)}
  {pushed handed : Nat}

theorem mono (holds : Waited callers returned flushed pushed handed)
    {morePushed moreHanded : Nat} (pushes : pushed ≤ morePushed)
    (hands : handed ≤ moreHanded) :
    Waited callers returned flushed morePushed moreHanded where
  known thread position known :=
    Nat.lt_of_lt_of_le (holds.known thread position known) pushes
  returned position known := Nat.lt_of_lt_of_le (holds.returned position known) pushes
  returning thread before doing position known :=
    Nat.lt_of_lt_of_le (holds.returning thread before doing position known) hands
  flushed before done position known :=
    Nat.lt_of_lt_of_le (holds.flushed before done position known) hands

theorem goTo (holds : Waited callers returned flushed pushed handed) (thread : Nat)
    (next : Caller) (known : ∀ position ∈ next.positions, position < pushed)
    (returning : ∀ before, next = .returning before →
      ∀ position ∈ before, position < handed) :
    Waited (Function.update callers thread next) returned flushed pushed handed where
  known other position member := by
    by_cases isThis : other = thread
    · rw [isThis, Function.update_self] at member
      exact known position member
    · rw [Function.update_of_ne isThis] at member
      exact holds.known other position member
  returned := holds.returned
  returning other before doing := by
    by_cases isThis : other = thread
    · rw [isThis, Function.update_self] at doing
      exact returning before doing
    · rw [Function.update_of_ne isThis] at doing
      exact holds.returning other before doing
  flushed := holds.flushed

/-- A thread that goes on in its flush, but not to its end, learns of nothing
new. -/
theorem goOn (holds : Waited callers returned flushed pushed handed) {thread : Nat}
    {current next : Caller} (doing : callers thread = current)
    (same : next.positions = current.positions)
    (goesOn : ∀ before, next ≠ .returning before) :
    Waited (Function.update callers thread next) returned flushed pushed handed := by
  apply holds.goTo thread next
  · intro position member
    rw [same, ← doing] at member
    exact holds.known thread position member
  · intro before isReturning
    exact absurd isReturning (goesOn before)

theorem notify (holds : Waited callers returned flushed pushed handed) :
    Waited (fun thread => (callers thread).notified) returned flushed pushed
      handed where
  known thread position member := by
    rw [Caller.notified_positions] at member
    exact holds.known thread position member
  returned := holds.returned
  returning thread before doing := by
    apply holds.returning thread before
    cases atWork : callers thread <;> rw [atWork] at doing <;> cases doing
    rfl
  flushed := holds.flushed

end Waited

def Remembers (state : SnapshotWriter) : Prop :=
  Waited state.callers state.returned state.flushed state.pushed.length
    state.handed.length

private theorem step_remembers {state next : SnapshotWriter} {action : Action}
    (stepped : Stepped state action next) (counts : state.Counts)
    (holds : state.Remembers) : next.Remembers := by
  cases stepped with
  | enqueue thread snapshot doing =>
      exact holds.goOn doing rfl nofun
  | push thread snapshot doing =>
      have more : state.pushed.length < (state.pushed ++ [snapshot]).length := by
        simp
      apply (holds.mono (Nat.le_of_lt more) (Nat.le_refl _)).goTo
      · intro position isThis
        rw [List.mem_singleton.mp isThis]
        exact more
      · intro before isReturning
        cases isReturning
  | notifyOne thread position doing =>
      have known : ∀ other ∈ position :: state.returned,
          other < state.pushed.length := by
        intro other member
        rcases List.mem_cons.mp member with isThis | before
        · apply holds.known thread
          rw [doing, isThis]
          exact List.mem_singleton_self position
        · exact holds.returned other before
      have moved := holds.goTo thread .idle nofun
        nofun
      exact { moved with returned := known }
  | flush thread doing =>
      exact holds.goTo thread _ holds.returned nofun
  | lockFlush thread before doing free =>
      exact holds.goOn doing rfl nofun
  | finished thread before doing done =>
      have known : ∀ position ∈ before, position < state.pushed.length := by
        intro position member
        apply holds.known thread
        rw [doing]
        exact member
      apply holds.goTo thread (.returning before) known
      intro _ isReturning
      cases isReturning
      rw [counts.handed_all done]
      exact known
  | unfinished thread before doing more =>
      exact holds.goOn doing rfl nofun
  | block thread before doing =>
      exact holds.goOn doing rfl nofun
  | wakeFlush thread before doing =>
      exact holds.goOn doing rfl nofun
  | unlockFlush thread before doing =>
      have moved := holds.goTo thread .idle nofun
        nofun
      have waited : ∀ other ∈ before :: state.flushed, ∀ position ∈ other,
          position < state.handed.length := by
        intro other member
        rcases List.mem_cons.mp member with isThis | earlier
        · rw [isThis]
          exact holds.returning thread before doing
        · exact holds.flushed other earlier
      exact { moved with flushed := waited }
  | save task throws doing =>
      apply holds.mono (Nat.le_refl _)
      simp
  | notifyFlush doing => exact holds.notify
  | _ => exact holds

/-! ## The worker's sleep -/

end SnapshotWriter

def Caller.Pushed : Caller → Prop
  | .pushed _ => True
  | _ => False

namespace SnapshotWriter

/-- The worker sleeps with work to do only while a notification is under way. -/
def Awake (state : SnapshotWriter) : Prop :=
  state.worker = .waiting → state.queue ≠ [] ∨ state.stop = true →
    (∃ thread, (state.callers thread).Pushed) ∨ state.destructor = .stopping

end SnapshotWriter

theorem Worker.notified_ne_waiting (worker : Worker) :
    worker.notified ≠ .waiting := by
  cases worker <;> exact nofun

namespace SnapshotWriter

theorem Awake.goTo {state : SnapshotWriter} (holds : state.Awake) {thread : Nat}
    {current : Caller} (doing : state.callers thread = current)
    (notPushed : ¬ current.Pushed) (next : Caller) :
    (state.goTo thread next).Awake := by
  rw [← doing] at notPushed
  intro waiting work
  rcases holds waiting work with pushed | stopping
  · exact .inl (Threads.exists_update pushed (fun isPushed => absurd isPushed notPushed))
  · exact .inr stopping

private theorem step_awake {state next : SnapshotWriter} {action : Action}
    (stepped : Stepped state action next) (holds : state.Awake) : next.Awake := by
  cases stepped with
  | enqueue thread snapshot doing =>
      exact holds.goTo doing id _
  | push thread snapshot doing =>
      intro _ _
      refine .inl ⟨thread, ?_⟩
      change (Function.update state.callers thread _ thread).Pushed
      rw [Function.update_self]
      trivial
  | notifyOne thread position doing =>
      intro waiting
      exact absurd waiting (Worker.notified_ne_waiting _)
  | flush thread doing => exact holds.goTo doing id _
  | lockFlush thread before doing free =>
      exact holds.goTo doing id _
  | finished thread before doing done =>
      exact holds.goTo doing id _
  | unfinished thread before doing more =>
      exact holds.goTo doing id _
  | block thread before doing =>
      exact holds.goTo doing id _
  | wakeFlush thread before doing =>
      exact holds.goTo doing id _
  | unlockFlush thread before doing =>
      exact holds.goTo doing id _
  | wait doing empty running =>
      intro _ work
      rcases work with queued | stopped
      · exact absurd empty queued
      · exact absurd stopped (Bool.eq_false_iff.mp running)
  | save task throws doing =>
      intro waiting
      cases throws <;> cases waiting
  | setStop doing =>
      intro _ _
      exact .inr rfl
  | notifyWorker doing =>
      intro waiting
      exact absurd waiting (Worker.notified_ne_waiting _)
  | join doing done =>
      intro waiting
      rw [done] at waiting
      cases waiting
  | _ =>
      intro waiting
      cases waiting

/-! ## The end -/

structure ShutDown (state : SnapshotWriter) : Prop where
  called : state.stop = true → state.destructor ≠ .notCalled
  atStop : state.pushedAtStop <+: state.pushed
  exited : state.worker = .exited →
    state.stop = true ∧ state.pushedAtStop <+: state.handed
  joined : state.destructor = .joined → state.worker = .exited

theorem ShutDown.work {state : SnapshotWriter} (holds : state.ShutDown)
    {current next : Worker} (doing : state.worker = current)
    (running : current ≠ .exited) (goesOn : next ≠ .exited) :
    ShutDown { state with worker := next } where
  called := holds.called
  atStop := holds.atStop
  exited isExited := absurd isExited goesOn
  joined isJoined := absurd (doing.symm.trans (holds.joined isJoined)) running

theorem ShutDown.notify {state : SnapshotWriter} (holds : state.ShutDown) :
    ShutDown { state with worker := state.worker.notified } := by
  cases doing : state.worker with
  | waiting =>
      exact holds.work doing nofun nofun
  | _ =>
      rw [← doing]
      have same : state.worker.notified = state.worker := by
        rw [doing]
        rfl
      rw [same]
      exact holds

private theorem step_shutDown {state next : SnapshotWriter} {action : Action}
    (stepped : Stepped state action next) (counts : state.Counts)
    (holds : state.ShutDown) : next.ShutDown := by
  cases stepped with
  | push thread snapshot doing =>
      exact { holds with atStop := holds.atStop.trans (List.prefix_append _ _) }
  | notifyOne thread position doing => exact { holds.notify with }
  | wait doing empty running =>
      exact holds.work doing nofun nofun
  | exit doing empty stopped =>
      have all := counts.order
      rw [doing, empty] at all
      change state.pushed = state.handed ++ [] ++ [] at all
      rw [List.append_nil, List.append_nil] at all
      refine { holds with exited := ?_, joined := fun _ => rfl }
      intro _
      exact ⟨stopped, all ▸ holds.atStop⟩
  | pop task rest doing queued =>
      exact { holds.work doing nofun
        (show Worker.holding task ≠ .exited from nofun) with }
  | wakeWorker doing =>
      exact holds.work doing nofun nofun
  | save task throws doing =>
      have goesOn : (if throws then Worker.processed else .saved task) ≠ .exited := by
        cases throws <;> exact nofun
      exact { holds.work doing nofun goesOn with
        exited := fun isExited => absurd isExited goesOn }
  | prune task throws doing =>
      exact { holds.work doing nofun
        (show Worker.processed ≠ .exited from nofun) with }
  | decrement doing =>
      exact { holds.work doing nofun
        (show Worker.decremented ≠ .exited from nofun) with }
  | notifyFlush doing =>
      exact { holds.work doing nofun
        (show Worker.locking ≠ .exited from nofun) with }
  | setStop doing =>
      refine ⟨?_, List.prefix_rfl, ?_, ?_⟩
      · intro _ notCalled
        cases notCalled
      · intro isExited
        exact absurd doing (holds.called (holds.exited isExited).1)
      · intro isJoined
        cases isJoined
  | notifyWorker doing =>
      have woken := holds.notify
      refine ⟨?_, woken.atStop, woken.exited, ?_⟩
      · intro _ notCalled
        cases notCalled
      · intro isJoined
        cases isJoined
  | join doing done =>
      refine ⟨?_, holds.atStop, holds.exited, fun _ => done⟩
      intro _ notCalled
      cases notCalled
  | _ => exact { holds with }

/-! ## Runs -/

structure Invariant (state : SnapshotWriter) : Prop where
  counts : state.Counts
  remembers : state.Remembers
  awake : state.Awake
  shutDown : state.ShutDown

theorem initial_invariant (keepLatest : Nat) : Invariant { keepLatest } where
  counts := initial_counts keepLatest
  remembers :=
    { known := fun _ _ known => absurd known List.not_mem_nil
      returned := fun _ known => absurd known List.not_mem_nil
      returning := fun _ _ doing => by cases doing
      flushed := fun _ known => absurd known List.not_mem_nil }
  awake waiting := by cases waiting
  shutDown :=
    { called := fun stopped => by cases stopped
      atStop := List.nil_prefix
      exited := fun exited => by cases exited
      joined := fun joined => by cases joined }

theorem step_invariant (state : SnapshotWriter) (action : Action)
    (next : SnapshotWriter) (_ : StepSystem.Any state action)
    (stepped : system.step state action = some next) (holds : state.Invariant) :
    next.Invariant :=
  have moved := step_cases stepped
  { counts := step_counts moved holds.counts
    remembers := step_remembers moved holds.counts holds.remembers
    awake := step_awake moved holds.awake
    shutDown := step_shutDown moved holds.counts holds.shutDown }

structure NothingLost (state : SnapshotWriter) : Prop where
  finite : state.counting.Finite
  pending : state.pending =
    state.queue.length + state.counting.ncard + state.worker.owed
  noUnderflow : state.worker = .processed → 0 < state.pending
  inOrder : state.handed <+: state.pushed
  flushed : ∀ before ∈ state.flushed, ∀ position ∈ before,
    position < state.handed.length
  awake : state.worker = .waiting → state.queue ≠ [] ∨ state.stop = true →
    (∃ thread, (state.callers thread).Pushed) ∨ state.destructor = .stopping
  joined : state.destructor = .joined → state.pushedAtStop <+: state.handed

private theorem Invariant.nothingLost {state : SnapshotWriter} (holds : state.Invariant) :
    state.NothingLost where
  finite := holds.counts.finite
  pending := holds.counts.pending
  noUnderflow := holds.counts.processed_pos
  inOrder := by
    rw [holds.counts.order, List.append_assoc]
    exact List.prefix_append _ _
  flushed := holds.remembers.flushed
  awake := holds.awake
  joined isJoined := (holds.shutDown.exited (holds.shutDown.joined isJoined)).2

/-- Whatever the interleaving, and whatever the store throws. -/
theorem nothing_lost {keepLatest : Nat} {actions : List Action}
    {final : SnapshotWriter}
    (runs : system.Runs StepSystem.Any { keepLatest } actions final) :
    final.NothingLost :=
  (runs.invariant step_invariant (initial_invariant keepLatest)).nothingLost

/-- Threads 0 and 1 enqueue, thread 2 flushes, and the store refuses the first
snapshot. -/
def refused : List Action :=
  [.take, .enqueue 0 ⟨1, 5, []⟩, .enqueue 1 ⟨1, 6, []⟩, .push 1, .push 0,
    .notifyOne 0, .take, .flush 2, .save true, .lockFlush 2, .evaluate 2, .block 2,
    .notifyOne 1, .decrement, .notifyFlush, .take, .save false, .setStop, .prune true,
    .decrement, .notifyFlush, .lockFlush 2, .evaluate 2, .unlockFlush 2, .take,
    .notifyWorker, .join]

theorem nothing_lost_refused :
    ∃ final, system.Runs StepSystem.Any { keepLatest := 3 } refused final ∧
      final.handed = [⟨1, 6, []⟩, ⟨1, 5, []⟩] ∧ final.flushed = [[1]] ∧
      final.destructor = .joined ∧ final.NothingLost := by
  have computed : (system.execute StepSystem.unchecked { keepLatest := 3 } refused).map
      (fun final => (final.handed, final.flushed, final.destructor)) =
      some ([⟨1, 6, []⟩, ⟨1, 5, []⟩], [[1]], .joined) := by
    decide
  rcases Option.map_eq_some_iff.mp computed with ⟨final, executed, seen⟩
  have runs := StepSystem.runs_of_unchecked executed
  simp only [Prod.mk.injEq] at seen
  exact ⟨final, runs, seen.1, seen.2.1, seen.2.2, nothing_lost runs⟩

end SnapshotWriter

end ClearSpace.Persistence
