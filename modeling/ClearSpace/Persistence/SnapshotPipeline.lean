import ClearSpace.Persistence.StoreFailures
import ClearSpace.Persistence.WriterAccounting

/-! # The snapshot writer and its store

The writer of `main.cpp` over an SQLite store that may refuse any statement, in a
process that may end at any moment and be started again on the same database.
What `loadLatest` finds is the newest snapshot that the store has accepted, and
a flush that has returned, or a destructor, leaves none behind. -/

namespace ClearSpace.Persistence

open ClearSpace.Core

def SnapshotWriter.Action.callsStore : SnapshotWriter.Action → Bool
  | .save _ => true
  | .prune _ => true
  | _ => false

/-- The last two fields are history: what was saved before this process was
started, and the snapshots that `save` was handed, each with whether it returned. -/
structure SnapshotPipeline where
  writer : SnapshotWriter
  store : SqliteSnapshotStore
  earlier : List Saved := []
  attempts : List (PersistedBoardSnapshot × Bool) := []

namespace SnapshotPipeline

/-- A step comes with what the clock and SQLite have to say about it. -/
inductive Action
  | write (action : SnapshotWriter.Action)
  | save (replies : SqliteReplies) (savedAtMs id : Int64)
  | prune (replies : SqliteReplies) (visited : List Row)
  | restart (replies : InitStep → SqliteReply)

def entry (task : PersistedBoardSnapshot) (savedAtMs id : Int64) : Saved where
  id := id
  room := task.room
  savedAtMs := savedAtMs
  lastSeq := task.lastSeq
  strokes := task.strokes

def step (order : ByteOrder) (state : SnapshotPipeline) :
    Action → Option SnapshotPipeline
  | .write action =>
      if action.callsStore then none
      else (state.writer.step action).map fun writer => { state with writer }
  | .save replies savedAtMs id =>
      match state.writer.worker with
      | .holding task =>
          if state.store.sequence < id then
            let answer := state.store.save order replies (entry task savedAtMs id)
            (state.writer.step (.save (!answer.2.isOk))).map fun writer =>
              { state with
                writer, store := answer.1
                attempts := state.attempts ++ [(task, answer.2.isOk)] }
          else none
      | _ => none
  | .prune replies visited =>
      match state.writer.worker with
      | .saved task =>
          if state.store.Visits task.room visited then
            let answer := state.store.pruneKeepLatest replies task.room
              (.ofNat state.writer.keepLatest) visited
            (state.writer.step (.prune (!answer.2.isOk))).map fun writer =>
              { state with writer, store := answer.1 }
          else none
      | _ => none
  -- the constructor of the writer lets an exception of `init` through
  | .restart replies =>
      let opened := SqliteSnapshotStore.init { state.store with db := none } replies
      match opened.2.result with
      | .error _ => none
      | .ok _ =>
          some {
            writer := { keepLatest := state.writer.keepLatest }
            store := opened.1
            earlier := state.store.saved }

def system (order : ByteOrder) : StepSystem SnapshotPipeline Action := ⟨step order⟩

def start (keepLatest : UInt64) : SnapshotPipeline where
  writer := { keepLatest := keepLatest.toNat }
  store := (SqliteSnapshotStore.init {} SqliteReplies.succeed.init).1

/-- The clock reads later than for every stored row of the room, and the strokes
fit a blob. -/
def ClockAdvances (order : ByteOrder) (state : SnapshotPipeline) : Action → Prop
  | .save _ savedAtMs _ => ∀ task, state.writer.worker = .holding task →
      (∀ row ∈ state.store.rowsOf task.room, row.savedAtMs < savedAtMs) ∧
        SqliteSnapshotStore.FitsBlob order task.strokes
  | _ => True

/-! ## What was accepted -/

/-- The snapshots of this process that the store has accepted, in the order of
the pushes. -/
def kept (state : SnapshotPipeline) : List PersistedBoardSnapshot :=
  (state.attempts.filter Prod.snd).map Prod.fst

def newest (state : SnapshotPipeline) (room : RoomId) : Option PersistedBoardSnapshot :=
  ((state.earlier.map Saved.snapshot ++ state.kept).filter
    fun snapshot => snapshot.room = room).getLast?

/-- A flush that was called after the `enqueue` has returned, or the destructor. -/
def Settled (state : SnapshotPipeline) (position : Nat) : Prop :=
  (∃ before ∈ state.writer.flushed, position ∈ before) ∨
    state.writer.destructor = .joined ∧ position < state.writer.pushedAtStop.length

structure Keeps (order : ByteOrder) (keepLatest : UInt64) (state : SnapshotPipeline) :
    Prop where
  writer : state.writer.Invariant
  keep : UInt64.ofNat state.writer.keepLatest = keepLatest
  sound : state.store.Sound order
  latest : state.store.KeepsLatest keepLatest
  connected : state.store.db.isSome = true
  attempted : state.attempts.map Prod.fst = state.writer.handed
  saved : state.store.saved.map Saved.snapshot =
    state.earlier.map Saved.snapshot ++ state.kept

theorem start_keeps (order : ByteOrder) (keepLatest : UInt64) :
    (start keepLatest).Keeps order keepLatest where
  writer := SnapshotWriter.initial_invariant _
  keep := UInt64.ofNat_toNat
  sound := SqliteSnapshotStore.initial_sound.connect _
  latest := SqliteSnapshotStore.initial_keepsLatest.connect _
  connected := rfl
  attempted := rfl
  saved := rfl

/-! ## Steps of the writer -/

section Writer

variable {writer next : SnapshotWriter} {action : SnapshotWriter.Action}

theorem invariant_step (stepped : writer.step action = some next)
    (holds : writer.Invariant) : next.Invariant :=
  SnapshotWriter.step_invariant writer action next trivial stepped holds

theorem keepLatest_eq (stepped : writer.step action = some next) :
    next.keepLatest = writer.keepLatest := by
  cases SnapshotWriter.step_cases stepped <;> rfl

private theorem handed_eq (stepped : writer.step action = some next)
    (ownStep : action.callsStore = false) : next.handed = writer.handed := by
  cases SnapshotWriter.step_cases stepped with
  | save => cases ownStep
  | _ => rfl

private theorem handed_save {task : PersistedBoardSnapshot} {throws : Bool}
    (holds : writer.worker = .holding task)
    (stepped : writer.step (.save throws) = some next) :
    next.handed = writer.handed ++ [task] := by
  cases SnapshotWriter.step_cases stepped with
  | save other _ doing =>
      cases holds.symm.trans doing
      rfl

private theorem handed_prune {throws : Bool}
    (stepped : writer.step (.prune throws) = some next) :
    next.handed = writer.handed := by
  cases SnapshotWriter.step_cases stepped
  rfl

end Writer

/-! ## Steps of the pipeline -/

section Steps

variable {order : ByteOrder} {keepLatest : UInt64} {state next : SnapshotPipeline}

private theorem Keeps.store_save (keeps : state.Keeps order keepLatest)
    {task : PersistedBoardSnapshot} {savedAtMs id : Int64} (replies : SqliteReplies)
    (fresh : state.store.sequence < id)
    (later : ∀ row ∈ state.store.rowsOf task.room, row.savedAtMs < savedAtMs)
    (fits : SqliteSnapshotStore.FitsBlob order task.strokes) :
    let answer := state.store.save order replies (entry task savedAtMs id)
    answer.1.Sound order ∧ answer.1.KeepsLatest keepLatest ∧ answer.1.db.isSome = true ∧
      answer.1.saved.map Saved.snapshot = state.store.saved.map Saved.snapshot ++
        (if answer.2.isOk then [task] else []) := by
  intro answer
  rcases state.store.save_cases order replies (entry task savedAtMs id) with
    ⟨connection, saved | ⟨error, failed⟩⟩
  · have isAnswer : answer = _ := saved
    rw [isAnswer]
    have sound := keeps.sound.connect connection
    refine ⟨sound.insert _ fresh fits,
      (keeps.latest.connect connection).insert sound _ fresh later, rfl, ?_⟩
    exact List.map_append
  · have isAnswer : answer = _ := failed
    rw [isAnswer]
    refine ⟨keeps.sound.connect connection, keeps.latest.connect connection, rfl, ?_⟩
    exact (List.append_nil _).symm

private theorem Keeps.store_prune (keeps : state.Keeps order keepLatest) {room : RoomId}
    {visited : List Row} (listing : state.store.Visits room visited)
    (replies : SqliteReplies) :
    let answer := state.store.pruneKeepLatest replies room keepLatest visited
    answer.1.Sound order ∧ answer.1.KeepsLatest keepLatest ∧ answer.1.db.isSome = true ∧
      answer.1.saved = state.store.saved := by
  intro answer
  rcases state.store.pruneKeepLatest_cases replies room keepLatest visited with
    ⟨connection, pruned | ⟨error, failed⟩⟩
  · have isAnswer : answer = _ := pruned
    rw [isAnswer]
    have sound := keeps.sound.connect connection
    refine ⟨sound.prune room keepLatest visited,
      (keeps.latest.connect connection).prune sound listing, ?_, ?_⟩
    · rw [SqliteSnapshotStore.prune_db]
      rfl
    · rw [SqliteSnapshotStore.prune_saved]
      rfl
  · have isAnswer : answer = _ := failed
    rw [isAnswer]
    exact ⟨keeps.sound.connect connection, keeps.latest.connect connection, rfl, rfl⟩

theorem step_keeps {action : Action} (advances : state.ClockAdvances order action)
    (stepped : state.step order action = some next)
    (keeps : state.Keeps order keepLatest) : next.Keeps order keepLatest := by
  cases action with
  | write action =>
      simp only [step] at stepped
      split at stepped
      next => cases stepped
      next ownStep =>
        rcases Option.map_eq_some_iff.mp stepped with ⟨writer, moved, rfl⟩
        refine { keeps with
          writer := invariant_step moved keeps.writer
          keep := ?_, attempted := ?_ }
        · rw [keepLatest_eq moved]
          exact keeps.keep
        · rw [handed_eq moved (Bool.eq_false_iff.mpr ownStep)]
          exact keeps.attempted
  | save replies savedAtMs id =>
      simp only [step] at stepped
      split at stepped
      next task holds =>
        split at stepped
        next fresh =>
          rcases Option.map_eq_some_iff.mp stepped with ⟨writer, moved, rfl⟩
          rcases advances task holds with ⟨later, fits⟩
          rcases keeps.store_save replies fresh later fits with
            ⟨sound, latest, connected, saved⟩
          refine {
            writer := invariant_step moved keeps.writer
            keep := ?_, sound := sound, latest := latest, connected := connected
            attempted := ?_, saved := ?_ }
          · rw [keepLatest_eq moved]
            exact keeps.keep
          · rw [handed_save holds moved, List.map_append, keeps.attempted]
            rfl
          · rw [saved, keeps.saved, List.append_assoc]
            apply congrArg (_ ++ ·)
            simp only [kept, List.filter_append, List.map_append]
            apply congrArg (_ ++ ·)
            split
            next isOk => simp [isOk]
            next refused => simp [refused]
        next => cases stepped
      next => cases stepped
  | prune replies visited =>
      simp only [step] at stepped
      split at stepped
      next task holds =>
        split at stepped
        next listing =>
          rcases Option.map_eq_some_iff.mp stepped with ⟨writer, moved, rfl⟩
          rw [keeps.keep]
          rcases keeps.store_prune listing replies with ⟨sound, latest, connected, saved⟩
          refine { keeps with
            writer := invariant_step moved keeps.writer
            keep := ?_, sound := sound, latest := latest, connected := connected
            attempted := ?_, saved := ?_ }
          · rw [keepLatest_eq moved]
            exact keeps.keep
          · rw [handed_prune moved]
            exact keeps.attempted
          · rw [saved]
            exact keeps.saved
        next => cases stepped
      next => cases stepped
  | restart replies =>
      simp only [step] at stepped
      split at stepped
      next => cases stepped
      next =>
        cases stepped
        rcases SqliteSnapshotStore.init_connects { state.store with db := none } replies
          with ⟨connection, opened⟩
        rw [opened]
        exact {
          writer := SnapshotWriter.initial_invariant _
          keep := keeps.keep
          sound := { keeps.sound with }
          latest := { keeps.latest with }
          connected := rfl
          attempted := rfl
          saved := (List.append_nil _).symm }

end Steps

/-! ## Runs -/

section Runs

variable {order : ByteOrder} {keepLatest : UInt64} {state : SnapshotPipeline}

theorem Keeps.pushed_of_attempt (keeps : state.Keeps order keepLatest) {position : Nat}
    {attempt : PersistedBoardSnapshot × Bool}
    (found : state.attempts[position]? = some attempt) :
    state.writer.pushed[position]? = some attempt.1 := by
  have isHanded : state.writer.handed[position]? = some attempt.1 := by
    rw [← keeps.attempted, List.getElem?_map, found]
    rfl
  have inHanded : position < state.writer.handed.length :=
    (List.getElem?_eq_some_iff.mp isHanded).1
  rw [keeps.writer.counts.order, List.append_assoc, List.getElem?_append_left inHanded]
  exact isHanded

private theorem Keeps.attempt_of_settled (keeps : state.Keeps order keepLatest)
    {position : Nat}
    (settled : state.Settled position) :
    ∃ snapshot accepted, state.attempts[position]? = some (snapshot, accepted) := by
  have handed : position < state.writer.handed.length := by
    rcases settled with ⟨before, isFlushed, member⟩ | ⟨isJoined, inTime⟩
    · exact keeps.writer.remembers.flushed before isFlushed position member
    · have shutDown := keeps.writer.shutDown
      have through := (shutDown.exited (shutDown.joined isJoined)).2
      exact Nat.lt_of_lt_of_le inTime through.length_le
  rw [← keeps.attempted, List.length_map] at handed
  exact ⟨_, _, List.getElem?_eq_getElem handed⟩

private theorem newest_eq (state : SnapshotPipeline) (room : RoomId) :
    state.newest room =
      (((state.attempts.filter
        fun attempt => attempt.1.room = room && attempt.2).getLast?).map Prod.fst).or
      ((state.earlier.map Saved.snapshot).filter
        fun snapshot => snapshot.room = room).getLast? := by
  rw [newest, List.filter_append, List.getLast?_append, kept, List.filter_map,
    List.filter_filter, List.getLast?_map]
  rfl

structure Durable (order : ByteOrder) (keepLatest : UInt64) (state : SnapshotPipeline)
    (room : RoomId) : Prop where
  loads : ∀ visited replies, state.store.Visits room visited →
    replies.statement = none →
    ∃ loaded, (state.store.loadLatest order replies visited).2 = .ok loaded ∧
      loaded.map StoredSnapshot.snapshot = state.newest room
  retains : ∃ count, keepLatest.toNat ≤ count ∧
    state.store.surviving room = (state.store.savedOf room).rtake count
  settled : ∀ position, state.Settled position →
    ∃ snapshot accepted, state.attempts[position]? = some (snapshot, accepted) ∧
      state.writer.pushed[position]? = some snapshot ∧
      (accepted = true → snapshot.room = room →
        ∃ later newer, position ≤ later ∧ state.writer.pushed[later]? = some newer ∧
          state.newest room = some newer)

theorem Keeps.newest_eq_savedOf (keeps : state.Keeps order keepLatest) (room : RoomId) :
    state.newest room = ((state.store.savedOf room).getLast?).map Saved.snapshot := by
  rw [newest, ← keeps.saved, List.filter_map, List.getLast?_map]
  rfl

theorem Keeps.durable (keeps : state.Keeps order keepLatest) (positive : keepLatest ≠ 0)
    (room : RoomId) : state.Durable order keepLatest room where
  loads visited replies listing executes := by
    rcases Option.isSome_iff_exists.mp keeps.connected with ⟨connection, connected⟩
    refine ⟨_, keeps.latest.loadLatest keeps.sound connected listing executes, ?_⟩
    rw [keeps.newest_eq_savedOf, keeps.latest.getLast?_surviving positive, Option.map_map]
    rfl
  retains := keeps.latest.survivors room
  settled position settled := by
    rcases keeps.attempt_of_settled settled with ⟨snapshot, accepted, found⟩
    refine ⟨snapshot, accepted, found, keeps.pushed_of_attempt found, ?_⟩
    intro isAccepted sameRoom
    have chosen : (decide (snapshot.room = room) && accepted) = true := by
      rw [isAccepted, Bool.and_true]
      exact decide_eq_true sameRoom
    rcases KeyedLists.getLast?_filter
        (fun attempt => attempt.1.room = room && attempt.2) found chosen with
      ⟨later, last, notBefore, isLater, isLast⟩
    refine ⟨later, last.1, notBefore, keeps.pushed_of_attempt isLater, ?_⟩
    rw [newest_eq, isLast]
    rfl

/-- Whatever the interleaving, whatever SQLite refuses and whenever the process
is started anew: `loadLatest` gives the newest snapshot of a room that was
accepted, the latest ones are stored, and what an `enqueue` has pushed that had
returned before the call of a flush, which has returned since, has been tried, and is
what is loaded unless a later one is. -/
theorem accepted_durable {actions : List Action} (positive : keepLatest ≠ 0)
    (runs : (system order).Runs (ClockAdvances order) (start keepLatest) actions state)
    (room : RoomId) : state.Durable order keepLatest room := by
  have keeps : state.Keeps order keepLatest := by
    apply runs.invariant _ (start_keeps order keepLatest)
    intro before action after advances stepped holds
    exact step_keeps advances stepped holds
  exact keeps.durable positive room

def clockAdvances (order : ByteOrder) (state : SnapshotPipeline) : Action → Bool
  | .save _ savedAtMs _ =>
      match state.writer.worker with
      | .holding task =>
          (state.store.rowsOf task.room).all (fun row => row.savedAtMs < savedAtMs) &&
            decide (SqliteSnapshotStore.FitsBlob order task.strokes)
      | _ => true
  | _ => true

theorem clockAdvances_sound (state : SnapshotPipeline) (action : Action)
    (checked : state.clockAdvances order action = true) :
    state.ClockAdvances order action := by
  cases action with
  | save replies savedAtMs id =>
      intro task holds
      simp only [clockAdvances, holds, Bool.and_eq_true, List.all_eq_true,
        decide_eq_true_eq] at checked
      exact checked
  | _ => trivial

/-- The process ends between a save and its prune. In the next one SQLite refuses
a snapshot, and a flush waits for the one after it. -/
def restarted : List Action :=
  [.write (.enqueue 0 ⟨1, 5, []⟩), .write (.push 0), .write .take,
    .save .succeed 1000 1, .restart fun _ => none,
    .write (.enqueue 0 ⟨1, 6, []⟩), .write (.push 0), .write (.notifyOne 0),
    .write .take, .save ⟨fun _ => none, some (.ascii "disk I/O error")⟩ 1001 2,
    .write (.enqueue 1 ⟨1, 7, []⟩), .write (.push 1), .write (.notifyOne 1),
    .write (.flush 2), .write .decrement, .write .notifyFlush, .write .take,
    .save .succeed 1002 2,
    .prune .succeed [⟨2, 1, 1002, 7, [1, 0, 0, 0, 0, 0, 0, 0]⟩,
      ⟨1, 1, 1000, 5, [1, 0, 0, 0, 0, 0, 0, 0]⟩],
    .write .decrement, .write (.lockFlush 2), .write (.evaluate 2),
    .write (.unlockFlush 2)]

theorem accepted_durable_restarted :
    ∃ final, (system .little).Runs (ClockAdvances .little) (start 1) restarted final ∧
      final.Settled 1 ∧ final.newest 1 = some ⟨1, 7, []⟩ ∧
      final.Durable .little 1 1 := by
  have computed : ((system .little).execute (clockAdvances .little) (start 1)
      restarted).map (fun final => (final.writer.flushed, final.newest 1)) =
      some ([[1, 0]], some ⟨1, 7, []⟩) := by
    decide
  rcases Option.map_eq_some_iff.mp computed with ⟨final, executed, seen⟩
  have runs := StepSystem.runs_of_execute clockAdvances_sound executed
  simp only [Prod.mk.injEq] at seen
  refine ⟨final, runs, .inl ⟨[1, 0], ?_, .head _⟩, seen.2,
    accepted_durable (by decide) runs 1⟩
  rw [seen.1]
  exact .head _

end Runs

end SnapshotPipeline

end ClearSpace.Persistence
