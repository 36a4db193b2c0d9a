import ClearSpace.Core.ThreadedCore
import ClearSpace.Persistence.SnapshotPipeline

/-! # The program

What `main` puts together: the core, whose threads call `enqueue` of the writer,
and the store that the worker of the writer saves to. The process may end at any
moment and be started again on the same database. What is loaded from there was
once the board of its room. -/

namespace ClearSpace.App

open ClearSpace.Core ClearSpace.Persistence Linearization

structure Program where
  core : ThreadedCore
  pipeline : SnapshotPipeline

/-! ## Snapshots in the writer -/

/-- Every snapshot that the writer was given has the property. -/
structure Offered (Trait : PersistedBoardSnapshot → Prop)
    (pushed : List PersistedBoardSnapshot) (callers : Nat → Caller) : Prop where
  pushed : ∀ snapshot ∈ pushed, Trait snapshot
  counted : ∀ thread snapshot, callers thread = .counted snapshot → Trait snapshot

section Offered

variable {Trait : PersistedBoardSnapshot → Prop} {writer next : SnapshotWriter}
  {pushed : List PersistedBoardSnapshot} {callers : Nat → Caller}

theorem offered_nothing : Offered Trait [] fun _ => .idle where
  pushed _ member := absurd member List.not_mem_nil
  counted _ _ doing := by cases doing

theorem Offered.goTo (offered : Offered Trait pushed callers) {thread : Nat}
    {caller : Caller} (fits : ∀ snapshot, caller = .counted snapshot → Trait snapshot) :
    Offered Trait pushed (Function.update callers thread caller) where
  pushed := offered.pushed
  counted other snapshot doing := by
    by_cases same : other = thread
    · rw [same, Function.update_self] at doing
      exact fits snapshot doing
    · rw [Function.update_of_ne same] at doing
      exact offered.counted other snapshot doing

theorem Offered.push (offered : Offered Trait pushed callers) {thread : Nat}
    {snapshot : PersistedBoardSnapshot} (doing : callers thread = .counted snapshot) :
    Offered Trait (pushed ++ [snapshot]) callers where
  pushed other member := by
    rcases List.mem_append.mp member with earlier | last
    · exact offered.pushed other earlier
    · rw [List.mem_singleton.mp last]
      exact offered.counted thread snapshot doing
  counted := offered.counted

theorem Offered.notify (offered : Offered Trait pushed callers) :
    Offered Trait pushed fun thread => (callers thread).notified where
  pushed := offered.pushed
  counted thread snapshot doing := by
    apply offered.counted thread snapshot
    cases atWork : callers thread with
    | counted held =>
        rw [atWork] at doing
        exact doing
    | _ =>
        rw [atWork] at doing
        cases doing

theorem Offered.imp (offered : Offered Trait pushed callers)
    {Weaker : PersistedBoardSnapshot → Prop}
    (weaker : ∀ snapshot, Trait snapshot → Weaker snapshot) :
    Offered Weaker pushed callers where
  pushed snapshot member := weaker snapshot (offered.pushed snapshot member)
  counted thread snapshot doing :=
    weaker snapshot (offered.counted thread snapshot doing)

theorem Offered.step (offered : Offered Trait writer.pushed writer.callers)
    {action : SnapshotWriter.Action} (stepped : writer.step action = some next)
    (given : ∀ thread snapshot, action = .enqueue thread snapshot → Trait snapshot) :
    Offered Trait next.pushed next.callers := by
  cases SnapshotWriter.step_cases stepped with
  | enqueue thread snapshot doing =>
      apply offered.goTo
      intro other same
      cases same
      exact given thread snapshot rfl
  | push thread snapshot doing => exact (offered.push doing).goTo nofun
  | notifyOne => exact offered.goTo nofun
  | flush => exact offered.goTo nofun
  | lockFlush => exact offered.goTo nofun
  | finished => exact offered.goTo nofun
  | unfinished => exact offered.goTo nofun
  | block => exact offered.goTo nofun
  | wakeFlush => exact offered.goTo nofun
  | unlockFlush => exact offered.goTo nofun
  | notifyFlush => exact offered.notify
  | _ => exact offered

end Offered

private theorem offered_kept {Trait : PersistedBoardSnapshot → Prop} {order : ByteOrder}
    {keepLatest : UInt64} {pipeline : SnapshotPipeline}
    (keeps : pipeline.Keeps order keepLatest)
    (offered : Offered Trait pipeline.writer.pushed pipeline.writer.callers) :
    ∀ snapshot ∈ pipeline.kept, Trait snapshot := by
  intro snapshot member
  rcases List.mem_map.mp member with ⟨attempt, isKept, rfl⟩
  apply offered.pushed
  rw [keeps.writer.counts.order, ← keeps.attempted]
  exact List.mem_append_left _ (List.mem_append_left _
    (List.mem_map_of_mem (List.mem_filter.mp isKept).1))

private theorem pipeline_offered {Trait : PersistedBoardSnapshot → Prop}
    {order : ByteOrder}
    {pipeline next : SnapshotPipeline} {action : SnapshotPipeline.Action}
    (stepped : pipeline.step order action = some next)
    (goesOn : ∀ replies, action ≠ .restart replies)
    (given : ∀ thread snapshot, action = .write (.enqueue thread snapshot) →
      Trait snapshot)
    (offered : Offered Trait pipeline.writer.pushed pipeline.writer.callers) :
    Offered Trait next.writer.pushed next.writer.callers ∧
      next.earlier = pipeline.earlier := by
  cases action with
  | write action =>
      simp only [SnapshotPipeline.step] at stepped
      split at stepped
      next => cases stepped
      next =>
        rcases Option.map_eq_some_iff.mp stepped with ⟨writer, moved, rfl⟩
        refine ⟨offered.step moved ?_, rfl⟩
        intro thread snapshot same
        exact given thread snapshot (by rw [same])
  | save replies savedAtMs id =>
      simp only [SnapshotPipeline.step] at stepped
      split at stepped
      next =>
        split at stepped
        next =>
          rcases Option.map_eq_some_iff.mp stepped with ⟨writer, moved, rfl⟩
          refine ⟨offered.step moved ?_, rfl⟩
          intro thread snapshot same
          cases same
        next => cases stepped
      next => cases stepped
  | prune replies visited =>
      simp only [SnapshotPipeline.step] at stepped
      split at stepped
      next =>
        split at stepped
        next =>
          rcases Option.map_eq_some_iff.mp stepped with ⟨writer, moved, rfl⟩
          refine ⟨offered.step moved ?_, rfl⟩
          intro thread snapshot same
          cases same
        next => cases stepped
      next => cases stepped
  | restart replies => exact absurd rfl (goesOn replies)

/-! ## The steps of the program -/

namespace Program

/-- `enqueue`, `push` and `notifyOne` are the steps of a thread of the core inside
`SnapshotWriter::enqueue`; with the last of them the call returns. -/
inductive Action
  | core (action : ThreadedCore.Action)
  | enqueue (thread : Nat)
  | push (thread : Nat)
  | notifyOne (thread : Nat)
  | persistence (action : SnapshotPipeline.Action)
  | restart (replies : InitStep → SqliteReply)

/-- The thread is about to call `enqueue`, or inside it. -/
def atSink (core : ThreadedCore) : ThreadedCore.Action → Bool
  | .invoke .. => false
  | .advance thread =>
      match core.stage thread with
      | .holding .. => true
      | _ => false

/-- What the other threads of the persistence layer do: those that call `flush`,
the worker and the destructor. -/
def ownStep : SnapshotPipeline.Action → Bool
  | .write (.enqueue ..) => false
  | .write (.push _) => false
  | .write (.notifyOne _) => false
  | .restart _ => false
  | _ => true

def step (order : ByteOrder) (state : Program) : Action → Option Program
  | .core action =>
      if atSink state.core action then none
      else (state.core.step action).map fun core => { state with core }
  | .enqueue thread =>
      match state.core.stage thread with
      | .holding snapshot _ =>
          (state.pipeline.step order (.write (.enqueue thread snapshot))).map
            fun pipeline => { state with pipeline }
      | _ => none
  | .push thread =>
      (state.pipeline.step order (.write (.push thread))).map
        fun pipeline => { state with pipeline }
  | .notifyOne thread =>
      if atSink state.core (.advance thread) then
        (state.pipeline.step order (.write (.notifyOne thread))).bind fun pipeline =>
          (state.core.step (.advance thread)).map fun core => { core, pipeline }
      else none
  | .persistence action =>
      if ownStep action then
        (state.pipeline.step order action).map fun pipeline => { state with pipeline }
      else none
  | .restart replies =>
      (state.pipeline.step order (.restart replies)).map
        fun pipeline => { core := .start true, pipeline }

def system (order : ByteOrder) : StepSystem Program Action := ⟨step order⟩

def start (keepLatest : UInt64) : Program where
  core := .start true
  pipeline := .start keepLatest

/-- What the callers of the core have seen, in this process and in those before. -/
structure Record where
  current : Recorder ServerCall ServerReply := {}
  past : List (Recorder ServerCall ServerReply) := []

def Record.processes (record : Record) : List (Recorder ServerCall ServerReply) :=
  record.current :: record.past

def note (state : Program) (action : Action) (record : Record) : Record :=
  match action with
  | .core action =>
      { record with current := record.current.note (state.core.event action) }
  | .notifyOne thread =>
      { record with current := record.current.note (state.core.event (.advance thread)) }
  | .restart _ => { past := record.processes }
  | _ => record

def recorded (order : ByteOrder) (keepLatest : UInt64) (actions : List Action) : Record :=
  (system order).noted note (start keepLatest) {} actions

/-- No room id comes round, so that a thread's pointer leads to the room with its id
(`ThreadedCore.FreshIds`), and the clock advances as for the store. -/
structure InRange (order : ByteOrder) (state : Program) (action : Action) : Prop where
  fresh : state.core.rooms.getRoom state.core.rooms.nextRoomId = none
  advances : ∀ own, action = .persistence own → state.pipeline.ClockAdvances order own

/-! ## Boards -/

/-- The snapshot was the board of its room, in this process or in an earlier one. -/
def Record.WasBoard (record : Record) (snapshot : PersistedBoardSnapshot) : Prop :=
  ∃ process ∈ record.processes, ThreadedCore.Cut process.order snapshot

theorem wasBoard_current {record : Record} {snapshot : PersistedBoardSnapshot}
    (cut : ThreadedCore.Cut record.current.order snapshot) : record.WasBoard snapshot :=
  ⟨record.current, List.mem_cons_self, cut⟩

theorem wasBoard_note {record : Record} {snapshot : PersistedBoardSnapshot}
    (wasBoard : record.WasBoard snapshot) (event : Event ServerCall ServerReply) :
    Record.WasBoard { record with current := record.current.note event } snapshot := by
  rcases wasBoard with ⟨process, member, cut⟩
  rcases List.mem_cons.mp member with rfl | earlier
  · exact wasBoard_current (cut.mono (Recorder.order_prefix_note _ event))
  · exact ⟨process, List.mem_cons_of_mem _ earlier, cut⟩

structure Holds (order : ByteOrder) (keepLatest : UInt64) (state : Program)
    (record : Record) : Prop where
  follows : state.core.Follows record.current
  past : ∀ process ∈ record.past, process.Sound ServerCore.machine {}
  keeps : state.pipeline.Keeps order keepLatest
  offered : Offered record.WasBoard state.pipeline.writer.pushed
    state.pipeline.writer.callers
  earlier : ∀ entry ∈ state.pipeline.earlier, record.WasBoard entry.snapshot

section Steps

variable {order : ByteOrder} {keepLatest : UInt64} {state next : Program}
  {record : Record}

private theorem start_holds (order : ByteOrder) (keepLatest : UInt64) :
    (start keepLatest).Holds order keepLatest {} where
  follows := ThreadedCore.start_follows true
  past _ member := absurd member List.not_mem_nil
  keeps := SnapshotPipeline.start_keeps order keepLatest
  offered := offered_nothing
  earlier _ member := absurd member List.not_mem_nil

theorem Holds.saved (holds : state.Holds order keepLatest record) :
    ∀ entry ∈ state.pipeline.store.saved, record.WasBoard entry.snapshot := by
  intro entry member
  have isSaved := List.mem_map_of_mem (f := Saved.snapshot) member
  rw [holds.keeps.saved] at isSaved
  rcases List.mem_append.mp isSaved with before | kept
  · rcases List.mem_map.mp before with ⟨old, isOld, same⟩
    rw [← same]
    exact holds.earlier old isOld
  · exact offered_kept holds.keeps holds.offered _ kept

theorem Holds.core (holds : state.Holds order keepLatest record)
    {action : ThreadedCore.Action} {core : ThreadedCore}
    (stepped : state.core.step action = some core) :
    Holds order keepLatest { state with core }
      { record with current := record.current.note (state.core.event action) } where
  follows := ThreadedCore.step_follows holds.follows stepped
  past := holds.past
  keeps := holds.keeps
  offered := holds.offered.imp fun _ wasBoard => wasBoard_note wasBoard _
  earlier entry member := wasBoard_note (holds.earlier entry member) _

theorem Holds.pipeline (holds : state.Holds order keepLatest record)
    {action : SnapshotPipeline.Action} {pipeline : SnapshotPipeline}
    (stepped : state.pipeline.step order action = some pipeline)
    (advances : state.pipeline.ClockAdvances order action)
    (goesOn : ∀ replies, action ≠ .restart replies)
    (given : ∀ thread snapshot, action = .write (.enqueue thread snapshot) →
      record.WasBoard snapshot) :
    Holds order keepLatest { state with pipeline } record := by
  rcases pipeline_offered stepped goesOn given holds.offered with ⟨offered, same⟩
  refine { holds with
    keeps := SnapshotPipeline.step_keeps advances stepped holds.keeps
    offered := offered, earlier := ?_ }
  intro entry member
  apply holds.earlier
  rw [← same]
  exact member

private theorem step_holds {action : Action} (inRange : state.InRange order action)
    (stepped : state.step order action = some next)
    (holds : state.Holds order keepLatest record) :
    next.Holds order keepLatest (note state action record) := by
  cases action with
  | core action =>
      simp only [step] at stepped
      split at stepped
      next => cases stepped
      next =>
        rcases Option.map_eq_some_iff.mp stepped with ⟨core, moved, rfl⟩
        exact holds.core moved
  | enqueue thread =>
      simp only [step] at stepped
      split at stepped
      next snapshot reply isHolding =>
        rcases Option.map_eq_some_iff.mp stepped with ⟨pipeline, moved, rfl⟩
        refine holds.pipeline moved trivial nofun ?_
        intro _ _ same
        cases same
        apply wasBoard_current
        exact (holds.follows.backed thread).copied snapshot (by rw [isHolding]; rfl)
      next => cases stepped
  | push thread =>
      rcases Option.map_eq_some_iff.mp stepped with ⟨pipeline, moved, rfl⟩
      exact holds.pipeline moved trivial nofun nofun
  | notifyOne thread =>
      simp only [step] at stepped
      split at stepped
      next =>
        rcases Option.bind_eq_some_iff.mp stepped with ⟨pipeline, notified, last⟩
        rcases Option.map_eq_some_iff.mp last with ⟨core, moved, rfl⟩
        exact (holds.pipeline notified trivial nofun nofun).core moved
      next => cases stepped
  | persistence action =>
      simp only [step] at stepped
      split at stepped
      next own =>
        rcases Option.map_eq_some_iff.mp stepped with ⟨pipeline, moved, rfl⟩
        apply holds.pipeline moved (inRange.advances action rfl)
        · rintro replies rfl
          cases own
        · rintro thread snapshot rfl
          cases own
      next => cases stepped
  | restart replies =>
      rcases Option.map_eq_some_iff.mp stepped with ⟨pipeline, moved, rfl⟩
      have older : ∀ snapshot, record.WasBoard snapshot →
          Record.WasBoard { past := record.processes } snapshot := by
        rintro snapshot ⟨process, member, cut⟩
        exact ⟨process, List.mem_cons_of_mem _ member, cut⟩
      have inTime : state.pipeline.ClockAdvances order (.restart replies) := trivial
      have keeps := SnapshotPipeline.step_keeps inTime moved holds.keeps
      simp only [SnapshotPipeline.step] at moved
      split at moved
      next => cases moved
      next =>
        cases moved
        exact {
          follows := ThreadedCore.start_follows true
          past := by
            intro process member
            rcases List.mem_cons.mp member with rfl | earlier
            · exact holds.follows.sound
            · exact holds.past process earlier
          keeps := keeps
          offered := offered_nothing
          earlier := fun entry member => older _ (holds.saved entry member) }

end Steps

/-! ## Runs -/

/-- In every run of the program, with any number of restarts and whatever SQLite
refuses: the calls of every process are linearizable, and what `loadLatest` gives
for a room, if its own statement executes, is its board after some of the calls of
one of these processes, in the order in which they took effect. -/
theorem loaded_was_board {order : ByteOrder} {keepLatest : UInt64} {actions : List Action}
    {final : Program} (positive : keepLatest ≠ 0)
    (runs : (system order).Runs (InRange order) (start keepLatest) actions final)
    {room : RoomId} {visited : List Row} {replies : SqliteReplies}
    (listing : final.pipeline.store.Visits room visited)
    (executes : replies.statement = none) :
    (∀ process ∈ (recorded order keepLatest actions).processes,
      Linearizes ServerCore.machine {} process.points process.operations) ∧
    ∃ loaded, (final.pipeline.store.loadLatest order replies visited).2 = .ok loaded ∧
      ∀ stored, loaded = some stored →
        ∃ process ∈ (recorded order keepLatest actions).processes,
        ∃ before, before <+: process.order ∧ ∃ board,
          (ServerCore.run {} before).rooms.getRoom room = some board ∧
          stored.snapshot = board.makePersistedSnapshot := by
  have holds : final.Holds order keepLatest (recorded order keepLatest actions) := by
    apply runs.invariant_noted _ (start_holds order keepLatest)
    intro state action next record inRange stepped before
    exact step_holds inRange stepped before
  constructor
  · intro process member
    rcases List.mem_cons.mp member with rfl | earlier
    · exact holds.follows.sound.toLinearizes
    · exact (holds.past process earlier).toLinearizes
  · rcases (holds.keeps.durable positive room).loads visited replies listing executes with
      ⟨loaded, isLoaded, isNewest⟩
    refine ⟨loaded, isLoaded, ?_⟩
    rintro stored rfl
    rw [holds.keeps.newest_eq_savedOf] at isNewest
    rcases Option.map_eq_some_iff.mp isNewest.symm with ⟨entry, isLast, same⟩
    rcases List.mem_filter.mp (List.mem_of_getLast? isLast) with ⟨isSaved, sameRoom⟩
    rcases holds.saved entry isSaved with ⟨process, member, before, isPrefix, board, found,
      isBoard⟩
    have isRoom : entry.snapshot.room = room := of_decide_eq_true sameRoom
    rw [isRoom] at found
    exact ⟨process, member, before, isPrefix, board, found, same.symm.trans isBoard⟩

def inRange (order : ByteOrder) (state : Program) (action : Action) : Bool :=
  (state.core.rooms.getRoom state.core.rooms.nextRoomId).isNone &&
    match action with
    | .persistence own => state.pipeline.clockAdvances order own
    | _ => true

private theorem inRange_sound {order : ByteOrder} (state : Program) (action : Action)
    (checked : state.inRange order action = true) : state.InRange order action := by
  rcases Bool.and_eq_true_iff.mp checked with ⟨fresh, advances⟩
  refine ⟨Option.isNone_iff_eq_none.mp fresh, ?_⟩
  rintro own rfl
  exact SnapshotPipeline.clockAdvances_sound _ own advances

/-- A board with a stroke is saved, and the process is started again before the store
is pruned. -/
def savedBefore : List Action :=
  [.core (.invoke 0 .createRoom), .core (.advance 0), .core (.advance 0),
    .core (.invoke 0 (.on 1 (.join 10))), .core (.advance 0), .core (.advance 0),
    .core (.advance 0),
    .core (.invoke 0 (.on 1 (.apply 10 (.strokeBegin .red .medium ⟨0x3F800000, 0⟩) 5))),
    .core (.advance 0), .core (.advance 0), .core (.advance 0),
    .core (.invoke 0 (.on 1 (.apply 10 .strokeEnd 6))),
    .core (.advance 0), .core (.advance 0), .core (.advance 0), .enqueue 0, .push 0,
    .persistence (.write .take), .persistence (.save .succeed 1000 1), .notifyOne 0,
    .core (.advance 0), .restart fun _ => none, .core (.invoke 3 .createRoom)]

theorem loaded_was_board_savedBefore :
    ∃ final stored, (system .little).Runs (InRange .little) (start 10) savedBefore final ∧
      (final.pipeline.store.loadLatest .little .succeed
        (final.pipeline.store.rowsOf 1)).2 = .ok (some stored) ∧
      stored.strokes.length = 1 ∧
      ∃ process ∈ (recorded .little 10 savedBefore).processes,
      ∃ before, before <+: process.order ∧ ∃ board,
        (ServerCore.run {} before).rooms.getRoom 1 = some board ∧
        stored.snapshot = board.makePersistedSnapshot := by
  have computed : ((system .little).execute (inRange .little) (start 10)
      savedBefore).map (fun final =>
        (decide (final.pipeline.store.Visits 1 (final.pipeline.store.rowsOf 1)),
          (final.pipeline.store.loadLatest .little .succeed
            (final.pipeline.store.rowsOf 1)).2.toOption.join.map
              fun stored => stored.strokes.length)) =
      some (true, some 1) := by
    decide
  rcases Option.map_eq_some_iff.mp computed with ⟨final, executed, seen⟩
  simp only [Prod.mk.injEq, decide_eq_true_eq] at seen
  have runs := StepSystem.runs_of_execute inRange_sound executed
  have executes : SqliteReplies.succeed.statement = none := rfl
  rcases (loaded_was_board (by decide) runs seen.1 executes).2 with
    ⟨loaded, isLoaded, boards⟩
  rw [isLoaded] at seen
  rcases Option.map_eq_some_iff.mp seen.2 with ⟨stored, isStored, drawn⟩
  have same : loaded = some stored := isStored
  rw [same] at isLoaded
  exact ⟨final, stored, runs, isLoaded, drawn, boards stored same⟩

end Program

end ClearSpace.App
