import ClearSpace.Core.ConcurrentCore
import ClearSpace.Foundation.Threads

/-! # The order of persisted snapshots

A thread copies the board of a room and hands the copy over later. As long as
no thread overtakes another in between, the sink gets the boards in order. -/

namespace ClearSpace.Core

namespace ConcurrentCore

def lastSeqs (state : ConcurrentCore) (id : RoomId) : List Seq :=
  (state.enqueued.filter fun snapshot => snapshot.room = id).map (·.lastSeq)

/-- The snapshots of a room arrive in order; once no call is under way the last
one is the newest and has everything that was to be saved. -/
structure InOrder (state : ConcurrentCore) : Prop where
  ordered : ∀ id, (state.lastSeqs id).Pairwise (· ≤ ·)
  newest : (∀ thread, state.progress thread = .idle) → ∀ id last,
    (state.lastSeqs id).getLast? = some last → ∀ seq ∈ state.lastSeqs id, seq ≤ last
  complete : (∀ thread, state.progress thread = .idle) → ∀ id seq,
    (id, seq) ∈ state.saved →
    ∃ last, (state.lastSeqs id).getLast? = some last ∧ seq ≤ last

/-! ## The invariant -/

/-- The thread is still going to enqueue a snapshot of the room that includes
the number. -/
def WillSave (id : RoomId) (seq : Seq) : Progress → Prop
  | .idle => False
  | .counting _ => False
  | .saving room => room = id
  | .holding snapshot => snapshot.room = id ∧ seq ≤ snapshot.lastSeq

def Covered (state : ConcurrentCore) (id : RoomId) (seq : Seq) : Prop :=
  (∃ snapshot ∈ state.enqueued, snapshot.room = id ∧ seq ≤ snapshot.lastSeq) ∨
    ∃ thread, WillSave id seq (state.progress thread)

/-- A held snapshot may still be enqueued: it is no older than what the sink
already has. -/
def Current (state : ConcurrentCore) (held : PersistedBoardSnapshot) : Prop :=
  state.rooms.HasDrawn held.room held.lastSeq ∧
    ∀ snapshot ∈ state.enqueued, snapshot.room = held.room →
      snapshot.lastSeq ≤ held.lastSeq

structure Invariant (state : ConcurrentCore) : Prop where
  sound : state.rooms.Sound
  ordered : ∀ id, (state.lastSeqs id).Pairwise (· ≤ ·)
  drawn : ∀ snapshot ∈ state.enqueued,
    state.rooms.HasDrawn snapshot.room snapshot.lastSeq
  current : ∀ thread held, state.progress thread = .holding held → state.Current held
  covered : ∀ id seq, (id, seq) ∈ state.saved →
    state.rooms.HasDrawn id seq ∧ state.Covered id seq

theorem initial_invariant : Invariant {} where
  sound := RoomManager.sound_empty
  ordered _ := .nil
  drawn _ member := absurd member List.not_mem_nil
  current _ _ isHolding := by cases isHolding
  covered _ _ member := absurd member List.not_mem_nil

theorem mem_lastSeqs {state : ConcurrentCore} {id : RoomId} {seq : Seq} :
    seq ∈ state.lastSeqs id ↔
      ∃ snapshot ∈ state.enqueued, snapshot.room = id ∧ snapshot.lastSeq = seq := by
  simp [lastSeqs, and_assoc]

theorem last_newest {seqs : List Seq} (ordered : seqs.Pairwise (· ≤ ·)) {last : Seq}
    (isLast : seqs.getLast? = some last) : ∀ seq ∈ seqs, seq ≤ last := by
  rcases List.getLast?_eq_some_iff.mp isLast with ⟨front, rfl⟩
  intro seq member
  rcases List.mem_append.mp member with inFront | inLast
  · exact (List.pairwise_append.mp ordered).2.2 seq inFront last (by simp)
  · rw [List.mem_singleton.mp inLast]
    exact UInt64.le_refl last

theorem Invariant.inOrder {state : ConcurrentCore} (holds : state.Invariant) :
    state.InOrder where
  ordered := holds.ordered
  newest _ id last isLast := last_newest (holds.ordered id) isLast
  complete allIdle id seq member := by
    rcases (holds.covered id seq member).2 with ⟨snapshot, stored, sameRoom, below⟩ |
      ⟨thread, willSave⟩
    · have listed : snapshot.lastSeq ∈ state.lastSeqs id :=
        mem_lastSeqs.mpr ⟨snapshot, stored, sameRoom, rfl⟩
      have nonempty := List.ne_nil_of_mem listed
      refine ⟨_, List.getLast?_eq_some_getLast nonempty, ?_⟩
      exact UInt64.le_trans below (last_newest (holds.ordered id)
        (List.getLast?_eq_some_getLast nonempty) _ listed)
    · rw [allIdle thread] at willSave
      exact willSave.elim

/-! ## What the steps keep -/

section Steps

variable {state : ConcurrentCore}

theorem Invariant.withRooms (holds : state.Invariant) {rooms : RoomManager}
    (sound : rooms.Sound)
    (keeps : ∀ {id seq}, state.rooms.HasDrawn id seq → rooms.HasDrawn id seq) :
    Invariant { state with rooms := rooms } where
  sound := sound
  ordered := holds.ordered
  drawn snapshot member := keeps (holds.drawn snapshot member)
  current thread held isHolding :=
    ⟨keeps (holds.current thread held isHolding).1,
      (holds.current thread held isHolding).2⟩
  covered id seq member :=
    ⟨keeps (holds.covered id seq member).1, (holds.covered id seq member).2⟩

theorem Covered.goTo {id : RoomId} {seq : Seq} (covered : state.Covered id seq)
    {thread : Nat} {next : Progress}
    (keeps : WillSave id seq (state.progress thread) → WillSave id seq next) :
    (state.goTo thread next).Covered id seq := by
  rcases covered with stored | willSave
  · exact .inl stored
  · exact .inr (Threads.exists_update willSave keeps)

/-- A thread may move on when what it then holds is current and it still saves
what it was to save. -/
theorem Invariant.goTo (holds : state.Invariant) {thread : Nat} {next : Progress}
    (current : ∀ held, next = .holding held → state.Current held)
    (keeps : ∀ id seq, state.rooms.HasDrawn id seq →
      WillSave id seq (state.progress thread) → WillSave id seq next) :
    (state.goTo thread next).Invariant where
  sound := holds.sound
  ordered := holds.ordered
  drawn := holds.drawn
  current other held isHolding := by
    by_cases isThis : other = thread
    · subst isThis
      rw [goTo_progress_self] at isHolding
      exact current held isHolding
    · rw [goTo_progress_of_ne state isThis] at isHolding
      exact holds.current other held isHolding
  covered id seq member :=
    have before := holds.covered id seq member
    ⟨before.1, before.2.goTo (keeps id seq before.1)⟩

theorem Invariant.createRoom (holds : state.Invariant)
    (counters : state.rooms.CountersLeft) :
    Invariant { state with rooms := state.rooms.createRoom.1 } :=
  holds.withRooms holds.sound.createRoom (·.createRoom counters)

variable {id : RoomId} {room : Room}

theorem Invariant.call (holds : state.Invariant) (counters : state.rooms.CountersLeft)
    (found : state.rooms.getRoom id = some room) (call : Call) :
    Invariant { state with rooms := state.rooms.putRoom id (room.call call).room } :=
  holds.withRooms (holds.sound.putRoom counters found call)
    (·.putRoom holds.sound counters found call)

theorem Invariant.record (holds : state.Invariant) {entries : List Issued}
    (drawn : ∀ entry ∈ entries, state.rooms.HasDrawn id entry.seq)
    (willSave : ∀ entry ∈ entries, state.Covered id entry.seq) :
    (state.record id entries).Invariant :=
  { holds with
    covered := by
      intro other seq member
      rcases List.mem_append.mp member with before | added
      · exact holds.covered other seq before
      · rcases List.mem_map.mp added with ⟨entry, isEntry, same⟩
        cases same
        exact ⟨drawn entry isEntry, willSave entry isEntry⟩ }

theorem Invariant.enqueue (holds : state.Invariant) {thread : Nat}
    {snapshot : PersistedBoardSnapshot}
    (isHolding : state.progress thread = .holding snapshot)
    (notOvertaking : ∀ other held, other ≠ thread →
      state.progress other = .holding held → held.room = snapshot.room →
      snapshot.lastSeq ≤ held.lastSeq) :
    Invariant ({ state with enqueued := state.enqueued ++ [snapshot] }.goTo thread
      .idle) where
  sound := holds.sound
  ordered other := by
    change (((state.enqueued ++ [snapshot]).filter _).map _).Pairwise _
    rw [List.filter_append, List.map_append, List.pairwise_append]
    refine ⟨holds.ordered other, ?_, ?_⟩
    · rw [List.filter_singleton]
      cases decide (snapshot.room = other) <;> simp
    · intro seq before last isLast
      rcases List.mem_map.mp isLast with ⟨added, isAdded, rfl⟩
      rcases List.mem_filter.mp isAdded with ⟨isSnapshot, sameRoom⟩
      rw [List.mem_singleton.mp isSnapshot] at sameRoom ⊢
      rcases mem_lastSeqs.mp before with ⟨earlier, stored, earlierRoom, rfl⟩
      exact (holds.current thread snapshot isHolding).2 earlier stored
        (earlierRoom.trans (of_decide_eq_true sameRoom).symm)
  drawn added member := by
    rcases List.mem_append.mp member with before | isNew
    · exact holds.drawn added before
    · rw [List.mem_singleton.mp isNew]
      exact (holds.current thread snapshot isHolding).1
  current other held otherHolds := by
    by_cases isThis : other = thread
    · rw [isThis, goTo_progress_self] at otherHolds
      cases otherHolds
    · rw [goTo_progress_of_ne _ isThis] at otherHolds
      have before := holds.current other held otherHolds
      refine ⟨before.1, ?_⟩
      intro added member sameRoom
      rcases List.mem_append.mp member with stored | isNew
      · exact before.2 added stored sameRoom
      · rw [List.mem_singleton.mp isNew] at sameRoom ⊢
        exact notOvertaking other held isThis otherHolds sameRoom.symm
  covered other seq member := by
    refine ⟨(holds.covered other seq member).1, ?_⟩
    rcases (holds.covered other seq member).2 with ⟨earlier, stored, rest⟩ |
      ⟨saver, willSave⟩
    · exact .inl ⟨earlier, List.mem_append_left _ stored, rest⟩
    · by_cases isThis : saver = thread
      · rw [isThis, isHolding] at willSave
        exact .inl ⟨snapshot, List.mem_append_right _ (.head _), willSave⟩
      · refine .inr ⟨saver, ?_⟩
        rw [goTo_progress_of_ne _ isThis]
        exact willSave

theorem Invariant.makePersistedSnapshot (holds : state.Invariant) {thread : Nat}
    (isSaving : state.progress thread = .saving id)
    (found : state.rooms.getRoom id = some room) :
    (state.goTo thread (.holding room.makePersistedSnapshot)).Invariant := by
  have kept := holds.sound id room found
  -- every number drawn so far is at most the one the snapshot carries
  have newest : ∀ seq, state.rooms.HasDrawn id seq → seq ≤ room.lastSeq :=
    fun seq drawn => drawn.le_lastSeq holds.sound found
  apply holds.goTo
  · intro held isHeld
    cases isHeld
    change state.rooms.HasDrawn room.id room.lastSeq ∧ ∀ snapshot ∈ state.enqueued,
      snapshot.room = room.id → snapshot.lastSeq ≤ room.lastSeq
    rw [kept.sameId]
    refine ⟨holds.sound.lastSeq_drawn found, ?_⟩
    intro snapshot stored sameRoom
    exact newest _ (sameRoom ▸ holds.drawn snapshot stored)
  · intro other seq drawn willSave
    rw [isSaving] at willSave
    cases willSave
    exact ⟨kept.sameId, newest seq drawn⟩

theorem Invariant.operate (holds : state.Invariant)
    (counters : state.rooms.CountersLeft) (found : state.rooms.getRoom id = some room)
    (call : Call) {outcome : Outcome (List OutgoingEvent)}
    (sameRoom : outcome.room = (room.call call).room) {thread : Nat}
    (isIdle : state.progress thread = .idle) {next : Progress}
    (emptyHanded : ∀ held, next ≠ .holding held) :
    (state.operate thread id outcome next).Invariant := by
  have called := holds.call counters found call
  rw [← sameRoom] at called
  unfold ConcurrentCore.operate
  cases outcome.result with
  | error => exact called
  | ok =>
      apply called.goTo
      · intro held isHeld
        exact absurd isHeld (emptyHanded held)
      · intro other seq _ willSave
        change WillSave other seq (state.progress thread) at willSave
        rw [isIdle] at willSave
        exact willSave.elim

theorem Invariant.savedEvent (holds : state.Invariant)
    (counters : state.rooms.CountersLeft) {thread : Nat}
    (isIdle : state.progress thread = .idle)
    (found : state.rooms.getRoom id = some room) (client : ClientId)
    (event : EventPayload) (now : TimePoint) :
    ((state.operate thread id (room.apply client event now) (.saving id)).record id
      (room.apply client event now).issued).Invariant := by
  have operated : (state.operate thread id (room.apply client event now)
      (.saving id)).Invariant :=
    holds.operate counters found (.apply client event now) rfl isIdle nofun
  apply operated.record
  · intro entry issued
    rw [operate_rooms]
    exact (holds.sound.issued_drawn counters found
      (.apply client event now) issued).1
  · intro entry issued
    refine .inr ⟨thread, ?_⟩
    unfold ConcurrentCore.operate
    cases result : (room.apply client event now).result with
    | ok =>
        simp only [goTo_progress_self]
        rfl
    | error error =>
        have nothing : (room.apply client event now).issued = [] := by
          rw [Room.apply_failed result]
          rfl
        rw [nothing] at issued
        cases issued

end Steps

/-! ## Runs -/

/-- A thread enqueues its snapshot only while no other thread still holds an
older one of the same room. -/
def NotOvertaking (state : ConcurrentCore) : Action → Prop
  | .enqueue thread => ∀ snapshot, state.progress thread = .holding snapshot →
      ∀ other held, other ≠ thread → state.progress other = .holding held →
      held.room = snapshot.room → snapshot.lastSeq ≤ held.lastSeq
  | _ => True

def Orderly (state : ConcurrentCore) (action : Action) : Prop :=
  state.rooms.CountersLeft ∧ state.NotOvertaking action

theorem step_invariant (state : ConcurrentCore) (action : Action)
    (next : ConcurrentCore) (orderly : state.Orderly action)
    (stepped : system.step state action = some next) (holds : state.Invariant) :
    next.Invariant := by
  rcases orderly with ⟨counters, notOvertaking⟩
  cases step_cases stepped with
  | createRoom => exact holds.createRoom counters
  | joinMissing => exact holds
  | joinRoom client id room found => exact holds.call counters found (.join client)
  | leaveMissing => exact holds
  | leaveRoom thread client id room doing found =>
      exact holds.operate counters found (.leave client) rfl doing nofun
  | eventMissing => exact holds
  | savedEvent thread client id event now room doing found =>
      exact holds.savedEvent counters doing found client event now
  | event thread client id event now room doing found =>
      exact holds.operate counters found (.apply client event now) rfl doing nofun
  | memberCount thread id room doing found =>
      apply holds.goTo
      · intro held isHeld
        split at isHeld <;> cases isHeld
      · intro other seq _ willSave
        rw [doing] at willSave
        exact willSave.elim
  | makePersistedSnapshot thread id room doing found =>
      exact holds.makePersistedSnapshot doing found
  | enqueue thread snapshot doing =>
      exact holds.enqueue doing (notOvertaking snapshot doing)

/-- While no thread overtakes another between copying a board and handing it
over, the sink gets the boards of every room in order. -/
theorem snapshots_in_order {actions : List Action} {final : ConcurrentCore}
    (runs : system.Runs Orderly {} actions final) : final.InOrder :=
  (runs.invariant step_invariant initial_invariant).inOrder

/-- Two threads clear the board of room 1 and then both copy it. -/
def clearing : List Action :=
  [.createRoom, .joinRoom 7 1, .joinRoom 9 1,
    .handleEvent 0 7 1 .clear 0, .handleEvent 1 9 1 .clear 0,
    .makePersistedSnapshot 0, .makePersistedSnapshot 1, .enqueue 1, .enqueue 0]

theorem snapshots_in_order_clearing :
    ∃ final, system.Runs Orderly {} clearing final ∧ final.lastSeqs 1 = [2, 2] ∧
      final.InOrder := by
  have runs : ∃ final, system.Runs Orderly {} clearing final ∧
      final.lastSeqs 1 = [2, 2] := by
    refine ⟨_, .cons ⟨by decide, trivial⟩ rfl (.cons ⟨by decide, trivial⟩ rfl
      (.cons ⟨by decide, trivial⟩ rfl (.cons ⟨by decide, trivial⟩ rfl
      (.cons ⟨by decide, trivial⟩ rfl (.cons ⟨by decide, trivial⟩ rfl
      (.cons ⟨by decide, trivial⟩ rfl (.cons ⟨by decide, ?_⟩ rfl
      (.cons ⟨by decide, ?_⟩ rfl (.nil _))))))))), by decide⟩
    · intro snapshot isHolding other held different otherHolds _
      cases isHolding
      rcases other with _ | _ | other
      · cases otherHolds
        decide
      · exact absurd rfl different
      · cases otherHolds
    · intro snapshot isHolding other held different otherHolds _
      rcases other with _ | _ | other <;> cases otherHolds
      exact absurd rfl different
  rcases runs with ⟨final, run, seqs⟩
  exact ⟨final, run, seqs, snapshots_in_order run⟩

/-- Two clients in room 1 are drawing; thread 0 copies the board after the end
of the first stroke, thread 1 after the end of both, and thread 1 is faster. -/
def overtaking : List Action :=
  [.createRoom, .joinRoom 7 1, .joinRoom 9 1,
    .handleEvent 0 7 1 (.strokeBegin .red .thin ⟨0, 0⟩) 0,
    .handleEvent 1 9 1 (.strokeBegin .blue .thin ⟨5, 5⟩) 0,
    .handleEvent 0 7 1 .strokeEnd 1, .makePersistedSnapshot 0,
    .handleEvent 1 9 1 .strokeEnd 1, .makePersistedSnapshot 1,
    .enqueue 1, .enqueue 0]

theorem snapshots_overtaken :
    ¬ ∀ actions final, system.Runs StepSystem.Any {} actions final → final.InOrder := by
  intro always
  have computed : (system.execute StepSystem.unchecked {} overtaking).map
      (·.lastSeqs 1) = some [4, 3] := by
    decide
  rcases Option.map_eq_some_iff.mp computed with ⟨final, executed, seqs⟩
  have runs := StepSystem.runs_of_unchecked executed
  have ordered := (always _ _ runs).ordered 1
  rw [seqs] at ordered
  exact absurd ordered (by decide)

end ConcurrentCore

end ClearSpace.Core
