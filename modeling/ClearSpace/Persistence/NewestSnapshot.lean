import ClearSpace.Persistence.StoreRetention

/-! # The newest snapshot

The worker of the writer saves a snapshot and then prunes its room. Both the
prune and `loadLatest` go by the clock reading of the save, so the snapshot
saved last is the one loaded as long as the clock advances from save to save of
a room. -/

namespace ClearSpace.Persistence.SqliteSnapshotStore

open ClearSpace.Core KeyedLists

/-- A snapshot that the worker takes from its queue, with what the clock and
SQLite have to say about it. -/
structure Processing where
  snapshot : PersistedBoardSnapshot
  savedAtMs : Int64
  id : Int64
  visited : List Row
  saving : SqliteReplies := .succeed
  pruning : SqliteReplies := .succeed

def Processing.entry (task : Processing) : Saved where
  id := task.id
  room := task.snapshot.room
  savedAtMs := task.savedAtMs
  lastSeq := task.snapshot.lastSeq
  strokes := task.snapshot.strokes

def process (order : ByteOrder) (keepLatest : UInt64) (store : SqliteSnapshotStore)
    (task : Processing) : Option SqliteSnapshotStore :=
  (store.step order (.save task.saving task.entry)).bind fun store =>
    store.step order
      (.pruneKeepLatest task.pruning task.snapshot.room keepLatest task.visited)

def worker (order : ByteOrder) (keepLatest : UInt64) :
    StepSystem SqliteSnapshotStore Processing :=
  ⟨process order keepLatest⟩

/-- The clock reads later than for every stored row of the room, and the strokes
fit a blob. -/
structure ClockAdvances (order : ByteOrder) (store : SqliteSnapshotStore)
    (task : Processing) : Prop where
  later : ∀ row ∈ store.rowsOf task.snapshot.room, row.savedAtMs < task.savedAtMs
  fits : FitsBlob order task.snapshot.strokes

def savedOf (store : SqliteSnapshotStore) (room : RoomId) : List Saved :=
  store.saved.filter fun entry => entry.room = room

structure NewestLoaded (order : ByteOrder) (keepLatest : UInt64)
    (store : SqliteSnapshotStore) (snapshot : PersistedBoardSnapshot) : Prop where
  loaded : ∀ visited replies, store.Visits snapshot.room visited →
    replies.statement = none →
    ∃ header, (store.loadLatest order replies visited).2 =
        .ok (some ⟨header, snapshot.strokes⟩) ∧
      header.room = snapshot.room ∧ header.lastSeq = snapshot.lastSeq
  survivors : store.surviving snapshot.room =
    (store.savedOf snapshot.room).rtake keepLatest.toNat

/-- What the clock keeps up: along the stored snapshots of a room the clock
readings increase, and these snapshots are the latest of the room. -/
structure InTime (keepLatest : UInt64) (store : SqliteSnapshotStore) : Prop where
  increasing : ∀ room, (store.surviving room).Pairwise
    fun earlier later => earlier.savedAtMs < later.savedAtMs
  survivors : ∀ room, store.surviving room = (store.savedOf room).rtake keepLatest.toNat

variable {order : ByteOrder} {keepLatest : UInt64} {store next : SqliteSnapshotStore}
  {task : Processing}

/-! ## Saving -/

theorem savedOf_insert (store : SqliteSnapshotStore) (entry : Saved) (room : RoomId) :
    (store.insert order entry).savedOf room =
      store.savedOf room ++ [entry].filter fun new => new.room = room :=
  List.filter_append ..

private theorem Sound.stored_insert (sound : store.Sound order) {entry old : Saved}
    (fresh : store.sequence < entry.id) (member : old ∈ store.saved) :
    old.id ∈ (store.insert order entry).rows.map Row.id ↔
      old.id ∈ store.rows.map Row.id := by
  have different : old.id ≠ entry.id := by
    intro same
    have given := sound.idsGiven old member
    rw [same] at given
    exact absurd fresh (Int64.not_lt.mpr given)
  simp [SqliteSnapshotStore.insert, Saved.row, different]

theorem Sound.surviving_insert (sound : store.Sound order) (entry : Saved)
    (fresh : store.sequence < entry.id) (room : RoomId) :
    (store.insert order entry).surviving room =
      store.surviving room ++ [entry].filter fun new => new.room = room := by
  have old : store.saved.filter (fun other => other.room = room ∧
        other.id ∈ (store.insert order entry).rows.map Row.id) =
      store.surviving room := by
    apply List.filter_congr
    intro other member
    rw [decide_eq_decide, sound.stored_insert fresh member]
  have isStored : entry.id ∈ (store.insert order entry).rows.map Row.id := by
    simp [SqliteSnapshotStore.insert, Saved.row]
  rw [surviving]
  change (store.saved ++ [entry]).filter _ = _
  rw [List.filter_append, old]
  apply congrArg (store.surviving room ++ ·)
  apply List.filter_congr
  intro new isNew
  rw [List.mem_singleton.mp isNew, decide_eq_decide, and_iff_left isStored]

/-! ## Pruning -/

theorem Sound.surviving_eq (sound : store.Sound order) {room : RoomId}
    {part : List Saved} (sublist : part.Sublist store.saved)
    (rows : store.rowsOf room = part.map (Saved.row order)) :
    store.surviving room = part := by
  rw [sound.rowsOf_eq room] at rows
  have sameIds := congrArg (List.map Row.id) rows
  rw [List.map_map, List.map_map] at sameIds
  apply sound.distinct.sublist_eq List.filter_sublist sublist
  intro id
  change id ∈ (store.surviving room).map (Row.id ∘ Saved.row order) ↔ _
  rw [sameIds]
  rfl

theorem Sound.rows_increase (sound : store.Sound order) {room : RoomId}
    (increasing : (store.surviving room).Pairwise
      fun earlier later => earlier.savedAtMs < later.savedAtMs) :
    (store.rowsOf room).Pairwise fun earlier later => earlier.time < later.time := by
  rw [sound.rowsOf_eq room]
  apply List.pairwise_map.mpr
  apply increasing.imp
  intro earlier later below
  exact Int64.lt_iff_toInt_lt.mp below

/-- Where clock readings increase, a prune keeps the latest saves. -/
theorem Sound.surviving_prune (sound : store.Sound order) {room : RoomId}
    {visited : List Row} (listing : store.Visits room visited)
    (increasing : (store.surviving room).Pairwise
      fun earlier later => earlier.savedAtMs < later.savedAtMs) (keep : UInt64) :
    (store.prune room keep visited).surviving room =
      (store.surviving room).rtake keep.toNat := by
  have distinct : DistinctBy Row.id (store.rowsOf room) :=
    sound.rows_distinct.sublist List.filter_sublist
  apply (sound.prune room keep visited).surviving_eq
  · rw [prune_saved]
    exact (List.drop_sublist _ _).trans List.filter_sublist
  · rw [rowsOf_prune sound listing, listing.kept_eq_rtake distinct
      (sound.rows_increase increasing),
      sound.rowsOf_eq room, List.rtake, List.rtake, List.map_drop, List.length_map]

theorem Sound.surviving_prune_other (sound : store.Sound order) {room other : RoomId}
    (different : other ≠ room) (keep : UInt64) (visited : List Row) :
    (store.prune room keep visited).surviving other = store.surviving other := by
  apply (sound.prune room keep visited).surviving_eq
  · rw [prune_saved]
    exact List.filter_sublist
  · rw [rowsOf_prune_other different, sound.rowsOf_eq other]

/-! ## Processing a snapshot -/

private theorem rtake_rtake_concat {α : Type} (entries : List α) (last : α)
    (count : Nat) :
    (entries.rtake count ++ [last]).rtake count = (entries ++ [last]).rtake count := by
  cases count with
  | zero => simp
  | succ count =>
      rw [List.rtake_concat_succ, List.rtake_concat_succ]
      simp only [List.rtake, List.drop_drop, List.length_drop]
      congr 2
      omega

theorem process_cases (processed : store.process order keepLatest task = some next) :
    ∃ saving pruning, store.sequence < task.id ∧
      ((store.connect saving).insert order task.entry).Visits task.snapshot.room
        task.visited ∧
      next = (((store.connect saving).insert order task.entry).connect pruning).prune
        task.snapshot.room keepLatest task.visited := by
  rcases Option.bind_eq_some_iff.mp processed with ⟨middle, saved, pruned⟩
  cases step_cases order saved with
  | saved _ _ saving fresh =>
      cases step_cases order pruned with
      | pruned _ _ _ _ pruning listing => exact ⟨saving, pruning, fresh, listing, rfl⟩

theorem InTime.connect (inTime : store.InTime keepLatest) (connection : Connection) :
    (store.connect connection).InTime keepLatest :=
  { inTime with }

private theorem Sound.insert_increasing (sound : store.Sound order)
    (inTime : store.InTime keepLatest) (entry : Saved)
    (fresh : store.sequence < entry.id)
    (later : ∀ row ∈ store.rowsOf entry.room, row.savedAtMs < entry.savedAtMs)
    (room : RoomId) :
    ((store.insert order entry).surviving room).Pairwise
      fun earlier later => earlier.savedAtMs < later.savedAtMs := by
  rw [sound.surviving_insert entry fresh room]
  refine List.pairwise_append.mpr ⟨inTime.increasing room, ?_, ?_⟩
  · exact (List.pairwise_singleton _ entry).filter _
  · intro old member new isNew
    rcases List.mem_filter.mp isNew with ⟨isEntry, sameRoom⟩
    rw [List.mem_singleton.mp isEntry] at sameRoom ⊢
    rw [← of_decide_eq_true sameRoom] at member
    apply later (old.row order)
    rw [sound.rowsOf_eq]
    exact List.mem_map_of_mem member

private theorem Sound.prune_inTime (sound : store.Sound order) {room : RoomId}
    {visited : List Row} (listing : store.Visits room visited)
    (increasing : ∀ other, (store.surviving other).Pairwise
      fun earlier later => earlier.savedAtMs < later.savedAtMs)
    (others : ∀ other, other ≠ room →
      store.surviving other = (store.savedOf other).rtake keepLatest.toNat)
    (latest : (store.surviving room).rtake keepLatest.toNat =
      (store.savedOf room).rtake keepLatest.toNat) :
    (store.prune room keepLatest visited).InTime keepLatest where
  increasing other := by
    by_cases isRoom : other = room
    · rw [isRoom, sound.surviving_prune listing (increasing room)]
      exact (increasing room).sublist (List.drop_sublist _ _)
    · rw [sound.surviving_prune_other isRoom]
      exact increasing other
  survivors other := by
    rw [savedOf, prune_saved]
    by_cases isRoom : other = room
    · rw [isRoom, sound.surviving_prune listing (increasing room)]
      exact latest
    · rw [sound.surviving_prune_other isRoom]
      exact others other isRoom

theorem process_inTime (advances : ClockAdvances order store task)
    (processed : store.process order keepLatest task = some next)
    (sound : store.Sound order) (inTime : store.InTime keepLatest) :
    next.Sound order ∧ next.InTime keepLatest := by
  rcases process_cases processed with ⟨saving, pruning, fresh, listing, rfl⟩
  have before := sound.connect saving
  have inserted := (before.insert task.entry fresh advances.fits).connect pruning
  refine ⟨inserted.prune _ _ _, inserted.prune_inTime listing ?_ ?_ ?_⟩
  · exact before.insert_increasing (inTime.connect saving) task.entry fresh
      advances.later
  · intro other different
    have absent : ([task.entry].filter fun new => new.room = other) = [] := by
      simp [Processing.entry, different.symm]
    change ((store.connect saving).insert order task.entry).surviving other =
      (((store.connect saving).insert order task.entry).savedOf other).rtake _
    rw [before.surviving_insert task.entry fresh, savedOf_insert, absent,
      List.append_nil, List.append_nil]
    exact inTime.survivors other
  · have present : ([task.entry].filter fun new => new.room = task.snapshot.room) =
        [task.entry] := by
      simp [Processing.entry]
    change (((store.connect saving).insert order task.entry).surviving _).rtake _ =
      (((store.connect saving).insert order task.entry).savedOf _).rtake _
    rw [before.surviving_insert task.entry fresh, savedOf_insert, present,
      (inTime.connect saving).survivors, rtake_rtake_concat]

private theorem run_inTime {tasks : List Processing}
    (runs : (worker order keepLatest).Runs (ClockAdvances order) {} tasks store) :
    store.Sound order ∧ store.InTime keepLatest := by
  apply runs.invariant
  · intro store task next advances processed holds
    exact process_inTime advances processed holds.1 holds.2
  · exact ⟨initial_sound, fun _ => .nil, fun _ => by simp [surviving, savedOf]⟩

/-! ## Loading -/

/-- The last stored row of a room is the one `loadLatest` finds. -/
theorem Sound.loadLatest_last (sound : store.Sound order)
    (inTime : store.InTime keepLatest) {connection : Connection}
    (connected : store.db = some connection) {room : RoomId} {front : List Saved}
    {last : Saved} (survivors : store.surviving room = front ++ [last])
    {visited : List Row} (listing : store.Visits room visited)
    {replies : SqliteReplies} (executes : replies.statement = none) :
    (store.loadLatest order replies visited).2 =
      .ok (some ⟨last.header, last.strokes⟩) := by
  have rows : store.rowsOf room =
      front.map (Saved.row order) ++ [last.row order] := by
    rw [sound.rowsOf_eq room, survivors, List.map_append]
    rfl
  have increasing := sound.rows_increase (inTime.increasing room)
  have isSaved : last ∈ store.saved := by
    have member : last ∈ store.surviving room := by
      rw [survivors]
      exact List.mem_append_right _ (.head _)
    exact (List.mem_filter.mp member).1
  have first : visited = last.row order :: (front.map (Saved.row order)).reverse := by
    rw [listing.eq_reverse increasing, rows, List.reverse_append]
    rfl
  rw [loadLatest, operate_connected connected _ executes, first, List.take_succ_cons]
  simp only [row_load (sound.fits last isSaved)]
  rfl

/-- As long as the clock advances from save to save of a room, the snapshot
processed last is the one loaded, and the latest saves of its room survive. -/
theorem newest_loaded {tasks : List Processing} (positive : keepLatest ≠ 0)
    (runs : (worker order keepLatest).Runs (ClockAdvances order) {} tasks store)
    (advances : ClockAdvances order store task)
    (processed : store.process order keepLatest task = some next) :
    next.NewestLoaded order keepLatest task.snapshot := by
  rcases run_inTime runs with ⟨sound, inTime⟩
  rcases process_inTime advances processed sound inTime with ⟨nextSound, nextInTime⟩
  rcases process_cases processed with ⟨saving, pruning, fresh, listing, rfl⟩
  have survivors := nextInTime.survivors task.snapshot.room
  refine ⟨?_, survivors⟩
  intro visited replies visits executes
  have present : ([task.entry].filter fun new => new.room = task.snapshot.room) =
      [task.entry] := by
    simp [Processing.entry]
  rw [savedOf, prune_saved] at survivors
  change _ = (((store.connect saving).insert order task.entry).savedOf _).rtake _
    at survivors
  have notZero : keepLatest.toNat ≠ 0 := fun isZero =>
    positive (UInt64.toNat_inj.mp isZero)
  rcases Nat.exists_eq_succ_of_ne_zero notZero with ⟨count, isSucc⟩
  rw [savedOf_insert, present, isSucc, List.rtake_concat_succ] at survivors
  refine ⟨task.entry.header, ?_, rfl, rfl⟩
  exact nextSound.loadLatest_last nextInTime (prune_db _ _ _ _) survivors visits executes

/-! ## Two saves -/

def firstSave (savedAtMs : Int64) : Processing where
  snapshot := ⟨7, 1, []⟩
  savedAtMs := savedAtMs
  id := 1
  visited := [⟨1, 7, savedAtMs, 1, [1, 0, 0, 0, 0, 0, 0, 0]⟩]

def secondSave (first second : Int64) : Processing where
  snapshot := ⟨7, 2, []⟩
  savedAtMs := second
  id := 2
  visited := [⟨2, 7, second, 2, [1, 0, 0, 0, 0, 0, 0, 0]⟩,
    ⟨1, 7, first, 1, [1, 0, 0, 0, 0, 0, 0, 0]⟩]

theorem newest_loaded_ticking :
    ∃ store next : SqliteSnapshotStore,
      store.process .little 10 (secondSave 1000 1001) = some next ∧
      next.NewestLoaded .little 10 ⟨7, 2, []⟩ := by
  have processed : ∃ store next : SqliteSnapshotStore,
      process .little 10 {} (firstSave 1000) = some store ∧
      store.process .little 10 (secondSave 1000 1001) = some next ∧
      store.rows = [⟨1, 7, 1000, 1, [1, 0, 0, 0, 0, 0, 0, 0]⟩] :=
    ⟨_, _, rfl, rfl, rfl⟩
  rcases processed with ⟨store, next, first, second, rows⟩
  have early : ClockAdvances .little {} (firstSave 1000) := ⟨nofun, by decide⟩
  have late : ClockAdvances .little store (secondSave 1000 1001) := by
    refine ⟨?_, by decide⟩
    intro row member
    rw [rowsOf, rows] at member
    rw [List.mem_singleton.mp (List.mem_filter.mp member).1]
    decide
  exact ⟨store, next, second,
    newest_loaded (by decide) (.cons early first (.nil _)) late second⟩

/-- The second save after the clock was set back by a millisecond. -/
def saveSetBack : Processing :=
  { secondSave 1000 999 with visited := (secondSave 1000 999).visited.reverse }

/-- Then the first of the two snapshots is the one loaded. -/
theorem newest_overtaken :
    ¬ ∀ (order : ByteOrder) (keepLatest : UInt64) (tasks : List Processing)
      (store next : SqliteSnapshotStore) (task : Processing), keepLatest ≠ 0 →
      (worker order keepLatest).Runs StepSystem.Any {} tasks store →
      store.process order keepLatest task = some next →
      next.NewestLoaded order keepLatest task.snapshot := by
  intro always
  have processed : ∃ store next : SqliteSnapshotStore,
      process .little 10 {} (firstSave 1000) = some store ∧
      store.process .little 10 saveSetBack = some next ∧
      next.Visits 7 saveSetBack.visited ∧
      (next.loadLatest .little .succeed saveSetBack.visited).2 =
        .ok (some ⟨⟨1, 7, 1000, 1⟩, []⟩) :=
    ⟨_, _, rfl, rfl, by decide, rfl⟩
  rcases processed with ⟨store, next, first, second, visits, earlier⟩
  have newest := always .little 10 [firstSave 1000] store next saveSetBack
    (by decide) (.cons trivial first (.nil _)) second
  rcases newest.loaded _ .succeed visits rfl with ⟨header, loaded, _, isSecond⟩
  rw [earlier] at loaded
  cases loaded
  exact absurd isSecond (by decide)

end ClearSpace.Persistence.SqliteSnapshotStore
