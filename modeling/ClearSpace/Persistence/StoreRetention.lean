import ClearSpace.Persistence.SqliteSnapshotStore

/-! # What the store keeps

Rows are only ever removed whole, so the table is part of the list of all rows
that were inserted. From that it follows what a prune keeps and what can be read
back afterwards. -/

namespace ClearSpace.Persistence

open ClearSpace.Core KeyedLists

theorem toInt64_inj {left right : UInt64} :
    left.toInt64 = right.toInt64 ↔ left = right := by
  constructor
  · intro same
    rw [← left.toUInt64_toInt64, same, right.toUInt64_toInt64]
  · exact congrArg UInt64.toInt64

private theorem length_lt_of_increasing {numbers : List Int64}
    (increasing : numbers.Pairwise (· < ·)) (positive : ∀ number ∈ numbers, 0 < number) :
    numbers.length < 2 ^ 63 := by
  have above : ∀ (numbers : List Int64) (low : Int), low < 2 ^ 63 →
      numbers.Pairwise (· < ·) → (∀ number ∈ numbers, low < number.toInt) →
      low + numbers.length < 2 ^ 63 := by
    intro numbers
    induction numbers with
    | nil =>
        intro low fits _ _
        simpa using fits
    | cons number rest induction =>
        intro low _ increasing above
        rcases List.pairwise_cons.mp increasing with ⟨below, restIncreasing⟩
        have later := induction number.toInt number.toInt_lt restIncreasing
          fun other member => Int64.lt_iff_toInt_lt.mp (below other member)
        have lowest := above number List.mem_cons_self
        rw [List.length_cons]
        omega
  have total := above numbers 0 (by decide) increasing
    fun number member => Int64.lt_iff_toInt_lt.mp (positive number member)
  omega

namespace SqliteSnapshotStore

variable {order : ByteOrder} {store next : SqliteSnapshotStore}

/-! ## The table and its history -/

/-- A blob whose size an `int` can hold. -/
def FitsBlob (order : ByteOrder) (strokes : List Stroke) : Prop :=
  (serializeStrokes order strokes).length < 2 ^ 31

instance (order : ByteOrder) (strokes : List Stroke) :
    Decidable (FitsBlob order strokes) :=
  inferInstanceAs (Decidable (_ < _))

def WithinLimits (order : ByteOrder) (_ : SqliteSnapshotStore) : Call → Prop
  | .save _ entry => FitsBlob order entry.strokes
  | .pruneKeepLatest .. => True

instance (order : ByteOrder) (store : SqliteSnapshotStore) :
    (call : Call) → Decidable (WithinLimits order store call)
  | .save _ entry => inferInstanceAs (Decidable (FitsBlob order entry.strokes))
  | .pruneKeepLatest .. => inferInstanceAs (Decidable True)

/-- The snapshots of a room that are still stored, in the order of the saves. -/
def surviving (store : SqliteSnapshotStore) (room : RoomId) : List Saved :=
  store.saved.filter fun entry =>
    entry.room = room ∧ entry.id ∈ store.rows.map Row.id

structure Sound (order : ByteOrder) (store : SqliteSnapshotStore) : Prop where
  stored : store.rows.Sublist (store.saved.map (Saved.row order))
  idsIncrease : (store.saved.map Saved.id).Pairwise (· < ·)
  idsPositive : ∀ entry ∈ store.saved, 0 < entry.id
  idsGiven : ∀ entry ∈ store.saved, entry.id ≤ store.sequence
  started : 0 ≤ store.sequence
  fits : ∀ entry ∈ store.saved, FitsBlob order entry.strokes

theorem initial_sound : Sound order {} where
  stored := .slnil
  idsIncrease := .nil
  idsPositive := nofun
  idsGiven := nofun
  started := by decide
  fits := nofun

namespace Sound

theorem connect (sound : store.Sound order) (connection : Connection) :
    (store.connect connection).Sound order :=
  { sound with }

theorem insert (sound : store.Sound order) (entry : Saved)
    (fresh : store.sequence < entry.id) (fits : FitsBlob order entry.strokes) :
    (store.insert order entry).Sound order where
  stored := by
    change (store.rows ++ [_]).Sublist ((store.saved ++ [entry]).map _)
    rw [List.map_append]
    exact sound.stored.append (.refl _)
  idsIncrease := by
    change ((store.saved ++ [entry]).map Saved.id).Pairwise (· < ·)
    rw [List.map_append]
    refine List.pairwise_append.mpr ⟨sound.idsIncrease, by simp, ?_⟩
    intro id member last isLast
    rcases List.mem_map.mp member with ⟨earlier, earlierMem, rfl⟩
    rw [List.mem_singleton.mp isLast]
    exact Int64.lt_of_le_of_lt (sound.idsGiven earlier earlierMem) fresh
  idsPositive other member := by
    rcases List.mem_append.mp member with earlier | isLast
    · exact sound.idsPositive other earlier
    · rw [List.mem_singleton.mp isLast]
      exact Int64.lt_of_le_of_lt sound.started fresh
  idsGiven other member := by
    change other.id ≤ entry.id
    rcases List.mem_append.mp member with earlier | isLast
    · exact Int64.le_of_lt
        (Int64.lt_of_le_of_lt (sound.idsGiven other earlier) fresh)
    · rw [List.mem_singleton.mp isLast]
      exact Int64.le_refl _
  started := Int64.le_of_lt (Int64.lt_of_le_of_lt sound.started fresh)
  fits other member := by
    rcases List.mem_append.mp member with earlier | isLast
    · exact sound.fits other earlier
    · rw [List.mem_singleton.mp isLast]
      exact fits

theorem prune (sound : store.Sound order) (room : RoomId) (keep : UInt64)
    (visited : List Row) : (store.prune room keep visited).Sound order where
  stored := by
    rw [prune_saved]
    exact (prune_sublist store room keep visited).trans sound.stored
  idsIncrease := by
    rw [prune_saved]
    exact sound.idsIncrease
  idsPositive := by
    rw [prune_saved]
    exact sound.idsPositive
  idsGiven := by
    rw [prune_saved, prune_sequence]
    exact sound.idsGiven
  started := by
    rw [prune_sequence]
    exact sound.started
  fits := by
    rw [prune_saved]
    exact sound.fits

end Sound

theorem step_sound {call : Call} (limits : WithinLimits order store call)
    (stepped : store.step order call = some next) (sound : store.Sound order) :
    next.Sound order := by
  cases step_cases order stepped with
  | saved replies entry connection fresh =>
      exact (sound.connect connection).insert entry fresh limits
  | pruned replies room keep visited connection listing =>
      exact (sound.connect connection).prune room keep visited

private theorem run_sound {calls : List Call}
    (runs : (system order).Runs (WithinLimits order) {} calls store) :
    store.Sound order :=
  runs.invariant (fun _ _ _ => step_sound) initial_sound

namespace Sound

theorem distinct (sound : store.Sound order) : DistinctBy Saved.id store.saved := by
  apply (List.pairwise_map.mp sound.idsIncrease).imp
  intro earlier later below same
  rw [same] at below
  exact absurd below Int64.lt_irrefl

theorem rows_distinct (sound : store.Sound order) : DistinctBy Row.id store.rows := by
  have whole : DistinctBy Row.id (store.saved.map (Saved.row order)) :=
    List.pairwise_map.mpr sound.distinct
  exact whole.sublist sound.stored

private theorem rows_length_lt (sound : store.Sound order) : store.rows.length < 2 ^ 63
    := by
  have total : (store.saved.map Saved.id).length < 2 ^ 63 := by
    apply length_lt_of_increasing sound.idsIncrease
    intro id member
    rcases List.mem_map.mp member with ⟨entry, entryMem, rfl⟩
    exact sound.idsPositive entry entryMem
  have part := sound.stored.length_le
  rw [List.length_map] at part total
  omega

theorem rowsOf_eq (sound : store.Sound order) (room : RoomId) :
    store.rowsOf room = (store.surviving room).map (Saved.row order) := by
  have whole : DistinctBy Row.id (store.saved.map (Saved.row order)) :=
    List.pairwise_map.mpr sound.distinct
  have rows := whole.sublist_eq_filter sound.stored
  rw [rowsOf]
  conv_lhs => rw [rows]
  rw [List.filter_filter, List.filter_map]
  apply congrArg (List.map (Saved.row order))
  apply List.filter_congr
  intro entry _
  rw [Bool.eq_iff_iff]
  simp only [Function.comp_apply, Bool.and_eq_true, decide_eq_true_eq]
  simp only [Saved.row, toInt64_inj]

end Sound

/-! ## Pruning -/

/-- The bound that is passed on as a signed number lets as many rows through as
the unsigned one says. -/
theorem take_limitCount {keep : UInt64} {visited : List Row}
    (fits : visited.length < 2 ^ 63) :
    visited.take (limitCount keep.toInt64 visited.length) =
      visited.take keep.toNat := by
  unfold limitCount
  split
  next negative =>
    have large : visited.length ≤ keep.toNat := by
      by_contra small
      have unsigned : keep.toInt64.toInt = keep.toNat :=
        BitVec.toInt_eq_toNat_of_lt (x := keep.toBitVec) (by
          change 2 * keep.toNat < 2 ^ 64
          omega)
      rw [Int64.lt_iff_toInt_lt, unsigned] at negative
      exact absurd negative (by simp)
    rw [List.take_length, List.take_of_length_le large]
  next notNegative =>
    have unsigned := Int64.toNat_toUInt64_of_le (Int64.not_lt.mp notNegative)
    rw [keep.toUInt64_toInt64] at unsigned
    rw [unsigned]
    rfl

theorem rowsOf_prune (sound : store.Sound order) {room : RoomId} {visited : List Row}
    (listing : store.Visits room visited) (keep : UInt64) :
    (store.prune room keep visited).rowsOf room =
      Ranked.kept Row.id (store.rowsOf room) visited keep.toNat := by
  have visitedFits : visited.length < 2 ^ 63 := by
    have part : (store.rowsOf room).length ≤ store.rows.length :=
      List.length_filter_le _ _
    rw [listing.perm.length_eq]
    exact Nat.lt_of_le_of_lt part sound.rows_length_lt
  unfold prune
  split
  next nothing =>
    rw [nothing, Ranked.kept, rowsOf, rowsOf, deleteAll, List.filter_filter,
      List.filter_filter]
    apply List.filter_congr
    intro row _
    simp
  next =>
    rw [take_limitCount visitedFits, Ranked.kept, rowsOf, rowsOf, deleteOthers,
      List.filter_filter, List.filter_filter]
    apply List.filter_congr
    intro row _
    rw [Bool.eq_iff_iff]
    simp only [Bool.and_eq_true, decide_eq_true_eq, not_and, not_not]
    constructor
    · intro both
      exact ⟨both.2 both.1, both.1⟩
    · intro both
      exact ⟨both.2, fun _ => both.1⟩

theorem rowsOf_prune_other {room other : RoomId} (different : other ≠ room)
    (keep : UInt64) (visited : List Row) :
    (store.prune room keep visited).rowsOf other = store.rowsOf other := by
  unfold prune
  split
  · rw [rowsOf, rowsOf, deleteAll, List.filter_filter]
    apply List.filter_congr
    intro row _
    by_cases isOther : row.roomId = other.toInt64
    · simp [isOther, toInt64_inj, different]
    · simp [isOther]
  · rw [rowsOf, rowsOf, deleteOthers, List.filter_filter]
    apply List.filter_congr
    intro row _
    by_cases isOther : row.roomId = other.toInt64
    · simp [isOther, toInt64_inj, different]
    · simp [isOther]

structure Retains (store next : SqliteSnapshotStore) (room : RoomId) (keep : UInt64) :
    Prop where
  count : (next.rowsOf room).length = min keep.toNat (store.rowsOf room).length
  nothingNew : next.rows.Sublist store.rows
  newest : ∀ kept ∈ next.rowsOf room, ∀ gone ∈ store.rowsOf room,
    gone ∉ next.rowsOf room → gone.savedAtMs ≤ kept.savedAtMs
  others : ∀ other, other ≠ room → next.rowsOf other = store.rowsOf other

private theorem prune_retains (sound : store.Sound order) {room : RoomId}
    {visited : List Row}
    (listing : store.Visits room visited) (keep : UInt64) :
    store.Retains (store.prune room keep visited) room keep where
  count := by
    have distinct : DistinctBy Row.id (store.rowsOf room) :=
      sound.rows_distinct.sublist List.filter_sublist
    rw [rowsOf_prune sound listing, (listing.kept_perm distinct _).length_eq,
      List.length_take, listing.perm.length_eq]
  nothingNew := prune_sublist store room keep visited
  newest kept isKept gone member isGone := by
    have distinct : DistinctBy Row.id (store.rowsOf room) :=
      sound.rows_distinct.sublist List.filter_sublist
    rw [rowsOf_prune sound listing] at isKept isGone
    exact Int64.le_iff_toInt_le.mpr (listing.kept_above distinct isKept member isGone)
  others _ different := rowsOf_prune_other different keep visited

/-! ## Reading back -/

private theorem boundBlob_eq {blob : ByteString} (fits : blob.length < 2 ^ 31) :
    boundBlob blob = blob := by
  rw [boundBlob, storedSize_eq fits, Int.toNat_natCast, List.take_length]

private theorem serializeStrokes_ne_nil (strokes : List Stroke) :
    (serializeStrokes order strokes).isEmpty = false := by
  simp [serializeStrokes, appendLE, ← List.length_eq_zero_iff]

theorem row_header (entry : Saved) : (entry.row order).header = entry.header := by
  simp only [Row.header, Saved.row, Saved.header, UInt64.toUInt64_toInt64]

/-- A row gives back what was saved. -/
theorem row_load {entry : Saved} (fits : FitsBlob order entry.strokes) :
    (entry.row order).load order = .ok ⟨entry.header, entry.strokes⟩ := by
  have data : (entry.row order).data = serializeStrokes order entry.strokes := by
    rw [Saved.row, boundBlob_eq fits]
  have read := deserialize_serialize order entry.strokes fits
  rw [storedSize_eq fits] at read
  rw [Row.load, data, serializeStrokes_ne_nil, if_neg Bool.false_ne_true, read,
    row_header]
  rfl

structure Reads (order : ByteOrder) (store : SqliteSnapshotStore) : Prop where
  listed : ∀ room visited replies, store.Visits room visited →
    replies.statement = none →
    ∃ listing, (store.list replies visited).2 = .ok listing ∧
      listing.Perm ((store.surviving room).map Saved.header) ∧
      listing.Pairwise fun first second => second.savedAtMs ≤ first.savedAtMs
  known : ∀ row ∈ store.rows, ∃ entry ∈ store.saved, entry.id = row.id
  loaded : ∀ row ∈ store.rows, ∀ entry ∈ store.saved, entry.id = row.id →
    ∀ replies, replies.statement = none →
      (store.loadById order replies row.id).2 =
        .ok (some ⟨entry.header, entry.strokes⟩)

private theorem Sound.row_eq (sound : store.Sound order) {row : Row}
    (member : row ∈ store.rows)
    {entry : Saved} (isSaved : entry ∈ store.saved) (sameId : entry.id = row.id) :
    row = entry.row order := by
  rcases List.mem_map.mp (sound.stored.subset member) with ⟨other, otherMem, rfl⟩
  rw [sound.distinct.eq_of_key_eq isSaved otherMem sameId]

theorem Sound.reads (sound : store.Sound order) {connection : Connection}
    (connected : store.db = some connection) : store.Reads order where
  listed room visited replies listing executes := by
    refine ⟨visited.map Row.header, ?_, ?_, ?_⟩
    · rw [list, operate_connected connected _ executes]
    · have headers : (store.surviving room).map Saved.header =
          (store.rowsOf room).map Row.header := by
        rw [sound.rowsOf_eq room, List.map_map]
        apply List.map_congr_left
        intro entry _
        exact (row_header entry).symm
      rw [headers]
      exact listing.perm.map Row.header
    · apply List.pairwise_map.mpr
      apply listing.descending.imp
      intro first second below
      exact Int64.le_iff_toInt_le.mpr below
  known row member := by
    rcases List.mem_map.mp (sound.stored.subset member) with ⟨entry, isSaved, rfl⟩
    exact ⟨entry, isSaved, rfl⟩
  loaded row member entry isSaved sameId replies executes := by
    rw [loadById, operate_connected connected _ executes,
      sound.rows_distinct.find?_key member]
    simp only [sound.row_eq member isSaved sameId, row_load (sound.fits entry isSaved)]
    rfl

/-! ## Exact retention -/

/-- After any history of saves and prunes a prune keeps as many of the newest
rows of its room as it is told to and no other rows, and what it keeps is read
back as it was saved. -/
theorem retention_exact {calls : List Call} {replies : SqliteReplies} {room : RoomId}
    {keep : UInt64} {visited : List Row}
    (runs : (system order).Runs (WithinLimits order) {} calls store)
    (stepped : store.step order (.pruneKeepLatest replies room keep visited) = some next) :
    store.Retains next room keep ∧ next.Reads order := by
  have sound := run_sound runs
  cases step_cases order stepped with
  | pruned _ _ _ _ connection listing =>
      have connected := sound.connect connection
      have retains := prune_retains connected listing keep
      exact ⟨{ retains with },
        (connected.prune room keep visited).reads (prune_db _ room keep visited)⟩

/-- Three snapshots of one room within a millisecond, and one of another whose id
is negative as a signed number. -/
def crowded : List Call :=
  [.save .succeed ⟨1, 7, 1000, 1, []⟩, .save .succeed ⟨2, 7, 1000, 2, []⟩,
    .save .succeed ⟨3, 18446744073709551615, 1000, 3, []⟩,
    .save .succeed ⟨5, 7, 1000, 18446744073709551614, []⟩]

def crowdedRow (id roomId lastSeq : Int64) : Row :=
  ⟨id, roomId, 1000, lastSeq, [1, 0, 0, 0, 0, 0, 0, 0]⟩

theorem retention_exact_crowded :
    ∃ store next : SqliteSnapshotStore,
      (system .little).Runs (WithinLimits .little) {} crowded store ∧
      next.rows = [crowdedRow 1 7 1, crowdedRow 3 (-1) 3, crowdedRow 5 7 (-2)] ∧
      store.Retains next 7 2 ∧ next.Reads .little := by
  have executed : ∃ store next : SqliteSnapshotStore,
      (system .little).execute (fun store call => decide (WithinLimits .little store call))
        {} crowded = some store ∧
      store.step .little (.pruneKeepLatest .succeed 7 2
        [crowdedRow 5 7 (-2), crowdedRow 1 7 1, crowdedRow 2 7 2]) = some next ∧
      next.rows = [crowdedRow 1 7 1, crowdedRow 3 (-1) 3, crowdedRow 5 7 (-2)] :=
    ⟨_, _, rfl, rfl, rfl⟩
  rcases executed with ⟨store, next, executed, stepped, rows⟩
  have runs := StepSystem.runs_of_execute (fun _ _ => of_decide_eq_true) executed
  exact ⟨store, next, runs, rows, retention_exact runs stepped⟩

end SqliteSnapshotStore

end ClearSpace.Persistence
