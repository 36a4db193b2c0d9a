import ClearSpace.Persistence.NewestSnapshot

/-! # The store when SQLite refuses

A save or a prune that fails leaves the table as it was. Rows that a failed prune
has left are removed by the next one, so at any time a room has its latest saves
stored, and the latest one is what `loadLatest` finds. -/

namespace ClearSpace.Persistence

open ClearSpace.Core

/-- What `enqueue` was given. -/
def Saved.snapshot (saved : Saved) : PersistedBoardSnapshot where
  room := saved.room
  lastSeq := saved.lastSeq
  strokes := saved.strokes

def StoredSnapshot.snapshot (stored : StoredSnapshot) : PersistedBoardSnapshot where
  room := stored.header.room
  lastSeq := stored.header.lastSeq
  strokes := stored.strokes

private theorem rtake_rtake_of_le {α : Type} (entries : List α) {fewer more : Nat}
    (isLess : fewer ≤ more) : (entries.rtake more).rtake fewer = entries.rtake fewer := by
  simp only [List.rtake, List.drop_drop, List.length_drop]
  congr 1
  omega

private theorem getLast?_rtake {α : Type} (entries : List α) {count : Nat}
    (positive : count ≠ 0) :
    (entries.rtake count).getLast? = entries.getLast? := by
  rw [List.rtake, List.getLast?_drop]
  split
  next none =>
    have empty : entries = [] := List.length_eq_zero_iff.mp (by omega)
    rw [empty]
    rfl
  next => rfl

namespace SqliteSnapshotStore

/-- Along the stored snapshots of a room the clock readings increase, and these
are the latest ones, no fewer than a prune keeps. -/
structure KeepsLatest (keepLatest : UInt64) (store : SqliteSnapshotStore) : Prop where
  increasing : ∀ room, (store.surviving room).Pairwise
    fun earlier later => earlier.savedAtMs < later.savedAtMs
  survivors : ∀ room, ∃ count, keepLatest.toNat ≤ count ∧
    store.surviving room = (store.savedOf room).rtake count

variable {order : ByteOrder} {keepLatest : UInt64} {store : SqliteSnapshotStore}

theorem initial_keepsLatest : KeepsLatest keepLatest {} where
  increasing _ := .nil
  survivors _ := ⟨keepLatest.toNat, Nat.le_refl _, by simp [surviving, savedOf]⟩

theorem KeepsLatest.connect (holds : store.KeepsLatest keepLatest)
    (connection : Connection) : (store.connect connection).KeepsLatest keepLatest :=
  { holds with }

theorem save_cases (store : SqliteSnapshotStore) (order : ByteOrder)
    (replies : SqliteReplies) (entry : Saved) :
    ∃ connection,
      store.save order replies entry =
        ((store.connect connection).insert order entry, .ok ()) ∨
      ∃ error, store.save order replies entry =
        (store.connect connection, .error error) :=
  store.operate_cases replies _

theorem pruneKeepLatest_cases (store : SqliteSnapshotStore) (replies : SqliteReplies)
    (room : RoomId) (keep : UInt64) (visited : List Row) :
    ∃ connection,
      store.pruneKeepLatest replies room keep visited =
        ((store.connect connection).prune room keep visited, .ok ()) ∨
      ∃ error, store.pruneKeepLatest replies room keep visited =
        (store.connect connection, .error error) :=
  store.operate_cases replies _

theorem KeepsLatest.insert (holds : store.KeepsLatest keepLatest)
    (sound : store.Sound order) (entry : Saved) (fresh : store.sequence < entry.id)
    (later : ∀ row ∈ store.rowsOf entry.room, row.savedAtMs < entry.savedAtMs) :
    (store.insert order entry).KeepsLatest keepLatest where
  increasing room := by
    rw [sound.surviving_insert entry fresh room]
    refine List.pairwise_append.mpr ⟨holds.increasing room, ?_, ?_⟩
    · exact (List.pairwise_singleton _ entry).filter _
    · intro old member new isNew
      rcases List.mem_filter.mp isNew with ⟨isEntry, sameRoom⟩
      rw [List.mem_singleton.mp isEntry] at sameRoom ⊢
      rw [← of_decide_eq_true sameRoom] at member
      apply later (old.row order)
      rw [sound.rowsOf_eq]
      exact List.mem_map_of_mem member
  survivors room := by
    rcases holds.survivors room with ⟨count, enough, survivors⟩
    rw [sound.surviving_insert entry fresh room, savedOf_insert, survivors]
    by_cases sameRoom : entry.room = room
    · refine ⟨count + 1, Nat.le_succ_of_le enough, ?_⟩
      rw [List.filter_cons_of_pos (by simpa using sameRoom), List.filter_nil,
        List.rtake_concat_succ]
    · refine ⟨count, enough, ?_⟩
      rw [List.filter_cons_of_neg (by simpa using sameRoom), List.filter_nil,
        List.append_nil, List.append_nil]

theorem KeepsLatest.prune (holds : store.KeepsLatest keepLatest)
    (sound : store.Sound order) {room : RoomId} {visited : List Row}
    (listing : store.Visits room visited) :
    (store.prune room keepLatest visited).KeepsLatest keepLatest where
  increasing other := by
    by_cases isRoom : other = room
    · rw [isRoom, sound.surviving_prune listing (holds.increasing room)]
      exact (holds.increasing room).sublist (List.drop_sublist _ _)
    · rw [sound.surviving_prune_other isRoom]
      exact holds.increasing other
  survivors other := by
    rcases holds.survivors other with ⟨count, enough, survivors⟩
    rw [savedOf, prune_saved]
    by_cases isRoom : other = room
    · refine ⟨keepLatest.toNat, Nat.le_refl _, ?_⟩
      rw [isRoom] at survivors ⊢
      rw [sound.surviving_prune listing (holds.increasing room), survivors]
      exact rtake_rtake_of_le _ enough
    · refine ⟨count, enough, ?_⟩
      rw [sound.surviving_prune_other isRoom]
      exact survivors

/-- Where the clock readings increase, `loadLatest` gives what was saved last of
what is stored. -/
theorem KeepsLatest.loadLatest (holds : store.KeepsLatest keepLatest)
    (sound : store.Sound order) {connection : Connection}
    (connected : store.db = some connection) {room : RoomId} {visited : List Row}
    (listing : store.Visits room visited) {replies : SqliteReplies}
    (executes : replies.statement = none) :
    (store.loadLatest order replies visited).2 =
      .ok ((store.surviving room).getLast?.map
        fun entry => ⟨entry.header, entry.strokes⟩) := by
  have rows := sound.rowsOf_eq room
  have reversed := listing.eq_reverse (sound.rows_increase (holds.increasing room))
  rw [SqliteSnapshotStore.loadLatest, operate_connected connected _ executes, reversed,
    rows, ← List.map_reverse]
  cases found : (store.surviving room).reverse with
  | nil =>
      rw [List.reverse_eq_nil_iff.mp found]
      rfl
  | cons last front =>
      have isLast : (store.surviving room).getLast? = some last := by
        rw [← List.head?_reverse, found]
        rfl
      have isSaved : last ∈ store.saved :=
        (List.mem_filter.mp (List.mem_of_getLast? isLast)).1
      rw [List.map_cons, List.take_succ_cons, isLast]
      simp only [row_load (sound.fits last isSaved)]
      rfl

theorem KeepsLatest.getLast?_surviving (holds : store.KeepsLatest keepLatest)
    (positive : keepLatest ≠ 0) (room : RoomId) :
    (store.surviving room).getLast? = (store.savedOf room).getLast? := by
  rcases holds.survivors room with ⟨count, enough, survivors⟩
  rw [survivors]
  apply getLast?_rtake
  intro isZero
  rw [isZero] at enough
  exact positive (UInt64.toNat_inj.mp (Nat.le_zero.mp enough))

end SqliteSnapshotStore

end ClearSpace.Persistence
