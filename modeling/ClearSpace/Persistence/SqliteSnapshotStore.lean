import ClearSpace.Foundation.Execution
import ClearSpace.Foundation.Ranking
import ClearSpace.Persistence.SnapshotBlob

/-! # The snapshot store

`SqliteSnapshotStore` of `persistence/src/sqlite_snapshot_store.cpp`. The table
is a list of rows in insertion order, and each SQL statement of the source is a
function of it. What SQLite decides is an argument: whether its calls succeed,
the id of a new row, and the order in which a query visits rows that
`ORDER BY saved_at_ms DESC` leaves open. -/

namespace ClearSpace.Persistence

open ClearSpace.Core

/-! ## Replies of SQLite -/

/-- Nothing when a call returns `SQLITE_OK`, `SQLITE_ROW` or `SQLITE_DONE`. Otherwise the
text that `throwIf` finds: that of `sqlite3_errmsg`, or "sqlite error" where there is no
handle to ask. -/
abbrev SqliteReply := Option ByteString

def throwIf : SqliteReply → Except RuntimeError Unit
  | none => .ok ()
  | some message => .error ⟨message⟩

/-- The fallible steps of `init`, in source order. -/
inductive InitStep
  | openDatabase
  | journalMode
  | ddl
  deriving DecidableEq, Repr

def initSteps : List InitStep := [.openDatabase, .journalMode, .ddl]

/-- What SQLite replies during one operation. `statement` is the first error
among preparing the statement, binding its parameters and stepping it. -/
structure SqliteReplies where
  init : InitStep → SqliteReply
  statement : SqliteReply

def SqliteReplies.succeed : SqliteReplies := ⟨fun _ => none, none⟩

/-! ## Rows -/

structure Row where
  id : Int64
  roomId : Int64
  savedAtMs : Int64
  lastSeq : Int64
  data : ByteString
  deriving DecidableEq, Repr

structure SnapshotMeta where
  id : Int64
  room : RoomId
  savedAtMs : Int64
  lastSeq : Seq
  deriving DecidableEq, Repr

/-- `header` is the field `meta` of the source, a keyword here. -/
structure StoredSnapshot where
  header : SnapshotMeta
  strokes : List Stroke
  deriving DecidableEq, Repr

def Row.header (row : Row) : SnapshotMeta where
  id := row.id
  room := row.roomId.toUInt64
  savedAtMs := row.savedAtMs
  lastSeq := row.lastSeq.toUInt64

/-- The order of `ORDER BY saved_at_ms DESC`. -/
def Row.time (row : Row) : Int := row.savedAtMs.toInt

def emptyBlob : RuntimeError := ⟨.ascii "empty snapshot blob"⟩

/-- The bytes SQLite copies when a blob is bound. A length that is cast to a
negative `int` has no defined behaviour there. -/
def boundBlob (blob : ByteString) : ByteString := blob.take (storedSize blob).toNat

/-- How many of the rows that a query visits `LIMIT ?` lets through; a negative
bound is no bound. -/
def limitCount (limit : Int64) (visited : Nat) : Nat :=
  if limit < 0 then visited else limit.toInt.toNat

/-! ## The store -/

/-- An open handle, with the steps of `init` that have succeeded on it. -/
structure Connection where
  succeeded : List InitStep
  deriving DecidableEq, Repr

/-- A snapshot as `save` was given it, with the clock reading and the id of its
row. -/
structure Saved where
  id : Int64
  room : RoomId
  savedAtMs : Int64
  lastSeq : Seq
  strokes : List Stroke
  deriving DecidableEq, Repr

/-- `sequence` is the largest id that was ever given to a row. `saved` is
history: what every call of `save` that succeeded was given. -/
structure SqliteSnapshotStore where
  db : Option Connection := none
  rows : List Row := []
  sequence : Int64 := 0
  saved : List Saved := []
  deriving DecidableEq, Repr

variable (order : ByteOrder)

def Saved.header (saved : Saved) : SnapshotMeta where
  id := saved.id
  room := saved.room
  savedAtMs := saved.savedAtMs
  lastSeq := saved.lastSeq

def Saved.row (saved : Saved) : Row where
  id := saved.id
  roomId := saved.room.toInt64
  savedAtMs := saved.savedAtMs
  lastSeq := saved.lastSeq.toInt64
  data := boundBlob (serializeStrokes order saved.strokes)

/-- What `loadById` and `loadLatest` make of the row they have found. -/
def Row.load (row : Row) : Except RuntimeError StoredSnapshot :=
  if row.data.isEmpty then .error emptyBlob
  else (deserializeStrokes order row.data row.data.length).map
    fun strokes => { header := row.header, strokes }

namespace SqliteSnapshotStore

/-! ### Initialisation -/

structure Initialised where
  succeeded : List InitStep
  attempted : List InitStep
  result : Except RuntimeError Unit

/-- `throwIf` around one step after the other. -/
def attempt (replies : InitStep → SqliteReply) (succeeded : List InitStep) :
    List InitStep → Initialised
  | [] => { succeeded, attempted := [], result := .ok () }
  | step :: rest =>
      match throwIf (replies step) with
      | .error error => { succeeded, attempted := [step], result := .error error }
      | .ok _ =>
          let later := attempt replies (succeeded ++ [step]) rest
          { later with attempted := step :: later.attempted }

/-- `init` returns at once when there is a handle. `sqlite3_open` stores one
also when it fails, so the handle stays whatever fails after that. -/
def init (store : SqliteSnapshotStore) (replies : InitStep → SqliteReply) :
    SqliteSnapshotStore × Initialised :=
  match store.db with
  | some connection =>
      (store, { succeeded := connection.succeeded, attempted := [], result := .ok () })
  | none =>
      let initialised := attempt replies [] initSteps
      ({ store with db := some ⟨initialised.succeeded⟩ }, initialised)

/-- Every operation calls `init` and then runs one statement; a statement that
fails leaves the table as it was. -/
def operate {Value : Type} (store : SqliteSnapshotStore) (replies : SqliteReplies)
    (statement : SqliteSnapshotStore → SqliteSnapshotStore × Except RuntimeError Value) :
    SqliteSnapshotStore × Except RuntimeError Value :=
  let (store, initialised) := store.init replies.init
  match initialised.result with
  | .error error => (store, .error error)
  | .ok _ =>
      match throwIf replies.statement with
      | .error error => (store, .error error)
      | .ok _ => statement store

/-! ### Operations -/

def rowsOf (store : SqliteSnapshotStore) (room : RoomId) : List Row :=
  store.rows.filter fun row => row.roomId = room.toInt64

def insert (store : SqliteSnapshotStore) (entry : Saved) : SqliteSnapshotStore :=
  { store with
    rows := store.rows ++ [entry.row order]
    sequence := entry.id
    saved := store.saved ++ [entry] }

def save (store : SqliteSnapshotStore) (replies : SqliteReplies) (entry : Saved) :
    SqliteSnapshotStore × Except RuntimeError Unit :=
  store.operate replies fun store => (store.insert order entry, .ok ())

/-- `visited` are the rows of the room in the order in which the query visits
them. -/
def list (store : SqliteSnapshotStore) (replies : SqliteReplies) (visited : List Row) :
    SqliteSnapshotStore × Except RuntimeError (List SnapshotMeta) :=
  store.operate replies fun store => (store, .ok (visited.map Row.header))

def loadById (store : SqliteSnapshotStore) (replies : SqliteReplies) (id : Int64) :
    SqliteSnapshotStore × Except RuntimeError (Option StoredSnapshot) :=
  store.operate replies fun store =>
    match store.rows.find? fun row => row.id = id with
    | none => (store, .ok none)
    | some row => (store, (row.load order).map some)

def loadLatest (store : SqliteSnapshotStore) (replies : SqliteReplies)
    (visited : List Row) :
    SqliteSnapshotStore × Except RuntimeError (Option StoredSnapshot) :=
  store.operate replies fun store =>
    match visited.take 1 with
    | [] => (store, .ok none)
    | row :: _ => (store, (row.load order).map some)

/-- `DELETE ... WHERE room_id=?` -/
def deleteAll (store : SqliteSnapshotStore) (room : RoomId) : SqliteSnapshotStore :=
  { store with rows := store.rows.filter fun row => row.roomId ≠ room.toInt64 }

/-- `DELETE ... WHERE room_id=? AND id NOT IN (...)` -/
def deleteOthers (store : SqliteSnapshotStore) (room : RoomId) (selected : List Row) :
    SqliteSnapshotStore :=
  { store with rows := store.rows.filter fun row =>
      ¬ (row.roomId = room.toInt64 ∧ row.id ∉ selected.map Row.id) }

def prune (store : SqliteSnapshotStore) (room : RoomId) (keep : UInt64)
    (visited : List Row) : SqliteSnapshotStore :=
  if keep = 0 then store.deleteAll room
  else store.deleteOthers room (visited.take (limitCount keep.toInt64 visited.length))

def pruneKeepLatest (store : SqliteSnapshotStore) (replies : SqliteReplies)
    (room : RoomId) (keep : UInt64) (visited : List Row) :
    SqliteSnapshotStore × Except RuntimeError Unit :=
  store.operate replies fun store => (store.prune room keep visited, .ok ())

/-! ## Runs -/

inductive Call
  | save (replies : SqliteReplies) (entry : Saved)
  | pruneKeepLatest (replies : SqliteReplies) (room : RoomId) (keep : UInt64)
      (visited : List Row)

/-- The orders in which a query of the room can visit its rows. -/
def Visits (store : SqliteSnapshotStore) (room : RoomId) (visited : List Row) : Prop :=
  Ranked Row.time (store.rowsOf room) visited

instance (store : SqliteSnapshotStore) (room : RoomId) (visited : List Row) :
    Decidable (store.Visits room visited) :=
  inferInstanceAs (Decidable (Ranked _ _ _))

def succeeded (answer : SqliteSnapshotStore × Except RuntimeError Unit) :
    Option SqliteSnapshotStore :=
  match answer.2 with
  | .ok _ => some answer.1
  | .error _ => none

/-- `none` when the call fails or SQLite cannot decide so. An id of an
`AUTOINCREMENT` column is above all ids ever given. -/
def step (store : SqliteSnapshotStore) : Call → Option SqliteSnapshotStore
  | .save replies entry =>
      if store.sequence < entry.id then succeeded (store.save order replies entry)
      else none
  | .pruneKeepLatest replies room keep visited =>
      if store.Visits room visited then
        succeeded (store.pruneKeepLatest replies room keep visited)
      else none

def system : StepSystem SqliteSnapshotStore Call := ⟨step order⟩

/-! ## What a call can do -/

def connect (store : SqliteSnapshotStore) (connection : Connection) :
    SqliteSnapshotStore :=
  { store with db := some connection }

theorem init_connects (store : SqliteSnapshotStore)
    (replies : InitStep → SqliteReply) :
    ∃ connection, (store.init replies).1 = store.connect connection := by
  unfold init
  cases found : store.db with
  | none => exact ⟨_, rfl⟩
  | some connection =>
      refine ⟨connection, ?_⟩
      change store = store.connect connection
      rw [connect, ← found]

/-- An operation runs its statement or changes nothing but the handle. -/
theorem operate_cases {Value : Type} (store : SqliteSnapshotStore)
    (replies : SqliteReplies)
    (statement : SqliteSnapshotStore → SqliteSnapshotStore × Except RuntimeError Value) :
    ∃ connection, store.operate replies statement = statement (store.connect connection) ∨
      ∃ error, store.operate replies statement =
        (store.connect connection, .error error) := by
  rcases store.init_connects replies.init with ⟨connection, connects⟩
  refine ⟨connection, ?_⟩
  unfold operate
  simp only [connects]
  cases (store.init replies.init).2.result with
  | error error => exact .inr ⟨error, rfl⟩
  | ok =>
      cases throwIf replies.statement with
      | error error => exact .inr ⟨error, rfl⟩
      | ok => exact .inl rfl

theorem operate_connected {Value : Type} {store : SqliteSnapshotStore}
    {connection : Connection} (connected : store.db = some connection)
    {replies : SqliteReplies}
    (statement : SqliteSnapshotStore → SqliteSnapshotStore × Except RuntimeError Value)
    (executes : replies.statement = none) :
    store.operate replies statement = statement store := by
  simp only [operate, init, connected, executes, throwIf]

theorem prune_sublist (store : SqliteSnapshotStore) (room : RoomId) (keep : UInt64)
    (visited : List Row) : (store.prune room keep visited).rows.Sublist store.rows := by
  unfold prune
  split
  · exact List.filter_sublist
  · exact List.filter_sublist

theorem prune_saved (store : SqliteSnapshotStore) (room : RoomId) (keep : UInt64)
    (visited : List Row) : (store.prune room keep visited).saved = store.saved := by
  unfold prune
  split <;> rfl

theorem prune_db (store : SqliteSnapshotStore) (room : RoomId) (keep : UInt64)
    (visited : List Row) : (store.prune room keep visited).db = store.db := by
  unfold prune
  split <;> rfl

theorem prune_sequence (store : SqliteSnapshotStore) (room : RoomId) (keep : UInt64)
    (visited : List Row) :
    (store.prune room keep visited).sequence = store.sequence := by
  unfold prune
  split <;> rfl

inductive Stepped (store : SqliteSnapshotStore) : Call → SqliteSnapshotStore → Prop
  | saved (replies : SqliteReplies) (entry : Saved) (connection : Connection)
      (fresh : store.sequence < entry.id) :
      Stepped store (.save replies entry)
        ((store.connect connection).insert order entry)
  | pruned (replies : SqliteReplies) (room : RoomId) (keep : UInt64)
      (visited : List Row) (connection : Connection)
      (listing : store.Visits room visited) :
      Stepped store (.pruneKeepLatest replies room keep visited)
        ((store.connect connection).prune room keep visited)

theorem step_cases {store next : SqliteSnapshotStore} {call : Call}
    (stepped : store.step order call = some next) : Stepped order store call next := by
  cases call with
  | save replies entry =>
      simp only [step] at stepped
      split at stepped
      next fresh =>
        rw [save] at stepped
        rcases store.operate_cases replies fun store =>
          (store.insert order entry, .ok ()) with ⟨connection, ran | ⟨error, failed⟩⟩
        · rw [ran] at stepped
          cases stepped
          exact .saved replies entry connection fresh
        · rw [failed] at stepped
          cases stepped
      next => cases stepped
  | pruneKeepLatest replies room keep visited =>
      simp only [step] at stepped
      split at stepped
      next listing =>
        rw [pruneKeepLatest] at stepped
        rcases store.operate_cases replies fun store =>
          (store.prune room keep visited, .ok ()) with ⟨connection, ran | ⟨error, failed⟩⟩
        · rw [ran] at stepped
          cases stepped
          exact .pruned replies room keep visited connection listing
        · rw [failed] at stepped
          cases stepped
      next => cases stepped

end SqliteSnapshotStore

end ClearSpace.Persistence
