import ClearSpace.Persistence.SqliteSnapshotStore

/-! # Initialisation and retries

Every operation of the store starts with `init`, whose only record of what it
has done is the handle. The handle is there before anything has succeeded on it,
so an `init` that fails is not taken up again. -/

namespace ClearSpace.Persistence.SqliteSnapshotStore

open ClearSpace.Core

/-- The operations that call `init`, and `init` itself. -/
inductive Operation
  | init
  | save (entry : Saved)
  | list (visited : List Row)
  | loadById (id : Int64)
  | loadLatest (visited : List Row)
  | pruneKeepLatest (room : RoomId) (keep : UInt64) (visited : List Row)

structure Request where
  operation : Operation
  replies : SqliteReplies

variable (order : ByteOrder)

def serve (store : SqliteSnapshotStore) (replies : SqliteReplies) :
    Operation → SqliteSnapshotStore
  | .init => (store.init replies.init).1
  | .save entry => (store.save order replies entry).1
  | .list visited => (store.list replies visited).1
  | .loadById id => (store.loadById order replies id).1
  | .loadLatest visited => (store.loadLatest order replies visited).1
  | .pruneKeepLatest room keep visited =>
      (store.pruneKeepLatest replies room keep visited).1

/-- The store, answering every operation with the end of its `init`. -/
def initialising : Machine SqliteSnapshotStore Request Initialised where
  step store request :=
    (store.serve order request.replies request.operation,
      (store.init request.replies.init).2)

def Missing (store : SqliteSnapshotStore) (step : InitStep) : Prop :=
  ∀ connection, store.db = some connection → step ∉ connection.succeeded

/-- An `init` that returns has completed, and one that finds steps missing
attempts them, up to one that fails. -/
structure AllOrNothing (store : SqliteSnapshotStore) (request : Request) : Prop where
  complete : (store.init request.replies.init).2.result = .ok () →
    ∀ step, ¬ (store.init request.replies.init).1.Missing step
  retried : ∀ step, store.Missing step →
    step ∈ (store.init request.replies.init).2.attempted ∨
      ∃ failed ∈ (store.init request.replies.init).2.attempted,
        request.replies.init failed ≠ none

def Request.InitSucceeds (request : Request) : Prop :=
  ∀ step, request.replies.init step = none

/-! ## One attempt -/

variable {order}

private theorem of_mem_succeeded {replies : InitStep → SqliteReply}
    {steps before : List InitStep} {step : InitStep}
    (recorded : step ∈ (attempt replies before steps).succeeded) :
    step ∈ before ∨ replies step = none := by
  induction steps generalizing before with
  | nil => exact .inl recorded
  | cons first rest induction =>
      cases reply : replies first with
      | some message =>
          simp only [attempt, reply, throwIf] at recorded
          exact .inl recorded
      | none =>
          simp only [attempt, reply, throwIf] at recorded
          rcases induction recorded with earlier | succeeds
          · rcases List.mem_append.mp earlier with before | isFirst
            · exact .inl before
            · rw [List.mem_singleton.mp isFirst]
              exact .inr reply
          · exact .inr succeeds

/-- An attempt that returns has made all steps; one that throws has made one
that failed. -/
theorem attempt_ends (replies : InitStep → SqliteReply) (steps before : List InitStep) :
    ((attempt replies before steps).result = .ok () ∧
      (attempt replies before steps).attempted = steps ∧
      (attempt replies before steps).succeeded = before ++ steps) ∨
    ((attempt replies before steps).result ≠ .ok () ∧
      ∃ failed ∈ (attempt replies before steps).attempted, replies failed ≠ none) := by
  induction steps generalizing before with
  | nil => exact .inl ⟨rfl, rfl, (List.append_nil before).symm⟩
  | cons first rest induction =>
      cases reply : replies first with
      | some message =>
          simp only [attempt, reply, throwIf]
          refine .inr ⟨?_, first, .head _, ?_⟩
          · intro returned
            cases returned
          · simp [reply]
      | none =>
          simp only [attempt, reply, throwIf]
          rcases induction (before ++ [first]) with
            ⟨returned, attempted, succeeded⟩ | ⟨threw, failed, isAttempted, fails⟩
          · refine .inl ⟨returned, congrArg _ attempted, ?_⟩
            rw [succeeded, List.append_assoc]
            rfl
          · exact .inr ⟨threw, failed, .tail _ isAttempted, fails⟩

theorem mem_initSteps (step : InitStep) : step ∈ initSteps := by
  cases step <;> decide

/-! ## Sequences of operations -/

theorem operate_db {Value : Type} (store : SqliteSnapshotStore) (replies : SqliteReplies)
    {statement : SqliteSnapshotStore → SqliteSnapshotStore × Except RuntimeError Value}
    (keeps : ∀ store, (statement store).1.db = store.db) :
    (store.operate replies statement).1.db = (store.init replies.init).1.db := by
  unfold operate
  simp only
  cases (store.init replies.init).2.result with
  | error => rfl
  | ok =>
      cases throwIf replies.statement with
      | error => rfl
      | ok => exact keeps _

theorem serve_db (store : SqliteSnapshotStore) (replies : SqliteReplies)
    (operation : Operation) :
    (store.serve order replies operation).db = (store.init replies.init).1.db := by
  cases operation with
  | init => rfl
  | save entry => exact operate_db store replies fun _ => rfl
  | list visited => exact operate_db store replies fun _ => rfl
  | loadById id =>
      apply operate_db store replies
      intro store
      cases store.rows.find? fun row => row.id = id <;> rfl
  | loadLatest visited =>
      apply operate_db store replies
      intro store
      cases visited.take 1 <;> rfl
  | pruneKeepLatest room keep visited =>
      exact operate_db store replies fun store => prune_db store room keep visited

private theorem fresh_allOrNothing (request : Request) : AllOrNothing {} request := by
  rcases attempt_ends request.replies.init initSteps [] with
    ⟨_, attempted, succeeded⟩ | ⟨threw, failed⟩
  · refine ⟨fun _ step missing => ?_, fun step _ => .inl ?_⟩
    · apply missing ⟨_⟩ rfl
      rw [succeeded]
      exact mem_initSteps step
    · change step ∈ (attempt _ [] initSteps).attempted
      rw [attempted]
      exact mem_initSteps step
  · exact ⟨fun returned => absurd returned threw, fun _ _ => .inr failed⟩

/-- On a complete handle there is nothing left to do. -/
theorem along_complete {store : SqliteSnapshotStore}
    (complete : store.db = some ⟨initSteps⟩) (requests : List Request) :
    (initialising order).Along AllOrNothing store requests := by
  induction requests generalizing store with
  | nil => trivial
  | cons request rest induction =>
      have settled : (store.init request.replies.init).1.db = some ⟨initSteps⟩ := by
        simp only [init, complete]
      have nothingMissing : ∀ step, ¬ store.Missing step := fun step missing =>
        missing ⟨initSteps⟩ complete (mem_initSteps step)
      refine ⟨⟨fun _ step missing => ?_, fun step missing => ?_⟩, induction ?_⟩
      · exact missing ⟨initSteps⟩ settled (mem_initSteps step)
      · exact absurd missing (nothingMissing step)
      · exact (serve_db store request.replies request.operation).trans settled

theorem not_allOrNothing_of_missing {store : SqliteSnapshotStore}
    {connection : Connection} (connected : store.db = some connection)
    {step : InitStep} (missing : step ∉ connection.succeeded) (request : Request) :
    ¬ AllOrNothing store request := by
  intro holds
  have returned : (store.init request.replies.init).2.result = .ok () := by
    simp only [init, connected]
  apply holds.complete returned step
  intro other isOther
  simp only [init, connected] at isOther
  rw [← Option.some.inj isOther]
  exact missing

/-- Initialisation is all or nothing exactly if the first call succeeds or is
the only one. -/
theorem init_all_or_nothing (requests : List Request) :
    (initialising order).Along AllOrNothing {} requests ↔
      requests.length ≤ 1 ∨ ∀ first ∈ requests.head?, first.InitSucceeds := by
  cases requests with
  | nil => exact iff_of_true trivial (.inl (Nat.zero_le 1))
  | cons first rest =>
      have next : (serve order {} first.replies first.operation).db =
          some ⟨(attempt first.replies.init [] initSteps).succeeded⟩ :=
        serve_db {} first.replies first.operation
      constructor
      · intro along
        cases rest with
        | nil => exact .inl (Nat.le_refl 1)
        | cons second later =>
            refine .inr ?_
            intro request isFirst step
            cases isFirst
            by_contra fails
            have unrecorded :
                step ∉ (attempt first.replies.init [] initSteps).succeeded := by
              intro recorded
              exact fails ((of_mem_succeeded recorded).resolve_left nofun)
            exact not_allOrNothing_of_missing next unrecorded second along.2.1
      · intro condition
        refine ⟨fresh_allOrNothing first, ?_⟩
        rcases condition with single | succeeds
        · have isLast : rest = [] := by
            rw [← List.length_eq_zero_iff]
            rw [List.length_cons] at single
            omega
          rw [isLast]
          trivial
        · have isComplete : (attempt first.replies.init [] initSteps).succeeded =
              initSteps := by
            rcases attempt_ends first.replies.init initSteps [] with
              ⟨_, _, succeeded⟩ | ⟨_, failed, _, fails⟩
            · exact succeeded
            · exact absurd (succeeds first rfl failed) fails
          rw [isComplete] at next
          exact along_complete next rest

/-- The table cannot be created, because the database is locked. -/
def locked : Request where
  operation := .init
  replies := {
    init := fun step => if step = .ddl then some (.ascii "database is locked") else none
    statement := none }

/-- The next call returns although there still is no table. -/
theorem init_not_retried :
    ¬ ∀ requests, (initialising .little).Along AllOrNothing {} requests := by
  intro always
  have along := always [locked, ⟨.init, .succeed⟩]
  have connected : (serve .little {} locked.replies locked.operation).db =
      some ⟨[.openDatabase, .journalMode]⟩ := rfl
  exact not_allOrNothing_of_missing connected (by decide : .ddl ∉ _) _ along.2.1

end ClearSpace.Persistence.SqliteSnapshotStore
