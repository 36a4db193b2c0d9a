import ClearSpace.Core.EmptiedRoom
import ClearSpace.Core.ThreadedCore
import ClearSpace.Foundation.Projection

/-! # Two levels of threads

`ThreadedCore` follows the member functions from their call to their return,
`ConcurrentCore` has only the steps of them that change something. What threads do
in the first is a run of the second, which is how results carry over. -/

namespace ClearSpace.Core

open StepSystem

/-- What a thread has yet to do apart from looking up a room and returning. -/
def Stage.progress : Stage → Progress
  | .counting id _ => .counting id
  | .saving id _ => .saving id
  | .holding snapshot _ => .holding snapshot
  | _ => .idle

namespace ThreadedCore

def coarse (state : ThreadedCore) : Action → Option ConcurrentCore.Action
  | .invoke .. => none
  | .advance thread =>
      match state.stage thread with
      | .entered .createRoom => some .createRoom
      | .found id (.join client) => some (.joinRoom client id)
      | .found id (.leave client) => some (.leaveRoom thread client id)
      | .found id (.apply client event now) =>
          some (.handleEvent thread client id event now)
      | .counting .. => some (.memberCount thread)
      | .saving .. => some (.makePersistedSnapshot thread)
      | .holding .. => some (.enqueue thread)
      | _ => none

/-- The two are at the same point. There is a sink. -/
structure Coarsens (state : ThreadedCore) (coarse : ConcurrentCore) : Prop where
  rooms : coarse.rooms = state.rooms
  enqueued : state.snapshotSink = some coarse.enqueued
  progress : ∀ thread, coarse.progress thread = (state.stage thread).progress

section Steps

variable {state next : ThreadedCore} {coarse after : ConcurrentCore} {thread : Nat}
  {stage : Stage}

theorem Coarsens.move (coarsens : state.Coarsens coarse) (rooms : after.rooms = next.rooms)
    (enqueued : next.snapshotSink = some after.enqueued)
    (stages : next.stage = Function.update state.stage thread stage)
    (moved : after.progress = Function.update coarse.progress thread stage.progress) :
    next.Coarsens after where
  rooms := rooms
  enqueued := enqueued
  progress other := by
    rw [stages, moved]
    by_cases same : other = thread
    · rw [same, Function.update_self, Function.update_self]
    · rw [Function.update_of_ne same, Function.update_of_ne same]
      exact coarsens.progress other

theorem Coarsens.update_progress (coarsens : state.Coarsens coarse)
    (same : stage.progress = (state.stage thread).progress) :
    coarse.progress = Function.update coarse.progress thread stage.progress := by
  rw [same, ← coarsens.progress thread, Function.update_eq_self]

theorem Coarsens.stay (coarsens : state.Coarsens coarse)
    (same : stage.progress = (state.stage thread).progress) :
    (state.goTo thread stage).Coarsens coarse := by
  have stages : (state.goTo thread stage).stage =
      Function.update state.stage thread stage := rfl
  exact coarsens.move coarsens.rooms coarsens.enqueued stages
    (coarsens.update_progress same)

theorem Coarsens.operate (coarsens : state.Coarsens coarse) (id : RoomId)
    {outcome : Outcome (List OutgoingEvent)} {progress : Progress}
    (idle : coarse.progress thread = .idle)
    (isProgress : stage.progress =
      match outcome.result with
      | .error _ => .idle
      | .ok _ => progress) :
    Coarsens ({ state with rooms := state.rooms.putRoom id outcome.room }.goTo thread stage)
      (coarse.operate thread id outcome progress) := by
  have rooms : (coarse.operate thread id outcome progress).rooms =
      state.rooms.putRoom id outcome.room := by
    rw [ConcurrentCore.operate_rooms, coarsens.rooms]
  have stages : (ThreadedCore.goTo { state with rooms := state.rooms.putRoom id outcome.room }
      thread stage).stage = Function.update state.stage thread stage := rfl
  refine coarsens.move rooms ?_ stages ?_
  · unfold ConcurrentCore.operate
    cases outcome.result <;> exact coarsens.enqueued
  · rw [isProgress]
    unfold ConcurrentCore.operate
    cases outcome.result with
    | error _ => rw [← idle, Function.update_eq_self]
    | ok _ => rfl

def Matched (state next : ThreadedCore) (coarse : ConcurrentCore) (action : Action) :
    Prop :=
  match state.coarse action with
  | none => next.Coarsens coarse
  | some seen => Any coarse seen ∧
      ∃ after, ConcurrentCore.system.step coarse seen = some after ∧ next.Coarsens after

theorem Matched.of_step {action : Action} {seen : ConcurrentCore.Action}
    (isSeen : state.coarse action = some seen) (stepped : coarse.step seen = some after)
    (coarsens : next.Coarsens after) : Matched state next coarse action := by
  rw [Matched, isSeen]
  exact ⟨trivial, after, stepped, coarsens⟩

theorem Coarsens.call (coarsens : state.Coarsens coarse) {id : RoomId} {call : Call}
    {room : Room} (isStage : state.stage thread = .found id call)
    (found : state.rooms.getRoom id = some room) :
    Matched state
      ({ state with rooms := state.rooms.putRoom id (room.call call).room }.goTo thread
        (.after state.snapshotSink.isSome id call (room.call call).result))
      coarse (.advance thread) := by
  have idle : coarse.progress thread = .idle := by
    rw [coarsens.progress, isStage]
    rfl
  have isFound : coarse.rooms.getRoom id = some room := by
    rw [coarsens.rooms]
    exact found
  have sinks : state.snapshotSink.isSome = true := by
    rw [coarsens.enqueued]
    rfl
  rw [sinks]
  cases call with
  | join client =>
      have stepped : coarse.step (.joinRoom client id) = some
          { coarse with rooms := coarse.rooms.putRoom id (room.join client).room } := by
        simp only [ConcurrentCore.step, isFound]
      refine .of_step (by simp only [ThreadedCore.coarse, isStage]) stepped ?_
      have rooms : coarse.rooms.putRoom id (room.join client).room =
          state.rooms.putRoom id (room.call (.join client)).room := by
        rw [coarsens.rooms]
        rfl
      refine coarsens.move rooms coarsens.enqueued rfl (coarsens.update_progress ?_)
      rw [isStage]
      simp only [Room.call, Outcome.map]
      cases (room.join client).result <;> rfl
  | leave client =>
      have stepped : coarse.step (.leaveRoom thread client id) =
          some (coarse.operate thread id (room.leave client) (.counting id)) := by
        simp only [ConcurrentCore.step, idle, ConcurrentCore.leaveRoom, isFound]
      refine .of_step (by simp only [ThreadedCore.coarse, isStage]) stepped ?_
      apply coarsens.operate id idle
      simp only [Room.call, Outcome.map]
      cases (room.leave client).result <;> rfl
  | apply client event now =>
      have stepped : coarse.step (.handleEvent thread client id event now) =
          some (coarse.handleEvent thread client id event now) := by
        simp only [ConcurrentCore.step, idle]
      refine .of_step (by simp only [ThreadedCore.coarse, isStage]) stepped ?_
      simp only [ConcurrentCore.handleEvent, isFound]
      split
      next saves =>
        have isProgress : (Stage.after true id (.apply client event now)
            (room.call (.apply client event now)).result).progress =
              match (room.apply client event now).result with
              | .error _ => .idle
              | .ok _ => .saving id := by
          simp only [Room.call, Outcome.map]
          cases (room.apply client event now).result with
          | error error => rfl
          | ok events => simp [Except.map, Stage.after, saves, Stage.progress]
        have operated := coarsens.operate id idle isProgress
        exact ⟨operated.rooms, operated.enqueued, operated.progress⟩
      next skips =>
        apply coarsens.operate id idle
        simp only [Room.call, Outcome.map]
        cases (room.apply client event now).result with
        | error error => rfl
        | ok events => simp [Except.map, Stage.after, skips, Stage.progress]

theorem Coarsens.advance (coarsens : state.Coarsens coarse)
    (stepped : state.advance thread (state.stage thread) = some next) :
    Matched state next coarse (.advance thread) := by
  have doing := coarsens.progress thread
  cases isStage : state.stage thread with
  | outside =>
      rw [isStage] at stepped
      cases stepped
  | entered call =>
      rw [isStage] at stepped
      cases call with
      | createRoom =>
          cases stepped
          have created : coarse.step .createRoom =
              some { coarse with rooms := coarse.rooms.createRoom.1 } := rfl
          refine .of_step (by simp only [ThreadedCore.coarse, isStage]) created ?_
          have rooms : coarse.rooms.createRoom.1 = state.rooms.createRoom.1 := by
            rw [coarsens.rooms]
          refine coarsens.move rooms coarsens.enqueued rfl (coarsens.update_progress ?_)
          rw [isStage]
          rfl
      | on id call =>
          simp only [ThreadedCore.advance] at stepped
          rw [Matched]
          simp only [ThreadedCore.coarse, isStage]
          split at stepped
          · cases stepped
            apply coarsens.stay
            rw [isStage]
            rfl
          · cases stepped
            apply coarsens.stay
            rw [isStage]
            rfl
  | found id call =>
      rw [isStage] at stepped
      simp only [ThreadedCore.advance] at stepped
      rcases Option.map_eq_some_iff.mp stepped with ⟨room, found, rfl⟩
      exact coarsens.call isStage found
  | counting id reply =>
      rw [isStage] at stepped doing
      simp only [ThreadedCore.advance] at stepped
      rcases Option.map_eq_some_iff.mp stepped with ⟨room, found, rfl⟩
      have counted : coarse.step (.memberCount thread) = some
          (coarse.goTo thread (if room.memberCount = 0 then .saving id else .idle)) := by
        rw [← coarsens.rooms] at found
        simp only [ConcurrentCore.step, doing, Stage.progress, found, Option.map_some]
      refine .of_step (by simp only [ThreadedCore.coarse, isStage]) counted ?_
      have moved : (if room.memberCount = 0 then Progress.saving id else .idle) =
          (if room.memberCount = 0 then Stage.saving id reply
            else .leaving reply).progress := by
        split <;> rfl
      rw [moved]
      exact coarsens.move coarsens.rooms coarsens.enqueued rfl rfl
  | saving id reply =>
      rw [isStage] at stepped doing
      simp only [ThreadedCore.advance] at stepped
      rcases Option.map_eq_some_iff.mp stepped with ⟨room, found, rfl⟩
      have copied : coarse.step (.makePersistedSnapshot thread) =
          some (coarse.goTo thread (.holding room.makePersistedSnapshot)) := by
        rw [← coarsens.rooms] at found
        simp only [ConcurrentCore.step, doing, Stage.progress, found, Option.map_some]
      refine .of_step (by simp only [ThreadedCore.coarse, isStage]) copied ?_
      exact coarsens.move coarsens.rooms coarsens.enqueued rfl rfl
  | holding snapshot reply =>
      rw [isStage] at stepped doing
      cases stepped
      have enqueued : coarse.step (.enqueue thread) = some
          ({ coarse with enqueued := coarse.enqueued ++ [snapshot] }.goTo thread .idle) := by
        simp only [ConcurrentCore.step, doing, Stage.progress]
      refine .of_step (by simp only [ThreadedCore.coarse, isStage]) enqueued ?_
      refine coarsens.move coarsens.rooms ?_ rfl rfl
      change state.snapshotSink.map (· ++ [snapshot]) = some (coarse.enqueued ++ [snapshot])
      rw [coarsens.enqueued, Option.map_some]
  | leaving reply =>
      rw [isStage] at stepped
      cases stepped
      rw [Matched]
      simp only [ThreadedCore.coarse, isStage]
      apply coarsens.stay
      rw [isStage]
      rfl

private theorem step_matched {action : Action} (stepped : state.step action = some next)
    (coarsens : state.Coarsens coarse) : Matched state next coarse action := by
  cases action with
  | invoke thread call =>
      simp only [step] at stepped
      split at stepped
      next isStage =>
        cases stepped
        apply coarsens.stay
        rw [isStage]
        rfl
      next => cases stepped
  | advance thread => exact coarsens.advance stepped

end Steps

/-- Whatever the threads do inside the member functions is a run of the steps that
change something: the same rooms, and the same snapshots in the same order. -/
theorem threads_coarsen {Allowed : ThreadedCore → Action → Prop} {actions : List Action}
    {final : ThreadedCore} (runs : system.Runs Allowed (start true) actions final) :
    ∃ coarse, ConcurrentCore.system.Runs Any {}
        (system.inputs ThreadedCore.coarse (start true) actions) coarse ∧
      final.Coarsens coarse := by
  have atStart : (start true).Coarsens {} := ⟨rfl, rfl, fun _ => rfl⟩
  refine runs.refines ?_ atStart
  intro state next action coarse _ stepped coarsens
  have matched := step_matched stepped coarsens
  unfold Matched at matched
  generalize state.coarse action = seen at matched ⊢
  cases seen <;> exact matched

/-- When no thread is inside the core, an empty room that somebody has left has its
board in the sink. -/
theorem threads_store_emptied {Allowed : ThreadedCore → Action → Prop}
    {actions : List Action} {final : ThreadedCore}
    (runs : system.Runs Allowed (start true) actions final)
    (returned : ∀ thread, final.stage thread = .outside) {id : RoomId}
    (left : id ∈ ConcurrentCore.leftRooms
      (system.inputs ThreadedCore.coarse (start true) actions))
    {room : Room} (found : final.rooms.getRoom id = some room)
    (empty : room.memberCount = 0) :
    room.makePersistedSnapshot ∈ final.snapshotSink.getD [] := by
  rcases threads_coarsen runs with ⟨coarse, coarseRuns, coarsens⟩
  have completed : ∀ thread, coarse.progress thread = .idle := by
    intro thread
    rw [coarsens.progress, returned]
    rfl
  rw [← coarsens.rooms] at found
  rw [coarsens.enqueued]
  exact (ConcurrentCore.runs_stored coarseRuns completed left found empty).2

end ThreadedCore

end ClearSpace.Core
