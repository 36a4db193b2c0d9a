import ClearSpace.Core.Replay
import ClearSpace.Transport.SnapshotMessage

/-! # What a client shows

A client that applies the events of a room to the snapshot it was sent, all as
they stand in messages, shows the board that the core holds. -/

namespace ClearSpace.Transport

open ClearSpace.Core KeyedLists

structure BoardView where
  strokes : List StrokeDto
  cursors : ClientId → Option PointDto

namespace BoardView

def ofBoard (board : BoardState) : BoardView where
  strokes := board.strokes.map fromCoreStroke
  cursors client := (board.cursors.lookup client).map fromCorePoint

def ofSnapshot (strokes : List StrokeDto) (cursors : List CursorDto) : BoardView where
  strokes := strokes
  cursors client := (cursors.find? fun cursor => cursor.client = client).map
    CursorDto.point

/-- What a client does with one event. -/
def apply (view : BoardView) : EventDto → BoardView
  | .strokeBegin author id strokeOrder color thickness start =>
      { view with strokes := view.strokes ++ [
          { id, author, color, thickness, strokeOrder
            points := [start], finished := false }] }
  | .strokePoint _ id point =>
      { view with strokes := updateBy StrokeDto.id view.strokes id fun stroke =>
          { stroke with points := stroke.points ++ [point] } }
  | .strokeEnd _ id =>
      { view with strokes := updateBy StrokeDto.id view.strokes id fun stroke =>
          { stroke with finished := true } }
  | .cursorMove author point =>
      { view with cursors := fun client =>
          if client = author then some point else view.cursors client }
  | .clear _ => { view with strokes := [] }
  | .memberLeft left =>
      { view with cursors := fun client =>
          if client = left then none else view.cursors client }

def applyAll (view : BoardView) (events : List EventDto) : BoardView :=
  events.foldl apply view

/-! ## Events -/

theorem map_updateBy_fromCoreStroke (strokes : List Stroke) (id : StrokeId)
    {change : Stroke → Stroke} {changeDto : StrokeDto → StrokeDto}
    (alike : ∀ stroke, changeDto (fromCoreStroke stroke) = fromCoreStroke (change stroke)) :
    updateBy StrokeDto.id (strokes.map fromCoreStroke) id changeDto =
      (updateBy Stroke.id strokes id change).map fromCoreStroke := by
  rw [updateBy, updateBy, List.map_map, List.map_map]
  apply List.map_congr_left
  intro stroke _
  change (if stroke.id = id then changeDto (fromCoreStroke stroke)
    else fromCoreStroke stroke) =
      fromCoreStroke (if stroke.id = id then change stroke else stroke)
  split
  · exact alike stroke
  · rfl

private theorem apply_toEventDto (board : BoardState) (payload : ServerEventPayload) :
    (ofBoard board).apply (toEventDto payload) = ofBoard (board.replay payload) := by
  cases payload with
  | strokeBeginOut author id strokeOrder color thickness start =>
      simp [ofBoard, apply, toEventDto, BoardState.replay, fromCoreStroke]
  | strokePointOut author id p =>
      simp only [ofBoard, apply, toEventDto, BoardState.replay]
      rw [map_updateBy_fromCoreStroke]
      intro stroke
      simp [fromCoreStroke, Stroke.push]
  | strokeEndOut author id =>
      simp only [ofBoard, apply, toEventDto, BoardState.replay]
      rw [map_updateBy_fromCoreStroke]
      exact fun _ => rfl
  | cursorMoveOut author p =>
      simp only [ofBoard, apply, toEventDto, BoardState.replay, BoardView.mk.injEq,
        true_and]
      funext client
      rw [UnorderedMap.lookup_insert_eq]
      split <;> rfl
  | clearOut author => rfl
  | memberLeftOut left =>
      simp only [ofBoard, apply, toEventDto, BoardState.replay, BoardView.mk.injEq,
        true_and]
      funext client
      rw [UnorderedMap.lookup_erase_eq]
      split <;> rfl

theorem applyAll_history (board : BoardState) (history : List Issued) :
    (ofBoard board).applyAll (history.map fun entry => toEventDto entry.payload) =
      ofBoard (board.replayAll history) := by
  induction history generalizing board with
  | nil => rfl
  | cons entry rest induction =>
      change ((ofBoard board).apply (toEventDto entry.payload)).applyAll _ = _
      rw [apply_toEventDto]
      exact induction _

/-! ## Snapshots -/

private theorem find?_cursor {cursors : UnorderedMap ClientId Point}
    {sorted : List CursorDto}
    (perm : sorted.Perm (cursorDtos cursors)) (client : ClientId) :
    (sorted.find? fun cursor => cursor.client = client).map CursorDto.point =
      (cursors.lookup client).map fromCorePoint := by
  cases found : sorted.find? fun cursor => cursor.client = client with
  | none =>
      cases isPoint : cursors.lookup client with
      | none => rfl
      | some point =>
          have shown := perm.mem_iff.mpr (mem_cursorDtos.mpr isPoint)
          have other := List.find?_eq_none.mp found _ shown
          exact absurd (decide_eq_true rfl) other
  | some cursor =>
      have isClient : cursor.client = client := by
        have selected := List.find?_some found
        exact of_decide_eq_true selected
      have shown := perm.mem_iff.mp (List.mem_of_find?_eq_some found)
      have isPoint : cursors.lookup client = some (toCorePoint cursor.point) := by
        apply mem_cursorDtos.mp
        rw [← isClient]
        exact shown
      rw [isPoint]
      rfl

/-- The view that a snapshot message gives is the board of the snapshot. -/
theorem ofSnapshot_eq {snapshot : RoomSnapshot} {room : RoomId} {lastSeq : Seq}
    {members : List ClientId} {strokes : List StrokeDto} {cursors : List CursorDto}
    (message : toSnapshotMessage snapshot =
      .roomSnapshotResponse room lastSeq members strokes cursors) :
    ofSnapshot strokes cursors = ofBoard snapshot.state := by
  cases message
  simp only [ofSnapshot, ofBoard, BoardView.mk.injEq, true_and]
  funext client
  exact find?_cursor (List.perm_insertionSort _ _) client

end BoardView

end ClearSpace.Transport
