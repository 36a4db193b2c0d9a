import ClearSpace.Server.RoomCalls

/-! # Authorship

Nobody draws, points or joins in the name of another: what a board says of a
client goes back to lines that were read from that client. -/

namespace ClearSpace.Core

/-! ## Calls behind a board -/

def Stroke.DrawnBy (stroke : Stroke) (calls : List Call) : Prop :=
  ∃ start rest, stroke.points = start :: rest ∧
    (∃ now, .apply stroke.author (.strokeBegin stroke.color stroke.thickness start) now ∈
      calls) ∧
    ∀ p ∈ rest, ∃ now, .apply stroke.author (.strokePoint p) now ∈ calls

namespace Stroke.DrawnBy

variable {stroke : Stroke} {calls more : List Call}

theorem mono (drawn : stroke.DrawnBy calls) (within : calls ⊆ more) :
    stroke.DrawnBy more := by
  rcases drawn with ⟨start, rest, points, ⟨begun, began⟩, extended⟩
  refine ⟨start, rest, points, ⟨begun, within began⟩, ?_⟩
  intro p member
  rcases extended p member with ⟨now, called⟩
  exact ⟨now, within called⟩

theorem finish (drawn : stroke.DrawnBy calls) : stroke.finish.DrawnBy calls := drawn

theorem push (drawn : stroke.DrawnBy calls) {p : Point} {now : TimePoint}
    (called : .apply stroke.author (.strokePoint p) now ∈ calls) :
    (stroke.push p).DrawnBy calls := by
  rcases drawn with ⟨start, rest, points, began, extended⟩
  refine ⟨start, rest ++ [p], ?_, began, ?_⟩
  · simp only [Stroke.push, points, List.cons_append]
  · intro other member
    rcases List.mem_append.mp member with earlier | last
    · exact extended other earlier
    · rw [List.mem_singleton.mp last]
      exact ⟨now, called⟩

end Stroke.DrawnBy

namespace Room

open KeyedLists

/-- Everything a room says of a client was brought about by calls of that client. -/
structure Authentic (room : Room) (calls : List Call) : Prop where
  strokes : ∀ stroke ∈ room.board.strokes, stroke.DrawnBy calls
  cursors : ∀ client p, room.board.cursors.lookup client = some p →
    ∃ now, .apply client (.cursorMove p) now ∈ calls
  members : ∀ client ∈ room.members, .join client ∈ calls

private theorem new_authentic (id : RoomId) : (new id).Authentic [] where
  strokes stroke member := absurd member List.not_mem_nil
  cursors client p shown := by cases shown
  members client member := absurd member (UnorderedSet.not_mem_empty client)

theorem Authentic.mono {room : Room} {calls more : List Call}
    (authentic : room.Authentic calls) (within : calls ⊆ more) : room.Authentic more where
  strokes stroke member := (authentic.strokes stroke member).mono within
  cursors client p shown := by
    rcases authentic.cursors client p shown with ⟨now, called⟩
    exact ⟨now, within called⟩
  members client member := within (authentic.members client member)

theorem Authentic.update {room : Room} {calls : List Call} {client : ClientId}
    {sid : StrokeId} {change : Stroke → Stroke} (authentic : room.Authentic calls)
    (consistent : room.Consistent)
    (drawing : room.activeStrokeByClient.lookup client = some sid)
    (changes : ∀ stroke, stroke.author = client → stroke.DrawnBy calls →
      (change stroke).DrawnBy calls) :
    ∀ stroke ∈ updateBy Stroke.id room.board.strokes sid change, stroke.DrawnBy calls := by
  intro result member
  rcases mem_updateBy.mp member with ⟨stroke, isStroke, rfl⟩
  have drawn := authentic.strokes stroke isStroke
  split
  next isActive =>
    exact changes stroke ((consistent.id_eq_iff drawing isStroke).mp isActive).1 drawn
  next => exact drawn

theorem Authentic.forget {room : Room} {calls : List Call}
    (authentic : room.Authentic calls) (client : ClientId) :
    (room.forget client).Authentic calls where
  strokes := authentic.strokes
  cursors other p shown := by
    change (room.board.cursors.erase client).lookup other = some p at shown
    rw [UnorderedMap.lookup_erase_eq] at shown
    split at shown
    next => cases shown
    next => exact authentic.cursors other p shown
  members other member := authentic.members other (UnorderedSet.mem_erase.mp member).2

theorem Step.authentic {room : Room} {call : Call} {outcome : Outcome Reply}
    (step : Step room call outcome) (consistent : room.Consistent) {calls : List Call}
    (authentic : room.Authentic calls) : outcome.room.Authentic (calls ++ [call]) := by
  have kept := authentic.mono (List.subset_append_left calls [call])
  have isCalled : call ∈ calls ++ [call] := by simp
  cases step with
  | refused => exact kept
  | throttled => exact kept
  | joined client =>
      refine { kept with members := ?_ }
      intro other member
      rcases UnorderedSet.mem_insert.mp member with rfl | earlier
      · exact isCalled
      · exact kept.members other earlier
  | left client => exact { kept.forget client with }
  | leftDrawing client sid member drawing =>
      refine { kept.forget client with strokes := ?_ }
      exact kept.update consistent drawing fun stroke _ drawn => drawn.finish
  | began client color thickness start now =>
      refine { kept with strokes := ?_ }
      intro stroke member
      rcases List.mem_append.mp member with earlier | last
      · exact kept.strokes stroke earlier
      · rw [List.mem_singleton.mp last]
        exact ⟨start, [], rfl, ⟨now, isCalled⟩, nofun⟩
  | extended client sid p now member drawing =>
      refine { kept with strokes := ?_ }
      apply kept.update consistent drawing
      rintro stroke rfl drawn
      exact drawn.push isCalled
  | ended client sid now member drawing =>
      refine { kept with strokes := ?_ }
      exact kept.update consistent drawing fun stroke _ drawn => drawn.finish
  | moved client p now =>
      refine { kept with cursors := ?_ }
      intro other point shown
      change (room.board.cursors.insert client p).lookup other = some point at shown
      rw [UnorderedMap.lookup_insert_eq] at shown
      split at shown
      next isClient =>
        cases shown
        exact ⟨now, isClient ▸ isCalled⟩
      next => exact kept.cursors other point shown
  | cleared client now => exact { kept with strokes := fun _ member => nomatch member }

private theorem run_authentic {room : Room} {calls earlier : List Call}
    (holds : room.Invariant)
    (fits : machine.Along Fits room calls) (authentic : room.Authentic earlier) :
    (room.run calls).Authentic (earlier ++ calls) := by
  induction calls generalizing room earlier with
  | nil =>
      rw [List.append_nil]
      exact authentic
  | cons call rest induction =>
      have step := (call_step holds.toConsistent call).authentic holds.toConsistent
        authentic
      have later := induction (call_invariant fits.1 holds) fits.2 step
      rw [List.append_assoc] at later
      exact later

end Room

end ClearSpace.Core

namespace ClearSpace.Server

open ClearSpace.Core ClearSpace.Transport

/-! ## Requests behind calls -/

theorem checkedEnum_eq_ok {Value : Type} {build : UInt8 → Value} {last : UInt8}
    {message : ByteString} {byte : UInt8} {value : Value}
    (read : checkedEnum build last message byte = .ok value) :
    byte ≤ last ∧ value = build byte := by
  unfold checkedEnum at read
  split at read
  next => cases read
  next within =>
    cases read
    exact ⟨UInt8.not_lt.mp within, rfl⟩

private theorem toCoreEvent_strokeBegin {request : EventRequest} {color : Color}
    {thickness : Thickness} {start : Point}
    (read : toCoreEvent request = .ok (.strokeBegin color thickness start)) :
    request = .strokeBegin color.value thickness.value (fromCorePoint start) ∧
      color.value ≤ Color.blue.value ∧ thickness.value ≤ Thickness.thick.value := by
  cases request with
  | strokeBegin colorByte thicknessByte point =>
      simp only [toCoreEvent] at read
      cases isColor : toColor colorByte with
      | error error =>
          rw [isColor] at read
          cases read
      | ok value =>
          cases isThickness : toThickness thicknessByte with
          | error error =>
              rw [isColor, isThickness] at read
              cases read
          | ok width =>
              rw [isColor, isThickness] at read
              cases read
              rcases checkedEnum_eq_ok isColor with ⟨colorWithin, rfl⟩
              rcases checkedEnum_eq_ok isThickness with ⟨thicknessWithin, rfl⟩
              exact ⟨rfl, colorWithin, thicknessWithin⟩
  | _ => cases read

private theorem toCoreEvent_strokePoint {request : EventRequest} {p : Point}
    (read : toCoreEvent request = .ok (.strokePoint p)) :
    request = .strokePoint (fromCorePoint p) := by
  cases request with
  | strokeBegin color thickness start =>
      simp only [toCoreEvent] at read
      cases isColor : toColor color <;> cases isThickness : toThickness thickness <;>
        (rw [isColor, isThickness] at read; cases read)
  | strokePoint point =>
      cases read
      rfl
  | _ => cases read

private theorem toCoreEvent_cursorMove {request : EventRequest} {p : Point}
    (read : toCoreEvent request = .ok (.cursorMove p)) :
    request = .cursorMove (fromCorePoint p) := by
  cases request with
  | strokeBegin color thickness start =>
      simp only [toCoreEvent] at read
      cases isColor : toColor color <;> cases isThickness : toThickness thickness <;>
        (rw [isColor, isThickness] at read; cases read)
  | cursorMove point =>
      cases read
      rfl
  | _ => cases read

namespace ServerState

section Runs

variable {sink : Option (List PersistedBoardSnapshot)} {actions : List Action}
  {final : ServerState} {client : ClientId} {id : RoomId}

theorem apply_read (runs : system.Runs Counted (start sink) actions final)
    {event : EventPayload} {now : TimePoint}
    (called : .apply client event now ∈ callsOn sink id actions) :
    ∃ request, toCoreEvent request = .ok event ∧
      .readLine client (.ok (.eventRequest id request)) now ∈ actions := by
  rcases runs.mem_inputs called with ⟨before, action, after, middle, rfl, _, _, made⟩
  cases causes_of_callOn made with
  | requested _ session message _ _ _ found asks =>
      cases asks with
      | event _ request _ inside read => exact ⟨request, read, by simp⟩

private theorem join_read (runs : system.Runs Counted (start sink) actions final)
    (called : .join client ∈ callsOn sink id actions) :
    ∃ now, .readLine client (.ok (.joinRoomRequest id)) now ∈ actions := by
  rcases runs.mem_inputs called with ⟨before, action, after, middle, rfl, _, _, made⟩
  cases causes_of_callOn made with
  | requested _ session message now _ _ found asks =>
      cases asks with
      | join => exact ⟨now, by simp⟩

end Runs

/-- In every interleaving a stroke on a board has a colour and a thickness of the
palette, and it was begun and continued by lines read from its author; so were
cursors moved and rooms joined by lines read from the client itself. -/
theorem nothing_forged {sink : Option (List PersistedBoardSnapshot)}
    {actions : List Action} {final : ServerState}
    (runs : system.Runs Counted (start sink) actions final) {id : RoomId} {room : Room}
    (found : final.core.rooms.getRoom id = some room) :
    (∀ stroke ∈ room.board.strokes,
      stroke.color.value ≤ Color.blue.value ∧
      stroke.thickness.value ≤ Thickness.thick.value ∧
      ∃ start rest, stroke.points = start :: rest ∧
        (∃ now, .readLine stroke.author (.ok (.eventRequest id
          (.strokeBegin stroke.color.value stroke.thickness.value
            (fromCorePoint start)))) now ∈ actions) ∧
        ∀ p ∈ rest, ∃ now, .readLine stroke.author
          (.ok (.eventRequest id (.strokePoint (fromCorePoint p)))) now ∈ actions) ∧
    (∀ client p, room.board.cursors.lookup client = some p →
      ∃ now, .readLine client
        (.ok (.eventRequest id (.cursorMove (fromCorePoint p)))) now ∈ actions) ∧
    ∀ client ∈ room.members,
      ∃ now, .readLine client (.ok (.joinRoomRequest id)) now ∈ actions := by
  rcases room_run runs id with ⟨missing, _⟩ | ⟨isRun, fits⟩
  · rw [missing] at found
    cases found
  rw [found] at isRun
  cases isRun
  have authentic : ((Room.new id).run (callsOn sink id actions)).Authentic
      (callsOn sink id actions) :=
    Room.run_authentic (Room.new_invariant id) fits (Room.new_authentic id)
  refine ⟨?_, ?_, ?_⟩
  · intro stroke member
    rcases authentic.strokes stroke member with
      ⟨start, rest, points, ⟨begun, began⟩, extended⟩
    rcases apply_read runs began with ⟨request, read, isRead⟩
    rcases toCoreEvent_strokeBegin read with ⟨rfl, color, thickness⟩
    refine ⟨color, thickness, start, rest, points, ⟨begun, isRead⟩, ?_⟩
    intro p isPoint
    rcases extended p isPoint with ⟨now, called⟩
    rcases apply_read runs called with ⟨request, read, isRead⟩
    rw [toCoreEvent_strokePoint read] at isRead
    exact ⟨now, isRead⟩
  · intro client p shown
    rcases authentic.cursors client p shown with ⟨now, called⟩
    rcases apply_read runs called with ⟨request, read, isRead⟩
    rw [toCoreEvent_cursorMove read] at isRead
    exact ⟨now, isRead⟩
  · intro client member
    exact join_read runs (authentic.members client member)

theorem nothing_forged_brokenOff :
    ∃ final room, system.Runs Counted (start none) brokenOff final ∧
      final.core.rooms.getRoom 1 = some room ∧
      room.board.strokes.map Stroke.author = [2] ∧
      ∀ stroke ∈ room.board.strokes, stroke.color.value ≤ Color.blue.value := by
  have computed : (system.execute counted (start none) brokenOff).bind
      (fun final => (final.core.rooms.getRoom 1).map
        fun room => room.board.strokes.map Stroke.author) = some [2] := by
    decide
  rcases Option.bind_eq_some_iff.mp computed with ⟨final, executed, isRoom⟩
  rcases Option.map_eq_some_iff.mp isRoom with ⟨room, found, authors⟩
  have runs := StepSystem.runs_of_execute counted_sound executed
  refine ⟨final, room, runs, found, authors, ?_⟩
  intro stroke member
  exact ((nothing_forged runs found).1 stroke member).1

end ServerState

end ClearSpace.Server
