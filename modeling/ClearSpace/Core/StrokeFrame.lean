import ClearSpace.Core.RoomRun
import Mathlib.Data.List.Induction

/-! # What happens to a stroke

As long as the board is not cleared, a stroke keeps its place, and what becomes
of it depends on its own author: accepted points are appended until it ends. -/

namespace ClearSpace.Core

open KeyedLists

/-! ## The part of a call that concerns a stroke -/

def Call.endsStroke (author : ClientId) (outcome : Outcome Reply) : Call → Bool
  | .leave client => decide (client = author) && outcome.result.isOk
  | .apply client .strokeEnd _ => decide (client = author) && outcome.result.isOk
  | _ => false

def Call.addsPoint (author : ClientId) (outcome : Outcome Reply) : Call → List Point
  | .apply client (.strokePoint p) _ =>
      if client = author ∧ outcome.result.isOk then [p] else []
  | _ => []

private theorem Call.endsStroke_client {author : ClientId} {outcome : Outcome Reply}
    (call : Call)
    (ends : call.endsStroke author outcome = true) :
    call.client = author ∧ outcome.result.isOk = true := by
  cases call with
  | join client => cases ends
  | leave client => simpa [endsStroke, Call.client] using ends
  | apply client event now =>
      cases event with
      | strokeEnd => simpa [endsStroke, Call.client] using ends
      | _ => cases ends

private theorem Call.addsPoint_client {author : ClientId} {outcome : Outcome Reply}
    (call : Call)
    (adds : call.addsPoint author outcome ≠ []) :
    call.client = author ∧ outcome.result.isOk = true := by
  cases call with
  | join client => exact absurd rfl adds
  | leave client => exact absurd rfl adds
  | apply client event now =>
      cases event with
      | strokePoint p => simpa [addsPoint, Call.client] using adds
      | _ => exact absurd rfl adds

def Call.Clears (call : Call) (outcome : Outcome Reply) : Prop :=
  ∃ client now, call = .apply client .clear now ∧ outcome.result.isOk = true

def Stroke.after (stroke : Stroke) (call : Call) (outcome : Outcome Reply) : Stroke :=
  if stroke.finished then stroke
  else if call.endsStroke stroke.author outcome then stroke.finish
  else { stroke with points := stroke.points ++ call.addsPoint stroke.author outcome }

namespace Stroke

theorem after_finished {stroke : Stroke} (finished : stroke.finished = true) (call : Call)
    (outcome : Outcome Reply) : stroke.after call outcome = stroke :=
  if_pos finished

theorem after_idle {stroke : Stroke} {call : Call} {outcome : Outcome Reply}
    (ends : call.endsStroke stroke.author outcome = false)
    (adds : call.addsPoint stroke.author outcome = []) :
    stroke.after call outcome = stroke := by
  simp [after, ends, adds]

theorem after_unconcerned {stroke : Stroke} {call : Call} {outcome : Outcome Reply}
    (unconcerned : ¬ (call.client = stroke.author ∧ outcome.result.isOk = true)) :
    stroke.after call outcome = stroke := by
  apply after_idle
  · by_contra ends
    exact unconcerned (call.endsStroke_client ((Bool.not_eq_false _).mp ends))
  · by_contra adds
    exact unconcerned (call.addsPoint_client adds)

end Stroke

namespace Room

theorem updateStroke_getElem? (room : Room) (sid : StrokeId) (change : Stroke → Stroke)
    {index : Nat} {stroke : Stroke}
    (strokeAt : room.board.strokes[index]? = some stroke) :
    (room.updateStroke sid change).board.strokes[index]? =
      some (if stroke.id = sid then change stroke else stroke) := by
  simp only [updateStroke, updateBy, List.getElem?_map, strokeAt, Option.map_some]

private theorem Consistent.finished_of_inactive {room : Room}
    (consistent : room.Consistent)
    {stroke : Stroke} (member : stroke ∈ room.board.strokes)
    (inactive : room.activeStrokeByClient.lookup stroke.author = none) :
    stroke.finished = true := by
  cases finished : stroke.finished with
  | true => rfl
  | false =>
      have active := (consistent.active stroke.author stroke.id).mpr
        ⟨stroke, member, rfl, rfl, finished⟩
      rw [inactive] at active
      cases active

/-! ## One call -/

theorem Consistent.active_after {room : Room} (consistent : room.Consistent)
    {client : ClientId} {sid : StrokeId}
    (drawing : room.activeStrokeByClient.lookup client = some sid)
    {call : Call} (isClient : call.client = client) {outcome : Outcome Reply}
    {stroke changed : Stroke} (member : stroke ∈ room.board.strokes)
    (changes : stroke.author = client → stroke.finished = false →
      changed = stroke.after call outcome) :
    (if stroke.id = sid then changed else stroke) = stroke.after call outcome := by
  have isActive := consistent.id_eq_iff drawing member
  by_cases same : stroke.id = sid
  · rw [if_pos same]
    exact changes (isActive.mp same).1 (isActive.mp same).2
  · rw [if_neg same]
    symm
    by_cases isAuthor : stroke.author = client
    · apply Stroke.after_finished
      by_contra unfinished
      exact same (isActive.mpr ⟨isAuthor, (Bool.not_eq_true _).mp unfinished⟩)
    · apply Stroke.after_unconcerned
      intro concerned
      exact isAuthor (concerned.1.symm.trans isClient)

theorem Step.stroke_after {room : Room} {call : Call} {outcome : Outcome Reply}
    (step : Step room call outcome) (consistent : room.Consistent)
    (uncleared : ¬ call.Clears outcome) {index : Nat} {stroke : Stroke}
    (strokeAt : room.board.strokes[index]? = some stroke) :
    outcome.room.board.strokes[index]? = some (stroke.after call outcome) := by
  have member : stroke ∈ room.board.strokes := List.mem_of_getElem? strokeAt
  cases step with
  | refused refusal =>
      rw [Stroke.after_unconcerned (by simp [Except.isOk, Except.toBool])]
      exact strokeAt
  | joined client =>
      rw [Stroke.after_idle rfl rfl]
      exact strokeAt
  | throttled client p now =>
      rw [Stroke.after_idle rfl rfl]
      exact strokeAt
  | left client _ inactive =>
      have kept : stroke.after (.leave client) (room.issuing client
          (room.forget client).advance
          [⟨room.nextSeq, .memberLeftOut client⟩]) = stroke := by
        by_cases isAuthor : client = stroke.author
        · rw [isAuthor] at inactive
          apply Stroke.after_finished
          exact consistent.finished_of_inactive member inactive
        · exact Stroke.after_unconcerned fun concerned => isAuthor concerned.1
      rw [kept]
      exact strokeAt
  | leftDrawing client sid _ drawing =>
      refine (room.updateStroke_getElem? sid Stroke.finish strokeAt).trans ?_
      refine congrArg some (consistent.active_after drawing rfl member ?_)
      intro isAuthor unfinished
      simp [Stroke.after, unfinished, Call.endsStroke, isAuthor, issuing, Except.isOk,
        Except.toBool]
  | began client color thickness start now _ inactive =>
      rw [Stroke.after_idle rfl rfl]
      have inBoard := (List.getElem?_eq_some_iff.mp strokeAt).1
      exact (List.getElem?_append_left inBoard).trans strokeAt
  | extended client sid p now _ drawing =>
      refine (room.updateStroke_getElem? sid _ strokeAt).trans ?_
      refine congrArg some (consistent.active_after drawing rfl member ?_)
      intro isAuthor unfinished
      simp [Stroke.after, unfinished, Call.endsStroke, Call.addsPoint, isAuthor,
        issuing, Except.isOk, Except.toBool, Stroke.push]
  | ended client sid now _ drawing =>
      refine (room.updateStroke_getElem? sid Stroke.finish strokeAt).trans ?_
      refine congrArg some (consistent.active_after drawing rfl member ?_)
      intro isAuthor unfinished
      simp [Stroke.after, unfinished, Call.endsStroke, isAuthor, issuing, Except.isOk,
        Except.toBool]
  | moved client p now =>
      rw [Stroke.after_idle rfl rfl]
      exact strokeAt
  | cleared client now => exact absurd ⟨client, now, rfl, rfl⟩ uncleared

theorem Step.strokes_added {room : Room} {call : Call} {outcome : Outcome Reply}
    (step : Step room call outcome) (uncleared : ¬ call.Clears outcome) :
    outcome.room.board.strokes.length = room.board.strokes.length ∨
      ∃ client color thickness start now,
        call = .apply client (.strokeBegin color thickness start) now ∧
        outcome.result.isOk = true ∧
        outcome.room.board.strokes =
          room.board.strokes ++ [room.freshStroke client color thickness start] := by
  cases step with
  | leftDrawing => exact .inl (List.length_map _)
  | began client color thickness start now =>
      exact .inr ⟨client, color, thickness, start, now, rfl, rfl, rfl⟩
  | extended => exact .inl (List.length_map _)
  | ended => exact .inl (List.length_map _)
  | cleared client now => exact absurd ⟨client, now, rfl, rfl⟩ uncleared
  | _ => exact .inl rfl

structure KeepsStrokes (room : Room) (call : Call) : Prop where
  others : ∀ (index : Nat) (stroke : Stroke), room.board.strokes[index]? = some stroke →
    ¬ (stroke.author = call.client ∧ stroke.finished = false) →
    (room.call call).room.board.strokes[index]? = some stroke
  own : ∀ (index : Nat) (stroke : Stroke), room.board.strokes[index]? = some stroke →
    stroke.author = call.client → stroke.finished = false →
    ∃ changed : Stroke, (room.call call).room.board.strokes[index]? = some changed ∧
      changed.id = stroke.id ∧ changed.author = stroke.author ∧
      changed.color = stroke.color ∧ changed.thickness = stroke.thickness ∧
      changed.strokeOrder = stroke.strokeOrder ∧ stroke.points <+: changed.points
  added : (room.call call).room.board.strokes.length = room.board.strokes.length ∨
    ∃ client color thickness start now,
      call = .apply client (.strokeBegin color thickness start) now ∧
      ∃ stroke, (room.call call).room.board.strokes = room.board.strokes ++ [stroke]

private theorem call_keepsStrokes {room : Room} (consistent : room.Consistent)
    {call : Call}
    (uncleared : ¬ call.Clears (room.call call)) : room.KeepsStrokes call := by
  have step := call_step consistent call
  refine ⟨?_, ?_, ?_⟩
  · intro index stroke strokeAt foreign
    rw [step.stroke_after consistent uncleared strokeAt]
    by_cases isAuthor : stroke.author = call.client
    · rw [Stroke.after_finished]
      by_contra unfinished
      exact foreign ⟨isAuthor, (Bool.not_eq_true _).mp unfinished⟩
    · rw [Stroke.after_unconcerned fun concerned => isAuthor concerned.1.symm]
  · intro index stroke strokeAt _ unfinished
    refine ⟨_, step.stroke_after consistent uncleared strokeAt, ?_⟩
    rw [Stroke.after, if_neg (by simp [unfinished])]
    split
    · exact ⟨rfl, rfl, rfl, rfl, rfl, List.prefix_refl _⟩
    · exact ⟨rfl, rfl, rfl, rfl, rfl, List.prefix_append _ _⟩
  · rcases step.strokes_added uncleared with same |
      ⟨client, color, thickness, start, now, isBegin, _, strokes⟩
    · exact .inl same
    · exact .inr ⟨client, color, thickness, start, now, isBegin, _, strokes⟩

/-! ## Runs -/

def Uncleared (room : Room) (call : Call) : Prop := ¬ call.Clears (room.call call)

/-- The points accepted for the stroke an author is drawing, until it ends. -/
def drawnPoints (room : Room) (author : ClientId) : List Call → List Point
  | [] => []
  | call :: rest =>
      if call.endsStroke author (room.call call) then []
      else call.addsPoint author (room.call call) ++
        (room.call call).room.drawnPoints author rest

def drawingEnds (room : Room) (author : ClientId) : List Call → Bool
  | [] => false
  | call :: rest =>
      call.endsStroke author (room.call call) ||
        (room.call call).room.drawingEnds author rest

/-- A finished stroke stays as it is until the board is cleared. -/
theorem run_finished_stroke {room : Room} {calls : List Call} (holds : room.Invariant)
    (fits : machine.Along Fits room calls)
    (uncleared : machine.Along Uncleared room calls)
    {index : Nat} {stroke : Stroke} (strokeAt : room.board.strokes[index]? = some stroke)
    (finished : stroke.finished = true) :
    (room.run calls).board.strokes[index]? = some stroke := by
  induction calls generalizing room with
  | nil => exact strokeAt
  | cons call rest induction =>
      apply induction (call_invariant fits.1 holds) fits.2 uncleared.2
      have kept := (call_step holds.toConsistent call).stroke_after holds.toConsistent
        uncleared.1 strokeAt
      rwa [Stroke.after_finished finished] at kept

/-- A stroke that is being drawn gets the accepted points of its author until
it ends. -/
theorem run_open_stroke {room : Room} {calls : List Call} (holds : room.Invariant)
    (fits : machine.Along Fits room calls)
    (uncleared : machine.Along Uncleared room calls)
    {index : Nat} {stroke : Stroke} (strokeAt : room.board.strokes[index]? = some stroke)
    (unfinished : stroke.finished = false) :
    (room.run calls).board.strokes[index]? =
      some { stroke with
        points := stroke.points ++ room.drawnPoints stroke.author calls
        finished := room.drawingEnds stroke.author calls } := by
  induction calls generalizing room stroke with
  | nil =>
      rw [drawnPoints, drawingEnds, List.append_nil, ← unfinished]
      exact strokeAt
  | cons call rest induction =>
      have next := call_invariant fits.1 holds
      have strokeNext := (call_step holds.toConsistent call).stroke_after
        holds.toConsistent uncleared.1 strokeAt
      rw [Stroke.after, if_neg (by simp [unfinished])] at strokeNext
      rw [drawnPoints, drawingEnds, run_cons]
      cases ends : call.endsStroke stroke.author (room.call call) with
      | true =>
          rw [if_pos ends] at strokeNext
          rw [run_finished_stroke next fits.2 uncleared.2 strokeNext rfl, if_pos rfl,
            List.append_nil, Bool.true_or]
          rfl
      | false =>
          rw [if_neg (by simp [ends])] at strokeNext
          rw [induction next fits.2 uncleared.2 strokeNext unfinished,
            if_neg Bool.false_ne_true, Bool.false_or, List.append_assoc]

/-! ## Where strokes come from -/

structure Beginning where
  author : ClientId
  color : Color
  thickness : Thickness
  start : Point
  now : TimePoint

def Beginning.call (beginning : Beginning) : Call :=
  .apply beginning.author
    (.strokeBegin beginning.color beginning.thickness beginning.start) beginning.now

private theorem Step.begun_stroke {room : Room} {beginning : Beginning}
    {outcome : Outcome Reply}
    (step : Step room beginning.call outcome) (accepted : outcome.result.isOk = true) :
    outcome.room.board.strokes[room.board.strokes.length]? = some (room.freshStroke
      beginning.author beginning.color beginning.thickness beginning.start) := by
  cases step with
  | refused => cases accepted
  | began => exact List.getElem?_concat_length

/-- The accepted begin of the stroke at a place of the board, after which the
board was not cleared. -/
structure Origin (room : Room) (calls : List Call) (index : Nat) where
  before : List Call
  beginning : Beginning
  later : List Call
  split : calls = before ++ beginning.call :: later
  place : index = (room.run before).board.strokes.length
  accepted : ((room.run before).call beginning.call).result.isOk = true
  uncleared : machine.Along Uncleared ((room.run before).call beginning.call).room later

namespace Origin

variable {room : Room} {calls : List Call} {index : Nat}

def begun (origin : Origin room calls index) : Room :=
  ((room.run origin.before).call origin.beginning.call).room

def drawn (origin : Origin room calls index) : Stroke where
  id := (room.run origin.before).nextStrokeId
  author := origin.beginning.author
  color := origin.beginning.color
  thickness := origin.beginning.thickness
  strokeOrder := (room.run origin.before).nextSeq
  points := origin.beginning.start ::
    origin.begun.drawnPoints origin.beginning.author origin.later
  finished := origin.begun.drawingEnds origin.beginning.author origin.later

theorem run_eq (origin : Origin room calls index) :
    room.run calls = origin.begun.run origin.later := by
  refine (congrArg room.run origin.split).trans ?_
  rw [run_append, run_cons]
  rfl

def extend (origin : Origin room calls index) {call : Call}
    (uncleared : (room.run calls).Uncleared call) :
    Origin room (calls ++ [call]) index where
  before := origin.before
  beginning := origin.beginning
  later := origin.later ++ [call]
  split := by
    refine (congrArg (· ++ [call]) origin.split).trans ?_
    rw [List.append_assoc, List.cons_append]
  place := origin.place
  accepted := origin.accepted
  uncleared := by
    rw [machine.along_append]
    refine ⟨origin.uncleared, ?_, trivial⟩
    rwa [origin.run_eq] at uncleared

private theorem getElem?_drawn (origin : Origin room calls index) (holds : room.Invariant)
    (fits : machine.Along Fits room calls) :
    (room.run calls).board.strokes[index]? = some origin.drawn := by
  rw [origin.split, machine.along_append] at fits
  rcases fits with ⟨fitsBefore, fitsBegin, fitsLater⟩
  have holdsBefore : (room.run origin.before).Invariant := run_invariant holds fitsBefore
  have strokeAt := (call_step holdsBefore.toConsistent origin.beginning.call).begun_stroke
    origin.accepted
  rw [← origin.place] at strokeAt
  rw [origin.run_eq]
  exact run_open_stroke (call_invariant fitsBegin holdsBefore) fitsLater origin.uncleared
    strokeAt rfl

end Origin

private theorem exists_origin {room : Room} (holds : room.Invariant)
    (blank : room.board.strokes = []) (calls : List Call)
    (fits : machine.Along Fits room calls) {index : Nat}
    (inBoard : index < (room.run calls).board.strokes.length) :
    Nonempty (Origin room calls index) := by
  induction calls using List.reverseRecOn with
  | nil =>
      rw [run_nil, blank] at inBoard
      cases inBoard
  | append_singleton front call induction =>
      rw [machine.along_append] at fits
      rw [run_append, run_cons, run_nil] at inBoard
      have consistent : (room.run front).Consistent :=
        (run_invariant holds fits.1).toConsistent
      have step := call_step consistent call
      have uncleared : (room.run front).Uncleared call := by
        intro clears
        rcases clears with ⟨client, now, rfl, accepted⟩
        generalize (room.run front).call (.apply client .clear now) = outcome at *
        cases step with
        | refused => cases accepted
        | cleared => cases inBoard
      by_cases old : index < (room.run front).board.strokes.length
      · rcases induction fits.1 old with ⟨origin⟩
        exact ⟨origin.extend uncleared⟩
      · rcases step.strokes_added uncleared with same |
          ⟨client, color, thickness, start, now, rfl, accepted, strokes⟩
        · omega
        · rw [strokes, List.length_append, List.length_singleton] at inBoard
          exact ⟨{ before := front
                   beginning := ⟨client, color, thickness, start, now⟩
                   later := []
                   split := rfl
                   place := by omega
                   accepted := accepted
                   uncleared := trivial }⟩

/-- In every reachable room a call changes no stroke but the one its caller is
drawing. So a stroke has the points its author was granted between its begin
and its end, and is left alone afterwards. -/
theorem strokes_framed (id : RoomId) (calls : List Call)
    (bound : ((new id).history calls).length < 2 ^ 64 - 1) :
    let room := (new id).run calls
    (∀ call, ¬ call.Clears (room.call call) → room.KeepsStrokes call) ∧
      (∀ (index : Nat) (stroke : Stroke), room.board.strokes[index]? = some stroke →
        Nonempty (Origin (new id) calls index) ∧
          ∀ origin : Origin (new id) calls index, stroke = origin.drawn) ∧
      ∀ front back, calls = front ++ back →
        machine.Along Uncleared ((new id).run front) back →
        ∀ (index : Nat) (stroke : Stroke),
          ((new id).run front).board.strokes[index]? = some stroke →
          stroke.finished = true → room.board.strokes[index]? = some stroke := by
  intro room
  have fits := new_along_fits id calls bound
  have holds : room.Invariant := run_invariant (new_invariant id) fits
  refine ⟨?_, ?_, ?_⟩
  · intro call uncleared
    exact call_keepsStrokes holds.toConsistent uncleared
  · intro index stroke strokeAt
    have inBoard := (List.getElem?_eq_some_iff.mp strokeAt).1
    refine ⟨exists_origin (new_invariant id) rfl calls fits inBoard, ?_⟩
    intro origin
    have drawnAt := origin.getElem?_drawn (new_invariant id) fits
    exact Option.some.inj (strokeAt.symm.trans drawnAt)
  · intro front back split uncleared index stroke strokeAt finished
    rw [split, machine.along_append] at fits
    have kept := run_finished_stroke (run_invariant (new_invariant id) fits.1) fits.2
      uncleared strokeAt finished
    rwa [← run_append, ← split] at kept

theorem strokes_framed_lesson :
    ((new 1).history lesson).length = 7 ∧
      ∀ (index : Nat) (stroke : Stroke),
        ((new 1).run lesson).board.strokes[index]? = some stroke →
        ∀ origin : Origin (new 1) lesson index, stroke = origin.drawn :=
  ⟨by decide, fun index stroke strokeAt =>
    ((strokes_framed 1 lesson (by decide)).2.1 index stroke strokeAt).2⟩

end Room

end ClearSpace.Core
