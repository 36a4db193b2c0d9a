import ClearSpace.Core.RoomRun
import ClearSpace.Foundation.Throttling

/-! # The cursors of one stay

While a client stays in a room, its cursor moves pass through a throttle of
their own: which of them are broadcast depends on their clock readings and on
nothing else that happens in the room. -/

namespace ClearSpace.Core

open Throttling

structure CursorMove where
  now : TimePoint
  point : Point
  deriving DecidableEq, Repr

def Call.cursorMove? (client : ClientId) : Call → Option CursorMove
  | .apply caller (.cursorMove p) now => if caller = client then some ⟨now, p⟩ else none
  | _ => none

theorem Call.cursorMove?_eq_some {client : ClientId} {call : Call} {move : CursorMove} :
    call.cursorMove? client = some move ↔
      call = .apply client (.cursorMove move.point) move.now := by
  unfold cursorMove?
  split
  next caller p now =>
    split
    next same =>
      cases move
      simp [same, and_comm]
    next different => simp [different]
  next other =>
    simp only [reduceCtorEq, false_iff]
    intro same
    exact other client move.point move.now same

def cursorMoves (client : ClientId) (calls : List Call) : List CursorMove :=
  calls.filterMap (Call.cursorMove? client)

namespace Room

/-- The cursor moves of the client, each with whether it drew a sequence number. -/
def cursorAnswers (room : Room) (client : ClientId) : List Call → List (CursorMove × Bool)
  | [] => []
  | call :: rest =>
      match call.cursorMove? client with
      | none => (room.call call).room.cursorAnswers client rest
      | some move =>
          (move, !(room.call call).issued.isEmpty) ::
            (room.call call).room.cursorAnswers client rest

def acceptedMoves (room : Room) (client : ClientId) (calls : List Call) :
    List CursorMove :=
  taken (room.cursorAnswers client calls)

/-! ## What other calls leave alone -/

def SameCursor (client : ClientId) (room next : Room) : Prop :=
  next.lastCursorUpdate.lookup client = room.lastCursorUpdate.lookup client ∧
    next.board.cursors.lookup client = room.board.cursors.lookup client

private theorem endActiveStroke_cursors (room : Room) (client caller : ClientId) :
    SameCursor client room (room.endActiveStroke caller).room := by
  unfold endActiveStroke
  cases room.activeStrokeByClient.lookup caller with
  | none => exact ⟨rfl, rfl⟩
  | some sid =>
      simp only
      cases room.strokeIndexById.lookup sid <;> exact ⟨rfl, rfl⟩

private theorem leave_cursors {room : Room} {client caller : ClientId}
    (different : client ≠ caller) : SameCursor client room (room.leave caller).room := by
  unfold leave
  split
  · rcases room.endActiveStroke_cursors client caller with ⟨sameUpdate, sameCursor⟩
    constructor
    · exact (AList.lookup_erase_ne different).trans sameUpdate
    · exact (AList.lookup_erase_ne different).trans sameCursor
  · exact ⟨rfl, rfl⟩

private theorem applyCursorMove_cursors {room : Room} {client caller : ClientId}
    (different : client ≠ caller) (p : Point) (now : TimePoint) :
    SameCursor client room (room.applyCursorMove caller p now).room := by
  unfold applyCursorMove
  split
  · exact ⟨rfl, rfl⟩
  · exact ⟨AList.lookup_insert_ne different, AList.lookup_insert_ne different⟩

private theorem apply_cursors {room : Room} {client caller : ClientId}
    {event : EventPayload}
    {now : TimePoint}
    (notMove : (Call.apply caller event now).cursorMove? client = none) :
    SameCursor client room (room.apply caller event now).room := by
  unfold apply
  split
  · cases event with
    | strokeBegin color thickness start =>
        simp only [applyStrokeBegin]
        cases room.activeStrokeByClient.lookup caller <;> exact ⟨rfl, rfl⟩
    | strokePoint p =>
        simp only [applyStrokePoint]
        cases room.activeStrokeByClient.lookup caller with
        | none => exact ⟨rfl, rfl⟩
        | some sid =>
            simp only
            cases room.strokeIndexById.lookup sid <;> exact ⟨rfl, rfl⟩
    | strokeEnd =>
        simp only [applyStrokeEnd]
        cases room.activeStrokeByClient.lookup caller with
        | none => exact ⟨rfl, rfl⟩
        | some sid =>
            simp only
            cases room.strokeIndexById.lookup sid <;> exact ⟨rfl, rfl⟩
    | cursorMove p =>
        apply applyCursorMove_cursors
        intro same
        simp [Call.cursorMove?, same] at notMove
    | clear => exact ⟨rfl, rfl⟩
  · exact ⟨rfl, rfl⟩

/-- Besides its own cursor moves and its leave, no call touches the cursor of a
client. -/
theorem call_cursors {room : Room} {client : ClientId} {call : Call}
    (notMove : call.cursorMove? client = none) (stays : call ≠ .leave client) :
    SameCursor client room (room.call call).room := by
  cases call with
  | join caller => exact ⟨rfl, rfl⟩
  | leave caller =>
      apply leave_cursors
      intro same
      exact stays (by rw [same])
  | apply caller event now => exact apply_cursors notMove

/-! ## Before the stay -/

def OutsideUntracked (room : Room) : Prop :=
  ∀ client ∉ room.members, room.lastCursorUpdate.lookup client = none ∧
    room.board.cursors.lookup client = none

private theorem call_outsideUntracked {room : Room} (holds : room.OutsideUntracked)
    (call : Call) : (room.call call).room.OutsideUntracked := by
  intro client outside
  cases move : call.cursorMove? client with
  | some move =>
      rw [Call.cursorMove?_eq_some.mp move] at outside ⊢
      rw [mem_call_members] at outside
      change (room.apply client _ _).room.lastCursorUpdate.lookup client = none ∧
        (room.apply client _ _).room.board.cursors.lookup client = none
      rw [apply_outside outside]
      exact holds client outside
  | none =>
      by_cases leaves : call = .leave client
      · subst leaves
        change (room.leave client).room.lastCursorUpdate.lookup client = none ∧
          (room.leave client).room.board.cursors.lookup client = none
        unfold leave
        split
        · exact ⟨AList.lookup_erase _ _, AList.lookup_erase _ _⟩
        next absent => exact holds client absent
      · have before : client ∉ room.members := by
          intro inside
          rw [mem_call_members] at outside
          cases call with
          | join caller => exact outside (.inr inside)
          | leave caller =>
              apply outside
              exact ⟨fun same => leaves (by rw [same]), inside⟩
          | apply caller event now => exact outside inside
        rcases call_cursors move leaves with ⟨sameUpdate, sameCursor⟩
        rw [sameUpdate, sameCursor]
        exact holds client before

private theorem run_outsideUntracked {room : Room} (holds : room.OutsideUntracked)
    (calls : List Call) : (room.run calls).OutsideUntracked := by
  induction calls generalizing room with
  | nil => exact holds
  | cons call rest induction => exact induction (call_outsideUntracked holds call)

/-! ## During the stay -/

/-- The test of `applyCursorMove_` on the entry of the client. The difference of two
readings has 64 bits, as they have. -/
def due (last : Option TimePoint) (now : TimePoint) : Bool :=
  match last with
  | none => true
  | some before => !decide (now - before < Config.cursorMinInterval)

theorem throttled_eq (room : Room) (client : ClientId) (now : TimePoint) :
    room.throttled client now = !due (room.lastCursorUpdate.lookup client) now := by
  unfold throttled due
  cases room.lastCursorUpdate.lookup client with
  | none => rfl
  | some last => simp only [Bool.not_not]

theorem call_move {room : Room} {client : ClientId} (inside : client ∈ room.members)
    (move : CursorMove) :
    room.call (.apply client (.cursorMove move.point) move.now) =
      (room.applyCursorMove client move.point move.now).map .events := by
  rw [call, apply, if_pos inside]

theorem call_move_dropped {room : Room} {client : ClientId}
    (inside : client ∈ room.members) (move : CursorMove)
    (early : due (room.lastCursorUpdate.lookup client) move.now = false) :
    room.call (.apply client (.cursorMove move.point) move.now) =
      { room, result := .ok (.events []), issued := [] } := by
  rw [call_move inside, applyCursorMove, throttled_eq, early]
  rfl

theorem call_move_taken {room : Room} {client : ClientId}
    (inside : client ∈ room.members) (move : CursorMove)
    (isDue : due (room.lastCursorUpdate.lookup client) move.now = true) :
    let outcome := room.call (.apply client (.cursorMove move.point) move.now)
    outcome.issued.isEmpty = false ∧
      outcome.room.lastCursorUpdate.lookup client = some move.now ∧
      outcome.room.board.cursors.lookup client = some move.point := by
  intro outcome
  have moved : outcome = (((room.moveCursor client move.point move.now).issue client
      (.cursorMoveOut client move.point)).succeed).map .events := by
    change room.call _ = _
    rw [call_move inside, applyCursorMove, throttled_eq, isDue]
    rfl
  rw [moved]
  exact ⟨rfl, AList.lookup_insert _, AList.lookup_insert _⟩

theorem stays_member {room : Room} {client : ClientId} {call : Call}
    (inside : client ∈ room.members) (stays : call ≠ .leave client) :
    client ∈ (room.call call).room.members := by
  rw [mem_call_members]
  cases call with
  | join caller => exact .inr inside
  | leave caller => exact ⟨fun same => stays (by rw [same]), inside⟩
  | apply caller event now => exact inside

private theorem run_stays_member {room : Room} {client : ClientId} {calls : List Call}
    (inside : client ∈ room.members) (stays : Call.leave client ∉ calls) :
    client ∈ (room.run calls).members := by
  induction calls generalizing room with
  | nil => exact inside
  | cons call rest induction =>
      rw [List.mem_cons, not_or] at stays
      exact induction (stays_member inside (Ne.symm stays.1)) stays.2

/-- From any state of the stay on, the throttle goes by its own entry for the
client. -/
theorem cursorAnswers_eq {room : Room} {client : ClientId} {calls : List Call}
    (inside : client ∈ room.members) (stays : Call.leave client ∉ calls) :
    room.cursorAnswers client calls =
        decisions due CursorMove.now (room.lastCursorUpdate.lookup client)
          (cursorMoves client calls) ∧
      (room.run calls).board.cursors.lookup client =
        ((room.acceptedMoves client calls).getLast?.map CursorMove.point).or
          (room.board.cursors.lookup client) := by
  induction calls generalizing room with
  | nil => exact ⟨rfl, rfl⟩
  | cons call rest induction =>
      rw [List.mem_cons, not_or] at stays
      rcases induction (stays_member inside (Ne.symm stays.1)) stays.2 with
        ⟨answers, cursor⟩
      rw [acceptedMoves] at cursor ⊢
      rw [run_cons, cursor]
      cases isMove : call.cursorMove? client with
      | none =>
          rcases call_cursors isMove (Ne.symm stays.1) with ⟨sameUpdate, sameCursor⟩
          have skipped : cursorMoves client (call :: rest) = cursorMoves client rest :=
            List.filterMap_cons_none isMove
          simp only [cursorAnswers, isMove]
          rw [skipped, ← sameUpdate, sameCursor]
          exact ⟨answers, rfl⟩
      | some move =>
          have first : cursorMoves client (call :: rest) =
              move :: cursorMoves client rest := List.filterMap_cons_some isMove
          have isCall := Call.cursorMove?_eq_some.mp isMove
          simp only [cursorAnswers, isMove]
          rw [first, decisions]
          cases isDue : due (room.lastCursorUpdate.lookup client) move.now with
          | true =>
              rcases call_move_taken inside move isDue with ⟨issued, update, point⟩
              rw [← isCall] at issued update point
              rw [issued, point, if_pos rfl, answers, update, Bool.not_false,
                taken_cons_true, List.getLast?_cons]
              refine ⟨rfl, ?_⟩
              cases (taken _).getLast? <;> rfl
          | false =>
              have dropped := call_move_dropped inside move isDue
              rw [← isCall] at dropped
              rw [dropped] at answers
              rw [dropped, if_neg Bool.false_ne_true]
              exact ⟨congrArg _ answers, rfl⟩

/-! ## Whole stays -/

/-- The client enters after `before`, having been outside, and is still in the
room after `stay`. -/
structure Stay (id : RoomId) (client : ClientId) (before stay : List Call) : Prop where
  outside : client ∉ ((new id).run before).members
  stays : Call.leave client ∉ stay

def entered (id : RoomId) (client : ClientId) (before : List Call) : Room :=
  (new id).run (before ++ [.join client])

/-- The time between any two of the moves has a 64-bit representation. -/
def Representable (moves : List CursorMove) : Prop :=
  moves.Pairwise fun earlier later =>
    -2 ^ 63 ≤ later.now.toInt - earlier.now.toInt ∧
      later.now.toInt - earlier.now.toInt < 2 ^ 63

/-- The selection that takes the first move and then each one that comes the minimum
interval after the last one taken. -/
def greedy (moves : List CursorMove) : List (CursorMove × Bool) :=
  decisions (elapsed Config.cursorMinInterval.toInt) (fun move => move.now.toInt) none
    moves

private theorem due_eq_elapsed {earlier later : TimePoint}
    (lower : -2 ^ 63 ≤ later.toInt - earlier.toInt)
    (upper : later.toInt - earlier.toInt < 2 ^ 63) :
    due (some earlier) later =
      elapsed Config.cursorMinInterval.toInt (some earlier.toInt) later.toInt := by
  have difference : (later - earlier).toInt = later.toInt - earlier.toInt := by
    rw [Int64.toInt_sub]
    exact Int.bmod_eq_of_le lower upper
  simp only [due, elapsed, ← decide_not, Int64.not_lt, Int64.le_iff_toInt_le, difference]

theorem decisions_due {moves : List CursorMove} (representable : Representable moves) :
    decisions due CursorMove.now none moves = greedy moves := by
  refine decisions_congr Int64.toInt (fun _ _ => rfl) ?_
  exact representable.imp fun bounds => due_eq_elapsed bounds.1 bounds.2

theorem Stay.entered_inside {id : RoomId} {client : ClientId} {before stay : List Call}
    (stays : Stay id client before stay) :
    client ∈ (entered id client before).members ∧
      (entered id client before).lastCursorUpdate.lookup client = none ∧
      (entered id client before).board.cursors.lookup client = none := by
  have untracked : ((new id).run before).OutsideUntracked :=
    run_outsideUntracked (fun _ _ => ⟨rfl, rfl⟩) before
  rw [entered, run_append]
  exact ⟨UnorderedSet.mem_insert.mpr (.inl rfl), untracked client stays.outside⟩

theorem Stay.cursorAnswers_eq {id : RoomId} {client : ClientId} {before stay : List Call}
    (stays : Stay id client before stay) :
    (entered id client before).cursorAnswers client stay =
        decisions due CursorMove.now none (cursorMoves client stay) ∧
      ((entered id client before).run stay).board.cursors.lookup client =
        ((entered id client before).acceptedMoves client stay).getLast?.map
          CursorMove.point := by
  rcases stays.entered_inside with ⟨inside, noUpdate, noCursor⟩
  rcases Room.cursorAnswers_eq inside stays.stays with ⟨answers, cursor⟩
  rw [noUpdate] at answers
  rw [noCursor, Option.or_none] at cursor
  exact ⟨answers, cursor⟩

theorem Stay.apart {id : RoomId} {client : ClientId} {before stay : List Call}
    (stays : Stay id client before stay)
    (representable : Representable (cursorMoves client stay)) :
    ((entered id client before).acceptedMoves client stay).Pairwise
      (Apart Config.cursorMinInterval.toInt fun move => move.now.toInt) := by
  rw [acceptedMoves, stays.cursorAnswers_eq.1, decisions_due representable]
  exact taken_apart (by decide) none _

theorem Stay.dropped {id : RoomId} {client : ClientId} {before stay : List Call}
    (stays : Stay id client before stay) {front back : List Call} {point : Point}
    {now : TimePoint} (split : stay = front ++ .apply client (.cursorMove point) now :: back)
    (unissued : (((entered id client before).run front).call
      (.apply client (.cursorMove point) now)).issued = []) :
    ((entered id client before).run front).call (.apply client (.cursorMove point) now) =
      { room := (entered id client before).run front, result := .ok (.events []),
        issued := [] } := by
  have staysFront : Call.leave client ∉ front := by
    intro leaves
    exact stays.stays (by simp [split, leaves])
  have stillInside := run_stays_member stays.entered_inside.1 staysFront
  cases isDue : due (((entered id client before).run front).lastCursorUpdate.lookup client)
      now with
  | true =>
      have taken := (call_move_taken stillInside ⟨now, point⟩ isDue).1
      rw [unissued] at taken
      cases taken
  | false => exact call_move_dropped stillInside ⟨now, point⟩ isDue

end Room

end ClearSpace.Core
