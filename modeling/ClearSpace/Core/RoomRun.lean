import ClearSpace.Core.RoomInvariant

/-! # Runs of a room

The sequence counter is a 64-bit word, so results about runs carry a bound on
how much the run issues. The bound is spent call by call: `along_fits` turns it
into a condition on every single call. -/

namespace ClearSpace.Core.Room

@[simp] theorem run_nil (room : Room) : room.run [] = room := rfl

@[simp] theorem run_cons (room : Room) (call : Call) (calls : List Call) :
    room.run (call :: calls) = (room.call call).room.run calls := rfl

theorem run_append (room : Room) (front back : List Call) :
    room.run (front ++ back) = (room.run front).run back :=
  machine.final_append room front back

@[simp] theorem history_nil (room : Room) : room.history [] = [] := rfl

@[simp] theorem history_cons (room : Room) (call : Call) (calls : List Call) :
    room.history (call :: calls) =
      (room.call call).issued ++ (room.call call).room.history calls := rfl

theorem Step.issued_length_le {room : Room} {call : Call}
    {outcome : Outcome Reply} (step : Step room call outcome) :
    outcome.issued.length ≤ 2 := by
  cases step with
  | leftDrawing => exact Nat.le_refl 2
  | left => exact Nat.le_succ 1
  | began => exact Nat.le_succ 1
  | extended => exact Nat.le_succ 1
  | ended => exact Nat.le_succ 1
  | moved => exact Nat.le_succ 1
  | cleared => exact Nat.le_succ 1
  | _ => exact Nat.zero_le 2

/-- The call does not take the sequence counter past its last value. -/
def Fits (room : Room) (call : Call) : Prop :=
  room.nextSeq.toNat + (room.call call).issued.length < 2 ^ 64

theorem call_invariant {room : Room} {call : Call} (fits : room.Fits call)
    (holds : room.Invariant) : (room.call call).room.Invariant :=
  (call_step holds.toConsistent call).invariant holds fits

theorem call_nextSeq {room : Room} {call : Call} (fits : room.Fits call)
    (holds : room.Invariant) :
    (room.call call).room.nextSeq.toNat =
      room.nextSeq.toNat + (room.call call).issued.length :=
  (call_step holds.toConsistent call).nextSeq_toNat fits

theorem along_fits {room : Room} {calls : List Call} (holds : room.Invariant)
    (bound : room.nextSeq.toNat + (room.history calls).length < 2 ^ 64) :
    machine.Along Fits room calls := by
  induction calls generalizing room with
  | nil => trivial
  | cons call rest induction =>
      rw [history_cons, List.length_append] at bound
      have fits : room.Fits call := by
        unfold Fits
        omega
      refine ⟨fits, induction (call_invariant fits holds) ?_⟩
      change (room.call call).room.nextSeq.toNat +
        ((room.call call).room.history rest).length < _
      rw [call_nextSeq fits holds]
      omega

theorem run_invariant {room : Room} {calls : List Call} (holds : room.Invariant)
    (fits : machine.Along Fits room calls) : (room.run calls).Invariant :=
  machine.invariant_final (fun _ _ => call_invariant) calls room holds fits

theorem run_nextSeq {room : Room} {calls : List Call} (holds : room.Invariant)
    (fits : machine.Along Fits room calls) :
    (room.run calls).nextSeq.toNat =
      room.nextSeq.toNat + (room.history calls).length := by
  induction calls generalizing room with
  | nil => rfl
  | cons call rest induction =>
      rw [run_cons, induction (call_invariant fits.1 holds) fits.2,
        call_nextSeq fits.1 holds, history_cons, List.length_append]
      omega

theorem new_along_fits (id : RoomId) (calls : List Call)
    (bound : ((new id).history calls).length < 2 ^ 64 - 1) :
    machine.Along Fits (new id) calls := by
  apply along_fits (new_invariant id)
  change 1 + _ < _
  omega

/-! ## What stays -/

theorem endActiveStroke_frame (room : Room) (client : ClientId) :
    (room.endActiveStroke client).room.id = room.id ∧
      (room.endActiveStroke client).room.members = room.members := by
  unfold endActiveStroke
  cases room.activeStrokeByClient.lookup client with
  | none => exact ⟨rfl, rfl⟩
  | some sid =>
      simp only
      cases room.strokeIndexById.lookup sid <;> exact ⟨rfl, rfl⟩

theorem apply_frame (room : Room) (client : ClientId) (event : EventPayload)
    (now : TimePoint) :
    (room.apply client event now).room.id = room.id ∧
      (room.apply client event now).room.members = room.members := by
  unfold apply
  split
  · cases event with
    | strokeBegin color thickness start =>
        simp only [applyStrokeBegin]
        cases room.activeStrokeByClient.lookup client <;> exact ⟨rfl, rfl⟩
    | strokePoint p =>
        simp only [applyStrokePoint]
        cases room.activeStrokeByClient.lookup client with
        | none => exact ⟨rfl, rfl⟩
        | some sid =>
            simp only
            cases room.strokeIndexById.lookup sid <;> exact ⟨rfl, rfl⟩
    | strokeEnd =>
        simp only [applyStrokeEnd]
        cases room.activeStrokeByClient.lookup client with
        | none => exact ⟨rfl, rfl⟩
        | some sid =>
            simp only
            cases room.strokeIndexById.lookup sid <;> exact ⟨rfl, rfl⟩
    | cursorMove p =>
        simp only [applyCursorMove]
        split <;> exact ⟨rfl, rfl⟩
    | clear => exact ⟨rfl, rfl⟩
  · exact ⟨rfl, rfl⟩

theorem call_id (room : Room) (call : Call) : (room.call call).room.id = room.id := by
  cases call with
  | join client => rfl
  | leave client =>
      change (room.leave client).room.id = _
      unfold leave
      split
      · exact (room.endActiveStroke_frame client).1
      · rfl
  | apply client event now => exact (room.apply_frame client event now).1

/-! ## What fails -/

theorem leave_failed {room : Room} {client : ClientId} {error : Error}
    (failed : (room.leave client).result = .error error) :
    room.leave client = room.refuse error := by
  unfold leave at failed ⊢
  split at failed
  next => cases failed
  next outside =>
    cases failed
    exact if_neg outside

theorem apply_outside {room : Room} {client : ClientId}
    (outside : client ∉ room.members) (event : EventPayload) (now : TimePoint) :
    room.apply client event now = room.refuse .notInRoom :=
  if_neg outside

def RefusesDrawing (room : Room) (outcome : Outcome (List OutgoingEvent)) : Prop :=
  ∀ error, outcome.result = .error error →
    outcome = room.refuse error ∧ ∃ message, error = .protocolViolation message

theorem refusesDrawing_refuse (room : Room) (message : ByteString) :
    room.RefusesDrawing (room.refuse (.protocolViolation message)) := by
  intro error failed
  cases failed
  exact ⟨rfl, message, rfl⟩

private theorem applyStrokeBegin_refuses (room : Room) (client : ClientId) (color : Color)
    (thickness : Thickness) (start : Point) :
    room.RefusesDrawing (room.applyStrokeBegin client color thickness start) := by
  unfold applyStrokeBegin
  cases room.activeStrokeByClient.lookup client with
  | none => exact nofun
  | some sid => exact room.refusesDrawing_refuse _

private theorem applyStrokePoint_refuses (room : Room) (client : ClientId) (p : Point) :
    room.RefusesDrawing (room.applyStrokePoint client p) := by
  unfold applyStrokePoint
  cases room.activeStrokeByClient.lookup client with
  | none => exact room.refusesDrawing_refuse _
  | some sid =>
      simp only
      cases room.strokeIndexById.lookup sid with
      | none => exact room.refusesDrawing_refuse _
      | some index => exact nofun

private theorem applyStrokeEnd_refuses (room : Room) (client : ClientId) :
    room.RefusesDrawing (room.applyStrokeEnd client) := by
  unfold applyStrokeEnd
  cases room.activeStrokeByClient.lookup client with
  | none => exact room.refusesDrawing_refuse _
  | some sid =>
      simp only
      cases room.strokeIndexById.lookup sid with
      | none => exact room.refusesDrawing_refuse _
      | some index => exact nofun

theorem apply_refuses {room : Room} {client : ClientId}
    (inside : client ∈ room.members) (event : EventPayload) (now : TimePoint) :
    room.RefusesDrawing (room.apply client event now) := by
  unfold apply
  rw [if_pos inside]
  cases event with
  | strokeBegin color thickness start =>
      exact room.applyStrokeBegin_refuses client color thickness start
  | strokePoint p => exact room.applyStrokePoint_refuses client p
  | strokeEnd => exact room.applyStrokeEnd_refuses client
  | cursorMove p =>
      simp only [applyCursorMove]
      intro error failed
      split at failed <;> cases failed
  | clear =>
      intro error failed
      cases failed

theorem apply_failed {room : Room} {client : ClientId} {event : EventPayload}
    {now : TimePoint} {error : Error}
    (failed : (room.apply client event now).result = .error error) :
    room.apply client event now = room.refuse error := by
  by_cases inside : client ∈ room.members
  · exact (apply_refuses inside event now error failed).1
  · rw [apply_outside inside] at failed ⊢
    cases failed
    rfl

theorem call_failed {room : Room} {call : Call} {error : Error}
    (failed : (room.call call).result = .error error) :
    (room.call call).room = room ∧ (room.call call).issued = [] := by
  cases call with
  | join client => cases failed
  | leave client =>
      change (room.leave client).result.map _ = _ at failed
      change (room.leave client).room = room ∧ (room.leave client).issued = []
      cases result : (room.leave client).result with
      | ok =>
          rw [result] at failed
          cases failed
      | error error =>
          rw [leave_failed result]
          exact ⟨rfl, rfl⟩
  | apply client event now =>
      change (room.apply client event now).result.map _ = _ at failed
      change (room.apply client event now).room = room ∧
        (room.apply client event now).issued = []
      cases result : (room.apply client event now).result with
      | ok =>
          rw [result] at failed
          cases failed
      | error error =>
          rw [apply_failed result]
          exact ⟨rfl, rfl⟩

/-! ## Who is in the room -/

/-- Only a join and a leave change who is in the room, and only by the caller. -/
theorem mem_call_members {room : Room} {call : Call} {client : ClientId} :
    client ∈ (room.call call).room.members ↔
      match call with
      | .join caller => client = caller ∨ client ∈ room.members
      | .leave caller => client ≠ caller ∧ client ∈ room.members
      | .apply _ _ _ => client ∈ room.members := by
  cases call with
  | join caller => exact UnorderedSet.mem_insert
  | leave caller =>
      change client ∈ (room.leave caller).room.members ↔ _
      unfold leave
      split
      · change client ∈ (room.endActiveStroke caller).room.members.erase caller ↔ _
        rw [(room.endActiveStroke_frame caller).2]
        exact UnorderedSet.mem_erase
      next outside =>
        constructor
        · intro member
          exact ⟨fun isCaller => outside (isCaller ▸ member), member⟩
        · exact And.right
  | apply caller event now =>
      change client ∈ (room.apply caller event now).room.members ↔ _
      rw [(room.apply_frame caller event now).2]

/-! ## Reachable rooms -/

/-- With the indices in agreement no call finds an active stroke that is not
indexed. -/
theorem unknown_stroke_unreachable {room : Room} (consistent : room.Consistent)
    (call : Call) :
    (room.call call).result ≠
      .error (.protocolViolation (.ascii "unknown stroke id")) := by
  intro failed
  have step := call_step consistent call
  generalize room.call call = outcome at step failed
  cases step with
  | refused refusal =>
      have sameError := Except.error.inj failed
      cases refusal with
      | leaveOutside => exact absurd sameError (by decide)
      | applyOutside => exact absurd sameError (by decide)
      | alreadyActive => exact absurd sameError (by decide)
      | pointWithoutBegin => exact absurd sameError (by decide)
      | endWithoutBegin => exact absurd sameError (by decide)
  | _ => cases failed

/-- Every room reached from construction is consistent. So a client draws at
most one stroke at a time, the positions used by `leave`, point and end are
inside the board, and the error for an unindexed stroke is dead code. -/
theorem reachable_consistent (id : RoomId) (calls : List Call)
    (bound : ((new id).history calls).length < 2 ^ 64 - 1) :
    let room := (new id).run calls
    room.Consistent ∧
      (∀ left ∈ room.board.strokes, ∀ right ∈ room.board.strokes,
        left.finished = false → right.finished = false →
        left.author = right.author → left = right) ∧
      (∀ client sid, room.activeStrokeByClient.lookup client = some sid →
        ∃ index, room.strokeIndexById.lookup sid = some index ∧
          index < room.board.strokes.length) ∧
      ∀ call, (room.call call).result ≠
        .error (.protocolViolation (.ascii "unknown stroke id")) := by
  intro room
  have consistent : room.Consistent :=
    (run_invariant (new_invariant id) (new_along_fits id calls bound)).toConsistent
  refine ⟨consistent, ?_, ?_, unknown_stroke_unreachable consistent⟩
  · intro left leftMem right rightMem leftOpen rightOpen sameAuthor
    exact consistent.open_unique leftMem rightMem leftOpen rightOpen sameAuthor
  · intro client sid drawing
    exact consistent.index_in_range drawing

/-- Two clients draw, one clears the board, the other leaves in mid-stroke. -/
def lesson : List Call :=
  [.join 7, .join 9,
    .apply 7 (.strokeBegin .red .thin ⟨0, 0⟩) 0,
    .apply 9 (.cursorMove ⟨1, 1⟩) 5,
    .apply 9 .clear 6,
    .apply 7 (.strokePoint ⟨2, 2⟩) 7,
    .apply 7 (.strokeBegin .blue .thick ⟨3, 3⟩) 8,
    .apply 7 (.strokePoint ⟨4, 4⟩) 9,
    .leave 7]

theorem reachable_consistent_lesson :
    ((new 1).history lesson).length = 7 ∧ ((new 1).run lesson).Consistent :=
  ⟨by decide, (reachable_consistent 1 lesson (by decide)).1⟩

end ClearSpace.Core.Room
