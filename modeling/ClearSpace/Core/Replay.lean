import ClearSpace.Core.RoomSequence

/-! # Replaying a room

A replica that starts from a join snapshot and sees only the issued payloads
ends with the board of the room. The replica names strokes by id; positions and
the two indices never leave the room. -/

namespace ClearSpace.Core

open KeyedLists

namespace BoardState

/-- What a replica does with one payload. -/
def replay (board : BoardState) : ServerEventPayload → BoardState
  | .strokeBeginOut author id strokeOrder color thickness start =>
      { board with strokes := board.strokes ++ [
          { id, author, color, thickness, strokeOrder
            points := [start], finished := false }] }
  | .strokePointOut _ id p =>
      { board with
        strokes := updateBy Stroke.id board.strokes id fun stroke => stroke.push p }
  | .strokeEndOut _ id =>
      { board with strokes := updateBy Stroke.id board.strokes id Stroke.finish }
  | .cursorMoveOut author p =>
      { board with cursors := board.cursors.insert author p }
  | .clearOut _ => { board with strokes := [] }
  | .memberLeftOut client =>
      { board with cursors := board.cursors.erase client }

def replayAll (board : BoardState) (history : List Issued) : BoardState :=
  history.foldl (fun current entry => current.replay entry.payload) board

private theorem replayAll_append (board : BoardState) (front back : List Issued) :
    board.replayAll (front ++ back) = (board.replayAll front).replayAll back :=
  List.foldl_append

end BoardState

namespace Room

/-- What a call issues is exactly what it did to the board. -/
theorem Step.replay {room : Room} {call : Call} {outcome : Outcome Reply}
    (step : Step room call outcome) :
    room.board.replayAll outcome.issued = outcome.room.board := by
  cases step <;> rfl

theorem replay_history {room : Room} {calls : List Call} (holds : room.Invariant)
    (fits : machine.Along Fits room calls) :
    room.board.replayAll (room.history calls) = (room.run calls).board := by
  induction calls generalizing room with
  | nil => rfl
  | cons call rest induction =>
      rw [history_cons, BoardState.replayAll_append,
        (call_step holds.toConsistent call).replay, run_cons]
      exact induction (call_invariant fits.1 holds) fits.2

/-! ## What a silent member receives -/

def received (room : Room) (client : ClientId) (calls : List Call) : List Issued :=
  (machine.outputs room calls).flatMap fun outcome =>
    (outcome.events.filter fun event => event.recipient = client).map
      fun event => ⟨event.seq, event.payload⟩

private theorem announce_filter {room : Room} {sender client : ClientId}
    (member : client ∈ room.members) (different : client ≠ sender) (entry : Issued) :
    ((room.announce sender entry).filter fun event => event.recipient = client) =
      [{ room := room.id, recipient := client, seq := entry.seq
         payload := entry.payload }] := by
  have once : (room.members.others sender).filter (fun other => other = client) =
      [client] := by
    have counted := List.count_eq_one_of_mem (room.members.others_nodup sender)
      (UnorderedSet.mem_others.mpr ⟨different, member⟩)
    rw [List.filter_eq, counted]
    rfl
  rw [announce, broadcast, List.filter_map]
  change ((room.members.others sender).filter fun other => other = client).map _ = _
  rw [once]
  rfl

theorem Step.received {room : Room} {call : Call} {outcome : Outcome Reply}
    (step : Step room call outcome) {client : ClientId}
    (member : client ∈ room.members) (different : call.client ≠ client) :
    ((outcome.events.filter fun event => event.recipient = client).map
      fun event => (⟨event.seq, event.payload⟩ : Issued)) = outcome.issued := by
  rw [step.events_eq]
  induction outcome.issued with
  | nil => rfl
  | cons entry rest induction =>
      rw [List.flatMap_cons, List.filter_append, List.map_append, induction,
        announce_filter member different.symm]
      rfl

theorem Step.stays {room : Room} {call : Call} {outcome : Outcome Reply}
    (step : Step room call outcome) {client : ClientId}
    (member : client ∈ room.members) (different : call.client ≠ client) :
    client ∈ outcome.room.members := by
  cases step with
  | joined => exact UnorderedSet.mem_insert.mpr (.inr member)
  | left => exact UnorderedSet.mem_erase.mpr ⟨different.symm, member⟩
  | leftDrawing => exact UnorderedSet.mem_erase.mpr ⟨different.symm, member⟩
  | _ => exact member

theorem received_eq_history {room : Room} {calls : List Call} {client : ClientId}
    (holds : room.Invariant) (fits : machine.Along Fits room calls)
    (member : client ∈ room.members)
    (silent : ∀ call ∈ calls, call.client ≠ client) :
    room.received client calls = room.history calls := by
  induction calls generalizing room with
  | nil => rfl
  | cons call rest induction =>
      have step := call_step holds.toConsistent call
      have different := silent call (by simp)
      have restSilent : ∀ other ∈ rest, other.client ≠ client := by
        intro other otherMem
        exact silent other (by simp [otherMem])
      have later := induction (call_invariant fits.1 holds) fits.2
        (step.stays member different) restSilent
      rw [history_cons, ← later, ← step.received member different]
      rfl

/-- Whatever the calls before and after a join, replaying what was issued since
over the snapshot of the join gives the current board. A member that makes no
call itself has received all of it. -/
theorem replay_converges (id : RoomId) (before after : List Call) (client : ClientId)
    (bound : ((new id).history (before ++ .join client :: after)).length <
      2 ^ 64 - 1) :
    let joined := ((new id).run before).addMember client
    let board := ((new id).run (before ++ .join client :: after)).board
    ∃ snapshot, (((new id).run before).join client).result = .ok snapshot ∧
      (((new id).run before).join client).room = joined ∧
      snapshot.state.replayAll (joined.history after) = board ∧
      ((∀ call ∈ after, call.client ≠ client) →
        snapshot.state.replayAll (joined.received client after) = board) := by
  intro joined board
  have fits := new_along_fits id _ bound
  rw [Machine.along_append] at fits
  have holds : joined.Invariant :=
    (run_invariant (new_invariant id) fits.1).addMember client
  have converges : joined.board.replayAll (joined.history after) = board := by
    rw [replay_history holds fits.2.2]
    simp only [board, run_append, run_cons]
    rfl
  refine ⟨joined.snapshot, rfl, rfl, converges, ?_⟩
  intro silent
  rw [received_eq_history holds fits.2.2 (UnorderedSet.mem_insert.mpr (.inl rfl))
    silent]
  exact converges

/-- A client that joins in mid-stroke and only watches. -/
theorem replay_converges_watching :
    let before : List Call :=
      [.join 7, .apply 7 (.strokeBegin .red .thin ⟨0, 0⟩) 0]
    let after : List Call :=
      [.apply 7 (.strokePoint ⟨2, 2⟩) 7, .apply 7 (.cursorMove ⟨1, 1⟩) 8, .leave 7]
    let joined := ((new 1).run before).addMember 9
    joined.snapshot.state.replayAll (joined.received 9 after) =
      ((new 1).run (before ++ .join 9 :: after)).board := by
  intro before after joined
  rcases replay_converges 1 before after 9 (by decide) with
    ⟨snapshot, succeeded, _, _, watching⟩
  cases succeeded
  exact watching (by decide)

end Room

end ClearSpace.Core
