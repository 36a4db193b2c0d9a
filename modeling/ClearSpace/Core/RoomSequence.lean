import ClearSpace.Core.RoomRun

/-! # Sequence numbers and fan-out

What a call issues, to whom it is sent, and how the numbers of a whole run line
up. -/

namespace ClearSpace.Core

/-- The events a call returned; a failed call and a join return none. -/
def Outcome.events (outcome : Outcome Reply) : List OutgoingEvent :=
  match outcome.result with
  | .ok (.events events) => events
  | .ok (.snapshot _) => []
  | .error _ => []

namespace Room

/-- What one call issues, and to whom. `counter` ties the issued entries to the
sequence counter of the room. -/
structure CallLaw (room : Room) (call : Call) : Prop where
  failed : ∀ error, (room.call call).result = .error error →
    (room.call call).issued = []
  joined : ∀ client, call = .join client → (room.call call).issued = []
  held : ∀ client p now, call = .apply client (.cursorMove p) now →
    room.throttled client now = true → (room.call call).issued = []
  applied : ∀ client event now reply, call = .apply client event now →
    (room.call call).result = .ok reply →
    (∀ p, event = .cursorMove p → room.throttled client now = false) →
    (room.call call).issued.length = 1
  left : ∀ client reply, call = .leave client → (room.call call).result = .ok reply →
    (room.call call).issued.map Issued.payload =
      match room.activeStrokeByClient.lookup client with
      | some sid => [.strokeEndOut client sid, .memberLeftOut client]
      | none => [.memberLeftOut client]
  counter : (room.call call).room.nextSeq.toNat =
    room.nextSeq.toNat + (room.call call).issued.length
  fanOut : ∃ recipients : List ClientId, recipients.Nodup ∧
    (∀ client, client ∈ recipients ↔ client ∈ room.members ∧ client ≠ call.client) ∧
    (room.call call).events = (room.call call).issued.flatMap fun entry =>
      recipients.map fun client =>
        { room := room.id, recipient := client, seq := entry.seq
          payload := entry.payload }

namespace Step

variable {room : Room} {call : Call} {outcome : Outcome Reply}

theorem events_eq (step : Step room call outcome) :
    outcome.events = outcome.issued.flatMap (room.announce call.client) := by
  cases step <;> rfl

theorem issued_of_failed (step : Step room call outcome) {error : Error}
    (failed : outcome.result = .error error) : outcome.issued = [] := by
  cases step with
  | refused => rfl
  | _ => cases failed

private theorem issued_of_throttled {client : ClientId} {p : Point} {now : TimePoint}
    (step : Step room (.apply client (.cursorMove p) now) outcome)
    (held : room.throttled client now = true) : outcome.issued = [] := by
  cases step with
  | refused => rfl
  | throttled => rfl
  | moved _ _ _ _ accepted => exact absurd held (by simp [accepted])

private theorem issued_of_applied {client : ClientId} {event : EventPayload}
    {now : TimePoint} {reply : Reply}
    (step : Step room (.apply client event now) outcome)
    (succeeded : outcome.result = .ok reply)
    (accepted : ∀ p, event = .cursorMove p → room.throttled client now = false) :
    outcome.issued.length = 1 := by
  cases step with
  | refused => cases succeeded
  | throttled _ p _ _ held => exact absurd held (by simp [accepted p rfl])
  | _ => rfl

private theorem issued_of_left {client : ClientId} {reply : Reply}
    (step : Step room (.leave client) outcome)
    (succeeded : outcome.result = .ok reply) :
    outcome.issued.map Issued.payload =
      match room.activeStrokeByClient.lookup client with
      | some sid => [.strokeEndOut client sid, .memberLeftOut client]
      | none => [.memberLeftOut client] := by
  cases step with
  | refused => cases succeeded
  | left _ _ inactive =>
      rw [inactive]
      rfl
  | leftDrawing _ sid _ drawing =>
      rw [drawing]
      rfl

theorem seqs_eq (step : Step room call outcome)
    (fits : room.nextSeq.toNat + outcome.issued.length < 2 ^ 64) :
    (outcome.issued.map fun entry => entry.seq.toNat) =
      List.range' room.nextSeq.toNat outcome.issued.length := by
  cases step with
  | leftDrawing client sid member drawing =>
      simp only [issuing, List.length_cons, List.length_nil] at fits
      have second : (room.nextSeq + 1).toNat = room.nextSeq.toNat + 1 :=
        toNat_add_one (by omega)
      simp [issuing, List.range', second]
  | _ => rfl

end Step

private theorem call_law {room : Room} {call : Call} (holds : room.Invariant)
    (fits : room.Fits call) : room.CallLaw call := by
  have step := call_step holds.toConsistent call
  refine ⟨?_, ?_, ?_, ?_, ?_, call_nextSeq fits holds, ?_⟩
  · intro error failed
    exact step.issued_of_failed failed
  · rintro client rfl
    rfl
  · rintro client p now rfl held
    exact step.issued_of_throttled held
  · rintro client event now reply rfl succeeded accepted
    exact step.issued_of_applied succeeded accepted
  · rintro client reply rfl succeeded
    exact step.issued_of_left succeeded
  · refine ⟨room.members.others call.client, room.members.others_nodup _, ?_, ?_⟩
    · intro client
      rw [UnorderedSet.mem_others, and_comm]
    · exact step.events_eq

/-! ## Whole runs -/

theorem history_seqs {room : Room} {calls : List Call} (holds : room.Invariant)
    (fits : machine.Along Fits room calls) :
    ((room.history calls).map fun entry => entry.seq.toNat) =
      List.range' room.nextSeq.toNat (room.history calls).length := by
  induction calls generalizing room with
  | nil => rfl
  | cons call rest induction =>
      have first := (call_step holds.toConsistent call).seqs_eq fits.1
      have later := induction (call_invariant fits.1 holds) fits.2
      change (((room.call call).room.history rest).map _) =
        List.range' (room.call call).room.nextSeq.toNat _ at later
      rw [history_cons, List.map_append, List.length_append, first, later,
        call_nextSeq fits.1 holds, List.range'_append_1]

theorem lastSeq_toNat {room : Room} (positive : 0 < room.nextSeq.toNat) :
    room.lastSeq.toNat = room.nextSeq.toNat - 1 := by
  have nonzero : room.nextSeq ≠ 0 := by
    intro zero
    rw [zero] at positive
    exact absurd positive (by decide)
  rw [lastSeq, if_neg nonzero, UInt64.toNat_sub_of_le]
  · rfl
  · rw [UInt64.le_iff_toNat_le]
    exact positive

/-- Over a run the issued numbers are 1, 2, 3 and so on, `lastSeq` is the last
of them, and every single call keeps `CallLaw` in the room it meets. -/
theorem sequence_exact (id : RoomId) (calls : List Call)
    (bound : ((new id).history calls).length < 2 ^ 64 - 1) :
    let issued := (new id).history calls
    let room := (new id).run calls
    (issued.map fun entry => entry.seq.toNat) = List.range' 1 issued.length ∧
      room.lastSeq = ((issued.getLast?).map Issued.seq).getD 0 ∧
      room.makePersistedSnapshot.lastSeq = room.lastSeq ∧
      (∀ client, ∃ snapshot, (room.join client).result = .ok snapshot ∧
        snapshot.lastSeq = room.lastSeq) ∧
      ∀ before call after, calls = before ++ call :: after →
        ((new id).run before).CallLaw call := by
  intro issued room
  have holds := new_invariant id
  have fits := new_along_fits id calls bound
  have seqs : (issued.map fun entry => entry.seq.toNat) =
      List.range' 1 issued.length := history_seqs holds fits
  have counter : room.nextSeq.toNat = 1 + issued.length := run_nextSeq holds fits
  refine ⟨seqs, ?_, rfl, ?_, ?_⟩
  · apply UInt64.toNat_inj.mp
    rw [lastSeq_toNat (by omega), counter]
    have lastNumber := congrArg List.getLast? seqs
    rw [List.getLast?_map, List.getLast?_range'] at lastNumber
    cases last : issued.getLast? with
    | none =>
        have empty := List.getLast?_eq_none_iff.mp last
        simp [empty]
    | some entry =>
        have nonempty : issued.length ≠ 0 := by
          intro zero
          rw [List.length_eq_zero_iff.mp zero] at last
          cases last
        rw [last, if_neg nonempty] at lastNumber
        have sameNumber : entry.seq.toNat = 1 + issued.length - 1 :=
          Option.some.inj lastNumber
        simp only [Option.map_some, Option.getD_some]
        exact sameNumber.symm
  · intro client
    exact ⟨(room.addMember client).snapshot, rfl, rfl⟩
  · intro before call after split
    rw [split, Machine.along_append] at fits
    exact call_law (run_invariant holds fits.1) fits.2.1

theorem sequence_exact_lesson :
    ((new 1).history lesson).length = 7 ∧
      (((new 1).history lesson).map fun entry => entry.seq.toNat) =
        List.range' 1 ((new 1).history lesson).length ∧
      ((new 1).run (lesson.take 8)).CallLaw (.leave 7) := by
  have law := sequence_exact 1 lesson (by decide)
  exact ⟨by decide, law.1, law.2.2.2.2 (lesson.take 8) (.leave 7) [] rfl⟩

end Room

end ClearSpace.Core
