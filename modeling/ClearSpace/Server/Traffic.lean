import ClearSpace.Core.Replay
import ClearSpace.Server.Mail

/-! # Traffic of a room

What a client is sent about one room: events, snapshots and the confirmation
that it left. The order of these messages is all that the later results look
at. -/

namespace ClearSpace.Server

open ClearSpace.Core ClearSpace.Transport

inductive Traffic
  | event (seq : Seq)
  | snapshot (lastSeq : Seq)
  | left
  deriving DecidableEq

def traffic (room : RoomId) : ServerMessage → Option Traffic
  | .event id seq _ => if id = room then some (.event seq) else none
  | .roomSnapshotResponse id lastSeq _ _ _ =>
      if id = room then some (.snapshot lastSeq) else none
  | .okResponse request id =>
      if request = .ascii "leave_room" ∧ id = room then some .left else none
  | _ => none

namespace Mail

def arrived {Kind : Type} (classify : ServerMessage → Option Kind) (mail : Mail)
    (client : ClientId) : List Kind :=
  (mail.trail client).filterMap classify

def postsTo {Kind : Type} (classify : ServerMessage → Option Kind) (client : ClientId)
    (posts : List (ClientId × ServerMessage)) : List Kind :=
  posts.filterMap fun post => if post.1 = client then classify post.2 else none

def coming {Kind : Type} (classify : ServerMessage → Option Kind) (mail : Mail)
    (client sender : ClientId) : List Kind :=
  postsTo classify client (mail.pending sender)

section Changes

variable {Kind : Type} {classify : ServerMessage → Option Kind} {mail : Mail}
  {client sender recipient : ClientId} {message : ServerMessage}
  {posts later : List (ClientId × ServerMessage)}

theorem coming_setPending :
    (mail.setPending sender posts).coming classify client =
      Function.update (mail.coming classify client) sender
        (postsTo classify client posts) := by
  funext other
  by_cases isSender : other = sender
  · subst isSender
    simp only [coming, setPending, Function.update_self]
  · simp only [coming, setPending, Function.update_of_ne isSender]

theorem coming_setPending_self :
    (mail.setPending sender posts).coming classify client sender =
      postsTo classify client posts := by
  rw [coming_setPending, Function.update_self]

theorem coming_setPending_of_ne {other : ClientId} (different : other ≠ sender) :
    (mail.setPending sender posts).coming classify client other =
      mail.coming classify client other := by
  rw [coming_setPending, Function.update_of_ne different]

theorem arrived_append :
    (mail.append recipient message).arrived classify client =
      if client = recipient then mail.arrived classify client ++ (classify message).toList
      else mail.arrived classify client := by
  by_cases isRecipient : client = recipient
  · subst isRecipient
    simp only [if_true, arrived, append, setTrail, Function.update_self,
      List.filterMap_append]
    cases kind : classify message <;> simp [kind]
  · simp only [if_neg isRecipient, arrived, append, setTrail,
      Function.update_of_ne isRecipient]

theorem coming_of_next (next : mail.pending sender = (recipient, message) :: later) :
    mail.coming classify client sender =
      if recipient = client then
        (classify message).toList ++ postsTo classify client later
      else postsTo classify client later := by
  rw [coming, next, postsTo, List.filterMap_cons]
  by_cases isRecipient : recipient = client
  · simp only [isRecipient, if_true]
    cases classify message <;> rfl
  · simp only [isRecipient, if_false]
    rfl

theorem later_sublist (next : mail.pending sender = (recipient, message) :: later) :
    (postsTo classify client later).Sublist (mail.coming classify client sender) := by
  rw [coming_of_next next]
  split
  · exact List.sublist_append_right _ _
  · exact List.Sublist.refl _

theorem postsTo_reply_eq_nil {Kind : Type} {classify : ServerMessage → Option Kind}
    {target : ClientId} (none : classify message = none) :
    postsTo classify client [(target, message)] = [] := by
  simp [postsTo, none]

end Changes

theorem Plain.traffic_eq_none {message : ServerMessage} (plain : Plain message)
    (room : RoomId) : traffic room message = none := by
  cases plain <;> rfl

end Mail

/-! ## What a room call posts -/

theorem mem_events {room : Room} {call : Call} {outcome : Outcome Reply}
    (step : Room.Step room call outcome) {event : OutgoingEvent}
    (member : event ∈ outcome.events) :
    event.room = room.id ∧ event.recipient ∈ room.members ∧
      event.recipient ≠ call.client := by
  rw [step.events_eq] at member
  rcases List.mem_flatMap.mp member with ⟨entry, _, announced⟩
  rcases List.mem_map.mp announced with ⟨recipient, isOther, rfl⟩
  rcases UnorderedSet.mem_others.mp isOther with ⟨different, isMember⟩
  exact ⟨rfl, isMember, different⟩

namespace Mail

private theorem postsTo_outgoing (room : RoomId) (client : ClientId)
    (events : List OutgoingEvent) :
    postsTo (traffic room) client (outgoing events) =
      ((events.filter fun event => event.recipient = client).filter
        fun event => event.room = room).map fun event => .event event.seq := by
  induction events with
  | nil => rfl
  | cons event rest induction =>
      change postsTo (traffic room) client
        ((event.recipient, toServerMessage event) :: outgoing rest) = _
      rw [postsTo, List.filterMap_cons, ← postsTo, induction]
      by_cases toClient : event.recipient = client
      · by_cases ofRoom : event.room = room
        · simp [toClient, ofRoom, traffic, toServerMessage]
        · simp [toClient, ofRoom, traffic, toServerMessage]
      · simp [toClient]

/-- The events of a call reach every other member once each, in order, and
nobody else. -/
theorem postsTo_events {id : RoomId} {room : Room} {call : Call}
    {outcome : Outcome Reply} (sameId : room.id = id)
    (step : Room.Step room call outcome) (about : RoomId) (client : ClientId) :
    postsTo (traffic about) client (outgoing outcome.events) =
      if about = id ∧ client ∈ room.members ∧ client ≠ call.client then
        outcome.issued.map fun entry => .event entry.seq
      else [] := by
  rw [postsTo_outgoing]
  split
  next isMember =>
    rcases isMember with ⟨rfl, member, different⟩
    rw [← step.received member different.symm, List.map_map,
      List.filter_eq_self.mpr]
    · rfl
    · intro event inEvents
      have facts := mem_events step (List.mem_filter.mp inEvents).1
      exact decide_eq_true (facts.1.trans sameId)
  next notMember =>
    rw [List.map_eq_nil_iff, List.filter_eq_nil_iff]
    intro event inEvents ofRoom
    rcases List.mem_filter.mp inEvents with ⟨member, toClient⟩
    have facts := mem_events step member
    have isClient := of_decide_eq_true toClient
    rw [isClient] at facts
    exact notMember ⟨(of_decide_eq_true ofRoom).symm.trans (facts.1.trans sameId),
      facts.2⟩

section Answers

variable {client : ClientId} {id : RoomId} {room : Room} {call : Call}
  {outcome : Outcome Reply} {posts : List (ClientId × ServerMessage)}

/-- To others a call posts its events and nothing else about a room. -/
theorem Answers.postsTo_other (sameId : room.id = id)
    (step : Room.Step room call outcome)
    (answers : Answers client id call outcome.result posts) (about : RoomId)
    {other : ClientId} (different : other ≠ client) :
    postsTo (traffic about) other posts =
      if about = id ∧ other ∈ room.members then
        outcome.issued.map fun entry => .event entry.seq
      else [] := by
  -- a reply to the caller itself is not for others
  have reply : ∀ message, postsTo (traffic about) other [(client, message)] = [] := by
    intro message
    simp [postsTo, different.symm]
  cases answered : outcome.result with
  | error error =>
      have nothing := step.issued_of_failed answered
      rw [answered] at answers
      cases answers with
      | silent => simp [nothing, postsTo]
      | refused => simp [nothing, reply]
  | ok value =>
      rw [answered] at answers
      have sent : ∀ events, value = .events events → outcome.events = events := by
        intro events isEvents
        simp only [Outcome.events, answered, isEvents]
      have passed := postsTo_events sameId step about other
      cases answers with
      | joined snapshot =>
          rw [reply]
          cases step <;> split <;> rfl
      | stopped events =>
          rw [sent events rfl] at passed
          simpa [different, Call.client] using passed
      | left events =>
          rw [sent events rfl] at passed
          rw [postsTo, List.filterMap_append, ← postsTo, ← postsTo, reply,
            List.append_nil]
          simpa [different, Call.client] using passed
      | applied event now events =>
          rw [sent events rfl] at passed
          simpa [different, Call.client] using passed

/-- To the caller it posts the snapshot of a join or the confirmation of a leave. -/
theorem Answers.postsTo_caller (sameId : room.id = id)
    (answers : Answers client id call (room.call call).result posts)
    (holds : room.Invariant) (about : RoomId) :
    ((about = id → call ≠ .join client) ∧ postsTo (traffic about) client posts = []) ∨
      (about = id ∧ call = .join client ∧
        postsTo (traffic about) client posts = [.snapshot room.lastSeq]) ∨
      (about = id ∧ call = .leave client ∧
        postsTo (traffic about) client posts = [.left]) := by
  have step := Room.call_step holds.toConsistent call
  have passed := postsTo_events sameId step about client
  generalize answered : (room.call call).result = result at answers
  have sent : ∀ events, result = .ok (.events events) →
      (room.call call).events = events := by
    intro events isEvents
    simp only [Outcome.events, answered, isEvents]
  have ownEvents : ∀ events, result = .ok (.events events) → call.client = client →
      postsTo (traffic about) client (outgoing events) = [] := by
    intro events isEvents isCaller
    rw [sent events isEvents] at passed
    simpa [isCaller] using passed
  have joins : ∀ error, result = .error error → about = id → call ≠ .join client := by
    rintro error failed _ rfl
    rw [failed] at answered
    cases answered
  cases answers with
  | silent call error => exact .inl ⟨joins error rfl, rfl⟩
  | refused call error =>
      exact .inl ⟨joins error rfl, by simp [postsTo, toErrorMessage, traffic]⟩
  | joined snapshot =>
      cases answered
      by_cases isRoom : about = id
      · refine .inr (.inl ⟨isRoom, rfl, ?_⟩)
        simp [postsTo, toSnapshotMessage, traffic, Room.snapshot, Room.addMember,
          Room.lastSeq, sameId, isRoom]
      · refine .inl ⟨fun same => absurd same isRoom, ?_⟩
        have otherRoom : id ≠ about := fun same => isRoom same.symm
        simp [postsTo, toSnapshotMessage, traffic, Room.snapshot, Room.addMember,
          sameId, otherRoom]
  | stopped events => exact .inl ⟨by simp, ownEvents events rfl rfl⟩
  | left events =>
      rw [postsTo, List.filterMap_append, ← postsTo, ownEvents events rfl rfl]
      by_cases isRoom : about = id
      · exact .inr (.inr ⟨isRoom, rfl, by simp [traffic, isRoom]⟩)
      · refine .inl ⟨by simp, ?_⟩
        have otherRoom : id ≠ about := fun same => isRoom same.symm
        simp [traffic, otherRoom]
  | applied event now events => exact .inl ⟨by simp, ownEvents events rfl rfl⟩

theorem Answers.caller {result : Except Error Reply}
    (answers : Answers client id call result posts) : call.client = client := by
  cases answers with
  | silent _ _ isCaller => exact isCaller
  | refused _ _ isCaller => exact isCaller
  | joined => rfl
  | stopped => rfl
  | left => rfl
  | applied => rfl

end Answers

end Mail

end ClearSpace.Server
