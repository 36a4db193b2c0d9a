import ClearSpace.Server.Traffic

/-! # The order of events

Sequence numbers are drawn under the lock of the room, but the posts of a call
are made after it is released. Events of a room reach a client in order as long
as no handler overtakes another one in posting to it. -/

namespace ClearSpace.Server

open ClearSpace.Core ClearSpace.Transport

def eventSeq (room : RoomId) : ServerMessage → Option Seq
  | .event id seq _ => if id = room then some seq else none
  | _ => none

def Traffic.eventSeq : Traffic → Option Seq
  | .event seq => some seq
  | _ => none

private theorem eventSeq_eq (room : RoomId) (message : ServerMessage) :
    eventSeq room message = (traffic room message).bind Traffic.eventSeq := by
  cases message with
  | event id seq payload =>
      simp only [eventSeq, traffic]
      split <;> rfl
  | roomSnapshotResponse id =>
      simp only [eventSeq, traffic]
      split <;> rfl
  | okResponse =>
      simp only [eventSeq, traffic]
      split <;> rfl
  | _ => rfl

theorem postsTo_eventSeq (room : RoomId) (client : ClientId)
    (posts : List (ClientId × ServerMessage)) :
    Mail.postsTo (eventSeq room) client posts =
      (Mail.postsTo (traffic room) client posts).filterMap Traffic.eventSeq := by
  rw [Mail.postsTo, Mail.postsTo, List.filterMap_filterMap]
  congr 1
  funext post
  split
  · exact eventSeq_eq room post.2
  · rfl

/-! ## The invariant -/

/-- The events of a room for one client, as far as they are under way. -/
structure InOrder (client : ClientId) (room : RoomId) (mail : Mail) : Prop where
  sound : mail.rooms.Sound
  arrivedUp : (mail.arrived (eventSeq room) client).Pairwise (· < ·)
  comingUp : ∀ sender, (mail.coming (eventSeq room) client sender).Pairwise (· < ·)
  above : ∀ sender, ∀ seq ∈ mail.arrived (eventSeq room) client,
    ∀ later ∈ mail.coming (eventSeq room) client sender, seq < later
  apart : ∀ sender other, sender ≠ other →
    ∀ seq ∈ mail.coming (eventSeq room) client sender,
    ∀ another ∈ mail.coming (eventSeq room) client other, seq ≠ another
  arrivedDrawn : ∀ seq ∈ mail.arrived (eventSeq room) client,
    mail.rooms.HasDrawn room seq
  comingDrawn : ∀ sender, ∀ seq ∈ mail.coming (eventSeq room) client sender,
    mail.rooms.HasDrawn room seq
  notOwn : mail.coming (eventSeq room) client client = []

namespace InOrder

variable {client : ClientId} {room : RoomId} {mail : Mail}

theorem withRooms (holds : InOrder client room mail) {rooms : RoomManager}
    (sound : rooms.Sound)
    (keeps : ∀ {seq}, mail.rooms.HasDrawn room seq → rooms.HasDrawn room seq) :
    InOrder client room { mail with rooms := rooms } :=
  { holds with
    sound := sound
    arrivedDrawn := fun seq member => keeps (holds.arrivedDrawn seq member)
    comingDrawn := fun sender seq member => keeps (holds.comingDrawn sender seq member) }

theorem setPending (holds : InOrder client room mail) {sender : ClientId}
    {posts : List (ClientId × ServerMessage)} {events : List Seq}
    (isEvents : Mail.postsTo (eventSeq room) client posts = events)
    (up : events.Pairwise (· < ·))
    (above : ∀ seq ∈ mail.arrived (eventSeq room) client, ∀ later ∈ events, seq < later)
    (apart : ∀ other, other ≠ sender → ∀ seq ∈ events,
      ∀ another ∈ mail.coming (eventSeq room) client other, seq ≠ another)
    (drawn : ∀ seq ∈ events, mail.rooms.HasDrawn room seq)
    (notOwn : sender = client → events = []) :
    InOrder client room (mail.setPending sender posts) := by
  have own : (mail.setPending sender posts).coming (eventSeq room) client sender =
      events := by
    rw [Mail.coming_setPending_self, isEvents]
  have others : ∀ other, other ≠ sender →
      (mail.setPending sender posts).coming (eventSeq room) client other =
        mail.coming (eventSeq room) client other :=
    fun other different => Mail.coming_setPending_of_ne different
  refine { holds with
    comingUp := ?_, above := ?_, apart := ?_, comingDrawn := ?_, notOwn := ?_ }
  · intro other
    by_cases isSender : other = sender
    · rw [isSender, own]
      exact up
    · rw [others other isSender]
      exact holds.comingUp other
  · intro other
    by_cases isSender : other = sender
    · rw [isSender, own]
      exact above
    · rw [others other isSender]
      exact holds.above other
  · intro left right different
    by_cases leftSender : left = sender
    · rw [leftSender, own, others right (leftSender ▸ different.symm)]
      exact apart right (leftSender ▸ different.symm)
    · by_cases rightSender : right = sender
      · rw [rightSender, own, others left leftSender]
        intro seq inLeft another inEvents same
        exact apart left leftSender another inEvents seq inLeft same.symm
      · rw [others left leftSender, others right rightSender]
        exact holds.apart left right different
  · intro other
    by_cases isSender : other = sender
    · rw [isSender, own]
      exact drawn
    · rw [others other isSender]
      exact holds.comingDrawn other
  · by_cases isSender : client = sender
    · rw [← isSender] at own
      rw [← isSender, own]
      exact notOwn isSender.symm
    · rw [others client isSender]
      exact holds.notOwn

theorem setPending_sublist (holds : InOrder client room mail) {sender : ClientId}
    {posts : List (ClientId × ServerMessage)}
    (fewer : (Mail.postsTo (eventSeq room) client posts).Sublist
      (mail.coming (eventSeq room) client sender)) :
    InOrder client room (mail.setPending sender posts) := by
  apply holds.setPending rfl
  · exact (holds.comingUp sender).sublist fewer
  · intro seq member later inPosts
    exact holds.above sender seq member later (fewer.subset inPosts)
  · intro other different seq inPosts another member
    exact holds.apart sender other different.symm seq (fewer.subset inPosts) another
      member
  · intro seq inPosts
    exact holds.comingDrawn sender seq (fewer.subset inPosts)
  · intro isClient
    rw [isClient, holds.notOwn] at fewer
    exact List.sublist_nil.mp fewer

/-- An event may arrive that is above everything arrived and below everything
that is still to come. -/
theorem append (holds : InOrder client room mail) {recipient : ClientId}
    {message : ServerMessage}
    (fits : recipient = client → ∀ seq, eventSeq room message = some seq →
      mail.rooms.HasDrawn room seq ∧
      (∀ earlier ∈ mail.arrived (eventSeq room) client, earlier < seq) ∧
      ∀ sender, ∀ later ∈ mail.coming (eventSeq room) client sender, seq < later) :
    InOrder client room (mail.append recipient message) := by
  by_cases isRecipient : client = recipient
  · cases kind : eventSeq room message with
    | none =>
        have same : (mail.append recipient message).arrived (eventSeq room) client =
            mail.arrived (eventSeq room) client := by
          rw [Mail.arrived_append, if_pos isRecipient, kind]
          exact List.append_nil _
        exact { holds with
          arrivedUp := same ▸ holds.arrivedUp
          above := same ▸ holds.above
          arrivedDrawn := same ▸ holds.arrivedDrawn }
    | some seq =>
        rcases fits isRecipient.symm seq kind with ⟨drawn, newest, below⟩
        have longer : (mail.append recipient message).arrived (eventSeq room) client =
            mail.arrived (eventSeq room) client ++ [seq] := by
          rw [Mail.arrived_append, if_pos isRecipient, kind]
          rfl
        refine { holds with arrivedUp := ?_, above := ?_, arrivedDrawn := ?_ }
        · rw [longer, List.pairwise_append]
          refine ⟨holds.arrivedUp, by simp, ?_⟩
          intro earlier member last isLast
          rw [List.mem_singleton.mp isLast]
          exact newest earlier member
        · rw [longer]
          intro sender earlier member later isComing
          rcases List.mem_append.mp member with before | isNew
          · exact holds.above sender earlier before later isComing
          · rw [List.mem_singleton.mp isNew]
            exact below sender later isComing
        · rw [longer]
          intro earlier member
          rcases List.mem_append.mp member with before | isNew
          · exact holds.arrivedDrawn earlier before
          · rw [List.mem_singleton.mp isNew]
            exact drawn
  · have same : (mail.append recipient message).arrived (eventSeq room) client =
        mail.arrived (eventSeq room) client := by
      rw [Mail.arrived_append, if_neg isRecipient]
    exact { holds with
      arrivedUp := same ▸ holds.arrivedUp
      above := same ▸ holds.above
      arrivedDrawn := same ▸ holds.arrivedDrawn }

theorem called (holds : InOrder client room mail) (counters : mail.rooms.CountersLeft)
    {caller : ClientId} {id : RoomId} {stored : Room} {call : Call}
    {posts : List (ClientId × ServerMessage)}
    (found : mail.rooms.getRoom id = some stored)
    (answers : Mail.Answers caller id call (stored.call call).result posts) :
    InOrder client room
      ({ mail with rooms := mail.rooms.putRoom id (stored.call call).room }.setPending
        caller posts) := by
  have kept := holds.sound id stored found
  have step := Room.call_step kept.holds.toConsistent call
  have grown := holds.withRooms (holds.sound.putRoom counters found call)
    (·.putRoom holds.sound counters found call)
  by_cases isCaller : client = caller
  · have nothing : Mail.postsTo (eventSeq room) client posts = [] := by
      rw [postsTo_eventSeq, isCaller]
      rcases answers.postsTo_caller kept.sameId kept.holds room with ⟨_, reply⟩ |
        ⟨_, _, reply⟩ | ⟨_, _, reply⟩
      · rw [reply]
        rfl
      · rw [reply]
        rfl
      · rw [reply]
        rfl
    apply grown.setPending_sublist
    rw [nothing]
    exact List.nil_sublist _
  · have sent : Mail.postsTo (eventSeq room) client posts =
        if room = id ∧ client ∈ stored.members then
          (stored.call call).issued.map Issued.seq
        else [] := by
      rw [postsTo_eventSeq, answers.postsTo_other kept.sameId step room isCaller]
      split
      · rw [List.filterMap_map]
        exact congrFun List.filterMap_eq_map _
      · rfl
    by_cases concerned : room = id ∧ client ∈ stored.members
    · rw [if_pos concerned] at sent
      rcases concerned with ⟨rfl, _⟩
      apply grown.setPending sent
      · exact holds.sound.issued_increase counters found call
      · intro seq member later isNew
        rcases List.mem_map.mp isNew with ⟨entry, issued, rfl⟩
        exact (holds.arrivedDrawn seq member).lt_issued holds.sound counters found call
          issued
      · intro other _ seq isNew another member same
        rcases List.mem_map.mp isNew with ⟨entry, issued, rfl⟩
        have below := (holds.comingDrawn other another member).lt_issued holds.sound
          counters found call issued
        rw [same] at below
        exact absurd below (UInt64.lt_irrefl _)
      · intro seq isNew
        rcases List.mem_map.mp isNew with ⟨entry, issued, rfl⟩
        exact (holds.sound.issued_drawn counters found call issued).1
      · intro same
        exact absurd same.symm isCaller
    · rw [if_neg concerned] at sent
      apply grown.setPending_sublist
      rw [sent]
      exact List.nil_sublist _

end InOrder

/-! ## Runs -/

namespace Mail

/-- The running handler posts an event only while no other one has yet to post
to the same client an earlier event of the room. -/
def InTurn (mail : Mail) (poster : Option ClientId) : Prop :=
  ∀ sender recipient room seq payload later, poster = some sender →
    mail.pending sender = (recipient, .event room seq payload) :: later →
    recipient ∈ mail.registry → ∀ other, other ≠ sender → ∀ another payload,
    (recipient, .event room another payload) ∈ mail.pending other → seq ≤ another

private theorem mem_coming {Kind : Type} {classify : ServerMessage → Option Kind}
    {mail : Mail}
    {client sender : ClientId} {kind : Kind} :
    kind ∈ mail.coming classify client sender ↔
      ∃ message, (client, message) ∈ mail.pending sender ∧
        classify message = some kind := by
  simp only [coming, postsTo, List.mem_filterMap]
  constructor
  · rintro ⟨⟨recipient, message⟩, member, isKind⟩
    by_cases isClient : recipient = client
    · subst isClient
      rw [if_pos rfl] at isKind
      exact ⟨message, member, isKind⟩
    · rw [if_neg isClient] at isKind
      cases isKind
  · rintro ⟨message, member, isKind⟩
    exact ⟨(client, message), member, by rw [if_pos rfl, isKind]⟩

end Mail

theorem eventSeq_eq_some {room : RoomId} {message : ServerMessage} {seq : Seq} :
    eventSeq room message = some seq ↔ ∃ payload, message = .event room seq payload := by
  constructor
  · intro isSeq
    cases message with
    | event id number payload =>
        simp only [eventSeq] at isSeq
        split at isSeq
        next same =>
          cases isSeq
          exact ⟨payload, same ▸ rfl⟩
        next => cases isSeq
    | _ => cases isSeq
  · rintro ⟨payload, rfl⟩
    simp [eventSeq]

theorem InOrder.step {client : ClientId} {room : RoomId} {mail next : Mail}
    {poster : Option ClientId} {made : Option (RoomId × Call)}
    (holds : InOrder client room mail) (counters : mail.rooms.CountersLeft)
    (inTurn : mail.InTurn poster) (step : mail.Step poster made next) :
    InOrder client room next := by
  cases step with
  | quiet registry => exact { holds with }
  | replied sender message idle plain =>
      apply holds.setPending_sublist
      rw [postsTo_eventSeq, Mail.postsTo_reply_eq_nil (plain.traffic_eq_none room)]
      exact List.nil_sublist _
  | created sender idle =>
      have grown := holds.withRooms holds.sound.createRoom (·.createRoom counters)
      apply grown.setPending_sublist
      rw [postsTo_eventSeq, Mail.postsTo_reply_eq_nil rfl]
      exact List.nil_sublist _
  | called caller id stored call posts idle found answers =>
      exact holds.called counters found answers
  | dropped sender event later isNext =>
      exact holds.setPending_sublist (Mail.later_sublist isNext)
  | posted sender recipient message later isPoster isNext isOpen =>
      apply (holds.setPending_sublist (Mail.later_sublist isNext)).append
      rintro rfl seq isSeq
      have front : mail.coming (eventSeq room) recipient sender =
          seq :: Mail.postsTo (eventSeq room) recipient later := by
        rw [Mail.coming_of_next isNext, if_pos rfl, isSeq]
        rfl
      have isComing : seq ∈ mail.coming (eventSeq room) recipient sender :=
        front ▸ List.mem_cons_self
      refine ⟨holds.comingDrawn sender seq isComing, ?_, ?_⟩
      · intro earlier member
        exact holds.above sender earlier member seq isComing
      · intro other another member
        by_cases isSender : other = sender
        · rw [isSender, Mail.coming_setPending_self] at member
          have up := holds.comingUp sender
          rw [front] at up
          exact (List.pairwise_cons.mp up).1 another member
        · rw [Mail.coming_setPending_of_ne isSender] at member
          -- the sender is another session, which the registry has
          have registered : recipient ∈ mail.registry := by
            rcases isOpen with own | registered
            · rw [← own, holds.notOwn] at isComing
              cases isComing
            · exact registered
          rcases eventSeq_eq_some.mp isSeq with ⟨payload, rfl⟩
          rcases Mail.mem_coming.mp member with ⟨_, inPending, isAnother⟩
          rcases eventSeq_eq_some.mp isAnother with ⟨otherPayload, rfl⟩
          have notEarlier := inTurn sender recipient room seq payload later isPoster
            isNext registered other isSender another otherPayload inPending
          have different := holds.apart sender other (Ne.symm isSender) seq isComing
            another member
          exact UInt64.lt_of_le_of_ne notEarlier different

namespace ServerState

/-- No counter wraps and no handler overtakes another one in posting events. -/
def InTurn (state : ServerState) (action : Action) : Prop :=
  state.CountersLeft ∧ state.mail.InTurn action.poster

private theorem start_inOrder (sink : Option (List PersistedBoardSnapshot))
    (client : ClientId)
    (room : RoomId) : InOrder client room (start sink).mail where
  sound := RoomManager.sound_empty
  arrivedUp := .nil
  comingUp _ := .nil
  above _ _ member := absurd member List.not_mem_nil
  apart _ _ _ _ member := absurd member List.not_mem_nil
  arrivedDrawn _ member := absurd member List.not_mem_nil
  comingDrawn _ _ member := absurd member List.not_mem_nil
  notOwn := rfl

/-- Events of a room are queued for a client in the order of their numbers as
long as handlers post in turn. -/
theorem events_in_order {sink : Option (List PersistedBoardSnapshot)}
    {actions : List Action} {final : ServerState}
    (runs : system.Runs InTurn (start sink) actions final) (client : ClientId)
    (room : RoomId) :
    ((final.queued client).filterMap (eventSeq room)).Pairwise (· < ·) := by
  have holds : InOrder client room final.mail := by
    apply (runs_with_alive runs).invariant _ (start_inOrder sink client room)
    rintro state action next ⟨inTurn, alive⟩ stepped before
    exact before.step inTurn.1.rooms inTurn.2
      (step_mail inTurn.1.freshClient alive stepped)
  have arrived := holds.arrivedUp
  rcases trail_eq_queued_append final client with ⟨posted, split⟩
  change ((final.trail client).filterMap _).Pairwise _ at arrived
  rw [split, List.filterMap_append] at arrived
  exact (List.pairwise_append.mp arrived).1

private theorem inTurn_of_undisturbed (state : ServerState) (action : Action)
    (alone : state.undisturbed action = true) : state.InTurn action := by
  have counters : state.CountersLeft :=
    of_decide_eq_true (Bool.and_eq_true_iff.mp alone).1
  refine ⟨counters, ?_⟩
  intro sender recipient room seq payload later isPoster _ _ other different another
    otherPayload inPending
  rw [pending_of_undisturbed alone isPoster different] at inPending
  cases inPending

/-- Client 1 opens room 1 and three clients enter it, one after the other. -/
def meeting : List Action :=
  [.accept, .accept, .accept, .runTask 1, .runTask 2, .runTask 3,
    .readLine 1 (.ok .createRoomRequest) 0, .act 1, .act 1,
    .readLine 1 (.ok (.joinRoomRequest 1)) 0, .act 1, .act 1,
    .readLine 2 (.ok (.joinRoomRequest 1)) 0, .act 2, .act 2,
    .readLine 3 (.ok (.joinRoomRequest 1)) 0, .act 3, .act 3, .runTask 3]

/-- Clients 1 and 2 clear the board, and each handler finishes. -/
def takingTurns : List Action := meeting ++
  [.readLine 1 (.ok (.eventRequest 1 .clear)) 1, .act 1, .act 1, .act 1,
    .readLine 2 (.ok (.eventRequest 1 .clear)) 2, .act 2, .act 2, .act 2,
    .runTask 3, .runTask 3]

/-- Both clear it at once, and the second handler is the first to post. -/
def crossing : List Action := meeting ++
  [.readLine 1 (.ok (.eventRequest 1 .clear)) 1,
    .readLine 2 (.ok (.eventRequest 1 .clear)) 2,
    .act 2, .act 1, .runTask 3, .runTask 3]

theorem events_in_order_takingTurns :
    ∃ final, system.Runs InTurn (start none) takingTurns final ∧
      (final.queued 3).filterMap (eventSeq 1) = [1, 2] ∧
      ((final.queued 3).filterMap (eventSeq 1)).Pairwise (· < ·) := by
  have computed : (system.execute undisturbed (start none) takingTurns).map
      (fun final => (final.queued 3).filterMap (eventSeq 1)) = some [1, 2] := by
    decide
  rcases Option.map_eq_some_iff.mp computed with ⟨final, executed, seqs⟩
  have runs := StepSystem.runs_of_execute inTurn_of_undisturbed executed
  exact ⟨final, runs, seqs, events_in_order runs 3 1⟩

theorem events_overtaken :
    ¬ ∀ sink actions final, system.Runs StepSystem.Any (start sink) actions final →
      ∀ client room,
        ((final.queued client).filterMap (eventSeq room)).Pairwise (· < ·) := by
  intro always
  have computed : (system.execute StepSystem.unchecked (start none) crossing).map
      (fun final => (final.queued 3).filterMap (eventSeq 1)) = some [2, 1] := by
    decide
  rcases Option.map_eq_some_iff.mp computed with ⟨final, executed, seqs⟩
  have runs := StepSystem.runs_of_unchecked executed
  have ordered := always none crossing final runs 3 1
  rw [seqs] at ordered
  exact absurd ordered (by decide)

end ServerState

end ClearSpace.Server
