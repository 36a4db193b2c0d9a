import ClearSpace.Server.Traffic

/-! # The messages of a stay

A client that joins a room becomes a recipient under the lock of the room, but
its snapshot is posted later, from its own handler; a leave is confirmed in the
same way. What a client is sent about a room is bracketed by the two as long as
no post about the room overtakes another one on its way to the client. -/

namespace ClearSpace.Server

open ClearSpace.Core ClearSpace.Transport

/-! ## Bracketed traffic -/

/-- A snapshot stands after the events it includes and before all others. -/
def Traffic.MayPrecede : Traffic → Traffic → Prop
  | .event seq, .snapshot lastSeq => seq ≤ lastSeq
  | .snapshot lastSeq, .event seq => lastSeq < seq
  | _, _ => True

/-- The client was told that it left, and has had no snapshot since. -/
def Confirmed (entries : List Traffic) : Prop :=
  ∃ before after, entries = before ++ .left :: after ∧
    ∀ lastSeq, .snapshot lastSeq ∉ after

structure Bracketed (entries : List Traffic) : Prop where
  around : entries.Pairwise Traffic.MayPrecede
  inside : ∀ before seq after, entries = before ++ .event seq :: after →
    ¬ Confirmed before

private theorem not_confirmed_nil : ¬ Confirmed [] := by
  rintro ⟨before, after, empty, _⟩
  cases before <;> cases empty

theorem confirmed_append {entries : List Traffic} {entry : Traffic}
    (confirmed : Confirmed (entries ++ [entry])) :
    entry = .left ∨ (∀ lastSeq, entry ≠ .snapshot lastSeq) ∧ Confirmed entries := by
  rcases confirmed with ⟨before, after, split, none⟩
  rcases List.eq_nil_or_concat after with rfl | ⟨front, last, rfl⟩
  · left
    exact (List.append_inj' split rfl).2 |> List.singleton_inj.mp
  · right
    rw [List.concat_eq_append] at split none
    rw [← List.cons_append, ← List.append_assoc] at split
    rcases List.append_inj' split rfl with ⟨sameFront, sameLast⟩
    have isLast := List.singleton_inj.mp sameLast
    refine ⟨?_, before, front, sameFront, ?_⟩
    · intro lastSeq isSnapshot
      exact none lastSeq (by simp [← isLast, isSnapshot])
    · intro lastSeq member
      exact none lastSeq (List.mem_append_left _ member)

private theorem not_confirmed_append_snapshot (entries : List Traffic) (lastSeq : Seq) :
    ¬ Confirmed (entries ++ [.snapshot lastSeq]) := by
  intro confirmed
  rcases confirmed_append confirmed with isLeft | ⟨notSnapshot, _⟩
  · cases isLeft
  · exact notSnapshot lastSeq rfl

private theorem confirmed_of_append_event {entries : List Traffic} {seq : Seq}
    (confirmed : Confirmed (entries ++ [.event seq])) : Confirmed entries := by
  rcases confirmed_append confirmed with isLeft | ⟨_, before⟩
  · cases isLeft
  · exact before

namespace Bracketed

theorem nil : Bracketed [] where
  around := .nil
  inside before _ _ empty := by cases before <;> cases empty

theorem append {entries : List Traffic} (bracketed : Bracketed entries)
    {entry : Traffic} (around : ∀ earlier ∈ entries, earlier.MayPrecede entry)
    (inside : ∀ seq, entry = .event seq → ¬ Confirmed entries) :
    Bracketed (entries ++ [entry]) where
  around := by
    refine List.pairwise_append.mpr ⟨bracketed.around, by simp, ?_⟩
    intro earlier member last isLast
    rw [List.mem_singleton.mp isLast]
    exact around earlier member
  inside before seq after split := by
    rcases List.eq_nil_or_concat after with rfl | ⟨front, last, rfl⟩
    · rcases List.append_inj' split rfl with ⟨rfl, isEvent⟩
      exact inside seq (List.singleton_inj.mp isEvent)
    · rw [List.concat_eq_append, ← List.cons_append, ← List.append_assoc] at split
      rcases List.append_inj' split rfl with ⟨sameFront, _⟩
      exact bracketed.inside before seq front sameFront

private theorem of_append {front back : List Traffic}
    (bracketed : Bracketed (front ++ back)) :
    Bracketed front where
  around := (List.pairwise_append.mp bracketed.around).1
  inside before seq after split :=
    bracketed.inside before seq (after ++ back) (by rw [split]; simp)

end Bracketed

/-! ## The invariant -/

def Traffic.Drawn (rooms : RoomManager) (room : RoomId) : Traffic → Prop
  | .event seq => rooms.HasDrawn room seq
  | .snapshot lastSeq => rooms.HasDrawn room lastSeq
  | .left => True

theorem Traffic.Drawn.mono {rooms next : RoomManager} {room : RoomId}
    (keeps : ∀ {seq}, rooms.HasDrawn room seq → next.HasDrawn room seq)
    {entry : Traffic} (drawn : entry.Drawn rooms room) : entry.Drawn next room := by
  cases entry with
  | event => exact keeps drawn
  | snapshot => exact keeps drawn
  | left => trivial

/-- What the running handler of the client itself may have to post: a snapshot
that includes all events arrived, or the confirmation of a leave. -/
def OwnPost (arrived : List Traffic) (isMember : Prop) (own : List Traffic) : Prop :=
  own = [] ∨
    (∃ lastSeq, own = [.snapshot lastSeq] ∧
      ∀ seq, .event seq ∈ arrived → seq ≤ lastSeq) ∨
    (own = [.left] ∧ ¬ isMember)

theorem OwnPost.no_event {arrived own : List Traffic} {isMember : Prop}
    (post : OwnPost arrived isMember own) (seq : Seq) : .event seq ∉ own := by
  intro member
  rcases post with none | ⟨lastSeq, one, _⟩ | ⟨one, _⟩
  · rw [none] at member
    cases member
  · rw [one] at member
    cases List.mem_singleton.mp member
  · rw [one] at member
    cases List.mem_singleton.mp member

/-- The traffic of a room for one client: what has arrived, and what each
session has yet to post. -/
structure InStay (client : ClientId) (room : RoomId) (rooms : RoomManager)
    (arrived : List Traffic) (coming : ClientId → List Traffic) : Prop where
  sound : rooms.Sound
  bracketed : Bracketed arrived
  arrivedDrawn : ∀ entry ∈ arrived, entry.Drawn rooms room
  comingDrawn : ∀ sender, ∀ entry ∈ coming sender, entry.Drawn rooms room
  onlyEvents : ∀ sender, sender ≠ client → ∀ entry ∈ coming sender,
    ∃ seq, entry = .event seq
  own : OwnPost arrived (rooms.HasMember room client) (coming client)
  newer : ∀ sender seq, .event seq ∈ coming sender →
    ∀ lastSeq, .snapshot lastSeq ∈ arrived → lastSeq < seq
  reopened : Confirmed arrived → ∀ sender seq, .event seq ∈ coming sender →
    ∃ lastSeq, .snapshot lastSeq ∈ coming client ∧ lastSeq < seq
  rejoined : Confirmed arrived → rooms.HasMember room client →
    ∃ lastSeq, .snapshot lastSeq ∈ coming client

namespace InStay

variable {client : ClientId} {room : RoomId} {rooms : RoomManager}
  {arrived : List Traffic} {coming : ClientId → List Traffic}

theorem withRooms (holds : InStay client room rooms arrived coming)
    {next : RoomManager} (sound : next.Sound)
    (keeps : ∀ {seq}, rooms.HasDrawn room seq → next.HasDrawn room seq)
    (sameMember : next.HasMember room client ↔ rooms.HasMember room client) :
    InStay client room next arrived coming := by
  exact { holds with
    sound := sound
    arrivedDrawn := fun entry member => (holds.arrivedDrawn entry member).mono keeps
    comingDrawn := fun sender entry member =>
      (holds.comingDrawn sender entry member).mono keeps
    own := by rw [sameMember]; exact holds.own
    rejoined := by rw [sameMember]; exact holds.rejoined }

/-- Another session may take over new posts if they are events that come after
every snapshot posted or about to be posted. -/
theorem setOther (holds : InStay client room rooms arrived coming) {sender : ClientId}
    (different : sender ≠ client) {posts : List Traffic}
    (onlyEvents : ∀ entry ∈ posts, ∃ seq, entry = .event seq)
    (drawn : ∀ entry ∈ posts, entry.Drawn rooms room)
    (newer : ∀ seq, .event seq ∈ posts → ∀ lastSeq, .snapshot lastSeq ∈ arrived →
      lastSeq < seq)
    (reopened : Confirmed arrived → ∀ seq, .event seq ∈ posts →
      ∃ lastSeq, .snapshot lastSeq ∈ coming client ∧ lastSeq < seq) :
    InStay client room rooms arrived (Function.update coming sender posts) := by
  have sameOwn : Function.update coming sender posts client = coming client :=
    Function.update_of_ne different.symm ..
  refine { holds with
    comingDrawn := ?_, onlyEvents := ?_, own := ?_, newer := ?_
    reopened := ?_, rejoined := ?_ }
  · exact (Function.forall_update_iff coming fun _ entries => ∀ entry ∈ entries,
      entry.Drawn rooms room).mpr ⟨drawn, fun other _ => holds.comingDrawn other⟩
  · exact (Function.forall_update_iff coming fun other entries => other ≠ client →
      ∀ entry ∈ entries, ∃ seq, entry = .event seq).mpr
      ⟨fun _ => onlyEvents, fun other _ => holds.onlyEvents other⟩
  · rw [sameOwn]
    exact holds.own
  · exact (Function.forall_update_iff coming fun _ entries => ∀ seq,
      .event seq ∈ entries → ∀ lastSeq, .snapshot lastSeq ∈ arrived →
      lastSeq < seq).mpr ⟨newer, fun other _ => holds.newer other⟩
  · rw [sameOwn]
    intro confirmed
    exact (Function.forall_update_iff coming fun _ entries => ∀ seq,
      .event seq ∈ entries → ∃ lastSeq, .snapshot lastSeq ∈ coming client ∧
      lastSeq < seq).mpr
      ⟨reopened confirmed, fun other _ => holds.reopened confirmed other⟩
  · rw [sameOwn]
    exact holds.rejoined

theorem setOther_sublist (holds : InStay client room rooms arrived coming)
    {sender : ClientId} (different : sender ≠ client) {posts : List Traffic}
    (fewer : posts.Sublist (coming sender)) :
    InStay client room rooms arrived (Function.update coming sender posts) := by
  apply holds.setOther different
  · intro entry member
    exact holds.onlyEvents sender different entry (fewer.subset member)
  · intro entry member
    exact holds.comingDrawn sender entry (fewer.subset member)
  · intro seq member
    exact holds.newer sender seq (fewer.subset member)
  · intro confirmed seq member
    exact holds.reopened confirmed sender seq (fewer.subset member)

/-- The client starts a handler of its own; it had nothing to post before, so a
client that was told it left is sent no events and is not a member. -/
theorem setOwn (holds : InStay client room rooms arrived coming)
    (idle : coming client = []) {next : RoomManager} (sound : next.Sound)
    (keeps : ∀ {seq}, rooms.HasDrawn room seq → next.HasDrawn room seq)
    {posts : List Traffic}
    (own : OwnPost arrived (next.HasMember room client) posts)
    (drawn : ∀ entry ∈ posts, entry.Drawn next room)
    (member : next.HasMember room client →
      rooms.HasMember room client ∨ ∃ lastSeq, .snapshot lastSeq ∈ posts) :
    InStay client room next arrived (Function.update coming client posts) := by
  have noEvents := own.no_event
  refine { sound := sound, bracketed := holds.bracketed, arrivedDrawn := ?_
           comingDrawn := ?_, onlyEvents := ?_, own := ?_, newer := ?_
           reopened := ?_, rejoined := ?_ }
  · intro entry isEntry
    exact (holds.arrivedDrawn entry isEntry).mono keeps
  · exact (Function.forall_update_iff coming fun _ entries => ∀ entry ∈ entries,
      entry.Drawn next room).mpr
      ⟨drawn, fun other _ entry isEntry =>
        (holds.comingDrawn other entry isEntry).mono keeps⟩
  · exact (Function.forall_update_iff coming fun other entries => other ≠ client →
      ∀ entry ∈ entries, ∃ seq, entry = .event seq).mpr
      ⟨fun isClient => absurd rfl isClient, fun other _ => holds.onlyEvents other⟩
  · rw [Function.update_self]
    exact own
  · exact (Function.forall_update_iff coming fun _ entries => ∀ seq,
      .event seq ∈ entries → ∀ lastSeq, .snapshot lastSeq ∈ arrived →
      lastSeq < seq).mpr
      ⟨fun seq isEvent => absurd isEvent (noEvents seq), fun other _ => holds.newer other⟩
  · rw [Function.update_self]
    intro confirmed
    refine (Function.forall_update_iff coming fun _ entries => ∀ seq,
      .event seq ∈ entries → ∃ lastSeq, .snapshot lastSeq ∈ posts ∧ lastSeq < seq).mpr
      ⟨fun seq isEvent => absurd isEvent (noEvents seq), ?_⟩
    intro other _ seq isEvent
    rcases holds.reopened confirmed other seq isEvent with ⟨lastSeq, inOwn, _⟩
    rw [idle] at inOwn
    cases inOwn
  · rw [Function.update_self]
    intro confirmed isMember
    rcases member isMember with before | posted
    · rcases holds.rejoined confirmed before with ⟨lastSeq, inOwn⟩
      rw [idle] at inOwn
      cases inOwn
    · exact posted

/-! ## Arrivals -/

private theorem arriveEvent (holds : InStay client room rooms arrived coming)
    {sender : ClientId} (different : sender ≠ client) {seq : Seq} {later : List Traffic}
    (front : coming sender = .event seq :: later)
    (included : ∀ lastSeq, .snapshot lastSeq ∈ coming client → seq ≤ lastSeq) :
    InStay client room rooms (arrived ++ [.event seq])
      (Function.update coming sender later) := by
  have isComing : .event seq ∈ coming sender := front ▸ List.mem_cons_self
  have rest := holds.setOther_sublist different (front ▸ List.sublist_cons_self _ _)
  have sameOwn : Function.update coming sender later client = coming client :=
    Function.update_of_ne different.symm ..
  have snapshots : ∀ lastSeq, .snapshot lastSeq ∈ arrived ++ [.event seq] →
      .snapshot lastSeq ∈ arrived := by
    intro lastSeq member
    rcases List.mem_append.mp member with before | isNew
    · exact before
    · cases List.mem_singleton.mp isNew
  have stillConfirmed : Confirmed (arrived ++ [.event seq]) → Confirmed arrived :=
    confirmed_of_append_event
  refine { rest with
    bracketed := ?_, arrivedDrawn := ?_, own := ?_, newer := ?_
    reopened := fun confirmed => rest.reopened (stillConfirmed confirmed)
    rejoined := fun confirmed => rest.rejoined (stillConfirmed confirmed) }
  · apply holds.bracketed.append
    · intro earlier member
      cases earlier with
      | event => trivial
      | snapshot lastSeq => exact holds.newer sender seq isComing lastSeq member
      | left => trivial
    · intro _ _ confirmed
      rcases holds.reopened confirmed sender seq isComing with ⟨lastSeq, inOwn, below⟩
      exact absurd (included lastSeq inOwn) (UInt64.not_le.mpr below)
  · intro entry member
    rcases List.mem_append.mp member with before | isNew
    · exact holds.arrivedDrawn entry before
    · rw [List.mem_singleton.mp isNew]
      exact holds.comingDrawn sender _ isComing
  · rw [sameOwn]
    rcases holds.own with none | ⟨lastSeq, one, above⟩ | left
    · exact .inl none
    · refine .inr (.inl ⟨lastSeq, one, ?_⟩)
      intro number member
      rcases List.mem_append.mp member with before | isNew
      · exact above number before
      · cases List.mem_singleton.mp isNew
        exact included lastSeq (one ▸ List.mem_cons_self)
    · exact .inr (.inr left)
  · intro other number isEvent lastSeq member
    exact rest.newer other number isEvent lastSeq (snapshots lastSeq member)

theorem arriveOwn (holds : InStay client room rooms arrived coming) {entry : Traffic}
    (front : coming client = [entry])
    (around : ∀ earlier ∈ arrived, earlier.MayPrecede entry)
    (newer : ∀ lastSeq, entry = .snapshot lastSeq → ∀ sender seq,
      .event seq ∈ coming sender → lastSeq < seq)
    (closed : entry = .left →
      (∀ sender seq, .event seq ∉ coming sender) ∧ ¬ rooms.HasMember room client) :
    InStay client room rooms (arrived ++ [entry])
      (Function.update coming client []) := by
  have noEvent : ∀ seq, entry ≠ .event seq := by
    intro seq isEvent
    exact holds.own.no_event seq (by rw [front, isEvent]; exact List.mem_cons_self)
  have events : ∀ sender seq, .event seq ∈ Function.update coming client [] sender →
      .event seq ∈ coming sender :=
    (Function.forall_update_iff coming fun sender entries => ∀ seq,
      .event seq ∈ entries → .event seq ∈ coming sender).mpr
      ⟨fun _ member => absurd member List.not_mem_nil, fun _ _ _ member => member⟩
  -- a list that ends in the entry is confirmed only if the entry is the confirmation
  have isLeft : Confirmed (arrived ++ [entry]) → entry = .left := by
    intro confirmed
    cases entry with
    | event seq => exact absurd rfl (noEvent seq)
    | snapshot lastSeq => exact absurd confirmed (not_confirmed_append_snapshot _ _)
    | left => rfl
  refine { sound := holds.sound, bracketed := ?_, arrivedDrawn := ?_
           comingDrawn := ?_, onlyEvents := ?_, own := ?_, newer := ?_
           reopened := ?_, rejoined := ?_ }
  · apply holds.bracketed.append around
    intro seq isEvent
    exact absurd isEvent (noEvent seq)
  · intro other member
    rcases List.mem_append.mp member with before | isNew
    · exact holds.arrivedDrawn other before
    · rw [List.mem_singleton.mp isNew]
      exact holds.comingDrawn client entry (front ▸ List.mem_cons_self)
  · exact (Function.forall_update_iff coming fun _ entries => ∀ entry ∈ entries,
      entry.Drawn rooms room).mpr
      ⟨fun _ member => absurd member List.not_mem_nil,
        fun other _ => holds.comingDrawn other⟩
  · exact (Function.forall_update_iff coming fun other entries => other ≠ client →
      ∀ entry ∈ entries, ∃ seq, entry = .event seq).mpr
      ⟨fun isClient => absurd rfl isClient, fun other _ => holds.onlyEvents other⟩
  · rw [Function.update_self]
    exact .inl rfl
  · intro sender seq isEvent lastSeq member
    rcases List.mem_append.mp member with before | isNew
    · exact holds.newer sender seq (events sender seq isEvent) lastSeq before
    · exact newer lastSeq (List.mem_singleton.mp isNew).symm sender seq
        (events sender seq isEvent)
  · intro confirmed sender seq isEvent
    exact absurd (events sender seq isEvent)
      ((closed (isLeft confirmed)).1 sender seq)
  · intro confirmed isMember
    exact absurd isMember (closed (isLeft confirmed)).2

private theorem arriveSnapshot (holds : InStay client room rooms arrived coming)
    {lastSeq : Seq} (front : coming client = [.snapshot lastSeq])
    (newer : ∀ sender seq, .event seq ∈ coming sender → lastSeq < seq) :
    InStay client room rooms (arrived ++ [.snapshot lastSeq])
      (Function.update coming client []) := by
  apply holds.arriveOwn front
  · intro earlier member
    rcases holds.own with none | ⟨number, one, above⟩ | ⟨one, _⟩
    · rw [none] at front
      cases front
    · rw [one] at front
      cases front
      cases earlier with
      | event seq => exact above seq member
      | snapshot => trivial
      | left => trivial
    · rw [one] at front
      cases front
  · intro number same
    cases same
    exact newer
  · intro isLeft
    cases isLeft

private theorem arriveLeft (holds : InStay client room rooms arrived coming)
    (front : coming client = [.left])
    (quiet : ∀ sender seq, .event seq ∉ coming sender) :
    InStay client room rooms (arrived ++ [.left])
      (Function.update coming client []) := by
  apply holds.arriveOwn front
  · intro earlier _
    cases earlier <;> trivial
  · intro number isSnapshot
    cases isSnapshot
  · intro _
    refine ⟨quiet, ?_⟩
    rcases holds.own with none | ⟨number, one, _⟩ | ⟨_, outside⟩
    · rw [none] at front
      cases front
    · rw [one] at front
      cases front
    · exact outside

end InStay

/-! ## Steps of the mail -/

namespace Mail

def StaysInOrder (client : ClientId) (room : RoomId) (mail : Mail) : Prop :=
  InStay client room mail.rooms (mail.arrived (traffic room) client)
    (mail.coming (traffic room) client)

/-- The running handler does not overtake another one with a post about a room:
an event may not pass the recipient's own snapshot that lacks it, and neither a
snapshot nor the confirmation of a leave may pass events from before. -/
def KeepsStays (mail : Mail) (poster : Option ClientId) : Prop :=
  ∀ sender recipient message later room, poster = some sender →
    mail.pending sender = (recipient, message) :: later →
    match traffic room message with
    | some (.event seq) => recipient ≠ sender → recipient ∈ mail.registry → ∀ lastSeq,
        .snapshot lastSeq ∈ mail.coming (traffic room) recipient recipient →
        seq ≤ lastSeq
    | some (.snapshot lastSeq) => ∀ other, other ≠ sender → ∀ seq,
        .event seq ∈ mail.coming (traffic room) recipient other → lastSeq < seq
    | some .left => ∀ other, other ≠ sender → ∀ seq,
        .event seq ∉ mail.coming (traffic room) recipient other
    | none => True

end Mail

namespace InStay

variable {client : ClientId} {room : RoomId} {mail : Mail}

theorem replied (holds : mail.StaysInOrder client room) {sender : ClientId}
    (idle : mail.pending sender = []) {message : ServerMessage}
    (plain : Mail.Plain message) :
    (mail.setPending sender [(sender, message)]).StaysInOrder client room := by
  have before : mail.coming (traffic room) client sender = [] := by
    rw [Mail.coming, idle]
    rfl
  unfold Mail.StaysInOrder
  rw [Mail.coming_setPending, Mail.postsTo_reply_eq_nil (plain.traffic_eq_none room),
    ← before, Function.update_eq_self]
  exact holds

/-- What a client's own call is answered with: nothing about the room, a
snapshot or the confirmation that it has left. -/
theorem calledOwn (holds : mail.StaysInOrder client room)
    (counters : mail.rooms.CountersLeft) {id : RoomId} {stored : Room} {call : Call}
    {posts : List (ClientId × ServerMessage)} (idle : mail.pending client = [])
    (found : mail.rooms.getRoom id = some stored)
    (answers : Mail.Answers client id call (stored.call call).result posts) :
    ({ mail with rooms := mail.rooms.putRoom id (stored.call call).room }.setPending
      client posts).StaysInOrder client room := by
  have kept := holds.sound id stored found
  have sound := holds.sound.putRoom counters found call
  have keeps : ∀ {seq}, mail.rooms.HasDrawn room seq →
      (mail.rooms.putRoom id (stored.call call).room).HasDrawn room seq :=
    (·.putRoom holds.sound counters found call)
  have nothing : mail.coming (traffic room) client client = [] := by
    rw [Mail.coming, idle]
    rfl
  have member : (mail.rooms.putRoom id (stored.call call).room).HasMember room client →
      mail.rooms.HasMember room client ∨ room = id ∧ call = .join client :=
    (·.of_putRoom found)
  unfold Mail.StaysInOrder
  rw [Mail.coming_setPending]
  rcases answers.postsTo_caller kept.sameId kept.holds room with ⟨notJoin, reply⟩ |
    ⟨isRoom, isJoin, reply⟩ | ⟨isRoom, isLeave, reply⟩
  · rw [reply]
    apply holds.setOwn nothing sound keeps (.inl rfl)
    · intro entry isEntry
      cases isEntry
    · intro isMember
      rcases member isMember with before | ⟨isRoom, isJoin⟩
      · exact .inl before
      · exact absurd isJoin (notJoin isRoom)
  · subst isRoom isJoin
    rw [reply]
    apply holds.setOwn nothing sound keeps
    · refine .inr (.inl ⟨stored.lastSeq, rfl, ?_⟩)
      intro seq hasArrived
      exact RoomManager.HasDrawn.le_lastSeq (holds.arrivedDrawn _ hasArrived)
        holds.sound found
    · intro entry isEntry
      rw [List.mem_singleton.mp isEntry]
      exact keeps (holds.sound.lastSeq_drawn found)
    · intro _
      exact .inr ⟨stored.lastSeq, List.mem_cons_self⟩
  · subst isRoom isLeave
    rw [reply]
    apply holds.setOwn nothing sound keeps
    · refine .inr (.inr ⟨rfl, ?_⟩)
      exact RoomManager.not_hasMember_leave
    · intro entry isEntry
      rw [List.mem_singleton.mp isEntry]
      trivial
    · intro isMember
      rcases member isMember with before | ⟨_, isJoin⟩
      · exact .inl before
      · cases isJoin

/-- A call of somebody else sends the client what it issues, if the client is in
that room. -/
theorem calledOther (holds : mail.StaysInOrder client room)
    (counters : mail.rooms.CountersLeft) {caller : ClientId} {id : RoomId}
    {stored : Room} {call : Call} {posts : List (ClientId × ServerMessage)}
    (isOther : caller ≠ client) (found : mail.rooms.getRoom id = some stored)
    (answers : Mail.Answers caller id call (stored.call call).result posts) :
    ({ mail with rooms := mail.rooms.putRoom id (stored.call call).room }.setPending
      caller posts).StaysInOrder client room := by
  have kept := holds.sound id stored found
  have step := Room.call_step kept.holds.toConsistent call
  have different : call.client ≠ client := answers.caller ▸ isOther
  have grown := holds.withRooms (holds.sound.putRoom counters found call)
    (·.putRoom holds.sound counters found call)
    (RoomManager.hasMember_putRoom_other found different)
  unfold Mail.StaysInOrder
  rw [Mail.coming_setPending, answers.postsTo_other kept.sameId step room isOther.symm]
  by_cases concerned : room = id ∧ client ∈ stored.members
  · rw [if_pos concerned]
    rcases concerned with ⟨rfl, isMember⟩
    -- everything known about the room so far is older than what the call issues
    have isNew : ∀ {number seq : Seq}, mail.rooms.HasDrawn room number →
        .event seq ∈ (stored.call call).issued.map
          (fun entry => Traffic.event entry.seq) → number < seq := by
      intro number seq drawn inIssued
      rcases List.mem_map.mp inIssued with ⟨entry, issued, same⟩
      cases same
      exact drawn.lt_issued holds.sound counters found call issued
    apply grown.setOther isOther
    · intro entry inIssued
      rcases List.mem_map.mp inIssued with ⟨issued, _, rfl⟩
      exact ⟨issued.seq, rfl⟩
    · intro entry inIssued
      rcases List.mem_map.mp inIssued with ⟨issued, isIssued, rfl⟩
      exact (holds.sound.issued_drawn counters found call isIssued).1
    · intro seq inIssued lastSeq hasArrived
      exact isNew (holds.arrivedDrawn _ hasArrived) inIssued
    · intro confirmed seq inIssued
      rcases holds.rejoined confirmed ⟨stored, found, isMember⟩ with ⟨lastSeq, inOwn⟩
      exact ⟨lastSeq, inOwn, isNew (holds.comingDrawn client _ inOwn) inIssued⟩
  · rw [if_neg concerned]
    exact grown.setOther_sublist isOther (List.nil_sublist _)

theorem called (holds : mail.StaysInOrder client room)
    (counters : mail.rooms.CountersLeft) {caller : ClientId} {id : RoomId}
    {stored : Room} {call : Call} {posts : List (ClientId × ServerMessage)}
    (idle : mail.pending caller = []) (found : mail.rooms.getRoom id = some stored)
    (answers : Mail.Answers caller id call (stored.call call).result posts) :
    ({ mail with rooms := mail.rooms.putRoom id (stored.call call).room }.setPending
      caller posts).StaysInOrder client room := by
  by_cases isCaller : caller = client
  · subst isCaller
    exact calledOwn holds counters idle found answers
  · exact calledOther holds counters isCaller found answers

theorem posted (holds : mail.StaysInOrder client room) {poster : Option ClientId}
    (keepsStays : mail.KeepsStays poster) {sender recipient : ClientId}
    {message : ServerMessage} {later : List (ClientId × ServerMessage)}
    (isPoster : poster = some sender)
    (isNext : mail.pending sender = (recipient, message) :: later)
    (isOpen : recipient = sender ∨ recipient ∈ mail.registry) :
    ((mail.setPending sender later).append recipient message).StaysInOrder client
      room := by
  unfold Mail.StaysInOrder
  rw [Mail.arrived_append]
  change InStay client room mail.rooms
    (if client = recipient then mail.arrived (traffic room) client ++ _
      else mail.arrived (traffic room) client)
    ((mail.setPending sender later).coming (traffic room) client)
  rw [Mail.coming_setPending]
  have front : mail.coming (traffic room) client sender = _ := Mail.coming_of_next isNext
  have allowed := keepsStays sender recipient message later room isPoster isNext
  by_cases isRecipient : client = recipient
  · subst isRecipient
    rw [if_pos rfl] at front ⊢
    cases kind : traffic room message with
    | none =>
        rw [kind] at front
        simp only [Option.toList_none, List.append_nil]
        rw [← List.nil_append (Mail.postsTo _ _ _), ← Option.toList_none, ← front,
          Function.update_eq_self]
        exact holds
    | some entry =>
        rw [kind] at front allowed
        simp only [Option.toList_some, List.cons_append, List.nil_append] at front ⊢
        by_cases isOwn : sender = client
        · subst isOwn
          -- the client itself has no events to post to itself
          have fromOthers : ∀ {other seq}, .event seq ∈
              mail.coming (traffic room) sender other → other ≠ sender := by
            rintro other seq isComing rfl
            exact holds.own.no_event seq isComing
          rcases holds.own with none | ⟨lastSeq, one, _⟩ | ⟨one, _⟩
          · rw [none] at front
            cases front
          · rw [one] at front
            rcases List.cons.inj front with ⟨rfl, nothing⟩
            rw [← nothing]
            exact holds.arriveSnapshot one fun other seq isComing =>
              allowed other (fromOthers isComing) seq isComing
          · rw [one] at front
            rcases List.cons.inj front with ⟨rfl, nothing⟩
            rw [← nothing]
            exact holds.arriveLeft one fun other seq isComing =>
              allowed other (fromOthers isComing) seq isComing
        · rcases holds.onlyEvents sender isOwn entry (front ▸ List.mem_cons_self) with
            ⟨seq, rfl⟩
          have registered : client ∈ mail.registry := by
            rcases isOpen with isSender | registered
            · exact absurd isSender.symm isOwn
            · exact registered
          exact holds.arriveEvent isOwn front (allowed (Ne.symm isOwn) registered)
  · have notRecipient : recipient ≠ client := fun same => isRecipient same.symm
    rw [if_neg isRecipient]
    rw [if_neg notRecipient] at front
    rw [← front, Function.update_eq_self]
    exact holds

theorem dropped (holds : mail.StaysInOrder client room) {sender : ClientId}
    {event : OutgoingEvent} {later : List (ClientId × ServerMessage)}
    (isNext : mail.pending sender = (event.recipient, toServerMessage event) :: later) :
    (mail.setPending sender later).StaysInOrder client room := by
  unfold Mail.StaysInOrder
  rw [Mail.coming_setPending]
  by_cases isOwn : sender = client
  · -- an event is never for its sender, so nothing of its own is lost
    subst isOwn
    have front : mail.coming (traffic room) sender sender = _ :=
      Mail.coming_of_next isNext
    have same : Mail.postsTo (traffic room) sender later =
        mail.coming (traffic room) sender sender := by
      rw [front]
      split
      next isRecipient =>
        rw [if_pos isRecipient] at front
        cases kind : traffic room (toServerMessage event) with
        | none => rfl
        | some entry =>
            rw [kind] at front
            simp only [toServerMessage, traffic] at kind
            split at kind
            · cases kind
              exact absurd (front ▸ List.mem_cons_self) (holds.own.no_event event.seq)
            · cases kind
      next => rfl
    rw [same, Function.update_eq_self]
    exact holds
  · exact holds.setOther_sublist isOwn (Mail.later_sublist isNext)

end InStay

theorem Mail.StaysInOrder.step {client : ClientId} {room : RoomId} {mail next : Mail}
    {poster : Option ClientId} {made : Option (RoomId × Call)}
    (holds : mail.StaysInOrder client room) (counters : mail.rooms.CountersLeft)
    (keepsStays : mail.KeepsStays poster) (step : mail.Step poster made next) :
    next.StaysInOrder client room := by
  cases step with
  | quiet registry => exact holds
  | replied sender message idle plain => exact InStay.replied holds idle plain
  | created sender idle =>
      have grown : Mail.StaysInOrder client room
          { mail with rooms := mail.rooms.createRoom.1 } :=
        holds.withRooms holds.sound.createRoom (·.createRoom counters)
          (RoomManager.hasMember_createRoom counters.freshId)
      exact InStay.replied grown idle (.roomCreated _)
  | called caller id stored call posts idle found answers =>
      exact InStay.called holds counters idle found answers
  | posted sender recipient message later isPoster isNext isOpen =>
      exact InStay.posted holds keepsStays isPoster isNext isOpen
  | dropped sender event later isNext => exact InStay.dropped holds isNext

/-! ## Runs -/

namespace ServerState

/-- No counter wraps and no post about a room overtakes another one. -/
def KeepsStays (state : ServerState) (action : Action) : Prop :=
  state.CountersLeft ∧ state.mail.KeepsStays action.poster

private theorem start_staysInOrder (sink : Option (List PersistedBoardSnapshot))
    (client : ClientId) (room : RoomId) : (start sink).mail.StaysInOrder client room where
  sound := RoomManager.sound_empty
  bracketed := .nil
  arrivedDrawn _ member := absurd member List.not_mem_nil
  comingDrawn _ _ member := absurd member List.not_mem_nil
  onlyEvents _ _ _ member := absurd member List.not_mem_nil
  own := .inl rfl
  newer _ _ member := absurd member List.not_mem_nil
  reopened _ _ _ member := absurd member List.not_mem_nil
  rejoined confirmed := absurd confirmed not_confirmed_nil

/-- What is queued for a client about a room is bracketed by its snapshots and
the confirmations of its leaves, as long as posts keep to their order. -/
theorem stays_bracketed {sink : Option (List PersistedBoardSnapshot)}
    {actions : List Action} {final : ServerState}
    (runs : system.Runs KeepsStays (start sink) actions final) (client : ClientId)
    (room : RoomId) : Bracketed ((final.queued client).filterMap (traffic room)) := by
  have holds : final.mail.StaysInOrder client room := by
    apply (runs_with_alive runs).invariant _ (start_staysInOrder sink client room)
    rintro state action next ⟨keepsStays, alive⟩ stepped before
    exact before.step keepsStays.1.rooms keepsStays.2
      (step_mail keepsStays.1.freshClient alive stepped)
  have arrived := holds.bracketed
  rcases trail_eq_queued_append final client with ⟨posted, split⟩
  change Bracketed ((final.trail client).filterMap _) at arrived
  rw [split, List.filterMap_append] at arrived
  exact arrived.of_append

private theorem keepsStays_of_undisturbed (state : ServerState) (action : Action)
    (alone : state.undisturbed action = true) : state.KeepsStays action := by
  have counters : state.CountersLeft :=
    of_decide_eq_true (Bool.and_eq_true_iff.mp alone).1
  refine ⟨counters, ?_⟩
  intro sender recipient message later room isPoster _
  have quiet : ∀ {other : ClientId}, other ≠ sender →
      state.mail.coming (traffic room) recipient other = [] := by
    intro other different
    rw [Mail.coming, pending_of_undisturbed alone isPoster different]
    rfl
  cases traffic room message with
  | none => trivial
  | some entry =>
      cases entry with
      | event seq =>
          intro different _ lastSeq isComing
          rw [quiet different] at isComing
          cases isComing
      | snapshot lastSeq =>
          intro other different seq isComing
          rw [quiet different] at isComing
          cases isComing
      | left =>
          intro other different seq isComing
          rw [quiet different] at isComing
          cases isComing

def opening : List Action :=
  [.accept, .accept, .runTask 1, .runTask 2,
    .readLine 1 (.ok .createRoomRequest) 0, .act 1, .act 1,
    .readLine 1 (.ok (.joinRoomRequest 1)) 0, .act 1, .act 1]

/-- Client 2 enters, sees the board being cleared, and leaves. -/
def visiting : List Action := opening ++
  [.readLine 2 (.ok (.joinRoomRequest 1)) 0, .act 2, .act 2,
    .readLine 1 (.ok (.eventRequest 1 .clear)) 1, .act 1, .act 1,
    .readLine 2 (.ok (.leaveRoomRequest 1)) 2, .act 2, .act 2, .act 2,
    .runTask 2, .runTask 2, .runTask 2]

/-- Client 1 clears the board after client 2 has become a member, but the event
is posted before the snapshot of client 2. -/
def interrupting : List Action := opening ++
  [.readLine 2 (.ok (.joinRoomRequest 1)) 0,
    .readLine 1 (.ok (.eventRequest 1 .clear)) 1, .act 1, .act 2, .act 2,
    .runTask 2, .runTask 2]

theorem stays_bracketed_visiting :
    ∃ final, system.Runs KeepsStays (start none) visiting final ∧
      (final.queued 2).filterMap (traffic 1) = [.snapshot 0, .event 1, .left] ∧
      Bracketed ((final.queued 2).filterMap (traffic 1)) := by
  have computed : (system.execute undisturbed (start none) visiting).map
      (fun final => (final.queued 2).filterMap (traffic 1)) =
        some [.snapshot 0, .event 1, .left] := by
    decide
  rcases Option.map_eq_some_iff.mp computed with ⟨final, executed, entries⟩
  have runs := StepSystem.runs_of_execute keepsStays_of_undisturbed executed
  exact ⟨final, runs, entries, stays_bracketed runs 2 1⟩

theorem stays_interrupted :
    ¬ ∀ sink actions final, system.Runs StepSystem.Any (start sink) actions final →
      ∀ client room, Bracketed ((final.queued client).filterMap (traffic room)) := by
  intro always
  have computed : (system.execute StepSystem.unchecked (start none) interrupting).map
      (fun final => (final.queued 2).filterMap (traffic 1)) =
        some [.event 1, .snapshot 0] := by
    decide
  rcases Option.map_eq_some_iff.mp computed with ⟨final, executed, entries⟩
  have runs := StepSystem.runs_of_unchecked executed
  have around := (always none interrupting final runs 2 1).around
  rw [entries] at around
  have included : (1 : Seq) ≤ 0 :=
    (List.pairwise_cons.mp around).1 (.snapshot 0) List.mem_cons_self
  exact absurd included (by decide)

end ServerState

end ClearSpace.Server
