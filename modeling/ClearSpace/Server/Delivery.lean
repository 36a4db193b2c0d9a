import ClearSpace.Foundation.Transit
import ClearSpace.Server.EventOrder
import ClearSpace.Server.Membership
import ClearSpace.Server.RoomCalls

/-! # Delivery of events

However the handlers interleave, a client that is not stopped is sent every event
that its rooms have for it, once each. Only the order of events that different
handlers post is left open. -/

namespace ClearSpace.Core.Room

/-! ## What a room has for a client -/

theorem received_cons (room : Room) (client : ClientId) (call : Call)
    (calls : List Call) :
    room.received client (call :: calls) =
      room.received client [call] ++ (room.call call).room.received client calls := by
  change _ ++ _ = (_ ++ []) ++ _
  rw [List.append_nil]
  rfl

theorem received_append (room : Room) (client : ClientId) (front back : List Call) :
    room.received client (front ++ back) =
      room.received client front ++ (room.run front).received client back := by
  induction front generalizing room with
  | nil => rfl
  | cons call rest induction =>
      rw [List.cons_append, received_cons, induction, received_cons room client call rest,
        List.append_assoc]
      rfl

theorem received_sublist {room : Room} {calls : List Call} (client : ClientId)
    (holds : room.Invariant) (fits : machine.Along Fits room calls) :
    (room.received client calls).Sublist (room.history calls) := by
  induction calls generalizing room with
  | nil => exact List.Sublist.refl _
  | cons call rest induction =>
      have step := call_step holds.toConsistent call
      rw [received_cons, history_cons]
      refine List.Sublist.append ?_ (induction (call_invariant fits.1 holds) fits.2)
      change (((room.call call).events.filter _).map _ ++ []).Sublist _
      rw [List.append_nil]
      by_cases concerned : client ∈ room.members ∧ call.client ≠ client
      · rw [step.received concerned.1 concerned.2]
      · have nothing : ((room.call call).events.filter fun event =>
            event.recipient = client) = [] := by
          rw [step.events_eq, List.filter_eq_nil_iff]
          intro event member isClient
          rcases List.mem_flatMap.mp member with ⟨entry, _, announced⟩
          rcases List.mem_map.mp announced with ⟨recipient, isOther, rfl⟩
          rcases UnorderedSet.mem_others.mp isOther with ⟨different, isMember⟩
          have same : recipient = client := of_decide_eq_true isClient
          exact concerned ⟨same ▸ isMember, same ▸ different.symm⟩
        rw [nothing]
        exact List.nil_sublist _

/-- No event of a room is sent to a client twice. -/
theorem received_nodup {room : Room} {calls : List Call} (client : ClientId)
    (holds : room.Invariant) (fits : machine.Along Fits room calls) :
    ((room.received client calls).map Issued.seq).Nodup := by
  have numbered : ((room.history calls).map fun entry => entry.seq.toNat).Nodup := by
    rw [history_seqs holds fits]
    exact List.nodup_range'
  have apart : ((room.history calls).map Issued.seq).Nodup := by
    apply List.Nodup.of_map UInt64.toNat
    rw [List.map_map]
    exact numbered
  exact apart.sublist ((received_sublist client holds fits).map _)

end ClearSpace.Core.Room

namespace ClearSpace.Server

open ClearSpace.Core ClearSpace.Transport

def eventOf (room : RoomId) : ServerMessage → Option (Seq × EventDto)
  | .event id seq payload => if id = room then some (seq, payload) else none
  | _ => none

def wireEvent (entry : Issued) : Seq × EventDto := (entry.seq, toEventDto entry.payload)

namespace Mail

/-! ## Posting -/

section Posting

variable {Kind : Type} {classify : ServerMessage → Option Kind} {mail : Mail}
  {client sender recipient : ClientId} {message : ServerMessage}
  {later : List (ClientId × ServerMessage)}

/-- A message that is about to be posted, as far as it is of some kind and for the
client. -/
def headFor (classify : ServerMessage → Option Kind) (client recipient : ClientId)
    (message : ServerMessage) : List Kind :=
  if recipient = client then (classify message).toList else []

theorem coming_headFor
    (isNext : mail.pending sender = (recipient, message) :: later) :
    mail.coming classify client sender =
      headFor classify client recipient message ++ postsTo classify client later := by
  rw [coming_of_next isNext, headFor]
  split <;> rfl

theorem arrived_headFor :
    ((mail.setPending sender later).append recipient message).arrived classify client =
      mail.arrived classify client ++ headFor classify client recipient message := by
  rw [arrived_append, headFor]
  by_cases same : client = recipient
  · rw [if_pos same, if_pos same.symm]
    rfl
  · rw [if_neg same, if_neg (Ne.symm same), List.append_nil]
    rfl

theorem coming_posted :
    ((mail.setPending sender later).append recipient message).coming classify client =
      Function.update (mail.coming classify client) sender
        (postsTo classify client later) :=
  coming_setPending

end Posting

/-! ## Events of a call -/

theorem Plain.eventOf_eq_none {message : ServerMessage} (plain : Plain message)
    (room : RoomId) : eventOf room message = none := by
  cases plain <;> rfl

private theorem postsTo_eventOf_outgoing {id : RoomId} {events : List OutgoingEvent}
    (ofRoom : ∀ event ∈ events, event.room = id) (about : RoomId) (client : ClientId) :
    postsTo (eventOf about) client (outgoing events) =
      if about = id then
        ((events.filter fun event => event.recipient = client).map
          fun event => (⟨event.seq, event.payload⟩ : Issued)).map wireEvent
      else [] := by
  induction events with
  | nil => simp [postsTo, outgoing]
  | cons event rest induction =>
      have later := induction fun other member => ofRoom other (.tail _ member)
      have isRoom := ofRoom event (.head _)
      change postsTo (eventOf about) client
        ((event.recipient, toServerMessage event) :: outgoing rest) = _
      rw [postsTo, List.filterMap_cons, ← postsTo, later]
      by_cases toClient : event.recipient = client
      · by_cases same : about = id
        · simp [toClient, same, isRoom, eventOf, toServerMessage, wireEvent]
        · simp [same, isRoom, eventOf, toServerMessage, Ne.symm same]
      · simp [toClient]

/-- The events that a call leads to are posted to their recipients, and nothing
else that it leads to is an event. -/
theorem Answers.postsTo_eventOf {caller : ClientId} {id : RoomId} {room : Room}
    {call : Call} {posts : List (ClientId × ServerMessage)} (sameId : room.id = id)
    (holds : room.Invariant)
    (answers : Answers caller id call (room.call call).result posts) (about : RoomId)
    (client : ClientId) :
    postsTo (eventOf about) client posts =
      if about = id then (room.received client [call]).map wireEvent else [] := by
  have step := Room.call_step holds.toConsistent call
  have ofRoom : ∀ event ∈ (room.call call).events, event.room = id :=
    fun event member => (mem_events step member).1.trans sameId
  have passed := postsTo_eventOf_outgoing ofRoom about client
  have received : room.received client [call] =
      (((room.call call).events.filter fun event => event.recipient = client).map
        fun event => (⟨event.seq, event.payload⟩ : Issued)) :=
    List.append_nil _
  rw [received]
  generalize sent : (room.call call).events = events at passed
  unfold Outcome.events at sent
  generalize (room.call call).result = result at answers sent
  cases answers with
  | silent => simp [postsTo, ← sent]
  | refused => simp [postsTo, ← sent, toErrorMessage, eventOf]
  | joined snapshot => simp [postsTo, ← sent, toSnapshotMessage, eventOf]
  | stopped events =>
      cases sent
      exact passed
  | left events =>
      cases sent
      rw [postsTo, List.filterMap_append, ← postsTo, passed]
      simp [eventOf]
  | applied event now events =>
      cases sent
      exact passed

end Mail

/-! ## Steps -/

namespace ServerState

section Places

variable {state next : ServerState} {action : Action} {client : ClientId}

theorem mem_sessions_iff : client ∈ state.sessions ↔ ∃ place,
    state.place client = some place := by
  rw [← AList.lookup_isSome, Option.isSome_iff_exists]
  simp [place]

theorem step_place (fresh : state.nextClientId ∉ state.sessions)
    (stepped : state.step action = some next) {before : Place}
    (was : state.place client = some before) :
    ∃ after, next.place client = some after ∧
      (before.stopped = true → after.stopped = true) := by
  have kept : ∀ (other : ClientId) (after : Place),
      next.place = Function.update state.place other (some after) →
      (other = client → before.stopped = true → after.stopped = true) →
      ∃ after, next.place client = some after ∧
        (before.stopped = true → after.stopped = true) := by
    intro other after places stays
    rw [places]
    by_cases same : client = other
    · subst same
      exact ⟨after, Function.update_self .., stays rfl⟩
    · exact ⟨before, (Function.update_of_ne same ..).trans was, id⟩
  cases step_moved stepped with
  | stayed _ _ core place => exact ⟨before, place ▸ was, id⟩
  | accepted _ core place =>
      apply kept _ _ place
      rintro rfl
      exact absurd (mem_sessions_iff.mpr ⟨before, was⟩) fresh
  | stopped _ _ other currentRoom isOther core place => exact kept _ _ place (by simp)
  | handled other request now _ earlier handled isOther served core place =>
      apply kept _ _ place
      rintro rfl
      rw [was] at isOther
      cases isOther
      exact id

theorem step_mem_sessions (fresh : state.nextClientId ∉ state.sessions)
    (stepped : state.step action = some next) (known : client ∈ state.sessions) :
    client ∈ next.sessions := by
  rcases mem_sessions_iff.mp known with ⟨before, was⟩
  rcases step_place fresh stepped was with ⟨after, isAfter, _⟩
  exact mem_sessions_iff.mpr ⟨after, isAfter⟩

def NotStopped (state : ServerState) (client : ClientId) : Prop :=
  ∀ session, state.sessions.lookup client = some session → session.stopped = false

theorem NotStopped.before (fresh : state.nextClientId ∉ state.sessions)
    (stepped : state.step action = some next) (running : next.NotStopped client) :
    state.NotStopped client := by
  intro session found
  rcases step_place fresh stepped (place_of_found found) with ⟨after, isAfter, stays⟩
  rcases Option.map_eq_some_iff.mp isAfter with ⟨later, isLater, rfl⟩
  have runs := running later isLater
  by_contra stopped
  have isStopped := stays ((Bool.not_eq_false _).mp stopped)
  change later.stopped = true at isStopped
  rw [isStopped] at runs
  cases runs

theorem Alive.registered (alive : state.Alive) (known : client ∈ state.sessions)
    (running : state.NotStopped client) : client ∈ state.registry := by
  rcases Option.isSome_iff_exists.mp (AList.lookup_isSome.mpr known) with
    ⟨session, found⟩
  exact (alive.lives client session found).registration.mpr
    (.inl (running session found))

end Places

structure Ordinary (state : ServerState) : Prop where
  sound : state.core.rooms.Sound
  settled : state.Settled
  alive : state.Alive

theorem start_ordinary (sink : Option (List PersistedBoardSnapshot)) :
    (start sink).Ordinary where
  sound := RoomManager.sound_empty
  settled client id := ⟨fun ⟨_, isRoom, _⟩ => (by cases isRoom), nofun⟩
  alive := start_alive sink

private theorem Counted.uniqueIds {state : ServerState} {action : Action}
    (counted : state.Counted action) : state.UniqueIds action := by
  unfold UniqueIds
  split
  · exact counted.freshClient
  · exact counted.rooms.freshId
  · trivial

theorem step_ordinary (state : ServerState) (action : Action) (next : ServerState)
    (counted : state.Counted action) (stepped : system.step state action = some next)
    (ordinary : state.Ordinary) : next.Ordinary where
  sound := step_sound state action next counted stepped ordinary.sound
  settled := step_settled state action next counted.uniqueIds stepped ordinary.settled
  alive := step_alive state action next stepped ordinary.alive

/-! ## The invariant -/

/-- Every event that a room had for a client so far is with it, under way or
lost, and it is lost only once the client was stopped. -/
structure Carries (client : ClientId) (room : RoomId) (state : ServerState)
    (calls : List Call) : Prop where
  hosted : StepSystem.Hosted Room.machine Room.Fits (Room.new room)
    (state.core.rooms.getRoom room) calls
  addressed : ∀ sender, state.mail.coming (eventOf room) client sender ≠ [] →
    client ∈ state.sessions
  balanced : ∃ lost,
    Conserved (((Room.new room).received client calls).map wireEvent) lost
      (state.mail.arrived (eventOf room) client)
      (state.mail.coming (eventOf room) client) ∧
    (state.NotStopped client → lost = [])

private theorem start_carries (sink : Option (List PersistedBoardSnapshot))
    (client : ClientId)
    (room : RoomId) : (start sink).Carries client room [] where
  hosted := .inl ⟨rfl, rfl⟩
  addressed _ something := absurd rfl something
  balanced := ⟨[], .nil, fun _ => rfl⟩

section Steps

variable {client : ClientId} {room : RoomId} {mail : Mail} {calls : List Call}

theorem conserved_load {sent lost : List (Seq × EventDto)}
    (conserved : Conserved sent lost (mail.arrived (eventOf room) client)
      (mail.coming (eventOf room) client)) {caller : ClientId}
    (idle : mail.pending caller = []) (rooms : RoomManager)
    (posts : List (ClientId × ServerMessage)) :
    Conserved (sent ++ Mail.postsTo (eventOf room) client posts) lost
      (({ mail with rooms := rooms }.setPending caller posts).arrived (eventOf room)
        client)
      (({ mail with rooms := rooms }.setPending caller posts).coming (eventOf room)
        client) := by
  have nothing : mail.coming (eventOf room) client caller = [] := by
    rw [Mail.coming, idle]
    rfl
  rw [Mail.coming_setPending]
  exact conserved.load nothing _

variable {state next : ServerState} {action : Action}

private theorem Ordinary.mem_sessions_of_received (ordinary : state.Ordinary)
    {id : RoomId}
    {stored : Room} (found : state.core.rooms.getRoom id = some stored) {call : Call}
    (something : stored.received client [call] ≠ []) : client ∈ state.sessions := by
  have kept := ordinary.sound id stored found
  have step := Room.call_step kept.holds.toConsistent call
  have received : stored.received client [call] =
      (((stored.call call).events.filter fun event => event.recipient = client).map
        fun event => (⟨event.seq, event.payload⟩ : Issued)) :=
    List.append_nil _
  rw [received, ne_eq, List.map_eq_nil_iff] at something
  rcases List.exists_mem_of_ne_nil _ something with ⟨event, member⟩
  rcases List.mem_filter.mp member with ⟨inEvents, isClient⟩
  have isMember := (mem_events step inEvents).2.1
  rw [of_decide_eq_true isClient] at isMember
  have inside := (ordinary.settled client id).mp ⟨stored, found, isMember⟩
  rcases Option.bind_eq_some_iff.mp inside with ⟨place, isPlace, _⟩
  exact mem_sessions_iff.mpr ⟨place, isPlace⟩

private theorem Carries.addressed_step (carries : state.Carries client room calls)
    (counted : state.Counted action) (ordinary : state.Ordinary)
    (stepped : state.step action = some next) {sender : ClientId}
    (something : next.mail.coming (eventOf room) client sender ≠ []) :
    client ∈ next.sessions := by
  apply step_mem_sessions counted.freshClient stepped
  have mailed := step_mail counted.freshClient ordinary.alive stepped
  generalize next.mail = nextMail at mailed something
  generalize state.roomCall action = made at mailed
  -- a load of posts for one sender, or fewer posts than before
  have loaded : ∀ (caller : ClientId) (rooms : RoomManager)
      (posts : List (ClientId × ServerMessage)),
      ({ state.mail with rooms := rooms }.setPending caller posts).coming (eventOf room)
        client sender ≠ [] →
      (Mail.postsTo (eventOf room) client posts ≠ [] → client ∈ state.sessions) →
      client ∈ state.sessions := by
    intro caller rooms posts isComing isNew
    rw [Mail.coming_setPending] at isComing
    by_cases same : sender = caller
    · subst same
      rw [Function.update_self] at isComing
      exact isNew isComing
    · rw [Function.update_of_ne same] at isComing
      exact carries.addressed sender isComing
  cases mailed with
  | quiet => exact carries.addressed sender something
  | replied caller message idle plain =>
      refine loaded caller state.mail.rooms _ something ?_
      rw [Mail.postsTo_reply_eq_nil (plain.eventOf_eq_none room)]
      exact absurd rfl
  | created caller idle =>
      refine loaded caller _ _ something ?_
      rw [Mail.postsTo_reply_eq_nil rfl]
      exact absurd rfl
  | called caller id stored call posts idle found answers =>
      have kept := ordinary.sound id stored found
      refine loaded caller _ posts something ?_
      rw [answers.postsTo_eventOf kept.sameId kept.holds]
      split
      · intro isNew
        apply ordinary.mem_sessions_of_received found
        intro nothing
        rw [nothing] at isNew
        exact isNew rfl
      · exact absurd rfl
  | posted other recipient message later isPoster isNext =>
      rw [Mail.coming_posted, ← Mail.coming_setPending] at something
      refine loaded other state.mail.rooms later something ?_
      intro isLater
      apply carries.addressed other
      rw [Mail.coming_headFor isNext]
      exact fun nothing => isLater (List.append_eq_nil_iff.mp nothing).2
  | dropped other event later isNext =>
      refine loaded other state.mail.rooms later something ?_
      intro isLater
      apply carries.addressed other
      rw [Mail.coming_headFor isNext]
      exact fun nothing => isLater (List.append_eq_nil_iff.mp nothing).2

private theorem Carries.balanced_step (carries : state.Carries client room calls)
    (counted : state.Counted action) (ordinary : state.Ordinary)
    (stepped : state.step action = some next) :
    ∃ lost,
      Conserved (((Room.new room).received client
          (calls ++ (state.callOn room action).toList)).map wireEvent) lost
        (next.mail.arrived (eventOf room) client)
        (next.mail.coming (eventOf room) client) ∧
      (next.NotStopped client → lost = []) := by
  have mailed := step_mail counted.freshClient ordinary.alive stepped
  rcases carries.balanced with ⟨lost, conserved, kept⟩
  have stillKept : next.NotStopped client → lost = [] :=
    fun running => kept (running.before counted.freshClient stepped)
  rw [Room.received_append, List.map_append]
  generalize next.mail = nextMail at mailed
  generalize made : state.roomCall action = label at mailed
  -- without a call on the room there is nothing new to send
  have quietly : ∀ {arrived : List (Seq × EventDto)}
      {coming : ClientId → List (Seq × EventDto)} {lost : List (Seq × EventDto)},
      state.callOn room action = none →
      Conserved (((Room.new room).received client calls).map wireEvent) lost arrived
        coming →
      Conserved (((Room.new room).received client calls).map wireEvent ++
        (((Room.new room).run calls).received client
          (state.callOn room action).toList).map wireEvent) lost arrived coming := by
    intro arrived coming lost nothing same
    rw [nothing]
    exact (List.append_nil _).symm ▸ same
  cases mailed with
  | quiet registry =>
      exact ⟨lost, quietly (callOn_of_none made room) conserved, stillKept⟩
  | replied caller message idle plain =>
      have loaded := conserved_load conserved idle state.mail.rooms [(caller, message)]
      rw [Mail.postsTo_reply_eq_nil (plain.eventOf_eq_none room), List.append_nil]
        at loaded
      exact ⟨lost, quietly (callOn_of_none made room) loaded, stillKept⟩
  | created caller idle =>
      have loaded := conserved_load conserved idle state.mail.rooms.createRoom.1
        [(caller, .roomCreatedResponse state.mail.rooms.createRoom.2)]
      rw [Mail.postsTo_reply_eq_nil rfl, List.append_nil] at loaded
      exact ⟨lost, quietly (callOn_of_none made room) loaded, stillKept⟩
  | called caller id stored call posts idle found answers =>
      have fine := ordinary.sound id stored found
      have loaded := conserved_load conserved idle
        (state.mail.rooms.putRoom id (stored.call call).room) posts
      rw [answers.postsTo_eventOf fine.sameId fine.holds] at loaded
      refine ⟨lost, ?_, stillKept⟩
      by_cases same : room = id
      · subst same
        have isRun : stored = (Room.new room).run calls := by
          rcases carries.hosted with ⟨missing, _⟩ | ⟨isRun, _⟩
          · exact absurd (missing.symm.trans found) nofun
          · exact Option.some.inj (found.symm.trans isRun)
        rw [callOn_of_roomCall made, if_pos rfl, ← isRun]
        rw [if_pos rfl] at loaded
        exact loaded
      · rw [if_neg same, List.append_nil] at loaded
        have nothing : state.callOn room action = none := by
          rw [callOn_of_roomCall made, if_neg (Ne.symm same)]
        exact quietly nothing loaded
  | posted sender recipient message later isPoster isNext =>
      have handed := conserved.arrive (Mail.coming_headFor isNext)
      rw [← Mail.arrived_headFor, ← Mail.coming_posted] at handed
      exact ⟨lost, quietly (callOn_of_none made room) handed, stillKept⟩
  | dropped sender event later isNext unregistered =>
      have handed := conserved.lose (Mail.coming_headFor isNext)
      rw [← Mail.coming_setPending] at handed
      refine ⟨_, quietly (callOn_of_none made room) handed, ?_⟩
      intro running
      have wasRunning := running.before counted.freshClient stepped
      rw [kept wasRunning, List.nil_append]
      by_contra something
      -- a client that was not stopped is registered, so this was not for it
      have known : client ∈ state.sessions := by
        apply carries.addressed sender
        rw [Mail.coming_headFor isNext]
        exact fun nothing => something (List.append_eq_nil_iff.mp nothing).1
      have isClient : event.recipient = client := by
        by_contra different
        exact something (if_neg different)
      rw [isClient] at unregistered
      exact unregistered (ordinary.alive.registered known wasRunning)

theorem Carries.step (carries : state.Carries client room calls)
    (counted : state.Counted action) (ordinary : state.Ordinary)
    (stepped : state.step action = some next) :
    next.Carries client room (calls ++ (state.callOn room action).toList) where
  hosted := (hosts_room room).hosted_step ⟨counted, ordinary.sound⟩ stepped
    carries.hosted
  addressed _ := carries.addressed_step counted ordinary stepped
  balanced := carries.balanced_step counted ordinary stepped

end Steps

/-! ## Runs -/

theorem runs_carries {sink : Option (List PersistedBoardSnapshot)}
    {actions : List Action} {final : ServerState}
    (runs : system.Runs Counted (start sink) actions final) (client : ClientId)
    (room : RoomId) : final.Carries client room (callsOn sink room actions) := by
  apply (runs.with_invariant step_ordinary (start_ordinary sink)).invariant_noted _
    (start_carries sink client room)
  intro state action next calls allowed stepped carries
  exact carries.step allowed.1 allowed.2 stepped

theorem coming_of_posted {Kind : Type} {classify : ServerMessage → Option Kind}
    {state : ServerState} {client : ClientId}
    (posted : ∀ sender, ∀ post ∈ state.pending sender, post.1 ≠ client)
    (sender : ClientId) : state.mail.coming classify client sender = [] := by
  apply List.filterMap_eq_nil_iff.mpr
  intro post member
  exact if_neg (posted sender post member)

theorem Carries.arrived_perm {client : ClientId} {room : RoomId} {state : ServerState}
    {calls : List Call} (carries : state.Carries client room calls)
    (running : state.NotStopped client)
    (posted : ∀ sender, ∀ post ∈ state.pending sender, post.1 ≠ client) :
    ((state.trail client).filterMap (eventOf room)).Perm
      (((Room.new room).received client calls).map wireEvent) := by
  rcases carries.balanced with ⟨lost, conserved, kept⟩
  have balance := conserved.perm_of_empty (coming_of_posted posted)
  rw [kept running, List.nil_append] at balance
  exact balance.symm

/-- In every interleaving what has been posted to a client about a room was meant
for it, and nothing was posted twice. A client that was not stopped has been sent
all of it once no handler has anything left to post to it. -/
theorem events_delivered_once {sink : Option (List PersistedBoardSnapshot)}
    {actions : List Action} {final : ServerState}
    (runs : system.Runs Counted (start sink) actions final) (client : ClientId)
    (room : RoomId) :
    let sent := ((Room.new room).received client (callsOn sink room actions)).map
      wireEvent
    let arrived := (final.trail client).filterMap (eventOf room)
    (sent.map Prod.fst).Nodup ∧ arrived.Subperm sent ∧
      (final.NotStopped client →
        (∀ sender, ∀ post ∈ final.pending sender, post.1 ≠ client) →
        arrived.Perm sent) := by
  intro sent arrived
  have carries := runs_carries runs client room
  rcases carries.balanced with ⟨lost, conserved, _⟩
  refine ⟨?_, conserved.arrived_subperm, ?_⟩
  · rw [List.map_map]
    rcases carries.hosted with ⟨_, nothing⟩ | ⟨_, fits⟩
    · simp only [nothing]
      exact .nil
    · exact Room.received_nodup client (Room.new_invariant room) fits
  · exact carries.arrived_perm

def nothingFor (state : ServerState) (client : ClientId) : Bool :=
  state.sessions.entries.all fun entry =>
    (entry.2.pending entry.1).all fun post => decide (post.1 ≠ client)

theorem posted_of_nothingFor {state : ServerState} {client : ClientId}
    (nothing : state.nothingFor client = true) (sender : ClientId) :
    ∀ post ∈ state.pending sender, post.1 ≠ client := by
  intro post member
  unfold pending at member
  cases found : state.sessions.lookup sender with
  | none =>
      rw [found] at member
      cases member
  | some session =>
      rw [found] at member
      have entry := List.all_eq_true.mp nothing ⟨sender, session⟩
        (AList.mem_lookup_iff.mp found)
      exact of_decide_eq_true (List.all_eq_true.mp entry post member)

/-- Clients 1 and 2 clear the board at once and client 3 is told of both, of the
second one first. -/
theorem events_delivered_once_crossing :
    ∃ final, system.Runs Counted (start none) crossing final ∧
      (final.trail 3).filterMap (eventOf 1) = [(2, .clear 2), (1, .clear 1)] ∧
      ((final.trail 3).filterMap (eventOf 1)).Perm
        (((Room.new 1).received 3 (callsOn none 1 crossing)).map wireEvent) := by
  have executed : ∃ final session,
      system.execute counted (start none) crossing = some final ∧
        (final.trail 3).filterMap (eventOf 1) = [(2, .clear 2), (1, .clear 1)] ∧
        final.nothingFor 3 = true ∧ final.sessions.lookup 3 = some session ∧
        session.stopped = false :=
    ⟨_, _, rfl, rfl, rfl, rfl, rfl⟩
  rcases executed with ⟨final, session, executed, arrived, nothing, found, running⟩
  have runs := StepSystem.runs_of_execute counted_sound executed
  have notStopped : final.NotStopped 3 := by
    intro other isFound
    rw [found] at isFound
    cases isFound
    exact running
  exact ⟨final, runs, arrived, (events_delivered_once runs 3 1).2.2 notStopped
    (posted_of_nothingFor nothing)⟩

end ServerState

end ClearSpace.Server
