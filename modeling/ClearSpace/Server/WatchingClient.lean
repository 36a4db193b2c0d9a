import ClearSpace.Server.Delivery
import ClearSpace.Transport.BoardView

/-! # A client that watches

A client that has joined a room and only watches is sent a snapshot and, in some
order, the events since. If it goes by their numbers, it shows the board of the
room in every interleaving. -/

namespace ClearSpace.Core.Room

/-! ## What a room has for a client that joins -/

def welcomed (room : Room) (client : ClientId) : List Call → List RoomSnapshot
  | [] => []
  | call :: rest =>
      (if call = .join client then [(room.addMember client).snapshot] else []) ++
        (room.call call).room.welcomed client rest

theorem welcomed_append (room : Room) (client : ClientId) (front back : List Call) :
    room.welcomed client (front ++ back) =
      room.welcomed client front ++ (room.run front).welcomed client back := by
  induction front generalizing room with
  | nil => rfl
  | cons call rest induction =>
      rw [List.cons_append, welcomed, welcomed, induction, List.append_assoc]
      rfl

theorem welcomed_silent (room : Room) {client : ClientId} {calls : List Call}
    (silent : ∀ call ∈ calls, call.client ≠ client) : room.welcomed client calls = [] := by
  induction calls generalizing room with
  | nil => rfl
  | cons call rest induction =>
      have notJoin : call ≠ .join client := by
        rintro rfl
        exact silent _ (.head _) rfl
      rw [welcomed, if_neg notJoin, List.nil_append]
      exact induction _ fun other member => silent other (.tail _ member)

end ClearSpace.Core.Room

namespace ClearSpace.Server

open ClearSpace.Core ClearSpace.Transport

def snapshotOf (room : RoomId) : ServerMessage → Option (Seq × BoardView)
  | .roomSnapshotResponse id lastSeq _ strokes cursors =>
      if id = room then some (lastSeq, .ofSnapshot strokes cursors) else none
  | _ => none

def wireSnapshot (snapshot : RoomSnapshot) : Seq × BoardView :=
  (snapshot.lastSeq, .ofBoard snapshot.state)

private theorem snapshotOf_toSnapshotMessage (room : RoomId) (snapshot : RoomSnapshot) :
    snapshotOf room (toSnapshotMessage snapshot) =
      if snapshot.room = room then some (wireSnapshot snapshot) else none := by
  cases message : toSnapshotMessage snapshot with
  | roomSnapshotResponse id lastSeq members strokes cursors =>
      rw [snapshotOf, BoardView.ofSnapshot_eq message]
      cases message
      rfl
  | _ => cases message

namespace Mail

private theorem Plain.snapshotOf_eq_none {message : ServerMessage} (plain : Plain message)
    (room : RoomId) : snapshotOf room message = none := by
  cases plain <;> rfl

theorem postsTo_snapshotOf_outgoing (room : RoomId) (client : ClientId)
    (events : List OutgoingEvent) :
    postsTo (snapshotOf room) client (outgoing events) = [] := by
  apply List.filterMap_eq_nil_iff.mpr
  intro post member
  rcases List.mem_map.mp member with ⟨event, _, rfl⟩
  exact ite_self _

private theorem Answers.postsTo_snapshotOf {caller : ClientId} {id : RoomId} {room : Room}
    {call : Call} {posts : List (ClientId × ServerMessage)} (sameId : room.id = id)
    (answers : Answers caller id call (room.call call).result posts) (about : RoomId)
    (client : ClientId) :
    postsTo (snapshotOf about) client posts =
      if about = id then (room.welcomed client [call]).map wireSnapshot else [] := by
  have notJoin : ∀ error, (room.call call).result = .error error →
      room.welcomed client [call] = [] := by
    intro error failed
    rw [Room.welcomed, if_neg]
    · rfl
    · rintro rfl
      cases failed
  generalize answered : (room.call call).result = result at answers
  cases answers with
  | silent call error =>
      rw [notJoin error answered, List.map_nil, ite_self]
      rfl
  | refused call error =>
      rw [notJoin error answered, List.map_nil, ite_self]
      exact postsTo_reply_eq_nil rfl
  | joined snapshot =>
      cases answered
      have isRoom : (room.addMember caller).snapshot.room = id := sameId
      simp only [postsTo, List.filterMap_cons, List.filterMap_nil,
        snapshotOf_toSnapshotMessage, isRoom, Room.welcomed, List.append_nil,
        Call.join.injEq]
      by_cases isCaller : caller = client
      · subst isCaller
        by_cases same : about = id
        · simp [same]
        · simp [same, Ne.symm same]
      · simp [isCaller]
  | stopped events =>
      rw [postsTo_snapshotOf_outgoing]
      simp [Room.welcomed]
  | left events =>
      rw [postsTo, List.filterMap_append, ← postsTo, postsTo_snapshotOf_outgoing]
      simp [snapshotOf, Room.welcomed]
  | applied event now events =>
      rw [postsTo_snapshotOf_outgoing]
      simp [Room.welcomed]

end Mail

/-! ## Snapshots arrive in order -/

namespace ServerState

/-- The snapshots of a room for a client are posted by its own handlers, one
after the other. -/
structure Welcomes (client : ClientId) (room : RoomId) (state : ServerState)
    (calls : List Call) : Prop where
  hosted : StepSystem.Hosted Room.machine Room.Fits (Room.new room)
    (state.core.rooms.getRoom room) calls
  own : state.mail.arrived (snapshotOf room) client ++
      state.mail.coming (snapshotOf room) client client =
    ((Room.new room).welcomed client calls).map wireSnapshot
  others : ∀ sender, sender ≠ client →
    state.mail.coming (snapshotOf room) client sender = []

private theorem start_welcomes (sink : Option (List PersistedBoardSnapshot))
    (client : ClientId)
    (room : RoomId) : (start sink).Welcomes client room [] where
  hosted := .inl ⟨rfl, rfl⟩
  own := rfl
  others _ _ := rfl

section Steps

variable {client : ClientId} {room : RoomId} {state next : ServerState}
  {action : Action} {calls : List Call}

theorem Welcomes.load (welcomes : state.Welcomes client room calls) {caller : ClientId}
    (idle : state.mail.pending caller = []) (rooms : RoomManager)
    {posts : List (ClientId × ServerMessage)} {taken : List Call}
    (isNew : Mail.postsTo (snapshotOf room) client posts =
      (((Room.new room).run calls).welcomed client taken).map wireSnapshot)
    (byCaller : ∀ call ∈ taken, call.client = caller) :
    let mail := { state.mail with rooms := rooms }.setPending caller posts
    (mail.arrived (snapshotOf room) client ++
        mail.coming (snapshotOf room) client client =
      ((Room.new room).welcomed client (calls ++ taken)).map wireSnapshot) ∧
      ∀ sender, sender ≠ client → mail.coming (snapshotOf room) client sender = [] := by
  intro mail
  have own := welcomes.own
  have coming : mail.coming (snapshotOf room) client =
      Function.update (state.mail.coming (snapshotOf room) client) caller
        (Mail.postsTo (snapshotOf room) client posts) := Mail.coming_setPending
  change state.mail.arrived (snapshotOf room) client ++ _ = _ ∧ _
  rw [coming, Room.welcomed_append, List.map_append]
  by_cases isCaller : caller = client
  · subst isCaller
    have nothing : state.mail.coming (snapshotOf room) caller caller = [] := by
      rw [Mail.coming, idle]
      rfl
    rw [nothing, List.append_nil] at own
    rw [Function.update_self, own, isNew]
    refine ⟨rfl, ?_⟩
    intro sender different
    rw [Function.update_of_ne different]
    exact welcomes.others sender different
  · have silent : ((Room.new room).run calls).welcomed client taken = [] := by
      apply Room.welcomed_silent
      intro call member
      rw [byCaller call member]
      exact isCaller
    rw [silent, List.map_nil] at isNew
    rw [silent, List.map_nil, List.append_nil, Function.update_of_ne (Ne.symm isCaller),
      isNew]
    refine ⟨own, ?_⟩
    intro sender different
    by_cases same : sender = caller
    · rw [same, Function.update_self]
    · rw [Function.update_of_ne same]
      exact welcomes.others sender different

theorem Welcomes.flow (welcomes : state.Welcomes client room calls)
    (counted : state.Counted action) (ordinary : state.Ordinary)
    (stepped : state.step action = some next) :
    (next.mail.arrived (snapshotOf room) client ++
        next.mail.coming (snapshotOf room) client client =
      ((Room.new room).welcomed client
        (calls ++ (state.callOn room action).toList)).map wireSnapshot) ∧
      ∀ sender, sender ≠ client →
        next.mail.coming (snapshotOf room) client sender = [] := by
  have mailed := step_mail counted.freshClient ordinary.alive stepped
  generalize next.mail = nextMail at mailed
  generalize made : state.roomCall action = label at mailed
  cases mailed with
  | quiet registry =>
      rw [callOn_of_none made, Option.toList_none, List.append_nil]
      exact ⟨welcomes.own, welcomes.others⟩
  | replied caller message idle plain =>
      rw [callOn_of_none made]
      exact welcomes.load idle state.mail.rooms
        (Mail.postsTo_reply_eq_nil (plain.snapshotOf_eq_none room)) nofun
  | created caller idle =>
      rw [callOn_of_none made]
      exact welcomes.load idle _ (Mail.postsTo_reply_eq_nil rfl) nofun
  | called caller id stored call posts idle found answers =>
      have kept := ordinary.sound id stored found
      have isNew := answers.postsTo_snapshotOf kept.sameId room client
      rw [callOn_of_roomCall made]
      by_cases same : room = id
      · subst same
        have isRun : stored = (Room.new room).run calls := by
          rcases welcomes.hosted with ⟨missing, _⟩ | ⟨isRun, _⟩
          · exact absurd (missing.symm.trans found) nofun
          · exact Option.some.inj (found.symm.trans isRun)
        rw [if_pos rfl, isRun] at isNew
        rw [if_pos rfl]
        apply welcomes.load idle _ isNew
        intro other member
        cases List.mem_singleton.mp member
        exact answers.caller
      · rw [if_neg same] at isNew
        rw [if_neg (Ne.symm same)]
        exact welcomes.load idle _ isNew nofun
  | posted sender recipient message later isPoster isNext =>
      rw [callOn_of_none made, Option.toList_none, List.append_nil, Mail.arrived_headFor,
        Mail.coming_posted, ← welcomes.own]
      have split : state.mail.coming (snapshotOf room) client sender = _ :=
        Mail.coming_headFor isNext
      by_cases isOwn : sender = client
      · subst isOwn
        rw [Function.update_self, split, List.append_assoc]
        refine ⟨rfl, ?_⟩
        intro other different
        rw [Function.update_of_ne different]
        exact welcomes.others other different
      · have nothing := welcomes.others sender isOwn
        have same : Function.update (state.mail.coming (snapshotOf room) client) sender
            [] = state.mail.coming (snapshotOf room) client := by
          rw [← nothing, Function.update_eq_self]
        rw [split, List.append_eq_nil_iff] at nothing
        rw [nothing.1, nothing.2, List.append_nil, same]
        exact ⟨rfl, welcomes.others⟩
  | dropped sender event later isNext =>
      have same : Function.update (state.mail.coming (snapshotOf room) client) sender
          (Mail.postsTo (snapshotOf room) client later) =
          state.mail.coming (snapshotOf room) client := by
        have split : state.mail.coming (snapshotOf room) client sender = _ :=
          Mail.coming_headFor isNext
        have noSnapshot : Mail.headFor (snapshotOf room) client event.recipient
            (toServerMessage event) = [] := ite_self _
        rw [noSnapshot, List.nil_append] at split
        rw [← split, Function.update_eq_self]
      rw [callOn_of_none made, Option.toList_none, List.append_nil,
        Mail.coming_setPending, same]
      exact ⟨welcomes.own, welcomes.others⟩

theorem Welcomes.step (welcomes : state.Welcomes client room calls)
    (counted : state.Counted action) (ordinary : state.Ordinary)
    (stepped : state.step action = some next) :
    next.Welcomes client room (calls ++ (state.callOn room action).toList) where
  hosted := (hosts_room room).hosted_step ⟨counted, ordinary.sound⟩ stepped
    welcomes.hosted
  own := (welcomes.flow counted ordinary stepped).1
  others := (welcomes.flow counted ordinary stepped).2

end Steps

private theorem runs_welcomes {sink : Option (List PersistedBoardSnapshot)}
    {actions : List Action} {final : ServerState}
    (runs : system.Runs Counted (start sink) actions final) (client : ClientId)
    (room : RoomId) : final.Welcomes client room (callsOn sink room actions) := by
  apply (runs.with_invariant step_ordinary (start_ordinary sink)).invariant_noted _
    (start_welcomes sink client room)
  intro state action next calls allowed stepped welcomes
  exact welcomes.step allowed.1 allowed.2 stepped

/-! ## What the client shows -/

/-- From a snapshot a client goes on with the newer events, in the order of their
numbers. -/
def catchUp (snapshot : Seq × BoardView) (events : List (Seq × EventDto)) : BoardView :=
  let newer := events.filter fun event => snapshot.1 < event.1
  snapshot.2.applyAll ((newer.insertionSort fun left right => left.1 ≤ right.1).map
    Prod.snd)

/-- What a client makes of all messages that it was sent. -/
def shown (room : RoomId) (messages : List ServerMessage) : Option BoardView :=
  (messages.filterMap (snapshotOf room)).getLast?.map fun snapshot =>
    catchUp snapshot (messages.filterMap (eventOf room))

section Showing

variable {room : Room} {calls : List Call}

private theorem history_above (holds : room.Invariant) (positive : 0 < room.nextSeq.toNat)
    (fits : Room.machine.Along Room.Fits room calls) :
    ∀ entry ∈ room.history calls, room.lastSeq < entry.seq := by
  intro entry member
  have number : entry.seq.toNat ∈ (room.history calls).map fun entry => entry.seq.toNat :=
    List.mem_map_of_mem member
  rw [Room.history_seqs holds fits, List.mem_range'_1] at number
  rw [UInt64.lt_iff_toNat_lt, Room.lastSeq_toNat positive]
  omega

private theorem history_below (holds : room.Invariant) (positive : 0 < room.nextSeq.toNat)
    (fits : Room.machine.Along Room.Fits room calls) :
    ∀ entry ∈ room.history calls, ¬ (room.run calls).lastSeq < entry.seq := by
  intro entry member
  have number : entry.seq.toNat ∈ (room.history calls).map fun entry => entry.seq.toNat :=
    List.mem_map_of_mem member
  have after := Room.run_nextSeq holds fits
  rw [Room.history_seqs holds fits, List.mem_range'_1] at number
  rw [UInt64.lt_iff_toNat_lt, Room.lastSeq_toNat (by omega), after]
  omega

private theorem history_increases (holds : room.Invariant)
    (fits : Room.machine.Along Room.Fits room calls) :
    (room.history calls).Pairwise fun left right => left.seq < right.seq := by
  have numbers : ((room.history calls).map fun entry => entry.seq.toNat).Pairwise
      (· < ·) := by
    rw [Room.history_seqs holds fits]
    exact List.pairwise_lt_range'
  apply (List.pairwise_map.mp numbers).imp
  intro left right below
  exact UInt64.lt_iff_toNat_lt.mpr below

/-- Sorting by number brings events back into the order in which they were
issued. -/
theorem sorted_events {history : List Issued} {arrived : List (Seq × EventDto)}
    (increases : history.Pairwise fun left right => left.seq < right.seq)
    (perm : arrived.Perm (history.map wireEvent)) :
    (arrived.insertionSort fun left right => left.1 ≤ right.1) =
      history.map wireEvent := by
  have total : Std.Total fun left right : Seq × EventDto => left.1 ≤ right.1 :=
    ⟨fun left right => UInt64.le_total left.1 right.1⟩
  have trans : IsTrans (Seq × EventDto) fun left right => left.1 ≤ right.1 :=
    ⟨fun _ _ _ => UInt64.le_trans⟩
  let less : Seq × EventDto → Seq × EventDto → Bool :=
    fun left right => decide (left.1 < right.1)
  have notLess : ∀ {left right}, less left right = false ↔ right.1 ≤ left.1 := by
    intro left right
    rw [decide_eq_false_iff_not, UInt64.not_lt]
  have increasing : (history.map wireEvent).Pairwise fun left right =>
      left.1 < right.1 :=
    List.pairwise_map.mpr increases
  have inOrder : StdSorted less (history.map wireEvent) (history.map wireEvent) := by
    refine ⟨.refl _, increasing.imp ?_⟩
    intro left right below
    exact notLess.mpr (UInt64.le_of_lt below)
  have apart : KeyedLists.DistinctBy Prod.fst (history.map wireEvent) :=
    increasing.imp fun below => UInt64.ne_of_lt below
  apply inOrder.unique _ (.insertionSort (fun _ _ => notLess.mpr) _) perm
  intro left leftMem right rightMem notBefore notAfter
  exact apart.eq_of_key_eq leftMem rightMem
    (UInt64.le_antisymm (notLess.mp notAfter) (notLess.mp notBefore))

end Showing

/-- The events of a room since a client joined, from all that it was ever sent. -/
theorem newer_events {id : RoomId} {client : ClientId} {before after : List Call}
    (fits : Room.machine.Along Room.Fits (Room.new id) (before ++ .join client :: after))
    (silent : ∀ call ∈ after, call.client ≠ client) {arrived : List (Seq × EventDto)}
    (perm : arrived.Perm (((Room.new id).received client
      (before ++ .join client :: after)).map wireEvent)) :
    let joined := ((Room.new id).run before).addMember client
    ((arrived.filter fun event => joined.lastSeq < event.1).insertionSort
      fun left right => left.1 ≤ right.1) = (joined.history after).map wireEvent := by
  intro joined
  rw [Machine.along_append] at fits
  have earlier : ((Room.new id).run before).Invariant :=
    Room.run_invariant (Room.new_invariant id) fits.1
  have holds : joined.Invariant := earlier.addMember client
  have started : 0 < (Room.new id).nextSeq.toNat := Nat.one_pos
  have positive : 0 < joined.nextSeq.toNat := by
    change 0 < ((Room.new id).run before).nextSeq.toNat
    rw [Room.run_nextSeq (Room.new_invariant id) fits.1]
    exact Nat.lt_add_right _ started
  have all : (Room.new id).received client (before ++ .join client :: after) =
      (Room.new id).received client before ++ joined.history after := by
    rw [Room.received_append, Room.received_cons]
    apply congrArg ((Room.new id).received client before ++ ·)
    exact Room.received_eq_history holds fits.2.2 (UnorderedSet.mem_insert.mpr (.inl rfl))
      silent
  rw [all, List.map_append] at perm
  apply sorted_events (history_increases holds fits.2.2)
  have kept := perm.filter fun event => decide (joined.lastSeq < event.1)
  rw [List.filter_append] at kept
  have noneOld : (((Room.new id).received client before).map wireEvent).filter
      (fun event => decide (joined.lastSeq < event.1)) = [] := by
    rw [List.filter_eq_nil_iff]
    intro event member isNewer
    rcases List.mem_map.mp member with ⟨entry, received, rfl⟩
    have issued := (Room.received_sublist client (Room.new_invariant id) fits.1).subset
      received
    exact history_below (Room.new_invariant id) started fits.1 entry issued
      (of_decide_eq_true isNewer)
  have allNew : ((joined.history after).map wireEvent).filter
      (fun event => decide (joined.lastSeq < event.1)) =
        (joined.history after).map wireEvent := by
    rw [List.filter_eq_self]
    intro event member
    rcases List.mem_map.mp member with ⟨entry, issued, rfl⟩
    exact decide_eq_true (history_above holds positive fits.2.2 entry issued)
  rw [noneOld, allNew, List.nil_append] at kept
  exact kept

/-- Snapshot and events together tell the board. -/
theorem catchUp_eq {id : RoomId} {client : ClientId} {before after : List Call}
    (fits : Room.machine.Along Room.Fits (Room.new id) (before ++ .join client :: after))
    (silent : ∀ call ∈ after, call.client ≠ client) {arrived : List (Seq × EventDto)}
    (perm : arrived.Perm (((Room.new id).received client
      (before ++ .join client :: after)).map wireEvent)) :
    catchUp (wireSnapshot (((Room.new id).run before).addMember client).snapshot) arrived =
      .ofBoard ((Room.new id).run (before ++ .join client :: after)).board := by
  have newer := newer_events fits silent perm
  rw [Machine.along_append] at fits
  have holds := (Room.run_invariant (Room.new_invariant id) fits.1).addMember client
  generalize isJoined : ((Room.new id).run before).addMember client = joined at newer holds
  have later : (joined.run after) = (Room.new id).run (before ++ .join client :: after) := by
    rw [Room.run_append, Room.run_cons, ← isJoined]
    rfl
  have joinedFits : Room.machine.Along Room.Fits joined after := isJoined ▸ fits.2.2
  have contents : ((joined.history after).map wireEvent).map Prod.snd =
      (joined.history after).map fun entry => toEventDto entry.payload := by
    rw [List.map_map]
    rfl
  change (BoardView.ofBoard joined.board).applyAll
    (((arrived.filter fun event => joined.lastSeq < event.1).insertionSort
      fun left right => left.1 ≤ right.1).map Prod.snd) = _
  rw [newer, contents, BoardView.applyAll_history, Room.replay_history holds joinedFits,
    later]

/-- In every interleaving, once nothing is under way to a client that was not stopped,
has joined a room and made no call on it since, what it was sent tells it the board
of the room. -/
theorem watching_client_converges {sink : Option (List PersistedBoardSnapshot)}
    {actions : List Action} {final : ServerState}
    (runs : system.Runs Counted (start sink) actions final) {client : ClientId}
    {room : RoomId} {before after : List Call}
    (joined : callsOn sink room actions = before ++ .join client :: after)
    (silent : ∀ call ∈ after, call.client ≠ client) {session : ClientSession}
    (found : final.sessions.lookup client = some session)
    (running : session.stopped = false)
    (ran : session.strand.filterMap Task.message = [])
    (posted : ∀ sender, ∀ post ∈ final.pending sender, post.1 ≠ client) :
    ∃ stored, final.core.rooms.getRoom room = some stored ∧
      shown room session.queued = some (.ofBoard stored.board) := by
  have carries := runs_carries runs client room
  have welcomes := runs_welcomes runs client room
  rw [joined] at carries welcomes
  rcases carries.hosted with ⟨_, nothing⟩ | ⟨isRoom, fits⟩
  · exact absurd nothing (by simp)
  have queued : final.trail client = session.queued := by
    rw [trail_of_found found, ClientSession.trail, ran, List.append_nil]
  have notStopped : final.NotStopped client := by
    intro other isFound
    rw [found] at isFound
    cases isFound
    exact running
  have events := carries.arrived_perm notStopped posted
  have snapshots := welcomes.own
  change (final.trail client).filterMap (snapshotOf room) ++ _ = _ at snapshots
  rw [coming_of_posted posted, List.append_nil, Room.welcomed_append, Room.welcomed,
    if_pos rfl, Room.welcomed_silent _ silent, List.append_nil, List.map_append,
    List.map_singleton, queued] at snapshots
  rw [queued] at events
  refine ⟨_, isRoom, ?_⟩
  rw [shown, snapshots, List.getLast?_concat, Option.map_some,
    catchUp_eq fits silent events]
  rfl

/-- Client 3 watches while the others clear the board at once. -/
theorem watching_client_converges_crossing :
    ∃ final session stored, system.Runs Counted (start none) crossing final ∧
      final.sessions.lookup 3 = some session ∧
      session.queued.filterMap (eventOf 1) = [(2, .clear 2), (1, .clear 1)] ∧
      final.core.rooms.getRoom 1 = some stored ∧
      shown 1 session.queued = some (.ofBoard stored.board) := by
  have executed : ∃ final session,
      system.execute counted (start none) crossing = some final ∧
        final.sessions.lookup 3 = some session ∧ session.stopped = false ∧
        session.strand.filterMap Task.message = [] ∧ final.nothingFor 3 = true ∧
        session.queued.filterMap (eventOf 1) = [(2, .clear 2), (1, .clear 1)] :=
    ⟨_, _, rfl, rfl, rfl, rfl, rfl, rfl⟩
  rcases executed with ⟨final, session, executed, found, running, ran, nothing, arrived⟩
  have runs := StepSystem.runs_of_execute counted_sound executed
  have joined : callsOn none 1 crossing = [.join 1, .join 2] ++ .join 3 ::
      [.apply 1 .clear 1, .apply 2 .clear 2] := by decide
  have silent : ∀ call ∈ [Call.apply 1 .clear 1, .apply 2 .clear 2], call.client ≠ 3 := by
    decide
  rcases watching_client_converges runs joined silent found running ran
      (posted_of_nothingFor nothing) with
    ⟨stored, isRoom, shows⟩
  exact ⟨final, session, stored, runs, found, arrived, isRoom, shows⟩

end ServerState

end ClearSpace.Server
