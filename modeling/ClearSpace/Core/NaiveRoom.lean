import ClearSpace.Core.RoomSequence
import Mathlib.Data.Finset.Dedup
import Mathlib.Data.Finset.Erase
import Mathlib.Data.Finset.Insert

/-! # The naive room

The abstract purpose of a room: members form a set, a client's stroke is found
by looking over the board, and an announcement names the set of its recipients.
There is no stroke index and no table of active strokes. The indexed room is
shown to answer every run in the same way. -/

namespace ClearSpace.Core

open KeyedLists

structure NaiveRoom where
  id : RoomId
  members : Finset ClientId := ∅
  board : BoardState := {}
  lastCursorUpdate : UnorderedMap ClientId TimePoint := ∅
  nextSeq : Seq := 1
  nextStrokeId : StrokeId := 1

/-- One broadcast, without an order on its recipients. -/
structure Announcement where
  seq : Seq
  payload : ServerEventPayload
  recipients : Finset ClientId

inductive NaiveReply
  | snapshot (room : RoomId) (lastSeq : Seq) (state : BoardState)
      (members : Finset ClientId)
  | announcements (announcements : List Announcement)

def Stroke.isOpenOf (client : ClientId) (stroke : Stroke) : Bool :=
  decide (stroke.author = client) && !stroke.finished

theorem Stroke.isOpenOf_iff {client : ClientId} {stroke : Stroke} :
    stroke.isOpenOf client = true ↔ stroke.author = client ∧ stroke.finished = false := by
  simp [isOpenOf]

namespace NaiveRoom

def new (id : RoomId) : NaiveRoom := { id }

def lastSeq (room : NaiveRoom) : Seq :=
  if room.nextSeq = 0 then 0 else room.nextSeq - 1

/-- The stroke a client is drawing, found by scanning the board. -/
def currentStroke (room : NaiveRoom) (client : ClientId) : Option Stroke :=
  room.board.strokes.find? (Stroke.isOpenOf client)

def changeCurrent (room : NaiveRoom) (client : ClientId) (change : Stroke → Stroke) :
    NaiveRoom :=
  { room with board.strokes := room.board.strokes.map fun stroke =>
      if stroke.isOpenOf client then change stroke else stroke }

def announce (room : NaiveRoom) (sender : ClientId) (payload : ServerEventPayload) :
    NaiveRoom × List Announcement :=
  ({ room with nextSeq := room.nextSeq + 1 },
    [{ seq := room.nextSeq, payload, recipients := room.members.erase sender }])

def succeed (answer : NaiveRoom × List Announcement) :
    NaiveRoom × Except ErrorCode NaiveReply :=
  (answer.1, .ok (.announcements answer.2))

def join (room : NaiveRoom) (client : ClientId) :
    NaiveRoom × Except ErrorCode NaiveReply :=
  let joined := { room with members := insert client room.members }
  (joined, .ok (.snapshot joined.id joined.lastSeq joined.board joined.members))

def leave (room : NaiveRoom) (client : ClientId) :
    NaiveRoom × Except ErrorCode NaiveReply :=
  if client ∈ room.members then
    let ended := match room.currentStroke client with
      | none => (room, [])
      | some stroke =>
          (room.changeCurrent client Stroke.finish).announce client
            (.strokeEndOut client stroke.id)
    let remaining := { ended.1 with
      members := ended.1.members.erase client
      board.cursors := ended.1.board.cursors.erase client
      lastCursorUpdate := ended.1.lastCursorUpdate.erase client }
    let left := remaining.announce client (.memberLeftOut client)
    succeed (left.1, ended.2 ++ left.2)
  else
    (room, .error .notInRoom)

def begin (room : NaiveRoom) (client : ClientId) (color : Color)
    (thickness : Thickness) (start : Point) :
    NaiveRoom × Except ErrorCode NaiveReply :=
  match room.currentStroke client with
  | some _ => (room, .error .protocolViolation)
  | none =>
      let stroke : Stroke := {
        id := room.nextStrokeId, author := client, color, thickness
        strokeOrder := room.nextSeq, points := [start], finished := false }
      let drawn := { room with
        board.strokes := room.board.strokes ++ [stroke]
        nextStrokeId := room.nextStrokeId + 1 }
      succeed (drawn.announce client (.strokeBeginOut client room.nextStrokeId
        room.nextSeq color thickness start))

def point (room : NaiveRoom) (client : ClientId) (p : Point) :
    NaiveRoom × Except ErrorCode NaiveReply :=
  match room.currentStroke client with
  | none => (room, .error .protocolViolation)
  | some stroke =>
      succeed ((room.changeCurrent client fun stroke => stroke.push p).announce client
        (.strokePointOut client stroke.id p))

def finish (room : NaiveRoom) (client : ClientId) :
    NaiveRoom × Except ErrorCode NaiveReply :=
  match room.currentStroke client with
  | none => (room, .error .protocolViolation)
  | some stroke =>
      succeed ((room.changeCurrent client Stroke.finish).announce client
        (.strokeEndOut client stroke.id))

def holds (room : NaiveRoom) (client : ClientId) (now : TimePoint) : Bool :=
  match room.lastCursorUpdate.lookup client with
  | none => false
  | some last => decide (now - last < Config.cursorMinInterval)

def move (room : NaiveRoom) (client : ClientId) (p : Point) (now : TimePoint) :
    NaiveRoom × Except ErrorCode NaiveReply :=
  if room.holds client now then
    (room, .ok (.announcements []))
  else
    let moved := { room with
      lastCursorUpdate := room.lastCursorUpdate.insert client now
      board.cursors := room.board.cursors.insert client p }
    succeed (moved.announce client (.cursorMoveOut client p))

def clear (room : NaiveRoom) (client : ClientId) :
    NaiveRoom × Except ErrorCode NaiveReply :=
  succeed (announce { room with board.strokes := [] } client (.clearOut client))

def apply (room : NaiveRoom) (client : ClientId) (event : EventPayload)
    (now : TimePoint) : NaiveRoom × Except ErrorCode NaiveReply :=
  if client ∈ room.members then
    match event with
    | .strokeBegin color thickness start => room.begin client color thickness start
    | .strokePoint p => room.point client p
    | .strokeEnd => room.finish client
    | .cursorMove p => room.move client p now
    | .clear => room.clear client
  else
    (room, .error .notInRoom)

def call (room : NaiveRoom) : Call → NaiveRoom × Except ErrorCode NaiveReply
  | .join client => room.join client
  | .leave client => room.leave client
  | .apply client event now => room.apply client event now

def machine : Machine NaiveRoom Call (Except ErrorCode NaiveReply) where
  step := call

end NaiveRoom

/-! ## Equal answers -/

def Announcement.SpelledBy (room : RoomId) (announcement : Announcement)
    (events : List OutgoingEvent) : Prop :=
  ∃ order : List ClientId, order.Nodup ∧
    (∀ client, client ∈ order ↔ client ∈ announcement.recipients) ∧
    events = order.map fun client =>
      { room, recipient := client, seq := announcement.seq
        payload := announcement.payload }

inductive SpelledOut (room : RoomId) : List OutgoingEvent → List Announcement → Prop
  | nil : SpelledOut room [] []
  | cons {block events announcement announcements} :
      announcement.SpelledBy room block →
      SpelledOut room events announcements →
      SpelledOut room (block ++ events) (announcement :: announcements)

/-- Same error code, same snapshot, or same events, each up to the order in
which members are iterated. -/
inductive SameAnswer (room : RoomId) :
    Except Error Reply → Except ErrorCode NaiveReply → Prop
  | error (error : Error) : SameAnswer room (.error error) (.error error.code)
  | snapshot (snapshot : RoomSnapshot) (members : Finset ClientId)
      (sameRoom : snapshot.room = room) (nodup : snapshot.members.Nodup)
      (sameMembers : ∀ client, client ∈ snapshot.members ↔ client ∈ members) :
      SameAnswer room (.ok (.snapshot snapshot))
        (.ok (.snapshot room snapshot.lastSeq snapshot.state members))
  | events {events : List OutgoingEvent} {announcements : List Announcement}
      (spelled : SpelledOut room events announcements) :
      SameAnswer room (.ok (.events events)) (.ok (.announcements announcements))

/-! ## The indexed room simulates the naive one -/

namespace Room

/-- Forget the indices and the order of the members. -/
def abstract (room : Room) : NaiveRoom where
  id := room.id
  members := room.members.elements.toFinset
  board := room.board
  lastCursorUpdate := room.lastCursorUpdate
  nextSeq := room.nextSeq
  nextStrokeId := room.nextStrokeId

@[simp] theorem mem_abstract {room : Room} {client : ClientId} :
    client ∈ room.abstract.members ↔ client ∈ room.members :=
  List.mem_toFinset

theorem abstract_erase (room : Room) (client : ClientId) :
    (room.members.erase client).elements.toFinset =
      room.abstract.members.erase client := by
  ext other
  rw [List.mem_toFinset, Finset.mem_erase, mem_abstract, ← UnorderedSet.mem_def,
    UnorderedSet.mem_erase]

theorem abstract_insert (room : Room) (client : ClientId) :
    (room.members.insert client).elements.toFinset =
      insert client room.abstract.members := by
  ext other
  rw [List.mem_toFinset, Finset.mem_insert, mem_abstract, ← UnorderedSet.mem_def,
    UnorderedSet.mem_insert]

/-- Scanning the board finds exactly the stroke in the table. -/
theorem currentStroke_eq {room : Room} (consistent : room.Consistent)
    (client : ClientId) :
    (room.abstract.currentStroke client).map Stroke.id =
      room.activeStrokeByClient.lookup client := by
  cases scanned : room.abstract.currentStroke client with
  | none =>
      cases drawing : room.activeStrokeByClient.lookup client with
      | none => rfl
      | some sid =>
          rcases (consistent.active client sid).mp drawing with
            ⟨stroke, member, _, author, isOpen⟩
          have missed := List.find?_eq_none.mp scanned stroke member
          exact absurd (Stroke.isOpenOf_iff.mpr ⟨author, isOpen⟩) missed
  | some stroke =>
      have found := Stroke.isOpenOf_iff.mp (List.find?_some scanned)
      exact ((consistent.active client stroke.id).mpr
        ⟨stroke, List.mem_of_find?_eq_some scanned, rfl, found.1, found.2⟩).symm

theorem changeCurrent_eq {room : Room} (consistent : room.Consistent)
    {client : ClientId} {sid : StrokeId}
    (drawing : room.activeStrokeByClient.lookup client = some sid)
    (change : Stroke → Stroke) :
    (room.abstract.changeCurrent client change).board.strokes =
      (room.updateStroke sid change).board.strokes := by
  rcases (consistent.active client sid).mp drawing with
    ⟨target, targetMem, targetId, targetAuthor, targetOpen⟩
  apply List.map_congr_left
  intro stroke member
  have same : stroke.isOpenOf client = true ↔ stroke.id = sid := by
    rw [Stroke.isOpenOf_iff]
    constructor
    · rintro ⟨author, isOpen⟩
      have found := (consistent.active client stroke.id).mpr
        ⟨stroke, member, rfl, author, isOpen⟩
      exact Option.some.inj (found.symm.trans drawing)
    · intro sameId
      have sameStroke := consistent.distinct.eq_of_key_eq member targetMem
        (sameId.trans targetId.symm)
      exact sameStroke ▸ ⟨targetAuthor, targetOpen⟩
  by_cases selected : stroke.id = sid
  · rw [if_pos selected, if_pos (same.mpr selected)]
  · rw [if_neg selected, if_neg fun isOpen => selected (same.mp isOpen)]

theorem announce_spelled (room : Room) (sender : ClientId) (entry : Issued)
    {recipients : Finset ClientId}
    (exact : ∀ client, client ∈ recipients ↔ client ≠ sender ∧ client ∈ room.members) :
    Announcement.SpelledBy room.id
      { seq := entry.seq, payload := entry.payload, recipients }
      (room.announce sender entry) := by
  refine ⟨room.members.others sender, room.members.others_nodup sender, ?_, rfl⟩
  intro client
  rw [UnorderedSet.mem_others, exact client]

theorem spelled_once (room : Room) (sender : ClientId) (entry : Issued) :
    SpelledOut room.id ([entry].flatMap (room.announce sender))
      [{ seq := entry.seq, payload := entry.payload
         recipients := room.abstract.members.erase sender }] := by
  apply SpelledOut.cons
  · apply announce_spelled
    intro client
    rw [Finset.mem_erase, mem_abstract]
  · exact .nil

namespace Step

variable {room : Room} {call : Call} {outcome : Outcome Reply}

private theorem naive_refused {error : Error} (consistent : room.Consistent)
    (refusal : Refusal room call error) :
    room.abstract.call call = (room.abstract, .error error.code) := by
  cases refusal with
  | leaveOutside client outside =>
      simp only [NaiveRoom.call, NaiveRoom.leave, mem_abstract, if_neg outside]
      rfl
  | applyOutside client event now outside =>
      simp only [NaiveRoom.call, NaiveRoom.apply, mem_abstract, if_neg outside]
      rfl
  | alreadyActive client sid color thickness start now member drawing =>
      have scanned := currentStroke_eq consistent client
      rw [drawing] at scanned
      rcases Option.map_eq_some_iff.mp scanned with ⟨stroke, current, _⟩
      simp only [NaiveRoom.call, NaiveRoom.apply, mem_abstract, if_pos member,
        NaiveRoom.begin, current]
      rfl
  | pointWithoutBegin client p now member inactive =>
      have scanned := currentStroke_eq consistent client
      rw [inactive, Option.map_eq_none_iff] at scanned
      simp only [NaiveRoom.call, NaiveRoom.apply, mem_abstract, if_pos member,
        NaiveRoom.point, scanned]
      rfl
  | endWithoutBegin client now member inactive =>
      have scanned := currentStroke_eq consistent client
      rw [inactive, Option.map_eq_none_iff] at scanned
      simp only [NaiveRoom.call, NaiveRoom.apply, mem_abstract, if_pos member,
        NaiveRoom.finish, scanned]
      rfl

private theorem naive_left {client : ClientId} (consistent : room.Consistent)
    (member : client ∈ room.members)
    (inactive : room.activeStrokeByClient.lookup client = none) :
    room.abstract.call (.leave client) =
      ((room.forget client).advance.abstract, .ok (.announcements
        [{ seq := room.nextSeq, payload := .memberLeftOut client
           recipients := (room.abstract.members.erase client).erase client }])) := by
  have scanned := currentStroke_eq consistent client
  rw [inactive, Option.map_eq_none_iff] at scanned
  simp only [NaiveRoom.call, NaiveRoom.leave, mem_abstract, if_pos member, scanned,
    NaiveRoom.announce, NaiveRoom.succeed, List.nil_append]
  simp only [abstract, Room.forget, Room.advance, abstract_erase]

private theorem naive_leftDrawing {client : ClientId} {sid : StrokeId}
    (consistent : room.Consistent) (member : client ∈ room.members)
    (drawing : room.activeStrokeByClient.lookup client = some sid) :
    room.abstract.call (.leave client) =
      (((room.finishStroke client sid).advance.forget client).advance.abstract,
        .ok (.announcements
          [{ seq := room.nextSeq, payload := .strokeEndOut client sid
             recipients := room.abstract.members.erase client },
           { seq := room.nextSeq + 1, payload := .memberLeftOut client
             recipients := (room.abstract.members.erase client).erase client }])) := by
  have scanned := currentStroke_eq consistent client
  rw [drawing] at scanned
  rcases Option.map_eq_some_iff.mp scanned with ⟨stroke, current, strokeId⟩
  have changed := changeCurrent_eq consistent drawing Stroke.finish
  simp only [NaiveRoom.changeCurrent] at changed
  simp only [NaiveRoom.call, NaiveRoom.leave, mem_abstract, if_pos member, current,
    NaiveRoom.changeCurrent, NaiveRoom.announce, NaiveRoom.succeed, strokeId, changed]
  simp only [abstract, Room.forget, Room.advance, Room.finishStroke,
    Room.updateStroke, Room.deactivate, abstract_erase]
  rfl

private theorem naive_began {client : ClientId} (consistent : room.Consistent)
    (member : client ∈ room.members)
    (inactive : room.activeStrokeByClient.lookup client = none) (color : Color)
    (thickness : Thickness) (start : Point) (now : TimePoint) :
    room.abstract.call (.apply client (.strokeBegin color thickness start) now) =
      ((room.addStroke (room.freshStroke client color thickness start)).advance.abstract,
        .ok (.announcements
          [{ seq := room.nextSeq
             payload := .strokeBeginOut client room.nextStrokeId room.nextSeq color
               thickness start
             recipients := room.abstract.members.erase client }])) := by
  have scanned := currentStroke_eq consistent client
  rw [inactive, Option.map_eq_none_iff] at scanned
  simp only [NaiveRoom.call, NaiveRoom.apply, mem_abstract, if_pos member,
    NaiveRoom.begin, scanned]
  rfl

private theorem naive_extended {client : ClientId} {sid : StrokeId}
    (consistent : room.Consistent) (member : client ∈ room.members)
    (drawing : room.activeStrokeByClient.lookup client = some sid) (p : Point)
    (now : TimePoint) :
    room.abstract.call (.apply client (.strokePoint p) now) =
      ((room.updateStroke sid fun stroke => stroke.push p).advance.abstract,
        .ok (.announcements
          [{ seq := room.nextSeq, payload := .strokePointOut client sid p
             recipients := room.abstract.members.erase client }])) := by
  have scanned := currentStroke_eq consistent client
  rw [drawing] at scanned
  rcases Option.map_eq_some_iff.mp scanned with ⟨stroke, current, strokeId⟩
  have changed := changeCurrent_eq consistent drawing fun stroke => stroke.push p
  simp only [NaiveRoom.changeCurrent] at changed
  simp only [NaiveRoom.call, NaiveRoom.apply, mem_abstract, if_pos member,
    NaiveRoom.point, current, NaiveRoom.changeCurrent, NaiveRoom.announce,
    NaiveRoom.succeed, strokeId, changed]
  rfl

private theorem naive_ended {client : ClientId} {sid : StrokeId}
    (consistent : room.Consistent) (member : client ∈ room.members)
    (drawing : room.activeStrokeByClient.lookup client = some sid) (now : TimePoint) :
    room.abstract.call (.apply client .strokeEnd now) =
      ((room.finishStroke client sid).advance.abstract, .ok (.announcements
        [{ seq := room.nextSeq, payload := .strokeEndOut client sid
           recipients := room.abstract.members.erase client }])) := by
  have scanned := currentStroke_eq consistent client
  rw [drawing] at scanned
  rcases Option.map_eq_some_iff.mp scanned with ⟨stroke, current, strokeId⟩
  have changed := changeCurrent_eq consistent drawing Stroke.finish
  simp only [NaiveRoom.changeCurrent] at changed
  simp only [NaiveRoom.call, NaiveRoom.apply, mem_abstract, if_pos member,
    NaiveRoom.finish, current, NaiveRoom.changeCurrent, NaiveRoom.announce,
    NaiveRoom.succeed, strokeId, changed]
  rfl

/-- One call: the naive room moves to the abstraction of the new room and gives
the same answer. -/
theorem simulates (step : Step room call outcome) (consistent : room.Consistent) :
    (room.abstract.call call).1 = outcome.room.abstract ∧
      SameAnswer room.id outcome.result (room.abstract.call call).2 := by
  cases step with
  | refused refusal =>
      rw [naive_refused consistent refusal]
      exact ⟨rfl, .error _⟩
  | joined client =>
      constructor
      · simp only [NaiveRoom.call, NaiveRoom.join, abstract, addMember, abstract_insert]
      · refine .snapshot (room.addMember client).snapshot _ rfl
          (room.members.insert client).nodup ?_
        intro other
        rw [← abstract_insert]
        exact List.mem_toFinset.symm
  | throttled client p now member held =>
      have heldToo : room.abstract.holds client now = true := held
      simp only [NaiveRoom.call, NaiveRoom.apply, mem_abstract, if_pos member,
        NaiveRoom.move, heldToo, if_true]
      exact ⟨trivial, .events .nil⟩
  | left client member inactive =>
      rw [naive_left consistent member inactive]
      refine ⟨rfl, .events (.cons ?_ .nil)⟩
      apply announce_spelled
      simp
  | leftDrawing client sid member drawing =>
      rw [naive_leftDrawing consistent member drawing]
      refine ⟨rfl, .events (.cons ?_ (.cons ?_ .nil))⟩
      · apply announce_spelled room client ⟨room.nextSeq, .strokeEndOut client sid⟩
        simp
      · apply announce_spelled room client ⟨room.nextSeq + 1, .memberLeftOut client⟩
        simp
  | began client color thickness start now member inactive =>
      rw [naive_began consistent member inactive]
      exact ⟨rfl, .events (room.spelled_once client _)⟩
  | extended client sid p now member drawing =>
      rw [naive_extended consistent member drawing]
      exact ⟨rfl, .events (room.spelled_once client _)⟩
  | ended client sid now member drawing =>
      rw [naive_ended consistent member drawing]
      exact ⟨rfl, .events (room.spelled_once client _)⟩
  | moved client p now member accepted =>
      have acceptedToo : room.abstract.holds client now = false := accepted
      simp only [NaiveRoom.call, NaiveRoom.apply, mem_abstract, if_pos member,
        NaiveRoom.move, acceptedToo, Bool.false_eq_true, if_false]
      exact ⟨rfl, .events (room.spelled_once client _)⟩
  | cleared client now member =>
      simp only [NaiveRoom.call, NaiveRoom.apply, mem_abstract, if_pos member,
        NaiveRoom.clear]
      exact ⟨rfl, .events (room.spelled_once client _)⟩

private theorem id_eq (step : Step room call outcome) : outcome.room.id = room.id := by
  cases step <;> rfl

end Step

/-- Along every run the indexed room and the naive one answer alike, and after
every call they show the same board, the same members and the same last
sequence number. -/
theorem naive_equivalent (id : RoomId) (calls : List Call)
    (bound : ((new id).history calls).length < 2 ^ 64 - 1) :
    List.Forall₂ (SameAnswer id) ((new id).results calls)
        (NaiveRoom.machine.outputs (NaiveRoom.new id) calls) ∧
      ∀ before after, calls = before ++ after →
        let room := (new id).run before
        let naive := NaiveRoom.machine.final (NaiveRoom.new id) before
        naive.board = room.board ∧
          (∀ client, client ∈ naive.members ↔ client ∈ room.members) ∧
          naive.lastSeq = room.lastSeq := by
  have simulation : ∀ inputs, machine.Along Fits (new id) inputs →
      (((new id).run inputs).Invariant ∧ ((new id).run inputs).id = id ∧
          NaiveRoom.machine.final (NaiveRoom.new id) inputs =
            ((new id).run inputs).abstract) ∧
        List.Forall₂ (fun outcome answer => SameAnswer id outcome.result answer)
          (machine.outputs (new id) inputs)
          (NaiveRoom.machine.outputs (NaiveRoom.new id) inputs) := by
    intro inputs fits
    apply machine.simulation NaiveRoom.machine
      (fun room naive => room.Invariant ∧ room.id = id ∧ naive = room.abstract)
      (fun outcome answer => SameAnswer id outcome.result answer) ?_ inputs (new id)
      (NaiveRoom.new id) ⟨new_invariant id, rfl, rfl⟩ fits
    rintro room naive call callFits ⟨holds, sameId, rfl⟩
    have step := call_step holds.toConsistent call
    rcases step.simulates holds.toConsistent with ⟨sameState, sameAnswer⟩
    refine ⟨⟨call_invariant callFits holds, step.id_eq.trans sameId, sameState⟩, ?_⟩
    exact sameId ▸ sameAnswer
  have fits := new_along_fits id calls bound
  constructor
  · rw [results, List.forall₂_map_left_iff]
    exact (simulation calls fits).2
  · rintro before after rfl
    rw [Machine.along_append] at fits
    rcases (simulation before fits.1).1 with ⟨_, _, reached⟩
    simp only [reached]
    exact ⟨rfl, fun client => mem_abstract, rfl⟩

theorem naive_equivalent_lesson :
    ((new 1).history lesson).length = 7 ∧
      List.Forall₂ (SameAnswer 1) ((new 1).results lesson)
        (NaiveRoom.machine.outputs (NaiveRoom.new 1) lesson) :=
  ⟨by decide, (naive_equivalent 1 lesson (by decide)).1⟩

end Room

end ClearSpace.Core
