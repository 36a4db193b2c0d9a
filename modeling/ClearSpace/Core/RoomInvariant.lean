import ClearSpace.Core.Room
import ClearSpace.Foundation.KeyedLists

/-! # The representation invariant of a room

The stroke vector, the two stroke indices, the cursor and throttle maps and the
member set describe one board. `Step` lists what a call can do to a room once
strokes are named by id instead of by position; the invariant and every later
property of runs are proved from it. -/

namespace ClearSpace.Core.Room

open KeyedLists

/-- The containers of a room agree with each other. -/
structure Consistent (room : Room) : Prop where
  indexed : ∀ sid index, room.strokeIndexById.lookup sid = some index ↔
    (room.board.strokes[index]?).map Stroke.id = some sid
  active : ∀ client sid, room.activeStrokeByClient.lookup client = some sid ↔
    ∃ stroke ∈ room.board.strokes,
      stroke.id = sid ∧ stroke.author = client ∧ stroke.finished = false
  activeMember : ∀ client ∈ room.activeStrokeByClient, client ∈ room.members
  cursorMember : ∀ client ∈ room.board.cursors, client ∈ room.members
  sameKeys : ∀ client, client ∈ room.board.cursors ↔ client ∈ room.lastCursorUpdate
  idsIncrease : (room.board.strokes.map Stroke.id).Pairwise (· < ·)
  ordersIncrease : (room.board.strokes.map Stroke.strokeOrder).Pairwise (· < ·)
  idsBelow : ∀ stroke ∈ room.board.strokes, stroke.id < room.nextStrokeId
  ordersBelow : ∀ stroke ∈ room.board.strokes, stroke.strokeOrder < room.nextSeq
  hasPoint : ∀ stroke ∈ room.board.strokes, stroke.points ≠ []

/-- `Consistent` together with what keeps the stroke counter from wrapping:
every stroke id costs a sequence number. -/
structure Invariant (room : Room) : Prop extends Consistent room where
  strokeIdsCovered : room.nextStrokeId.toNat ≤ room.nextSeq.toNat

theorem new_invariant (id : RoomId) : (new id).Invariant where
  indexed sid index := by simp [new]
  active client sid := by simp [new]
  activeMember client present := absurd present (AList.notMem_empty client)
  cursorMember client present := absurd present (AList.notMem_empty client)
  sameKeys client := Iff.rfl
  idsIncrease := .nil
  ordersIncrease := .nil
  idsBelow stroke member := absurd member List.not_mem_nil
  ordersBelow stroke member := absurd member List.not_mem_nil
  hasPoint stroke member := absurd member List.not_mem_nil
  strokeIdsCovered := Nat.le_refl 1

namespace Consistent

variable {room : Room}

theorem distinct (consistent : room.Consistent) :
    DistinctBy Stroke.id room.board.strokes := by
  apply (List.pairwise_map.mp consistent.idsIncrease).imp
  intro left right below equal
  rw [equal] at below
  exact absurd below (UInt64.lt_irrefl _)

/-- An active stroke is indexed, at a position inside the board. -/
theorem index_in_range (consistent : room.Consistent) {client : ClientId}
    {sid : StrokeId} (drawing : room.activeStrokeByClient.lookup client = some sid) :
    ∃ index, room.strokeIndexById.lookup sid = some index ∧
      index < room.board.strokes.length := by
  rcases (consistent.active client sid).mp drawing with ⟨stroke, member, sameId, _⟩
  rcases List.mem_iff_getElem?.mp member with ⟨index, strokeAt⟩
  refine ⟨index, (consistent.indexed sid index).mpr ?_, ?_⟩
  · rw [strokeAt, Option.map_some, sameId]
  · exact (List.getElem?_eq_some_iff.mp strokeAt).1

/-- A client has at most one unfinished stroke. -/
theorem open_unique (consistent : room.Consistent) {left right : Stroke}
    (leftMem : left ∈ room.board.strokes) (rightMem : right ∈ room.board.strokes)
    (leftOpen : left.finished = false) (rightOpen : right.finished = false)
    (sameAuthor : left.author = right.author) : left = right := by
  have leftActive := (consistent.active left.author left.id).mpr
    ⟨left, leftMem, rfl, rfl, leftOpen⟩
  have rightActive := (consistent.active left.author right.id).mpr
    ⟨right, rightMem, rfl, sameAuthor.symm, rightOpen⟩
  have sameId := Option.some.inj (leftActive.symm.trans rightActive)
  exact consistent.distinct.eq_of_key_eq leftMem rightMem sameId

theorem id_eq_iff (consistent : room.Consistent) {client : ClientId}
    {sid : StrokeId} (drawing : room.activeStrokeByClient.lookup client = some sid)
    {stroke : Stroke} (member : stroke ∈ room.board.strokes) :
    stroke.id = sid ↔ stroke.author = client ∧ stroke.finished = false := by
  rcases (consistent.active client sid).mp drawing with
    ⟨active, activeMem, activeId, activeAuthor, activeOpen⟩
  constructor
  · intro isActive
    have same := consistent.distinct.eq_of_key_eq member activeMem
      (isActive.trans activeId.symm)
    subst same
    exact ⟨activeAuthor, activeOpen⟩
  · rintro ⟨isAuthor, isOpen⟩
    have found := (consistent.active client stroke.id).mpr
      ⟨stroke, member, rfl, isAuthor, isOpen⟩
    exact Option.some.inj (found.symm.trans drawing)

end Consistent

/-! ## What a call can do -/

def updateStroke (room : Room) (sid : StrokeId) (change : Stroke → Stroke) : Room :=
  { room with board.strokes := updateBy Stroke.id room.board.strokes sid change }

def finishStroke (room : Room) (client : ClientId) (sid : StrokeId) : Room :=
  (room.updateStroke sid Stroke.finish).deactivate client

theorem modifyStroke_eq {room : Room} (consistent : room.Consistent)
    {sid : StrokeId} {index : Nat}
    (found : room.strokeIndexById.lookup sid = some index)
    (change : Stroke → Stroke) :
    room.modifyStroke index change = room.updateStroke sid change := by
  rw [modifyStroke, updateStroke, consistent.distinct.modify_eq_updateBy change
    ((consistent.indexed sid index).mp found)]

def announce (room : Room) (sender : ClientId) (entry : Issued) : List OutgoingEvent :=
  room.broadcast sender entry.seq entry.payload

def issuing (room : Room) (sender : ClientId) (next : Room) (issued : List Issued) :
    Outcome Reply where
  room := next
  result := .ok (.events (issued.flatMap (room.announce sender)))
  issued := issued

/-- The calls that a consistent room turns down. -/
inductive Refusal (room : Room) : Call → Error → Prop
  | leaveOutside (client : ClientId) (outside : client ∉ room.members) :
      Refusal room (.leave client) .notInRoom
  | applyOutside (client : ClientId) (event : EventPayload) (now : TimePoint)
      (outside : client ∉ room.members) :
      Refusal room (.apply client event now) .notInRoom
  | alreadyActive (client : ClientId) (sid : StrokeId) (color : Color)
      (thickness : Thickness) (start : Point) (now : TimePoint)
      (member : client ∈ room.members)
      (drawing : room.activeStrokeByClient.lookup client = some sid) :
      Refusal room (.apply client (.strokeBegin color thickness start) now)
        (.protocolViolation (.ascii "stroke already active"))
  | pointWithoutBegin (client : ClientId) (p : Point) (now : TimePoint)
      (member : client ∈ room.members)
      (inactive : room.activeStrokeByClient.lookup client = none) :
      Refusal room (.apply client (.strokePoint p) now)
        (.protocolViolation (.ascii "stroke point without begin"))
  | endWithoutBegin (client : ClientId) (now : TimePoint)
      (member : client ∈ room.members)
      (inactive : room.activeStrokeByClient.lookup client = none) :
      Refusal room (.apply client .strokeEnd now)
        (.protocolViolation (.ascii "stroke end without begin"))

/-- Every way in which a consistent room can answer a call. -/
inductive Step (room : Room) : Call → Outcome Reply → Prop
  | refused {call : Call} {error : Error} (refusal : Refusal room call error) :
      Step room call { room, result := .error error }
  | joined (client : ClientId) :
      Step room (.join client)
        { room := room.addMember client
          result := .ok (.snapshot (room.addMember client).snapshot) }
  | throttled (client : ClientId) (p : Point) (now : TimePoint)
      (member : client ∈ room.members) (held : room.throttled client now = true) :
      Step room (.apply client (.cursorMove p) now)
        { room, result := .ok (.events []) }
  | left (client : ClientId) (member : client ∈ room.members)
      (inactive : room.activeStrokeByClient.lookup client = none) :
      Step room (.leave client) (room.issuing client (room.forget client).advance
        [⟨room.nextSeq, .memberLeftOut client⟩])
  | leftDrawing (client : ClientId) (sid : StrokeId) (member : client ∈ room.members)
      (drawing : room.activeStrokeByClient.lookup client = some sid) :
      Step room (.leave client) (room.issuing client
        ((room.finishStroke client sid).advance.forget client).advance
        [⟨room.nextSeq, .strokeEndOut client sid⟩,
          ⟨room.nextSeq + 1, .memberLeftOut client⟩])
  | began (client : ClientId) (color : Color) (thickness : Thickness)
      (start : Point) (now : TimePoint) (member : client ∈ room.members)
      (inactive : room.activeStrokeByClient.lookup client = none) :
      Step room (.apply client (.strokeBegin color thickness start) now)
        (room.issuing client
          (room.addStroke (room.freshStroke client color thickness start)).advance
          [⟨room.nextSeq, .strokeBeginOut client room.nextStrokeId room.nextSeq
            color thickness start⟩])
  | extended (client : ClientId) (sid : StrokeId) (p : Point) (now : TimePoint)
      (member : client ∈ room.members)
      (drawing : room.activeStrokeByClient.lookup client = some sid) :
      Step room (.apply client (.strokePoint p) now)
        (room.issuing client
          (room.updateStroke sid fun stroke => stroke.push p).advance
          [⟨room.nextSeq, .strokePointOut client sid p⟩])
  | ended (client : ClientId) (sid : StrokeId) (now : TimePoint)
      (member : client ∈ room.members)
      (drawing : room.activeStrokeByClient.lookup client = some sid) :
      Step room (.apply client .strokeEnd now)
        (room.issuing client (room.finishStroke client sid).advance
          [⟨room.nextSeq, .strokeEndOut client sid⟩])
  | moved (client : ClientId) (p : Point) (now : TimePoint)
      (member : client ∈ room.members)
      (accepted : room.throttled client now = false) :
      Step room (.apply client (.cursorMove p) now)
        (room.issuing client (room.moveCursor client p now).advance
          [⟨room.nextSeq, .cursorMoveOut client p⟩])
  | cleared (client : ClientId) (now : TimePoint) (member : client ∈ room.members) :
      Step room (.apply client .clear now)
        (room.issuing client room.clearBoard.advance
          [⟨room.nextSeq, .clearOut client⟩])

/-- A sender hears nothing of itself, so leaving first changes no recipient. -/
theorem broadcast_forget (room : Room) (sender : ClientId) (seq : Seq)
    (payload : ServerEventPayload) :
    (room.forget sender).broadcast sender seq payload =
      room.broadcast sender seq payload := by
  simp only [broadcast, forget, UnorderedSet.others_erase]

theorem issue_eq_issuing {room changed : Room} (sameId : changed.id = room.id)
    (sameMembers : changed.members = room.members)
    (sameSeq : changed.nextSeq = room.nextSeq) (sender : ClientId)
    (payload : ServerEventPayload) :
    (changed.issue sender payload).succeed.map Reply.events =
      room.issuing sender changed.advance [⟨room.nextSeq, payload⟩] := by
  simp only [issue, Emission.succeed, Outcome.map, Except.map, issuing, announce,
    List.flatMap_cons, List.flatMap_nil, List.append_nil, broadcast, sameId,
    sameMembers, sameSeq]

private theorem leave_step {room : Room} (consistent : room.Consistent)
    (client : ClientId) :
    Step room (.leave client) (room.call (.leave client)) := by
  by_cases member : client ∈ room.members
  · cases drawing : room.activeStrokeByClient.lookup client with
    | none =>
        have answer : room.call (.leave client) =
            room.issuing client (room.forget client).advance
              [⟨room.nextSeq, .memberLeftOut client⟩] := by
          simp only [call, leave, if_pos member, endActiveStroke, drawing, issue,
            broadcast_forget, Outcome.map, Except.map, issuing, announce,
            List.nil_append, List.flatMap_cons, List.flatMap_nil, List.append_nil]
          rfl
        rw [answer]
        exact .left client member drawing
    | some sid =>
        rcases consistent.index_in_range drawing with ⟨index, found, _⟩
        have answer : room.call (.leave client) =
            room.issuing client
              ((room.finishStroke client sid).advance.forget client).advance
              [⟨room.nextSeq, .strokeEndOut client sid⟩,
                ⟨room.nextSeq + 1, .memberLeftOut client⟩] := by
          simp only [call, leave, if_pos member, endActiveStroke, drawing, found,
            modifyStroke_eq consistent found, issue, broadcast_forget, Outcome.map,
            Except.map, issuing, announce, List.cons_append, List.nil_append,
            List.flatMap_cons, List.flatMap_nil, List.append_nil]
          rfl
        rw [answer]
        exact .leftDrawing client sid member drawing
  · simp only [call, leave, if_neg member]
    exact .refused (.leaveOutside client member)

private theorem apply_step {room : Room} (consistent : room.Consistent)
    {client : ClientId}
    (member : client ∈ room.members) (event : EventPayload) (now : TimePoint) :
    Step room (.apply client event now) (room.call (.apply client event now)) := by
  cases event with
  | strokeBegin color thickness start =>
      cases drawing : room.activeStrokeByClient.lookup client with
      | some sid =>
          simp only [call, apply, if_pos member, applyStrokeBegin, drawing]
          exact .refused (.alreadyActive client sid color thickness start now member
            drawing)
      | none =>
          simp only [call, apply, if_pos member, applyStrokeBegin, drawing]
          rw [issue_eq_issuing rfl rfl rfl]
          exact .began client color thickness start now member drawing
  | strokePoint p =>
      cases drawing : room.activeStrokeByClient.lookup client with
      | none =>
          simp only [call, apply, if_pos member, applyStrokePoint, drawing]
          exact .refused (.pointWithoutBegin client p now member drawing)
      | some sid =>
          rcases consistent.index_in_range drawing with ⟨index, found, _⟩
          simp only [call, apply, if_pos member, applyStrokePoint, drawing, found,
            modifyStroke_eq consistent found]
          rw [issue_eq_issuing rfl rfl rfl]
          exact .extended client sid p now member drawing
  | strokeEnd =>
      cases drawing : room.activeStrokeByClient.lookup client with
      | none =>
          simp only [call, apply, if_pos member, applyStrokeEnd, drawing]
          exact .refused (.endWithoutBegin client now member drawing)
      | some sid =>
          rcases consistent.index_in_range drawing with ⟨index, found, _⟩
          simp only [call, apply, if_pos member, applyStrokeEnd, drawing, found,
            modifyStroke_eq consistent found]
          rw [issue_eq_issuing rfl rfl rfl]
          exact .ended client sid now member drawing
  | cursorMove p =>
      cases held : room.throttled client now with
      | true =>
          simp only [call, apply, if_pos member, applyCursorMove, held, if_true]
          exact .throttled client p now member held
      | false =>
          simp only [call, apply, if_pos member, applyCursorMove, held,
            Bool.false_eq_true, if_false]
          rw [issue_eq_issuing rfl rfl rfl]
          exact .moved client p now member held
  | clear =>
      simp only [call, apply, if_pos member, applyClear]
      rw [issue_eq_issuing rfl rfl rfl]
      exact .cleared client now member

theorem call_step {room : Room} (consistent : room.Consistent) (call : Call) :
    Step room call (room.call call) := by
  cases call with
  | join client => exact .joined client
  | leave client => exact leave_step consistent client
  | apply client event now =>
      by_cases member : client ∈ room.members
      · exact apply_step consistent member event now
      · simp only [Room.call, apply, if_neg member]
        exact .refused (.applyOutside client event now member)

/-! ## Every effect keeps the invariant -/

theorem toNat_add_one {number : UInt64} (fits : number.toNat + 1 < 2 ^ 64) :
    (number + 1).toNat = number.toNat + 1 := by
  rw [UInt64.toNat_add, UInt64.toNat_one, Nat.mod_eq_of_lt fits]

theorem lt_add_one {number : UInt64} (fits : number.toNat + 1 < 2 ^ 64) :
    number < number + 1 := by
  rw [UInt64.lt_iff_toNat_lt, toNat_add_one fits]
  exact Nat.lt_succ_self _

namespace Invariant

variable {room : Room}

theorem advance (invariant : room.Invariant)
    (fits : room.nextSeq.toNat + 1 < 2 ^ 64) : room.advance.Invariant :=
  { invariant with
    ordersBelow := fun stroke member =>
      UInt64.lt_trans (invariant.ordersBelow stroke member) (lt_add_one fits)
    strokeIdsCovered := by
      have covered := invariant.strokeIdsCovered
      change room.nextStrokeId.toNat ≤ (room.nextSeq + 1).toNat
      rw [toNat_add_one fits]
      omega }

theorem addMember (invariant : room.Invariant) (client : ClientId) :
    (room.addMember client).Invariant :=
  { invariant with
    activeMember := fun other drawing =>
      UnorderedSet.mem_insert.mpr (.inr (invariant.activeMember other drawing))
    cursorMember := fun other shown =>
      UnorderedSet.mem_insert.mpr (.inr (invariant.cursorMember other shown)) }

theorem forget (invariant : room.Invariant) {client : ClientId}
    (inactive : client ∉ room.activeStrokeByClient) :
    (room.forget client).Invariant :=
  { invariant with
    activeMember := by
      intro other drawing
      have different : other ≠ client := fun equal => inactive (equal ▸ drawing)
      exact UnorderedSet.mem_erase.mpr ⟨different, invariant.activeMember other drawing⟩
    cursorMember := by
      intro other shown
      rcases AList.mem_erase.mp shown with ⟨different, shownBefore⟩
      exact UnorderedSet.mem_erase.mpr
        ⟨different, invariant.cursorMember other shownBefore⟩
    sameKeys := by
      intro other
      simp only [Room.forget, AList.mem_erase, invariant.sameKeys other] }

/-- Changing one stroke, its identity apart, keeps everything but the relation
to the active strokes. -/
theorem updateStroke (invariant : room.Invariant) (sid : StrokeId)
    {change : Stroke → Stroke} (active : UnorderedMap ClientId StrokeId)
    (keepsId : ∀ stroke, (change stroke).id = stroke.id)
    (keepsOrder : ∀ stroke, (change stroke).strokeOrder = stroke.strokeOrder)
    (keepsPoints : ∀ stroke, stroke.points ≠ [] → (change stroke).points ≠ [])
    (stillActive : ∀ client sid', active.lookup client = some sid' ↔
      ∃ stroke ∈ (room.updateStroke sid change).board.strokes,
        stroke.id = sid' ∧ stroke.author = client ∧ stroke.finished = false)
    (activeMember : ∀ client ∈ active, client ∈ room.members) :
    Invariant { room.updateStroke sid change with activeStrokeByClient := active } where
  indexed other index := by
    change room.strokeIndexById.lookup other = some index ↔
      ((updateBy Stroke.id room.board.strokes sid change)[index]?).map Stroke.id =
        some other
    rw [invariant.indexed other index, ← List.getElem?_map, ← List.getElem?_map,
      map_updateBy Stroke.id sid keepsId]
  active := stillActive
  activeMember := activeMember
  cursorMember := invariant.cursorMember
  sameKeys := invariant.sameKeys
  idsIncrease := by
    simp only [Room.updateStroke, map_updateBy Stroke.id sid keepsId]
    exact invariant.idsIncrease
  ordersIncrease := by
    simp only [Room.updateStroke, map_updateBy Stroke.strokeOrder sid keepsOrder]
    exact invariant.ordersIncrease
  idsBelow stroke member := by
    rcases mem_updateBy.mp member with ⟨source, sourceMem, rfl⟩
    have below := invariant.idsBelow source sourceMem
    split <;> simp only [keepsId] <;> exact below
  ordersBelow stroke member := by
    rcases mem_updateBy.mp member with ⟨source, sourceMem, rfl⟩
    have below := invariant.ordersBelow source sourceMem
    split <;> simp only [keepsOrder] <;> exact below
  hasPoint stroke member := by
    rcases mem_updateBy.mp member with ⟨source, sourceMem, rfl⟩
    have nonempty := invariant.hasPoint source sourceMem
    split
    · exact keepsPoints source nonempty
    · exact nonempty
  strokeIdsCovered := invariant.strokeIdsCovered

theorem push (invariant : room.Invariant) (sid : StrokeId) (p : Point) :
    (room.updateStroke sid fun stroke => stroke.push p).Invariant := by
  apply invariant.updateStroke sid room.activeStrokeByClient
  · exact fun _ => rfl
  · exact fun _ => rfl
  · intro stroke _
    simp [Stroke.push]
  · intro client other
    -- Appending a point leaves id, author and the finished flag as they are.
    have kept : (updateBy Stroke.id room.board.strokes sid
          fun stroke => stroke.push p).map
          (fun stroke => (stroke.id, stroke.author, stroke.finished)) =
        room.board.strokes.map
          fun stroke => (stroke.id, stroke.author, stroke.finished) :=
      map_updateBy _ sid fun _ => rfl
    have viaTrait : ∀ strokes : List Stroke,
        (∃ stroke ∈ strokes, stroke.id = other ∧ stroke.author = client ∧
          stroke.finished = false) ↔
        (other, client, false) ∈ strokes.map
          fun stroke => (stroke.id, stroke.author, stroke.finished) := by
      intro strokes
      simp [List.mem_map]
    rw [invariant.active client other, viaTrait, viaTrait]
    simp only [Room.updateStroke, kept]
  · exact invariant.activeMember

theorem finishStroke (invariant : room.Invariant) {client : ClientId}
    {sid : StrokeId} (drawing : room.activeStrokeByClient.lookup client = some sid) :
    (room.finishStroke client sid).Invariant := by
  apply invariant.updateStroke sid (room.activeStrokeByClient.erase client)
  · exact fun _ => rfl
  · exact fun _ => rfl
  · exact fun _ nonempty => nonempty
  · intro other otherSid
    rcases (invariant.active client sid).mp drawing with
      ⟨ended, endedMem, endedId, endedAuthor, _⟩
    rw [UnorderedMap.lookup_erase_eq]
    constructor
    · intro found
      split at found
      · cases found
      next different =>
        rcases (invariant.active other otherSid).mp found with
          ⟨stroke, strokeMem, strokeId, strokeAuthor, strokeOpen⟩
        -- The finished stroke belongs to `client`, this one to another author.
        have untouched : stroke.id ≠ sid := by
          intro sameId
          have sameStroke := invariant.distinct.eq_of_key_eq strokeMem endedMem
            (sameId.trans endedId.symm)
          exact different (strokeAuthor.symm.trans (sameStroke ▸ endedAuthor))
        exact ⟨stroke, mem_updateBy.mpr ⟨stroke, strokeMem, if_neg untouched⟩,
          strokeId, strokeAuthor, strokeOpen⟩
    · rintro ⟨stroke, strokeMem, strokeId, strokeAuthor, strokeOpen⟩
      rcases mem_updateBy.mp strokeMem with ⟨source, sourceMem, rfl⟩
      by_cases touched : source.id = sid
      · rw [if_pos touched] at strokeOpen
        exact absurd strokeOpen (by simp [Stroke.finish])
      · rw [if_neg touched] at strokeId strokeAuthor strokeOpen
        have found := (invariant.active other otherSid).mpr
          ⟨source, sourceMem, strokeId, strokeAuthor, strokeOpen⟩
        have different : other ≠ client := by
          intro equal
          subst equal
          have sameSid := Option.some.inj (found.symm.trans drawing)
          exact touched (strokeId.trans sameSid)
        rw [if_neg different]
        exact found
  · intro other present
    exact invariant.activeMember other (AList.mem_erase.mp present).2

private theorem not_active_finishStroke (room : Room) (client : ClientId)
    (sid : StrokeId) :
    client ∉ (room.finishStroke client sid).activeStrokeByClient := by
  intro present
  exact (AList.mem_erase.mp present).1 rfl

theorem moveCursor (invariant : room.Invariant) {client : ClientId}
    (member : client ∈ room.members) (p : Point) (now : TimePoint) :
    (room.moveCursor client p now).Invariant :=
  { invariant with
    cursorMember := by
      intro other shown
      rcases AList.mem_insert _ |>.mp shown with equal | shownBefore
      · exact equal ▸ member
      · exact invariant.cursorMember other shownBefore
    sameKeys := by
      intro other
      simp only [Room.moveCursor, AList.mem_insert, invariant.sameKeys other] }

theorem clearBoard (invariant : room.Invariant) : room.clearBoard.Invariant where
  indexed sid index := by simp [Room.clearBoard]
  active client sid := by simp [Room.clearBoard]
  activeMember client present := absurd present (AList.notMem_empty client)
  cursorMember := invariant.cursorMember
  sameKeys := invariant.sameKeys
  idsIncrease := .nil
  ordersIncrease := .nil
  idsBelow stroke member := absurd member List.not_mem_nil
  ordersBelow stroke member := absurd member List.not_mem_nil
  hasPoint stroke member := absurd member List.not_mem_nil
  strokeIdsCovered := invariant.strokeIdsCovered

private theorem indexed_append {strokes : List Stroke} {index : UnorderedMap StrokeId Nat}
    (indexed : ∀ sid position, index.lookup sid = some position ↔
      (strokes[position]?).map Stroke.id = some sid)
    {stroke : Stroke} (fresh : ∀ other ∈ strokes, other.id ≠ stroke.id)
    (sid : StrokeId) (position : Nat) :
    (index.insert stroke.id strokes.length).lookup sid = some position ↔
      ((strokes ++ [stroke])[position]?).map Stroke.id = some sid := by
  rw [UnorderedMap.lookup_insert_eq]
  by_cases isNew : sid = stroke.id
  · rw [if_pos isNew, Option.some.injEq]
    constructor
    · intro last
      subst last
      simp [isNew]
    · intro found
      rcases Option.map_eq_some_iff.mp found with ⟨other, otherAt, otherId⟩
      by_cases old : position < strokes.length
      · rw [List.getElem?_append_left old] at otherAt
        exact absurd (otherId.trans isNew) (fresh other (List.mem_of_getElem? otherAt))
      · have bound := (List.getElem?_eq_some_iff.mp otherAt).1
        simp only [List.length_append, List.length_singleton] at bound
        omega
  · rw [if_neg isNew, indexed sid position]
    by_cases old : position < strokes.length
    · rw [List.getElem?_append_left old]
    · rw [List.getElem?_eq_none (Nat.le_of_not_lt old),
        List.getElem?_append_right (Nat.le_of_not_lt old)]
      constructor
      · intro impossible
        cases impossible
      · intro found
        rcases Option.map_eq_some_iff.mp found with ⟨other, otherAt, otherId⟩
        have isLast := List.mem_singleton.mp (List.mem_of_getElem? otherAt)
        exact absurd (otherId.symm.trans (congrArg Stroke.id isLast)) isNew

private theorem active_append {strokes : List Stroke}
    {active : UnorderedMap ClientId StrokeId}
    (agrees : ∀ client sid, active.lookup client = some sid ↔
      ∃ stroke ∈ strokes,
        stroke.id = sid ∧ stroke.author = client ∧ stroke.finished = false)
    {stroke : Stroke} (isOpen : stroke.finished = false)
    (inactive : active.lookup stroke.author = none) (client : ClientId)
    (sid : StrokeId) :
    (active.insert stroke.author stroke.id).lookup client = some sid ↔
      ∃ other ∈ strokes ++ [stroke],
        other.id = sid ∧ other.author = client ∧ other.finished = false := by
  rw [UnorderedMap.lookup_insert_eq]
  by_cases isAuthor : client = stroke.author
  · rw [if_pos isAuthor]
    constructor
    · intro equal
      exact ⟨stroke, by simp, Option.some.inj equal, isAuthor.symm, isOpen⟩
    · rintro ⟨other, otherMem, otherId, otherAuthor, otherOpen⟩
      rcases List.mem_append.mp otherMem with old | new
      · have found := (agrees client sid).mpr
          ⟨other, old, otherId, otherAuthor, otherOpen⟩
        rw [isAuthor, inactive] at found
        cases found
      · rw [← otherId, List.mem_singleton.mp new]
  · rw [if_neg isAuthor, agrees client sid]
    constructor
    · rintro ⟨other, otherMem, rest⟩
      exact ⟨other, List.mem_append_left _ otherMem, rest⟩
    · rintro ⟨other, otherMem, otherId, otherAuthor, otherOpen⟩
      rcases List.mem_append.mp otherMem with old | new
      · exact ⟨other, old, otherId, otherAuthor, otherOpen⟩
      · rw [List.mem_singleton.mp new] at otherAuthor
        exact absurd otherAuthor.symm isAuthor

theorem increasing_append {numbers : List UInt64} {last : UInt64}
    (increasing : numbers.Pairwise (· < ·)) (above : ∀ number ∈ numbers, number < last) :
    (numbers ++ [last]).Pairwise (· < ·) := by
  refine List.pairwise_append.mpr ⟨increasing, by simp, ?_⟩
  intro number member other isLast
  rw [List.mem_singleton.mp isLast]
  exact above number member

/-- A stroke built from the two counters may join the board once the sequence
number is drawn. -/
theorem addStroke (invariant : room.Invariant) {client : ClientId}
    (member : client ∈ room.members)
    (inactive : room.activeStrokeByClient.lookup client = none)
    (fits : room.nextSeq.toNat + 1 < 2 ^ 64) (color : Color)
    (thickness : Thickness) (start : Point) :
    (room.addStroke
      (room.freshStroke client color thickness start)).advance.Invariant := by
  have covered := invariant.strokeIdsCovered
  have idFits : room.nextStrokeId.toNat + 1 < 2 ^ 64 := by omega
  have fresh : ∀ stroke ∈ room.board.strokes, stroke.id ≠ room.nextStrokeId := by
    intro stroke strokeMem equal
    exact absurd (invariant.idsBelow stroke strokeMem) (equal ▸ UInt64.lt_irrefl _)
  refine { invariant with
    indexed := indexed_append invariant.indexed fresh
    active := active_append invariant.active rfl inactive
    activeMember := ?_, idsIncrease := ?_, ordersIncrease := ?_, idsBelow := ?_
    ordersBelow := ?_, hasPoint := ?_, strokeIdsCovered := ?_ }
  · intro other present
    rcases AList.mem_insert _ |>.mp present with equal | before
    · exact equal ▸ member
    · exact invariant.activeMember other before
  · change ((room.board.strokes ++ [_]).map Stroke.id).Pairwise (· < ·)
    rw [List.map_append]
    apply increasing_append invariant.idsIncrease
    intro number numberMem
    rcases List.mem_map.mp numberMem with ⟨stroke, strokeMem, rfl⟩
    exact invariant.idsBelow stroke strokeMem
  · change ((room.board.strokes ++ [_]).map Stroke.strokeOrder).Pairwise (· < ·)
    rw [List.map_append]
    apply increasing_append invariant.ordersIncrease
    intro number numberMem
    rcases List.mem_map.mp numberMem with ⟨stroke, strokeMem, rfl⟩
    exact invariant.ordersBelow stroke strokeMem
  · intro stroke strokeMem
    change stroke.id < room.nextStrokeId + 1
    rcases List.mem_append.mp strokeMem with old | new
    · exact UInt64.lt_trans (invariant.idsBelow stroke old) (lt_add_one idFits)
    · rw [List.mem_singleton.mp new]
      exact lt_add_one idFits
  · intro stroke strokeMem
    change stroke.strokeOrder < room.nextSeq + 1
    rcases List.mem_append.mp strokeMem with old | new
    · exact UInt64.lt_trans (invariant.ordersBelow stroke old) (lt_add_one fits)
    · rw [List.mem_singleton.mp new]
      exact lt_add_one fits
  · intro stroke strokeMem
    rcases List.mem_append.mp strokeMem with old | new
    · exact invariant.hasPoint stroke old
    · rw [List.mem_singleton.mp new]
      simp [freshStroke]
  · change (room.nextStrokeId + 1).toNat ≤ (room.nextSeq + 1).toNat
    rw [toNat_add_one idFits, toNat_add_one fits]
    omega

end Invariant

/-! ## Steps and runs -/

namespace Step

variable {room : Room} {call : Call} {outcome : Outcome Reply}

theorem nextSeq_toNat (step : Step room call outcome)
    (fits : room.nextSeq.toNat + outcome.issued.length < 2 ^ 64) :
    outcome.room.nextSeq.toNat = room.nextSeq.toNat + outcome.issued.length := by
  cases step with
  | refused => rfl
  | joined => rfl
  | throttled => rfl
  | leftDrawing client sid member drawing =>
      simp only [issuing, List.length_cons, List.length_nil] at fits ⊢
      change (room.nextSeq + 1 + 1).toNat = _
      have first : (room.nextSeq + 1).toNat = room.nextSeq.toNat + 1 :=
        toNat_add_one (by omega)
      rw [toNat_add_one (by omega), first]
  | left => exact toNat_add_one fits
  | began => exact toNat_add_one fits
  | extended => exact toNat_add_one fits
  | ended => exact toNat_add_one fits
  | moved => exact toNat_add_one fits
  | cleared => exact toNat_add_one fits

theorem invariant (step : Step room call outcome) (holds : room.Invariant)
    (fits : room.nextSeq.toNat + outcome.issued.length < 2 ^ 64) :
    outcome.room.Invariant := by
  cases step with
  | refused => exact holds
  | joined client => exact holds.addMember client
  | throttled => exact holds
  | left client member inactive =>
      exact (holds.forget (AList.lookup_eq_none.mp inactive)).advance fits
  | leftDrawing client sid member drawing =>
      simp only [issuing, List.length_cons, List.length_nil] at fits
      have finished := (holds.finishStroke drawing).advance
        (show room.nextSeq.toNat + 1 < 2 ^ 64 by omega)
      have inactive := Invariant.not_active_finishStroke room client sid
      have counter : (room.nextSeq + 1).toNat = room.nextSeq.toNat + 1 :=
        toNat_add_one (by omega)
      apply (finished.forget inactive).advance
      change (room.nextSeq + 1).toNat + 1 < 2 ^ 64
      omega
  | began client color thickness start now member inactive =>
      exact holds.addStroke member inactive fits color thickness start
  | extended client sid p now member drawing => exact (holds.push sid p).advance fits
  | ended client sid now member drawing =>
      exact (holds.finishStroke drawing).advance fits
  | moved client p now member accepted =>
      exact (holds.moveCursor member p now).advance fits
  | cleared client now member => exact holds.clearBoard.advance fits

end Step

end ClearSpace.Core.Room
