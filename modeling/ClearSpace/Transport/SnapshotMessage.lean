import ClearSpace.Foundation.Sorting
import ClearSpace.Transport.Mappers

/-! # The snapshot message

`toSnapshotMessage` reads two hash containers and sorts what it has read, so the
message depends neither on their iteration orders nor on how `std::sort` treats
elements in between. -/

namespace ClearSpace.Transport

open ClearSpace.Core

/-- `ClientId` by `<`. -/
def lessClient (left right : ClientId) : Bool := decide (left < right)

/-- The comparator that `toSnapshotMessage` hands to `std::sort`. -/
def lessCursor (lhs rhs : CursorDto) : Bool := decide (lhs.client < rhs.client)

def cursorDtos (cursors : UnorderedMap ClientId Point) : List CursorDto :=
  cursors.entries.map fun entry => { client := entry.1, point := fromCorePoint entry.2 }

/-- The messages that `toSnapshotMessage` may return, whatever algorithm
`std::sort` uses. -/
inductive SnapshotMessage (snapshot : RoomSnapshot) : ServerMessage → Prop
  | sorted (members : List ClientId) (cursors : List CursorDto)
      (membersSorted : StdSorted lessClient snapshot.members members)
      (cursorsSorted : StdSorted lessCursor (cursorDtos snapshot.state.cursors) cursors) :
      SnapshotMessage snapshot (.roomSnapshotResponse snapshot.room snapshot.lastSeq
        members (snapshot.state.strokes.map fromCoreStroke) cursors)

/-- The stroke of a message has every field and point of the stroke it is made
from. -/
structure CarriesStroke (dto : StrokeDto) (stroke : Stroke) : Prop where
  id : dto.id = stroke.id
  author : dto.author = stroke.author
  color : dto.color = stroke.color.value
  thickness : dto.thickness = stroke.thickness.value
  strokeOrder : dto.strokeOrder = stroke.strokeOrder
  finished : dto.finished = stroke.finished
  points : dto.points.map toCorePoint = stroke.points

/-- The message says what the snapshot says, in canonical order. -/
inductive Carries (snapshot : RoomSnapshot) : ServerMessage → Prop
  | content (members : List ClientId) (strokes : List StrokeDto)
      (cursors : List CursorDto)
      (membersIncrease : members.Pairwise (· < ·))
      (sameMembers : ∀ client, client ∈ members ↔ client ∈ snapshot.members)
      (cursorsIncrease : cursors.Pairwise fun first second =>
        first.client < second.client)
      (sameCursors : ∀ client point,
        ⟨client, fromCorePoint point⟩ ∈ cursors ↔
          snapshot.state.cursors.lookup client = some point)
      (sameStrokes : List.Forall₂ CarriesStroke strokes snapshot.state.strokes) :
      Carries snapshot (.roomSnapshotResponse snapshot.room snapshot.lastSeq
        members strokes cursors)

/-! ## Comparators -/

theorem not_lessClient {left right : ClientId} :
    lessClient left right = false ↔ right ≤ left := by
  rw [lessClient, decide_eq_false_iff_not, UInt64.not_lt]

theorem not_lessCursor {left right : CursorDto} :
    lessCursor left right = false ↔ right.client ≤ left.client := by
  rw [lessCursor, decide_eq_false_iff_not, UInt64.not_lt]

private theorem lessClient_tellsApart (input : List ClientId) :
    ∀ left ∈ input, ∀ right ∈ input, lessClient left right = false →
      lessClient right left = false → left = right := by
  intro left _ right _ notBefore notAfter
  exact UInt64.le_antisymm (not_lessClient.mp notAfter) (not_lessClient.mp notBefore)

private theorem lessCursor_tellsApart (cursors : UnorderedMap ClientId Point) :
    ∀ left ∈ cursorDtos cursors, ∀ right ∈ cursorDtos cursors,
      lessCursor left right = false → lessCursor right left = false → left = right := by
  intro left leftMem right rightMem notBefore notAfter
  have sameClient := UInt64.le_antisymm (not_lessCursor.mp notAfter)
    (not_lessCursor.mp notBefore)
  rcases List.mem_map.mp leftMem with ⟨⟨client, point⟩, leftEntry, rfl⟩
  rcases List.mem_map.mp rightMem with ⟨⟨other, otherPoint⟩, rightEntry, rfl⟩
  change client = other at sameClient
  subst sameClient
  have leftFound := AList.mem_lookup_iff.mpr leftEntry
  have rightFound := AList.mem_lookup_iff.mpr rightEntry
  rw [Option.some.inj (leftFound.symm.trans rightFound)]

theorem toSnapshotMessage_sorted (snapshot : RoomSnapshot) :
    SnapshotMessage snapshot (toSnapshotMessage snapshot) := by
  have totalClient : Std.Total fun left right : ClientId => left ≤ right :=
    ⟨UInt64.le_total⟩
  have transClient : IsTrans ClientId fun left right => left ≤ right :=
    ⟨fun _ _ _ => UInt64.le_trans⟩
  have totalCursor : Std.Total fun left right : CursorDto => left.client ≤ right.client :=
    ⟨fun left right => UInt64.le_total left.client right.client⟩
  have transCursor : IsTrans CursorDto fun left right => left.client ≤ right.client :=
    ⟨fun _ _ _ => UInt64.le_trans⟩
  exact .sorted _ _ (.insertionSort (fun _ _ => not_lessClient.mpr) _)
    (.insertionSort (fun _ _ => not_lessCursor.mpr) _)

/-! ## Content -/

theorem mem_cursorDtos {cursors : UnorderedMap ClientId Point} {client : ClientId}
    {point : Point} :
    ⟨client, fromCorePoint point⟩ ∈ cursorDtos cursors ↔
      cursors.lookup client = some point := by
  rw [← Option.mem_def, AList.mem_lookup_iff, cursorDtos, List.mem_map]
  constructor
  · intro shown
    rcases shown with ⟨⟨other, otherPoint⟩, entry, same⟩
    have sameClient : other = client := congrArg CursorDto.client same
    have samePoint : otherPoint = point :=
      congrArg (fun dto : CursorDto => toCorePoint dto.point) same
    subst sameClient samePoint
    exact entry
  · intro entry
    exact ⟨⟨client, point⟩, entry, rfl⟩

private theorem cursorDtos_apart (cursors : UnorderedMap ClientId Point) :
    (cursorDtos cursors).Pairwise fun left right => left.client ≠ right.client := by
  apply List.pairwise_map.mpr
  exact List.pairwise_map.mp cursors.nodupKeys

private theorem fromCoreStroke_carries (stroke : Stroke) :
    CarriesStroke (fromCoreStroke stroke) stroke where
  id := rfl
  author := rfl
  color := rfl
  thickness := rfl
  strokeOrder := rfl
  finished := rfl
  points := by
    rw [fromCoreStroke, List.map_map]
    exact List.map_id stroke.points

theorem SnapshotMessage.carries {snapshot : RoomSnapshot} {message : ServerMessage}
    (nodup : snapshot.members.Nodup) (sent : SnapshotMessage snapshot message) :
    Carries snapshot message := by
  cases sent with
  | sorted members cursors membersSorted cursorsSorted =>
      apply Carries.content
      · have apart : members.Pairwise (· ≠ ·) := membersSorted.perm.nodup_iff.mpr nodup
        apply (membersSorted.ordered.and apart).imp
        intro first second both
        exact UInt64.lt_of_le_of_ne (not_lessClient.mp both.1) both.2
      · exact fun client => membersSorted.perm.mem_iff
      · have apart : cursors.Pairwise fun left right => left.client ≠ right.client := by
          apply List.Pairwise.perm _ cursorsSorted.perm.symm
          · exact fun different => different.symm
          · exact cursorDtos_apart snapshot.state.cursors
        apply (cursorsSorted.ordered.and apart).imp
        intro first second both
        exact UInt64.lt_of_le_of_ne (not_lessCursor.mp both.1) both.2
      · intro client point
        exact cursorsSorted.perm.mem_iff.trans mem_cursorDtos
      · rw [List.forall₂_map_left_iff, List.forall₂_same]
        exact fun stroke _ => fromCoreStroke_carries stroke

/-- Whatever the order in which members and cursors are iterated and however
they are sorted, one message comes out, and it says what the snapshot says. -/
theorem snapshot_message_canonical {left right : RoomSnapshot}
    (sameRoom : left.room = right.room) (sameSeq : left.lastSeq = right.lastSeq)
    (sameStrokes : left.state.strokes = right.state.strokes)
    (sameMembers : left.members.Perm right.members) (nodup : left.members.Nodup)
    (sameCursors : left.state.cursors.entries.Perm right.state.cursors.entries) :
    toSnapshotMessage left = toSnapshotMessage right ∧
      (∀ message, SnapshotMessage right message → message = toSnapshotMessage left) ∧
      Carries left (toSnapshotMessage left) := by
  have canonical : ∀ message, SnapshotMessage right message →
      message = toSnapshotMessage left := by
    intro message sent
    have leftSent := toSnapshotMessage_sorted left
    generalize toSnapshotMessage left = leftMessage at leftSent
    cases sent with
    | sorted members cursors membersSorted cursorsSorted =>
        cases leftSent with
        | sorted leftMembers leftCursors leftMembersSorted leftCursorsSorted =>
            rw [leftMembersSorted.unique (lessClient_tellsApart _) membersSorted
                sameMembers.symm,
              leftCursorsSorted.unique (lessCursor_tellsApart _) cursorsSorted
                (sameCursors.symm.map _),
              sameRoom, sameSeq, sameStrokes]
  refine ⟨?_, canonical, (toSnapshotMessage_sorted left).carries nodup⟩
  exact (canonical _ (toSnapshotMessage_sorted right)).symm

def classroom (members : List ClientId) (first second : ClientId × Point) :
    RoomSnapshot where
  room := 1
  lastSeq := 4
  state := {
    strokes := [⟨1, 3, .red, .thin, 1, [⟨0, 0⟩, ⟨1, 5⟩], true⟩]
    cursors := ((∅ : UnorderedMap ClientId Point).insert second.1 second.2).insert
      first.1 first.2 }
  members := members

theorem snapshot_message_canonical_classroom :
    let left := classroom [3, 1, 2] (1, ⟨7, 7⟩) (3, ⟨8, 8⟩)
    let right := classroom [2, 3, 1] (3, ⟨8, 8⟩) (1, ⟨7, 7⟩)
    left.members ≠ right.members ∧
      left.state.cursors.entries ≠ right.state.cursors.entries ∧
      toSnapshotMessage left = toSnapshotMessage right := by
  intro left right
  refine ⟨by decide, by decide, ?_⟩
  exact (snapshot_message_canonical rfl rfl rfl (by decide) (by decide) (by decide)).1

end ClearSpace.Transport
