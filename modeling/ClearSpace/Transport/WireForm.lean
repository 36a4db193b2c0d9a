import ClearSpace.Foundation.FloatFormats
import ClearSpace.Transport.JsonProtocol
import ClearSpace.Transport.Mappers
import Mathlib.Data.Option.Basic
import Mathlib.Data.List.Forall2

/-! # The wire form of server messages

A decoder for the objects that `serializeServerMessage` builds. It looks members
up by their keys, so it does not depend on their order, and it gives back every
message it is shown, with coordinates taken as numbers. -/

namespace ClearSpace.Transport

open ClearSpace.Core FloatFormats

/-! ## Values -/

/-! Messages with the zeros of their coordinates made one. Messages with finite
coordinates are equal as values exactly if these are equal. -/

def PointDto.value (point : PointDto) : PointDto where
  x := value32 point.x
  y := value32 point.y

def StrokeDto.value (stroke : StrokeDto) : StrokeDto :=
  { stroke with points := stroke.points.map PointDto.value }

def CursorDto.value (cursor : CursorDto) : CursorDto :=
  { cursor with point := cursor.point.value }

def EventDto.value : EventDto → EventDto
  | .strokeBegin author id strokeOrder color thickness start =>
      .strokeBegin author id strokeOrder color thickness start.value
  | .strokePoint author id point => .strokePoint author id point.value
  | .cursorMove author point => .cursorMove author point.value
  | event => event

def ServerMessage.value : ServerMessage → ServerMessage
  | .roomSnapshotResponse room lastSeq members strokes cursors =>
      .roomSnapshotResponse room lastSeq members (strokes.map StrokeDto.value)
        (cursors.map CursorDto.value)
  | .event room seq payload => .event room seq payload.value
  | message => message

def EventDto.points : EventDto → List PointDto
  | .strokeBegin _ _ _ _ _ start => [start]
  | .strokePoint _ _ point => [point]
  | .cursorMove _ point => [point]
  | _ => []

def ServerMessage.points : ServerMessage → List PointDto
  | .roomSnapshotResponse _ _ _ strokes cursors =>
      strokes.flatMap StrokeDto.points ++ cursors.map CursorDto.point
  | .event _ _ payload => payload.points
  | _ => []

def PointDto.Finite (point : PointDto) : Prop := Finite32 point.x ∧ Finite32 point.y

def ServerMessage.Finite (message : ServerMessage) : Prop :=
  ∀ point ∈ message.points, point.Finite

/-- What is assumed of the conversions between `float` and `double`: a finite
number can be narrowed again after it was widened. -/
def JsonLibrary.Exact (library : JsonLibrary) : Prop :=
  ∀ bits wide, Finite32 bits → value64 wide = value64 (library.floatToDouble bits) →
    value32 (library.doubleToFloat wide) = value32 bits

/-! ## Equal values of JSON -/

namespace Json

/-- Equality of JSON values: numbers by value, objects by what their keys have. -/
inductive Same : Json → Json → Prop
  | null : Same .null .null
  | boolean (value : Bool) : Same (.boolean value) (.boolean value)
  | unsigned (value : UInt64) : Same (.unsigned value) (.unsigned value)
  | integer (value : Int64) : Same (.integer value) (.integer value)
  | float {left right : UInt64} (same : value64 left = value64 right) :
      Same (.float left) (.float right)
  | string (text : ByteString) : Same (.string text) (.string text)
  | array {left right : List Json} (same : List.Forall₂ Same left right) :
      Same (.array left) (.array right)
  | object {left right : List (ByteString × Json)}
      (same : ∀ key, Option.Rel Same (left.lookup key) (right.lookup key)) :
      Same (.object left) (.object right)

mutual

theorem Same.refl : ∀ json : Json, Same json json
  | .null => .null
  | .boolean value => .boolean value
  | .unsigned value => .unsigned value
  | .integer value => .integer value
  | .float _ => .float rfl
  | .string text => .string text
  | .array values => .array (same_all values)
  | .object members => .object (same_members members)

theorem same_all : ∀ values : List Json, List.Forall₂ Same values values
  | [] => .nil
  | value :: rest => .cons (Same.refl value) (same_all rest)

theorem same_members : ∀ (members : List (ByteString × Json)) (key : ByteString),
    Option.Rel Same (members.lookup key) (members.lookup key)
  | [], _ => .none
  | (name, value) :: rest, key => by
      rw [List.lookup_cons]
      split
      · exact .some (Same.refl value)
      · exact same_members rest key

end

theorem Same.find {json written : Json} (same : Same json written) {key : ByteString}
    {part : Json} (found : written.find key = some part) :
    ∃ held, json.find key = some held ∧ Same held part := by
  cases same with
  | @object left right same =>
      have related := same key
      rw [show right.lookup key = some part from found] at related
      cases held : left.lookup key with
      | none =>
          rw [held] at related
          cases related
      | some value =>
          rw [held] at related
          cases related with
          | some sameValue => exact ⟨value, held, sameValue⟩
  | _ => cases found

end Json

/-! ## The decoder -/

namespace Json

def unsigned? : Json → Option UInt64
  | .unsigned value => some value
  | _ => none

def boolean? : Json → Option Bool
  | .boolean value => some value
  | _ => none

def array? {Value : Type} (read : Json → Option Value) : Json → Option (List Value)
  | .array values => values.mapM read
  | _ => none

def byte? (json : Json) : Option UInt8 := json.unsigned?.map UInt64.toUInt8

def field {Value : Type} (key : String) (read : Json → Option Value) (json : Json) :
    Option Value :=
  (json.find (.ascii key)).bind read

end Json

inductive MessageType
  | pong
  | roomCreated
  | ok
  | error
  | roomSnapshot
  | strokeBegin
  | strokePoint
  | strokeEnd
  | cursorMove
  | clear
  | memberLeft
  deriving DecidableEq, Repr

namespace MessageType

def name : MessageType → String
  | pong => "pong"
  | roomCreated => "room_created"
  | ok => "ok"
  | error => "error"
  | roomSnapshot => "room_snapshot"
  | strokeBegin => "stroke_begin"
  | strokePoint => "stroke_point"
  | strokeEnd => "stroke_end"
  | cursorMove => "cursor_move"
  | clear => "clear"
  | memberLeft => "member_left"

def all : List MessageType :=
  [pong, roomCreated, ok, error, roomSnapshot, strokeBegin, strokePoint, strokeEnd,
    cursorMove, clear, memberLeft]

def ofName? (text : ByteString) : Option MessageType :=
  all.find? fun type => .ascii type.name = text

private theorem ofName?_name (type : MessageType) : ofName?
    (.ascii type.name) = some type := by
  cases type <;> decide

end MessageType

section Decoder

variable (library : JsonLibrary)

open Json

def readCoordinate : Json → Option FloatBits
  | .float wide => some (value32 (library.doubleToFloat wide))
  | _ => none

def readPoint (json : Json) : Option PointDto := do
  let x ← json.field "x" (readCoordinate library)
  let y ← json.field "y" (readCoordinate library)
  return ⟨x, y⟩

def readStroke (json : Json) : Option StrokeDto := do
  let id ← json.field "id" unsigned?
  let author ← json.field "author" unsigned?
  let color ← json.field "color" byte?
  let thickness ← json.field "thickness" byte?
  let strokeOrder ← json.field "stroke_order" unsigned?
  let points ← json.field "points" (array? (readPoint library))
  let finished ← json.field "finished" boolean?
  return { id, author, color, thickness, strokeOrder, points, finished }

def readCursor (json : Json) : Option CursorDto := do
  let client ← json.field "client" unsigned?
  let point ← json.field "point" (readPoint library)
  return { client, point }

def readEvent (json : Json) (readPayload : Json → Option EventDto) :
    Option ServerMessage := do
  let room ← json.field "room" unsigned?
  let seq ← json.field "seq" unsigned?
  let payload ← readPayload json
  return .event room seq payload

def readAs (json : Json) : MessageType → Option ServerMessage
  | .pong => some .pongResponse
  | .roomCreated => do
      let room ← json.field "room" unsigned?
      return .roomCreatedResponse room
  | .ok => do
      let request ← json.field "request" getString
      let room ← json.field "room" unsigned?
      return .okResponse request room
  | .error => do
      let code ← json.field "code" getString
      let message ← json.field "message" getString
      return .errorResponse code message
  | .roomSnapshot => do
      let room ← json.field "room" unsigned?
      let lastSeq ← json.field "last_seq" unsigned?
      let members ← json.field "members" (array? unsigned?)
      let strokes ← json.field "strokes" (array? (readStroke library))
      let cursors ← json.field "cursors" (array? (readCursor library))
      return .roomSnapshotResponse room lastSeq members strokes cursors
  | .strokeBegin => readEvent json fun json => do
      let author ← json.field "author" unsigned?
      let id ← json.field "id" unsigned?
      let strokeOrder ← json.field "stroke_order" unsigned?
      let color ← json.field "color" byte?
      let thickness ← json.field "thickness" byte?
      let start ← json.field "start" (readPoint library)
      return .strokeBegin author id strokeOrder color thickness start
  | .strokePoint => readEvent json fun json => do
      let author ← json.field "author" unsigned?
      let id ← json.field "id" unsigned?
      let point ← json.field "point" (readPoint library)
      return .strokePoint author id point
  | .strokeEnd => readEvent json fun json => do
      let author ← json.field "author" unsigned?
      let id ← json.field "id" unsigned?
      return .strokeEnd author id
  | .cursorMove => readEvent json fun json => do
      let author ← json.field "author" unsigned?
      let point ← json.field "point" (readPoint library)
      return .cursorMove author point
  | .clear => readEvent json fun json => do
      let author ← json.field "author" unsigned?
      return .clear author
  | .memberLeft => readEvent json fun json => do
      let client ← json.field "client" unsigned?
      return .memberLeft client

def readMessage (json : Json) : Option ServerMessage := do
  let text ← json.field "type" getString
  let type ← MessageType.ofName? text
  readAs library json type

end Decoder

/-! ## What the decoder reads -/

/-- The reader finds the value in everything that equals what was written. -/
def Reads {Value : Type} (read : Json → Option Value) (written : Json) (value : Value) :
    Prop :=
  ∀ json, Json.Same json written → read json = some value

namespace Reads

open Json

theorem unsigned (value : UInt64) : Reads unsigned? (.unsigned value) value := by
  intro json same
  cases same
  rfl

theorem boolean (value : Bool) : Reads boolean? (.boolean value) value := by
  intro json same
  cases same
  rfl

theorem string (text : ByteString) : Reads getString (.string text) text := by
  intro json same
  cases same
  rfl

theorem byte (value : UInt8) : Reads byte? (.unsigned value.toUInt64) value := by
  intro json same
  cases same
  simp [byte?, unsigned?]

theorem coordinate {library : JsonLibrary} (exact : library.Exact) {bits : FloatBits}
    (finite : Finite32 bits) :
    Reads (readCoordinate library) (.float (library.floatToDouble bits))
      (value32 bits) := by
  intro json same
  cases same with
  | float sameValue => rw [readCoordinate, exact bits _ finite sameValue]

theorem field {Value : Type} {read : Json → Option Value} {written part : Json}
    {key : String} {value : Value} (found : written.find (.ascii key) = some part)
    (reads : Reads read part value) : Reads (Json.field key read) written value := by
  intro json same
  rcases same.find found with ⟨held, isHeld, samePart⟩
  rw [Json.field, isHeld, Option.bind_some]
  exact reads held samePart

theorem array {Item Value : Type} {read : Json → Option Value} {make : Item → Json}
    {valueOf : Item → Value} {items : List Item}
    (each : ∀ item ∈ items, Reads read (make item) (valueOf item)) :
    Reads (array? read) (.array (items.map make)) (items.map valueOf) := by
  intro json same
  cases same with
  | @array values _ same =>
      change values.mapM read = some (items.map valueOf)
      induction items generalizing values with
      | nil =>
          cases same
          rfl
      | cons item rest induction =>
          cases same with
          | cons first others =>
              have readFirst := each item (by simp) _ first
              have readOthers := induction
                (fun other member => each other (by simp [member])) others
              simp [readFirst, readOthers]

theorem bind {First Value : Type} {first : Json → Option First}
    {next : First → Json → Option Value} {written : Json} {found : First} {value : Value}
    (readsFirst : Reads first written found)
    (readsNext : Reads (next found) written value) :
    Reads (fun json => first json >>= fun read => next read json) written value := by
  intro json same
  change (first json >>= fun read => next read json) = some value
  rw [readsFirst json same]
  exact readsNext json same

theorem done {Value : Type} {written : Json} {value : Value} :
    Reads (fun _ => pure value) written value :=
  fun _ _ => rfl

end Reads

/-! ### Members -/

@[simp] theorem find_makeObject_self (key : String) (value : Json)
    (rest : List (String × Json)) :
    (makeObject ((key, value) :: rest)).find (.ascii key) = some value := by
  simp [makeObject, Json.find]

@[simp] theorem find_makeObject_other {key other : String} {value : Json}
    {rest : List (String × Json)} (different : ByteString.ascii key ≠ .ascii other) :
    (makeObject ((other, value) :: rest)).find (.ascii key) =
      (makeObject rest).find (.ascii key) := by
  have unequal : (ByteString.ascii key == .ascii other) = false :=
    beq_false_of_ne different
  simp [makeObject, Json.find, List.lookup_cons, unequal]

def ServerMessage.type : ServerMessage → MessageType
  | .pongResponse => .pong
  | .roomCreatedResponse _ => .roomCreated
  | .okResponse .. => .ok
  | .errorResponse .. => .error
  | .roomSnapshotResponse .. => .roomSnapshot
  | .event _ _ (.strokeBegin ..) => .strokeBegin
  | .event _ _ (.strokePoint ..) => .strokePoint
  | .event _ _ (.strokeEnd ..) => .strokeEnd
  | .event _ _ (.cursorMove ..) => .cursorMove
  | .event _ _ (.clear _) => .clear
  | .event _ _ (.memberLeft _) => .memberLeft

private theorem makeMessageJson_type (library : JsonLibrary) (message : ServerMessage) :
    (makeMessageJson library message).find (.ascii "type") =
      some (.string (.ascii message.type.name)) := by
  cases message with
  | event room seq payload =>
      cases payload <;> exact find_makeObject_self _ _ _
  | _ => exact find_makeObject_self _ _ _

theorem readEvent_reads {library : JsonLibrary} {room : RoomId} {seq : Seq}
    {payload value : EventDto} {readPayload : Json → Option EventDto}
    (reads : Reads readPayload (makeMessageJson library (.event room seq payload))
      value) :
    Reads (readEvent · readPayload) (makeMessageJson library (.event room seq payload))
      (.event room seq value) := by
  unfold readEvent
  refine .bind (.field ?_ (.unsigned _)) <| .bind (.field ?_ (.unsigned _)) <|
    .bind reads .done
  all_goals simp (disch := decide) [makeMessageJson]

section Decoded

variable {library : JsonLibrary} (exact : library.Exact)

include exact

theorem readPoint_reads {point : PointDto} (finite : point.Finite) :
    Reads (readPoint library) (makePointJson library point) point.value := by
  unfold readPoint
  refine .bind (.field ?_ (.coordinate exact finite.1)) <|
    .bind (.field ?_ (.coordinate exact finite.2)) .done
  all_goals simp (disch := decide) [makePointJson]

private theorem readStroke_reads {stroke : StrokeDto}
    (finite : ∀ point ∈ stroke.points, point.Finite) :
    Reads (readStroke library) (makeStrokeJson library stroke) stroke.value := by
  have points := Reads.array fun point member =>
    readPoint_reads exact (finite point member)
  unfold readStroke
  refine .bind (.field ?_ (.unsigned _)) <| .bind (.field ?_ (.unsigned _)) <|
    .bind (.field ?_ (.byte _)) <| .bind (.field ?_ (.byte _)) <|
    .bind (.field ?_ (.unsigned _)) <| .bind (.field ?_ points) <|
    .bind (.field ?_ (.boolean _)) .done
  all_goals simp (disch := decide) [makeStrokeJson]

private theorem readCursor_reads {cursor : CursorDto} (finite : cursor.point.Finite) :
    Reads (readCursor library) (makeCursorJson library cursor) cursor.value := by
  unfold readCursor
  refine .bind (.field ?_ (.unsigned _)) <|
    .bind (.field ?_ (readPoint_reads exact finite)) .done
  all_goals simp (disch := decide) [makeCursorJson]

private theorem readAs_event_reads {room : RoomId} {seq : Seq} {payload : EventDto}
    (finite : ∀ point ∈ payload.points, point.Finite) :
    Reads (readAs library · (ServerMessage.event room seq payload).type)
      (makeMessageJson library (.event room seq payload))
      (.event room seq payload.value) := by
  cases payload with
  | strokeBegin author id strokeOrder color thickness start =>
      have start := readPoint_reads exact (finite start List.mem_cons_self)
      refine readEvent_reads <| .bind (.field ?_ (.unsigned _)) <|
        .bind (.field ?_ (.unsigned _)) <| .bind (.field ?_ (.unsigned _)) <|
        .bind (.field ?_ (.byte _)) <| .bind (.field ?_ (.byte _)) <|
        .bind (.field ?_ start) .done
      all_goals simp (disch := decide) [makeMessageJson, eventMembers]
  | strokePoint author id point =>
      have point := readPoint_reads exact (finite point List.mem_cons_self)
      refine readEvent_reads <| .bind (.field ?_ (.unsigned _)) <|
        .bind (.field ?_ (.unsigned _)) <| .bind (.field ?_ point) .done
      all_goals simp (disch := decide) [makeMessageJson, eventMembers]
  | strokeEnd author id =>
      refine readEvent_reads <| .bind (.field ?_ (.unsigned _)) <|
        .bind (.field ?_ (.unsigned _)) .done
      all_goals simp (disch := decide) [makeMessageJson, eventMembers]
  | cursorMove author point =>
      have point := readPoint_reads exact (finite point List.mem_cons_self)
      refine readEvent_reads <| .bind (.field ?_ (.unsigned _)) <|
        .bind (.field ?_ point) .done
      all_goals simp (disch := decide) [makeMessageJson, eventMembers]
  | clear author =>
      refine readEvent_reads <| .bind (.field ?_ (.unsigned _)) .done
      simp (disch := decide) [makeMessageJson, eventMembers]
  | memberLeft client =>
      refine readEvent_reads <| .bind (.field ?_ (.unsigned _)) .done
      simp (disch := decide) [makeMessageJson, eventMembers]

private theorem readAs_snapshot_reads {room : RoomId} {lastSeq : Seq}
    {members : List ClientId}
    {strokes : List StrokeDto} {cursors : List CursorDto}
    (finite : (ServerMessage.roomSnapshotResponse room lastSeq members strokes
      cursors).Finite) :
    Reads (readAs library · .roomSnapshot)
      (makeMessageJson library
        (.roomSnapshotResponse room lastSeq members strokes cursors))
      (ServerMessage.roomSnapshotResponse room lastSeq members strokes
        cursors).value := by
  have readsMembers : Reads (Json.array? Json.unsigned?)
      (.array (members.map .unsigned)) (members.map id) :=
    .array fun member _ => .unsigned member
  rw [List.map_id] at readsMembers
  have readsStrokes := Reads.array fun stroke (listed : stroke ∈ strokes) =>
    readStroke_reads exact fun point drawn => finite point <|
      List.mem_append_left _ (List.mem_flatMap.mpr ⟨stroke, listed, drawn⟩)
  have readsCursors := Reads.array fun cursor (listed : cursor ∈ cursors) =>
    readCursor_reads exact (finite cursor.point
      (List.mem_append_right _ (List.mem_map_of_mem listed)))
  refine .bind (.field ?_ (.unsigned _)) <| .bind (.field ?_ (.unsigned _)) <|
    .bind (.field ?_ readsMembers) <| .bind (.field ?_ readsStrokes) <|
    .bind (.field ?_ readsCursors) .done
  all_goals simp (disch := decide) [makeMessageJson]

private theorem readAs_reads {message : ServerMessage} (finite : message.Finite) :
    Reads (readAs library · message.type) (makeMessageJson library message)
      message.value := by
  cases message with
  | pongResponse => exact .done
  | roomCreatedResponse room =>
      refine .bind (.field ?_ (.unsigned _)) .done
      simp (disch := decide) [makeMessageJson]
  | okResponse request room =>
      refine .bind (.field ?_ (.string _)) <| .bind (.field ?_ (.unsigned _)) .done
      all_goals simp (disch := decide) [makeMessageJson]
  | errorResponse code message =>
      refine .bind (.field ?_ (.string _)) <| .bind (.field ?_ (.string _)) .done
      all_goals simp (disch := decide) [makeMessageJson]
  | roomSnapshotResponse room lastSeq members strokes cursors =>
      exact readAs_snapshot_reads exact finite
  | event room seq payload => exact readAs_event_reads exact finite

/-- The decoder gives back every message. -/
theorem readMessage_reads {message : ServerMessage} (finite : message.Finite) :
    Reads (readMessage library) (makeMessageJson library message) message.value := by
  refine .bind (.field (makeMessageJson_type library message) (.string _)) ?_
  intro json same
  rw [MessageType.ofName?_name]
  exact readAs_reads exact finite json same

theorem value_eq_of_same {left right : ServerMessage} (leftFinite : left.Finite)
    (rightFinite : right.Finite)
    (same : Json.Same (makeMessageJson library left) (makeMessageJson library right)) :
    left.value = right.value := by
  have readsLeft := readMessage_reads exact leftFinite _ (Json.Same.refl _)
  have readsRight := readMessage_reads exact rightFinite _ same
  exact Option.some.inj (readsLeft.symm.trans readsRight)

end Decoded

/-! ## Events of the core -/

def pointValue (point : Point) : Point where
  x := value32 point.x
  y := value32 point.y

def payloadValue : ServerEventPayload → ServerEventPayload
  | .strokeBeginOut author id strokeOrder color thickness start =>
      .strokeBeginOut author id strokeOrder color thickness (pointValue start)
  | .strokePointOut author id p => .strokePointOut author id (pointValue p)
  | .cursorMoveOut author p => .cursorMoveOut author (pointValue p)
  | payload => payload

private theorem toEventDto_value (payload : ServerEventPayload) :
    (toEventDto payload).value = toEventDto (payloadValue payload) := by
  cases payload <;> rfl

theorem fromCorePoint_injective {left right : Point}
    (same : fromCorePoint left = fromCorePoint right) : left = right := by
  cases left
  cases right
  cases same
  rfl

/-- No two payloads are mapped to one event. -/
theorem toEventDto_injective {left right : ServerEventPayload}
    (same : toEventDto left = toEventDto right) : left = right := by
  cases left with
  | strokeBeginOut author id strokeOrder color thickness start =>
      cases right with
      | strokeBeginOut =>
          simp only [toEventDto, EventDto.strokeBegin.injEq] at same
          rcases same with ⟨rfl, rfl, rfl, sameColor, sameThickness, sameStart⟩
          rw [fromCorePoint_injective sameStart]
          cases color
          cases thickness
          cases sameColor
          cases sameThickness
          rfl
      | _ => cases same
  | strokePointOut author id p =>
      cases right with
      | strokePointOut =>
          simp only [toEventDto, EventDto.strokePoint.injEq] at same
          rcases same with ⟨rfl, rfl, samePoint⟩
          rw [fromCorePoint_injective samePoint]
      | _ => cases same
  | strokeEndOut author id =>
      cases right with
      | strokeEndOut =>
          cases same
          rfl
      | _ => cases same
  | cursorMoveOut author p =>
      cases right with
      | cursorMoveOut =>
          simp only [toEventDto, EventDto.cursorMove.injEq] at same
          rcases same with ⟨rfl, samePoint⟩
          rw [fromCorePoint_injective samePoint]
      | _ => cases same
  | clearOut author =>
      cases right with
      | clearOut =>
          cases same
          rfl
      | _ => cases same
  | memberLeftOut client =>
      cases right with
      | memberLeftOut =>
          cases same
          rfl
      | _ => cases same

private theorem toServerMessage_value {left right : OutgoingEvent}
    (same : (toServerMessage left).value = (toServerMessage right).value) :
    left.room = right.room ∧ left.seq = right.seq ∧
      payloadValue left.payload = payloadValue right.payload := by
  simp only [toServerMessage, ServerMessage.value, ServerMessage.event.injEq,
    toEventDto_value] at same
  exact ⟨same.1, same.2.1, toEventDto_injective same.2.2⟩

/-- Nothing is lost on the wire: the decoder gives back every message, so
different messages have different objects, and different events different
messages. -/
theorem wire_form_faithful (library : JsonLibrary) (exact : library.Exact) :
    (∀ message : ServerMessage, message.Finite → ∀ json,
        Json.Same json (makeMessageJson library message) →
        readMessage library json = some message.value) ∧
      (∀ left right : ServerMessage, left.Finite → right.Finite →
        left.value ≠ right.value →
        ¬ Json.Same (makeMessageJson library left) (makeMessageJson library right)) ∧
      ∀ left right : OutgoingEvent,
        (left.room ≠ right.room ∨ left.seq ≠ right.seq ∨
          payloadValue left.payload ≠ payloadValue right.payload) →
        (toServerMessage left).value ≠ (toServerMessage right).value ∧
          ((toServerMessage left).Finite → (toServerMessage right).Finite →
            ¬ Json.Same (makeMessageJson library (toServerMessage left))
              (makeMessageJson library (toServerMessage right))) := by
  refine ⟨?_, ?_, ?_⟩
  · intro message finite json same
    exact readMessage_reads exact finite json same
  · intro left right leftFinite rightFinite different same
    exact different (value_eq_of_same exact leftFinite rightFinite same)
  · intro left right different
    have differs : (toServerMessage left).value ≠ (toServerMessage right).value := by
      intro same
      rcases toServerMessage_value same with ⟨sameRoom, sameSeq, samePayload⟩
      rcases different with other | other | other
      · exact other sameRoom
      · exact other sameSeq
      · exact other samePayload
    refine ⟨differs, ?_⟩
    intro leftFinite rightFinite same
    exact differs (value_eq_of_same exact leftFinite rightFinite same)

/-- A library that converts zeros and normal numbers as C++ does. -/
def wireLibrary : JsonLibrary where
  parse line := .error ⟨[], line, [], nofun, nofun⟩
  dump _ := none
  floatToDouble := widen
  doubleToFloat := narrow
  unsignedToFloat _ := 0
  integerToFloat _ := 0
  doubleToUInt64 _ := 0
  doubleToUInt32 _ := 0

def cursorAt (y : FloatBits) : ServerMessage := .event 1 5 (.cursorMove 7 ⟨0x3F800000, y⟩)

theorem wire_form_faithful_cursor :
    wireLibrary.floatToDouble 0x3F800000 = 0x3FF0000000000000 ∧
      readMessage wireLibrary (makeMessageJson wireLibrary (cursorAt 0x40000000)) =
        some (cursorAt 0x40000000) := by
  have exact : wireLibrary.Exact := fun bits wide _ same => value32_narrow same
  have finite : (cursorAt 0x40000000).Finite := by
    intro point member
    rw [List.mem_singleton.mp member]
    exact ⟨by decide, by decide⟩
  refine ⟨by decide, ?_⟩
  exact (wire_form_faithful wireLibrary exact).1 _ finite _ (Json.Same.refl _)

end ClearSpace.Transport
