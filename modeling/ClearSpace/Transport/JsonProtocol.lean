import ClearSpace.Foundation.Fallible
import ClearSpace.Foundation.Utf8
import ClearSpace.Transport.Messages

/-! # The JSON protocol

`transport/src/json_protocol.cpp`. The JSON library is a parameter: its parser,
its writer and its conversions between number types. -/

namespace ClearSpace.Transport

open ClearSpace.Core

/-! ## The library -/

/-- A JSON value as the library holds it. Floating-point numbers are given by
the bits of a C++ `double`. -/
inductive Json
  | null
  | boolean (value : Bool)
  | unsigned (value : UInt64)
  | integer (value : Int64)
  | float (bits : UInt64)
  | string (text : ByteString)
  | array (values : List Json)
  | object (members : List (ByteString × Json))

namespace Json

mutual

/-- All strings of the value, keys included, are well-formed UTF-8. -/
def encodable : Json → Bool
  | .string text => decide (Utf8.WellFormed text)
  | .array values => encodableAll values
  | .object members => encodableMembers members
  | _ => true

def encodableAll : List Json → Bool
  | [] => true
  | value :: rest => encodable value && encodableAll rest

def encodableMembers : List (ByteString × Json) → Bool
  | [] => true
  | (key, value) :: rest =>
      decide (Utf8.WellFormed key) && encodable value && encodableMembers rest

end

def isObject : Json → Bool
  | .object _ => true
  | _ => false

/-- `contains` and `at` in one; only objects have keys. -/
def find (key : ByteString) : Json → Option Json
  | .object members => members.lookup key
  | _ => none

end Json

/-- A failure of the parser. Its text quotes the bytes of the token read last
between parts of the library's own. -/
structure ParseFailure where
  before : ByteString
  token : ByteString
  after : ByteString
  beforeAscii : Utf8.Ascii before
  afterAscii : Utf8.Ascii after

namespace ParseFailure

def hexDigit (number : Nat) : UInt8 :=
  (ByteString.ascii "0123456789ABCDEF").getD number 48

/-- Control characters are printed in the format `<U+%.4X>`. -/
def quoteByte (byte : UInt8) : ByteString :=
  if byte ≤ 0x1F then
    .ascii "<U+00" ++ [hexDigit (byte.toNat / 16), hexDigit (byte.toNat % 16)] ++
      .ascii ">"
  else
    [byte]

/-- `what()` of the exception. -/
def what (failure : ParseFailure) : ByteString :=
  failure.before ++ failure.token.flatMap quoteByte ++ failure.after

end ParseFailure

/-- `dump` gives nothing where the library throws. The conversions are those of
C++ between the number types named. -/
structure JsonLibrary where
  parse : ByteString → Except ParseFailure Json
  dump : Json → Option ByteString
  floatToDouble : FloatBits → UInt64
  doubleToFloat : UInt64 → FloatBits
  unsignedToFloat : UInt64 → FloatBits
  integerToFloat : Int64 → FloatBits
  doubleToUInt64 : UInt64 → UInt64
  doubleToUInt32 : UInt64 → UInt32

/-- What is assumed of the library: it accepts only well-formed text, and it
writes every value whose strings are well-formed. -/
structure JsonLibrary.Lawful (library : JsonLibrary) : Prop where
  parse_encodable : ∀ line value, library.parse line = .ok value →
    value.encodable = true
  dump_isSome : ∀ value, (library.dump value).isSome = value.encodable

/-! ## Reading requests -/

section Parse

variable (library : JsonLibrary)

/-! `get<T>` for the types used; `none` where it throws. -/

def getString : Json → Option ByteString
  | .string text => some text
  | _ => none

def getUInt64 : Json → Option UInt64
  | .unsigned value => some value
  | .integer value => some value.toUInt64
  | .float bits => some (library.doubleToUInt64 bits)
  | _ => none

/-- Unlike 64-bit numbers, `unsigned int` and `float` are also read from a
boolean. -/
def getUnsignedInt : Json → Option UInt32
  | .boolean value => some (if value then 1 else 0)
  | .unsigned value => some value.toUInt32
  | .integer value => some value.toUInt64.toUInt32
  | .float bits => some (library.doubleToUInt32 bits)
  | _ => none

def getFloat : Json → Option FloatBits
  | .boolean value => some (library.unsignedToFloat (if value then 1 else 0))
  | .unsigned value => some (library.unsignedToFloat value)
  | .integer value => some (library.integerToFloat value)
  | .float bits => some (library.doubleToFloat bits)
  | _ => none

def missingField (key : ByteString) : ProtocolError :=
  ⟨.missingField, .ascii "missing field: " ++ key⟩

def invalidFieldType (key : ByteString) : ProtocolError :=
  ⟨.invalidFieldType, .ascii "invalid field type: " ++ key⟩

def getRequired {Value : Type} (get : Json → Option Value) (object : Json)
    (key : ByteString) : Except ProtocolError Value :=
  match object.find key with
  | none => .error (missingField key)
  | some value =>
      match get value with
      | none => .error (invalidFieldType key)
      | some result => .ok result

def getRequiredPoint (object : Json) (key : ByteString) :
    Except ProtocolError PointDto :=
  match object.find key with
  | none => .error (missingField key)
  | some value =>
      if value.isObject then do
        let x ← getRequired (getFloat library) value (.ascii "x")
        let y ← getRequired (getFloat library) value (.ascii "y")
        return ⟨x, y⟩
      else .error (invalidFieldType key)

def getRequiredRoom (object : Json) : Except ProtocolError RoomId :=
  getRequired (getUInt64 library) object (.ascii "room")

def parseStrokeBegin (object : Json) : Except ProtocolError ClientMessage := do
  let room ← getRequiredRoom library object
  let color ← getRequired (getUnsignedInt library) object (.ascii "color")
  let thickness ← getRequired (getUnsignedInt library) object (.ascii "thickness")
  let start ← getRequiredPoint library object (.ascii "start")
  if 255 < color ∨ 255 < thickness then
    .error ⟨.invalidFieldType, .ascii "color or thickness is out of range"⟩
  else
    return .eventRequest room (.strokeBegin color.toUInt8 thickness.toUInt8 start)

def parseRoomRequest (object : Json) (build : RoomId → ClientMessage) :
    Except ProtocolError ClientMessage := do
  let room ← getRequiredRoom library object
  return build room

def parsePointRequest (object : Json) (build : PointDto → EventRequest) :
    Except ProtocolError ClientMessage := do
  let room ← getRequiredRoom library object
  let point ← getRequiredPoint library object (.ascii "point")
  return .eventRequest room (build point)

def parseTyped (object : Json) (type : ByteString) :
    Except ProtocolError ClientMessage :=
  if type = .ascii "ping" then .ok .pingRequest
  else if type = .ascii "create_room" then .ok .createRoomRequest
  else if type = .ascii "join_room" then
    parseRoomRequest library object .joinRoomRequest
  else if type = .ascii "leave_room" then
    parseRoomRequest library object .leaveRoomRequest
  else if type = .ascii "stroke_begin" then parseStrokeBegin library object
  else if type = .ascii "stroke_point" then parsePointRequest library object .strokePoint
  else if type = .ascii "stroke_end" then
    parseRoomRequest library object (.eventRequest · .strokeEnd)
  else if type = .ascii "cursor_move" then parsePointRequest library object .cursorMove
  else if type = .ascii "clear" then
    parseRoomRequest library object (.eventRequest · .clear)
  else .error ⟨.unknownMessageType, .ascii "unknown message type: " ++ type⟩

def parseClientMessage (line : ByteString) : Except ProtocolError ClientMessage :=
  match library.parse line with
  | .error failure => .error ⟨.invalidJson, failure.what⟩
  | .ok object =>
      if object.isObject then do
        let type ← getRequired getString object (.ascii "type")
        parseTyped library object type
      else .error ⟨.invalidJson, .ascii "root json value must be an object"⟩

end Parse

/-! ## Writing responses and events -/

section Serialize

variable (library : JsonLibrary)

def makeObject (members : List (String × Json)) : Json :=
  .object (members.map fun member => (.ascii member.1, member.2))

def makePointJson (point : PointDto) : Json :=
  makeObject [("x", .float (library.floatToDouble point.x)),
    ("y", .float (library.floatToDouble point.y))]

def makeStrokeJson (stroke : StrokeDto) : Json :=
  makeObject [("id", .unsigned stroke.id), ("author", .unsigned stroke.author),
    ("color", .unsigned stroke.color.toUInt64),
    ("thickness", .unsigned stroke.thickness.toUInt64),
    ("stroke_order", .unsigned stroke.strokeOrder),
    ("points", .array (stroke.points.map (makePointJson library))),
    ("finished", .boolean stroke.finished)]

def makeCursorJson (cursor : CursorDto) : Json :=
  makeObject [("client", .unsigned cursor.client),
    ("point", makePointJson library cursor.point)]

def eventType : EventDto → String
  | .strokeBegin .. => "stroke_begin"
  | .strokePoint .. => "stroke_point"
  | .strokeEnd .. => "stroke_end"
  | .cursorMove .. => "cursor_move"
  | .clear .. => "clear"
  | .memberLeft .. => "member_left"

/-- The members of an event after `type`, `room` and `seq`. -/
def eventMembers : EventDto → List (String × Json)
  | .strokeBegin author id strokeOrder color thickness start =>
      [("author", .unsigned author), ("id", .unsigned id),
        ("stroke_order", .unsigned strokeOrder), ("color", .unsigned color.toUInt64),
        ("thickness", .unsigned thickness.toUInt64),
        ("start", makePointJson library start)]
  | .strokePoint author id point =>
      [("author", .unsigned author), ("id", .unsigned id),
        ("point", makePointJson library point)]
  | .strokeEnd author id => [("author", .unsigned author), ("id", .unsigned id)]
  | .cursorMove author point =>
      [("author", .unsigned author), ("point", makePointJson library point)]
  | .clear author => [("author", .unsigned author)]
  | .memberLeft client => [("client", .unsigned client)]

/-- The object that `serializeServerMessage` builds. -/
def makeMessageJson : ServerMessage → Json
  | .pongResponse => makeObject [("type", .string (.ascii "pong"))]
  | .roomCreatedResponse room =>
      makeObject [("type", .string (.ascii "room_created")), ("room", .unsigned room)]
  | .okResponse request room =>
      makeObject [("type", .string (.ascii "ok")), ("request", .string request),
        ("room", .unsigned room)]
  | .errorResponse code message =>
      makeObject [("type", .string (.ascii "error")), ("code", .string code),
        ("message", .string message)]
  | .roomSnapshotResponse room lastSeq members strokes cursors =>
      makeObject [("type", .string (.ascii "room_snapshot")), ("room", .unsigned room),
        ("last_seq", .unsigned lastSeq), ("members", .array (members.map .unsigned)),
        ("strokes", .array (strokes.map (makeStrokeJson library))),
        ("cursors", .array (cursors.map (makeCursorJson library)))]
  | .event room seq payload =>
      makeObject ([("type", .string (.ascii (eventType payload))),
        ("room", .unsigned room), ("seq", .unsigned seq)] ++
        eventMembers library payload)

def serializeServerMessage (message : ServerMessage) : Option ByteString :=
  library.dump (makeMessageJson library message)

end Serialize

/-! ## Which messages can be written -/

def ServerMessage.texts : ServerMessage → List ByteString
  | .okResponse request _ => [request]
  | .errorResponse code message => [code, message]
  | _ => []

/-- `dump` does not throw (`serializeServerMessage_isSome`). -/
def ServerMessage.Writable (message : ServerMessage) : Prop :=
  ∀ text ∈ message.texts, Utf8.WellFormed text

instance (message : ServerMessage) : Decidable message.Writable :=
  inferInstanceAs (Decidable (∀ text ∈ message.texts, Utf8.WellFormed text))

theorem wellFormed_ascii (text : String) : Utf8.WellFormed (.ascii text) :=
  Utf8.wellFormed_of_ascii (ByteString.ascii_lt text)

namespace Json

private theorem encodableAll_eq_true {values : List Json} :
    encodableAll values = true ↔ ∀ value ∈ values, value.encodable = true := by
  induction values with
  | nil => simp [encodableAll]
  | cons value rest induction => simp [encodableAll, induction]

theorem encodableMembers_eq_true {members : List (ByteString × Json)} :
    encodableMembers members = true ↔
      ∀ member ∈ members, Utf8.WellFormed member.1 ∧ member.2.encodable = true := by
  induction members with
  | nil => simp [encodableMembers]
  | cons member rest induction =>
      simp [encodableMembers, induction, and_assoc]

end Json

theorem encodable_makeObject {members : List (String × Json)} :
    (makeObject members).encodable = true ↔
      ∀ member ∈ members, member.2.encodable = true := by
  rw [makeObject, Json.encodable, Json.encodableMembers_eq_true, List.forall_mem_map]
  constructor
  · intro all member isMember
    exact (all member isMember).2
  · intro all member isMember
    exact ⟨wellFormed_ascii member.1, all member isMember⟩

theorem encodableAll_map {Value : Type} {make : Value → Json}
    (each : ∀ value, (make value).encodable = true) (values : List Value) :
    Json.encodableAll (values.map make) = true := by
  rw [Json.encodableAll_eq_true, List.forall_mem_map]
  intro value _
  exact each value

section Encodable

variable (library : JsonLibrary)

theorem makePointJson_encodable (point : PointDto) :
    (makePointJson library point).encodable = true := by
  simp [makePointJson, encodable_makeObject, Json.encodable]

private theorem makeStrokeJson_encodable (stroke : StrokeDto) :
    (makeStrokeJson library stroke).encodable = true := by
  simp [makeStrokeJson, encodable_makeObject, Json.encodable,
    encodableAll_map (makePointJson_encodable library)]

private theorem makeCursorJson_encodable (cursor : CursorDto) :
    (makeCursorJson library cursor).encodable = true := by
  simp [makeCursorJson, encodable_makeObject, Json.encodable, makePointJson_encodable]

private theorem eventMembers_encodable (payload : EventDto) :
    ∀ member ∈ eventMembers library payload, member.2.encodable = true := by
  cases payload <;> simp [eventMembers, Json.encodable, makePointJson_encodable]

private theorem makeMessageJson_encodable (message : ServerMessage) :
    (makeMessageJson library message).encodable = true ↔ message.Writable := by
  unfold ServerMessage.Writable
  cases message with
  | event room seq payload =>
      rw [makeMessageJson, encodable_makeObject, List.forall_mem_append]
      constructor
      · exact fun _ => nofun
      · intro _
        refine ⟨?_, eventMembers_encodable library payload⟩
        simp [Json.encodable, wellFormed_ascii]
  | roomSnapshotResponse room lastSeq members strokes cursors =>
      have ids : Json.encodableAll (members.map Json.unsigned) = true :=
        encodableAll_map (fun _ => rfl) members
      simp [makeMessageJson, encodable_makeObject, Json.encodable, ServerMessage.texts,
        wellFormed_ascii, ids, encodableAll_map (makeStrokeJson_encodable library),
        encodableAll_map (makeCursorJson_encodable library)]
  | _ =>
      simp [makeMessageJson, encodable_makeObject, Json.encodable, ServerMessage.texts,
        wellFormed_ascii]

theorem serializeServerMessage_isSome {library : JsonLibrary} (lawful : library.Lawful)
    (message : ServerMessage) :
    (serializeServerMessage library message).isSome = true ↔ message.Writable := by
  rw [serializeServerMessage, lawful.dump_isSome, makeMessageJson_encodable]

end Encodable

/-! ## The texts of protocol errors -/

def ProtocolError.Readable (error : ProtocolError) : Prop :=
  Utf8.WellFormed error.message

namespace ParseFailure

theorem hexDigit_lt (number : Nat) : hexDigit number < 0x80 := by
  rw [hexDigit, List.getD_eq_getElem?_getD]
  cases digit : (ByteString.ascii "0123456789ABCDEF")[number]? with
  | none => decide
  | some byte => exact ByteString.ascii_lt _ byte (List.mem_of_getElem? digit)

/-- Quoting leaves it open whether the token was well-formed. -/
theorem what_wellFormed (failure : ParseFailure) :
    Utf8.WellFormed failure.what ↔ Utf8.WellFormed failure.token := by
  rw [what, Utf8.wellFormed_enclosed failure.beforeAscii failure.afterAscii]
  unfold Utf8.WellFormed
  rw [Utf8.scan_flatMap]
  intro byte
  unfold quoteByte
  split
  next isControl =>
    refine .inr ⟨UInt8.lt_of_le_of_lt isControl (by decide), ?_, by simp⟩
    intro other member
    simp only [List.mem_append, List.mem_cons, List.not_mem_nil, or_false] at member
    rcases member with (opening | high | low) | closing
    · exact ByteString.ascii_lt _ other opening
    · rw [high]
      exact hexDigit_lt _
    · rw [low]
      exact hexDigit_lt _
    · exact ByteString.ascii_lt _ other closing
  next => exact .inl rfl

end ParseFailure

theorem ascii_append_wellFormed (text : String) {rest : ByteString}
    (restWell : Utf8.WellFormed rest) : Utf8.WellFormed (.ascii text ++ rest) :=
  (wellFormed_ascii text).append restWell

theorem missingField_readable (key : String) : (missingField (.ascii key)).Readable :=
  ascii_append_wellFormed _ (wellFormed_ascii key)

theorem invalidFieldType_readable (key : String) :
    (invalidFieldType (.ascii key)).Readable :=
  ascii_append_wellFormed _ (wellFormed_ascii key)

/-! ### By shape

An object that is not a request is turned down for a missing field, an invalid
field or an unknown type. -/

section Fails

variable (library : JsonLibrary) {Condition : ProtocolError → Prop}
  (missing : ∀ key : String, Condition (missingField (.ascii key)))
  (invalid : ∀ key : String, Condition (invalidFieldType (.ascii key)))

include missing invalid

theorem getRequired_fails {Value : Type} (get : Json → Option Value) (object : Json)
    (key : String) : FailsWith Condition (getRequired get object (.ascii key)) := by
  unfold getRequired
  split
  · exact .error (missing key)
  · split
    · exact .error (invalid key)
    · exact .ok _

theorem getRequiredPoint_fails (object : Json) (key : String) :
    FailsWith Condition (getRequiredPoint library object (.ascii key)) := by
  unfold getRequiredPoint
  split
  · exact .error (missing key)
  · split
    · apply (getRequired_fails missing invalid _ _ "x").bind
      intro x
      apply (getRequired_fails missing invalid _ _ "y").bind
      exact fun _ => .ok _
    · exact .error (invalid key)

private theorem parseRoomRequest_fails (object : Json) (build : RoomId → ClientMessage) :
    FailsWith Condition (parseRoomRequest library object build) :=
  (getRequired_fails missing invalid _ object "room").bind fun _ => .ok _

private theorem parsePointRequest_fails (object : Json)
    (build : PointDto → EventRequest) :
    FailsWith Condition (parsePointRequest library object build) := by
  apply (getRequired_fails missing invalid _ object "room").bind
  intro room
  apply (getRequiredPoint_fails library missing invalid object "point").bind
  exact fun _ => .ok _

private theorem parseStrokeBegin_fails
    (range : Condition
      ⟨.invalidFieldType, .ascii "color or thickness is out of range"⟩)
    (object : Json) : FailsWith Condition (parseStrokeBegin library object) := by
  apply (getRequired_fails missing invalid _ object "room").bind
  intro room
  apply (getRequired_fails missing invalid _ object "color").bind
  intro color
  apply (getRequired_fails missing invalid _ object "thickness").bind
  intro thickness
  apply (getRequiredPoint_fails library missing invalid object "start").bind
  intro start
  apply FailsWith.ite
  · exact fun _ => .error range
  · exact fun _ => .ok _

theorem parseTyped_fails
    (range : Condition
      ⟨.invalidFieldType, .ascii "color or thickness is out of range"⟩)
    (object : Json) {type : ByteString}
    (unknown : Condition
      ⟨.unknownMessageType, .ascii "unknown message type: " ++ type⟩) :
    FailsWith Condition (parseTyped library object type) := by
  have roomRequest := parseRoomRequest_fails library missing invalid object
  have pointRequest := parsePointRequest_fails library missing invalid object
  unfold parseTyped
  refine .ite (fun _ => .ok _) fun _ => .ite (fun _ => .ok _) fun _ =>
    .ite (fun _ => roomRequest _) fun _ => .ite (fun _ => roomRequest _) fun _ =>
    .ite (fun _ => parseStrokeBegin_fails library missing invalid range object) fun _ =>
    .ite (fun _ => pointRequest _) fun _ => .ite (fun _ => roomRequest _) fun _ =>
    .ite (fun _ => pointRequest _) fun _ => .ite (fun _ => roomRequest _) fun _ => ?_
  exact .error unknown

end Fails

private theorem getRequired_string_wellFormed {object : Json}
    (encodable : object.encodable = true) {key text : ByteString}
    (read : getRequired getString object key = .ok text) : Utf8.WellFormed text := by
  unfold getRequired at read
  cases found : object.find key with
  | none =>
      simp only [found] at read
      cases read
  | some value =>
      cases value with
      | string content =>
          simp only [found, getString] at read
          cases read
          cases object with
          | object members =>
              rcases List.lookup_eq_some_iff.mp found with ⟨front, back, split, _⟩
              rw [Json.encodable, Json.encodableMembers_eq_true] at encodable
              have member := encodable (key, .string text) (by simp [split])
              exact of_decide_eq_true member.2
          | _ => cases found
      | _ =>
          simp only [found, getString] at read
          cases read

/-- Of a line that is JSON every error can be sent; of one that is not, exactly
if the token at which parsing stopped is well-formed. -/
theorem parseClientMessage_readable {library : JsonLibrary} (lawful : library.Lawful)
    (line : ByteString) :
    FailsWith ProtocolError.Readable (parseClientMessage library line) ↔
      ∀ failure, library.parse line = .error failure →
        Utf8.WellFormed failure.token := by
  unfold parseClientMessage
  cases parsed : library.parse line with
  | error failure =>
      constructor
      · intro readable other same
        cases same
        exact failure.what_wellFormed.mp (readable _ rfl)
      · intro wellFormed
        exact .error (failure.what_wellFormed.mpr (wellFormed failure rfl))
  | ok object =>
      refine iff_of_true ?_ nofun
      apply FailsWith.ite
      · intro _
        cases type : getRequired getString object (.ascii "type") with
        | error error =>
            exact .error (getRequired_fails missingField_readable
              invalidFieldType_readable getString object "type" error type)
        | ok text =>
            have typeWell : Utf8.WellFormed text := getRequired_string_wellFormed
              (lawful.parse_encodable line object parsed) type
            -- an unknown type is echoed, so it has to be well-formed itself
            exact parseTyped_fails library missingField_readable
              invalidFieldType_readable (wellFormed_ascii _) object
              (ascii_append_wellFormed _ typeWell)
      · exact fun _ => .error (wellFormed_ascii _)

end ClearSpace.Transport
