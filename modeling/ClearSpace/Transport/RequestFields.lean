import ClearSpace.Transport.JsonProtocol

/-! # The fields of requests

The protocol as a table: the types of requests and the fields each of them
needs. `parseClientMessage` converts numbers before it checks their range, so it
accepts somewhat more than the table says. -/

namespace ClearSpace.Transport

open ClearSpace.Core

/-! ## The protocol -/

inductive FieldKind
  | room
  | byte
  | point
  deriving DecidableEq, Repr

structure Field where
  key : String
  kind : FieldKind

inductive RequestType
  | ping
  | createRoom
  | joinRoom
  | leaveRoom
  | strokeBegin
  | strokePoint
  | strokeEnd
  | cursorMove
  | clear
  deriving DecidableEq, Repr

namespace RequestType

def name : RequestType → String
  | ping => "ping"
  | createRoom => "create_room"
  | joinRoom => "join_room"
  | leaveRoom => "leave_room"
  | strokeBegin => "stroke_begin"
  | strokePoint => "stroke_point"
  | strokeEnd => "stroke_end"
  | cursorMove => "cursor_move"
  | clear => "clear"

def fields : RequestType → List Field
  | ping => []
  | createRoom => []
  | joinRoom => [⟨"room", .room⟩]
  | leaveRoom => [⟨"room", .room⟩]
  | strokeBegin =>
      [⟨"room", .room⟩, ⟨"color", .byte⟩, ⟨"thickness", .byte⟩, ⟨"start", .point⟩]
  | strokePoint => [⟨"room", .room⟩, ⟨"point", .point⟩]
  | strokeEnd => [⟨"room", .room⟩]
  | cursorMove => [⟨"room", .room⟩, ⟨"point", .point⟩]
  | clear => [⟨"room", .room⟩]

end RequestType

namespace Json

/-- The number that an integer of the text stands for. -/
def number? : Json → Option Int
  | .unsigned value => some value.toNat
  | .integer value => some value.toInt
  | _ => none

def IsNumber : Json → Prop
  | .unsigned _ => True
  | .integer _ => True
  | .float _ => True
  | _ => False

def IsBoolean : Json → Prop
  | .boolean _ => True
  | _ => False

def IsFloat : Json → Prop
  | .float _ => True
  | _ => False

end Json

namespace FieldKind

def Valid : FieldKind → Json → Prop
  | room, value => ∃ number, value.number? = some number ∧ 0 ≤ number ∧ number < 2 ^ 64
  | byte, value => ∃ number, value.number? = some number ∧ 0 ≤ number ∧ number ≤ 255
  | point, value => value.isObject = true ∧
      ∃ x y, value.find (.ascii "x") = some x ∧ value.find (.ascii "y") = some y ∧
        x.IsNumber ∧ y.IsNumber

/-- What the conversions let through: any integer for a room, for a byte an
integer whose lowest 32 bits are at most 255, and booleans for numbers. -/
def Converts : FieldKind → Json → Prop
  | room, value => ∃ number, value.number? = some number
  | byte, value => value.IsBoolean ∨
      ∃ number, value.number? = some number ∧ number % 2 ^ 32 ≤ 255
  | point, value => value.isObject = true ∧
      ∃ x y, value.find (.ascii "x") = some x ∧ value.find (.ascii "y") = some y ∧
        (x.IsNumber ∨ x.IsBoolean) ∧ (y.IsNumber ∨ y.IsBoolean)

/-- The values that do not mean what they are converted to. -/
def Altered : FieldKind → Json → Prop
  | room, value => ∃ number, value.number? = some number ∧ number < 0
  | byte, value => value.IsBoolean ∨
      ∃ number, value.number? = some number ∧ (number < 0 ∨ 255 < number)
  | point, value => ∃ coordinate, (value.find (.ascii "x") = some coordinate ∨
      value.find (.ascii "y") = some coordinate) ∧ coordinate.IsBoolean

end FieldKind

namespace Json

def HasType (object : Json) (request : RequestType) : Prop :=
  object.find (.ascii "type") = some (.string (.ascii request.name))

/-- The object has every field of the request, and their values satisfy the
condition. -/
def HasFields (object : Json) (request : RequestType)
    (Condition : FieldKind → Json → Prop) : Prop :=
  ∀ field ∈ request.fields, ∃ value,
    object.find (.ascii field.key) = some value ∧ Condition field.kind value

def Integral (object : Json) : Prop :=
  ∀ request, object.HasType request → ∀ field ∈ request.fields, ∀ value,
    object.find (.ascii field.key) = some value → field.kind ≠ .point → ¬ value.IsFloat

def IsRequest (object : Json) : Prop :=
  ∃ request, object.HasType request ∧ object.HasFields request FieldKind.Valid

/-- All fields of the request convert, but one of them does not mean what it is
converted to. -/
def Slips (object : Json) : Prop :=
  ∃ request, object.HasType request ∧ object.HasFields request FieldKind.Converts ∧
    ∃ field ∈ request.fields, ∃ value, object.find (.ascii field.key) = some value ∧
      field.kind.Altered value

end Json

def ClientMessage.integers : ClientMessage → List (String × Nat)
  | .pingRequest => []
  | .createRoomRequest => []
  | .joinRoomRequest room => [("room", room.toNat)]
  | .leaveRoomRequest room => [("room", room.toNat)]
  | .eventRequest room (.strokeBegin color thickness _) =>
      [("room", room.toNat), ("color", color.toNat), ("thickness", thickness.toNat)]
  | .eventRequest room _ => [("room", room.toNat)]

def ClientMessage.type : ClientMessage → RequestType
  | .pingRequest => .ping
  | .createRoomRequest => .createRoom
  | .joinRoomRequest _ => .joinRoom
  | .leaveRoomRequest _ => .leaveRoom
  | .eventRequest _ (.strokeBegin ..) => .strokeBegin
  | .eventRequest _ (.strokePoint _) => .strokePoint
  | .eventRequest _ .strokeEnd => .strokeEnd
  | .eventRequest _ (.cursorMove _) => .cursorMove
  | .eventRequest _ .clear => .clear

/-- The parser has accepted exactly the requests of the protocol and left their
numbers as they are. -/
structure ParsesExactly (object : Json)
    (result : Except ProtocolError ClientMessage) : Prop where
  accepted : (∃ message, result = .ok message) ↔ object.IsRequest
  faithful : ∀ message, result = .ok message → object.HasType message.type ∧
    ∀ entry ∈ message.integers,
      (object.find (.ascii entry.1)).bind Json.number? = some (entry.2 : Int)
  refused : ∀ error, result = .error error → error.code = .missingField ∨
    error.code = .invalidFieldType ∨ error.code = .unknownMessageType

/-! ## Conversions -/

theorem toInt_eq (value : Int64) :
    value.toInt = if 2 * value.toUInt64.toNat < 2 ^ 64 then (value.toUInt64.toNat : Int)
      else value.toUInt64.toNat - 2 ^ 64 :=
  BitVec.toInt_eq_toNat_cond value.toBitVec

section Conversions

variable (library : JsonLibrary) {value : Json}

theorem getUInt64_eq_some (notFloat : ¬ value.IsFloat) {room : UInt64} :
    getUInt64 library value = some room ↔
      ∃ number, value.number? = some number ∧ number % 2 ^ 64 = room.toNat := by
  cases value with
  | unsigned held =>
      have bound := held.toNat_lt
      constructor
      · intro read
        cases read
        exact ⟨_, rfl, by omega⟩
      · intro found
        rcases found with ⟨number, isNumber, same⟩
        cases isNumber
        have equal : held = room := UInt64.toNat_inj.mp (by omega)
        rw [equal]
        rfl
  | integer held =>
      have bound := held.toUInt64.toNat_lt
      have signed := toInt_eq held
      constructor
      · intro read
        cases read
        refine ⟨_, rfl, ?_⟩
        split at signed <;> omega
      · intro found
        rcases found with ⟨number, isNumber, same⟩
        cases isNumber
        have equal : held.toUInt64 = room := by
          apply UInt64.toNat_inj.mp
          have roomBound := room.toNat_lt
          split at signed <;> omega
        rw [← equal]
        rfl
  | float bits => exact absurd trivial notFloat
  | _ => simp [getUInt64, Json.number?]

theorem getUnsignedInt_eq_some (notFloat : ¬ value.IsFloat)
    (notBoolean : ¬ value.IsBoolean) {word : UInt32} :
    getUnsignedInt library value = some word ↔
      ∃ number, value.number? = some number ∧ number % 2 ^ 32 = word.toNat := by
  cases value with
  | unsigned held =>
      have bound := held.toNat_lt
      have low : held.toUInt32.toNat = held.toNat % 2 ^ 32 := held.toNat_toUInt32
      constructor
      · intro read
        cases read
        exact ⟨_, rfl, by omega⟩
      · intro found
        rcases found with ⟨number, isNumber, same⟩
        cases isNumber
        have equal : held.toUInt32 = word := UInt32.toNat_inj.mp (by omega)
        rw [← equal]
        rfl
  | integer held =>
      have bound := held.toUInt64.toNat_lt
      have low : held.toUInt64.toUInt32.toNat = held.toUInt64.toNat % 2 ^ 32 :=
        held.toUInt64.toNat_toUInt32
      have signed := toInt_eq held
      constructor
      · intro read
        cases read
        refine ⟨_, rfl, ?_⟩
        split at signed <;> omega
      · intro found
        rcases found with ⟨number, isNumber, same⟩
        cases isNumber
        have equal : held.toUInt64.toUInt32 = word := by
          apply UInt32.toNat_inj.mp
          split at signed <;> omega
        rw [← equal]
        rfl
  | float bits => exact absurd trivial notFloat
  | boolean held => exact absurd trivial notBoolean
  | _ => simp [getUnsignedInt, Json.number?]

private theorem getFloat_isSome :
    (∃ coordinate, getFloat library value = some coordinate) ↔
      value.IsNumber ∨ value.IsBoolean := by
  cases value <;> simp [getFloat, Json.IsNumber, Json.IsBoolean]

end Conversions

namespace Json

private theorem number?_bounds {value : Json} {number : Int}
    (isNumber : value.number? = some number) : -2 ^ 63 ≤ number ∧ number < 2 ^ 64 := by
  cases value with
  | unsigned held =>
      cases isNumber
      have bound := held.toNat_lt
      omega
  | integer held =>
      cases isNumber
      have bound := held.toUInt64.toNat_lt
      have signed := toInt_eq held
      split at signed <;> omega
  | _ => cases isNumber

private theorem number?_boolean {value : Json} (isBoolean : value.IsBoolean) :
    value.number? = none := by
  cases value with
  | boolean held => rfl
  | _ => exact isBoolean.elim

theorem not_isNumber_of_isBoolean {value : Json} (isBoolean : value.IsBoolean) :
    ¬ value.IsNumber := by
  cases value with
  | boolean held => exact id
  | _ => exact isBoolean.elim

end Json

/-- The protocol allows what converts without being altered. -/
theorem FieldKind.valid_iff (kind : FieldKind) (value : Json) :
    kind.Valid value ↔ kind.Converts value ∧ ¬ kind.Altered value := by
  cases kind with
  | room =>
      constructor
      · intro valid
        rcases valid with ⟨number, isNumber, nonnegative, _⟩
        refine ⟨⟨number, isNumber⟩, ?_⟩
        intro altered
        rcases altered with ⟨other, isOther, negative⟩
        cases isNumber.symm.trans isOther
        omega
      · intro converts
        rcases converts with ⟨⟨number, isNumber⟩, unaltered⟩
        refine ⟨number, isNumber, ?_, (Json.number?_bounds isNumber).2⟩
        by_contra negative
        exact unaltered ⟨number, isNumber, by omega⟩
  | byte =>
      constructor
      · intro valid
        rcases valid with ⟨number, isNumber, nonnegative, small⟩
        refine ⟨.inr ⟨number, isNumber, by omega⟩, ?_⟩
        intro altered
        rcases altered with isBoolean | ⟨other, isOther, outside⟩
        · cases isNumber.symm.trans (Json.number?_boolean isBoolean)
        · cases isNumber.symm.trans isOther
          omega
      · intro converts
        rcases converts with ⟨isBoolean | ⟨number, isNumber, _⟩, unaltered⟩
        · exact absurd (.inl isBoolean) unaltered
        · refine ⟨number, isNumber, ?_⟩
          by_contra outside
          exact unaltered (.inr ⟨number, isNumber, by omega⟩)
  | point =>
      constructor
      · intro valid
        rcases valid with ⟨isObject, x, y, foundX, foundY, numberX, numberY⟩
        refine ⟨⟨isObject, x, y, foundX, foundY, .inl numberX, .inl numberY⟩, ?_⟩
        intro altered
        rcases altered with ⟨coordinate, found | found, isBoolean⟩
        · cases foundX.symm.trans found
          exact Json.not_isNumber_of_isBoolean isBoolean numberX
        · cases foundY.symm.trans found
          exact Json.not_isNumber_of_isBoolean isBoolean numberY
      · intro converts
        rcases converts with ⟨⟨isObject, x, y, foundX, foundY, readX, readY⟩, unaltered⟩
        refine ⟨isObject, x, y, foundX, foundY, ?_, ?_⟩
        · exact readX.resolve_right fun isBoolean =>
            unaltered ⟨x, .inl foundX, isBoolean⟩
        · exact readY.resolve_right fun isBoolean =>
            unaltered ⟨y, .inr foundY, isBoolean⟩

/-! ## Fields -/

theorem getRequired_eq_ok {Value : Type} {get : Json → Option Value} {object : Json}
    {key : ByteString} {result : Value} :
    getRequired get object key = .ok result ↔
      ∃ value, object.find key = some value ∧ get value = some result := by
  unfold getRequired
  cases object.find key with
  | none => simp
  | some value => cases got : get value <;> simp [got]

section Fields

variable (library : JsonLibrary) (object : Json) (key : ByteString)

theorem getRequired_room_isOk
    (notFloat : ∀ value, object.find key = some value → ¬ value.IsFloat) :
    (∃ room, getRequired (getUInt64 library) object key = .ok room) ↔
      ∃ value, object.find key = some value ∧ FieldKind.room.Converts value := by
  constructor
  · intro read
    rcases read with ⟨room, read⟩
    rcases getRequired_eq_ok.mp read with ⟨value, found, got⟩
    rcases (getUInt64_eq_some library (notFloat value found)).mp got with
      ⟨number, isNumber, _⟩
    exact ⟨value, found, number, isNumber⟩
  · intro converts
    rcases converts with ⟨value, found, number, isNumber⟩
    refine ⟨.ofNat (number % 2 ^ 64).toNat, getRequired_eq_ok.mpr ⟨value, found, ?_⟩⟩
    refine (getUInt64_eq_some library (notFloat value found)).mpr ⟨number, isNumber, ?_⟩
    rw [UInt64.toNat_ofNat']
    omega

theorem getRequired_byte_isOk
    (notFloat : ∀ value, object.find key = some value → ¬ value.IsFloat) :
    (∃ word, getRequired (getUnsignedInt library) object key = .ok word ∧ word ≤ 255) ↔
      ∃ value, object.find key = some value ∧ FieldKind.byte.Converts value := by
  constructor
  · intro read
    rcases read with ⟨word, read, small⟩
    rcases getRequired_eq_ok.mp read with ⟨value, found, got⟩
    refine ⟨value, found, ?_⟩
    by_cases isBoolean : value.IsBoolean
    · exact .inl isBoolean
    · rcases (getUnsignedInt_eq_some library (notFloat value found) isBoolean).mp got with
        ⟨number, isNumber, same⟩
      have bound : word.toNat ≤ 255 := UInt32.le_iff_toNat_le.mp small
      exact .inr ⟨number, isNumber, by omega⟩
  · intro converts
    rcases converts with ⟨value, found, converts⟩
    by_cases isBoolean : value.IsBoolean
    · cases value with
      | boolean held =>
          exact ⟨_, getRequired_eq_ok.mpr ⟨_, found, rfl⟩, by cases held <;> decide⟩
      | _ => exact isBoolean.elim
    · rcases converts.resolve_left isBoolean with ⟨number, isNumber, small⟩
      have word : (UInt32.ofNat (number % 2 ^ 32).toNat).toNat = number % 2 ^ 32 := by
        rw [UInt32.toNat_ofNat']
        omega
      refine ⟨.ofNat (number % 2 ^ 32).toNat,
        getRequired_eq_ok.mpr ⟨value, found, ?_⟩, ?_⟩
      · exact (getUnsignedInt_eq_some library (notFloat value found) isBoolean).mpr
          ⟨number, isNumber, word.symm⟩
      · exact UInt32.le_iff_toNat_le.mpr (by simp only [UInt32.reduceToNat]; omega)

theorem getRequiredPoint_isOk :
    (∃ point, getRequiredPoint library object key = .ok point) ↔
      ∃ value, object.find key = some value ∧ FieldKind.point.Converts value := by
  unfold getRequiredPoint
  cases object.find key with
  | none => simp
  | some value =>
      cases isObject : value.isObject with
      | false => simp [isObject, FieldKind.Converts]
      | true =>
          simp only [if_true, bind_ok_iff, getRequired_eq_ok, Option.some.injEq,
            exists_eq_left', FieldKind.Converts, isObject, true_and,
            ← getFloat_isSome library]
          constructor
          · intro read
            rcases read with ⟨point, x, ⟨atX, foundX, readX⟩, y, ⟨atY, foundY, readY⟩, _⟩
            exact ⟨atX, atY, foundX, foundY, ⟨x, readX⟩, ⟨y, readY⟩⟩
          · intro converts
            rcases converts with ⟨atX, atY, foundX, foundY, ⟨x, readX⟩, ⟨y, readY⟩⟩
            exact ⟨⟨x, y⟩, x, ⟨atX, foundX, readX⟩, y, ⟨atY, foundY, readY⟩, rfl⟩

end Fields

/-! ## Requests -/

private theorem RequestType.name_injective {request other : RequestType}
    (same : ByteString.ascii request.name = .ascii other.name) : request = other := by
  revert same
  cases request <;> cases other <;> decide

theorem Json.HasType.unique {object : Json} {request other : RequestType}
    (hasType : object.HasType request) (hasOther : object.HasType other) :
    request = other := by
  have same := hasType.symm.trans hasOther
  simp only [Option.some.injEq, Json.string.injEq] at same
  exact RequestType.name_injective same

section Requests

variable (library : JsonLibrary) {object : Json}

def parseRequest (object : Json) : RequestType → Except ProtocolError ClientMessage
  | .ping => .ok .pingRequest
  | .createRoom => .ok .createRoomRequest
  | .joinRoom => parseRoomRequest library object .joinRoomRequest
  | .leaveRoom => parseRoomRequest library object .leaveRoomRequest
  | .strokeBegin => parseStrokeBegin library object
  | .strokePoint => parsePointRequest library object .strokePoint
  | .strokeEnd => parseRoomRequest library object (.eventRequest · .strokeEnd)
  | .cursorMove => parsePointRequest library object .cursorMove
  | .clear => parseRoomRequest library object (.eventRequest · .clear)

theorem parseTyped_name (request : RequestType) :
    parseTyped library object (.ascii request.name) =
      parseRequest library object request := by
  cases request <;> rfl

private theorem parseTyped_eq_ok {type : ByteString} {message : ClientMessage} :
    parseTyped library object type = .ok message ↔
      ∃ request : RequestType, type = .ascii request.name ∧
        parseRequest library object request = .ok message := by
  constructor
  · intro read
    have known : ∃ request : RequestType, type = .ascii request.name := by
      by_contra unknown
      have differs (request : RequestType) : type ≠ .ascii request.name :=
        fun same => unknown ⟨request, same⟩
      have ping : type ≠ .ascii "ping" := differs .ping
      have createRoom : type ≠ .ascii "create_room" := differs .createRoom
      have joinRoom : type ≠ .ascii "join_room" := differs .joinRoom
      have leaveRoom : type ≠ .ascii "leave_room" := differs .leaveRoom
      have strokeBegin : type ≠ .ascii "stroke_begin" := differs .strokeBegin
      have strokePoint : type ≠ .ascii "stroke_point" := differs .strokePoint
      have strokeEnd : type ≠ .ascii "stroke_end" := differs .strokeEnd
      have cursorMove : type ≠ .ascii "cursor_move" := differs .cursorMove
      have clear : type ≠ .ascii "clear" := differs .clear
      rw [parseTyped, if_neg ping, if_neg createRoom, if_neg joinRoom, if_neg leaveRoom,
        if_neg strokeBegin, if_neg strokePoint, if_neg strokeEnd, if_neg cursorMove,
        if_neg clear] at read
      cases read
    rcases known with ⟨request, rfl⟩
    rw [parseTyped_name] at read
    exact ⟨request, rfl, read⟩
  · intro found
    rcases found with ⟨request, rfl, read⟩
    rw [parseTyped_name]
    exact read

theorem parseClientMessage_eq_ok {line : ByteString}
    (parsed : library.parse line = .ok object) (root : object.isObject = true)
    {message : ClientMessage} :
    parseClientMessage library line = .ok message ↔
      ∃ request : RequestType, object.HasType request ∧
        parseRequest library object request = .ok message := by
  simp only [parseClientMessage, parsed, root, if_true, bind_ok_iff, getRequired_eq_ok,
    parseTyped_eq_ok]
  constructor
  · intro read
    rcases read with ⟨type, ⟨value, found, got⟩, request, rfl, read⟩
    refine ⟨request, ?_, read⟩
    cases value with
    | string text =>
        cases got
        exact found
    | _ => cases got
  · intro read
    rcases read with ⟨request, hasType, read⟩
    exact ⟨.ascii request.name, ⟨_, hasType, rfl⟩, request, rfl, read⟩

private theorem parseRoomRequest_isOk (build : RoomId → ClientMessage)
    (notFloat : ∀ value, object.find (.ascii "room") = some value → ¬ value.IsFloat) :
    (∃ message, parseRoomRequest library object build = .ok message) ↔
      ∃ value, object.find (.ascii "room") = some value ∧
        FieldKind.room.Converts value := by
  rw [← getRequired_room_isOk library object _ notFloat]
  simp only [parseRoomRequest, getRequiredRoom, bind_ok_iff]
  constructor
  · intro read
    rcases read with ⟨message, room, read, _⟩
    exact ⟨room, read⟩
  · intro read
    rcases read with ⟨room, read⟩
    exact ⟨build room, room, read, rfl⟩

private theorem parsePointRequest_isOk (build : PointDto → EventRequest)
    (notFloat : ∀ value, object.find (.ascii "room") = some value → ¬ value.IsFloat) :
    (∃ message, parsePointRequest library object build = .ok message) ↔
      (∃ value, object.find (.ascii "room") = some value ∧
        FieldKind.room.Converts value) ∧
      ∃ value, object.find (.ascii "point") = some value ∧
        FieldKind.point.Converts value := by
  rw [← getRequired_room_isOk library object _ notFloat,
    ← getRequiredPoint_isOk library object]
  simp only [parsePointRequest, getRequiredRoom, bind_ok_iff]
  constructor
  · intro read
    rcases read with ⟨message, room, readRoom, point, readPoint, _⟩
    exact ⟨⟨room, readRoom⟩, ⟨point, readPoint⟩⟩
  · intro read
    rcases read with ⟨⟨room, readRoom⟩, ⟨point, readPoint⟩⟩
    exact ⟨_, room, readRoom, point, readPoint, rfl⟩

theorem parseStrokeBegin_eq_ok {message : ClientMessage} :
    parseStrokeBegin library object = .ok message ↔
      ∃ room color thickness start, getRequiredRoom library object = .ok room ∧
        (getRequired (getUnsignedInt library) object (.ascii "color") = .ok color ∧
          color ≤ 255) ∧
        (getRequired (getUnsignedInt library) object (.ascii "thickness") =
          .ok thickness ∧ thickness ≤ 255) ∧
        getRequiredPoint library object (.ascii "start") = .ok start ∧
        message = .eventRequest room
          (.strokeBegin color.toUInt8 thickness.toUInt8 start) := by
  simp only [parseStrokeBegin, bind_ok_iff]
  constructor
  · intro read
    rcases read with ⟨room, readRoom, color, readColor, thickness, readThickness, start,
      readStart, read⟩
    split at read
    next outside => cases read
    next inside =>
      simp only [not_or, UInt32.not_lt] at inside
      cases read
      exact ⟨room, color, thickness, start, readRoom, ⟨readColor, inside.1⟩,
        ⟨readThickness, inside.2⟩, readStart, rfl⟩
  · intro read
    rcases read with ⟨room, color, thickness, start, readRoom, ⟨readColor, smallColor⟩,
      ⟨readThickness, smallThickness⟩, readStart, rfl⟩
    refine ⟨room, readRoom, color, readColor, thickness, readThickness, start,
      readStart, ?_⟩
    rw [if_neg]
    · rfl
    · simp only [not_or, UInt32.not_lt]
      exact ⟨smallColor, smallThickness⟩

private theorem parseStrokeBegin_isOk
    (integral : ∀ field ∈ RequestType.strokeBegin.fields,
      ∀ value, object.find (.ascii field.key) = some value → field.kind ≠ .point →
        ¬ value.IsFloat) :
    (∃ message, parseStrokeBegin library object = .ok message) ↔
      object.HasFields .strokeBegin FieldKind.Converts := by
  have notFloat (field : Field) (listed : field ∈ RequestType.strokeBegin.fields)
      (notPoint : field.kind ≠ .point) (value : Json)
      (found : object.find (.ascii field.key) = some value) : ¬ value.IsFloat :=
    integral field listed value found notPoint
  have roomIsOk := getRequired_room_isOk library object (.ascii "room")
    (notFloat ⟨"room", .room⟩ (by simp [RequestType.fields]) nofun)
  have colorIsOk := getRequired_byte_isOk library object (.ascii "color")
    (notFloat ⟨"color", .byte⟩ (by simp [RequestType.fields]) nofun)
  have thicknessIsOk := getRequired_byte_isOk library object (.ascii "thickness")
    (notFloat ⟨"thickness", .byte⟩ (by simp [RequestType.fields]) nofun)
  have startIsOk := getRequiredPoint_isOk library object (.ascii "start")
  simp only [Json.HasFields, RequestType.fields, List.forall_mem_cons,
    List.not_mem_nil, false_imp_iff, implies_true, and_true,
    ← roomIsOk, ← colorIsOk, ← thicknessIsOk, ← startIsOk, parseStrokeBegin_eq_ok]
  constructor
  · intro read
    rcases read with ⟨message, room, color, thickness, start, readRoom, readColor,
      readThickness, readStart, _⟩
    exact ⟨⟨room, readRoom⟩, ⟨color, readColor⟩, ⟨thickness, readThickness⟩,
      ⟨start, readStart⟩⟩
  · intro read
    rcases read with ⟨⟨room, readRoom⟩, ⟨color, readColor⟩, ⟨thickness, readThickness⟩,
      ⟨start, readStart⟩⟩
    exact ⟨_, room, color, thickness, start, readRoom, readColor, readThickness,
      readStart, rfl⟩

theorem parseRequest_isOk (integral : object.Integral) {request : RequestType}
    (hasType : object.HasType request) :
    (∃ message, parseRequest library object request = .ok message) ↔
      object.HasFields request FieldKind.Converts := by
  have notFloat := integral request hasType
  have roomNotFloat (listed : ⟨"room", .room⟩ ∈ request.fields) (value : Json)
      (found : object.find (.ascii "room") = some value) : ¬ value.IsFloat :=
    notFloat ⟨"room", .room⟩ listed value found nofun
  have roomRequest (build : RoomId → ClientMessage)
      (only : request.fields = [⟨"room", .room⟩]) :
      (∃ message, parseRoomRequest library object build = .ok message) ↔
        object.HasFields request FieldKind.Converts := by
    rw [parseRoomRequest_isOk library build (roomNotFloat (by simp [only]))]
    simp [Json.HasFields, only]
  have pointRequest (build : PointDto → EventRequest)
      (both : request.fields = [⟨"room", .room⟩, ⟨"point", .point⟩]) :
      (∃ message, parsePointRequest library object build = .ok message) ↔
        object.HasFields request FieldKind.Converts := by
    rw [parsePointRequest_isOk library build (roomNotFloat (by simp [both]))]
    simp [Json.HasFields, both]
  cases request with
  | ping => exact iff_of_true ⟨_, rfl⟩ nofun
  | createRoom => exact iff_of_true ⟨_, rfl⟩ nofun
  | joinRoom => exact roomRequest _ rfl
  | leaveRoom => exact roomRequest _ rfl
  | strokeBegin => exact parseStrokeBegin_isOk library notFloat
  | strokePoint => exact pointRequest _ rfl
  | strokeEnd => exact roomRequest _ rfl
  | cursorMove => exact pointRequest _ rfl
  | clear => exact roomRequest _ rfl

/-! ## Numbers -/

private theorem getRequired_room_faithful {key : ByteString} {room : UInt64}
    (valid : ∃ value, object.find key = some value ∧ FieldKind.room.Valid value)
    (read : getRequired (getUInt64 library) object key = .ok room) :
    (object.find key).bind Json.number? = some (room.toNat : Int) := by
  rcases valid with ⟨value, found, number, isNumber, nonnegative, small⟩
  rcases getRequired_eq_ok.mp read with ⟨other, alsoFound, got⟩
  cases found.symm.trans alsoFound
  have notFloat : ¬ value.IsFloat := by
    intro isFloat
    cases value with
    | float bits => cases isNumber
    | _ => exact isFloat.elim
  rcases (getUInt64_eq_some library notFloat).mp got with ⟨read, isRead, same⟩
  cases isNumber.symm.trans isRead
  rw [found, Option.bind_some, isNumber, ← same, Int.emod_eq_of_lt nonnegative small]

theorem getRequired_byte_faithful {key : ByteString} {word : UInt32}
    (valid : ∃ value, object.find key = some value ∧ FieldKind.byte.Valid value)
    (read : getRequired (getUnsignedInt library) object key = .ok word) :
    (object.find key).bind Json.number? = some (word.toUInt8.toNat : Int) := by
  rcases valid with ⟨value, found, number, isNumber, nonnegative, small⟩
  rcases getRequired_eq_ok.mp read with ⟨other, alsoFound, got⟩
  cases found.symm.trans alsoFound
  have integer : ¬ value.IsFloat ∧ ¬ value.IsBoolean := by
    cases value with
    | unsigned held => exact ⟨id, id⟩
    | integer held => exact ⟨id, id⟩
    | _ => cases isNumber
  rcases (getUnsignedInt_eq_some library integer.1 integer.2).mp got with
    ⟨read, isRead, same⟩
  cases isNumber.symm.trans isRead
  have low : word.toUInt8.toNat = word.toNat % 2 ^ 8 := word.toNat_toUInt8
  rw [found, Option.bind_some, isNumber, low]
  congr 1
  omega

/-- The numbers of an object that keeps to the protocol are left as they are. -/
theorem parseRequest_faithful {request : RequestType}
    (valid : object.HasFields request FieldKind.Valid) {message : ClientMessage}
    (read : parseRequest library object request = .ok message) :
    message.type = request ∧ ∀ entry ∈ message.integers,
      (object.find (.ascii entry.1)).bind Json.number? = some (entry.2 : Int) := by
  have roomFaithful (listed : ⟨"room", .room⟩ ∈ request.fields) {room : RoomId}
      (read : getRequiredRoom library object = .ok room) :
      (object.find (.ascii "room")).bind Json.number? = some (room.toNat : Int) :=
    getRequired_room_faithful library (valid ⟨"room", .room⟩ listed) read
  have roomRequest {build : RoomId → ClientMessage}
      (only : request.fields = [⟨"room", .room⟩])
      (built : ∀ room, (build room).type = request ∧
        (build room).integers = [("room", room.toNat)])
      (read : parseRoomRequest library object build = .ok message) :
      message.type = request ∧ ∀ entry ∈ message.integers,
        (object.find (.ascii entry.1)).bind Json.number? = some (entry.2 : Int) := by
    rcases bind_ok_iff.mp read with ⟨room, readRoom, same⟩
    cases same
    rw [(built room).2, List.forall_mem_singleton]
    exact ⟨(built room).1, roomFaithful (by simp [only]) readRoom⟩
  have pointRequest {build : PointDto → EventRequest}
      (both : request.fields = [⟨"room", .room⟩, ⟨"point", .point⟩])
      (built : ∀ room point, (ClientMessage.eventRequest room (build point)).type =
        request ∧ (ClientMessage.eventRequest room (build point)).integers =
          [("room", room.toNat)])
      (read : parsePointRequest library object build = .ok message) :
      message.type = request ∧ ∀ entry ∈ message.integers,
        (object.find (.ascii entry.1)).bind Json.number? = some (entry.2 : Int) := by
    rcases bind_ok_iff.mp read with ⟨room, readRoom, rest⟩
    rcases bind_ok_iff.mp rest with ⟨point, _, same⟩
    cases same
    rw [(built room point).2, List.forall_mem_singleton]
    exact ⟨(built room point).1, roomFaithful (by simp [both]) readRoom⟩
  cases request with
  | ping =>
      cases read
      exact ⟨rfl, nofun⟩
  | createRoom =>
      cases read
      exact ⟨rfl, nofun⟩
  | joinRoom => exact roomRequest rfl (fun _ => ⟨rfl, rfl⟩) read
  | leaveRoom => exact roomRequest rfl (fun _ => ⟨rfl, rfl⟩) read
  | strokeBegin =>
      rcases (parseStrokeBegin_eq_ok library).mp read with ⟨room, color, thickness, start,
        readRoom, ⟨readColor, _⟩, ⟨readThickness, _⟩, _, rfl⟩
      refine ⟨rfl, ?_⟩
      simp only [ClientMessage.integers, List.forall_mem_cons, List.not_mem_nil,
        false_imp_iff, implies_true, and_true]
      refine ⟨roomFaithful (by simp [RequestType.fields]) readRoom, ?_, ?_⟩
      · exact getRequired_byte_faithful library
          (valid ⟨"color", .byte⟩ (by simp [RequestType.fields])) readColor
      · exact getRequired_byte_faithful library
          (valid ⟨"thickness", .byte⟩ (by simp [RequestType.fields])) readThickness
  | strokePoint => exact pointRequest rfl (fun _ _ => ⟨rfl, rfl⟩) read
  | strokeEnd => exact roomRequest rfl (fun _ => ⟨rfl, rfl⟩) read
  | cursorMove => exact pointRequest rfl (fun _ _ => ⟨rfl, rfl⟩) read
  | clear => exact roomRequest rfl (fun _ => ⟨rfl, rfl⟩) read

/-! ## The parser -/

private theorem parseClientMessage_isOk {line : ByteString}
    (parsed : library.parse line = .ok object) (root : object.isObject = true)
    (integral : object.Integral) :
    (∃ message, parseClientMessage library line = .ok message) ↔
      ∃ request, object.HasType request ∧
        object.HasFields request FieldKind.Converts := by
  simp only [parseClientMessage_eq_ok library parsed root]
  constructor
  · intro read
    rcases read with ⟨message, request, hasType, read⟩
    have converts := (parseRequest_isOk library integral hasType).mp ⟨message, read⟩
    exact ⟨request, hasType, converts⟩
  · intro found
    rcases found with ⟨request, hasType, converts⟩
    rcases (parseRequest_isOk library integral hasType).mpr converts with ⟨message, read⟩
    exact ⟨message, request, hasType, read⟩

private theorem parseClientMessage_refused {line : ByteString}
    (parsed : library.parse line = .ok object) (root : object.isObject = true) :
    FailsWith (fun error => error.code = .missingField ∨ error.code = .invalidFieldType ∨
      error.code = .unknownMessageType) (parseClientMessage library line) := by
  simp only [parseClientMessage, parsed, root, if_true]
  refine .bind (getRequired_fails (fun _ => .inl rfl) (fun _ => .inr (.inl rfl)) _ object
    "type") fun type => ?_
  exact parseTyped_fails library (fun _ => .inl rfl) (fun _ => .inr (.inl rfl))
    (.inr (.inl rfl)) object (.inr (.inr rfl))

theorem Json.isRequest_iff :
    object.IsRequest ↔
      (∃ request, object.HasType request ∧ object.HasFields request FieldKind.Converts) ∧
        ¬ object.Slips := by
  constructor
  · intro isRequest
    rcases isRequest with ⟨request, hasType, valid⟩
    refine ⟨⟨request, hasType, ?_⟩, ?_⟩
    · intro field listed
      rcases valid field listed with ⟨value, found, fieldValid⟩
      exact ⟨value, found, ((field.kind.valid_iff value).mp fieldValid).1⟩
    · intro slips
      rcases slips with ⟨other, hasOther, _, field, listed, value, found, altered⟩
      rw [← hasType.unique hasOther] at listed
      rcases valid field listed with ⟨same, alsoFound, fieldValid⟩
      cases found.symm.trans alsoFound
      exact ((field.kind.valid_iff value).mp fieldValid).2 altered
  · intro converts
    rcases converts with ⟨⟨request, hasType, converts⟩, straight⟩
    refine ⟨request, hasType, ?_⟩
    intro field listed
    rcases converts field listed with ⟨value, found, fieldConverts⟩
    refine ⟨value, found, (field.kind.valid_iff value).mpr ⟨fieldConverts, ?_⟩⟩
    intro altered
    exact straight ⟨request, hasType, converts, field, listed, value, found, altered⟩

end Requests

/-- The parser keeps to the protocol exactly on the objects that do not slip
through its conversions. -/
theorem parses_exactly (library : JsonLibrary) (line : ByteString) (object : Json)
    (parsed : library.parse line = .ok object) (root : object.isObject = true)
    (integral : object.Integral) :
    ParsesExactly object (parseClientMessage library line) ↔ ¬ object.Slips := by
  have isOk := parseClientMessage_isOk library parsed root integral
  constructor
  · intro exactly slips
    rcases slips with ⟨request, hasType, converts, altered⟩
    have isRequest : object.IsRequest :=
      exactly.accepted.mp (isOk.mpr ⟨request, hasType, converts⟩)
    exact (Json.isRequest_iff.mp isRequest).2 ⟨request, hasType, converts, altered⟩
  · intro straight
    have accepted : (∃ message, parseClientMessage library line = .ok message) ↔
        object.IsRequest := by
      rw [isOk, Json.isRequest_iff]
      exact (and_iff_left straight).symm
    refine ⟨accepted, ?_, parseClientMessage_refused library parsed root⟩
    intro message read
    rcases accepted.mp ⟨message, read⟩ with ⟨request, hasType, valid⟩
    rcases (parseClientMessage_eq_ok library parsed root).mp read with
      ⟨other, hasOther, readTyped⟩
    cases hasType.unique hasOther
    rcases parseRequest_faithful library valid readTyped with ⟨sameType, numbers⟩
    exact ⟨by rwa [sameType], numbers⟩

/-! ### A colour beyond 32 bits -/

/-- The line and the object of a stroke in room 1 that starts at the origin. -/
def strokeLine (color : String) : ByteString :=
  .ascii ("\x7b\"type\":\"stroke_begin\",\"room\":1,\"color\":" ++ color ++
    ",\"thickness\":2,\"start\":\x7b\"x\":0,\"y\":0\x7d\x7d")

def strokeObject (color : UInt64) : Json :=
  makeObject [("type", .string (.ascii "stroke_begin")), ("room", .unsigned 1),
    ("color", .unsigned color), ("thickness", .unsigned 2),
    ("start", makeObject [("x", .unsigned 0), ("y", .unsigned 0)])]

/-- A library that reads two such lines; the bits of `0.0` are all zero. -/
def strokeLibrary : JsonLibrary where
  parse line :=
    if line = strokeLine "7" then .ok (strokeObject 7)
    else if line = strokeLine "4294967297" then .ok (strokeObject 4294967297)
    else .error ⟨.ascii "parse error: '", line, .ascii "'", ByteString.ascii_lt _,
      ByteString.ascii_lt _⟩
  dump _ := none
  floatToDouble _ := 0
  doubleToFloat _ := 0
  unsignedToFloat _ := 0
  integerToFloat _ := 0
  doubleToUInt64 _ := 0
  doubleToUInt32 _ := 0

private theorem strokeObject_hasType (color : UInt64) :
    (strokeObject color).HasType .strokeBegin := rfl

theorem strokeObject_integral (color : UInt64) : (strokeObject color).Integral := by
  intro request hasType field listed value found notPoint
  cases hasType.unique (strokeObject_hasType color)
  simp only [RequestType.fields, List.mem_cons, List.not_mem_nil, or_false] at listed
  simp only [strokeObject, makeObject, Json.find, List.map, List.lookup_cons] at found
  rcases listed with rfl | rfl | rfl | rfl
  · cases found
    exact id
  · cases found
    exact id
  · cases found
    exact id
  · exact absurd rfl notPoint

theorem parses_exactly_small_colour :
    strokeLibrary.parse (strokeLine "7") = .ok (strokeObject 7) ∧
      (ParsesExactly (strokeObject 7)
        (parseClientMessage strokeLibrary (strokeLine "7")) ↔
          ¬ (strokeObject 7).Slips) := by
  have parsed : strokeLibrary.parse (strokeLine "7") = .ok (strokeObject 7) := by
    simp only [strokeLibrary, if_true]
  exact ⟨parsed, parses_exactly strokeLibrary _ _ parsed rfl (strokeObject_integral 7)⟩

/-- `2 ^ 32 + 1` is taken for the colour 1. -/
theorem parses_huge_colour :
    ¬ ∀ (library : JsonLibrary) (line : ByteString) (object : Json),
      library.parse line = .ok object → object.isObject = true → object.Integral →
        ParsesExactly object (parseClientMessage library line) := by
  intro always
  have parsed : strokeLibrary.parse (strokeLine "4294967297") =
      .ok (strokeObject 4294967297) := by
    have differs : strokeLine "4294967297" ≠ strokeLine "7" := by decide
    simp only [strokeLibrary, if_neg differs, if_true]
  have exactly := always strokeLibrary _ _ parsed rfl (strokeObject_integral _)
  have read : parseClientMessage strokeLibrary (strokeLine "4294967297") =
      .ok (.eventRequest 1 (.strokeBegin 1 2 ⟨0, 0⟩)) := by
    simp only [parseClientMessage, parsed]
    rfl
  have color := (exactly.faithful _ read).2 ("color", 1) (by decide)
  exact absurd color (by decide)

end ClearSpace.Transport
