import ClearSpace.Foundation.ByteString
import Mathlib.Algebra.Ring.Nat
import Mathlib.Data.List.Basic

/-! # Fixed-width numbers and byte readers

Numbers laid out in either byte order, and readers that consume a prefix of
their input. `Decodes` composes along the structure of a format, which leaves a
round trip to the fields. -/

namespace ClearSpace

/-! ## Byte orders -/

inductive ByteOrder
  | little
  | big
  deriving DecidableEq, Repr

namespace ByteOrder

/-- The low `width` bytes of a number, least significant first. -/
def littleBytes : (width : Nat) → Nat → ByteString
  | 0, _ => []
  | width + 1, value => UInt8.ofNat value :: littleBytes width (value / 256)

def littleValue : ByteString → Nat
  | [] => 0
  | byte :: rest => byte.toNat + 256 * littleValue rest

def encode (order : ByteOrder) (width value : Nat) : ByteString :=
  match order with
  | .little => littleBytes width value
  | .big => (littleBytes width value).reverse

def decode (order : ByteOrder) (bytes : ByteString) : Nat :=
  match order with
  | .little => littleValue bytes
  | .big => littleValue bytes.reverse

@[simp] theorem littleBytes_length : ∀ width value : Nat,
    (littleBytes width value).length = width
  | 0, _ => rfl
  | width + 1, value => by simp [littleBytes, littleBytes_length width]

@[simp] theorem encode_length (order : ByteOrder) (width value : Nat) :
    (order.encode width value).length = width := by
  cases order <;> simp [encode]

theorem littleValue_littleBytes : ∀ width value : Nat,
    littleValue (littleBytes width value) = value % 256 ^ width
  | 0, value => by simp [littleBytes, littleValue, Nat.mod_one]
  | width + 1, value => by
      have rest := littleValue_littleBytes width (value / 256)
      have low : (UInt8.ofNat value).toNat = value % 256 := UInt8.toNat_ofNat'
      rw [littleBytes, littleValue, rest, low, Nat.pow_succ, Nat.mul_comm (256 ^ width),
        Nat.mod_mul]

theorem decode_encode (order : ByteOrder) {width value : Nat}
    (fits : value < 256 ^ width) : order.decode (order.encode width value) = value := by
  cases order <;>
    simp [encode, decode, littleValue_littleBytes, Nat.mod_eq_of_lt fits]

theorem littleValue_lt : ∀ bytes : ByteString, littleValue bytes < 256 ^ bytes.length
  | [] => Nat.zero_lt_one
  | byte :: rest => by
      have restBelow := littleValue_lt rest
      have byteBelow : byte.toNat < 256 := byte.toNat_lt
      rw [littleValue, List.length_cons, Nat.pow_succ]
      omega

theorem littleBytes_littleValue : ∀ bytes : ByteString,
    littleBytes bytes.length (littleValue bytes) = bytes
  | [] => rfl
  | byte :: rest => by
      have byteBelow : byte.toNat < 256 := byte.toNat_lt
      have low : UInt8.ofNat (byte.toNat + 256 * littleValue rest) = byte := by
        apply UInt8.toNat_inj.mp
        rw [UInt8.toNat_ofNat', Nat.add_mul_mod_self_left, Nat.mod_eq_of_lt byteBelow]
      have high : (byte.toNat + 256 * littleValue rest) / 256 = littleValue rest := by
        omega
      rw [List.length_cons, littleValue, littleBytes, low, high,
        littleBytes_littleValue rest]

theorem decode_lt (order : ByteOrder) (bytes : ByteString) :
    order.decode bytes < 256 ^ bytes.length := by
  cases order with
  | little => exact littleValue_lt bytes
  | big =>
      have below := littleValue_lt bytes.reverse
      rw [List.length_reverse] at below
      exact below

theorem encode_decode (order : ByteOrder) (bytes : ByteString) :
    order.encode bytes.length (order.decode bytes) = bytes := by
  cases order with
  | little => exact littleBytes_littleValue bytes
  | big =>
      have back := littleBytes_littleValue bytes.reverse
      rw [List.length_reverse] at back
      rw [encode, decode, back, List.reverse_reverse]

theorem encode_one (order : ByteOrder) (byte : UInt8) :
    order.encode 1 byte.toNat = [byte] := by
  cases order <;> simp [encode, littleBytes]

example : ByteOrder.little.encode 4 258 = [2, 1, 0, 0] := by decide

end ByteOrder

/-! ## Readers -/

abbrev ByteReader (Failure Value : Type) := StateT ByteString (Except Failure) Value

namespace ByteReader

variable {Failure Value Other : Type}

def take (width : Nat) (short : Failure) : ByteReader Failure ByteString := fun input =>
  if input.length < width then .error short
  else .ok (input.take width, input.drop width)

def times (reader : ByteReader Failure Value) :
    Nat → ByteReader Failure (List Value)
  | 0 => pure []
  | count + 1 => do
      let value ← reader
      let rest ← reader.times count
      pure (value :: rest)

/-- In front of any further input the reader consumes exactly `bytes`. -/
def Decodes (reader : ByteReader Failure Value) (bytes : ByteString)
    (value : Value) : Prop :=
  ∀ rest, reader (bytes ++ rest) = .ok (value, rest)

theorem decodes_pure (value : Value) :
    Decodes (pure value : ByteReader Failure Value) [] value :=
  fun _ => rfl

theorem decodes_take (short : Failure) (bytes : ByteString) {width : Nat}
    (length : bytes.length = width) : Decodes (take width short) bytes bytes := by
  intro rest
  subst length
  have enough : ¬(bytes ++ rest).length < bytes.length := by simp
  rw [take, if_neg enough, List.take_left', List.drop_left'] <;> rfl

theorem Decodes.bind {reader : ByteReader Failure Value} {bytes : ByteString}
    {value : Value} {next : Value → ByteReader Failure Other} {more : ByteString}
    {result : Other} (first : Decodes reader bytes value)
    (second : Decodes (next value) more result) :
    Decodes (reader >>= next) (bytes ++ more) result := by
  intro rest
  rw [List.append_assoc]
  change (reader (bytes ++ (more ++ rest))).bind (fun read => next read.1 read.2) = _
  rw [first]
  exact second rest

theorem Decodes.map {reader : ByteReader Failure Value} {bytes : ByteString}
    {value : Value} (reads : Decodes reader bytes value) (transform : Value → Other) :
    Decodes (transform <$> reader) bytes (transform value) := by
  intro rest
  change (reader (bytes ++ rest)).map (fun read => (transform read.1, read.2)) = _
  rw [reads]
  rfl

theorem decodes_times {reader : ByteReader Failure Value} {encode : Value → ByteString}
    (values : List Value)
    (entries : ∀ value ∈ values, Decodes reader (encode value) value) :
    Decodes (reader.times values.length) (values.flatMap encode) values := by
  induction values with
  | nil => exact decodes_pure []
  | cons value rest induction =>
      have headDecodes := entries value (by simp)
      have tailDecodes := induction fun other member => entries other (by simp [member])
      rw [List.flatMap_cons, List.length_cons, times]
      apply headDecodes.bind
      rw [← List.append_nil (rest.flatMap encode)]
      exact tailDecodes.bind (decodes_pure _)

/-! ## Formats

What a reader accepts, as a relation between values and the bytes that stand
for them. -/

/-- The reader takes exactly the bytes that the format allows for a value. -/
def Reads (reader : ByteReader Failure Value) (Format : Value → ByteString → Prop) :
    Prop :=
  ∀ input value rest, reader input = .ok (value, rest) ↔
    ∃ bytes, Format value bytes ∧ input = bytes ++ rest

theorem bind_eq_ok {reader : ByteReader Failure Value}
    {next : Value → ByteReader Failure Other} {input : ByteString} {result : Other}
    {rest : ByteString} :
    (reader >>= next) input = .ok (result, rest) ↔
      ∃ value middle, reader input = .ok (value, middle) ∧
        next value middle = .ok (result, rest) := by
  change (reader input).bind (fun read => next read.1 read.2) = _ ↔ _
  cases reader input with
  | error failure => simp [Except.bind]
  | ok read => simp [Except.bind, Prod.ext_iff, and_assoc]

def Followed (Format : Value → ByteString → Prop)
    (Next : Value → Other → ByteString → Prop) (result : Other) (bytes : ByteString) :
    Prop :=
  ∃ value front back, Format value front ∧ Next value result back ∧
    bytes = front ++ back

theorem reads_pure (value : Value) :
    Reads (pure value : ByteReader Failure Value)
      fun read bytes => read = value ∧ bytes = [] := by
  intro input read rest
  change Except.ok (value, input) = Except.ok (read, rest) ↔ _
  simp [eq_comm]

theorem reads_take (width : Nat) (short : Failure) :
    Reads (take width short) fun read bytes => bytes = read ∧ read.length = width := by
  intro input read rest
  rw [take]
  split
  next tooShort =>
    constructor
    · intro impossible
      cases impossible
    · intro accepted
      rcases accepted with ⟨bytes, ⟨rfl, length⟩, rfl⟩
      rw [List.length_append] at tooShort
      omega
  next enough =>
    constructor
    · intro same
      cases same
      refine ⟨_, ⟨rfl, ?_⟩, (List.take_append_drop width input).symm⟩
      rw [List.length_take]
      omega
    · intro accepted
      rcases accepted with ⟨bytes, ⟨rfl, rfl⟩, rfl⟩
      rw [List.take_left, List.drop_left]

theorem Reads.bind {reader : ByteReader Failure Value}
    {Format : Value → ByteString → Prop} {next : Value → ByteReader Failure Other}
    {Next : Value → Other → ByteString → Prop} (first : Reads reader Format)
    (second : ∀ value, Reads (next value) (Next value)) :
    Reads (reader >>= next) (Followed Format Next) := by
  intro input result rest
  rw [bind_eq_ok]
  constructor
  · intro succeeds
    rcases succeeds with ⟨value, middle, readFirst, readSecond⟩
    rcases (first input value middle).mp readFirst with ⟨front, isFront, rfl⟩
    rcases (second value middle result rest).mp readSecond with ⟨back, isBack, rfl⟩
    refine ⟨front ++ back, ⟨value, front, back, isFront, isBack, rfl⟩, ?_⟩
    rw [List.append_assoc]
  · intro accepted
    rcases accepted with ⟨_, ⟨value, front, back, isFront, isBack, rfl⟩, rfl⟩
    refine ⟨value, back ++ rest, ?_, ?_⟩
    · exact (first _ value _).mpr ⟨front, isFront, List.append_assoc ..⟩
    · exact (second value _ result rest).mpr ⟨back, isBack, rfl⟩

theorem Reads.congr {reader : ByteReader Failure Value}
    {Format Other : Value → ByteString → Prop} (reads : Reads reader Format)
    (same : ∀ value bytes, Format value bytes ↔ Other value bytes) :
    Reads reader Other := by
  intro input value rest
  rw [reads input value rest]
  simp only [same]

theorem Reads.guarded {test : Prop} [Decidable test]
    {failing reader : ByteReader Failure Value} {Format : Value → ByteString → Prop}
    (fails : ∀ input read, failing input ≠ .ok read) (reads : Reads reader Format) :
    Reads (if test then failing else reader)
      fun value bytes => ¬ test ∧ Format value bytes := by
  intro input value rest
  split
  next holds =>
    constructor
    · exact fun read => absurd read (fails input _)
    · intro accepted
      rcases accepted with ⟨_, ⟨fails, _⟩, _⟩
      exact absurd holds fails
  next holdsNot =>
    rw [reads input value rest]
    simp only [holdsNot, not_false_eq_true, true_and]

inductive Sequence (Format : Value → ByteString → Prop) :
    List Value → ByteString → Prop
  | nil : Sequence Format [] []
  | cons {value : Value} {values : List Value} {front back : ByteString} :
      Format value front → Sequence Format values back →
      Sequence Format (value :: values) (front ++ back)

theorem reads_times {reader : ByteReader Failure Value}
    {Format : Value → ByteString → Prop} (reads : Reads reader Format) :
    ∀ count, Reads (reader.times count) fun values bytes =>
      values.length = count ∧ Sequence Format values bytes
  | 0 => by
      apply (reads_pure []).congr
      intro values bytes
      constructor
      · intro accepted
        rcases accepted with ⟨rfl, rfl⟩
        exact ⟨rfl, .nil⟩
      · intro accepted
        rcases accepted with ⟨none, sequence⟩
        cases sequence with
        | nil => exact ⟨rfl, rfl⟩
        | cons => cases none
  | count + 1 => by
      have later := fun value => (reads_times reads count).bind
        fun rest => @reads_pure Failure _ (value :: rest)
      apply (reads.bind later).congr
      intro values bytes
      constructor
      · intro accepted
        rcases accepted with
          ⟨value, front, _, isFront, ⟨rest, back, _, ⟨rfl, isBack⟩, ⟨rfl, rfl⟩, rfl⟩,
          rfl⟩
        rw [List.append_nil]
        exact ⟨rfl, .cons isFront isBack⟩
      · intro accepted
        rcases accepted with ⟨length, sequence⟩
        cases sequence with
        | nil => cases length
        | cons isFront isBack =>
            refine ⟨_, _, _, isFront, ⟨_, _, [], ⟨Nat.succ.inj length, isBack⟩,
              ⟨rfl, rfl⟩, ?_⟩, rfl⟩
            rw [List.append_nil]

theorem Sequence.next_entry {reader : ByteReader Failure Value}
    {Format : Value → ByteString → Prop} (reads : Reads reader Format)
    {values : List Value} {bytes : ByteString} (sequence : Sequence Format values bytes)
    {count : Nat} (further : count < values.length) {read : List Value}
    {rest : ByteString} (readSome : reader.times count bytes = .ok (read, rest)) :
    ∃ value front back, Format value front ∧ rest = front ++ back := by
  induction count generalizing values bytes read with
  | zero =>
      cases readSome
      cases sequence with
      | nil => cases further
      | cons isFront _ => exact ⟨_, _, _, isFront, rfl⟩
  | succ count induction =>
      cases sequence with
      | nil => cases further
      | @cons value values front back isFront later =>
          rcases bind_eq_ok.mp readSome with ⟨first, middle, readFirst, readRest⟩
          rcases bind_eq_ok.mp readRest with ⟨others, last, readOthers, done⟩
          cases done
          have firstRead := (reads _ value back).mpr ⟨front, isFront, rfl⟩
          cases readFirst.symm.trans firstRead
          exact induction later (Nat.lt_of_succ_lt_succ further) readOthers

end ByteReader

end ClearSpace
