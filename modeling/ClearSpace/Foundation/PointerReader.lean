import ClearSpace.Foundation.ByteReader
import Mathlib.Data.List.Range

/-! # Readers over memory

A reader with a pointer into memory, of which only a part is meant for it. It
follows a `ByteReader` over the bytes of that part if both give the same result
and the pointer reader touches nothing else. -/

namespace ClearSpace

/-- Where a reader stands. `touched` is history: every address it has read. -/
structure Pointer where
  position : Nat
  touched : List Nat := []

/-- The pointer and the history outlive a failure. -/
abbrev PointerReader (Failure Value : Type) := ExceptT Failure (StateM Pointer) Value

def bytesAt (memory : Nat → UInt8) (position width : Nat) : ByteString :=
  (List.range' position width).map memory

theorem bytesAt_length (memory : Nat → UInt8) (position width : Nat) :
    (bytesAt memory position width).length = width := by
  simp [bytesAt]

private theorem bytesAt_add (memory : Nat → UInt8) (position front back : Nat) :
    bytesAt memory position (front + back) =
      bytesAt memory position front ++ bytesAt memory (position + front) back := by
  simp only [bytesAt, ← List.map_append, List.range'_append_1]

namespace PointerReader

variable {Failure Value Other : Type}

/-- Take `width` bytes unless fewer are left before `stop`. The difference of
the two pointers is an unsigned 64-bit number. -/
def take (memory : Nat → UInt8) (stop width : Nat) (short : Failure) :
    PointerReader Failure ByteString := fun pointer =>
  if (stop + 2 ^ 64 - pointer.position) % 2 ^ 64 < width then
    (.error short, pointer)
  else
    (.ok (bytesAt memory pointer.position width),
      { position := pointer.position + width
        touched := pointer.touched ++ List.range' pointer.position width })

def times (reader : PointerReader Failure Value) :
    Nat → PointerReader Failure (List Value)
  | 0 => pure []
  | count + 1 => do
      let value ← reader
      let rest ← reader.times count
      pure (value :: rest)

structure Within (stop : Nat) (pointer : Pointer) : Prop where
  position : pointer.position ≤ stop
  touched : ∀ address ∈ pointer.touched, address < stop

theorem within_start (stop : Nat) : Within stop { position := 0 } :=
  ⟨Nat.zero_le stop, fun _ none => absurd none List.not_mem_nil⟩

structure Agrees (memory : Nat → UInt8) (stop : Nat)
    (expected : Except Failure (Value × ByteString))
    (reached : Except Failure Value × Pointer) : Prop where
  within : Within stop reached.2
  result : reached.1 = expected.map Prod.fst
  rest : ∀ value rest, expected = .ok (value, rest) →
    rest = bytesAt memory reached.2.position (stop - reached.2.position)

def Follows (memory : Nat → UInt8) (stop : Nat) (pointerReader : PointerReader Failure Value)
    (reader : ByteReader Failure Value) : Prop :=
  ∀ pointer, Within stop pointer →
    Agrees memory stop
      (reader (bytesAt memory pointer.position (stop - pointer.position)))
      (pointerReader pointer)

section Follow

variable {memory : Nat → UInt8} {stop : Nat}

theorem follows_pure (value : Value) :
    Follows memory stop (pure value : PointerReader Failure Value) (pure value) := by
  intro pointer within
  refine ⟨within, rfl, ?_⟩
  intro read rest same
  cases same
  rfl

theorem follows_throw (failure : Failure) :
    Follows memory stop (throw failure : PointerReader Failure Value)
      (throw failure) := by
  intro pointer within
  refine ⟨within, rfl, ?_⟩
  intro read rest same
  cases same

theorem follows_take (small : stop < 2 ^ 64) (width : Nat) (short : Failure) :
    Follows memory stop (take memory stop width short) (ByteReader.take width short) := by
  intro pointer within
  have inside := within.position
  have difference : (stop + 2 ^ 64 - pointer.position) % 2 ^ 64 =
      stop - pointer.position := by
    omega
  rw [take, ByteReader.take, bytesAt_length, difference]
  split
  next =>
    refine ⟨within, rfl, ?_⟩
    intro read rest same
    cases same
  next enough =>
    have split : stop - pointer.position =
        width + (stop - (pointer.position + width)) := by
      omega
    have width_le : (bytesAt memory pointer.position width).length = width :=
      bytesAt_length ..
    rw [split, bytesAt_add, List.take_left' width_le, List.drop_left' width_le]
    refine ⟨⟨?_, ?_⟩, rfl, ?_⟩
    · change pointer.position + width ≤ stop
      omega
    · intro address touched
      rcases List.mem_append.mp touched with before | now
      · exact within.touched address before
      · rcases List.mem_range'_1.mp now with ⟨_, below⟩
        omega
    · intro read rest same
      cases same
      rfl

private theorem bind_error {pointerReader : PointerReader Failure Value}
    {pointerNext : Value → PointerReader Failure Other} {pointer reached : Pointer}
    {failure : Failure} (failed : pointerReader pointer = (.error failure, reached)) :
    (pointerReader >>= pointerNext) pointer = (.error failure, reached) := by
  simp only [bind, ExceptT.bind, ExceptT.mk, StateT.bind, failed, ExceptT.bindCont]
  rfl

private theorem bind_ok {pointerReader : PointerReader Failure Value}
    {pointerNext : Value → PointerReader Failure Other} {pointer reached : Pointer}
    {value : Value} (read : pointerReader pointer = (.ok value, reached)) :
    (pointerReader >>= pointerNext) pointer = pointerNext value reached := by
  simp only [bind, ExceptT.bind, ExceptT.mk, StateT.bind, read, ExceptT.bindCont]

theorem Follows.bind {pointerReader : PointerReader Failure Value}
    {reader : ByteReader Failure Value}
    {pointerNext : Value → PointerReader Failure Other}
    {next : Value → ByteReader Failure Other}
    (first : Follows memory stop pointerReader reader)
    (second : ∀ value, Follows memory stop (pointerNext value) (next value)) :
    Follows memory stop (pointerReader >>= pointerNext) (reader >>= next) := by
  intro pointer within
  have agrees := first pointer within
  change Agrees memory stop ((reader _).bind fun read => next read.1 read.2) _
  generalize reader (bytesAt memory pointer.position (stop - pointer.position)) =
    expected at agrees ⊢
  rcases reached : pointerReader pointer with ⟨result, moved⟩
  rw [reached] at agrees
  have sameResult : result = expected.map Prod.fst := agrees.result
  rcases expected with failure | ⟨value, rest⟩
  · rw [sameResult] at reached
    rw [bind_error reached]
    refine ⟨agrees.within, rfl, ?_⟩
    intro read rest same
    cases same
  · rw [sameResult] at reached
    rw [bind_ok reached, agrees.rest value rest rfl]
    exact second value moved agrees.within

theorem follows_ite {test : Prop} [Decidable test]
    {pointerYes pointerNo : PointerReader Failure Value}
    {yes no : ByteReader Failure Value} (whenTrue : Follows memory stop pointerYes yes)
    (whenFalse : Follows memory stop pointerNo no) :
    Follows memory stop (if test then pointerYes else pointerNo)
      (if test then yes else no) := by
  split
  · exact whenTrue
  · exact whenFalse

theorem Follows.map {pointerReader : PointerReader Failure Value}
    {reader : ByteReader Failure Value}
    (follows : Follows memory stop pointerReader reader)
    (transform : Value → Other) :
    Follows memory stop (transform <$> pointerReader) (transform <$> reader) := by
  rw [map_eq_pure_bind, map_eq_pure_bind]
  exact follows.bind fun value => follows_pure (transform value)

theorem Follows.times {pointerReader : PointerReader Failure Value}
    {reader : ByteReader Failure Value}
    (follows : Follows memory stop pointerReader reader) :
    ∀ count, Follows memory stop (pointerReader.times count) (reader.times count)
  | 0 => follows_pure []
  | count + 1 => follows.bind fun value => (follows.times count).bind
      fun rest => follows_pure (value :: rest)

end Follow

end PointerReader

end ClearSpace
