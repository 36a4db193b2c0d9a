import ClearSpace.Core.Types
import ClearSpace.Foundation.ByteReader

/-! # The snapshot blob

`serializeStrokes` and `deserializeStrokes` of
`persistence/src/sqlite_snapshot_store.cpp`. Both copy values as they lie in
memory, so the byte order of the host is a parameter; despite their names
`appendLE` and `readLE` are little-endian only on a little-endian host. -/

namespace ClearSpace.Persistence

open ClearSpace.Core ByteReader

/-- `std::runtime_error`. -/
structure RuntimeError where
  what : ByteString
  deriving DecidableEq, Repr

def corrupted : RuntimeError := ⟨.ascii "corrupted snapshot blob"⟩

def unsupportedVersion : RuntimeError := ⟨.ascii "unsupported snapshot version"⟩

def trailingBytes : RuntimeError :=
  ⟨.ascii "corrupted snapshot blob (trailing bytes)"⟩

variable (order : ByteOrder)

/-! ## Writing -/

/-- The bytes appended for a value of `width` bytes; a wider number loses its
high bytes, as in the casts of the source. -/
def appendLE (width value : Nat) : ByteString := order.encode width value

def serializePoint (point : Point) : ByteString :=
  appendLE order 4 point.x.toNat ++ appendLE order 4 point.y.toNat

def serializeStroke (stroke : Stroke) : ByteString :=
  appendLE order 8 stroke.id.toNat ++
  (appendLE order 8 stroke.author.toNat ++
  (appendLE order 1 stroke.color.value.toNat ++
  (appendLE order 1 stroke.thickness.value.toNat ++
  (appendLE order 8 stroke.strokeOrder.toNat ++
  (appendLE order 1 (if stroke.finished then 1 else 0) ++
  (appendLE order 4 stroke.points.length ++
    stroke.points.flatMap (serializePoint order)))))))

def serializeStrokes (strokes : List Stroke) : ByteString :=
  appendLE order 4 1 ++
    (appendLE order 4 strokes.length ++ strokes.flatMap (serializeStroke order))

/-! ## Reading -/

def readLE (width : Nat) : ByteReader RuntimeError Nat :=
  order.decode <$> take width corrupted

def readPoint : ByteReader RuntimeError Point := do
  let x ← readLE order 4
  let y ← readLE order 4
  pure { x := .ofNat x, y := .ofNat y }

def readStroke : ByteReader RuntimeError Stroke := do
  let id ← readLE order 8
  let author ← readLE order 8
  let color ← readLE order 1
  let thickness ← readLE order 1
  let strokeOrder ← readLE order 8
  let finished ← readLE order 1
  let pointsCount ← readLE order 4
  let points ← (readPoint order).times pointsCount
  pure {
    id := .ofNat id, author := .ofNat author, color := ⟨.ofNat color⟩
    thickness := ⟨.ofNat thickness⟩, strokeOrder := .ofNat strokeOrder
    points, finished := decide (finished ≠ 0) }

def readStrokes : ByteReader RuntimeError (List Stroke) := do
  let version ← readLE order 4
  if version ≠ 1 then throw unsupportedVersion
  let strokesCount ← readLE order 4
  (readStroke order).times strokesCount

/-- `data` and `size` delimit the blob. The callers turn away sizes that are
not positive. -/
def deserializeStrokes (data : ByteString) (size : Int) :
    Except RuntimeError (List Stroke) :=
  match readStrokes order (data.take size.toNat) with
  | .error error => .error error
  | .ok (strokes, []) => .ok strokes
  | .ok (_, _ :: _) => .error trailingBytes

/-- `static_cast<int>(blob.size())`, the size under which a blob is stored. -/
def storedSize (blob : ByteString) : Int := Int.bmod blob.length (2 ^ 32)

/-! ## Round trip -/

theorem decodes_readLE {width value : Nat} (fits : value < 256 ^ width) :
    Decodes (readLE order width) (appendLE order width value) value := by
  have reads := (decodes_take corrupted (order.encode width value)
    (order.encode_length width value)).map order.decode
  rw [order.decode_encode fits] at reads
  exact reads

private theorem decodes_readPoint (point : Point) :
    Decodes (readPoint order) (serializePoint order point) point := by
  have xFits : point.x.toNat < 256 ^ 4 := point.x.toNat_lt
  have yFits : point.y.toNat < 256 ^ 4 := point.y.toNat_lt
  rw [serializePoint]
  apply (decodes_readLE order xFits).bind
  rw [← List.append_nil (appendLE order 4 point.y.toNat)]
  apply (decodes_readLE order yFits).bind
  rw [UInt32.ofNat_toNat, UInt32.ofNat_toNat]
  exact decodes_pure point

private theorem decodes_readStroke (stroke : Stroke)
    (countFits : stroke.points.length < 2 ^ 32) :
    Decodes (readStroke order) (serializeStroke order stroke) stroke := by
  have idFits : stroke.id.toNat < 256 ^ 8 := stroke.id.toNat_lt
  have authorFits : stroke.author.toNat < 256 ^ 8 := stroke.author.toNat_lt
  have colorFits : stroke.color.value.toNat < 256 ^ 1 := stroke.color.value.toNat_lt
  have thicknessFits : stroke.thickness.value.toNat < 256 ^ 1 :=
    stroke.thickness.value.toNat_lt
  have orderFits : stroke.strokeOrder.toNat < 256 ^ 8 := stroke.strokeOrder.toNat_lt
  have flagFits : (if stroke.finished then 1 else 0) < 256 ^ 1 := by
    cases stroke.finished <;> decide
  have flagRead : decide ((if stroke.finished then 1 else 0) ≠ 0) = stroke.finished := by
    cases stroke.finished <;> rfl
  -- The fields are read in the order in which they are written.
  rw [serializeStroke]
  apply (decodes_readLE order idFits).bind
  apply (decodes_readLE order authorFits).bind
  apply (decodes_readLE order colorFits).bind
  apply (decodes_readLE order thicknessFits).bind
  apply (decodes_readLE order orderFits).bind
  apply (decodes_readLE order flagFits).bind
  apply (decodes_readLE order countFits).bind
  rw [← List.append_nil (stroke.points.flatMap (serializePoint order))]
  apply (decodes_times stroke.points fun point _ => decodes_readPoint order point).bind
  rw [flagRead, UInt64.ofNat_toNat, UInt64.ofNat_toNat, UInt64.ofNat_toNat,
    UInt8.ofNat_toNat, UInt8.ofNat_toNat]
  exact decodes_pure stroke

private theorem decodes_readStrokes (strokes : List Stroke)
    (countFits : strokes.length < 2 ^ 32)
    (pointsFit : ∀ stroke ∈ strokes, stroke.points.length < 2 ^ 32) :
    Decodes (readStrokes order) (serializeStrokes order strokes) strokes := by
  rw [serializeStrokes]
  apply (decodes_readLE order (show 1 < 256 ^ 4 by decide)).bind
  apply (decodes_readLE order countFits).bind
  exact decodes_times strokes fun stroke member =>
    decodes_readStroke order stroke (pointsFit stroke member)

/-! ## Sizes

A blob that an `int` can measure holds fewer strokes and points than a 32-bit
count can express. -/

private theorem serializePoint_length (point : Point) :
    (serializePoint order point).length = 8 := by
  simp [serializePoint, appendLE]

theorem serializePoints_length (points : List Point) :
    (points.flatMap (serializePoint order)).length = 8 * points.length := by
  induction points with
  | nil => rfl
  | cons point rest induction =>
      rw [List.flatMap_cons, List.length_append, serializePoint_length, induction,
        List.length_cons]
      omega

theorem serializeStroke_length (stroke : Stroke) :
    (serializeStroke order stroke).length = 31 + 8 * stroke.points.length := by
  simp only [serializeStroke, appendLE, List.length_append, ByteOrder.encode_length,
    serializePoints_length]
  omega

theorem length_le_serialized (strokes : List Stroke) :
    strokes.length ≤ (strokes.flatMap (serializeStroke order)).length ∧
      ∀ stroke ∈ strokes, stroke.points.length ≤
        (strokes.flatMap (serializeStroke order)).length := by
  induction strokes with
  | nil => simp
  | cons first rest induction =>
      have size := serializeStroke_length order first
      rw [List.flatMap_cons, List.length_append, List.length_cons]
      constructor
      · omega
      · intro stroke member
        rcases List.mem_cons.mp member with rfl | later
        · omega
        · have inRest := induction.2 stroke later
          omega

theorem storedSize_eq {blob : ByteString} (fits : blob.length < 2 ^ 31) :
    storedSize blob = blob.length := by
  have modulus : ((2 ^ 32 : Nat) : Int) = 4294967296 := by decide
  unfold storedSize
  apply Int.bmod_eq_of_le_mul_two
  · rw [modulus]
    omega
  · rw [modulus]
    omega

/-- Reading back a blob of less than 2 GiB gives the strokes it was made from,
whatever the byte order of the host. -/
theorem deserialize_serialize (strokes : List Stroke)
    (fits : (serializeStrokes order strokes).length < 2 ^ 31) :
    deserializeStrokes order (serializeStrokes order strokes)
        (storedSize (serializeStrokes order strokes)) =
      .ok strokes := by
  have sizes := length_le_serialized order strokes
  have total : (serializeStrokes order strokes).length =
      8 + (strokes.flatMap (serializeStroke order)).length := by
    simp only [serializeStrokes, appendLE, List.length_append, ByteOrder.encode_length]
    omega
  have reads := decodes_readStrokes order strokes (by omega) fun stroke member => by
    have inBlob := sizes.2 stroke member
    omega
  have wholeBlob := reads []
  rw [List.append_nil] at wholeBlob
  rw [deserializeStrokes, storedSize_eq fits, Int.toNat_natCast, List.take_length,
    wholeBlob]

theorem deserialize_serialize_sample :
    let strokes : List Stroke :=
      [{ id := 5, author := 18446744073709551615, color := ⟨200⟩, thickness := .thin
         strokeOrder := 9, points := [⟨2143289344, 1⟩, ⟨0, 4294967295⟩]
         finished := true }]
    (serializeStrokes .little strokes).length = 55 ∧
      deserializeStrokes .little (serializeStrokes .little strokes)
        (storedSize (serializeStrokes .little strokes)) = .ok strokes :=
  ⟨by decide, deserialize_serialize .little _ (by decide)⟩

end ClearSpace.Persistence
