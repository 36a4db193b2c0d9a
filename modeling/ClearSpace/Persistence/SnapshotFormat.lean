import ClearSpace.Foundation.PointerReader
import ClearSpace.Persistence.SnapshotBlob

/-! # The blobs that are accepted

`deserializeStrokes` accepts what `serializeStrokes` writes and nothing else,
apart from the byte that tells a finished stroke, which may be any nonzero one.
Where a count exceeds the data, `reserve` may throw before the reader does. -/

namespace ClearSpace.Persistence

open ClearSpace.Core ByteReader

variable (order : ByteOrder)

/-! ## What the readers accept -/

theorem reads_readLE (width : Nat) :
    Reads (readLE order width) fun value bytes =>
      value < 256 ^ width ∧ bytes = appendLE order width value := by
  rw [readLE, map_eq_pure_bind]
  apply ((reads_take width corrupted).bind fun bytes => reads_pure _).congr
  intro value bytes
  constructor
  · intro accepted
    rcases accepted with ⟨read, front, back, ⟨rfl, rfl⟩, ⟨rfl, rfl⟩, rfl⟩
    rw [List.append_nil]
    exact ⟨order.decode_lt front, (order.encode_decode front).symm⟩
  · intro stored
    rcases stored with ⟨fits, rfl⟩
    refine ⟨_, _, [], ⟨rfl, order.encode_length width value⟩, ⟨?_, rfl⟩, ?_⟩
    · exact (order.decode_encode fits).symm
    · rw [List.append_nil]
      rfl

private theorem reads_readPoint :
    Reads (readPoint order) fun point bytes => bytes = serializePoint order point := by
  apply ((reads_readLE order 4).bind fun x => (reads_readLE order 4).bind
    fun y => reads_pure _).congr
  intro point bytes
  constructor
  · intro accepted
    rcases accepted with
      ⟨x, _, _, ⟨xFits, rfl⟩, ⟨y, _, _, ⟨yFits, rfl⟩, ⟨rfl, rfl⟩, rfl⟩, rfl⟩
    rw [serializePoint, UInt32.toNat_ofNat_of_lt' xFits, UInt32.toNat_ofNat_of_lt' yFits,
      List.append_nil]
  · rintro rfl
    refine ⟨point.x.toNat, _, _, ⟨point.x.toNat_lt, rfl⟩,
      ⟨point.y.toNat, _, [], ⟨point.y.toNat_lt, rfl⟩, ⟨?_, rfl⟩, rfl⟩, ?_⟩
    · rw [UInt32.ofNat_toNat, UInt32.ofNat_toNat]
    · rw [List.append_nil, serializePoint]

/-- The fields of a stroke before the byte that tells whether it is finished. -/
def strokeHead (stroke : Stroke) : ByteString :=
  appendLE order 8 stroke.id.toNat ++
  (appendLE order 8 stroke.author.toNat ++
  (appendLE order 1 stroke.color.value.toNat ++
  (appendLE order 1 stroke.thickness.value.toNat ++
    appendLE order 8 stroke.strokeOrder.toNat)))

def strokeTail (stroke : Stroke) : ByteString :=
  appendLE order 4 stroke.points.length ++ stroke.points.flatMap (serializePoint order)

/-- The bytes that are read as the stroke. -/
def StoredStroke (stroke : Stroke) (bytes : ByteString) : Prop :=
  ∃ flag : UInt8, stroke.finished = decide (flag ≠ 0) ∧
    stroke.points.length < 2 ^ 32 ∧
    bytes = strokeHead order stroke ++ flag :: strokeTail order stroke

theorem sequence_points {points : List Point} {bytes : ByteString} :
    Sequence (fun point bytes => bytes = serializePoint order point) points bytes ↔
      bytes = points.flatMap (serializePoint order) := by
  constructor
  · intro sequence
    induction sequence with
    | nil => rfl
    | cons isPoint _ induction => rw [isPoint, induction, List.flatMap_cons]
  · rintro rfl
    induction points with
    | nil => exact .nil
    | cons point rest induction => exact .cons rfl induction

theorem reads_readStroke : Reads (readStroke order) (StoredStroke order) := by
  apply ((reads_readLE order 8).bind fun id => (reads_readLE order 8).bind
    fun author => (reads_readLE order 1).bind fun color => (reads_readLE order 1).bind
    fun thickness => (reads_readLE order 8).bind fun strokeOrder =>
    (reads_readLE order 1).bind fun finished => (reads_readLE order 4).bind
    fun pointsCount => (reads_times (reads_readPoint order) pointsCount).bind
    fun points => reads_pure _).congr
  intro stroke bytes
  constructor
  · intro accepted
    rcases accepted with ⟨id, _, _, ⟨idFits, rfl⟩, ⟨author, _, _, ⟨authorFits, rfl⟩,
      ⟨color, _, _, ⟨colorFits, rfl⟩, ⟨thickness, _, _, ⟨thicknessFits, rfl⟩,
      ⟨strokeOrder, _, _, ⟨orderFits, rfl⟩, ⟨finished, _, _, ⟨flagFits, rfl⟩,
      ⟨pointsCount, _, _, ⟨countFits, rfl⟩, ⟨points, _, _, ⟨rfl, sequence⟩,
      ⟨rfl, rfl⟩, rfl⟩, rfl⟩, rfl⟩, rfl⟩, rfl⟩, rfl⟩, rfl⟩, rfl⟩
    have flagValue : (UInt8.ofNat finished).toNat = finished :=
      UInt8.toNat_ofNat_of_lt' flagFits
    refine ⟨.ofNat finished, ?_, countFits, ?_⟩
    · simp only [← UInt8.toNat_inj.ne, flagValue]
      rfl
    · rw [(sequence_points order).mp sequence, strokeHead, strokeTail,
        UInt64.toNat_ofNat_of_lt' idFits, UInt64.toNat_ofNat_of_lt' authorFits,
        UInt8.toNat_ofNat_of_lt' colorFits, UInt8.toNat_ofNat_of_lt' thicknessFits,
        UInt64.toNat_ofNat_of_lt' orderFits, ← List.singleton_append,
        ← order.encode_one, flagValue]
      simp only [appendLE, List.append_assoc, List.append_nil]
  · intro stored
    rcases stored with ⟨flag, isFlag, countFits, rfl⟩
    have flagRead : decide (flag.toNat ≠ 0) = stroke.finished := by
      simp only [isFlag, ← UInt8.toNat_inj.ne]
      rfl
    refine ⟨stroke.id.toNat, _, _, ⟨stroke.id.toNat_lt, rfl⟩,
      ⟨stroke.author.toNat, _, _, ⟨stroke.author.toNat_lt, rfl⟩,
      ⟨stroke.color.value.toNat, _, _, ⟨stroke.color.value.toNat_lt, rfl⟩,
      ⟨stroke.thickness.value.toNat, _, _, ⟨stroke.thickness.value.toNat_lt, rfl⟩,
      ⟨stroke.strokeOrder.toNat, _, _, ⟨stroke.strokeOrder.toNat_lt, rfl⟩,
      ⟨flag.toNat, _, _, ⟨flag.toNat_lt, rfl⟩,
      ⟨stroke.points.length, _, _, ⟨countFits, rfl⟩,
      ⟨stroke.points, _, [], ⟨rfl, (sequence_points order).mpr rfl⟩,
      ⟨?_, rfl⟩, rfl⟩, rfl⟩, rfl⟩, rfl⟩, rfl⟩, rfl⟩, rfl⟩, ?_⟩
    · rw [flagRead, UInt64.ofNat_toNat, UInt64.ofNat_toNat, UInt64.ofNat_toNat,
        UInt8.ofNat_toNat, UInt8.ofNat_toNat]
    · rw [strokeHead, strokeTail, ← List.singleton_append, ← order.encode_one]
      simp only [appendLE, List.append_assoc, List.append_nil]

def StoredStrokes (strokes : List Stroke) (bytes : ByteString) : Prop :=
  strokes.length < 2 ^ 32 ∧ ∃ body, Sequence (StoredStroke order) strokes body ∧
    bytes = appendLE order 4 1 ++ (appendLE order 4 strokes.length ++ body)

theorem reads_readStrokes : Reads (readStrokes order) (StoredStrokes order) := by
  have counted := (reads_readLE order 4).bind
    fun strokesCount => reads_times (reads_readStroke order) strokesCount
  apply ((reads_readLE order 4).bind fun version => Reads.guarded
    (fun input read accepted => by cases accepted) counted).congr
  intro strokes bytes
  constructor
  · intro accepted
    rcases accepted with
      ⟨version, _, _, ⟨_, rfl⟩, ⟨isOne, strokesCount, _, body, ⟨countFits, rfl⟩,
      ⟨rfl, sequence⟩, rfl⟩, rfl⟩
    rw [not_ne_iff.mp isOne]
    exact ⟨countFits, body, sequence, rfl⟩
  · intro stored
    rcases stored with ⟨countFits, body, sequence, rfl⟩
    exact ⟨1, _, _, ⟨by decide, rfl⟩, ⟨not_ne_iff.mpr rfl, strokes.length, _, body,
      ⟨countFits, rfl⟩, ⟨rfl, sequence⟩, rfl⟩, rfl⟩

theorem deserialize_eq_ok {blob : ByteString} {strokes : List Stroke} :
    deserializeStrokes order blob blob.length = .ok strokes ↔
      StoredStrokes order strokes blob := by
  have reads := reads_readStrokes order blob strokes []
  simp only [List.append_nil, exists_eq_right'] at reads
  rw [← reads, deserializeStrokes, Int.toNat_natCast, List.take_length]
  rcases readStrokes order blob with error | ⟨read, _ | ⟨byte, rest⟩⟩
  · simp
  · simp
  · simp

/-! ## Finished bytes made one -/

def flagByte (flag : UInt8) : UInt8 := if flag = 0 then 0 else 1

@[simp] theorem appendLE_length (width value : Nat) :
    (appendLE order width value).length = width :=
  order.encode_length width value

theorem decode_appendLE {width value : Nat} (fits : value < 256 ^ width) :
    order.decode (appendLE order width value) = value :=
  order.decode_encode fits

def strokeSize (bytes : ByteString) : Nat :=
  31 + 8 * order.decode ((bytes.drop 27).take 4)

def normalizeStrokes : Nat → ByteString → ByteString
  | 0, bytes => bytes
  | count + 1, bytes =>
      (bytes.take (strokeSize order bytes)).modify 26 flagByte ++
        normalizeStrokes count (bytes.drop (strokeSize order bytes))

/-- The blob with every nonzero finished byte replaced by 1. -/
def normalizeFinished (blob : ByteString) : ByteString :=
  blob.take 8 ++ normalizeStrokes order (order.decode ((blob.drop 4).take 4))
    (blob.drop 8)

theorem normalizeStrokes_length : ∀ (count : Nat) (bytes : ByteString),
    (normalizeStrokes order count bytes).length = bytes.length
  | 0, _ => rfl
  | count + 1, bytes => by
      rw [normalizeStrokes, List.length_append, List.length_modify,
        normalizeStrokes_length count, List.length_take, List.length_drop]
      omega

theorem normalizeStrokes_cons (count : Nat) {head points : ByteString} (flag : UInt8)
    (rest : ByteString) (headLength : head.length = 26)
    (pointsLength : points.length = 4) :
    normalizeStrokes order (count + 1) (head ++ flag :: (points ++ rest)) =
      head ++ flagByte flag :: (points ++
        (rest.take (8 * order.decode points) ++
          normalizeStrokes order count (rest.drop (8 * order.decode points)))) := by
  have fixedLength : (head ++ flag :: points).length = 31 := by
    simp [headLength, pointsLength]
  have afterFlag : (head ++ flag :: (points ++ rest)).drop 27 = points ++ rest := by
    rw [List.append_cons, List.drop_left' (by simp [headLength])]
  have size : strokeSize order (head ++ flag :: (points ++ rest)) =
      31 + 8 * order.decode points := by
    rw [strokeSize, afterFlag, List.take_left' pointsLength]
  have fixedFirst :
      head ++ flag :: (points ++ rest) = (head ++ flag :: points) ++ rest := by
    simp
  rw [normalizeStrokes, size, fixedFirst, ← fixedLength, List.take_length_add_append,
    List.drop_length_add_append, List.modify_eq_take_drop, List.append_assoc head,
    List.take_left' headLength, List.drop_left' headLength]
  simp

theorem strokeHead_length (stroke : Stroke) : (strokeHead order stroke).length = 26 := by
  simp [strokeHead, appendLE]

theorem serializeStroke_eq (stroke : Stroke) :
    serializeStroke order stroke =
      strokeHead order stroke ++ (if stroke.finished then 1 else 0) ::
        (appendLE order 4 stroke.points.length ++
          stroke.points.flatMap (serializePoint order)) := by
  have flag : appendLE order 1 (if stroke.finished then 1 else 0) =
      [if stroke.finished then 1 else 0] := by
    rw [← order.encode_one]
    cases stroke.finished <;> rfl
  rw [serializeStroke, flag, strokeHead]
  simp only [List.append_assoc, List.singleton_append]

theorem flagByte_eq {stroke : Stroke} {flag : UInt8} :
    flagByte flag = (if stroke.finished then 1 else 0) ↔
      stroke.finished = decide (flag ≠ 0) := by
  by_cases isZero : flag = 0 <;> cases stroke.finished <;> simp [flagByte, isZero]

private theorem normalizeStrokes_stored {strokes : List Stroke} {bytes : ByteString}
    (sequence : Sequence (StoredStroke order) strokes bytes) :
    normalizeStrokes order strokes.length bytes =
      strokes.flatMap (serializeStroke order) := by
  induction sequence with
  | nil => rfl
  | @cons stroke strokes front back stored _ induction =>
      rcases stored with ⟨flag, isFlag, countFits, rfl⟩
      have pointsLength := serializePoints_length order stroke.points
      rw [strokeTail, List.append_assoc, List.cons_append, List.append_assoc,
        List.length_cons,
        normalizeStrokes_cons order _ _ _ (strokeHead_length order stroke)
          (appendLE_length order 4 _), decode_appendLE order countFits,
        List.take_left' pointsLength, List.drop_left' pointsLength, induction,
        flagByte_eq.mpr isFlag, List.flatMap_cons, serializeStroke_eq]
      simp only [List.append_assoc, List.cons_append]

private theorem stored_of_normalizeStrokes {strokes : List Stroke} {bytes : ByteString}
    (countsFit : ∀ stroke ∈ strokes, stroke.points.length < 2 ^ 32)
    (same : normalizeStrokes order strokes.length bytes =
      strokes.flatMap (serializeStroke order)) :
    Sequence (StoredStroke order) strokes bytes := by
  induction strokes generalizing bytes with
  | nil =>
      have empty : bytes = [] := same
      rw [empty]
      exact .nil
  | cons stroke strokes induction =>
      have countFits := countsFit stroke (by simp)
      -- by their length the bytes have all fields of the first stroke
      have length := congrArg List.length same
      rw [normalizeStrokes_length, List.flatMap_cons, List.length_append,
        serializeStroke_length] at length
      obtain ⟨head, flag, points, rest, rfl, headLength, pointsLength⟩ :
          ∃ head flag points rest, bytes = head ++ flag :: (points ++ rest) ∧
            head.length = 26 ∧ points.length = 4 := by
        have inside : 26 < bytes.length := by omega
        refine ⟨bytes.take 26, bytes[26], (bytes.drop 27).take 4, bytes.drop 31,
          ?_, ?_, ?_⟩
        · have later : (bytes.drop 27).drop 4 = bytes.drop 31 := List.drop_drop ..
          rw [← later, List.take_append_drop, ← List.drop_eq_getElem_cons,
            List.take_append_drop]
        · rw [List.length_take]
          omega
        · rw [List.length_take, List.length_drop]
          omega
      rw [List.length_cons, normalizeStrokes_cons order _ _ _ headLength pointsLength,
        List.flatMap_cons, serializeStroke_eq, List.append_assoc, List.cons_append,
        List.append_assoc] at same
      rcases List.append_inj same
        (headLength.trans (strokeHead_length order stroke).symm) with ⟨rfl, afterHead⟩
      rcases List.cons.inj afterHead with ⟨sameFlag, afterFlag⟩
      rcases List.append_inj afterFlag
        (pointsLength.trans (appendLE_length order 4 _).symm) with ⟨rfl, afterCount⟩
      rw [decode_appendLE order countFits] at afterCount
      have pointsInside : (rest.take (8 * stroke.points.length)).length =
          (stroke.points.flatMap (serializePoint order)).length := by
        simp only [List.length_append, List.length_cons, headLength,
          pointsLength] at length
        rw [serializePoints_length, List.length_take]
        omega
      rcases List.append_inj afterCount pointsInside with ⟨samePoints, afterStroke⟩
      have stored : StoredStroke order stroke
          (strokeHead order stroke ++ flag :: strokeTail order stroke) :=
        ⟨flag, flagByte_eq.mp sameFlag, countFits, rfl⟩
      have later := induction (fun other member => countsFit other (by simp [member]))
        afterStroke
      have whole :
          strokeHead order stroke ++
              flag :: (appendLE order 4 stroke.points.length ++ rest) =
            (strokeHead order stroke ++ flag :: strokeTail order stroke) ++
              rest.drop (8 * stroke.points.length) := by
        rw [strokeTail, ← samePoints]
        simp only [List.append_assoc, List.cons_append, List.take_append_drop]
      rw [whole]
      exact .cons stored later

theorem normalizeFinished_header {version count : ByteString}
    (versionLength : version.length = 4) (countLength : count.length = 4)
    (body : ByteString) :
    normalizeFinished order (version ++ (count ++ body)) =
      version ++ (count ++ normalizeStrokes order (order.decode count) body) := by
  have header : (version ++ count).length = 8 := by
    simp [versionLength, countLength]
  rw [normalizeFinished, List.drop_left' versionLength, List.take_left' countLength,
    ← List.append_assoc, List.take_left' header, List.drop_left' header,
    List.append_assoc]

private theorem serializeStrokes_length (strokes : List Stroke) :
    (serializeStrokes order strokes).length =
      8 + (strokes.flatMap (serializeStroke order)).length := by
  rw [serializeStrokes, List.length_append, List.length_append, appendLE_length,
    appendLE_length]
  omega

private theorem stored_of_normalizeFinished {blob : ByteString}
    (fits : blob.length < 2 ^ 31)
    {strokes : List Stroke}
    (same : normalizeFinished order blob = serializeStrokes order strokes) :
    StoredStrokes order strokes blob := by
  have length := congrArg List.length same
  rw [serializeStrokes_length, normalizeFinished, List.length_append,
    normalizeStrokes_length, List.length_take, List.length_drop] at length
  have sizes := length_le_serialized order strokes
  have countFits : strokes.length < 2 ^ 32 := by omega
  have countsFit : ∀ stroke ∈ strokes, stroke.points.length < 2 ^ 32 := by
    intro stroke member
    have inBlob := sizes.2 stroke member
    omega
  obtain ⟨version, count, body, rfl, versionLength, countLength⟩ :
      ∃ version count body, blob = version ++ (count ++ body) ∧
        version.length = 4 ∧ count.length = 4 := by
    refine ⟨blob.take 4, (blob.drop 4).take 4, (blob.drop 4).drop 4, ?_, ?_, ?_⟩
    · rw [List.take_append_drop, List.take_append_drop]
    · rw [List.length_take]
      omega
    · rw [List.length_take, List.length_drop]
      omega
  rw [normalizeFinished_header order versionLength countLength, serializeStrokes] at same
  rcases List.append_inj same
    (versionLength.trans (appendLE_length order 4 _).symm) with ⟨rfl, afterVersion⟩
  rcases List.append_inj afterVersion
    (countLength.trans (appendLE_length order 4 _).symm) with ⟨rfl, sameBody⟩
  rw [decode_appendLE order countFits] at sameBody
  exact ⟨countFits, body, stored_of_normalizeStrokes order countsFit sameBody, rfl⟩

private theorem normalizeFinished_eq {blob : ByteString} (fits : blob.length < 2 ^ 31)
    {strokes : List Stroke} :
    normalizeFinished order blob = serializeStrokes order strokes ↔
      StoredStrokes order strokes blob := by
  constructor
  · exact stored_of_normalizeFinished order fits
  · intro stored
    rcases stored with ⟨countFits, body, sequence, rfl⟩
    rw [normalizeFinished_header order (appendLE_length order 4 1)
      (appendLE_length order 4 _), decode_appendLE order countFits,
      normalizeStrokes_stored order sequence, serializeStrokes]

/-! ## Memory beside the blob

The source walks the blob with two pointers. Addresses count from `data`. -/

section Memory

variable (memory : Nat → UInt8) (stop : Nat)

def readLEAt (width : Nat) : PointerReader RuntimeError Nat :=
  order.decode <$> PointerReader.take memory stop width corrupted

def readPointAt : PointerReader RuntimeError Point := do
  let x ← readLEAt order memory stop 4
  let y ← readLEAt order memory stop 4
  pure { x := .ofNat x, y := .ofNat y }

def readStrokeAt : PointerReader RuntimeError Stroke := do
  let id ← readLEAt order memory stop 8
  let author ← readLEAt order memory stop 8
  let color ← readLEAt order memory stop 1
  let thickness ← readLEAt order memory stop 1
  let strokeOrder ← readLEAt order memory stop 8
  let finished ← readLEAt order memory stop 1
  let pointsCount ← readLEAt order memory stop 4
  let points ← (readPointAt order memory stop).times pointsCount
  pure {
    id := .ofNat id, author := .ofNat author, color := ⟨.ofNat color⟩
    thickness := ⟨.ofNat thickness⟩, strokeOrder := .ofNat strokeOrder
    points, finished := decide (finished ≠ 0) }

def readStrokesAt : PointerReader RuntimeError (List Stroke) := do
  let version ← readLEAt order memory stop 4
  if version ≠ 1 then throw unsupportedVersion
  let strokesCount ← readLEAt order memory stop 4
  (readStrokeAt order memory stop).times strokesCount

/-- The last check of `deserializeStrokes`, that `p` has reached `end`. -/
def checkEnd (size : Nat) : Except RuntimeError (List Stroke) × Pointer →
    Except RuntimeError (List Stroke) × Pointer
  | (.error error, pointer) => (.error error, pointer)
  | (.ok strokes, pointer) =>
      if pointer.position ≠ size then (.error trailingBytes, pointer)
      else (.ok strokes, pointer)

/-- `deserializeStrokes` on the `size` bytes that start at address 0. -/
def deserializeAt (size : Nat) : Except RuntimeError (List Stroke) × Pointer :=
  checkEnd size (readStrokesAt order memory size { position := 0 })

variable {memory stop}

open PointerReader

theorem readLEAt_follows (small : stop < 2 ^ 64) (width : Nat) :
    Follows memory stop (readLEAt order memory stop width) (readLE order width) :=
  (follows_take small width corrupted).map order.decode

private theorem readPointAt_follows (small : stop < 2 ^ 64) :
    Follows memory stop (readPointAt order memory stop) (readPoint order) :=
  (readLEAt_follows order small 4).bind fun _ =>
    (readLEAt_follows order small 4).bind fun _ => follows_pure _

private theorem readStrokeAt_follows (small : stop < 2 ^ 64) :
    Follows memory stop (readStrokeAt order memory stop) (readStroke order) :=
  (readLEAt_follows order small 8).bind fun _ =>
    (readLEAt_follows order small 8).bind fun _ =>
    (readLEAt_follows order small 1).bind fun _ =>
    (readLEAt_follows order small 1).bind fun _ =>
    (readLEAt_follows order small 8).bind fun _ =>
    (readLEAt_follows order small 1).bind fun _ =>
    (readLEAt_follows order small 4).bind fun count =>
    ((readPointAt_follows order small).times count).bind fun _ => follows_pure _

private theorem readStrokesAt_follows (small : stop < 2 ^ 64) :
    Follows memory stop (readStrokesAt order memory stop) (readStrokes order) := by
  have counted : Follows memory stop _ _ := (readLEAt_follows order small 4).bind
    fun count => (readStrokeAt_follows order small).times count
  apply (readLEAt_follows order small 4).bind
  intro version
  exact follows_ite ((follows_throw unsupportedVersion).bind fun _ => counted) counted

/-- The pointers stay inside the blob, and the result is that of its bytes. -/
theorem deserializeAt_eq {size : Nat} (small : size < 2 ^ 64) :
    (deserializeAt order memory size).1 =
        deserializeStrokes order (bytesAt memory 0 size) size ∧
      ∀ address ∈ (deserializeAt order memory size).2.touched, address < size := by
  have agrees :
      Agrees memory size _ (readStrokesAt order memory size { position := 0 }) :=
    readStrokesAt_follows order small { position := 0 } (within_start size)
  have whole : (bytesAt memory 0 size).take size = bytesAt memory 0 size := by
    rw [List.take_of_length_le]
    rw [bytesAt_length]
  rw [Nat.sub_zero] at agrees
  rw [deserializeAt, deserializeStrokes, Int.toNat_natCast, whole]
  generalize readStrokes order (bytesAt memory 0 size) = expected at agrees ⊢
  generalize readStrokesAt order memory size { position := 0 } = reached at agrees ⊢
  rcases reached with ⟨result, pointer⟩
  have sameResult : result = expected.map Prod.fst := agrees.result
  rcases expected with error | ⟨strokes, rest⟩
  · subst sameResult
    exact ⟨rfl, agrees.within.touched⟩
  · subst sameResult
    have inside : pointer.position ≤ size := agrees.within.position
    have restLength : rest.length = size - pointer.position := by
      rw [agrees.rest strokes rest rfl]
      exact bytesAt_length ..
    simp only [Except.map, checkEnd]
    cases rest with
    | nil =>
        have atEnd : ¬ pointer.position ≠ size := by
          rw [List.length_nil] at restLength
          omega
        rw [if_neg atEnd]
        exact ⟨rfl, agrees.within.touched⟩
    | cons byte bytes =>
        have notAtEnd : pointer.position ≠ size := by
          rw [List.length_cons] at restLength
          omega
        rw [if_pos notAtEnd]
        exact ⟨rfl, agrees.within.touched⟩

end Memory

/-! ## Everything else is rejected -/

def Rejected (blob : ByteString) : Prop :=
  ∃ error, deserializeStrokes order blob blob.length = .error error

theorem rejected_of_not_stored {blob : ByteString}
    (notStored : ∀ strokes, ¬ StoredStrokes order strokes blob) :
    Rejected order blob := by
  cases result : deserializeStrokes order blob blob.length with
  | error error => exact ⟨error, result⟩
  | ok strokes => exact absurd ((deserialize_eq_ok order).mp result) (notStored strokes)

/-- No blob is the beginning of another. -/
theorem StoredStrokes.nothing_after {front back : ByteString}
    {strokes others : List Stroke} (short : StoredStrokes order strokes front)
    (long : StoredStrokes order others (front ++ back)) : back = [] := by
  have readShort := (reads_readStrokes order (front ++ back) strokes back).mpr
    ⟨front, short, rfl⟩
  have readLong := (reads_readStrokes order (front ++ back) others []).mpr
    ⟨front ++ back, long, (List.append_nil _).symm⟩
  cases readShort.symm.trans readLong
  rfl

theorem StoredStroke.length_eq {stroke : Stroke} {bytes : ByteString}
    (stored : StoredStroke order stroke bytes) :
    bytes.length = 31 + 8 * stroke.points.length := by
  rcases stored with ⟨flag, _, _, rfl⟩
  rw [List.length_append, strokeHead_length, List.length_cons, strokeTail,
    List.length_append, appendLE_length, serializePoints_length]
  omega

private theorem StoredStroke.strokeSize_eq {stroke : Stroke} {bytes : ByteString}
    (stored : StoredStroke order stroke bytes) (rest : ByteString) :
    strokeSize order (bytes ++ rest) = bytes.length := by
  rw [stored.length_eq]
  rcases stored with ⟨flag, _, countFits, rfl⟩
  have beforeCount : (strokeHead order stroke ++ [flag]).length = 27 := by
    simp [strokeHead_length]
  rw [strokeSize, List.append_cons, List.append_assoc, List.drop_left' beforeCount,
    strokeTail, List.append_assoc, List.take_left' (appendLE_length order 4 _),
    decode_appendLE order countFits]

private theorem sequence_length_le {strokes : List Stroke} {bytes : ByteString}
    (sequence : Sequence (StoredStroke order) strokes bytes) :
    31 * strokes.length ≤ bytes.length := by
  induction sequence with
  | nil => exact Nat.le_refl 0
  | cons stored _ induction =>
      have size := stored.length_eq
      rw [List.length_cons, List.length_append]
      omega

theorem StoredStrokes.header {strokes : List Stroke} {blob : ByteString}
    (stored : StoredStrokes order strokes blob) :
    order.decode (blob.take 4) = 1 ∧
      order.decode ((blob.drop 4).take 4) = strokes.length ∧
      8 ≤ blob.length ∧ Sequence (StoredStroke order) strokes (blob.drop 8) := by
  rcases stored with ⟨countFits, body, sequence, rfl⟩
  have header : (appendLE order 4 1 ++ appendLE order 4 strokes.length).length = 8 := by
    simp
  refine ⟨?_, ?_, ?_, ?_⟩
  · rw [List.take_left' (appendLE_length order 4 1)]
    exact decode_appendLE order (by decide)
  · rw [List.drop_left' (appendLE_length order 4 1),
      List.take_left' (appendLE_length order 4 _)]
    exact decode_appendLE order countFits
  · simp only [List.length_append, appendLE_length]
    omega
  · rw [← List.append_assoc, List.drop_left' header]
    exact sequence

/-- How `deserializeStrokes` decides about a blob, whatever lies behind it in
memory. -/
structure Exact (blob : ByteString) : Prop where
  accepted : ∀ strokes, deserializeStrokes order blob blob.length = .ok strokes ↔
    normalizeFinished order blob = serializeStrokes order strokes
  inBounds : ∀ memory, bytesAt memory 0 blob.length = blob →
    (deserializeAt order memory blob.length).1 =
        deserializeStrokes order blob blob.length ∧
      ∀ address ∈ (deserializeAt order memory blob.length).2.touched,
        address < blob.length
  shorter : ¬ Rejected order blob → ∀ front back, blob = front ++ back → back ≠ [] →
    Rejected order front
  longer : ¬ Rejected order blob → ∀ more, more ≠ [] → Rejected order (blob ++ more)
  version : order.decode (blob.take 4) ≠ 1 → Rejected order blob
  strokesCount : blob.length < 8 + 31 * order.decode ((blob.drop 4).take 4) →
    Rejected order blob
  pointsCount : ∀ count read rest,
    (readStroke order).times count (blob.drop 8) = .ok (read, rest) →
    count < order.decode ((blob.drop 4).take 4) → rest.length < strokeSize order rest →
    Rejected order blob

theorem stored_of_not_rejected {blob : ByteString} (notRejected : ¬ Rejected order blob) :
    ∃ strokes, StoredStrokes order strokes blob := by
  by_contra none
  exact notRejected (rejected_of_not_stored order (not_exists.mp none))

theorem deserialize_exact (blob : ByteString) (fits : blob.length < 2 ^ 31) :
    Exact order blob where
  accepted strokes := by
    rw [deserialize_eq_ok, normalizeFinished_eq order fits]
  inBounds memory isBlob := by
    have small : blob.length < 2 ^ 64 := by omega
    have inside := @deserializeAt_eq order memory blob.length small
    rw [isBlob] at inside
    exact inside
  shorter notRejected front back split notEmpty := by
    rcases stored_of_not_rejected order notRejected with ⟨strokes, stored⟩
    apply rejected_of_not_stored
    intro others storedFront
    rw [split] at stored
    exact notEmpty (storedFront.nothing_after order stored)
  longer notRejected more notEmpty := by
    rcases stored_of_not_rejected order notRejected with ⟨strokes, stored⟩
    apply rejected_of_not_stored
    intro others storedMore
    exact notEmpty (stored.nothing_after order storedMore)
  version wrong := by
    apply rejected_of_not_stored
    intro strokes stored
    exact wrong stored.header.1
  strokesCount tooMany := by
    apply rejected_of_not_stored
    intro strokes stored
    rcases stored.header with ⟨_, count, header, sequence⟩
    have size := sequence_length_le order sequence
    rw [List.length_drop] at size
    rw [count] at tooMany
    omega
  pointsCount count read rest readSome further tooMany := by
    apply rejected_of_not_stored
    intro strokes stored
    rcases stored.header with ⟨_, total, _, sequence⟩
    rw [total] at further
    rcases sequence.next_entry (reads_readStroke order) further readSome with
      ⟨stroke, front, back, isStroke, rfl⟩
    rw [isStroke.strokeSize_eq, List.length_append] at tooMany
    omega

def markedSeven : ByteString :=
  [1, 0, 0, 0, 1, 0, 0, 0] ++
    [5, 0, 0, 0, 0, 0, 0, 0, 9, 0, 0, 0, 0, 0, 0, 0, 2, 200, 3, 0, 0, 0, 0, 0, 0, 0, 7,
      1, 0, 0, 0, 10, 0, 0, 0, 11, 0, 0, 0]

theorem deserialize_exact_markedSeven :
    markedSeven.length = 47 ∧
      deserializeStrokes .little markedSeven 47 =
        .ok [{ id := 5, author := 9, color := ⟨2⟩, thickness := ⟨200⟩, strokeOrder := 3
               points := [⟨10, 11⟩], finished := true }] ∧
      Exact .little markedSeven := by
  have law := deserialize_exact .little markedSeven (by decide)
  exact ⟨rfl, (law.accepted _).mpr (by decide), law⟩

end ClearSpace.Persistence
