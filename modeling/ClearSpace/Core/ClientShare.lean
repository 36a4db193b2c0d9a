import ClearSpace.Core.RoomSequence
import ClearSpace.Foundation.Interleaving

/-! # The share of one client

What a room holds of a client: membership, cursor, throttle and the strokes it
has drawn, without the ids and orders that come from shared counters. As long as
nobody clears the board, a client's calls depend on its own share and change no
other, so the order of the calls of different clients does not matter. -/

namespace ClearSpace.Core

open KeyedLists

/-- A stroke without what the counters of the room gave it. -/
structure Drawing where
  color : Color
  thickness : Thickness
  points : List Point
  finished : Bool
  deriving DecidableEq, Repr

namespace Drawing

/-- A point goes to the stroke that is still being drawn. -/
def extend (drawing : Drawing) (p : Point) : Drawing :=
  if drawing.finished then drawing else { drawing with points := drawing.points ++ [p] }

def finish (drawing : Drawing) : Drawing :=
  { drawing with finished := true }

end Drawing

def Stroke.drawing (stroke : Stroke) : Drawing where
  color := stroke.color
  thickness := stroke.thickness
  points := stroke.points
  finished := stroke.finished

structure Share where
  member : Bool
  cursor : Option Point
  lastMove : Option TimePoint
  drawn : List Drawing

abbrev Verdict := Except Error Unit × Nat

namespace Share

def drawing (share : Share) : Bool := share.drawn.any fun drawing => !drawing.finished

def throttled (share : Share) (now : TimePoint) : Bool :=
  match share.lastMove with
  | none => false
  | some last => decide (now - last < Config.cursorMinInterval)

def refuse (share : Share) (error : Error) : Share × Verdict := (share, .error error, 0)

def leave (share : Share) : Share × Verdict :=
  if share.member then
    ({ member := false, cursor := none, lastMove := none
       drawn := share.drawn.map Drawing.finish },
      .ok (), if share.drawing then 2 else 1)
  else share.refuse .notInRoom

/-- A drawing event of a member; `clear` would not be a matter of one share. -/
def draw (share : Share) (event : EventPayload) (now : TimePoint) : Share × Verdict :=
  match event with
  | .strokeBegin color thickness start =>
      if share.drawing then
        share.refuse (.protocolViolation (.ascii "stroke already active"))
      else
        ({ share with drawn := share.drawn ++ [⟨color, thickness, [start], false⟩] },
          .ok (), 1)
  | .strokePoint p =>
      if share.drawing then
        ({ share with drawn := share.drawn.map (·.extend p) }, .ok (), 1)
      else share.refuse (.protocolViolation (.ascii "stroke point without begin"))
  | .strokeEnd =>
      if share.drawing then
        ({ share with drawn := share.drawn.map Drawing.finish }, .ok (), 1)
      else share.refuse (.protocolViolation (.ascii "stroke end without begin"))
  | .cursorMove p =>
      if share.throttled now then (share, .ok (), 0)
      else ({ share with cursor := some p, lastMove := some now }, .ok (), 1)
  | .clear => (share, .ok (), 1)

def answer (share : Share) : Call → Share × Verdict
  | .join _ => ({ share with member := true }, .ok (), 0)
  | .leave _ => share.leave
  | .apply _ event now =>
      if share.member then share.draw event now else share.refuse .notInRoom

/-- The room as one client would have it alone. -/
def machine : Machine Share Call Verdict where
  step := answer

end Share

def Call.isClear : Call → Bool
  | .apply _ .clear _ => true
  | _ => false

def Outcome.verdict (outcome : Outcome Reply) : Verdict :=
  (outcome.result.map fun _ => (), outcome.issued.length)

namespace Room

/-- The strokes of an author, in the order of the board. -/
def drawnBy (room : Room) (author : ClientId) : List Drawing :=
  (room.board.strokes.filter fun stroke => stroke.author = author).map Stroke.drawing

def share (room : Room) (client : ClientId) : Share where
  member := decide (client ∈ room.members)
  cursor := room.board.cursors.lookup client
  lastMove := room.lastCursorUpdate.lookup client
  drawn := room.drawnBy client

/-! ## Strokes of one author -/

section Strokes

variable {room : Room} {client : ClientId} {sid : StrokeId}

theorem mem_drawnBy {drawing : Drawing} :
    drawing ∈ room.drawnBy client ↔
      ∃ stroke ∈ room.board.strokes,
        stroke.author = client ∧ stroke.drawing = drawing := by
  simp [drawnBy, and_assoc]

theorem Consistent.drawing_eq (consistent : room.Consistent) (client : ClientId) :
    (room.share client).drawing =
      (room.activeStrokeByClient.lookup client).isSome := by
  apply Bool.eq_iff_iff.mpr
  rw [Option.isSome_iff_exists, Share.drawing, List.any_eq_true]
  constructor
  · intro shown
    rcases shown with ⟨drawing, member, isOpen⟩
    rcases mem_drawnBy.mp member with ⟨stroke, inBoard, isAuthor, rfl⟩
    exact ⟨stroke.id, (consistent.active client stroke.id).mpr
      ⟨stroke, inBoard, rfl, isAuthor, Bool.not_eq_true' _ ▸ isOpen⟩⟩
  · intro active
    rcases active with ⟨sid, drawing⟩
    rcases (consistent.active client sid).mp drawing with
      ⟨stroke, inBoard, _, isAuthor, isOpen⟩
    exact ⟨stroke.drawing, mem_drawnBy.mpr ⟨stroke, inBoard, isAuthor, rfl⟩,
      Bool.not_eq_true' _ ▸ isOpen⟩

/-- Changing the active stroke of a client changes the drawings of that client
only, and of them the unfinished one. -/
theorem Consistent.drawnBy_updateStroke (consistent : room.Consistent)
    (drawing : room.activeStrokeByClient.lookup client = some sid)
    {change : Stroke → Stroke} {effect : Drawing → Drawing}
    (keepsAuthor : ∀ stroke, (change stroke).author = stroke.author)
    (unfinished : ∀ stroke : Stroke, stroke.finished = false →
      (change stroke).drawing = effect stroke.drawing)
    (finished : ∀ stroke : Stroke, stroke.finished = true →
      stroke.drawing = effect stroke.drawing) (author : ClientId) :
    (room.updateStroke sid change).drawnBy author =
      if author = client then (room.drawnBy client).map effect
      else room.drawnBy author := by
  have sameAuthor : ((fun stroke => decide (stroke.author = author)) ∘ fun stroke =>
      if stroke.id = sid then change stroke else stroke) =
      fun stroke => decide (stroke.author = author) := by
    funext stroke
    rw [Function.comp_apply]
    split
    · rw [keepsAuthor]
    · rfl
  rw [drawnBy, updateStroke, updateBy, List.filter_map, sameAuthor, List.map_map]
  split
  next isClient =>
    subst isClient
    rw [drawnBy, List.map_map]
    apply List.map_congr_left
    intro stroke member
    rcases List.mem_filter.mp member with ⟨inBoard, isAuthor⟩
    simp only [Function.comp_apply, consistent.id_eq_iff drawing inBoard,
      of_decide_eq_true isAuthor, true_and]
    split
    next isOpen => exact unfinished stroke isOpen
    next isClosed => exact finished stroke (by simpa using isClosed)
  next notClient =>
    rw [drawnBy]
    apply List.map_congr_left
    intro stroke member
    rcases List.mem_filter.mp member with ⟨inBoard, isAuthor⟩
    have notActive : ¬ stroke.id = sid := by
      rw [consistent.id_eq_iff drawing inBoard, of_decide_eq_true isAuthor]
      exact fun isActive => notClient isActive.1
    simp only [Function.comp_apply, if_neg notActive]

end Strokes

/-! ## Shares after each effect -/

section Effects

variable {room : Room} {client : ClientId} {sid : StrokeId}

@[simp] theorem share_advance (room : Room) (client : ClientId) :
    room.advance.share client = room.share client := rfl

theorem share_addMember (room : Room) (client other : ClientId) :
    (room.addMember client).share other =
      if other = client then { room.share client with member := true }
      else room.share other := by
  split
  next isClient =>
    subst isClient
    simp [share, addMember, drawnBy]
  next notClient => simp [share, addMember, drawnBy, notClient]

theorem share_forget (room : Room) (client other : ClientId) :
    (room.forget client).share other =
      if other = client then
        { member := false, cursor := none, lastMove := none
          drawn := room.drawnBy client }
      else room.share other := by
  split
  next isClient =>
    subst isClient
    simp [share, forget, drawnBy]
  next notClient =>
    simp [share, forget, drawnBy, notClient, AList.lookup_erase_ne notClient]

theorem share_updateStroke (consistent : room.Consistent)
    (drawing : room.activeStrokeByClient.lookup client = some sid)
    {change : Stroke → Stroke} {effect : Drawing → Drawing}
    (keepsAuthor : ∀ stroke, (change stroke).author = stroke.author)
    (unfinished : ∀ stroke : Stroke, stroke.finished = false →
      (change stroke).drawing = effect stroke.drawing)
    (finished : ∀ stroke : Stroke, stroke.finished = true →
      stroke.drawing = effect stroke.drawing) (other : ClientId) :
    (room.updateStroke sid change).share other =
      if other = client then
        { room.share client with drawn := (room.drawnBy client).map effect }
      else room.share other := by
  have drawn :=
    consistent.drawnBy_updateStroke drawing keepsAuthor unfinished finished other
  rw [share, drawn]
  split
  next isClient =>
    subst isClient
    rfl
  next => rfl

theorem share_finishStroke (consistent : room.Consistent)
    (drawing : room.activeStrokeByClient.lookup client = some sid) (other : ClientId) :
    (room.finishStroke client sid).share other =
      if other = client then
        { room.share client with drawn := (room.drawnBy client).map Drawing.finish }
      else room.share other := by
  apply share_updateStroke consistent drawing
  · exact fun _ => rfl
  · exact fun _ _ => rfl
  · intro stroke isFinished
    simp [Stroke.drawing, Drawing.finish, isFinished]

theorem share_push (consistent : room.Consistent)
    (drawing : room.activeStrokeByClient.lookup client = some sid) (p : Point)
    (other : ClientId) :
    (room.updateStroke sid fun stroke => stroke.push p).share other =
      if other = client then
        { room.share client with drawn := (room.drawnBy client).map (·.extend p) }
      else room.share other := by
  apply share_updateStroke consistent drawing
  · exact fun _ => rfl
  · intro stroke isOpen
    simp [Stroke.drawing, Stroke.push, Drawing.extend, isOpen]
  · intro stroke isFinished
    simp [Stroke.drawing, Drawing.extend, isFinished]

theorem share_addStroke (room : Room) (client : ClientId) (color : Color)
    (thickness : Thickness) (start : Point) (other : ClientId) :
    (room.addStroke (room.freshStroke client color thickness start)).share other =
      if other = client then
        { room.share client with
          drawn := room.drawnBy client ++ [⟨color, thickness, [start], false⟩] }
      else room.share other := by
  split
  next isClient =>
    subst isClient
    simp [share, addStroke, drawnBy, freshStroke, List.filter_append, Stroke.drawing]
    rfl
  next notClient =>
    simp [share, addStroke, drawnBy, freshStroke, List.filter_append, Ne.symm notClient]
    rfl

theorem share_moveCursor (room : Room) (client : ClientId) (p : Point) (now : TimePoint)
    (other : ClientId) :
    (room.moveCursor client p now).share other =
      if other = client then
        { room.share client with cursor := some p, lastMove := some now }
      else room.share other := by
  split
  next isClient =>
    subst isClient
    simp [share, moveCursor, drawnBy]
    rfl
  next notClient =>
    simp [share, moveCursor, drawnBy, AList.lookup_insert_ne notClient]
    rfl

end Effects

/-! ## Every call is a matter of its client's share -/

private theorem map_finish_eq {drawn : List Drawing}
    (none : (drawn.any fun drawing => !drawing.finished) = false) :
    drawn.map Drawing.finish = drawn := by
  have same : ∀ drawing ∈ drawn, drawing.finish = drawing := by
    intro drawing member
    have isFinished : drawing.finished = true := by
      simpa using List.any_eq_false.mp none drawing member
    rw [Drawing.finish, ← isFinished]
  rw [List.map_congr_left same, List.map_id']

private theorem Step.share_own {room : Room} {call : Call} {outcome : Outcome Reply}
    (step : Step room call outcome) (consistent : room.Consistent)
    (calm : call.isClear = false) :
    (room.share call.client).answer call =
      (outcome.room.share call.client, outcome.verdict) := by
  have inside : ∀ {client}, client ∈ room.members → (room.share client).member = true :=
    fun member => decide_eq_true member
  have notInside : ∀ {client}, client ∉ room.members →
      ¬ (room.share client).member = true :=
    fun outside member => outside (of_decide_eq_true member)
  have busy : ∀ {client sid}, room.activeStrokeByClient.lookup client = some sid →
      (room.share client).drawing = true := by
    intro client sid drawing
    rw [consistent.drawing_eq, drawing]
    rfl
  have free : ∀ {client}, room.activeStrokeByClient.lookup client = none →
      ¬ (room.share client).drawing = true := by
    intro client inactive
    rw [consistent.drawing_eq, inactive]
    exact Bool.false_ne_true
  cases step with
  | refused refusal =>
      cases refusal with
      | leaveOutside client outside =>
          rw [Call.client, Share.answer, Share.leave, if_neg (notInside outside)]
          rfl
      | applyOutside client event now outside =>
          rw [Call.client, Share.answer, if_neg (notInside outside)]
          rfl
      | alreadyActive client sid color thickness start now member drawing =>
          rw [Call.client, Share.answer, if_pos (inside member), Share.draw,
            if_pos (busy drawing)]
          rfl
      | pointWithoutBegin client p now member inactive =>
          rw [Call.client, Share.answer, if_pos (inside member), Share.draw,
            if_neg (free inactive)]
          rfl
      | endWithoutBegin client now member inactive =>
          rw [Call.client, Share.answer, if_pos (inside member), Share.draw,
            if_neg (free inactive)]
          rfl
  | joined client =>
      rw [Call.client, share_addMember, if_pos rfl]
      rfl
  | throttled client p now member held =>
      have held : (room.share client).throttled now = true := held
      rw [Call.client, Share.answer, if_pos (inside member), Share.draw, if_pos held]
      rfl
  | left client member inactive =>
      rw [Call.client, Share.answer, Share.leave, if_pos (inside member),
        if_neg (free inactive),
        map_finish_eq ((Bool.not_eq_true _).mp (free inactive)), issuing, share_advance,
        share_forget, if_pos rfl]
      rfl
  | leftDrawing client sid member drawing =>
      have drawn := congrArg Share.drawn (share_finishStroke consistent drawing client)
      rw [if_pos rfl] at drawn
      rw [Call.client, Share.answer, Share.leave, if_pos (inside member),
        if_pos (busy drawing), issuing, share_advance, share_forget, if_pos rfl]
      exact congrArg (fun drawn => (Share.mk false none none drawn, _)) drawn.symm
  | began client color thickness start now member inactive =>
      rw [Call.client, Share.answer, if_pos (inside member), Share.draw,
        if_neg (free inactive), issuing, share_advance, share_addStroke, if_pos rfl]
      rfl
  | extended client sid p now member drawing =>
      rw [Call.client, Share.answer, if_pos (inside member), Share.draw,
        if_pos (busy drawing), issuing, share_advance, share_push consistent drawing,
        if_pos rfl]
      rfl
  | ended client sid now member drawing =>
      rw [Call.client, Share.answer, if_pos (inside member), Share.draw,
        if_pos (busy drawing), issuing, share_advance,
        share_finishStroke consistent drawing, if_pos rfl]
      rfl
  | moved client p now member accepted =>
      have notHeld : ¬ (room.share client).throttled now = true :=
        (Bool.not_eq_true _).mpr accepted
      rw [Call.client, Share.answer, if_pos (inside member), Share.draw, if_neg notHeld,
        issuing, share_advance, share_moveCursor, if_pos rfl]
      rfl
  | cleared => cases calm

private theorem Step.share_other {room : Room} {call : Call} {outcome : Outcome Reply}
    (step : Step room call outcome) (consistent : room.Consistent)
    (calm : call.isClear = false) {other : ClientId} (different : call.client ≠ other) :
    outcome.room.share other = room.share other := by
  have notClient : ¬ other = call.client := fun same => different same.symm
  cases step with
  | refused => rfl
  | joined client =>
      rw [share_addMember]
      exact if_neg notClient
  | throttled => rfl
  | left client member inactive =>
      rw [issuing, share_advance, share_forget]
      exact if_neg notClient
  | leftDrawing client sid member drawing =>
      rw [issuing, share_advance, share_forget, share_advance,
        share_finishStroke consistent drawing]
      exact (if_neg notClient).trans (if_neg notClient)
  | began client color thickness start now member inactive =>
      rw [issuing, share_advance, share_addStroke]
      exact if_neg notClient
  | extended client sid p now member drawing =>
      rw [issuing, share_advance, share_push consistent drawing]
      exact if_neg notClient
  | ended client sid now member drawing =>
      rw [issuing, share_advance, share_finishStroke consistent drawing]
      exact if_neg notClient
  | moved client p now member accepted =>
      rw [issuing, share_advance, share_moveCursor]
      exact if_neg notClient
  | cleared => cases calm

/-! ## Interleavings -/

/-- A call that is not `Clear`, in a room that is in order and has numbers left. -/
structure Calm (room : Room) (call : Call) : Prop where
  holds : room.Invariant
  fits : room.Fits call
  noClear : call.isClear = false

private theorem projects_share (client : ClientId) :
    machine.Projects Calm (Option.guard fun call => call.client = client)
      Outcome.verdict (fun room => room.share client) Share.machine where
  own room call own calm selected := by
    rcases Option.guard_eq_some_iff.mp selected with ⟨rfl, isClient⟩
    rw [← of_decide_eq_true isClient]
    exact (call_step calm.holds.toConsistent call).share_own calm.holds.toConsistent
      calm.noClear
  other room call calm notSelected := by
    have different : call.client ≠ client := by
      simpa using notSelected
    exact (call_step calm.holds.toConsistent call).share_other calm.holds.toConsistent
      calm.noClear different

private theorem along_calm {room : Room} {calls : List Call} (holds : room.Invariant)
    (few : room.nextSeq.toNat + 2 * calls.length < 2 ^ 64)
    (noClear : ∀ call ∈ calls, call.isClear = false) :
    machine.Along Calm room calls := by
  induction calls generalizing room with
  | nil => trivial
  | cons call rest induction =>
      rw [List.length_cons] at few
      have issued := (call_step holds.toConsistent call).issued_length_le
      have fits : room.Fits call := by
        rw [Fits]
        omega
      refine ⟨⟨holds, fits, noClear call (by simp)⟩,
        induction (call_invariant fits holds) ?_ fun other member =>
          noClear other (by simp [member])⟩
      change (room.call call).room.nextSeq.toNat + _ < _
      rw [call_nextSeq fits holds]
      omega

def verdicts (room : Room) (calls : List Call) (client : ClientId) : List Verdict :=
  ((machine.tagged Call.client Outcome.verdict room calls).filter
    fun answer => answer.1 = client).map Prod.snd

theorem sum_issued (room : Room) (calls : List Call) :
    ((machine.tagged Call.client Outcome.verdict room calls).map
      fun answer => answer.2.2).sum = (room.history calls).length := by
  induction calls generalizing room with
  | nil => rfl
  | cons call rest induction =>
      rw [Machine.tagged, List.map_cons, List.sum_cons, history_cons, List.length_append,
        ← induction]
      rfl

/-- The calls are the scripts of the clients in some order that keeps the order
of each script. -/
def Interleaves (scripts : ClientId → List Call) (calls : List Call) : Prop :=
  ∀ client, (calls.filter fun call => call.client = client) = scripts client

/-- However the scripts of the clients are interleaved, every call comes to the
same verdict, and the rooms differ in ids and stroke orders at most. -/
theorem interleavings_agree (id : RoomId) (scripts : ClientId → List Call)
    (noClear : ∀ client, ∀ call ∈ scripts client, call.isClear = false)
    {first second : List Call} (firstMerges : Interleaves scripts first)
    (secondMerges : Interleaves scripts second) (few : first.length < 2 ^ 63) :
    let left := (new id).run first
    let right := (new id).run second
    (∀ client, (new id).verdicts first client = (new id).verdicts second client) ∧
      (∀ client, client ∈ left.members ↔ client ∈ right.members) ∧
      (∀ client, left.board.cursors.lookup client = right.board.cursors.lookup client) ∧
      (∀ author, left.drawnBy author = right.drawnBy author) ∧
      left.lastSeq = right.lastSeq := by
  intro left right
  have sameCalls : first.Perm second := by
    apply perm_of_filter_eq Call.client
    intro client
    rw [firstMerges client, secondMerges client]
  have calm : ∀ {calls}, Interleaves scripts calls → calls.length < 2 ^ 63 →
      machine.Along Calm (new id) calls := by
    intro calls merges short
    apply along_calm (new_invariant id)
    · change 1 + _ < _
      omega
    · intro call member
      apply noClear call.client call
      rw [← merges call.client]
      exact List.mem_filter.mpr ⟨member, decide_eq_true rfl⟩
  have firstCalm := calm firstMerges few
  have secondCalm := calm secondMerges (sameCalls.length_eq ▸ few)
  have sameScript : ∀ client,
      first.filterMap (Option.guard fun call => call.client = client) =
        second.filterMap (Option.guard fun call => call.client = client) := by
    intro client
    rw [List.filterMap_eq_filter]
    exact (firstMerges client).trans (secondMerges client).symm
  have agree := fun client =>
    (projects_share client).agree firstCalm secondCalm (sameScript client)
  have sameTagged : ∀ client,
      (machine.tagged Call.client Outcome.verdict (new id) first).filter
          (fun answer => answer.1 = client) =
        (machine.tagged Call.client Outcome.verdict (new id) second).filter
          (fun answer => answer.1 = client) := by
    intro client
    rw [machine.tagged_filter, machine.tagged_filter, (agree client).2]
  have sameShare : ∀ client, left.share client = right.share client :=
    fun client => (agree client).1
  refine ⟨?_, ?_, ?_, ?_, ?_⟩
  · intro client
    rw [verdicts, sameTagged client, verdicts]
  · intro client
    exact decide_eq_decide.mp (congrArg Share.member (sameShare client))
  · intro client
    exact congrArg Share.cursor (sameShare client)
  · intro author
    exact congrArg Share.drawn (sameShare author)
  · have samePerm : (machine.tagged Call.client Outcome.verdict (new id) first).Perm
        (machine.tagged Call.client Outcome.verdict (new id) second) :=
      perm_of_filter_eq Prod.fst sameTagged
    have sameCount :
        ((new id).history first).length = ((new id).history second).length := by
      rw [← sum_issued, ← sum_issued]
      exact (samePerm.map _).sum_nat
    have sameSeq : left.nextSeq = right.nextSeq := by
      apply UInt64.toNat_inj.mp
      rw [run_nextSeq (new_invariant id) (firstCalm.imp fun _ _ calm => calm.fits),
        run_nextSeq (new_invariant id) (secondCalm.imp fun _ _ calm => calm.fits),
        sameCount]
    rw [lastSeq, lastSeq, sameSeq]

/-- Client 7 draws a stroke and leaves in the middle of the next one. -/
def drawer : List Call :=
  [.join 7, .apply 7 (.strokeBegin .red .thin ⟨0, 0⟩) 0, .apply 7 .strokeEnd 0,
    .apply 7 (.strokeBegin .blue .thick ⟨1, 1⟩) 0, .leave 7]

/-- Client 9 moves its cursor twice in a row and ends a stroke it has not begun. -/
def mover : List Call :=
  [.join 9, .apply 9 (.cursorMove ⟨2, 2⟩) 0, .apply 9 (.cursorMove ⟨3, 3⟩) 10,
    .apply 9 .strokeEnd 0]

def drawerAndMover (client : ClientId) : List Call :=
  if client = 7 then drawer else if client = 9 then mover else []

theorem interleavings_agree_drawerAndMover :
    Interleaves drawerAndMover (drawer ++ mover) ∧
      Interleaves drawerAndMover (mover ++ drawer) ∧
      ((new 1).run (drawer ++ mover)).lastSeq = ((new 1).run (mover ++ drawer)).lastSeq := by
  have merged : ∀ {calls}, (calls = drawer ++ mover ∨ calls = mover ++ drawer) →
      Interleaves drawerAndMover calls := by
    intro calls isMerged client
    by_cases isDrawer : client = 7
    · subst isDrawer
      rcases isMerged with rfl | rfl <;> decide
    · by_cases isMover : client = 9
      · subst isMover
        rcases isMerged with rfl | rfl <;> decide
      · rw [drawerAndMover, if_neg isDrawer, if_neg isMover, List.filter_eq_nil_iff]
        rcases isMerged with rfl | rfl <;>
          simp [drawer, mover, Call.client, Ne.symm isDrawer, Ne.symm isMover]
  have noClear : ∀ client, ∀ call ∈ drawerAndMover client, call.isClear = false := by
    intro client
    rw [drawerAndMover]
    split
    · decide
    · split
      · decide
      · simp
  have first := merged (.inl rfl)
  have second := merged (.inr rfl)
  exact ⟨first, second,
    (interleavings_agree 1 drawerAndMover noClear first second (by decide)).2.2.2.2⟩

end Room

end ClearSpace.Core
