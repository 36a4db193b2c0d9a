import ClearSpace.Core.Replay

/-! # The event stream of a room

What a member of a room sees from its join on is in order: payloads are about
strokes that are under way and come from clients that are in the room. The
stream is first checked by a watcher that keeps a board and the members, and
the room then never does what the watcher does not expect. -/

namespace ClearSpace.Core

open KeyedLists

/-! ## Well-formed streams -/

def ServerEventPayload.author : ServerEventPayload → ClientId
  | .strokeBeginOut author _ _ _ _ _ => author
  | .strokePointOut author _ _ => author
  | .strokeEndOut author _ => author
  | .cursorMoveOut author _ => author
  | .clearOut author => author
  | .memberLeftOut client => client

inductive ServerEventPayload.Continues : ServerEventPayload → ClientId → StrokeId → Prop
  | point (author : ClientId) (id : StrokeId) (p : Point) :
      Continues (.strokePointOut author id p) author id
  | finish (author : ClientId) (id : StrokeId) :
      Continues (.strokeEndOut author id) author id

/-- What happens in a room, in order. A join issues no payload. -/
inductive Occurrence
  | joined (client : ClientId)
  | issued (payload : ServerEventPayload)

def Occurrence.payload? : Occurrence → Option ServerEventPayload
  | .joined _ => none
  | .issued payload => some payload

def payloads (stream : List Occurrence) : List ServerEventPayload :=
  stream.filterMap Occurrence.payload?

/-- Neither an end of the stroke nor a `Clear`. -/
def Unended (id : StrokeId) (payloads : List ServerEventPayload) : Prop :=
  ∀ payload ∈ payloads, ∀ author,
    payload ≠ .strokeEndOut author id ∧ payload ≠ .clearOut author

namespace BoardState

def HasOpen (board : BoardState) (id : StrokeId) (author : ClientId) : Prop :=
  ∃ stroke ∈ board.strokes,
    stroke.id = id ∧ stroke.author = author ∧ stroke.finished = false

/-- To somebody who knows the board and has seen the payloads since, the stroke
is under way. -/
def Knows (board : BoardState) (seen : List ServerEventPayload) (id : StrokeId)
    (author : ClientId) : Prop :=
  (board.HasOpen id author ∧ Unended id seen) ∨
    ∃ earlier strokeOrder color thickness start later,
      seen = earlier ++
        .strokeBeginOut author id strokeOrder color thickness start :: later ∧
      Unended id later

end BoardState

/-- What a client that starts from a board may rely on. -/
structure WellFormed (board : BoardState) (stream : List Occurrence) : Prop where
  continuesOpen : ∀ front payload back, stream = front ++ .issued payload :: back →
    ∀ author id, payload.Continues author id → board.Knows (payloads front) id author
  oneOpen : ∀ front back, stream = front ++ back → ∀ author left right,
    board.Knows (payloads front) left author →
    board.Knows (payloads front) right author → left = right
  leavesFinished : ∀ front client back,
    stream = front ++ .issued (.memberLeftOut client) :: back →
    ∀ id, ¬ board.Knows (payloads front) id client
  silentOutside : ∀ front payload back, stream = front ++ .issued payload :: back →
    ∀ earlier later,
      front = earlier ++ .issued (.memberLeftOut payload.author) :: later →
      Occurrence.joined payload.author ∈ later

/-! ## A stroke under way -/

theorem concat_split {α : Type u} {front earlier later : List α} {last entry : α}
    (split : front ++ [last] = earlier ++ entry :: later) :
    (front = earlier ∧ last = entry) ∨
      ∃ rest, later = rest ++ [last] ∧ front = earlier ++ entry :: rest := by
  rcases List.eq_nil_or_concat later with rfl | ⟨rest, final, rfl⟩
  · rcases List.append_inj' split rfl with ⟨isFront, isLast⟩
    exact .inl ⟨isFront, List.singleton_inj.mp isLast⟩
  · have whole : front ++ [last] = (earlier ++ entry :: rest) ++ [final] := by
      rw [split, List.concat_eq_append, List.append_assoc]
      rfl
    rcases List.append_inj' whole rfl with ⟨isFront, isLast⟩
    cases List.singleton_inj.mp isLast
    exact .inr ⟨rest, List.concat_eq_append, isFront⟩

/-- Whether a stroke is under way after a payload, if `before` says whether it
was: the payload has begun it, or has not ended it. -/
def ServerEventPayload.KeepsOpen (payload : ServerEventPayload) (id : StrokeId)
    (author : ClientId) (before : Prop) : Prop :=
  (∃ strokeOrder color thickness start,
    payload = .strokeBeginOut author id strokeOrder color thickness start) ∨
  (before ∧ ∀ ender, payload ≠ .strokeEndOut ender id ∧ payload ≠ .clearOut ender)

namespace BoardState

variable {board : BoardState} {id : StrokeId} {author : ClientId}

theorem hasOpen_replay (payload : ServerEventPayload) :
    (board.replay payload).HasOpen id author ↔
      payload.KeepsOpen id author (board.HasOpen id author) := by
  cases payload with
  | strokeBeginOut beginner begun strokeOrder color thickness start =>
      simp only [HasOpen, replay, ServerEventPayload.KeepsOpen, List.mem_append,
        List.mem_singleton, or_and_right, exists_or, exists_eq_left]
      constructor
      · intro isOpen
        rcases isOpen with before | ⟨rfl, rfl, _⟩
        · refine .inr ⟨before, fun _ => ⟨?_, ?_⟩⟩ <;> simp
        · exact .inl ⟨_, _, _, _, rfl⟩
      · intro keepsOpen
        rcases keepsOpen with ⟨_, _, _, _, isBegin⟩ | ⟨before, _⟩
        · cases isBegin
          exact .inr ⟨rfl, rfl, trivial⟩
        · exact .inl before
  | strokePointOut drawer extended p =>
      have unchanged : (board.replay (.strokePointOut drawer extended p)).HasOpen id
          author ↔ board.HasOpen id author := by
        simp only [HasOpen, replay, exists_updateBy]
        apply exists_congr
        intro stroke
        split <;> rfl
      simp [unchanged, ServerEventPayload.KeepsOpen]
  | strokeEndOut drawer ended =>
      simp only [HasOpen, replay, exists_updateBy]
      constructor
      · intro isOpen
        rcases isOpen with ⟨stroke, member, isOpen⟩
        split at isOpen
        next => cases isOpen.2.2
        next different =>
          refine .inr ⟨⟨stroke, member, isOpen⟩, ?_⟩
          intro ender
          constructor
          · intro isEnd
            cases isEnd
            exact different isOpen.1
          · intro isClear
            cases isClear
      · intro keepsOpen
        rcases keepsOpen with ⟨_, _, _, _, isBegin⟩ | ⟨⟨stroke, member, isOpen⟩, notEnded⟩
        · cases isBegin
        · refine ⟨stroke, member, ?_⟩
          have different : stroke.id ≠ ended := by
            intro isEnded
            exact (notEnded drawer).1 (by rw [← isOpen.1, isEnded])
          rw [if_neg different]
          exact isOpen
  | cursorMoveOut => simp [HasOpen, replay, ServerEventPayload.KeepsOpen]
  | clearOut => simp [HasOpen, replay, ServerEventPayload.KeepsOpen]
  | memberLeftOut => simp [HasOpen, replay, ServerEventPayload.KeepsOpen]

theorem unended_append {seen : List ServerEventPayload} {payload : ServerEventPayload} :
    Unended id (seen ++ [payload]) ↔
      Unended id seen ∧ ∀ author,
        payload ≠ .strokeEndOut author id ∧ payload ≠ .clearOut author := by
  rw [Unended, List.forall_mem_append, List.forall_mem_singleton]
  rfl

private theorem knows_nil : board.Knows [] id author ↔ board.HasOpen id author := by
  constructor
  · intro known
    rcases known with ⟨isOpen, _⟩ | ⟨earlier, _, _, _, _, later, split, _⟩
    · exact isOpen
    · simp at split
  · intro isOpen
    exact .inl ⟨isOpen, nofun⟩

private theorem knows_append {seen : List ServerEventPayload}
    {payload : ServerEventPayload} :
    board.Knows (seen ++ [payload]) id author ↔
      payload.KeepsOpen id author (board.Knows seen id author) := by
  constructor
  · intro known
    rcases known with ⟨isOpen, unended⟩ |
      ⟨earlier, strokeOrder, color, thickness, start, later, split, unended⟩
    · rcases unended_append.mp unended with ⟨before, last⟩
      exact .inr ⟨.inl ⟨isOpen, before⟩, last⟩
    · rcases concat_split split with ⟨_, isLast⟩ | ⟨rest, rfl, isSeen⟩
      · exact .inl ⟨strokeOrder, color, thickness, start, isLast⟩
      · rcases unended_append.mp unended with ⟨before, notEnded⟩
        exact .inr ⟨.inr ⟨earlier, strokeOrder, color, thickness, start, rest, isSeen,
          before⟩, notEnded⟩
  · intro keepsOpen
    rcases keepsOpen with ⟨strokeOrder, color, thickness, start, rfl⟩ | ⟨known, notEnded⟩
    · exact .inr ⟨seen, strokeOrder, color, thickness, start, [], rfl, nofun⟩
    · rcases known with ⟨isOpen, unended⟩ |
        ⟨earlier, strokeOrder, color, thickness, start, later, rfl, unended⟩
      · exact .inl ⟨isOpen, unended_append.mpr ⟨unended, notEnded⟩⟩
      · refine .inr ⟨earlier, strokeOrder, color, thickness, start, later ++ [payload],
          ?_, unended_append.mpr ⟨unended, notEnded⟩⟩
        rw [List.append_assoc]
        rfl

end BoardState

/-! ## Watching a stream -/

structure Watcher where
  board : BoardState
  members : UnorderedSet ClientId

namespace Watcher

def see (watcher : Watcher) : Occurrence → Watcher
  | .joined client => { watcher with members := watcher.members.insert client }
  | .issued payload =>
      { board := watcher.board.replay payload
        members := match payload with
          | .memberLeftOut client => watcher.members.erase client
          | _ => watcher.members }

structure Allows (watcher : Watcher) (payload : ServerEventPayload) : Prop where
  present : payload.author ∈ watcher.members
  continuesOpen : ∀ author id, payload.Continues author id →
    watcher.board.HasOpen id author
  beginsAlone : ∀ author id strokeOrder color thickness start,
    payload = .strokeBeginOut author id strokeOrder color thickness start →
    ∀ other, ¬ watcher.board.HasOpen other author
  leavesFinished : ∀ client, payload = .memberLeftOut client →
    ∀ id, ¬ watcher.board.HasOpen id client

def Expects (watcher : Watcher) : Occurrence → Prop
  | .joined _ => True
  | .issued payload => watcher.Allows payload

def machine : Machine Watcher Occurrence Unit where
  step watcher occurrence := (watcher.see occurrence, ())

structure Informed (board : BoardState) (front : List Occurrence) (watcher : Watcher) :
    Prop where
  opens : ∀ id author,
    watcher.board.HasOpen id author ↔ board.Knows (payloads front) id author
  oneOpen : ∀ author left right, watcher.board.HasOpen left author →
    watcher.board.HasOpen right author → left = right
  back : ∀ client ∈ watcher.members, ∀ earlier later,
    front = earlier ++ .issued (.memberLeftOut client) :: later →
    Occurrence.joined client ∈ later

section Watching

variable {board : BoardState} {front : List Occurrence} {watcher : Watcher}

theorem payloads_concat (occurrence : Occurrence) :
    payloads (front ++ [occurrence]) =
      payloads front ++ occurrence.payload?.toList := by
  rw [payloads, List.filterMap_append]
  cases occurrence <;> rfl

theorem allows_of_continues {payload : ServerEventPayload} {author : ClientId}
    {id : StrokeId} (continues : payload.Continues author id)
    (present : author ∈ watcher.members) (isOpen : watcher.board.HasOpen id author) :
    watcher.Allows payload := by
  have onlyThis : ∀ other otherId, payload.Continues other otherId →
      watcher.board.HasOpen otherId other := by
    intro other otherId same
    cases continues <;> cases same <;> exact isOpen
  cases continues <;> exact ⟨present, onlyThis, nofun, nofun⟩

theorem Informed.join (informed : Informed board front watcher) (client : ClientId) :
    Informed board (front ++ [.joined client]) (watcher.see (.joined client)) where
  opens id author := by
    rw [payloads_concat]
    change _ ↔ board.Knows (payloads front ++ []) id author
    rw [List.append_nil]
    exact informed.opens id author
  oneOpen := informed.oneOpen
  back other member earlier later split := by
    rcases concat_split split with ⟨_, isLast⟩ | ⟨rest, rfl, isFront⟩
    · cases isLast
    · rcases UnorderedSet.mem_insert.mp member with isClient | before
      · rw [isClient]
        exact List.mem_append_right _ (.head _)
      · exact List.mem_append_left _ (informed.back other before earlier rest isFront)

private theorem mem_see {payload : ServerEventPayload} {client : ClientId}
    (member : client ∈ (watcher.see (.issued payload)).members) :
    client ∈ watcher.members ∧ payload ≠ .memberLeftOut client := by
  cases payload with
  | memberLeftOut other =>
      rcases UnorderedSet.mem_erase.mp member with ⟨different, before⟩
      refine ⟨before, ?_⟩
      intro same
      cases same
      exact different rfl
  | _ => exact ⟨member, nofun⟩

theorem Informed.issue (informed : Informed board front watcher)
    {payload : ServerEventPayload} (allows : watcher.Allows payload) :
    Informed board (front ++ [.issued payload]) (watcher.see (.issued payload)) where
  opens id author := by
    rw [payloads_concat]
    change (watcher.board.replay payload).HasOpen id author ↔
      board.Knows (payloads front ++ [payload]) id author
    rw [BoardState.hasOpen_replay, BoardState.knows_append,
      ServerEventPayload.KeepsOpen, informed.opens id author,
      ServerEventPayload.KeepsOpen]
  oneOpen author left right leftOpen rightOpen := by
    rcases (BoardState.hasOpen_replay payload).mp leftOpen with
      ⟨strokeOrder, color, thickness, start, rfl⟩ | ⟨leftBefore, _⟩
    · rcases (BoardState.hasOpen_replay _).mp rightOpen with
        ⟨_, _, _, _, isBegin⟩ | ⟨rightBefore, _⟩
      · cases isBegin
        rfl
      · exact absurd rightBefore (allows.beginsAlone author left _ _ _ _ rfl right)
    · rcases (BoardState.hasOpen_replay payload).mp rightOpen with
        ⟨strokeOrder, color, thickness, start, rfl⟩ | ⟨rightBefore, _⟩
      · exact absurd leftBefore (allows.beginsAlone author right _ _ _ _ rfl left)
      · exact informed.oneOpen author left right leftBefore rightBefore
  back client member earlier later split := by
    rcases mem_see member with ⟨before, notLeft⟩
    rcases concat_split split with ⟨_, isLast⟩ | ⟨rest, rfl, isFront⟩
    · exact absurd (Occurrence.issued.inj isLast) notLeft
    · exact List.mem_append_left _ (informed.back client before earlier rest isFront)

theorem Informed.final {rest : List Occurrence} (informed : Informed board front watcher)
    (expected : machine.Along Expects watcher rest) :
    Informed board (front ++ rest) (machine.final watcher rest) := by
  induction rest generalizing front watcher with
  | nil =>
      rw [List.append_nil]
      exact informed
  | cons occurrence later induction =>
      have seen : Informed board (front ++ [occurrence]) (watcher.see occurrence) := by
        cases occurrence with
        | joined client => exact informed.join client
        | issued payload => exact informed.issue expected.1
      have whole := induction seen expected.2
      rw [List.append_assoc] at whole
      exact whole

theorem wellFormed {members : UnorderedSet ClientId} {stream : List Occurrence}
    (oneOpen : ∀ author left right, board.HasOpen left author →
      board.HasOpen right author → left = right)
    (expected : machine.Along Expects ⟨board, members⟩ stream) :
    WellFormed board stream := by
  have started : Informed board [] ⟨board, members⟩ := by
    refine ⟨fun _ _ => BoardState.knows_nil.symm, oneOpen, ?_⟩
    intro client _ earlier later split
    exact absurd split.symm (List.append_ne_nil_of_right_ne_nil _ (List.cons_ne_nil _ _))
  have reached : ∀ {seen rest}, stream = seen ++ rest →
      Informed board seen (machine.final ⟨board, members⟩ seen) ∧
        machine.Along Expects (machine.final ⟨board, members⟩ seen) rest := by
    rintro seen rest rfl
    rcases machine.along_append.mp expected with ⟨before, after⟩
    exact ⟨started.final before, after⟩
  refine ⟨?_, ?_, ?_, ?_⟩
  · intro seen payload rest split author id continues
    rcases reached split with ⟨informed, next⟩
    exact (informed.opens id author).mp (next.1.continuesOpen author id continues)
  · intro seen rest split author left right leftKnown rightKnown
    have informed := (reached split).1
    exact informed.oneOpen author left right ((informed.opens left author).mpr leftKnown)
      ((informed.opens right author).mpr rightKnown)
  · intro seen client rest split id known
    rcases reached split with ⟨informed, next⟩
    exact next.1.leavesFinished client rfl id ((informed.opens id client).mpr known)
  · intro seen payload rest split earlier later isSeen
    rcases reached split with ⟨informed, next⟩
    exact informed.back _ next.1.present earlier later isSeen

end Watching

end Watcher

/-! ## The stream of a room -/

def Call.occurrences (call : Call) (outcome : Outcome Reply) : List Occurrence :=
  let joins := match call with
    | .join client => [Occurrence.joined client]
    | _ => []
  joins ++ outcome.issued.map fun entry => .issued entry.payload

def ServerEventPayload.begunId? : ServerEventPayload → Option StrokeId
  | .strokeBeginOut _ id _ _ _ _ => some id
  | _ => none

def begunIds (history : List Issued) : List StrokeId :=
  history.filterMap fun entry => entry.payload.begunId?

namespace Room

def stream (room : Room) : List Call → List Occurrence
  | [] => []
  | call :: rest =>
      call.occurrences (room.call call) ++ (room.call call).room.stream rest

def watcher (room : Room) : Watcher := ⟨room.board, room.members⟩

theorem Consistent.hasOpen_iff {room : Room} (consistent : room.Consistent)
    {id : StrokeId} {author : ClientId} :
    room.board.HasOpen id author ↔
      room.activeStrokeByClient.lookup author = some id :=
  (consistent.active author id).symm

theorem Consistent.oneOpen {room : Room} (consistent : room.Consistent)
    (author : ClientId) (left right : StrokeId)
    (leftOpen : room.board.HasOpen left author)
    (rightOpen : room.board.HasOpen right author) : left = right := by
  rw [consistent.hasOpen_iff] at leftOpen rightOpen
  exact Option.some.inj (leftOpen.symm.trans rightOpen)

theorem Consistent.noneOpen {room : Room} (consistent : room.Consistent)
    {author : ClientId} (inactive : room.activeStrokeByClient.lookup author = none)
    (id : StrokeId) : ¬ room.board.HasOpen id author := by
  rw [consistent.hasOpen_iff, inactive]
  exact nofun

/-- A watcher that knows the room expects what a call does, and knows the room
again afterwards. -/
theorem Step.expected {room : Room} {call : Call} {outcome : Outcome Reply}
    (step : Step room call outcome) (consistent : room.Consistent) :
    Watcher.machine.Along Watcher.Expects room.watcher (call.occurrences outcome) ∧
      Watcher.machine.final room.watcher (call.occurrences outcome) =
        outcome.room.watcher := by
  cases step with
  | refused refusal => cases refusal <;> exact ⟨trivial, rfl⟩
  | joined client => exact ⟨⟨trivial, trivial⟩, rfl⟩
  | throttled => exact ⟨trivial, rfl⟩
  | left client member inactive =>
      have allowed : room.watcher.Allows (.memberLeftOut client) := by
        refine ⟨member, nofun, nofun, ?_⟩
        intro other isClient
        cases isClient
        exact consistent.noneOpen inactive
      exact ⟨⟨allowed, trivial⟩, rfl⟩
  | leftDrawing client sid member drawing =>
      have isOpen := consistent.hasOpen_iff.mpr drawing
      have ends : room.watcher.Allows (.strokeEndOut client sid) :=
        Watcher.allows_of_continues (.finish client sid) member isOpen
      have leaves : (room.watcher.see (.issued (.strokeEndOut client sid))).Allows
          (.memberLeftOut client) := by
        refine ⟨member, nofun, nofun, ?_⟩
        intro other isClient id stillOpen
        cases isClient
        rcases (BoardState.hasOpen_replay _).mp stillOpen with
          ⟨_, _, _, _, isBegin⟩ | ⟨before, notEnded⟩
        · cases isBegin
        · have isEnded := consistent.oneOpen client id sid before isOpen
          exact (notEnded client).1 (by rw [isEnded])
      exact ⟨⟨ends, leaves, trivial⟩, rfl⟩
  | began client color thickness start now member inactive =>
      have allowed : room.watcher.Allows (.strokeBeginOut client room.nextStrokeId
          room.nextSeq color thickness start) := by
        refine ⟨member, nofun, ?_, nofun⟩
        intro author id strokeOrder color thickness start isBegin
        cases isBegin
        exact consistent.noneOpen inactive
      exact ⟨⟨allowed, trivial⟩, rfl⟩
  | extended client sid p now member drawing =>
      have isOpen := consistent.hasOpen_iff.mpr drawing
      have allowed : room.watcher.Allows (.strokePointOut client sid p) :=
        Watcher.allows_of_continues (.point client sid p) member isOpen
      exact ⟨⟨allowed, trivial⟩, rfl⟩
  | ended client sid now member drawing =>
      have isOpen := consistent.hasOpen_iff.mpr drawing
      have allowed : room.watcher.Allows (.strokeEndOut client sid) :=
        Watcher.allows_of_continues (.finish client sid) member isOpen
      exact ⟨⟨allowed, trivial⟩, rfl⟩
  | moved client p now member accepted =>
      have allowed : room.watcher.Allows (.cursorMoveOut client p) :=
        ⟨member, nofun, nofun, nofun⟩
      exact ⟨⟨allowed, trivial⟩, rfl⟩
  | cleared client now member =>
      have allowed : room.watcher.Allows (.clearOut client) :=
        ⟨member, nofun, nofun, nofun⟩
      exact ⟨⟨allowed, trivial⟩, rfl⟩

private theorem stream_expected {room : Room} {calls : List Call} (holds : room.Invariant)
    (fits : machine.Along Fits room calls) :
    Watcher.machine.Along Watcher.Expects room.watcher (room.stream calls) := by
  induction calls generalizing room with
  | nil => trivial
  | cons call rest induction =>
      rcases (call_step holds.toConsistent call).expected holds.toConsistent with
        ⟨expected, known⟩
      rw [stream, Watcher.machine.along_append, known]
      exact ⟨expected, induction (call_invariant fits.1 holds) fits.2⟩

private theorem payloads_occurrences (call : Call) (outcome : Outcome Reply) :
    payloads (call.occurrences outcome) = outcome.issued.map Issued.payload := by
  have issued : payloads (outcome.issued.map fun entry => .issued entry.payload) =
      outcome.issued.map Issued.payload := by
    induction outcome.issued with
    | nil => rfl
    | cons entry rest induction => exact congrArg (entry.payload :: ·) induction
  cases call <;> exact issued

private theorem payloads_stream (room : Room) (calls : List Call) :
    payloads (room.stream calls) = (room.history calls).map Issued.payload := by
  induction calls generalizing room with
  | nil => rfl
  | cons call rest induction =>
      rw [stream, payloads, List.filterMap_append, history_cons, List.map_append]
      exact congrArg₂ _ (payloads_occurrences call _) (induction _)

/-! ## Stroke ids -/

theorem Step.begun {room : Room} {call : Call} {outcome : Outcome Reply}
    (step : Step room call outcome) (holds : room.Invariant)
    (fits : room.nextSeq.toNat + outcome.issued.length < 2 ^ 64) :
    (begunIds outcome.issued = [] ∧
      outcome.room.nextStrokeId.toNat = room.nextStrokeId.toNat) ∨
    (begunIds outcome.issued = [room.nextStrokeId] ∧
      outcome.room.nextStrokeId.toNat = room.nextStrokeId.toNat + 1) := by
  cases step with
  | began client color thickness start now member inactive =>
      have covered := holds.strokeIdsCovered
      change room.nextSeq.toNat + 1 < _ at fits
      exact .inr ⟨rfl, toNat_add_one (by omega)⟩
  | _ => exact .inl ⟨rfl, rfl⟩

/-- Strokes are begun under increasing ids. -/
theorem begunIds_increase {room : Room} {calls : List Call} (holds : room.Invariant)
    (fits : machine.Along Fits room calls) :
    (begunIds (room.history calls)).Pairwise (· < ·) ∧
      ∀ id ∈ begunIds (room.history calls), room.nextStrokeId.toNat ≤ id.toNat := by
  induction calls generalizing room with
  | nil => exact ⟨.nil, nofun⟩
  | cons call rest induction =>
      rcases induction (call_invariant fits.1 holds) fits.2 with ⟨increase, above⟩
      have step := call_step holds.toConsistent call
      rw [history_cons, begunIds, List.filterMap_append]
      change (begunIds (room.call call).issued ++ begunIds _).Pairwise _ ∧
        ∀ id ∈ begunIds (room.call call).issued ++ begunIds _, _
      rcases step.begun holds fits.1 with ⟨nothing, same⟩ | ⟨begun, next⟩
      · rw [nothing, List.nil_append]
        refine ⟨increase, ?_⟩
        intro id later
        rw [← same]
        exact above id later
      · rw [begun, List.singleton_append]
        refine ⟨List.pairwise_cons.mpr ⟨?_, increase⟩, ?_⟩
        · intro id later
          have lower := above id later
          rw [UInt64.lt_iff_toNat_lt]
          omega
        · intro id member
          rcases List.mem_cons.mp member with isNew | later
          · rw [isNew]
          · have lower := above id later
            omega

/-! ## What a member sees -/

def observed (room : Room) (client : ClientId) : List Call → List Issued
  | [] => []
  | call :: rest =>
      let outcome := room.call call
      let own := if call.client = client then outcome.issued
        else (outcome.events.filter fun event => event.recipient = client).map
          fun event => ⟨event.seq, event.payload⟩
      own ++ outcome.room.observed client rest

/-- A member sees everything until it leaves, its own leave included. -/
theorem observed_eq_history {room : Room} {calls : List Call} {client : ClientId}
    (holds : room.Invariant) (fits : machine.Along Fits room calls)
    (member : client ∈ room.members)
    (stays : ∀ call ∈ calls.dropLast, call ≠ .leave client) :
    room.observed client calls = room.history calls := by
  induction calls generalizing room with
  | nil => rfl
  | cons call rest induction =>
      have step := call_step holds.toConsistent call
      have own : (if call.client = client then (room.call call).issued
          else ((room.call call).events.filter fun event => event.recipient = client).map
            fun event => (⟨event.seq, event.payload⟩ : Issued)) =
          (room.call call).issued := by
        split
        next => rfl
        next different => exact step.received member different
      rw [observed, history_cons, own]
      cases rest with
      | nil => rfl
      | cons next later =>
          rw [List.dropLast_cons_cons] at stays
          congr 1
          apply induction (call_invariant fits.1 holds) fits.2
          · have notLeave := stays call (.head _)
            rw [mem_call_members]
            cases call with
            | join other => exact .inr member
            | leave other =>
                refine ⟨?_, member⟩
                intro same
                rw [same] at notLeave
                exact notLeave rfl
            | apply => exact member
          · intro other isLater
            exact stays other (.tail _ isLater)

/-- Whatever the calls before and after a join, what happens since is in order for
a client that knows the snapshot of the join; and until it leaves, the client
sees all of it. No stroke is begun under an id that was used before. -/
theorem stream_wellFormed (id : RoomId) (before after : List Call) (client : ClientId)
    (bound : ((new id).history (before ++ .join client :: after)).length <
      2 ^ 64 - 1) :
    let joined := ((new id).run before).addMember client
    (∃ snapshot, (((new id).run before).join client).result = .ok snapshot ∧
      WellFormed snapshot.state (joined.stream after)) ∧
    ((∀ call ∈ after.dropLast, call ≠ .leave client) →
      payloads (joined.stream after) =
        (joined.observed client after).map Issued.payload) ∧
    (begunIds ((new id).history (before ++ .join client :: after))).Nodup := by
  intro joined
  have fits := new_along_fits id _ bound
  have increase := (begunIds_increase (new_invariant id) fits).1
  rw [Machine.along_append] at fits
  have holds : joined.Invariant :=
    (run_invariant (new_invariant id) fits.1).addMember client
  have afterFits : machine.Along Fits joined after := fits.2.2
  refine ⟨⟨joined.snapshot, rfl, ?_⟩, ?_, ?_⟩
  · exact Watcher.wellFormed holds.toConsistent.oneOpen (stream_expected holds afterFits)
  · intro stays
    have member : client ∈ joined.members := UnorderedSet.mem_insert.mpr (.inl rfl)
    rw [payloads_stream, observed_eq_history holds afterFits member stays]
  · apply increase.imp
    intro left right below same
    rw [same] at below
    exact absurd below (UInt64.lt_irrefl _)

/-- Client 9 joins in mid-stroke, draws itself, and sees client 7 leave, come
back and draw again. -/
theorem stream_wellFormed_returning :
    let before : List Call :=
      [.join 7, .apply 7 (.strokeBegin .red .thin ⟨0, 0⟩) 0]
    let after : List Call :=
      [.apply 9 (.strokeBegin .blue .thin ⟨5, 5⟩) 1, .apply 7 (.strokePoint ⟨2, 2⟩) 2,
        .leave 7, .join 7, .apply 7 (.strokeBegin .red .thick ⟨1, 1⟩) 3, .leave 9]
    let joined := ((new 1).run before).addMember 9
    (joined.observed 9 after).length = 7 ∧
      WellFormed joined.snapshot.state (joined.stream after) := by
  intro before after joined
  rcases stream_wellFormed 1 before after 9 (by decide) with
    ⟨⟨snapshot, succeeded, wellFormed⟩, _⟩
  cases succeeded
  exact ⟨by decide, wellFormed⟩

end Room

end ClearSpace.Core
