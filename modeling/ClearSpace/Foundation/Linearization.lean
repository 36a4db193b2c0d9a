import ClearSpace.Foundation.Execution
import Mathlib.Logic.Function.Basic

/-! # Linearization

Several threads use an object at the same time. If every operation takes effect
at one point between its invocation and its return, the threads see what they
would see if the operations were run one after the other at these points. -/

namespace ClearSpace.Linearization

variable {State : Type u} {Input : Type v} {Output : Type w}

structure Point (Input : Type v) (Output : Type w) where
  thread : Nat
  input : Input
  output : Output
  time : Nat

structure Operation (Input : Type v) (Output : Type w) where
  thread : Nat
  input : Input
  output : Output
  invoked : Nat
  returned : Nat

inductive Phase (Input : Type v) (Output : Type w)
  | outside
  | pending (input : Input) (invoked : Nat)
  | effected (input : Input) (output : Output) (invoked : Nat)

def Phase.invoked? : Phase Input Output → Option Nat
  | .outside => none
  | .pending _ invoked => some invoked
  | .effected _ _ invoked => some invoked

/-- What a step of the system means to an observer of the object. -/
inductive Event (Input : Type v) (Output : Type w)
  | invoke (thread : Nat) (input : Input)
  | effect (thread : Nat) (output : Output)
  | answer (thread : Nat)
  | internal

/-- The observer: its clock counts all steps. -/
structure Recorder (Input : Type v) (Output : Type w) where
  time : Nat := 0
  phase : Nat → Phase Input Output := fun _ => .outside
  points : List (Point Input Output) := []
  operations : List (Operation Input Output) := []

/-- The operations fit to a sequential run with one point for each: within the
interval of the operation, and answered as by the machine. The operations of one
thread come one after the other. -/
structure Linearizes (machine : Machine State Input Output) (fresh : State)
    (points : List (Point Input Output)) (operations : List (Operation Input Output)) :
    Prop where
  sequential : machine.outputs fresh (points.map Point.input) = points.map Point.output
  increasing : points.Pairwise fun first second => first.time < second.time
  between : ∀ operation ∈ operations, ∃ point ∈ points,
    point.thread = operation.thread ∧ point.input = operation.input ∧
      point.output = operation.output ∧ operation.invoked < point.time ∧
      point.time < operation.returned
  apart : operations.Pairwise fun first second => first.thread = second.thread →
    first.returned < second.invoked

namespace Recorder

def tick (recorder : Recorder Input Output) : Recorder Input Output :=
  { recorder with time := recorder.time + 1 }

def goTo (recorder : Recorder Input Output) (thread : Nat) (phase : Phase Input Output) :
    Recorder Input Output :=
  { recorder.tick with phase := Function.update recorder.phase thread phase }

def note (recorder : Recorder Input Output) : Event Input Output → Recorder Input Output
  | .invoke thread input => recorder.goTo thread (.pending input recorder.time)
  | .effect thread output =>
      match recorder.phase thread with
      | .pending input invoked =>
          { recorder.goTo thread (.effected input output invoked) with
            points := recorder.points ++ [⟨thread, input, output, recorder.time⟩] }
      | _ => recorder.tick
  | .answer thread =>
      match recorder.phase thread with
      | .effected input output invoked =>
          { recorder.goTo thread .outside with
            operations := recorder.operations ++
              [⟨thread, input, output, invoked, recorder.time⟩] }
      | _ => recorder.tick
  | .internal => recorder.tick

def order (recorder : Recorder Input Output) : List Input :=
  recorder.points.map Point.input

theorem order_prefix_note (recorder : Recorder Input Output) (event : Event Input Output) :
    recorder.order <+: (recorder.note event).order := by
  cases event with
  | effect thread output =>
      simp only [note]
      split
      · rw [order, order, List.map_append]
        exact List.prefix_append ..
      · exact List.prefix_rfl
  | answer thread =>
      simp only [note]
      split
      · exact List.prefix_rfl
      · exact List.prefix_rfl
  | _ => exact List.prefix_rfl

theorem note_effect_order {recorder : Recorder Input Output} {thread : Nat}
    {input : Input} {invoked : Nat} (pending : recorder.phase thread = .pending input invoked)
    (output : Output) :
    (recorder.note (.effect thread output)).order = recorder.order ++ [input] := by
  rw [note, pending, order, List.map_append]
  rfl

theorem note_effect_phase {recorder : Recorder Input Output} {thread : Nat}
    {input : Input} {invoked : Nat} (pending : recorder.phase thread = .pending input invoked)
    (output : Output) :
    (recorder.note (.effect thread output)).phase =
      Function.update recorder.phase thread (.effected input output invoked) := by
  rw [note, pending]
  rfl

theorem note_answer_order {recorder : Recorder Input Output} {thread : Nat}
    {input : Input} {output : Output} {invoked : Nat}
    (effected : recorder.phase thread = .effected input output invoked) :
    (recorder.note (.answer thread)).order = recorder.order := by
  rw [note, effected]
  rfl

theorem note_answer_phase {recorder : Recorder Input Output} {thread : Nat}
    {input : Input} {output : Output} {invoked : Nat}
    (effected : recorder.phase thread = .effected input output invoked) :
    (recorder.note (.answer thread)).phase =
      Function.update recorder.phase thread .outside := by
  rw [note, effected]
  rfl

/-! ## The invariant -/

structure Sound (machine : Machine State Input Output) (fresh : State)
    (recorder : Recorder Input Output) : Prop
    extends Linearizes machine fresh recorder.points recorder.operations where
  past : ∀ point ∈ recorder.points, point.time < recorder.time
  returnedPast : ∀ operation ∈ recorder.operations, operation.returned < recorder.time
  invokedPast : ∀ thread invoked, (recorder.phase thread).invoked? = some invoked →
    invoked < recorder.time ∧ ∀ operation ∈ recorder.operations,
      operation.thread = thread → operation.returned < invoked
  pointed : ∀ thread input output invoked,
    recorder.phase thread = .effected input output invoked →
    ∃ point ∈ recorder.points, point.thread = thread ∧ point.input = input ∧
      point.output = output ∧ invoked < point.time

section Events

variable {machine : Machine State Input Output} {fresh : State}
  {recorder : Recorder Input Output}

theorem sound_empty : ({} : Recorder Input Output).Sound machine fresh where
  sequential := rfl
  increasing := .nil
  between _ member := absurd member List.not_mem_nil
  apart := .nil
  past _ member := absurd member List.not_mem_nil
  returnedPast _ member := absurd member List.not_mem_nil
  invokedPast _ _ isInvoked := by cases isInvoked
  pointed _ _ _ _ isEffected := by cases isEffected

theorem Sound.tick (sound : recorder.Sound machine fresh) :
    recorder.tick.Sound machine fresh :=
  { sound with
    past := fun point member => Nat.lt_succ_of_lt (sound.past point member)
    returnedPast := fun operation member =>
      Nat.lt_succ_of_lt (sound.returnedPast operation member)
    invokedPast := by
      intro thread invoked isInvoked
      rcases sound.invokedPast thread invoked isInvoked with ⟨earlier, after⟩
      exact ⟨Nat.lt_succ_of_lt earlier, after⟩ }

theorem goTo_phase_self (thread : Nat) (phase : Phase Input Output) :
    (recorder.goTo thread phase).phase thread = phase :=
  Function.update_self ..

theorem goTo_phase_of_ne {thread other : Nat} (different : other ≠ thread)
    (phase : Phase Input Output) :
    (recorder.goTo thread phase).phase other = recorder.phase other :=
  Function.update_of_ne different ..

theorem Sound.goTo (sound : recorder.Sound machine fresh) {thread : Nat}
    {phase : Phase Input Output}
    (invokedPast : ∀ invoked, phase.invoked? = some invoked →
      invoked < recorder.time + 1 ∧ ∀ operation ∈ recorder.operations,
        operation.thread = thread → operation.returned < invoked)
    (pointed : ∀ input output invoked, phase = .effected input output invoked →
      ∃ point ∈ recorder.points, point.thread = thread ∧ point.input = input ∧
        point.output = output ∧ invoked < point.time) :
    (recorder.goTo thread phase).Sound machine fresh := by
  refine { sound.tick with invokedPast := ?_, pointed := ?_ }
  · intro other invoked isInvoked
    by_cases same : other = thread
    · subst same
      rw [goTo_phase_self] at isInvoked
      exact invokedPast invoked isInvoked
    · rw [goTo_phase_of_ne same] at isInvoked
      exact sound.tick.invokedPast other invoked isInvoked
  · intro other input output invoked isEffected
    by_cases same : other = thread
    · subst same
      rw [goTo_phase_self] at isEffected
      exact pointed input output invoked isEffected
    · rw [goTo_phase_of_ne same] at isEffected
      exact sound.pointed other input output invoked isEffected

theorem Sound.invoke (sound : recorder.Sound machine fresh) (thread : Nat)
    (input : Input) : (recorder.note (.invoke thread input)).Sound machine fresh := by
  apply sound.goTo
  · intro invoked isInvoked
    cases isInvoked
    exact ⟨Nat.lt_succ_self _, fun operation member _ =>
      sound.returnedPast operation member⟩
  · intro _ _ _ isEffected
    cases isEffected

theorem Sound.effect (sound : recorder.Sound machine fresh) {thread : Nat} {input : Input}
    {output : Output} {invoked : Nat} (pending : recorder.phase thread = .pending input invoked)
    (answers : output = (machine.step (machine.final fresh recorder.order) input).2) :
    (recorder.note (.effect thread output)).Sound machine fresh := by
  have wasInvoked := sound.invokedPast thread invoked (by rw [pending]; rfl)
  rw [note, pending]
  have kept : ∀ point ∈ recorder.points,
      point ∈ recorder.points ++ [⟨thread, input, output, recorder.time⟩] :=
    fun point member => List.mem_append_left _ member
  refine {
    sequential := ?_, increasing := ?_, between := ?_, apart := sound.apart, past := ?_
    returnedPast := sound.tick.returnedPast, invokedPast := ?_, pointed := ?_ }
  · rw [List.map_append, List.map_append, machine.outputs_append, sound.sequential]
    exact congrArg (_ ++ [·]) answers.symm
  · rw [List.pairwise_append]
    refine ⟨sound.increasing, List.pairwise_singleton .., ?_⟩
    intro point member last isLast
    rw [List.mem_singleton.mp isLast]
    exact sound.past point member
  · intro operation member
    rcases sound.between operation member with ⟨point, isPoint, fits⟩
    exact ⟨point, kept point isPoint, fits⟩
  · intro point member
    rcases List.mem_append.mp member with earlier | last
    · exact Nat.lt_succ_of_lt (sound.past point earlier)
    · rw [List.mem_singleton.mp last]
      exact Nat.lt_succ_self _
  · intro other since isInvoked
    by_cases same : other = thread
    · subst same
      rw [goTo_phase_self] at isInvoked
      cases isInvoked
      exact ⟨Nat.lt_succ_of_lt wasInvoked.1, wasInvoked.2⟩
    · rw [goTo_phase_of_ne same] at isInvoked
      exact sound.tick.invokedPast other since isInvoked
  · intro other itsInput itsOutput since isEffected
    by_cases same : other = thread
    · subst same
      rw [goTo_phase_self] at isEffected
      cases isEffected
      exact ⟨_, List.mem_append_right _ (List.mem_singleton_self _), rfl, rfl, rfl,
        wasInvoked.1⟩
    · rw [goTo_phase_of_ne same] at isEffected
      rcases sound.pointed other itsInput itsOutput since isEffected with
        ⟨point, isPoint, fits⟩
      exact ⟨point, kept point isPoint, fits⟩

theorem Sound.answer (sound : recorder.Sound machine fresh) {thread : Nat} {input : Input}
    {output : Output} {invoked : Nat}
    (effected : recorder.phase thread = .effected input output invoked) :
    (recorder.note (.answer thread)).Sound machine fresh := by
  have wasInvoked := sound.invokedPast thread invoked (by rw [effected]; rfl)
  have moved : (recorder.goTo thread .outside).Sound machine fresh := by
    apply sound.goTo
    · intro since isInvoked
      cases isInvoked
    · intro _ _ _ isEffected
      cases isEffected
  rw [note, effected]
  refine { moved with between := ?_, apart := ?_, returnedPast := ?_, invokedPast := ?_ }
  · intro operation member
    rcases List.mem_append.mp member with earlier | last
    · exact sound.between operation earlier
    · rw [List.mem_singleton.mp last]
      rcases sound.pointed thread input output invoked effected with
        ⟨point, isPoint, itsThread, itsInput, itsOutput, after⟩
      exact ⟨point, isPoint, itsThread, itsInput, itsOutput, after,
        sound.past point isPoint⟩
  · rw [List.pairwise_append]
    refine ⟨sound.apart, List.pairwise_singleton .., ?_⟩
    intro operation member last isLast sameThread
    rw [List.mem_singleton.mp isLast] at sameThread ⊢
    exact wasInvoked.2 operation member sameThread
  · intro operation member
    rcases List.mem_append.mp member with earlier | last
    · exact Nat.lt_succ_of_lt (sound.returnedPast operation earlier)
    · rw [List.mem_singleton.mp last]
      exact Nat.lt_succ_self _
  · intro other since isInvoked
    rcases moved.invokedPast other since isInvoked with ⟨earlier, after⟩
    refine ⟨earlier, ?_⟩
    intro operation member itsThread
    rcases List.mem_append.mp member with before | last
    · exact after operation before itsThread
    · rw [List.mem_singleton.mp last] at itsThread
      change thread = other at itsThread
      subst itsThread
      rw [goTo_phase_self] at isInvoked
      cases isInvoked

end Events

end Recorder

end ClearSpace.Linearization
