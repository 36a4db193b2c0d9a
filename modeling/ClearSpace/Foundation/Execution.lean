import Mathlib.Data.List.Basic

/-! # Executions

Deterministic machines that answer every input, and step systems whose actions
may be disabled. Both come with the induction that carries an invariant along a
run, so that a client only proves what one step does. -/

namespace ClearSpace

/-! ## Machines -/

/-- A component that takes one input at a time and answers each of them. -/
structure Machine (State : Type u) (Input : Type v) (Output : Type w) where
  step : State → Input → State × Output

namespace Machine

variable {State : Type u} {Input : Type v} {Output : Type w}

def final (machine : Machine State Input Output) (state : State) :
    List Input → State
  | [] => state
  | input :: rest => machine.final (machine.step state input).1 rest

def outputs (machine : Machine State Input Output) (state : State) :
    List Input → List Output
  | [] => []
  | input :: rest =>
      (machine.step state input).2 :: machine.outputs (machine.step state input).1 rest

def Along (machine : Machine State Input Output) (Allowed : State → Input → Prop)
    (state : State) : List Input → Prop
  | [] => True
  | input :: rest =>
      Allowed state input ∧ machine.Along Allowed (machine.step state input).1 rest

variable (machine : Machine State Input Output)

theorem final_append (state : State) (front back : List Input) :
    machine.final state (front ++ back) =
      machine.final (machine.final state front) back := by
  induction front generalizing state with
  | nil => rfl
  | cons input rest induction => exact induction _

theorem outputs_append (state : State) (front back : List Input) :
    machine.outputs state (front ++ back) =
      machine.outputs state front ++
        machine.outputs (machine.final state front) back := by
  induction front generalizing state with
  | nil => rfl
  | cons input rest induction =>
      simp only [List.cons_append, outputs, induction]
      rfl

theorem along_append {Allowed : State → Input → Prop} {state : State}
    {front back : List Input} :
    machine.Along Allowed state (front ++ back) ↔
      machine.Along Allowed state front ∧
        machine.Along Allowed (machine.final state front) back := by
  induction front generalizing state with
  | nil => simp [Along, final]
  | cons input rest induction =>
      simp only [List.cons_append, Along, final, induction, and_assoc]

theorem Along.imp {machine : Machine State Input Output}
    {Allowed Weaker : State → Input → Prop}
    (weaker : ∀ state input, Allowed state input → Weaker state input) :
    ∀ {inputs : List Input} {state : State}, machine.Along Allowed state inputs →
      machine.Along Weaker state inputs
  | [], _, _ => trivial
  | input :: _, state, allowed =>
      ⟨weaker state input allowed.1, Along.imp weaker allowed.2⟩

/-- A property that every allowed step keeps holds at the end of the run. -/
theorem invariant_final {Allowed : State → Input → Prop} {Invariant : State → Prop}
    (preserved : ∀ state input, Allowed state input → Invariant state →
      Invariant (machine.step state input).1) :
    ∀ (inputs : List Input) (state : State), Invariant state →
      machine.Along Allowed state inputs → Invariant (machine.final state inputs)
  | [], _, holds, _ => holds
  | input :: rest, state, holds, allowed =>
      invariant_final preserved rest _
        (preserved state input allowed.1 holds) allowed.2

/-- Two machines whose states stay related step by step give matching answers
and end in related states. -/
theorem simulation {OtherState : Type u'} {OtherOutput : Type w'}
    (other : Machine OtherState Input OtherOutput)
    {Allowed : State → Input → Prop} (Related : State → OtherState → Prop)
    (Matches : Output → OtherOutput → Prop)
    (simulates : ∀ state otherState input, Allowed state input →
      Related state otherState →
      Related (machine.step state input).1 (other.step otherState input).1 ∧
        Matches (machine.step state input).2 (other.step otherState input).2) :
    ∀ (inputs : List Input) (state : State) (otherState : OtherState),
      Related state otherState → machine.Along Allowed state inputs →
      Related (machine.final state inputs) (other.final otherState inputs) ∧
        List.Forall₂ Matches (machine.outputs state inputs)
          (other.outputs otherState inputs)
  | [], _, _, related, _ => ⟨related, .nil⟩
  | input :: rest, state, otherState, related, allowed => by
      rcases simulates state otherState input allowed.1 related with
        ⟨nextRelated, answersMatch⟩
      rcases simulation other Related Matches simulates rest _ _ nextRelated
          allowed.2 with
        ⟨finalRelated, restMatch⟩
      exact ⟨finalRelated, .cons answersMatch restMatch⟩

end Machine

/-! ## Step systems -/

/-- A system of interleaved actions. `none` means that the action cannot
happen in the state. -/
structure StepSystem (State : Type u) (Action : Type v) where
  step : State → Action → Option State

namespace StepSystem

variable {State : Type u} {Action : Type v}

/-- A run whose actions are all allowed in the states in which they happen. -/
inductive Runs (system : StepSystem State Action)
    (Allowed : State → Action → Prop) : State → List Action → State → Prop
  | nil (state) : Runs system Allowed state [] state
  | cons {state middle final action actions} :
      Allowed state action →
      system.step state action = some middle →
      Runs system Allowed middle actions final →
      Runs system Allowed state (action :: actions) final

def Any (_ : State) (_ : Action) : Prop := True

def unchecked (_ : State) (_ : Action) : Bool := true

/-- Execute a schedule; `none` when one of its actions cannot happen or fails
the check. -/
def execute (system : StepSystem State Action) (check : State → Action → Bool)
    (state : State) : List Action → Option State
  | [] => some state
  | action :: rest =>
      if check state action then
        (system.step state action).bind (system.execute check · rest)
      else none

variable {system : StepSystem State Action}

theorem runs_of_execute {Allowed : State → Action → Prop}
    {check : State → Action → Bool}
    (allows : ∀ state action, check state action = true → Allowed state action)
    {actions : List Action} {state final : State}
    (executed : system.execute check state actions = some final) :
    system.Runs Allowed state actions final := by
  induction actions generalizing state with
  | nil =>
      cases executed
      exact .nil _
  | cons action rest induction =>
      rw [execute] at executed
      split at executed
      next checked =>
        rcases Option.bind_eq_some_iff.mp executed with
          ⟨middle, stepped, executedRest⟩
        exact .cons (allows state action checked) stepped (induction executedRest)
      next => cases executed

theorem runs_of_unchecked {actions : List Action} {state final : State}
    (executed : system.execute unchecked state actions = some final) :
    system.Runs Any state actions final :=
  runs_of_execute (fun _ _ _ => trivial) executed

theorem Runs.concat {Allowed : State → Action → Prop} {state middle final : State}
    {actions : List Action} {action : Action}
    (runs : system.Runs Allowed state actions middle) (allowed : Allowed middle action)
    (stepped : system.step middle action = some final) :
    system.Runs Allowed state (actions ++ [action]) final := by
  induction runs with
  | nil => exact .cons allowed stepped (.nil _)
  | cons firstAllowed firstStepped _ induction =>
      exact .cons firstAllowed firstStepped (induction allowed stepped)

/-- A property that every allowed step keeps holds in every state reached. -/
theorem Runs.invariant {Allowed : State → Action → Prop} {Invariant : State → Prop}
    (preserved : ∀ state action next, Allowed state action →
      system.step state action = some next → Invariant state → Invariant next)
    {state final : State} {actions : List Action}
    (runs : system.Runs Allowed state actions final)
    (holds : Invariant state) : Invariant final := by
  induction runs with
  | nil => exact holds
  | cons allowed stepped _ induction =>
      exact induction (preserved _ _ _ allowed stepped holds)

/-- A system that steps alike wherever an invariant holds has the same runs. -/
theorem Runs.transfer {other : StepSystem State Action}
    {Allowed : State → Action → Prop} {Invariant : State → Prop}
    (agrees : ∀ state action, Invariant state →
      other.step state action = system.step state action)
    (preserved : ∀ state action next, system.step state action = some next →
      Invariant state → Invariant next)
    {state final : State} {actions : List Action}
    (runs : system.Runs Allowed state actions final) (holds : Invariant state) :
    other.Runs Allowed state actions final := by
  induction runs with
  | nil => exact .nil _
  | @cons state middle final action actions allowed stepped _ induction =>
      have alike : other.step state action = some middle :=
        (agrees state action holds).trans stepped
      exact .cons allowed alike (induction (preserved state action middle stepped holds))

def noted {Record : Type w} (system : StepSystem State Action)
    (note : State → Action → Record → Record) (state : State) (record : Record) :
    List Action → Record
  | [] => record
  | action :: rest =>
      match system.step state action with
      | none => record
      | some next => system.noted note next (note state action record) rest

/-- The same for a property that relates the state to what was noted. -/
theorem Runs.invariant_noted {Record : Type w}
    {note : State → Action → Record → Record} {Allowed : State → Action → Prop}
    {Invariant : State → Record → Prop}
    (preserved : ∀ state action next record, Allowed state action →
      system.step state action = some next → Invariant state record →
      Invariant next (note state action record))
    {state final : State} {actions : List Action}
    (runs : system.Runs Allowed state actions final) {record : Record}
    (holds : Invariant state record) :
    Invariant final (system.noted note state record actions) := by
  induction runs generalizing record with
  | nil => exact holds
  | cons allowed stepped _ induction =>
      simp only [noted, stepped]
      exact induction (preserved _ _ _ _ allowed stepped holds)

end StepSystem

end ClearSpace
