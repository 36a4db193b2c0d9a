import ClearSpace.Foundation.Execution
import Mathlib.Order.WellFounded

/-! # Progress

A system that comes closer to a goal with some of its steps and never gets
farther away from it: how many such steps a run has at most, and that the goal
can be reached from every state. -/

namespace ClearSpace.StepSystem

variable {State : Type u} {Action : Type v} {system : StepSystem State Action}
  {Allowed : State → Action → Prop} {Invariant : State → Prop}

/-- Steps that count come closer, the others do not get farther away. -/
theorem Runs.countP_le (measure : State → Nat) (counts : Action → Bool)
    (closer : ∀ state action next, Allowed state action →
      system.step state action = some next → Invariant state →
      Invariant next ∧ (if counts action then 1 else 0) + measure next ≤ measure state)
    {state final : State} {actions : List Action}
    (runs : system.Runs Allowed state actions final) (holds : Invariant state) :
    actions.countP counts + measure final ≤ measure state := by
  induction runs with
  | nil => simp
  | @cons state middle final action rest allowed stepped _ induction =>
      rcases closer state action middle allowed stepped holds with ⟨still, nearer⟩
      have later := induction still
      rw [List.countP_cons]
      omega

/-- Where some step comes closer as long as the goal is not reached, it can be
reached. -/
theorem exists_runs_of_progress {Goal : State → Prop} (measure : State → Nat)
    (progress : ∀ state, Invariant state → ¬ Goal state →
      ∃ action next, Allowed state action ∧ system.step state action = some next ∧
        Invariant next ∧ measure next < measure state)
    (state : State) (holds : Invariant state) :
    ∃ actions final, system.Runs Allowed state actions final ∧ Goal final ∧
      actions.length ≤ measure state := by
  induction size : measure state using Nat.strongRecOn generalizing state with
  | ind bound induction =>
      by_cases reached : Goal state
      · exact ⟨[], state, .nil state, reached, Nat.zero_le _⟩
      · rcases progress state holds reached with
          ⟨action, next, allowed, stepped, still, nearer⟩
        rcases induction (measure next) (size ▸ nearer) next still rfl with
          ⟨actions, final, runs, goal, short⟩
        refine ⟨action :: actions, final, .cons allowed stepped runs, goal, ?_⟩
        rw [List.length_cons]
        omega

/-- Steps that come closer, with respect to any well-founded order, do not go on
for ever. -/
theorem no_infinite_run {Distance : Type w} {lower : Distance → Distance → Prop}
    (wellFounded : WellFounded lower) (measure : State → Distance)
    {counts : Action → Bool}
    (closer : ∀ state action next, counts action = true →
      system.step state action = some next → lower (measure next) (measure state))
    (path : Nat → State) :
    ¬ ∀ time, ∃ action, counts action = true ∧
      system.step (path time) action = some (path (time + 1)) := by
  intro goesOn
  rcases wellFounded.has_min (Set.range fun time => measure (path time))
    ⟨_, 0, rfl⟩ with ⟨_, ⟨time, rfl⟩, least⟩
  rcases goesOn time with ⟨action, isCounted, stepped⟩
  exact least _ ⟨time + 1, rfl⟩ (closer _ action _ isCounted stepped)

end ClearSpace.StepSystem
