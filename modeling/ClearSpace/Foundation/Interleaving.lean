import ClearSpace.Foundation.Execution
import Mathlib.Data.List.Perm.Basic

/-! # Interleaved parties

A machine whose inputs come from several parties. Where a view of the state is
changed by some of the inputs only, the machine does for these what a machine on
the view alone does, and what comes in between is of no consequence. -/

namespace ClearSpace

namespace Machine

variable {State : Type u} {Input : Type v} {Output : Type w}

def tagged {Party : Type u'} {Mark : Type w'} (machine : Machine State Input Output)
    (party : Input → Party) (observe : Output → Mark) (state : State) :
    List Input → List (Party × Mark)
  | [] => []
  | input :: rest =>
      (party input, observe (machine.step state input).2) ::
        machine.tagged party observe (machine.step state input).1 rest

def answers {Own : Type v'} {Mark : Type w'} (machine : Machine State Input Output)
    (select : Input → Option Own) (observe : Output → Mark) (state : State) :
    List Input → List Mark
  | [] => []
  | input :: rest =>
      let later := machine.answers select observe (machine.step state input).1 rest
      match select input with
      | none => later
      | some _ => observe (machine.step state input).2 :: later

variable {View : Type u''} {Own : Type v'} {Mark : Type w'}

/-- For the selected inputs the machine is `alone` seen through `view`. -/
structure Projects (machine : Machine State Input Output)
    (Allowed : State → Input → Prop) (select : Input → Option Own)
    (observe : Output → Mark) (view : State → View) (alone : Machine View Own Mark) :
    Prop where
  own : ∀ state input own, Allowed state input → select input = some own →
    alone.step (view state) own =
      (view (machine.step state input).1, observe (machine.step state input).2)
  other : ∀ state input, Allowed state input → select input = none →
    view (machine.step state input).1 = view state

namespace Projects

variable {machine : Machine State Input Output} {Allowed : State → Input → Prop}
  {select : Input → Option Own} {observe : Output → Mark} {view : State → View}
  {alone : Machine View Own Mark}

/-- The view after a run and the answers to the selected inputs are those of the
selected inputs alone. -/
theorem run (projects : machine.Projects Allowed select observe view alone) :
    ∀ (inputs : List Input) (state : State), machine.Along Allowed state inputs →
      view (machine.final state inputs) =
          alone.final (view state) (inputs.filterMap select) ∧
        machine.answers select observe state inputs =
          alone.outputs (view state) (inputs.filterMap select)
  | [], _, _ => ⟨rfl, rfl⟩
  | input :: rest, state, allowed => by
      have later := projects.run rest _ allowed.2
      cases selected : select input with
      | none =>
          have same := projects.other state input allowed.1 selected
          rw [same] at later
          rw [List.filterMap_cons_none selected]
          refine ⟨later.1, ?_⟩
          simp only [answers, selected]
          exact later.2
      | some own =>
          have step := projects.own state input own allowed.1 selected
          rw [List.filterMap_cons_some selected]
          simp only [answers, selected, final, outputs, step]
          exact ⟨later.1, congrArg _ later.2⟩

/-- Runs with the same selected inputs look the same. -/
theorem agree (projects : machine.Projects Allowed select observe view alone)
    {state : State} {first second : List Input}
    (firstAllowed : machine.Along Allowed state first)
    (secondAllowed : machine.Along Allowed state second)
    (sameInputs : first.filterMap select = second.filterMap select) :
    view (machine.final state first) = view (machine.final state second) ∧
      machine.answers select observe state first =
        machine.answers select observe state second := by
  have firstRun := projects.run first state firstAllowed
  have secondRun := projects.run second state secondAllowed
  rw [firstRun.1, firstRun.2, secondRun.1, secondRun.2, sameInputs]
  exact ⟨rfl, rfl⟩

end Projects

theorem tagged_filter {Party : Type u'} [DecidableEq Party]
    (machine : Machine State Input Output) (party : Input → Party)
    (observe : Output → Mark) (chosen : Party) (inputs : List Input) (state : State) :
    (machine.tagged party observe state inputs).filter (fun answer => answer.1 = chosen) =
      (machine.answers (Option.guard fun input => party input = chosen) observe state
        inputs).map (chosen, ·) := by
  induction inputs generalizing state with
  | nil => rfl
  | cons input rest induction =>
      by_cases isOwn : party input = chosen
      · rw [tagged, List.filter_cons_of_pos (by simpa using isOwn), induction]
        simp [answers, Option.guard, isOwn]
      · rw [tagged, List.filter_cons_of_neg (by simpa using isOwn), induction]
        simp [answers, Option.guard, isOwn]

end Machine

/-- Lists that agree for every key have the same entries. -/
theorem perm_of_filter_eq {α : Type u} {κ : Type v} [DecidableEq α] [DecidableEq κ]
    (key : α → κ) {left right : List α}
    (same : ∀ selected, (left.filter fun entry => key entry = selected) =
      right.filter fun entry => key entry = selected) : left.Perm right := by
  apply List.perm_iff_count.mpr
  intro entry
  have here : decide (key entry = key entry) = true := decide_eq_true rfl
  rw [← List.count_filter (p := fun other => key other = key entry) here, same,
    List.count_filter (p := fun other => key other = key entry) here]

end ClearSpace
