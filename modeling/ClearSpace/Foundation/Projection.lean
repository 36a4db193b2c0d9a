import ClearSpace.Foundation.Execution

/-! # Machines inside a step system

A system may host a machine that comes into being at some point and from then on
changes only by taking inputs. Whatever else the system does in between, the
machine is then where a fresh one is after the same inputs. -/

namespace ClearSpace.StepSystem

variable {State : Type u} {Action : Type v} {Part : Type w} {Input : Type x}
  {Output : Type y}

/-- The inputs taken during a schedule; `takes` tells which one an action brings. -/
def inputs (system : StepSystem State Action) (takes : State → Action → Option Input)
    (state : State) (actions : List Action) : List Input :=
  system.noted (fun state action taken => taken ++ (takes state action).toList) state []
    actions

/-- What has to hold of single steps. A step that `Allowed` admits gives the
machine only inputs that suit it. -/
structure Hosts (system : StepSystem State Action) (Allowed : State → Action → Prop)
    (machine : Machine Part Input Output) (Suits : Part → Input → Prop) (fresh : Part)
    (part : State → Option Part) (takes : State → Action → Option Input) : Prop where
  absent : ∀ {state next : State} {action : Action}, Allowed state action →
    system.step state action = some next → part state = none →
    takes state action = none ∧ (part next = none ∨ part next = some fresh)
  present : ∀ {state next : State} {action : Action} {current : Part},
    Allowed state action → system.step state action = some next →
    part state = some current →
    match takes state action with
    | none => part next = some current
    | some input =>
        Suits current input ∧ part next = some (machine.step current input).1

variable {system : StepSystem State Action} {Allowed : State → Action → Prop}
  {takes : State → Action → Option Input}

private theorem noted_inputs (state : State) (taken : List Input)
    (actions : List Action) :
    system.noted (fun state action taken => taken ++ (takes state action).toList) state
      taken actions = taken ++ system.inputs takes state actions := by
  induction actions generalizing state taken with
  | nil => exact (List.append_nil taken).symm
  | cons action rest induction =>
      simp only [inputs, noted]
      cases system.step state action with
      | none => exact (List.append_nil taken).symm
      | some next =>
          simp only [List.nil_append]
          rw [induction next (taken ++ (takes state action).toList),
            induction next (takes state action).toList, List.append_assoc]

theorem inputs_cons {state next : State} {action : Action}
    (stepped : system.step state action = some next) (rest : List Action) :
    system.inputs takes state (action :: rest) =
      (takes state action).toList ++ system.inputs takes next rest := by
  rw [inputs, noted, stepped]
  exact noted_inputs next _ rest

theorem Runs.with_invariant {Invariant : State → Prop}
    (preserved : ∀ state action next, Allowed state action →
      system.step state action = some next → Invariant state → Invariant next)
    {state final : State} {actions : List Action}
    (runs : system.Runs Allowed state actions final) (holds : Invariant state) :
    system.Runs (fun state action => Allowed state action ∧ Invariant state) state actions
      final := by
  induction runs with
  | nil => exact .nil _
  | cons allowed stepped _ induction =>
      exact .cons ⟨allowed, holds⟩ stepped
        (induction (preserved _ _ _ allowed stepped holds))

theorem Runs.mem_inputs {state final : State} {actions : List Action}
    (runs : system.Runs Allowed state actions final) {input : Input}
    (member : input ∈ system.inputs takes state actions) :
    ∃ before action after middle, actions = before ++ action :: after ∧
      system.Runs Allowed state before middle ∧ Allowed middle action ∧
      takes middle action = some input := by
  induction runs with
  | nil => cases member
  | @cons state middle final action actions allowed stepped rest induction =>
      rw [inputs_cons stepped] at member
      rcases List.mem_append.mp member with first | later
      · exact ⟨[], action, actions, state, rfl, .nil _, allowed,
          Option.mem_toList.mp first⟩
      · rcases induction later with ⟨before, other, after, reached, rfl, begins, found⟩
        exact ⟨action :: before, other, after, reached, rfl,
          .cons allowed stepped begins, found⟩

/-- If every step is a step of another system, or nothing to it, then every run is
a run of the other system. -/
theorem Runs.refines {Other : Type w} {OtherAction : Type x}
    {other : StepSystem Other OtherAction} {OtherAllowed : Other → OtherAction → Prop}
    {label : State → Action → Option OtherAction} {Related : State → Other → Prop}
    (simulates : ∀ {state next : State} {action : Action} {atomic : Other},
      Allowed state action → system.step state action = some next →
      Related state atomic →
      match label state action with
      | none => Related next atomic
      | some seen => OtherAllowed atomic seen ∧
          ∃ after, other.step atomic seen = some after ∧ Related next after)
    {state final : State} {actions : List Action}
    (runs : system.Runs Allowed state actions final) {atomic : Other}
    (related : Related state atomic) :
    ∃ after, other.Runs OtherAllowed atomic (system.inputs label state actions) after ∧
      Related final after := by
  induction runs generalizing atomic with
  | nil => exact ⟨atomic, .nil _, related⟩
  | @cons state middle final action actions allowed stepped _ induction =>
      have matched := simulates allowed stepped related
      rw [inputs_cons stepped]
      generalize label state action = seen at matched ⊢
      cases seen with
      | none => exact induction matched
      | some seen =>
          rcases matched with ⟨otherAllowed, between, otherStepped, nextRelated⟩
          rcases induction nextRelated with ⟨after, later, finalRelated⟩
          exact ⟨after, .cons otherAllowed otherStepped later, finalRelated⟩

/-- `Runs.refines` where the other system is a part of this one. -/
theorem Runs.projects {Other : Type w} {OtherAction : Type x}
    {other : StepSystem Other OtherAction} {OtherAllowed : Other → OtherAction → Prop}
    {label : State → Action → Option OtherAction} (project : State → Other)
    (steps : ∀ {state next : State} {action : Action},
      Allowed state action → system.step state action = some next →
      match label state action with
      | none => project next = project state
      | some seen => OtherAllowed (project state) seen ∧
          other.step (project state) seen = some (project next))
    {state final : State} {actions : List Action}
    (runs : system.Runs Allowed state actions final) :
    other.Runs OtherAllowed (project state) (system.inputs label state actions)
      (project final) := by
  let Related (state : State) (atomic : Other) : Prop := project state = atomic
  have simulates : ∀ {state next : State} {action : Action} {atomic : Other},
      Allowed state action → system.step state action = some next →
      Related state atomic →
      match label state action with
      | none => Related next atomic
      | some seen => OtherAllowed atomic seen ∧
          ∃ after, other.step atomic seen = some after ∧ Related next after := by
    rintro state next action _ allowed stepped rfl
    have step := steps allowed stepped
    generalize label state action = seen at step ⊢
    cases seen with
    | none => exact step
    | some seen => exact ⟨step.1, project next, step.2, rfl⟩
  have related : Related state (project state) := rfl
  rcases runs.refines simulates related with ⟨after, otherRuns, rfl⟩
  exact otherRuns

/-- The machine is not there yet, or it is where the inputs have taken it. -/
def Hosted (machine : Machine Part Input Output) (Suits : Part → Input → Prop)
    (fresh : Part) (part : Option Part) (taken : List Input) : Prop :=
  part = none ∧ taken = [] ∨
    part = some (machine.final fresh taken) ∧ machine.Along Suits fresh taken

namespace Hosts

variable {machine : Machine Part Input Output} {Suits : Part → Input → Prop}
  {fresh : Part} {part : State → Option Part}
  (hosts : system.Hosts Allowed machine Suits fresh part takes)

include hosts

theorem hosted_step {state next : State} {action : Action} {taken : List Input}
    (allowed : Allowed state action) (stepped : system.step state action = some next)
    (hosted : Hosted machine Suits fresh (part state) taken) :
    Hosted machine Suits fresh (part next) (taken ++ (takes state action).toList) := by
  rcases hosted with ⟨isAbsent, rfl⟩ | ⟨isPart, suited⟩
  · rcases hosts.absent allowed stepped isAbsent with ⟨nothing, still | made⟩
    · exact .inl ⟨still, by rw [nothing]; rfl⟩
    · rw [nothing]
      exact .inr ⟨made, trivial⟩
  · have moved := hosts.present allowed stepped isPart
    generalize takes state action = input at moved ⊢
    cases input with
    | none =>
        rw [Option.toList_none, List.append_nil]
        exact .inr ⟨moved, suited⟩
    | some input =>
        refine .inr ⟨?_, machine.along_append.mpr ⟨suited, moved.1, trivial⟩⟩
        rw [Option.toList_some, machine.final_append]
        exact moved.2

theorem hosted_run {state final : State} {actions : List Action}
    (runs : system.Runs Allowed state actions final) (isAbsent : part state = none) :
    Hosted machine Suits fresh (part final) (system.inputs takes state actions) := by
  apply runs.invariant_noted _ (.inl ⟨isAbsent, rfl⟩)
  intro state action next taken allowed stepped hosted
  exact hosts.hosted_step allowed stepped hosted

end Hosts

end ClearSpace.StepSystem
