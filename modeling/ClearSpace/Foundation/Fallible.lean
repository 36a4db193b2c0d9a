import Mathlib.Data.List.Basic

/-! # Errors of fallible computations

What can be said about every error a computation may end in, by the shape of
the computation. -/

namespace ClearSpace

/-- Every error the computation ends in satisfies `Condition`. -/
def FailsWith {Failure : Type u} {Value : Type v} (Condition : Failure → Prop)
    (computation : Except Failure Value) : Prop :=
  ∀ error, computation = .error error → Condition error

namespace FailsWith

variable {Failure : Type u} {Value Other : Type v} {Condition : Failure → Prop}

theorem ok (value : Value) : FailsWith Condition (.ok value : Except Failure Value) :=
  nofun

theorem error {failure : Failure} (holds : Condition failure) :
    FailsWith Condition (.error failure : Except Failure Value) := by
  intro other same
  cases same
  exact holds

theorem bind {computation : Except Failure Value}
    {continuation : Value → Except Failure Other}
    (first : FailsWith Condition computation)
    (later : ∀ value, FailsWith Condition (continuation value)) :
    FailsWith Condition (computation >>= continuation) := by
  cases computation with
  | error failure => exact error (first failure rfl)
  | ok value => exact later value

theorem map {computation : Except Failure Value}
    (fails : FailsWith Condition computation) (transform : Value → Other) :
    FailsWith Condition (computation.map transform) := by
  cases computation with
  | error failure => exact error (fails failure rfl)
  | ok value => exact ok (transform value)

theorem ite {test : Prop} [Decidable test] {yes no : Except Failure Value}
    (whenTrue : test → FailsWith Condition yes)
    (whenFalse : ¬ test → FailsWith Condition no) :
    FailsWith Condition (if test then yes else no) := by
  split
  next holds => exact whenTrue holds
  next fails => exact whenFalse fails

end FailsWith

/-! ## Success -/

theorem bind_ok_iff {Failure : Type u} {Value Other : Type v}
    {computation : Except Failure Value} {continuation : Value → Except Failure Other}
    {result : Other} :
    computation >>= continuation = .ok result ↔
      ∃ value, computation = .ok value ∧ continuation value = .ok result := by
  cases computation with
  | error failure =>
      constructor
      · exact nofun
      · intro found
        rcases found with ⟨value, impossible, _⟩
        cases impossible
  | ok value =>
      constructor
      · exact fun ends => ⟨value, rfl, ends⟩
      · intro found
        rcases found with ⟨other, same, ends⟩
        cases same
        exact ends

end ClearSpace
