import Mathlib.Data.Set.Card
import Mathlib.Logic.Function.Basic

/-! # Counting threads

A family of threads, each with a status of its own. One thread moves at a time,
so the number of threads of a kind changes by one at most. -/

namespace ClearSpace.Threads

variable {Thread : Type u} {Status : Type v} {Kind : Status → Prop}

def which (Kind : Status → Prop) (statuses : Thread → Status) : Set Thread :=
  {thread | Kind (statuses thread)}

variable [DecidableEq Thread] {statuses : Thread → Status} {thread : Thread}
  {next : Status}

theorem exists_update (found : ∃ other, Kind (statuses other))
    (keeps : Kind (statuses thread) → Kind next) :
    ∃ other, Kind (Function.update statuses thread next other) := by
  rcases found with ⟨other, holds⟩
  refine ⟨other, ?_⟩
  by_cases isThis : other = thread
  · subst isThis
    rw [Function.update_self]
    exact keeps holds
  · rw [Function.update_of_ne isThis]
    exact holds

theorem which_enter (now : Kind next) :
    which Kind (Function.update statuses thread next) =
      insert thread (which Kind statuses) := by
  ext other
  by_cases isThis : other = thread
  · subst isThis
    simp [which, now]
  · simp [which, isThis]

theorem which_leave (now : ¬ Kind next) :
    which Kind (Function.update statuses thread next) =
      which Kind statuses \ {thread} := by
  ext other
  by_cases isThis : other = thread
  · subst isThis
    simp [which, now]
  · simp [which, isThis]

theorem which_stay (before : ¬ Kind (statuses thread)) (now : ¬ Kind next) :
    which Kind (Function.update statuses thread next) = which Kind statuses := by
  rw [which_leave now]
  exact Set.sdiff_singleton_eq_self before

theorem ncard_enter (finite : (which Kind statuses).Finite)
    (before : ¬ Kind (statuses thread)) (now : Kind next) :
    (which Kind (Function.update statuses thread next)).ncard =
      (which Kind statuses).ncard + 1 := by
  rw [which_enter now]
  exact Set.ncard_insert_of_notMem before finite

theorem ncard_leave (finite : (which Kind statuses).Finite)
    (before : Kind (statuses thread)) (now : ¬ Kind next) :
    (which Kind (Function.update statuses thread next)).ncard + 1 =
      (which Kind statuses).ncard := by
  rw [which_leave now]
  exact Set.ncard_sdiff_singleton_add_one before finite

end ClearSpace.Threads
