import Mathlib.Data.Int.DivMod
import Mathlib.Data.List.Basic
import Mathlib.Tactic.Linarith

/-! # Throttling

The greedy selection of timed items: the first one is taken, and then every one
that comes at least an interval after the last one taken. -/

namespace ClearSpace.Throttling

variable {Item : Type u} {Time : Type v} {Other : Type w}

/-- Every item with whether it is taken; `due` has the time of the last one taken. -/
def decisions (due : Option Time → Time → Bool) (time : Item → Time)
    (last : Option Time) : List Item → List (Item × Bool)
  | [] => []
  | item :: rest =>
      if due last (time item) then
        (item, true) :: decisions due time (some (time item)) rest
      else
        (item, false) :: decisions due time last rest

/-- Enough time has passed since an item was last taken, if one was. -/
def elapsed (interval : Int) (last : Option Int) (now : Int) : Bool :=
  match last with
  | none => true
  | some before => decide (interval ≤ now - before)

/-- Two tests decide alike if they agree on the times that can meet. -/
theorem decisions_congr {due : Option Time → Time → Bool}
    {otherDue : Option Other → Other → Bool} {time : Item → Time} (convert : Time → Other)
    {last : Option Time} {items : List Item}
    (atFirst : ∀ item ∈ items,
      due last (time item) = otherDue (last.map convert) (convert (time item)))
    (between : items.Pairwise fun earlier later =>
      due (some (time earlier)) (time later) =
        otherDue (some (convert (time earlier))) (convert (time later))) :
    decisions due time last items =
      decisions otherDue (fun item => convert (time item)) (last.map convert) items := by
  induction items generalizing last with
  | nil => rfl
  | cons first rest induction =>
      rcases List.pairwise_cons.mp between with ⟨fromFirst, later⟩
      rw [decisions, decisions, ← atFirst first List.mem_cons_self]
      split
      · rw [induction fromFirst later, Option.map_some]
      · rw [induction (fun item member => atFirst item (List.mem_cons_of_mem _ member))
          later]

def taken (decided : List (Item × Bool)) : List Item :=
  (decided.filter Prod.snd).map Prod.fst

@[simp] theorem taken_nil : taken ([] : List (Item × Bool)) = [] := rfl

@[simp] theorem taken_cons_true (item : Item) (rest : List (Item × Bool)) :
    taken ((item, true) :: rest) = item :: taken rest := rfl

@[simp] theorem taken_cons_false (item : Item) (rest : List (Item × Bool)) :
    taken ((item, false) :: rest) = taken rest := rfl

section Spacing

variable {interval : Int} {time : Item → Int}

def Apart (interval : Int) (time : Item → Int) (earlier later : Item) : Prop :=
  time earlier + interval ≤ time later

private theorem taken_after (nonnegative : 0 ≤ interval) {before : Int}
    {items : List Item} :
    ∀ item ∈ taken (decisions (elapsed interval) time (some before) items),
      before + interval ≤ time item := by
  induction items generalizing before with
  | nil => exact nofun
  | cons first rest induction =>
      intro item member
      rw [decisions] at member
      split at member
      next isDue =>
        have apart : interval ≤ time first - before := of_decide_eq_true isDue
        rcases List.mem_cons.mp member with rfl | later
        · omega
        · have further := induction item later
          omega
      next => exact induction item member

theorem taken_apart (nonnegative : 0 ≤ interval) (last : Option Int)
    (items : List Item) :
    (taken (decisions (elapsed interval) time last items)).Pairwise (Apart interval time) := by
  induction items generalizing last with
  | nil => exact .nil
  | cons first rest induction =>
      rw [decisions]
      split
      · exact .cons (taken_after nonnegative) (induction _)
      · exact induction _

end Spacing

end ClearSpace.Throttling
