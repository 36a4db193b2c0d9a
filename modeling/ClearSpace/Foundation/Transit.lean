import Mathlib.Data.List.Perm.Basic
import Mathlib.Logic.Function.Basic

/-! # Things in transit

Items are handed to carriers, and each carrier hands over its load from the
front. Whatever was sent has arrived, was lost, or is still with one of them. -/

namespace ClearSpace

variable {Item : Type u} {Carrier : Type v}

/-- Nothing is made up and nothing is there twice. -/
def Conserved (sent lost arrived : List Item) (carried : Carrier → List Item) : Prop :=
  ∃ carriers : List Carrier, carriers.Nodup ∧
    (∀ carrier, carrier ∉ carriers → carried carrier = []) ∧
    sent.Perm (lost ++ arrived ++ carriers.flatMap carried)

namespace Conserved

variable {sent lost arrived : List Item} {carried : Carrier → List Item}

theorem nil : Conserved ([] : List Item) [] [] (fun _ : Carrier => []) :=
  ⟨[], .nil, fun _ _ => rfl, .nil⟩

theorem perm_of_empty (conserved : Conserved sent lost arrived carried)
    (empty : ∀ carrier, carried carrier = []) : sent.Perm (lost ++ arrived) := by
  rcases conserved with ⟨carriers, _, _, balance⟩
  have nothing : carriers.flatMap carried = [] :=
    List.flatMap_eq_nil_iff.mpr fun carrier _ => empty carrier
  rw [nothing, List.append_nil] at balance
  exact balance

/-- What has arrived was sent, and no more often than it was sent. -/
theorem arrived_subperm (conserved : Conserved sent lost arrived carried) :
    arrived.Subperm sent := by
  rcases conserved with ⟨carriers, _, _, balance⟩
  have inside : arrived.Sublist (lost ++ arrived ++ carriers.flatMap carried) :=
    (List.sublist_append_right lost arrived).trans (List.sublist_append_left _ _)
  exact inside.subperm.trans balance.symm.subperm

variable [DecidableEq Carrier]

theorem apart (conserved : Conserved sent lost arrived carried) (carrier : Carrier) :
    ∃ others : List Carrier, carrier ∉ others ∧ others.Nodup ∧
      (∀ other, other ≠ carrier → other ∉ others → carried other = []) ∧
      sent.Perm (lost ++ arrived ++ (carried carrier ++ others.flatMap carried)) := by
  rcases conserved with ⟨carriers, nodup, elsewhere, balance⟩
  refine ⟨carriers.erase carrier, nodup.not_mem_erase, nodup.erase carrier, ?_, ?_⟩
  · intro other different absent
    apply elsewhere
    intro member
    exact absent ((List.mem_erase_of_ne different).mpr member)
  · by_cases member : carrier ∈ carriers
    · have front := (List.perm_cons_erase member).flatMap_right carried
      rw [List.flatMap_cons] at front
      exact balance.trans (front.append_left _)
    · rw [elsewhere carrier member, List.erase_of_not_mem member, List.nil_append]
      exact balance

/-- Every change that concerns one carrier: whatever the others have, the new
books must balance if the old ones did. -/
theorem exchange (conserved : Conserved sent lost arrived carried) {carrier : Carrier}
    {nextSent nextLost nextArrived load : List Item}
    (balances : ∀ elsewhere,
      sent.Perm (lost ++ arrived ++ (carried carrier ++ elsewhere)) →
      nextSent.Perm (nextLost ++ nextArrived ++ (load ++ elsewhere))) :
    Conserved nextSent nextLost nextArrived (Function.update carried carrier load) := by
  rcases conserved.apart carrier with ⟨others, absent, nodup, elsewhere, balance⟩
  have sameOthers : others.flatMap (Function.update carried carrier load) =
      others.flatMap carried := by
    apply List.flatMap_congr
    intro other member
    rw [Function.update_of_ne]
    rintro rfl
    exact absent member
  refine ⟨carrier :: others, List.nodup_cons.mpr ⟨absent, nodup⟩, ?_, ?_⟩
  · intro other outside
    rcases not_or.mp (fun member => outside (List.mem_cons.mpr member)) with
      ⟨different, notOther⟩
    rw [Function.update_of_ne different]
    exact elsewhere other different notOther
  · rw [List.flatMap_cons, Function.update_self, sameOthers]
    exact balances _ balance

theorem load (conserved : Conserved sent lost arrived carried) {carrier : Carrier}
    (idle : carried carrier = []) (items : List Item) :
    Conserved (sent ++ items) lost arrived (Function.update carried carrier items) := by
  apply conserved.exchange
  intro elsewhere balance
  rw [idle, List.nil_append] at balance
  have shifted : (elsewhere ++ items).Perm (items ++ elsewhere) := List.perm_append_comm
  have all := (balance.append_right items).trans
    (by rw [List.append_assoc (lost ++ arrived)])
  exact all.trans (shifted.append_left _)

theorem arrive (conserved : Conserved sent lost arrived carried) {carrier : Carrier}
    {front back : List Item} (isLoad : carried carrier = front ++ back) :
    Conserved sent lost (arrived ++ front) (Function.update carried carrier back) := by
  apply conserved.exchange
  intro elsewhere balance
  rw [isLoad] at balance
  simpa only [List.append_assoc] using balance

theorem lose (conserved : Conserved sent lost arrived carried) {carrier : Carrier}
    {front back : List Item} (isLoad : carried carrier = front ++ back) :
    Conserved sent (lost ++ front) arrived (Function.update carried carrier back) := by
  apply conserved.exchange
  intro elsewhere balance
  rw [isLoad] at balance
  have swapped : (arrived ++ front).Perm (front ++ arrived) := List.perm_append_comm
  have moved := ((swapped.append_right (back ++ elsewhere)).append_left lost)
  simp only [List.append_assoc] at balance moved ⊢
  exact balance.trans moved

end Conserved

end ClearSpace
