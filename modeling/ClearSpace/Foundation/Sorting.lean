import Mathlib.Data.List.Sort

/-! # Sorting by a comparator

The contract of `std::sort`: some permutation of the input in which no element
is less than one before it. Elements that the comparator does not tell apart may
end up in any order. -/

namespace ClearSpace

/-- What a sort by `less` may make of `input`. -/
structure StdSorted {α : Type u} (less : α → α → Bool) (input output : List α) :
    Prop where
  perm : output.Perm input
  ordered : output.Pairwise fun first second => less second first = false

namespace StdSorted

variable {α : Type u} {less : α → α → Bool} {input output : List α}

/-- A comparator that tells the elements apart leaves only one order. -/
theorem unique (tellsApart : ∀ left ∈ input, ∀ right ∈ input,
      less left right = false → less right left = false → left = right)
    (sorted : StdSorted less input output) {otherInput other : List α}
    (otherSorted : StdSorted less otherInput other) (same : otherInput.Perm input) :
    other = output := by
  apply List.Perm.eq_of_pairwise _ otherSorted.ordered sorted.ordered
  · exact otherSorted.perm.trans (same.trans sorted.perm.symm)
  · intro left right leftMem rightMem notAfter notBefore
    have leftIn := same.mem_iff.mp (otherSorted.perm.mem_iff.mp leftMem)
    have rightIn := sorted.perm.mem_iff.mp rightMem
    exact tellsApart left leftIn right rightIn notBefore notAfter

theorem insertionSort {below : α → α → Prop} [DecidableRel below] [Std.Total below]
    [IsTrans α below] (agrees : ∀ left right, below left right → less right left = false)
    (input : List α) : StdSorted less input (input.insertionSort below) where
  perm := List.perm_insertionSort below input
  ordered := by
    apply (List.pairwise_insertionSort below input).imp
    exact agrees _ _

end StdSorted

end ClearSpace
