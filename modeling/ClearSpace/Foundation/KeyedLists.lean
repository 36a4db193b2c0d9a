import Mathlib.Data.List.Basic
import Mathlib.Data.List.Pairwise

/-! # Lists with distinct keys

Positions in a list whose entries carry pairwise different keys can be named by
the key instead. -/

namespace ClearSpace.KeyedLists

variable {α : Type u} {κ : Type v} {key : α → κ} {entries : List α}

def DistinctBy (key : α → κ) (entries : List α) : Prop :=
  entries.Pairwise fun left right => key left ≠ key right

theorem DistinctBy.index_eq (distinct : DistinctBy key entries)
    {left right : Nat} {first second : α} (leftAt : entries[left]? = some first)
    (rightAt : entries[right]? = some second) (sameKey : key first = key second) :
    left = right := by
  rcases List.getElem?_eq_some_iff.mp leftAt with ⟨leftBound, rfl⟩
  rcases List.getElem?_eq_some_iff.mp rightAt with ⟨rightBound, rfl⟩
  have apart := List.pairwise_iff_getElem.mp distinct
  rcases Nat.lt_trichotomy left right with before | equal | after
  · exact absurd sameKey (apart left right leftBound rightBound before)
  · exact equal
  · exact absurd sameKey.symm (apart right left rightBound leftBound after)

theorem DistinctBy.eq_of_key_eq (distinct : DistinctBy key entries)
    {first second : α} (firstMem : first ∈ entries) (secondMem : second ∈ entries)
    (sameKey : key first = key second) : first = second := by
  rcases List.mem_iff_getElem?.mp firstMem with ⟨left, leftAt⟩
  rcases List.mem_iff_getElem?.mp secondMem with ⟨right, rightAt⟩
  have sameIndex := distinct.index_eq leftAt rightAt sameKey
  subst sameIndex
  exact Option.some.inj (leftAt.symm.trans rightAt)

variable [DecidableEq κ]

theorem DistinctBy.sublist_eq_filter (distinct : DistinctBy key entries)
    {part : List α} (sublist : part.Sublist entries) :
    part = entries.filter fun entry => key entry ∈ part.map key := by
  induction sublist with
  | slnil => rfl
  | @cons part rest entry sublist induction =>
      have apart := List.pairwise_cons.mp distinct
      have absent : key entry ∉ part.map key := by
        intro named
        rcases List.mem_map.mp named with ⟨other, member, sameKey⟩
        exact apart.1 other (sublist.subset member) sameKey.symm
      rw [List.filter_cons_of_neg (by simpa using absent)]
      exact induction apart.2
  | @cons_cons part rest entry sublist induction =>
      have apart := List.pairwise_cons.mp distinct
      rw [List.filter_cons_of_pos (by simp)]
      apply congrArg (entry :: ·)
      refine (induction apart.2).trans (List.filter_congr ?_)
      intro other member
      have different : key other ≠ key entry := fun same => apart.1 other member same.symm
      simp [different]

theorem DistinctBy.sublist_eq (distinct : DistinctBy key entries)
    {part other : List α} (isPart : part.Sublist entries)
    (otherPart : other.Sublist entries)
    (sameKeys : ∀ name, name ∈ part.map key ↔ name ∈ other.map key) : part = other := by
  rw [distinct.sublist_eq_filter isPart, distinct.sublist_eq_filter otherPart]
  apply List.filter_congr
  intro entry _
  rw [decide_eq_decide]
  exact sameKeys (key entry)

theorem DistinctBy.find?_key (distinct : DistinctBy key entries) {entry : α}
    (member : entry ∈ entries) :
    entries.find? (fun other => key other = key entry) = some entry := by
  have isFound : (entries.find? fun other => key other = key entry).isSome = true :=
    List.find?_isSome.mpr ⟨entry, member, by simp⟩
  rcases Option.isSome_iff_exists.mp isFound with ⟨other, found⟩
  have sameKey : key other = key entry := by simpa using List.find?_some found
  rw [found, distinct.eq_of_key_eq (List.mem_of_find?_eq_some found) member sameKey]

def updateBy (key : α → κ) (entries : List α) (selected : κ) (change : α → α) :
    List α :=
  entries.map fun entry => if key entry = selected then change entry else entry

theorem DistinctBy.modify_eq_updateBy (distinct : DistinctBy key entries)
    {index : Nat} {selected : κ} (change : α → α)
    (found : (entries[index]?).map key = some selected) :
    entries.modify index change = updateBy key entries selected change := by
  rcases Option.map_eq_some_iff.mp found with ⟨target, targetAt, targetKey⟩
  apply List.ext_getElem?
  intro position
  rw [List.getElem?_modify, updateBy, List.getElem?_map]
  cases entryAt : entries[position]? with
  | none => rfl
  | some entry =>
      by_cases here : index = position
      · subst here
        have sameEntry : target = entry := Option.some.inj (targetAt.symm.trans entryAt)
        subst sameEntry
        simp [targetKey]
      · have otherKey : key entry ≠ selected := fun sameKey =>
          here (distinct.index_eq targetAt entryAt (targetKey.trans sameKey.symm))
        simp [here, otherKey]

theorem mem_updateBy {selected : κ} {change : α → α} {result : α} :
    result ∈ updateBy key entries selected change ↔
      ∃ entry ∈ entries,
        (if key entry = selected then change entry else entry) = result := by
  simp [updateBy]

theorem exists_updateBy {Trait : α → Prop} {selected : κ} {change : α → α} :
    (∃ entry ∈ updateBy key entries selected change, Trait entry) ↔
      ∃ entry ∈ entries,
        Trait (if key entry = selected then change entry else entry) := by
  simp [updateBy]

theorem map_updateBy {β : Type w} (trait : α → β) (selected : κ)
    {change : α → α} (kept : ∀ entry, trait (change entry) = trait entry) :
    (updateBy key entries selected change).map trait = entries.map trait := by
  rw [updateBy, List.map_map]
  apply List.map_congr_left
  intro entry _
  by_cases here : key entry = selected <;> simp [here, kept]

theorem getLast?_filter (chosen : α → Bool) {position : Nat} {entry : α}
    (found : entries[position]? = some entry) (isChosen : chosen entry = true) :
    ∃ later last, position ≤ later ∧ entries[later]? = some last ∧
      (entries.filter chosen).getLast? = some last := by
  have atStart : (entries.drop position)[0]? = some entry := by
    rw [List.getElem?_drop]
    exact found
  have member : entry ∈ (entries.drop position).filter chosen :=
    List.mem_filter.mpr ⟨List.mem_of_getElem? atStart, isChosen⟩
  rcases Option.isSome_iff_exists.mp
    (List.getLast?_isSome.mpr (List.ne_nil_of_mem member)) with ⟨last, isLast⟩
  rcases List.mem_iff_getElem?.mp
    (List.mem_filter.mp (List.mem_of_getLast? isLast)).1 with ⟨offset, atOffset⟩
  refine ⟨position + offset, last, Nat.le_add_right .., ?_, ?_⟩
  · rw [← List.getElem?_drop]
    exact atOffset
  · rw [← List.take_append_drop position entries, List.filter_append,
      List.getLast?_append, isLast]
    rfl

end ClearSpace.KeyedLists
