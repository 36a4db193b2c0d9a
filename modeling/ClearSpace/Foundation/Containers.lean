import Mathlib.Algebra.Ring.Nat
import Mathlib.Data.List.AList
import Mathlib.Data.List.Nodup

/-! # Unordered containers

Hash sets and hash maps as duplicate-free lists. The list order stands for the
unspecified iteration order of the container, so results that a program must
not owe to that order are stated up to permutation. -/

namespace ClearSpace

/-! ## Sets -/

/-- A finite set together with the order in which it is iterated. -/
structure UnorderedSet (α : Type u) where
  elements : List α
  nodup : elements.Nodup
  deriving DecidableEq, Repr

namespace UnorderedSet

variable {α : Type u}

def empty : UnorderedSet α where
  elements := []
  nodup := .nil

instance : EmptyCollection (UnorderedSet α) := ⟨empty⟩

instance : Inhabited (UnorderedSet α) := ⟨empty⟩

instance : Membership α (UnorderedSet α) := ⟨fun set value => value ∈ set.elements⟩

theorem mem_def {set : UnorderedSet α} {value : α} :
    value ∈ set ↔ value ∈ set.elements := Iff.rfl

def size (set : UnorderedSet α) : Nat := set.elements.length

@[simp] theorem not_mem_empty (value : α) : value ∉ (∅ : UnorderedSet α) :=
  List.not_mem_nil

variable [DecidableEq α]

instance (value : α) (set : UnorderedSet α) : Decidable (value ∈ set) :=
  inferInstanceAs (Decidable (value ∈ set.elements))

def insert (set : UnorderedSet α) (value : α) : UnorderedSet α where
  elements := set.elements.insert value
  nodup := set.nodup.insert

def erase (set : UnorderedSet α) (value : α) : UnorderedSet α where
  elements := set.elements.erase value
  nodup := set.nodup.erase value

@[simp] theorem mem_insert {set : UnorderedSet α} {value other : α} :
    other ∈ set.insert value ↔ other = value ∨ other ∈ set :=
  List.mem_insert_iff

@[simp] theorem mem_erase {set : UnorderedSet α} {value other : α} :
    other ∈ set.erase value ↔ other ≠ value ∧ other ∈ set :=
  set.nodup.mem_erase_iff

def others (set : UnorderedSet α) (value : α) : List α :=
  set.elements.filter fun other => decide (other ≠ value)

@[simp] theorem mem_others {set : UnorderedSet α} {value other : α} :
    other ∈ set.others value ↔ other ≠ value ∧ other ∈ set := by
  simp [others, mem_def, and_comm]

theorem others_nodup (set : UnorderedSet α) (value : α) :
    (set.others value).Nodup :=
  set.nodup.filter _

/-- Removing an element first does not change what is left besides it. -/
@[simp] theorem others_erase (set : UnorderedSet α) (value : α) :
    (set.erase value).others value = set.others value := by
  simp only [others, erase]
  rw [set.nodup.erase_eq_filter, List.filter_filter]
  apply List.filter_congr
  intro other _
  by_cases equal : other = value <;> simp [equal]

end UnorderedSet

/-! ## Maps -/

abbrev UnorderedMap (Key : Type u) (Value : Type v) := AList fun _ : Key => Value

namespace UnorderedMap

variable {Key : Type u} {Value : Type v} [DecidableEq Key]

theorem lookup_insert_eq (map : UnorderedMap Key Value) (key other : Key)
    (value : Value) :
    (map.insert key value).lookup other =
      if other = key then some value else map.lookup other := by
  by_cases equal : other = key
  · subst other
    simp
  · rw [if_neg equal, AList.lookup_insert_ne equal]

theorem lookup_erase_eq (map : UnorderedMap Key Value) (key other : Key) :
    (map.erase key).lookup other =
      if other = key then none else map.lookup other := by
  by_cases equal : other = key
  · subst other
    simp
  · rw [if_neg equal, AList.lookup_erase_ne equal]

def total (weight : Value → Nat) (map : UnorderedMap Key Value) : Nat :=
  (map.entries.map fun entry => weight entry.2).sum

theorem total_insert {map : UnorderedMap Key Value} {key : Key} {old : Value}
    (found : map.lookup key = some old) (weight : Value → Nat) (value : Value) :
    total weight (map.insert key value) + weight old = total weight map + weight value := by
  have isKey : key ∈ map.entries.keys := AList.lookup_isSome.mp (by rw [found]; rfl)
  rcases List.exists_of_kerase isKey with ⟨held, front, back, _, split, erased⟩
  have isHeld : held = old := by
    have member : (⟨key, held⟩ : Sigma fun _ : Key => Value) ∈ map.entries := by
      rw [split]
      exact List.mem_append_right _ List.mem_cons_self
    exact Option.some.inj ((AList.mem_lookup_iff.mpr member).symm.trans found)
  rw [total, total, AList.entries_insert, erased, split, isHeld]
  simp only [List.map_cons, List.map_append, List.sum_cons, List.sum_append]
  omega

end UnorderedMap

end ClearSpace
