import ClearSpace.Foundation.KeyedLists
import Mathlib.Data.List.DropRight
import Mathlib.Data.List.Sort
import Mathlib.Order.Basic

/-! # Rankings

Entries listed from the highest score down, with ties in any order, and the
entries that are kept when such a listing is cut off. -/

namespace ClearSpace

open KeyedLists

/-- A listing of the entries in which no entry is followed by a higher one. -/
structure Ranked {α : Type u} {σ : Type v} [LE σ] (score : α → σ)
    (entries ranked : List α) : Prop where
  perm : ranked.Perm entries
  descending : ranked.Pairwise fun first second => score second ≤ score first

instance {α : Type u} {σ : Type v} [LE σ] [DecidableLE σ] [DecidableEq α]
    (score : α → σ) (entries ranked : List α) :
    Decidable (Ranked score entries ranked) :=
  decidable_of_iff
    (ranked.Perm entries ∧
      ranked.Pairwise fun first second => score second ≤ score first)
    ⟨fun both => ⟨both.1, both.2⟩, fun listing => ⟨listing.perm, listing.descending⟩⟩

namespace Ranked

variable {α : Type u} {κ : Type v} {σ : Type w} [LinearOrder σ] {score : α → σ}
  {key : α → κ} {entries ranked : List α}

private theorem above_cut (listing : Ranked score entries ranked) {count : Nat}
    {kept gone : α} (isKept : kept ∈ ranked.take count)
    (isGone : gone ∈ ranked.drop count) : score gone ≤ score kept := by
  have descending := listing.descending
  rw [← List.take_append_drop count ranked, List.pairwise_append] at descending
  exact descending.2.2 kept isKept gone isGone

theorem eq_reverse (listing : Ranked score entries ranked)
    (increasing : entries.Pairwise fun first second => score first < score second) :
    ranked = entries.reverse := by
  have reversed : entries.reverse.Pairwise
      fun first second => score second < score first :=
    List.pairwise_reverse.mpr increasing
  have strict : ranked.Pairwise fun first second => score second < score first := by
    have apart : ranked.Pairwise fun first second => score first ≠ score second := by
      apply List.Pairwise.perm _ listing.perm.symm
      · intro first second different
        exact different.symm
      · exact increasing.imp ne_of_lt
    apply (listing.descending.and apart).imp
    intro first second both
    exact lt_of_le_of_ne both.1 both.2.symm
  apply List.Perm.eq_of_pairwise _ strict reversed
    (listing.perm.trans entries.reverse_perm.symm)
  intro first second _ _ below above
  exact absurd below (lt_asymm above)

variable [DecidableEq κ]

def kept (key : α → κ) (entries ranked : List α) (count : Nat) : List α :=
  entries.filter fun entry => key entry ∈ (ranked.take count).map key

theorem mem_kept (listing : Ranked score entries ranked)
    (distinct : DistinctBy key entries) {count : Nat} {entry : α} :
    entry ∈ kept key entries ranked count ↔ entry ∈ ranked.take count := by
  rw [kept, List.mem_filter, decide_eq_true_eq, List.mem_map]
  constructor
  · intro both
    rcases both with ⟨member, other, otherTaken, sameKey⟩
    have otherMem := listing.perm.mem_iff.mp (List.mem_of_mem_take otherTaken)
    rw [← distinct.eq_of_key_eq otherMem member sameKey]
    exact otherTaken
  · intro taken
    exact ⟨listing.perm.mem_iff.mp (List.mem_of_mem_take taken), entry, taken, rfl⟩

theorem kept_perm (listing : Ranked score entries ranked)
    (distinct : DistinctBy key entries) (count : Nat) :
    (kept key entries ranked count).Perm (ranked.take count) := by
  have nodup : entries.Nodup := by
    apply distinct.imp
    intro first second different same
    exact different (congrArg key same)
  have takenNodup : (ranked.take count).Nodup :=
    (listing.perm.nodup_iff.mpr nodup).sublist (List.take_sublist _ _)
  apply (List.perm_ext_iff_of_nodup (nodup.filter _) takenNodup).mpr
  intro entry
  exact listing.mem_kept distinct

theorem kept_above (listing : Ranked score entries ranked)
    (distinct : DistinctBy key entries) {count : Nat} {stays goes : α}
    (isKept : stays ∈ kept key entries ranked count) (member : goes ∈ entries)
    (isGone : goes ∉ kept key entries ranked count) : score goes ≤ score stays := by
  rw [listing.mem_kept distinct] at isKept isGone
  have listed := listing.perm.mem_iff.mpr member
  rw [← List.take_append_drop count ranked, List.mem_append] at listed
  exact listing.above_cut isKept (listed.resolve_left isGone)

theorem kept_eq_rtake (listing : Ranked score entries ranked)
    (distinct : DistinctBy key entries)
    (increasing : entries.Pairwise fun first second => score first < score second)
    (count : Nat) : kept key entries ranked count = entries.rtake count := by
  apply distinct.sublist_eq List.filter_sublist (List.drop_sublist _ _)
  intro name
  change name ∈ (kept key entries ranked count).map key ↔
    name ∈ (entries.rtake count).map key
  rw [((listing.kept_perm distinct count).map key).mem_iff,
    listing.eq_reverse increasing, entries.rtake_eq_reverse_take_reverse,
    List.map_reverse, List.mem_reverse]

end Ranked

end ClearSpace
