import CaseGrouping.Proofs.Membership.Delta
import Mathlib.Data.Finset.Card

/-! Resolving a membership partitions the cases that are present or proposed, in order. Repetitions
in the lists that are compared do not matter beyond the first occurrence.
-/

namespace CaseGrouping.MembershipDelta

/-- (d.Partitions current requested matched) says that a delta splits the present, requested and
matched cases in three parts without repetitions: who joins follows the proposal, who stays or
leaves follows the present members.
-/
structure Partitions (d : MembershipDelta) (current requested matched : List CaseReference)
    : Prop where
  distinct : (d.toAttach ++ d.toDetach ++ d.unchanged).Nodup
  union
    : ∀ r,
        r ∈ d.toAttach ++ d.toDetach ++ d.unchanged
        ↔ r ∈ current ∨ r ∈ requested ∨ r ∈ matched
  touched : d.touched = (current ++ requested ++ matched).toFinset.card
  proposed : FirstOccurrences d.proposed (requested ++ matched) fun _ => True
  toAttach : d.toAttach = d.proposed.filter (· ∉ current)
  unchanged : FirstOccurrences d.unchanged current (· ∈ d.proposed)
  toDetach : FirstOccurrences d.toDetach current (· ∉ d.proposed)
  stays : d.isMembershipChange = false ↔ ∀ r, r ∈ current ↔ r ∈ d.proposed

variable {d : MembershipDelta} {current requested matched : List CaseReference}

/-- No case is in two parts of a split, nor twice in one. -/
theorem Splits.nodup_parts (splits : d.Splits current)
    : (d.toAttach ++ d.toDetach ++ d.unchanged).Nodup := by
  refine List.nodup_append'.mpr ⟨List.nodup_append'.mpr
    ⟨splits.toAttach_nodup, splits.toDetach_nodup, fun r joins leaves => ?_⟩,
    splits.unchanged_nodup, fun r moves stays => ?_⟩
  · exact (splits.mem_toAttach.mp joins).2 (splits.mem_toDetach.mp leaves).1
  · obtain ⟨member, proposed⟩ := splits.mem_unchanged.mp stays
    rcases List.mem_append.mp moves with joins | leaves
    · exact (splits.mem_toAttach.mp joins).2 member
    · exact (splits.mem_toDetach.mp leaves).2 proposed

/-- A case is in some part of a split if it is a member or proposed. -/
theorem Splits.mem_parts (splits : d.Splits current) {r : CaseReference}
    : r ∈ d.toAttach ++ d.toDetach ++ d.unchanged ↔ r ∈ current ∨ r ∈ d.proposed := by
  simp only [List.mem_append, splits.mem_toAttach, splits.mem_toDetach, splits.mem_unchanged]
  tauto

/-- Resolving gives a partition of the cases, by first occurrences on both sides. -/
theorem partitions_resolve (current requested matched : List CaseReference)
    : (resolve current requested matched).Partitions current requested matched := by
  have splits := splits_resolve current requested matched
  have union : ∀ r, r ∈ (resolve current requested matched).toAttach
        ++ (resolve current requested matched).toDetach
        ++ (resolve current requested matched).unchanged
      ↔ r ∈ current ∨ r ∈ requested ∨ r ∈ matched := fun r => by
    rw [splits.mem_parts, mem_proposed_resolve]
  have members := firstOccurrences_eraseDups current
  exact {
    distinct := splits.nodup_parts
    union
    touched := by
      have parts := List.toFinset_card_of_nodup splits.nodup_parts
      rw [touched, ← List.length_append, ← List.length_append, ← parts]
      congr 1
      ext r
      simpa only [List.mem_toFinset, List.mem_append, or_assoc] using union r
    proposed := firstOccurrences_eraseDups (requested ++ matched)
    toAttach := rfl
    unchanged := ⟨splits.mem_unchanged, members.order.filter _⟩
    toDetach := ⟨splits.mem_toDetach, members.order.filter _⟩
    stays := splits.isMembershipChange_eq
  }

/-- The delta that is resolved partitions the cases in order, and it is the only one that does. -/
theorem partitions_iff_resolved (d : MembershipDelta)
    (current requested matched : List CaseReference)
    : d.Partitions current requested matched ↔ d = resolve current requested matched := by
  constructor
  · intro parts
    have resolved := partitions_resolve current requested matched
    have proposed := parts.proposed.unique resolved.proposed
    have unchanged := parts.unchanged
    have toDetach := parts.toDetach
    have toAttach := parts.toAttach
    rw [proposed] at unchanged toDetach toAttach
    have unchanged := unchanged.unique resolved.unchanged
    have toDetach := toDetach.unique resolved.toDetach
    have toAttach := toAttach.trans resolved.toAttach.symm
    cases d
    simp_all
  · rintro rfl
    exact partitions_resolve current requested matched

end CaseGrouping.MembershipDelta
