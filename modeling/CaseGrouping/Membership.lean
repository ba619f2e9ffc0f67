import CaseGrouping.Reference

/-! The members that a round proposes, compared with those there are. Order is kept everywhere:
the proposal follows the caller, what stays or leaves follows the present members.
-/

namespace CaseGrouping

/-- The requested cases and then the matched ones, each at its first occurrence. -/
def orderedUnion (requested matched : List CaseReference) : List CaseReference :=
  (requested ++ matched).eraseDups

/-- A proposed membership split against the present one. -/
structure MembershipDelta where
  toAttach : List CaseReference
  toDetach : List CaseReference
  unchanged : List CaseReference
  proposed : List CaseReference
  deriving DecidableEq

namespace MembershipDelta

/-- Compares the union of requested and matched cases with the present members. -/
def resolve (current requested matched : List CaseReference) : MembershipDelta :=
  let proposed := orderedUnion requested matched
  let present := current.eraseDups
  { toAttach := proposed.filter (· ∉ current)
    toDetach := present.filter (· ∉ proposed)
    unchanged := present.filter (· ∈ proposed)
    proposed := proposed }

/-- A case joins or leaves. -/
def isMembershipChange (d : MembershipDelta) : Bool :=
  !d.toAttach.isEmpty || !d.toDetach.isEmpty

/-- The number of cases that join, leave or stay. -/
def touched (d : MembershipDelta) : Nat :=
  d.toAttach.length + d.toDetach.length + d.unchanged.length

end MembershipDelta

end CaseGrouping
