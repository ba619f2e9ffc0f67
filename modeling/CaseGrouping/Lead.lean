import CaseGrouping.Reference

/-! Election of the lead case of a multiple.
-/

namespace CaseGrouping

/-- What a round changes: the membership, or only fields of members that stay. -/
inductive RoundKind where
  | membershipChange
  | fieldUpdate
  deriving DecidableEq, Repr

/-- The lead among candidates: the first, unless only fields change and the present lead is still
a candidate.
-/
def electLead (candidates : List CaseReference) (existing : Option CaseReference)
    (kind : RoundKind) : Option CaseReference :=
  match kind, existing with
  | .fieldUpdate, some lead => if lead ∈ candidates then some lead else candidates.head?
  | _, _ => candidates.head?

end CaseGrouping
