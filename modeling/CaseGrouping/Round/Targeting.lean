import CaseGrouping.Change

/-! Field values and a tag that a round writes to some of the cases.
-/

namespace CaseGrouping

/-- The cases that get the values and the tag. -/
structure Targeting where
  cases : List CaseReference := []
  edits : Fields := ∅
  subGroup : Option String := none

namespace Targeting

/-- Adds the values and the tag to the change of a case that gets them. -/
def decorate (t : Targeting) (case : CaseReference) (change : ChangeSet) : ChangeSet :=
  if case ∈ t.cases then
    let change := change.withFields t.edits
    match t.subGroup with
    | some tag => change.withSubGroup tag
    | none => change
  else change

/-- The tag for the entry of a member: the new one if it was written, otherwise the old one. -/
def tagFor (t : Targeting) (case : CaseReference) (previous : Option String) (written : Bool)
    : Option String :=
  match t.subGroup with
  | some tag => if written && case ∈ t.cases then some tag else previous
  | none => previous

end Targeting

end CaseGrouping
