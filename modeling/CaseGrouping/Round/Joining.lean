import CaseGrouping.Round.Basic

/-! The check of cases that are about to join a multiple: a case has to be stored, and must not
belong to another multiple.
-/

namespace CaseGrouping

/-- The cases that may join, and those that may not with the reasons. -/
structure Joiners where
  eligible : List CaseReference := []
  failures : List Failure := []

namespace Joiners

/-- What is known of the cases that were asked for: cases or errors, the first of a case counts. -/
abbrev Findings :=
  List (CaseReference × Except CaseStoreError SingleCase)

/-- The findings of a search. -/
def findingsOf (cases : List SingleCase) : Findings :=
  cases.map fun c => (c.reference, .ok c)

/-- An answer that says no more than that the case is not there is no finding. -/
def isFinding : Except CaseStoreError SingleCase → Bool
  | .error (.notFound _) => false
  | _ => true

/-- Why a case may not join a multiple, if so. -/
def refusal? (multiple : MultipleReference) (findings : Findings) (case : CaseReference)
    : Option String :=
  match findings.find? (·.1 = case) with
  | none => some "not found"
  | some (_, .error e) => some e.message
  | some (_, .ok c) =>
      if c.belongsElsewhere (some multiple) then
        some ("already belongs to multiple " ++ (c.multiple.map Reference.text).getD "")
      else none

/-- Splits candidates by what was found. -/
def ofFindings (multiple : MultipleReference) (candidates : List CaseReference)
    (findings : Findings) : Joiners where
  eligible := candidates.filter fun r => (refusal? multiple findings r).isNone
  failures := candidates.filterMap fun r => (refusal? multiple findings r).map (⟨r, ·⟩)

/-- Looks up candidates with one search, or one by one if the search fails. -/
def look (scope : CaseScope) (candidates : List CaseReference) : StateM Stores Findings := do
  match ← Stores.search scope (.references candidates) with
  | .ok cases => return findingsOf cases
  | .error _ =>
      let answers ← candidates.mapM fun r => do return (r, ← Stores.retrieve scope r)
      return answers.filter fun (_, answer) => isFinding answer

/-- Checks candidates; without any, no store is asked. -/
def check (scope : CaseScope) (multiple : MultipleReference) (candidates : List CaseReference)
    : StateM Stores Joiners :=
  if candidates.isEmpty then return {}
  else do return ofFindings multiple candidates (← look scope candidates)

end Joiners

end CaseGrouping
