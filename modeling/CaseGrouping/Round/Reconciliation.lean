import CaseGrouping.Lead
import CaseGrouping.Membership
import CaseGrouping.Round.Outcome
import CaseGrouping.Round.Propagation
import CaseGrouping.Round.Targeting

/-! Reconciliation of one multiple with a new membership: the cases are written, the members
follow from what was written, and the record is committed at the version it was read at.
On the way through the pool a lead whose flag could not be written is replaced first.
-/

namespace CaseGrouping

namespace PropagationPlan

/-- The write of a change, unless it would write nothing. -/
def writeUnlessEmpty (case : CaseReference) (change : ChangeSet) : Option CaseWrite :=
  if change.isEmpty then none else some ⟨case, change⟩

/-- The change of a member that stays: its lead flag, where that changes. -/
def keepChange (current : Multiple) (lead : Option CaseReference) (case : CaseReference)
    : ChangeSet :=
  let wasLead := (current.member? case).any (·.lead)
  let isLead := lead = some case
  if wasLead = isLead then .empty else .setLead isLead

/-- The writes that bring the cases of a multiple from its members to a new membership. -/
def reconciling (reference : MultipleReference) (current : Multiple) (delta : MembershipDelta)
    (lead : Option CaseReference) (targeting : Targeting) : PropagationPlan where
  detach := delta.toDetach.map fun r => ⟨r, .detach reference⟩
  write :=
    (delta.toAttach.filterMap fun r =>
      writeUnlessEmpty r (targeting.decorate r (.attach reference (lead = some r))))
    ++ delta.unchanged.filterMap fun r =>
      writeUnlessEmpty r (targeting.decorate r (keepChange current lead r))

/-- The lead flag that the plan writes to a case, if any; a case that leaves loses it. -/
def plannedLead? (p : PropagationPlan) (case : CaseReference) : Option Bool :=
  match p.write.findSome? fun w => if w.case = case then w.change.lead else none with
  | some lead => some lead
  | none => if p.detach.any (·.case = case) then some false else none

end PropagationPlan

/-- The members after propagation: the proposed ones without those that could not be attached,
then the present ones that could not be detached.
-/
def finalMembers (current : Multiple) (delta : MembershipDelta) (lead : Option CaseReference)
    (written : List CaseReference) (targeting : Targeting) : List Member :=
  let joined := delta.proposed.filter fun r => r ∉ delta.toAttach || r ∈ written
  let entries := joined.map fun r =>
    { case := r
      lead := lead = some r
      subGroup := targeting.tagFor r ((current.member? r).bind (·.subGroup)) (r ∈ written) }
  let kept := (delta.toDetach.filter (· ∉ written)).filterMap current.member?
  entries ++ kept.map fun m => { m with lead := false }

/-- The case has the lead flag after propagation: as planned if it was written, otherwise as
before.
-/
def leadClaim (current : Multiple) (plan : PropagationPlan) (written : List CaseReference)
    (case : CaseReference) : Bool :=
  match plan.plannedLead? case with
  | some planned => if case ∈ written then planned else current.leadCase? = some case
  | none => current.leadCase? = some case

/-- The members with the lead flag on one of them. -/
def withLead (members : List Member) (lead : Option CaseReference) : List Member :=
  members.map fun m => { m with lead := lead = some m.case }

/-- A search for a lead that has its flag: who is asked next, who was asked in vain, and with what
failures.
-/
structure LeadSearch (references : List CaseReference) where
  candidate : CaseReference
  excluded : List CaseReference := []
  failures : List Failure := []

namespace LeadSearch

variable {references : List CaseReference}

/-- Those who are left to be asked when the candidate was asked in vain. -/
def remaining (l : LeadSearch references) : List CaseReference :=
  references.filter (· ∉ l.candidate :: l.excluded)

/-- The search after the candidate was asked in vain, unless nobody is left. -/
def next? (l : LeadSearch references) (failures : List Failure) : Option (LeadSearch references) :=
  (electLead l.remaining none .membershipChange).map fun r =>
    { candidate := r
      excluded := l.candidate :: l.excluded
      failures := l.failures ++ failures }

/-- The first of those who are left is asked next, and he is not left any more. -/
theorem of_next {l next : LeadSearch references} {failures : List Failure}
    (moves : l.next? failures = some next)
    : l.remaining.head? = some next.candidate
      ∧ next.remaining = l.remaining.filter (· != next.candidate)
      ∧ next.failures = l.failures ++ failures := by
  obtain ⟨r, elected, rfl⟩ := Option.map_eq_some_iff.mp moves
  refine ⟨elected, ?_, rfl⟩
  unfold remaining
  rw [List.filter_filter]
  exact List.filter_congr fun q _ => Bool.eq_iff_iff.mpr (by simp)

/-- Nobody is asked again. -/
theorem length_remaining_of_next {l next : LeadSearch references} {failures : List Failure}
    (moves : l.next? failures = some next)
    : next.remaining.length < l.remaining.length := by
  obtain ⟨head, left, _⟩ := of_next moves
  rw [left]
  exact List.length_filter_lt_length_iff_exists.mpr
    ⟨next.candidate, List.mem_of_head? head, by simp⟩

/-- The search begins with the flagged member, or with the first one if none is flagged. -/
def start? (members : List Member) : Option (LeadSearch (members.map Member.case)) :=
  ((members.find? (·.lead)).or members.head?).map fun m => { candidate := m.case }

end LeadSearch

namespace Coordinator

/-- Asks one candidate after another until one has the lead flag or takes it. If nobody does, the
first of all is lead nevertheless.
-/
@[semireducible]
def seekLead (k : Coordinator) {references : List CaseReference} (claims : CaseReference → Bool)
    (l : LeadSearch references) : StateM Stores (Option CaseReference × List Failure) :=
  if claims l.candidate then return (some l.candidate, l.failures)
  else do
    let outcome ← k.fanOutPlan { write := [⟨l.candidate, .setLead true⟩] }
    if l.candidate ∈ outcome.written then return (some l.candidate, l.failures)
    else
      match _ : l.next? outcome.failures with
      | some next => k.seekLead claims next
      | none => return (references.head?, l.failures ++ outcome.failures)
termination_by l.remaining.length
decreasing_by exact LeadSearch.length_remaining_of_next ‹_›

/-- Makes sure that the lead among the members has its flag. -/
def repairLead (k : Coordinator) (members : List Member) (claims : CaseReference → Bool)
    : StateM Stores (List Member × List Failure) :=
  match LeadSearch.start? members with
  | some l => do
      let (lead, failures) ← k.seekLead claims l
      return (withLead members lead, failures)
  | none => return (withLead members none, [])

/-- The members of a multiple after its writes, with the lead repaired unless there is nobody or the
writes are still in the queue.
-/
def settleMembers (k : Coordinator) (current : Multiple) (delta : MembershipDelta)
    (lead : Option CaseReference) (targeting : Targeting) (plan : PropagationPlan)
    (written : List CaseReference) (mode : PropagationMode)
    : Round (List Member × List Failure) :=
  let members := finalMembers current delta lead written targeting
  if mode = .durableQueue ∨ members = [] then return (members, [])
  else do
    Round.check current.checkReference
    Round.attempt (k.repairLead members (leadClaim current plan written))

/-- Commits a record with its members as settled, its filter result cleared. -/
def commitMembers (k : Coordinator) (m : Multiple) (members : List Member)
    (expected : Option UInt64) : Round Multiple :=
  .multiples (Stores.commit k.scope (m.withMembers members).clearSearch expected)

end Coordinator

/-- A multiple under its reference, with the membership, lead and values it is to have, the
version its record was read at, and the failures so far.
-/
structure Reconciliation where
  multiple : Multiple
  reference : MultipleReference
  delta : MembershipDelta
  lead : Option CaseReference
  targeting : Targeting := {}
  mode : PropagationMode
  expected : Option UInt64
  failures : List Failure := []

namespace Coordinator

/-- Propagates and commits the reconciliation of one multiple. -/
def reconcile (k : Coordinator) (r : Reconciliation) : Round RoundOutcome := do
  Round.check r.multiple.checkReference
  let plan := PropagationPlan.reconciling r.reference r.multiple r.delta r.lead r.targeting
  let done ← k.propagate r.reference r.expected plan r.mode
  let (members, settling) ←
    k.settleMembers r.multiple r.delta r.lead r.targeting plan done.written r.mode
  let committed ← k.commitMembers r.multiple members r.expected
  return {
    multiple := committed
    failures := r.failures ++ done.failures ++ settling
    mode := r.mode
    enqueuedJobs := done.acknowledgements.length }

end Coordinator

end CaseGrouping
