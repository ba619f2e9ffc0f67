import CaseGrouping.Proofs.FanOut.Delivery

/-! Plans that go through the pool: the writes of both phases are delivered, as long as they are to
different cases.
-/

namespace CaseGrouping

/-- All writes of a plan, those by which cases leave first. -/
def PropagationPlan.writes (p : PropagationPlan) : List CaseWrite :=
  p.detach ++ p.write

-----------------------------------------------------------------------------------------
-- Deliveries one after the other
-----------------------------------------------------------------------------------------

/-- The faults of two batches of writes to different cases. -/
def faultsOf (f g : CaseReference → Option Failure) (r : CaseReference) : Option Failure :=
  f r <|> g r

section Batches

variable {f g : CaseReference → Option Failure} {ws vs : List CaseWrite}
  {before between after : Register CaseReference SingleCase}

/-- A case that a batch does not write to has no fault in it. -/
theorem Delivered.free (delivered : Delivered f ws before after) {r : CaseReference}
    (absent : r ∉ ws.map CaseWrite.case)
    : f r = none := by
  cases failed : f r with
  | none => rfl
  | some failure => exact absurd (delivered.named failed).2 absent

/-- Only the batch that writes to a case decides on its fault. -/
theorem Delivered.faultsOf_left (next : Delivered g vs between after) {r : CaseReference}
    (absent : r ∉ vs.map CaseWrite.case)
    : faultsOf f g r = f r := by
  rw [faultsOf, next.free absent]
  cases f r <;> rfl

theorem Delivered.faultsOf_right (first : Delivered f ws before between) {r : CaseReference}
    (absent : r ∉ ws.map CaseWrite.case)
    : faultsOf f g r = g r := by
  rw [faultsOf, first.free absent]
  rfl

/-- Batches that are delivered one after the other are delivered as one, if no case is written to
by both.
-/
theorem Delivered.append (first : Delivered f ws before between)
    (next : Delivered g vs between after)
    (apart : (ws.map CaseWrite.case).Disjoint (vs.map CaseWrite.case))
    : Delivered (faultsOf f g) (ws ++ vs) before after := by
  have inFirst : ∀ {w}, w ∈ ws → w.case ∉ vs.map CaseWrite.case := fun member =>
    apart (List.mem_map_of_mem member)
  have inNext : ∀ {w}, w ∈ vs → w.case ∉ ws.map CaseWrite.case := fun member other =>
    apart other (List.mem_map_of_mem member)
  refine ⟨?_, ?_, ?_, ?_⟩
  · intro r failure failed
    rw [List.map_append, List.mem_append]
    cases own : f r with
    | some _ =>
        have same := first.named own
        rw [faultsOf, own] at failed
        cases failed
        exact ⟨same.1, .inl same.2⟩
    | none =>
        rw [faultsOf, own] at failed
        have same := next.named failed
        exact ⟨same.1, .inr same.2⟩
  · intro w member free
    rcases List.mem_append.mp member with member | member
    · rw [next.faultsOf_left (inFirst member)] at free
      obtain ⟨c, stored, written⟩ := first.applied member free
      exact ⟨c, stored, (next.untouched (inFirst member)).trans written⟩
    · rw [first.faultsOf_right (inNext member)] at free
      obtain ⟨c, stored, written⟩ := next.applied member free
      exact ⟨c, (first.untouched (inNext member)).symm.trans stored, written⟩
  · intro r failure failed
    cases own : f r with
    | some _ =>
        have here := (first.named own).2
        exact (next.untouched (apart here)).trans (first.refused own)
    | none =>
        rw [faultsOf, own] at failed
        have here := (next.named failed).2
        exact (next.refused failed).trans (first.untouched fun other => apart other here)
  · intro r absent
    rw [List.map_append, List.mem_append, not_or] at absent
    exact (next.untouched absent.2).trans (first.untouched absent.1)

/-- The propagation of two such batches lists what each of them comes to. -/
theorem Propagation.ofFaults_append (first : Delivered f ws before between)
    (next : Delivered g vs between after)
    (apart : (ws.map CaseWrite.case).Disjoint (vs.map CaseWrite.case))
    : Propagation.ofFaults (faultsOf f g) (ws ++ vs)
      = { written := (ofFaults f ws).written ++ (ofFaults g vs).written
          failures := (ofFaults f ws).failures ++ (ofFaults g vs).failures } := by
  have left : ∀ r ∈ ws.map CaseWrite.case, faultsOf f g r = f r := fun r member =>
    next.faultsOf_left (apart member)
  have right : ∀ r ∈ vs.map CaseWrite.case, faultsOf f g r = g r := fun r member =>
    first.faultsOf_right fun other => apart other member
  have wroteLeft : ∀ r ∈ ws.map CaseWrite.case, (faultsOf f g r).isNone = (f r).isNone :=
    fun r member => by rw [left r member]
  have wroteRight : ∀ r ∈ vs.map CaseWrite.case, (faultsOf f g r).isNone = (g r).isNone :=
    fun r member => by rw [right r member]
  simp only [ofFaults, List.map_append, List.filter_append, List.filterMap_append]
  rw [List.filter_congr wroteLeft, List.filter_congr wroteRight, List.filterMap_congr left,
    List.filterMap_congr right]

end Batches

-----------------------------------------------------------------------------------------
-- Written cases and failures
-----------------------------------------------------------------------------------------

namespace Propagation

variable {fault : CaseReference → Option Failure} {writes : List CaseWrite} {r : CaseReference}

theorem mem_written_ofFaults
    : r ∈ (ofFaults fault writes).written ↔ r ∈ writes.map CaseWrite.case ∧ fault r = none := by
  simp only [ofFaults, List.mem_filter, Option.isNone_iff_eq_none]

/-- A case with a fault is named among the failures. -/
theorem mem_failures_ofFaults {before after : Register CaseReference SingleCase}
    (delivered : Delivered fault writes before after)
    : r ∈ (ofFaults fault writes).failures.map Failure.case ↔ (fault r).isSome := by
  constructor
  · intro member
    obtain ⟨failure, listed, rfl⟩ := List.mem_map.mp member
    obtain ⟨q, _, failed⟩ := List.mem_filterMap.mp listed
    rw [(delivered.named failed).1, failed]
    rfl
  · intro failed
    obtain ⟨failure, failed⟩ := Option.isSome_iff_exists.mp failed
    obtain ⟨same, written⟩ := delivered.named failed
    exact List.mem_map.mpr ⟨failure, List.mem_filterMap.mpr ⟨r, written, failed⟩, same⟩

end Propagation

-----------------------------------------------------------------------------------------
-- Plans
-----------------------------------------------------------------------------------------

namespace Coordinator

theorem fanOutPlan_wrote (k : Coordinator) (plan : PropagationPlan) (s : Stores)
    : s.Wrote (k.fanOutPlan plan s).2 :=
  (k.fanOut.execute_wrote plan.detach s).trans (k.fanOut.execute_wrote plan.write _)

/-- Propagating a plan with writes to different cases through the pool delivers them, and reports
which went through. Unhindered cases fail only if they are not stored.
-/
theorem fanOutPlan_delivered (k : Coordinator) (plan : PropagationPlan) {s : Stores}
    (distinct : (plan.writes.map CaseWrite.case).Nodup) (keyed : s.cases.Keyed)
    : ∃ fault,
        (k.fanOutPlan plan s).1 = .ofFaults fault plan.writes
        ∧ Delivered fault plan.writes s.cases.records (k.fanOutPlan plan s).2.cases.records
        ∧ ∀ r ∈ plan.writes.map CaseWrite.case,
            s.cases.Unhindered r → fault r = absence? s.cases.records r := by
  rw [PropagationPlan.writes, List.map_append, List.nodup_append'] at distinct
  obtain ⟨left, other, apart⟩ := distinct
  have wrote := k.fanOut.execute_wrote plan.detach s
  obtain ⟨f, applied, failed, first, told⟩ := k.fanOut.execute_delivered left keyed
  obtain ⟨g, applied', failed', next, told'⟩ :=
    k.fanOut.execute_delivered other (wrote.keyed keyed)
  refine ⟨faultsOf f g, ?_, first.append next apart, ?_⟩
  · rw [PropagationPlan.writes, Propagation.ofFaults_append first next apart, ← applied, ← failed,
      ← applied', ← failed', FanOutReport.appliedReferences, FanOutReport.appliedReferences,
      ← List.map_append]
    rfl
  · intro r member unhindered
    rw [PropagationPlan.writes, List.map_append, List.mem_append] at member
    rcases member with leaves | stays
    · rw [next.faultsOf_left (apart leaves), told r leaves unhindered]
    · rw [first.faultsOf_right fun leaves => apart leaves stays,
        told' r stays (wrote.unhindered r unhindered), absence?, absence?, wrote.stored]

end Coordinator

end CaseGrouping
