import CaseGrouping.Proofs.Durable.Replay
import CaseGrouping.Proofs.Round.Answers

/-! Verdicts on joiners outlast the writes of the round that has asked for them: members leave and
join its multiple only, and nobody joins with a verdict against it. So the round comes to the same
work when it is retried.
-/

namespace CaseGrouping

/-- A case may join if it is stored and belongs to no other multiple. -/
theorem verdict?_eq_none_iff_owner {cases : Register CaseReference SingleCase}
    {multiple : MultipleReference} {case : CaseReference}
    : verdict? cases multiple case = none
      ↔ (cases.get? case).isSome ∧ ∀ other, owner? cases case = some other → other = multiple := by
  rw [verdict?_eq_none]
  cases stored : cases.get? case with
  | none => simp
  | some c => cases belongs : c.multiple <;> simp [owner?, stored, belongs]

/-- Otherwise the verdict names the multiple that it belongs to. -/
theorem verdict?_of_owner {cases : Register CaseReference SingleCase}
    {multiple other : MultipleReference} {case : CaseReference}
    (owner : owner? cases case = some other) (apart : multiple ≠ other)
    : verdict? cases multiple case = some ("already belongs to multiple " ++ other.text) := by
  obtain ⟨c, stored, belongs⟩ := Option.bind_eq_some_iff.mp owner
  simp [verdict?, SingleCase.belongsElsewhere, stored, belongs, apart]

/-- (w.Spares m cases) says that a write keeps the membership of its case, or takes it from the
multiple m, or puts a case there that may join.
-/
inductive CaseWrite.Spares (w : CaseWrite) (m : MultipleReference)
    (cases : Register CaseReference SingleCase) : Prop where
  | keep (keeps : w.change.membership = .keep)
  | detach (leaves : w.change.membership = .detach m)
  | attach (joins : w.change.membership = .attach m) (free : verdict? cases m w.case = none)

variable {cases : Register CaseReference SingleCase} {m : MultipleReference} {w : CaseWrite}
  {writes : List CaseWrite}

theorem CaseWrite.Spares.congr {after : Register CaseReference SingleCase}
    (spares : w.Spares m cases) (same : ∀ r, verdict? after m r = verdict? cases m r)
    : w.Spares m after := by
  cases spares with
  | keep keeps => exact .keep keeps
  | detach leaves => exact .detach leaves
  | attach joins free => exact .attach joins ((same _).trans free)

/-- Such a write leaves all verdicts as they are. -/
theorem verdict?_afterWrite (spares : w.Spares m cases) (r : CaseReference)
    : verdict? (afterWrite cases w) m r = verdict? cases m r := by
  have now := get?_afterWrite cases w r
  by_cases here : r = w.case
  · subst here
    rw [if_pos rfl] at now
    cases stored : cases.get? w.case with
    | none =>
        rw [stored] at now
        exact verdict?_congr (by rw [now, stored]; rfl)
    | some c =>
        rw [stored, Option.map_some] at now
        have owner := ChangeSet.apply_multiple w.change c
        cases spares with
        | keep keeps =>
            refine verdict?_congr ?_
            rw [now, stored, Option.map_some, Option.map_some, owner, keeps]
            rfl
        | detach leaves =>
            by_cases belongs : c.multiple = some m
            · -- Neither a member nor a case without a multiple has a verdict against it.
              rw [leaves, MembershipChange.owner, belongs] at owner
              rw [verdict?_eq_none.mpr ⟨c, stored, .inr belongs⟩]
              exact verdict?_eq_none.mpr ⟨_, now, .inl (owner.trans (if_pos rfl))⟩
            · refine verdict?_congr ?_
              rw [now, stored, Option.map_some, Option.map_some, owner, leaves]
              exact congrArg some (if_neg belongs)
        | attach joins free =>
            rw [joins] at owner
            rw [free]
            exact verdict?_eq_none.mpr ⟨_, now, .inr owner⟩
  · rw [if_neg here] at now
    exact verdict?_congr (by rw [now])

/-- So do such writes one after the other, by induction on them. -/
theorem verdict?_afterWrites (spares : ∀ w ∈ writes, w.Spares m cases) (r : CaseReference)
    : verdict? (afterWrites cases writes) m r = verdict? cases m r := by
  induction writes generalizing cases with
  | nil => rfl
  | cons w rest ih =>
      have first := verdict?_afterWrite (spares w (by simp))
      have later : ∀ v ∈ rest, v.Spares m (afterWrite cases w) := fun v member =>
        (spares v (by simp [member])).congr first
      exact (ih later).trans (first r)

/-- The writes of a reconciliation spare the verdicts of its multiple, as only those join who may.
-/
theorem Reconciliation.Prepared.spares {request : RoundRequest} {s : Stores}
    {r : Reconciliation} (prepared : r.Prepared request s) (member : w ∈ r.plan.writes)
    : w.Spares r.reference s.cases.records := by
  rcases List.mem_append.mp member with leaves | stays
  · refine .detach ?_
    rw [(Reconciliation.mem_detach_plan.mp leaves).2]
    rfl
  · rcases Reconciliation.mem_write_plan.mp stays with ⟨joins, change⟩ | ⟨_, change, _⟩
    · refine .attach ?_ (verdict?_eq_none.mpr (prepared.joining _ joins))
      rw [change, Targeting.decorate_membership]
      rfl
    · refine .keep ?_
      rw [change, Targeting.decorate_membership, PropagationPlan.keepChange_membership]

end CaseGrouping
