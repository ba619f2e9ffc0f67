import CaseGrouping.Proofs.Membership.Extending
import CaseGrouping.Proofs.Ownership.InPlace

/-! What an update in place accounts for. Every case that its request names has come to what was
asked for, or is named in the failures of the round.
-/

namespace CaseGrouping

-----------------------------------------------------------------------------------------
-- Reconciliations through the pool
-----------------------------------------------------------------------------------------

/-- (r.Traced done members settling s u outcome t) says that a reconciliation through the pool has
propagated its plan from the stores s to u, has then settled the members, which writes flags at
most, and has committed them.
-/
structure Reconciliation.Traced (r : Reconciliation) (done : Propagation) (members : List Member)
    (settling : List Failure) (s u : Stores) (outcome : RoundOutcome) (t : Stores) : Prop where
  propagated : Propagated r.plan .synchronousFanOut done s u
  settled : r.Settled done.written u.cases.records t.cases.records members settling
  kept
    : ∀ case Q, r.Flags (CaseWrite.Leaves case Q) → u.cases.Holds case Q → t.cases.Holds case Q
  record
    : outcome.multiple = (r.record members).withVersion (MultipleStore.successor r.expected)
  failed : outcome.failures = r.failures ++ done.failures ++ settling

theorem Coordinator.Reconciled.traced {k : Coordinator} {r : Reconciliation} {s t : Stores}
    {outcome : RoundOutcome} (reconciled : Reconciled k r s outcome t) (posed : r.WellPosed)
    (mode : r.mode = .synchronousFanOut) (keyed : s.cases.Keyed)
    : ∃ done members settling u, r.Traced done members settling s u outcome t := by
  obtain ⟨propagated, settles, commits, movedTo, failed⟩ := reconciled
  rename_i done u members settling v
  have passed := propagate_propagated posed.nodup_writes keyed propagated
  obtain ⟨_, settled⟩ := settle_synchronous mode passed.keyed settles
  have cases : t.cases = v.cases :=
    (Round.keeps_multiples (P := fun x => x.cases = v.cases) fun _ same => same).of_returns rfl
      commits
  rw [mode] at passed
  refine ⟨done, members, settling, u, passed, ?_, fun case Q flags holds => ?_,
    record_of_commit commits, failed⟩
  · rw [cases]
    exact settled
  · rw [cases]
    exact ((CaseStore.holds_outlasts case Q).settle flags done.written).of_returns holds settles

/-- When all proposed cases are members, an election that passes over nobody elects the chosen lead.
-/
theorem Reconciliation.WellPosed.lead_of_elected {r : Reconciliation}
    {written : List CaseReference} {before after : Register CaseReference SingleCase}
    {lead : Option CaseReference} (posed : r.WellPosed)
    (elected
      : Elected (r.claims written) (leadCandidates (r.members written)) before after lead [])
    (cases : (r.members written).map Member.case = r.delta.proposed)
    : (lead <|> ((r.members written).map Member.case).head?) = r.lead := by
  obtain ⟨rest, split, head⟩ := elected.asked
  rw [← head, ← show _ = rest from split]
  cases chosen : r.lead with
  | some first =>
      have member := posed.leads.mem chosen
      rw [← cases] at member
      obtain ⟨others, order⟩ :=
        leadCandidates_of_flagged (posed.flagged_members written) chosen member
      rw [order]
      rfl
  | none =>
      have nobody : r.delta.proposed = [] := Decidable.byContradiction fun some => by
        have leads := posed.leads.isSome some
        rw [chosen] at leads
        cases leads
      rw [List.map_eq_nil_iff.mp (cases.trans nobody)]
      rfl

namespace Reconciliation.Traced

variable {r : Reconciliation} {done : Propagation} {members : List Member}
  {settling : List Failure} {s u t : Stores} {outcome : RoundOutcome} {case : CaseReference}
  (traced : r.Traced done members settling s u outcome t)

include traced

theorem memberReferences
    : outcome.multiple.memberReferences = (r.members done.written).map Member.case :=
  traced.settled.memberReferences traced.record

/-- A write of whose failure the round says nothing was applied. -/
theorem applied {w : CaseWrite} (member : w ∈ r.plan.writes)
    (unnamed : w.case ∉ outcome.failures.map Failure.case)
    : w.case ∈ done.written
      ∧ ∃ c, u.cases.records.get? w.case = some (w.change.apply c) := by
  have quiet : w.case ∉ done.failures.map Failure.case := by
    rw [traced.failed] at unnamed
    simp only [List.map_append, List.mem_append, not_or] at unnamed
    exact unnamed.1.2
  have written := traced.propagated.written_of_unnamed member quiet
  refine ⟨written, ?_⟩
  cases traced.propagated.through w member written with
  | applied _ stored _ => exact ⟨_, stored⟩

/-- A proposed case is a member or a failure. -/
theorem joined (posed : r.WellPosed) (proposed : case ∈ r.delta.proposed)
    (unnamed : case ∉ outcome.failures.map Failure.case)
    : case ∈ outcome.multiple.memberReferences := by
  rw [traced.memberReferences, posed.mem_members]
  refine .inl ⟨proposed, fun joins => ?_⟩
  exact (traced.applied (List.mem_append_right _ (attach_mem_plan joins)) unnamed).1

/-- A case that is to leave has left or is a failure. -/
theorem left (posed : r.WellPosed) (leaves : case ∈ r.delta.toDetach)
    (unnamed : case ∉ outcome.failures.map Failure.case)
    : case ∉ outcome.multiple.memberReferences
      ∧ t.cases.Holds case fun c => c.multiple ≠ some r.reference := by
  obtain ⟨written, c, stored⟩ :=
    traced.applied (List.mem_append_left _ (detach_mem_plan leaves)) unnamed
  constructor
  · rw [traced.memberReferences, posed.mem_members]
    rintro (⟨proposed, _⟩ | ⟨_, absent⟩)
    · exact (posed.splits.mem_toDetach.mp leaves).2 proposed
    · exact absent written
  · refine traced.kept case _ (fun _ _ _ _ other => other) ⟨_, stored, ?_⟩
    change ((ChangeSet.detach r.reference).apply c).multiple ≠ some r.reference
    rw [ChangeSet.apply_multiple, ChangeSet.detach, MembershipChange.owner]
    split
    · simp
    · assumption

/-- A proposed case that is to get values and a tag has got them or is a failure. -/
theorem valued (posed : r.WellPosed) (proposed : case ∈ r.delta.proposed)
    (targeted : case ∈ r.targeting.cases)
    (unnamed : case ∉ outcome.failures.map Failure.case)
    : (∀ key value, r.targeting.edits.get? key = some value
        → t.cases.Holds case fun c => c.fields.get? key = some value)
      ∧ ∀ tag, r.targeting.subGroup = some tag
        → case ∈ done.written ∧ t.cases.Holds case fun c => c.subGroup = some tag := by
  have brought : ¬ (r.targeting.edits = ∅ ∧ r.targeting.subGroup = none)
      → case ∈ done.written
        ∧ ∃ c,
            u.cases.records.get? case = some c
            ∧ (∀ key value, r.targeting.edits.get? key = some value
                → c.fields.get? key = some value)
            ∧ ∀ tag, r.targeting.subGroup = some tag → c.subGroup = some tag := by
    intro given
    obtain ⟨w, member, rfl⟩ := posed.exists_write proposed targeted given
    obtain ⟨written, c, stored⟩ := traced.applied (List.mem_append_right _ member) unnamed
    have values := w.change.apply_values (stays_of_write member) c
    rw [(values_of_write member).1, (values_of_write member).2, if_pos targeted,
      if_pos targeted] at values
    exact ⟨written, _, stored, values⟩
  constructor
  · intro key value given
    obtain ⟨_, c, stored, fields, _⟩ := brought fun none => by
      rw [none.1] at given
      cases given
    exact traced.kept case _ (fun _ _ _ _ holds => holds) ⟨c, stored, fields key value given⟩
  · intro tag given
    obtain ⟨written, c, stored, _, tags⟩ := brought fun none => by
      rw [none.2] at given
      cases given
    exact ⟨written,
      traced.kept case _ (fun _ _ _ _ holds => holds) ⟨c, stored, tags tag given⟩⟩

/-- The entry of a member that got the tag carries it. -/
theorem tagged (posed : r.WellPosed) {x : Member} {tag : String}
    (member : x ∈ outcome.multiple.members) (targeted : x.case ∈ r.targeting.cases)
    (proposed : x.case ∈ r.delta.proposed) (given : r.targeting.subGroup = some tag)
    (written : x.case ∈ done.written)
    : x.subGroup = some tag := by
  obtain ⟨lead, _, listed⟩ := traced.settled
  rw [traced.record] at member
  change x ∈ members at member
  rw [listed] at member
  obtain ⟨y, settled, rfl⟩ := List.mem_map.mp member
  rcases List.mem_append.mp settled with entry | kept
  · obtain ⟨case, _, rfl⟩ := List.mem_map.mp entry
    change r.targeting.tagFor case _ (decide (case ∈ done.written)) = some tag
    have targeted : case ∈ r.targeting.cases := targeted
    have written : case ∈ done.written := written
    simp [Targeting.tagFor, given, written, targeted]
  · obtain ⟨y, retained, rfl⟩ := List.mem_map.mp kept
    obtain ⟨other, retained, found⟩ := List.mem_filterMap.mp retained
    rw [← (Multiple.member?_eq_some found).2] at retained
    exact absurd proposed (posed.splits.mem_toDetach.mp (mem_retained.mp retained).1).2

/-- Without failures the members are the proposed cases in their order, and the chosen lead is lead.
-/
theorem clean (posed : r.WellPosed) (clean : outcome.failures = [])
    : outcome.multiple.memberReferences = r.delta.proposed
      ∧ outcome.multiple.leadCase? = r.lead := by
  have unnamed : ∀ case, case ∉ outcome.failures.map Failure.case := by simp [clean]
  have cases : (r.members done.written).map Member.case = r.delta.proposed :=
    Reconciliation.cases_members_of_done
      (fun case joins =>
        (traced.applied (List.mem_append_right _ (attach_mem_plan joins)) (unnamed case)).1)
      (fun case leaves =>
        (traced.applied (List.mem_append_left _ (detach_mem_plan leaves)) (unnamed case)).1)
  have quiet : settling = [] := by
    rw [traced.failed] at clean
    exact (List.append_eq_nil_iff.mp clean).2
  have listed : outcome.multiple.memberReferences = r.delta.proposed :=
    traced.memberReferences.trans cases
  refine ⟨listed, ?_⟩
  obtain ⟨lead, elected, settled⟩ := traced.settled
  rw [quiet] at elected
  rw [posed.lead_of_elected elected cases] at settled
  refine Multiple.leadCase?_of_flagged ?_ (listed ▸ posed.leads)
  rw [traced.record]
  change Multiple.Flagged r.lead members
  rw [settled]
  exact flagged_withLead _ _

end Reconciliation.Traced

-----------------------------------------------------------------------------------------
-- Updates in place
-----------------------------------------------------------------------------------------

/-- The members of the request are the cases that it asks for, so that nobody joins or leaves. -/
def BulkUpdate.KeepsMembers (request : BulkUpdate) : Prop :=
  ∀ case,
    case ∈ request.multiple.memberReferences
    ↔ case ∈ request.requested ∨ case ∈ request.matched

namespace Reconciliation

variable {request : BulkUpdate} {reference : MultipleReference} {expected : Option UInt64}
  {joiners : Joiners}

/-- When nobody is refused, all that are asked for are proposed, in their order. -/
theorem delta_ofUpdate_of_free (free : joiners.failures = [])
    : (ofUpdate request reference expected joiners).delta
      = .resolve request.multiple.memberReferences request.requested request.matched := by
  simp [ofUpdate, Coordinator.admittedDelta, free]

/-- Then the present lead is chosen if nobody joins or leaves, and otherwise the first. -/
theorem lead_ofUpdate_of_free (free : joiners.failures = [])
    : (∀ lead, request.KeepsMembers → request.multiple.leadCase? = some lead
        → (ofUpdate request reference expected joiners).lead = some lead)
      ∧ (¬ request.KeepsMembers ∨ request.multiple.leadCase? = none
        → (ofUpdate request reference expected joiners).lead
          = (orderedUnion request.requested request.matched).head?) := by
  have elected : (ofUpdate request reference expected joiners).lead
      = electLead (orderedUnion request.requested request.matched) request.multiple.leadCase?
          (MembershipDelta.resolve request.multiple.memberReferences request.requested
            request.matched).roundKind := by
    change electLead (ofUpdate request reference expected joiners).delta.proposed _
      (ofUpdate request reference expected joiners).delta.roundKind = _
    rw [delta_ofUpdate_of_free free]
    rfl
  have kind := (MembershipDelta.splits_resolve request.multiple.memberReferences
    request.requested request.matched).roundKind_eq
  simp only [MembershipDelta.mem_proposed_resolve] at kind
  rw [elected]
  constructor
  · intro lead keeps present
    have candidate := mem_orderedUnion.mpr ((keeps lead).mp (Multiple.mem_of_leadCase? present))
    rw [kind.mpr keeps, present, electLead, if_pos candidate]
  · intro changes
    unfold electLead
    split
    next lead field present =>
      rcases changes with moves | none
      · exact absurd (kind.mp field) moves
      · exact absurd (present.symm.trans none) (by simp)
    next => rfl

end Reconciliation

namespace Coordinator

variable {k : Coordinator} {s t : Stores} {outcome : RoundOutcome} {request : BulkUpdate}

/-- An update in place that returns has asked its questions and carried out such a reconciliation.
-/
theorem updateBulk_reconciled (stays : request.target = none)
    (returns : (k.updateBulk request).Returns s outcome t)
    : ∃ reference joiners u,
        request.multiple.reference = some reference
        ∧ Reconciled k (.ofUpdate request reference
            (request.multiple.version <|> s.multiples.version? reference) joiners) u outcome t
        ∧ s.Asked u := by
  obtain ⟨work, u, prepares, performs⟩ := carryOut_returns
    (show (k.carryOut (.update request)).Returns s outcome t from returns)
  have asked := asked_of_prepare prepares
  cases prepares_of_returns prepares with
  | inPlace _ own _ _ => exact ⟨_, _, u, own, reconcile_returns performs, asked⟩
  | move _ _ moves _ _ _ _ => exact absurd (stays.symm.trans moves) (by simp)

/-- When an update in place through the pool returns, every case that is asked for is a member or
named in the failures. A listed case that is not asked for is no member and belongs to the multiple
no longer, or is named. A matched member that is not named has got all values and the tag, which
its entry carries as well. Without failures the members are just the cases that are asked for, in
their order; the lead stays if nobody joined or left, and otherwise it is the first member.
-/
theorem updateBulk_accounts (k : Coordinator) (keyed : s.cases.Keyed)
    (filed : s.multiples.Filed) (stays : request.target = none)
    (mode : request.mode = .synchronousFanOut)
    (returns : (k.updateBulk request).Returns s outcome t)
    : ∃ reference,
        request.multiple.reference = some reference
        ∧ t.multiples.records.get? reference = some outcome.multiple
        ∧ (∀ case,
            case ∈ request.requested ∨ case ∈ request.matched
            → case ∉ outcome.failures.map Failure.case
            → case ∈ outcome.multiple.memberReferences)
        ∧ (∀ case ∈ request.multiple.memberReferences,
            case ∉ request.requested
            → case ∉ request.matched
            → case ∉ outcome.failures.map Failure.case
            → case ∉ outcome.multiple.memberReferences
              ∧ t.cases.Holds case fun c => c.multiple ≠ some reference)
        ∧ (∀ x ∈ outcome.multiple.members,
            x.case ∈ request.matched
            → x.case ∉ outcome.failures.map Failure.case
            → (∀ key value, request.edits.get? key = some value
                → t.cases.Holds x.case fun c => c.fields.get? key = some value)
              ∧ ∀ tag, request.subGroup = some tag
                → x.subGroup = some tag ∧ t.cases.Holds x.case fun c => c.subGroup = some tag)
        ∧ (outcome.failures = []
            → outcome.multiple.memberReferences = orderedUnion request.requested request.matched
              ∧ (∀ lead, request.KeepsMembers → request.multiple.leadCase? = some lead
                  → outcome.multiple.leadCase? = some lead)
              ∧ (¬ request.KeepsMembers ∨ request.multiple.leadCase? = none
                  → outcome.multiple.leadCase? = outcome.multiple.memberReferences.head?)) := by
  obtain ⟨reference, joiners, u, own, reconciled, asked⟩ := updateBulk_reconciled stays returns
  have posed := Reconciliation.wellPosed_ofUpdate request reference
    (request.multiple.version <|> s.multiples.version? reference) joiners
  obtain ⟨done, members, settling, v, traced⟩ :=
    reconciled.traced posed mode (asked.keyed keyed)
  have alone : s.multiples.Meanwhile [] u.multiples := .of_eq filed asked.multiples asked.hooks
  obtain ⟨between, _, _, stored⟩ := reconciled.replaces own alone.filed
  have admitted : ∀ case, case ∈ request.requested ∨ case ∈ request.matched
      → case ∉ outcome.failures.map Failure.case
      → case ∈ (Reconciliation.ofUpdate request reference
          (request.multiple.version <|> s.multiples.version? reference) joiners).delta.proposed :=
    fun case wanted unnamed => Reconciliation.mem_proposed_ofUpdate.mpr ⟨wanted, fun refused =>
      unnamed (by
        rw [traced.failed]
        simp only [List.map_append, List.mem_append]
        exact .inl (.inl refused))⟩
  refine ⟨reference, own, ?_, fun case wanted unnamed => ?_,
    fun case member other other' unnamed => ?_, fun x member matched unnamed => ?_,
    fun clean => ?_⟩
  · rw [stored]
    exact Register.get?_insert_self _ _ _
  · exact traced.joined posed (admitted case wanted unnamed) unnamed
  · refine traced.left posed (posed.splits.mem_toDetach.mpr ⟨member, fun proposed => ?_⟩) unnamed
    exact (Reconciliation.mem_proposed_ofUpdate.mp proposed).1.elim other other'
  · have proposed := admitted x.case (.inr matched) unnamed
    obtain ⟨fields, tags⟩ := traced.valued posed proposed matched unnamed
    refine ⟨fields, fun tag given => ?_⟩
    obtain ⟨written, holds⟩ := tags tag given
    exact ⟨traced.tagged posed member matched proposed given written, holds⟩
  · obtain ⟨listed, lead⟩ := traced.clean posed clean
    have free : joiners.failures = [] := by
      have failed := traced.failed
      rw [clean] at failed
      exact (List.append_eq_nil_iff.mp (List.append_eq_nil_iff.mp failed.symm).1).1
    rw [Reconciliation.delta_ofUpdate_of_free free] at listed
    rw [lead, listed]
    exact ⟨rfl, Reconciliation.lead_ofUpdate_of_free free⟩

end Coordinator

namespace Sample

/-- Writes to the first case bring down their worker, so that it is named. The second case has
joined and has got its value.
-/
theorem accounted_of_crash
    : ∃ outcome t,
        (coordinator.carryOut (joining .synchronousFanOut)).Returns (stores [one]) outcome t
        ∧ outcome.failures.map Failure.case = [one]
        ∧ two ∈ outcome.multiple.memberReferences
        ∧ t.cases.Holds two fun c => c.fields.get? "amount" = some (.number (.natural 5)) := by
  have inMemory := (reachable_stores [one]).inMemory
  obtain ⟨outcome, t, returns, failures⟩
      : ∃ outcome t,
          (coordinator.carryOut (joining .synchronousFanOut)).Returns (stores [one]) outcome t
          ∧ outcome.failures.map Failure.case = [one] :=
    Round.exists_returns (by decide +kernel)
  have unnamed : two ∉ outcome.failures.map Failure.case := by
    rw [failures]
    decide
  obtain ⟨_, _, _, joined, _, valued, _⟩ :=
    coordinator.updateBulk_accounts inMemory.keyed inMemory.filed rfl rfl returns
  have member := joined two (.inl (by decide)) unnamed
  obtain ⟨x, listed, same⟩ := List.mem_map.mp member
  have valued := (valued x listed (by rw [same]; decide) (by rwa [same])).1
  rw [same] at valued
  exact ⟨outcome, t, returns, failures, member, valued "amount" _ (by decide)⟩

end Sample

end CaseGrouping
