import CaseGrouping.Proofs.Agreement.Leads
import CaseGrouping.Proofs.Round.Writing

/-! The lead of a multiple after a round in which nobody joins or leaves it. An update in place
keeps the lead. Creations and moves hold an election as if somebody had joined or left, so that the
lead passes to the first member.
-/

namespace CaseGrouping

-----------------------------------------------------------------------------------------
-- Elections without a change of members
-----------------------------------------------------------------------------------------

/-- The lead that a request leaves if nobody joins or leaves the multiple that it carries. -/
def RoundRequest.standing? : RoundRequest → Option CaseReference
  | .create request => request.multiple.memberReferences.head?
  | .update request =>
      if request.target.isNone then request.multiple.leadCase?
      else request.multiple.memberReferences.head?

namespace Coordinator

variable {k : Coordinator} {s t : Stores} {request : RoundRequest} {outcome : RoundOutcome}
  {lead : CaseReference}

/-- It is the lead that a reconciliation chooses which proposes just the members. -/
theorem Prepares.lead_of_stays {r : Reconciliation}
    (prepares : k.Prepares s request (.reconcile r))
    (led : request.multiple.leadCase? = some lead)
    (same : ∀ case, case ∈ r.delta.proposed ↔ case ∈ request.multiple.memberReferences)
    : r.lead = request.standing? := by
  have posed := prepares.posed
  cases prepares with
  | @creation request reference expected u valid _ _ =>
      change request.multiple.leadCase? = some lead at led
      let joiners := (Joiners.check k.scope reference
        (orderedUnion request.requested request.matched) u).1
      have distinct := (Multiple.validateIncoming_eq_ok.mp valid).2
      have known : joiners.eligible ⊆ request.multiple.memberReferences := fun case free =>
        (same case).mp (mem_proposed_creationDelta.mpr (.inr free))
      change electLead (creationDelta request.multiple.memberReferences joiners.eligible).proposed
        request.multiple.leadCase? .membershipChange = request.multiple.memberReferences.head?
      rw [proposed_creationDelta (List.ne_nil_of_mem (Multiple.mem_of_leadCase? led)) distinct
        known]
      rfl
  | @inPlace request reference u _ _ stays _ =>
      change request.multiple.leadCase? = some lead at led
      let joiners := (Joiners.check k.scope reference (MembershipDelta.resolve
        request.multiple.memberReferences request.requested request.matched).toAttach u).1
      let r := Reconciliation.ofUpdate request reference
        (request.multiple.version <|> s.multiples.version? reference) joiners
      have kind : r.delta.roundKind = .fieldUpdate :=
        posed.splits.roundKind_eq.mpr fun case => (same case).symm
      have proposed := (same lead).mpr (Multiple.mem_of_leadCase? led)
      rw [RoundRequest.standing?, stays]
      change electLead r.delta.proposed request.multiple.leadCase? r.delta.roundKind
        = request.multiple.leadCase?
      rw [kind, led]
      exact if_pos proposed

/-- It is also the lead that the source of a move chooses which nobody leaves. -/
theorem Prepares.lead_of_remains {m : Movement} (prepares : k.Prepares s request (.move m))
    (remain : m.source.delta.toDetach = [])
    : m.source.lead = request.standing? := by
  cases prepares with
  | @move request reference target _ _ valid _ moves _ _ _ _ =>
      have distinct := (Multiple.validateIncoming_eq_ok.mp valid).2
      let moving := (Movers.ofMatched request.multiple reference request.matched).moving
      have stay : ∀ case, case ∉ moving := by
        intro case moves
        rw [← Movement.mem_toDetach_ofUpdate, remain] at moves
        cases moves
      have remaining : request.multiple.memberReferences.filter (· ∉ moving)
          = request.multiple.memberReferences :=
        List.filter_eq_self.mpr fun case _ => decide_eq_true (stay case)
      rw [RoundRequest.standing?, moves]
      change electLead
          (orderedUnion (request.multiple.memberReferences.filter (· ∉ moving)) [])
          request.multiple.leadCase? .membershipChange
        = request.multiple.memberReferences.head?
      rw [remaining, orderedUnion_of_subset distinct (List.nil_subset _)]
      rfl

end Coordinator

-----------------------------------------------------------------------------------------
-- Rounds without a change of members
-----------------------------------------------------------------------------------------

/-- (request.Unimpeded s) says that no write meets a fault on the stores s, and that the members of
the request's multiple are stored and so are those of its target, which are others.
-/
structure RoundRequest.Unimpeded (s : Stores) (request : RoundRequest) : Prop where
  unhindered : ∀ case, s.cases.Unhindered case
  stored : ∀ case ∈ request.multiple.memberReferences, (s.cases.records.get? case).isSome
  target
    : ∀ target,
        request.target? = some target
        → ∀ case ∈ s.membersOf target,
            (s.cases.records.get? case).isSome ∧ case ∉ request.multiple.memberReferences

namespace RoundRequest.Unimpeded

variable {request : RoundRequest} {s : Stores} (unimpeded : request.Unimpeded s)

include unimpeded

theorem accepts {case : CaseReference} (stored : (s.cases.records.get? case).isSome)
    : s.cases.Accepts case :=
  ⟨stored, (unimpeded.unhindered case).free, (unimpeded.unhindered case).steady⟩

theorem apart {m : Movement} (prepared : m.Prepared request s) : m.Apart := by
  intro case inTarget inSource
  rw [← Stores.membersOf_of_get? prepared.stored] at inTarget
  rw [prepared.carried] at inSource
  exact (unimpeded.target _ prepared.named case inTarget).2 inSource

/-- All cases that a reconciliation writes to accept writes. -/
theorem accepts_reconciliation {r : Reconciliation} (prepared : r.Prepared request s)
    : ∀ case ∈ r.plan.writes.map CaseWrite.case, s.cases.Accepts case := by
  intro case written
  obtain ⟨w, member, rfl⟩ := List.mem_map.mp written
  refine unimpeded.accepts (prepared.stored (fun case listed => ?_) ?_)
  · rw [prepared.carried] at listed
    exact unimpeded.stored case listed
  · rcases List.mem_append.mp member with leaves | stays
    · exact .inr (Reconciliation.mem_detach_plan.mp leaves).1
    · exact .inl (prepared.posed.proposed stays)

/-- So do those that a move writes to: they are members of its target or of its source. -/
theorem accepts_movement {m : Movement} (prepared : m.Prepared request s)
    : ∀ case ∈ m.writes.map CaseWrite.case, s.cases.Accepts case := by
  have fromSource : ∀ case ∈ m.source.multiple.memberReferences, s.cases.Accepts case := by
    rw [prepared.carried]
    exact fun case listed => unimpeded.accepts (unimpeded.stored case listed)
  intro case written
  obtain ⟨w, member, rfl⟩ := List.mem_map.mp written
  rcases List.mem_append.mp member with toTarget | toSource
  · rcases (prepared.mem_proposed w.case).mp (prepared.target.proposed toTarget) with stays | moves
    · rw [← Stores.membersOf_of_get? prepared.stored] at stays
      exact unimpeded.accepts (unimpeded.target _ prepared.named w.case stays).1
    · exact fromSource w.case (prepared.source.splits.mem_toDetach.mp moves).1
  · exact fromSource w.case
      (prepared.member_of_proposed_source (prepared.source.proposed toSource))

end RoundRequest.Unimpeded

namespace Coordinator

variable {k : Coordinator} {s t u : Stores} {request : RoundRequest} {outcome : RoundOutcome}
  {lead : CaseReference}

/-- A reconciliation that changes no membership leaves the standing lead. If this is the lead
already, no flag is written.
-/
theorem reconcile_standing {r : Reconciliation} (performs : (k.reconcile r).Returns u outcome t)
    (prepares : k.Prepares s request (.reconcile r)) (prepared : r.Prepared request s)
    (inMemory : s.InMemory) (asked : s.Asked u) (unimpeded : request.Unimpeded s)
    (led : request.multiple.leadCase? = some lead)
    (stays
      : ∀ case,
          case ∈ outcome.multiple.memberReferences ↔ case ∈ request.multiple.memberReferences)
    : outcome.multiple.leadCase? = request.standing?
      ∧ (request.standing? = some lead → s.SendsOnly (fun w => w.change.lead = none) t) := by
  have posed := prepared.posed
  obtain ⟨members, sends⟩ := reconcile_sends performs prepared (inMemory.asked asked)
    fun _ case written => asked.accepts (unimpeded.accepts_reconciliation prepared case written)
  obtain ⟨listed, chosen⟩ := posed.listed_of_plan members
  rw [listed] at stays
  have standing := prepares.lead_of_stays led stays
  refine ⟨chosen.trans standing, fun kept => sends (fun w member => ?_) (.of_asked asked)⟩
  have same : ∀ case, case ∈ r.multiple.memberReferences ↔ case ∈ r.delta.proposed := by
    rw [prepared.carried]
    exact fun case => (stays case).symm
  refine (posed.keeps_of_nobody prepared.valid
    (posed.splits.toAttach_eq_nil fun case => (same case).mpr)
    (posed.splits.toDetach_eq_nil fun case => (same case).mp) ?_ member).2.2
  rw [standing, kept, prepared.carried]
  exact led

/-- So does a move that nobody leaves the source by; to its target it may write flags. -/
theorem move_standing {m : Movement} (performs : (k.move m).Returns u outcome t)
    (prepares : k.Prepares s request (.move m)) (prepared : m.Prepared request s)
    (inMemory : s.InMemory) (asked : s.Asked u) (unimpeded : request.Unimpeded s)
    (led : request.multiple.leadCase? = some lead)
    (stays
      : ∀ case,
          case ∈ outcome.multiple.memberReferences ↔ case ∈ request.multiple.memberReferences)
    : outcome.multiple.leadCase? = request.standing?
      ∧ (request.standing? = some lead
        → s.SendsOnly
            (fun w => w.case ∈ request.multiple.memberReferences → w.change.lead = none) t) := by
  have apart := unimpeded.apart prepared
  have source := prepared.source
  obtain ⟨members, sends⟩ := move_sends performs prepared apart (inMemory.asked asked)
    fun _ case written => asked.accepts (unimpeded.accepts_movement prepared case written)
  obtain ⟨listed, chosen⟩ := source.listed_of_done
    (fun case joins => by
      rw [prepared.nobody_joins] at joins
      cases joins)
    (prepared.carried_source apart).leaving members
  rw [listed, ← prepared.carried] at stays
  have remain : m.source.delta.toDetach = [] :=
    source.splits.toDetach_eq_nil fun case => (stays case).mpr
  have standing := prepares.lead_of_remains remain
  refine ⟨chosen.trans standing, fun kept => sends (fun w member inSource => ?_)
    (fun w member _ => ?_) (.of_asked asked)⟩
  · -- Nobody moves, so the plan of the target is about its own members.
    rw [← prepared.carried] at inSource
    rcases (prepared.mem_proposed w.case).mp (prepared.target.proposed member) with own | moves
    · exact absurd inSource (apart own)
    · rw [remain] at moves
      cases moves
  · refine (source.keeps_of_nobody prepared.sourceValid prepared.nobody_joins remain ?_
      (List.mem_append_right _ member)).2.2
    rw [standing, kept, prepared.carried]
    exact led

/-- A round in which nobody joins or leaves its multiple and no write fails leaves the standing
lead: the one that there is, if it is an update in place, and otherwise the first member, also where
another one was lead. If this is the lead already, no flag is written to a member.
-/
theorem carryOut_standing_lead (k : Coordinator) (inMemory : s.InMemory)
    (unimpeded : request.Unimpeded s) (led : request.multiple.leadCase? = some lead)
    (returns : (k.carryOut request).Returns s outcome t)
    (stays
      : ∀ case,
          case ∈ outcome.multiple.memberReferences ↔ case ∈ request.multiple.memberReferences)
    : outcome.multiple.leadCase? = request.standing?
      ∧ (request.standing? = some lead
        → s.SendsOnly
            (fun w => w.case ∈ request.multiple.memberReferences → w.change.lead = none) t) := by
  obtain ⟨work, u, prepares, performs⟩ := carryOut_returns returns
  obtain ⟨asked, prepared⟩ := prepare_returns inMemory prepares
  have prepares := prepares_of_returns prepares
  cases work with
  | reconcile r =>
      obtain ⟨standing, sends⟩ :=
        reconcile_standing performs prepares prepared inMemory asked unimpeded led stays
      exact ⟨standing, fun kept => (sends kept).mono fun w unflagged _ => unflagged⟩
  | move m =>
      exact move_standing performs prepares prepared inMemory asked unimpeded led stays

end Coordinator

namespace Sample

/-- A record of the first multiple that lists its lead after another member. -/
def trailing : Multiple :=
  record.withMembers [{ case := one }, { case := two, lead := true }]

/-- The two cases belong to that multiple. -/
def followed : Stores where
  cases :=
    .ofList
      [ { reference := one, multiple := some group },
        { reference := two, multiple := some group, leadClaimant := true } ]
  multiples := { records := Register.insert ∅ group trailing }

theorem reachable_followed : followed.Reachable := by
  have seeded : Stores.Reachable { multiples := { records := Register.insert ∅ group trailing } } :=
    .seed (m := trailing) (.empty (s := {}) rfl rfl rfl rfl) rfl
  exact .insert { reference := two, multiple := some group, leadClaimant := true }
    (.insert { reference := one, multiple := some group } seeded)

/-- A member is asked for that is there already. -/
def confirming : RoundRequest :=
  .create { multiple := trailing, requested := [one] }

theorem unimpeded_confirming : confirming.Unimpeded followed where
  unhindered := fun _ => ⟨rfl, List.not_mem_nil⟩
  stored := by
    intro case member
    rcases List.mem_pair.mp member with rfl | rfl <;> rfl
  target := fun _ moves => nomatch moves

/-- The round returns, and the members are as before. -/
theorem exists_confirmed
    : ∃ (outcome : RoundOutcome) (t : Stores),
        (coordinator.carryOut confirming).Returns followed outcome t
        ∧ outcome.multiple.leadCase? = some one
        ∧ outcome.multiple.memberReferences = confirming.multiple.memberReferences := by
  obtain ⟨outcome, t, returns, told⟩
      : ∃ outcome t,
          (coordinator.carryOut confirming).Returns followed outcome t
          ∧ (outcome.multiple.leadCase?, outcome.multiple.memberReferences)
            = (some one, [one, two]) :=
    Round.exists_returns (by decide +kernel)
  simp only [Prod.mk.injEq] at told
  exact ⟨outcome, t, returns, told⟩

/-- The lead passes from the second member to the first one. -/
theorem passed_to_first_member
    : ∃ outcome t,
        (coordinator.carryOut confirming).Returns followed outcome t
        ∧ confirming.multiple.leadCase? = some two
        ∧ outcome.multiple.leadCase? = some one := by
  obtain ⟨outcome, t, returns, _, members⟩ := exists_confirmed
  obtain ⟨standing, _⟩ := coordinator.carryOut_standing_lead reachable_followed.inMemory
    unimpeded_confirming rfl returns fun case => by rw [members]
  exact ⟨outcome, t, returns, rfl, standing⟩

/-- So a round in which nobody joins or leaves, and no write fails, need not keep the lead. -/
theorem lead_replaced_among_same_members
    : ¬ ∀ (k : Coordinator) (s t : Stores) (request : RoundRequest) (outcome : RoundOutcome)
          (lead : CaseReference),
          s.Reachable
          → request.Unimpeded s
          → request.multiple.leadCase? = some lead
          → (k.carryOut request).Returns s outcome t
          → (∀ case,
              case ∈ outcome.multiple.memberReferences
              ↔ case ∈ request.multiple.memberReferences)
          → outcome.multiple.leadCase? = some lead := by
  intro claim
  obtain ⟨outcome, t, returns, lead, members⟩ := exists_confirmed
  have kept := claim coordinator followed t confirming outcome two reachable_followed
    unimpeded_confirming rfl returns fun case => by rw [members]
  exact absurd (lead.symm.trans kept) (by decide)

end Sample

end CaseGrouping
