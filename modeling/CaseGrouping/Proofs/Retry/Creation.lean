import CaseGrouping.Proofs.Membership.Extending
import CaseGrouping.Proofs.Retry.Commit
import CaseGrouping.Proofs.Store.Allocation

/-! New multiples whose first commit fails. By then the cases belong to a multiple that was never
stored and whose reference the caller has not been told. A retry of the same request is given
another reference, and refuses all of these cases.
-/

namespace CaseGrouping

-----------------------------------------------------------------------------------------
-- Preparing a new multiple
-----------------------------------------------------------------------------------------

/-- (request.Opens s reference) says that a creation request passes its own checks, is for a new
multiple, and is given the reference for it by the stores s.
-/
structure BulkCreation.Opens (request : BulkCreation) (s : Stores)
    (reference : MultipleReference) : Prop where
  valid : request.multiple.validateIncoming = .ok ()
  named : (orderedUnion request.requested request.matched).isEmpty = false
  absent : request.multiple.reference = none
  allocated : s.multiples.allocate.1 = .ok reference

/-- Those who may join when the request is given the reference, by what is stored. -/
def BulkCreation.joiners (request : BulkCreation) (reference : MultipleReference)
    (cases : Register CaseReference SingleCase) : Joiners :=
  .ofStored reference (orderedUnion request.requested request.matched) cases

/-- What a request for a new multiple comes to when it is given the reference. -/
def BulkCreation.opening (request : BulkCreation) (reference : MultipleReference)
    (cases : Register CaseReference SingleCase) : Reconciliation :=
  .ofCreation request reference none (request.joiners reference cases)

namespace BulkCreation

variable {request : BulkCreation} {reference : MultipleReference}
  {cases : Register CaseReference SingleCase} {case : CaseReference}

theorem mem_eligible_joiners
    : case ∈ (request.joiners reference cases).eligible
      ↔ (case ∈ request.requested ∨ case ∈ request.matched)
        ∧ verdict? cases reference case = none := by
  rw [joiners, Joiners.ofStored, List.mem_filter, mem_orderedUnion, Option.isNone_iff_eq_none]

/-- A verdict against a case that is asked for keeps it out, and is told. -/
theorem refuses_of_verdict {reason : String}
    (asked : case ∈ request.requested ∨ case ∈ request.matched)
    (verdict : verdict? cases reference case = some reason)
    : case ∉ (request.joiners reference cases).eligible
      ∧ ⟨case, reason⟩ ∈ (request.joiners reference cases).failures := by
  refine ⟨fun eligible => ?_,
    List.mem_filterMap.mpr ⟨case, mem_orderedUnion.mpr asked, by rw [verdict]; rfl⟩⟩
  rw [(mem_eligible_joiners.mp eligible).2] at verdict
  cases verdict

theorem wellPosed_opening (request : BulkCreation) (reference : MultipleReference)
    (cases : Register CaseReference SingleCase)
    : (request.opening reference cases).WellPosed :=
  Reconciliation.wellPosed_ofCreation request reference none (request.joiners reference cases)

theorem toDetach_opening : (request.opening reference cases).delta.toDetach = [] :=
  Coordinator.toDetach_creationDelta _ _

/-- The eligible cases join that are not members yet. -/
theorem mem_toAttach_opening
    : case ∈ (request.opening reference cases).delta.toAttach
      ↔ case ∈ (request.joiners reference cases).eligible
        ∧ case ∉ request.multiple.memberReferences := by
  refine (Coordinator.splits_creationDelta _ _).mem_toAttach.trans (and_congr_left fun new => ?_)
  exact Coordinator.mem_proposed_creationDelta.trans (or_iff_right new)

end BulkCreation

namespace Coordinator

variable {k : Coordinator} {s t u : Stores} {request : BulkCreation}
  {reference : MultipleReference} {outcome : RoundOutcome}

/-- On truthful stores such a request is refused if the new multiple would have no members, and
comes to its reconciliation otherwise.
-/
theorem prepareCreation_opens (k : Coordinator) (opens : request.Opens s reference)
    (truthful : s.cases.Truthful)
    : ∃ t,
        t.multiples = s.multiples.allocate.2
        ∧ (k.prepareCreation request).runOn s
          = (if request.multiple.memberReferences.isEmpty
                && (request.joiners reference s.cases.records).eligible.isEmpty
              then
                .error (.validation
                  (.noEligibleCases (request.joiners reference s.cases.records).failures))
              else .ok (.reconcile (request.opening reference s.cases.records)), t) := by
  let union := orderedUnion request.requested request.matched
  let u := (Stores.allocate k.scope s).2
  let t := (Joiners.check k.scope reference union u).2
  have asked : s.Asked u := .allocate k.scope s
  have assigns : (k.assignReference request.multiple).Returns s (reference, none) u := by
    have gives : (Round.multiples (Stores.allocate k.scope)).Returns s reference u :=
      Round.returns_multiples.mpr (Prod.ext opens.allocated rfl)
    unfold assignReference
    rw [opens.absent]
    exact Round.returns_bind.mpr ⟨_, u, gives, rfl⟩
  have joins : (Round.attempt (Joiners.check k.scope reference union)).Returns u
      (request.joiners reference s.cases.records) t := by
    refine Round.returns_attempt.mpr (Prod.ext ?_ rfl)
    rw [Joiners.check_eq_ofStored (truthful.asked asked), asked.cases]
    rfl
  have checks : (Round.check request.multiple.validateIncoming).Returns s () s :=
    Round.returns_check.mpr ⟨opens.valid, rfl⟩
  refine ⟨t, Joiners.check_multiples k.scope reference union u, ?_⟩
  refine (Round.runOn_bind_of_returns checks).trans ?_
  dsimp only
  rw [opens.named]
  refine (Round.runOn_bind_of_returns assigns).trans ?_
  refine (Round.runOn_bind_of_returns joins).trans ?_
  split <;> rfl

/-- A round for a new multiple that returns has been given a reference, and has come to members. -/
theorem opens_of_returns (truthful : s.cases.Truthful) (absent : request.multiple.reference = none)
    (returns : (k.createBulk request).Returns s outcome u)
    : ∃ reference t,
        request.Opens s reference
        ∧ (k.prepare (.create request)).Returns s
            (.reconcile (request.opening reference s.cases.records)) t
        ∧ (k.reconcile (request.opening reference s.cases.records)).Returns t outcome u
        ∧ (request.multiple.memberReferences = []
          → (request.joiners reference s.cases.records).eligible ≠ []) := by
  obtain ⟨work, t, prepares, performs⟩ := carryOut_returns
    (show (k.carryOut (.create request)).Returns s outcome u from returns)
  obtain ⟨reference, opens⟩ : ∃ reference, request.Opens s reference := by
    cases prepares_of_returns prepares with
    | @creation _ reference _ _ valid assigned _ =>
        cases assigned with
        | named own => exact absurd (absent.symm.trans own) (by simp)
        | fresh _ allocated =>
            refine ⟨reference, valid, Bool.eq_false_iff.mpr fun nobody => ?_, absent, allocated⟩
            obtain ⟨_, _, checked, questions⟩ := Round.returns_bind.mp prepares
            dsimp only at questions
            rw [nobody] at questions
            exact Round.not_returns_reject questions
  obtain ⟨t', _, ends⟩ := k.prepareCreation_opens opens truthful
  have same := ends.symm.trans prepares
  split at same
  · cases same
  next some =>
    cases same
    refine ⟨reference, t, opens, prepares, performs, ?_⟩
    simpa using some

/-- Where there are members for it, a new multiple comes to its reconciliation. -/
theorem prepare_opens (k : Coordinator) (opens : request.Opens s reference)
    (truthful : s.cases.Truthful)
    (members
      : request.multiple.memberReferences = []
        → (request.joiners reference s.cases.records).eligible ≠ [])
    : ∃ t,
        t.multiples = s.multiples.allocate.2
        ∧ (k.prepare (.create request)).Returns s
            (.reconcile (request.opening reference s.cases.records)) t := by
  obtain ⟨t, multiples, ends⟩ := k.prepareCreation_opens opens truthful
  refine ⟨t, multiples, ends.trans ?_⟩
  rw [if_neg (by simpa using members)]

/-- Where there are none, the request is refused, and the failures tell why. -/
theorem createBulk_nobody (k : Coordinator) (opens : request.Opens s reference)
    (truthful : s.cases.Truthful) (empty : request.multiple.memberReferences = [])
    (nobody : (request.joiners reference s.cases.records).eligible = [])
    : ∃ t,
        (k.createBulk request).Fails s
          (.validation (.noEligibleCases (request.joiners reference s.cases.records).failures))
          t := by
  obtain ⟨t, _, ends⟩ := k.prepareCreation_opens opens truthful
  rw [empty, nobody] at ends
  rw [createBulk_eq]
  exact ⟨t, Round.fails_bind.mpr (.inl ends)⟩

end Coordinator

-----------------------------------------------------------------------------------------
-- Owners after a reconciliation
-----------------------------------------------------------------------------------------

/-- Writes that do not touch the membership of a case leave it to its multiple, by induction on the
writes.
-/
theorem owner?_afterWrites {cases : Register CaseReference SingleCase} {writes : List CaseWrite}
    {case : CaseReference} (keeps : ∀ w ∈ writes, w.case = case → w.change.membership = .keep)
    : owner? (afterWrites cases writes) case = owner? cases case := by
  induction writes generalizing cases with
  | nil => rfl
  | cons w rest ih =>
      refine (ih fun v member => keeps v (List.mem_cons_of_mem w member)).trans ?_
      rw [owner?, get?_afterWrite]
      split
      next here =>
        have kept := keeps w List.mem_cons_self here.symm
        rw [owner?]
        cases cases.get? case with
        | none => rfl
        | some c => simp [ChangeSet.apply_multiple, kept, MembershipChange.owner]
      next => rfl

namespace Reconciliation

variable {r : Reconciliation} {cases : Register CaseReference SingleCase} {case : CaseReference}

/-- A stored case that joins belongs to the multiple once all writes are done. -/
theorem WellPosed.owner_of_joins (posed : r.WellPosed) (joins : case ∈ r.delta.toAttach)
    (stored : (cases.get? case).isSome)
    : owner? (afterWrites cases (r.writes cases)) case = some r.reference := by
  obtain ⟨c, stored⟩ := Option.isSome_iff_exists.mp stored
  have planned := List.mem_append_right r.plan.detach (attach_mem_plan joins)
  have written : (afterWrites cases r.plan.writes).get? case
      = (cases.get? case).map (r.targeting.decorate case _).apply :=
    get?_afterWrites posed.nodup_writes planned
  rw [Reconciliation.writes, afterWrites_append,
    owner?_afterWrites fun w flag _ => r.keep_of_settlement cases w flag, owner?, written, stored]
  rw [Option.map_some, Option.bind_some, ChangeSet.apply_multiple, Targeting.decorate_membership]
  rfl

/-- If nobody leaves, all others belong to the multiple that they belonged to. -/
theorem owner_of_stays (nobody : r.delta.toDetach = []) (other : case ∉ r.delta.toAttach)
    : owner? (afterWrites cases (r.writes cases)) case = owner? cases case := by
  refine owner?_afterWrites fun w member here => ?_
  rcases List.mem_append.mp member with planned | flag
  · rcases List.mem_append.mp planned with leaves | written
    · have leaves := (mem_detach_plan.mp leaves).1
      rw [nobody] at leaves
      cases leaves
    · exact membership_of_stays written (by rwa [here])
  · exact r.keep_of_settlement cases w flag

end Reconciliation

-----------------------------------------------------------------------------------------
-- A first commit that fails, and the same request again
-----------------------------------------------------------------------------------------

namespace Coordinator

variable {k : Coordinator} {s t : Stores} {request : BulkCreation}
  {reference next : MultipleReference} {case : CaseReference}

/-- A new multiple is committed under its reference with the members that its request lists, and
with eligible cases besides. Who was not eligible is named.
-/
theorem opening_returns {cases : Register CaseReference SingleCase} {outcome : RoundOutcome}
    (returns : (k.reconcile (request.opening reference cases)).Returns s outcome t)
    (keyed : s.cases.Keyed)
    : outcome.multiple.reference = some reference
      ∧ (∀ case ∈ outcome.multiple.memberReferences,
          case ∉ request.multiple.memberReferences
          → case ∈ (request.joiners reference cases).eligible)
      ∧ (request.joiners reference cases).failures ⊆ outcome.failures := by
  have posed := request.wellPosed_opening reference cases
  have reconciled := reconcile_returns returns
  obtain ⟨done, u, _, members, failures⟩ := reconciled.divided posed keyed
  obtain ⟨_, _, commits, _, _⟩ := reconciled
  refine ⟨?_, fun case member new => ?_, List.Subset.trans (List.subset_append_left _ _) failures⟩
  · rw [record_of_commit commits]
    rfl
  · rw [members] at member
    exact ((Reconciliation.mem_members_ofCreation.mp member).resolve_left new).1

/-- A new multiple whose first commit fails has its cases by then, but no record. The stores have
another reference ready for the next attempt.
-/
theorem createBulk_interrupted (inMemory : s.InMemory)
    (unhindered : ∀ case, s.cases.Unhindered case) (searching : s.cases.searchFault = none)
    (e : MultipleStoreError) (mode : request.mode = .synchronousFanOut)
    (opens : request.Opens s reference)
    (members
      : request.multiple.memberReferences = []
        → (request.joiners reference s.cases.records).eligible ≠ [])
    : ∃ t next,
        (k.createBulk request).Fails (s.failCommit e) (.ofMultipleStore e) t
        ∧ Interrupted (request.opening reference s.cases.records) s t
        ∧ request.Opens t next
        ∧ next ≠ reference := by
  have truthful := inMemory.truthful searching
  obtain ⟨_, _, prepares⟩ := k.prepare_opens opens truthful members
  obtain ⟨_, prepared⟩ := prepare_returns inMemory prepares
  have allocated : (s.failCommit e).multiples.allocate.1 = .ok reference := by
    rw [← opens.allocated]
    exact MultipleStore.allocate_congr rfl rfl rfl rfl
  obtain ⟨p, multiples, prepares⟩ := k.prepare_opens (s := s.failCommit e)
    ⟨opens.valid, opens.named, opens.absent, allocated⟩ truthful members
  obtain ⟨free, _, _, leaves⟩ := MultipleStore.allocate_eq_ok allocated
  rw [leaves] at multiples
  have sync : (RoundRequest.create request).mode = .synchronousFanOut := mode
  obtain ⟨t, fails, interrupted, after⟩ := interrupted_of_prepare inMemory unhindered searching e
    sync prepared prepares (by rw [multiples]; rfl)
  rw [multiples] at after
  obtain ⟨next, allocated'⟩ := MultipleStore.exists_allocated (s := t.multiples)
    (by rw [after]; exact free)
  have office : t.multiples.office = s.multiples.office := by rw [after]; rfl
  have sequence : t.multiples.sequence = (s.failCommit e).multiples.allocate.2.sequence := by
    rw [after]
  refine ⟨t, next, fails, interrupted, ⟨opens.valid, opens.named, opens.absent, allocated'⟩, ?_⟩
  exact MultipleStore.allocate_again allocated office (Nat.le_of_eq sequence.symm) allocated'

namespace Interrupted

variable (interrupted : Interrupted (request.opening reference s.cases.records) s t)

include interrupted

/-- A case that has joined belongs to the multiple that was not stored. -/
theorem owner_of_eligible (eligible : case ∈ (request.joiners reference s.cases.records).eligible)
    (new : case ∉ request.multiple.memberReferences)
    : owner? t.cases.records case = some reference := by
  have posed := request.wellPosed_opening reference s.cases.records
  obtain ⟨c, stored, _⟩ := verdict?_eq_none.mp (BulkCreation.mem_eligible_joiners.mp eligible).2
  rw [interrupted.cases]
  exact posed.owner_of_joins (BulkCreation.mem_toAttach_opening.mpr ⟨eligible, new⟩)
    (by rw [stored]; rfl)

/-- With another reference it is refused. -/
theorem refuses (other : next ≠ reference)
    (eligible : case ∈ (request.joiners reference s.cases.records).eligible)
    (new : case ∉ request.multiple.memberReferences)
    : case ∉ (request.joiners next t.cases.records).eligible
      ∧ ⟨case, "already belongs to multiple " ++ reference.text⟩
        ∈ (request.joiners next t.cases.records).failures :=
  BulkCreation.refuses_of_verdict (BulkCreation.mem_eligible_joiners.mp eligible).1
    (verdict?_of_owner (interrupted.owner_of_eligible eligible new) other)

/-- So only those may join who are listed as members already, unless a case belonged to that
reference before.
-/
theorem eligible_again (other : next ≠ reference)
    (unowned : ∀ case, owner? s.cases.records case ≠ some next)
    : (request.joiners next t.cases.records).eligible ⊆ request.multiple.memberReferences := by
  intro case eligible
  refine Decidable.byContradiction fun new => ?_
  have stays : case ∉ (request.opening reference s.cases.records).delta.toAttach := fun joins =>
    (interrupted.refuses other (BulkCreation.mem_toAttach_opening.mp joins).1 new).1 eligible
  have same : owner? t.cases.records case = owner? s.cases.records case := by
    rw [interrupted.cases]
    exact Reconciliation.owner_of_stays BulkCreation.toDetach_opening stays
  obtain ⟨asked, free⟩ := BulkCreation.mem_eligible_joiners.mp eligible
  obtain ⟨stored, owner⟩ := verdict?_eq_none_iff_owner.mp free
  rw [interrupted.cases, stored_afterWrites] at stored
  refine stays (BulkCreation.mem_toAttach_opening.mpr ⟨?_, new⟩)
  refine BulkCreation.mem_eligible_joiners.mpr ⟨asked, ?_⟩
  refine verdict?_eq_none_iff_owner.mpr ⟨stored, fun q belongs => ?_⟩
  obtain rfl := owner q (same.trans belongs)
  exact absurd belongs (unowned case)

variable (opens : request.Opens t next) (other : next ≠ reference)

include opens other

/-- If the request lists nobody, the retry is refused. -/
theorem refused_again (empty : request.multiple.memberReferences = [])
    (unowned : ∀ case, owner? s.cases.records case ≠ some next)
    : ∃ v,
        (k.createBulk request).Fails t
          (.validation (.noEligibleCases (request.joiners next t.cases.records).failures)) v := by
  refine createBulk_nobody k opens interrupted.alike.truthful' empty ?_
  have known := interrupted.eligible_again other unowned
  rw [empty] at known
  exact List.subset_nil.mp known

/-- Otherwise it returns with those who are listed, and nobody else. -/
theorem returns_again (mode : request.mode = .synchronousFanOut)
    (inhabited : request.multiple.memberReferences ≠ [])
    (unowned : ∀ case, owner? s.cases.records case ≠ some next)
    : ∃ again v,
        (k.createBulk request).Returns t again v
        ∧ again.multiple.memberReferences = request.multiple.memberReferences := by
  obtain ⟨p, _, prepares⟩ := k.prepare_opens opens interrupted.alike.truthful'
    fun empty => absurd empty inhabited
  have asked := asked_of_prepare prepares
  have inMemory := interrupted.inMemory.asked asked
  have posed := request.wellPosed_opening next t.cases.records
  have fresh : p.multiples.version? next = none := by
    rw [MultipleStore.version?, asked.multiples, MultipleStore.get?_of_allocated opens.allocated]
    rfl
  obtain ⟨again, v, reconciles⟩ := reconcile_of_fresh (k := k) posed rfl mode inMemory
    (fun case => asked.unhindered (interrupted.unhindered case))
    (asked.commitFault.trans interrupted.free) fresh
  refine ⟨again, v, ?_, ?_⟩
  · rw [createBulk_eq]
    exact Round.returns_bind.mpr ⟨_, p, prepares, reconciles⟩
  obtain ⟨done, _, _, members, _⟩ := (reconcile_returns reconciles).divided posed inMemory.keyed
  have nobody : (request.opening next t.cases.records).delta.toAttach = [] :=
    List.eq_nil_iff_forall_not_mem.mpr fun case joins => by
      obtain ⟨eligible, new⟩ := BulkCreation.mem_toAttach_opening.mp joins
      exact new (interrupted.eligible_again other unowned eligible)
  have distinct := (Multiple.validateIncoming_eq_ok.mp opens.valid).2
  rw [members, Reconciliation.cases_members_of_done (fun case joins => ?_) fun case leaves => ?_]
  · exact proposed_creationDelta inhabited distinct (interrupted.eligible_again other unowned)
  · rw [nobody] at joins
    cases joins
  · rw [BulkCreation.toDetach_opening] at leaves
    cases leaves

end Interrupted

/-- A round for a new multiple that would return, but whose first commit fails, leaves no record and
its joiners in a multiple whose reference nobody has been told. The same request is given another
reference the next time. If it returns then, it commits none of these cases and names all of them.
Unless cases belonged to that other reference before, it returns if it lists members, and commits
nobody else; if it lists none it is refused.
-/
theorem createBulk_strands (k : Coordinator) {u : Stores} {outcome : RoundOutcome}
    (inMemory : s.InMemory) (unhindered : ∀ case, s.cases.Unhindered case)
    (searching : s.cases.searchFault = none) (e : MultipleStoreError)
    (mode : request.mode = .synchronousFanOut) (absent : request.multiple.reference = none)
    (succeeds : (k.createBulk request).Returns s outcome u)
    : ∃ reference next t,
        outcome.multiple.reference = some reference
        ∧ (k.createBulk request).Fails (s.failCommit e) (.ofMultipleStore e) t
        ∧ t.multiples.records = s.multiples.records
        ∧ t.multiples.records.get? reference = none
        ∧ t.multiples.allocate.1 = .ok next
        ∧ next ≠ reference
        ∧ (∀ case ∈ outcome.multiple.memberReferences,
            case ∉ request.multiple.memberReferences
            → owner? t.cases.records case = some reference
              ∧ ∀ again v,
                (k.createBulk request).Returns t again v
                → case ∉ again.multiple.memberReferences
                  ∧ ⟨case, "already belongs to multiple " ++ reference.text⟩ ∈ again.failures)
        ∧ ((∀ case, owner? s.cases.records case ≠ some next)
          → if request.multiple.memberReferences = [] then
              ∃ failures v,
                (k.createBulk request).Fails t (.validation (.noEligibleCases failures)) v
                ∧ ∀ case ∈ outcome.multiple.memberReferences,
                  ⟨case, "already belongs to multiple " ++ reference.text⟩ ∈ failures
            else
              ∃ again v,
                (k.createBulk request).Returns t again v
                ∧ again.multiple.memberReferences = request.multiple.memberReferences) := by
  have truthful := inMemory.truthful searching
  obtain ⟨reference, p, opens, prepares, performs, members⟩ :=
    opens_of_returns truthful absent succeeds
  obtain ⟨own, joined, _⟩ := opening_returns performs
    ((asked_of_prepare prepares).keyed inMemory.keyed)
  obtain ⟨t, next, fails, interrupted, opens', other⟩ :=
    createBulk_interrupted (k := k) inMemory unhindered searching e mode opens members
  refine ⟨reference, next, t, own, fails, interrupted.records, ?_, opens'.allocated, other,
    fun case member new => ?_, fun unowned => ?_⟩
  · rw [interrupted.records]
    exact MultipleStore.get?_of_allocated opens.allocated
  · have eligible := joined case member new
    refine ⟨interrupted.owner_of_eligible eligible new, fun again v returns => ?_⟩
    obtain ⟨next', q, opens'', prepares', performs', _⟩ :=
      opens_of_returns interrupted.alike.truthful' absent returns
    obtain rfl := Except.ok.inj (opens'.allocated.symm.trans opens''.allocated)
    obtain ⟨_, joined', named⟩ := opening_returns performs'
      ((asked_of_prepare prepares').keyed interrupted.inMemory.keyed)
    obtain ⟨ineligible, failed⟩ := interrupted.refuses other eligible new
    exact ⟨fun member' => ineligible (joined' case member' new), named failed⟩
  · split
    next empty =>
      obtain ⟨v, fails'⟩ := interrupted.refused_again (k := k) opens' other empty unowned
      refine ⟨_, v, fails', fun case member => ?_⟩
      have new : case ∉ request.multiple.memberReferences := by
        rw [empty]
        exact List.not_mem_nil
      exact (interrupted.refuses other (joined case member new) new).2
    next inhabited => exact interrupted.returns_again opens' other mode inhabited unowned

end Coordinator

namespace Sample

theorem unhindered_stores (case : CaseReference) : (stores []).cases.Unhindered case :=
  ⟨rfl, List.not_mem_nil⟩

/-- The first attempt meets a transport error, and the second one refuses its case. -/
theorem stranded_of_transport
    : ∃ outcome u reference t failures v,
        (coordinator.carryOut creating).Returns (stores []) outcome u
        ∧ outcome.multiple.memberReferences = [one]
        ∧ (coordinator.carryOut creating).Fails ((stores []).failCommit (.transport "down"))
            (.multipleStore (.transport "down")) t
        ∧ owner? t.cases.records one = some reference
        ∧ t.multiples.records.get? reference = none
        ∧ (coordinator.carryOut creating).Fails t (.validation (.noEligibleCases failures)) v
        ∧ ⟨one, "already belongs to multiple " ++ reference.text⟩ ∈ failures := by
  obtain ⟨outcome, u, returns, members⟩
      : ∃ outcome u,
          (coordinator.carryOut creating).Returns (stores []) outcome u
          ∧ outcome.multiple.memberReferences = [one] :=
    Round.exists_returns (by decide +kernel)
  have member : one ∈ outcome.multiple.memberReferences := by simp [members]
  obtain ⟨reference, next, t, _, fails, _, unstored, _, _, owned, again⟩ :=
    coordinator.createBulk_strands (reachable_stores []).inMemory unhindered_stores rfl
      (.transport "down") rfl rfl returns
  obtain ⟨failures, v, refused, named⟩ := again fun case => by simp [owner?_stores]
  exact ⟨outcome, u, reference, t, failures, v, returns, members, fails,
    (owned one member List.not_mem_nil).1, unstored, refused, named one member⟩

/-- So a round without hindrance that meets one transport error cannot be retried. -/
theorem creation_not_retried
    : ¬ ∀ (k : Coordinator) (s t u : Stores) (request : BulkCreation) (outcome : RoundOutcome)
          (detail : String),
          s.Reachable
          → (∀ case, s.cases.Unhindered case)
          → s.cases.searchFault = none
          → request.mode = .synchronousFanOut
          → request.multiple.reference = none
          → (k.createBulk request).Returns s outcome u
          → (k.createBulk request).Fails (s.failCommit (.transport detail))
              (.multipleStore (.transport detail)) t
          → ∃ again v,
              (k.createBulk request).Returns t again v
              ∧ again.multiple.memberReferences = outcome.multiple.memberReferences := by
  intro claim
  let t := ((coordinator.carryOut creating).runOn ((stores []).failCommit (.transport "down"))).2
  obtain ⟨outcome, u, returns, _⟩
      : ∃ outcome u,
          (coordinator.carryOut creating).Returns (stores []) outcome u
          ∧ outcome.multiple.memberReferences = [one] :=
    Round.exists_returns (by decide +kernel)
  have fails : (coordinator.carryOut creating).Fails ((stores []).failCommit (.transport "down"))
      (.multipleStore (.transport "down")) t :=
    Prod.ext rfl rfl
  obtain ⟨again, v, retried, _⟩ := claim coordinator (stores []) t u _ outcome "down"
    (reachable_stores []) unhindered_stores rfl rfl rfl returns fails
  have refused : ((coordinator.carryOut creating).runOn t).1.toOption = none := by decide +kernel
  rw [show (coordinator.carryOut creating).runOn t = (.ok again, v) from retried] at refused
  cases refused

end Sample

end CaseGrouping
