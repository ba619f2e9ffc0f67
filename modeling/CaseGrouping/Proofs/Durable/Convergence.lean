import CaseGrouping.Proofs.Agreement.Sides
import CaseGrouping.Proofs.Durable.Enqueued
import Mathlib.Data.List.Pairwise

/-! Delivery of jobs at least once. A job that is applied again changes nothing, and no two jobs of
a round are for one case, so neither order nor repetition of the deliveries matters.
-/

namespace CaseGrouping

-----------------------------------------------------------------------------------------
-- Changes and jobs that are applied again
-----------------------------------------------------------------------------------------

theorem ChangeSet.writeTo_writeTo (c : ChangeSet) (case : SingleCase)
    : c.writeTo (c.writeTo case) = c.writeTo case := by
  unfold writeTo
  cases c.lead <;> cases c.subGroup <;> simp [Register.insertAll_insertAll]

/-- A change that is applied again changes nothing. One that detaches does not even find its
multiple again.
-/
theorem ChangeSet.apply_apply (c : ChangeSet) (case : SingleCase)
    : c.apply (c.apply case) = c.apply case := by
  cases membership : c.membership with
  | keep =>
      simp only [apply, membership]
      exact c.writeTo_writeTo case
  | attach multiple =>
      simp only [apply, membership]
      exact c.writeTo_writeTo { case with multiple := some multiple }
  | detach multiple =>
      simp only [apply, membership]
      by_cases belongs : case.multiple = some multiple
      · simp [belongs, writeTo]
      · simp [belongs]

namespace Job

@[simp]
theorem apply_reference (job : Job) (c : SingleCase)
    : (job.apply c).reference = c.reference := by
  unfold apply
  split
  · exact ChangeSet.apply_reference _ _
  · rfl

theorem apply_apply (job : Job) (c : SingleCase) : job.apply (job.apply c) = job.apply c := by
  by_cases targeted : job.targets c.reference
  · have changed : ∀ d : SingleCase, d.reference = c.reference
        → job.apply d = job.change.apply d :=
      fun d same => by rw [apply, same, if_pos targeted]
    rw [changed c rfl, changed _ (ChangeSet.apply_reference _ _), ChangeSet.apply_apply]
  · have untouched : job.apply c = c := if_neg targeted
    rw [untouched, untouched]

end Job

/-- The change takes a case out of a multiple that it does not belong to. -/
def ChangeSet.Stray (c : ChangeSet) (case : SingleCase) : Prop :=
  ∃ m, c.membership = .detach m ∧ case.multiple ≠ some m

/-- The change takes cases out of a multiple. -/
def ChangeSet.detaches (c : ChangeSet) : Bool :=
  match c.membership with
  | .detach _ => true
  | _ => false

/-- (c.Written before after) says that a case has all values that the change sets and has kept the
others, except that a case which leaves has lost its multiple, its lead flag and its tag.
-/
structure ChangeSet.Written (c : ChangeSet) (before after : SingleCase) : Prop where
  reference : after.reference = before.reference
  status : after.status = before.status
  multiple : after.multiple = c.membership.owner before.multiple
  lead : after.leadClaimant = c.lead.getD (!c.detaches && before.leadClaimant)
  subGroup : after.subGroup = (c.subGroup <|> if c.detaches then none else before.subGroup)
  fields : ∀ key, after.fields.get? key = (c.fields.get? key <|> before.fields.get? key)

theorem ChangeSet.apply_of_stray {c : ChangeSet} {case : SingleCase} (stray : c.Stray case)
    : c.apply case = case := by
  obtain ⟨m, leaves, other⟩ := stray
  rw [apply, leaves]
  exact if_neg other

theorem ChangeSet.written_apply {c : ChangeSet} {case : SingleCase} (own : ¬ c.Stray case)
    : c.Written case (c.apply case) := by
  have written : ∀ case' : SingleCase, c.apply case = c.writeTo case'
      → case'.reference = case.reference → case'.status = case.status
      → case'.leadClaimant = (!c.detaches && case.leadClaimant)
      → case'.subGroup = (if c.detaches then none else case.subGroup)
      → case'.fields = case.fields
      → c.Written case (c.apply case) := by
    intro case' writes reference status lead subGroup fields
    refine ⟨?_, ?_, c.apply_multiple case, ?_, ?_, fun key => ?_⟩ <;> rw [writes]
    · exact reference
    · exact status
    · rw [← lead]
      rfl
    · rw [← subGroup]
      rfl
    · rw [← fields]
      exact Register.get?_insertAll_entries case'.fields c.fields key
  cases membership : c.membership with
  | keep =>
      exact written case (by simp [apply, membership]) rfl rfl (by simp [detaches, membership])
        (by simp [detaches, membership]) rfl
  | attach m =>
      exact written { case with multiple := some m } (by simp [apply, membership]) rfl rfl
        (by simp [detaches, membership]) (by simp [detaches, membership]) rfl
  | detach m =>
      have belongs : case.multiple = some m := by
        by_contra other
        exact own ⟨m, membership, other⟩
      exact written { case with multiple := none, leadClaimant := false, subGroup := none }
        (by simp [apply, membership, belongs]) rfl rfl (by simp [detaches, membership])
        (by simp [detaches, membership]) rfl

/-- Changes and jobs that are applied again change nothing. A change that takes a case out of a
multiple which it does not belong to leaves it alone, whatever else the change sets, and any other
change writes all that it sets. A job does to the cases that it addresses what its change does, and
leaves other cases alone.
-/
theorem Job.apply_idempotent
    : (∀ (c : ChangeSet) (case : SingleCase),
        c.apply (c.apply case) = c.apply case
        ∧ (c.Stray case → c.apply case = case)
        ∧ (¬ c.Stray case → c.Written case (c.apply case)))
      ∧ ∀ (job : Job) (case : SingleCase),
          job.apply (job.apply case) = job.apply case
          ∧ (case.reference ∉ job.cases → job.apply case = case)
          ∧ (case.reference ∈ job.cases → job.apply case = job.change.apply case) := by
  refine ⟨fun c case => ⟨c.apply_apply case, ChangeSet.apply_of_stray, ChangeSet.written_apply⟩,
    fun job case => ⟨job.apply_apply case, fun absent => ?_, fun addressed => ?_⟩⟩
  · exact if_neg fun targeted => absent (of_decide_eq_true targeted)
  · exact if_pos (decide_eq_true addressed)

namespace Job

/-- The case after jobs have been applied to it, one after the other. -/
def applyAll (jobs : List Job) (c : SingleCase) : SingleCase :=
  jobs.foldl (fun c job => job.apply c) c

variable {jobs deliveries : List Job} {job : Job} {c : SingleCase}

/-- Jobs that are not for a case leave it alone, by induction on the jobs. -/
theorem applyAll_of_untargeted (others : ∀ job ∈ jobs, job.targets c.reference = false)
    : applyAll jobs c = c := by
  induction jobs with
  | nil => rfl
  | cons first rest ih =>
      have untouched : first.apply c = c := if_neg (by simp [others first])
      change applyAll rest (first.apply c) = c
      rw [untouched]
      exact ih fun job member => others job (by simp [member])

/-- If only one job is for a case, the case is as after this job alone, however often it was
applied. The induction is on the jobs.
-/
theorem applyAll_of_single (only : ∀ other ∈ jobs, other.targets c.reference → other = job)
    (member : job ∈ jobs)
    : applyAll jobs c = job.apply c := by
  induction jobs generalizing c with
  | nil => cases member
  | cons first rest ih =>
      change applyAll rest (first.apply c) = job.apply c
      have later : ∀ other ∈ rest, other.targets (first.apply c).reference → other = job := by
        intro other inside targeted
        rw [apply_reference] at targeted
        exact only other (by simp [inside]) targeted
      by_cases again : job ∈ rest
      · rw [ih later again]
        by_cases targeted : first.targets c.reference
        · rw [only first (by simp) targeted, apply_apply]
        · rw [show first.apply c = c from if_neg targeted]
      · obtain rfl : job = first := (List.mem_cons.mp member).resolve_right again
        refine applyAll_of_untargeted fun other inside => ?_
        refine Bool.eq_false_iff.mpr fun targeted => again ?_
        rw [← later other inside targeted]
        exact inside

/-- Among jobs that share no case, only one is for a given case. -/
theorem eq_of_targets {other : Job} {r : CaseReference} (distinct : (jobs.flatMap cases).Nodup)
    (inside : job ∈ jobs) (targeted : job.targets r) (otherInside : other ∈ jobs)
    (otherTargeted : other.targets r)
    : other = job := by
  have symmetric : Std.Symm (Function.onFun List.Disjoint cases) :=
    ⟨fun _ _ => List.disjoint_symm⟩
  by_contra different
  have apart := (List.nodup_flatMap.mp distinct).2.forall otherInside inside different
  exact apart (of_decide_eq_true otherTargeted) (of_decide_eq_true targeted)

/-- What jobs make of a case depends on which jobs were applied only, if no two of them share a
case.
-/
theorem applyAll_congr (distinct : (jobs.flatMap cases).Nodup)
    (each : ∀ job, job ∈ deliveries ↔ job ∈ jobs) (c : SingleCase)
    : applyAll deliveries c = applyAll jobs c := by
  by_cases targeted : ∃ job ∈ jobs, job.targets c.reference
  · obtain ⟨job, inside, targeted⟩ := targeted
    have only : ∀ other ∈ jobs, other.targets c.reference → other = job :=
      fun other otherInside => eq_of_targets distinct inside targeted otherInside
    rw [applyAll_of_single only inside,
      applyAll_of_single (fun other member => only other ((each other).mp member))
        ((each job).mpr inside)]
  · have others : ∀ job ∈ jobs, job.targets c.reference = false := by
      intro job inside
      exact Bool.eq_false_iff.mpr fun target => targeted ⟨job, inside, target⟩
    rw [applyAll_of_untargeted others,
      applyAll_of_untargeted fun job member => others job ((each job).mp member)]

end Job

-----------------------------------------------------------------------------------------
-- Deliveries
-----------------------------------------------------------------------------------------

/-- The cases after jobs have been applied to all of them, one job after the other. -/
def afterJobs (cases : Register CaseReference SingleCase) (jobs : List Job)
    : Register CaseReference SingleCase :=
  jobs.foldl (fun cases job => cases.mapValues job.apply) cases

/-- Every case goes its way by itself, by induction on the jobs. -/
theorem afterJobs_eq_mapValues (cases : Register CaseReference SingleCase) (jobs : List Job)
    : afterJobs cases jobs = cases.mapValues (Job.applyAll jobs) := by
  induction jobs generalizing cases with
  | nil => exact (Register.mapValues_id cases).symm
  | cons job rest ih =>
      refine (ih (cases.mapValues job.apply)).trans ?_
      rw [Register.mapValues_mapValues]
      rfl

/-- Jobs that share no case make of any cases what deliveries of them make, whatever the order and
the repetitions.
-/
theorem afterJobs_congr {jobs deliveries : List Job} (distinct : (jobs.flatMap Job.cases).Nodup)
    (each : ∀ job, job ∈ deliveries ↔ job ∈ jobs) (cases : Register CaseReference SingleCase)
    : afterJobs cases deliveries = afterJobs cases jobs := by
  rw [afterJobs_eq_mapValues, afterJobs_eq_mapValues]
  congr 1
  funext c
  exact Job.applyAll_congr distinct each c

/-- Writes of one change to some cases change each of them once, by induction on the cases. -/
theorem get?_afterWrites_of_same (cases : Register CaseReference SingleCase)
    (rs : List CaseReference) (change : ChangeSet) (r : CaseReference)
    : (afterWrites cases (rs.map (⟨·, change⟩))).get? r
      = if r ∈ rs then (cases.get? r).map change.apply else cases.get? r := by
  induction rs generalizing cases with
  | nil => rfl
  | cons q rest ih =>
      refine (ih (afterWrite cases ⟨q, change⟩)).trans ?_
      rw [get?_afterWrite]
      have again : change.apply ∘ change.apply = change.apply :=
        funext change.apply_apply
      by_cases here : r = q <;> by_cases later : r ∈ rest <;>
        simp [here, later, again, Option.map_map]

namespace Stores

variable {s : Stores}

/-- The consumer applies a job to all stored cases. -/
theorem replay_records_eq_mapValues (job : Job) (keyed : s.cases.Keyed)
    : (s.replay job).cases.records = s.cases.records.mapValues job.apply := by
  refine Register.ext_get? fun r => ?_
  rw [replay_records job keyed, Job.writes, get?_afterWrites_of_same, Register.get?_mapValues]
  cases stored : s.cases.records.get? r with
  | none => simp
  | some c =>
      have reference : c.reference = r := keyed r c stored
      simp [Job.apply, Job.targets, reference]
      split <;> rfl

/-- The consumer applies jobs to all stored cases, by induction on the jobs. -/
theorem foldl_replay_records_eq_afterJobs (jobs : List Job) (keyed : s.cases.Keyed)
    : (jobs.foldl replay s).cases.records = afterJobs s.cases.records jobs := by
  induction jobs generalizing s with
  | nil => rfl
  | cons job rest ih =>
      rw [List.foldl_cons, ih (keyed_replay job keyed).1, replay_records_eq_mapValues job keyed]
      rfl

end Stores

/-- Jobs that are delivered at least once each, in any order and with any repetitions, make of any
cases what the jobs of the round make of them when each is applied once, in the order of the queue.
So a consumer that replays the deliveries stores the same cases as one that replays the queue. This
holds however the round ends; a move is between multiples that share no case.
-/
theorem Coordinator.carryOut_deliveries_converge (k : Coordinator) {s : Stores}
    {request : RoundRequest} (filed : s.multiples.Filed) (apart : request.Apart s)
    (deliveries : List Job)
    (each
      : ∀ job, job ∈ deliveries ↔ job ∈ s.newJobs ((k.carryOut request).runOn s).2)
    : (∀ cases : Register CaseReference SingleCase,
        afterJobs cases deliveries
        = afterJobs cases (s.newJobs ((k.carryOut request).runOn s).2))
      ∧ ∀ t : Stores,
          t.cases.Keyed
          → (deliveries.foldl .replay t).cases.records
            = ((s.newJobs ((k.carryOut request).runOn s).2).foldl .replay t).cases.records := by
  have converge := afterJobs_congr (k.carryOut_newJobs filed apart) each
  refine ⟨converge, fun t keyed => ?_⟩
  rw [Stores.foldl_replay_records_eq_afterJobs deliveries keyed, converge,
    ← Stores.foldl_replay_records_eq_afterJobs _ keyed]

namespace Sample

/-- Takes a case out of the first multiple, but has it marked as a lead, tagged and given a value.
-/
def leaving : ChangeSet :=
  { membership := .detach group
    lead := some true
    subGroup := some "A"
    fields := Register.insert ∅ "amount" (.number (.natural 5)) }

/-- A case of another multiple is not even marked, tagged or given the value. One that leaves is,
and then belongs to no multiple, so that the change is not for it any more. A job for another case
does nothing.
-/
theorem idempotent_of_leaving
    : let stray : SingleCase := { reference := one, multiple := some other }
      let member : SingleCase := { reference := one, multiple := some group }
      let job : Job := .make group (some 1) [two] leaving .epoch
      leaving.Stray stray
      ∧ leaving.apply stray = stray
      ∧ ¬ leaving.Stray member
      ∧ leaving.Written member (leaving.apply member)
      ∧ leaving.Stray (leaving.apply member)
      ∧ leaving.apply (leaving.apply member) = leaving.apply member
      ∧ member.reference ∉ job.cases
      ∧ job.apply member = member := by
  intro stray member job
  obtain ⟨changes, jobs⟩ := Job.apply_idempotent
  have strays : leaving.Stray stray := ⟨group, rfl, by decide⟩
  have belongs : ¬ leaving.Stray member := by
    rintro ⟨m, leaves, away⟩
    cases leaves
    exact away rfl
  have unaddressed : member.reference ∉ job.cases := by decide
  exact ⟨strays, (changes leaving stray).2.1 strays, belongs, (changes leaving member).2.2 belongs,
    ⟨group, rfl, by decide⟩, (changes leaving member).1, unaddressed,
    (jobs job member).2.1 unaddressed⟩

/-- The jobs of a round that attaches two cases. -/
def attaching : List Job :=
  (stores []).newJobs
    ((coordinator.carryOut (joining .durableQueue)).runOn (stores [])).2

/-- Deliveries of these jobs in reverse, of the first one once more, and of all of them again. -/
def redelivered : List Job :=
  attaching.reverse ++ attaching.take 1 ++ attaching

/-- Two jobs are enqueued; delivering them in reverse, one of them again and again, attaches both
cases just the same, also when the consumer replays them.
-/
theorem converge_of_repeated
    : attaching.length = 2
      ∧ (stores []).cases.Keyed
      ∧ afterJobs (stores []).cases.records redelivered
        = afterJobs (stores []).cases.records attaching
      ∧ (redelivered.foldl .replay (stores [])).cases.records
        = (attaching.foldl .replay (stores [])).cases.records := by
  have apart : (joining .durableQueue).Apart (stores []) := by
    intro target stored moves
    cases moves
  have each : ∀ job, job ∈ redelivered ↔ job ∈ attaching := by
    refine fun job => ⟨fun delivered => ?_, fun enqueued => List.mem_append_right _ enqueued⟩
    rcases List.mem_append.mp delivered with first | last
    · rcases List.mem_append.mp first with reversed | again
      · exact List.mem_reverse.mp reversed
      · exact List.mem_of_mem_take again
    · exact last
  have inMemory := (reachable_stores []).inMemory
  obtain ⟨mapped, replayed⟩ :=
    coordinator.carryOut_deliveries_converge inMemory.filed apart _ each
  exact ⟨by decide +kernel, inMemory.keyed, mapped _, replayed _ inMemory.keyed⟩

end Sample

end CaseGrouping
