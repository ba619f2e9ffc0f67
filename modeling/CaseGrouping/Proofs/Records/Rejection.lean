import CaseGrouping.Proofs.Round.Reachable
import CaseGrouping.Proofs.Store.Commits

/-! Rounds that end with a validation error. All of the checks that come after the questions of a
round hold for the work of every request, so by then nothing has been written, enqueued or
committed.
-/

namespace CaseGrouping

-----------------------------------------------------------------------------------------
-- Commits of records with a reference
-----------------------------------------------------------------------------------------

/-- No commit has been set up to be answered with a missing reference. -/
structure MultipleStore.Candid (s : MultipleStore) : Prop where
  fault : s.commitFault ≠ some .missingReference
  hooks : some (.refuse .missingReference) ∉ s.hooks

namespace MultipleStore.Candid

variable {s : MultipleStore} (candid : s.Candid)

include candid

/-- A swap uses up the fault that it meets at most. -/
theorem compareAndSwap (m : Multiple) (expected : Option UInt64)
    : (s.compareAndSwap m expected).2.Candid := by
  unfold MultipleStore.compareAndSwap
  split
  · exact ⟨by simp, candid.hooks⟩
  · exact candid
  · dsimp only
    split
    · exact ⟨candid.fault, candid.hooks⟩
    · exact candid

/-- A record with a reference is not found to have none. -/
theorem compareAndSwap_ne {m : Multiple} {r : MultipleReference} (own : m.reference = some r)
    (expected : Option UInt64)
    : (s.compareAndSwap m expected).1 ≠ .error .missingReference := by
  unfold MultipleStore.compareAndSwap
  split
  next e fault =>
    intro same
    rw [Except.error.inj same] at fault
    exact candid.fault fault
  next none =>
    rw [own] at none
    cases none
  · dsimp only
    split <;> simp

theorem touch (r : MultipleReference) : (s.touch r).Candid := by
  unfold MultipleStore.touch
  split
  · exact candid
  · exact candid.compareAndSwap _ _

/-- A commit is a swap on such a store again, or is refused with another error. -/
theorem commit_cases (m : Multiple) (expected : Option UInt64)
    : (∃ u : MultipleStore, u.Candid ∧ s.commit m expected = u.compareAndSwap m expected)
      ∨ ∃ e u, e ≠ .missingReference ∧ u.Candid ∧ s.commit m expected = (.error e, u) := by
  have passed : Candid { s with hooks := s.hooks.tail } :=
    ⟨candid.fault, fun member => candid.hooks (List.mem_of_mem_tail member)⟩
  unfold MultipleStore.commit
  dsimp only
  split
  · exact .inl ⟨_, passed, rfl⟩
  · exact .inl ⟨_, passed.touch _, rfl⟩
  next e due =>
    have hook : some (.refuse e) ∈ s.hooks :=
      List.mem_of_head? (Option.join_eq_some_iff.mp due)
    refine .inr ⟨e, _, fun same => ?_, passed, rfl⟩
    rw [same] at hook
    exact candid.hooks hook

theorem commit (m : Multiple) (expected : Option UInt64) : (s.commit m expected).2.Candid := by
  rcases candid.commit_cases m expected with ⟨u, kept, swap⟩ | ⟨e, u, _, kept, refused⟩
  · rw [swap]
    exact kept.compareAndSwap m expected
  · rw [refused]
    exact kept

theorem commit_ne {m : Multiple} {r : MultipleReference} (own : m.reference = some r)
    (expected : Option UInt64)
    : (s.commit m expected).1 ≠ .error .missingReference := by
  rcases candid.commit_cases m expected with ⟨u, kept, swap⟩ | ⟨e, u, other, _, refused⟩
  · rw [swap]
    exact kept.compareAndSwap_ne own expected
  · rw [refused]
    simpa using other

end MultipleStore.Candid

-----------------------------------------------------------------------------------------
-- Parts of rounds that pass
-----------------------------------------------------------------------------------------

namespace Round

/-- (x.Passes P) says that no run of x on stores with P ends with a validation error. -/
def Passes (P : Stores → Prop) (x : Round α) : Prop :=
  ∀ ⦃s⦄, P s → ∀ cause t, ¬ x.Fails s (.validation cause) t

variable {P : Stores → Prop}

theorem passes_pure (a : α) : (pure a : Round α).Passes P :=
  fun _ _ _ _ => not_fails_pure

theorem passes_attempt (call : StateM Stores α) : (attempt call).Passes P :=
  fun _ _ _ _ => not_fails_attempt

theorem passes_check {verdict : Except ValidationError α} {a : α} (ok : verdict = .ok a)
    : (check verdict).Passes P := by
  intro s _ cause t fails
  rw [ok] at fails
  cases fails

theorem passes_ite {c : Prop} [Decidable c] {x y : Round α} (yes : x.Passes P) (no : y.Passes P)
    : (if c then x else y).Passes P := by
  split
  · exact yes
  · exact no

/-- What passes on all stores passes on those with P. -/
theorem Passes.weaken {x : Round α} (passes : x.Passes fun _ => True) : x.Passes P :=
  fun _ _ => passes trivial

/-- A round passes if its first part does, keeping what the rest passes on. -/
theorem passes_bind {x : Round α} {f : α → Round β} (first : x.Passes P) (keeps : x.Keeps P)
    (next : ∀ a, (f a).Passes P)
    : (x >>= f).Passes P := by
  intro s holds cause t fails
  rcases fails_bind.mp fails with fails | ⟨a, u, returns, fails⟩
  · exact first holds cause t fails
  · exact next a (keeps.of_returns holds returns) cause t fails

end Round

namespace Coordinator

open Round

variable {k : Coordinator} {P : Stores → Prop} {r : Reconciliation} {m : Movement}

/-- A queue that refuses a job gives another error, by induction on the jobs. -/
theorem enqueueAll_passes (jobs : List Job) (done : Propagation)
    : (enqueueAll jobs done).Passes fun _ => True := by
  induction jobs generalizing done with
  | nil => exact passes_pure _
  | cons job rest ih =>
      refine passes_bind (passes_attempt _) (fun _ _ => trivial) fun answer => ?_
      cases answer with
      | error e =>
          intro s _ cause t fails
          cases fails
      | ok ack => exact ih _

theorem propagate_passes (reference : MultipleReference) (expected : Option UInt64)
    (plan : PropagationPlan) (mode : PropagationMode)
    : (k.propagate reference expected plan mode).Passes P := by
  cases mode with
  | synchronousFanOut => exact passes_attempt _
  | durableQueue =>
      exact passes_bind (P := fun _ => True) (passes_attempt _) (fun _ _ => trivial)
        (fun now => enqueueAll_passes _ _) |>.weaken

theorem settle_passes (own : r.multiple.reference = some r.reference)
    (written : List CaseReference)
    : (k.settle r written).Passes P := by
  refine passes_ite (passes_pure _) (Passes.weaken ?_)
  exact passes_bind (passes_check (Multiple.checkReference_of_reference own)) (fun _ _ => trivial)
    fun _ => passes_attempt _

theorem commit_passes (own : r.multiple.reference = some r.reference) (members : List Member)
    : (k.commit r members).Passes fun s => s.multiples.Candid := by
  intro s candid cause t fails
  obtain ⟨e, answer, error⟩ := fails_multiples.mp fails
  have missing : e = .missingReference := by
    cases e <;> first | rfl | cases error
  have answered := congrArg Prod.fst (Stores.multiples_commit answer)
  rw [missing] at answered
  have recordOwn : (r.record members).reference = some r.reference := own
  exact candid.commit_ne recordOwn r.expected answered

-----------------------------------------------------------------------------------------
-- Rounds
-----------------------------------------------------------------------------------------

/-- Writes and jobs leave alone what has been set up to happen to commits. -/
theorem candid_outlasts : Outlasts (fun _ => True) fun s => s.multiples.Candid where
  submit := fun _ _ _ _ candid => candid
  passTime := fun _ _ candid => candid
  enqueue := fun _ _ candid => candid

theorem propagate_keeps_candid (reference : MultipleReference) (expected : Option UInt64)
    (plan : PropagationPlan) (mode : PropagationMode)
    : (k.propagate reference expected plan mode).Keeps fun s => s.multiples.Candid :=
  candid_outlasts.propagate _ _ (fun _ _ => trivial) mode

theorem settle_keeps_candid (r : Reconciliation) (written : List CaseReference)
    : (k.settle r written).Keeps fun s => s.multiples.Candid :=
  candid_outlasts.settle (fun _ _ => trivial) written

theorem commit_keeps_candid (r : Reconciliation) (members : List Member)
    : (k.commit r members).Keeps fun s => s.multiples.Candid :=
  keeps_multiples fun _ candid => candid.commit _ _

/-- A reconciliation under its reference passes all checks, step by step. -/
theorem reconcile_passes (own : r.multiple.reference = some r.reference)
    : (k.reconcile r).Passes fun s => s.multiples.Candid := by
  have checked := Multiple.checkReference_of_reference own
  refine passes_bind (passes_check checked) (keeps_check _) fun _ => ?_
  refine passes_bind (propagate_passes _ _ _ _) (propagate_keeps_candid _ _ _ _) fun done => ?_
  refine passes_bind (settle_passes own _) (settle_keeps_candid _ _) fun settled => ?_
  exact passes_bind (commit_passes own _) (commit_keeps_candid _ _) fun _ => passes_pure _

/-- So does a move between multiples under their references. -/
theorem move_passes (targetOwn : m.target.multiple.reference = some m.target.reference)
    (own : m.source.multiple.reference = some m.source.reference)
    : (k.move m).Passes fun s => s.multiples.Candid := by
  refine passes_bind (propagate_passes _ _ _ _) (propagate_keeps_candid _ _ _ _) fun _ => ?_
  refine passes_bind (propagate_passes _ _ _ _) (propagate_keeps_candid _ _ _ _) fun _ => ?_
  refine passes_bind (settle_passes targetOwn _) (settle_keeps_candid _ _) fun target => ?_
  refine passes_bind (settle_passes own _) (settle_keeps_candid _ _) fun source => ?_
  refine passes_bind (commit_passes targetOwn _) (commit_keeps_candid _ _) fun _ => ?_
  exact passes_bind (commit_passes own _) (commit_keeps_candid _ _) fun _ => passes_pure _

/-- The work of a request is never found invalid, whatever the stores hold. -/
theorem perform_passes {s : Stores} {request : RoundRequest} {work : Work}
    (prepares : k.Prepares s request work)
    : (k.perform work).Passes fun s => s.multiples.Candid := by
  cases prepares with
  | creation _ _ _ => exact reconcile_passes rfl
  | inPlace _ own _ _ => exact reconcile_passes own
  | move _ own _ _ _ _ targetOwn => exact move_passes targetOwn own

/-- A round that ends with a validation error has asked questions only: no write, no job and no
commit was sent, and all cases, all records and the queue are as they were.
-/
theorem carryOut_rejects (k : Coordinator) {s t : Stores} {request : RoundRequest}
    {cause : ValidationError} (candid : s.multiples.Candid)
    (rejects : (k.carryOut request).Fails s (.validation cause) t)
    : s.Questioned t
      ∧ t.cases.records = s.cases.records
      ∧ t.multiples.records = s.multiples.records
      ∧ t.queue = s.queue := by
  rcases k.carryOut_cases request s with
    ⟨e, u, asked, ends⟩ | ⟨work, u, asked, prepares, ends⟩
  · cases ends.symm.trans rejects
    exact ⟨asked.questioned, asked.cases, asked.multiples, asked.queue⟩
  · have later : u.multiples.Candid := by
      refine ⟨?_, ?_⟩
      · rw [asked.commitFault]
        exact candid.fault
      · rw [asked.hooks]
        exact candid.hooks
    exact absurd (ends.symm.trans rejects) (perform_passes prepares later cause t)

end Coordinator

/-- A creation round whose only case belongs to another multiple is rejected once it has asked for a
reference and searched for the case.
-/
theorem Sample.questioned_of_rejected
    : ∃ t,
        (coordinator.carryOut creating).Fails (owned other)
          (.validation (.noEligibleCases [⟨one, "already belongs to multiple 4"⟩])) t
        ∧ t.journal.length = 2
        ∧ (owned other).Questioned t
        ∧ t.cases.records = (owned other).cases.records
        ∧ t.multiples.records = (owned other).multiples.records
        ∧ t.queue = (owned other).queue := by
  have rejects : (coordinator.carryOut creating).Fails (owned other)
      (.validation (.noEligibleCases [⟨one, "already belongs to multiple 4"⟩]))
      ((coordinator.carryOut creating).runOn (owned other)).2 :=
    rfl
  refine ⟨_, rejects, by decide +kernel, ?_⟩
  exact coordinator.carryOut_rejects ⟨by decide, by decide⟩ rejects

end CaseGrouping
