import CaseGrouping.Proofs.Round.Reachable
import CaseGrouping.Proofs.Store.Commits

/-! What a round that fails leaves of the records. A move commits its two records one after the
other, so the target may have been committed when the commit of the source fails; nothing else is
left.
-/

namespace CaseGrouping

namespace Coordinator

variable {k : Coordinator} {s t : Stores} {e : RoundError}

-----------------------------------------------------------------------------------------
-- Where a move can fail
-----------------------------------------------------------------------------------------

/-- (MoveFails k m s e t) lists how far a move has come when it fails. -/
inductive MoveFails (k : Coordinator) (m : Movement) (s : Stores) (e : RoundError) (t : Stores)
    : Prop where
  | propagating (untouched : t.multiples = s.multiples)
  | target {u members} (untouched : u.multiples = s.multiples)
    (fails : (k.commit m.target members).Fails u e t)
  | source {u written targetMembers sourceMembers movedTo v}
    (untouched : u.multiples = s.multiples)
    (settled : targetMembers.map Member.case = (m.target.members written).map Member.case)
    (commits : (k.commit m.target targetMembers).Returns u movedTo v)
    (fails : (k.commit m.source sourceMembers).Fails v e t)

/-- Writes and jobs leave the records alone. -/
theorem multiples_outlasts (multiples : MultipleStore)
    : Outlasts (fun _ => True) fun s => s.multiples = multiples where
  submit := fun _ _ _ _ same => same
  passTime := fun _ _ same => same
  enqueue := fun _ _ same => same

/-- A move that fails does so before it commits or when it commits, by cases on its steps. -/
theorem move_fails {m : Movement} (fails : (k.move m).Fails s e t) : MoveFails k m s e t := by
  have untouched := multiples_outlasts s.multiples
  have propagates : ∀ reference expected plan mode,
      (k.propagate reference expected plan mode).Keeps fun u => u.multiples = s.multiples :=
    fun _ _ _ mode => untouched.propagate _ _ (fun _ _ => trivial) mode
  have settles := fun r written =>
    untouched.settle (k := k) (r := r) (fun _ _ => trivial) written
  rcases Round.fails_bind.mp fails with fails | ⟨toTarget, u₁, target, fails⟩
  · exact .propagating ((propagates _ _ _ _).of_fails rfl fails)
  have same₁ := (propagates _ _ _ _).of_returns rfl target
  rcases Round.fails_bind.mp fails with fails | ⟨toSource, u₂, source, fails⟩
  · exact .propagating ((propagates _ _ _ _).of_fails same₁ fails)
  have same₂ := (propagates _ _ _ _).of_returns same₁ source
  rcases Round.fails_bind.mp fails with fails | ⟨⟨targetMembers, _⟩, u₃, targetSettled, fails⟩
  · exact .propagating ((settles _ _).of_fails same₂ fails)
  have same₃ := (settles _ _).of_returns same₂ targetSettled
  rcases Round.fails_bind.mp fails with fails | ⟨⟨sourceMembers, _⟩, u₄, sourceSettled, fails⟩
  · exact .propagating ((settles _ _).of_fails same₃ fails)
  have same₄ := (settles _ _).of_returns same₃ sourceSettled
  rcases Round.fails_bind.mp fails with fails | ⟨movedTo, v, commits, fails⟩
  · exact .target same₄ fails
  rcases Round.fails_bind.mp fails with fails | ⟨committed, w, commits', fails⟩
  · exact .source same₄ (cases_of_settle targetSettled) commits fails
  · exact absurd fails Round.not_fails_pure

-----------------------------------------------------------------------------------------
-- Rounds with a target
-----------------------------------------------------------------------------------------

/-- (HalfMoved k request target s e t) says that a move on the stores s has committed its target,
with all of the members that it had and none but matched cases besides, and has then failed with e
because the store refused the commit of the source.
-/
inductive HalfMoved (k : Coordinator) (request : BulkUpdate) (target : MultipleReference)
    (s : Stores) (e : RoundError) (t : Stores) : Prop where
  | steps {stored targetMembers reference sourceMembers u cause}
    (found : s.multiples.records.get? target = some stored)
    (kept : stored.memberReferences ⊆ targetMembers.map Member.case)
    (joined
      : ∀ case ∈ targetMembers.map Member.case,
          case ∈ stored.memberReferences ∨ case ∈ request.matched)
    (others : s.multiples.Meanwhile [target] u.multiples)
    (committed
      : u.multiples.records.get? target
        = some ((stored.withMembers targetMembers).clearSearch.withVersion
            (MultipleStore.successor stored.version)))
    (own : request.multiple.reference = some reference)
    (refused
      : Stores.commit k.scope (request.multiple.withMembers sourceMembers).clearSearch
          (request.multiple.version <|> s.multiples.version? reference) u
        = (.error cause, t))
    (untouched : u.multiples.Meanwhile [] t.multiples) (error : e = .ofMultipleStore cause)

variable {request : BulkUpdate} {target : MultipleReference}

/-- The target of a movement keeps its members and is joined by those who leave the source. -/
theorem members_target {m : Movement} {round : RoundRequest}
    (prepared : m.Prepared round s) (written : List CaseReference)
    : m.target.multiple.memberReferences ⊆ (m.target.members written).map Member.case
      ∧ ∀ case ∈ (m.target.members written).map Member.case,
          case ∈ m.target.multiple.memberReferences ∨ case ∈ m.source.delta.toDetach := by
  constructor
  · intro case member
    have stays : case ∉ m.target.delta.toAttach := fun joins =>
      (prepared.target.splits.mem_toAttach.mp joins).2 member
    exact prepared.target.mem_members.mpr
      (.inl ⟨(prepared.mem_proposed case).mpr (.inl member), fun joins => absurd joins stays⟩)
  · intro case member
    rcases Reconciliation.proposed_or_leaves_of_mem_members member with proposed | leaves
    · exact (prepared.mem_proposed case).mp proposed
    · rw [prepared.toDetach_target] at leaves
      cases leaves

/-- A move expects the target to be as it was loaded, and the source as the request says. -/
theorem Prepares.expected {m : Movement} (prepares : k.Prepares s (.update request) (.move m))
    : m.target.expected = m.target.multiple.version
      ∧ m.source.expected
        = (request.multiple.version <|> s.multiples.version? m.source.reference) := by
  cases prepares with
  | move _ _ _ _ _ _ _ => exact ⟨rfl, rfl⟩

/-- When a round with a target fails, all records are as they were, up to what other clients have
committed meanwhile, or the target has been committed and the commit of the source was refused.
-/
theorem updateBulk_fails (k : Coordinator) (filed : s.multiples.Filed)
    (named : request.target = some target) (fails : (k.updateBulk request).Fails s e t)
    : s.multiples.Meanwhile [] t.multiples ∨ HalfMoved k request target s e t := by
  rcases k.carryOut_cases (.update request) s with
    ⟨e', t', asked, ends⟩ | ⟨work, u, asked, prepares, ends⟩
  · cases ends.symm.trans fails
    exact .inl (.of_eq filed asked.multiples asked.hooks)
  have questions : s.multiples.Meanwhile [] u.multiples :=
    .of_eq filed asked.multiples asked.hooks
  obtain ⟨m, rfl, prepared, rfl⟩ := prepares.moves filed named
  cases move_fails (ends.symm.trans fails) with
  | propagating untouched =>
      rw [← untouched] at questions
      exact .inl questions
  | target untouched fails =>
      rw [← untouched] at questions
      obtain ⟨cause, refused, _⟩ := Round.fails_multiples.mp fails
      have failed := MultipleStore.commit_eq_error questions.filed
        (Stores.multiples_commit refused)
      exact .inl (questions.trans failed)
  | @source _ written targetMembers _ _ _ untouched settled commits fails =>
      rw [← untouched] at questions
      obtain ⟨targetExpected, sourceExpected⟩ := prepares.expected
      have stored := Round.returns_multiples.mp commits
      obtain ⟨cause, refused, error⟩ := Round.fails_multiples.mp fails
      rw [sourceExpected, prepared.carried] at refused
      have targetOwn : (m.target.record targetMembers).reference = some m.target.reference :=
        prepared.targetOwn
      obtain ⟨moved, committed⟩ := MultipleStore.commit_eq_ok questions.filed targetOwn
        (Stores.multiples_commit stored)
      obtain ⟨kept, joined⟩ := members_target prepared written
      rw [targetExpected] at committed
      rw [← settled] at kept joined
      have own := prepared.own
      rw [prepared.carried] at own
      refine .inr (.steps prepared.stored kept (fun case member => ?_)
        ((questions.mono (List.nil_subset _)).trans moved) committed own refused
        (MultipleStore.commit_eq_error moved.filed (Stores.multiples_commit refused)) error)
      exact (joined case member).imp_right fun leaves => (prepares.leaves.mp leaves).1

end Coordinator

namespace Sample

/-- Another round has committed the first multiple, so its record is not at version 1 any more. -/
def advanced : Stores :=
  ((coordinator.carryOut (joining .synchronousFanOut)).runOn (owned group)).2

theorem reachable_advanced : advanced.Reachable :=
  .round coordinator (joining .synchronousFanOut) (reachable_owned group)

/-- A move with an outdated record of its source fails after the commit of its target. -/
theorem half_moved_of_outdated
    : ∃ e t,
        (coordinator.updateBulk moving).Fails advanced e t
        ∧ t.multiples.version? other = some 2
        ∧ (advanced.multiples.Meanwhile [] t.multiples
          ∨ Coordinator.HalfMoved coordinator moving other advanced e t) := by
  refine ⟨_, _, rfl, by decide +kernel, ?_⟩
  exact coordinator.updateBulk_fails reachable_advanced.inMemory.filed rfl rfl

/-- So a move that fails need not leave both records as they were. -/
theorem target_committed_alone
    : ¬ ∀ (k : Coordinator) (s t : Stores) (request : BulkUpdate) (source target : MultipleReference)
          (e : RoundError),
          s.Reachable
          → request.multiple.reference = some source
          → request.target = some target
          → (k.updateBulk request).Fails s e t
          → t.multiples.records.get? source = s.multiples.records.get? source
            ∧ t.multiples.records.get? target = s.multiples.records.get? target := by
  intro claim
  have same := (claim coordinator advanced _ moving group other _ reachable_advanced rfl rfl rfl).2
  have versions := congrArg (Option.bind · Multiple.version) same
  exact absurd versions (by decide +kernel)

end Sample

end CaseGrouping
