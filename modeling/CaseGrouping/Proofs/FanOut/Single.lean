import CaseGrouping.Proofs.FanOut.Sequential

/-! A write that goes through the pool alone. It comes to what its attempts one after another come
to, and it is all that is called.
-/

namespace CaseGrouping

-----------------------------------------------------------------------------------------
-- Attempts
-----------------------------------------------------------------------------------------

/-- What a write has come to tells the same of its case as its last reply. -/
theorem WriteReply.Effect.outcome {w : CaseWrite} {before now : Option SingleCase}
    {reply : WriteReply} (effect : reply.Effect w before now)
    : (Phase.finished (reply.outcome w)).Effect w before now := by
  cases reply with
  | crashed => exact ⟨rfl, effect⟩
  | answered answer =>
      cases answer with
      | ok c => exact effect
      | error e => exact ⟨rfl, effect⟩

/-- A reply that may get better has left the case as it was. -/
theorem WriteReply.Effect.of_mayPass {w : CaseWrite} {before now : Option SingleCase}
    {reply : WriteReply} (effect : reply.Effect w before now) (mayPass : reply.mayPass)
    : now = before := by
  cases reply with
  | crashed => exact effect
  | answered answer =>
      cases answer with
      | ok c => cases mayPass
      | error e => exact effect

/-- A repeated write tells what has become of its case, by induction on the further attempts. -/
theorem CaseStore.persist_effect (further : Nat) (s : CaseStore) (w : CaseWrite)
    : (Phase.finished (s.persist further w).1).Effect w (s.records.get? w.case)
        ((s.persist further w).2.records.get? w.case) := by
  induction further generalizing s with
  | zero => exact (submit_submitted s w).effect.outcome
  | succ further ih =>
      have effect := (submit_submitted s w).effect
      simp only [persist]
      split
      next mayPass =>
        rw [← effect.of_mayPass mayPass]
        exact ih _
      next => exact effect.outcome

-----------------------------------------------------------------------------------------
-- The pool
-----------------------------------------------------------------------------------------

/-- The calls so far. -/
def Stores.calls (s : Stores) : List Call :=
  s.journal.map JournalEntry.call

namespace Pool

/-- (p.Alone f w s replies) says that the only task of a pool has sent its write w once for each of
the replies, and that this is all that was called since the stores were s.
-/
structure Alone (f : FanOut) (w : CaseWrite) (s : Stores) (replies : List WriteReply) (p : Pool)
    : Prop where
  task
    : ∃ t,
        p.tasks = [t]
        ∧ t.write = w
        ∧ t.phase.Follows w f.retry.maxAttempts t.attempt replies
  calls : p.stores.calls = s.calls ++ List.replicate replies.length (.submit f.caseType w)

theorem alone_ofWrites (f : FanOut) (w : CaseWrite) (s : Stores)
    : (ofWrites f [w] s).Alone f w s [] where
  task := ⟨{ write := w, ticket := 0 }, rfl, rfl, rfl, f.attempts_pos, fun _ none => nomatch none⟩
  calls := (List.append_nil _).symm

/-- A task that starts sends its write once more, and its other moves call nothing. -/
theorem Move.alone {f : FanOut} {w : CaseWrite} {s : Stores} {replies : List WriteReply}
    {p q : Pool} {i : Nat} {t : Task} (found : p.tasks[i]? = some t) (move : Move f p i t q)
    (alone : p.Alone f w s replies)
    : ∃ replies, q.Alone f w s replies := by
  obtain ⟨_, tasks, rfl, follows⟩ := alone.task
  rw [tasks, List.getElem?_singleton] at found
  split at found
  next first =>
    cases found
    subst first
    have found : p.tasks[0]? = some t := by rw [tasks]; rfl
    have moved : ∀ reply?, Turn f p 0 t reply? q
        → q.stores.calls
          = p.stores.calls ++ List.replicate reply?.toList.length (.submit f.caseType t.write)
        → ∃ replies, q.Alone f t.write s replies := by
      intro reply? turn calls
      obtain ⟨t', tasks', follows'⟩ := turn.follows follows
      have single : q.tasks = [t'] := by rw [tasks', tasks]; rfl
      have same : t'.write = t.write := by
        have writes := turn.writes found
        rw [single, tasks] at writes
        exact (List.cons.inj writes).1
      refine ⟨replies ++ reply?.toList, ⟨t', single, same, same ▸ follows'⟩, ?_⟩
      rw [calls, alone.calls, List.append_assoc, List.replicate_append_replicate,
        List.length_append]
    cases move with
    | start queued permit =>
        exact moved (some _) (.start queued permit) List.map_append
    | settle writing => exact moved none (.settle writing) (List.append_nil _).symm
    | wake resting => exact moved none (.wake resting) (List.append_nil _).symm
  next => cases found

end Pool

namespace FanOut

/-- A write that goes through the pool alone comes to what it comes to by itself. -/
theorem execute_alone (f : FanOut) (w : CaseWrite) (s : Stores)
    : (f.execute [w] s).1 = .ofOutcomes [(s.cases.persist (f.retry.maxAttempts - 1) w).1]
      ∧ CaseStore.AgreeOn w.case (f.execute [w] s).2.cases
          (s.cases.persist (f.retry.maxAttempts - 1) w).2
      ∧ ∀ r ≠ w.case, CaseStore.AgreeOn r (f.execute [w] s).2.cases s.cases := by
  have finish := Pool.run_induction (P := Pool.Underway f [w] s)
    (fun found => Pool.Move.underway found) (Pool.steps f (Pool.ofWrites f [w] s))
    (Pool.underway_ofWrites f s (List.nodup_singleton _))
  have apart := finish.apart.finished (Pool.run_ofWrites_finishes f [w] s)
  rw [finish.writes] at apart
  refine ⟨?_, apart.written w (by simp), fun r ne => apart.untouched r (by simpa using ne)⟩
  exact congrArg FanOutReport.ofOutcomes apart.results

/-- It is submitted once for each of its attempts, and no other call is made. -/
theorem execute_alone_calls (f : FanOut) (w : CaseWrite) (s : Stores)
    : ∃ n, 0 < n ∧ n ≤ f.retry.maxAttempts
        ∧ (f.execute [w] s).2.calls = s.calls ++ List.replicate n (.submit f.caseType w) := by
  obtain ⟨replies, task, calls⟩ := Pool.run_induction
    (P := fun p => ∃ replies, Pool.Alone f w s replies p)
    (fun found move ⟨_, alone⟩ => move.alone found alone)
    (Pool.steps f (Pool.ofWrites f [w] s))
    ⟨[], Pool.alone_ofWrites f w s⟩
  obtain ⟨t, tasks, same, follows⟩ := task
  have finished := Pool.run_ofWrites_finishes f [w] s t (by simp [tasks])
  cases phase : t.phase <;> simp [Task.outcome?, phase] at finished
  rw [phase] at follows
  obtain ⟨earlier, last, rfl, _, within, _⟩ := follows
  exact ⟨_, by simp, within, calls⟩

/-- Without writes nothing is called. -/
theorem execute_nil (f : FanOut) (s : Stores) : f.execute [] s = ({}, s) := by
  have none : (Pool.ofWrites f [] s).steps f = 0 := by
    simp [Pool.steps, Pool.ofWrites]
  rw [execute, none]
  rfl

end FanOut

end CaseGrouping
