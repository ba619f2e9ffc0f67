import CaseGrouping.Proofs.Round.Queueing
import CaseGrouping.Proofs.Round.Reachable

/-! Records that rounds commit are well formed, whatever the request says: the members come from the
delta alone, and the flag from an election or, with writes in the queue, from the chosen lead.
-/

namespace CaseGrouping

-----------------------------------------------------------------------------------------
-- Settled members
-----------------------------------------------------------------------------------------

/-- Different members with the flag on one of them, if there are any. -/
structure Led (members : List Member) : Prop where
  distinct : (members.map Member.case).Nodup
  flagged
    : ∃ lead, Multiple.Flagged lead members ∧ Leads lead (members.map Member.case)

/-- A record that is committed with such members passes all checks. -/
theorem Reconciliation.record_checkInvariants {r : Reconciliation} {members : List Member}
    (led : Led members) (version : UInt64)
    : ((r.record members).withVersion version).checkInvariants = .ok () := by
  obtain ⟨distinct, lead, flagged, leads⟩ := led
  exact Multiple.checkInvariants_of_flagged distinct flagged leads rfl rfl

namespace Reconciliation

variable {r : Reconciliation} {written : List CaseReference} {members : List Member}
  {failures : List Failure} {before after : Register CaseReference SingleCase}

/-- An election leaves the flag on one of the members. -/
theorem Settled.led (settled : r.Settled written before after members failures)
    (posed : r.WellPosed)
    : Led members := by
  have cases := settled.cases
  obtain ⟨lead, elected, rfl⟩ := settled
  refine ⟨?_, _, flagged_withLead _ _, ?_⟩
  · rw [cases]
    exact posed.nodup_members written
  · rw [cases]
    exact elected.leads

/-- When all that join were handed to the queue, the chosen lead is among the members. Nobody is
chosen only if nobody is proposed, and then nobody may be left.
-/
theorem WellPosed.led_of_joins (posed : r.WellPosed)
    (joins : ∀ case ∈ r.delta.toAttach, case ∈ written)
    (nobody : r.delta.proposed = [] → r.members written = [])
    : Led (r.members written) := by
  refine ⟨posed.nodup_members written, r.lead, posed.flagged_members written, ?_, fun some => ?_⟩
  · intro lead chosen
    have proposed := posed.leads.mem chosen
    exact posed.mem_members.mpr (.inl ⟨proposed, joins lead⟩)
  · refine posed.leads.isSome fun none => some ?_
    rw [nobody none]
    rfl

/-- So it is when everything was handed to the queue: nobody is left then who was not proposed. -/
theorem WellPosed.led (posed : r.WellPosed)
    (joins : ∀ case ∈ r.delta.toAttach, case ∈ written)
    (leaves : ∀ case ∈ r.delta.toDetach, case ∈ written)
    : Led (r.members written) := by
  refine posed.led_of_joins joins fun none => ?_
  have cases := cases_members_of_done joins leaves
  rw [none] at cases
  exact List.map_eq_nil_iff.mp cases

/-- The plan writes to whoever joins or leaves. -/
theorem mem_writes_plan {case : CaseReference}
    (moves : case ∈ r.delta.toAttach ∨ case ∈ r.delta.toDetach)
    : case ∈ r.plan.writes.map CaseWrite.case := by
  rw [PropagationPlan.writes, List.map_append, List.mem_append]
  rcases moves with joins | leaves
  · exact .inr (List.mem_map.mpr ⟨_, attach_mem_plan joins, rfl⟩)
  · exact .inl (List.mem_map.mpr ⟨_, detach_mem_plan leaves, rfl⟩)

/-- So a record with the members that the plan leads to lists the proposed cases, and has the chosen
lead.
-/
theorem WellPosed.listed_of_plan (posed : r.WellPosed) {record : Multiple}
    (members : record.members = r.members (r.plan.writes.map CaseWrite.case))
    : record.memberReferences = r.delta.proposed ∧ record.leadCase? = r.lead :=
  posed.listed_of_done (fun _ joins => mem_writes_plan (.inl joins))
    (fun _ leaves => mem_writes_plan (.inr leaves)) members

end Reconciliation

-----------------------------------------------------------------------------------------
-- Versions
-----------------------------------------------------------------------------------------

/-- (s.Precedes r m) says that the record m takes its place under r as the first one, at version 1,
or with the version after that of the record in the store s.
-/
def MultipleStore.Precedes (s : MultipleStore) (r : MultipleReference) (m : Multiple) : Prop :=
  s.records.get? r = none ∧ m.version = some 1
  ∨ ∃ old v, s.records.get? r = some old ∧ old.version = some v ∧ m.version = some (v + 1)

/-- A swap at the expected version stores such a record. -/
theorem MultipleStore.Filed.precedes {s : MultipleStore} {r : MultipleReference} {m : Multiple}
    {expected : Option UInt64} (filed : s.Filed) (fresh : s.version? r = expected)
    : s.Precedes r (m.withVersion (MultipleStore.successor expected)) := by
  cases found : s.records.get? r with
  | none =>
      rw [version?, found, Option.bind_none] at fresh
      subst fresh
      exact .inl ⟨found, rfl⟩
  | some old =>
      obtain ⟨_, v, version⟩ := filed r old found
      rw [version?_of_get? found, version] at fresh
      subst fresh
      exact .inr ⟨old, v, found, version, rfl⟩

-----------------------------------------------------------------------------------------
-- Rounds
-----------------------------------------------------------------------------------------

/-- (Sealed s t record) says that a round from s to t has committed the record, and how: it passes
all checks, holds no filter result, and replaces what was stored under its reference.
-/
structure Sealed (s t : Stores) (record : Multiple) : Prop where
  valid : record.checkInvariants = .ok ()
  search : record.search = []
  stored
    : ∃ r, record.reference = some r
        ∧ t.multiples.records.get? r = some record
        ∧ s.multiples.Precedes r record

/-- A record with settled members is sealed by its commit, if it was expected at the version that
the round began with.
-/
theorem Sealed.of_record {s t : Stores} {r : Reconciliation} {members : List Member}
    {record : Multiple} (led : Led members) (own : r.multiple.reference = some r.reference)
    (filed : s.multiples.Filed) (fresh : s.multiples.version? r.reference = r.expected)
    (settled : record = (r.record members).withVersion (MultipleStore.successor r.expected))
    (stored : t.multiples.records.get? r.reference = some record)
    : Sealed s t record where
  valid := by
    rw [settled]
    exact Reconciliation.record_checkInvariants led _
  search := by
    rw [settled]
    rfl
  stored := by
    refine ⟨r.reference, ?_, stored, ?_⟩
    · rw [settled]
      exact own
    · rw [settled]
      exact filed.precedes fresh

namespace Coordinator

variable {k : Coordinator} {s t u : Stores} {outcome : RoundOutcome} {request : RoundRequest}

/-- On either way, propagation leaves the records alone; handing a plan to the queue reports all
of its cases.
-/
theorem propagate_returns {reference : MultipleReference} {expected : Option UInt64}
    {plan : PropagationPlan} {mode : PropagationMode} {done : Propagation}
    (inMemory : s.InMemory)
    (returns : (k.propagate reference expected plan mode).Returns s done t)
    : t.InMemory ∧ t.multiples = s.multiples
      ∧ (mode = .durableQueue → ∀ case ∈ plan.writes.map CaseWrite.case, case ∈ done.written) := by
  have kept := Stores.InMemory.kept.propagate (k := k) reference expected plan mode inMemory
  rw [returns] at kept
  refine ⟨kept, ?_⟩
  cases mode with
  | synchronousFanOut =>
      have wrote := k.fanOutPlan_wrote plan s
      rw [propagate_synchronous.mp returns] at wrote
      exact ⟨wrote.multiples, fun durable => by cases durable⟩
  | durableQueue =>
      obtain ⟨queued, written, _⟩ := enqueuePlan_returns returns
      exact ⟨queued.multiples, fun _ case member => (written case).mpr member⟩

/-- Members are settled with one lead, by an election unless the writes are still in the queue. -/
theorem led_of_settle {r : Reconciliation} {written : List CaseReference} {members : List Member}
    {failures : List Failure} (posed : r.WellPosed) (keyed : s.cases.Keyed)
    (queued : r.mode = .durableQueue → Led (r.members written))
    (settles : (k.settle r written).Returns s (members, failures) t)
    : Led members := by
  cases mode : r.mode with
  | synchronousFanOut => exact (settle_synchronous mode keyed settles).2.led posed
  | durableQueue =>
      rw [settle_durable mode] at settles
      cases settles
      exact queued mode

/-- So it is when everybody was written, and nothing but cases is written to. -/
theorem settle_led {r : Reconciliation} {written : List CaseReference} {members : List Member}
    {failures : List Failure} (posed : r.WellPosed) (inMemory : s.InMemory)
    (all
      : r.mode = .durableQueue
        → ∀ case, case ∈ r.delta.toAttach ∨ case ∈ r.delta.toDetach → case ∈ written)
    (settles : (k.settle r written).Returns s (members, failures) t)
    : Led members ∧ t.InMemory ∧ t.multiples = s.multiples := by
  have led : Led members := by
    refine led_of_settle posed inMemory.keyed (fun durable => ?_) settles
    exact posed.led (fun case joins => all durable case (.inl joins))
      fun case leaves => all durable case (.inr leaves)
  cases mode : r.mode with
  | synchronousFanOut =>
      obtain ⟨wrote, _⟩ := settle_synchronous mode inMemory.keyed settles
      exact ⟨led, inMemory.wrote wrote, wrote.multiples⟩
  | durableQueue =>
      rw [settle_durable mode] at settles
      cases settles
      exact ⟨led, inMemory, rfl⟩

/-- A reconciliation commits a sealed record. -/
theorem Reconciled.sealed {r : Reconciliation} (reconciled : Reconciled k r s outcome t)
    (posed : r.WellPosed) (own : r.multiple.reference = some r.reference)
    (inMemory : s.InMemory)
    : Sealed s t outcome.multiple ∧ outcome.movedTo = none := by
  obtain ⟨propagated, settled, committed, movedTo, _⟩ := reconciled
  obtain ⟨inMemory', multiples, all⟩ := propagate_returns inMemory propagated
  obtain ⟨led, inMemory'', multiples'⟩ := settle_led posed inMemory'
    (fun durable case moves => all durable case (Reconciliation.mem_writes_plan moves)) settled
  obtain ⟨committed, _, _⟩ := commit_returns own inMemory''.hooks committed
  rw [multiples'.trans multiples] at committed
  refine ⟨.of_record led own inMemory.filed committed.fresh committed.record ?_, movedTo⟩
  rw [committed.stored, Register.get?_insert_self]

/-- A move through the pool commits two sealed records. -/
theorem Moved.sealed {m : Movement} (moved : Moved k m s outcome t)
    (prepared : m.Prepared request u) (mode : request.mode = .synchronousFanOut)
    (inMemory : s.InMemory)
    : ∀ record ∈ outcome.records, Sealed s t record := by
  obtain ⟨target, source, targetSettled, sourceSettled, targetCommitted, sourceCommitted, movedTo,
    _⟩ := moved
  have immediate : ∀ {r : Reconciliation} {written : List CaseReference}, r.mode = request.mode
      → r.mode = .durableQueue
      → ∀ case, case ∈ r.delta.toAttach ∨ case ∈ r.delta.toDetach → case ∈ written := by
    intro r written same durable
    rw [durable, mode] at same
    cases same
  obtain ⟨inMemory₁, multiples₁, _⟩ := propagate_returns inMemory target
  obtain ⟨inMemory₂, multiples₂, _⟩ := propagate_returns inMemory₁ source
  obtain ⟨targetLed, inMemory₃, multiples₃⟩ :=
    settle_led prepared.target inMemory₂ (immediate prepared.targetMode) targetSettled
  obtain ⟨sourceLed, inMemory₄, multiples₄⟩ :=
    settle_led prepared.source inMemory₃ (immediate prepared.sourceMode) sourceSettled
  obtain ⟨committed, _⟩ :=
    commits_return prepared inMemory₄.hooks targetCommitted sourceCommitted
  rw [multiples₄, multiples₃, multiples₂, multiples₁] at committed
  intro record member
  rcases List.mem_cons.mp member with rfl | other
  · refine .of_record sourceLed prepared.own inMemory.filed committed.sourceFresh
      committed.sourceRecord ?_
    rw [committed.stored, Register.get?_insert_self]
  · rw [movedTo, Option.toList_some, List.mem_singleton] at other
    subst other
    refine .of_record targetLed prepared.targetOwn inMemory.filed committed.targetFresh
      committed.targetRecord ?_
    rw [committed.stored, Register.get?_insert_of_ne _ _ prepared.apart,
      Register.get?_insert_self]

/-- Every record that a round commits passes all checks, holds no filter result, and is stored at
version 1 or at the version after that of the record it replaces. This holds for requests of any
content and on either way, moves through the queue excepted.
-/
theorem carryOut_records_sealed (k : Coordinator) (reachable : s.Reachable)
    (way : request.target? = none ∨ request.mode = .synchronousFanOut)
    (returns : (k.carryOut request).Returns s outcome t)
    : ∀ record ∈ outcome.records, Sealed s t record := by
  have inMemory := reachable.inMemory
  obtain ⟨work, u, prepares, performs⟩ := carryOut_returns returns
  obtain ⟨asked, prepared⟩ := prepare_returns inMemory prepares
  have later := inMemory.asked asked
  have sealed : ∀ record ∈ outcome.records, Sealed u t record := by
    cases work with
    | reconcile r =>
        obtain ⟨sealed, movedTo⟩ :=
          (reconcile_returns performs).sealed prepared.posed prepared.reference later
        intro record committed
        simp only [RoundOutcome.records, movedTo, Option.toList_none, List.mem_singleton]
          at committed
        rw [committed]
        exact sealed
    | move m =>
        have mode : request.mode = .synchronousFanOut :=
          way.resolve_left fun none => by simp [prepared.named] at none
        exact (move_returns performs).sealed prepared mode later
  intro record committed
  refine { sealed record committed with stored := ?_ }
  obtain ⟨r, own, stored, precedes⟩ := (sealed record committed).stored
  refine ⟨r, own, stored, ?_⟩
  rw [MultipleStore.Precedes, ← asked.multiples]
  exact precedes

end Coordinator

/-- A round of which one write fails commits the multiple with the other member at version 2. -/
theorem Sample.sealed_of_failure
    : ∃ outcome t,
        (coordinator.carryOut (joining .synchronousFanOut)).Returns (stores [one]) outcome t
        ∧ outcome.multiple.memberReferences = [two]
        ∧ outcome.multiple.version = some 2
        ∧ Sealed (stores [one]) t outcome.multiple := by
  have way : (joining .synchronousFanOut).target? = none
      ∨ (joining .synchronousFanOut).mode = .synchronousFanOut :=
    .inl rfl
  refine ⟨_, _, rfl, by decide +kernel, by decide +kernel, ?_⟩
  exact coordinator.carryOut_records_sealed (reachable_stores [one]) way rfl _
    List.mem_cons_self

end CaseGrouping
