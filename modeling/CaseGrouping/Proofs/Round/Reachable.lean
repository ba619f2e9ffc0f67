import CaseGrouping.Proofs.Round.Outlasting
import CaseGrouping.Proofs.Round.Performing

/-! Stores that are reached from empty ones by seeding, by rounds and by deliveries of queued jobs,
under any settings in between. They are all in memory, since every call of a round keeps them so.
-/

namespace CaseGrouping

-----------------------------------------------------------------------------------------
-- What all rounds keep
-----------------------------------------------------------------------------------------

/-- (Kept P) says that P outlasts all calls that a round is made of. -/
structure Kept (P : Stores → Prop) : Prop where
  asked : ∀ {s t : Stores}, P s → s.Asked t → P t
  wrote : ∀ {s t : Stores}, P s → s.Wrote t → P t
  commit
    : ∀ (scope : CaseScope) (m : Multiple) (expected : Option UInt64) {s : Stores},
        P s → P (Stores.commit scope m expected s).2
  enqueue : ∀ (job : Job) {s : Stores}, P s → P (Stores.enqueue job s).2

namespace Kept

open Round

variable {P : Stores → Prop} {k : Coordinator} (kept : Kept P)

include kept

/-- What outlasts writing outlasts writes of any kind. -/
theorem outlasts : Outlasts (fun _ => True) P where
  submit := fun caseType w s _ h => kept.wrote h (.submit caseType w s)
  passTime := fun time s h => kept.wrote h (.passTime s time)
  enqueue := kept.enqueue

theorem propagate (reference : MultipleReference) (expected : Option UInt64)
    (plan : PropagationPlan) (mode : PropagationMode)
    : (k.propagate reference expected plan mode).Keeps P :=
  kept.outlasts.propagate _ _ (fun _ _ => trivial) mode

theorem carryOut (request : RoundRequest) : (k.carryOut request).Keeps P := by
  intro s h
  refine kept.outlasts.carryOut kept.commit (fun t => kept.asked h) fun work _ => ?_
  cases work with
  | reconcile r => exact ⟨fun _ _ => trivial, fun _ _ => trivial⟩
  | move m => exact ⟨fun _ _ => trivial, fun _ _ => trivial, fun _ _ => trivial, fun _ _ => trivial⟩

end Kept

namespace Stores

theorem InMemory.kept : Kept InMemory where
  asked := InMemory.asked
  wrote := InMemory.wrote
  commit := fun scope m expected _ h => h.commit scope m expected
  enqueue := fun job _ h => h.enqueue job

-----------------------------------------------------------------------------------------
-- Reachable stores
-----------------------------------------------------------------------------------------

/-- Stores that can be reached. Settings, faults and the queue may change at any time, records only
by what is listed; searches are answered from what is stored, and commits are not interfered with.
-/
inductive Reachable : Stores → Prop where
  | empty {s} (cases : s.cases.records = ∅) (multiples : s.multiples.records = ∅)
    (unset : s.cases.searchAnswer = none) (hooks : s.multiples.hooks = [])
    : Reachable s
  | insert {s} (c : SingleCase) (reachable : Reachable s)
    : Reachable { s with cases := s.cases.insert c }
  | seed {s m stored multiples} (reachable : Reachable s)
    (seeded : s.multiples.seed m = .ok (stored, multiples))
    : Reachable { s with multiples }
  | set {s t} (reachable : Reachable s) (cases : t.cases.records = s.cases.records)
    (multiples : t.multiples.records = s.multiples.records)
    (unset : t.cases.searchAnswer = none) (hooks : t.multiples.hooks = [])
    : Reachable t
  | round {s} (k : Coordinator) (request : RoundRequest) (reachable : Reachable s)
    : Reachable ((k.carryOut request).runOn s).2
  | commit {s} (scope : CaseScope) (m : Multiple) (expected : Option UInt64)
    (reachable : Reachable s)
    : Reachable (Stores.commit scope m expected s).2
  | replay {s} (job : Job) (reachable : Reachable s) : Reachable (s.replay job)

/-- Replaying a job stores its cases under their own references, by induction on the cases. -/
theorem keyed_replay {s : Stores} (job : Job) (keyed : s.cases.Keyed)
    : (s.replay job).cases.Keyed ∧ (s.replay job).cases.searchAnswer = s.cases.searchAnswer := by
  unfold Stores.replay
  dsimp only
  generalize s.cases = cases at keyed ⊢
  induction job.cases generalizing cases with
  | nil => exact ⟨keyed, rfl⟩
  | cons r rest ih =>
      rw [List.foldl_cons]
      split
      next c _ => exact ih _ (keyed.insert _)
      next => exact ih _ keyed

/-- Reachable stores are in memory, by induction on how they are reached. -/
theorem Reachable.inMemory {s : Stores} (reachable : s.Reachable) : s.InMemory := by
  induction reachable with
  | empty cases multiples unset hooks =>
      refine ⟨fun r c found => ?_, fun r m found => ?_, unset, hooks⟩
      · rw [cases] at found
        cases found
      · rw [multiples] at found
        cases found
  | insert c _ ih => exact ⟨ih.keyed.insert c, ih.filed, ih.unset, ih.hooks⟩
  | seed _ seeded ih =>
      unfold MultipleStore.seed at seeded
      split at seeded
      · cases seeded
      next r own =>
        cases seeded
        exact ⟨ih.keyed, ih.filed.insert own 1, ih.unset, ih.hooks⟩
  | set _ cases multiples unset hooks ih =>
      refine ⟨fun r c found => ?_, fun r m found => ?_, unset, hooks⟩
      · rw [cases] at found
        exact ih.keyed r c found
      · rw [multiples] at found
        exact ih.filed r m found
  | round k request _ ih => exact InMemory.kept.carryOut request ih
  | commit scope m expected _ ih => exact ih.commit scope m expected
  | replay job _ ih =>
      obtain ⟨keyed, unset⟩ := keyed_replay job ih.keyed
      exact ⟨keyed, ih.filed, unset.trans ih.unset, ih.hooks⟩

end Stores

-----------------------------------------------------------------------------------------
-- Sample stores
-----------------------------------------------------------------------------------------

namespace Sample

def one : CaseReference :=
  ⟨"1", by decide, by decide⟩

def two : CaseReference :=
  ⟨"2", by decide, by decide⟩

def group : MultipleReference :=
  ⟨"3", by decide, by decide⟩

def record : Multiple :=
  { reference := some group, name := "Group", version := some 1 }

/-- Two cases, and a multiple without members; writes to some cases bring down their worker. -/
def stores (crashing : List CaseReference) : Stores where
  cases := { CaseStore.ofList [{ reference := one }, { reference := two }] with crashing }
  multiples := { records := Register.insert ∅ group record }

theorem reachable_stores (crashing : List CaseReference) : (stores crashing).Reachable := by
  have seeded : Stores.Reachable { multiples := { records := Register.insert ∅ group record } } :=
    .seed (m := record) (.empty (s := {}) rfl rfl rfl rfl) rfl
  exact .set (.insert { reference := two } (.insert { reference := one } seeded)) rfl rfl rfl rfl

/-- No case of the sample stores belongs to a multiple. -/
theorem owner?_stores (crashing : List CaseReference) (r : CaseReference)
    : owner? (stores crashing).cases.records r = none := by
  simp only [owner?, stores, CaseStore.ofList, List.foldl_cons, List.foldl_nil,
    CaseStore.insert, Register.get?_insert]
  split
  · rfl
  · split <;> rfl

def coordinator : Coordinator where
  scope := {}
  fanOut := ⟨1, {}, "case", by decide, by decide⟩
  batchSize := 1
  batchSize_pos := by decide

/-- Both cases are to join, and one of them to get a value. -/
def joining (mode : PropagationMode) : RoundRequest :=
  .update {
    multiple := record
    requested := [one, two]
    matched := [two]
    edits := Register.insert ∅ "amount" (.number (.natural 5))
    mode }

def other : MultipleReference :=
  ⟨"4", by decide, by decide⟩

def third : MultipleReference :=
  ⟨"5", by decide, by decide⟩

/-- A record of the first multiple that lists the first case. -/
def listing : Multiple :=
  record.withMembers [{ case := one, lead := true }]

/-- The first case belongs to some multiple. The record of the first multiple lists it; the other
one has a record without members.
-/
def owned (owner : MultipleReference) : Stores where
  cases := .ofList [{ reference := one, multiple := some owner }, { reference := two }]
  multiples :=
    { records := (Register.insert ∅ group listing).insert other { record with reference := other } }

theorem reachable_owned (owner : MultipleReference) : (owned owner).Reachable := by
  have first : Stores.Reachable { multiples := { records := Register.insert ∅ group listing } } :=
    .seed (m := listing) (.empty (s := {}) rfl rfl rfl rfl) rfl
  have seeded : Stores.Reachable { multiples := (owned owner).multiples } :=
    .seed (m := { record with reference := other }) first rfl
  exact .set
    (.insert { reference := two } (.insert { reference := one, multiple := some owner } seeded))
    rfl rfl rfl rfl

/-- A new multiple is to be made of the first case. -/
def creating : RoundRequest :=
  .create { multiple := { name := "Group" }, requested := [one] }

/-- The first case is to move from the first multiple, as its record lists it, to the other one. -/
def moving : BulkUpdate :=
  { multiple := listing, matched := [one], target := other }

end Sample

end CaseGrouping
