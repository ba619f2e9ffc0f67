import CaseGrouping.Proofs.Register
import CaseGrouping.Store.Cases

/-! What one write does to the store of cases: it touches the entry of its case at most, and the
reply tells whether the change has been applied there.
-/

namespace CaseGrouping

/-- (reply.Effect w before now) relates the entries of the case of a write before it and after:
an answer with a case says that the change was applied, any other reply that nothing happened.
-/
def WriteReply.Effect (w : CaseWrite) (before now : Option SingleCase) : WriteReply → Prop
  | .answered (.ok c) => before.map w.change.apply = some c ∧ now = some c
  | _ => now = before

@[simp]
theorem ChangeSet.apply_reference (c : ChangeSet) (case : SingleCase)
    : (c.apply case).reference = case.reference := by
  unfold apply
  split
  · rfl
  · rfl
  · split <;> rfl

theorem ChangeSet.apply_setLead (flag : Bool) (case : SingleCase)
    : (setLead flag).apply case = { case with leadClaimant := flag } :=
  rfl

/-- The status of a case is nothing that a change can set. -/
@[simp]
theorem ChangeSet.apply_status (c : ChangeSet) (case : SingleCase)
    : (c.apply case).status = case.status := by
  unfold apply
  split
  · rfl
  · rfl
  · split <;> rfl

/-- A field of a changed case has the value of the change, or else the one that it had. -/
theorem ChangeSet.apply_field (c : ChangeSet) (case : SingleCase) (key : String)
    : (c.apply case).fields.get? key = (c.fields.get? key <|> case.fields.get? key)
      ∨ (c.apply case).fields = case.fields := by
  have written : ∀ case', (c.writeTo case').fields.get? key
      = (c.fields.get? key <|> case'.fields.get? key) := fun case' =>
    Register.get?_insertAll_entries case'.fields c.fields key
  unfold apply
  split
  · exact .inl (written _)
  · exact .inl (written _)
  · split
    · exact .inl (written _)
    · exact .inr rfl

/-- Unless a case leaves, it gets the values and the tag of the change. -/
theorem ChangeSet.apply_values {c : ChangeSet} (stays : ∀ m, c.membership ≠ .detach m)
    (case : SingleCase)
    : (∀ key value, c.fields.get? key = some value
        → (c.apply case).fields.get? key = some value)
      ∧ ∀ tag, c.subGroup = some tag → (c.apply case).subGroup = some tag := by
  have written : ∀ case',
      (∀ key value, c.fields.get? key = some value
        → (c.writeTo case').fields.get? key = some value)
      ∧ ∀ tag, c.subGroup = some tag → (c.writeTo case').subGroup = some tag := by
    refine fun case' => ⟨fun key value given => ?_, fun tag given => ?_⟩
    · refine (Register.get?_insertAll_entries case'.fields c.fields key).trans ?_
      rw [given]
      rfl
    · rw [writeTo, given]
      rfl
  unfold apply
  split
  · exact written _
  · exact written _
  next m leaves => exact absurd leaves (stays m)

/-- The multiple that a stored case belongs to. -/
def owner? (cases : Register CaseReference SingleCase) (r : CaseReference)
    : Option MultipleReference :=
  (cases.get? r).bind SingleCase.multiple

/-- Whether a stored case has the lead flag. -/
def claimant? (cases : Register CaseReference SingleCase) (r : CaseReference) : Option Bool :=
  (cases.get? r).map SingleCase.leadClaimant

namespace CaseStore

/-- The error that the next write to a case meets, with what is left of the fault. -/
def pending (s : CaseStore) (r : CaseReference) : Option (CaseStoreError × WriteFault) :=
  (s.writeFaults.get? r).bind WriteFault.next?

/-- The store once it has noted that a write arrived. -/
def noted (s : CaseStore) (w : CaseWrite) : CaseStore :=
  { s with submissions := s.submissions ++ [w] }

/-- (Submitted s w reply s') says that the store s answers the write w with the reply and is s'
after it. This proof-only relation lists all that can become of a write.
-/
inductive Submitted (s : CaseStore) (w : CaseWrite) : WriteReply → CaseStore → Prop where
  | crash (crashing : w.case ∈ s.crashing) : Submitted s w .crashed s
  | fault {e f} (steady : w.case ∉ s.crashing) (met : s.pending w.case = some (e, f))
    : Submitted s w (.answered (.error e)) ((s.noted w).failWrites w.case f)
  | absent (steady : w.case ∉ s.crashing) (free : s.pending w.case = none)
    (absent : s.records.get? w.case = none)
    : Submitted s w (.answered (.error (missing w.case))) (s.noted w)
  | written {c} (steady : w.case ∉ s.crashing) (free : s.pending w.case = none)
    (stored : s.records.get? w.case = some c)
    : Submitted s w (.answered (.ok (w.change.apply c)))
        { s.noted w with records := s.records.insert w.case (w.change.apply c) }

/-- Every write is one of these, by the checks in the order in which the store makes them. -/
theorem submit_submitted (s : CaseStore) (w : CaseWrite)
    : Submitted s w (s.submit w).1 (s.submit w).2 := by
  unfold submit
  split
  next crashing => exact .crash crashing
  next steady =>
    have answer : Submitted s w (.answered ((s.noted w).write w).1) ((s.noted w).write w).2 := by
      unfold write
      split
      next e f met => exact .fault steady met
      next free =>
        split
        next absent => exact .absent steady free absent
        next c stored => exact .written steady free stored
    exact answer

variable {s s' : CaseStore} {w : CaseWrite} {reply : WriteReply}

/-- The reply to a write tells what has become of the entry of its case. -/
theorem Submitted.effect (h : Submitted s w reply s')
    : reply.Effect w (s.records.get? w.case) (s'.records.get? w.case) := by
  cases h with
  | crash _ => rfl
  | fault _ _ => rfl
  | absent _ _ _ => rfl
  | written _ _ stored =>
      exact ⟨by rw [stored]; rfl, Register.get?_insert_self _ _ _⟩

theorem Submitted.other (h : Submitted s w reply s') {r : CaseReference} (ne : r ≠ w.case)
    : s'.records.get? r = s.records.get? r := by
  cases h with
  | crash _ => rfl
  | fault _ _ => rfl
  | absent _ _ _ => rfl
  | written _ _ _ => exact Register.get?_insert_of_ne _ _ ne

theorem Submitted.settings (h : Submitted s w reply s')
    : s'.crashing = s.crashing ∧ s'.retrieveFaults = s.retrieveFaults
      ∧ s'.searchFault = s.searchFault ∧ s'.searchAnswer = s.searchAnswer := by
  cases h <;> exact ⟨rfl, rfl, rfl, rfl⟩

-----------------------------------------------------------------------------------------
-- Entries under their own references
-----------------------------------------------------------------------------------------

/-- Every case is stored under its own reference. -/
def Keyed (s : CaseStore) : Prop :=
  ∀ r c, s.records.get? r = some c → c.reference = r

theorem Keyed.insert (h : s.Keyed) (c : SingleCase) : (s.insert c).Keyed := by
  intro r d found
  simp only [CaseStore.insert, Register.get?_insert] at found
  split at found
  next same =>
    cases found
    exact same.symm
  next => exact h r d found

/-- Writes keep cases under their own references, since no change touches a reference. -/
theorem Submitted.keyed (h : Submitted s w reply s') (keyed : s.Keyed) : s'.Keyed := by
  cases h with
  | crash _ => exact keyed
  | fault _ _ => exact keyed
  | absent _ _ _ => exact keyed
  | @written c _ _ stored =>
      intro r d found
      simp only [Register.get?_insert] at found
      split at found
      next same =>
        cases found
        rw [ChangeSet.apply_reference, same]
        exact keyed _ _ stored
      next => exact keyed r d found

-----------------------------------------------------------------------------------------
-- Cases whose writes go through
-----------------------------------------------------------------------------------------

/-- A case that is stored and whose writes meet no fault. -/
structure Accepts (s : CaseStore) (r : CaseReference) : Prop where
  stored : (s.records.get? r).isSome
  free : s.pending r = none
  steady : r ∉ s.crashing

/-- A case whose writes meet no fault, whether it is stored or not. -/
structure Unhindered (s : CaseStore) (r : CaseReference) : Prop where
  free : s.pending r = none
  steady : r ∉ s.crashing

theorem Accepts.unhindered {r : CaseReference} (accepts : s.Accepts r) : s.Unhindered r :=
  ⟨accepts.free, accepts.steady⟩

/-- A write to such a case is answered with the changed case, or with its absence. -/
theorem Submitted.answered (h : Submitted s w reply s') (unhindered : s.Unhindered w.case)
    : if (s.records.get? w.case).isSome then ∃ c, reply = .answered (.ok c)
      else reply = .answered (.error (missing w.case)) := by
  cases h with
  | crash crashing => exact absurd crashing unhindered.steady
  | fault _ met => exact absurd (met.symm.trans unhindered.free) (by simp)
  | absent _ _ absent => simp [absent]
  | written _ _ stored => simp [stored]

/-- No write hinders another case: it uses up faults of its own case only. -/
theorem Submitted.unhindered (h : Submitted s w reply s') {r : CaseReference}
    (unhindered : s.Unhindered r)
    : s'.Unhindered r := by
  cases h with
  | crash _ => exact unhindered
  | @fault e f _ met =>
      have other : r ≠ w.case := by
        rintro rfl
        exact absurd (met.symm.trans unhindered.free) (by simp)
      refine ⟨?_, unhindered.steady⟩
      simp only [pending, failWrites, noted, Register.get?_insert_of_ne _ _ other]
      exact unhindered.free
  | absent _ _ _ => exact ⟨unhindered.free, unhindered.steady⟩
  | written _ _ _ => exact ⟨unhindered.free, unhindered.steady⟩

/-- Writes neither add cases nor remove them. -/
theorem Submitted.stored (h : Submitted s w reply s') (r : CaseReference)
    : (s'.records.get? r).isSome = (s.records.get? r).isSome := by
  cases h with
  | crash _ => rfl
  | fault _ _ => rfl
  | absent _ _ _ => rfl
  | written _ _ stored =>
      simp only [Register.get?_insert]
      split
      next here => rw [here, stored, Option.isSome_some, Option.isSome_some]
      next => rfl

end CaseStore

end CaseGrouping
