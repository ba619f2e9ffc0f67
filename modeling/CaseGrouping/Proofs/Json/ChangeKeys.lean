import CaseGrouping.Change
import CaseGrouping.Proofs.Json.Text
import CaseGrouping.Proofs.Register

/-! Changes are told apart by their keys, whatever their fields hold. In which order fields were set
does not matter as long as the last value of each is the same.
-/

namespace CaseGrouping

open Json

/-- All numbers in the fields are integers. -/
def Fields.Integral (fields : Fields) : Prop :=
  ∀ entry ∈ fields.entries, entry.2.Integral

/-- A value that may be missing is told from null, and by its form. -/
theorem orNull_map_inj {α : Type} {f : α → Value} (inj : ∀ a b, f a = f b → a = b)
    (ne : ∀ a, f a ≠ .null) {x y : Option α}
    (same : Value.orNull (x.map f) = Value.orNull (y.map f))
    : x = y := by
  cases x with
  | none =>
      cases y with
      | none => rfl
      | some b => exact absurd same.symm (ne b)
  | some a =>
      cases y with
      | none => exact absurd same (ne a)
      | some b => exact congrArg some (inj a b same)

theorem MembershipChange.toValue_inj {c d : MembershipChange}
    (same : Form.toValue c = Form.toValue d)
    : c = d := by
  cases c <;> cases d <;>
    simp [Form.toValue, MembershipChange.kind, MembershipChange.multiple?] at same ⊢
  all_goals exact Reference.ext_text same

theorem ChangeSet.toValue_inj {c d : ChangeSet} (same : Form.toValue c = Form.toValue d)
    : c = d := by
  have entries : _ = _ := Value.object.inj same
  simp only [List.cons.injEq, Prod.mk.injEq, true_and, and_true] at entries
  obtain ⟨membership, lead, subGroup, fields⟩ := entries
  have lead : c.lead = d.lead :=
    orNull_map_inj (fun _ _ => Value.bool.inj) (fun _ none => by cases none) lead
  have subGroup : c.subGroup = d.subGroup :=
    orNull_map_inj (fun _ _ => Value.string.inj) (fun _ none => by cases none) subGroup
  have fields : c.fields = d.fields := Register.ext_entries (Value.object.inj fields)
  have membership := MembershipChange.toValue_inj membership
  cases c
  cases d
  simp_all

/-- The keys of changes tell them apart. -/
theorem ChangeSet.contentKey_inj {c d : ChangeSet} (same : c.contentKey = d.contentKey) : c = d :=
  toValue_inj (Value.text_inj same)

/-- No control character is in the key of a change. -/
theorem ChangeSet.printable_contentKey (c : ChangeSet) : Printable c.contentKey.toList := by
  have text : c.contentKey.toList = (Form.toValue c).chars := String.toList_ofList
  rw [text]
  exact Value.printable_chars _

-----------------------------------------------------------------------------------------
-- Edits in any order
-----------------------------------------------------------------------------------------

namespace ChangeSet

variable {steps others : List (List (String × Value))}

/-- The change that also writes edits, one step after the other. -/
def withSteps (c : ChangeSet) (steps : List (List (String × Value))) : ChangeSet :=
  steps.foldl (fun c edits => c.withFields (.ofList edits)) c

/-- How edits are cut in steps makes no difference, by induction on the steps. -/
theorem withSteps_eq (c : ChangeSet) (steps : List (List (String × Value)))
    : c.withSteps steps = { c with fields := c.fields.insertAll steps.flatten } := by
  induction steps generalizing c with
  | nil => rfl
  | cons edits rest ih =>
      have first : c.withFields (.ofList edits) = { c with fields := c.fields.insertAll edits } := by
        rw [withFields, Register.insertAll_ofList]
      rw [withSteps, List.foldl_cons, ← withSteps, ih, first]
      simp [Register.insertAll]

/-- Edits give the same key exactly if each field ends with the same value. -/
theorem contentKey_withSteps_iff (c : ChangeSet)
    : (c.withSteps steps).contentKey = (c.withSteps others).contentKey
      ↔ ∀ field,
          (lastValue? steps.flatten field <|> c.fields.get? field)
          = (lastValue? others.flatten field <|> c.fields.get? field) := by
  simp only [withSteps_eq, ← Register.get?_insertAll]
  constructor
  · intro same field
    exact congrArg (·.get? field) (congrArg fields (contentKey_inj same))
  · intro agree
    rw [Register.ext_get? agree]

/-- Edits of distinct fields give the same key in any order. -/
theorem contentKey_withSteps_perm (c : ChangeSet) (perm : steps.flatten.Perm others.flatten)
    (distinct : (steps.flatten.map Prod.fst).Nodup)
    : (c.withSteps steps).contentKey = (c.withSteps others).contentKey :=
  (contentKey_withSteps_iff c).mpr fun field => by rw [lastValue?_perm perm distinct]

end ChangeSet

end CaseGrouping
