import CaseGrouping.Text.Blank
import CaseGrouping.Text.Numeral
import CaseGrouping.Json.Decode

/-! References of cases and of multiples: texts that are neither blank nor padded with blanks.
The order of references is the order of their texts by code point.
-/

namespace CaseGrouping

/-- What a reference refers to. -/
inductive ReferenceKind where
  | case
  | multiple
  deriving DecidableEq, Repr

/-- A trimmed text that is not empty. -/
structure Reference (kind : ReferenceKind) where
  text : String
  text_ne_empty : text ≠ ""
  trim_text : Text.trim text = text
  deriving DecidableEq

/-- The reference of a single case. -/
abbrev CaseReference :=
  Reference .case

/-- The reference of a multiple. -/
abbrev MultipleReference :=
  Reference .multiple

namespace Reference

variable {kind : ReferenceKind}

/-- References with the same text are the same, by proof irrelevance. -/
theorem ext_text {a b : Reference kind} (h : a.text = b.text)
    : a = b := by
  cases a; cases b; cases h; rfl

instance : LawfulBEq (Reference kind) :=
  inferInstance

instance : LT (Reference kind) where
  lt a b := a.text < b.text

instance : DecidableLT (Reference kind) :=
  fun a b => inferInstanceAs (Decidable (a.text < b.text))

/-- Texts are ordered transitively, hence so are references. -/
instance : Trans (α := Reference kind) (β := Reference kind) (γ := Reference kind)
    (· < ·) (· < ·) (· < ·) where
  trans {a b c} hab hbc := String.lt_trans (a := a.text) (b := b.text) (c := c.text) hab hbc

/-- Two references of which neither comes first have the same text. -/
instance : Std.Trichotomous (α := Reference kind) (· < ·) where
  trichotomous a b hab hba :=
    ext_text (Std.Trichotomous.trichotomous (r := ((· < ·) : String → String → Prop)) a.text b.text
      hab hba)

/-- No reference comes before itself. -/
instance : Std.Irrefl (α := Reference kind) (· < ·) where
  irrefl a := String.lt_irrefl a.text

instance : ToString (Reference kind) where
  toString r := r.text

/-- The reference that a text holds once it is trimmed; `none` for a blank text. -/
def ofText? (s : String) : Option (Reference kind) :=
  if h : Text.trim s = "" then none else some ⟨Text.trim s, h, Text.trim_trim s⟩

/-- A reference is read from its own text. -/
theorem ofText?_text (r : Reference kind)
    : ofText? r.text = some r := by
  simp [ofText?, r.trim_text, r.text_ne_empty]

/-- The text of an allocated reference: the number of the office, then the sequence number with
at least five digits.
-/
def sequenceChars (office sequence : Nat) : List Char :=
  Nat.toDigits 10 office ++ Text.padNatural 5 sequence

/-- An allocated reference consists of digits, so nothing of it is blank. -/
theorem not_blank_of_mem_sequenceChars {office sequence : Nat} {c : Char}
    (h : c ∈ sequenceChars office sequence)
    : Text.isBlank c = false := by
  have digits : ∀ n, c ∈ Nat.toDigits 10 n → Text.isBlank c = false := fun n hn =>
    Text.isBlank_of_isDigit (Nat.isDigit_of_mem_toDigits (by omega) (by omega) hn)
  simp only [sequenceChars, Text.padNatural, List.mem_append, List.mem_replicate] at h
  rcases h with h | ⟨_, rfl⟩ | h
  · exact digits _ h
  · decide
  · exact digits _ h

/-- The reference with a sequence number under an office. -/
def ofSequence (office sequence : Nat) : MultipleReference where
  text := String.ofList (sequenceChars office sequence)
  text_ne_empty := by
    intro h
    have hnil := congrArg String.toList h
    simp only [String.toList_ofList] at hnil
    simp [sequenceChars] at hnil
  trim_text := by
    simp only [Text.trim, String.toList_ofList]
    rw [Text.trimChars_of_not_blank fun c hc => not_blank_of_mem_sequenceChars hc]

instance : Json.Form (Reference kind) where
  toValue r := .string r.text
  decoder := Json.Decode.parsed ofText?

end Reference

end CaseGrouping
