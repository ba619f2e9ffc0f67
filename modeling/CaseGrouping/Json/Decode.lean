import CaseGrouping.Json.Draft
import CaseGrouping.Register

/-! Decoding drafts by the shape of what is expected.
A decoder reports the first fault in the order of the text: a fault of form, or a part that has
the form but not the shape. It is given the nesting that is still allowed.
-/

namespace CaseGrouping.Json

/-- Why a text does not decode. -/
inductive Fault where
  /-- The text is not well formed, or keeps a part that no value can hold. -/
  | malformed
  /-- A well-formed part is not of the expected shape. -/
  | mismatched
  deriving DecidableEq, Repr

/-- A decoder of drafts; its first argument is the number of arrays and objects that may still
be entered.
-/
abbrev Decoder (α : Type) :=
  Nat → Draft → Except Fault α

/-- The greatest number of arrays and objects inside one another. -/
def greatestDepth : Nat :=
  127

-----------------------------------------------------------------------------------------
-- Parts that are refused or skipped
-----------------------------------------------------------------------------------------

namespace Draft

/-- The fault of a part that is not of the expected kind: a part that cannot be held is met as
a fault of form, and what stands inside an array or object is not looked at.
-/
def mismatch : Draft → Fault
  | .broken => .malformed
  | .number none => .malformed
  | .string none => .malformed
  | _ => .mismatched

mutual

/-- A part that is skipped needs only the right form: nesting and ranges do not count. -/
def isWellFormed : Draft → Bool
  | .broken => false
  | .array items closed => areWellFormed items && closed
  | .object entries closed => entriesAreWellFormed entries && closed
  | _ => true

/-- Every item of a list may be skipped. -/
def areWellFormed : List Draft → Bool
  | [] => true
  | d :: rest => isWellFormed d && areWellFormed rest

/-- Every entry of a list may be skipped. -/
def entriesAreWellFormed : List (Option String × Draft) → Bool
  | [] => true
  | (_, d) :: rest => isWellFormed d && entriesAreWellFormed rest

end

end Draft

namespace Value

mutual

/-- Decodes any value. The keys of an object are sorted and of a repeated key the last is kept. -/
def decoder : Decoder Value
  | _, .null => .ok .null
  | _, .bool b => .ok (.bool b)
  | _, .number (some n) => .ok (.number n)
  | _, .string (some s) => .ok (.string s)
  | depth + 1, .array items closed => do
      let vs ← decodeItems depth items
      if closed then .ok (.array vs) else .error .malformed
  | depth + 1, .object entries closed => do
      let es ← decodeEntries depth entries []
      if closed then .ok (.object es) else .error .malformed
  | _, _ => .error .malformed

/-- Decodes the items of an array. -/
def decodeItems (depth : Nat) : List Draft → Except Fault (List Value)
  | [] => .ok []
  | d :: rest => do
      let v ← decoder depth d
      let vs ← decodeItems depth rest
      return v :: vs

/-- Decodes the entries of an object into those already decoded. -/
def decodeEntries (depth : Nat)
    : List (Option String × Draft) → List (String × Value) → Except Fault (List (String × Value))
  | [], done => .ok done
  | (none, _) :: _, _ => .error .malformed
  | (some key, d) :: rest, done => do
      let v ← decoder depth d
      decodeEntries depth rest (insertEntry key v done)

end

end Value

-----------------------------------------------------------------------------------------
-- Values of one shape
-----------------------------------------------------------------------------------------

namespace Decode

/-- A string. -/
def string : Decoder String
  | _, .string (some s) => .ok s
  | _, d => .error d.mismatch

/-- A truth value. -/
def bool : Decoder Bool
  | _, .bool b => .ok b
  | _, d => .error d.mismatch

/-- A natural number below the bound of a 64-bit word. -/
def word : Decoder UInt64
  | _, .number (some (.natural n)) => .ok n
  | _, d => .error d.mismatch

/-- A count below the bound of a 64-bit word. -/
def natural : Decoder Nat :=
  fun depth d => (word depth d).map UInt64.toNat

/-- A count below the bound of a 32-bit word. -/
def halfWord : Decoder Nat :=
  fun depth d => do
    let n ← natural depth d
    if n < 2 ^ 32 then .ok n else .error .mismatched

/-- Null, or a value of the given shape. -/
def optional (inner : Decoder α) : Decoder (Option α)
  | _, .null => .ok none
  | depth, d => (inner depth d).map some

/-- A string of the given shape. -/
def parsed (parse : String → Option α) : Decoder α :=
  fun depth d => do
    match parse (← string depth d) with
    | some a => .ok a
    | none => .error .mismatched

/-- An array of values of one shape. -/
def list (inner : Decoder α) : Decoder (List α)
  | depth + 1, .array items closed => do
      let as ← items.mapM (inner depth)
      if closed then .ok as else .error .malformed
  | 0, .array _ _ => .error .malformed
  | _, d => .error d.mismatch

/-- A choice of a named alternative: a string names one without content; an object names one by
its only key and gives its content, null for an alternative without content. No other kind of
value is looked at as a choice.
-/
def choice (plain : String → Option α) (content : String → Option (Decoder α)) : Decoder α
  | _, .string (some name) =>
      match plain name with
      | some a => .ok a
      | none => .error .mismatched
  | depth + 1, .object ((some name, d) :: rest) closed => do
      let a ← match plain name, content name with
        | some a, _ => match d with
            | .null => .ok a
            | d => .error d.mismatch
        | none, some inner => inner depth d
        | none, none => .error .mismatched
      if closed && rest.isEmpty then .ok a else .error .malformed
  | _, _ => .error .malformed

/-- A choice among alternatives without content. -/
def named (choose : String → Option α) : Decoder α :=
  choice choose fun _ => none

end Decode

-----------------------------------------------------------------------------------------
-- Whole texts and types with a written form
-----------------------------------------------------------------------------------------

/-- Decodes a whole text. -/
def decodeText (decoder : Decoder α) (s : String) : Except Fault α := do
  let (d, ended) := Draft.ofText s
  let a ← decoder greatestDepth d
  if ended then .ok a else .error .malformed

/-- Decodes a value that was read before. -/
def decodeValue (decoder : Decoder α) (v : Value) : Except Fault α :=
  decoder greatestDepth (Draft.ofValue v)

/-- A type with a written form and a decoder for it. -/
class Form (α : Type) where
  toValue : α → Value
  decoder : Decoder α

/-- The compact text of the written form. -/
def text [Form α] (a : α) : String :=
  (Form.toValue a).text

/-- Reads the written form from a whole text. -/
def read [Form α] (s : String) : Except Fault α :=
  decodeText Form.decoder s

end CaseGrouping.Json
