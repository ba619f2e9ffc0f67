import CaseGrouping.Json.Value
import CaseGrouping.Text.Numeral

/-! What a text holds, up to its first fault.
A draft keeps every key and every item in the order of the text, repeated keys included, so that
whoever decodes it meets data faults and faults of form in the order in which they stand.
-/

namespace CaseGrouping.Json

/-- The content of a text. A number out of range has no value to give and a string with half of
a surrogate pair no characters; an array or object that is not closed ends at a fault.
-/
inductive Draft where
  | null
  | bool (b : Bool)
  | number (n : Option Number)
  | string (s : Option String)
  | array (items : List Draft) (closed : Bool)
  | object (entries : List (Option String × Draft)) (closed : Bool)
  | broken

namespace Draft

/-- The four characters that may stand between the parts of a text. -/
def isGap (c : Char) : Bool :=
  c == ' ' || c == '\n' || c == '\t' || c == '\r'

/-- Drops the gap before the next part. -/
def skipGap (cs : List Char) : List Char :=
  cs.dropWhile isGap

-----------------------------------------------------------------------------------------
-- Strings
-----------------------------------------------------------------------------------------

/-- A part of a string: a character, or one half of a surrogate pair. -/
inductive Piece where
  | char (c : Char)
  | half (unit : Nat)

/-- The value of a hexadecimal digit in either case. -/
def hexValue? (c : Char) : Option Nat :=
  if c.isDigit then some (c.toNat - '0'.toNat)
  else if 'a' ≤ c && c ≤ 'f' then some (c.toNat - 'a'.toNat + 10)
  else if 'A' ≤ c && c ≤ 'F' then some (c.toNat - 'A'.toNat + 10)
  else none

/-- The value of four hexadecimal digits. -/
def hexUnit? (a b c d : Char) : Option Nat := do
  return ((← hexValue? a) * 16 + (← hexValue? b)) * 256 + (← hexValue? c) * 16 + (← hexValue? d)

/-- The piece of a 16-bit unit. -/
def Piece.ofUnit (unit : Nat) : Piece :=
  if 0xD800 ≤ unit && unit ≤ 0xDFFF then .half unit else .char (Char.ofNat unit)

/-- The character of a one-letter escape. -/
def shortEscape? (c : Char) : Option Char :=
  match c with
  | '"' => some '"'
  | '\\' => some '\\'
  | '/' => some '/'
  | 'b' => some '\x08'
  | 'f' => some '\x0c'
  | 'n' => some '\n'
  | 'r' => some '\r'
  | 't' => some '\t'
  | _ => none

/-- Reads the pieces of a string up to its closing quote, in reverse; `none` at a fault. -/
def readPieces : List Char → List Piece → Option (List Piece × List Char)
  | [], _ => none
  | '"' :: rest, done => some (done, rest)
  -- A unit is not checked for its other half here: a string that is skipped may hold one alone.
  | '\\' :: 'u' :: a :: b :: c :: d :: rest, done =>
      match hexUnit? a b c d with
      | some unit => readPieces rest (Piece.ofUnit unit :: done)
      | none => none
  | '\\' :: c :: rest, done =>
      match shortEscape? c with
      | some e => readPieces rest (.char e :: done)
      | none => none
  | ['\\'], _ => none
  | c :: rest, done => if c.toNat < 0x20 then none else readPieces rest (.char c :: done)

/-- Joins surrogate pairs; `none` when a half stands alone. -/
def joinPieces : List Piece → Option (List Char)
  | [] => some []
  | .char c :: rest => (joinPieces rest).map (c :: ·)
  | .half high :: .half low :: rest =>
      if high < 0xDC00 && 0xDC00 ≤ low then
        (joinPieces rest).map
          (Char.ofNat (0x10000 + (high - 0xD800) * 0x400 + (low - 0xDC00)) :: ·)
      else none
  | .half _ :: _ => none

/-- Reads a string after its opening quote. -/
def readString (cs : List Char) : Option (Option String × List Char) :=
  (readPieces cs []).map fun (pieces, rest) =>
    ((joinPieces pieces.reverse).map String.ofList, rest)

-----------------------------------------------------------------------------------------
-- Numbers
-----------------------------------------------------------------------------------------

/-- Splits off the leading digits. -/
def takeDigits : List Char → List Nat × List Char
  | [] => ([], [])
  | c :: rest =>
      match Text.digitValue? c with
      | some d => let (ds, tail) := takeDigits rest; (d :: ds, tail)
      | none => ([], c :: rest)

/-- Reads the digits after the point, of which there must be one. -/
def readFraction (cs : List Char) : Option (List Nat × List Char) :=
  match cs with
  | '.' :: rest =>
      match takeDigits rest with
      | ([], _) => none
      | (ds, tail) => some (ds, tail)
  | _ => some ([], cs)

/-- Reads the exponent, of which there must be a digit. -/
def readExponent (cs : List Char) : Option (Option (Bool × Nat) × List Char) :=
  let digits (negative : Bool) (rest : List Char) : Option (Option (Bool × Nat) × List Char) :=
    match takeDigits rest with
    | ([], _) => none
    | (ds, tail) => some (some (negative, Numeral.digitsValue ds), tail)
  match cs with
  | c :: rest =>
      if c == 'e' || c == 'E' then
        match rest with
        | '+' :: rest => digits false rest
        | '-' :: rest => digits true rest
        | rest => digits false rest
      else some (none, cs)
  | [] => some (none, cs)

/-- Reads a number after its sign: no further digit follows a leading zero. -/
def readNumber (minus : Bool) (cs : List Char) : Option (Numeral × List Char) :=
  match takeDigits cs with
  | ([], _) => none
  | (0 :: _ :: _, _) => none
  | (whole, rest) => do
      let (fraction, rest) ← readFraction rest
      let (exponent, rest) ← readExponent rest
      return (⟨minus, whole, fraction, exponent⟩, rest)

-----------------------------------------------------------------------------------------
-- Values and whole texts
-----------------------------------------------------------------------------------------

/-- What was read, and the text after it unless a fault stopped the reading. -/
abbrev Reading :=
  Draft × Option (List Char)

/-- The reading that stops here. -/
def stopped : Reading :=
  (.broken, none)

/-- Reads the rest of a word. -/
def readWord (word : List Char) (d : Draft) (cs : List Char) : Reading :=
  if word.isPrefixOf cs then (d, some (cs.drop word.length)) else stopped

/-- The reading of a number. -/
def numberReading (r : Option (Numeral × List Char)) : Reading :=
  match r with
  | some (n, rest) => (.number n.toNumber?, some rest)
  | none => stopped

mutual

/-- Reads one value. The fuel bounds the nesting of calls. -/
def readValue : Nat → List Char → Reading
  | 0, _ => stopped
  | fuel + 1, cs =>
      match skipGap cs with
      | 'n' :: rest => readWord ['u', 'l', 'l'] .null rest
      | 't' :: rest => readWord ['r', 'u', 'e'] (.bool true) rest
      | 'f' :: rest => readWord ['a', 'l', 's', 'e'] (.bool false) rest
      | '-' :: rest => numberReading (readNumber true rest)
      | '"' :: rest =>
          match readString rest with
          | some (s, rest) => (.string s, some rest)
          | none => stopped
      | '[' :: rest =>
          match skipGap rest with
          | ']' :: rest => (.array [] true, some rest)
          | rest =>
              let (items, rest) := readItems fuel rest
              (.array items rest.isSome, rest)
      | '\x7b' :: rest =>
          match skipGap rest with
          | '\x7d' :: rest => (.object [] true, some rest)
          | rest =>
              let (entries, rest) := readEntries fuel rest
              (.object entries rest.isSome, rest)
      | rest => numberReading (readNumber false rest)

/-- Reads the items of an array through its closing bracket. -/
def readItems : Nat → List Char → List Draft × Option (List Char)
  | 0, _ => ([], none)
  | fuel + 1, cs =>
      match readValue fuel cs with
      | (d, none) => ([d], none)
      | (d, some rest) =>
          match skipGap rest with
          | ',' :: rest => let (ds, rest) := readItems fuel rest; (d :: ds, rest)
          | ']' :: rest => ([d], some rest)
          | _ => ([d], none)

/-- Reads the entries of an object through its closing brace. A key without a colon has a fault
for its value.
-/
def readEntries : Nat → List Char → List (Option String × Draft) × Option (List Char)
  | 0, _ => ([], none)
  | fuel + 1, cs =>
      match skipGap cs with
      | '"' :: rest =>
          match readString rest with
          | none => ([], none)
          | some (key, rest) =>
              match skipGap rest with
              | ':' :: rest =>
                  match readValue fuel rest with
                  | (d, none) => ([(key, d)], none)
                  | (d, some rest) =>
                      match skipGap rest with
                      | ',' :: rest =>
                          let (es, rest) := readEntries fuel rest; ((key, d) :: es, rest)
                      | '\x7d' :: rest => ([(key, d)], some rest)
                      | _ => ([(key, d)], none)
              | _ => ([(key, .broken)], none)
      | _ => ([], none)

end

/-- Reads a whole text: its draft, and whether nothing but a gap follows. -/
def ofText (s : String) : Draft × Bool :=
  let cs := s.toList
  -- Two nested calls read an item or an entry, and each of them has a character at least.
  match readValue (2 * cs.length + 2) cs with
  | (d, some rest) => (d, (skipGap rest).isEmpty)
  | (d, none) => (d, false)

mutual

/-- The draft of a value. -/
def ofValue : Value → Draft
  | .null => .null
  | .bool b => .bool b
  | .number n => .number (some n)
  | .string s => .string (some s)
  | .array items => .array (ofItems items) true
  | .object entries => .object (ofEntries entries) true

/-- The drafts of the items of an array. -/
def ofItems : List Value → List Draft
  | [] => []
  | v :: rest => ofValue v :: ofItems rest

/-- The drafts of the entries of an object. -/
def ofEntries : List (String × Value) → List (Option String × Draft)
  | [] => []
  | (key, v) :: rest => (some key, ofValue v) :: ofEntries rest

end

end Draft

end CaseGrouping.Json
