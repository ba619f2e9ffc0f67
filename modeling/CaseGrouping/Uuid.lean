import CaseGrouping.Json.Decode
import CaseGrouping.Sha1

/-! Universally unique identifiers: their texts, and those derived from a name by hashing.
-/

namespace CaseGrouping

/-- An identifier of 128 bits. -/
structure Uuid where
  value : BitVec 128
  deriving DecidableEq

namespace Uuid

/-- The sixteen bytes, the most significant first. -/
def bytes (u : Uuid) : List UInt8 :=
  (List.range 16).map fun i => UInt8.ofNat (u.value.toNat / 256 ^ (15 - i))

/-- The identifier of a sequence of bytes, the most significant first. -/
def ofBytes (bytes : List UInt8) : Uuid :=
  ⟨BitVec.ofNat 128 (bytes.foldl (fun value b => value * 256 + b.toNat) 0)⟩

/-- Marks the bytes of a digest as an identifier derived from a name: version 5 in the seventh
byte and the standard variant in the ninth.
-/
def mark (bytes : List UInt8) : List UInt8 :=
  bytes.zipIdx.map fun (b, i) =>
    if i = 6 then (b &&& 0x0F) ||| 0x50 else if i = 8 then (b &&& 0x3F) ||| 0x80 else b

/-- The identifier of a name within a name space. -/
def ofName (space : Uuid) (name : String) : Uuid :=
  ofBytes (mark ((Sha1.digest (space.bytes ++ name.toUTF8.toList)).take 16))

/-- The thirty-two hexadecimal digits. -/
def digits (u : Uuid) : List Char :=
  (List.range 32).map fun i => Nat.digitChar (u.value.toNat / 16 ^ (31 - i) % 16)

/-- Groups of digits joined by hyphens. -/
def hyphenate (digits : List Char) : List Char :=
  digits.take 8 ++ '-' :: (digits.drop 8).take 4 ++ '-' :: (digits.drop 12).take 4
    ++ '-' :: (digits.drop 16).take 4 ++ '-' :: digits.drop 20

/-- The text of an identifier: lower-case digits with hyphens. -/
def text (u : Uuid) : String :=
  String.ofList (hyphenate u.digits)

instance : ToString Uuid where
  toString := text

/-- Reads thirty-two digits of either case. -/
def ofDigits? (cs : List Char) : Option Uuid := do
  if cs.length ≠ 32 then none
  let values ← cs.mapM Json.Draft.hexValue?
  return ⟨BitVec.ofNat 128 (values.foldl (fun value d => value * 16 + d) 0)⟩

/-- Reads digits with hyphens after the eighth, twelfth, sixteenth and twentieth. -/
def ofHyphenated? (cs : List Char) : Option Uuid :=
  let digits := cs.take 8 ++ (cs.drop 9).take 4 ++ (cs.drop 14).take 4 ++ (cs.drop 19).take 4
    ++ cs.drop 24
  if hyphenate digits = cs then ofDigits? digits else none

/-- Reads an identifier: plain digits, or hyphenated ones that may stand in braces or after
`urn:uuid:` in letters of either case.
-/
def ofText? (s : String) : Option Uuid :=
  let cs := s.toList
  match cs.length with
  | 32 => ofDigits? cs
  | 36 => ofHyphenated? cs
  | 38 => if cs.head? = some '\x7b' ∧ cs.getLast? = some '\x7d' then
      ofHyphenated? ((cs.drop 1).take 36) else none
  | 45 =>
      if (cs.take 9).map Char.toLower = "urn:uuid:".toList then ofHyphenated? (cs.drop 9) else none
  | _ => none

instance : Json.Form Uuid where
  toValue u := .string u.text
  decoder := Json.Decode.parsed ofText?

end Uuid

end CaseGrouping
