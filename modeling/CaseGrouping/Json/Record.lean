import CaseGrouping.Json.Decode

/-! Records: objects with known keys, or arrays of the same fields in their order.
Keys are read once and in the order of the text; unknown keys are skipped, a known key that comes
again is a fault, and what stands for a missing field is part of the field.
-/

namespace CaseGrouping.Json

/-- The fields of a record while it is decoded: slots filled by key, or from the items of an
array in order.
-/
structure Record (α : Type) where
  Slots : Type
  empty : Slots
  /-- What is done with the value of a key; `none` when no field has the key. -/
  put : Slots → String → Option (Decoder Slots)
  ofSlots : Slots → Except Fault α
  ofItems : Nat → Bool → List Draft → Except Fault (α × List Draft)

namespace Record

/-- A field with a key and a decoder; `missing` stands for it in an object without the key and
`absent` in an array that ends before it.
-/
def field (key : String) (inner : Decoder α) (missing absent : Option α) : Record α where
  Slots := Option α
  empty := none
  put slot name :=
    if name = key then
      some fun depth d =>
        match slot with
        | some _ => .error .mismatched
        | none => (inner depth d).map some
    else none
  ofSlots slot :=
    match slot <|> missing with
    | some a => .ok a
    | none => .error .mismatched
  ofItems depth closed items :=
    match items with
    | d :: rest => do return (← inner depth d, rest)
    | [] =>
        if closed then
          match absent with
          | some a => .ok (a, [])
          | none => .error .mismatched
        else .error .malformed

/-- A field that must be there. -/
def required (key : String) (inner : Decoder α) : Record α :=
  field key inner none none

/-- A field with a default for when it is not there. -/
def defaulted (key : String) (inner : Decoder α) (value : α) : Record α :=
  field key inner (some value) (some value)

/-- A field that may be null or missing, in an array only null. -/
def nullable (key : String) (inner : Decoder α) : Record (Option α) :=
  field key (Decode.optional inner) (some none) none

/-- A field that may be null, missing, or beyond the end of an array. -/
def elective (key : String) (inner : Decoder α) : Record (Option α) :=
  defaulted key (Decode.optional inner) none

/-- A record without fields. -/
def constant (a : α) : Record α where
  Slots := Unit
  empty := ()
  put _ _ := none
  ofSlots _ := .ok a
  ofItems _ _ items := .ok (a, items)

/-- The fields of two records, one after the other. -/
def both (r : Record α) (q : Record β) : Record (α × β) where
  Slots := r.Slots × q.Slots
  empty := (r.empty, q.empty)
  put slots name :=
    match r.put slots.1 name with
    | some f => some fun depth d => (f depth d).map fun s => (s, slots.2)
    | none => (q.put slots.2 name).map fun f depth d => (f depth d).map fun s => (slots.1, s)
  ofSlots slots := do
    let a ← r.ofSlots slots.1
    let b ← q.ofSlots slots.2
    return (a, b)
  ofItems depth closed items := do
    let (a, items) ← r.ofItems depth closed items
    let (b, items) ← q.ofItems depth closed items
    return ((a, b), items)

/-- A record of fields, turned into what it stands for. -/
def map (f : α → β) (r : Record α) : Record β where
  Slots := r.Slots
  empty := r.empty
  put := r.put
  ofSlots slots := (r.ofSlots slots).map f
  ofItems depth closed items := (r.ofItems depth closed items).map fun (a, rest) => (f a, rest)

-----------------------------------------------------------------------------------------
-- Objects and arrays of a record
-----------------------------------------------------------------------------------------

/-- Puts one entry of an object into the slots. -/
def putEntry (r : Record α) (skip : Nat → Draft → Bool) (depth : Nat)
    (slots : r.Slots) (entry : Option String × Draft) : Except Fault r.Slots :=
  match entry with
  | (none, _) => .error .malformed
  | (some key, d) =>
      match r.put slots key with
      | some f => f depth d
      | none => if skip depth d then .ok slots else .error .malformed

/-- Decodes the entries of an object. -/
def ofEntries (r : Record α) (skip : Nat → Draft → Bool) (depth : Nat)
    (entries : List (Option String × Draft)) (closed : Bool) : Except Fault α := do
  let slots ← entries.foldlM (r.putEntry skip depth) r.empty
  if closed then r.ofSlots slots else .error .malformed

/-- Decodes all the items of an array. -/
def ofAllItems (r : Record α) (depth : Nat) (items : List Draft) (closed : Bool)
    : Except Fault α := do
  let (a, rest) ← r.ofItems depth closed items
  if closed && rest.isEmpty then .ok a else .error .malformed

/-- A part that is skipped in a plain record needs only the right form. -/
def skipAny (_ : Nat) (d : Draft) : Bool :=
  d.isWellFormed

/-- Decodes a record from an object or an array. -/
def decoder (r : Record α) : Decoder α
  | depth + 1, .object entries closed => r.ofEntries skipAny depth entries closed
  | depth + 1, .array items closed => r.ofAllItems depth items closed
  | 0, .object _ _ => .error .malformed
  | 0, .array _ _ => .error .malformed
  | _, d => .error d.mismatch

/-- Decodes a record from an object only. -/
def objectDecoder (r : Record α) : Decoder α
  | _, .array items closed => .error (Draft.mismatch (.array items closed))
  | depth, d => r.decoder depth d

-----------------------------------------------------------------------------------------
-- Records that a tag chooses among
-----------------------------------------------------------------------------------------

/-- A part that is set aside before the alternative is known has to be a value. -/
def skipValue (depth : Nat) (d : Draft) : Bool :=
  match Value.decoder depth d with
  | .ok _ => true
  | .error _ => false

/-- Splits the entry of the tag off an object; the tag may stand anywhere, but once. -/
def splitTag (tag : String) (entries : List (Option String × Draft))
    : Except Fault (Draft × List (Option String × Draft)) :=
  match entries.filter fun (key, _) => key = some tag with
  | [(_, d)] => .ok (d, entries.filter fun (key, _) => key ≠ some tag)
  | _ => .error .mismatched

/-- Decodes the entries of an object whose alternative a tag among them names. Every part is a
value that is kept, whether it has a field or not.
-/
def ofTaggedEntries (tag : String) (name : Draft → Except Fault String)
    (alternative : String → Option (Record α)) (depth : Nat)
    (entries : List (Option String × Draft)) (closed : Bool) : Except Fault α := do
  let (d, others) ← splitTag tag entries
  match alternative (← name d) with
  | some r => r.ofEntries skipValue depth others closed
  | none => .error .mismatched

/-- Decodes a record of an alternative that a tag among its own keys names; also an array of the
tag and the fields.
-/
def tagged (tag : String) (alternative : String → Option (Record α)) : Decoder α
  | depth + 1, .object entries closed =>
      ofTaggedEntries tag (Decode.string depth) alternative depth entries closed
  | depth + 1, .array (d :: items) closed => do
      match alternative (← Decode.string depth d) with
      | some r => r.ofAllItems depth items closed
      | none => .error .mismatched
  | _, _ => .error .mismatched

end Record

end CaseGrouping.Json
