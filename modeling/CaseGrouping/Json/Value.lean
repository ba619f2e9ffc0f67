import CaseGrouping.Json.Number

/-! Values of the data format and their compact text.
An object keeps the order in which its entries are listed.
-/

namespace CaseGrouping.Json

/-- A value of the data format. -/
inductive Value where
  | null
  | bool (b : Bool)
  | number (n : Number)
  | string (s : String)
  | array (items : List Value)
  | object (entries : List (String × Value))

namespace Value

mutual

/-- Equality of values is decided by structural recursion. -/
def decEq : (v w : Value) → Decidable (v = w)
  | .null, .null => isTrue rfl
  | .bool a, .bool b => decidable_of_iff (a = b) (by simp)
  | .number a, .number b => decidable_of_iff (a = b) (by simp)
  | .string a, .string b => decidable_of_iff (a = b) (by simp)
  | .array a, .array b => @decidable_of_iff _ (a = b) (by simp) (decEqItems a b)
  | .object a, .object b => @decidable_of_iff _ (a = b) (by simp) (decEqEntries a b)
  | .null, .bool _ | .null, .number _ | .null, .string _ | .null, .array _ | .null, .object _
  | .bool _, .null | .bool _, .number _ | .bool _, .string _ | .bool _, .array _
  | .bool _, .object _ | .number _, .null | .number _, .bool _ | .number _, .string _
  | .number _, .array _ | .number _, .object _ | .string _, .null | .string _, .bool _
  | .string _, .number _ | .string _, .array _ | .string _, .object _ | .array _, .null
  | .array _, .bool _ | .array _, .number _ | .array _, .string _ | .array _, .object _
  | .object _, .null | .object _, .bool _ | .object _, .number _ | .object _, .string _
  | .object _, .array _ => isFalse (by simp)

/-- Equality of item lists is decided item by item. -/
def decEqItems : (v w : List Value) → Decidable (v = w)
  | [], [] => isTrue rfl
  | [], _ :: _ | _ :: _, [] => isFalse (by simp)
  | a :: as, b :: bs =>
      match decEq a b, decEqItems as bs with
      | isTrue h, isTrue hs => isTrue (by simp [h, hs])
      | isFalse h, _ => isFalse (by simp [h])
      | _, isFalse hs => isFalse (by simp [hs])

/-- Equality of entry lists is decided entry by entry. -/
def decEqEntries : (v w : List (String × Value)) → Decidable (v = w)
  | [], [] => isTrue rfl
  | [], _ :: _ | _ :: _, [] => isFalse (by simp)
  | (k, a) :: as, (l, b) :: bs =>
      match decEq a b, decEqEntries as bs with
      | isTrue h, isTrue hs => decidable_of_iff (k = l) (by simp [h, hs])
      | isFalse h, _ => isFalse (by simp [h])
      | _, isFalse hs => isFalse (by simp [hs])

end

instance : DecidableEq Value :=
  decEq

instance : Inhabited Value :=
  ⟨.null⟩

end Value

/-- The two lower-case hexadecimal digits of a number below 256. -/
def hexPair (n : Nat) : List Char :=
  [Nat.digitChar (n / 16), Nat.digitChar (n % 16)]

/-- One character of a string as it stands between the quotes: only the quote, the backslash and
the control characters below the space are escaped.
-/
def escapeChar (c : Char) : List Char :=
  match c with
  | '"' => ['\\', '"']
  | '\\' => ['\\', '\\']
  | '\x08' => ['\\', 'b']
  | '\x0c' => ['\\', 'f']
  | '\n' => ['\\', 'n']
  | '\r' => ['\\', 'r']
  | '\t' => ['\\', 't']
  | c => if c.toNat < 0x20 then ['\\', 'u', '0', '0'] ++ hexPair c.toNat else [c]

/-- A string in quotes. -/
def stringChars (s : String) : List Char :=
  '"' :: s.toList.flatMap escapeChar ++ ['"']

namespace Value

mutual

/-- The compact text of a value. -/
def chars : Value → List Char
  | .null => ['n', 'u', 'l', 'l']
  | .bool true => ['t', 'r', 'u', 'e']
  | .bool false => ['f', 'a', 'l', 's', 'e']
  | .number n => n.chars
  | .string s => stringChars s
  | .array [] => ['[', ']']
  | .array (v :: items) => '[' :: chars v ++ itemsChars items
  | .object [] => ['\x7b', '\x7d']
  | .object ((key, v) :: entries) =>
      '\x7b' :: stringChars key ++ ':' :: chars v ++ entriesChars entries

/-- The items after the first, each after a comma, and the closing bracket. -/
def itemsChars : List Value → List Char
  | [] => [']']
  | v :: items => ',' :: chars v ++ itemsChars items

/-- The entries after the first, each after a comma, and the closing brace. -/
def entriesChars : List (String × Value) → List Char
  | [] => ['\x7d']
  | (key, v) :: entries => ',' :: stringChars key ++ ':' :: chars v ++ entriesChars entries

end

/-- The compact text of a value. -/
def text (v : Value) : String :=
  String.ofList v.chars

mutual

/-- The value with all its zeros without a sign, which tells values apart by the numbers they
hold.
-/
def withPlainZeros : Value → Value
  | .number n => .number n.withPlainZero
  | .array items => .array (itemsWithPlainZeros items)
  | .object entries => .object (entriesWithPlainZeros entries)
  | v => v

/-- The items of an array without signs of zero. -/
def itemsWithPlainZeros : List Value → List Value
  | [] => []
  | v :: items => withPlainZeros v :: itemsWithPlainZeros items

/-- The entries of an object without signs of zero. -/
def entriesWithPlainZeros : List (String × Value) → List (String × Value)
  | [] => []
  | (key, v) :: entries => (key, withPlainZeros v) :: entriesWithPlainZeros entries

end

/-- The value of the last entry with the given key. -/
def get? (v : Value) (key : String) : Option Value :=
  match v with
  | .object entries => (entries.reverse.find? (·.1 == key)).map (·.2)
  | _ => none

/-- A natural number below the bound of a 64-bit word. -/
def natural (n : Nat) : Value :=
  .number (.natural (UInt64.ofNat n))

/-- A value or null. -/
def orNull (v : Option Value) : Value :=
  v.getD .null

end Value

end CaseGrouping.Json
