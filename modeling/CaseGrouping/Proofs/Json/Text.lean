import CaseGrouping.Json.Value
import CaseGrouping.Proofs.Decimal.Layout

/-! The compact text determines a value: texts are told apart from the left, whatever follows a
value. No control character is in a text.
-/

namespace CaseGrouping.Json

open CaseGrouping.Decimal

-----------------------------------------------------------------------------------------
-- Numbers
-----------------------------------------------------------------------------------------

namespace Number

theorem isNumeral_chars {n : Number} {c : Char} (member : c ∈ n.chars) : isNumeral c = true := by
  cases n with
  | natural n => exact isNumeral_of_isDigit (allDigits_toDigits _ c member)
  | negative pred =>
      rcases List.mem_cons.mp member with rfl | digit
      · rfl
      · exact isNumeral_of_isDigit (allDigits_toDigits _ c digit)
  | double x => exact isNumeral_render member

theorem chars_ne_nil (n : Number) : n.chars ≠ [] := by
  cases n with
  | natural n => exact Nat.toDigits_ne_nil
  | negative pred => exact List.cons_ne_nil _ _
  | double x =>
      intro none
      refine not_allDigits_render layout x fun c member => ?_
      rw [show render layout x = [] from none] at member
      cases member

theorem toDigits_inj {n m : Nat} (same : Nat.toDigits 10 n = Nat.toDigits 10 m) : n = m := by
  rw [← Nat.ofDigitChars_ten_toDigits (n := n), same, Nat.ofDigitChars_ten_toDigits]

/-- The text of a number determines it: digits alone are a natural number, a sign and digits a
negative one, and anything else is a binary number.
-/
theorem chars_inj {n m : Number} (same : n.chars = m.chars) : n = m := by
  have unsigned : ∀ {k : Nat} {l : List Char}, Nat.toDigits 10 k ≠ '-' :: l := by
    intro k l same
    cases allDigits_toDigits k '-' (by rw [same]; exact List.mem_cons_self)
  have whole : ∀ {k : Nat} {x : Binary64}, Nat.toDigits 10 k ≠ render layout x := by
    intro k x same
    exact not_allDigits_render layout x (by rw [← same]; exact allDigits_toDigits k)
  cases n with
  | natural n =>
      cases m with
      | natural m => exact congrArg _ (UInt64.toNat_inj.mp (toDigits_inj same))
      | negative pred => exact absurd same unsigned
      | double x => exact absurd same whole
  | negative pred =>
      cases m with
      | natural m => exact absurd same.symm unsigned
      | negative pred' =>
          have digits := toDigits_inj (List.cons.inj same).2
          exact congrArg _ (Fin.ext (Nat.succ.inj digits))
      | double x => exact absurd same.symm (render_ne_minus layout x (allDigits_toDigits _))
  | double x =>
      cases m with
      | natural m => exact absurd same.symm whole
      | negative pred => exact absurd same (render_ne_minus layout x (allDigits_toDigits _))
      | double y => exact congrArg _ (render_inj same)

end Number

/-- A text goes on with no character of a numeral, as it does after a value. -/
def Ends (l : List Char) : Prop :=
  ∀ c ∈ l.head?, isNumeral c = false

/-- The text of a number determines it, and what follows. -/
theorem Number.chars_append_inj {n m : Number} {rest more : List Char} (ends : Ends rest)
    (ends' : Ends more) (same : n.chars ++ rest = m.chars ++ more)
    : n = m ∧ rest = more := by
  obtain ⟨taken, left⟩ := takeWhile_append_eq (fun _ => n.isNumeral_chars) ends
  obtain ⟨taken', left'⟩ := takeWhile_append_eq (fun _ => m.isNumeral_chars) ends'
  rw [same] at taken left
  exact ⟨chars_inj (taken.symm.trans taken'), left.symm.trans left'⟩

-----------------------------------------------------------------------------------------
-- Strings
-----------------------------------------------------------------------------------------

/-- The value of a lower-case hexadecimal digit. -/
def hexValue (c : Char) : Nat :=
  if c.isDigit then c.toNat - '0'.toNat else c.toNat - 'a'.toNat + 10

/-- Reads back the character that follows a backslash. -/
def escaped? : List Char → Option (Char × List Char)
  | 'u' :: '0' :: '0' :: a :: b :: rest =>
      some (Char.ofNat (16 * hexValue a + hexValue b), rest)
  | 'b' :: rest => some ('\x08', rest)
  | 'f' :: rest => some ('\x0c', rest)
  | 'n' :: rest => some ('\n', rest)
  | 'r' :: rest => some ('\r', rest)
  | 't' :: rest => some ('\t', rest)
  | c :: rest => some (c, rest)
  | [] => none

/-- Reads back one character of a string; `none` at the closing quote. -/
def unescape? : List Char → Option (Char × List Char)
  | [] => none
  | c :: rest =>
      if c = '"' then none
      else if c = '\\' then escaped? rest
      else some (c, rest)

theorem hexValue_hexPair
    : ∀ n < 32, 16 * hexValue (Nat.digitChar (n / 16)) + hexValue (Nat.digitChar (n % 16)) = n := by
  decide

/-- Every character of a string is read back from its text. -/
theorem unescape?_escapeChar (c : Char) (rest : List Char)
    : unescape? (escapeChar c ++ rest) = some (c, rest) := by
  unfold escapeChar
  split
  · rfl
  · rfl
  · rfl
  · rfl
  · rfl
  · rfl
  · rfl
  next quote backslash _ _ _ _ _ =>
    split
    next control =>
      have value := hexValue_hexPair c.toNat control
      simp only [hexPair, List.cons_append, List.nil_append, unescape?, escaped?, value,
        Char.ofNat_toNat]
      rfl
    next =>
      simp only [List.cons_append, List.nil_append, unescape?]
      rw [if_neg quote, if_neg backslash]

/-- The text of a string up to its closing quote determines it, by induction on its characters. -/
theorem flatMap_escapeChar_inj {cs ds : List Char} {rest more : List Char}
    (same : cs.flatMap escapeChar ++ '"' :: rest = ds.flatMap escapeChar ++ '"' :: more)
    : cs = ds ∧ rest = more := by
  induction cs generalizing ds with
  | nil =>
      cases ds with
      | nil => exact ⟨rfl, (List.cons.inj same).2⟩
      | cons d ds =>
          rw [List.flatMap_cons, List.append_assoc] at same
          have read := congrArg unescape? same
          rw [unescape?_escapeChar] at read
          cases read
  | cons c cs ih =>
      rw [List.flatMap_cons, List.append_assoc] at same
      have read := congrArg unescape? same
      rw [unescape?_escapeChar] at read
      cases ds with
      | nil => cases read
      | cons d ds =>
          rw [List.flatMap_cons, List.append_assoc, unescape?_escapeChar] at read
          obtain ⟨rfl, left⟩ := Prod.mk.inj (Option.some.inj read)
          obtain ⟨rfl, after⟩ := ih left
          exact ⟨rfl, after⟩

theorem stringChars_append_inj {s u : String} {rest more : List Char}
    (same : stringChars s ++ rest = stringChars u ++ more)
    : s = u ∧ rest = more := by
  simp only [stringChars, List.cons_append, List.append_assoc, List.nil_append] at same
  obtain ⟨characters, after⟩ := flatMap_escapeChar_inj (List.cons.inj same).2
  exact ⟨String.toList_inj.mp characters, after⟩

-----------------------------------------------------------------------------------------
-- Values
-----------------------------------------------------------------------------------------

namespace Value

mutual

/-- All numbers in the value are integers. -/
def Integral : Value → Prop
  | .number (.double _) => False
  | .array items => IntegralItems items
  | .object entries => IntegralEntries entries
  | _ => True

/-- All numbers in the items are integers. -/
def IntegralItems : List Value → Prop
  | [] => True
  | v :: items => v.Integral ∧ IntegralItems items

/-- All numbers in the entries are integers. -/
def IntegralEntries : List (String × Value) → Prop
  | [] => True
  | (_, v) :: entries => v.Integral ∧ IntegralEntries entries

end

theorem integralItems_iff {items : List Value}
    : IntegralItems items ↔ ∀ v ∈ items, v.Integral := by
  induction items with
  | nil => simp [IntegralItems]
  | cons v items ih => simp [IntegralItems, ih]

theorem integralEntries_iff {entries : List (String × Value)}
    : IntegralEntries entries ↔ ∀ e ∈ entries, e.2.Integral := by
  induction entries with
  | nil => simp [IntegralEntries]
  | cons e entries ih => simp [IntegralEntries, ih]

theorem integral_orNull {α : Type} {write : α → Value} (each : ∀ a, (write a).Integral)
    (o : Option α)
    : (orNull (o.map write)).Integral := by
  cases o with
  | none => trivial
  | some a => exact each a

/-- The character that the text of a value begins with, a digit standing for every numeral. -/
def mark : Value → Char
  | .null => 'n'
  | .bool true => 't'
  | .bool false => 'f'
  | .number _ => '0'
  | .string _ => '"'
  | .array _ => '['
  | .object _ => '\x7b'

/-- The mark that a text begins with. -/
def markOf (text : List Char) : Option Char :=
  text.head?.map fun c => if isNumeral c then '0' else c

/-- A text begins with the mark of its value. -/
theorem markOf_chars (v : Value) (rest : List Char) : markOf (v.chars ++ rest) = some v.mark := by
  cases v with
  | null => rfl
  | bool b => cases b <;> rfl
  | number n =>
      obtain ⟨c, digits, text⟩ := List.exists_cons_of_ne_nil n.chars_ne_nil
      have numeral : isNumeral c = true :=
        n.isNumeral_chars (by rw [text]; exact List.mem_cons_self)
      simp [chars, text, markOf, numeral, mark]
  | string s => rfl
  | array items => cases items <;> rfl
  | object entries => cases entries <;> rfl

theorem ends_itemsChars (items : List Value) (rest : List Char)
    : Ends (itemsChars items ++ rest) := by
  cases items <;> exact fun c first => by cases first; rfl

theorem ends_entriesChars (entries : List (String × Value)) (rest : List Char)
    : Ends (entriesChars entries ++ rest) := by
  cases entries <;> exact fun c first => by cases first; rfl

/-- A text that closes a list of items or entries begins no value. -/
theorem not_closing {v : Value} {c : Char} {rest more : List Char}
    (closing : c = ']' ∨ c = '\x7d') (same : v.chars ++ rest = c :: more)
    : False := by
  have begins := congrArg markOf same
  rw [markOf_chars] at begins
  have mark : v.mark = c := by
    rcases closing with rfl | rfl <;> exact Option.some.inj begins
  rcases closing with rfl | rfl <;> cases v with
  | bool b => cases b <;> simp [Value.mark] at mark
  | _ => simp [Value.mark] at mark

/-- Values are of the same kind, and the same where the kind leaves no choice. -/
def SameKind (v w : Value) : Prop :=
  match v with
  | .null => w = .null
  | .bool b => w = .bool b
  | .number _ => ∃ m, w = .number m
  | .string _ => ∃ u, w = .string u
  | .array _ => ∃ items, w = .array items
  | .object _ => ∃ entries, w = .object entries

/-- The first character of a text tells the kind of its value. -/
theorem sameKind {v w : Value} {rest more : List Char}
    (same : v.chars ++ rest = w.chars ++ more)
    : SameKind v w := by
  have begins := congrArg markOf same
  rw [markOf_chars, markOf_chars, Option.some.injEq] at begins
  cases v with
  | bool b =>
      cases b <;> cases w with
      | bool b' => cases b' <;> simp_all [mark, SameKind]
      | _ => simp [mark] at begins
  | _ =>
      cases w with
      | bool b' => cases b' <;> simp [mark] at begins
      | _ => simp_all [mark, SameKind]

mutual

/-- The text of a value determines it and what follows, by recursion on the value. -/
theorem chars_append_inj : (v w : Value) → {rest more : List Char} → Ends rest → Ends more
    → v.chars ++ rest = w.chars ++ more
    → v = w ∧ rest = more
  | .null, w, _, _, _, _, same => by
      obtain rfl := sameKind same
      exact ⟨rfl, List.append_cancel_left same⟩
  | .bool b, w, _, _, _, _, same => by
      obtain rfl := sameKind same
      exact ⟨rfl, List.append_cancel_left same⟩
  | .number n, w, _, _, ends, ends', same => by
      obtain ⟨m, rfl⟩ := sameKind same
      obtain ⟨rfl, after⟩ := n.chars_append_inj ends ends' same
      exact ⟨rfl, after⟩
  | .string s, w, _, _, _, _, same => by
      obtain ⟨u, rfl⟩ := sameKind same
      obtain ⟨rfl, after⟩ := stringChars_append_inj same
      exact ⟨rfl, after⟩
  | .array [], w, _, _, _, _, same => by
      obtain ⟨items, rfl⟩ := sameKind same
      cases items with
      | nil => exact ⟨rfl, List.append_cancel_left same⟩
      | cons v' items' =>
          simp only [chars, List.cons_append, List.append_assoc] at same
          exact (not_closing (.inl rfl) (List.cons.inj same).2.symm).elim
  | .array (v :: items), w, _, _, _, _, same => by
      obtain ⟨items', rfl⟩ := sameKind same
      cases items' with
      | nil =>
          simp only [chars, List.cons_append, List.append_assoc] at same
          exact (not_closing (.inl rfl) (List.cons.inj same).2).elim
      | cons v' items' =>
          simp only [chars, List.cons_append, List.append_assoc] at same
          obtain ⟨rfl, left⟩ := chars_append_inj v v'
            (ends_itemsChars _ _) (ends_itemsChars _ _) (List.cons.inj same).2
          obtain ⟨rfl, after⟩ := itemsChars_append_inj items items' left
          exact ⟨rfl, after⟩
  | .object [], w, _, _, _, _, same => by
      obtain ⟨entries, rfl⟩ := sameKind same
      cases entries with
      | nil => exact ⟨rfl, List.append_cancel_left same⟩
      | cons entry entries' =>
          cases entry
          simp [chars, stringChars] at same
  | .object ((key, v) :: entries), w, _, _, _, _, same => by
      obtain ⟨entries', rfl⟩ := sameKind same
      cases entries' with
      | nil => simp [chars, stringChars] at same
      | cons entry entries' =>
          obtain ⟨key', v'⟩ := entry
          simp only [chars, List.cons_append, List.append_assoc] at same
          obtain ⟨rfl, value⟩ := stringChars_append_inj (List.cons.inj same).2
          obtain ⟨rfl, left⟩ := chars_append_inj v v'
            (ends_entriesChars _ _) (ends_entriesChars _ _) (List.cons.inj value).2
          obtain ⟨rfl, after⟩ := entriesChars_append_inj entries entries' left
          exact ⟨rfl, after⟩

/-- The text of items determines them, by recursion on them. -/
theorem itemsChars_append_inj : (vs ws : List Value) → {rest more : List Char}
    → itemsChars vs ++ rest = itemsChars ws ++ more
    → vs = ws ∧ rest = more
  | [], [], _, _, same => ⟨rfl, List.append_cancel_left same⟩
  | [], _ :: _, _, _, same => by simp [itemsChars] at same
  | _ :: _, [], _, _, same => by simp [itemsChars] at same
  | v :: vs, w :: ws, _, _, same => by
      simp only [itemsChars, List.cons_append, List.append_assoc] at same
      obtain ⟨rfl, left⟩ := chars_append_inj v w
        (ends_itemsChars _ _) (ends_itemsChars _ _) (List.cons.inj same).2
      obtain ⟨rfl, after⟩ := itemsChars_append_inj vs ws left
      exact ⟨rfl, after⟩

/-- The text of entries determines them, by recursion on them. -/
theorem entriesChars_append_inj : (es fs : List (String × Value)) → {rest more : List Char}
    → entriesChars es ++ rest = entriesChars fs ++ more
    → es = fs ∧ rest = more
  | [], [], _, _, same => ⟨rfl, List.append_cancel_left same⟩
  | [], (_, _) :: _, _, _, same => by simp [entriesChars] at same
  | (_, _) :: _, [], _, _, same => by simp [entriesChars] at same
  | (key, v) :: es, (key', w) :: fs, _, _, same => by
      simp only [entriesChars, List.cons_append, List.append_assoc] at same
      obtain ⟨rfl, value⟩ := stringChars_append_inj (List.cons.inj same).2
      obtain ⟨rfl, left⟩ := chars_append_inj v w
        (ends_entriesChars _ _) (ends_entriesChars _ _) (List.cons.inj value).2
      obtain ⟨rfl, after⟩ := entriesChars_append_inj es fs left
      exact ⟨rfl, after⟩

end

/-- Different values have different texts. -/
theorem text_inj {v w : Value} (same : v.text = w.text) : v = w := by
  have none : Ends [] := fun c first => by cases first
  refine (chars_append_inj v w none none ?_).1
  rw [List.append_nil, List.append_nil]
  exact String.ofList_inj.mp same

end Value

-----------------------------------------------------------------------------------------
-- Characters
-----------------------------------------------------------------------------------------

/-- No control character is in the list. -/
def Printable (l : List Char) : Prop :=
  ∀ c ∈ l, 0x20 ≤ c.toNat

@[simp]
theorem printable_nil : Printable [] := by
  simp [Printable]

@[simp]
theorem printable_cons {c : Char} {l : List Char}
    : Printable (c :: l) ↔ 0x20 ≤ c.toNat ∧ Printable l := by
  simp [Printable]

@[simp]
theorem printable_append {l m : List Char} : Printable (l ++ m) ↔ Printable l ∧ Printable m := by
  simp [Printable, or_imp, forall_and]

theorem printable_digitChar : ∀ n < 16, 0x20 ≤ (Nat.digitChar n).toNat := by
  decide

theorem printable_hexPair {n : Nat} (control : n < 0x20) : Printable (hexPair n) := by
  have first := printable_digitChar (n / 16) (by omega)
  have second := printable_digitChar (n % 16) (by omega)
  simp [hexPair, first, second]

theorem printable_escapeChar (c : Char) : Printable (escapeChar c) := by
  unfold escapeChar
  split
  case h_8 =>
    split
    next control => exact printable_append.mpr ⟨by simp, printable_hexPair control⟩
    next printable => simpa using printable
  all_goals simp

theorem printable_stringChars (s : String) : Printable (stringChars s) := by
  have escaped : Printable (s.toList.flatMap escapeChar) := by
    intro c member
    obtain ⟨d, _, inside⟩ := List.mem_flatMap.mp member
    exact printable_escapeChar d c inside
  simpa [stringChars] using escaped

theorem Number.printable_chars (n : Number) : Printable n.chars := by
  intro c member
  have numeral := n.isNumeral_chars member
  simp only [isNumeral, Bool.or_eq_true, decide_eq_true_eq, List.mem_cons, List.not_mem_nil,
    or_false] at numeral
  rcases numeral with digit | rfl | rfl | rfl | rfl
  · exact Nat.le_trans (by decide) (Char.isDigit_iff_toNat.mp digit).1
  all_goals decide

namespace Value

mutual

/-- No control character is in the text of a value, by recursion on the value. -/
theorem printable_chars : (v : Value) → Printable v.chars
  | .null => by simp [chars]
  | .bool true => by simp [chars]
  | .bool false => by simp [chars]
  | .number n => n.printable_chars
  | .string s => printable_stringChars s
  | .array [] => by simp [chars]
  | .array (v :: items) => by simp [chars, printable_chars v, printable_itemsChars items]
  | .object [] => by simp [chars]
  | .object ((key, v) :: entries) => by
      simp [chars, printable_stringChars key, printable_chars v, printable_entriesChars entries]

/-- None is in the text of items, by recursion on them. -/
theorem printable_itemsChars : (items : List Value) → Printable (itemsChars items)
  | [] => by simp [itemsChars]
  | v :: items => by simp [itemsChars, printable_chars v, printable_itemsChars items]

/-- None is in the text of entries, by recursion on them. -/
theorem printable_entriesChars
    : (entries : List (String × Value)) → Printable (entriesChars entries)
  | [] => by simp [entriesChars]
  | (key, v) :: entries => by
      simp [entriesChars, printable_stringChars key, printable_chars v,
        printable_entriesChars entries]

end

end Value

end CaseGrouping.Json
