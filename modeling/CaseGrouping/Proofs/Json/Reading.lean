import CaseGrouping.Json.Decode
import CaseGrouping.Proofs.Json.Text

/-! Reading what was written: the compact text of a value whose numbers are integers gives the draft
of the value. It is read from the left, whatever follows it.
-/

namespace CaseGrouping.Json

namespace Draft

variable {rest : List Char}

-----------------------------------------------------------------------------------------
-- Strings
-----------------------------------------------------------------------------------------

theorem hexValue?_digitChar : ∀ n < 16, hexValue? (Nat.digitChar n) = some n := by
  decide

/-- A written character is read as itself, whatever follows it. -/
theorem readPieces_escapeChar (c : Char) (rest : List Char) (done : List Piece)
    : readPieces (escapeChar c ++ rest) done = readPieces rest (.char c :: done) := by
  unfold escapeChar
  split
  · rfl
  · rfl
  · rfl
  · rfl
  · rfl
  · rfl
  · rfl
  next quote backslash _ _ _ _ _ =>
    split
    next control =>
      have unit : hexUnit? '0' '0' (Nat.digitChar (c.toNat / 16)) (Nat.digitChar (c.toNat % 16))
          = some c.toNat := by
        have zero : hexValue? '0' = some 0 := rfl
        simp only [hexUnit?, zero, hexValue?_digitChar _ (by omega : c.toNat / 16 < 16),
          hexValue?_digitChar _ (Nat.mod_lt _ (by omega)), Option.pure_def]
        exact congrArg some (by omega)
      have piece : Piece.ofUnit c.toNat = .char c := by
        rw [Piece.ofUnit, if_neg (by simp; omega), Char.ofNat_toNat]
      simp only [hexPair, List.cons_append, List.nil_append, readPieces, unit, piece]
    next printable =>
      rw [List.singleton_append, readPieces.eq_def]
      split <;> simp_all

/-- A written string is read up to its closing quote, by induction on its characters. -/
theorem readPieces_flatMap (cs rest : List Char) (done : List Piece)
    : readPieces (cs.flatMap escapeChar ++ '"' :: rest) done
      = some ((cs.map .char).reverse ++ done, rest) := by
  induction cs generalizing done with
  | nil => rfl
  | cons c cs ih =>
      rw [List.flatMap_cons, List.append_assoc, readPieces_escapeChar, ih]
      simp

theorem joinPieces_char (cs : List Char) : joinPieces (cs.map .char) = some cs := by
  induction cs with
  | nil => rfl
  | cons c cs ih => simp [joinPieces, ih]

theorem readString_stringChars (s : String) (rest : List Char)
    : readString (s.toList.flatMap escapeChar ++ '"' :: rest) = some (some s, rest) := by
  simp [readString, readPieces_flatMap, joinPieces_char]

-----------------------------------------------------------------------------------------
-- Numbers
-----------------------------------------------------------------------------------------

/-- A text goes on, if it does, as one goes on after a value. -/
def Closes (rest : List Char) : Prop :=
  ∀ c ∈ rest.head?, c = ',' ∨ c = ']' ∨ c = '\x7d'

/-- The digits that a text begins with are taken, by induction on them. -/
theorem takeDigits_append {digits : List Char} (all : Decimal.AllDigits digits)
    (closes : Closes rest)
    : takeDigits (digits ++ rest) = (digits.map fun c => c.toNat - '0'.toNat, rest) := by
  induction digits with
  | nil =>
      cases rest with
      | nil => rfl
      | cons c rest =>
          have closing : Text.digitValue? c = none := by
            rcases closes c rfl with rfl | rfl | rfl <;> rfl
          simp [takeDigits, closing]
  | cons c digits ih =>
      have digit : Text.digitValue? c = some (c.toNat - '0'.toNat) := if_pos (all c (by simp))
      simp [takeDigits, digit, ih fun d member => all d (by simp [member])]

theorem digitsValue_map (digits : List Char)
    : Numeral.digitsValue (digits.map fun c => c.toNat - '0'.toNat)
      = Nat.ofDigitChars 10 digits 0 := by
  rw [Numeral.digitsValue, List.foldl_map, Nat.ofDigitChars_eq_foldl]
  simp only [Nat.mul_comm]

theorem digitsValue_toDigits (n : Nat)
    : Numeral.digitsValue ((Nat.toDigits 10 n).map fun c => c.toNat - '0'.toNat) = n := by
  rw [digitsValue_map, Nat.ofDigitChars_ten_toDigits]

/-- No numeral but that of zero begins with a zero, by induction on the number. -/
theorem head?_toDigits {n : Nat} (pos : 0 < n) : (Nat.toDigits 10 n).head? ≠ some '0' := by
  induction n using Nat.strongRecOn with
  | ind n ih =>
      by_cases small : n < 10
      · rw [Nat.toDigits_of_lt_base small]
        simp
        omega
      · rw [Nat.toDigits_of_base_le (by omega) (by omega),
          List.head?_append_of_ne_nil _ Nat.toDigits_ne_nil]
        exact ih (n / 10) (by omega) (by omega)

/-- Digits of which the first is no idle zero are read as a numeral, if what follows closes it. -/
theorem readNumber_of_digits {cs : List Char} {d : Nat} {ds : List Nat} (minus : Bool)
    (digits : takeDigits cs = (d :: ds, rest)) (needed : d = 0 → ds = []) (closes : Closes rest)
    : readNumber minus cs = some (⟨minus, d :: ds, [], none⟩, rest) := by
  have fraction : readFraction rest = some ([], rest) := by
    cases rest with
    | nil => rfl
    | cons c rest => rcases closes c rfl with rfl | rfl | rfl <;> rfl
  have exponent : readExponent rest = some (none, rest) := by
    cases rest with
    | nil => rfl
    | cons c rest => rcases closes c rfl with rfl | rfl | rfl <;> rfl
  rw [readNumber, digits]
  cases d with
  | zero => simp [needed rfl, fraction, exponent]
  | succ d => simp [fraction, exponent]

/-- The numeral of a natural number is read with its value, whatever follows that closes it. -/
theorem readNumber_toDigits (minus : Bool) (n : Nat) (closes : Closes rest)
    : ∃ whole,
        readNumber minus (Nat.toDigits 10 n ++ rest) = some (⟨minus, whole, [], none⟩, rest)
        ∧ Numeral.digitsValue whole = n := by
  have value := digitsValue_toDigits n
  have digits := takeDigits_append (Decimal.allDigits_toDigits n) closes
  obtain ⟨c, cs, text⟩ := List.exists_cons_of_ne_nil (Nat.toDigits_ne_nil (n := n) (b := 10))
  refine ⟨_, readNumber_of_digits minus (digits.trans (by rw [text]; rfl)) (fun zero => ?_) closes,
    by rw [← value, text]; rfl⟩
  have digit := Char.isDigit_iff_toNat.mp (Decimal.allDigits_toDigits n c (by rw [text]; simp))
  have first : c = '0' :=
    Char.toNat_inj.mp (Nat.le_antisymm (Nat.sub_eq_zero_iff_le.mp zero) digit.1)
  have none : n = 0 := by
    by_contra some
    exact head?_toDigits (Nat.pos_of_ne_zero some) (by rw [text, first]; rfl)
  rw [none, Nat.toDigits_zero] at text
  simp [← (List.cons.inj text).2]

/-- An integer in the range of a word is read from its numeral. -/
theorem numberReading_natural (n : UInt64) (closes : Closes rest)
    : numberReading (readNumber false (Nat.toDigits 10 n.toNat ++ rest))
      = (.number (some (.natural n)), some rest) := by
  obtain ⟨whole, reads, value⟩ := readNumber_toDigits false n.toNat closes
  simpa [numberReading, reads, Numeral.toNumber?, value] using n.toNat_lt

theorem numberReading_negative (pred : Fin (2 ^ 63)) (closes : Closes rest)
    : numberReading (readNumber true (Nat.toDigits 10 (pred.val + 1) ++ rest))
      = (.number (some (.negative pred)), some rest) := by
  obtain ⟨whole, reads, value⟩ := readNumber_toDigits true (pred.val + 1) closes
  simp [numberReading, reads, Numeral.toNumber?, value]

-----------------------------------------------------------------------------------------
-- Steps of reading
-----------------------------------------------------------------------------------------

section Steps

variable {fuel : Nat} {cs : List Char} {d : Draft} {key : String}

theorem readWord_append (word rest : List Char) (d : Draft)
    : readWord word d (word ++ rest) = (d, some rest) := by
  simp [readWord]

theorem skipGap_cons {c : Char} (solid : isGap c = false) (cs : List Char)
    : skipGap (c :: cs) = c :: cs := by
  simp [skipGap, solid]

theorem isGap_of_isNumeral {c : Char} (numeral : Decimal.isNumeral c = true) : isGap c = false := by
  refine Bool.eq_false_iff.mpr fun gap => ?_
  simp only [isGap, Bool.or_eq_true, beq_iff_eq] at gap
  rcases gap with ((rfl | rfl) | rfl) | rfl <;> exact absurd numeral (by decide)

/-- A text that begins with a digit is read as a number. -/
theorem readValue_digit {c : Char} (digit : c.isDigit = true)
    : readValue (fuel + 1) (c :: cs) = numberReading (readNumber false (c :: cs)) := by
  rw [readValue, skipGap_cons (isGap_of_isNumeral (Decimal.isNumeral_of_isDigit digit))]
  split
  case h_8 => rfl
  all_goals simp_all [Char.isDigit]

/-- After an opening bracket that is not closed at once there are items. -/
theorem readValue_items {c : Char} (solid : isGap c = false) (unclosed : c ≠ ']')
    : readValue (fuel + 1) ('[' :: c :: cs)
      = (.array (readItems fuel (c :: cs)).1 (readItems fuel (c :: cs)).2.isSome,
          (readItems fuel (c :: cs)).2) := by
  rw [readValue, skipGap_cons rfl]
  simp only
  rw [skipGap_cons solid]
  split
  next closed => exact absurd (List.cons.inj closed).1 unclosed
  next => rfl

/-- After an opening brace and a quote there are entries. -/
theorem readValue_entries
    : readValue (fuel + 1) ('\x7b' :: '"' :: cs)
      = (.object (readEntries fuel ('"' :: cs)).1 (readEntries fuel ('"' :: cs)).2.isSome,
          (readEntries fuel ('"' :: cs)).2) :=
  rfl

theorem readItems_last (item : readValue fuel cs = (d, some (']' :: rest)))
    : readItems (fuel + 1) cs = ([d], some rest) := by
  rw [readItems, item]
  rfl

theorem readItems_next (item : readValue fuel cs = (d, some (',' :: rest)))
    : readItems (fuel + 1) cs = (d :: (readItems fuel rest).1, (readItems fuel rest).2) := by
  rw [readItems, item]
  rfl

/-- A key is read up to its colon. -/
theorem readEntries_key
    : readEntries (fuel + 1) (stringChars key ++ ':' :: cs)
      = match readValue fuel cs with
        | (d, none) => ([(some key, d)], none)
        | (d, some rest) =>
            match skipGap rest with
            | ',' :: rest =>
                ((some key, d) :: (readEntries fuel rest).1, (readEntries fuel rest).2)
            | '\x7d' :: rest => ([(some key, d)], some rest)
            | _ => ([(some key, d)], none) := by
  have text : stringChars key ++ ':' :: cs
      = '"' :: (key.toList.flatMap escapeChar ++ '"' :: ':' :: cs) := by
    simp [stringChars]
  rw [text, readEntries, skipGap_cons rfl]
  simp only [readString_stringChars]
  rfl

theorem readEntries_last (value : readValue fuel cs = (d, some ('\x7d' :: rest)))
    : readEntries (fuel + 1) (stringChars key ++ ':' :: cs) = ([(some key, d)], some rest) := by
  rw [readEntries_key, value]
  rfl

theorem readEntries_next (value : readValue fuel cs = (d, some (',' :: rest)))
    : readEntries (fuel + 1) (stringChars key ++ ':' :: cs)
      = ((some key, d) :: (readEntries fuel rest).1, (readEntries fuel rest).2) := by
  rw [readEntries_key, value]
  rfl

end Steps

-----------------------------------------------------------------------------------------
-- Values
-----------------------------------------------------------------------------------------

/-- The text of a value begins neither with a gap nor with a closing bracket. -/
theorem exists_first (v : Value)
    : ∃ c cs, v.chars = c :: cs ∧ isGap c = false ∧ c ≠ ']' := by
  cases v with
  | null => exact ⟨_, _, rfl, rfl, by decide⟩
  | bool b => cases b <;> exact ⟨_, _, rfl, rfl, by decide⟩
  | number n =>
      obtain ⟨c, cs, text⟩ := List.exists_cons_of_ne_nil n.chars_ne_nil
      have numeral : Decimal.isNumeral c = true := n.isNumeral_chars (by rw [text]; simp)
      refine ⟨c, cs, text, isGap_of_isNumeral numeral, ?_⟩
      rintro rfl
      exact absurd numeral (by decide)
  | string s => exact ⟨_, _, rfl, rfl, by decide⟩
  | array items => cases items <;> exact ⟨_, _, rfl, rfl, by decide⟩
  | object entries => cases entries <;> exact ⟨_, _, rfl, rfl, by decide⟩

theorem length_chars_pos (v : Value) : 0 < v.chars.length := by
  obtain ⟨c, cs, text, _⟩ := exists_first v
  rw [text]
  exact Nat.succ_pos _

theorem closes_itemsChars (items : List Value) (rest : List Char)
    : Closes (Value.itemsChars items ++ rest) := by
  cases items <;> exact fun c first => by cases first; simp

theorem closes_entriesChars (entries : List (String × Value)) (rest : List Char)
    : Closes (Value.entriesChars entries ++ rest) := by
  cases entries <;> exact fun c first => by cases first; simp

mutual

/-- The text of a value whose numbers are integers is read as its draft, whatever follows that
closes it. The recursion is on the value; fuel is used up no faster than text.
-/
theorem readValue_chars : (v : Value) → v.Integral → (fuel : Nat) → (rest : List Char)
    → v.chars.length ≤ fuel + 1 → Closes rest
    → readValue (fuel + 1) (v.chars ++ rest) = (ofValue v, some rest)
  | .null, _, fuel, rest, _, _ => readWord_append ['u', 'l', 'l'] rest .null
  | .bool true, _, fuel, rest, _, _ => readWord_append ['r', 'u', 'e'] rest (.bool true)
  | .bool false, _, fuel, rest, _, _ => readWord_append ['a', 'l', 's', 'e'] rest (.bool false)
  | .number (.natural n), _, fuel, rest, _, closes => by
      obtain ⟨c, cs, text⟩ :=
        List.exists_cons_of_ne_nil (Nat.toDigits_ne_nil (n := n.toNat) (b := 10))
      have digit : c.isDigit = true := Decimal.allDigits_toDigits n.toNat c (by rw [text]; simp)
      have reads := numberReading_natural n closes
      rw [Value.chars, Number.chars, ofValue, ← reads, text]
      exact readValue_digit digit
  | .number (.negative pred), _, fuel, rest, _, closes => numberReading_negative pred closes
  | .string s, _, fuel, rest, _, _ => by
      have text : (Value.string s).chars ++ rest
          = '"' :: (s.toList.flatMap escapeChar ++ '"' :: rest) := by
        simp [Value.chars, stringChars]
      rw [text, readValue, skipGap_cons rfl]
      simp only [readString_stringChars, ofValue]
  | .array [], _, fuel, rest, _, _ => rfl
  | .array (v :: items), integral, fuel, rest, enough, _ => by
      obtain ⟨first, others⟩ := integral
      obtain ⟨c, cs, text, solid, unclosed⟩ := exists_first v
      have reads := readItems_chars v items first others fuel rest (by
        simp only [Value.chars, List.length_append, List.length_cons] at enough
        omega)
      simp only [Value.chars, List.cons_append, List.append_assoc, text] at reads ⊢
      rw [readValue_items solid unclosed, reads]
      rfl
  | .object [], _, fuel, rest, _, _ => rfl
  | .object ((key, v) :: entries), integral, fuel, rest, enough, _ => by
      obtain ⟨first, others⟩ := integral
      have reads := readEntries_chars key v entries first others fuel rest (by
        simp only [Value.chars, List.length_append, List.length_cons] at enough
        omega)
      simp only [Value.chars, stringChars, List.cons_append, List.append_assoc] at reads ⊢
      rw [readValue_entries, reads]
      rfl
termination_by v => sizeOf v

/-- The texts of items up to the closing bracket are read, by recursion on the items. -/
theorem readItems_chars : (v : Value) → (items : List Value) → v.Integral
    → Value.IntegralItems items → (fuel : Nat) → (rest : List Char)
    → v.chars.length + (Value.itemsChars items).length ≤ fuel
    → readItems fuel (v.chars ++ (Value.itemsChars items ++ rest))
      = (ofItems (v :: items), some rest)
  | v, [], first, _, fuel, rest, enough => by
      have some := length_chars_pos v
      obtain ⟨fuel, rfl⟩ : ∃ n, fuel = n + 2 :=
        ⟨fuel - 2, by simp [Value.itemsChars] at enough; omega⟩
      have item := readValue_chars v first fuel _ (by simp [Value.itemsChars] at enough; omega)
        (closes_itemsChars [] rest)
      exact readItems_last item
  | v, w :: items, first, others, fuel, rest, enough => by
      have some := length_chars_pos v
      obtain ⟨second, others⟩ := others
      simp only [Value.itemsChars, List.length_append, List.length_cons] at enough
      obtain ⟨fuel, rfl⟩ : ∃ n, fuel = n + 2 := ⟨fuel - 2, by omega⟩
      have reads := readItems_chars w items second others (fuel + 1) rest (by omega)
      have item := readValue_chars v first fuel _ (by omega)
        (closes_itemsChars (w :: items) rest)
      simp only [Value.itemsChars, List.cons_append, List.append_assoc] at item ⊢
      rw [readItems_next item, reads]
      rfl
termination_by v items => sizeOf v + sizeOf items + 1

/-- The texts of entries up to the closing brace are read, by recursion on the entries. -/
theorem readEntries_chars : (key : String) → (v : Value) → (entries : List (String × Value))
    → v.Integral → Value.IntegralEntries entries → (fuel : Nat) → (rest : List Char)
    → (stringChars key).length + v.chars.length + (Value.entriesChars entries).length ≤ fuel
    → readEntries fuel (stringChars key ++ ':' :: (v.chars ++ (Value.entriesChars entries ++ rest)))
      = (ofEntries ((key, v) :: entries), some rest)
  | key, v, [], first, _, fuel, rest, enough => by
      have some := length_chars_pos v
      obtain ⟨fuel, rfl⟩ : ∃ n, fuel = n + 2 :=
        ⟨fuel - 2, by simp [Value.entriesChars] at enough; omega⟩
      have value := readValue_chars v first fuel _ (by simp [Value.entriesChars] at enough; omega)
        (closes_entriesChars [] rest)
      exact readEntries_last value
  | key, v, (next, w) :: entries, first, others, fuel, rest, enough => by
      have some := length_chars_pos v
      obtain ⟨second, others⟩ := others
      simp only [Value.entriesChars, List.length_append, List.length_cons] at enough
      obtain ⟨fuel, rfl⟩ : ∃ n, fuel = n + 2 := ⟨fuel - 2, by omega⟩
      have reads := readEntries_chars next w entries second others (fuel + 1) rest (by omega)
      have value := readValue_chars v first fuel _ (by omega)
        (closes_entriesChars ((next, w) :: entries) rest)
      simp only [Value.entriesChars, List.cons_append, List.append_assoc] at value ⊢
      rw [readEntries_next value, reads]
      rfl
termination_by _ v entries => sizeOf v + sizeOf entries + 1

end

/-- The text of a value whose numbers are integers holds the draft of the value and nothing else. -/
theorem ofText_text {v : Value} (integral : v.Integral) : ofText v.text = (ofValue v, true) := by
  have none : Closes [] := fun c first => by cases first
  have reads := readValue_chars v integral (2 * v.chars.length + 1) [] (by omega) none
  rw [List.append_nil] at reads
  simp [ofText, Value.text, reads, skipGap]

end Draft

/-- The text of a value whose numbers are integers is decoded as the value is. -/
theorem decodeText_text {α : Type} {v : Value} (integral : v.Integral) (decoder : Decoder α)
    : decodeText decoder v.text = decodeValue decoder v := by
  simp only [decodeText, Draft.ofText_text integral, decodeValue, if_true]
  cases decoder greatestDepth (Draft.ofValue v) <;> rfl

/-- What is written is read as the decoder finds the written form, if its numbers are integers. -/
theorem read_text {α : Type} [Form α] {a : α} (integral : (Form.toValue a).Integral)
    : (read (text a) : Except Fault α) = decodeValue Form.decoder (Form.toValue a) :=
  decodeText_text integral Form.decoder

end CaseGrouping.Json
