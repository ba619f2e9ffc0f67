import CaseGrouping.Proofs.Decimal.Shortest
import Mathlib.Data.List.TakeWhile

/-! What is written of a binary number determines it: its text reads back as its shortest decimal,
which lies in no other number's neighbourhood.
-/

namespace CaseGrouping.Decimal

-----------------------------------------------------------------------------------------
-- Reading a text
-----------------------------------------------------------------------------------------

/-- A text that goes on with another character is found from the left. -/
theorem takeWhile_append_eq {p : Char → Bool} {l rest : List Char} (all : ∀ c ∈ l, p c = true)
    (stops : ∀ c ∈ rest.head?, p c = false)
    : (l ++ rest).takeWhile p = l ∧ (l ++ rest).dropWhile p = rest := by
  rw [List.takeWhile_append_of_pos all, List.dropWhile_append_of_pos all]
  cases rest with
  | nil => simp
  | cons c rest => simp [stops c rfl]

/-- The exponent that a text ends with, from its mark on. -/
def exponentOf : List Char → ℤ
  | 'e' :: '-' :: digits => -(Nat.ofDigitChars 10 digits 0 : ℤ)
  | 'e' :: _ :: digits => Nat.ofDigitChars 10 digits 0
  | _ => 0

theorem exponentOf_nil : exponentOf [] = 0 :=
  rfl

/-- The number of which a text gives the digits on both sides of a point, and the exponent. -/
def readBack (text : List Char) : ℚ :=
  let mantissa := text.takeWhile (· != 'e')
  let whole := mantissa.takeWhile (· != '.')
  let fraction := (mantissa.dropWhile (· != '.')).drop 1
  Nat.ofDigitChars 10 (whole ++ fraction) 0
    * 10 ^ (exponentOf (text.dropWhile (· != 'e')) - fraction.length)

/-- All characters are digits. -/
def AllDigits (digits : List Char) : Prop :=
  ∀ c ∈ digits, c.isDigit = true

theorem ne_of_isDigit {c : Char} (digit : c.isDigit = true) {d : Char} (other : d.isDigit = false)
    : (c != d) = true := by
  rw [bne_iff_ne]
  rintro rfl
  rw [digit] at other
  cases other

variable {whole fraction digits : List Char} {power : ℤ}

/-- A text with a point is read by its parts. -/
theorem readBack_point (wholes : AllDigits whole) (fractions : AllDigits fraction)
    {tail : List Char} (marked : ∀ c ∈ tail.head?, c = 'e')
    : readBack (whole ++ '.' :: fraction ++ tail)
      = Nat.ofDigitChars 10 (whole ++ fraction) 0
        * 10 ^ (exponentOf tail - fraction.length) := by
  have mantissa : ∀ c ∈ whole ++ '.' :: fraction, (c != 'e') = true := by
    intro c member
    rcases List.mem_append.mp member with before | after
    · exact ne_of_isDigit (wholes c before) rfl
    · rcases List.mem_cons.mp after with rfl | after
      · rfl
      · exact ne_of_isDigit (fractions c after) rfl
  have ended : ∀ c ∈ tail.head?, (c != 'e') = false := by
    intro c first
    rw [marked c first]
    rfl
  have digits : ∀ c ∈ whole, (c != '.') = true := fun c member =>
    ne_of_isDigit (wholes c member) rfl
  have pointed : ∀ c ∈ ('.' :: fraction).head?, (c != '.') = false := by
    intro c first
    cases first
    rfl
  obtain ⟨taken, left⟩ := takeWhile_append_eq mantissa ended
  obtain ⟨before, after⟩ := takeWhile_append_eq digits pointed
  simp only [readBack, taken, left, before, after, List.drop_succ_cons, List.drop_zero]

/-- So is a text without one. -/
theorem readBack_whole (wholes : AllDigits whole) {tail : List Char}
    (marked : ∀ c ∈ tail.head?, c = 'e')
    : readBack (whole ++ tail) = Nat.ofDigitChars 10 whole 0 * 10 ^ exponentOf tail := by
  have other {d : Char} (sign : d.isDigit = false) : ∀ c ∈ whole, (c != d) = true :=
    fun c member => ne_of_isDigit (wholes c member) sign
  have ended : ∀ c ∈ tail.head?, (c != 'e') = false := by
    intro c first
    rw [marked c first]
    rfl
  have unpointed : ∀ c ∈ ([] : List Char).head?, (c != '.') = false := by
    intro c first
    cases first
  obtain ⟨taken, left⟩ := takeWhile_append_eq (other rfl) ended
  obtain ⟨before, after⟩ := takeWhile_append_eq (other rfl) unpointed
  rw [List.append_nil] at before after
  simp only [readBack, taken, left, before, after, List.drop_nil, List.append_nil,
    List.length_nil, Nat.cast_zero, sub_zero]

-----------------------------------------------------------------------------------------
-- Reading what was laid out
-----------------------------------------------------------------------------------------

theorem allDigits_replicate (k : Nat) : AllDigits (List.replicate k '0') := by
  intro c member
  rw [List.eq_of_mem_replicate member]
  rfl

theorem AllDigits.append {more : List Char} (first : AllDigits digits) (next : AllDigits more)
    : AllDigits (digits ++ more) := by
  intro c member
  exact (List.mem_append.mp member).elim (first c) (next c)

theorem allDigits_toDigits (n : Nat) : AllDigits (Nat.toDigits 10 n) := fun _ member =>
  Nat.isDigit_of_mem_toDigits (by omega) (by omega) member

/-- A text with a point and no exponent is read by its digits. -/
theorem readBack_decimal (wholes : AllDigits whole) (fractions : AllDigits fraction)
    : readBack (whole ++ '.' :: fraction)
      = Nat.ofDigitChars 10 (whole ++ fraction) 0 * 10 ^ (-(fraction.length : ℤ)) := by
  have unmarked : ∀ c ∈ ([] : List Char).head?, c = 'e' := by
    intro c first
    cases first
  have read := readBack_point wholes fractions unmarked
  rwa [List.append_nil, exponentOf_nil, zero_sub] at read

/-- A plain decimal reads back as its digits at their place. -/
theorem readBack_plain (all : AllDigits digits)
    : readBack (plain digits power)
      = Nat.ofDigitChars 10 digits 0 * 10 ^ (power + 1 - digits.length) := by
  unfold plain
  split
  next small =>
    refine (readBack_decimal (allDigits_replicate 1)
      ((allDigits_replicate (-power - 1).toNat).append all)).trans ?_
    rw [Nat.ofDigitChars_append, Nat.ofDigitChars_append, Nat.ofDigitChars_replicate_zero,
      Nat.ofDigitChars_replicate_zero, Nat.mul_zero, List.length_append, List.length_replicate]
    congr 2
    push_cast
    omega
  next large =>
    dsimp only
    split
    next short =>
      obtain ⟨k, length⟩ : ∃ k : Nat, power + 1 - digits.length = k :=
        ⟨(power + 1 - digits.length).toNat, by omega⟩
      have zeros : power.toNat + 1 - digits.length = k := by omega
      refine (readBack_decimal
        (all.append (allDigits_replicate (power.toNat + 1 - digits.length)))
        (allDigits_replicate 1)).trans ?_
      rw [Nat.ofDigitChars_append, Nat.ofDigitChars_append, Nat.ofDigitChars_replicate_zero,
        Nat.ofDigitChars_replicate_zero, List.length_replicate, zeros, length, zpow_neg,
        zpow_natCast, zpow_natCast]
      push_cast
      field_simp
    next long =>
      refine (readBack_decimal (fun c member => all c (List.mem_of_mem_take member))
        (fun c member => all c (List.mem_of_mem_drop member))).trans ?_
      rw [List.take_append_drop, List.length_drop]
      congr 2
      omega

/-- So does a decimal with an exponent. -/
theorem readBack_scientific (all : AllDigits digits)
    : readBack (scientific digits power)
      = Nat.ofDigitChars 10 digits 0 * 10 ^ (power + 1 - digits.length) := by
  have taken : AllDigits (digits.take 1) := fun c member => all c (List.mem_of_mem_take member)
  have dropped : AllDigits (digits.drop 1) := fun c member => all c (List.mem_of_mem_drop member)
  have exponent : exponentOf
      ('e' :: (if power < 0 then '-' else '+') :: Nat.toDigits 10 power.natAbs) = power := by
    have read := Nat.ofDigitChars_ten_toDigits (n := power.natAbs)
    split
    next => exact (show -(Nat.ofDigitChars 10 _ 0 : ℤ) = power by rw [read]; omega)
    next => exact (show (Nat.ofDigitChars 10 _ 0 : ℤ) = power by rw [read]; omega)
  unfold scientific
  dsimp only
  split
  next single =>
    rw [List.append_nil]
    refine (readBack_whole taken (by simp)).trans ?_
    rw [exponent]
    match digits, List.isEmpty_iff.mp single with
    | [], _ => simp
    | [c], _ => simp
  next more =>
    have length : 0 < (digits.drop 1).length :=
      List.length_pos_iff.mpr fun none => more (by rw [none]; rfl)
    rw [List.length_drop] at length
    refine (readBack_point taken dropped (by simp)).trans ?_
    rw [exponent, List.take_append_drop, List.length_drop]
    congr 2
    omega

/-- Zeros at the end of digits move their value up. -/
theorem exists_stripZeros (digits : List Char)
    : ∃ k, digits = stripZeros digits ++ List.replicate k '0' := by
  refine ⟨(digits.reverse.takeWhile (· == '0')).length, ?_⟩
  have zeros : digits.reverse.takeWhile (· == '0')
      = List.replicate (digits.reverse.takeWhile (· == '0')).length '0' :=
    List.eq_replicate_iff.mpr ⟨rfl, fun c member => by simpa using List.mem_takeWhile_imp member⟩
  have parts := List.takeWhile_append_dropWhile (p := (· == '0')) (l := digits.reverse)
  have parts := congrArg List.reverse parts
  rw [List.reverse_append, List.reverse_reverse] at parts
  rw [← List.reverse_replicate, ← zeros]
  exact parts.symm

/-- The value of digits at their place does not depend on zeros at their end. -/
theorem ofDigitChars_stripZeros (digits : List Char) (power : ℤ)
    : (Nat.ofDigitChars 10 (stripZeros digits) 0 * 10 ^ (power - (stripZeros digits).length) : ℚ)
      = Nat.ofDigitChars 10 digits 0 * 10 ^ (power - digits.length) := by
  obtain ⟨k, zeros⟩ := exists_stripZeros digits
  generalize stripZeros digits = stripped at zeros ⊢
  subst zeros
  have moved : power - stripped.length
      = k + (power - (stripped ++ List.replicate k '0').length) := by
    rw [List.length_append, List.length_replicate]
    push_cast
    ring
  rw [Nat.ofDigitChars_append, Nat.ofDigitChars_replicate_zero, moved,
    zpow_add₀ (by norm_num), zpow_natCast]
  push_cast
  ring

-----------------------------------------------------------------------------------------
-- Written numbers
-----------------------------------------------------------------------------------------

/-- What is written of a number after its sign. -/
def unsigned (layout : Layout) (x : Binary64) : List Char :=
  if x.isZero then ['0', '.', '0']
  else
    let all := Nat.toDigits 10 (shortest x).digits
    let power := (shortest x).exponent + all.length - 1
    if layout.leastPlain ≤ power && power ≤ layout.greatestPlain then
      plain (stripZeros all) power
    else scientific (stripZeros all) power

theorem render_eq (layout : Layout) (x : Binary64)
    : render layout x = (if x.isNegative then ['-'] else []) ++ unsigned layout x := by
  unfold render unsigned
  cases x.isZero <;> rfl

theorem allDigits_stripZeros (all : AllDigits digits) : AllDigits (stripZeros digits) := by
  obtain ⟨k, zeros⟩ := exists_stripZeros digits
  intro c member
  exact all c (by rw [zeros]; exact List.mem_append_left _ member)

variable {layout : Layout} {x y : Binary64}

theorem magnitude_pos (nonzero : x.isZero = false) : 0 < x.magnitude :=
  Nat.pos_of_ne_zero (beq_eq_false_iff_ne.mp nonzero)

/-- A number other than zero reads back as its shortest decimal. -/
theorem readBack_unsigned (nonzero : x.isZero = false)
    : readBack (unsigned layout x) = (shortest x).value := by
  have all := allDigits_stripZeros (allDigits_toDigits (shortest x).digits)
  have value : ∀ power : ℤ,
      power = (shortest x).exponent + (Nat.toDigits 10 (shortest x).digits).length - 1
      → (Nat.ofDigitChars 10 (stripZeros (Nat.toDigits 10 (shortest x).digits)) 0
          * 10 ^ (power + 1 - (stripZeros (Nat.toDigits 10 (shortest x).digits)).length) : ℚ)
        = (shortest x).value := by
    rintro _ rfl
    rw [ofDigitChars_stripZeros, Nat.ofDigitChars_ten_toDigits, Scaled.value]
    congr 2
    ring
  simp only [unsigned, nonzero, Bool.false_eq_true, if_false]
  split
  · rw [readBack_plain all, value _ rfl]
  · rw [readBack_scientific all, value _ rfl]

theorem readBack_zero : readBack ['0', '.', '0'] = 0 := by
  refine (readBack_decimal (allDigits_replicate 1) (allDigits_replicate 1)).trans ?_
  rw [← List.replicate_add, Nat.ofDigitChars_replicate_zero, Nat.mul_zero, Nat.cast_zero, zero_mul]

/-- What is written after the sign determines the magnitude. -/
theorem magnitude_eq_of_unsigned (same : unsigned layout x = unsigned layout y)
    : x.magnitude = y.magnitude := by
  have positive : ∀ {x : Binary64}, x.isZero = false → 0 < readBack (unsigned layout x) := by
    intro x nonzero
    rw [readBack_unsigned nonzero]
    exact Neighbourhood.value_pos_of_holds (magnitude_pos nonzero)
      (holds_shortest (magnitude_pos nonzero))
  have zero : ∀ {x : Binary64}, x.isZero = true → readBack (unsigned layout x) = 0 := by
    intro x zero
    rw [unsigned, if_pos zero, readBack_zero]
  cases zero_x : x.isZero with
  | true =>
      cases zero_y : y.isZero with
      | true => exact (beq_iff_eq.mp zero_x).trans (beq_iff_eq.mp zero_y).symm
      | false =>
          have read := positive zero_y
          rw [← same, zero zero_x] at read
          exact absurd read (lt_irrefl 0)
  | false =>
      cases zero_y : y.isZero with
      | true =>
          have read := positive zero_x
          rw [same, zero zero_y] at read
          exact absurd read (lt_irrefl 0)
      | false =>
          refine Neighbourhood.magnitude_eq_of_holds (magnitude_pos zero_x) (magnitude_pos zero_y)
            (holds_shortest (magnitude_pos zero_x)) (holds_shortest (magnitude_pos zero_y)) ?_
          rw [← readBack_unsigned zero_x, ← readBack_unsigned zero_y, same]

/-- A character of numerals. -/
def isNumeral (c : Char) : Bool :=
  c.isDigit || c ∈ ['-', '+', '.', 'e']

theorem isNumeral_of_isDigit {c : Char} (digit : c.isDigit = true) : isNumeral c = true := by
  rw [isNumeral, digit, Bool.true_or]

/-- A text is in characters of numerals, does not begin with a sign, and is told from the digits of
an integer.
-/
structure Fractional (text : List Char) : Prop where
  numeral : ∀ c ∈ text, isNumeral c = true
  unsigned : ∀ c ∈ text.head?, c ≠ '-'
  marked : ¬ AllDigits text

/-- Digits with a point among them are such a text. -/
theorem fractional_of_point {text : List Char} (chars : ∀ c ∈ text, c.isDigit = true ∨ c = '.')
    (point : '.' ∈ text)
    : Fractional text where
  numeral := by
    intro c member
    rcases chars c member with digit | rfl
    · exact isNumeral_of_isDigit digit
    · rfl
  unsigned := by
    rintro c first rfl
    rcases chars '-' (List.mem_of_mem_head? first) with digit | same
    · cases digit
    · cases same
  marked := fun all => by cases all '.' point

theorem fractional_plain (all : AllDigits digits) : Fractional (plain digits power) := by
  have zeros := allDigits_replicate
  refine fractional_of_point (fun c member => ?_) ?_
  · unfold plain at member
    dsimp only at member
    split at member
    · simp only [List.cons_append, List.mem_cons, List.mem_append] at member
      rcases member with rfl | rfl | zero | digit
      · exact .inl rfl
      · exact .inr rfl
      · exact .inl (zeros _ c zero)
      · exact .inl (all c digit)
    · split at member
      · simp only [List.mem_append, List.mem_cons, List.not_mem_nil, or_false] at member
        rcases member with (digit | zero) | rfl | rfl
        · exact .inl (all c digit)
        · exact .inl (zeros _ c zero)
        · exact .inr rfl
        · exact .inl rfl
      · simp only [List.mem_append, List.mem_cons] at member
        rcases member with taken | rfl | dropped
        · exact .inl (all c (List.mem_of_mem_take taken))
        · exact .inr rfl
        · exact .inl (all c (List.mem_of_mem_drop dropped))
  · unfold plain
    dsimp only
    split
    · simp
    · split <;> simp

theorem fractional_scientific (all : AllDigits digits) : Fractional (scientific digits power) := by
  have exponent := allDigits_toDigits power.natAbs
  constructor
  case numeral =>
    intro c member
    simp only [scientific, List.mem_append, List.mem_cons] at member
    rcases member with (taken | further) | rfl | sign | digit
    · exact isNumeral_of_isDigit (all c (List.mem_of_mem_take taken))
    · split at further
      · cases further
      · rcases List.mem_cons.mp further with rfl | dropped
        · rfl
        · exact isNumeral_of_isDigit (all c (List.mem_of_mem_drop dropped))
    · rfl
    · subst sign
      split <;> rfl
    · exact isNumeral_of_isDigit (exponent c digit)
  case unsigned =>
    rintro c first rfl
    match digits with
    | [] => simp [scientific] at first
    | d :: rest =>
        obtain rfl : d = '-' := by simpa [scientific] using first
        cases all '-' (by simp)
  case marked =>
    intro digits'
    cases digits' 'e' (by simp [scientific])

theorem fractional_unsigned (layout : Layout) (x : Binary64) : Fractional (unsigned layout x) := by
  have all := allDigits_stripZeros (allDigits_toDigits (shortest x).digits)
  unfold unsigned
  split
  · refine fractional_of_point (fun c member => ?_) (by simp)
    simp only [List.mem_cons, List.not_mem_nil, or_false] at member
    rcases member with rfl | rfl | rfl
    · exact .inl rfl
    · exact .inr rfl
    · exact .inl rfl
  · dsimp only
    split
    · exact fractional_plain all
    · exact fractional_scientific all

/-- What is written of a number is in characters of numerals. -/
theorem isNumeral_render {c : Char} (member : c ∈ render layout x) : isNumeral c = true := by
  rw [render_eq] at member
  rcases List.mem_append.mp member with sign | rest
  · split at sign
    · rw [List.mem_singleton.mp sign]
      rfl
    · cases sign
  · exact (fractional_unsigned layout x).numeral c rest

/-- It is told from the digits of an integer, with a sign or without. -/
theorem not_allDigits_render (layout : Layout) (x : Binary64) : ¬ AllDigits (render layout x) := by
  rw [render_eq]
  exact fun all => (fractional_unsigned layout x).marked fun c member =>
    all c (List.mem_append_right _ member)

theorem render_ne_minus (layout : Layout) (x : Binary64) (all : AllDigits digits)
    : render layout x ≠ '-' :: digits := by
  have fractional := fractional_unsigned layout x
  intro same
  rw [render_eq] at same
  split at same
  · have digits : unsigned layout x = digits := (List.cons.inj same).2
    exact fractional.marked (digits ▸ all)
  · exact fractional.unsigned '-' (by rw [show unsigned layout x = _ from same]; rfl) rfl

/-- What is written of a number determines it. -/
theorem render_inj (same : render layout x = render layout y) : x = y := by
  rw [render_eq, render_eq] at same
  have sign : x.isNegative = y.isNegative ∧ unsigned layout x = unsigned layout y := by
    have unsigned_x := (fractional_unsigned layout x).unsigned
    have unsigned_y := (fractional_unsigned layout y).unsigned
    cases negative_x : x.isNegative <;> cases negative_y : y.isNegative <;>
      simp only [negative_x, negative_y, Bool.false_eq_true, if_true, if_false, List.nil_append]
        at same
    · exact ⟨rfl, same⟩
    · exact absurd rfl (unsigned_x '-' (by rw [same]; rfl))
    · exact absurd rfl (unsigned_y '-' (by rw [← same]; rfl))
    · exact ⟨rfl, List.append_cancel_left same⟩
  have magnitude := magnitude_eq_of_unsigned sign.2
  have negative := sign.1
  have bits : x.bits.toNat = y.bits.toNat := by
    have := x.bits.toNat_lt
    have := y.bits.toNat_lt
    unfold Binary64.magnitude at magnitude
    unfold Binary64.isNegative at negative
    simp only [decide_eq_decide] at negative
    omega
  cases x
  cases y
  exact congrArg _ (UInt64.toNat_inj.mp bits)

end CaseGrouping.Decimal
