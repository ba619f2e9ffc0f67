import CaseGrouping.Remote.Target
import Mathlib.Data.List.Infix

/-! What a text with percent signs stands for. A percent sign with two hexadecimal digits is an
escape for one byte, and everything else stands for itself, so a text stands for itself just when
there is no escape in it. Encoding some of its characters does not change that.
-/

namespace CaseGrouping.Remote

-----------------------------------------------------------------------------------------
-- Decoding
-----------------------------------------------------------------------------------------

/-- The bytes of a text. -/
def utf8 (cs : List Char) : List UInt8 :=
  cs.flatMap String.utf8EncodeChar

/-- The value of a hexadecimal digit. -/
def hexValue? (c : Char) : Option Nat :=
  if '0' ≤ c ∧ c ≤ '9' then some (c.toNat - '0'.toNat)
  else if 'A' ≤ c ∧ c ≤ 'F' then some (c.toNat - 'A'.toNat + 10)
  else if 'a' ≤ c ∧ c ≤ 'f' then some (c.toNat - 'a'.toNat + 10)
  else none

/-- The byte for which three characters are an escape. -/
def escape? (c high low : Char) : Option UInt8 :=
  if c = '%' then
    match hexValue? high, hexValue? low with
    | some high, some low => some (UInt8.ofNat (16 * high + low))
    | _, _ => none
  else none

/-- The bytes for which a text stands. -/
def percentDecode : List Char → List UInt8
  | c :: high :: low :: rest =>
      match escape? c high low with
      | some byte => byte :: percentDecode rest
      | none => String.utf8EncodeChar c ++ percentDecode (high :: low :: rest)
  | cs => utf8 cs

/-- There is an escape in a text. -/
def Escapes (cs : List Char) : Prop :=
  ∃ c high low, [c, high, low] <:+: cs ∧ (escape? c high low).isSome

section Decoding

variable {cs ds : List Char} {c high low : Char}

theorem utf8_cons (c : Char) (cs : List Char)
    : utf8 (c :: cs) = String.utf8EncodeChar c ++ utf8 cs :=
  List.flatMap_cons

theorem utf8_append (cs ds : List Char) : utf8 (cs ++ ds) = utf8 cs ++ utf8 ds :=
  List.flatMap_append

/-- Different texts have different bytes. -/
theorem utf8_injective : Function.Injective utf8 := by
  intro cs ds same
  have encoded : cs.utf8Encode = ds.utf8Encode := congrArg List.toByteArray same
  refine String.ofList_injective (String.toByteArray_inj.mp ?_)
  rw [String.toByteArray_ofList, String.toByteArray_ofList, encoded]

theorem length_le_utf8 (cs : List Char) : cs.length ≤ (utf8 cs).length := by
  induction cs with
  | nil => exact Nat.le_refl _
  | cons c cs ih =>
      have positive := c.utf8Size_pos
      rw [utf8_cons, List.length_append, String.length_utf8EncodeChar, List.length_cons]
      omega

/-- A part of a text has less bytes than the text. -/
theorem eq_of_prefix (part : cs <+: ds) (length : (utf8 ds).length ≤ (utf8 cs).length)
    : cs = ds := by
  obtain ⟨rest, rfl⟩ := part
  have bound := length_le_utf8 rest
  rw [utf8_append, List.length_append] at length
  rw [List.length_eq_zero_iff.mp (show rest.length = 0 by omega), List.append_nil]

theorem Escapes.cons (escapes : Escapes cs) : Escapes (c :: cs) := by
  obtain ⟨d, high, low, part, escape⟩ := escapes
  exact ⟨d, high, low, List.infix_cons part, escape⟩

/-- An escape begins with the first character or later. -/
theorem escapes_cons
    : Escapes (c :: high :: low :: cs)
      ↔ (escape? c high low).isSome ∨ Escapes (high :: low :: cs) := by
  constructor
  · rintro ⟨d, high', low', part, escape⟩
    rcases List.infix_cons_iff.mp part with here | later
    · obtain ⟨rest, split⟩ := here
      cases split
      exact .inl escape
    · exact .inr ⟨d, high', low', later, escape⟩
  · rintro (escape | later)
    · exact ⟨c, high, low, (List.prefix_append [c, high, low] cs).isInfix, escape⟩
    · exact later.cons

theorem not_escapes_of_short (short : ∀ c high low rest, cs = c :: high :: low :: rest → False)
    : ¬Escapes cs := by
  rintro ⟨c, high, low, part, _⟩
  have length := part.length_le
  match cs, short, length with
  | d :: e :: f :: rest, short, _ => exact short d e f rest rfl

/-- A text without escapes stands for itself, by induction along its decoding. -/
theorem percentDecode_of_not_escapes (plain : ¬Escapes cs) : percentDecode cs = utf8 cs := by
  fun_induction percentDecode cs with
  | case1 c high low rest byte escape ih =>
      exact absurd (escapes_cons.mpr (.inl (by simp [escape]))) plain
  | case2 c high low rest escape ih =>
      rw [ih fun later => plain (escapes_cons.mpr (.inr later)), utf8_cons c]
  | case3 => rfl

/-- No text stands for more bytes than it has, by induction along its decoding. -/
theorem length_percentDecode_le (cs : List Char)
    : (percentDecode cs).length ≤ (utf8 cs).length := by
  fun_induction percentDecode cs with
  | case1 c high low rest byte escape ih =>
      have positive := c.utf8Size_pos
      simp only [utf8_cons, List.length_cons, List.length_append, String.length_utf8EncodeChar]
      omega
  | case2 c high low rest escape ih =>
      rw [utf8_cons c, List.length_append, List.length_append]
      exact Nat.add_le_add_left ih _
  | case3 => exact Nat.le_refl _

/-- With escapes it stands for less, by induction along its decoding. -/
theorem length_percentDecode_lt (escapes : Escapes cs)
    : (percentDecode cs).length < (utf8 cs).length := by
  fun_induction percentDecode cs with
  | case1 c high low rest byte escape ih =>
      have bound := length_percentDecode_le rest
      have positive := c.utf8Size_pos
      have positive' := high.utf8Size_pos
      simp only [utf8_cons, List.length_cons, List.length_append, String.length_utf8EncodeChar]
      omega
  | case2 c high low rest escape ih =>
      have later := (escapes_cons.mp escapes).resolve_left (by simp [escape])
      rw [utf8_cons c, List.length_append, List.length_append]
      exact Nat.add_lt_add_left (ih later) _
  | case3 cs short => exact absurd escapes (not_escapes_of_short short)

theorem length_percentDecode_lt_iff (cs : List Char)
    : (percentDecode cs).length < (utf8 cs).length ↔ Escapes cs := by
  constructor
  · intro less
    by_contra plain
    rw [percentDecode_of_not_escapes plain] at less
    exact Nat.lt_irrefl _ less
  · exact length_percentDecode_lt

instance (cs : List Char) : Decidable (Escapes cs) :=
  decidable_of_iff _ (length_percentDecode_lt_iff cs)

/-- The first part of a text stands for the text only if it is all of it and has no escapes. -/
theorem percentDecode_eq_utf8_iff (part : cs <+: ds)
    : percentDecode cs = utf8 ds ↔ cs = ds ∧ ¬Escapes ds := by
  constructor
  · intro same
    have length := congrArg List.length same
    have bound := length_percentDecode_le cs
    obtain rfl := eq_of_prefix part (by omega)
    refine ⟨rfl, fun escapes => ?_⟩
    have less := length_percentDecode_lt escapes
    omega
  · rintro ⟨rfl, plain⟩
    exact percentDecode_of_not_escapes plain

end Decoding

-----------------------------------------------------------------------------------------
-- Encoding
-----------------------------------------------------------------------------------------

section Encoding

variable {p : Char → Bool} {cs : List Char}

theorem hexValue?_upperHex {n : Nat} (digit : n < 16) : hexValue? (upperHex n) = some n := by
  have all : ∀ n : Fin 16, hexValue? (upperHex n) = some n.1 := by decide
  exact all ⟨n, digit⟩

/-- An encoded character stands for its bytes, by induction on them. -/
theorem percentDecode_percentEncode (c : Char) (cs : List Char)
    : percentDecode (percentEncode c ++ cs) = String.utf8EncodeChar c ++ percentDecode cs := by
  unfold percentEncode
  induction String.utf8EncodeChar c with
  | nil => rfl
  | cons byte rest ih =>
      have bound := byte.toNat_lt
      have byte_eq : escape? '%' (upperHex (byte.toNat / 16)) (upperHex (byte.toNat % 16))
          = some byte := by
        rw [escape?, if_pos rfl, hexValue?_upperHex (by omega), hexValue?_upperHex (by omega)]
        simp [Nat.div_add_mod]
      rw [List.flatMap_cons]
      simp only [List.cons_append, List.nil_append]
      rw [percentDecode, byte_eq]
      dsimp only
      rw [ih]

/-- A character stands for itself before a text with which it makes no escape. -/
theorem percentDecode_cons {c : Char}
    (plain : ∀ high low rest, cs = high :: low :: rest → escape? c high low = none)
    : percentDecode (c :: cs) = String.utf8EncodeChar c ++ percentDecode cs := by
  match cs, plain with
  | [], _ => rfl
  | [d], _ => simp [percentDecode, utf8]
  | high :: low :: rest, plain => rw [percentDecode, plain high low rest rfl]

/-- What follows the sign of an escape is not another sign. -/
theorem digits_of_escape? {c high low : Char} {byte : UInt8}
    (escape : escape? c high low = some byte)
    : high ≠ '%' ∧ low ≠ '%' := by
  have sign : hexValue? '%' = none := by decide
  unfold escape? at escape
  split at escape
  next =>
    split at escape
    next first second =>
      constructor
      · rintro rfl
        cases sign.symm.trans first
      · rintro rfl
        cases sign.symm.trans second
    next => cases escape
  next => cases escape

theorem percentEncode_eq_cons (c : Char) : ∃ rest, percentEncode c = '%' :: rest := by
  have positive := c.utf8Size_pos
  rw [← String.length_utf8EncodeChar] at positive
  obtain ⟨byte, rest, bytes⟩ := List.exists_cons_of_length_pos positive
  exact ⟨_, by rw [percentEncode, bytes]; rfl⟩

theorem encodeWhere_cons (p : Char → Bool) (c : Char) (cs : List Char)
    : encodeWhere p (c :: cs) = (if p c then percentEncode c else [c]) ++ encodeWhere p cs :=
  List.flatMap_cons

/-- A character other than a percent sign that begins an encoded text begins the text. -/
theorem encodeWhere_eq_cons {c : Char} {rest : List Char} (begins : encodeWhere p cs = c :: rest)
    (other : c ≠ '%')
    : ∃ cs', cs = c :: cs' ∧ encodeWhere p cs' = rest := by
  cases cs with
  | nil => cases begins
  | cons d cs =>
      rw [encodeWhere_cons] at begins
      split at begins
      next =>
        obtain ⟨more, sign⟩ := percentEncode_eq_cons d
        rw [sign] at begins
        exact absurd (List.cons.inj begins).1.symm other
      next =>
        obtain ⟨rfl, same⟩ := List.cons.inj begins
        exact ⟨cs, rfl, same⟩

/-- A text whose characters are encoded here and there stands for itself, by induction on it. -/
theorem percentDecode_encodeWhere (plain : ¬Escapes cs)
    : percentDecode (encodeWhere p cs) = utf8 cs := by
  induction cs with
  | nil => rfl
  | cons c cs ih =>
      have ih := ih (mt Escapes.cons plain)
      rw [encodeWhere_cons, utf8_cons]
      split
      next => rw [percentDecode_percentEncode, ih]
      next =>
        rw [List.singleton_append, percentDecode_cons ?_, ih]
        -- Encoding makes no digits after a sign, so an escape would be in the text already.
        intro high low rest begins
        refine Option.eq_none_iff_forall_ne_some.mpr fun byte escape => ?_
        have digits := digits_of_escape? escape
        obtain ⟨cs', rfl, more⟩ := encodeWhere_eq_cons begins digits.1
        obtain ⟨cs'', rfl, _⟩ := encodeWhere_eq_cons more digits.2
        exact plain (escapes_cons.mpr (.inl (by simp [escape])))

/-- What is written in an encoded text is not encoded, or belongs to an escape. -/
theorem mem_encodeWhere {c : Char} (member : c ∈ encodeWhere p cs)
    : c ∈ cs ∧ p c = false ∨ c = '%' ∨ ∃ n < 16, c = upperHex n := by
  obtain ⟨d, listed, written⟩ := List.mem_flatMap.mp member
  split at written
  next =>
    obtain ⟨byte, _, digit⟩ := List.mem_flatMap.mp written
    have bound := byte.toNat_lt
    simp only [List.mem_cons, List.not_mem_nil, or_false] at digit
    rcases digit with sign | high | low
    · exact .inr (.inl sign)
    · exact .inr (.inr ⟨_, by omega, high⟩)
    · exact .inr (.inr ⟨_, by omega, low⟩)
  next plain =>
    obtain rfl := List.mem_singleton.mp written
    exact .inl ⟨listed, by simpa using plain⟩

end Encoding

end CaseGrouping.Remote
