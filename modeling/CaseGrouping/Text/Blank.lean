/-! White space by the Unicode White_Space property, and trimming by it.
Main statements: a trimmed text is left alone by a second trim, and digits are never blank.
-/

namespace CaseGrouping.Text

/-- A character is blank when it has the Unicode White_Space property. -/
def isBlank (c : Char) : Bool :=
  let n := c.toNat
  (0x09 ≤ n && n ≤ 0x0D) || n == 0x20 || n == 0x85 || n == 0xA0 || n == 0x1680
    || (0x2000 ≤ n && n ≤ 0x200A) || n == 0x2028 || n == 0x2029 || n == 0x202F
    || n == 0x205F || n == 0x3000

/-- Removes the blank characters at both ends of a list. -/
def trimChars (cs : List Char) : List Char :=
  ((cs.dropWhile isBlank).reverse.dropWhile isBlank).reverse

/-- Removes the blank characters at both ends of a text. -/
def trim (s : String) : String :=
  String.ofList (trimChars s.toList)

/-- A text is blank when nothing is left of it after trimming. -/
def isAllBlank (s : String) : Bool :=
  s.toList.all isBlank

/-- Dropping leading characters twice drops nothing more, by cases on what remains. -/
theorem dropWhile_dropWhile (p : Char → Bool) (cs : List Char)
    : (cs.dropWhile p).dropWhile p = cs.dropWhile p := by
  induction cs with
  | nil => rfl
  | cons c rest ih =>
      by_cases h : p c
      · simp [h, ih]
      · simp [h]

/-- A list without a leading blank keeps that property when its tail end is dropped. -/
theorem dropWhile_reverse_dropWhile (p : Char → Bool) (cs : List Char)
    (h : cs.dropWhile p = cs)
    : ((cs.reverse.dropWhile p).reverse).dropWhile p = (cs.reverse.dropWhile p).reverse := by
  cases cs with
  | nil => rfl
  | cons c rest =>
      have hc : p c = false := by
        cases hp : p c with
        | false => rfl
        | true =>
            have hlen := congrArg List.length h
            have hle := (List.dropWhile_sublist p (l := rest)).length_le
            simp [hp] at hlen
            omega
      have hsplit : ((c :: rest).reverse.dropWhile p)
          = rest.reverse.dropWhile p ++ [c] := by
        rw [List.reverse_cons, List.dropWhile_append]
        cases hd : (rest.reverse.dropWhile p) with
        | nil => simp [hc]
        | cons d ds => simp
      rw [hsplit]
      simp [hc]

/-- Trimming a trimmed list changes nothing, from the two one-sided facts. -/
theorem trimChars_trimChars (cs : List Char)
    : trimChars (trimChars cs) = trimChars cs := by
  unfold trimChars
  rw [dropWhile_reverse_dropWhile isBlank _ (dropWhile_dropWhile isBlank cs),
    List.reverse_reverse, dropWhile_dropWhile]

/-- Trimming a trimmed text changes nothing. -/
theorem trim_trim (s : String)
    : trim (trim s) = trim s := by
  simp [trim, trimChars_trimChars]

/-- A list without blank characters is left as it is. -/
theorem trimChars_of_not_blank {cs : List Char} (h : ∀ c ∈ cs, isBlank c = false)
    : trimChars cs = cs := by
  have keep : ∀ ds : List Char, (∀ c ∈ ds, isBlank c = false) → ds.dropWhile isBlank = ds := by
    intro ds hds
    cases ds with
    | nil => rfl
    | cons d rest => simp [hds d (by simp)]
  unfold trimChars
  rw [keep cs h, keep cs.reverse (by simpa using h), List.reverse_reverse]

/-- A decimal digit is not blank. -/
theorem isBlank_of_isDigit {c : Char} (h : c.isDigit = true)
    : isBlank c = false := by
  simp only [Char.isDigit, Bool.and_eq_true, decide_eq_true_eq] at h
  obtain ⟨hl, hr⟩ := h
  have hl' : 48 ≤ c.toNat := UInt32.le_iff_toNat_le.1 hl
  have hr' : c.toNat ≤ 57 := UInt32.le_iff_toNat_le.1 hr
  simp only [isBlank, Bool.or_eq_false_iff, Bool.and_eq_false_iff, decide_eq_false_iff_not,
    beq_eq_false_iff_ne]
  omega

end CaseGrouping.Text
