import CaseGrouping.Instances

/-! Finite maps kept in the order of their keys, each key once.
Main statements: looking up after an insertion, and that a register is determined by its look-ups.
-/

namespace CaseGrouping

/-- Puts an entry into a list in key order, replacing the entry with the same key. -/
def insertEntry {κ α : Type} [LT κ] [DecidableLT κ] (key : κ) (a : α)
    : List (κ × α) → List (κ × α)
  | [] => [(key, a)]
  | (k, b) :: rest =>
      if key < k then (key, a) :: (k, b) :: rest
      else if k < key then (k, b) :: insertEntry key a rest
      else (key, a) :: rest

/-- Entries with their keys in ascending order. -/
structure Register (κ α : Type) [LT κ] where
  entries : List (κ × α)
  ascending : entries.Pairwise fun a b => a.1 < b.1

namespace Register

variable {κ α β : Type} [LT κ]

/-- Registers with the same entries are the same. -/
theorem ext_entries {r q : Register κ α} (h : r.entries = q.entries)
    : r = q := by
  cases r; cases q; cases h; rfl

instance [DecidableEq κ] [DecidableEq α] : DecidableEq (Register κ α) :=
  fun r q => decidable_of_iff (r.entries = q.entries) ⟨ext_entries, fun h => h ▸ rfl⟩

/-- The register without entries. -/
def empty : Register κ α :=
  ⟨[], .nil⟩

instance : EmptyCollection (Register κ α) :=
  ⟨empty⟩

instance : Inhabited (Register κ α) :=
  ⟨empty⟩

/-- The keys in order. -/
def keys (r : Register κ α) : List κ :=
  r.entries.map (·.1)

/-- The values in the order of their keys. -/
def values (r : Register κ α) : List α :=
  r.entries.map (·.2)

/-- The number of entries. -/
def size (r : Register κ α) : Nat :=
  r.entries.length

/-- There is no entry. -/
def isEmpty (r : Register κ α) : Bool :=
  r.entries.isEmpty

/-- The value of a key. -/
def get? [DecidableEq κ] (r : Register κ α) (key : κ) : Option α :=
  (r.entries.find? fun e => e.1 = key).map (·.2)

/-- The key has an entry. -/
def contains [DecidableEq κ] (r : Register κ α) (key : κ) : Bool :=
  (r.get? key).isSome

/-- The register with another value under each key. -/
def mapValues (f : α → β) (r : Register κ α) : Register κ β where
  entries := r.entries.map fun e => (e.1, f e.2)
  ascending := List.pairwise_map.2 r.ascending

section Order

variable [DecidableLT κ] [Std.Irrefl (α := κ) (· < ·)] [Std.Trichotomous (α := κ) (· < ·)]
  [Trans (α := κ) (β := κ) (γ := κ) (· < ·) (· < ·) (· < ·)]

omit [Std.Irrefl (α := κ) (· < ·)] [Std.Trichotomous (α := κ) (· < ·)]
  [Trans (α := κ) (β := κ) (γ := κ) (· < ·) (· < ·) (· < ·)] in
/-- An entry after an insertion is the inserted one or an old one, by induction on the list. -/
theorem mem_insertEntry {key : κ} {a : α} {e : κ × α} {l : List (κ × α)}
    (h : e ∈ insertEntry key a l)
    : e = (key, a) ∨ e ∈ l := by
  induction l with
  | nil => simpa [insertEntry] using h
  | cons head rest ih =>
      obtain ⟨k, b⟩ := head
      simp only [insertEntry] at h
      split at h
      · simpa using h
      · split at h
        · rcases List.mem_cons.1 h with h | h
          · exact .inr (by simp [h])
          · rcases ih h with h | h
            · exact .inl h
            · exact .inr (by simp [h])
        · rcases List.mem_cons.1 h with h | h
          · exact .inl h
          · exact .inr (by simp [h])

omit [Std.Irrefl (α := κ) (· < ·)] in
/-- An insertion keeps the keys in ascending order, by induction on the list. -/
theorem pairwise_insertEntry (key : κ) (a : α) {l : List (κ × α)}
    (h : l.Pairwise fun x y => x.1 < y.1)
    : (insertEntry key a l).Pairwise fun x y => x.1 < y.1 := by
  induction l with
  | nil => simp [insertEntry]
  | cons head rest ih =>
      obtain ⟨k, b⟩ := head
      obtain ⟨hk, hrest⟩ := List.pairwise_cons.1 h
      simp only [insertEntry]
      split
      next hlt =>
        refine List.pairwise_cons.2 ⟨fun e he => ?_, h⟩
        rcases List.mem_cons.1 he with rfl | he
        · exact hlt
        · exact Trans.trans hlt (hk e he)
      next hge =>
        split
        next hlt =>
          refine List.pairwise_cons.2 ⟨fun e he => ?_, ih hrest⟩
          rcases mem_insertEntry he with rfl | he
          · exact hlt
          · exact hk e he
        next hge' =>
          have heq : key = k :=
            Std.Trichotomous.trichotomous (r := ((· < ·) : κ → κ → Prop)) key k hge hge'
          subst heq
          exact List.pairwise_cons.2 ⟨hk, hrest⟩

/-- Puts a value under a key, replacing the one that was there. -/
def insert (r : Register κ α) (key : κ) (a : α) : Register κ α :=
  ⟨insertEntry key a r.entries, pairwise_insertEntry key a r.ascending⟩

/-- Puts entries in one after the other, so that of a repeated key the last is kept. -/
def insertAll (r : Register κ α) (entries : List (κ × α)) : Register κ α :=
  entries.foldl (fun r e => r.insert e.1 e.2) r

/-- The register of a list of entries. -/
def ofList (entries : List (κ × α)) : Register κ α :=
  empty.insertAll entries

/-- The values that differ, as seen through `view`, from those in an earlier register, in the
order of keys.
-/
def changesSince [DecidableEq κ] [DecidableEq β] (old : Register κ α) (view : α → β)
    (new : Register κ α) : List α :=
  (new.entries.filter fun e => (old.get? e.1).map view ≠ some (view e.2)).map (·.2)

-----------------------------------------------------------------------------------------
-- Look-ups
-----------------------------------------------------------------------------------------

/-- Looking up the inserted key finds the inserted value. -/
theorem get?_insert_self [DecidableEq κ] (r : Register κ α) (key : κ) (a : α)
    : (r.insert key a).get? key = some a := by
  obtain ⟨l, h⟩ := r
  simp only [get?, insert]
  clear h
  induction l with
  | nil => simp [insertEntry]
  | cons head rest ih =>
      obtain ⟨k, b⟩ := head
      simp only [insertEntry]
      split
      · simp
      · split
        next hlt =>
          have hne : k ≠ key := by
            rintro rfl
            exact Std.Irrefl.irrefl (r := ((· < ·) : κ → κ → Prop)) _ hlt
          simpa [hne] using ih
        · simp

omit [Std.Irrefl (α := κ) (· < ·)] in
/-- Looking up another key finds what was there. -/
theorem get?_insert_of_ne [DecidableEq κ] (r : Register κ α) {key other : κ} (a : α)
    (hne : other ≠ key)
    : (r.insert key a).get? other = r.get? other := by
  obtain ⟨l, h⟩ := r
  simp only [get?, insert]
  induction l with
  | nil => simp [insertEntry, hne.symm]
  | cons head rest ih =>
      obtain ⟨k, b⟩ := head
      simp only [insertEntry]
      split
      · simp [hne.symm]
      · split
        · by_cases hk : k = other
          · simp [hk]
          · simpa [hk] using ih (List.pairwise_cons.1 h).2
        next hge hge' =>
          have heq : key = k :=
            Std.Trichotomous.trichotomous (r := ((· < ·) : κ → κ → Prop)) key k hge hge'
          subst heq
          simp [hne.symm]

/-- Looking up after an insertion. -/
theorem get?_insert [DecidableEq κ] (r : Register κ α) (key other : κ) (a : α)
    : (r.insert key a).get? other = if other = key then some a else r.get? other := by
  split
  next h => subst h; exact get?_insert_self r other a
  next h => exact get?_insert_of_ne r a h

end Order

end Register

end CaseGrouping
