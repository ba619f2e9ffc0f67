import CaseGrouping.Json.Decode
import CaseGrouping.Proofs.Register

/-! Which values are decoded: those with the keys of every object in order that nest no deeper than
they may. Each of them is found again in its own draft.
-/

namespace CaseGrouping.Json

section Results

variable {ε α β : Type} {x : Except ε α}

theorem bind_eq_ok_iff {f : α → Except ε β} {b : β}
    : (x >>= f) = .ok b ↔ ∃ a, x = .ok a ∧ f a = .ok b := by
  cases x <;> simp [bind, Except.bind]

theorem map_eq_ok_iff {f : α → β} {b : β} : x.map f = .ok b ↔ ∃ a, x = .ok a ∧ f a = b := by
  cases x <;> simp [Except.map]

theorem ite_eq_ok_iff {c : Bool} {a b : α} {e : ε}
    : (if c then .ok a else .error e) = Except.ok b ↔ c = true ∧ a = b := by
  cases c <;> simp

end Results

namespace Value

mutual

/-- The number of arrays and objects inside one another, the value itself counted. -/
def depth : Value → Nat
  | .array items => depthItems items + 1
  | .object entries => depthEntries entries + 1
  | _ => 0

/-- The depth of the deepest item. -/
def depthItems : List Value → Nat
  | [] => 0
  | v :: items => max v.depth (depthItems items)

/-- The depth of the deepest value of an entry. -/
def depthEntries : List (String × Value) → Nat
  | [] => 0
  | (_, v) :: entries => max v.depth (depthEntries entries)

end

mutual

/-- The keys of every object in the value are in ascending order. -/
def Ordered : Value → Prop
  | .array items => OrderedItems items
  | .object entries => entries.Pairwise (fun a b => a.1 < b.1) ∧ OrderedEntries entries
  | _ => True

/-- The keys of every object in the items are in order. -/
def OrderedItems : List Value → Prop
  | [] => True
  | v :: items => v.Ordered ∧ OrderedItems items

/-- The keys of every object in the values of the entries are in order. -/
def OrderedEntries : List (String × Value) → Prop
  | [] => True
  | (_, v) :: entries => v.Ordered ∧ OrderedEntries entries

end

theorem depthEntries_le_iff {entries : List (String × Value)} {n : Nat}
    : depthEntries entries ≤ n ↔ ∀ e ∈ entries, e.2.depth ≤ n := by
  induction entries with
  | nil => simp [depthEntries]
  | cons e entries ih => rw [depthEntries, Nat.max_le, ih, List.forall_mem_cons]

theorem orderedEntries_iff {entries : List (String × Value)}
    : OrderedEntries entries ↔ ∀ e ∈ entries, e.2.Ordered := by
  induction entries with
  | nil => simp [OrderedEntries]
  | cons e entries ih => simp [OrderedEntries, ih]

-----------------------------------------------------------------------------------------
-- Values are found again
-----------------------------------------------------------------------------------------

/-- An entry with a greater key than all the others goes to the end, by induction on the others. -/
theorem insertEntry_of_last {key : String} (v : Value) {done : List (String × Value)}
    (last : ∀ e ∈ done, e.1 < key)
    : insertEntry key v done = done ++ [(key, v)] := by
  induction done with
  | nil => rfl
  | cons e done ih =>
      have less := last e (by simp)
      rw [insertEntry, if_neg (String.lt_asymm less), if_pos less,
        ih fun e member => last e (by simp [member])]
      rfl

mutual

/-- A value in order is found in its draft, if it may nest so deep. The recursion is on the value.
-/
theorem decoder_ofValue
    : (v : Value) → {n : Nat} → v.Ordered → v.depth ≤ n → decoder n (.ofValue v) = .ok v
  | .null, _, _, _ | .bool _, _, _, _ | .number _, _, _, _ | .string _, _, _, _ => by
      simp [Draft.ofValue, decoder]
  | .array items, n, ordered, within => by
      obtain ⟨n, rfl⟩ : ∃ k, n = k + 1 := ⟨n - 1, by simp [depth] at within; omega⟩
      rw [Draft.ofValue, decoder, decodeItems_ofItems items ordered (by simpa [depth] using within)]
      rfl
  | .object entries, n, ordered, within => by
      obtain ⟨n, rfl⟩ : ∃ k, n = k + 1 := ⟨n - 1, by simp [depth] at within; omega⟩
      rw [Draft.ofValue, decoder, decodeEntries_ofEntries entries [] ordered.1 ordered.2
        (by simpa [depth] using within)]
      rfl

/-- Items in order are found in their drafts. -/
theorem decodeItems_ofItems
    : (items : List Value) → {n : Nat} → OrderedItems items → depthItems items ≤ n
    → decodeItems n (Draft.ofItems items) = .ok items
  | [], _, _, _ => rfl
  | v :: items, n, ordered, within => by
      simp only [depthItems, Nat.max_le] at within
      rw [Draft.ofItems, decodeItems, decoder_ofValue v ordered.1 within.1,
        decodeItems_ofItems items ordered.2 within.2]
      rfl

/-- Entries in order are found in their drafts, after those that were found before. -/
theorem decodeEntries_ofEntries
    : (entries done : List (String × Value)) → {n : Nat}
    → (done ++ entries).Pairwise (fun a b => a.1 < b.1) → OrderedEntries entries
    → depthEntries entries ≤ n
    → decodeEntries n (Draft.ofEntries entries) done = .ok (done ++ entries)
  | [], done, _, _, _, _ => by simp [Draft.ofEntries, decodeEntries]
  | (key, v) :: entries, done, n, ascending, ordered, within => by
      simp only [depthEntries, Nat.max_le] at within
      have last : ∀ e ∈ done, e.1 < key := fun e member =>
        (List.pairwise_append.mp ascending).2.2 e member (key, v) (by simp)
      have rest := decodeEntries_ofEntries entries (done ++ [(key, v)]) (by simpa using ascending)
        ordered.2 within.2
      rw [Draft.ofEntries, decodeEntries, decoder_ofValue v ordered.1 within.1]
      simpa [bind, Except.bind, insertEntry_of_last v last] using rest

end

-----------------------------------------------------------------------------------------
-- Values that are found
-----------------------------------------------------------------------------------------

/-- Entries as an object keeps them at a depth: in the order of their keys, none of them deeper. -/
structure Kept (n : Nat) (entries : List (String × Value)) : Prop where
  ascending : entries.Pairwise fun a b => a.1 < b.1
  ordered : ∀ e ∈ entries, e.2.Ordered
  within : ∀ e ∈ entries, e.2.depth ≤ n

theorem Kept.insertEntry {n : Nat} {done : List (String × Value)} (kept : Kept n done)
    (key : String) {v : Value} (ordered : v.Ordered) (within : v.depth ≤ n)
    : Kept n (insertEntry key v done) where
  ascending := Register.pairwise_insertEntry key v kept.ascending
  ordered e member := by
    rcases Register.mem_insertEntry member with rfl | before
    · exact ordered
    · exact kept.ordered e before
  within e member := by
    rcases Register.mem_insertEntry member with rfl | before
    · exact within
    · exact kept.within e before

mutual

/-- A value that is found has the keys of its objects in order and nests no deeper than it may. The
recursion is on the draft.
-/
theorem ordered_of_decoder
    : (d : Draft) → {n : Nat} → {v : Value} → decoder n d = .ok v → v.Ordered ∧ v.depth ≤ n
  | .null, n, v, found => by
      simp only [decoder, Except.ok.injEq] at found
      simp [← found, Ordered, depth]
  | .bool _, n, v, found => by
      simp only [decoder, Except.ok.injEq] at found
      simp [← found, Ordered, depth]
  | .number (some _), n, v, found => by
      simp only [decoder, Except.ok.injEq] at found
      simp [← found, Ordered, depth]
  | .string (some _), n, v, found => by
      simp only [decoder, Except.ok.injEq] at found
      simp [← found, Ordered, depth]
  | .array items _, n + 1, v, found => by
      simp only [decoder, bind_eq_ok_iff, ite_eq_ok_iff] at found
      obtain ⟨vs, items, _, rfl⟩ := found
      obtain ⟨ordered, within⟩ := ordered_of_decodeItems _ items
      exact ⟨ordered, Nat.succ_le_succ within⟩
  | .object entries _, n + 1, v, found => by
      simp only [decoder, bind_eq_ok_iff, ite_eq_ok_iff] at found
      obtain ⟨es, entries, _, rfl⟩ := found
      have kept := kept_of_decodeEntries _ entries ⟨.nil, by simp, by simp⟩
      exact ⟨⟨kept.ascending, orderedEntries_iff.mpr kept.ordered⟩,
        Nat.succ_le_succ (depthEntries_le_iff.mpr kept.within)⟩
  | .number none, _, _, found | .string none, _, _, found | .broken, _, _, found
  | .array _ _, 0, _, found | .object _ _, 0, _, found => by simp [decoder] at found

/-- So have items that are found. -/
theorem ordered_of_decodeItems
    : (items : List Draft) → {n : Nat} → {vs : List Value} → decodeItems n items = .ok vs
    → OrderedItems vs ∧ depthItems vs ≤ n
  | [], n, vs, found => by
      simp only [decodeItems, Except.ok.injEq] at found
      simp [← found, OrderedItems, depthItems]
  | d :: items, n, vs, found => by
      simp only [decodeItems, bind_eq_ok_iff, pure, Except.pure, Except.ok.injEq] at found
      obtain ⟨v, first, others, rest, rfl⟩ := found
      obtain ⟨ordered, within⟩ := ordered_of_decoder d first
      obtain ⟨ordered', within'⟩ := ordered_of_decodeItems items rest
      exact ⟨⟨ordered, ordered'⟩, Nat.max_le.mpr ⟨within, within'⟩⟩

/-- Entries that are found are kept in order together with those that were found before. -/
theorem kept_of_decodeEntries
    : (entries : List (Option String × Draft)) → {n : Nat} → {done es : List (String × Value)}
    → decodeEntries n entries done = .ok es → Kept n done → Kept n es
  | [], n, done, es, found, kept => by
      simp only [decodeEntries, Except.ok.injEq] at found
      rwa [← found]
  | (none, _) :: _, _, _, _, found, _ => by simp [decodeEntries] at found
  | (some key, d) :: entries, n, done, es, found, kept => by
      simp only [decodeEntries, bind_eq_ok_iff] at found
      obtain ⟨v, first, rest⟩ := found
      obtain ⟨ordered, within⟩ := ordered_of_decoder d first
      exact kept_of_decodeEntries entries rest (kept.insertEntry key ordered within)

end

/-- A value is found in its own draft if and only if the keys of its objects are in order and it
nests no deeper than it may.
-/
theorem decoder_ofValue_iff {n : Nat} {v : Value}
    : decoder n (.ofValue v) = .ok v ↔ v.Ordered ∧ v.depth ≤ n :=
  ⟨ordered_of_decoder _, fun ⟨ordered, within⟩ => decoder_ofValue v ordered within⟩

theorem eq_null_of_decoder {n : Nat} {d : Draft} (found : decoder n d = .ok .null) : d = .null := by
  unfold decoder at found
  split at found <;> simp_all [bind_eq_ok_iff, ite_eq_ok_iff]

end Value

end CaseGrouping.Json
