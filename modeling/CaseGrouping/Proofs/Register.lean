import CaseGrouping.Register
import Mathlib.Data.List.Induction
import Mathlib.Data.List.Nodup

/-! Registers seen through their look-ups. After insertions the last value for each key is found.
-/

namespace CaseGrouping

-----------------------------------------------------------------------------------------
-- Last values
-----------------------------------------------------------------------------------------

section LastValues

variable {κ α : Type} [DecidableEq κ]

/-- The last value that entries have for a key. -/
def lastValue? (entries : List (κ × α)) (key : κ) : Option α :=
  ((entries.filter (·.1 = key)).map Prod.snd).getLast?

theorem lastValue?_concat (entries : List (κ × α)) (e : κ × α) (key : κ)
    : lastValue? (entries ++ [e]) key = if e.1 = key then some e.2 else lastValue? entries key := by
  by_cases here : e.1 = key <;> simp [lastValue?, here]

theorem lastValue?_eq_none_iff {entries : List (κ × α)} {key : κ}
    : lastValue? entries key = none ↔ key ∉ entries.map Prod.fst := by
  simp only [lastValue?, List.getLast?_eq_none_iff, List.map_eq_nil_iff, List.filter_eq_nil_iff,
    decide_eq_true_eq, List.mem_map, not_exists, not_and]

/-- Entries with distinct keys have one value for each. By induction from the end. -/
theorem lastValue?_eq_some_iff {entries : List (κ × α)} {key : κ} {a : α}
    (distinct : (entries.map Prod.fst).Nodup)
    : lastValue? entries key = some a ↔ (key, a) ∈ entries := by
  induction entries using List.reverseRecOn with
  | nil => simp [lastValue?]
  | append_singleton entries e ih =>
      obtain ⟨k, b⟩ := e
      rw [List.map_append, List.map_singleton, List.nodup_append'] at distinct
      obtain ⟨distinct, _, apart⟩ := distinct
      rw [lastValue?_concat, List.mem_append, List.mem_singleton, Prod.mk.injEq]
      by_cases here : k = key
      · subst here
        have fresh : (k, a) ∉ entries := fun member =>
          apart (List.mem_map_of_mem (f := Prod.fst) member) List.mem_cons_self
        simp [fresh, eq_comm]
      · simp [here, Ne.symm here, ih distinct]

/-- The order of entries with distinct keys does not matter. -/
theorem lastValue?_perm {entries others : List (κ × α)} (perm : entries.Perm others)
    (distinct : (entries.map Prod.fst).Nodup) (key : κ)
    : lastValue? entries key = lastValue? others key := by
  refine Option.ext fun a => ?_
  rw [lastValue?_eq_some_iff distinct,
    lastValue?_eq_some_iff ((perm.map Prod.fst).nodup_iff.mp distinct), perm.mem_iff]

end LastValues

namespace Register

variable {κ α : Type} [LT κ] [DecidableEq κ] [Std.Irrefl (α := κ) (· < ·)]

/-- Looking up finds exactly the entries, since no key has two. -/
theorem get?_eq_some_iff {r : Register κ α} {key : κ} {a : α}
    : r.get? key = some a ↔ (key, a) ∈ r.entries := by
  obtain ⟨l, ascending⟩ := r
  simp only [get?]
  induction l with
  | nil => simp
  | cons head rest ih =>
      obtain ⟨k, b⟩ := head
      obtain ⟨first, ascending⟩ := List.pairwise_cons.mp ascending
      by_cases same : k = key
      · subst same
        have absent : (k, a) ∉ rest := fun member =>
          Std.Irrefl.irrefl (r := ((· < ·) : κ → κ → Prop)) k (first _ member)
        simp [absent, eq_comm]
      · have other : key ≠ k := fun h => same h.symm
        simpa [same, other] using ih ascending

/-- A value is stored under some key. -/
theorem exists_get?_of_mem_values {r : Register κ α} {a : α} (h : a ∈ r.values)
    : ∃ key, r.get? key = some a := by
  obtain ⟨⟨key, b⟩, member, rfl⟩ := List.mem_map.mp h
  exact ⟨key, get?_eq_some_iff.mpr member⟩

/-- Registers in which all look-ups agree are the same, as both list the same entries in the same
order.
-/
theorem ext_get? [Trans (α := κ) (β := κ) (γ := κ) (· < ·) (· < ·) (· < ·)]
    {r q : Register κ α} (agree : ∀ key, r.get? key = q.get? key)
    : r = q := by
  have same : ∀ e, e ∈ r.entries ↔ e ∈ q.entries := by
    rintro ⟨key, a⟩
    rw [← get?_eq_some_iff, ← get?_eq_some_iff, agree]
  have distinct : ∀ p : Register κ α, p.entries.Nodup := fun p =>
    p.ascending.imp fun {a b} lt eq => by
      subst eq
      exact Std.Irrefl.irrefl (r := ((· < ·) : κ → κ → Prop)) _ lt
  have perm : r.entries.Perm q.entries :=
    (List.perm_ext_iff_of_nodup (distinct r) (distinct q)).mpr same
  refine ext_entries (perm.eq_of_pairwise ?_ r.ascending q.ascending)
  intro a b _ _ lt gt
  exact absurd (Trans.trans lt gt : a.1 < a.1)
    (Std.Irrefl.irrefl (r := ((· < ·) : κ → κ → Prop)) _)

-----------------------------------------------------------------------------------------
-- Registers with other values
-----------------------------------------------------------------------------------------

omit [DecidableEq κ] [Std.Irrefl (α := κ) (· < ·)] in
/-- Changing values twice is changing them once by both. -/
theorem mapValues_mapValues {β γ : Type} (r : Register κ α) (f : α → β) (g : β → γ)
    : (r.mapValues f).mapValues g = r.mapValues (g ∘ f) :=
  ext_entries (by simp [mapValues])

omit [DecidableEq κ] [Std.Irrefl (α := κ) (· < ·)] in
theorem mapValues_id (r : Register κ α) : r.mapValues id = r :=
  ext_entries (by simp [mapValues])

omit [Std.Irrefl (α := κ) (· < ·)] in
theorem get?_mapValues {β : Type} (r : Register κ α) (f : α → β) (key : κ)
    : (r.mapValues f).get? key = (r.get? key).map f := by
  simp [get?, mapValues, List.find?_map, Function.comp_def]

-----------------------------------------------------------------------------------------
-- Insertions of many entries
-----------------------------------------------------------------------------------------

section Order

variable [DecidableLT κ] [Std.Trichotomous (α := κ) (· < ·)]
  [Trans (α := κ) (β := κ) (γ := κ) (· < ·) (· < ·) (· < ·)]

/-- The last value that was inserted for a key is found, or else what was there. By induction on the
entries from the end.
-/
theorem get?_insertAll (r : Register κ α) (entries : List (κ × α)) (key : κ)
    : (r.insertAll entries).get? key = (lastValue? entries key <|> r.get? key) := by
  induction entries using List.reverseRecOn with
  | nil => rfl
  | append_singleton entries e ih =>
      rw [insertAll, List.foldl_concat, ← insertAll, get?_insert, lastValue?_concat, ih]
      by_cases here : e.1 = key
      · simp [here]
      · simp [here, Ne.symm here]

theorem get?_insertAll_of_absent {entries : List (κ × α)} {r : Register κ α} {key : κ}
    (absent : key ∉ entries.map Prod.fst)
    : (r.insertAll entries).get? key = r.get? key := by
  rw [get?_insertAll, lastValue?_eq_none_iff.mpr absent]
  rfl

/-- An inserted value is found, as entries in order have each key once. -/
theorem get?_insertAll_of_mem {entries : List (κ × α)} {r : Register κ α} {key : κ} {a : α}
    (ascending : entries.Pairwise fun x y => x.1 < y.1) (member : (key, a) ∈ entries)
    : (r.insertAll entries).get? key = some a := by
  have distinct : (entries.map Prod.fst).Nodup := by
    refine List.pairwise_map.mpr (ascending.imp fun {x y} lt same => ?_)
    rw [same] at lt
    exact Std.Irrefl.irrefl (r := ((· < ·) : κ → κ → Prop)) _ lt
  rw [get?_insertAll, (lastValue?_eq_some_iff distinct).mpr member]
  rfl

/-- Of two values for a key, the one from the register that was put in is found. -/
theorem get?_insertAll_entries (r q : Register κ α) (key : κ)
    : (r.insertAll q.entries).get? key = (q.get? key <|> r.get? key) := by
  cases found : q.get? key with
  | some a => exact get?_insertAll_of_mem q.ascending (get?_eq_some_iff.mp found)
  | none =>
      refine get?_insertAll_of_absent fun inserted => ?_
      obtain ⟨⟨_, a⟩, member, rfl⟩ := List.mem_map.mp inserted
      exact absurd ((get?_eq_some_iff.mpr member).symm.trans found) (by simp)

omit [DecidableEq κ] [Std.Irrefl (α := κ) (· < ·)] in
/-- An entry after insertions was inserted or was there, by induction on the insertions. -/
theorem mem_insertAll {r : Register κ α} {entries : List (κ × α)} {e : κ × α}
    (member : e ∈ (r.insertAll entries).entries)
    : e ∈ entries ∨ e ∈ r.entries := by
  induction entries generalizing r with
  | nil => exact .inr member
  | cons first rest ih =>
      rcases ih member with later | before
      · exact .inl (List.mem_cons_of_mem _ later)
      · rcases mem_insertEntry before with rfl | before
        · exact .inl List.mem_cons_self
        · exact .inr before

/-- What is put into the register without entries is what it then holds. -/
theorem insertAll_entries (q : Register κ α) : (∅ : Register κ α).insertAll q.entries = q := by
  refine ext_get? fun key => ?_
  rw [get?_insertAll_entries]
  cases q.get? key <;> rfl

/-- Putting in the register of entries is inserting the entries. -/
theorem insertAll_ofList (r : Register κ α) (entries : List (κ × α))
    : r.insertAll (ofList entries).entries = r.insertAll entries := by
  refine ext_get? fun key => ?_
  rw [get?_insertAll_entries, ofList, get?_insertAll, get?_insertAll]
  cases lastValue? entries key <;> rfl

/-- Inserting entries again changes nothing. -/
theorem insertAll_insertAll (r : Register κ α) (entries : List (κ × α))
    : (r.insertAll entries).insertAll entries = r.insertAll entries := by
  refine ext_get? fun key => ?_
  rw [get?_insertAll, get?_insertAll]
  cases lastValue? entries key <;> rfl

omit [DecidableEq κ] [Std.Irrefl (α := κ) (· < ·)] in
theorem isEmpty_insert (r : Register κ α) (key : κ) (a : α) : (r.insert key a).isEmpty = false := by
  obtain ⟨l, _⟩ := r
  cases l with
  | nil => rfl
  | cons head rest =>
      simp only [isEmpty, insert, insertEntry]
      split
      · rfl
      · split <;> rfl

omit [DecidableEq κ] [Std.Irrefl (α := κ) (· < ·)] in
/-- A register is only empty when nothing was put in, by induction on the entries. -/
theorem isEmpty_insertAll {entries : List (κ × α)} {r : Register κ α}
    (empty : (r.insertAll entries).isEmpty = true)
    : r.isEmpty = true ∧ entries = [] := by
  induction entries generalizing r with
  | nil => exact ⟨empty, rfl⟩
  | cons e rest ih =>
      have first := (ih (r := r.insert e.1 e.2) empty).1
      rw [isEmpty_insert] at first
      cases first

end Order

end Register

end CaseGrouping
