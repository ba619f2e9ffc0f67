import Mathlib.Data.List.Nodup

/-! First occurrences: the elements of a list once each, in the order in which they come first.
Erasing repetitions from the left keeps just these.
-/

namespace CaseGrouping

/-- (FirstOccurrences chosen all keep) says that the chosen elements are those of a list that
satisfy keep, each once, in the order of their first places in the list.
-/
structure FirstOccurrences {α : Type} [DecidableEq α] (chosen all : List α) (keep : α → Prop)
    : Prop where
  mem : ∀ {a}, a ∈ chosen ↔ a ∈ all ∧ keep a
  order : chosen.Pairwise fun a b => all.idxOf a < all.idxOf b

variable {α : Type} [DecidableEq α] {chosen other all : List α} {keep : α → Prop}

namespace FirstOccurrences

theorem nodup (firsts : FirstOccurrences chosen all keep) : chosen.Nodup := by
  refine firsts.order.imp fun {a b} before => ?_
  rintro rfl
  exact Nat.lt_irrefl _ before

/-- First occurrences are determined by the list and by what is kept. -/
theorem unique (firsts : FirstOccurrences chosen all keep)
    (firsts' : FirstOccurrences other all keep)
    : chosen = other := by
  have perm : chosen.Perm other :=
    (List.perm_ext_iff_of_nodup firsts.nodup firsts'.nodup).mpr fun _ =>
      firsts.mem.trans firsts'.mem.symm
  refine perm.eq_of_pairwise ?_ firsts.order firsts'.order
  intro a b _ _ before after
  exact absurd (Nat.lt_trans before after) (Nat.lt_irrefl _)

end FirstOccurrences

/-- What comes earlier among some elements of a list comes earlier in the list, by induction on
the list.
-/
theorem idxOf_lt_of_filter {p : α → Bool} {a b : α} (kept : p b)
    (before : (all.filter p).idxOf a < (all.filter p).idxOf b)
    : all.idxOf a < all.idxOf b := by
  induction all with
  | nil => exact before
  | cons c rest ih =>
      by_cases first : c = a
      · subst first
        have apart : c ≠ b := by
          rintro rfl
          exact Nat.lt_irrefl _ before
        simp [apart]
      · by_cases second : c = b
        · subst second
          simp [kept] at before
        · rw [List.idxOf_cons_ne _ first, List.idxOf_cons_ne _ second]
          by_cases here : p c
          · rw [List.filter_cons_of_pos here, List.idxOf_cons_ne _ first,
              List.idxOf_cons_ne _ second] at before
            exact Nat.succ_lt_succ (ih (Nat.lt_of_succ_lt_succ before))
          · rw [List.filter_cons_of_neg here] at before
            exact Nat.succ_lt_succ (ih before)

/-- Erasing repetitions keeps the first occurrences, by induction on the length of the list. -/
theorem firstOccurrences_eraseDups
    : (all : List α) → FirstOccurrences all.eraseDups all fun _ => True
  | [] => ⟨by simp, .nil⟩
  | a :: rest => by
      have later := firstOccurrences_eraseDups (rest.filter fun b => !b == a)
      have apart : ∀ b ∈ (rest.filter fun b => !b == a).eraseDups, a ≠ b := fun b member => by
        rintro rfl
        simpa using (List.mem_filter.mp (later.mem.mp member).1).2
      refine ⟨by simp [List.mem_eraseDups], ?_⟩
      rw [List.eraseDups_cons, List.pairwise_cons]
      refine ⟨fun b member => ?_, later.order.imp_of_mem fun {b c} member member' before => ?_⟩
      · rw [List.idxOf_cons_self, List.idxOf_cons_ne _ (apart b member)]
        exact Nat.succ_pos _
      · rw [List.idxOf_cons_ne _ (apart b member), List.idxOf_cons_ne _ (apart c member')]
        refine Nat.succ_lt_succ (idxOf_lt_of_filter ?_ before)
        simpa using (apart c member').symm
termination_by all => all.length
decreasing_by
  have shorter := List.length_filter_le (fun b => !b == a) rest
  simp only [List.length_cons]
  omega

/-- A list without repetitions is made of first occurrences. -/
theorem eraseDups_of_nodup {l : List α} (distinct : l.Nodup) : l.eraseDups = l := by
  induction l with
  | nil => rfl
  | cons a rest ih =>
      obtain ⟨fresh, distinct⟩ := List.nodup_cons.mp distinct
      have others : rest.filter (fun b => !b == a) = rest :=
        List.filter_eq_self.mpr fun b member => by
          have apart : b ≠ a := fun same => fresh (same ▸ member)
          simp [apart]
      rw [List.eraseDups_cons, others, ih distinct]

/-- An element that is added at the end is kept if it is new. -/
theorem eraseDups_concat (l : List α) (a : α)
    : (l ++ [a]).eraseDups = if a ∈ l then l.eraseDups else l.eraseDups ++ [a] := by
  rw [List.eraseDups_append]
  by_cases known : a ∈ l
  · have none : [a].removeAll l = [] := by simp [List.removeAll, known]
    rw [if_pos known, none, List.eraseDups_nil, List.append_nil]
  · have one : [a].removeAll l = [a] := by simp [List.removeAll, known]
    rw [if_neg known, one, eraseDups_of_nodup (List.nodup_singleton a)]

end CaseGrouping
