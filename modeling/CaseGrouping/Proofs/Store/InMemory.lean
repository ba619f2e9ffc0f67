import CaseGrouping.Proofs.FanOut.Effects
import CaseGrouping.Proofs.Store.Calls

/-! Stores that hold cases and multiples under their own references, and have been set up neither to
answer searches nor to interfere with commits. Calls of any kind keep them so.
-/

namespace CaseGrouping

namespace Stores

/-- Cases and multiples are stored under their own references, multiples with a version, and
nothing has been set up to happen to a search or a commit.
-/
structure InMemory (s : Stores) : Prop where
  keyed : s.cases.Keyed
  filed : s.multiples.Filed
  unset : s.cases.searchAnswer = none
  hooks : s.multiples.hooks = []

namespace InMemory

variable {s t : Stores}

theorem asked (inMemory : s.InMemory) (asked : s.Asked t) : t.InMemory := by
  refine ⟨asked.keyed inMemory.keyed, ?_, asked.searchAnswer inMemory.unset,
    asked.hooks.trans inMemory.hooks⟩
  intro r m found
  rw [asked.multiples] at found
  exact inMemory.filed r m found

theorem wrote (inMemory : s.InMemory) (wrote : s.Wrote t) : t.InMemory := by
  refine ⟨wrote.keyed inMemory.keyed, ?_, wrote.searchAnswer.trans inMemory.unset, ?_⟩
  · rw [wrote.multiples]
    exact inMemory.filed
  · rw [wrote.multiples]
    exact inMemory.hooks

theorem commit (inMemory : s.InMemory) (scope : CaseScope) (m : Multiple)
    (expected : Option UInt64)
    : (Stores.commit scope m expected s).2.InMemory := by
  have kept : (s.multiples.commit m expected).2.Filed
      ∧ (s.multiples.commit m expected).2.hooks = [] :=
    inMemory.filed.commit inMemory.hooks
  exact ⟨inMemory.keyed, kept.1, inMemory.unset, kept.2⟩

theorem enqueue (inMemory : s.InMemory) (job : Job) : (Stores.enqueue job s).2.InMemory :=
  ⟨inMemory.keyed, inMemory.filed, inMemory.unset, inMemory.hooks⟩

end InMemory

end Stores

end CaseGrouping
