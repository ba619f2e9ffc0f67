import CaseGrouping.Proofs.Store.Calls

/-! Commits while other clients commit as well. What they have been set up to do happens before the
swap, and concerns the versions of records only.
-/

namespace CaseGrouping

namespace MultipleStore

-----------------------------------------------------------------------------------------
-- Records that others may have committed
-----------------------------------------------------------------------------------------

/-- (Recommitted hooks r before after) says that the record under r is as it was before, or has got
another version from a client who was set up to commit it over itself.
-/
def Recommitted (hooks : List (Option CommitHook)) (r : MultipleReference)
    (before after : Option Multiple) : Prop :=
  after = before
  ∨ some (.concurrent r) ∈ hooks ∧ ∃ v, after = before.map fun m => m.withVersion v

/-- (s.Meanwhile own t) says that between the stores s and t of multiples all records but the own
ones were left to the other clients.
-/
structure Meanwhile (own : List MultipleReference) (s t : MultipleStore) : Prop where
  filed : t.Filed
  hooks : t.hooks ⊆ s.hooks
  records : ∀ r ∉ own, Recommitted s.hooks r (s.records.get? r) (t.records.get? r)

variable {s t u : MultipleStore} {own own' : List MultipleReference} {r : MultipleReference}

theorem Recommitted.trans {hooks later : List (Option CommitHook)}
    {before between after : Option Multiple} (first : Recommitted hooks r before between)
    (within : later ⊆ hooks) (next : Recommitted later r between after)
    : Recommitted hooks r before after := by
  rcases next with rfl | ⟨member, v, rfl⟩
  · exact first
  · refine .inr ⟨within member, v, ?_⟩
    rcases first with rfl | ⟨_, w, rfl⟩
    · rfl
    · rw [Option.map_map]
      rfl

/-- A record that others may have committed lists the members that it listed before. -/
theorem Recommitted.listed {hooks : List (Option CommitHook)} {before after : Option Multiple}
    {m : Multiple} (recommitted : Recommitted hooks r before after) (found : after = some m)
    : ∃ stored, before = some stored ∧ stored.memberReferences = m.memberReferences := by
  rcases recommitted with rfl | ⟨_, v, rfl⟩
  · exact ⟨m, found, rfl⟩
  · obtain ⟨stored, same, rfl⟩ := Option.map_eq_some_iff.mp found
    exact ⟨stored, same, rfl⟩

/-- Stores with the same records and hooks have been left alone. -/
theorem Meanwhile.of_eq (filed : s.Filed) (records : t.records = s.records)
    (hooks : t.hooks = s.hooks)
    : s.Meanwhile own t := by
  refine ⟨?_, ?_, fun r _ => .inl ?_⟩
  · unfold Filed
    rw [records]
    exact filed
  · rw [hooks]
    exact List.Subset.refl _
  · rw [records]

theorem Meanwhile.mono (others : s.Meanwhile own t) (within : own ⊆ own')
    : s.Meanwhile own' t :=
  { others with records := fun r absent => others.records r fun member => absent (within member) }

theorem Meanwhile.trans (first : s.Meanwhile own t) (next : t.Meanwhile own u)
    : s.Meanwhile own u where
  filed := next.filed
  hooks := List.Subset.trans next.hooks first.hooks
  records := fun r other => (first.records r other).trans first.hooks (next.records r other)

-----------------------------------------------------------------------------------------
-- Other clients
-----------------------------------------------------------------------------------------

/-- A record is committed over itself, or the attempt has used up a fault. -/
theorem touch_cases (filed : s.Filed) (r : MultipleReference)
    : (s.touch r).records = s.records ∧ (s.touch r).hooks = s.hooks
      ∨ ∃ m v,
          s.records.get? r = some m
          ∧ s.touch r = { s with records := s.records.insert r (m.withVersion v) } := by
  unfold touch
  split
  · exact .inl ⟨rfl, rfl⟩
  next m found =>
    cases swap : s.compareAndSwap m m.version with
    | mk answer s' =>
        cases answer with
        | error e => exact .inl (compareAndSwap_eq_error swap)
        | ok m' =>
            obtain ⟨q, ownReference, _, rfl, rfl⟩ := compareAndSwap_eq_ok swap
            cases Option.some.inj (ownReference.symm.trans (filed r m found).1)
            exact .inr ⟨m, _, found, rfl⟩

/-- A client who commits concerns one record. -/
theorem touch_recommitted (filed : s.Filed) {q : MultipleReference}
    {hooks : List (Option CommitHook)} (hook : some (.concurrent q) ∈ hooks)
    (r : MultipleReference)
    : Recommitted hooks r (s.records.get? r) ((s.touch q).records.get? r) := by
  rcases touch_cases filed q with ⟨same, _⟩ | ⟨m, v, found, touched⟩
  · rw [same]
    exact .inl rfl
  · rw [touched]
    by_cases here : r = q
    · subst here
      refine .inr ⟨hook, v, ?_⟩
      rw [found]
      exact Register.get?_insert_self _ _ _
    · exact .inl (Register.get?_insert_of_ne _ _ here)

theorem Filed.touch (filed : s.Filed) (r : MultipleReference)
    : (s.touch r).Filed ∧ (s.touch r).hooks = s.hooks := by
  rcases touch_cases filed r with ⟨records, hooks⟩ | ⟨m, v, found, touched⟩
  · refine ⟨?_, hooks⟩
    unfold Filed
    rw [records]
    exact filed
  · rw [touched]
    exact ⟨filed.insert (filed r m found).1 v, rfl⟩

-----------------------------------------------------------------------------------------
-- Commits
-----------------------------------------------------------------------------------------

/-- A commit is a swap on the store as other clients leave it, unless it is refused right away. -/
theorem commit_cases (filed : s.Filed) (m : Multiple) (expected : Option UInt64)
    : ∃ u,
        s.Meanwhile [] u
        ∧ (s.commit m expected = u.compareAndSwap m expected
          ∨ ∃ e, s.commit m expected = (.error e, u)) := by
  let passed := { s with hooks := s.hooks.tail }
  have within : passed.hooks ⊆ s.hooks := fun _ member => List.mem_of_mem_tail member
  have alone : s.Meanwhile [] passed := ⟨filed, within, fun r _ => .inl rfl⟩
  unfold commit
  dsimp only
  split
  · exact ⟨passed, alone, .inl rfl⟩
  next q due =>
    have hook : some (.concurrent q) ∈ s.hooks :=
      List.mem_of_head? (Option.join_eq_some_iff.mp due)
    obtain ⟨filed', hooks⟩ := Filed.touch (s := passed) filed q
    refine ⟨passed.touch q, ⟨filed', ?_, fun r _ => ?_⟩, .inl rfl⟩
    · rw [hooks]
      exact within
    · exact touch_recommitted (s := passed) filed hook r
  next e due => exact ⟨passed, alone, .inr ⟨e, rfl⟩⟩

/-- A commit that succeeds answers with its record at the version after the expected one. -/
theorem record_of_commit {m m' : Multiple} {expected : Option UInt64}
    (commits : s.commit m expected = (.ok m', t))
    : m' = m.withVersion (successor expected) := by
  have swapped : ∀ u : MultipleStore,
      u.compareAndSwap m expected = (.ok m', t) → m' = m.withVersion (successor expected) := by
    intro u swap
    obtain ⟨_, _, _, record, _⟩ := compareAndSwap_eq_ok swap
    exact record
  unfold commit at commits
  dsimp only at commits
  split at commits
  · exact swapped _ commits
  · exact swapped _ commits
  · cases commits

/-- A commit that fails leaves all records alone. -/
theorem commit_eq_error {m : Multiple} {expected : Option UInt64} {e : MultipleStoreError}
    (filed : s.Filed) (fails : s.commit m expected = (.error e, t))
    : s.Meanwhile [] t := by
  obtain ⟨u, others, commits | ⟨e', commits⟩⟩ := commit_cases filed m expected
  · obtain ⟨records, hooks⟩ := compareAndSwap_eq_error (commits.symm.trans fails)
    exact others.trans (.of_eq others.filed records hooks)
  · cases commits.symm.trans fails
    exact others

/-- A commit that succeeds is a swap on the store as other clients leave it: the record that was
stored at the expected version by then is replaced.
-/
theorem commit_swaps {m m' : Multiple} {expected : Option UInt64} (filed : s.Filed)
    (ownReference : m.reference = some r) (commits : s.commit m expected = (.ok m', t))
    : ∃ u,
        s.Meanwhile [] u
        ∧ u.version? r = expected
        ∧ m' = m.withVersion (successor expected)
        ∧ t = { u with records := u.records.insert r m' } := by
  obtain ⟨u, others, swap | ⟨e, refused⟩⟩ := commit_cases filed m expected
  · obtain ⟨q, named, fresh, record, stored⟩ := compareAndSwap_eq_ok (swap.symm.trans commits)
    cases Option.some.inj (named.symm.trans ownReference)
    exact ⟨u, others, fresh, record, stored⟩
  · cases refused.symm.trans commits

/-- A commit that succeeds stores its record with the version after the expected one, and leaves all
other records alone.
-/
theorem commit_eq_ok {m m' : Multiple} {expected : Option UInt64} (filed : s.Filed)
    (ownReference : m.reference = some r) (commits : s.commit m expected = (.ok m', t))
    : s.Meanwhile [r] t
      ∧ t.records.get? r = some (m.withVersion (successor expected)) := by
  obtain ⟨u, others, _, rfl, rfl⟩ := commit_swaps filed ownReference commits
  have stored : u.Meanwhile [r]
      { u with records := u.records.insert r (m.withVersion (successor expected)) } := by
    refine ⟨others.filed.insert ownReference _, List.Subset.refl _, fun p other => .inl ?_⟩
    exact Register.get?_insert_of_ne _ _ fun same => other (List.mem_singleton.mpr same)
  refine ⟨?_, Register.get?_insert_self _ _ _⟩
  exact (others.mono (List.nil_subset _)).trans stored

end MultipleStore

theorem Stores.multiples_commit {scope : CaseScope} {m : Multiple} {expected : Option UInt64}
    {s t : Stores} {answer : Except MultipleStoreError Multiple}
    (commits : Stores.commit scope m expected s = (answer, t))
    : s.multiples.commit m expected = (answer, t.multiples) :=
  congrArg (fun x => (x.1, x.2.multiples)) commits

end CaseGrouping
