import CaseGrouping.Round.Basic

/-! Runs of rounds from given stores: what a run ends with, taken apart call by call, and what is
kept by every run, whether it ends with an outcome or an error.
-/

namespace CaseGrouping

namespace Round

/-- The result of a round on given stores, with the stores that it leaves. -/
def runOn (x : Round α) (s : Stores) : Except RoundError α × Stores :=
  x.run s

/-- (x.Returns s a t) says that the round x gives a on the stores s and leaves the stores t. -/
def Returns (x : Round α) (s : Stores) (a : α) (t : Stores) : Prop :=
  x.runOn s = (.ok a, t)

variable {s t : Stores}

theorem runOn_attempt (call : StateM Stores α)
    : (attempt call).runOn s = (.ok (call s).1, (call s).2) :=
  rfl

theorem runOn_multiples (call : StateM Stores (Except MultipleStoreError α))
    : (multiples call).runOn s
      = ((call s).1.mapError RoundError.ofMultipleStore, (call s).2) :=
  rfl

theorem runOn_check (verdict : Except ValidationError α)
    : (check verdict).runOn s = (verdict.mapError .validation, s) :=
  rfl

/-- A round goes on with what its first part gives, and ends with its first error. -/
theorem runOn_bind (x : Round α) (f : α → Round β)
    : (x >>= f).runOn s
      = match x.runOn s with
        | (.ok a, t) => (f a).runOn t
        | (.error e, t) => (.error e, t) := by
  change (ExceptT.bind x f).run s = _
  simp only [ExceptT.bind, ExceptT.run, ExceptT.mk, runOn]
  change (match x s with | (a, t) => ExceptT.bindCont f a t) = _
  cases x s with
  | mk a t => cases a <;> rfl

-----------------------------------------------------------------------------------------
-- Runs that give a result
-----------------------------------------------------------------------------------------

theorem returns_bind {x : Round α} {f : α → Round β} {b : β} {u : Stores}
    : (x >>= f).Returns s b u ↔ ∃ a t, x.Returns s a t ∧ (f a).Returns t b u := by
  unfold Returns
  rw [runOn_bind]
  constructor
  · intro h
    split at h
    next a t first => exact ⟨a, t, first, h⟩
    next => cases h
  · rintro ⟨a, t, first, next⟩
    rw [first]
    exact next

/-- What a first part gives is what the rest of the round runs on. -/
theorem runOn_bind_of_returns {x : Round α} {f : α → Round β} {a : α} (first : x.Returns s a t)
    : (x >>= f).runOn s = (f a).runOn t := by
  rw [runOn_bind, show x.runOn s = (.ok a, t) from first]

theorem returns_pure {a b : α} : (pure a : Round α).Returns s b t ↔ b = a ∧ t = s := by
  constructor
  · intro h
    cases h
    exact ⟨rfl, rfl⟩
  · rintro ⟨rfl, rfl⟩
    rfl

theorem not_returns_reject {e : ValidationError} {a : α}
    : ¬ (reject e : Round α).Returns s a t := by
  intro h
  cases h

theorem returns_attempt {call : StateM Stores α} {a : α}
    : (attempt call).Returns s a t ↔ call s = (a, t) := by
  constructor
  · intro h
    cases h
    rfl
  · intro h
    rw [Returns, runOn_attempt, h]

theorem returns_multiples {call : StateM Stores (Except MultipleStoreError α)} {a : α}
    : (multiples call).Returns s a t ↔ call s = (.ok a, t) := by
  unfold Returns
  rw [runOn_multiples]
  rcases call s with ⟨answer, u⟩
  constructor <;> intro h <;> cases answer <;> cases h <;> rfl

theorem returns_check {verdict : Except ValidationError α} {a : α}
    : (check verdict).Returns s a t ↔ verdict = .ok a ∧ t = s := by
  unfold Returns
  rw [runOn_check]
  constructor
  · intro h
    cases verdict <;> cases h
    exact ⟨rfl, rfl⟩
  · rintro ⟨rfl, rfl⟩
    rfl

/-- A round returns if its result, seen through a function with the stores it leaves, is a value. -/
theorem exists_returns_leaving {x : Round α} {f : α → Stores → β} {b : β}
    (given : (x.runOn s).1.toOption.map (f · (x.runOn s).2) = some b)
    : ∃ a t, x.Returns s a t ∧ f a t = b := by
  cases ends : x.runOn s with
  | mk result t =>
      rw [ends] at given
      cases result with
      | error e => cases given
      | ok a => exact ⟨a, t, ends, Option.some.inj given⟩

/-- The stores need not be looked at. -/
theorem exists_returns {x : Round α} {f : α → β} {b : β}
    (given : (x.runOn s).1.toOption.map f = some b)
    : ∃ a t, x.Returns s a t ∧ f a = b :=
  exists_returns_leaving given

-----------------------------------------------------------------------------------------
-- Runs that fail
-----------------------------------------------------------------------------------------

/-- (x.Fails s e t) says that the round x ends with the error e on the stores s and leaves t. -/
def Fails (x : Round α) (s : Stores) (e : RoundError) (t : Stores) : Prop :=
  x.runOn s = (.error e, t)

variable {e : RoundError}

/-- A round fails in its first part, or in the rest after the first part has given a result. -/
theorem fails_bind {x : Round α} {f : α → Round β}
    : (x >>= f).Fails s e t
      ↔ x.Fails s e t ∨ ∃ a u, x.Returns s a u ∧ (f a).Fails u e t := by
  unfold Fails Returns
  rw [runOn_bind]
  rcases x.runOn s with ⟨e' | a, u⟩
  · simp
  · constructor
    · exact fun fails => .inr ⟨a, u, rfl, fails⟩
    · rintro (h | ⟨_, _, h, fails⟩)
      · cases h
      · cases h
        exact fails

theorem not_fails_pure {a : α} : ¬ (pure a : Round α).Fails s e t := by
  intro h
  cases h

theorem not_fails_attempt {call : StateM Stores α} : ¬ (attempt call).Fails s e t := by
  intro h
  cases h

theorem fails_multiples {call : StateM Stores (Except MultipleStoreError α)}
    : (multiples call).Fails s e t
      ↔ ∃ cause, call s = (.error cause, t) ∧ e = .ofMultipleStore cause := by
  unfold Fails
  rw [runOn_multiples]
  rcases call s with ⟨cause | a, u⟩
  · constructor
    · intro h
      cases h
      exact ⟨cause, rfl, rfl⟩
    · rintro ⟨_, h, rfl⟩
      cases h
      rfl
  · constructor
    · intro h
      cases h
    · rintro ⟨_, h, _⟩
      cases h

-----------------------------------------------------------------------------------------
-- What every run keeps
-----------------------------------------------------------------------------------------

/-- (x.Keeps P) says that P holds after every run of x on stores for which it held before. -/
def Keeps (P : Stores → Prop) (x : Round α) : Prop :=
  ∀ ⦃s⦄, P s → P (x.runOn s).2

variable {P : Stores → Prop}

/-- What a part of a round keeps holds of the stores it leaves when it gives a result. -/
theorem Keeps.of_returns {x : Round α} {a : α} (keeps : x.Keeps P) (holds : P s)
    (returns : x.Returns s a t)
    : P t := by
  have kept := keeps holds
  rw [show x.runOn s = (.ok a, t) from returns] at kept
  exact kept

/-- What a part of a round keeps holds of the stores it leaves when it fails. -/
theorem Keeps.of_fails {x : Round α} {e : RoundError} (keeps : x.Keeps P) (holds : P s)
    (fails : x.Fails s e t)
    : P t := by
  have kept := keeps holds
  rw [show x.runOn s = (.error e, t) from fails] at kept
  exact kept

theorem keeps_pure (a : α) : (pure a : Round α).Keeps P :=
  fun _ h => h

theorem keeps_throw (e : RoundError) : (throw e : Round α).Keeps P :=
  fun _ h => h

theorem keeps_reject (e : ValidationError) : (reject e : Round α).Keeps P :=
  fun _ h => h

theorem keeps_check (verdict : Except ValidationError α) : (check verdict).Keeps P :=
  fun _ h => h

theorem keeps_attempt {call : StateM Stores α} (h : ∀ s, P s → P (call s).2)
    : (attempt call).Keeps P :=
  h

theorem keeps_multiples {call : StateM Stores (Except MultipleStoreError α)}
    (h : ∀ s, P s → P (call s).2)
    : (multiples call).Keeps P :=
  h

/-- What both parts of a round keep is kept by the round. -/
theorem keeps_bind {x : Round α} {f : α → Round β} (first : x.Keeps P)
    (next : ∀ a, (f a).Keeps P)
    : (x >>= f).Keeps P := by
  intro s h
  have kept := first h
  rw [runOn_bind]
  split
  next a t ends =>
    rw [ends] at kept
    exact next a kept
  next e t ends =>
    rw [ends] at kept
    exact kept

theorem keeps_ite {c : Prop} [Decidable c] {x y : Round α} (yes : x.Keeps P) (no : y.Keeps P)
    : (if c then x else y).Keeps P := by
  split
  · exact yes
  · exact no

end Round

end CaseGrouping
