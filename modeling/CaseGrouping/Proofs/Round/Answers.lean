import CaseGrouping.Proofs.Round.Joining
import CaseGrouping.Proofs.Round.Runs
import CaseGrouping.Proofs.Round.Work

/-! Stores that give the same answers. Who may join is told by what is stored, as long as the store
of cases tells the truth, so a request comes to the same work on all stores that hold the same in
what it asks for.
-/

namespace CaseGrouping

-----------------------------------------------------------------------------------------
-- Verdicts
-----------------------------------------------------------------------------------------

/-- Why a case may not join a multiple by what is stored, if so. -/
def verdict? (cases : Register CaseReference SingleCase) (multiple : MultipleReference)
    (r : CaseReference) : Option String :=
  match cases.get? r with
  | none => some "not found"
  | some c =>
      if c.belongsElsewhere (some multiple) then
        some ("already belongs to multiple " ++ (c.multiple.map Reference.text).getD "")
      else none

/-- A case has no verdict against it exactly if it is stored and belongs to no other multiple. -/
theorem verdict?_eq_none {cases : Register CaseReference SingleCase}
    {multiple : MultipleReference} {r : CaseReference}
    : verdict? cases multiple r = none
      ↔ ∃ c, cases.get? r = some c ∧ (c.multiple = none ∨ c.multiple = some multiple) := by
  unfold verdict? SingleCase.belongsElsewhere
  cases stored : cases.get? r with
  | none => simp
  | some c =>
      cases own : c.multiple with
      | none => simp [own]
      | some q => simp [own, @eq_comm _ q multiple]

/-- A verdict against a case tells that it is not stored, or which other multiple it belongs to. -/
theorem verdict?_eq_some {cases : Register CaseReference SingleCase}
    {multiple : MultipleReference} {r : CaseReference} {reason : String}
    : verdict? cases multiple r = some reason
      ↔ cases.get? r = none ∧ reason = "not found"
        ∨ ∃ c other,
            cases.get? r = some c
            ∧ c.multiple = some other
            ∧ other ≠ multiple
            ∧ reason = "already belongs to multiple " ++ other.text := by
  unfold verdict? SingleCase.belongsElsewhere
  cases stored : cases.get? r with
  | none => simp [@eq_comm _ _ reason]
  | some c =>
      cases own : c.multiple with
      | none => simp [own]
      | some other =>
          by_cases same : other = multiple
          · simp [own, same]
          · simp [own, same, Ne.symm same, @eq_comm _ _ reason]

/-- A verdict depends on whether a case is stored and on the multiple that it belongs to. -/
theorem verdict?_congr {before after : Register CaseReference SingleCase}
    {multiple : MultipleReference} {r : CaseReference}
    (same : (after.get? r).map SingleCase.multiple = (before.get? r).map SingleCase.multiple)
    : verdict? after multiple r = verdict? before multiple r := by
  unfold verdict? SingleCase.belongsElsewhere
  cases now : after.get? r with
  | none =>
      rw [now, Option.map_none, eq_comm, Option.map_eq_none_iff] at same
      rw [same]
  | some c =>
      rw [now, Option.map_some, eq_comm, Option.map_eq_some_iff] at same
      obtain ⟨d, stored, owner⟩ := same
      rw [stored]
      dsimp only
      rw [owner]

/-- The store of cases tells the truth: a case is found under its own reference, no search has been
set up to be answered otherwise, and what comes in place of a failing search does not fail.
-/
structure CaseStore.Truthful (s : CaseStore) : Prop where
  keyed : s.Keyed
  unset : s.searchAnswer = none
  answering : s.searchFault = none ∨ s.retrieveFaults = ∅

/-- Questions leave a store truthful. -/
theorem CaseStore.Truthful.asked {s t : Stores} (truthful : s.cases.Truthful) (asked : s.Asked t)
    : t.cases.Truthful where
  keyed := asked.keyed truthful.keyed
  unset := asked.searchAnswer truthful.unset
  answering := by
    rw [asked.retrieveFaults]
    exact truthful.answering.imp_left asked.searchFault

namespace Joiners

variable {scope : CaseScope} {multiple : MultipleReference} {candidates : List CaseReference}
  {r : CaseReference} {s : Stores} {cases : Register CaseReference SingleCase}

/-- (Exhaustive cases candidates findings) says that the findings are the stored cases among the
candidates, and no errors.
-/
structure Exhaustive (cases : Register CaseReference SingleCase)
    (candidates : List CaseReference) (findings : Findings) : Prop where
  sound : Sound cases findings
  found : ∀ r ∈ candidates, ∀ c, cases.get? r = some c → (r, .ok c) ∈ findings
  plain : ∀ r e, (r, .error e) ∉ findings

/-- A store without faults retrieves what it holds. -/
theorem retrieve_of_stored {store : CaseStore} {c : SingleCase}
    (plain : store.retrieveFaults = ∅) (stored : store.records.get? r = some c)
    : store.retrieve r = .ok c := by
  rw [CaseStore.retrieve, plain, stored]
  rfl

theorem retrieve_of_absent {store : CaseStore} (plain : store.retrieveFaults = ∅)
    (absent : store.records.get? r = none)
    : store.retrieve r = .error (CaseStore.missing r) := by
  rw [CaseStore.retrieve, plain, absent]
  rfl

/-- A truthful store is looked up exhaustively, by one search or one by one. -/
theorem look_exhaustive (truthful : s.cases.Truthful)
    : Exhaustive s.cases.records candidates (look scope candidates s).1 := by
  have sound : Sound s.cases.records (look scope candidates s).1 :=
    look_sound truthful.keyed truthful.unset
  have asked := Stores.Asked.search scope (.references candidates) s
  rw [look_eq] at sound ⊢
  cases fault : s.cases.searchFault with
  | none =>
      have answer : s.cases.search (.references candidates)
          = (.ok (s.cases.found (.references candidates)), s.cases) := by
        rw [CaseStore.search, truthful.unset, fault]
      rw [answer] at sound ⊢
      refine ⟨sound, fun r candidate c stored => ?_, fun r e member => ?_⟩
      · obtain rfl := truthful.keyed r c stored
        refine List.mem_map.mpr ⟨c, List.mem_filter.mpr ⟨?_, decide_eq_true candidate⟩, rfl⟩
        exact List.mem_map_of_mem (f := Prod.snd) (Register.get?_eq_some_iff.mp stored)
      · obtain ⟨c, _, same⟩ := List.mem_map.mp member
        cases congrArg Prod.snd same
  | some e =>
      have answer : (s.cases.search (.references candidates)).1 = .error e := by
        rw [CaseStore.search, truthful.unset, fault]
      have plain : s.cases.retrieveFaults = ∅ :=
        truthful.answering.resolve_left (by simp [fault])
      have plain' := asked.retrieveFaults.trans plain
      obtain ⟨after, searched⟩ : ∃ after, s.cases.search (.references candidates)
          = (.error e, after) := ⟨_, Prod.ext answer rfl⟩
      rw [searched] at sound ⊢
      dsimp only at sound ⊢
      rw [(retrieveEach_asked candidates _).1] at sound ⊢
      refine ⟨sound, fun r candidate c stored => ?_, fun r e' member => ?_⟩
      · refine List.mem_filter.mpr ⟨List.mem_map.mpr ⟨r, candidate, ?_⟩, rfl⟩
        rw [retrieve_of_stored plain' (by rw [asked.cases, stored])]
      · obtain ⟨listed, finding⟩ := List.mem_filter.mp member
        obtain ⟨q, _, same⟩ := List.mem_map.mp listed
        have answered := congrArg Prod.snd same
        dsimp only at answered
        cases stored : s.cases.records.get? q with
        | some c =>
            rw [retrieve_of_stored plain' (by rw [asked.cases, stored])] at answered
            cases answered
        | none =>
            rw [retrieve_of_absent plain' (by rw [asked.cases, stored])] at answered
            cases Except.error.inj answered
            cases finding

/-- Among exhaustive findings the first one of a case is the stored case. -/
theorem refusal?_of_exhaustive {findings : Findings}
    (exhaustive : Exhaustive cases candidates findings) (candidate : r ∈ candidates)
    : refusal? multiple findings r = verdict? cases multiple r := by
  have first : findings.find? (·.1 = r) = (cases.get? r).map fun c => (r, .ok c) := by
    cases found : findings.find? (·.1 = r) with
    | none =>
        cases stored : cases.get? r with
        | none => rfl
        | some c =>
            have absent := List.find?_eq_none.mp found _ (exhaustive.found r candidate c stored)
            simp at absent
    | some finding =>
        obtain ⟨q, answer⟩ := finding
        obtain rfl : q = r := by simpa using List.find?_some found
        have listed := List.mem_of_find?_eq_some found
        cases answer with
        | error e => exact absurd listed (exhaustive.plain q e)
        | ok c => rw [exhaustive.sound q c listed, Option.map_some]
  unfold refusal? verdict?
  rw [first]
  cases cases.get? r <;> rfl

/-- The joiners among candidates, by what is stored. -/
def ofStored (multiple : MultipleReference) (candidates : List CaseReference)
    (cases : Register CaseReference SingleCase) : Joiners where
  eligible := candidates.filter fun r => (verdict? cases multiple r).isNone
  failures := candidates.filterMap fun r => (verdict? cases multiple r).map (⟨r, ·⟩)

theorem ofStored_congr {before after : Register CaseReference SingleCase}
    (same : ∀ r ∈ candidates, verdict? after multiple r = verdict? before multiple r)
    : ofStored multiple candidates after = ofStored multiple candidates before := by
  unfold ofStored
  congr 1
  · exact List.filter_congr fun r candidate => by rw [same r candidate]
  · exact List.filterMap_congr fun r candidate => by rw [same r candidate]

/-- On a truthful store the check of joiners goes by what is stored. -/
theorem check_eq_ofStored (truthful : s.cases.Truthful)
    : (check scope multiple candidates s).1 = ofStored multiple candidates s.cases.records := by
  unfold check
  split
  next none =>
    rw [List.isEmpty_iff.mp none]
    rfl
  · change ofFindings multiple candidates (look scope candidates s).1 = _
    have refusals : ∀ r ∈ candidates,
        refusal? multiple (look scope candidates s).1 r = verdict? s.cases.records multiple r :=
      fun r candidate => refusal?_of_exhaustive (look_exhaustive truthful) candidate
    unfold ofFindings ofStored
    congr 1
    · exact List.filter_congr fun r candidate => by rw [refusals r candidate]
    · exact List.filterMap_congr fun r candidate => by rw [refusals r candidate]

end Joiners

-----------------------------------------------------------------------------------------
-- Stores that answer alike
-----------------------------------------------------------------------------------------

/-- (s.Alike joined t) says that two stores answer the questions of a round alike, of joiners those
about the multiple that is joined, if any.
-/
structure Stores.Alike (joined : Option MultipleReference) (s t : Stores) : Prop where
  truthful : s.cases.Truthful
  truthful' : t.cases.Truthful
  records : t.multiples.records = s.multiples.records
  loadFault : t.multiples.loadFault = s.multiples.loadFault
  verdicts
    : ∀ m ∈ joined, ∀ r, verdict? t.cases.records m r = verdict? s.cases.records m r

namespace Stores.Alike

variable {joined : Option MultipleReference} {s t u : Stores}

theorem refl (truthful : s.cases.Truthful) : s.Alike joined s :=
  ⟨truthful, truthful, rfl, rfl, fun _ _ _ => rfl⟩

theorem symm (alike : s.Alike joined t) : t.Alike joined s :=
  ⟨alike.truthful', alike.truthful, alike.records.symm, alike.loadFault.symm,
    fun m asked r => (alike.verdicts m asked r).symm⟩

theorem trans (first : s.Alike joined t) (next : t.Alike joined u) : s.Alike joined u :=
  ⟨first.truthful, next.truthful', next.records.trans first.records,
    next.loadFault.trans first.loadFault,
    fun m asked r => (next.verdicts m asked r).trans (first.verdicts m asked r)⟩

/-- Questions that leave the fault of loading alone make no difference. -/
theorem of_asked (truthful : s.cases.Truthful) (asked : s.Asked t)
    (loadFault : t.multiples.loadFault = s.multiples.loadFault)
    : s.Alike joined t :=
  ⟨truthful, truthful.asked asked, asked.multiples, loadFault, fun m _ r => by rw [asked.cases]⟩

/-- What answers is the cases and the multiples only. -/
theorem congr (alike : s.Alike joined t) (cases : u.cases = t.cases)
    (multiples : u.multiples = t.multiples)
    : s.Alike joined u := by
  refine ⟨alike.truthful, ?_, ?_, ?_, fun m asked r => ?_⟩
  · rw [cases]
    exact alike.truthful'
  · rw [multiples]
    exact alike.records
  · rw [multiples]
    exact alike.loadFault
  · rw [cases]
    exact alike.verdicts m asked r

end Stores.Alike

-----------------------------------------------------------------------------------------
-- Parts of rounds that can be repeated
-----------------------------------------------------------------------------------------

namespace Round

variable {joined : Option MultipleReference}

/-- (x.Repeats joined) says that whatever x gives on truthful stores it gives on all stores that
answer alike, and that it leaves the stores such.
-/
def Repeats (joined : Option MultipleReference) (x : Round α) : Prop :=
  ∀ ⦃s : Stores⦄ ⦃a t⦄,
    s.cases.Truthful
    → x.Returns s a t
    → s.Alike joined t ∧ ∀ ⦃s' : Stores⦄, s.Alike joined s' → ∃ t', x.Returns s' a t'

theorem repeats_pure (a : α) : (pure a : Round α).Repeats joined := by
  intro s b t truthful returns
  obtain ⟨rfl, rfl⟩ := returns_pure.mp returns
  exact ⟨.refl truthful, fun s' _ => ⟨s', rfl⟩⟩

theorem repeats_reject (e : ValidationError) : (reject e : Round α).Repeats joined :=
  fun _ _ _ _ returns => absurd returns not_returns_reject

theorem repeats_check (verdict : Except ValidationError α)
    : (check verdict).Repeats joined := by
  intro s a t truthful returns
  obtain ⟨ok, rfl⟩ := returns_check.mp returns
  exact ⟨.refl truthful, fun s' _ => ⟨s', returns_check.mpr ⟨ok, rfl⟩⟩⟩

theorem repeats_ite {c : Prop} [Decidable c] {x y : Round α} (yes : x.Repeats joined)
    (no : y.Repeats joined)
    : (if c then x else y).Repeats joined := by
  split
  · exact yes
  · exact no

/-- What the first part leaves on alike stores is alike again, so the rest can be repeated. -/
theorem repeats_bind {x : Round α} {f : α → Round β} (first : x.Repeats joined)
    (next : ∀ a, (f a).Repeats joined)
    : (x >>= f).Repeats joined := by
  intro s b t truthful returns
  obtain ⟨a, u, begins, ends⟩ := returns_bind.mp returns
  obtain ⟨between, again⟩ := first truthful begins
  obtain ⟨after, again'⟩ := next a between.truthful' ends
  refine ⟨between.trans after, fun s' alike => ?_⟩
  obtain ⟨u', begins'⟩ := again alike
  obtain ⟨between', _⟩ := first alike.truthful' begins'
  obtain ⟨t', ends'⟩ := again' ((between.symm.trans alike).trans between')
  exact ⟨t', returns_bind.mpr ⟨a, u', begins', ends'⟩⟩

/-- A record that was loaded is loaded again: no fault of loading was used up. -/
theorem repeats_load (scope : CaseScope) (reference : MultipleReference)
    : (multiples (Stores.load scope reference)).Repeats joined := by
  have answer : ∀ s : Stores, s.multiples.loadFault = none
      → Stores.load scope reference s
        = (.ok (s.multiples.records.get? reference),
          s.note (.load scope.multipleType reference)) := by
    intro s free
    rw [Stores.load, MultipleStore.load, free]
    rfl
  intro s a t truthful returns
  have loaded := returns_multiples.mp returns
  have asked := Stores.Asked.load scope reference s
  have free : s.multiples.loadFault = none := by
    have given : (s.multiples.load reference).1 = .ok a := congrArg Prod.fst loaded
    unfold MultipleStore.load at given
    split at given
    · cases given
    next free => exact free
  rw [answer s free] at loaded asked
  obtain ⟨given, rfl⟩ := Prod.mk.inj loaded
  refine ⟨.of_asked truthful asked rfl, fun s' alike => ?_⟩
  rw [← alike.loadFault] at free
  rw [← alike.records] at given
  exact ⟨_, returns_multiples.mpr ((answer s' free).trans (by rw [given]))⟩

/-- Joiners of the multiple that answers are alike about are told again by what is stored. -/
theorem repeats_joiners (scope : CaseScope) {multiple : MultipleReference}
    (about : multiple ∈ joined) (candidates : List CaseReference)
    : (attempt (Joiners.check scope multiple candidates)).Repeats joined := by
  intro s joiners t truthful returns
  have checked := returns_attempt.mp returns
  have asked := Joiners.check_asked scope multiple candidates s
  have same := Joiners.check_multiples scope multiple candidates s
  have answer := congrArg Prod.fst checked
  rw [checked] at asked same
  rw [Joiners.check_eq_ofStored truthful] at answer
  refine ⟨.of_asked truthful asked (congrArg _ same), fun s' alike => ?_⟩
  refine ⟨_, returns_attempt.mpr (Prod.ext ?_ rfl)⟩
  rw [Joiners.check_eq_ofStored alike.truthful', ← answer]
  exact Joiners.ofStored_congr fun r _ => alike.verdicts multiple about r

end Round

namespace Coordinator

open Round

variable {k : Coordinator} {joined : Option MultipleReference} {reference : MultipleReference}

theorem prepareCreation_repeats {request : BulkCreation}
    (own : request.multiple.reference = some reference) (about : reference ∈ joined)
    : (k.prepareCreation request).Repeats joined := by
  refine repeats_bind (repeats_check _) fun _ => repeats_ite (repeats_reject _) ?_
  simp only [assignReference, own, bind_assoc, pure_bind]
  refine repeats_bind (repeats_load _ _) fun stored => ?_
  refine repeats_bind (repeats_joiners _ about _) fun joiners => ?_
  exact repeats_ite (repeats_reject _) (repeats_pure _)

theorem expectedVersion_repeats (m : Multiple)
    : (k.expectedVersion m reference).Repeats joined := by
  unfold expectedVersion
  split
  · exact repeats_pure _
  · exact repeats_bind (repeats_load _ _) fun _ => repeats_pure _

theorem loadTarget_repeats (current target : MultipleReference)
    : (k.loadTarget current target).Repeats joined := by
  unfold loadTarget
  dsimp only
  split
  · intro s a t _ returns
    obtain ⟨_, _, rejected, _⟩ := returns_bind.mp returns
    exact absurd rejected not_returns_reject
  · refine repeats_bind (repeats_load _ _) fun stored => ?_
    split
    · exact repeats_reject _
    · exact repeats_bind (repeats_check _) fun _ => repeats_pure _

theorem prepareTarget_repeats {request : BulkUpdate} (expected : Option UInt64)
    (about : request.target = none → reference ∈ joined)
    : (k.prepareTarget request reference expected).Repeats joined := by
  unfold prepareTarget
  split
  next stays => exact repeats_bind (repeats_joiners _ (about stays) _) fun _ => repeats_pure _
  · refine repeats_bind (loadTarget_repeats _ _) fun stored => ?_
    split
    · exact repeats_reject _
    · exact repeats_pure _

theorem prepareUpdate_repeats {request : BulkUpdate}
    (own : request.multiple.reference = some reference)
    (about : request.target = none → reference ∈ joined)
    : (k.prepareUpdate request).Repeats joined := by
  unfold prepareUpdate
  simp only [own]
  refine repeats_bind (repeats_check _) fun _ => ?_
  exact repeats_bind (expectedVersion_repeats _) fun expected => prepareTarget_repeats _ about

/-- A request whose multiple carries a reference comes to the same work on all stores that answer
alike; without a target they have to answer alike about the joiners of that multiple.
-/
theorem prepare_repeats {request : RoundRequest}
    (own : request.multiple.reference = some reference)
    (about : request.target? = none → reference ∈ joined)
    : (k.prepare request).Repeats joined := by
  cases request with
  | create request => exact prepareCreation_repeats own (about rfl)
  | update request => exact prepareUpdate_repeats own about

end Coordinator

end CaseGrouping
