import CaseGrouping.Api.Body
import CaseGrouping.Api.Error
import CaseGrouping.SearchCriteria
import CaseGrouping.CaseScope
import CaseGrouping.Proofs.Json.Reading
import CaseGrouping.Proofs.Json.Recovery

/-! The written forms of cases, multiples, changes, filters, scopes, failures, errors and answers.
What was read from any text is read again from the compact text of it.
-/

namespace CaseGrouping

open Json

variable {depth : Nat}

/-- What the decoder of a type finds at a depth it finds again in the written form. -/
abbrev FormRecovers (α : Type) [Form α] (depth : Nat) : Prop :=
  Recovers (Form.decoder (α := α)) depth Form.toValue

theorem Reference.decoder_ofValue {kind : ReferenceKind} (r : Reference kind)
    : Form.decoder depth (.ofValue (Form.toValue r)) = .ok r :=
  Decode.parsed_ofValue r.ofText?_text

theorem Reference.recovers {kind : ReferenceKind} : FormRecovers (Reference kind) depth :=
  fun _ r _ => r.decoder_ofValue

theorem CaseStatus.recovers : FormRecovers CaseStatus depth :=
  Decode.recovers_named fun a => by cases a <;> rfl

theorem PropagationMode.recovers : FormRecovers PropagationMode depth :=
  Decode.recovers_named fun a => by cases a <;> rfl

-----------------------------------------------------------------------------------------
-- Fields
-----------------------------------------------------------------------------------------

/-- Fields whose values may be inside an object that is entered with so many levels left. -/
def Fields.Fit (n : Nat) (fields : Fields) : Prop :=
  ∀ e ∈ fields.entries, e.2.Ordered ∧ e.2.depth ≤ n

theorem Fields.decoder_ofValue {fields : Fields} (fit : fields.Fit depth)
    : Fields.decoder (depth + 1) (.ofValue (Form.toValue fields)) = .ok fields := by
  simp only [Form.toValue, Draft.ofValue, Fields.decoder]
  rw [Decode.mapM_ofEntries fun e member => ?each]
  case each =>
    obtain ⟨ordered, within⟩ := fit e member
    simp only [Value.decoder_ofValue e.2 ordered within]
    rfl
  exact congrArg Except.ok (Register.insertAll_entries fields)

theorem Fields.fit_of_decoder {d : Draft} {fields : Fields}
    (found : Fields.decoder depth d = .ok fields)
    : ∃ n, depth = n + 1 ∧ fields.Fit n := by
  cases d with
  | object entries closed =>
      cases depth with
      | zero => cases found
      | succ n =>
          refine ⟨n, rfl, fun e member => ?_⟩
          simp only [Fields.decoder, bind_eq_ok_iff, ite_eq_ok_iff] at found
          obtain ⟨es, each, _, rfl⟩ := found
          have inserted := (Register.mem_insertAll member).resolve_right (by simp [Register.empty])
          obtain ⟨⟨_ | key, d⟩, _, here⟩ := Decode.found_of_mapM each e inserted
          · cases here
          · simp only [bind_eq_ok_iff] at here
            obtain ⟨v, found, same⟩ := here
            cases same
            exact Value.ordered_of_decoder d found
  | _ => cases depth <;> cases found

theorem Fields.recovers : FormRecovers Fields depth := by
  intro d fields found
  obtain ⟨n, rfl, fit⟩ := fit_of_decoder found
  exact decoder_ofValue fit

-----------------------------------------------------------------------------------------
-- Cases and multiples
-----------------------------------------------------------------------------------------

theorem SingleCase.recovers : FormRecovers SingleCase (depth + 2) :=
  Record.recovers_decoder (fun n levels => by
      obtain rfl : n = depth + 1 := by omega
      exact .both (Record.recovers_required Reference.recovers _) <|
        .both (Record.recovers_elective (by simp [Form.toValue]) Reference.recovers _) <|
        .both (Record.recovers_defaulted Decode.recovers_bool rfl _) <|
        .both (Record.recovers_elective (by simp) Decode.recovers_string _) <|
        .both (Record.recovers_defaulted CaseStatus.recovers rfl _) <|
        Record.recovers_defaulted Fields.recovers rfl _)
    fun _ => rfl

theorem Member.recovers : FormRecovers Member depth :=
  Record.recovers_decoder (fun _ _ =>
      .both (Record.recovers_required Reference.recovers _) <|
      .both (Record.recovers_defaulted Decode.recovers_bool rfl _) <|
      Record.recovers_elective (by simp) Decode.recovers_string _)
    fun _ => rfl

theorem Multiple.recovers : FormRecovers Multiple (depth + 2) :=
  Record.recovers_decoder (fun n levels => by
      obtain rfl : n = depth + 1 := by omega
      have members : Recovers (Decode.list (Form.decoder (α := Member))) (depth + 1) _ :=
        Decode.recovers_list fun _ _ => Member.recovers
      have cases : Recovers (Decode.list (Form.decoder (α := CaseReference))) (depth + 1) _ :=
        Decode.recovers_list fun _ _ => Reference.recovers
      exact .both (Record.recovers_elective (by simp [Form.toValue]) Reference.recovers _) <|
        .both (Record.recovers_required Decode.recovers_string _) <|
        .both (Record.recovers_defaulted members rfl _) <|
        .both (Record.recovers_defaulted cases rfl _) <|
        .both (Record.recovers_defaulted Decode.recovers_natural rfl _) <|
        .both (Record.recovers_defaulted cases rfl _) <|
        Record.recovers_elective (by simp) Decode.recovers_word _)
    fun _ => rfl

-----------------------------------------------------------------------------------------
-- Changes
-----------------------------------------------------------------------------------------

/-- An object of a kind and the content of it is decoded by the content. -/
theorem MembershipChange.decoder_kind {kind : String} {v : Value} {c : MembershipChange}
    (word : kindWord? kind = some kind) (content : contentDecoder kind depth (.ofValue v) = .ok c)
    : MembershipChange.decoder (depth + 1)
        (.ofValue (.object [("kind", .string kind), ("multiple_reference", v)])) = .ok c := by
  have named : Decode.named kindWord? depth (.string (some kind)) = .ok kind :=
    Decode.choice_plain word
  simp [Draft.ofValue, Draft.ofEntries, MembershipChange.decoder, Parts.add, named, content, bind,
    Except.bind, pure, Except.pure, Parts.change?]

theorem MembershipChange.decoder_ofValue (c : MembershipChange)
    : MembershipChange.decoder (depth + 1) (.ofValue (Form.toValue c)) = .ok c := by
  cases c with
  | keep => rfl
  | attach multiple => exact decoder_kind rfl (congrArg (Except.map _) multiple.decoder_ofValue)
  | detach multiple => exact decoder_kind rfl (congrArg (Except.map _) multiple.decoder_ofValue)

namespace ChangeSet

variable {n : Nat} {c : ChangeSet}

theorem decoder_ofValue (fit : c.fields.Fit n)
    : Form.decoder (n + 2) (.ofValue (Form.toValue c)) = .ok c := by
  have lead : Decode.optional Decode.bool (n + 1) (.ofValue (.orNull (c.lead.map .bool)))
      = .ok c.lead :=
    Decode.optional_orNull (by simp) (fun _ => rfl) _
  have subGroup : Decode.optional Decode.string (n + 1)
      (.ofValue (.orNull (c.subGroup.map .string))) = .ok c.subGroup :=
    Decode.optional_orNull (by simp) (fun _ => rfl) _
  exact Record.Fills.decoder <| .map (a := (_, _, _, _)) _ <|
    .both (Record.fills_field c.membership.decoder_ofValue) <|
    .both (Record.fills_field lead) <|
    .both (Record.fills_field subGroup) <|
    Record.fills_field (Fields.decoder_ofValue fit)

/-- Fields that were found in a change are two levels further down. -/
theorem fit_of_decoder {d : Draft} (found : Form.decoder depth d = .ok c)
    : ∃ n, depth = n + 2 ∧ c.fields.Fit n := by
  obtain ⟨m, rfl, gives⟩ := Record.gives_of_decoder found
  obtain ⟨parts, given, rfl⟩ := gives.origin
  obtain ⟨d, found⟩ := (Record.found_of_field given.sides.2.sides.2.sides.2).resolve_right (by simp)
  obtain ⟨n, rfl, fit⟩ := Fields.fit_of_decoder found
  exact ⟨n, rfl, fit⟩

theorem recovers : FormRecovers ChangeSet depth := by
  intro d c found
  obtain ⟨n, rfl, fit⟩ := fit_of_decoder found
  exact decoder_ofValue fit

end ChangeSet

-----------------------------------------------------------------------------------------
-- Filters, scopes and failures
-----------------------------------------------------------------------------------------

theorem SearchCriteria.recovers : FormRecovers SearchCriteria depth := by
  refine Record.recovers_tagged fun n _ word r a chosen gives => ?_
  unfold record? at chosen
  split at chosen <;> cases chosen
  case h_1 =>
    obtain ⟨cases, given, rfl⟩ := gives.origin
    have list : Recovers (Decode.list (Form.decoder (α := CaseReference))) n _ :=
      Decode.recovers_list fun _ _ => Reference.recovers
    exact ⟨_, _, (Record.recovers_required list _ cases given).map _, by decide, rfl⟩
  case h_2 =>
    obtain ⟨multiple, given, rfl⟩ := gives.origin
    exact ⟨_, _, (Record.recovers_required Reference.recovers _ multiple given).map _, by decide,
      rfl⟩

theorem CaseScope.recovers : FormRecovers CaseScope depth :=
  Record.recovers_decoder (fun _ _ =>
      .both (Record.recovers_required Decode.recovers_string _) <|
      .both (Record.recovers_required Decode.recovers_string _) <|
      Record.recovers_required Decode.recovers_string _)
    fun _ => rfl

theorem Failure.recovers : FormRecovers Failure depth :=
  Record.recovers_decoder (fun _ _ =>
      .both (Record.recovers_required Reference.recovers _) <|
      Record.recovers_required Decode.recovers_string _)
    fun _ => rfl

-----------------------------------------------------------------------------------------
-- Errors
-----------------------------------------------------------------------------------------

namespace ValidationError

variable {name : String} {r : Record ValidationError}

/-- Each kind of error with a content finds its errors again in what is written of the content. -/
theorem record?_recovers (chosen : record? name = some r)
    : ∃ keys, r.Recovers keys depth content := by
  have text : Recovers Decode.string depth .string := Decode.recovers_string
  have count : Recovers Decode.natural depth .natural := Decode.recovers_natural
  have texts : Recovers (Decode.list Decode.string) depth _ :=
    Decode.recovers_list fun _ _ => Decode.recovers_string
  have failures : Recovers (Decode.list (Form.decoder (α := Failure))) depth _ :=
    Decode.recovers_list fun _ _ => Failure.recovers
  unfold record? at chosen
  split at chosen <;> cases chosen
  case h_1 =>
    exact ⟨_, .map (.both (Record.recovers_required text _) (Record.recovers_required text _))
      fun _ => rfl⟩
  case h_2 =>
    exact ⟨_, .map (.both (Record.recovers_required text _) (Record.recovers_required texts _))
      fun _ => rfl⟩
  case h_3 =>
    exact ⟨_, .map (.both (Record.recovers_required text _) <|
        .both (Record.recovers_required count _) <|
        .both (Record.recovers_required count _) (Record.recovers_required count _))
      fun _ => rfl⟩
  case h_4 => exact ⟨_, .map (Record.recovers_required text _) fun _ => rfl⟩
  case h_5 => exact ⟨_, .map (Record.recovers_required failures _) fun _ => rfl⟩
  case h_6 =>
    exact ⟨_, .map (.both (Record.recovers_required text _) (Record.recovers_required text _))
      fun _ => rfl⟩

/-- The name of a kind of error with a content is the name of its errors and of none without. -/
theorem name_of_gives {e : ValidationError} (chosen : record? name = some r)
    (gives : r.Gives depth e)
    : e.name = name ∧ plain? name = none ∧ e.content ≠ [] := by
  unfold record? at chosen
  split at chosen <;> cases chosen <;> obtain ⟨a, _, rfl⟩ := gives.origin
    <;> exact ⟨rfl, rfl, List.cons_ne_nil _ _⟩

/-- An error without content is told by its own name. -/
theorem plain?_name {e : ValidationError} (plain : plain? name = some e)
    : plain? e.name = some e ∧ e.content = [] := by
  have member := List.mem_of_find?_eq_some plain
  simp only [List.mem_cons, List.not_mem_nil, or_false] at member
  rcases member with rfl | rfl | rfl <;> exact ⟨rfl, rfl⟩

theorem recovers : FormRecovers ValidationError depth := by
  intro d e found
  rcases Decode.found_of_choice found with ⟨_, plain⟩ | ⟨n, name, inner, d, rfl, has, found⟩
  · obtain ⟨named, none⟩ := plain?_name plain
    simp only [Form.toValue, none]
    exact Decode.choice_plain named
  · obtain ⟨r, chosen, rfl⟩ := Option.map_eq_some_iff.mp has
    obtain ⟨m, rfl, gives⟩ := Record.gives_of_decoder found
    obtain ⟨rfl, other, _⟩ := name_of_gives chosen gives
    obtain ⟨keys, recovers⟩ := record?_recovers chosen
    have written : Form.toValue e = .object [(e.name, .object e.content)] := by
      simp only [Form.toValue]
    rw [written]
    exact Decode.choice_content other has (recovers e gives).decoder

end ValidationError

namespace Api.ApiError

/-- Details are written only where there are some; null stands for none. -/
theorem recovers_details
    : (Record.defaulted "details" (Decode.optional Value.decoder) none).Recovers ["details"] depth
        fun o => (o.map (("details", ·))).toList := by
  rintro (_ | v) gives
  · exact Record.fills_missing
  · rcases Record.found_of_field gives with ⟨d, found⟩ | ⟨⟨⟩⟩ | ⟨⟨⟩⟩
    have inside := Decode.found_of_optional found
    refine Record.fills_field (Decode.optional_ofValue ?_ (Value.recovers depth d v inside))
    rintro rfl
    rw [Value.eq_null_of_decoder inside] at found
    cases found

theorem recovers : FormRecovers ApiError depth :=
  Record.recovers_decoder (fun _ _ =>
      .both (Record.recovers_required Decode.recovers_string _) <|
      .both (Record.recovers_required Decode.recovers_string _) recovers_details)
    fun _ => rfl

end Api.ApiError

-----------------------------------------------------------------------------------------
-- Answers
-----------------------------------------------------------------------------------------

namespace RoundStatus

theorem record?_recovers : Record.TagRecovers "status" record? depth Form.toValue := by
  intro word r status chosen gives
  unfold record? at chosen
  split at chosen <;> cases chosen
  case h_1 =>
    obtain rfl := Record.eq_of_constant gives
    exact ⟨_, _, Record.fills_constant _, by decide, rfl⟩
  case h_2 =>
    obtain ⟨failed, given, rfl⟩ := gives.origin
    exact ⟨_, _, (Record.recovers_required Decode.recovers_natural _ failed given).map _, by decide,
      rfl⟩

end RoundStatus

namespace RoundResponse

/-- The entries of the written form besides those of the status. -/
def others (r : RoundResponse) : List (String × Value) :=
  [ ("multiple", Form.toValue r.multiple),
    ("moved_to", .orNull (r.movedTo.map Form.toValue)),
    ("failures", .array (r.failures.map Form.toValue)),
    ("mode", Form.toValue r.mode),
    ("enqueued_jobs", .natural r.enqueuedJobs) ]

theorem fills_others {make : RoundStatus → RoundResponse} (gives : record.Gives (depth + 2) make)
    (status : RoundStatus)
    : record.Fills keys (depth + 2) (make status).others make ∧ (make status).status = status := by
  unfold record at gives ⊢
  obtain ⟨parts, given, rfl⟩ := gives.origin
  have failures : Recovers (Decode.list (Form.decoder (α := Failure))) (depth + 2) _ :=
    Decode.recovers_list fun _ _ => Failure.recovers
  have multiple : FormRecovers Multiple (depth + 2) := Multiple.recovers
  have recovers := Record.Recovers.both (Record.recovers_required multiple "multiple") <|
    .both (Record.recovers_nullable (by simp [Form.toValue]) multiple "moved_to") <|
    .both (Record.recovers_required failures "failures") <|
    .both (Record.recovers_required PropagationMode.recovers "mode") <|
    Record.recovers_required Decode.recovers_natural "enqueued_jobs"
  exact ⟨(recovers parts given).map _, rfl⟩

/-- Entries are told apart by whether their keys are those of the fields besides the status. -/
theorem partition_ofEntries {es fs : List (String × Value)} (foreign : ∀ e ∈ es, e.1 ∉ keys)
    (own : ∀ e ∈ fs, e.1 ∈ keys)
    : (Draft.ofEntries (es ++ fs)).partition (fun (key, _) => key.any (· ∈ keys))
      = (Draft.ofEntries fs, Draft.ofEntries es) := by
  have none : ∀ e ∈ Draft.ofEntries es, ¬ e.1.any (· ∈ keys) := by
    rintro ⟨key, d⟩ member
    obtain ⟨e, listed, rfl, _⟩ := Record.mem_ofEntries.mp member
    simpa using foreign e listed
  have all : ∀ e ∈ Draft.ofEntries fs, e.1.any (· ∈ keys) := by
    rintro ⟨key, d⟩ member
    obtain ⟨e, listed, rfl, _⟩ := Record.mem_ofEntries.mp member
    simpa using own e listed
  rw [List.partition_eq_filter_filter, Record.ofEntries_append, List.filter_append,
    List.filter_append, List.filter_eq_nil_iff.mpr none, List.filter_eq_self.mpr all,
    List.filter_eq_self.mpr (by simpa using none), List.filter_eq_nil_iff.mpr (by simpa using all),
    List.nil_append, List.append_nil]

theorem recovers : FormRecovers RoundResponse (depth + 3) := by
  intro d a found
  cases d with
  | object entries closed =>
      simp only [Form.decoder, decoder, bind_eq_ok_iff, pure, Except.pure, Except.ok.injEq] at found
      obtain ⟨make, own, status, tagged, rfl⟩ := found
      obtain ⟨word, r, chosen, gives⟩ := Record.gives_of_ofTaggedEntries tagged
      obtain ⟨names, es, fills, apart, written⟩ :=
        RoundStatus.record?_recovers word r status chosen gives
      obtain ⟨others, kept⟩ := fills_others (Record.gives_of_ofEntries own) status
      have first : status.entries = ("status", .string word) :: es := Value.object.inj written
      have foreign : ∀ e ∈ status.entries, e.1 ∉ keys := by
        cases status <;> simp [RoundStatus.entries, keys]
      have form : Form.toValue (make status) = .object (status.entries ++ (make status).others) :=
        congrArg (fun s => Value.object (RoundStatus.entries s ++ (make status).others)) kept
      rw [form]
      change decoder (depth + 3) (.object (Draft.ofEntries _) true) = _
      rw [decoder, partition_ofEntries foreign others.listed, first]
      have tagged : Record.ofTaggedEntries "status" statusName RoundStatus.record? _ _ true = _ :=
        fills.ofTaggedEntries chosen rfl apart
      simp only [others.ofEntries Record.skipValue, tagged]
      rfl
  | _ => cases found

end RoundResponse

-----------------------------------------------------------------------------------------
-- References
-----------------------------------------------------------------------------------------

/-- A text that is not empty and neither begins nor ends with a blank. -/
structure Bare (s : String) : Prop where
  ne_empty : s ≠ ""
  first : ∀ c ∈ s.toList.head?, Text.isBlank c = false
  last : ∀ c ∈ s.toList.getLast?, Text.isBlank c = false

theorem head?_of_dropWhile_eq {p : Char → Bool} {cs : List Char} (kept : cs.dropWhile p = cs)
    : ∀ c ∈ cs.head?, p c = false := by
  intro c first
  have solid := List.head?_dropWhile_not p cs
  rw [kept, Option.mem_def.mp first] at solid
  exact solid

/-- The text of a reference is bare: trimming has taken nothing from either end. -/
theorem Reference.bare {kind : ReferenceKind} (r : Reference kind) : Bare r.text := by
  have trimmed : ((r.text.toList.dropWhile Text.isBlank).reverse.dropWhile Text.isBlank).reverse
      = r.text.toList := by
    simpa [Text.trim, Text.trimChars] using congrArg String.toList r.trim_text
  have front : r.text.toList.dropWhile Text.isBlank = r.text.toList := by
    refine (List.dropWhile_suffix _).eq_of_length_le ?_
    have shorter := (List.dropWhile_sublist Text.isBlank
      (l := (r.text.toList.dropWhile Text.isBlank).reverse)).length_le
    rw [← List.length_reverse, trimmed, List.length_reverse] at shorter
    exact shorter
  rw [front, List.reverse_eq_iff] at trimmed
  refine ⟨r.text_ne_empty, head?_of_dropWhile_eq front, ?_⟩
  rw [← List.head?_reverse]
  exact head?_of_dropWhile_eq trimmed

/-- A type whose values refer to cases and multiples. -/
class Refers (α : Type) where
  /-- All the references in a value. -/
  references : α → List (Σ kind, Reference kind)

section Refers

instance : Refers SingleCase where
  references c := ⟨_, c.reference⟩ :: (c.multiple.map (⟨_, ·⟩)).toList

instance : Refers Member where
  references m := [⟨_, m.case⟩]

instance : Refers Multiple where
  references m :=
    (m.reference.map (⟨_, ·⟩)).toList ++ m.members.map (⟨_, ·.case⟩)
      ++ (m.collection ++ m.search).map (⟨_, ·⟩)

instance : Refers ChangeSet where
  references c := (c.membership.multiple?.map (⟨_, ·⟩)).toList

instance : Refers SearchCriteria where
  references
    | .references cases => cases.map (⟨_, ·⟩)
    | .multiple multiple => [⟨_, multiple⟩]

instance : Refers CaseScope where
  references _ := []

instance : Refers Failure where
  references f := [⟨_, f.case⟩]

instance : Refers ValidationError where
  references
    | .noEligibleCases failures => failures.flatMap Refers.references
    | _ => []

instance : Refers RoundResponse where
  references r :=
    Refers.references r.multiple ++ r.movedTo.toList.flatMap Refers.references
      ++ r.failures.flatMap Refers.references

instance : Refers Api.ApiError where
  references _ := []

end Refers

-----------------------------------------------------------------------------------------
-- Reading again
-----------------------------------------------------------------------------------------

/-- Whatever text a value was read from, if the numbers that it keeps are integers it is read again
from the text that is written of it; and the references in it are bare.
-/
def ReadsAgain (α : Type) [Form α] [Refers α] : Prop :=
  ∀ (s : String) (a : α), read s = .ok a → (Form.toValue a).Integral
    → read (text a) = .ok a ∧ ∀ r ∈ Refers.references a, Bare r.2.text

theorem FormRecovers.readsAgain {α : Type} [Form α] [Refers α]
    (recovers : FormRecovers α greatestDepth)
    : ReadsAgain α := by
  intro s a reads integral
  obtain ⟨d, found⟩ := found_of_decodeText reads
  exact ⟨(read_text integral).trans (recovers d a found), fun r _ => r.2.bare⟩

/-- Writing and reading are inverse: a value of any of these types is read again from its own text,
whatever order of keys, defaults, escapes or unknown keys it was first read from.
-/
theorem readsAgain_forms
    : ReadsAgain SingleCase ∧ ReadsAgain Member ∧ ReadsAgain Multiple ∧ ReadsAgain ChangeSet
      ∧ ReadsAgain SearchCriteria ∧ ReadsAgain CaseScope ∧ ReadsAgain Failure
      ∧ ReadsAgain ValidationError ∧ ReadsAgain RoundResponse ∧ ReadsAgain Api.ApiError :=
  ⟨FormRecovers.readsAgain SingleCase.recovers, FormRecovers.readsAgain Member.recovers,
    FormRecovers.readsAgain Multiple.recovers, FormRecovers.readsAgain ChangeSet.recovers,
    FormRecovers.readsAgain SearchCriteria.recovers, FormRecovers.readsAgain CaseScope.recovers,
    FormRecovers.readsAgain Failure.recovers, FormRecovers.readsAgain ValidationError.recovers,
    FormRecovers.readsAgain RoundResponse.recovers, FormRecovers.readsAgain Api.ApiError.recovers⟩

namespace Sample

/-- A case with a padded reference that is written with an escape, after its fields and a key that
nothing knows; lead flag, tag and status are left to their defaults.
-/
def disordered : String :=
  "\x7b\"fields\":\x7b\"b\":[1,\x7b\x7d],\"a\":-7\x7d,\"seen\":[2.5],"
    ++ "\"case_reference\":\" 1\\u002F24 \"\x7d"

/-- The case that is read. -/
def ordered : SingleCase where
  reference := ⟨"1/24", by decide, by decide⟩
  fields := ⟨[("a", .number (.negative 6)), ("b", .array [.natural 1, .object []])], by decide⟩

theorem again_of_disordered
    : read disordered = .ok ordered ∧ (Form.toValue ordered).Integral
      ∧ read (text ordered) = .ok ordered := by
  have reads : read disordered = .ok ordered := by decide +kernel
  have integral : (Form.toValue ordered).Integral := by
    simp [Form.toValue, Value.Integral, Value.IntegralEntries, Value.IntegralItems, Value.orNull,
      Value.natural, ordered]
  exact ⟨reads, integral, (readsAgain_forms.1 disordered ordered reads integral).1⟩

end Sample

end CaseGrouping
