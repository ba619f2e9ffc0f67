import CaseGrouping.Json.Record
import CaseGrouping.Proofs.Json.Nesting

/-! Decoders that find again, in what is written of a value, the value that they gave.
A record does so if each of its fields does; a field that was not there is written with its default.
-/

namespace CaseGrouping.Json

variable {α β : Type} {depth : Nat}

/-- Whatever the decoder gives at a depth it finds again in what is written of it. -/
def Recovers (decoder : Decoder α) (depth : Nat) (write : α → Value) : Prop :=
  ∀ d a, decoder depth d = .ok a → decoder depth (.ofValue (write a)) = .ok a

theorem found_of_decodeText {decoder : Decoder α} {s : String} {a : α}
    (decodes : decodeText decoder s = .ok a)
    : ∃ d, decoder greatestDepth d = .ok a := by
  simp only [decodeText, bind_eq_ok_iff, ite_eq_ok_iff] at decodes
  obtain ⟨_, found, _, rfl⟩ := decodes
  exact ⟨_, found⟩

theorem Value.recovers (depth : Nat) : Recovers Value.decoder depth id :=
  fun _ _ found => decoder_ofValue_iff.mpr (ordered_of_decoder _ found)

-----------------------------------------------------------------------------------------
-- Values of one shape
-----------------------------------------------------------------------------------------

namespace Decode

theorem recovers_string : Recovers string depth .string :=
  fun _ _ _ => rfl

theorem recovers_bool : Recovers bool depth .bool :=
  fun _ _ _ => rfl

theorem recovers_word : Recovers word depth fun n => .number (.natural n) :=
  fun _ _ _ => rfl

theorem natural_ofValue {n : Nat} (small : n < 2 ^ 64)
    : natural depth (.ofValue (.natural n)) = .ok n :=
  congrArg Except.ok (UInt64.toNat_ofNat_of_lt' small)

theorem recovers_natural : Recovers natural depth .natural := by
  intro d n found
  obtain ⟨w, _, rfl⟩ := map_eq_ok_iff.mp found
  exact natural_ofValue w.toNat_lt

theorem parsed_ofValue {parse : String → Option α} {s : String} {a : α} (reads : parse s = some a)
    : parsed parse depth (.ofValue (.string s)) = .ok a := by
  simp [parsed, Draft.ofValue, string, bind, Except.bind, reads]

theorem recovers_named {choose : String → Option α} {word : α → String}
    (reads : ∀ a, choose (word a) = some a)
    : Recovers (named choose) depth fun a => .string (word a) := by
  intro d a _
  simp [named, Draft.ofValue, choice, reads]

theorem optional_ofValue {inner : Decoder α} {v : Value} {a : α} (solid : v ≠ .null)
    (found : inner depth (.ofValue v) = .ok a)
    : optional inner depth (.ofValue v) = .ok (some a) := by
  cases v with
  | null => exact absurd rfl solid
  | _ => exact map_eq_ok_iff.mpr ⟨a, found, rfl⟩

theorem optional_orNull {inner : Decoder α} {write : α → Value} (solid : ∀ a, write a ≠ .null)
    (finds : ∀ a, inner depth (.ofValue (write a)) = .ok a) (o : Option α)
    : optional inner depth (.ofValue (.orNull (o.map write))) = .ok o := by
  cases o with
  | none => rfl
  | some a => exact optional_ofValue (solid a) (finds a)

theorem found_of_optional {inner : Decoder α} {d : Draft} {a : α}
    (found : optional inner depth d = .ok (some a))
    : inner depth d = .ok a := by
  cases d with
  | null => cases found
  | _ =>
      obtain ⟨b, inside, same⟩ := map_eq_ok_iff.mp found
      exact Option.some.inj same ▸ inside

theorem recovers_optional {inner : Decoder α} {write : α → Value} (solid : ∀ a, write a ≠ .null)
    (recovers : Recovers inner depth write)
    : Recovers (optional inner) depth fun o => .orNull (o.map write) := by
  rintro d (_ | a) found
  · rfl
  · exact optional_ofValue (solid a) (recovers _ _ (found_of_optional found))

/-- A list is found in the array of what is written of its items, by induction on the items. -/
theorem list_ofValue {inner : Decoder α} {write : α → Value} {as : List α}
    (each : ∀ a ∈ as, inner depth (.ofValue (write a)) = .ok a)
    : list inner (depth + 1) (.ofValue (.array (as.map write))) = .ok as := by
  have items : (Draft.ofItems (as.map write)).mapM (inner depth) = .ok as := by
    induction as with
    | nil => rfl
    | cons a as ih =>
        rw [List.map_cons, Draft.ofItems, List.mapM_cons, each a (by simp),
          ih fun b member => each b (by simp [member])]
        rfl
  rw [Draft.ofValue, list, items]
  rfl

/-- Entries are found in their drafts if each of them is, by induction on the entries. -/
theorem mapM_ofEntries {es : List (String × Value)}
    {f : Option String × Draft → Except Fault (String × Value)}
    (each : ∀ e ∈ es, f (some e.1, .ofValue e.2) = .ok e)
    : (Draft.ofEntries es).mapM f = .ok es := by
  induction es with
  | nil => rfl
  | cons e es ih =>
      rw [Draft.ofEntries, List.mapM_cons, each e (by simp),
        ih fun b member => each b (by simp [member])]
      rfl

/-- Each item of a list was found, by induction on the drafts. -/
theorem found_of_mapM {f : β → Except Fault α} {items : List β} {as : List α}
    (found : items.mapM f = .ok as)
    : ∀ a ∈ as, ∃ d ∈ items, f d = .ok a := by
  induction items generalizing as with
  | nil => cases found; simp
  | cons d items ih =>
      simp only [List.mapM_cons, bind_eq_ok_iff, pure, Except.pure, Except.ok.injEq] at found
      obtain ⟨a, first, others, rest, rfl⟩ := found
      rintro b (_ | ⟨_, member⟩)
      · exact ⟨d, by simp, first⟩
      · obtain ⟨e, later, here⟩ := ih rest b member
        exact ⟨e, by simp [later], here⟩

theorem found_of_list {inner : Decoder α} {d : Draft} {as : List α}
    (found : list inner depth d = .ok as)
    : ∃ n, depth = n + 1 ∧ ∀ a ∈ as, ∃ d, inner n d = .ok a := by
  cases d with
  | array items closed =>
      cases depth with
      | zero => cases found
      | succ n =>
          simp only [list, bind_eq_ok_iff, ite_eq_ok_iff] at found
          obtain ⟨as, items, _, rfl⟩ := found
          refine ⟨n, rfl, fun a member => ?_⟩
          obtain ⟨d, _, here⟩ := found_of_mapM items a member
          exact ⟨d, here⟩
  | _ => cases depth <;> cases found

theorem recovers_list {inner : Decoder α} {write : α → Value}
    (recovers : ∀ n, depth = n + 1 → Recovers inner n write)
    : Recovers (list inner) depth fun as => .array (as.map write) := by
  intro d as found
  obtain ⟨n, rfl, each⟩ := found_of_list found
  refine list_ofValue fun a member => ?_
  obtain ⟨d, here⟩ := each a member
  exact recovers n rfl d a here

theorem found_of_choice {plain : String → Option α} {content : String → Option (Decoder α)}
    {d : Draft} {a : α} (found : choice plain content depth d = .ok a)
    : (∃ name, plain name = some a)
      ∨ ∃ n name inner d, depth = n + 1 ∧ content name = some inner ∧ inner n d = .ok a := by
  unfold choice at found
  split at found
  next name =>
    cases chosen : plain name <;> simp only [chosen] at found <;> cases found
    exact .inl ⟨name, chosen⟩
  next n name d rest closed =>
    cases chosen : plain name with
    | some b =>
        simp only [chosen] at found
        cases d <;> simp only [bind_eq_ok_iff, ite_eq_ok_iff, reduceCtorEq, false_and, exists_false,
          Except.ok.injEq, exists_eq_left'] at found
        exact .inl ⟨name, found.2 ▸ chosen⟩
    | none =>
        cases has : content name with
        | none => simp [chosen, has, bind_eq_ok_iff] at found
        | some inner =>
            simp only [chosen, has, bind_eq_ok_iff, ite_eq_ok_iff] at found
            obtain ⟨b, found, _, rfl⟩ := found
            exact .inr ⟨n, name, inner, d, rfl, has, found⟩
  next => cases found

theorem choice_plain {plain : String → Option α} {content : String → Option (Decoder α)}
    {name : String} {a : α} (chosen : plain name = some a)
    : choice plain content depth (.ofValue (.string name)) = .ok a := by
  simp [Draft.ofValue, choice, chosen]

theorem choice_content {plain : String → Option α} {content : String → Option (Decoder α)}
    {name : String} {inner : Decoder α} {v : Value} {a : α} (other : plain name = none)
    (chosen : content name = some inner) (found : inner depth (.ofValue v) = .ok a)
    : choice plain content (depth + 1) (.ofValue (.object [(name, v)])) = .ok a := by
  simp [Draft.ofValue, Draft.ofEntries, choice, other, chosen, found, bind, Except.bind]

end Decode

-----------------------------------------------------------------------------------------
-- What a record gives
-----------------------------------------------------------------------------------------

namespace Record

variable {r : Record α} {q : Record β}

/-- Slots that entries of some object have filled. -/
inductive Filled (r : Record α) (depth : Nat) : r.Slots → Prop
  | empty : Filled r depth r.empty
  | put {slots more : r.Slots} {key : String} {f : Decoder r.Slots} {d : Draft}
      (filled : Filled r depth slots) (has : r.put slots key = some f)
      (found : f depth d = .ok more)
      : Filled r depth more

/-- The record gives the value, from an object or from an array. -/
def Gives (r : Record α) (depth : Nat) (a : α) : Prop :=
  (∃ slots, r.Filled depth slots ∧ r.ofSlots slots = .ok a)
  ∨ ∃ closed items rest, r.ofItems depth closed items = .ok (a, rest)

/-- What fills the slot of a field was found in the entry that has filled it. -/
theorem Filled.found {key : String} {inner : Decoder α} {missing absent : Option α} {a : α}
    {slot : (field key inner missing absent).Slots} (filled : Filled _ depth slot)
    (holds : slot = some a)
    : ∃ d, inner depth d = .ok a := by
  cases filled with
  | empty => cases holds
  | put _ has found =>
      subst holds
      simp only [field] at has
      split at has
      · cases has
        split at found
        · cases found
        · obtain ⟨b, here, same⟩ := map_eq_ok_iff.mp found
          exact ⟨_, Option.some.inj same ▸ here⟩
      · cases has

/-- What a field gives was found, or stands for it where it is not there. -/
theorem found_of_field {key : String} {inner : Decoder α} {missing absent : Option α} {a : α}
    (gives : (field key inner missing absent).Gives depth a)
    : (∃ d, inner depth d = .ok a) ∨ missing = some a ∨ absent = some a := by
  rcases gives with ⟨slots, filled, ofSlots⟩ | ⟨closed, items, rest, ofItems⟩
  · simp only [field] at ofSlots
    cases slots with
    | none =>
        cases missing with
        | none => cases ofSlots
        | some b => cases ofSlots; exact .inr (.inl rfl)
    | some b => cases ofSlots; exact .inl (filled.found rfl)
  · cases items with
    | cons d items =>
        simp only [field, bind_eq_ok_iff, pure, Except.pure, Except.ok.injEq, Prod.mk.injEq]
          at ofItems
        obtain ⟨b, here, rfl, _⟩ := ofItems
        exact .inl ⟨d, here⟩
    | nil =>
        cases closed <;> cases absent <;> cases ofItems
        exact .inr (.inr rfl)

/-- The slots of two records are filled side by side, by induction on the entries. -/
theorem Filled.sides {slots : (both r q).Slots} (filled : (both r q).Filled depth slots)
    : r.Filled depth slots.1 ∧ q.Filled depth slots.2 := by
  induction filled with
  | empty => exact ⟨.empty, .empty⟩
  | put filled has found ih =>
      simp only [both] at has
      split at has
      next f first =>
        cases has
        obtain ⟨s, here, rfl⟩ := map_eq_ok_iff.mp found
        exact ⟨.put ih.1 first here, ih.2⟩
      next =>
        obtain ⟨f, second, rfl⟩ := Option.map_eq_some_iff.mp has
        obtain ⟨s, here, rfl⟩ := map_eq_ok_iff.mp found
        exact ⟨ih.1, .put ih.2 second here⟩

theorem Gives.sides {a : α} {b : β} (gives : (both r q).Gives depth (a, b))
    : r.Gives depth a ∧ q.Gives depth b := by
  rcases gives with ⟨slots, filled, ofSlots⟩ | ⟨closed, items, rest, ofItems⟩
  · simp only [both, bind_eq_ok_iff, pure, Except.pure, Except.ok.injEq, Prod.mk.injEq] at ofSlots
    obtain ⟨_, first, _, second, rfl, rfl⟩ := ofSlots
    exact ⟨.inl ⟨_, filled.sides.1, first⟩, .inl ⟨_, filled.sides.2, second⟩⟩
  · simp only [both, bind_eq_ok_iff, pure, Except.pure, Except.ok.injEq, Prod.mk.injEq] at ofItems
    obtain ⟨⟨_, more⟩, first, ⟨_, most⟩, second, ⟨rfl, rfl⟩, _⟩ := ofItems
    exact ⟨.inr ⟨_, _, _, first⟩, .inr ⟨_, _, _, second⟩⟩

theorem Gives.origin {f : α → β} {b : β} (gives : (r.map f).Gives depth b)
    : ∃ a, r.Gives depth a ∧ f a = b := by
  rcases gives with ⟨slots, filled, ofSlots⟩ | ⟨closed, items, rest, ofItems⟩
  · obtain ⟨a, given, rfl⟩ := map_eq_ok_iff.mp ofSlots
    refine ⟨a, .inl ⟨slots, ?_, given⟩, rfl⟩
    clear ofSlots given
    induction filled with
    | empty => exact .empty
    | put _ has found ih => exact .put ih has found
  · obtain ⟨⟨a, _⟩, given, same⟩ := map_eq_ok_iff.mp ofItems
    exact ⟨a, .inr ⟨_, _, _, given⟩, congrArg Prod.fst same⟩

theorem eq_of_constant {a b : α} (gives : (constant a).Gives depth b) : b = a := by
  rcases gives with ⟨_, _, ofSlots⟩ | ⟨_, _, _, ofItems⟩
  · cases ofSlots; rfl
  · cases ofItems; rfl

/-- What comes of the entries of an object is given by the record, by induction on the entries. -/
theorem gives_of_ofEntries {skip : Nat → Draft → Bool} {entries : List (Option String × Draft)}
    {closed : Bool} {a : α} (found : r.ofEntries skip depth entries closed = .ok a)
    : r.Gives depth a := by
  have fill : ∀ (entries : List (Option String × Draft)) (slots more : r.Slots),
      r.Filled depth slots → entries.foldlM (r.putEntry skip depth) slots = .ok more
      → r.Filled depth more := by
    intro entries
    induction entries with
    | nil => rintro slots _ filled ⟨⟩; exact filled
    | cons e entries ih =>
        intro slots more filled found
        rw [List.foldlM_cons, bind_eq_ok_iff] at found
        obtain ⟨next, put, rest⟩ := found
        refine ih next more ?_ rest
        obtain ⟨_ | key, d⟩ := e
        · cases put
        · simp only [putEntry] at put
          split at put
          next f has => exact .put filled has put
          next =>
            obtain ⟨_, rfl⟩ := ite_eq_ok_iff.mp put
            exact filled
  simp only [ofEntries, bind_eq_ok_iff] at found
  obtain ⟨slots, put, found⟩ := found
  cases closed with
  | false => cases found
  | true => exact .inl ⟨slots, fill _ _ _ .empty put, found⟩

theorem gives_of_ofAllItems {items : List Draft} {closed : Bool} {a : α}
    (found : r.ofAllItems depth items closed = .ok a)
    : r.Gives depth a := by
  simp only [ofAllItems, bind_eq_ok_iff, ite_eq_ok_iff] at found
  obtain ⟨⟨_, rest⟩, given, _, rfl⟩ := found
  exact .inr ⟨_, _, _, given⟩

theorem gives_of_decoder {d : Draft} {a : α} (found : r.decoder depth d = .ok a)
    : ∃ n, depth = n + 1 ∧ r.Gives n a := by
  cases d with
  | object entries closed =>
      cases depth with
      | zero => cases found
      | succ n => exact ⟨n, rfl, gives_of_ofEntries found⟩
  | array items closed =>
      cases depth with
      | zero => cases found
      | succ n => exact ⟨n, rfl, gives_of_ofAllItems found⟩
  | _ => cases depth <;> cases found

section Tagged

variable {tag word : String} {name : Draft → Except Fault String}
  {alternative : String → Option (Record α)}

theorem gives_of_ofTaggedEntries {entries : List (Option String × Draft)} {closed : Bool} {a : α}
    (found : ofTaggedEntries tag name alternative depth entries closed = .ok a)
    : ∃ word r, alternative word = some r ∧ r.Gives depth a := by
  simp only [ofTaggedEntries, bind_eq_ok_iff] at found
  obtain ⟨_, _, word, _, found⟩ := found
  split at found
  next r chosen => exact ⟨word, r, chosen, gives_of_ofEntries found⟩
  next => cases found

theorem gives_of_tagged {d : Draft} {a : α} (found : tagged tag alternative depth d = .ok a)
    : ∃ n word r, depth = n + 1 ∧ alternative word = some r ∧ r.Gives n a := by
  unfold tagged at found
  split at found
  next n entries closed =>
    obtain ⟨word, r, chosen, gives⟩ := gives_of_ofTaggedEntries found
    exact ⟨n, word, r, rfl, chosen, gives⟩
  next n d items closed =>
    simp only [bind_eq_ok_iff] at found
    obtain ⟨word, _, found⟩ := found
    split at found
    next r chosen => exact ⟨n, word, r, rfl, chosen, gives_of_ofAllItems found⟩
    next => cases found
  next => cases found

end Tagged

-----------------------------------------------------------------------------------------
-- What entries fill a record
-----------------------------------------------------------------------------------------

/-- The entries, each under a key of the record, take slots one after the other to other slots. -/
inductive Takes (r : Record α) (depth : Nat) : r.Slots → List (String × Value) → r.Slots → Prop
  | nil (slots : r.Slots) : Takes r depth slots [] slots
  | cons {slots next more : r.Slots} {key : String} {v : Value} {entries : List (String × Value)}
      {f : Decoder r.Slots} (has : r.put slots key = some f)
      (found : f depth (.ofValue v) = .ok next) (rest : Takes r depth next entries more)
      : Takes r depth slots ((key, v) :: entries) more

theorem ofEntries_append (es fs : List (String × Value))
    : Draft.ofEntries (es ++ fs) = Draft.ofEntries es ++ Draft.ofEntries fs := by
  induction es with
  | nil => rfl
  | cons e es ih => simp [Draft.ofEntries, ih]

section Takes

variable {es fs : List (String × Value)}

theorem Takes.foldlM {slots more : r.Slots} (takes : r.Takes depth slots es more)
    (skip : Nat → Draft → Bool)
    : (Draft.ofEntries es).foldlM (r.putEntry skip depth) slots = .ok more := by
  induction takes with
  | nil slots => rfl
  | cons has found _ ih =>
      rw [Draft.ofEntries, List.foldlM_cons, putEntry]
      simp only [has, found]
      exact ih

theorem Takes.append {slots next more : r.Slots} (first : r.Takes depth slots es next)
    (second : r.Takes depth next fs more)
    : r.Takes depth slots (es ++ fs) more := by
  induction first with
  | nil => exact second
  | cons has found _ ih => exact .cons has found (ih second)

/-- Entries of the first of two records leave the slots of the second alone. -/
theorem Takes.first {slots more : r.Slots} (takes : r.Takes depth slots es more) (t : q.Slots)
    : (both r q).Takes depth (slots, t) es (more, t) := by
  induction takes with
  | nil => exact .nil _
  | @cons slots next _ _ _ _ f has found _ ih =>
      refine .cons (f := fun depth d => (f depth d).map (·, t)) ?_ ?_ ih
      · simp [both, has]
      · exact congrArg (Except.map _) found

/-- Entries that are none of the first of two records go to the second. -/
theorem Takes.second {t more : q.Slots} (takes : q.Takes depth t es more) (s : r.Slots)
    (foreign : ∀ e ∈ es, r.put s e.1 = none)
    : (both r q).Takes depth (s, t) es (s, more) := by
  induction takes with
  | nil => exact .nil _
  | @cons _ _ _ _ _ _ f has found _ ih =>
      refine .cons (f := fun depth d => (f depth d).map (s, ·)) ?_ ?_
        (ih fun e member => foreign e (by simp [member]))
      · simp [both, has, foreign _ (List.mem_cons_self)]
      · exact congrArg (Except.map _) found

theorem Takes.map {slots more : r.Slots} (takes : r.Takes depth slots es more) (f : α → β)
    : (r.map f).Takes depth slots es more := by
  induction takes with
  | nil => exact .nil _
  | cons has found _ ih => exact .cons has found ih

end Takes

/-- The record has the given keys, and the entries, all under keys of the record, give the value. -/
structure Fills (r : Record α) (keys : List String) (depth : Nat) (entries : List (String × Value))
    (a : α) : Prop where
  keyed : ∀ slots key, (r.put slots key).isSome = decide (key ∈ keys)
  listed : ∀ e ∈ entries, e.1 ∈ keys
  filled : ∃ slots, r.Takes depth r.empty entries slots ∧ r.ofSlots slots = .ok a

theorem isSome_put_field {key : String} {inner : Decoder α} {missing absent : Option α}
    (slots : (field key inner missing absent).Slots) (name : String)
    : ((field key inner missing absent).put slots name).isSome = decide (name ∈ [key]) := by
  by_cases here : name = key <;> simp [field, here]

theorem fills_field {key : String} {inner : Decoder α} {missing absent : Option α} {v : Value}
    {a : α} (found : inner depth (.ofValue v) = .ok a)
    : (field key inner missing absent).Fills [key] depth [(key, v)] a where
  keyed := isSome_put_field
  listed := by simp
  filled := by
    have has : (field key inner missing absent).put none key
        = some fun depth d => (inner depth d).map some :=
      if_pos rfl
    exact ⟨some a, .cons has (congrArg (Except.map some) found) (.nil _), rfl⟩

theorem fills_missing {key : String} {inner : Decoder α} {absent : Option α} {a : α}
    : (field key inner (some a) absent).Fills [key] depth [] a where
  keyed := isSome_put_field
  listed := by simp
  filled := ⟨none, .nil _, rfl⟩

theorem fills_constant (a : α) : (constant a).Fills [] depth [] a where
  keyed _ _ := rfl
  listed := by simp
  filled := ⟨(), .nil _, rfl⟩

theorem Fills.both {keys others : List String} {es fs : List (String × Value)} {a : α} {b : β}
    (first : r.Fills keys depth es a) (second : q.Fills others depth fs b)
    (apart : ∀ key ∈ others, key ∉ keys := by decide)
    : (both r q).Fills (keys ++ others) depth (es ++ fs) (a, b) where
  keyed slots key := by
    have here := first.keyed slots.1 key
    have there := second.keyed slots.2 key
    cases has : r.put slots.1 key <;> simp_all [Record.both]
  listed e member := by
    rcases List.mem_append.mp member with member | member
    · exact List.mem_append_left _ (first.listed e member)
    · exact List.mem_append_right _ (second.listed e member)
  filled := by
    obtain ⟨s, takes, given⟩ := first.filled
    obtain ⟨t, takes', given'⟩ := second.filled
    have foreign : ∀ e ∈ fs, r.put s e.1 = none := fun e member => by
      simpa [apart _ (second.listed e member)] using first.keyed s e.1
    refine ⟨(s, t), (takes.first q.empty).append (takes'.second s foreign), ?_⟩
    simp only [Record.both, given, given']
    rfl

theorem Fills.map {keys : List String} {es : List (String × Value)} {a : α} (f : α → β)
    (fills : r.Fills keys depth es a)
    : (r.map f).Fills keys depth es (f a) where
  keyed := fills.keyed
  listed := fills.listed
  filled := by
    obtain ⟨slots, takes, given⟩ := fills.filled
    exact ⟨slots, takes.map f, congrArg (Except.map f) given⟩

theorem Fills.ofEntries {keys : List String} {es : List (String × Value)} {a : α}
    (fills : r.Fills keys depth es a) (skip : Nat → Draft → Bool)
    : r.ofEntries skip depth (Draft.ofEntries es) true = .ok a := by
  obtain ⟨slots, takes, given⟩ := fills.filled
  rw [Record.ofEntries, takes.foldlM skip]
  exact given

theorem Fills.decoder {keys : List String} {es : List (String × Value)} {a : α}
    (fills : r.Fills keys depth es a)
    : r.decoder (depth + 1) (.ofValue (.object es)) = .ok a :=
  fills.ofEntries skipAny

theorem mem_ofEntries {es : List (String × Value)} {key : Option String} {d : Draft}
    : (key, d) ∈ Draft.ofEntries es ↔ ∃ e ∈ es, key = some e.1 ∧ d = .ofValue e.2 := by
  induction es with
  | nil => simp [Draft.ofEntries]
  | cons e es ih => simp [Draft.ofEntries, ih]

/-- The entries of an alternative are found after its tag, which is none of their keys. -/
theorem Fills.ofTaggedEntries {keys : List String} {es : List (String × Value)} {a : α}
    (fills : r.Fills keys depth es a) {tag word : String} {name : Draft → Except Fault String}
    {alternative : String → Option (Record α)} (chosen : alternative word = some r)
    (named : name (.string (some word)) = .ok word) (apart : tag ∉ keys)
    : Record.ofTaggedEntries tag name alternative depth
        (Draft.ofEntries ((tag, .string word) :: es)) true = .ok a := by
  have foreign : ∀ e ∈ Draft.ofEntries es, e.1 ≠ some tag := by
    rintro ⟨key, d⟩ member rfl
    obtain ⟨e, member, same, _⟩ := mem_ofEntries.mp member
    exact apart (Option.some.inj same ▸ fills.listed e member)
  have split : splitTag tag (Draft.ofEntries ((tag, .string word) :: es))
      = .ok (.string (some word), Draft.ofEntries es) := by
    rw [splitTag, Draft.ofEntries, List.filter_cons_of_pos (by simp),
      List.filter_eq_nil_iff.mpr ?own]
    case own => exact fun e member => by simpa using foreign e member
    simp only [Draft.ofValue]
    rw [List.filter_cons_of_neg (by simp), List.filter_eq_self.mpr ?others]
    case others => exact fun e member => by simpa using foreign e member
  rw [Record.ofTaggedEntries, split]
  simp only [bind, Except.bind, named, chosen]
  exact fills.ofEntries skipValue

-----------------------------------------------------------------------------------------
-- Records that find their values again
-----------------------------------------------------------------------------------------

/-- Whatever the record gives at a depth is given by the entries written of it. -/
def Recovers (r : Record α) (keys : List String) (depth : Nat)
    (write : α → List (String × Value)) : Prop :=
  ∀ a, r.Gives depth a → r.Fills keys depth (write a) a

section Fields

variable {inner : Decoder α} {write : α → Value}

theorem recovers_field {missing absent : Option α} (recovers : Json.Recovers inner depth write)
    (default : ∀ a, missing = some a ∨ absent = some a → inner depth (.ofValue (write a)) = .ok a)
    (key : String)
    : (field key inner missing absent).Recovers [key] depth fun a => [(key, write a)] :=
  fun a gives => fills_field <| by
    rcases found_of_field gives with ⟨d, found⟩ | stands
    · exact recovers d a found
    · exact default a stands

theorem recovers_required (recovers : Json.Recovers inner depth write) (key : String)
    : (required key inner).Recovers [key] depth fun a => [(key, write a)] :=
  recovers_field recovers (by simp) key

theorem recovers_defaulted {value : α} (recovers : Json.Recovers inner depth write)
    (default : inner depth (.ofValue (write value)) = .ok value) (key : String)
    : (defaulted key inner value).Recovers [key] depth fun a => [(key, write a)] :=
  recovers_field recovers (by simpa using default) key

theorem recovers_nullable (solid : ∀ a, write a ≠ .null)
    (recovers : Json.Recovers inner depth write) (key : String)
    : (nullable key inner).Recovers [key] depth fun o => [(key, .orNull (o.map write))] :=
  recovers_field (Decode.recovers_optional solid recovers) (by rintro a (⟨⟨⟩⟩ | ⟨⟨⟩⟩); rfl) key

theorem recovers_elective (solid : ∀ a, write a ≠ .null)
    (recovers : Json.Recovers inner depth write) (key : String)
    : (elective key inner).Recovers [key] depth fun o => [(key, .orNull (o.map write))] :=
  recovers_defaulted (Decode.recovers_optional solid recovers) rfl key

end Fields

variable {keys others : List String}

theorem Recovers.both {write : α → List (String × Value)} {write' : β → List (String × Value)}
    (first : r.Recovers keys depth write) (second : q.Recovers others depth write')
    (apart : ∀ key ∈ others, key ∉ keys := by decide)
    : (Record.both r q).Recovers (keys ++ others) depth fun p => write p.1 ++ write' p.2 :=
  fun (a, b) gives => (first a gives.sides.1).both (second b gives.sides.2) apart

theorem Recovers.map {f : α → β} {write : α → List (String × Value)}
    {write' : β → List (String × Value)} (recovers : r.Recovers keys depth write)
    (same : ∀ a, write' (f a) = write a)
    : (r.map f).Recovers keys depth write' := by
  intro b gives
  obtain ⟨a, given, rfl⟩ := gives.origin
  rw [same]
  exact (recovers a given).map f

/-- A record that finds its values again makes a decoder that does. -/
theorem recovers_decoder {f : α → β} {write : α → List (String × Value)} {toValue : β → Value}
    (recovers : ∀ n, depth = n + 1 → r.Recovers keys n write)
    (same : ∀ a, toValue (f a) = .object (write a))
    : Json.Recovers (r.map f).decoder depth toValue := by
  intro d b found
  obtain ⟨n, rfl, gives⟩ := gives_of_decoder found
  obtain ⟨a, given, rfl⟩ := gives.origin
  rw [same]
  exact ((recovers n rfl a given).map f).decoder

-----------------------------------------------------------------------------------------
-- Alternatives that find their values again
-----------------------------------------------------------------------------------------

section Tagged

variable {tag : String} {alternative : String → Option (Record α)} {toValue : α → Value}

/-- Whatever an alternative gives at a depth is given by what is written of it after its tag. -/
def TagRecovers (tag : String) (alternative : String → Option (Record α)) (depth : Nat)
    (toValue : α → Value) : Prop :=
  ∀ word r a, alternative word = some r → r.Gives depth a →
    ∃ keys es, r.Fills keys depth es a ∧ tag ∉ keys
      ∧ toValue a = .object ((tag, .string word) :: es)

theorem recovers_tagged (recovers : ∀ n, depth = n + 1 → TagRecovers tag alternative n toValue)
    : Json.Recovers (tagged tag alternative) depth toValue := by
  intro d a found
  obtain ⟨n, word, r, rfl, chosen, gives⟩ := gives_of_tagged found
  obtain ⟨keys, es, fills, apart, written⟩ := recovers n rfl word r a chosen gives
  rw [written]
  exact fills.ofTaggedEntries chosen rfl apart

end Tagged

end Record

end CaseGrouping.Json
