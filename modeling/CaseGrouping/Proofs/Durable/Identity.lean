import CaseGrouping.Proofs.Json.ChangeKeys
import CaseGrouping.Proofs.Round.Reachable
import CaseGrouping.Remote.Broker

/-! Which jobs are told apart by their identifiers. The key of an identifier is cut from the right:
the text of a change holds no mark, and the digits of a version hold no sign. The marks before cases
cut it further, unless a reference holds such a mark itself.
-/

namespace CaseGrouping

open Json

-----------------------------------------------------------------------------------------
-- Texts of identifiers
-----------------------------------------------------------------------------------------

namespace Uuid

theorem digitChar_inj : ∀ a < 16, ∀ b < 16, Nat.digitChar a = Nat.digitChar b → a = b := by
  decide

/-- Numbers agree as far as their hexadecimal digits do, by induction on the count of digits. -/
theorem mod_pow_eq {m n : Nat} (k : Nat) (same : ∀ i < k, m / 16 ^ i % 16 = n / 16 ^ i % 16)
    : m % 16 ^ k = n % 16 ^ k := by
  induction k with
  | zero => rw [Nat.pow_zero, Nat.mod_one, Nat.mod_one]
  | succ k ih =>
      rw [Nat.pow_succ, Nat.mod_mul, Nat.mod_mul, ih fun i less => same i (by omega),
        same k (by omega)]

theorem digits_inj {u v : Uuid} (same : u.digits = v.digits) : u = v := by
  have digit : ∀ i < 32, u.value.toNat / 16 ^ i % 16 = v.value.toNat / 16 ^ i % 16 := by
    intro i less
    have place := List.map_inj_left.mp same (31 - i) (List.mem_range.mpr (by omega))
    rw [show 31 - (31 - i) = i by omega] at place
    exact digitChar_inj _ (Nat.mod_lt _ (by omega)) _ (Nat.mod_lt _ (by omega)) place
  have bound (w : Uuid) : w.value.toNat < 16 ^ 32 := w.value.isLt
  have value := mod_pow_eq 32 digit
  rw [Nat.mod_eq_of_lt (bound u), Nat.mod_eq_of_lt (bound v)] at value
  cases u
  cases v
  exact congrArg mk (BitVec.eq_of_toNat_eq value)

/-- The digits are put together again from their groups. -/
theorem groups_append (l : List Char)
    : l.take 8 ++ ((l.drop 8).take 4 ++ ((l.drop 12).take 4 ++ ((l.drop 16).take 4 ++ l.drop 20)))
      = l := by
  have group (k : Nat) : (l.drop k).take 4 ++ l.drop (k + 4) = l.drop k := by
    rw [← List.drop_drop, List.take_append_drop]
  rw [group 16, group 12, group 8, List.take_append_drop]

theorem hyphenate_inj {ds es : List Char} (length : ds.length = es.length)
    (same : hyphenate ds = hyphenate es)
    : ds = es := by
  simp only [hyphenate, List.append_assoc, List.cons_append] at same
  obtain ⟨first, same⟩ := List.append_inj same (by simp [length])
  obtain ⟨second, same⟩ := List.append_inj (List.cons.inj same).2 (by simp [length])
  obtain ⟨third, same⟩ := List.append_inj (List.cons.inj same).2 (by simp [length])
  obtain ⟨fourth, same⟩ := List.append_inj (List.cons.inj same).2 (by simp [length])
  rw [← groups_append ds, first, second, third, fourth, (List.cons.inj same).2, groups_append]

/-- Different identifiers have different texts. -/
theorem text_inj {u v : Uuid} (same : u.text = v.text) : u = v :=
  digits_inj (hyphenate_inj (by simp [digits]) (String.ofList_inj.mp same))

end Uuid

-----------------------------------------------------------------------------------------
-- Cutting a text at its marks
-----------------------------------------------------------------------------------------

section Cuts

variable {mark : Char} {before after before' after' : List Char}

/-- Nothing stands before the last mark of a text that begins with it. -/
theorem nil_of_cut {between : List Char} (none : mark ∉ after)
    (same : mark :: after = between ++ mark :: after')
    : between = [] := by
  cases between with
  | nil => rfl
  | cons c between =>
      refine absurd ?_ none
      rw [(List.cons.inj same).2]
      exact List.mem_append_right _ List.mem_cons_self

/-- A text is cut in one way at the last mark in it. -/
theorem cut_last_inj (none : mark ∉ after) (none' : mark ∉ after')
    (same : before ++ mark :: after = before' ++ mark :: after')
    : before = before' ∧ after = after' := by
  have front : before = before' := by
    rcases List.append_eq_append_iff.mp same with ⟨between, left, right⟩ | ⟨between, left, right⟩
    · rw [left, nil_of_cut none right, List.append_nil]
    · rw [left, nil_of_cut none' right, List.append_nil]
  subst front
  exact ⟨rfl, (List.cons.inj (List.append_cancel_left same)).2⟩

theorem intercalate_cons (head : List Char) (parts : List (List Char))
    : [mark].intercalate (head :: parts) = head ++ parts.flatMap (mark :: ·) := by
  induction parts generalizing head with
  | nil => simp
  | cons part parts ih => simp [List.intercalate_cons_cons, ih]

/-- A text is cut in one way at all marks in it. -/
theorem cut_all_inj {head head' : List Char} {parts parts' : List (List Char)}
    (none : ∀ part ∈ head :: parts, mark ∉ part) (none' : ∀ part ∈ head' :: parts', mark ∉ part)
    (same : head ++ parts.flatMap (mark :: ·) = head' ++ parts'.flatMap (mark :: ·))
    : head = head' ∧ parts = parts' := by
  rw [← intercalate_cons, ← intercalate_cons] at same
  have split := congrArg (List.splitOn mark) same
  rw [List.splitOn_intercalate mark none (List.cons_ne_nil _ _),
    List.splitOn_intercalate mark none' (List.cons_ne_nil _ _)] at split
  exact List.cons.inj split

end Cuts

-----------------------------------------------------------------------------------------
-- Keys
-----------------------------------------------------------------------------------------

namespace Job

theorem changeMark_notMem (c : ChangeSet) : '\x1e' ∉ c.contentKey.toList := by
  intro member
  exact absurd (c.printable_contentKey _ member) (by decide)

/-- The key of a single write tells it apart, whatever the reference of the case holds. -/
theorem writeKey_inj {r s : CaseReference} {c d : ChangeSet} (same : writeKey r c = writeKey s d)
    : r = s ∧ c = d := by
  have chars := congrArg String.toList same
  simp only [writeKey, changeMark, String.toList_append, List.append_assoc] at chars
  obtain ⟨reference, change⟩ := cut_last_inj (changeMark_notMem c) (changeMark_notMem d) chars
  exact ⟨Reference.ext_text (String.toList_inj.mp reference),
    ChangeSet.contentKey_inj (String.toList_inj.mp change)⟩

/-- The identifiers of single writes are derived from keys that tell writes apart: the keys are the
same exactly for the same case and change, whichever jobs carry it, and so are the identifiers as
far as digests do not collide. The part for the change is the same exactly for equal changes, and
the order in which edits were added does not matter.
-/
theorem writeKeys_identify (job other : Job) (r s : CaseReference)
    : (writeKey r job.change = writeKey s other.change ↔ r = s ∧ job.change = other.change)
      ∧ ((job.idempotencyKey r = other.idempotencyKey s
            → writeKey r job.change = writeKey s other.change)
          → (job.idempotencyKey r = other.idempotencyKey s ↔ r = s ∧ job.change = other.change))
      ∧ (∀ c d : ChangeSet, c.contentKey = d.contentKey ↔ c = d)
      ∧ (∀ (c : ChangeSet) (steps others : List (List (String × Value))),
          (c.withSteps steps).contentKey = (c.withSteps others).contentKey
          ↔ ∀ field,
              (lastValue? steps.flatten field <|> c.fields.get? field)
              = (lastValue? others.flatten field <|> c.fields.get? field))
      ∧ ∀ (c : ChangeSet) (steps others : List (List (String × Value))),
          steps.flatten.Perm others.flatten
          → (steps.flatten.map Prod.fst).Nodup
          → (c.withSteps steps).contentKey = (c.withSteps others).contentKey := by
  have keys : writeKey r job.change = writeKey s other.change
      ↔ r = s ∧ job.change = other.change := by
    refine ⟨writeKey_inj, ?_⟩
    rintro ⟨rfl, change⟩
    rw [change]
  refine ⟨keys, fun collisionFree => ?_, fun c d => ⟨ChangeSet.contentKey_inj, congrArg _⟩,
    fun c _ _ => c.contentKey_withSteps_iff, fun c _ _ => c.contentKey_withSteps_perm⟩
  exact ⟨fun same => keys.mp (collisionFree same),
    fun same => congrArg (Uuid.ofName nameSpace) (keys.mpr same)⟩

theorem writeKeys_identify_two
    : let job := make Sample.group none [Sample.one, Sample.two] (.setLead true) .epoch
      let first : String × Value := ("a", .number (.natural 1))
      let second : String × Value := ("b", .number (.natural 2))
      job.idempotencyKey Sample.one ≠ job.idempotencyKey Sample.two
      ∧ (ChangeSet.empty.withSteps [[first, second]]).contentKey
        = (ChangeSet.empty.withSteps [[second], [first]]).contentKey := by
  intro job first second
  obtain ⟨_, identified, _, _, inAnyOrder⟩ := writeKeys_identify job job Sample.one Sample.two
  have collisionFree : job.idempotencyKey Sample.one = job.idempotencyKey Sample.two
      → writeKey Sample.one job.change = writeKey Sample.two job.change :=
    fun same => absurd same (by decide +kernel)
  refine ⟨fun same => ?_, inAnyOrder _ _ _ (.swap second first []) (by simp [first, second])⟩
  exact absurd ((identified collisionFree).mp same).1 (by decide)

/-- The digits of a version; none without a version. -/
def versionChars : Option UInt64 → List Char
  | none => []
  | some version => Nat.toDigits 10 version.toNat

theorem toList_version (version : Option UInt64)
    : ((version.map (toString ·.toNat)).getD "").toList = versionChars version := by
  cases version with
  | none => rfl
  | some version => exact Nat.toList_repr

theorem versionChars_digits (version : Option UInt64)
    : Decimal.AllDigits (versionChars version) := by
  cases version with
  | none => exact fun c member => nomatch member
  | some version => exact Decimal.allDigits_toDigits _

theorem versionChars_inj
    : {v w : Option UInt64} → versionChars v = versionChars w → v = w
  | none, none, _ => rfl
  | none, some _, same => absurd same.symm Nat.toDigits_ne_nil
  | some _, none, same => absurd same Nat.toDigits_ne_nil
  | some _, some _, same => congrArg some (UInt64.toNat_inj.mp (Number.toDigits_inj same))

/-- What the identifier of a job is derived from. -/
structure Source where
  multiple : MultipleReference
  baseVersion : Option UInt64
  cases : List CaseReference
  change : ChangeSet
  deriving DecidableEq

namespace Source

/-- The key of a job. -/
def key (p : Source) : String :=
  Job.key p.multiple p.baseVersion p.cases p.change

/-- The job that is made at some time. -/
def job (p : Source) (createdAt : Timestamp) : Job :=
  .make p.multiple p.baseVersion p.cases p.change createdAt

/-- The part of the key before the cases. -/
def head (p : Source) : List Char :=
  p.multiple.text.toList ++ '@' :: versionChars p.baseVersion

/-- The texts of the cases. -/
def parts (p : Source) : List (List Char) :=
  p.cases.map (·.text.toList)

/-- No reference holds the mark that stands before cases. -/
def Unmarked (p : Source) : Prop :=
  '\x1f' ∉ p.multiple.text.toList ∧ ∀ r ∈ p.cases, '\x1f' ∉ r.text.toList

instance (p : Source) : Decidable p.Unmarked :=
  inferInstanceAs (Decidable (_ ∧ _))

variable {p q : Source}

theorem key_toList (p : Source)
    : p.key.toList
      = (p.head ++ p.parts.flatMap ('\x1f' :: ·)) ++ '\x1e' :: p.change.contentKey.toList := by
  simp only [key, Job.key, String.toList_append, toList_version, String.toList_join]
  simp [head, parts, caseMark, changeMark, List.flatMap_map]

/-- Keys are the same exactly if the changes are, and the texts before them. -/
theorem key_eq_iff
    : p.key = q.key
      ↔ p.head ++ p.parts.flatMap ('\x1f' :: ·) = q.head ++ q.parts.flatMap ('\x1f' :: ·)
        ∧ p.change = q.change := by
  rw [← String.toList_inj, key_toList, key_toList]
  constructor
  · intro same
    obtain ⟨front, change⟩ :=
      cut_last_inj (changeMark_notMem p.change) (changeMark_notMem q.change) same
    exact ⟨front, ChangeSet.contentKey_inj (String.toList_inj.mp change)⟩
  · rintro ⟨front, change⟩
    rw [front, change]

/-- The part before the cases determines multiple and version, as no digit is the sign between
them.
-/
theorem head_inj (same : p.head = q.head)
    : p.multiple = q.multiple ∧ p.baseVersion = q.baseVersion := by
  have none (version : Option UInt64) : '@' ∉ versionChars version := fun member =>
    nomatch versionChars_digits version '@' member
  obtain ⟨multiple, version⟩ := cut_last_inj (none _) (none _) same
  exact ⟨Reference.ext_text (String.toList_inj.mp multiple), versionChars_inj version⟩

theorem parts_inj (same : p.parts = q.parts) : p.cases = q.cases :=
  List.map_injective_iff.mpr (fun _ _ same => Reference.ext_text (String.toList_inj.mp same)) same

/-- No mark is in what stands between the marks of an unmarked source. -/
theorem Unmarked.notMem (unmarked : p.Unmarked) : ∀ part ∈ p.head :: p.parts, '\x1f' ∉ part := by
  intro part member
  rcases List.mem_cons.mp member with rfl | member
  · intro inside
    rcases List.mem_append.mp inside with multiple | version
    · exact unmarked.1 multiple
    · rcases List.mem_cons.mp version with at_ | digit
      · cases at_
      · cases versionChars_digits _ _ digit
  · obtain ⟨r, listed, rfl⟩ := List.mem_map.mp member
    exact unmarked.2 r listed

/-- A key determines its source if the cases are the same, or no reference holds a mark. -/
theorem key_inj (told : p.cases = q.cases ∨ p.Unmarked ∧ q.Unmarked) (same : p.key = q.key)
    : p = q := by
  obtain ⟨front, change⟩ := key_eq_iff.mp same
  have cut : p.head = q.head ∧ p.cases = q.cases := by
    rcases told with cases | ⟨unmarked, unmarked'⟩
    · rw [parts, parts, cases] at front
      exact ⟨List.append_cancel_right front, cases⟩
    · obtain ⟨head, parts⟩ := cut_all_inj unmarked.notMem unmarked'.notMem front
      exact ⟨head, parts_inj parts⟩
  obtain ⟨multiple, version⟩ := head_inj cut.1
  cases p
  cases q
  simp_all

end Source

end Job

-----------------------------------------------------------------------------------------
-- Messages
-----------------------------------------------------------------------------------------

namespace Remote.Broker

/-- The mark by which a queue that keeps order knows a repeated message. -/
def mark? (message : Value) : Option Value :=
  message.get? "MessageDeduplicationId"

/-- Both messages carry the same mark. -/
def Repeats (earlier later : Value) : Prop :=
  ∃ mark, mark? earlier = some mark ∧ mark? later = some mark

/-- A queue drops messages for earlier ones only where they repeat them. -/
def DropsRepeats (drops : Value → Value → Prop) : Prop :=
  ∀ earlier later, drops earlier later → Repeats earlier later

/-- A message has the identifier of its job for a mark, in a queue that keeps order. -/
theorem mark?_message (b : Broker) (job : Job)
    : mark? (b.message job) = if b.isFifo then some (.string job.id.text) else none := by
  unfold message ordering
  split <;> rfl

/-- Repeated messages are about the same identifier. -/
theorem id_of_repeats {b : Broker} {job other : Job}
    (repeats : Repeats (b.message job) (b.message other))
    : job.id = other.id := by
  obtain ⟨mark, first, second⟩ := repeats
  have same := first.trans second.symm
  rw [mark?_message] at first
  rw [mark?_message, mark?_message] at same
  split at same
  next fifo => exact Uuid.text_inj (Value.string.inj (Option.some.inj same))
  next unordered =>
    rw [if_neg unordered] at first
    cases first

end Remote.Broker

namespace Job.Source

open Remote

/-- Jobs that are made of something different have different keys, unless only references that
hold a mark tell their cases apart. As far as the digests of the two keys do not collide, their
identifiers differ, and a queue that drops repeated messages drops neither for the other.
-/
theorem jobs_told_apart (p q : Source) (different : p ≠ q)
    (told : p.change ≠ q.change ∨ p.cases = q.cases ∨ p.Unmarked ∧ q.Unmarked)
    : p.key ≠ q.key
      ∧ ((Uuid.ofName nameSpace p.key = Uuid.ofName nameSpace q.key → p.key = q.key)
        → ∀ made made' : Timestamp,
            (p.job made).id ≠ (q.job made').id
            ∧ ∀ (b : Broker) (drops : Value → Value → Prop), Broker.DropsRepeats drops
                → ¬ drops (b.message (p.job made)) (b.message (q.job made'))
                  ∧ ¬ drops (b.message (q.job made')) (b.message (p.job made))) := by
  have keys : p.key ≠ q.key := by
    intro same
    rcases told with change | told
    · exact change (key_eq_iff.mp same).2
    · exact different (key_inj told same)
  refine ⟨keys, fun collisionFree made made' => ?_⟩
  have ids : (p.job made).id ≠ (q.job made').id := fun same => keys (collisionFree same)
  refine ⟨ids, fun b drops repeats => ⟨fun dropped => ?_, fun dropped => ?_⟩⟩
  · exact ids (Broker.id_of_repeats (repeats _ _ dropped))
  · exact ids (Broker.id_of_repeats (repeats _ _ dropped)).symm

end Job.Source

namespace Sample

open Job Remote

/-- Neither case is to be lead any more. -/
def pairSource : Source where
  multiple := group
  baseVersion := some 1
  cases := [one, two]
  change := .setLead false

def orderedQueue : Broker :=
  ⟨"http://localhost/updates.fifo"⟩

theorem pairSource_told_apart
    : let single : Source := { pairSource with cases := [one] }
      pairSource.key ≠ single.key
      ∧ (pairSource.job .epoch).id ≠ (single.job .epoch).id
      ∧ ¬ Broker.Repeats (orderedQueue.message (pairSource.job .epoch))
          (orderedQueue.message (single.job .epoch)) := by
  intro single
  obtain ⟨keys, identified⟩ := Source.jobs_told_apart pairSource single (by decide)
    (.inr (.inr (by decide)))
  have collisionFree : Uuid.ofName nameSpace pairSource.key = Uuid.ofName nameSpace single.key
      → pairSource.key = single.key :=
    fun same => absurd same (by decide +kernel)
  obtain ⟨ids, kept⟩ := identified collisionFree .epoch .epoch
  exact ⟨keys, ids, (kept orderedQueue Broker.Repeats fun _ _ repeats => repeats).1⟩

/-- One reference that holds a mark stands for two in a key: jobs for different cases share their
identifier, and the message of one repeats that of the other.
-/
theorem pairSource_shares_id
    : let joined : Source := { pairSource with cases := [⟨"1\x1f2", by decide, by decide⟩] }
      pairSource.cases ≠ joined.cases
      ∧ pairSource.key = joined.key
      ∧ (pairSource.job .epoch).id = (joined.job .epoch).id
      ∧ Broker.Repeats (orderedQueue.message (pairSource.job .epoch))
          (orderedQueue.message (joined.job .epoch)) := by
  intro joined
  have fifo : orderedQueue.isFifo = true := by decide +kernel
  have keys : pairSource.key = joined.key := by decide
  have ids : (pairSource.job .epoch).id = (joined.job .epoch).id :=
    congrArg (Uuid.ofName nameSpace) keys
  refine ⟨by decide, keys, ids, .string (pairSource.job .epoch).id.text, ?_, ?_⟩
  · rw [Broker.mark?_message, if_pos fifo]
  · rw [Broker.mark?_message, if_pos fifo, ids]

end Sample

end CaseGrouping
