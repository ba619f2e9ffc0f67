import CaseGrouping.Proofs.Durable.Batches
import CaseGrouping.Proofs.Durable.Refinement
import CaseGrouping.Proofs.Json.Forms
import CaseGrouping.Proofs.Round.Outlasting
import CaseGrouping.Proofs.Timestamp
import CaseGrouping.Proofs.Uuid

/-! The messages of jobs. A consumer reads a job from its message, unless an edit nests as deep as a
body lets it: the edits of a job are one level further down than those of a request.
-/

namespace CaseGrouping

open Json

variable {depth n : Nat}

-----------------------------------------------------------------------------------------
-- Reading messages
-----------------------------------------------------------------------------------------

/-- (fields.Within n) says that no value of the fields nests deeper than n levels. -/
def Fields.Within (n : Nat) (fields : Fields) : Prop :=
  ∀ entry ∈ fields.entries, entry.2.depth ≤ n

theorem Fields.fit_empty : Fields.Fit n ∅ :=
  fun _ member => by cases member

theorem Fields.integral_empty : Fields.Integral ∅ :=
  fun _ member => by cases member

theorem Fields.Fit.within {fields : Fields} (fit : fields.Fit n) : fields.Within n :=
  fun entry member => (fit entry member).2

theorem Fields.Fit.fit_iff {fields : Fields} (fit : fields.Fit n) (m : Nat)
    : fields.Fit m ↔ fields.Within m :=
  ⟨Fit.within, fun within entry member => ⟨(fit entry member).1, within entry member⟩⟩

theorem ChangeSet.integral_toValue {c : ChangeSet} (integral : c.fields.Integral)
    : (Form.toValue c).Integral := by
  have membership : (Form.toValue c.membership).Integral := by
    cases c.membership <;> simp [Form.toValue, MembershipChange.multiple?, Value.Integral,
      Value.IntegralEntries]
  have lead : (Value.orNull (c.lead.map .bool)).Integral :=
    Value.integral_orNull (by intro _; trivial) _
  have subGroup : (Value.orNull (c.subGroup.map .string)).Integral :=
    Value.integral_orNull (by intro _; trivial) _
  exact ⟨membership, lead, subGroup, Value.integralEntries_iff.mpr integral, trivial⟩

namespace Job

variable {job : Job}

/-- (job.ReadsBack) says that what is read from the message of a job is the job, but for the time at
which it was made.
-/
def ReadsBack (job : Job) : Prop :=
  ∃ createdAt, read (text job) = .ok { job with createdAt }

theorem integral_toValue (integral : job.change.fields.Integral)
    : (Form.toValue job).Integral := by
  have baseVersion
      : (Value.orNull (job.baseVersion.map fun v => .number (.natural v))).Integral :=
    Value.integral_orNull (by intro _; trivial) _
  have cases : (Value.array (job.cases.map Form.toValue)).Integral := by
    refine Value.integralItems_iff.mpr fun v member => ?_
    obtain ⟨case, _, rfl⟩ := List.mem_map.mp member
    trivial
  exact ⟨trivial, trivial, baseVersion, cases, ChangeSet.integral_toValue integral, trivial,
    trivial, trivial⟩

theorem fit_of_decoder {d : Draft} (found : Form.decoder depth d = .ok job)
    : ∃ n, depth = n + 3 ∧ job.change.fields.Fit n := by
  obtain ⟨m, rfl, gives⟩ := Record.gives_of_decoder found
  obtain ⟨parts, given, rfl⟩ := gives.origin
  obtain ⟨d, found⟩ :=
    (Record.found_of_field given.sides.2.sides.2.sides.2.sides.2.sides.1).resolve_right (by simp)
  obtain ⟨n, rfl, fit⟩ := ChangeSet.fit_of_decoder found
  exact ⟨n, rfl, fit⟩

theorem decoder_ofValue (dated : job.createdAt.Dated)
    (counted : job.expectedBatchSize < UInt64.size) (fit : job.change.fields.Fit n)
    : Form.decoder (n + 3) (.ofValue (Form.toValue job)) = .ok job := by
  have id : Form.decoder (n + 2) (.ofValue (Form.toValue job.id)) = .ok job.id :=
    Decode.parsed_ofValue job.id.ofText?_text
  have baseVersion : Decode.optional Decode.word (n + 2)
      (.ofValue (.orNull (job.baseVersion.map fun v => .number (.natural v))))
      = .ok job.baseVersion :=
    Decode.optional_orNull (by simp) (fun _ => rfl) _
  have cases : Decode.list Form.decoder (n + 2) (.ofValue (.array (job.cases.map Form.toValue)))
      = .ok job.cases :=
    Decode.list_ofValue fun case _ => case.decoder_ofValue
  have createdAt : Form.decoder (n + 2) (.ofValue (Form.toValue job.createdAt))
      = .ok job.createdAt :=
    Decode.parsed_ofValue (Timestamp.ofText?_text dated)
  exact Record.Fills.decoder <| .map (a := (_, _, _, _, _, _, _)) _ <|
    .both (Record.fills_field id) <|
    .both (Record.fills_field job.multiple.decoder_ofValue) <|
    .both (Record.fills_field baseVersion) <|
    .both (Record.fills_field cases) <|
    .both (Record.fills_field (ChangeSet.decoder_ofValue fit)) <|
    .both (Record.fills_field (Decode.natural_ofValue counted)) <|
    Record.fills_field createdAt

/-- The fields of a job that is read from its message nest no deeper than the message lets them. -/
theorem fit_of_readsBack (reads : job.ReadsBack) : job.change.fields.Fit 124 := by
  obtain ⟨createdAt, reads⟩ := reads
  obtain ⟨d, found⟩ := found_of_decodeText reads
  obtain ⟨n, levels, fit⟩ := fit_of_decoder found
  obtain rfl : n = 124 := by
    have : 127 = n + 3 := levels
    omega
  exact fit

/-- A job whose fields nest no deeper is read from its message. -/
theorem readsBack_of_fit (integral : job.change.fields.Integral) (dated : job.createdAt.Dated)
    (counted : job.expectedBatchSize < UInt64.size) (fit : job.change.fields.Fit 124)
    : job.ReadsBack :=
  ⟨job.createdAt,
    (read_text (integral_toValue integral)).trans (decoder_ofValue dated counted fit)⟩

end Job

-----------------------------------------------------------------------------------------
-- Bodies
-----------------------------------------------------------------------------------------

namespace RoundRequest

/-- (request.DecodedFrom body) says that a body decodes as the request. -/
def DecodedFrom (body : String) : RoundRequest → Prop
  | .create request => decodeText BulkCreation.record.decoder body = .ok request
  | .update request => decodeText BulkUpdate.record.decoder body = .ok request

/-- The edits of a request are one level further up than those of a job. -/
theorem fit_edits {body : String} {request : RoundRequest} (decoded : request.DecodedFrom body)
    : request.edits.Fit 125 := by
  cases request with
  | create request => exact Fields.fit_empty
  | update request =>
      obtain ⟨d, found⟩ := found_of_decodeText decoded
      obtain ⟨m, levels, gives⟩ := Record.gives_of_decoder found
      obtain ⟨parts, given, rfl⟩ := gives.origin
      have edits : Fields.Fit 125 parts.2.2.2.1 := by
        rcases Record.found_of_field given.sides.2.sides.2.sides.2.sides.1
          with ⟨d, found⟩ | missing | missing
        · obtain ⟨n, rfl, fit⟩ := Fields.fit_of_decoder found
          obtain rfl : n = 125 := by
            have : 127 = n + 1 + 1 := levels
            omega
          exact fit
        · exact Option.some.inj missing ▸ Fields.fit_empty
        · exact Option.some.inj missing ▸ Fields.fit_empty
      exact edits

end RoundRequest

-----------------------------------------------------------------------------------------
-- Jobs of a round
-----------------------------------------------------------------------------------------

/-- (job.Carries edits size now) says that a job was made at a time, for a number of cases at most,
and writes either all of the edits or no fields.
-/
structure Job.Carries (edits : Fields) (size : Nat) (now : Timestamp) (job : Job) : Prop where
  fields : job.change.fields = ∅ ∨ job.change.fields = edits
  sized : job.expectedBatchSize ≤ size
  stamped : job.createdAt = now

/-- (s.Sent edits size t) says that no time has passed between the stores s and t, and that the
queue took only jobs that carry the edits.
-/
structure Stores.Sent (edits : Fields) (size : Nat) (before after : Stores) : Prop where
  clock : after.clock = before.clock
  jobs
    : ∃ jobs,
        after.queue.jobs = before.queue.jobs ++ jobs
        ∧ ∀ job ∈ jobs, job.Carries edits size (.ofMillis before.clock)

/-- (work.Durable) says that the work hands its writes to the queue. -/
def Work.Durable : Work → Prop
  | .reconcile r => r.mode = .durableQueue
  | .move m => m.target.mode = .durableQueue ∧ m.source.mode = .durableQueue

/-- A write brings all of the edits or no fields. -/
def CaseWrite.Brings (edits : Fields) (w : CaseWrite) : Prop :=
  w.change.fields = ∅ ∨ w.change.fields = edits

namespace Coordinator

open Round

variable {k : Coordinator} {s t : Stores} {request : RoundRequest} {edits : Fields}
  {reference : MultipleReference} {expected : Option UInt64} {plan : PropagationPlan}
  {job : Job} {size : Nat}

theorem carries_of_jobsOf {now : Timestamp} (brings : ∀ w ∈ plan.writes, w.Brings edits)
    (member : job ∈ k.jobsOf reference expected plan now)
    : job.Carries edits k.batchSize now := by
  have built : ∃ writes, (∀ w ∈ writes, w ∈ plan.writes)
      ∧ job ∈ buildJobs reference expected writes k.batchSize now := by
    rcases List.mem_append.mp member with member | member
    · exact ⟨_, fun w leaves => List.mem_append_left _ leaves, member⟩
    · exact ⟨_, fun w stays => List.mem_append_right _ stays, member⟩
  obtain ⟨writes, planned, built⟩ := built
  obtain ⟨w, written, same⟩ := change_buildJobs reference expected now built
  obtain ⟨c, piece, cut, rfl⟩ := exists_piece built
  exact ⟨same ▸ brings w (planned w written), (length_of_mem_piecesOf k.batchSize_pos cut).2, rfl⟩

theorem enqueue_sent (carries : job.Carries edits size (.ofMillis s.clock))
    (sent : s.Sent edits size t)
    : s.Sent edits size (Stores.enqueue job t).2 := by
  obtain ⟨clock, jobs, queue, all⟩ := sent
  have answer : (Stores.enqueue job t).2.queue = (t.queue.enqueue job).2 := rfl
  unfold UpdateQueue.enqueue at answer
  split at answer
  · exact ⟨clock, jobs, by rw [answer]; exact queue, all⟩
  · refine ⟨clock, jobs ++ [job], by rw [answer, ← List.append_assoc, ← queue], ?_⟩
    simpa [or_imp, forall_and] using ⟨all, carries⟩

/-- The jobs of a plan are made when it is propagated. -/
theorem propagate_sent {mode : PropagationMode} (durable : mode = .durableQueue)
    (brings : ∀ w ∈ plan.writes, w.Brings edits)
    : (k.propagate reference expected plan mode).Keeps (s.Sent edits k.batchSize) := by
  intro t sent
  have runs : (k.propagate reference expected plan .durableQueue).runOn t
      = (enqueueAll (k.jobsOf reference expected plan (.ofMillis t.clock)) {}).runOn t := rfl
  rw [durable, runs, sent.clock]
  refine enqueueAll_keeps (fun job member _ => enqueue_sent ?_) {} sent
  exact carries_of_jobsOf brings member

theorem settle_sent {r : Reconciliation} (durable : r.mode = .durableQueue)
    (written : List CaseReference)
    : (k.settle r written).Keeps (s.Sent edits size) := by
  rw [settle_durable durable]
  exact keeps_pure _

theorem commit_sent (r : Reconciliation) (members : List Member)
    : (k.commit r members).Keeps (s.Sent edits size) :=
  keeps_multiples fun _ sent => ⟨sent.clock, sent.jobs⟩

/-- All jobs of the work carry what its writes bring. -/
theorem perform_sent {work : Work} (durable : work.Durable)
    (sends : work.Sends (CaseWrite.Brings edits))
    : (k.perform work).Keeps (s.Sent edits k.batchSize) := by
  cases work with
  | reconcile r =>
      obtain ⟨brings, _⟩ := sends
      refine keeps_bind (keeps_check _) fun _ => ?_
      refine keeps_bind (propagate_sent durable brings) fun done => ?_
      refine keeps_bind (settle_sent durable done.written) fun settled => ?_
      exact keeps_bind (commit_sent r settled.1) fun _ => keeps_pure _
  | move m =>
      obtain ⟨toTarget, toSource, _⟩ := sends
      obtain ⟨target, source⟩ := durable
      have toSource : ∀ w ∈ PropagationPlan.writes { m.source.plan with detach := [] },
          w.Brings edits := toSource
      refine keeps_bind (propagate_sent target toTarget) fun targetDone => ?_
      refine keeps_bind (propagate_sent source toSource) fun sourceDone => ?_
      refine keeps_bind (settle_sent target _) fun targetSettled => ?_
      refine keeps_bind (settle_sent source _) fun sourceSettled => ?_
      refine keeps_bind (commit_sent m.target targetSettled.1) fun _ => ?_
      exact keeps_bind (commit_sent m.source sourceSettled.1) fun _ => keeps_pure _

/-- The writes of a plan bring the edits that are targeted. -/
theorem brings_of_plan {r : Reconciliation}
    (own : r.targeting.edits = ∅ ∨ r.targeting.edits = edits)
    : ∀ w ∈ r.plan.writes, w.Brings edits := by
  intro w member
  rcases List.mem_append.mp member with leaves | writes
  · exact .inl (congrArg ChangeSet.fields (Reconciliation.mem_detach_plan.mp leaves).2)
  · obtain ⟨fields, _⟩ := Reconciliation.values_of_write writes
    split at fields
    · exact own.imp fields.trans fields.trans
    · exact .inl fields

/-- The work that a request comes to brings its edits, and goes to the queue if it is to. -/
theorem Prepares.brings {work : Work} (prepares : k.Prepares s request work)
    : work.Sends (CaseWrite.Brings request.edits)
      ∧ (request.mode = .durableQueue → work.Durable) := by
  cases prepares with
  | creation => exact ⟨⟨brings_of_plan (.inl rfl), fun _ _ => .inl rfl⟩, id⟩
  | inPlace => exact ⟨⟨brings_of_plan (.inr rfl), fun _ _ => .inl rfl⟩, id⟩
  | move =>
      refine ⟨⟨brings_of_plan (.inr rfl), fun w member => ?_, fun _ _ => .inl rfl,
        fun _ _ => .inl rfl⟩, fun mode => ⟨mode, mode⟩⟩
      exact brings_of_plan (.inl rfl) w (List.mem_append_right _ member)

/-- Every job of a round carries all of the edits of its request or no fields. -/
theorem carries_of_newJobs (durable : request.mode = .durableQueue)
    (member : job ∈ s.newJobs ((k.carryOut request).runOn s).2)
    : job.Carries request.edits k.batchSize (.ofMillis s.clock) := by
  have quiet : ∀ t, s.Asked t → s.Sent request.edits k.batchSize t := fun t asked =>
    ⟨asked.clock, [], by simp [asked.queue], by simp⟩
  have sent : s.Sent request.edits k.batchSize ((k.carryOut request).runOn s).2 := by
    rcases k.carryOut_cases request s with ⟨e, t, asked, ends⟩ | ⟨work, t, asked, prepares, ends⟩
    · rw [ends]
      exact quiet t asked
    · obtain ⟨sends, hands⟩ := prepares.brings
      rw [ends]
      exact perform_sent (hands durable) sends (quiet t asked)
  obtain ⟨_, jobs, queue, all⟩ := sent
  rw [Stores.newJobs_of_append queue] at member
  exact all job member

-----------------------------------------------------------------------------------------
-- Messages of a round
-----------------------------------------------------------------------------------------

/-- The jobs that a round enqueues for a body are read from their messages, except those with edits
that nest as deep as the body lets them. A job carries all edits or none.
-/
theorem newJobs_readBack {body : String} (decoded : request.DecodedFrom body)
    (durable : request.mode = .durableQueue) (integral : request.edits.Integral)
    (dated : (Timestamp.ofMillis s.clock).Dated) (bounded : k.batchSize < UInt64.size)
    : ∀ job ∈ s.newJobs ((k.carryOut request).runOn s).2,
        (job.change.fields = ∅ ∨ job.change.fields = request.edits)
        ∧ job.change.fields.Within 125
        ∧ (job.ReadsBack ↔ job.change.fields.Within 124) := by
  intro job member
  obtain ⟨fields, sized, stamped⟩ := carries_of_newJobs durable member
  have fit : job.change.fields.Fit 125 ∧ job.change.fields.Integral := by
    rcases fields with none | all
    · rw [none]
      exact ⟨Fields.fit_empty, Fields.integral_empty⟩
    · rw [all]
      exact ⟨RoundRequest.fit_edits decoded, integral⟩
  obtain ⟨fit, integral⟩ := fit
  refine ⟨fields, fit.within, fun reads => (Job.fit_of_readsBack reads).within, fun within => ?_⟩
  exact Job.readsBack_of_fit integral (stamped ▸ dated) (sized.trans_lt bounded)
    ((fit.fit_iff 124).mpr within)

end Coordinator

namespace Sample

/-- Null inside of a number of arrays. -/
def nested : Nat → Value
  | 0 => .null
  | levels + 1 => .array [nested levels]

theorem depth_nested (levels : Nat) : (nested levels).depth = levels := by
  induction levels with
  | zero => rfl
  | succ levels ih => simp [nested, Value.depth, Value.depthItems, ih]

theorem integral_nested (levels : Nat) : (nested levels).Integral := by
  induction levels with
  | zero => trivial
  | succ levels ih => exact ⟨ih, trivial⟩

theorem ordered_nested (levels : Nat) : (nested levels).Ordered := by
  induction levels with
  | zero => trivial
  | succ levels ih => exact ⟨ih, trivial⟩

/-- The first case is to join and to get the nested value. -/
def nesting (levels : Nat) : RoundRequest :=
  .update {
    multiple := record
    requested := [one]
    matched := [one]
    edits := Register.insert ∅ "x" (nested levels)
    mode := .durableQueue }

theorem integral_nesting (levels : Nat) : (nesting levels).edits.Integral := by
  intro entry member
  cases List.mem_singleton.mp (member : entry ∈ [("x", nested levels)])
  exact integral_nested levels

theorem within_nesting {levels : Nat} : (nesting levels).edits.Within n ↔ levels ≤ n := by
  change (∀ entry ∈ [("x", nested levels)], entry.2.depth ≤ n) ↔ levels ≤ n
  simp [depth_nested]

theorem fit_nesting {levels : Nat} (within : levels ≤ n) : (nesting levels).edits.Fit n := by
  intro entry member
  cases List.mem_singleton.mp (member : entry ∈ [("x", nested levels)])
  exact ⟨ordered_nested levels, (depth_nested levels).trans_le within⟩

/-- A body that asks for this. -/
def nestingBody (levels : Nat) : Value :=
  .object
    [ ("multiple",
        .object [("reference", .string "3"), ("name", .string "Group"), ("version", .natural 1)]),
      ("requested", .array [.string "1"]),
      ("matched", .array [.string "1"]),
      ("field_edits", .object [("x", nested levels)]),
      ("mode", .string "durable_queue") ]

theorem integral_nestingBody (levels : Nat) : (nestingBody levels).Integral := by
  simp [nestingBody, Value.Integral, Value.IntegralEntries, Value.IntegralItems, Value.natural,
    integral_nested]

/-- The body decodes while its edit nests no deeper than a body lets it. -/
theorem decoded_of_nesting {levels : Nat} (within : levels ≤ 125)
    : (nesting levels).DecodedFrom (nestingBody levels).text := by
  have edits := Fields.decoder_ofValue (fit_nesting within)
  have found : BulkUpdate.record.decoder 127 (.ofValue (nestingBody levels)) = .ok _ :=
    Record.Fills.decoder <| .map (a := (_, _, _, _, _, _, _)) _ <|
      .both (Record.fills_field (a := record) rfl) <|
      .both (Record.fills_field (a := [one]) rfl) <|
      .both (Record.fills_field (a := [one]) rfl) <|
      .both (Record.fills_field edits) <|
      .both Record.fills_missing <|
      .both Record.fills_missing <|
      Record.fills_field (a := PropagationMode.durableQueue) rfl
  exact (decodeText_text (integral_nestingBody levels) _).trans found

/-- One job is enqueued, with the edit, at the last depth that is read back and at the next one. -/
theorem fields_of_nesting
    : ∀ levels ∈ [124, 125],
        ((stores []).newJobs
            ((coordinator.carryOut (nesting levels)).runOn (stores [])).2).map (·.change.fields)
          = [(nesting levels).edits] := by
  decide +kernel

/-- A value that nests 124 levels is still read back. -/
theorem readBack_of_nesting
    : (nesting 124).DecodedFrom (nestingBody 124).text
      ∧ (nesting 124).mode = .durableQueue
      ∧ (nesting 124).edits.Integral
      ∧ (Timestamp.ofMillis (stores []).clock).Dated
      ∧ coordinator.batchSize < UInt64.size
      ∧ ∃ job ∈ (stores []).newJobs ((coordinator.carryOut (nesting 124)).runOn (stores [])).2,
          job.change.fields = (nesting 124).edits ∧ job.ReadsBack := by
  have decoded : (nesting 124).DecodedFrom (nestingBody 124).text := decoded_of_nesting (by decide)
  have integral := integral_nesting 124
  have dated : (Timestamp.ofMillis (stores []).clock).Dated := ⟨by decide, by decide⟩
  have enqueued := fields_of_nesting 124 (by simp)
  obtain ⟨job, member, edits⟩ := List.mem_map.mp (enqueued ▸ List.mem_cons_self)
  have told := Coordinator.newJobs_readBack decoded rfl integral dated (by decide) job member
  refine ⟨decoded, rfl, integral, dated, by decide, job, member, edits, told.2.2.mpr ?_⟩
  rw [edits]
  exact within_nesting.mpr le_rfl

/-- A value that nests one level deeper is accepted, but the job with it cannot be read back. -/
theorem lost_of_nesting
    : (nesting 125).DecodedFrom (nestingBody 125).text
      ∧ (nesting 125).mode = .durableQueue
      ∧ (nesting 125).edits.Integral
      ∧ ((coordinator.carryOut (nesting 125)).runOn (stores [])).1.map
          (fun outcome => (outcome.failures, outcome.enqueuedJobs)) = .ok ([], 1)
      ∧ ∃ job ∈ (stores []).newJobs ((coordinator.carryOut (nesting 125)).runOn (stores [])).2,
          ¬ job.ReadsBack := by
  have enqueued := fields_of_nesting 125 (by simp)
  obtain ⟨job, member, edits⟩ := List.mem_map.mp (enqueued ▸ List.mem_cons_self)
  refine ⟨decoded_of_nesting le_rfl, rfl, integral_nesting 125, by decide +kernel, job, member,
    fun reads => ?_⟩
  have within := (Job.fit_of_readsBack reads).within
  rw [edits] at within
  have short := within_nesting.mp within
  omega

end Sample

end CaseGrouping
