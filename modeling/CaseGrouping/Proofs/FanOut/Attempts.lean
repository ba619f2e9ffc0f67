import CaseGrouping.Proofs.FanOut.Courses
import CaseGrouping.Proofs.FanOut.Effects

/-! Attempts of the pool. Each write is sent until a reply comes that cannot get better, or until
the attempts are used up, and its last reply is what the report says of it.
-/

namespace CaseGrouping

-----------------------------------------------------------------------------------------
-- Replies to one write
-----------------------------------------------------------------------------------------

/-- (w.Settled n replies outcome) says that the write was sent once for each reply and for the last
time when it had to be: all replies but the last may have got better, the last may not or is the
n-th, and the outcome is what the last one says.
-/
def CaseWrite.Settled (w : CaseWrite) (n : Nat) (replies : List WriteReply)
    (outcome : Except Failure SingleCase)
    : Prop :=
  ∃ earlier last,
    replies = earlier ++ [last]
    ∧ (∀ reply ∈ earlier, reply.mayPass)
    ∧ replies.length ≤ n
    ∧ (last.mayPass → replies.length = n)
    ∧ outcome = last.outcome w

/-- (phase.Follows w n attempt replies) relates a phase to the replies that its task has been given
up to its current attempt, of n that are allowed.
-/
def Phase.Follows (w : CaseWrite) (n attempt : Nat) (replies : List WriteReply) : Phase → Prop
  | .queued =>
      replies.length + 1 = attempt ∧ attempt ≤ n ∧ ∀ reply ∈ replies, reply.mayPass
  | .writing _ last =>
      ∃ earlier,
        replies = earlier ++ [last]
        ∧ earlier.length + 1 = attempt
        ∧ attempt ≤ n
        ∧ ∀ reply ∈ earlier, reply.mayPass
  | .resting _ => replies.length = attempt ∧ attempt < n ∧ ∀ reply ∈ replies, reply.mayPass
  | .finished outcome => w.Settled n replies outcome

/-- The phase after a reply follows it: the task pauses if the reply may get better and attempts
are left, and otherwise the reply was the last one.
-/
theorem Pool.phaseAfter_follows {f : FanOut} {t : Task} {earlier : List WriteReply}
    {reply : WriteReply} (attempt : earlier.length + 1 = t.attempt)
    (within : t.attempt ≤ f.retry.maxAttempts) (passing : ∀ r ∈ earlier, r.mayPass) (clock : Nat)
    : (phaseAfter f t reply clock).Follows t.write f.retry.maxAttempts t.attempt
        (earlier ++ [reply]) := by
  have length : (earlier ++ [reply]).length = t.attempt := by simpa using attempt
  rw [phaseAfter_eq]
  split
  next again =>
    obtain ⟨mayPass, left⟩ := Bool.and_eq_true_iff.mp again
    refine ⟨length, of_decide_eq_true left, fun r member => ?_⟩
    rcases List.mem_append.mp member with before | last
    · exact passing r before
    · rwa [List.mem_singleton.mp last]
  next spent =>
    refine ⟨earlier, reply, rfl, passing, by omega, fun mayPass => ?_, rfl⟩
    have used : ¬ t.attempt < f.retry.maxAttempts := by simpa [mayPass] using spent
    omega

namespace Pool

/-- A turn takes its task on to a phase that follows the replies, those so far and the one to the
write that it sends.
-/
theorem Turn.follows {f : FanOut} {p q : Pool} {i : Nat} {t : Task} {reply? : Option WriteReply}
    {replies : List WriteReply} (turn : Turn f p i t reply? q)
    (follows : t.phase.Follows t.write f.retry.maxAttempts t.attempt replies)
    : ∃ t',
        q.tasks = p.tasks.set i t'
        ∧ t'.phase.Follows t'.write f.retry.maxAttempts t'.attempt
            (replies ++ reply?.toList) := by
  cases turn with
  | start queued permit =>
      rw [queued] at follows
      obtain ⟨attempt, within, passing⟩ := follows
      exact ⟨_, rfl, replies, rfl, attempt, within, passing⟩
  | settle writing =>
      rw [writing] at follows
      obtain ⟨earlier, rfl, attempt, within, passing⟩ := follows
      rw [Option.toList_none, List.append_nil]
      exact ⟨_, rfl, phaseAfter_follows attempt within passing _⟩
  | wake resting =>
      rw [resting] at follows
      obtain ⟨attempt, left, passing⟩ := follows
      rw [Option.toList_none, List.append_nil]
      exact ⟨_, rfl, by simpa using attempt, left, passing⟩

-----------------------------------------------------------------------------------------
-- Replies along a course
-----------------------------------------------------------------------------------------

/-- The replies to the writes that the task at a place has sent, in their order. -/
def replies (events : List Event) (i : Nat) : List WriteReply :=
  (events.filter (·.place = i)).filterMap Event.reply

theorem replies_concat (events : List Event) (e : Event) (i : Nat)
    : replies (events ++ [e]) i
      = replies events i ++ if e.place = i then e.reply.toList else [] := by
  unfold replies
  by_cases here : e.place = i
  · cases reply : e.reply <;> simp [here, reply]
  · simp [here]

/-- The tasks follow their replies along every course, by induction on it. -/
theorem Course.follows {f : FanOut} {writes : List CaseWrite} {stores : Stores}
    {events : List Event} {p : Pool} (course : Course f (ofWrites f writes stores) events p)
    {j : Nat} {u : Task} (at_j : p.tasks[j]? = some u)
    : u.phase.Follows u.write f.retry.maxAttempts u.attempt (replies events j) := by
  induction course generalizing j u with
  | start =>
      obtain ⟨_, _, rfl⟩ := List.mem_map.mp (List.mem_of_getElem? at_j)
      exact ⟨rfl, f.attempts_pos, fun _ member => absurd member List.not_mem_nil⟩
  | @turn events p i t reply? q _ found turn ih =>
      obtain ⟨inside, _⟩ := List.getElem?_eq_some_iff.mp found
      obtain ⟨t', tasks, follows⟩ := turn.follows (ih found)
      rw [tasks, List.getElem?_set] at at_j
      rw [replies_concat]
      split at at_j
      next here =>
        obtain rfl : t' = u := by simpa [inside] using at_j
        rw [if_pos here, ← here]
        exact follows
      next elsewhere =>
        rw [if_neg elsewhere, List.append_nil]
        exact ih at_j

/-- (Answered answers events) says that the k-th write that is sent from a place gets the k-th of
the answers for that place, counted from zero.
-/
def Answered (answers : Nat → Nat → WriteReply) (events : List Event) : Prop :=
  ∀ i, ∃ k, replies events i = (List.range k).map (answers i)

theorem Answered.concat {answers : Nat → Nat → WriteReply} {events : List Event}
    (answered : Answered answers events) {e : Event}
    (next : ∀ reply ∈ e.reply, reply = answers e.place (replies events e.place).length)
    : Answered answers (events ++ [e]) := by
  intro i
  obtain ⟨k, given⟩ := answered i
  rw [replies_concat]
  split
  next here =>
    cases reply : e.reply with
    | none => exact ⟨k, by rw [Option.toList_none, List.append_nil, given]⟩
    | some r =>
        have last := next r (by simp [reply])
        rw [here, given, List.length_map, List.length_range] at last
        exact ⟨k + 1, by
          rw [Option.toList_some, given, last, List.range_succ, List.map_append,
            List.map_singleton]⟩
  · exact ⟨k, by rw [List.append_nil, given]⟩

/-- A course whose writes have been given some answers goes on to an end with these answers, by
induction on the moves that are left.
-/
theorem Course.ends_answered {f : FanOut} {start p : Pool} {events : List Event}
    (course : Course f start events p) {answers : Nat → Nat → WriteReply}
    (answered : Answered answers events)
    : ∃ events p, Course f start events p ∧ p.Ended f ∧ Answered answers events := by
  by_cases ended : p.Ended f
  · exact ⟨events, p, course, ended, answered⟩
  · simp only [Ended, not_forall, not_not] at ended
    obtain ⟨i, t, _, _, found, turn⟩ := ended
    have onward : ∃ reply? q,
        Turn f p i t reply? q
        ∧ ∀ reply ∈ reply?, reply = answers i (replies events i).length := by
      cases turn with
      | @start due _ stores queued permit =>
          let next := answers i (replies events i).length
          exact ⟨next, _, @Turn.start f p i t due next stores queued permit, fun _ sent =>
            (Option.mem_some.mp sent).symm⟩
      | settle writing => exact ⟨_, _, .settle writing, by simp⟩
      | wake resting => exact ⟨_, _, .wake resting, by simp⟩
    obtain ⟨reply?, q, turn, next⟩ := onward
    have less := turn.remaining_lt found
    exact (course.turn found turn).ends_answered (answered.concat next)
termination_by p.remaining f

end Pool

-----------------------------------------------------------------------------------------
-- Replies of the store of cases
-----------------------------------------------------------------------------------------

/-- Takes writes one after another, each to what the one before it has left of the store. -/
def CaseStore.inTurn {α : Type} (take : CaseStore → CaseWrite → α × CaseStore) (s : CaseStore)
    : List CaseWrite → List α × CaseStore
  | [] => ([], s)
  | w :: rest =>
      let (result, s) := take s w
      let (results, s) := s.inTurn take rest
      (result :: results, s)

/-- One more write is taken to what the others leave, by induction on these. -/
theorem CaseStore.inTurn_concat {α : Type} (take : CaseStore → CaseWrite → α × CaseStore)
    (s : CaseStore) (writes : List CaseWrite) (w : CaseWrite)
    : s.inTurn take (writes ++ [w])
      = ((s.inTurn take writes).1 ++ [(take (s.inTurn take writes).2 w).1],
          (take (s.inTurn take writes).2 w).2) := by
  induction writes generalizing s with
  | nil => rfl
  | cons first rest ih => simp only [List.cons_append, inTurn, ih]

namespace Pool

/-- The writes that events send, in the order in which they are sent. -/
def sent (writes : List CaseWrite) (events : List Event) : List CaseWrite :=
  (events.filter (·.reply.isSome)).filterMap fun e => writes[e.place]?

theorem sent_concat (writes : List CaseWrite) (events : List Event) (e : Event)
    : sent writes (events ++ [e])
      = sent writes events ++ (e.reply.bind fun _ => writes[e.place]?).toList := by
  unfold sent
  cases reply : e.reply with
  | none => simp [reply]
  | some r => cases write : writes[e.place]? <;> simp [reply, write]

/-- In a run the replies are those of the store of cases to the writes that are sent, and it is
left as they leave it.
-/
theorem run_answers (f : FanOut) (writes : List CaseWrite) (stores : Stores) (n : Nat)
    : ∃ events,
        Course f (ofWrites f writes stores) events ((ofWrites f writes stores).run f n)
        ∧ stores.cases.inTurn CaseStore.submit (sent writes events)
          = (events.filterMap Event.reply,
              ((ofWrites f writes stores).run f n).stores.cases) := by
  refine run_induction
    (P := fun p =>
      ∃ events,
        Course f (ofWrites f writes stores) events p
        ∧ stores.cases.inTurn CaseStore.submit (sent writes events)
          = (events.filterMap Event.reply, p.stores.cases))
    (fun {p q i t} found move ⟨events, course, answers⟩ => ?_) n ⟨[], .start, rfl⟩
  have at_i : writes[i]? = some t.write := by
    rw [← ofWrites_writes f writes stores, ← course.writes, List.getElem?_map, found,
      Option.map_some]
  cases move with
  | start queued permit =>
      refine ⟨_, course.turn found (.start queued permit), ?_⟩
      rw [sent_concat, Option.bind_some, at_i, Option.toList_some, CaseStore.inTurn_concat,
        answers, List.filterMap_append]
      rfl
  | settle writing =>
      refine ⟨_, course.turn found (.settle writing), ?_⟩
      rw [sent_concat, Option.bind_none, Option.toList_none, List.append_nil, answers,
        List.filterMap_append, List.filterMap_cons_none rfl, List.filterMap_nil, List.append_nil]
      rfl
  | wake resting =>
      refine ⟨_, course.turn found (.wake resting), ?_⟩
      rw [sent_concat, Option.bind_none, Option.toList_none, List.append_nil, answers,
        List.filterMap_append, List.filterMap_cons_none rfl, List.filterMap_nil, List.append_nil]
      rfl

end Pool

-----------------------------------------------------------------------------------------
-- The report
-----------------------------------------------------------------------------------------

/-- The report of writes with given outcomes. -/
def FanOutReport.ofOutcomes (outcomes : List (Except Failure SingleCase)) : FanOutReport where
  applied := outcomes.filterMap Except.toOption
  failures := outcomes.filterMap fun
    | .ok _ => none
    | .error failure => some failure

theorem FanOutReport.ofPool_eq_ofOutcomes (p : Pool)
    : ofPool p = .ofOutcomes (p.tasks.filterMap Task.outcome?) :=
  rfl

theorem FanOutReport.ofOutcomes_ok (c : SingleCase) (rest : List (Except Failure SingleCase))
    : ofOutcomes (.ok c :: rest)
      = { ofOutcomes rest with applied := c :: (ofOutcomes rest).applied } :=
  rfl

theorem FanOutReport.ofOutcomes_error (failure : Failure)
    (rest : List (Except Failure SingleCase))
    : ofOutcomes (.error failure :: rest)
      = { ofOutcomes rest with failures := failure :: (ofOutcomes rest).failures } :=
  rfl

/-- A report has one entry for each outcome, by induction on the outcomes. -/
theorem FanOutReport.total_ofOutcomes (outcomes : List (Except Failure SingleCase))
    : (ofOutcomes outcomes).total = outcomes.length := by
  induction outcomes with
  | nil => rfl
  | cons outcome rest ih =>
      unfold total at ih ⊢
      cases outcome with
      | ok c =>
          rw [ofOutcomes_ok]
          simp only [List.length_cons]
          omega
      | error failure =>
          rw [ofOutcomes_error]
          simp only [List.length_cons]
          omega

/-- Finished tasks have an outcome each. -/
theorem Pool.outcomes_of_finished {p : Pool} (finished : ∀ t ∈ p.tasks, (t.outcome?).isSome)
    : (p.tasks.filterMap Task.outcome?).map some = p.tasks.map Task.outcome? := by
  generalize p.tasks = tasks at finished
  induction tasks with
  | nil => rfl
  | cons t rest ih =>
      obtain ⟨outcome, found⟩ := Option.isSome_iff_exists.mp (finished t (by simp))
      rw [List.filterMap_cons_some found, List.map_cons, List.map_cons, found,
        ih fun u member => finished u (by simp [member])]

/-- At the end of a course each write has an outcome, settled by its replies, and the report is
made of these.
-/
theorem Pool.outcomes_of_ended {f : FanOut} {writes : List CaseWrite} {stores : Stores}
    {events : List Event} {p : Pool} (course : Course f (ofWrites f writes stores) events p)
    (ended : p.Ended f)
    : ∃ outcomes,
        outcomes.length = writes.length
        ∧ (∀ (i : Nat) w outcome,
            writes[i]? = some w
            → outcomes[i]? = some outcome
            → w.Settled f.retry.maxAttempts (replies events i) outcome)
        ∧ FanOutReport.ofPool p = .ofOutcomes outcomes
        ∧ (FanOutReport.ofPool p).total = writes.length := by
  have finished := ended.finished (course.keeps_permits (permits_ofWrites f writes stores))
  have same : p.tasks.map Task.write = writes :=
    course.writes.trans (ofWrites_writes f writes stores)
  have each := outcomes_of_finished finished
  have length : (p.tasks.filterMap Task.outcome?).length = writes.length := by
    simpa [← same] using congrArg List.length each
  refine ⟨p.tasks.filterMap Task.outcome?, length, fun i w outcome at_w at_outcome => ?_,
    FanOutReport.ofPool_eq_ofOutcomes p, ?_⟩
  · have settled : p.tasks[i]?.map Task.outcome? = some (some outcome) := by
      rw [← List.getElem?_map, ← each, List.getElem?_map, at_outcome, Option.map_some]
    obtain ⟨t, found, outcome?⟩ := Option.map_eq_some_iff.mp settled
    obtain rfl : t.write = w := by
      rw [← same, List.getElem?_map, found] at at_w
      exact Option.some.inj at_w
    have follows := course.follows found
    cases phase : t.phase <;> simp [Task.outcome?, phase] at outcome?
    rw [phase, outcome?] at follows
    exact follows
  · rw [FanOutReport.ofPool_eq_ofOutcomes, FanOutReport.total_ofOutcomes, length]

/-- Whatever the order of the moves and the replies, each write is sent until a reply comes that
cannot get better and at most as often as attempts are allowed, and it has one entry in the report,
which says what its last reply said; the entries follow the order of the writes. Courses are
bounded, and there is one for all answers that the writes may be given. Sending writes through the
pool takes one to its end, with the answers of the store of cases.
-/
theorem FanOut.execute_accounts (f : FanOut) (writes : List CaseWrite) (stores : Stores)
    : (∀ events p,
          Pool.Course f (Pool.ofWrites f writes stores) events p
          → events.length ≤ (Pool.ofWrites f writes stores).steps f
            ∧ (p.Ended f
                → ∃ outcomes,
                    outcomes.length = writes.length
                    ∧ (∀ (i : Nat) w outcome,
                        writes[i]? = some w
                        → outcomes[i]? = some outcome
                        → w.Settled f.retry.maxAttempts (Pool.replies events i) outcome)
                    ∧ FanOutReport.ofPool p = .ofOutcomes outcomes
                    ∧ (FanOutReport.ofPool p).total = writes.length))
      ∧ (∀ answers, ∃ events p,
          Pool.Course f (Pool.ofWrites f writes stores) events p
          ∧ p.Ended f
          ∧ Pool.Answered answers events)
      ∧ ∃ events p,
          Pool.Course f (Pool.ofWrites f writes stores) events p
          ∧ p.Ended f
          ∧ f.execute writes stores = (.ofPool p, p.stores)
          ∧ stores.cases.inTurn CaseStore.submit (Pool.sent writes events)
            = (events.filterMap Pool.Event.reply, p.stores.cases) := by
  refine ⟨fun events p course => ⟨Pool.course_length_le course, fun ended => ?_⟩,
    fun answers => Pool.Course.start.ends_answered fun _ => ⟨0, rfl⟩, ?_⟩
  · exact Pool.outcomes_of_ended course ended
  · obtain ⟨events, course, answers⟩ :=
      Pool.run_answers f writes stores (Pool.steps f (Pool.ofWrites f writes stores))
    exact ⟨events, _, course,
      Pool.ended_of_finished f (Pool.run_ofWrites_finishes f writes stores), rfl, answers⟩

end CaseGrouping
