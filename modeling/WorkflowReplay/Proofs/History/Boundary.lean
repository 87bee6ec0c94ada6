import WorkflowReplay.Proofs.History.Polling

/-!
# The replay boundary

A batch is replayed as long as every task so far began before the one that is being answered.  From
the first batch that did not, the queue keeps in mind that the live task was reached, whatever later
closing events say of when their tasks began.  So the flags of a history are a run of `true` and
then a run of `false`.
-/

set_option autoImplicit false

namespace WorkflowReplay

inductive HistoryEvent.ClosesTask (e : HistoryEvent) : EventId → Prop where
  | completed {a : Event.DecisionTaskCompleted}
    (attributes : e.attributes = .decisionTaskCompleted a) :
    e.ClosesTask a.startedEventId
  | failed {a : Event.DecisionTaskFailed} (attributes : e.attributes = .decisionTaskFailed a) :
    e.ClosesTask a.startedEventId
  | timedOut {a : Event.DecisionTaskTimedOut}
    (attributes : e.attributes = .decisionTaskTimedOut a) :
    e.ClosesTask a.startedEventId

/-- When the task of a batch began: its last start event says so, or, if that was not delivered, the
event that closes the batch, and then the time is that of the closing event. -/
inductive Batch.BeginsAt (b : Batch) : EventId → Timestamp → Prop where
  | started {before after : List HistoryEvent} {e : HistoryEvent}
    (events : b.events = before ++ e :: after) (starts : e.type = .decisionTaskStarted)
    (last : ∀ x ∈ after, x.type ≠ .decisionTaskStarted) : b.BeginsAt e.id e.timestamp
  | closed {before : List HistoryEvent} {e : HistoryEvent} {id : EventId}
    (events : b.events = before ++ [e]) (never : ∀ x ∈ b.events, x.type ≠ .decisionTaskStarted)
    (closes : e.ClosesTask id) : b.BeginsAt id e.timestamp

namespace BatchQueue

/-! ## The start of a batch -/

theorem closedTask_closes {e : HistoryEvent} (closes : e.type.isDecisionTaskClosing = true) :
    e.ClosesTask (closedTask e) := by
  unfold closedTask
  cases attributes : e.attributes with
  | decisionTaskCompleted a => exact .completed attributes
  | decisionTaskFailed a => exact .failed attributes
  | decisionTaskTimedOut a => exact .timedOut attributes
  | _ =>
    simp [HistoryEvent.type, attributes, EventAttributes.type,
      EventType.isDecisionTaskClosing] at closes

theorem lastStarted?_splits {events : List HistoryEvent} {e : HistoryEvent}
    (last : lastStarted? events = some e) :
    ∃ before after, events = before ++ e :: after ∧ e.type = .decisionTaskStarted ∧
      ∀ x ∈ after, x.type ≠ .decisionTaskStarted := by
  obtain ⟨starts, later, earlier, reverse, quiet⟩ := List.find?_eq_some_iff_append.mp last
  refine ⟨earlier.reverse, later.reverse, ?_, of_decide_eq_true starts, ?_⟩
  · rw [← List.reverse_reverse events, reverse]
    simp
  · intro x member
    have unstarted := quiet x (List.mem_reverse.mp member)
    simpa [EventType.isDecisionTaskStarted] using unstarted

theorem lastStarted?_never {events : List HistoryEvent} (none : lastStarted? events = none) :
    ∀ x ∈ events, x.type ≠ .decisionTaskStarted := by
  intro x member
  have unstarted := List.find?_eq_none.mp none x (List.mem_reverse.mpr member)
  simpa [EventType.isDecisionTaskStarted] using unstarted

end BatchQueue

theorem Batch.Ends.beginsAt {started : EventId} {b : Batch} {rest : List HistoryEvent}
    (ends : b.Ends started rest) :
    b.BeginsAt (BatchQueue.startOf b.events).1 (BatchQueue.startOf b.events).2 := by
  unfold BatchQueue.startOf
  cases last : BatchQueue.lastStarted? b.events with
  | some e =>
    obtain ⟨before, after, split, starts, unstarted⟩ := BatchQueue.lastStarted?_splits last
    exact .started split starts unstarted
  | none =>
    have never := BatchQueue.lastStarted?_never last
    cases ends with
    | @closed before closing events _ closes =>
      have final : b.events.getLast? = some closing := by simp [events]
      simp only [final]
      exact .closed events never (BatchQueue.closedTask_closes closes)
    | live live =>
      -- A batch that nothing closes holds the start of the live task.
      obtain ⟨start, member, starts, -⟩ := live.start
      exact absurd (of_decide_eq_true starts) (never start member)

namespace BatchQueue

/-! ## The latch -/

theorem poll_boundary {q q' : BatchQueue} {b : Batch} (polled : q.poll = (.ready b, q')) :
    b.BeginsAt b.taskStartedId b.time ∧
      b.replay = (!q.liveReached && decide (b.taskStartedId < q.startedEventId)) ∧
      q'.liveReached = (q.liveReached || !b.replay) := by
  have begins := (poll_handsOut polled).ends.beginsAt
  obtain ⟨events, decisionEvents, rest, handed⟩ := poll_handOut polled
  unfold handOut at handed
  simp only [Prod.mk.injEq, NextBatch.ready.injEq] at handed
  obtain ⟨rfl, rfl⟩ := handed
  exact ⟨begins, rfl, rfl⟩

/-- Before the live task was reached, the start of the batch alone decides. -/
theorem poll_ahead {q q' : BatchQueue} {b : Batch} (polled : q.poll = (.ready b, q'))
    (ahead : q.liveReached = false) :
    (b.taskStartedId < q.startedEventId ∧ b.replay = true ∧ q'.liveReached = false) ∨
      (¬ b.taskStartedId < q.startedEventId ∧ b.replay = false ∧ q'.liveReached = true) := by
  obtain ⟨-, replay, latch⟩ := poll_boundary polled
  rw [ahead] at replay latch
  by_cases early : b.taskStartedId < q.startedEventId
  · have replayed : b.replay = true := replay.trans (by simp [early])
    exact .inl ⟨early, replayed, by simp [latch, replayed]⟩
  · have live : b.replay = false := replay.trans (by simp [early])
    exact .inr ⟨early, live, by simp [latch, live]⟩

namespace Polls

variable {q last : BatchQueue} {batches : List Batch}

theorem beginsAt (polls : q.Polls batches last) :
    ∀ b ∈ batches, b.BeginsAt b.taskStartedId b.time := by
  induction polls with
  | idle => simp
  | ready polled _ ih => exact List.forall_mem_cons.mpr ⟨(poll_boundary polled).1, ih⟩

theorem live_once_reached (polls : q.Polls batches last) (reached : q.liveReached = true) :
    ∀ b ∈ batches, b.replay = false := by
  induction polls with
  | idle => simp
  | ready polled _ ih =>
    obtain ⟨-, replay, latch⟩ := poll_boundary polled
    refine List.forall_mem_cons.mpr ⟨?_, ih ?_⟩
    · simp [replay, reached]
    · simp [latch, reached]

/-- Until then, the flags stay `true` up to the first batch whose task began too late. -/
theorem replay_flags_eq (polls : q.Polls batches last) (ahead : q.liveReached = false) :
    batches.map (·.replay) =
      List.replicate
          (batches.takeWhile fun b => b.taskStartedId < q.startedEventId).length true ++
        List.replicate
          (batches.dropWhile fun b => b.taskStartedId < q.startedEventId).length false := by
  induction polls with
  | idle => rfl
  | @ready q q' last b batches polled later ih =>
    rcases poll_ahead polled ahead with ⟨early, replayed, ahead'⟩ | ⟨late, live, reached⟩
    · have later := ih ahead'
      rw [(poll_handsOut polled).started] at later
      simp [early, replayed, later, List.replicate_succ]
    · have none : batches.map (·.replay) = List.replicate batches.length false :=
        List.map_eq_replicate_iff.mpr (later.live_once_reached reached)
      simp [late, live, none, List.replicate_succ]

/-- A batch is replayed as long as all tasks up to its own began early enough. -/
theorem replay_iff {earlier later : List Batch} {b : Batch}
    (polls : q.Polls (earlier ++ b :: later) last) (ahead : q.liveReached = false) :
    b.replay = true ↔ ∀ b' ∈ earlier ++ [b], b'.taskStartedId < q.startedEventId := by
  induction earlier generalizing q with
  | nil =>
    cases polls with
    | ready polled _ => simp [(poll_boundary polled).2.1, ahead]
  | cons first earlier ih =>
    cases polls with
    | ready polled polls =>
      rw [List.cons_append, List.forall_mem_cons]
      rcases poll_ahead polled ahead with ⟨early, -, ahead'⟩ | ⟨late, -, reached⟩
      · have later := ih polls ahead'
        rw [(poll_handsOut polled).started] at later
        simp only [early, true_and]
        exact later
      · have never := polls.live_once_reached reached b (by simp)
        simp [late, never]

theorem stays_live {earlier later : List Batch} {b : Batch}
    (polls : q.Polls (earlier ++ b :: later) last) (live : b.replay = false) :
    ∀ b' ∈ later, b'.replay = false := by
  obtain ⟨q₁, q₂, -, -, polled, rest⟩ := polls.exists_queues_at
  exact rest.live_once_reached (by simp [(poll_boundary polled).2.2, live])

end Polls

theorem ofHistory_ahead {history : List HistoryEvent} {started : EventId} {q : BatchQueue}
    (accepted : ofHistory history started = .ok q) : q.liveReached = false := by
  unfold ofHistory pushPage at accepted
  split at accepted
  · simp at accepted
  · next taken =>
    obtain rfl := Except.ok.inj accepted
    split at taken
    · simp at taken
    · obtain rfl := (Prod.mk.inj taken).2
      rfl

/-- The boundary between replay and the live task is crossed at most once, and it is crossed by the
first batch whose task did not begin before the one that is being answered. -/
theorem boundary_crossed_once {history : List HistoryEvent} {started : EventId} {q : BatchQueue}
    (accepted : ofHistory history started = .ok q) :
    ∃ batches left, (∀ bs last, q.Polls bs last ↔ bs = batches ∧ last = left) ∧
      (∀ b ∈ batches, b.BeginsAt b.taskStartedId b.time) ∧
      (∀ earlier b later, batches = earlier ++ b :: later →
        (b.replay = true ↔ ∀ b' ∈ earlier ++ [b], b'.taskStartedId < started) ∧
        (b.replay = false → ∀ b' ∈ later, b'.replay = false)) ∧
      batches.map (·.replay) =
        List.replicate (batches.takeWhile fun b => b.taskStartedId < started).length true ++
          List.replicate (batches.dropWhile fun b => b.taskStartedId < started).length false := by
  obtain ⟨-, rfl, -⟩ := ofHistory_eq_ok accepted
  have ahead := ofHistory_ahead accepted
  have polls : q.Polls q.drain.1 q.drain.2 := Polls.iff_drain.mpr ⟨rfl, rfl⟩
  refine ⟨q.drain.1, q.drain.2, fun bs last => Polls.iff_drain, polls.beginsAt, ?_,
    polls.replay_flags_eq ahead⟩
  intro earlier b later batches
  rw [batches] at polls
  exact ⟨polls.replay_iff ahead, polls.stays_live⟩

/-- A completed task, the live one, which failed, a task that timed out and whose start is not
there, and an open one.  The third closing event names an earlier start than the second. -/
def timeoutAfterBoundary : List HistoryEvent := historyOf [
  .decisionTaskStarted {}, .decisionTaskCompleted { startedEventId := 1 },
  .decisionTaskStarted {}, .decisionTaskFailed { startedEventId := 3 },
  .decisionTaskTimedOut { startedEventId := 2 }, .decisionTaskStarted {}]

theorem timeout_not_replayed :
    ∃ q first second third fourth left, ofHistory timeoutAfterBoundary 3 = .ok q ∧
      q.Polls [first, second, third, fourth] left ∧ first.replay = true ∧
      second.taskStartedId = 3 ∧ second.replay = false ∧
      third.taskStartedId = 2 ∧ third.replay = false ∧ fourth.replay = false := by
  obtain ⟨q, accepted⟩ : ∃ q, ofHistory timeoutAfterBoundary 3 = .ok q := ⟨_, rfl⟩
  obtain ⟨batches, left, only, -, crossed, -⟩ := boundary_crossed_once accepted
  have polls : q.Polls batches left := (only batches left).mpr ⟨rfl, rfl⟩
  obtain ⟨first, second, third, fourth, rfl, one, three, two⟩ : ∃ first second third fourth,
      batches = [first, second, third, fourth] ∧ first.taskStartedId = 1 ∧
        second.taskStartedId = 3 ∧ third.taskStartedId = 2 := by
    obtain ⟨rfl, -⟩ := Polls.iff_drain.mp polls
    obtain rfl := Except.ok.inj accepted
    exact ⟨_, _, _, _, rfl, rfl, rfl, rfl⟩
  obtain ⟨replayed, -⟩ := crossed [] first [second, third, fourth] rfl
  obtain ⟨boundary, after⟩ := crossed [first] second [third, fourth] rfl
  have live : second.replay = false := by
    rw [Bool.eq_false_iff, ne_eq, boundary]
    simp [one, three]
  have later := after live
  refine ⟨q, first, second, third, fourth, left, accepted, polls, ?_, three, live, two, ?_, ?_⟩
  · rw [replayed]
    simp only [List.nil_append, List.forall_mem_singleton, one]
    decide
  · exact later third (by simp)
  · exact later fourth (by simp)

end BatchQueue

end WorkflowReplay
