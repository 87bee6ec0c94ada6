import WorkflowReplay.Proofs.History.Partition

/-!
# Polling a queue

A queue is polled until it has no batch ready.  That comes to an end for every queue, and says all
there is to know about a history: the batches and what is left over join to the history, a closed
batch ends at the event that closes its task and takes every event of its decisions, and an open
batch is the last one.  Something is left over only if the history does not reach the live task.
-/

set_option autoImplicit false

namespace WorkflowReplay

/-- The batch is closed by its last event, of this type.  It takes the events of its decisions that
stand before `rest`, all of them if the task was completed. -/
structure Batch.IsClosedBy (b : Batch) (type : EventType) (rest : List HistoryEvent) : Prop where
  events : ∃ before closing, b.events = before ++ [closing] ∧ closing.type = type ∧
    type.isDecisionTaskClosing = true ∧ ∀ e ∈ before, e.type.isDecisionTaskClosing = false
  decisions : b.decisionEvents =
    if type = .decisionTaskCompleted then
      (b.decisionEvents ++ rest).takeWhile (fun e => e.type.isDecisionEvent)
    else []
  quiet : ∀ e ∈ b.decisionEvents, e.type.isDecisionTaskClosing = false

structure Batch.IsOpen (b : Batch) (started : EventId) : Prop where
  quiet : ∀ e ∈ b.events, e.type.isDecisionTaskClosing = false
  decisions : b.decisionEvents = []
  start : ∃ e, BatchQueue.lastStarted? b.events = some e ∧ started ≤ e.id

theorem Batch.Ends.events_ne_nil {started : EventId} {b : Batch} {rest : List HistoryEvent}
    (ends : b.Ends started rest) : b.events ≠ [] := by
  cases ends with
  | closed events => simp [events]
  | live live =>
    obtain ⟨start, member, -⟩ := live.start
    exact List.ne_nil_of_mem member

def BatchQueue.closingType? (events : List HistoryEvent) : Option EventType :=
  (events.find? (fun e => e.type.isDecisionTaskClosing)).map (·.type)

theorem Batch.Ends.isClosedBy {started : EventId} {b : Batch} {rest : List HistoryEvent}
    (ends : b.Ends started rest) {type : EventType}
    (closed : BatchQueue.closingType? b.events = some type) :
    b.IsClosedBy type rest := by
  obtain ⟨e, found, rfl⟩ := Option.map_eq_some_iff.mp closed
  have closes : e.type.isDecisionTaskClosing = true :=
    List.find?_some (p := fun e : HistoryEvent => e.type.isDecisionTaskClosing) found
  cases ends with
  | live live =>
    have quiet := live.quiet e (List.mem_of_find?_eq_some found)
    simp [closes] at quiet
  | @closed before closing events quiet closes' decided alone whole =>
    have same : closing = e := by
      rw [events, List.find?_append, List.find?_eq_none.mpr (by simpa using quiet)] at found
      simpa [closes'] using found
    subst same
    refine ⟨⟨before, closing, events, rfl, closes, quiet⟩, ?_, ?_⟩
    · split
      · next completed =>
        exact (BatchQueue.takeWhile_decisions decided (whole completed)).1.symm
      · next other => exact alone other
    · intro e member
      by_contra closing
      have decision := decided e member
      simp [EventType.isDecisionEvent_eq_false (.inr (by simpa using closing))] at decision

theorem Batch.Ends.isOpen {started : EventId} {b : Batch} {rest : List HistoryEvent}
    (ends : b.Ends started rest) (increasing : b.events.Pairwise (fun a b => a.id < b.id))
    (unclosed : BatchQueue.closingType? b.events = none) : b.IsOpen started ∧ rest = [] := by
  cases ends with
  | @closed before closing events _ closes =>
    have never := List.find?_eq_none.mp (Option.map_eq_none_iff.mp unclosed) closing
      (by simp [events])
    simp [closes] at never
  | live live last =>
    obtain ⟨start, member, starts, reaches, -⟩ := live.start
    obtain ⟨e, found, above⟩ := lastStarted?_of_mem increasing member starts
    exact ⟨⟨live.quiet, live.decisions, e, found, Int64.le_trans reaches above⟩, last⟩

namespace BatchQueue

/-! ## One poll -/

theorem poll_handOut {q q' : BatchQueue} {b : Batch} (polled : q.poll = (.ready b, q')) :
    ∃ events decisionEvents rest,
      q.handOut events decisionEvents (closingType? events) rest = (.ready b, q') := by
  cases split : splitAtClosing q.buffer with
  | some found =>
    obtain ⟨events, type, after⟩ := found
    obtain ⟨-, before, closing, events', rfl, closes, quiet⟩ := splitAtClosing_eq_some split
    have label : closingType? events = some closing.type := by
      rw [closingType?, events', List.find?_append, List.find?_eq_none.mpr (by simpa using quiet)]
      simp [closes]
    rw [poll_closed split, ← label] at polled
    split at polled
    · split at polled
      · simp at polled
      · exact ⟨events, _, _, polled⟩
    · exact ⟨events, _, _, polled⟩
  | none =>
    by_cases empty : q.buffer = []
    · rw [poll_empty empty] at polled
      split at polled <;> simp at polled
    · have label : closingType? q.buffer = none := by
        rw [closingType?, List.find?_eq_none.mpr (by simpa using splitAtClosing_eq_none split)]
        rfl
      rw [poll_open empty split, ← label] at polled
      split at polled
      · simp at polled
      · exact ⟨q.buffer, _, _, polled⟩

/-- What a batch says of itself is what its events say, and no id is seen by handing it out. -/
theorem poll_labels {q q' : BatchQueue} {b : Batch} (polled : q.poll = (.ready b, q')) :
    b.closing = closingType? b.events ∧ b.markers = b.all.filter (·.isMarker) ∧
      q'.lastEventId = q.lastEventId := by
  obtain ⟨events, decisionEvents, rest, handed⟩ := poll_handOut polled
  unfold handOut at handed
  simp only [Prod.mk.injEq, NextBatch.ready.injEq] at handed
  obtain ⟨rfl, rfl⟩ := handed
  exact ⟨rfl, rfl, rfl⟩

def IsIdle (q : BatchQueue) : Prop := ∀ b q', q.poll ≠ (.ready b, q')

theorem ready_or_idle (q : BatchQueue) : (∃ b q', q.poll = (.ready b, q')) ∨ q.IsIdle := by
  by_cases ready : ∃ b q', q.poll = (.ready b, q')
  · exact .inl ready
  · exact .inr fun b q' polled => ready ⟨b, q', polled⟩

theorem IsIdle.poll_eq {q : BatchQueue} (idle : q.IsIdle) :
    q.poll = (if q.buffer = [] ∧ q.morePages = false then .exhausted else .incomplete, q) := by
  cases split : splitAtClosing q.buffer with
  | some found =>
    obtain ⟨events, type, after⟩ := found
    have filled : q.buffer ≠ [] := by
      intro empty
      simp [empty, splitAtClosing] at split
    have polled := poll_closed split
    split at polled
    · split at polled
      · rw [polled, if_neg fun nothing => filled nothing.1]
      · exact absurd polled (idle _ _)
    · exact absurd polled (idle _ _)
  | none =>
    by_cases empty : q.buffer = []
    · rw [poll_empty empty]
      cases q.morePages <;> simp [empty]
    · have polled := poll_open empty split
      split at polled
      · rw [polled, if_neg fun nothing => empty nothing.1]
      · exact absurd polled (idle _ _)

/-! ## Polling to the end -/

/-- Polled until no batch is ready, the queue hands out these batches and is left as `last`. -/
inductive Polls : BatchQueue → List Batch → BatchQueue → Prop where
  | idle {q : BatchQueue} (idle : q.IsIdle) : Polls q [] q
  | ready {q q' last : BatchQueue} {b : Batch} {batches : List Batch}
      (polled : q.poll = (.ready b, q')) (later : Polls q' batches last) :
    Polls q (b :: batches) last

theorem IsIdle.pollAll {q : BatchQueue} (idle : q.IsIdle) (fuel : Nat) :
    q.pollAll fuel = ([], q) := by
  cases fuel with
  | zero => rfl
  | succ fuel =>
    rw [BatchQueue.pollAll, idle.poll_eq]
    by_cases nothing : q.buffer = [] ∧ q.morePages = false <;> simp [nothing]

theorem pollAll_polls {q : BatchQueue} {fuel : Nat} (enough : q.buffer.length < fuel) :
    q.Polls (q.pollAll fuel).1 (q.pollAll fuel).2 := by
  induction fuel generalizing q with
  | zero => omega
  | succ fuel ih =>
    rcases q.ready_or_idle with ⟨b, q', polled⟩ | idle
    · have shorter := (poll_handsOut polled).length_lt
      simp only [pollAll, polled]
      exact .ready polled (ih (by omega))
    · rw [idle.pollAll]
      exact .idle idle

namespace Polls

variable {q last : BatchQueue} {batches : List Batch}

theorem unique (polls : q.Polls batches last) {batches' : List Batch} {last' : BatchQueue}
    (again : q.Polls batches' last') : batches' = batches ∧ last' = last := by
  induction polls generalizing batches' with
  | idle idle =>
    cases again with
    | idle => exact ⟨rfl, rfl⟩
    | ready polled => exact absurd polled (idle _ _)
  | ready polled _ ih =>
    cases again with
    | idle idle => exact absurd polled (idle _ _)
    | ready polled' later =>
      cases polled.symm.trans polled'
      obtain ⟨rfl, rfl⟩ := ih later
      exact ⟨rfl, rfl⟩

theorem iff_drain : q.Polls batches last ↔ batches = q.drain.1 ∧ last = q.drain.2 := by
  have drained : q.Polls q.drain.1 q.drain.2 := pollAll_polls (Nat.lt_succ_self _)
  constructor
  · intro polls
    exact drained.unique polls
  · rintro ⟨rfl, rfl⟩
    exact drained

theorem buffer_eq (polls : q.Polls batches last) :
    q.buffer = batches.flatMap Batch.all ++ last.buffer := by
  induction polls with
  | idle => rfl
  | ready polled _ ih =>
    rw [(poll_handsOut polled).buffer, ih, List.flatMap_cons, List.append_assoc]

theorem last_isIdle (polls : q.Polls batches last) :
    last.IsIdle ∧ last.startedEventId = q.startedEventId ∧ last.morePages = q.morePages := by
  induction polls with
  | idle idle => exact ⟨idle, rfl, rfl⟩
  | ready polled _ ih =>
    obtain ⟨idle, started, pages⟩ := ih
    have handed := poll_handsOut polled
    exact ⟨idle, started.trans handed.started, pages.trans handed.pages⟩

theorem exists_queues_at {earlier later : List Batch} {b : Batch}
    (polls : q.Polls (earlier ++ b :: later) last) :
    ∃ q₁ q₂ : BatchQueue, q.buffer = earlier.flatMap Batch.all ++ q₁.buffer ∧
      q₁.startedEventId = q.startedEventId ∧ q₁.poll = (.ready b, q₂) ∧ q₂.Polls later last := by
  induction earlier generalizing q with
  | nil =>
    cases polls with
    | ready polled polls => exact ⟨q, _, rfl, rfl, polled, polls⟩
  | cons first earlier ih =>
    cases polls with
    | ready polled polls =>
      have handed := poll_handsOut polled
      obtain ⟨q₁, q₂, buffer, started, polled', polls'⟩ := ih polls
      refine ⟨q₁, q₂, ?_, started.trans handed.started, polled', polls'⟩
      rw [handed.buffer, buffer, List.flatMap_cons, List.append_assoc]

theorem eq_nil (polls : q.Polls batches last) (empty : q.buffer = []) : batches = [] := by
  cases polls with
  | idle => rfl
  | ready polled =>
    have shorter := (poll_handsOut polled).length_lt
    simp [empty] at shorter

/-- How a batch lies between the batches before it and all that follows it. -/
theorem labels_batch {earlier later : List Batch} {b : Batch}
    (polls : q.Polls (earlier ++ b :: later) last)
    (increasing : q.buffer.Pairwise (fun a b => a.id < b.id)) :
    b.events ≠ [] ∧ b.markers = b.all.filter (·.isMarker) ∧
      (∀ type, b.closing = some type →
        b.IsClosedBy type (later.flatMap Batch.all ++ last.buffer)) ∧
      (b.closing = none → later = [] ∧ last.buffer = [] ∧ b.IsOpen q.startedEventId) := by
  obtain ⟨q₁, q₂, before, started, polled, polls'⟩ := polls.exists_queues_at
  have handed := poll_handsOut polled
  have ends := handed.ends
  rw [started] at ends
  obtain ⟨closing, markers, -⟩ := poll_labels polled
  refine ⟨ends.events_ne_nil, markers, ?_, ?_⟩
  · intro type closed
    rw [← polls'.buffer_eq]
    exact ends.isClosedBy (closing.symm.trans closed)
  · intro unclosed
    have ordered : b.events.Pairwise (fun a b => a.id < b.id) := by
      rw [before, handed.buffer] at increasing
      have rest := (List.pairwise_append.mp increasing).2.1
      have all := (List.pairwise_append.mp rest).1
      exact (List.pairwise_append.mp all).1
    obtain ⟨isOpen, nothing⟩ := ends.isOpen ordered (closing.symm.trans unclosed)
    obtain rfl := polls'.eq_nil nothing
    exact ⟨rfl, polls'.buffer_eq.symm.trans nothing, isOpen⟩

theorem last_poll_answer (polls : q.Polls batches last) (pages : q.morePages = false) :
    (last.poll = (.exhausted, last) ↔ last.buffer = []) ∧
      (last.buffer ≠ [] → last.poll = (.incomplete, last) ∧
        (∀ e ∈ last.buffer, e.type.isDecisionTaskClosing = false) ∧
        ∀ e ∈ lastStarted? last.buffer, e.id < q.startedEventId) := by
  obtain ⟨idle, started, pages'⟩ := polls.last_isIdle
  have polled := idle.poll_eq
  simp only [pages', pages, and_true] at polled
  constructor
  · rw [polled]
    by_cases nothing : last.buffer = [] <;> simp [nothing]
  · intro some
    rw [if_neg some] at polled
    obtain ⟨-, nothing | isShort⟩ := poll_unready (pages'.trans pages) idle
    · exact absurd nothing some
    · exact ⟨polled, isShort.quiet, started ▸ isShort.short⟩

end Polls

/-- Polling cuts a history into batches, and comes to an end that leaves over only what does not
reach the live task. -/
theorem polling_partitions {history : List HistoryEvent} {started : EventId} {q : BatchQueue}
    (accepted : ofHistory history started = .ok q) :
    ∃ batches left, (∀ bs last, q.Polls bs last ↔ bs = batches ∧ last = left) ∧
      batches.flatMap Batch.all ++ left.buffer = history ∧
      (∀ earlier b later, batches = earlier ++ b :: later →
        b.events ≠ [] ∧ b.markers = b.all.filter (·.isMarker) ∧
        (∀ type, b.closing = some type →
          b.IsClosedBy type (later.flatMap Batch.all ++ left.buffer)) ∧
        (b.closing = none → later = [] ∧ left.buffer = [] ∧ b.IsOpen started)) ∧
      (left.poll = (.exhausted, left) ↔ left.buffer = []) ∧
      (left.buffer ≠ [] → left.poll = (.incomplete, left) ∧
        (∀ e ∈ left.buffer, e.type.isDecisionTaskClosing = false) ∧
        ∀ e ∈ lastStarted? left.buffer, e.id < started) := by
  obtain ⟨buffer, rfl, pages, increasing, -⟩ := ofHistory_eq_ok accepted
  have polls : q.Polls q.drain.1 q.drain.2 := Polls.iff_drain.mpr ⟨rfl, rfl⟩
  refine ⟨q.drain.1, q.drain.2, ?_, polls.buffer_eq.symm.trans buffer, ?_, polls.last_poll_answer
    pages⟩
  · intro bs last
    exact Polls.iff_drain
  · intro earlier b later batches
    rw [batches] at polls
    exact polls.labels_batch (buffer ▸ increasing)

/-- A completed task with its decisions, a failed one, and a signal that no task has seen. -/
def signalAfterFailure : List HistoryEvent := historyOf [
  .decisionTaskStarted {}, .decisionTaskCompleted { startedEventId := 1 }, .markerRecorded {},
  .timerStarted { timerId := "t" }, .workflowExecutionSignaled { signalName := "s" },
  .decisionTaskStarted {}, .decisionTaskFailed { startedEventId := 6 },
  .workflowExecutionSignaled { signalName := "s" }]

theorem signal_left_over :
    ∃ q batches left, ofHistory signalAfterFailure 9 = .ok q ∧ q.Polls batches left ∧
      batches.flatMap Batch.all ++ left.buffer = signalAfterFailure ∧
      left.buffer = signalAfterFailure.drop 7 ∧ left.poll = (.incomplete, left) := by
  obtain ⟨q, accepted⟩ : ∃ q, ofHistory signalAfterFailure 9 = .ok q := ⟨_, rfl⟩
  obtain ⟨batches, left, only, history, -, -, unfinished⟩ := polling_partitions accepted
  have polls : q.Polls batches left := (only batches left).mpr ⟨rfl, rfl⟩
  have rest : left.buffer = signalAfterFailure.drop 7 := by
    obtain ⟨-, rfl⟩ := Polls.iff_drain.mp polls
    obtain rfl := Except.ok.inj accepted
    rfl
  refine ⟨q, batches, left, accepted, polls, history, rest, (unfinished ?_).1⟩
  rw [rest]
  decide

end BatchQueue

end WorkflowReplay
