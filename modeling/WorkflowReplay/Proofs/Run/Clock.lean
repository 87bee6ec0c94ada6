import WorkflowReplay.Proofs.History.Polling
import WorkflowReplay.Proofs.Run.LostAnswers
import WorkflowReplay.Proofs.Schedule.Polls

/-!
# The clock of a run

The clock is set once for a batch, to the time of the last event of the batch that started a task,
or, in a batch whose start was not delivered, to the time of its last event.  An engine that is kept
walks through batches that it has applied, and then the clock does go back; but no code runs in such
a batch, because an engine at rest has no task that is ready until an event is new to it.  So the
code is never shown an earlier time than before, as long as the times of the history do not go back.
The clock shows milliseconds, and counts those of a leap second again in the second that follows.
-/

set_option autoImplicit false

namespace WorkflowReplay

open Schedule

/-! ## The order of points in time -/

namespace Timestamp

instance : LE Timestamp :=
  ⟨fun t u => t.seconds < u.seconds ∨ (t.seconds = u.seconds ∧ t.nanos ≤ u.nanos)⟩

theorem le_iff {t u : Timestamp} :
    t ≤ u ↔ t.seconds < u.seconds ∨ (t.seconds = u.seconds ∧ t.nanos ≤ u.nanos) := .rfl

instance (t u : Timestamp) : Decidable (t ≤ u) :=
  inferInstanceAs (Decidable (t.seconds < u.seconds ∨ (t.seconds = u.seconds ∧ t.nanos ≤ u.nanos)))

theorem le_refl (t : Timestamp) : t ≤ t := .inr ⟨rfl, Nat.le_refl _⟩

theorem le_trans {t u v : Timestamp} (first : t ≤ u) (second : u ≤ v) : t ≤ v := by
  rw [le_iff] at *
  omega

def InLeapSecond (t : Timestamp) : Prop := 1000000000 ≤ t.nanos

/-- The milliseconds go with the order, except those of a leap second. -/
theorem millis_le_millis {t u : Timestamp} (le : t ≤ u) (plain : ¬ t.InLeapSecond) :
    t.millis ≤ u.millis := by
  have within : t.nanos < 1000000000 := Nat.not_le.mp plain
  unfold millis
  rcases le with before | ⟨same, upTo⟩
  · omega
  · have : t.nanos / 1000000 ≤ u.nanos / 1000000 := Nat.div_le_div_right upTo
    omega

end Timestamp

/-! ## The time of a batch -/

/-- The batch shows the time of one of its events: of the last one that started a task, if there is
one. -/
structure Batch.ShowsTimeOf (b : Batch) (w : HistoryEvent) : Prop where
  member : w ∈ b.events
  time : b.time = w.timestamp
  last : ∀ s ∈ BatchQueue.lastStarted? b.all, w = s

namespace BatchQueue

theorem lastStarted?_append (first second : List HistoryEvent) :
    lastStarted? (first ++ second) = (lastStarted? second).or (lastStarted? first) := by
  simp only [lastStarted?, List.reverse_append, List.find?_append]

theorem lastStarted?_eq_none {events : List HistoryEvent}
    (never : ∀ e ∈ events, e.type.isDecisionTaskStarted = false) : lastStarted? events = none :=
  List.find?_eq_none.mpr fun e member => by simpa using never e (List.mem_reverse.mp member)

theorem lastStarted?_split {before after : List HistoryEvent} {s : HistoryEvent}
    (starts : s.type.isDecisionTaskStarted = true)
    (never : ∀ e ∈ after, e.type.isDecisionTaskStarted = false) :
    lastStarted? (before ++ s :: after) = some s := by
  have here : lastStarted? [s] = some s := by simp [lastStarted?, starts]
  rw [show before ++ s :: after = before ++ ([s] ++ after) from rfl, lastStarted?_append,
    lastStarted?_append, lastStarted?_eq_none never, here]
  rfl

end BatchQueue

theorem Batch.Ends.lastStarted? {started : EventId} {b : Batch} {rest : List HistoryEvent}
    (ends : b.Ends started rest) :
    BatchQueue.lastStarted? b.all = BatchQueue.lastStarted? b.events := by
  have never : ∀ e ∈ b.decisionEvents, e.type.isDecisionTaskStarted = false := by
    intro e member
    cases ends with
    | live live => simp [live.decisions] at member
    | closed _ _ _ decided =>
      have decision := decided e member
      by_contra starts
      simp [EventType.isDecisionEvent_eq_false (.inl (by simpa using starts))] at decision
  rw [Batch.all, BatchQueue.lastStarted?_append, BatchQueue.lastStarted?_eq_none never]
  rfl

theorem BatchQueue.poll_showsTime {q q' : BatchQueue} {b : Batch}
    (polled : q.poll = (.ready b, q')) : ∃ w, b.ShowsTimeOf w := by
  have ends := (poll_handsOut polled).ends
  have same := ends.lastStarted?
  have some := ends.events_ne_nil
  have time : b.time = (startOf b.events).2 := by
    obtain ⟨events, decisionEvents, rest, handed⟩ := poll_handOut polled
    unfold handOut at handed
    simp only [Prod.mk.injEq, NextBatch.ready.injEq] at handed
    obtain ⟨rfl, -⟩ := handed
    rfl
  unfold startOf at time
  cases last : BatchQueue.lastStarted? b.events with
  | some s =>
    simp only [last] at time
    refine ⟨s, (lastStarted?_eq_some last).1, time, ?_⟩
    rw [same, last]
    rintro _ ⟨⟩
    rfl
  | none =>
    have end' := List.getLast?_eq_some_getLast some
    simp only [last, end'] at time
    refine ⟨b.events.getLast some, List.getLast_mem some, time, ?_⟩
    simp [same, last]

theorem DecisionTask.batch_showsTime {t : DecisionTask} {b : Batch} (member : b ∈ t.batches) :
    ∃ w, b.ShowsTimeOf w := by
  unfold DecisionTask.batches at member
  split at member
  · next q _ =>
    have polls : q.Polls q.drain.1 q.drain.2 := BatchQueue.Polls.iff_drain.mpr ⟨rfl, rfl⟩
    obtain ⟨earlier, later, batches⟩ := List.append_of_mem member
    rw [batches] at polls
    obtain ⟨q₁, q₂, -, -, polled, -⟩ := polls.exists_queues_at
    exact BatchQueue.poll_showsTime polled
  · simp at member

/-! ## Places in a history -/

theorem mem_of_between {history part : List HistoryEvent} (contained : part <:+: history)
    (increasing : history.Pairwise (fun a b => a.id < b.id)) {w x y : HistoryEvent}
    (left : w ∈ part) (right : y ∈ part) (member : x ∈ history) (above : w.id < x.id)
    (below : x.id < y.id) : x ∈ part := by
  obtain ⟨before, after, rfl⟩ := contained
  obtain ⟨front, -, behind⟩ := List.pairwise_append.mp increasing
  have ahead := (List.pairwise_append.mp front).2.2
  rcases List.mem_append.mp member with inFront | inBack
  · rcases List.mem_append.mp inFront with first | here
    · exact absurd above (Int64.not_lt.mpr (Int64.le_of_lt (ahead x first w left)))
    · exact here
  · have later := behind y (List.mem_append_right _ right) x inBack
    exact absurd below (Int64.not_lt.mpr (Int64.le_of_lt later))

/-- The ids of a history increase, and its times do not decrease. -/
def RunsForward (history : List HistoryEvent) : Prop :=
  history.Pairwise fun a b => a.id < b.id ∧ a.timestamp ≤ b.timestamp

instance (history : List HistoryEvent) : Decidable (RunsForward history) :=
  inferInstanceAs (Decidable (history.Pairwise _))

theorem RunsForward.increasing {history : List HistoryEvent} (forward : RunsForward history) :
    history.Pairwise (fun a b => a.id < b.id) := forward.imp And.left

theorem RunsForward.timestamp_le {history : List HistoryEvent} (forward : RunsForward history)
    {x y : HistoryEvent} (first : x ∈ history) (second : y ∈ history) (upTo : x.id ≤ y.id) :
    x.timestamp ≤ y.timestamp := by
  obtain ⟨before, after, rfl⟩ := List.append_of_mem second
  obtain ⟨-, behind, ahead⟩ := List.pairwise_append.mp forward
  rcases List.mem_append.mp first with earlier | here
  · exact (ahead x earlier y (by simp)).2
  · rcases List.mem_cons.mp here with rfl | later
    · exact Timestamp.le_refl _
    · have beyond := ((List.pairwise_cons.mp behind).1 x later).1
      exact absurd upTo (Int64.not_le.mpr beyond)

/-! ## The polls of an engine -/

def Schedule.Poll.clock (p : Poll calls) : Int := p.world.shared.time

namespace Engine

variable {e e' : Engine} {history : List HistoryEvent}

def pollsOfBatch (e : Engine) (b : Batch) : List (Poll calls) :=
  match (e.enter b).applyEvents b.events with
  | (.ok (), e) => polls Run.meaning e.runnable e.scheduler.world
  | _ => []

def pollsOfBatches (e : Engine) : List Batch → List (Batch × Poll calls)
  | [] => []
  | b :: rest =>
    (e.pollsOfBatch b).map (b, ·) ++
      match e.applyBatch b with
      | (.ok (), e) => e.pollsOfBatches rest
      | _ => []

def pollsOfTasks (e : Engine) : List DecisionTask → List (Batch × Poll calls)
  | [] => []
  | t :: ts =>
    (e.startFor t).pollsOfBatches t.batches ++
      match e.process t with
      | (.ok _, e) => e.pollsOfTasks ts
      | _ => []

theorem pollsOfBatch_clock {b : Batch} {p : Poll calls} (member : p ∈ e.pollsOfBatch b) :
    p.clock = b.time.millis := by
  unfold pollsOfBatch at member
  split at member
  · next entered events =>
    obtain ⟨sideEffects, context⟩ := enter_eq e b
    have applied := (applyEvents_fixed (e.enter b) b.events).1.time
    rw [events, context] at applied
    have seen := (polls_keep Run.keeps_fixed _ _ p member).time
    exact seen.trans applied
  · simp at member

theorem poll_sees_clock (p : Poll calls) :
    ∀ g ∈ p.code.calls Run.meaning p.task p.world, g.world.shared.time = p.clock := by
  intro g member
  exact (Code.calls_keep Run.keeps_fixed p.task p.code p.world g member).1.time

theorem pollsOfBatches_clock {bs : List Batch} {q : Batch × Poll calls}
    (member : q ∈ e.pollsOfBatches bs) : q.1 ∈ bs ∧ q.2.clock = q.1.time.millis := by
  induction bs generalizing e with
  | nil => simp [pollsOfBatches] at member
  | cons b rest ih =>
    rcases List.mem_append.mp member with now | later
    · obtain ⟨p, polled, rfl⟩ := List.mem_map.mp now
      exact ⟨by simp, pollsOfBatch_clock polled⟩
    · split at later
      · obtain ⟨among, clock⟩ := ih later
        exact ⟨List.mem_cons_of_mem _ among, clock⟩
      · simp at later

/-! ## No code runs before there is something new -/

theorem Rested.pollsOfBatch_of_seen (h : Rested e) {b : Batch}
    (old : ∀ event ∈ b.events, event.id ≤ e.lastEventId) : e.pollsOfBatch b = [] := by
  have seen := applyEvents_of_seen b.events (e := e.enter b) (by rwa [enter_lastEventId])
  unfold pollsOfBatch
  rw [seen]
  exact polls_idle Run.meaning _ _ (h.enter b).ready

/-- An engine at rest lets code run in a batch only if it met an event that is new to it. -/
theorem Rested.pollsOfBatches_has_new_event (h : Rested e) {bs : List Batch}
    {q : Batch × Poll calls} (member : q ∈ e.pollsOfBatches bs) :
    ∃ earlier later, bs = earlier ++ q.1 :: later ∧
      ∃ y ∈ earlier.flatMap Batch.all ++ q.1.events, e.lastEventId < y.id := by
  induction bs generalizing e with
  | nil => simp [pollsOfBatches] at member
  | cons b rest ih =>
    rcases List.mem_append.mp member with now | later
    · obtain ⟨p, polled, rfl⟩ := List.mem_map.mp now
      refine ⟨[], rest, rfl, ?_⟩
      by_contra nothing
      have old : ∀ event ∈ b.events, event.id ≤ e.lastEventId := fun event member =>
        Int64.not_lt.mp fun new => nothing ⟨event, by simpa using member, new⟩
      simp [h.pollsOfBatch_of_seen old] at polled
    · split at later
      · next e₁ applied =>
        by_cases new : ∃ y ∈ b.all, e.lastEventId < y.id
        · obtain ⟨y, here, new⟩ := new
          obtain ⟨among, -⟩ := pollsOfBatches_clock later
          obtain ⟨earlier, after, split⟩ := List.append_of_mem among
          exact ⟨b :: earlier, after, by rw [split]; rfl, y, by simp [here], new⟩
        · have old (event : HistoryEvent) (here : event ∈ b.all) : event.id ≤ e.lastEventId :=
            Int64.not_lt.mp fun later => new ⟨event, here, later⟩
          have passed :=
            h.applyBatch_of_seen b (fun event here => old event (List.mem_append_left _ here))
            (fun event here => old event (List.mem_append_right _ here))
          obtain rfl : e.enter b = e₁ := congrArg Prod.snd (passed.symm.trans applied)
          obtain ⟨earlier, after, split, y, there, new⟩ := ih (h.enter b) later
          rw [enter_lastEventId] at new
          refine ⟨b :: earlier, after, by rw [split]; rfl, y, ?_, new⟩
          rw [List.flatMap_cons, List.append_assoc]
          exact List.mem_append_right _ there
      · simp at later

/-! ## One task -/

/-- The engine knows of a task that was started at this time or later. -/
def HasPassed (e : Engine) (history : List HistoryEvent) (time : Timestamp) : Prop :=
  ∃ x ∈ history, x.type.isDecisionTaskStarted = true ∧ x.id ≤ e.lastEventId ∧ time ≤ x.timestamp

structure LieIn (history : List HistoryEvent) (bs : List Batch) : Prop where
  contained : bs.flatMap Batch.all <:+: history
  timed : ∀ b ∈ bs, ∃ w, b.ShowsTimeOf w

theorem LieIn.tail {b : Batch} {rest : List Batch} (lie : LieIn history (b :: rest)) :
    LieIn history rest where
  contained := by
    have whole := lie.contained
    rw [List.flatMap_cons] at whole
    exact (List.suffix_append _ _).isInfix.trans whole
  timed b' member := lie.timed b' (List.mem_cons_of_mem _ member)

theorem LieIn.exists_shown_time {bs : List Batch} (lie : LieIn history bs) {b : Batch}
    (member : b ∈ bs) :
    ∃ w ∈ history, b.ShowsTimeOf w := by
  obtain ⟨w, shows⟩ := lie.timed b member
  have handed : w ∈ bs.flatMap Batch.all :=
    List.mem_flatMap.mpr ⟨b, member, List.mem_append_left _ shows.member⟩
  exact ⟨w, lie.contained.subset handed, shows⟩

theorem LieIn.times_ascend (forward : RunsForward history) {bs : List Batch}
    (lie : LieIn history bs) : bs.Pairwise fun b b' => b.time ≤ b'.time := by
  induction bs with
  | nil => exact .nil
  | cons b rest ih =>
    refine List.pairwise_cons.mpr ⟨?_, ih lie.tail⟩
    intro b' later
    obtain ⟨w, shows⟩ := lie.timed b (by simp)
    obtain ⟨w', shows'⟩ := lie.timed b' (List.mem_cons_of_mem _ later)
    have here : w ∈ b.all := List.mem_append_left _ shows.member
    have there : w' ∈ rest.flatMap Batch.all :=
      List.mem_flatMap.mpr ⟨b', later, List.mem_append_left _ shows'.member⟩
    have contained := lie.contained
    rw [List.flatMap_cons] at contained
    have increasing := forward.increasing.sublist contained.sublist
    have below := (List.pairwise_append.mp increasing).2.2 w here w' there
    rw [shows.time, shows'.time]
    exact forward.timestamp_le (contained.subset (List.mem_append_left _ here))
      (contained.subset (List.mem_append_right _ there)) (Int64.le_of_lt below)

theorem LieIn.polls_ascend (forward : RunsForward history) {bs : List Batch}
    (lie : LieIn history bs) :
    (e.pollsOfBatches bs).Pairwise fun q r => q.1.time ≤ r.1.time := by
  induction bs generalizing e with
  | nil => exact .nil
  | cons b rest ih =>
    refine List.pairwise_append.mpr ⟨?_, ?_, ?_⟩
    · refine List.pairwise_of_forall_mem_list ?_
      intro q first r second
      obtain ⟨p, -, rfl⟩ := List.mem_map.mp first
      obtain ⟨p', -, rfl⟩ := List.mem_map.mp second
      exact Timestamp.le_refl _
    · split
      · exact ih lie.tail
      · exact .nil
    · intro q first r second
      obtain ⟨p, -, rfl⟩ := List.mem_map.mp first
      split at second
      · obtain ⟨among, -⟩ := pollsOfBatches_clock second
        exact (List.pairwise_cons.mp (lie.times_ascend forward)).1 r.1 among
      · simp at second

theorem Rested.time_le_of_passed (h : Rested e) (forward : RunsForward history) {bs : List Batch}
    (lie : LieIn history bs) {q : Batch × Poll calls} (member : q ∈ e.pollsOfBatches bs)
    {time : Timestamp} (passed : e.HasPassed history time) : time ≤ q.1.time := by
  obtain ⟨x, inHistory, starts, known, after⟩ := passed
  obtain ⟨earlier, later, split, y, met, new⟩ := h.pollsOfBatches_has_new_event member
  obtain ⟨among, -⟩ := pollsOfBatches_clock member
  obtain ⟨w, shows⟩ := lie.timed q.1 among
  have below : x.id < y.id := Int64.lt_of_le_of_lt known new
  have contained : earlier.flatMap Batch.all ++ (q.1.events ++
      (q.1.decisionEvents ++ later.flatMap Batch.all)) <:+: history := by
    have whole := lie.contained
    rw [split, List.flatMap_append, List.flatMap_cons, Batch.all, List.append_assoc] at whole
    exact whole
  have increasing := forward.increasing.sublist contained.sublist
  have shown : w ∈ history := contained.subset (by simp [shows.member])
  -- The start that the engine knows does not lie behind the event whose time is shown.
  have upTo : x.id ≤ w.id := by
    by_contra behind
    have behind : w.id < x.id := Int64.not_le.mp behind
    rcases List.mem_append.mp met with before | here
    · have ahead := (List.pairwise_append.mp increasing).2.2 y before w (by simp [shows.member])
      exact Int64.lt_irrefl (Int64.lt_trans (Int64.lt_trans below ahead) behind)
    · have part : q.1.events <:+: history :=
        List.IsInfix.trans ⟨earlier.flatMap Batch.all, _, List.append_assoc _ _ _⟩ contained
      have inBatch : x ∈ q.1.events :=
        mem_of_between part forward.increasing shows.member here inHistory behind below
      have ordered : q.1.all.Pairwise (fun a b => a.id < b.id) := by
        rw [← List.append_assoc, ← List.append_assoc, List.append_assoc _ q.1.events] at increasing
        exact (List.pairwise_append.mp (List.pairwise_append.mp increasing).1).2.1
      obtain ⟨s, last, above⟩ := lastStarted?_of_mem ordered (List.mem_append_left _ inBatch) starts
      rw [shows.last s last] at behind
      exact Int64.not_lt.mpr above behind
  rw [shows.time]
  exact Timestamp.le_trans after (forward.timestamp_le inHistory shown upTo)

theorem le_reach (id : EventId) {events : List HistoryEvent}
    (increasing : events.Pairwise (fun a b => a.id < b.id)) :
    id ≤ reach id events ∧ ∀ y ∈ events, y.id ≤ reach id events := by
  unfold reach
  cases end' : events.getLast? with
  | none =>
    rw [List.getLast?_eq_none_iff.mp end']
    exact ⟨Int64.le_refl _, by simp⟩
  | some last =>
    obtain ⟨before, rfl⟩ := List.getLast?_eq_some_iff.mp end'
    have below := (List.pairwise_append.mp increasing).2.2
    change id ≤ (if id ≤ last.id then last.id else id) ∧
      ∀ y ∈ before ++ [last], y.id ≤ if id ≤ last.id then last.id else id
    have bound : last.id ≤ if id ≤ last.id then last.id else id := by
      split
      · exact Int64.le_refl _
      · next behind => exact Int64.le_of_lt (Int64.not_le.mp behind)
    refine ⟨?_, ?_⟩
    · split
      · assumption
      · exact Int64.le_refl _
    · intro y member
      rcases List.mem_append.mp member with earlier | here
      · exact Int64.le_trans (Int64.le_of_lt (below y earlier last (by simp))) bound
      · rw [List.mem_singleton.mp here]
        exact bound

/-- The task belongs to a run with this history, and is open at the end of what it delivers. -/
structure Delivers (history : List HistoryEvent) (t : DecisionTask) : Prop where
  part : t.history <:+: history
  opened : LeavesOpen t.startedEventId t.history

theorem Delivers.lieIn {t : DecisionTask} (delivers : Delivers history t) {c : Completion}
    (answered : e.process t = (.ok c, e')) : LieIn history t.batches where
  contained := by
    obtain ⟨q, accepted⟩ := process_history_accepted answered
    have whole := delivers.part
    rw [(DecisionTask.history_eq accepted).1] at whole
    exact (List.prefix_append _ _).isInfix.trans whole
  timed b member := DecisionTask.batch_showsTime member

theorem Delivers.process_passes_times (forward : RunsForward history) {t : DecisionTask}
    (delivers : Delivers history t) {c : Completion} (answered : e.process t = (.ok c, e')) :
    (∀ time, (e.startFor t).HasPassed history time → e'.HasPassed history time) ∧
      ∀ b ∈ t.batches, e'.HasPassed history b.time := by
  have lie := delivers.lieIn answered
  obtain ⟨q, accepted⟩ := process_history_accepted answered
  obtain ⟨earlier, live, batches, isLive⟩ :=
    DecisionTask.exists_live_last_batch accepted delivers.opened
  obtain ⟨-, -, -, reached, -⟩ := process_consumes answered
  have increasing := handedOut_increasing accepted
  obtain ⟨kept, all⟩ := le_reach (e.startFor t).lastEventId increasing
  rw [← reached] at kept all
  refine ⟨?_, ?_⟩
  · rintro time ⟨x, inHistory, starts, known, after⟩
    exact ⟨x, inHistory, starts, Int64.le_trans known kept, after⟩
  · intro b member
    have last : live ∈ t.batches := by simp [batches]
    obtain ⟨w, shows⟩ := lie.timed live last
    obtain ⟨start, inLive, starts, -⟩ := isLive.start
    have ordered : live.all.Pairwise (fun a b => a.id < b.id) := by
      unfold DecisionTask.handedOut at increasing
      rw [batches, List.flatMap_append, List.flatMap_singleton] at increasing
      exact (List.pairwise_append.mp increasing).2.1
    obtain ⟨s, lastStart, -⟩ :=
      lastStarted?_of_mem ordered (List.mem_append_left _ inLive) starts
    obtain rfl := shows.last s lastStart
    have handed : w ∈ t.handedOut :=
      List.mem_flatMap.mpr ⟨live, last, List.mem_append_left _ shows.member⟩
    refine ⟨w, lie.contained.subset handed, (BatchQueue.lastStarted?_eq_some lastStart).2,
      all w handed, ?_⟩
    rw [← shows.time]
    have ascend := lie.times_ascend forward
    rw [batches] at ascend member
    rcases List.mem_append.mp member with before | here
    · exact (List.pairwise_append.mp ascend).2.2 b before live (by simp)
    · rw [List.mem_singleton.mp here]
      exact Timestamp.le_refl _

/-! ## A run -/

theorem new_rested (info : RunInfo) (workflow : Workflow) : Rested (new info workflow) :=
  ⟨rfl, rfl, rfl, rfl⟩

theorem answer?_eq_some {t : DecisionTask} {a : Answer} (answered : e.answer? t = some (a, e')) :
    e.startFor t = e ∧ e.process t = (.ok a.completion, e') := by
  unfold answer? at answered
  split at answered
  · simp at answered
  · next goesOn =>
    split at answered
    · next completion _ processed =>
      cases answered
      exact ⟨if_neg goesOn, processed⟩
    · simp at answered

/-- What code is shown from some moment on does not go back, neither behind what was passed before
nor behind what was shown since. -/
theorem Rested.polls_ascend (forward : RunsForward history) {ts : List DecisionTask}
    {answers : List Answer} (h : Rested e) (delivers : ∀ t ∈ ts, Delivers history t)
    (answered : e.answers? ts = some (answers, e')) :
    (e.pollsOfTasks ts).Pairwise (fun q r => q.1.time ≤ r.1.time) ∧
      ∀ q ∈ e.pollsOfTasks ts, (∃ w ∈ history, q.1.ShowsTimeOf w) ∧
        ∀ time, e.HasPassed history time → time ≤ q.1.time := by
  induction ts generalizing e answers with
  | nil => exact ⟨.nil, by simp [pollsOfTasks]⟩
  | cons t ts ih =>
    obtain ⟨a, e₁, as, first, later, rfl⟩ := answers?_cons_cases answered
    obtain ⟨start, processed⟩ := answer?_eq_some first
    have delivered := delivers t (by simp)
    have lie := delivered.lieIn processed
    obtain ⟨kept, passed⟩ := delivered.process_passes_times forward processed
    obtain ⟨ascend, after⟩ := ih (process_leaves_rested processed delivered.opened).1
      (fun t member => delivers t (List.mem_cons_of_mem _ member)) later
    rw [start] at kept
    simp only [pollsOfTasks, start, processed]
    refine ⟨List.pairwise_append.mpr ⟨lie.polls_ascend forward, ascend, ?_⟩, ?_⟩
    · -- What was shown in this task, the engine has passed when the next one comes.
      intro q now r then'
      obtain ⟨among, -⟩ := pollsOfBatches_clock now
      exact (after r then').2 _ (passed q.1 among)
    · intro q member
      rcases List.mem_append.mp member with now | then'
      · obtain ⟨among, -⟩ := pollsOfBatches_clock now
        exact ⟨lie.exists_shown_time among, fun time before => h.time_le_of_passed forward lie now
          before⟩
      · obtain ⟨shown, later⟩ := after q then'
        exact ⟨shown, fun time before => later time (kept time before)⟩

theorem pollsOfTasks_clock {ts : List DecisionTask} {q : Batch × Poll calls}
    (member : q ∈ e.pollsOfTasks ts) : q.2.clock = q.1.time.millis := by
  induction ts generalizing e with
  | nil => simp [pollsOfTasks] at member
  | cons t ts ih =>
    rcases List.mem_append.mp member with now | later
    · exact (pollsOfBatches_clock now).2
    · split at later
      · exact ih later
      · simp at later

/-- The clock never goes back for workflow code.  An engine answers tasks of one run, each with a
part of its history that the task leaves open, and the times of that history do not decrease from
event to event.  Then the times that the code is shown, from poll to poll over all tasks, do not
decrease either, and neither do their milliseconds, which are what it sees, if the history has no
leap second; in a poll the code sees one time all along; and in a batch in which tasks were started
it is the time of the last of their starts. -/
theorem clock_never_goes_back {info : RunInfo} {workflow : Workflow} {history : List HistoryEvent}
    (forward : RunsForward history) {ts : List DecisionTask}
    (delivers : ∀ t ∈ ts, Delivers history t) {answers : List Answer} {e' : Engine}
    (answered : (new info workflow).answers? ts = some (answers, e')) :
    (((new info workflow).pollsOfTasks ts).map fun q => q.1.time).Pairwise (· ≤ ·) ∧
      ((∀ x ∈ history, ¬ x.timestamp.InLeapSecond) →
        (((new info workflow).pollsOfTasks ts).map fun q => q.2.clock).Pairwise (· ≤ ·)) ∧
      ∀ q ∈ (new info workflow).pollsOfTasks ts,
        q.2.clock = q.1.time.millis ∧
        (∀ g ∈ q.2.code.calls Run.meaning q.2.task q.2.world, g.world.shared.time = q.2.clock) ∧
        ∀ before start after, q.1.all = before ++ start :: after →
          start.type.isDecisionTaskStarted = true →
          (∀ x ∈ after, x.type.isDecisionTaskStarted = false) →
          q.2.clock = start.timestamp.millis := by
  obtain ⟨ascend, shown⟩ := (new_rested info workflow).polls_ascend forward delivers answered
  refine ⟨List.pairwise_map.mpr ascend, ?_, ?_⟩
  · intro plain
    refine List.pairwise_map.mpr (ascend.imp_of_mem ?_)
    intro q r first second upTo
    obtain ⟨⟨w, inHistory, shows⟩, -⟩ := shown q first
    rw [pollsOfTasks_clock first, pollsOfTasks_clock second]
    exact Timestamp.millis_le_millis upTo (shows.time ▸ plain w inHistory)
  · intro q member
    have clock := pollsOfTasks_clock member
    refine ⟨clock, poll_sees_clock q.2, ?_⟩
    intro before start after split starts never
    obtain ⟨⟨w, -, shows⟩, -⟩ := shown q member
    have last : BatchQueue.lastStarted? q.1.all = some start := by
      rw [split]
      exact BatchQueue.lastStarted?_split starts never
    rw [clock, shows.time, shows.last start last]

def oneActivityRun (first second : Timestamp) : List HistoryEvent := [
  ⟨1, first, .workflowExecutionStarted {}⟩,
  ⟨2, first, .decisionTaskScheduled {}⟩,
  ⟨3, first, .decisionTaskStarted { scheduledEventId := 2 }⟩,
  ⟨4, first, .decisionTaskCompleted { scheduledEventId := 2, startedEventId := 3 }⟩,
  ⟨5, first, .activityTaskScheduled { activityId := "a" }⟩,
  ⟨6, second, .activityTaskCompleted { scheduledEventId := 5 }⟩,
  ⟨7, second, .decisionTaskScheduled {}⟩,
  ⟨8, second, .decisionTaskStarted { scheduledEventId := 7 }⟩]

/-- The second task delivers the history from its beginning. -/
def oneActivityTasks (first second : Timestamp) : List DecisionTask := [
  { history := (oneActivityRun first second).take 3, startedEventId := 3 },
  { history := oneActivityRun first second, startedEventId := 8, previousStartedEventId := 3 }]

theorem oneActivityTasks_delivers (first second : Timestamp) :
    ∀ t ∈ oneActivityTasks first second, Delivers (oneActivityRun first second) t := by
  intro t member
  rcases List.mem_cons.mp member with rfl | later
  · exact ⟨(List.take_prefix 3 _).isInfix, (oneActivityRun first second).take 2,
      ⟨3, first, .decisionTaskStarted { scheduledEventId := 2 }⟩, [], rfl, rfl, by simp, by simp⟩
  · rw [List.mem_singleton.mp later]
    exact ⟨List.infix_rfl, (oneActivityRun first second).take 7,
      ⟨8, second, .decisionTaskStarted { scheduledEventId := 7 }⟩, [], rfl, rfl, by simp, by simp⟩

def slowTasks : List DecisionTask := oneActivityTasks ⟨30, 0⟩ ⟨80, 0⟩

/-- The batch of the first task is met again, and nothing runs in it. -/
theorem slow_clock :
    ∃ answers e', (new {} (.oneActivity "a")).answers? slowTasks = some (answers, e') ∧
      ((new {} (.oneActivity "a")).pollsOfTasks slowTasks).map (fun q => q.2.clock) =
        [30000, 80000] ∧
      (((new {} (.oneActivity "a")).pollsOfTasks slowTasks).map fun q => q.2.clock).Pairwise
        (· ≤ ·) := by
  have forward : RunsForward (oneActivityRun ⟨30, 0⟩ ⟨80, 0⟩) := by decide
  have plain : ∀ x ∈ oneActivityRun ⟨30, 0⟩ ⟨80, 0⟩, ¬ x.timestamp.InLeapSecond := by
    simp [oneActivityRun, Timestamp.InLeapSecond]
  have outcome : ((new {} (.oneActivity "a")).answers? slowTasks).isSome = true := by cbv
  obtain ⟨⟨answers, e'⟩, answered⟩ := Option.isSome_iff_exists.mp outcome
  have ascend := clock_never_goes_back forward (oneActivityTasks_delivers _ _) answered
  exact ⟨answers, e', answered, by cbv, ascend.2.1 plain⟩

/-- The tasks start at 23:59:60.900 on the last day of 2016, in the leap second, and at 00:00:00.200
on the day after. -/
def leapSecondRun : List HistoryEvent :=
  oneActivityRun ⟨1483228799, 1900000000⟩ ⟨1483228800, 200000000⟩

def leapSecondTasks : List DecisionTask :=
  oneActivityTasks ⟨1483228799, 1900000000⟩ ⟨1483228800, 200000000⟩

theorem leap_second_turns_clock_back :
    RunsForward leapSecondRun ∧ (∀ t ∈ leapSecondTasks, Delivers leapSecondRun t) ∧
      ((new {} (.oneActivity "a")).answers? leapSecondTasks).isSome = true ∧
      ((new {} (.oneActivity "a")).pollsOfTasks leapSecondTasks).map (fun q => q.2.clock) =
        [1483228800900, 1483228800200] ∧
      ¬ (((new {} (.oneActivity "a")).pollsOfTasks leapSecondTasks).map
        fun q => q.2.clock).Pairwise (· ≤ ·) := by
  have clocks : ((new {} (.oneActivity "a")).pollsOfTasks leapSecondTasks).map
      (fun q => q.2.clock) = [1483228800900, 1483228800200] := by cbv
  refine ⟨by decide, oneActivityTasks_delivers _ _, by cbv, clocks, ?_⟩
  rw [clocks]
  decide

end Engine

end WorkflowReplay
