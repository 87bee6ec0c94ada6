import Mathlib.Data.List.TakeWhile
import WorkflowReplay.Proofs.History.Chapters

/-!
# Batches partition a history

What a queue hands out, one batch after the other, and what it keeps for later is the history that
it was given.  It keeps something only if the history ends without reaching the task that is being
answered: what is kept holds no closing event, and no start at or after that task.
-/

set_option autoImplicit false

namespace WorkflowReplay

def Batch.all (b : Batch) : List HistoryEvent := b.events ++ b.decisionEvents

/-- The batch is the live one of the task that begins with this id, or with a later one. -/
structure Batch.IsLive (b : Batch) (started : EventId) : Prop where
  replay : b.replay = false
  quiet : ∀ e ∈ b.events, e.type.isDecisionTaskClosing = false
  decisions : b.decisionEvents = []
  start : ∃ e ∈ b.events, e.type.isDecisionTaskStarted = true ∧ started ≤ e.id ∧
    b.taskStartedId = e.id

/-- How a batch ends before the events that follow it.  A closed batch ends with the event that
closes its task, and takes all events of its decisions if that task was completed; the live batch
takes whatever is there. -/
inductive Batch.Ends (started : EventId) (b : Batch) (rest : List HistoryEvent) : Prop where
  | closed {before : List HistoryEvent} {closing : HistoryEvent}
    (events : b.events = before ++ [closing])
    (quiet : ∀ e ∈ before, e.type.isDecisionTaskClosing = false)
    (closes : closing.type.isDecisionTaskClosing = true)
    (decided : ∀ e ∈ b.decisionEvents, e.type.isDecisionEvent = true)
    (alone : closing.type ≠ .decisionTaskCompleted → b.decisionEvents = [])
    (whole : closing.type = .decisionTaskCompleted →
      ∀ e ∈ rest.head?, e.type.isDecisionEvent = false)
  | live (live : b.IsLive started) (last : rest = [])

theorem Batch.Ends.all_ne_nil {started : EventId} {b : Batch} {rest : List HistoryEvent}
    (ends : b.Ends started rest) : b.all ≠ [] := by
  cases ends with
  | closed events => simp [Batch.all, events]
  | live live =>
    obtain ⟨start, member, -⟩ := live.start
    exact List.append_ne_nil_of_left_ne_nil (List.ne_nil_of_mem member) _

namespace BatchQueue

/-! ## One batch -/

theorem splitAtClosing_eq_some {es events after : List HistoryEvent} {type : EventType}
    (split : splitAtClosing es = some (events, type, after)) :
    es = events ++ after ∧ ∃ before closing, events = before ++ [closing] ∧
      closing.type = type ∧ closing.type.isDecisionTaskClosing = true ∧
      ∀ e ∈ before, e.type.isDecisionTaskClosing = false := by
  induction es generalizing events type after with
  | nil => simp [splitAtClosing] at split
  | cons e rest ih =>
    unfold splitAtClosing at split
    split at split
    · next closes =>
      cases split
      exact ⟨rfl, [], e, rfl, rfl, closes, by simp⟩
    · next goesOn =>
      split at split
      · next events' type' after' later =>
        cases split
        obtain ⟨rfl, before, closing, rfl, same, closes, quiet⟩ := ih later
        refine ⟨rfl, e :: before, closing, rfl, same, closes, ?_⟩
        intro e' member
        rcases List.mem_cons.mp member with rfl | old
        · simpa using goesOn
        · exact quiet e' old
      · simp at split

theorem splitAtClosing_eq_none {es : List HistoryEvent} (split : splitAtClosing es = none) :
    ∀ e ∈ es, e.type.isDecisionTaskClosing = false := by
  induction es with
  | nil => simp
  | cons e rest ih =>
    unfold splitAtClosing at split
    split at split
    · simp at split
    · next goesOn =>
      split at split
      · simp at split
      · next later =>
        intro e' member
        rcases List.mem_cons.mp member with rfl | old
        · simpa using goesOn
        · exact ih later e' old

structure HandsOut (q : BatchQueue) (b : Batch) (q' : BatchQueue) : Prop where
  buffer : q.buffer = b.all ++ q'.buffer
  ends : b.Ends q.startedEventId q'.buffer
  started : q'.startedEventId = q.startedEventId
  pages : q'.morePages = q.morePages

theorem HandsOut.length_lt {q q' : BatchQueue} {b : Batch} (handed : q.HandsOut b q') :
    q'.buffer.length < q.buffer.length := by
  have length := congrArg List.length handed.buffer
  have some := List.length_pos_iff.mpr handed.ends.all_ne_nil
  rw [List.length_append] at length
  omega

theorem handOut_closed {q q' : BatchQueue} {b : Batch}
    {decisionEvents rest before : List HistoryEvent} {closing : HistoryEvent}
    {type : Option EventType}
    (polled : q.handOut (before ++ [closing]) decisionEvents type rest = (.ready b, q'))
    (buffer : q.buffer = before ++ [closing] ++ (decisionEvents ++ rest))
    (quiet : ∀ e ∈ before, e.type.isDecisionTaskClosing = false)
    (closes : closing.type.isDecisionTaskClosing = true)
    (decided : ∀ e ∈ decisionEvents, e.type.isDecisionEvent = true)
    (alone : closing.type ≠ .decisionTaskCompleted → decisionEvents = [])
    (whole : closing.type = .decisionTaskCompleted →
      ∀ e ∈ rest.head?, e.type.isDecisionEvent = false) : q.HandsOut b q' := by
  unfold handOut at polled
  simp only [Prod.mk.injEq, NextBatch.ready.injEq] at polled
  obtain ⟨rfl, rfl⟩ := polled
  exact ⟨by simp [buffer, Batch.all], .closed rfl quiet closes decided alone whole, rfl, rfl⟩

theorem lastStarted?_eq_some {events : List HistoryEvent} {e : HistoryEvent}
    (last : lastStarted? events = some e) :
    e ∈ events ∧ e.type.isDecisionTaskStarted = true := by
  refine ⟨List.mem_reverse.mp (List.mem_of_find?_eq_some last), ?_⟩
  exact List.find?_some (p := fun e : HistoryEvent => e.type.isDecisionTaskStarted) last

def reachesLive (q : BatchQueue) : Bool :=
  match lastStarted? q.buffer with
  | some e => q.startedEventId ≤ e.id
  | none => false

theorem poll_empty {q : BatchQueue} (empty : q.buffer = []) :
    q.poll = (if q.morePages then .incomplete else .exhausted, q) := by
  simp [poll, empty]

theorem poll_closed {q : BatchQueue} {events after : List HistoryEvent} {type : EventType}
    (split : splitAtClosing q.buffer = some (events, type, after)) :
    q.poll =
      if type = .decisionTaskCompleted then
        if (after.dropWhile fun e => e.type.isDecisionEvent).isEmpty && q.morePages then
          (.incomplete, q)
        else q.handOut events (after.takeWhile fun e => e.type.isDecisionEvent) (some type)
          (after.dropWhile fun e => e.type.isDecisionEvent)
      else q.handOut events [] (some type) after := by
  have filled : q.buffer.isEmpty = false := by
    cases buffer : q.buffer with
    | nil => simp [buffer, splitAtClosing] at split
    | cons => rfl
  simp [poll, filled, split]

theorem poll_open {q : BatchQueue} (filled : q.buffer ≠ [])
    (split : splitAtClosing q.buffer = none) :
    q.poll = if q.morePages || !q.reachesLive then (.incomplete, q)
      else q.handOut q.buffer [] none [] := by
  unfold poll
  simp only [List.isEmpty_eq_false_iff.mpr filled, split]
  rfl

theorem handOut_open {q q' : BatchQueue} {b : Batch}
    (polled : q.handOut q.buffer [] none [] = (.ready b, q'))
    (quiet : ∀ e ∈ q.buffer, e.type.isDecisionTaskClosing = false) (live : q.reachesLive = true) :
    q.HandsOut b q' := by
  unfold handOut at polled
  simp only [Prod.mk.injEq, NextBatch.ready.injEq] at polled
  obtain ⟨rfl, rfl⟩ := polled
  refine ⟨by simp [Batch.all], .live ?_ rfl, rfl, rfl⟩
  unfold reachesLive at live
  split at live
  · next e last =>
    have reached : q.startedEventId ≤ e.id := of_decide_eq_true live
    have start : startOf q.buffer = (e.id, e.timestamp) := by simp [startOf, last]
    obtain ⟨member, starts⟩ := lastStarted?_eq_some last
    refine ⟨?_, quiet, rfl, e, member, starts, reached, by simp [start]⟩
    simp [start, Int64.not_lt.mpr reached]
  · simp at live

theorem poll_handsOut {q q' : BatchQueue} {b : Batch} (polled : q.poll = (.ready b, q')) :
    q.HandsOut b q' := by
  cases split : splitAtClosing q.buffer with
  | some found =>
    obtain ⟨events, type, after⟩ := found
    rw [poll_closed split] at polled
    obtain ⟨buffer, before, closing, rfl, rfl, closes, quiet⟩ := splitAtClosing_eq_some split
    split at polled
    · next completed =>
      split at polled
      · simp at polled
      · refine handOut_closed polled ?_ quiet closes ?_ (absurd completed) fun _ => ?_
        · rw [buffer, List.takeWhile_append_dropWhile]
        · intro e member
          exact List.mem_takeWhile_imp (p := fun e : HistoryEvent => e.type.isDecisionEvent) member
        · intro e head
          have stops :=
            List.head?_dropWhile_not (fun e : HistoryEvent => e.type.isDecisionEvent) after
          rwa [Option.mem_def.mp head] at stops
    · next other =>
      exact handOut_closed polled (by rw [buffer, List.nil_append]) quiet closes (by simp)
        (fun _ => rfl) fun completed => absurd completed other
  | none =>
    by_cases empty : q.buffer = []
    · rw [poll_empty empty] at polled
      split at polled <;> simp at polled
    · rw [poll_open empty split] at polled
      split at polled
      · simp at polled
      · next live =>
        simp only [Bool.or_eq_true, Bool.not_eq_true', not_or, Bool.not_eq_false] at live
        exact handOut_open polled (splitAtClosing_eq_none split) live.2

/-- What is left holds no closing event, and no start at or after the task that is answered. -/
structure IsShort (q : BatchQueue) : Prop where
  quiet : ∀ e ∈ q.buffer, e.type.isDecisionTaskClosing = false
  short : ∀ e ∈ lastStarted? q.buffer, e.id < q.startedEventId

theorem poll_unready {q : BatchQueue} (pages : q.morePages = false)
    (unready : ∀ b q', q.poll ≠ (.ready b, q')) : q.poll.2 = q ∧ (q.buffer = [] ∨ q.IsShort) := by
  cases split : splitAtClosing q.buffer with
  | some found =>
    obtain ⟨events, type, after⟩ := found
    have polled := poll_closed split
    simp only [pages, Bool.and_false, Bool.false_eq_true, if_false] at polled
    split at polled <;> exact absurd polled (unready _ _)
  | none =>
    by_cases empty : q.buffer = []
    · rw [poll_empty empty]
      exact ⟨rfl, .inl empty⟩
    · have polled := poll_open empty split
      simp only [pages, Bool.false_or] at polled
      split at polled
      · next far =>
        rw [polled]
        refine ⟨rfl, .inr ⟨splitAtClosing_eq_none split, ?_⟩⟩
        intro e last
        simpa [reachesLive, Option.mem_def.mp last] using far
      · exact absurd polled (unready _ _)

/-! ## All batches -/

theorem pollAll_partition {q : BatchQueue} (pages : q.morePages = false) {fuel : Nat}
    (enough : q.buffer.length < fuel) :
    q.buffer = (q.pollAll fuel).1.flatMap Batch.all ++ (q.pollAll fuel).2.buffer ∧
      (∀ b ∈ (q.pollAll fuel).1, ∃ rest, b.Ends q.startedEventId rest) ∧
      ((q.pollAll fuel).2.buffer = [] ∨ (q.pollAll fuel).2.IsShort) ∧
      (q.pollAll fuel).2.startedEventId = q.startedEventId := by
  induction fuel generalizing q with
  | zero => omega
  | succ fuel ih =>
    obtain ⟨next, q', polled⟩ : ∃ next q', q.poll = (next, q') := ⟨_, _, rfl⟩
    cases next with
    | ready b =>
      have handed := poll_handsOut polled
      have shorter := handed.length_lt
      obtain ⟨buffer, ends, left, started⟩ := ih (handed.pages.trans pages) (by omega)
      simp only [pollAll, polled, List.flatMap_cons, List.append_assoc, List.forall_mem_cons]
      exact ⟨handed.buffer.trans (congrArg (b.all ++ ·) buffer),
        ⟨⟨_, handed.ends⟩, handed.started ▸ ends⟩, left, started.trans handed.started⟩
    | incomplete | exhausted =>
      have unready := poll_unready pages (by simp [polled])
      rw [polled] at unready
      obtain ⟨rfl, left⟩ := unready
      simp only [pollAll, polled, and_true]
      exact ⟨rfl, by simp, left⟩

theorem checkIds_none {last last' : EventId} {events : List HistoryEvent}
    (checked : checkIds last events = (last', none)) :
    events.Pairwise (fun a b => a.id < b.id) ∧ ∀ e ∈ events, last < e.id := by
  induction events generalizing last with
  | nil => simp
  | cons e rest ih =>
    unfold checkIds at checked
    split at checked
    · simp at checked
    · next next =>
      have above := Int64.not_le.mp next
      obtain ⟨increasing, later⟩ := ih checked
      refine ⟨List.pairwise_cons.mpr ⟨later, increasing⟩, ?_⟩
      intro e' member
      rcases List.mem_cons.mp member with rfl | old
      · exact above
      · exact Int64.lt_trans above (later e' old)

theorem ofHistory_eq_ok {events : List HistoryEvent} {started : EventId} {q : BatchQueue}
    (accepted : ofHistory events started = .ok q) :
    q.buffer = events ∧ q.startedEventId = started ∧ q.morePages = false ∧
      events.Pairwise (fun a b => a.id < b.id) ∧ ∀ e ∈ events, 0 < e.id := by
  simp only [ofHistory, pushPage, new] at accepted
  cases checked : checkIds 0 events with
  | mk last bad =>
    rw [checked] at accepted
    cases bad with
    | some id => simp at accepted
    | none =>
      obtain rfl := Except.ok.inj accepted
      exact ⟨rfl, rfl, rfl, checkIds_none checked⟩

end BatchQueue

/-! ## The history of a task -/

def DecisionTask.leftOver (t : DecisionTask) : List HistoryEvent :=
  match BatchQueue.ofHistory t.history t.startedEventId with
  | .ok q => q.drain.2.buffer
  | .error _ => []

def DecisionTask.handedOut (t : DecisionTask) : List HistoryEvent := t.batches.flatMap Batch.all

theorem lastStarted?_of_mem {events : List HistoryEvent} {start : HistoryEvent}
    (increasing : events.Pairwise (fun a b => a.id < b.id)) (member : start ∈ events)
    (starts : start.type.isDecisionTaskStarted = true) :
    ∃ last, BatchQueue.lastStarted? events = some last ∧ start.id ≤ last.id := by
  unfold BatchQueue.lastStarted?
  cases found : events.reverse.find? (fun e => e.type.isDecisionTaskStarted) with
  | none =>
    have never := List.find?_eq_none.mp found start (List.mem_reverse.mpr member)
    simp [starts] at never
  | some last =>
    obtain ⟨-, later, earlier, reverse, quiet⟩ := List.find?_eq_some_iff_append.mp found
    have decreasing := List.pairwise_reverse.mpr increasing
    rw [reverse] at decreasing
    have here : start ∈ later ++ last :: earlier := reverse ▸ List.mem_reverse.mpr member
    refine ⟨last, rfl, ?_⟩
    rcases List.mem_append.mp here with after | before
    · have := quiet start after
      simp [starts] at this
    · rcases List.mem_cons.mp before with rfl | before
      · exact Int64.le_refl _
      · have below := (List.pairwise_append.mp decreasing).2.1
        exact Int64.le_of_lt ((List.pairwise_cons.mp below).1 start before)

theorem DecisionTask.history_eq {t : DecisionTask} {q : BatchQueue}
    (accepted : BatchQueue.ofHistory t.history t.startedEventId = .ok q) :
    t.history = t.handedOut ++ t.leftOver ∧
      ∀ e ∈ t.leftOver, e.type.isDecisionTaskClosing = false ∧
        (e.type.isDecisionTaskStarted = true → e.id < t.startedEventId) := by
  obtain ⟨buffer, started, pages, increasing, -⟩ := BatchQueue.ofHistory_eq_ok accepted
  obtain ⟨parts, -, left, same⟩ := BatchQueue.pollAll_partition pages (Nat.lt_succ_self _)
  have history : t.history = t.handedOut ++ t.leftOver := by
    unfold handedOut batches leftOver
    simp only [accepted]
    exact buffer.symm.trans parts
  refine ⟨history, ?_⟩
  intro e member
  have ordered : t.leftOver.Pairwise (fun a b => a.id < b.id) := by
    rw [history] at increasing
    exact (List.pairwise_append.mp increasing).2.1
  unfold leftOver at member ordered
  simp only [accepted] at member ordered
  rcases left with empty | isShort
  · change e ∈ (q.pollAll (q.buffer.length + 1)).2.buffer at member
    simp [empty] at member
  · refine ⟨isShort.quiet e member, ?_⟩
    intro starts
    obtain ⟨last, found, below⟩ := lastStarted?_of_mem ordered member starts
    have short := isShort.short last found
    rw [same, started] at short
    exact Int64.lt_of_le_of_lt below short

/-! ## Histories that end where a batch ends -/

def LeavesOpen (started : EventId) (events : List HistoryEvent) : Prop :=
  ∃ before start after, events = before ++ start :: after ∧
    start.type.isDecisionTaskStarted = true ∧ started ≤ start.id ∧
    ∀ e ∈ after, e.type.isDecisionTaskClosing = false

/-- The events end with a closed task and the events of its decisions, or in an open task at or
after this one. -/
inductive EndsWhole (started : EventId) : List HistoryEvent → Prop where
  | nothing : EndsWhole started []
  | closed (before : List HistoryEvent) {closing : HistoryEvent} {decisions : List HistoryEvent}
      (closes : closing.type.isDecisionTaskClosing = true)
      (decided : ∀ e ∈ decisions, e.type.isDecisionEvent = true)
      (alone : closing.type ≠ .decisionTaskCompleted → decisions = []) :
    EndsWhole started (before ++ closing :: decisions)
  | opened {events : List HistoryEvent} (opened : LeavesOpen started events) :
    EndsWhole started events

theorem EventType.isDecisionEvent_eq_false {type : EventType}
    (marks : type.isDecisionTaskStarted = true ∨ type.isDecisionTaskClosing = true) :
    type.isDecisionEvent = false := by
  revert marks
  cases type <;> decide

/-- Where an event that starts or closes a task lies in a history that begins with a closed batch:
behind that batch, at its closing event, or before it. -/
theorem place_of_marks {xs decisions rest before after : List HistoryEvent}
    {closing e : HistoryEvent}
    (split : xs ++ closing :: decisions ++ rest = before ++ e :: after)
    (decided : ∀ e ∈ decisions, e.type.isDecisionEvent = true)
    (marks : e.type.isDecisionTaskStarted = true ∨ e.type.isDecisionTaskClosing = true) :
    (∃ gap, rest = gap ++ e :: after) ∨ (closing = e ∧ after = decisions ++ rest) ∨
      closing ∈ after := by
  rcases List.append_eq_append_iff.mp split with ⟨gap, -, later⟩ | ⟨gap, here, later⟩
  · exact .inl ⟨gap, later⟩
  · cases gap with
    | nil => exact .inl ⟨[], later.symm⟩
    | cons first gap =>
      obtain ⟨rfl, rfl⟩ := List.cons_eq_cons.mp later
      -- It lies among the decisions, which it cannot, or in the events up to the closing one.
      rcases List.append_eq_append_iff.mp here with ⟨gap', -, behind⟩ | ⟨gap', -, behind⟩
      · cases gap' with
        | nil =>
          obtain ⟨rfl, rfl⟩ := List.cons_eq_cons.mp behind
          exact .inr (.inl ⟨rfl, rfl⟩)
        | cons _ gap' =>
          obtain ⟨-, rfl⟩ := List.cons_eq_cons.mp behind
          have decision := decided e (by simp)
          simp [EventType.isDecisionEvent_eq_false marks] at decision
      · cases gap' with
        | nil =>
          obtain ⟨rfl, rfl⟩ := List.cons_eq_cons.mp behind
          exact .inr (.inl ⟨rfl, rfl⟩)
        | cons _ gap' =>
          obtain ⟨-, rfl⟩ := List.cons_eq_cons.mp behind
          exact .inr (.inr (by simp))

theorem LeavesOpen.ne_nil {started : EventId} {events : List HistoryEvent}
    (opened : LeavesOpen started events) : events ≠ [] := by
  obtain ⟨before, start, after, rfl, -⟩ := opened
  simp

section AfterClosed

variable {started : EventId} {xs decisions rest : List HistoryEvent} {closing : HistoryEvent}

theorem LeavesOpen.after_closed
    (opened : LeavesOpen started (xs ++ closing :: decisions ++ rest))
    (closes : closing.type.isDecisionTaskClosing = true)
    (decided : ∀ e ∈ decisions, e.type.isDecisionEvent = true) : LeavesOpen started rest := by
  obtain ⟨before, start, after, split, starts, reaches, quiet⟩ := opened
  rcases place_of_marks split decided (.inl starts) with ⟨gap, later⟩ | ⟨rfl, -⟩ | behind
  · exact ⟨gap, start, after, later, starts, reaches, quiet⟩
  · have type : closing.type = .decisionTaskStarted := by
      simpa [EventType.isDecisionTaskStarted] using starts
    simp [type, EventType.isDecisionTaskClosing] at closes
  · simp [quiet closing behind] at closes

theorem EndsWhole.after_closed
    (whole : EndsWhole started (xs ++ closing :: decisions ++ rest))
    (closes : closing.type.isDecisionTaskClosing = true)
    (decided : ∀ e ∈ decisions, e.type.isDecisionEvent = true)
    (all : closing.type = .decisionTaskCompleted →
      ∀ e ∈ rest.head?, e.type.isDecisionEvent = false) : EndsWhole started rest := by
  generalize split : xs ++ closing :: decisions ++ rest = events at whole
  cases whole with
  | nothing => simp at split
  | opened opened => exact .opened ((split ▸ opened).after_closed closes decided)
  | @closed before closing' decisions' closes' decided' alone' =>
    rcases place_of_marks split decided (.inr closes') with ⟨gap, rfl⟩ | ⟨rfl, same⟩ | behind
    · exact .closed gap closes' decided' alone'
    · -- The batch is the last one: an event behind it is one of its decisions.
      have nothing : rest = [] := by
        by_cases completed : closing.type = .decisionTaskCompleted
        · cases rest with
          | nil => rfl
          | cons e rest =>
            have decision := decided' e (by simp [same])
            simp [all completed e rfl] at decision
        · rw [alone' completed] at same
          exact (List.append_eq_nil_iff.mp same.symm).2
      rw [nothing]
      exact .nothing
    · have decision := decided' closing behind
      simp [EventType.isDecisionEvent_eq_false (.inr closes)] at decision

end AfterClosed

namespace BatchQueue

theorem pollAll_nil {q : BatchQueue} (empty : q.buffer = []) (fuel : Nat) :
    (q.pollAll fuel).2.buffer = [] := by
  cases fuel with
  | zero => exact empty
  | succ fuel =>
    rw [pollAll, poll_empty empty]
    cases q.morePages <;> exact empty

theorem IsShort.not_whole {q : BatchQueue} (isShort : q.IsShort) (some : q.buffer ≠ [])
    (increasing : q.buffer.Pairwise (fun a b => a.id < b.id)) :
    ¬ EndsWhole q.startedEventId q.buffer := by
  intro whole
  generalize buffer : q.buffer = events at whole
  cases whole with
  | nothing => exact some buffer
  | @closed before closing _ closes =>
    have quiet := isShort.quiet closing (by simp [buffer])
    simp [quiet] at closes
  | opened opened =>
    obtain ⟨before, start, after, split, starts, reaches, -⟩ := opened
    obtain ⟨last, found, below⟩ := lastStarted?_of_mem increasing (by simp [buffer, split]) starts
    have short := isShort.short last found
    exact Int64.lt_irrefl (Int64.lt_of_lt_of_le short (Int64.le_trans reaches below))

theorem pollAll_whole {q : BatchQueue} (pages : q.morePages = false)
    (increasing : q.buffer.Pairwise (fun a b => a.id < b.id))
    (whole : EndsWhole q.startedEventId q.buffer) {fuel : Nat} (enough : q.buffer.length < fuel) :
    (q.pollAll fuel).2.buffer = [] := by
  induction fuel generalizing q with
  | zero => omega
  | succ fuel ih =>
    by_cases empty : q.buffer = []
    · exact pollAll_nil empty _
    obtain ⟨next, q', polled⟩ : ∃ next q', q.poll = (next, q') := ⟨_, _, rfl⟩
    have ready : ∃ b, next = .ready b := by
      by_contra none
      obtain ⟨-, nothing | isShort⟩ := poll_unready pages fun b q'' ready => by
        exact none ⟨b, (Prod.mk.inj (polled.symm.trans ready)).1⟩
      · exact empty nothing
      · exact isShort.not_whole empty increasing whole
    obtain ⟨b, rfl⟩ := ready
    simp only [pollAll, polled]
    have handed := poll_handsOut polled
    cases handed.ends with
    | live _ last => exact pollAll_nil last fuel
    | @closed before closing events quiet closes decided alone all =>
      have buffer : q.buffer = before ++ closing :: b.decisionEvents ++ q'.buffer := by
        simp [handed.buffer, Batch.all, events]
      have shorter := handed.length_lt
      rw [buffer] at whole increasing
      have later := whole.after_closed closes decided all
      rw [← handed.started] at later
      exact ih (handed.pages.trans pages) (List.pairwise_append.mp increasing).2.1 later (by omega)

end BatchQueue

namespace DecisionTask

variable {t : DecisionTask} {q : BatchQueue}

theorem ends_of_mem_batches (accepted : BatchQueue.ofHistory t.history t.startedEventId = .ok q) :
    ∀ b ∈ t.batches, ∃ rest, b.Ends t.startedEventId rest := by
  obtain ⟨-, started, pages, -⟩ := BatchQueue.ofHistory_eq_ok accepted
  obtain ⟨-, ends, -⟩ := BatchQueue.pollAll_partition pages (Nat.lt_succ_self _)
  unfold batches
  simp only [accepted]
  rwa [started] at ends

theorem leftOver_eq_nil_iff
    (accepted : BatchQueue.ofHistory t.history t.startedEventId = .ok q) :
    t.leftOver = [] ↔ EndsWhole t.startedEventId t.history := by
  constructor
  · intro nothing
    rw [(history_eq accepted).1, nothing, List.append_nil, handedOut]
    rcases List.eq_nil_or_concat t.batches with none | ⟨earlier, b, batches⟩
    · rw [none]
      exact .nothing
    · rw [List.concat_eq_append] at batches
      obtain ⟨rest, ends⟩ := ends_of_mem_batches accepted b (by simp [batches])
      rw [batches, List.flatMap_append, List.flatMap_singleton, Batch.all]
      cases ends with
      | @closed before closing events quiet closes decided alone all =>
        rw [events, List.append_assoc before, ← List.append_assoc _ before]
        exact .closed _ closes decided alone
      | live live =>
        obtain ⟨start, member, starts, reaches, -⟩ := live.start
        obtain ⟨before, after, split⟩ := List.append_of_mem member
        refine .opened ⟨earlier.flatMap Batch.all ++ before, start, after, ?_, starts, reaches, ?_⟩
        · rw [live.decisions, List.append_nil, split, List.append_assoc]
        · exact fun e later => live.quiet e (by simp [split, later])
  · intro whole
    obtain ⟨buffer, started, pages, increasing, -⟩ := BatchQueue.ofHistory_eq_ok accepted
    unfold leftOver
    simp only [accepted]
    rw [← buffer] at whole increasing
    rw [← started] at whole
    exact BatchQueue.pollAll_whole pages increasing whole (Nat.lt_succ_self _)

/-- The last batch of a history that ends in an open task is the live one. -/
theorem exists_live_last_batch (accepted : BatchQueue.ofHistory t.history t.startedEventId = .ok q)
    (opened : LeavesOpen t.startedEventId t.history) :
    ∃ earlier b, t.batches = earlier ++ [b] ∧ b.IsLive t.startedEventId := by
  have nothing := (leftOver_eq_nil_iff accepted).mpr (.opened opened)
  rw [(history_eq accepted).1, nothing, List.append_nil, handedOut] at opened
  rcases List.eq_nil_or_concat t.batches with none | ⟨earlier, b, batches⟩
  · rw [none] at opened
    exact absurd rfl opened.ne_nil
  · rw [List.concat_eq_append] at batches
    obtain ⟨rest, ends⟩ := ends_of_mem_batches accepted b (by simp [batches])
    cases ends with
    | live live => exact ⟨earlier, b, batches, live⟩
    | @closed before closing events quiet closes decided alone all =>
      have handed : t.batches.flatMap Batch.all =
          (earlier.flatMap Batch.all ++ before) ++ closing :: b.decisionEvents ++ [] := by
        simp [batches, Batch.all, events]
      rw [handed] at opened
      exact absurd rfl (opened.after_closed closes decided).ne_nil

end DecisionTask

end WorkflowReplay
