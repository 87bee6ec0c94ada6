import WorkflowReplay.History.Batch
import WorkflowReplay.History.Task

/-!
# Histories in chapters

The history of a run whose decision tasks were all completed falls into chapters, one for each
task: what happened before the task, its start, its completion, and the events of its decisions.
The last task is only opened.  A queue hands out one batch for each chapter and one for the last
opening, whether it holds the whole history or what came after the start of the last chapter.
-/

set_option autoImplicit false

namespace WorkflowReplay

/-- An event while the clock stands still. -/
def eventOf (id : EventId) (attributes : EventAttributes) : HistoryEvent :=
  ⟨id, ⟨0, 0⟩, attributes⟩

def historyOf (attributes : List EventAttributes) : List HistoryEvent :=
  attributes.mapIdx fun i a => eventOf (Int64.ofNat (i + 1)) a

/-- The batches that a task brings; none if its history is refused. -/
def DecisionTask.batches (t : DecisionTask) : List Batch :=
  match BatchQueue.ofHistory t.history t.startedEventId with
  | .ok q => q.drain.1
  | .error _ => []

structure Opening where
  before : List HistoryEvent
  start : HistoryEvent
  plain : ∀ e ∈ before, e.type.isDecisionTaskStarted = false ∧
    e.type.isDecisionTaskClosing = false ∧ e.isMarker = false
  /-- The events of the last decisions are over. -/
  first : ∀ e ∈ before.head?, e.type.isDecisionEvent = false
  started : start.type = .decisionTaskStarted

structure Chapter extends Opening where
  completion : HistoryEvent
  decisionEvents : List HistoryEvent
  completed : ∃ a, completion.attributes = .decisionTaskCompleted a ∧ a.startedEventId = start.id
  decisions : ∀ e ∈ decisionEvents, e.type.isDecisionEvent = true

namespace Opening

def events (o : Opening) : List HistoryEvent := o.before ++ [o.start]

def batch (o : Opening) : Batch where
  events := o.events
  decisionEvents := []
  markers := []
  replay := false
  time := o.start.timestamp
  taskStartedId := o.start.id
  closing := none

end Opening

namespace Chapter

def rest (c : Chapter) : List HistoryEvent := c.completion :: c.decisionEvents

def events (c : Chapter) : List HistoryEvent := c.toOpening.events ++ c.rest

def markers (c : Chapter) : List HistoryEvent := c.decisionEvents.filter (·.isMarker)

def batch (c : Chapter) : Batch where
  events := c.toOpening.events ++ [c.completion]
  decisionEvents := c.decisionEvents
  markers := c.markers
  replay := true
  time := c.start.timestamp
  taskStartedId := c.start.id
  closing := some .decisionTaskCompleted

def restBatch (c : Chapter) : Batch where
  events := [c.completion]
  decisionEvents := c.decisionEvents
  markers := c.markers
  replay := true
  time := c.completion.timestamp
  taskStartedId := c.start.id
  closing := some .decisionTaskCompleted

end Chapter

def historyTo (past : List Chapter) (o : Opening) : List HistoryEvent :=
  past.flatMap Chapter.events ++ o.events

structure IsOrdered (events : List HistoryEvent) : Prop where
  increasing : events.Pairwise (fun a b => a.id < b.id)
  first : ∀ e ∈ events.head?, e.id = 1

structure DecisionTask.BringsAll (t : DecisionTask) (past : List Chapter) (o : Opening) : Prop where
  history : t.history = historyTo past o
  started : t.startedEventId = o.start.id

/-- The task brings what came after the start of the last chapter. -/
structure DecisionTask.BringsRest (t : DecisionTask) (last : Chapter) (o : Opening) : Prop where
  history : t.history = last.rest ++ o.events
  started : t.startedEventId = o.start.id
  previous : t.previousStartedEventId = last.start.id

inductive DecisionTask.Brings (t : DecisionTask) (past : List Chapter) (o : Opening) : Prop where
  | all (brings : t.BringsAll past o)
  | rest {earlier : List Chapter} {last : Chapter} (split : past = earlier ++ [last])
      (brings : t.BringsRest last o)

/-! ## Ids in order -/

theorem IsOrdered.of_append {first second : List HistoryEvent}
    (ordered : IsOrdered (first ++ second)) :
    IsOrdered first where
  increasing := (List.pairwise_append.mp ordered.increasing).1
  first e head := by
    refine ordered.first e ?_
    cases first with
    | nil => simp at head
    | cons => exact head

theorem IsOrdered.positive {events : List HistoryEvent} (ordered : IsOrdered events) :
    ∀ e ∈ events, 0 < e.id := by
  cases events with
  | nil => simp
  | cons first rest =>
    have one : first.id = 1 := ordered.first first rfl
    intro e member
    rcases List.mem_cons.mp member with rfl | later
    · rw [one]
      decide
    · have := (List.pairwise_cons.mp ordered.increasing).1 e later
      rw [one] at this
      exact Int64.lt_trans (by decide) this

namespace BatchQueue

theorem checkIds_ok {last : EventId} {events : List HistoryEvent}
    (above : ∀ e ∈ events, last < e.id)
    (increasing : events.Pairwise (fun a b => a.id < b.id)) :
    ∃ last', checkIds last events = (last', none) := by
  induction events generalizing last with
  | nil => exact ⟨last, rfl⟩
  | cons e rest ih =>
    obtain ⟨next, later⟩ := List.pairwise_cons.mp increasing
    obtain ⟨last', rest⟩ := ih next later
    refine ⟨last', ?_⟩
    rw [checkIds, if_neg (Int64.not_le.mpr (above e (by simp))), rest]

theorem ofHistory_ok {events : List HistoryEvent} (started : EventId)
    (positive : ∀ e ∈ events, 0 < e.id)
    (increasing : events.Pairwise (fun a b => a.id < b.id)) :
    ∃ lastEventId, ofHistory events started =
      .ok { startedEventId := started, buffer := events, lastEventId } := by
  obtain ⟨last, checked⟩ := checkIds_ok positive increasing
  refine ⟨last, ?_⟩
  simp [ofHistory, pushPage, new, checked]

/-! ## One batch for each chapter -/

theorem splitAtClosing_append {before : List HistoryEvent} {e : HistoryEvent}
    (rest : List HistoryEvent) (quiet : ∀ e ∈ before, e.type.isDecisionTaskClosing = false)
    (closing : e.type.isDecisionTaskClosing = true) :
    splitAtClosing (before ++ e :: rest) = some (before ++ [e], e.type, rest) := by
  induction before with
  | nil => simp [splitAtClosing, closing]
  | cons e' before ih =>
    have first := quiet e' (by simp)
    have later := ih fun e member => quiet e (List.mem_cons_of_mem _ member)
    simp [splitAtClosing, first, later]

theorem splitAtClosing_none {events : List HistoryEvent}
    (quiet : ∀ e ∈ events, e.type.isDecisionTaskClosing = false) :
    splitAtClosing events = none := by
  induction events with
  | nil => rfl
  | cons e rest ih =>
    have first := quiet e (by simp)
    have later := ih fun e member => quiet e (List.mem_cons_of_mem _ member)
    simp [splitAtClosing, first, later]

end BatchQueue

theorem Opening.not_closing (o : Opening) :
    ∀ e ∈ o.events, e.type.isDecisionTaskClosing = false := by
  intro e member
  rcases List.mem_append.mp member with before | start
  · exact (o.plain e before).2.1
  · simp [List.mem_singleton.mp start, o.started, EventType.isDecisionTaskClosing]

theorem Opening.filter_isMarker (o : Opening) : o.events.filter (·.isMarker) = [] := by
  refine List.filter_eq_nil_iff.mpr ?_
  intro e member
  rcases List.mem_append.mp member with before | start
  · simp [(o.plain e before).2.2]
  · simp [List.mem_singleton.mp start, HistoryEvent.isMarker, o.started]

theorem Opening.head?_not_decision (o : Opening) :
    ∀ e ∈ o.events.head?, e.type.isDecisionEvent = false := by
  intro e member
  unfold Opening.events at member
  cases before : o.before with
  | nil =>
    simp only [before, List.nil_append, List.head?_cons, Option.mem_def,
      Option.some.injEq] at member
    rw [← member, o.started]
    rfl
  | cons first rest =>
    refine o.first e ?_
    simp only [before, List.cons_append, List.head?_cons] at member ⊢
    exact member

theorem Chapter.completion_type (c : Chapter) : c.completion.type = .decisionTaskCompleted := by
  obtain ⟨a, attributes, -⟩ := c.completed
  simp [HistoryEvent.type, attributes, EventAttributes.type]

namespace BatchQueue

theorem takeWhile_decisions {decisions rest : List HistoryEvent}
    (all : ∀ e ∈ decisions, e.type.isDecisionEvent = true)
    (head : ∀ e ∈ rest.head?, e.type.isDecisionEvent = false) :
    (decisions ++ rest).takeWhile (fun e => e.type.isDecisionEvent) = decisions ∧
      (decisions ++ rest).dropWhile (fun e => e.type.isDecisionEvent) = rest := by
  induction decisions with
  | nil =>
    cases rest with
    | nil => exact ⟨rfl, rfl⟩
    | cons e rest => simp [head e rfl]
  | cons e decisions ih =>
    obtain ⟨take, drop⟩ := ih fun e member => all e (List.mem_cons_of_mem _ member)
    simp [all e (by simp), take, drop]

/-- A queue of a history without failed tasks, while the live task is ahead. -/
def reading (started lastEventId : EventId) (buffer : List HistoryEvent) : BatchQueue :=
  { startedEventId := started, buffer, lastEventId }

theorem poll_completed {started lastEventId : EventId} (before : List HistoryEvent)
    {rest : List HistoryEvent} (c : Chapter)
    (quiet : ∀ e ∈ before, e.type.isDecisionTaskClosing = false)
    (unmarked : before.filter (·.isMarker) = [])
    (head : ∀ e ∈ rest.head?, e.type.isDecisionEvent = false) {time : Timestamp}
    (start : startOf (before ++ [c.completion]) = (c.start.id, time))
    (past : c.start.id < started) :
    (reading started lastEventId (before ++ c.rest ++ rest)).poll =
      (.ready {
          events := before ++ [c.completion]
          decisionEvents := c.decisionEvents
          markers := c.markers
          replay := true
          time
          taskStartedId := c.start.id
          closing := some .decisionTaskCompleted },
        reading started lastEventId rest) := by
  have closing : c.completion.type.isDecisionTaskClosing = true := by
    rw [c.completion_type]
    rfl
  have split := splitAtClosing_append (c.decisionEvents ++ rest) quiet closing
  obtain ⟨take, drop⟩ := takeWhile_decisions c.decisions head
  have buffer : before ++ c.rest ++ rest =
      before ++ c.completion :: (c.decisionEvents ++ rest) := by
    simp [Chapter.rest]
  have unmarkedCompletion : c.completion.isMarker = false := by
    simp [HistoryEvent.isMarker, c.completion_type]
  have markers : (before ++ [c.completion] ++ c.decisionEvents).filter (·.isMarker) =
      c.markers := by
    simp [List.filter_append, unmarked, unmarkedCompletion, Chapter.markers]
  unfold poll
  simp only [reading, buffer, split, c.completion_type, if_true, take, drop, handOut, start, past,
    markers]
  simp

theorem poll_chapter {started lastEventId : EventId} {rest : List HistoryEvent} (c : Chapter)
    (head : ∀ e ∈ rest.head?, e.type.isDecisionEvent = false) (past : c.start.id < started) :
    (reading started lastEventId (c.events ++ rest)).poll =
      (.ready c.batch, reading started lastEventId rest) := by
  have unstarted : c.completion.type.isDecisionTaskStarted = false := by
    simp [EventType.isDecisionTaskStarted, c.completion_type]
  have started : c.start.type.isDecisionTaskStarted = true := by
    simp [EventType.isDecisionTaskStarted, c.started]
  have start : startOf (c.toOpening.events ++ [c.completion]) =
      (c.start.id, c.start.timestamp) := by
    simp [startOf, lastStarted?, Opening.events, unstarted, started]
  exact poll_completed c.toOpening.events c c.toOpening.not_closing c.toOpening.filter_isMarker head
    start past

theorem poll_rest {started lastEventId : EventId} {rest : List HistoryEvent} (c : Chapter)
    (head : ∀ e ∈ rest.head?, e.type.isDecisionEvent = false) (past : c.start.id < started) :
    (reading started lastEventId (c.rest ++ rest)).poll =
      (.ready c.restBatch, reading started lastEventId rest) := by
  have unstarted : c.completion.type.isDecisionTaskStarted = false := by
    simp [EventType.isDecisionTaskStarted, c.completion_type]
  have start : startOf ([] ++ [c.completion]) = (c.start.id, c.completion.timestamp) := by
    obtain ⟨a, attributes, same⟩ := c.completed
    simp [startOf, lastStarted?, unstarted, closedTask, attributes, same]
  exact poll_completed [] c (by simp) rfl head start past

theorem poll_opening {lastEventId : EventId} (o : Opening) :
    (reading o.start.id lastEventId o.events).poll =
      (.ready o.batch, { reading o.start.id lastEventId [] with liveReached := true }) := by
  have split := splitAtClosing_none o.not_closing
  have last : lastStarted? o.events = some o.start := by
    simp [lastStarted?, Opening.events, o.started, EventType.isDecisionTaskStarted]
  have started : o.events.isEmpty = false := by simp [Opening.events]
  have markers : (o.events ++ []).filter HistoryEvent.isMarker = [] := by
    rw [List.append_nil]
    exact o.filter_isMarker
  unfold poll
  simp only [reading, started, split, last, handOut, startOf, markers]
  simp [Opening.batch]

theorem pollAll_opening {lastEventId : EventId} (o : Opening) (fuel : Nat) :
    ((reading o.start.id lastEventId o.events).pollAll (fuel + 1)).1 = [o.batch] := by
  rw [pollAll, poll_opening]
  cases fuel with
  | zero => rfl
  | succ fuel =>
    simp only
    rw [pollAll]
    rfl

/-- A whole history is handed out chapter by chapter. -/
theorem pollAll_chapters {lastEventId : EventId} (past : List Chapter) (o : Opening)
    (earlier : ∀ c ∈ past, c.start.id < o.start.id) (fuel : Nat) :
    ((reading o.start.id lastEventId (historyTo past o)).pollAll (past.length + fuel + 1)).1 =
      past.map Chapter.batch ++ [o.batch] := by
  induction past with
  | nil =>
    simp only [List.length_nil, Nat.zero_add]
    exact pollAll_opening o fuel
  | cons c past ih =>
    have rest := ih fun c member => earlier c (List.mem_cons_of_mem _ member)
    have head : ∀ e ∈ (historyTo past o).head?, e.type.isDecisionEvent = false := by
      cases past with
      | nil => exact o.head?_not_decision
      | cons c' past =>
        have first : (historyTo (c' :: past) o).head? = c'.toOpening.events.head? := by
          simp [historyTo, Chapter.events, Opening.events]
        rw [first]
        exact c'.toOpening.head?_not_decision
    have buffer : historyTo (c :: past) o = c.events ++ historyTo past o := by
      simp [historyTo]
    rw [buffer, List.length_cons, Nat.add_right_comm past.length 1 fuel, pollAll,
      poll_chapter c head (earlier c (by simp))]
    simp only [rest, List.map_cons, List.cons_append]

end BatchQueue

/-! ## The batches of a task -/

theorem length_le_flatMap (past : List Chapter) :
    past.length ≤ (past.flatMap Chapter.events).length := by
  induction past with
  | nil => simp
  | cons c past ih =>
    simp only [List.length_cons, List.flatMap_cons, List.length_append, Chapter.events,
      Chapter.rest]
    omega

theorem historyTo_concat (past : List Chapter) (c : Chapter) (o : Opening) :
    historyTo (past ++ [c]) o = historyTo past c.toOpening ++ (c.rest ++ o.events) := by
  simp [historyTo, Chapter.events]

theorem flatMap_concat (past : List Chapter) (c : Chapter) :
    (past ++ [c]).flatMap Chapter.events = historyTo past c.toOpening ++ c.rest := by
  simp [historyTo, Chapter.events]

namespace IsOrdered

variable {past : List Chapter} {o : Opening}

theorem of_historyTo (ordered : IsOrdered (historyTo past o)) :
    IsOrdered (past.flatMap Chapter.events) := ordered.of_append

theorem historyTo_toOpening {c : Chapter}
    (ordered : IsOrdered ((past ++ [c]).flatMap Chapter.events)) :
    IsOrdered (historyTo past c.toOpening) := by
  rw [flatMap_concat] at ordered
  exact ordered.of_append

theorem historyTo_last {c : Chapter} (ordered : IsOrdered (historyTo (past ++ [c]) o)) :
    IsOrdered (historyTo past c.toOpening) :=
  ordered.of_historyTo.historyTo_toOpening

theorem id_le_start (ordered : IsOrdered (historyTo past o)) :
    ∀ e ∈ historyTo past o, e.id ≤ o.start.id := by
  have split : historyTo past o = past.flatMap Chapter.events ++ o.before ++ [o.start] := by
    simp [historyTo, Opening.events]
  have increasing := ordered.increasing
  rw [split] at increasing ⊢
  intro e member
  rcases List.mem_append.mp member with before | start
  · exact Int64.le_of_lt
      ((List.pairwise_append.mp increasing).2.2 e before o.start (by simp))
  · rw [List.mem_singleton.mp start]
    exact Int64.le_refl _

theorem before_lt_start (ordered : IsOrdered (historyTo past o)) :
    ∀ e ∈ o.before, e.id < o.start.id := by
  intro e member
  have increasing := (List.pairwise_append.mp ordered.increasing).2.1
  exact (List.pairwise_append.mp increasing).2.2 e member o.start (by simp)

theorem chapter_start_lt (ordered : IsOrdered (historyTo past o)) :
    ∀ c ∈ past, c.start.id < o.start.id := by
  intro c member
  refine (List.pairwise_append.mp ordered.increasing).2.2 c.start ?_ o.start
    (by simp [Opening.events])
  exact List.mem_flatMap.mpr ⟨c, member, by simp [Chapter.events, Opening.events]⟩

theorem rest_lt_start {c : Chapter} (ordered : IsOrdered (historyTo (past ++ [c]) o)) :
    ∀ e ∈ c.rest, e.id < o.start.id := by
  intro e member
  refine (List.pairwise_append.mp ordered.increasing).2.2 e ?_ o.start (by simp [Opening.events])
  rw [flatMap_concat]
  exact List.mem_append_right _ member

theorem start_lt_completion {c : Chapter}
    (ordered : IsOrdered ((past ++ [c]).flatMap Chapter.events)) :
    c.start.id < c.completion.id := by
  have increasing := ordered.increasing
  rw [flatMap_concat] at increasing
  exact (List.pairwise_append.mp increasing).2.2 c.start (by simp [historyTo, Opening.events])
    c.completion (by simp [Chapter.rest])

end IsOrdered

theorem DecisionTask.BringsAll.batches_eq {t : DecisionTask} {past : List Chapter} {o : Opening}
    (brings : t.BringsAll past o) (ordered : IsOrdered (historyTo past o)) :
    t.batches = past.map Chapter.batch ++ [o.batch] := by
  obtain ⟨lastEventId, queue⟩ :=
    BatchQueue.ofHistory_ok o.start.id ordered.positive ordered.increasing
  have enough := length_le_flatMap past
  obtain ⟨fuel, length⟩ : ∃ fuel, (historyTo past o).length + 1 = past.length + fuel + 1 :=
    ⟨(historyTo past o).length - past.length, by
      simp only [historyTo, List.length_append]
      omega⟩
  rw [DecisionTask.batches, brings.history, brings.started, queue]
  simp only [BatchQueue.drain, length]
  exact BatchQueue.pollAll_chapters past o ordered.chapter_start_lt fuel

theorem DecisionTask.BringsRest.batches_eq {t : DecisionTask} {past : List Chapter} {last : Chapter}
    {o : Opening} (brings : t.BringsRest last o)
    (ordered : IsOrdered (historyTo (past ++ [last]) o)) :
    t.batches = [last.restBatch, o.batch] := by
  have suffix := historyTo_concat past last o
  have increasing := ordered.increasing
  rw [suffix] at increasing
  have positive (e : HistoryEvent) (member : e ∈ last.rest ++ o.events) : 0 < e.id := by
    refine ordered.positive e ?_
    rw [suffix]
    exact List.mem_append_right _ member
  obtain ⟨lastEventId, queue⟩ :=
    BatchQueue.ofHistory_ok o.start.id positive (List.pairwise_append.mp increasing).2.1
  rw [DecisionTask.batches, brings.history, brings.started, queue]
  change ((BatchQueue.reading o.start.id lastEventId (last.rest ++ o.events)).pollAll
    ((last.rest ++ o.events).length + 1)).1 = _
  rw [BatchQueue.pollAll, BatchQueue.poll_rest last o.head?_not_decision
    (ordered.chapter_start_lt last (by simp))]
  have length : (last.rest ++ o.events).length =
      (last.decisionEvents ++ o.events).length + 1 := by simp [Chapter.rest]
  rw [length]
  simp only [BatchQueue.pollAll_opening]

theorem DecisionTask.BringsAll.hasFullHistory {t : DecisionTask} {past : List Chapter} {o : Opening}
    (brings : t.BringsAll past o) (ordered : IsOrdered (historyTo past o)) :
    t.hasFullHistory = true := by
  have nonempty : historyTo past o ≠ [] := by simp [historyTo, Opening.events]
  unfold DecisionTask.hasFullHistory
  rw [brings.history]
  cases history : historyTo past o with
  | nil => exact absurd history nonempty
  | cons first rest => exact decide_eq_true (ordered.first first (by rw [history]; rfl))

end WorkflowReplay
