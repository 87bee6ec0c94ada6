import WorkflowReplay.Proofs.Decision.Correlation
import WorkflowReplay.Proofs.Decision.InPlace

/-!
# Whose event it is

A machine is offered events of every kind, also such as no ledger would bring to it.  Each handler
expects a few kinds of events and reads one id from them: the id that the workflow chose, the id of
the event that accepted the request, or the id of the last event that accepted its cancel decision.
Which ids these are, a machine learned from the calls that it accepted before.
-/

set_option autoImplicit false

namespace WorkflowReplay

/-- The key names the machine with this id, if these are the events that accepted its request and,
last, its cancel decision. -/
def RouteKey.Names (id : DecisionId) (accepted lastCancel : Option EventId) : RouteKey → Prop
  | .caller named => named = id
  | .nextUpsert => id.target = .upsertSearchAttributes
  | .follower target k =>
    target = id.target ∧ accepted = some k ∨
      target = .cancelExternalWorkflow ∧ id.target = .childWorkflow ∧ lastCancel = some k

/-- Only a child run is named by the event that accepted its cancel decision. -/
theorem RouteKey.names_congr {id : DecisionId} {accepted c c' : Option EventId} {key : RouteKey}
    (same : id.target = .childWorkflow → c = c') :
    key.Names id accepted c ↔ key.Names id accepted c' := by
  cases key with
  | follower target k =>
    refine or_congr_right (and_congr_right fun _ => and_congr_right fun child => ?_)
    rw [same child]
  | _ => rfl

theorem Lifecycle.Coherent.left_created {l : Lifecycle} (coherent : l.Coherent) {k : EventId}
    (own : l.references k = true) : l.state ≠ .created := by
  intro created
  simp [references, coherent.created.mp created] at own

namespace Machine

/-! ## What a handler expects -/

inductive Handler.Expects : Handler → DecisionTarget → EventAttributes → RouteKey → Prop where
  | activityScheduled {a} :
    Expects .initiated .activity (.activityTaskScheduled a) (.caller ⟨.activity, a.activityId⟩)
  | timerStarted {a} :
    Expects .initiated .timer (.timerStarted a) (.caller ⟨.timer, a.timerId⟩)
  | childInitiated {a} :
    Expects .initiated .childWorkflow (.startChildWorkflowExecutionInitiated a)
      (.caller ⟨.childWorkflow, a.workflowId⟩)
  | markerRecorded {a} :
    Expects .initiated .marker (.markerRecorded a) (.caller ⟨.marker, a.markerId⟩)
  | upserted {a} :
    Expects .initiated .upsertSearchAttributes (.upsertWorkflowSearchAttributes a) .nextUpsert
  | signalInitiated {a} :
    Expects .initiated .signalExternalWorkflow (.signalExternalWorkflowExecutionInitiated a)
      (.caller ⟨.signalExternalWorkflow, a.control⟩)
  | externalCancelInitiated {a} (anyRun : a.childWorkflowOnly = false) :
    Expects .initiated .cancelExternalWorkflow
      (.requestCancelExternalWorkflowExecutionInitiated a)
      (.caller ⟨.cancelExternalWorkflow, a.control⟩)
  | activityStarted {a} :
    Expects .started .activity (.activityTaskStarted a) (.follower .activity a.scheduledEventId)
  | childStarted {a} :
    Expects .started .childWorkflow (.childWorkflowExecutionStarted a)
      (.follower .childWorkflow a.initiatedEventId)
  | activityCompleted {a} :
    Expects .completed .activity (.activityTaskCompleted a)
      (.follower .activity a.scheduledEventId)
  | activityFailed {a} :
    Expects .completed .activity (.activityTaskFailed a) (.follower .activity a.scheduledEventId)
  | activityTimedOut {a} :
    Expects .completed .activity (.activityTaskTimedOut a)
      (.follower .activity a.scheduledEventId)
  | timerFired {a} :
    Expects .completed .timer (.timerFired a) (.follower .timer a.startedEventId)
  | childNotStarted {a} :
    Expects .completed .childWorkflow (.startChildWorkflowExecutionFailed a)
      (.follower .childWorkflow a.initiatedEventId)
  | childCompleted {a} :
    Expects .completed .childWorkflow (.childWorkflowExecutionCompleted a)
      (.follower .childWorkflow a.initiatedEventId)
  | childFailed {a} :
    Expects .completed .childWorkflow (.childWorkflowExecutionFailed a)
      (.follower .childWorkflow a.initiatedEventId)
  | childTimedOut {a} :
    Expects .completed .childWorkflow (.childWorkflowExecutionTimedOut a)
      (.follower .childWorkflow a.initiatedEventId)
  | childTerminated {a} :
    Expects .completed .childWorkflow (.childWorkflowExecutionTerminated a)
      (.follower .childWorkflow a.initiatedEventId)
  | signaled {a} :
    Expects .completed .signalExternalWorkflow (.externalWorkflowExecutionSignaled a)
      (.follower .signalExternalWorkflow a.initiatedEventId)
  | signalFailed {a} :
    Expects .completed .signalExternalWorkflow (.signalExternalWorkflowExecutionFailed a)
      (.follower .signalExternalWorkflow a.initiatedEventId)
  | externalCancelRequested {a} :
    Expects .completed .cancelExternalWorkflow (.externalWorkflowExecutionCancelRequested a)
      (.follower .cancelExternalWorkflow a.initiatedEventId)
  | externalCancelFailed {a} :
    Expects .completed .cancelExternalWorkflow (.requestCancelExternalWorkflowExecutionFailed a)
      (.follower .cancelExternalWorkflow a.initiatedEventId)
  | activityCanceled {a} :
    Expects .canceled .activity (.activityTaskCanceled a) (.follower .activity a.scheduledEventId)
  | timerCanceled {a} :
    Expects .canceled .timer (.timerCanceled a) (.follower .timer a.startedEventId)
  | childCanceled {a} :
    Expects .canceled .childWorkflow (.childWorkflowExecutionCanceled a)
      (.follower .childWorkflow a.initiatedEventId)
  | activityCancelRequested {a} :
    Expects .cancelInitiated .activity (.activityTaskCancelRequested a)
      (.caller ⟨.activity, a.activityId⟩)
  | childCancelInitiated {a} (childOnly : a.childWorkflowOnly = true) :
    Expects .cancelInitiated .childWorkflow (.requestCancelExternalWorkflowExecutionInitiated a)
      (.caller ⟨.childWorkflow, a.workflowExecution.workflowId⟩)
  | activityCancelFailed {a} :
    Expects .cancelFailed .activity (.requestCancelActivityTaskFailed a)
      (.caller ⟨.activity, a.activityId⟩)
  | timerCancelFailed {a} :
    Expects .cancelFailed .timer (.cancelTimerFailed a) (.caller ⟨.timer, a.timerId⟩)
  | childCancelFailed {a} :
    Expects .cancelFailed .childWorkflow (.requestCancelExternalWorkflowExecutionFailed a)
      (.follower .cancelExternalWorkflow a.initiatedEventId)

/-- The life of the request is at a point where the handler has something to do. -/
def Handler.Admits : Handler → Lifecycle → Prop
  | .initiated, l => l.state = .created
  | .started, l => l.state = .initiated ∨ l.state = .canceledAfterInitiated
  | .completed, l | .canceled, l => ¬ l.IsOver
  | .cancelInitiated, l => l.cancelEmitted = true
  | .cancelFailed, l => l.state = .canceledAfterInitiated ∨ l.state = .canceledAfterStarted

def Handler.Reacts (h : Handler) (m : Machine) (e : HistoryEvent) : Prop :=
  ∃ key, h.Expects m.id.target e.attributes key ∧
    key.Names m.id m.life.initiatedEventId m.request.cancelEventId? ∧ h.Admits m.life

/-! ## What a handler accepts -/

theorem guarded_isSome {α : Type} {c : Prop} [Decidable c] {x? : Option α} :
    (if c then x? else none).isSome = true ↔ c ∧ x?.isSome = true := by
  split <;> simp [*]

theorem initiated?_isSome (m : Machine) (e : HistoryEvent) :
    (m.initiated? e).isSome = true ↔ Handler.initiated.Reacts m e := by
  have initiates : (m.life.initiate? e.id).isSome = true ↔ m.life.state = .created := by
    simp [Lifecycle.initiate?, guarded_isSome]
  have records : (m.life.record? e.id).isSome = true ↔ m.life.state = .created := by
    rw [Lifecycle.record?, Option.isSome_map, initiates]
  obtain ⟨request, life⟩ := m
  obtain ⟨id, time, attributes⟩ := e
  constructor
  · intro taken
    -- Markers and upserts are settled by the event that accepts them, so they are recorded.
    cases request with
    | activity r =>
      cases attributes with
      | activityTaskScheduled a =>
        obtain ⟨own, accepted⟩ := guarded_isSome.mp taken
        exact ⟨_, .activityScheduled, congrArg _ own, initiates.mp (by simpa using accepted)⟩
      | _ => cases taken
    | timer r =>
      cases attributes with
      | timerStarted a =>
        obtain ⟨own, accepted⟩ := guarded_isSome.mp taken
        exact ⟨_, .timerStarted, congrArg _ own, initiates.mp (by simpa using accepted)⟩
      | _ => cases taken
    | child r runId cancelEventId =>
      cases attributes with
      | startChildWorkflowExecutionInitiated a =>
        obtain ⟨own, accepted⟩ := guarded_isSome.mp taken
        exact ⟨_, .childInitiated, congrArg _ own, initiates.mp (by simpa using accepted)⟩
      | _ => cases taken
    | marker r =>
      cases attributes with
      | markerRecorded a =>
        obtain ⟨own, recorded⟩ := guarded_isSome.mp taken
        exact ⟨_, .markerRecorded, congrArg _ own, records.mp (by simpa using recorded)⟩
      | _ => cases taken
    | upsert id searchAttributes =>
      cases attributes with
      | upsertWorkflowSearchAttributes a =>
        exact ⟨_, .upserted, rfl, records.mp (by simpa [initiated?] using taken)⟩
      | _ => cases taken
    | signal r =>
      cases attributes with
      | signalExternalWorkflowExecutionInitiated a =>
        obtain ⟨own, accepted⟩ := guarded_isSome.mp taken
        exact ⟨_, .signalInitiated, congrArg _ own, initiates.mp (by simpa using accepted)⟩
      | _ => cases taken
    | cancelExternal r =>
      cases attributes with
      | requestCancelExternalWorkflowExecutionInitiated a =>
        obtain ⟨own, accepted⟩ := guarded_isSome.mp taken
        obtain ⟨anyRun, own⟩ := Bool.and_eq_true_iff.mp own
        exact ⟨_, .externalCancelInitiated (by simpa using anyRun),
          congrArg _ (of_decide_eq_true own), initiates.mp (by simpa using accepted)⟩
      | _ => cases taken
  · rintro ⟨key, expects, named, created⟩
    cases request <;> cases expects
    all_goals simp_all [initiated?, RouteKey.Names, Machine.id, Request.id, Handler.Admits]

theorem started?_isSome (m : Machine) (e : HistoryEvent) :
    (m.started? e).isSome = true ↔ Handler.started.Reacts m e := by
  have starts : (m.life.start? e.id).isSome = true ↔
      m.life.state = .initiated ∨ m.life.state = .canceledAfterInitiated := by
    cases state : m.life.state <;> simp [Lifecycle.start?, state]
  obtain ⟨request, life⟩ := m
  obtain ⟨id, time, attributes⟩ := e
  constructor
  · intro taken
    cases request with
    | activity r =>
      cases attributes with
      | activityTaskStarted a =>
        obtain ⟨own, began⟩ := guarded_isSome.mp taken
        exact ⟨_, .activityStarted, .inl ⟨rfl, eq_of_beq own⟩, starts.mp (by simpa using began)⟩
      | _ => cases taken
    | child r runId cancelEventId =>
      cases attributes with
      | childWorkflowExecutionStarted a =>
        obtain ⟨own, began⟩ := guarded_isSome.mp taken
        exact ⟨_, .childStarted, .inl ⟨rfl, eq_of_beq own⟩, starts.mp (by simpa using began)⟩
      | _ => cases taken
    | _ => cases taken
  · rintro ⟨key, expects, named, going⟩
    cases request <;> cases expects
    all_goals
      simp_all [started?, RouteKey.Names, Machine.id, Request.id, Handler.Admits,
        Lifecycle.references]

theorem reacts_ending_iff {α : Type} {h : Handler} {m : Machine} {e : HistoryEvent}
    {named? : Option (EventId × α)}
    (expects : ∀ key, h.Expects m.id.target e.attributes key ↔
      ∃ k x, named? = some (k, x) ∧ key = .follower m.id.target k) :
    h.Reacts m e ↔
      ∃ k x, named? = some (k, x) ∧ m.life.references k = true ∧ h.Admits m.life := by
  constructor
  · rintro ⟨key, expected, named, admits⟩
    obtain ⟨k, x, names, rfl⟩ := (expects key).mp expected
    -- The key has the target of the request itself, so it does not stand for a cancel decision.
    rcases named with ⟨-, own⟩ | ⟨target, child, -⟩
    · exact ⟨k, x, names, by simp [Lifecycle.references, own], admits⟩
    · simp [target] at child
  · rintro ⟨k, x, names, own, admits⟩
    exact ⟨_, (expects _).mpr ⟨k, x, names, rfl⟩, .inl ⟨rfl, eq_of_beq own⟩, admits⟩

theorem expects_completed_iff {r : Request} {a : EventAttributes} (key : RouteKey) :
    Handler.completed.Expects r.id.target a key ↔
      ∃ k o, ending? r a = some (k, o) ∧ key = .follower r.id.target k := by
  constructor
  · intro expects
    cases r <;> cases expects <;> exact ⟨_, _, rfl, rfl⟩
  · rintro ⟨k, o, ends, rfl⟩
    unfold ending? at ends
    split at ends
    all_goals cases ends
    all_goals constructor

theorem expects_canceled_iff {r : Request} {a : EventAttributes} (key : RouteKey) :
    Handler.canceled.Expects r.id.target a key ↔
      ∃ k details, cancellation? r a = some (k, details) ∧ key = .follower r.id.target k := by
  constructor
  · intro expects
    cases r <;> cases expects <;> exact ⟨_, _, rfl, rfl⟩
  · rintro ⟨k, details, cancels, rfl⟩
    unfold cancellation? at cancels
    split at cancels
    all_goals cases cancels
    all_goals constructor

theorem completed?_isSome {m : Machine} (coherent : m.life.Coherent) (e : HistoryEvent) :
    (m.completed? e).isSome = true ↔ Handler.completed.Reacts m e := by
  have completes : m.life.complete?.isSome = true ↔ m.life.state ≠ .created ∧ ¬ m.life.IsOver := by
    cases state : m.life.state <;> simp [Lifecycle.complete?, Lifecycle.IsOver, state]
  rw [reacts_ending_iff expects_completed_iff, completed?]
  cases ending? m.request e.attributes with
  | none => simp
  | some named =>
    obtain ⟨k, o⟩ := named
    simp only [guarded_isSome, Option.isSome_map, completes]
    simpa [Handler.Admits] using fun own _ => coherent.left_created own

theorem canceled?_isSome {m : Machine} (coherent : m.life.Coherent) (e : HistoryEvent) :
    (m.canceled? e).isSome = true ↔ Handler.canceled.Reacts m e := by
  have cancels : m.life.cancel?.isSome = true ↔ m.life.state ≠ .created ∧ ¬ m.life.IsOver := by
    cases state : m.life.state <;> simp [Lifecycle.cancel?, Lifecycle.IsOver, state]
  rw [reacts_ending_iff expects_canceled_iff, canceled?]
  cases cancellation? m.request e.attributes with
  | none => simp
  | some named =>
    obtain ⟨k, details⟩ := named
    simp only [guarded_isSome, Option.isSome_map, cancels]
    simpa [Handler.Admits] using fun own _ => coherent.left_created own

theorem cancelInitiated?_isSome (m : Machine) (e : HistoryEvent) :
    (m.cancelInitiated? e).isSome = true ↔ Handler.cancelInitiated.Reacts m e := by
  obtain ⟨request, life⟩ := m
  obtain ⟨id, time, attributes⟩ := e
  constructor
  · intro taken
    cases request with
    | activity r =>
      cases attributes with
      | activityTaskCancelRequested a =>
        obtain ⟨own, -⟩ := guarded_isSome.mp taken
        simp only [Bool.and_eq_true, decide_eq_true_eq] at own
        exact ⟨_, .activityCancelRequested, congrArg _ own.1, own.2⟩
      | _ => cases taken
    | child r runId cancelEventId =>
      cases attributes with
      | requestCancelExternalWorkflowExecutionInitiated a =>
        obtain ⟨own, -⟩ := guarded_isSome.mp taken
        simp only [Bool.and_eq_true, decide_eq_true_eq] at own
        exact ⟨_, .childCancelInitiated own.1.1, congrArg _ own.1.2, own.2⟩
      | _ => cases taken
    | _ => cases taken
  · rintro ⟨key, expects, named, sent⟩
    cases request <;> cases expects
    all_goals simp_all [cancelInitiated?, RouteKey.Names, Machine.id, Request.id, Handler.Admits]

theorem cancelFailed?_isSome (m : Machine) (e : HistoryEvent) :
    (m.cancelFailed? e).isSome = true ↔ Handler.cancelFailed.Reacts m e := by
  have fails : m.life.failCancel?.isSome = true ↔
      m.life.state = .canceledAfterInitiated ∨ m.life.state = .canceledAfterStarted := by
    cases state : m.life.state <;> simp [Lifecycle.failCancel?, state]
  obtain ⟨request, life⟩ := m
  obtain ⟨id, time, attributes⟩ := e
  constructor
  · intro taken
    cases request with
    | activity r =>
      cases attributes with
      | requestCancelActivityTaskFailed a =>
        obtain ⟨own, failed⟩ := guarded_isSome.mp taken
        exact ⟨_, .activityCancelFailed, congrArg _ own, fails.mp (by simpa using failed)⟩
      | _ => cases taken
    | timer r =>
      cases attributes with
      | cancelTimerFailed a =>
        obtain ⟨own, failed⟩ := guarded_isSome.mp taken
        exact ⟨_, .timerCancelFailed, congrArg _ own, fails.mp (by simpa using failed)⟩
      | _ => cases taken
    | child r runId cancelEventId =>
      cases attributes with
      | requestCancelExternalWorkflowExecutionFailed a =>
        obtain ⟨own, failed⟩ := guarded_isSome.mp taken
        exact ⟨_, .childCancelFailed, .inr ⟨rfl, rfl, own⟩, fails.mp (by simpa using failed)⟩
      | _ => cases taken
    | _ => cases taken
  · rintro ⟨key, expects, named, sent⟩
    cases request <;> cases expects
    all_goals
      simp_all [cancelFailed?, RouteKey.Names, Machine.id, Request.id, Request.cancelEventId?,
        Handler.Admits]

theorem accepted_iff_reacts {m : Machine} (coherent : m.life.Coherent) (h : Handler)
    (e : HistoryEvent) : (m.answer (h.call e)).accepted = true ↔ h.Reacts m e := by
  cases h with
  | initiated => exact initiated?_isSome m e
  | started => exact started?_isSome m e
  | completed => exact completed?_isSome coherent e
  | canceled => exact canceled?_isSome coherent e
  | cancelInitiated => exact cancelInitiated?_isSome m e
  | cancelFailed => exact cancelFailed?_isSome m e

/-! ## What a machine learns -/

def Handler.event? : Handler → Call → Option HistoryEvent
  | .initiated, .initiated e | .started, .started e | .completed, .completed e
  | .canceled, .canceled e | .cancelInitiated, .cancelInitiated e
  | .cancelFailed, .cancelFailed e => some e
  | _, _ => none

def Handler.taken? (h : Handler) (x : Call × Answer) : Option EventId :=
  if x.2.accepted then (h.event? x.1).map (·.id) else none

def Handler.lastTaken? (h : Handler) (log : List (Call × Answer)) : Option EventId :=
  (log.filterMap h.taken?).getLast?

theorem Handler.lastTaken?_concat (h : Handler) (log : List (Call × Answer)) (x : Call × Answer) :
    h.lastTaken? (log ++ [x]) = (h.taken? x).or (h.lastTaken? log) := by
  rw [lastTaken?, List.filterMap_append, List.getLast?_append, lastTaken?]
  cases taken : h.taken? x <;> simp [taken]

theorem Handler.other_takes_nothing {h : Handler} {call : Call} {f : Machine → Option EventId}
    {m : Machine} (other : h.event? call = none) (same : f (m.answer call).machine = f m) :
    f (m.answer call).machine = (h.taken? (call, m.answer call)).or (f m) := by
  simp [taken?, other, same]

theorem attempt_preserves {α : Type} {f : Machine → α} {m : Machine} {m'? : Option Machine}
    (keeps : ∀ m', m'? = some m' → f m' = f m) : f (m.attempt m'?).machine = f m := by
  cases m'? with
  | none => rfl
  | some m' => exact keeps m' rfl

theorem resolve_preserves {α : Type} {f : Machine → α} {m : Machine}
    {r? : Option (Outcome × Machine)} (keeps : ∀ o m', r? = some (o, m') → f m' = f m) :
    f (m.resolve r?).machine = f m := by
  cases r? with
  | none => rfl
  | some r => exact keeps r.1 r.2 rfl

theorem answer_initiatedEventId (m : Machine) (call : Call) :
    (m.answer call).machine.life.initiatedEventId =
      (Handler.initiated.taken? (call, m.answer call)).or m.life.initiatedEventId := by
  let known (m : Machine) := m.life.initiatedEventId
  change known _ = (Handler.initiated.taken? _).or (known m)
  cases call with
  | requestCancel =>
    refine Handler.other_takes_nothing rfl (attempt_preserves fun m' asked => ?_)
    obtain ⟨l, life, rfl⟩ := requestCancel?_eq asked
    obtain ⟨-, rfl⟩ := Lifecycle.requestCancel?_eq life
    rfl
  | collect => exact Handler.other_takes_nothing rfl m.life.markSent_initiatedEventId
  | markSent => exact Handler.other_takes_nothing rfl m.life.markSent_initiatedEventId
  | initiated e =>
    cases initiated : m.initiated? e with
    | none => simp [known, answer, attempt, Handler.taken?, initiated]
    | some m' =>
      obtain ⟨l, rfl, -, -, learned, -⟩ := initiated?_leaves_created initiated
      simp [known, answer, attempt, Handler.taken?, Handler.event?, initiated, withLife, learned]
  | started e =>
    refine Handler.other_takes_nothing rfl (attempt_preserves fun m' started => ?_)
    exact (started?_continues started).initiatedEventId_eq
  | completed e =>
    refine Handler.other_takes_nothing rfl (resolve_preserves fun o m' completed => ?_)
    exact (completed?_continues completed).initiatedEventId_eq
  | canceled e =>
    refine Handler.other_takes_nothing rfl (resolve_preserves fun o m' canceled => ?_)
    exact (canceled?_continues canceled).initiatedEventId_eq
  | cancelInitiated e =>
    refine Handler.other_takes_nothing rfl (attempt_preserves fun m' found => ?_)
    exact (cancelInitiated?_continues found).initiatedEventId_eq
  | cancelFailed e =>
    refine Handler.other_takes_nothing rfl (attempt_preserves fun m' failed => ?_)
    exact (cancelFailed?_continues failed).initiatedEventId_eq

theorem answer_cancelEventId {m : Machine} (child : m.id.target = .childWorkflow) (call : Call) :
    (m.answer call).machine.request.cancelEventId? =
      (Handler.cancelInitiated.taken? (call, m.answer call)).or m.request.cancelEventId? := by
  let known (m : Machine) := m.request.cancelEventId?
  change known _ = (Handler.cancelInitiated.taken? _).or (known m)
  cases call with
  | requestCancel =>
    refine Handler.other_takes_nothing rfl (attempt_preserves fun m' asked => ?_)
    obtain ⟨l, -, rfl⟩ := requestCancel?_eq asked
    rfl
  | collect => exact Handler.other_takes_nothing rfl rfl
  | markSent => exact Handler.other_takes_nothing rfl rfl
  | initiated e =>
    refine Handler.other_takes_nothing rfl (attempt_preserves fun m' initiated => ?_)
    obtain ⟨l, rfl, -⟩ := initiated?_leaves_created initiated
    rfl
  | started e =>
    refine Handler.other_takes_nothing rfl (attempt_preserves fun m' started => ?_)
    exact started?_cancelEventId started
  | completed e =>
    refine Handler.other_takes_nothing rfl (resolve_preserves fun o m' completed => ?_)
    exact congrArg Request.cancelEventId? (completed?_life completed).2.2
  | canceled e =>
    refine Handler.other_takes_nothing rfl (resolve_preserves fun o m' canceled => ?_)
    exact congrArg Request.cancelEventId? (canceled?_life canceled).2.2.1
  | cancelInitiated e =>
    cases accepted : m.cancelInitiated? e with
    | none => simp [known, answer, attempt, Handler.taken?, accepted]
    | some m' =>
      have learned := cancelInitiated?_cancelEventId accepted
      rw [if_pos child] at learned
      simp [known, answer, attempt, Handler.taken?, Handler.event?, accepted, learned]
  | cancelFailed e =>
    refine Handler.other_takes_nothing rfl (attempt_preserves fun m' failed => ?_)
    exact congrArg Request.cancelEventId? (cancelFailed?_life failed).2

structure Recalls (log : List (Call × Answer)) (m : Machine) : Prop where
  coherent : m.life.Coherent
  accepted : m.life.initiatedEventId = Handler.initiated.lastTaken? log
  lastCancel : m.id.target = .childWorkflow →
    m.request.cancelEventId? = Handler.cancelInitiated.lastTaken? log

theorem Call.Effect.keeps_id {call : Call} {m : Machine} {a : Answer} (effect : call.Effect m a) :
    a.machine.id = m.id := by
  cases effect with
  | ignored => rfl
  | sent => rfl
  | changed evolves => exact evolves.id
  | resolved _ evolves => exact evolves.id

theorem Call.Effect.refused_unchanged {call : Call} {m : Machine} {a : Answer}
    (effect : call.Effect m a)
    (refused : a.accepted = false) : a.machine = m ∧ a.outcome = none := by
  cases effect with
  | ignored => exact ⟨rfl, rfl⟩
  | _ => simp at refused

theorem Recalls.concat_answer {log : List (Call × Answer)} {m : Machine} (recalls : Recalls log m)
    (call : Call) : Recalls (log ++ [(call, m.answer call)]) (m.answer call).machine where
  coherent := recalls.coherent.step (m.answer_effect call).life_step
  accepted := by
    rw [answer_initiatedEventId, Handler.lastTaken?_concat, recalls.accepted]
  lastCancel child := by
    rw [(m.answer_effect call).keeps_id] at child
    rw [answer_cancelEventId child, Handler.lastTaken?_concat, recalls.lastCancel child]

theorem answers_concat (m : Machine) (calls : List Call) (call : Call) :
    m.answers (calls ++ [call]) =
      m.answers calls ++ [(call, (m.calledWith calls).answer call)] := by
  induction calls generalizing m with
  | nil => rfl
  | cons first rest ih => exact congrArg _ (ih (m.answer first).machine)

theorem calledWith_recalls {r : Request} (new : r.isNew = true) (calls : List Call) :
    Recalls (answers { request := r } calls) (calledWith { request := r } calls) := by
  induction calls using List.reverseRecOn with
  | nil => exact ⟨Lifecycle.coherent_new, rfl, fun _ => Request.cancelEventId?_new new⟩
  | append_singleton calls call ih =>
    rw [answers_concat, calledWith_append]
    exact ih.concat_answer call

theorem calledWith_id (m : Machine) (calls : List Call) : (m.calledWith calls).id = m.id :=
  calledWith_induction (motive := fun m' => m'.id = m.id) rfl
    (fun _ call same => (answer_effect _ call).keeps_id.trans same) calls

/-! ## Own events -/

/-- Whatever a new machine of any kind is called with, each of its handlers leaves it as it is
unless it accepts the event, and accepts just the events that it expects, that name this machine by
what it learned from the calls before, and that find something to do. -/
theorem reacts_to_own_events {r : Request} (new : r.isNew = true) (calls : List Call) (h : Handler)
    (e : HistoryEvent) :
    let start : Machine := { request := r }
    let m := start.calledWith calls
    let log := start.answers calls
    let a := m.handleInPlace h e
    (a.accepted = false → a.machine = m ∧ a.outcome = none) ∧
      (a.accepted = true ↔
        ∃ key, h.Expects r.id.target e.attributes key ∧
          key.Names r.id (Handler.initiated.lastTaken? log)
            (Handler.cancelInitiated.lastTaken? log) ∧
          h.Admits m.life) := by
  intro start m log a
  have inPlace : a = m.answer (h.call e) := m.handleInPlace_eq h e
  -- The ids that the machine holds are the ones that its log tells of.
  have recalls : Recalls log m := calledWith_recalls new calls
  have id : m.id = r.id := start.calledWith_id calls
  have lastCancel := recalls.lastCancel
  rw [id] at lastCancel
  rw [inPlace]
  refine ⟨(m.answer_effect (h.call e)).refused_unchanged,
    (accepted_iff_reacts recalls.coherent h e).trans ?_⟩
  simp only [Handler.Reacts, id, recalls.accepted, RouteKey.names_congr lastCancel]

/-- A child run whose cancel decision was refused once and then accepted again. -/
def canceledTwice : List Call := [
  .collect,
  .initiated ⟨5, ⟨0, 0⟩, .startChildWorkflowExecutionInitiated { workflowId := "c" }⟩,
  .requestCancel, .collect,
  .cancelInitiated ⟨7, ⟨0, 0⟩, .requestCancelExternalWorkflowExecutionInitiated
    { workflowExecution := { workflowId := "c" }, childWorkflowOnly := true }⟩,
  .cancelFailed ⟨8, ⟨0, 0⟩, .requestCancelExternalWorkflowExecutionFailed
    { initiatedEventId := 7 }⟩,
  .requestCancel, .collect,
  .cancelInitiated ⟨9, ⟨0, 0⟩, .requestCancelExternalWorkflowExecutionInitiated
    { workflowExecution := { workflowId := "c" }, childWorkflowOnly := true }⟩]

def refusalOf (k : EventId) : HistoryEvent :=
  ⟨10, ⟨0, 0⟩, .requestCancelExternalWorkflowExecutionFailed { initiatedEventId := k }⟩

theorem only_last_cancel_refused :
    let m := calledWith { request := .child { workflowId := "c" } none none } canceledTwice
    (m.handleInPlace .cancelFailed (refusalOf 7)).machine = m ∧
      (m.handleInPlace .cancelFailed (refusalOf 9)).accepted = true := by
  have react := reacts_to_own_events (r := .child { workflowId := "c" } none none) rfl
    canceledTwice .cancelFailed
  exact ⟨((react (refusalOf 7)).1 (by decide)).1,
    (react (refusalOf 9)).2.mpr ⟨_, .childCancelFailed, .inr ⟨rfl, rfl, by decide⟩,
      .inl (by decide)⟩⟩

end Machine

end WorkflowReplay
