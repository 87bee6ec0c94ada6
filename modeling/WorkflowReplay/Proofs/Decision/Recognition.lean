import WorkflowReplay.Proofs.Decision.Awaiting

/-!
# How a request comes back

A machine asks for something by its initial decision, and the orchestrator records the decision by
an event.  For every kind of request but one the event finds its way back to the machine that asked,
as long as the machine waits for it.  The exception is a request to cancel another run that is
restricted to child runs: its event is taken for the cancel decision of a child.
-/

set_option autoImplicit false

namespace WorkflowReplay

namespace Decision

inductive IsRecordedBy : Decision → EventAttributes → Prop where
  | activity {d : ScheduleActivity} {a : Event.ActivityTaskScheduled}
    (id : a.activityId = d.activityId) :
    IsRecordedBy (.scheduleActivityTask d) (.activityTaskScheduled a)
  | timer {d : StartTimer} {a : Event.TimerStarted} (id : a.timerId = d.timerId) :
    IsRecordedBy (.startTimer d) (.timerStarted a)
  | child {d : StartChild} {a : Event.StartChildWorkflowExecutionInitiated}
    (id : a.workflowId = d.workflowId) :
    IsRecordedBy (.startChildWorkflowExecution d) (.startChildWorkflowExecutionInitiated a)
  | marker {d : RecordMarker} {a : Event.MarkerRecorded} (id : a.markerId = d.markerId) :
    IsRecordedBy (.recordMarker d) (.markerRecorded a)
  | upsert (attributes : SearchAttributes) (a : Event.UpsertWorkflowSearchAttributes) :
    IsRecordedBy (.upsertWorkflowSearchAttributes attributes) (.upsertWorkflowSearchAttributes a)
  | signal {d : SignalExternal} {a : Event.SignalExternalWorkflowExecutionInitiated}
    (control : a.control = d.control)
    (workflow : a.workflowExecution.workflowId = d.execution.workflowId)
    (only : a.childWorkflowOnly = d.childWorkflowOnly) :
    IsRecordedBy (.signalExternalWorkflowExecution d) (.signalExternalWorkflowExecutionInitiated a)
  | cancelExternal {d : CancelExternal} {a : Event.RequestCancelExternalWorkflowExecutionInitiated}
    (control : a.control = d.control) (workflow : a.workflowExecution.workflowId = d.workflowId)
    (only : a.childWorkflowOnly = d.childWorkflowOnly) :
    IsRecordedBy (.requestCancelExternalWorkflowExecution d)
      (.requestCancelExternalWorkflowExecutionInitiated a)

/-- The child run that the decision may cancel, and no run that is not a child. -/
def onlyChild? : Decision → Option String
  | .requestCancelExternalWorkflowExecution d =>
    if d.childWorkflowOnly then some d.workflowId else none
  | _ => none

end Decision

def Request.key : Request → RouteKey
  | .upsert _ _ => .nextUpsert
  | r => .caller r.id

theorem Request.key_eq (r : Request) :
    r.key = if r.id.target = .upsertSearchAttributes then .nextUpsert else .caller r.id := by
  cases r <;> rfl

theorem Machine.initiated?_of_recorded {m : Machine} {e : HistoryEvent}
    (created : m.life.state = .created)
    (recorded : m.request.initialDecision.IsRecordedBy e.attributes)
    (plain : m.request.initialDecision.onlyChild? = none) :
    Route.of e.attributes = some ⟨m.request.key, .initiated⟩ ∧ (m.initiated? e).isSome := by
  obtain ⟨request, life⟩ := m
  obtain ⟨id, timestamp, attributes⟩ := e
  have initiates : (life.initiate? id).isSome := by simp_all [Lifecycle.initiate?]
  have records : (life.record? id).isSome := by simpa [Lifecycle.record?] using initiates
  simp only at recorded plain
  cases request with
  | activity d =>
    cases recorded with
    | activity id => simp [Route.of, Request.key, Request.id, Machine.initiated?, id, initiates]
  | timer d =>
    cases recorded with
    | timer id => simp [Route.of, Request.key, Request.id, Machine.initiated?, id, initiates]
  | child d runId cancelEventId =>
    cases recorded with
    | child id => simp [Route.of, Request.key, Request.id, Machine.initiated?, id, initiates]
  | marker d =>
    cases recorded with
    | marker id => simp [Route.of, Request.key, Request.id, Machine.initiated?, id, records]
  | upsert id attributes =>
    cases recorded with
    | upsert => simp [Route.of, Request.key, Machine.initiated?, records]
  | signal d =>
    cases recorded with
    | signal control =>
      simp [Route.of, Request.key, Request.id, Machine.initiated?, control, initiates]
  | cancelExternal d =>
    cases recorded with
    | cancelExternal control workflow only =>
      have unrestricted : d.childWorkflowOnly = false := by
        simpa [Request.initialDecision, Decision.onlyChild?] using plain
      simp [Route.of, Request.key, Request.id, Machine.initiated?, control, only, unrestricted,
        initiates]

theorem Decision.IsRecordedBy.route_of_onlyChild {d : Decision} {a : EventAttributes}
    {workflowId : String} (recorded : d.IsRecordedBy a) (only : d.onlyChild? = some workflowId) :
    Route.of a = some ⟨.caller ⟨.childWorkflow, workflowId⟩, .cancelInitiated⟩ := by
  cases recorded with
  | cancelExternal control workflow restricted =>
    simp only [onlyChild?] at only
    split at only
    · next holds =>
      cases only
      simp [Route.of, restricted, holds, workflow]
    · simp at only
  | _ => simp [onlyChild?] at only

structure Machine.WaitsFor (m : Machine) (r : Request) : Prop where
  created : m.life.state = .created
  id : m.id = r.id
  initialDecision : m.request.initialDecision = r.initialDecision

theorem Machine.WaitsFor.of_evolves_created {m m' : Machine} {r : Request} (waits : m.WaitsFor r)
    (evolves : m.Evolves m') (created : m'.life.state = .created) : m'.WaitsFor r where
  created := created
  id := evolves.id.trans waits.id
  initialDecision := evolves.initialDecision.trans waits.initialDecision

namespace Ledger

/-! ## The machine that asked -/

theorem Turn.preserves_waitsFor {machine : Machine} {after : Option Machine} {r? : Option Reception}
    (turn : Turn (some machine) r? after) {r : Request} (waits : machine.WaitsFor r)
    (unaccepted : ∀ q ∈ r?, q.role ≠ .initiated) :
    ∃ machine', after = some machine' ∧ machine'.WaitsFor r := by
  cases turn with
  | kept => exact ⟨machine, rfl, waits⟩
  | @asked _ machine' canceled =>
    refine ⟨machine', rfl, waits.of_evolves_created (Machine.requestCancel?_evolves canceled) ?_⟩
    obtain ⟨l, life, rfl⟩ := Machine.requestCancel?_eq canceled
    obtain ⟨-, rfl⟩ := Lifecycle.requestCancel?_eq life
    exact waits.created
  | sent =>
    exact ⟨machine.markSent, rfl, (Lifecycle.markSent_created machine.life).mpr waits.created,
      waits.id, waits.initialDecision⟩
  | @received q genuine =>
    refine ⟨q.reaction.machine, rfl, waits.of_evolves_created (react?_evolves genuine) ?_⟩
    rcases genuine.effect.later_of_not_initiated (unaccepted q rfl) with later | same
    · exact absurd waits.created later.before
    · rw [same]
      exact waits.created

theorem getElem?_make_last {m : Ledger} {r : Request} (free : m.isLive r.id = false) :
    (m.make r).machines[m.machines.length]? = some { request := r } := by
  obtain ⟨pendingUpserts, eq⟩ := make_eq m r
  rw [eq, request_eq_made_of_free free]
  simp [made]

/-- A run that makes a request under a free id, and in which no event has accepted it yet. -/
structure Asking where
  past : List Operation
  request : Request
  new : request.isNew = true
  free : (after past).isLive request.id = false
  later : List Operation
  unaccepted : ∀ r ∈ receptionsAfter (past ++ [.make request new]) later
    (after past).machines.length, r.role ≠ .initiated

namespace Asking

def index (a : Asking) : Nat := (after a.past).machines.length

def ledger (a : Asking) : Ledger := after (a.past ++ [.make a.request a.new] ++ a.later)

def collected (past : List Operation) (request : Request) (new : request.isNew = true)
    (free : (after past).isLive request.id = false) : Asking :=
  { past, request, new, free
    later := [.collect]
    unaccepted := by simp [receptionsAfter, receptionsFrom, reception?] }

theorem exists_waitsFor (a : Asking) :
    ∃ machine, a.ledger.machines[a.index]? = some machine ∧ machine.WaitsFor a.request := by
  have unaccepted := a.unaccepted
  revert unaccepted
  refine machine_induction (motive := fun seen machine? => (∀ r ∈ seen, r.role ≠ .initiated) →
    ∃ machine, machine? = some machine ∧ machine.WaitsFor a.request) _ _ ?_ ?_ a.later
  · intro _
    rw [after_concat]
    exact ⟨{ request := a.request }, getElem?_make_last a.free, rfl, rfl, rfl⟩
  · intro seen before r? after ih turn unaccepted
    obtain ⟨machine, rfl, waits⟩ := ih fun r member =>
      unaccepted r (List.mem_append_left _ member)
    exact turn.preserves_waitsFor waits fun r member =>
      unaccepted r (List.mem_append_right _ (Option.mem_toList.mpr member))

def passed (a : Asking) {e : HistoryEvent} {route : Route}
    (routed : Route.of e.attributes = some route) (other : route.role ≠ .initiated) : Asking :=
  { a with
    later := a.later ++ [.event e]
    unaccepted := by
      intro r member
      rw [receptionsAfter_concat] at member
      rcases List.mem_append.mp member with old | last
      · exact a.unaccepted r old
      · obtain ⟨received, -⟩ := Option.filter_eq_some_iff.mp (Option.mem_toList.mp last)
        obtain ⟨-, key, -, routed', -⟩ := receive?_eq_some received
        have role : route.role = r.role :=
          congrArg Route.role (Option.some.inj (routed.symm.trans routed'))
        rwa [← role] }

theorem passed_ledger (a : Asking) {e : HistoryEvent} {route : Route}
    (routed : Route.of e.attributes = some route) (other : route.role ≠ .initiated) :
    (a.passed routed other).ledger = a.ledger.operate (.event e) := by
  rw [ledger, ledger, ← after_concat]
  simp only [passed, List.append_assoc]

end Asking

/-! ## The event that records the request -/

/-- The event is handled, accepted by the machine with the index and by no other, and it takes this
machine out of its first state. -/
structure Recognises (m : Ledger) (i : Nat) (e : HistoryEvent) (m' : Ledger) : Prop where
  handled : m.handleEvent e = .ok (none, m')
  accepted : ∃ r, m.receive? e = some r ∧ r.index = i ∧ r.role = .initiated
  left : ∃ machine, m'.machines[i]? = some machine ∧ machine.life.state ≠ .created
  others : ∀ j, j ≠ i → m'.machines[j]? = m.machines[j]?

theorem recognises_of_located {m : Ledger} {e : HistoryEvent} {key : RouteKey} {i : Nat}
    {pendingUpserts : List Nat} {machine : Machine}
    (routed : Route.of e.attributes = some ⟨key, .initiated⟩)
    (located : m.locate key e = .ok (i, pendingUpserts)) (found : m.machines[i]? = some machine)
    (accepts : (machine.initiated? e).isSome) : ∃ m', m.Recognises i e m' := by
  obtain ⟨machine', initiated⟩ := Option.isSome_iff_exists.mp accepts
  have reacts : react? machine .initiated e =
      some { machine := machine', newAlias := some machine.id.target } := by
    simp [react?, initiated]
  have received := receive?_located routed located found reacts
  rcases @handleEvent_located _ _ ⟨key, .initiated⟩ _ _ routed located with
    ⟨none, -⟩ | ⟨r, received', -, handled⟩
  · simp [none] at received
  · obtain rfl := Option.some.inj (received.symm.trans received')
    refine ⟨_, handled, ⟨_, received, rfl, rfl⟩, ⟨machine', ?_, ?_⟩, ?_⟩
    · simp [put, (List.getElem?_eq_some_iff.mp found).1]
    · obtain ⟨l, rfl, -, left, -⟩ := Machine.initiated?_leaves_created initiated
      exact left
    · intro j other
      exact (put_machines found j).trans (if_neg fun same => other same.symm)

theorem Filed.locate_awaiting {m : Ledger} (filed : m.Filed) {i : Nat} {machine : Machine}
    (found : m.machines[i]? = some machine) (created : machine.life.state = .created)
    (next : machine.id.target = .upsertSearchAttributes → ∀ j, m.AwaitsUpsert j → i ≤ j)
    (e : HistoryEvent) :
    ∃ pendingUpserts, m.locate machine.request.key e = .ok (i, pendingUpserts) := by
  have awaited : m.awaited? i = some machine.id :=
    awaited?_eq_some.mpr ⟨machine, found, created, rfl⟩
  rw [Request.key_eq]
  split
  · next upsert =>
    have waits : m.AwaitsUpsert i := by
      refine ⟨machine.id.id, ?_⟩
      rw [awaited, ← upsert]
      rfl
    obtain ⟨rest, queue⟩ := (filed.first_iff_least_awaiting i).mpr ⟨waits, next upsert⟩
    exact ⟨rest, by simp [locate, queue]⟩
  · have name : m.byId.get? machine.request.id = some i := filed.named i machine.id awaited
    exact ⟨m.pendingUpserts, by simp [locate, name]⟩

/-- A request comes back to the machine that asked, with one exception: the event of a request to
cancel that is restricted to child runs is taken for one of the child that it names, or refused. -/
theorem Asking.recognised_iff (a : Asking) {e : HistoryEvent}
    (recorded : a.request.initialDecision.IsRecordedBy e.attributes)
    (next : a.request.id.target = .upsertSearchAttributes →
      ∀ j, a.ledger.AwaitsUpsert j → a.index ≤ j) :
    ((∃ m', a.ledger.Recognises a.index e m') ↔ a.request.initialDecision.onlyChild? = none) ∧
    ∀ workflowId, a.request.initialDecision.onlyChild? = some workflowId →
      (∃ machine, (a.ledger.operate (.event e)).machines[a.index]? = some machine ∧
        machine.WaitsFor a.request) ∧
      (a.ledger.byId.get? ⟨.childWorkflow, workflowId⟩ = none →
        a.ledger.handleEvent e =
          .error (.unknownDecision ⟨.childWorkflow, workflowId⟩ e.id e.type)) := by
  obtain ⟨machine, found, waits⟩ := a.exists_waitsFor
  have strays (workflowId : String)
      (only : a.request.initialDecision.onlyChild? = some workflowId) :
      ∃ machine, (a.ledger.operate (.event e)).machines[a.index]? = some machine ∧
        machine.WaitsFor a.request := by
    have routed := recorded.route_of_onlyChild only
    rw [← a.passed_ledger routed (by simp)]
    exact (a.passed routed (by simp)).exists_waitsFor
  refine ⟨⟨?_, ?_⟩, ?_⟩
  · rintro ⟨m', recognises⟩
    cases only : a.request.initialDecision.onlyChild? with
    | none => rfl
    | some workflowId =>
      obtain ⟨kept, there, still⟩ := strays workflowId only
      obtain ⟨left, here, gone⟩ := recognises.left
      simp only [operate, recognises.handled] at there
      rw [here] at there
      cases there
      exact absurd still.created gone
  · intro plain
    rw [← waits.initialDecision] at recorded plain
    obtain ⟨routed, accepts⟩ := Machine.initiated?_of_recorded waits.created recorded plain
    rw [← waits.id] at next
    have filed : a.ledger.Filed := after_filed _
    obtain ⟨pendingUpserts, located⟩ := filed.locate_awaiting found waits.created next e
    exact recognises_of_located routed located found accepts
  · intro workflowId only
    refine ⟨strays workflowId only, ?_⟩
    intro nobody
    simp [handleEvent, recorded.route_of_onlyChild only, locate, nobody]

def cancelRequest (childWorkflowOnly : Bool) : Asking :=
  .collected [] (.cancelExternal { workflowId := "w", control := "0", childWorkflowOnly }) rfl rfl

def cancelRequested (childWorkflowOnly : Bool) : HistoryEvent :=
  ⟨5, ⟨0, 0⟩, .requestCancelExternalWorkflowExecutionInitiated
    { control := "0", workflowExecution := { workflowId := "w" }, childWorkflowOnly }⟩

theorem cancelRequested_records (childWorkflowOnly : Bool) :
    (cancelRequest childWorkflowOnly).request.initialDecision.IsRecordedBy
      (cancelRequested childWorkflowOnly).attributes := .cancelExternal rfl rfl rfl

theorem unrestricted_cancel_recognised :
    ∃ m', (cancelRequest false).ledger.Recognises 0 (cancelRequested false) m' :=
  ((cancelRequest false).recognised_iff (cancelRequested_records false) (by
    intro upsert
    cases upsert)).1.mpr rfl

theorem restricted_cancel_not_recognised :
    (cancelRequest true).request.initialDecision.IsRecordedBy (cancelRequested true).attributes ∧
    (cancelRequest true).ledger.handleEvent (cancelRequested true) =
      .error (.unknownDecision ⟨.childWorkflow, "w"⟩ 5
        .requestCancelExternalWorkflowExecutionInitiated) ∧
    ¬ ∃ m', (cancelRequest true).ledger.Recognises 0 (cancelRequested true) m' := by
  have refused : (cancelRequest true).ledger.handleEvent (cancelRequested true) =
      .error (.unknownDecision ⟨.childWorkflow, "w"⟩ 5
        .requestCancelExternalWorkflowExecutionInitiated) := rfl
  refine ⟨cancelRequested_records true, refused, ?_⟩
  rintro ⟨m', recognises⟩
  cases refused.symm.trans recognises.handled

end Ledger

end WorkflowReplay
