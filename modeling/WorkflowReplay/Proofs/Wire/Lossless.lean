import WorkflowReplay.Proofs.Wire.Layouts
import WorkflowReplay.Wire.Decision
import WorkflowReplay.Wire.History

/-!
# Histories and decisions are written without loss

Events, decisions, tasks, pages and outcomes are read back from their bytes.  So different values
have different bytes, and two lists of decisions are equal exactly when their bytes are.
-/

set_option autoImplicit false

namespace WorkflowReplay

/-! ## Bytes -/

def Wire.toBytes {α : Type} [Wire α] (a : α) : List UInt8 := (encode a).print

def Wire.ofBytes? {α : Type} [Wire α] (bytes : List UInt8) : Option α :=
  match Json.parse bytes with
  | .ok v => decode v
  | .error _ => none

structure Wire.Lossless {α : Type} [Wire α] (regular : α → Prop) : Prop where
  back {a : α} (a_regular : regular a) : ofBytes? (toBytes a) = some a
  injective {a b : α} (a_regular : regular a) (b_regular : regular b)
    (same : toBytes a = toBytes b) : a = b

/-! ## What maps and clocks can hold -/

def SearchAttributes.Ordered (s : SearchAttributes) : Prop := s.Pairwise fun a b => a.1 < b.1

instance (s : SearchAttributes) : Decidable s.Ordered :=
  inferInstanceAs (Decidable (s.Pairwise fun a b => a.1 < b.1))

def EventAttributes.Regular : EventAttributes → Prop
  | .upsertWorkflowSearchAttributes a => a.searchAttributes.Ordered
  | _ => True

structure HistoryEvent.Regular (e : HistoryEvent) : Prop where
  timestamp : e.timestamp.Regular
  attributes : e.attributes.Regular

def Decision.Regular : Decision → Prop
  | .upsertWorkflowSearchAttributes a => a.Ordered
  | _ => True

def DecisionTask.Regular (t : DecisionTask) : Prop := ∀ e ∈ t.history, e.Regular

def HistoryPage.Regular (p : HistoryPage) : Prop := ∀ e ∈ p.events, e.Regular

namespace Wire

variable {n : Nat}

open Layout (Reads)

/-! ## Tags -/

instance : Faithful n TimeoutType where
  returns t := ⟨.str n _, ofTag?_tag (by decide) (by cases t <;> decide)⟩

theorem eventType_ofTag?_tag (t : EventType) : Named.ofTag? EventType (Named.tag t) = some t :=
  ofTag?_tag (by decide +kernel) (EventType.mem_all t)

theorem decisionType_ofTag?_tag (t : DecisionType) :
    Named.ofTag? DecisionType (Named.tag t) = some t :=
  ofTag?_tag (by decide +kernel) (by cases t <;> decide)

/-! ## Records -/

instance : Faithful (n + 1) Execution where
  returns _ := Reads.make.field.field.returns (by decide) rfl

instance : NeverNull Execution := ⟨fun _ => nofun⟩

instance : Faithful (n + 2) Failure where
  returns _ := Reads.make.field.field.returns (by decide) rfl

theorem Returns.outcome {α : Type} [Wire α] {a : α} (returns : Returns n a) {kind : String}
    {mk : α → Outcome} (written : encode (mk a) = .obj [(kind, encode a)])
    (read : ∀ v, decode (.obj [(kind, v)]) = (decode v).map mk) : Returns (n + 1) (mk a) where
  plain := by
    rw [written]
    exact .obj (by simp) (by simpa using returns.plain)
  back := by
    have sorted : (encode (mk a)).inOrder = .obj [(kind, (encode a).inOrder)] := by
      rw [written]
      rfl
    rw [sorted, read, returns.back, Option.map_some]

instance : Faithful (n + 3) Outcome where
  returns
    | .completed p => .outcome (Faithful.returns p) rfl fun _ => rfl
    | .failed f => .outcome (Faithful.returns f) rfl fun _ => rfl
    | .canceled p => .outcome (Faithful.returns p) rfl fun _ => rfl

/-! ## Events -/

theorem readsTagged_attributes {a : EventAttributes} (regular : a.Regular) :
    ReadsTagged "eventType" (n + 2) a.members (EventAttributes.ofRecord? a.type) a := by
  -- one `field` for each member of the layout; only a map asks for more than its type
  cases a with
  | workflowExecutionStarted a =>
    exact .of_reads Reads.make.field.field.field.field.field.field.field.field (by decide) rfl
  | workflowExecutionCompleted a =>
    exact .of_reads Reads.make.field.field (by decide) rfl
  | workflowExecutionFailed a =>
    exact .of_reads Reads.make.field.field.field (by decide) rfl
  | workflowExecutionCancelRequested a =>
    exact .of_reads Reads.make.field.field (by decide) rfl
  | workflowExecutionSignaled a =>
    exact .of_reads Reads.make.field.field.field (by decide) rfl
  | decisionTaskScheduled a =>
    exact .of_reads Reads.make.field.field.field (by decide) rfl
  | decisionTaskStarted a =>
    exact .of_reads Reads.make.field.field.field (by decide) rfl
  | decisionTaskCompleted a =>
    exact .of_reads Reads.make.field.field.field.field (by decide) rfl
  | decisionTaskFailed a =>
    exact .of_reads Reads.make.field.field.field.field.field (by decide) rfl
  | decisionTaskTimedOut a =>
    exact .of_reads Reads.make.field.field.field (by decide) rfl
  | activityTaskScheduled a =>
    exact .of_reads Reads.make.field.field.field.field.field.field.field.field.field.field
      (by decide) rfl
  | activityTaskStarted a =>
    exact .of_reads Reads.make.field.field.field.field (by decide) rfl
  | activityTaskCompleted a =>
    exact .of_reads Reads.make.field.field.field.field (by decide) rfl
  | activityTaskFailed a =>
    exact .of_reads Reads.make.field.field.field.field.field (by decide) rfl
  | activityTaskTimedOut a =>
    exact .of_reads Reads.make.field.field.field.field (by decide) rfl
  | activityTaskCancelRequested a =>
    exact .of_reads Reads.make.field.field (by decide) rfl
  | requestCancelActivityTaskFailed a =>
    exact .of_reads Reads.make.field.field.field (by decide) rfl
  | activityTaskCanceled a =>
    exact .of_reads Reads.make.field.field.field.field.field (by decide) rfl
  | timerStarted a =>
    exact .of_reads Reads.make.field.field.field (by decide) rfl
  | timerFired a =>
    exact .of_reads Reads.make.field.field (by decide) rfl
  | timerCanceled a =>
    exact .of_reads Reads.make.field.field.field.field (by decide) rfl
  | cancelTimerFailed a =>
    exact .of_reads Reads.make.field.field.field.field (by decide) rfl
  | startChildWorkflowExecutionInitiated a =>
    exact .of_reads Reads.make.field.field.field.field.field.field.field.field (by decide) rfl
  | startChildWorkflowExecutionFailed a =>
    exact .of_reads Reads.make.field.field.field.field.field.field (by decide) rfl
  | childWorkflowExecutionStarted a =>
    exact .of_reads Reads.make.field.field.field.field (by decide) rfl
  | childWorkflowExecutionCompleted a =>
    exact .of_reads Reads.make.field.field.field.field (by decide) rfl
  | childWorkflowExecutionFailed a =>
    exact .of_reads Reads.make.field.field.field.field.field (by decide) rfl
  | childWorkflowExecutionTimedOut a =>
    exact .of_reads Reads.make.field.field.field.field (by decide) rfl
  | childWorkflowExecutionCanceled a =>
    exact .of_reads Reads.make.field.field.field.field (by decide) rfl
  | childWorkflowExecutionTerminated a =>
    exact .of_reads Reads.make.field.field.field (by decide) rfl
  | requestCancelExternalWorkflowExecutionInitiated a =>
    exact .of_reads Reads.make.field.field.field.field.field (by decide) rfl
  | requestCancelExternalWorkflowExecutionFailed a =>
    exact .of_reads Reads.make.field.field.field.field.field.field (by decide) rfl
  | externalWorkflowExecutionCancelRequested a =>
    exact .of_reads Reads.make.field.field.field (by decide) rfl
  | signalExternalWorkflowExecutionInitiated a =>
    exact .of_reads Reads.make.field.field.field.field.field.field.field (by decide) rfl
  | signalExternalWorkflowExecutionFailed a =>
    exact .of_reads Reads.make.field.field.field.field.field.field (by decide) rfl
  | externalWorkflowExecutionSignaled a =>
    exact .of_reads Reads.make.field.field.field.field (by decide) rfl
  | markerRecorded a =>
    exact .of_reads Reads.make.field.field.field.field (by decide) rfl
  | upsertWorkflowSearchAttributes a =>
    exact .of_reads (Reads.make.member (.map regular)).field (by decide) rfl

theorem Returns.attributes {a : EventAttributes} (regular : a.Regular) : Returns (n + 3) a := by
  have reads : ReadsTagged _ (n + 2) _ _ a := readsTagged_attributes regular
  obtain ⟨record, tagged, back⟩ := reads.tagged?_withTag (Named.tag a.type)
  refine ⟨reads.plain_withTag _, ?_⟩
  change (Json.tagged? "eventType" (Json.withTag _ _ _).inOrder).bind (fun r =>
    (Named.ofTag? EventType r.1).bind fun type => EventAttributes.ofRecord? type r.2) = some a
  rw [tagged, Option.bind_some, eventType_ofTag?_tag, Option.bind_some, back]

theorem Returns.event {e : HistoryEvent} (regular : e.Regular) : Returns (n + 4) e :=
  ((Reads.make.field.member (.timestamp regular.timestamp)).member
    (.attributes regular.attributes)).returns (by decide) rfl

theorem Returns.task {t : DecisionTask} (regular : t.Regular) : Returns (n + 6) t :=
  have history : Returns (n + 5) t.history := .list fun e member => .event (regular e member)
  (Reads.make.field.field.field.member history).field.field.field.field.returns (by decide) rfl

theorem Returns.page {p : HistoryPage} (regular : p.Regular) : Returns (n + 6) p :=
  have events : Returns (n + 5) p.events := .list fun e member => .event (regular e member)
  (Reads.make.member events).field.returns (by decide) rfl

/-! ## Decisions -/

theorem readsTagged_decision {d : Decision} (regular : d.Regular) :
    ReadsTagged "decisionType" (n + 2) d.members (Decision.ofRecord? d.type) d := by
  cases d with
  | scheduleActivityTask a =>
    exact .of_reads Reads.make.field.field.field.field.field.field.field.field.field (by decide) rfl
  | requestCancelActivityTask id =>
    exact .of_reads Reads.make.field (by decide) rfl
  | startTimer a =>
    exact .of_reads Reads.make.field.field (by decide) rfl
  | cancelTimer id =>
    exact .of_reads Reads.make.field (by decide) rfl
  | startChildWorkflowExecution a =>
    exact .of_reads Reads.make.field.field.field.field.field.field.field (by decide) rfl
  | requestCancelExternalWorkflowExecution a =>
    exact .of_reads Reads.make.field.field.field.field.field (by decide) rfl
  | signalExternalWorkflowExecution a =>
    exact .of_reads Reads.make.field.field.field.field.field.field (by decide) rfl
  | recordMarker a =>
    exact .of_reads Reads.make.field.field.field (by decide) rfl
  | upsertWorkflowSearchAttributes a =>
    have ordered : Returns (n + 2) a := .map regular
    exact .of_reads (Reads.make.member ordered) (by decide) rfl
  | completeWorkflowExecution result =>
    exact .of_reads Reads.make.field (by decide) rfl
  | failWorkflowExecution reason details =>
    exact .of_reads Reads.make.field.field (by decide) rfl

theorem Returns.decision {d : Decision} (regular : d.Regular) : Returns (n + 3) d := by
  have reads : ReadsTagged _ (n + 2) _ _ d := readsTagged_decision regular
  obtain ⟨record, tagged, back⟩ := reads.tagged?_withTag (Named.tag d.type)
  refine ⟨reads.plain_withTag _, ?_⟩
  change (Json.tagged? "decisionType" (Json.withTag _ _ _).inOrder).bind (fun r =>
    (Named.ofTag? DecisionType r.1).bind fun type => Decision.ofRecord? type r.2) = some d
  rw [tagged, Option.bind_some, decisionType_ofTag?_tag, Option.bind_some, back]

/-! ## Lossless kinds -/

theorem Returns.ofBytes?_toBytes {α : Type} [Wire α] {a : α}
    (returns : Returns Json.depthLimit a) : ofBytes? (toBytes a) = some a := by
  rw [ofBytes?, toBytes, Json.parse_print returns.plain]
  exact returns.back

theorem Lossless.of_returns {α : Type} [Wire α] {regular : α → Prop}
    (returns : ∀ a, regular a → Returns Json.depthLimit a) : Lossless regular where
  back a_regular := (returns _ a_regular).ofBytes?_toBytes
  injective {a b} a_regular b_regular same := by
    have read : ofBytes? (toBytes a) = some b := same ▸ (returns b b_regular).ofBytes?_toBytes
    exact Option.some.inj ((returns a a_regular).ofBytes?_toBytes.symm.trans read)

/-- Events with all kinds of attributes, decisions, tasks, pages and outcomes are written without
loss, and lists of decisions can be compared by their bytes. -/
theorem histories_and_decisions_lossless :
    Lossless HistoryEvent.Regular ∧ Lossless Decision.Regular ∧ Lossless DecisionTask.Regular ∧
      Lossless HistoryPage.Regular ∧ Lossless (fun _ : Outcome => True) ∧
      ∀ ds es : List Decision, (∀ d ∈ ds, d.Regular) → (∀ e ∈ es, e.Regular) →
        (toBytes ds = toBytes es ↔ ds = es) := by
  have decisions : Lossless fun ds : List Decision => ∀ d ∈ ds, d.Regular :=
    .of_returns fun ds regular => .list fun d member => .decision (regular d member)
  have outcomes (o : Outcome) : Returns 127 o := Faithful.returns o
  refine ⟨.of_returns fun _ regular => .event regular,
    .of_returns fun _ regular => .decision regular, .of_returns fun _ regular => .task regular,
    .of_returns fun _ regular => .page regular, .of_returns fun o _ => outcomes o,
    fun ds es ds_regular es_regular => ⟨?_, ?_⟩⟩
  · exact decisions.injective ds_regular es_regular
  · exact congrArg toBytes

/-- The last nanosecond of the year 9999, bytes of all sizes and names that need escapes come back,
and two decisions are not taken for one. -/
theorem upserts_read_back :
    let attributes : SearchAttributes := [("", []), ("\"\\", [0, 127, 255])]
    let e : HistoryEvent :=
      ⟨-1, ⟨253402300799, 999999999⟩, .upsertWorkflowSearchAttributes ⟨attributes, 7⟩⟩
    let d : Decision := .upsertWorkflowSearchAttributes attributes
    let t : DecisionTask := { history := [e, e], nextPageToken := some [] }
    let p : HistoryPage := { events := [e] }
    (e.Regular ∧ d.Regular ∧ t.Regular ∧ p.Regular) ∧
      (ofBytes? (toBytes e) = some e ∧ ofBytes? (toBytes d) = some d ∧
        ofBytes? (toBytes t) = some t ∧ ofBytes? (toBytes p) = some p) ∧
      (toBytes [d] = toBytes [d, d] ↔ [d] = [d, d]) := by
  intro attributes e d t p
  have ordered : attributes.Ordered := by decide
  have e_regular : e.Regular := ⟨⟨by decide, by decide⟩, ordered⟩
  have d_regular : d.Regular := ordered
  have t_regular : t.Regular := by simpa [t, DecisionTask.Regular] using e_regular
  have p_regular : p.Regular := by simpa [p, HistoryPage.Regular] using e_regular
  obtain ⟨events, decisions, tasks, pages, -, lists⟩ := histories_and_decisions_lossless
  exact ⟨⟨e_regular, d_regular, t_regular, p_regular⟩,
    ⟨events.back e_regular, decisions.back d_regular, tasks.back t_regular, pages.back p_regular⟩,
    lists [d] [d, d] (by simpa using d_regular) (by simpa using d_regular)⟩

end Wire

end WorkflowReplay
