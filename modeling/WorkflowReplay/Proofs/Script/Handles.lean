import WorkflowReplay.Proofs.Run.Joining
import WorkflowReplay.Proofs.Tables
import WorkflowReplay.Script.Meaning

/-!
# Handles in scripts

A task of a script knows futures only by the names under which it holds them.  It holds what its
calls answered, the handles of the tasks that it started, and what it was given when it was started;
so a script takes the output of no task whose handle it was not given (`workflow_joinsOwn`,
`rawWorkflow_joinsOwn`).
-/

set_option autoImplicit false

namespace WorkflowReplay.Script

open Schedule

variable {id : TaskId}

/-! ## Futures that a task of a script holds -/

def Env.Lacks (env : Env) (id : TaskId) : Prop :=
  ∀ name, env.held.get? name ≠ some (.task id)

/-- However the task goes on, it never waits for the task `id`. -/
structure Flow.NeverJoins (flow : Flow) (id : TaskId) : Prop where
  next : ∀ env, env.Lacks id → (flow.next env).NeverJoins id
  fail : ∀ e env, env.Lacks id → (flow.fail e env).NeverJoins id

namespace Env

variable {env : Env}

theorem lacks_of_nothing (bindings : Table String Json) (caught : Option Error) :
    Env.Lacks { bindings, caught } id := by
  simp [Lacks]

theorem Lacks.assign (lacks : env.Lacks id) (name : Option String) (v : Json) :
    (env.assign name v).Lacks id := by
  cases name with
  | none => exact lacks
  | some name => exact lacks

theorem Lacks.erase (lacks : env.Lacks id) (name : String) :
    Env.Lacks { env with held := env.held.erase name } id := by
  intro other
  simp only [Table.get?_erase]
  split
  · simp
  · exact lacks other

theorem Lacks.put (lacks : env.Lacks id) {fs : List (String × Future)}
    (others : ∀ f ∈ fs, f.2 ≠ .task id) : (env.put fs).Lacks id := by
  induction fs generalizing env with
  | nil => exact lacks
  | cons f rest ih =>
    have first : Env.Lacks { env with held := env.held.insert f.1 f.2 } id := by
      intro name
      simp only [Table.get?_insert]
      split
      · simpa using others f (by simp)
      · exact lacks name
    exact ih first fun f member => others f (List.mem_cons_of_mem _ member)

theorem Lacks.take (lacks : env.Lacks id) (names : List String) :
    (∀ f ∈ (env.take names).1, f.2 ≠ .task id) ∧ (env.take names).2.2.Lacks id := by
  induction names generalizing env with
  | nil => exact ⟨by simp [Env.take], lacks⟩
  | cons name rest ih =>
    simp only [Env.take]
    split
    · exact ⟨by simp, lacks⟩
    · next f held =>
      obtain ⟨others, left⟩ := ih (lacks.erase name)
      refine ⟨?_, left⟩
      intro g member
      rcases List.mem_cons.mp member with rfl | member
      · exact fun same => lacks name (held.trans (congrArg some same))
      · exact others g member

end Env

/-! ## Steps -/

section Steps

variable {env : Env} {flow : Flow}

theorem report_neverJoins (members : List (String × Json)) {next : WorkflowCode}
    (never : next.NeverJoins id) : (report members next).NeverJoins id :=
  ⟨by simp, fun _ _ => never⟩

theorem dropAll_neverJoins (fs : List Future) {next : WorkflowCode}
    (never : next.NeverJoins id) : (dropAll fs next).NeverJoins id := by
  induction fs with
  | nil => exact never
  | cons f rest ih => exact ⟨by simp, fun _ _ => ih⟩

theorem finish_neverJoins (r : Except Error Json) (env : Env) : (finish r env).NeverJoins id :=
  dropAll_neverJoins _ trivial

theorem fall_neverJoins (message : String) (env : Env) : (fall message env).NeverJoins id :=
  dropAll_neverJoins _ trivial

theorem taskEnd_neverJoins : taskEnd.NeverJoins id :=
  ⟨fun env _ => finish_neverJoins _ env, fun _ env _ => finish_neverJoins _ env⟩

theorem goOn_neverJoins (never : flow.NeverJoins id) (lacks : env.Lacks id)
    (into : Option String) (r : Except Error Json) : (goOn flow env into r).NeverJoins id := by
  cases r with
  | ok v => exact never.next _ (lacks.assign into v)
  | error e => exact never.fail e _ lacks

theorem hold_neverJoins (never : flow.NeverJoins id) (lacks : env.Lacks id) (name : String)
    {f : Future} (other : f ≠ .task id) : (hold flow env name f).NeverJoins id := by
  have single : ∀ g ∈ [(name, f)], g.2 ≠ .task id := by simpa using other
  have next := never.next _ (lacks.put single)
  unfold hold
  split
  · exact ⟨by simp, fun _ _ => next⟩
  · exact next

theorem holdIfNamed_neverJoins (never : flow.NeverJoins id) (lacks : env.Lacks id)
    (name : Option String) {f : Future} (other : f ≠ .task id) :
    (holdIfNamed flow env name f).NeverJoins id := by
  cases name with
  | some name => exact hold_neverJoins never lacks name other
  | none => exact ⟨by simp, fun _ _ => never.next _ lacks⟩

theorem sendTo_neverJoins (never : flow.NeverJoins id) (lacks : env.Lacks id) {f : Future}
    (other : f ≠ .task id) (target : Target) : (sendTo flow env f target).NeverJoins id := by
  cases target with
  | hold name => exact hold_neverJoins never lacks name other
  | into name =>
    exact ⟨by simpa [Await.Joins] using Ne.symm other,
      fun a _ _ => goOn_neverJoins never lacks name a.result⟩

theorem taking_neverJoins (never : flow.NeverJoins id) (lacks : env.Lacks id)
    (names : List String) {next : List (String × Future) → Env → WorkflowCode}
    (goesOn : ∀ taken env, (∀ f ∈ taken, f.2 ≠ .task id) → env.Lacks id →
      (next taken env).NeverJoins id) : (taking flow env names next).NeverJoins id := by
  obtain ⟨others, left⟩ := lacks.take names
  unfold taking
  split
  · next found =>
    rw [found] at others left
    exact goesOn _ _ others left
  · next found =>
    rw [found] at left
    exact dropAll_neverJoins _ (never.fail _ _ left)

theorem iterate_neverJoins {body : Flow → Env → WorkflowCode}
    (goesOn : ∀ flow env, flow.NeverJoins id → env.Lacks id → (body flow env).NeverJoins id)
    (never : flow.NeverJoins id) (into : Option String) (times first : Nat)
    (lacks : env.Lacks id) : (iterate body flow into times first env).NeverJoins id := by
  induction times generalizing first env with
  | zero => exact never.next _ lacks
  | succ n ih =>
    exact goesOn _ _ ⟨fun _ lacks => ih (first + 1) lacks, never.fail⟩ (lacks.assign into _)

theorem leftOf_ne_task {runners : List (String × Future)} {left : Await} (apart : ¬ left.Joins id) :
    ∀ f ∈ leftOf runners left, f.2 ≠ .task id := by
  intro f member
  cases left with
  | first fs =>
    have held : f.2 ∈ fs := (List.of_mem_zip member).2
    exact fun same => apart (by rwa [same] at held)
  | every items => simp [leftOf] at member

theorem racing_ne_task (lacks : env.Lacks id) (names : List String) :
    ∀ f ∈ racing env names, f.2 ≠ .task id := by
  intro f member
  obtain ⟨name, -, named⟩ := List.mem_filterMap.mp member
  obtain ⟨g, held, rfl⟩ := Option.map_eq_some_iff.mp named
  rintro rfl
  exact lacks name held

theorem not_joins_first {fs : List (String × Future)} (others : ∀ f ∈ fs, f.2 ≠ .task id) :
    ¬ Await.Joins (.first (fs.map Prod.snd)) id := by
  intro joins
  obtain ⟨f, member, same⟩ := List.mem_map.mp joins
  exact others f member same

theorem not_joins_every {fs : List (String × Future)} (others : ∀ f ∈ fs, f.2 ≠ .task id) :
    ¬ Await.Joins (.every (fs.map (fun f => .open f.2))) id := by
  intro joins
  obtain ⟨f, member, same⟩ := List.mem_map.mp joins
  exact others f member (Item.open.inj same)

end Steps

/-! ## Statements -/

mutual

theorem Statement.code_neverJoins : (s : Statement) → (flow : Flow) → (env : Env) →
    flow.NeverJoins id → env.Lacks id → (s.code flow env).NeverJoins id
  | .activity type input activityId taskList options shape target, flow, env, never, lacks => by
    simp only [Statement.code]
    refine ⟨by simp, fun r other => ?_⟩
    cases r with
    | ok f => exact sendTo_neverJoins never lacks (fun same => other (congrArg some same)) target
    | error e => exact never.fail e _ lacks
  | .child type input childId domain taskList options shape target, flow, env, never, lacks => by
    simp only [Statement.code]
    refine ⟨by simp, fun r other => ?_⟩
    cases r with
    | ok f => exact sendTo_neverJoins never lacks (fun same => other (congrArg some same)) target
    | error e => exact never.fail e _ lacks
  | .timer delay target, flow, env, never, lacks => by
    simp only [Statement.code]
    split
    · exact fall_neverJoins _ env
    · refine ⟨by simp, fun r other => ?_⟩
      cases r with
      | ok f => exact sendTo_neverJoins never lacks (fun same => other (congrArg some same)) target
      | error message => exact fall_neverJoins message env
  | .signalExternal workflowId runId signal input childOnly name, flow, env, never, lacks => by
    simp only [Statement.code]
    exact ⟨by simp, fun f other =>
      holdIfNamed_neverJoins never lacks name fun same => other (congrArg some same)⟩
  | .cancelExternal workflowId runId childOnly name, flow, env, never, lacks => by
    simp only [Statement.code]
    exact ⟨by simp, fun f other =>
      holdIfNamed_neverJoins never lacks name fun same => other (congrArg some same)⟩
  | .receive signal shape target, flow, env, never, lacks => by
    simp only [Statement.code]
    exact sendTo_neverJoins never lacks (by simp) target
  | .await name into, flow, env, never, lacks => by
    simp only [Statement.code]
    refine taking_neverJoins never lacks [name] fun taken env others lacks => ?_
    exact ⟨not_joins_first others, fun a _ _ => goOn_neverJoins never lacks into a.result⟩
  | .cancel name, flow, env, never, lacks => by
    simp only [Statement.code]
    split
    · exact report_neverJoins _ (never.next _ lacks)
    · next f held =>
      refine ⟨fun same => lacks name (held.trans (congrArg some (Call.cancel.inj same))), ?_⟩
      intro f other
      have apart : f ≠ .task id := fun same => other (congrArg some same)
      exact report_neverJoins _ (never.next _ (lacks.put (by simpa using apart)))
  | .ids name, flow, env, never, lacks => by
    simp only [Statement.code]
    exact report_neverJoins _ (never.next _ lacks)
  | .drop name, flow, env, never, lacks => by
    simp only [Statement.code]
    exact taking_neverJoins never lacks [name] fun _ _ _ lacks =>
      dropAll_neverJoins _ (never.next _ lacks)
  | .race names into, flow, env, never, lacks => by
    simp only [Statement.code]
    refine ⟨not_joins_first (racing_ne_task lacks names), fun a left apart => ?_⟩
    exact never.next _ (((lacks.put (leftOf_ne_task apart)).erase _).assign into _)
  | .all names into, flow, env, never, lacks => by
    simp only [Statement.code]
    refine taking_neverJoins never lacks names fun taken env others lacks => ?_
    exact ⟨not_joins_every others, fun a _ _ => goOn_neverJoins never lacks into a.result⟩
  | .sideEffect value shape message into, flow, env, never, lacks => by
    simp only [Statement.code]
    refine ⟨by simp, fun r _ => ?_⟩
    cases r with
    | result r => exact goOn_neverJoins never lacks into r
    | panicked message => exact fall_neverJoins message env
  | .upsert attributes, flow, env, never, lacks => by
    simp only [Statement.code]
    refine ⟨by simp, fun r _ => ?_⟩
    cases r with
    | ok _ => exact never.next _ lacks
    | error e => exact never.fail e _ lacks
  | .spawn body take name, flow, env, never, lacks => by
    simp only [Statement.code]
    refine taking_neverJoins never lacks take fun taken env others lacks => ?_
    refine ⟨?_, fun other apart => ?_⟩
    · exact Statement.codeAll_neverJoins body taskEnd _ taskEnd_neverJoins
        ((Env.lacks_of_nothing env.bindings none).put others)
    · exact report_neverJoins _ (holdIfNamed_neverJoins never lacks name (by simpa using apart))
  | .yield, flow, env, never, lacks => never.next _ lacks
  | .log value, flow, env, never, lacks => by
    simp only [Statement.code]
    exact ⟨by simp, fun _ _ => ⟨by simp, fun _ _ => report_neverJoins _ (never.next _ lacks)⟩⟩
  | .info, flow, env, never, lacks => by
    simp only [Statement.code]
    exact ⟨by simp, fun _ _ => ⟨by simp, fun _ _ => report_neverJoins _ (never.next _ lacks)⟩⟩
  | .randomWord into, flow, env, never, lacks =>
    ⟨by simp, fun _ _ => never.next _ (lacks.assign into _)⟩
  | .randomUuid into, flow, env, never, lacks =>
    ⟨by simp, fun _ _ => never.next _ (lacks.assign into _)⟩
  | .isCancelRequested into, flow, env, never, lacks =>
    ⟨by simp, fun _ _ => never.next _ (lacks.assign into _)⟩
  | .set value into, flow, env, never, lacks => never.next _ (lacks.assign into _)
  | .branch a b equal unequal, flow, env, never, lacks => by
    simp only [Statement.code]
    split
    · exact Statement.codeAll_neverJoins equal flow env never lacks
    · exact Statement.codeAll_neverJoins unequal flow env never lacks
  | .loop times into body, flow, env, never, lacks => by
    simp only [Statement.code]
    exact iterate_neverJoins (fun flow env => Statement.codeAll_neverJoins body flow env) never
      into _ 0 lacks
  | .attempt body into handler, flow, env, never, lacks => by
    simp only [Statement.code]
    refine Statement.codeAll_neverJoins body _ env ⟨never.next, fun e env lacks => ?_⟩ lacks
    have caught : Env.Lacks { env with caught := some e } id := lacks
    exact Statement.codeAll_neverJoins handler flow _ never (caught.assign into e.shown)
  | .rethrow, flow, env, never, lacks => by
    simp only [Statement.code]
    split
    · exact never.next _ lacks
    · exact never.fail _ _ lacks
  | .throw error, flow, env, never, lacks => never.fail _ _ lacks
  | .panic message, flow, env, never, lacks => fall_neverJoins message env
  | .hang, flow, env, never, lacks =>
    ⟨by simp [Await.Joins], fun _ _ _ => never.next _ lacks⟩
  | .giveBack value, flow, env, never, lacks => finish_neverJoins _ env
  | .unknown name, flow, env, never, lacks => never.fail _ _ lacks

theorem Statement.codeAll_neverJoins : (body : List Statement) → (flow : Flow) → (env : Env) →
    flow.NeverJoins id → env.Lacks id → (Statement.codeAll body flow env).NeverJoins id
  | [], _, _, never, lacks => never.next _ lacks
  | s :: rest, flow, env, never, lacks =>
    Statement.code_neverJoins s _ env
      ⟨fun env lacks => Statement.codeAll_neverJoins rest flow env never lacks, never.fail⟩ lacks

end

/-! ## Workflows -/

theorem task_neverJoins (body : List Statement) (input : Json) : (task body input).NeverJoins id :=
  Statement.codeAll_neverJoins body taskEnd _ taskEnd_neverJoins (Env.lacks_of_nothing _ none)

theorem workflow_joinsOwn (shape : Shape) (body : List Statement) :
    (workflow shape body).JoinsOwn := by
  intro input code started id
  simp only [workflow, Workflow.ofShape] at started
  split at started
  · cases started
    exact task_neverJoins body _
  · cases started
    trivial

theorem rawWorkflow_joinsOwn (body : List Statement) (panicOnCall : Option String) :
    (rawWorkflow body panicOnCall).JoinsOwn := by
  intro input code started id
  simp only [rawWorkflow] at started
  split at started
  · cases started
  · cases started
    exact task_neverJoins body _

end WorkflowReplay.Script
