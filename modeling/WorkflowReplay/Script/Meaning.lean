import WorkflowReplay.Script.Basic
import WorkflowReplay.Wire.Failure
import WorkflowReplay.Run.Workflow

/-!
# The code of a script

The code of a statement is given by what follows it: a `Flow` says how a task goes on when the
statement is done and how when it fails.  A task that ends drops the futures that it holds.
-/

set_option autoImplicit false

namespace WorkflowReplay.Script

open Shorthand

structure Flow where
  next : Env → WorkflowCode
  fail : Error → Env → WorkflowCode

/-! ## Steps -/

def report (members : List (String × Json)) (next : WorkflowCode) : WorkflowCode :=
  .call (.report (.ofMembers members)) fun _ => next

def dropAll (fs : List Future) (next : WorkflowCode) : WorkflowCode :=
  fs.foldr (fun f next => .call (.drop f) fun _ => next) next

def finish (r : Except Error Json) (env : Env) : WorkflowCode :=
  dropAll env.held.values (.done r)

def fall (message : String) (env : Env) : WorkflowCode :=
  dropAll env.held.values (.panic message)

def goOn (flow : Flow) (env : Env) (into : Option String) : Except Error Json → WorkflowCode
  | .ok v => flow.next (env.assign into v)
  | .error e => flow.fail e env

/-- Holds a future; one that had the name before is dropped. -/
def hold (flow : Flow) (env : Env) (name : String) (f : Future) : WorkflowCode :=
  let next := flow.next (env.put [(name, f)])
  match env.held.get? name with
  | some old => .call (.drop old) fun _ => next
  | none => next

def holdIfNamed (flow : Flow) (env : Env) (name : Option String) (f : Future) : WorkflowCode :=
  match name with
  | some name => hold flow env name f
  | none => .call (.drop f) fun _ => flow.next env

def awaitOne (f : Future) (next : Except Error Json → WorkflowCode) : WorkflowCode :=
  .wait (.first [f]) fun a _ => next a.result

def sendTo (flow : Flow) (env : Env) (f : Future) : Target → WorkflowCode
  | .hold name => hold flow env name f
  | .into name => awaitOne f (goOn flow env name)

def noFuture (name : String) : Error := .other ("no future " ++ name)

/-- Takes futures out and goes on with them; fails if one is missing. -/
def taking (flow : Flow) (env : Env) (names : List String)
    (next : List (String × Future) → Env → WorkflowCode) : WorkflowCode :=
  match env.take names with
  | (taken, none, env) => next taken env
  | (taken, some name, env) =>
    dropAll (taken.map Prod.snd) (flow.fail (noFuture name) env)

/-! ## What is reported -/

/-- Whether the request of a future could be canceled. -/
def cancelAccepted : Future → Bool
  | .request _ _ accepted => accepted
  | _ => false

def idsOf : Future → Json
  | .request (.activity id _) _ _ => .arr [.str (DecisionId.text ⟨.activity, id⟩), .str id]
  | .request (.child id _) _ _ => .arr [.str (DecisionId.text ⟨.childWorkflow, id⟩), .str id]
  | .request (.timer id) _ _ =>
    .arr [.ofOption (fun id => .str (DecisionId.text ⟨.timer, id⟩)) id]
  | .request (.external id _) _ _ => .arr [.str id.text]
  | _ => .null

def raceValue (winner : String) : Except Error Json → Json
  | .ok v => .ofMembers [("winner", .str winner), ("value", v)]
  | .error e => .ofMembers [("winner", .str winner), ("error", e.shown)]

/-- Those of the named futures that are held, each once. -/
def racing (env : Env) (names : List String) : List (String × Future) :=
  names.eraseDups.filterMap (fun n => (env.held.get? n).map (fun f => (n, f)))

def leftOf (runners : List (String × Future)) : Await → List (String × Future)
  | .first fs => (runners.map Prod.fst).zip fs
  | .every _ => []

def typed (shape : Shape) (v : Json) : Json :=
  match shape, shape.expect v with
  | _, .ok v => v
  | .u32, .error _ => .int 0
  | .string, .error _ => .str ""
  | _, .error _ => v

/-! ## Statements -/

def iterate (body : Flow → Env → WorkflowCode) (flow : Flow) (into : Option String) :
    Nat → Nat → Env → WorkflowCode
  | 0, _, env => flow.next env
  | n + 1, i, env =>
    body { flow with next := iterate body flow into n (i + 1) } (env.assign into (.ofNat i))

def taskEnd : Flow where
  next := finish (.ok .null)
  fail e := finish (.error e)

mutual

def Statement.code : Statement → Flow → Env → WorkflowCode
  | .activity type input id taskList options shape target, flow, env =>
    let options := { options with id := str? (env.eval id), taskList := str? (env.eval taskList) }
    .call (.activity (str (env.eval type)) (env.eval input) shape options) fun
      | .ok f => sendTo flow env f target
      | .error e => flow.fail e env
  | .child type input id domain taskList options shape target, flow, env =>
    let options := { options with
      id := str? (env.eval id)
      domain := str? (env.eval domain)
      taskList := str? (env.eval taskList) }
    .call (.child (str (env.eval type)) (env.eval input) shape options) fun
      | .ok f => sendTo flow env f target
      | .error e => flow.fail e env
  | .timer delay target, flow, env =>
    match span? (env.eval delay) with
    | none => fall spanTooLong env
    | some delay =>
      .call (.timer delay) fun
        | .ok f => sendTo flow env f target
        | .error message => fall message env
  | .signalExternal workflowId runId signal input childOnly name, flow, env =>
    let run : Execution := ⟨str (env.eval workflowId), str (env.eval runId)⟩
    .call (.signalExternal run (str (env.eval signal)) (env.eval input) childOnly) fun f =>
      holdIfNamed flow env name f
  | .cancelExternal workflowId runId childOnly name, flow, env =>
    let run : Execution := ⟨str (env.eval workflowId), str (env.eval runId)⟩
    .call (.cancelExternal run childOnly) fun f => holdIfNamed flow env name f
  | .receive signal shape target, flow, env =>
    sendTo flow env (.signal (str (env.eval signal)) shape none) target
  | .await name into, flow, env =>
    taking flow env [name] fun taken env =>
      .wait (.first (taken.map Prod.snd)) fun a _ => goOn flow env into a.result
  | .cancel name, flow, env =>
    match env.held.get? name with
    | none => report [("cancel", .str name), ("cancelled", .null)] (flow.next env)
    | some f =>
      .call (.cancel f) fun f =>
        report [("cancel", .str name), ("cancelled", .bool (cancelAccepted f))]
          (flow.next (env.put [(name, f)]))
  | .ids name, flow, env =>
    report [("ids", Json.ofOption idsOf (env.held.get? name))] (flow.next env)
  | .drop name, flow, env =>
    taking flow env [name] fun taken env => dropAll (taken.map Prod.snd) (flow.next env)
  | .race names into, flow, env =>
    let runners := racing env names
    .wait (.first (runners.map Prod.snd)) fun a left =>
      let winner := (runners.map Prod.fst).getD a.place ""
      let env := env.put (leftOf runners left)
      let env := { env with held := env.held.erase winner }
      flow.next (env.assign into (raceValue winner a.result))
  | .all names into, flow, env =>
    taking flow env names fun taken env =>
      .wait (.every (taken.map (fun t => .open t.2))) fun a _ => goOn flow env into a.result
  | .sideEffect value shape message into, flow, env =>
    let v := env.eval value
    let closure : Closure :=
      { entry := .ofMembers [("sideEffect", v)]
        result := match message with
          | some message => .error message
          | none => .ok (typed shape v) }
    .call (.sideEffect closure shape) fun
      | .result r => goOn flow env into r
      | .panicked message => fall message env
  | .upsert attributes, flow, env =>
    let attributes := match env.eval attributes with
      | .obj members => members
      | _ => []
    .call (.upsert attributes) fun
      | .ok () => flow.next env
      | .error e => flow.fail e env
  | .spawn body take name, flow, env =>
    taking flow env take fun taken env =>
      .spawn (Statement.codeAll body taskEnd (Env.put { bindings := env.bindings } taken))
        fun id =>
          report [("spawn", .str id.text)] (holdIfNamed flow env name (.task id))
  | .yield, flow, env => .turn (flow.next env)
  | .log value, flow, env =>
    .call .isReplaying fun replay =>
      .call .time fun now =>
        report [("log", env.eval value), ("replay", .bool replay), ("now", .int now)]
          (flow.next env)
  | .info, flow, env =>
    .call .info fun info =>
      .call .now fun now =>
        report [
          ("run", .str info.execution.text), ("type", .str info.workflowType),
          ("domain", .str info.domain), ("taskList", .str info.taskList),
          ("now", .str now.text)] (flow.next env)
  | .randomWord into, flow, env =>
    .call .randomWord fun x => flow.next (env.assign into (.str (toString x)))
  | .randomUuid into, flow, env =>
    .call .randomUuid fun x => flow.next (env.assign into (.str (Random.uuidText x)))
  | .isCancelRequested into, flow, env =>
    .call .isCancelRequested fun b => flow.next (env.assign into (.bool b))
  | .set value into, flow, env => flow.next (env.assign into (env.eval value))
  | .branch a b equal unequal, flow, env =>
    if (env.eval a).same (env.eval b) then Statement.codeAll equal flow env
    else Statement.codeAll unequal flow env
  | .loop times into body, flow, env =>
    iterate (Statement.codeAll body) flow into (nat (env.eval times)) 0 env
  | .attempt body into handler, flow, env =>
    Statement.codeAll body
      { flow with
        fail := fun e env =>
          Statement.codeAll handler flow ({ env with caught := some e }.assign into e.shown) }
      env
  | .rethrow, flow, env =>
    match env.caught with
    | none => flow.next env
    | some e => flow.fail e { env with caught := none }
  | .throw error, flow, env =>
    flow.fail ((Error.ofShort? (env.eval error)).getD (.other "")) env
  | .panic message, _, env => fall message env
  | .hang, flow, env => .wait (.first []) fun _ _ => flow.next env
  | .giveBack value, _, env => finish (.ok (env.eval value)) env
  | .unknown name, flow, env => flow.fail (.other ("script: unknown statement " ++ name)) env

def Statement.codeAll : List Statement → Flow → Env → WorkflowCode
  | [], flow, env => flow.next env
  | s :: rest, flow, env => s.code { flow with next := Statement.codeAll rest flow } env

end

/-! ## Workflows -/

def task (body : List Statement) (input : Json) : WorkflowCode :=
  Statement.codeAll body taskEnd { bindings := Table.empty.insert "input" input }

def workflow (shape : Shape) (body : List Statement) : Workflow := .ofShape shape (task body)

/-- A workflow that gets the bytes of its input as they are.  It may panic when it is started. -/
def rawWorkflow (body : List Statement) (panicOnCall : Option String) : Workflow where
  start input :=
    match panicOnCall with
    | some message => .error message
    | none => .ok (task body (encode input))

end WorkflowReplay.Script
