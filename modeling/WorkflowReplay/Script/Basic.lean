import WorkflowReplay.Run.Calls

/-!
# Scripts

A script is workflow code as data.  Every task of a script has its own variables, the futures that
it holds by name, and the error that it caught last.  An expression is a JSON value in which an
object with the one member `$` stands for the variable that it names.
-/

set_option autoImplicit false

namespace WorkflowReplay.Script

abbrev Expr := Json

inductive Target where
  | hold (name : String)
  /-- The result is waited for and put in a variable, if one is named. -/
  | into (name : Option String)

inductive Statement where
  | activity (type input id taskList : Expr) (options : ActivityOptions) (shape : Shape)
      (target : Target)
  | child (type input id domain taskList : Expr) (options : ChildOptions) (shape : Shape)
      (target : Target)
  | timer (delay : Expr) (target : Target)
  | signalExternal (workflowId runId signal input : Expr) (childOnly : Bool)
      (hold : Option String)
  | cancelExternal (workflowId runId : Expr) (childOnly : Bool) (hold : Option String)
  | receive (signal : Expr) (shape : Shape) (target : Target)
  | await (future : String) (into : Option String)
  | cancel (future : String)
  | ids (future : String)
  | drop (future : String)
  | race (futures : List String) (into : Option String)
  | all (futures : List String) (into : Option String)
  | sideEffect (value : Expr) (shape : Shape) (panic : Option String) (into : Option String)
  | upsert (attributes : Expr)
  | spawn (body : List Statement) (take : List String) (hold : Option String)
  | yield
  | log (value : Expr)
  | info
  | randomWord (into : Option String)
  | randomUuid (into : Option String)
  | isCancelRequested (into : Option String)
  | set (value : Expr) (into : Option String)
  | branch (a b : Expr) (equal unequal : List Statement)
  | loop (times : Expr) (into : Option String) (body : List Statement)
  /-- Runs the second list if the first one fails. -/
  | attempt (body : List Statement) (into : Option String) (handler : List Statement)
  /-- Fails with the error that was caught last, and forgets it. -/
  | rethrow
  | throw (error : Expr)
  | panic (message : String)
  | hang
  | giveBack (value : Expr)
  | unknown (name : String)

structure Env where
  bindings : Table String Json := .empty
  held : Table String Future := .empty
  caught : Option Error := none

/-! ## Expressions -/

mutual

def eval (bindings : Table String Json) : Expr → Json
  | .obj [("$", .str name)] => bindings.getD name .null
  | .obj members => .obj (evalMembers bindings members)
  | .arr items => .arr (evalItems bindings items)
  | v => v

def evalItems (bindings : Table String Json) : List Expr → List Json
  | [] => []
  | e :: rest => eval bindings e :: evalItems bindings rest

def evalMembers (bindings : Table String Json) : List (String × Expr) → List (String × Json)
  | [] => []
  | (name, e) :: rest => (name, eval bindings e) :: evalMembers bindings rest

end

namespace Env

def eval (env : Env) (e : Expr) : Json := Script.eval env.bindings e

def assign (env : Env) (name : Option String) (v : Json) : Env :=
  match name with
  | some name => { env with bindings := env.bindings.insert name v }
  | none => env

/-- Takes futures out by name, up to the first name under which none is held. -/
def take (env : Env) : List String → List (String × Future) × Option String × Env
  | [] => ([], none, env)
  | name :: rest =>
    match env.held.get? name with
    | none => ([], some name, env)
    | some f =>
      let (taken, missing, env) := { env with held := env.held.erase name }.take rest
      ((name, f) :: taken, missing, env)

def put (env : Env) (fs : List (String × Future)) : Env :=
  { env with held := fs.foldl (fun held f => held.insert f.1 f.2) env.held }

end Env

end WorkflowReplay.Script
