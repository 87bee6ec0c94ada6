import WorkflowReplay.Json.Value
import WorkflowReplay.Schedule.Scheduler

/-!
# Programs over named placeholders

A small language for tasks: they make, resolve, drop and wait for placeholders that all tasks know
by name, and start and join other tasks.  A task takes what it waits for out of the common store
and puts it back when the wait is over.
-/

set_option autoImplicit false

namespace WorkflowReplay.Schedule

inductive Statement where
  | log (v : Json)
  | placeholder (name : String)
  | resolve (name : String) (v : Json)
  | drop (name : String)
  | spawn (name : String) (body : List Statement)
  | await (name : String)
  | join (name : String)
  | race (names : List String)
  | yield
  | panic (message : String)
  | giveBack (v : Json)

structure Store where
  placeholders : Table String PlaceholderId := .empty
  /-- The last placeholder of each name, also when it is gone. -/
  known : Table String PlaceholderId := .empty
  handles : Table String TaskId := .empty
  log : List Json := []

namespace Store

inductive Command where
  | log (v : Json)
  | make (name : String)
  | resolve (name : String) (v : Json)
  | drop (name : String)
  /-- Takes those of the named placeholders that are in the store. -/
  | take (names : List String)
  | putBack (placeholders : List (String × PlaceholderId))
  | keep (name : String) (task : TaskId)
  | takeHandle (name : String)

@[reducible] def Command.Reply : Command → Type
  | .log _ | .putBack _ | .keep .. => Unit
  | .make _ => PlaceholderId
  | .resolve .. => Option Bool
  | .drop _ => Bool
  | .take _ => List (String × PlaceholderId)
  | .takeHandle _ => Option TaskId

inductive Wait where
  | first (placeholders : List (String × PlaceholderId))
  | output (task : TaskId)

def interface : Interface where
  Command := Command
  Reply := Command.Reply
  Wait := Wait
  Answer := String × Json
  Output := Json
  Value := Json
  Shared := Store

/-! ## Commands -/

/-- Puts a placeholder in the store.  One that had the name before is dropped. -/
def put (name : String) (id : PlaceholderId) (w : World interface) : World interface :=
  let board := match w.shared.placeholders.get? name with
    | some old => if old = id then w.board else w.board.drop old
    | none => w.board
  { board, shared := { w.shared with placeholders := w.shared.placeholders.insert name id } }

def make (name : String) (w : World interface) : PlaceholderId × World interface :=
  let (id, board) := w.board.make
  let w := put name id { w with board }
  (id, { w with shared := { w.shared with known := w.shared.known.insert name id } })

/-- Gives the last placeholder of a name its value; `none` if the name was never used. -/
def resolve (name : String) (v : Json) (w : World interface) : Option Bool × World interface :=
  match w.shared.known.get? name with
  | none => (none, w)
  | some id =>
    let (accepted, board) := w.board.resolve id v
    (some accepted, { w with board })

def drop (name : String) (w : World interface) : Bool × World interface :=
  match w.shared.placeholders.get? name with
  | none => (false, w)
  | some id =>
    (true,
      { board := w.board.drop id
        shared := { w.shared with placeholders := w.shared.placeholders.erase name } })

def keep (name : String) (task : TaskId) (s : Store) : Store :=
  { s with handles := s.handles.insert name task }

def take (s : Store) : List String → List (String × PlaceholderId) × Store
  | [] => ([], s)
  | name :: rest =>
    match s.placeholders.get? name with
    | none => take s rest
    | some id =>
      let r := take { s with placeholders := s.placeholders.erase name } rest
      ((name, id) :: r.1, r.2)

def perform (_ : TaskId) : (c : Command) → World interface → c.Reply × World interface
  | .log v, w => ((), { w with shared := { w.shared with log := w.shared.log ++ [v] } })
  | .make name, w => make name w
  | .resolve name v, w => resolve name v w
  | .drop name, w => drop name w
  | .take names, w =>
    let (taken, shared) := w.shared.take names
    (taken, { w with shared })
  | .putBack placeholders, w => ((), placeholders.foldl (fun w p => put p.1 p.2 w) w)
  | .keep name task, w => ((), { w with shared := w.shared.keep name task })
  | .takeHandle name, w =>
    (w.shared.handles.get? name,
      { w with shared := { w.shared with handles := w.shared.handles.erase name } })

/-! ## Waits -/

def lookFirst (me : TaskId) :
    List (String × PlaceholderId) → Waiting Json Json → Option (String × Json) × Waiting Json Json
  | [], w => (none, w)
  | (name, id) :: rest, w =>
    match w.look me id with
    | (some v, w) => (some (name, v), w)
    | (none, w) => lookFirst me rest w

def look (me : TaskId) : Wait → Waiting Json Json × Store →
    (Option (String × Json) × Wait) × (Waiting Json Json × Store)
  | .first placeholders, (w, s) =>
    let (answer, w) := lookFirst me placeholders w
    ((answer, .first placeholders), (w, s))
  | .output task, (w, s) =>
    let (o, w) := w.lookOutput me task
    ((o.map (fun v => ("", v)), .output task), (w, s))

def meaning : Meaning interface := ⟨perform, look⟩

end Store

/-! ## Programs -/

open Store in
mutual

def Statement.code : Statement → Code interface → Code interface
  | .log v, next => .call (.log v) fun _ => next
  | .placeholder name, next =>
    .call (.make name) fun id => .call (.log (.str id.text)) fun _ => next
  | .resolve name v, next =>
    .call (.resolve name v) fun r =>
      .call (.log (.arr [.str "resolved", .str name, .ofOption .bool r])) fun _ => next
  | .drop name, next =>
    .call (.drop name) fun r =>
      .call (.log (.arr [.str "dropped", .str name, .bool r])) fun _ => next
  | .spawn name body, next =>
    .spawn (Statement.codeAll body) fun id =>
      .call (.keep name id) fun _ => .call (.log (.str id.text)) fun _ => next
  | .await name, next =>
    .call (.take [name]) fun
      | [] => .call (.log (.arr [.str "missing", .str name])) fun _ => next
      | taken =>
        .wait (.first taken) fun a _ =>
          .call (.putBack taken) fun _ => .call (.log (.arr [.str name, a.2])) fun _ => next
  | .join name, next =>
    .call (.takeHandle name) fun
      | none => .call (.log (.arr [.str "missing", .str name])) fun _ => next
      | some task =>
        .wait (.output task) fun a _ =>
          .call (.keep name task) fun _ => .call (.log (.arr [.str name, a.2])) fun _ => next
  | .race names, next =>
    .call (.take names) fun taken =>
      .wait (.first taken) fun a _ =>
        .call (.putBack taken) fun _ =>
          .call (.log (.arr [.str "race", .str a.1, a.2])) fun _ => next
  | .yield, next => .turn next
  | .panic message, _ => .panic message
  | .giveBack v, _ => .done v

/-- The code of a program; its output is `null` unless a statement gives one. -/
def Statement.codeAll : List Statement → Code interface
  | [] => .done .null
  | s :: rest => s.code (Statement.codeAll rest)

end

end WorkflowReplay.Schedule
