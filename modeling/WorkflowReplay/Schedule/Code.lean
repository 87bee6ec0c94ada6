import WorkflowReplay.Schedule.Board

/-!
# Code of tasks

The code of a task is a tree: at each node it gives a command and goes on with the reply, starts
another task, waits, or ends.  An `Interface` says which commands and waits there are, and a
`Meaning` what they do.  Looking for what a task waits for wakes nobody.
-/

set_option autoImplicit false

namespace WorkflowReplay.Schedule

structure Interface where
  Command : Type
  Reply : Command → Type
  /-- What a task can wait for, with what it saw of it so far. -/
  Wait : Type
  Answer : Type
  Output : Type
  Value : Type
  Shared : Type

inductive Code (I : Interface) : Type where
  | done (output : I.Output)
  | panic (message : String)
  | call (command : I.Command) (next : I.Reply command → Code I)
  | spawn (body : Code I) (next : TaskId → Code I)
  | wait (w : I.Wait) (next : I.Answer → I.Wait → Code I)
  /-- Lets every other task that is ready run first. -/
  | turn (next : Code I)

def unknownPanic : String := "unknown panic"

structure World (I : Interface) where
  board : Board I.Value I.Output := {}
  shared : I.Shared

structure Meaning (I : Interface) where
  perform : TaskId → (c : I.Command) → World I → I.Reply c × World I
  look : TaskId → I.Wait → Waiting I.Value I.Output × I.Shared →
    (Option I.Answer × I.Wait) × (Waiting I.Value I.Output × I.Shared)

variable {I : Interface}

inductive Verdict (I : Interface) where
  | finished (output : I.Output)
  | panicked (message : String)
  | pending (code : Code I)

structure Turn (I : Interface) where
  verdict : Verdict I
  spawned : List (TaskId × Code I)
  world : World I

def Code.run (m : Meaning I) (me : TaskId) : Code I → World I → Turn I
  | .done o, w => ⟨.finished o, [], w⟩
  | .panic message, w => ⟨.panicked message, [], w⟩
  | .call c next, w =>
    let r := m.perform me c w
    (next r.1).run m me r.2
  | .spawn body next, w =>
    let (id, board) := w.board.newTask
    let t := (next id).run m me { w with board }
    { t with spawned := (id, body) :: t.spawned }
  | .wait s next, w =>
    let r := m.look me s (w.board.waiting, w.shared)
    let w : World I := { board := { w.board with waiting := r.2.1 }, shared := r.2.2 }
    match r.1.1 with
    | some a => (next a r.1.2).run m me w
    | none => ⟨.pending (.wait r.1.2 next), [], w⟩
  | .turn next, w => ⟨.pending next, [], { w with board := w.board.wake me }⟩

end WorkflowReplay.Schedule
