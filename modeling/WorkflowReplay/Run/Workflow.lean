import WorkflowReplay.Run.Calls

/-!
# Workflows

A workflow gives the code that a run executes for its input.
-/

set_option autoImplicit false

namespace WorkflowReplay

structure Workflow where
  start : Option Payload → Except String WorkflowCode

namespace Workflow

/-- A workflow whose input has a shape.  An input that cannot be read fails the run. -/
def ofShape (shape : Shape) (body : Json → WorkflowCode) : Workflow where
  start input :=
    match Codec.decodeValue shape input with
    | .ok v => .ok (body v)
    | .error e => .ok (.done (.error e))

end Workflow

end WorkflowReplay
