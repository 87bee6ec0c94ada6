import WorkflowReplay.Table
import WorkflowReplay.Error
import WorkflowReplay.Text.Quoted

/-!
# Registry of workflow types

Workflow code by the name of its type; a name is given once.
-/

set_option autoImplicit false

namespace WorkflowReplay

structure Registry (α : Type) where
  workflows : Table String α := .empty

namespace Registry

variable {α : Type}

def empty : Registry α := {}

def has (r : Registry α) (type : String) : Bool := r.workflows.contains type

def get? (r : Registry α) (type : String) : Option α := r.workflows.get? type

def types (r : Registry α) : List String := r.workflows.keys.mergeSort (fun a b => a ≤ b)

def isEmpty (r : Registry α) : Bool := r.workflows.keys.isEmpty

def register (r : Registry α) (type : String) (code : α) : Except Error (Registry α) :=
  if r.has type then
    .error (.invalidConfiguration
      ("Workflow '" ++ type ++ "' is already registered. Each workflow type must be unique " ++
        "within a worker."))
  else .ok { workflows := r.workflows.insert type code }

def summary (r : Registry α) : String :=
  "WorkflowRegistry \x7b workflow_types: [" ++ ", ".intercalate (r.types.map Text.quoted) ++ "] \x7d"

end Registry

end WorkflowReplay
