import WorkflowReplay.Table

/-!
# What tasks wait for

A placeholder stands for a value that will be supplied later; it is given a value once, and gives
the value away once.  The output of a task can be waited for in the same way.  Each of the two
remembers at most one waiter: the task that looked last.
-/

set_option autoImplicit false

namespace WorkflowReplay.Schedule

structure TaskId where
  number : Nat
  deriving DecidableEq, Repr

structure PlaceholderId where
  number : Nat
  deriving DecidableEq, Repr

def TaskId.text (id : TaskId) : String := "task-" ++ toString id.number

def TaskId.handleText (id : TaskId) : String :=
  "JoinHandle \x7b id: TaskId(" ++ toString id.number ++ ") \x7d"

def PlaceholderId.text (id : PlaceholderId) : String :=
  "PlaceholderId(" ++ toString id.number ++ ")"

/-- A place for one value, and the task to wake when it comes. -/
structure Slot (α : Type) where
  value : Option α := none
  waiter : Option TaskId := none
  deriving Repr

structure Waiting (V O : Type) where
  /-- The placeholders that have not given their value away and were not dropped. -/
  placeholders : Table PlaceholderId (Slot V) := .empty
  outputs : Table TaskId (Slot O) := .empty
  nextPlaceholder : Nat := 1

namespace Waiting

variable {V O : Type}

/-! ## Placeholders -/

def make (w : Waiting V O) : PlaceholderId × Waiting V O :=
  let id : PlaceholderId := ⟨w.nextPlaceholder⟩
  (id,
    { w with
      placeholders := w.placeholders.insert id {}
      nextPlaceholder := w.nextPlaceholder + 1 })

/-- Gives a placeholder its value.  Answers the waiter; `none` if the placeholder is gone or has
a value. -/
def resolve? (w : Waiting V O) (id : PlaceholderId) (v : V) :
    Option (Option TaskId × Waiting V O) :=
  match w.placeholders.get? id with
  | some ⟨none, waiter⟩ =>
    some (waiter, { w with placeholders := w.placeholders.insert id { value := some v } })
  | _ => none

/-- Takes the value of a placeholder.  Without a value the looking task becomes the waiter. -/
def look (w : Waiting V O) (me : TaskId) (id : PlaceholderId) : Option V × Waiting V O :=
  match w.placeholders.get? id with
  | none => (none, w)
  | some ⟨some v, _⟩ => (some v, { w with placeholders := w.placeholders.erase id })
  | some ⟨none, _⟩ =>
    (none, { w with placeholders := w.placeholders.insert id { waiter := some me } })

def drop (w : Waiting V O) (id : PlaceholderId) : Waiting V O :=
  { w with placeholders := w.placeholders.erase id }

/-- The placeholder can still be given a value or give it away. -/
def holds (w : Waiting V O) (id : PlaceholderId) : Bool := w.placeholders.contains id

/-- A placeholder that was not dropped on one line; it is done when it gave its value away. -/
def placeholderText (w : Waiting V O) (id : PlaceholderId) : String :=
  "Placeholder \x7b id: " ++ id.text ++ ", done: " ++ toString (!w.holds id) ++ " \x7d"

def outstanding (w : Waiting V O) : Nat := w.placeholders.size

/-! ## Outputs of tasks -/

def outputSlot (w : Waiting V O) (id : TaskId) : Slot O := w.outputs.getD id {}

def finish (w : Waiting V O) (id : TaskId) (o : O) : Option TaskId × Waiting V O :=
  ((w.outputSlot id).waiter, { w with outputs := w.outputs.insert id { value := some o } })

def takeOutput (w : Waiting V O) (id : TaskId) : Option O × Waiting V O :=
  let slot := w.outputSlot id
  (slot.value, { w with outputs := w.outputs.insert id { slot with value := none } })

/-- Takes the output of a task.  Without an output the looking task becomes the waiter. -/
def lookOutput (w : Waiting V O) (me id : TaskId) : Option O × Waiting V O :=
  let slot := w.outputSlot id
  match slot.value with
  | some o => (some o, { w with outputs := w.outputs.insert id { slot with value := none } })
  | none => (none, { w with outputs := w.outputs.insert id { waiter := some me } })

/-- The output of the task is there to be taken. -/
def isFinished (w : Waiting V O) (id : TaskId) : Bool := (w.outputSlot id).value.isSome

end Waiting

end WorkflowReplay.Schedule
