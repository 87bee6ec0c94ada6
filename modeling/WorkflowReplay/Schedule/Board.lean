import WorkflowReplay.Schedule.Waiting

/-!
# The board of a scheduler

What a running task can see and change: the queue of tasks that are ready to run, and what tasks
wait for.  A task stands in the queue at most once.
-/

set_option autoImplicit false

namespace WorkflowReplay.Schedule

structure Board (V O : Type) where
  waiting : Waiting V O := {}
  /-- The tasks that will run, the next one first. -/
  ready : List TaskId := []
  nextTask : Nat := 1

namespace Board

variable {V O : Type}

def wake (b : Board V O) (id : TaskId) : Board V O :=
  if b.ready.contains id then b else { b with ready := b.ready ++ [id] }

def wakeWaiter (b : Board V O) : Option TaskId → Board V O
  | some id => b.wake id
  | none => b

def newTask (b : Board V O) : TaskId × Board V O :=
  let id : TaskId := ⟨b.nextTask⟩
  (id, { b with nextTask := b.nextTask + 1 }.wake id)

def make (b : Board V O) : PlaceholderId × Board V O :=
  let (id, waiting) := b.waiting.make
  (id, { b with waiting })

/-- Gives a placeholder its value and wakes its waiter.  Answers whether the value was taken. -/
def resolve (b : Board V O) (id : PlaceholderId) (v : V) : Bool × Board V O :=
  match b.waiting.resolve? id v with
  | some (waiter, waiting) => (true, { b with waiting }.wakeWaiter waiter)
  | none => (false, b)

def drop (b : Board V O) (id : PlaceholderId) : Board V O :=
  { b with waiting := b.waiting.drop id }

def finish (b : Board V O) (id : TaskId) (o : O) : Board V O :=
  let (waiter, waiting) := b.waiting.finish id o
  { b with waiting }.wakeWaiter waiter

def takeOutput (b : Board V O) (id : TaskId) : Option O × Board V O :=
  let (o, waiting) := b.waiting.takeOutput id
  (o, { b with waiting })

def isIdle (b : Board V O) : Bool := b.ready.isEmpty

end Board

end WorkflowReplay.Schedule
