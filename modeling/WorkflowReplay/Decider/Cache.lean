import WorkflowReplay.Table
import WorkflowReplay.History.Event

/-!
# Cache of runs

Keeps what was computed for the runs that were used last.  Every entry is stamped with the time
of its last use; a new run pushes out the one with the oldest stamp when the cache is full.
-/

set_option autoImplicit false

namespace WorkflowReplay

structure CacheEntry (α : Type) where
  value : α
  lastUsed : Nat

structure Cache (α : Type) where
  capacity : Nat
  entries : Table Execution (CacheEntry α) := .empty
  clock : Nat := 0

namespace Cache

variable {α : Type}

def new (capacity : Nat) : Cache α := { capacity }

def size (c : Cache α) : Nat := c.entries.size

def isEmpty (c : Cache α) : Bool := c.size == 0

def contains (c : Cache α) (run : Execution) : Bool := c.entries.contains run

/-- Looks a run up, which counts as a use. -/
def get (c : Cache α) (run : Execution) : Option α × Cache α :=
  let now := c.clock + 1
  match c.entries.get? run with
  | none => (none, { c with clock := now })
  | some e =>
    (some e.value,
      { c with clock := now, entries := c.entries.insert run { e with lastUsed := now } })

/-- The pair with the smaller stamp, the first one of two equal stamps. -/
def older (a b : Execution × CacheEntry α) : Execution × CacheEntry α :=
  if b.2.lastUsed < a.2.lastUsed then b else a

def oldest? (c : Cache α) : Option Execution :=
  match c.entries.entries with
  | [] => none
  | e :: rest => some (rest.foldl older e).1

/-- Stores a run as the one used last.  Answers the run that had to leave for it. -/
def insert (c : Cache α) (run : Execution) (value : α) : Option Execution × Cache α :=
  if c.capacity = 0 then (none, c)
  else
    let now := c.clock + 1
    let leaving := if !c.contains run && c.capacity ≤ c.size then c.oldest? else none
    let kept := match leaving with
      | some old => c.entries.erase old
      | none => c.entries
    (leaving, { c with clock := now, entries := kept.insert run { value, lastUsed := now } })

def evict (c : Cache α) (run : Execution) : Bool × Cache α :=
  (c.contains run, { c with entries := c.entries.erase run })

def clear (c : Cache α) : Cache α := { c with entries := .empty }

def summary (c : Cache α) : String :=
  "WorkflowCache \x7b capacity: " ++ toString c.capacity ++ ", len: " ++ toString c.size ++ " \x7d"

end Cache

end WorkflowReplay
