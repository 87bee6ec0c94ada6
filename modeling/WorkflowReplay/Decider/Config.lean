import WorkflowReplay.Time.Span

/-!
# Settings of a decider
-/

set_option autoImplicit false

namespace WorkflowReplay

structure Config where
  identity : String := ""
  domain : String := ""
  taskList : String := ""
  /-- The runs kept between tasks; none when this is zero. -/
  maxCachedWorkflows : Nat := 1000
  historyPageSize : Int32 := 1000
  maxHistoryPages : Nat := 1000
  historyFetchTimeout : Span := .ofSeconds 10
  deriving DecidableEq, Repr, Inhabited

inductive ConfigError where
  | pageSizeNotPositive
  | noHistoryPages
  deriving DecidableEq, Repr

namespace ConfigError

def message : ConfigError → String
  | .pageSizeNotPositive => "Invalid configuration value: history_page_size must be positive"
  | .noHistoryPages => "Invalid configuration value: max_history_pages must be positive"

end ConfigError

namespace Config

def standard : Config := {}

def highThroughput : Config := { maxCachedWorkflows := 10000 }

def lowResource : Config :=
  { maxCachedWorkflows := 50
    historyPageSize := 100
    maxHistoryPages := 500
    historyFetchTimeout := .ofSeconds 30 }

/-- Settings with the given limits; pages must have a size and there must be one. -/
def create (identity : String) (maxCached : Nat) (pageSize : Int32) (maxPages : Nat) :
    Except ConfigError Config :=
  if pageSize ≤ 0 then .error .pageSizeNotPositive
  else if maxPages = 0 then .error .noHistoryPages
  else
    .ok { identity
          maxCachedWorkflows := maxCached
          historyPageSize := pageSize
          maxHistoryPages := maxPages }

def cachingEnabled (c : Config) : Bool := 0 < c.maxCachedWorkflows

end Config

end WorkflowReplay
