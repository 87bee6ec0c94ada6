import WorkflowReplay.Table
import WorkflowReplay.Text.Named
import WorkflowReplay.Time.Span

/-!
# Metrics

Counters and timings of a decider, kept by metric.
-/

set_option autoImplicit false

namespace WorkflowReplay

inductive Metric where
  | decisionTaskCompleted
  | decisionTaskFailed
  | decisionTaskLatency
  | decisionTaskReplayLatency
  | decisionsSent
  | historyPagesFetched
  | cacheHit
  | cacheMiss
  | cacheEviction
  | workflowCompleted
  | workflowFailed
  | workflowPanicked
  deriving DecidableEq, Repr

namespace Metric

def all : List Metric := [
  .decisionTaskCompleted, .decisionTaskFailed, .decisionTaskLatency, .decisionTaskReplayLatency,
  .decisionsSent, .historyPagesFetched, .cacheHit, .cacheMiss, .cacheEviction,
  .workflowCompleted, .workflowFailed, .workflowPanicked]

def name : Metric → String
  | .decisionTaskCompleted => "cadence.decision_task.completed"
  | .decisionTaskFailed => "cadence.decision_task.failed"
  | .decisionTaskLatency => "cadence.decision_task.latency"
  | .decisionTaskReplayLatency => "cadence.decision_task.replay_latency"
  | .decisionsSent => "cadence.decisions.sent"
  | .historyPagesFetched => "cadence.history.pages_fetched"
  | .cacheHit => "cadence.workflow_cache.hit"
  | .cacheMiss => "cadence.workflow_cache.miss"
  | .cacheEviction => "cadence.workflow_cache.eviction"
  | .workflowCompleted => "cadence.workflow.completed"
  | .workflowFailed => "cadence.workflow.failed"
  | .workflowPanicked => "cadence.workflow.panicked"

def ofName? (s : String) : Option Metric := all.find? (fun m => m.name == s)

end Metric

structure Metrics where
  counters : Table Metric Nat := .empty
  durations : Table Metric (List Span) := .empty
  deriving Inhabited

namespace Metrics

def empty : Metrics := {}

def counter (m : Metrics) (metric : Metric) : Nat := m.counters.getD metric 0

def timings (m : Metrics) (metric : Metric) : List Span := m.durations.getD metric []

def count (m : Metrics) (metric : Metric) (n : Nat := 1) : Metrics :=
  { m with counters := m.counters.insert metric (m.counter metric + n) }

/-- Counts as long as the counter keeps to 64 bits. -/
def count? (m : Metrics) (metric : Metric) (n : Nat) : Option Metrics :=
  if m.counter metric + n < 18446744073709551616 then some (m.count metric n) else none

def record (m : Metrics) (metric : Metric) (s : Span) : Metrics :=
  { m with durations := m.durations.insert metric (m.timings metric ++ [s]) }

end Metrics

end WorkflowReplay
