import WorkflowReplay.Decider.Config
import WorkflowReplay.Decider.Orchestrator

/-!
# Fetching a history

A task brings the first part of its history; pages bring the rest, one after the other, up to a
limit.
-/

set_option autoImplicit false

namespace WorkflowReplay

structure Fetch where
  requests : List PageRequest := []
  pages : Nat := 0
  result : Except Error DecisionTask

def DecisionTask.append (t : DecisionTask) (p : HistoryPage) : DecisionTask :=
  { t with history := t.history ++ p.events, nextPageToken := p.nextPageToken }

namespace Config

def tooManyPages (c : Config) (run : Execution) : Error :=
  .historyUnavailable
    ("history of " ++ run.text ++ " exceeds " ++ toString c.maxHistoryPages ++ " pages")

def pageTimedOut (c : Config) (run : Execution) : Error :=
  .historyUnavailable
    ("history page request for " ++ run.text ++ " timed out after " ++ c.historyFetchTimeout.text)

/-- Fetches pages until none is left, `left` at most after the first `asked`. -/
def fetchFrom (c : Config) (source : HistorySource) (t : DecisionTask) (asked : Nat) :
    Nat → Fetch
  | 0 =>
    match t.nextPageToken with
    | none => { result := .ok t }
    | some _ => { result := .error (c.tooManyPages t.execution) }
  | left + 1 =>
    match t.nextPageToken with
    | none => { result := .ok t }
    | some token =>
      let request : PageRequest := ⟨t.execution, token, c.historyPageSize⟩
      match source asked request with
      | .late => { requests := [request], result := .error (c.pageTimedOut t.execution) }
      | .failed e => { requests := [request], result := .error e }
      | .page p =>
        let rest := fetchFrom c source (t.append p) (asked + 1) left
        { rest with requests := request :: rest.requests, pages := rest.pages + 1 }

def fetch (c : Config) (source : HistorySource) (t : DecisionTask) : Fetch :=
  fetchFrom c source t 0 c.maxHistoryPages

end Config

end WorkflowReplay
