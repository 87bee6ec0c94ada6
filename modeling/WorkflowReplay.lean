import WorkflowReplay.Codec
import WorkflowReplay.Decider.Basic
import WorkflowReplay.Decider.Cache
import WorkflowReplay.Decider.Config
import WorkflowReplay.Decider.Fetch
import WorkflowReplay.Decider.Orchestrator
import WorkflowReplay.Decider.Registry
import WorkflowReplay.Decision.Basic
import WorkflowReplay.Decision.Ledger
import WorkflowReplay.Decision.Lifecycle
import WorkflowReplay.Decision.Machine
import WorkflowReplay.Error
import WorkflowReplay.History.Batch
import WorkflowReplay.History.Builder
import WorkflowReplay.History.Event
import WorkflowReplay.History.EventType
import WorkflowReplay.History.Task
import WorkflowReplay.Json.Double
import WorkflowReplay.Json.Parser
import WorkflowReplay.Json.Printer
import WorkflowReplay.Json.Shape
import WorkflowReplay.Json.Value
import WorkflowReplay.Metrics
import WorkflowReplay.Proofs.Codec
import WorkflowReplay.Proofs.Decider.Handling
import WorkflowReplay.Proofs.Decider.LastUse
import WorkflowReplay.Proofs.Decider.Pages
import WorkflowReplay.Proofs.Decider.Recency
import WorkflowReplay.Proofs.Decision.Awaiting
import WorkflowReplay.Proofs.Decision.CollectionOrder
import WorkflowReplay.Proofs.Decision.Commuting
import WorkflowReplay.Proofs.Decision.Conduct
import WorkflowReplay.Proofs.Decision.Correlation
import WorkflowReplay.Proofs.Decision.Emissions
import WorkflowReplay.Proofs.Decision.Endings
import WorkflowReplay.Proofs.Decision.Evolution
import WorkflowReplay.Proofs.Decision.InPlace
import WorkflowReplay.Proofs.Decision.Namesakes
import WorkflowReplay.Proofs.Decision.Offers
import WorkflowReplay.Proofs.Decision.Operations
import WorkflowReplay.Proofs.Decision.Outcomes
import WorkflowReplay.Proofs.Decision.OwnEvents
import WorkflowReplay.Proofs.Decision.Receptions
import WorkflowReplay.Proofs.Decision.Recognition
import WorkflowReplay.Proofs.Decision.Routing
import WorkflowReplay.Proofs.Decision.Runs
import WorkflowReplay.Proofs.Decision.Upserts
import WorkflowReplay.Proofs.History.Boundary
import WorkflowReplay.Proofs.History.Chapters
import WorkflowReplay.Proofs.History.Paging
import WorkflowReplay.Proofs.History.Partition
import WorkflowReplay.Proofs.History.Polling
import WorkflowReplay.Proofs.History.Rejection
import WorkflowReplay.Proofs.Json.Members
import WorkflowReplay.Proofs.Json.RoundTrip
import WorkflowReplay.Proofs.Json.Tokens
import WorkflowReplay.Proofs.Logs
import WorkflowReplay.Proofs.Random
import WorkflowReplay.Proofs.Run.Backdrop
import WorkflowReplay.Proofs.Run.Clock
import WorkflowReplay.Proofs.Run.Closing
import WorkflowReplay.Proofs.Run.Consumption
import WorkflowReplay.Proofs.Run.Deeds
import WorkflowReplay.Proofs.Run.Delays
import WorkflowReplay.Proofs.Run.Delivery
import WorkflowReplay.Proofs.Run.Effects
import WorkflowReplay.Proofs.Run.Emission
import WorkflowReplay.Proofs.Run.Exchange
import WorkflowReplay.Proofs.Run.Foresight
import WorkflowReplay.Proofs.Run.Joining
import WorkflowReplay.Proofs.Run.LostAnswers
import WorkflowReplay.Proofs.Run.Numbering
import WorkflowReplay.Proofs.Run.Resting
import WorkflowReplay.Proofs.Run.Resumption
import WorkflowReplay.Proofs.Run.SideEffects
import WorkflowReplay.Proofs.Run.Signals
import WorkflowReplay.Proofs.Run.Stages
import WorkflowReplay.Proofs.Run.Timers
import WorkflowReplay.Proofs.Run.Touching
import WorkflowReplay.Proofs.Run.Twins
import WorkflowReplay.Proofs.Run.Waiters
import WorkflowReplay.Proofs.Schedule.Fairness
import WorkflowReplay.Proofs.Schedule.Lockstep
import WorkflowReplay.Proofs.Schedule.Outputs
import WorkflowReplay.Proofs.Schedule.Panics
import WorkflowReplay.Proofs.Schedule.Parking
import WorkflowReplay.Proofs.Schedule.Placeholders
import WorkflowReplay.Proofs.Schedule.Polls
import WorkflowReplay.Proofs.Schedule.QueueLog
import WorkflowReplay.Proofs.Schedule.Quiescence
import WorkflowReplay.Proofs.Schedule.ReadyQueue
import WorkflowReplay.Proofs.Schedule.Touches
import WorkflowReplay.Proofs.Schedule.Turns
import WorkflowReplay.Proofs.Schedule.Wakeups
import WorkflowReplay.Proofs.Script.Handles
import WorkflowReplay.Proofs.Tables
import WorkflowReplay.Proofs.Time.Calendar
import WorkflowReplay.Proofs.Time.Text
import WorkflowReplay.Proofs.Wire.Layouts
import WorkflowReplay.Proofs.Wire.Lossless
import WorkflowReplay.Random
import WorkflowReplay.Run.Calls
import WorkflowReplay.Run.Context
import WorkflowReplay.Run.Engine
import WorkflowReplay.Run.Events
import WorkflowReplay.Run.Future
import WorkflowReplay.Run.Workflow
import WorkflowReplay.Schedule.Board
import WorkflowReplay.Schedule.Code
import WorkflowReplay.Schedule.Program
import WorkflowReplay.Schedule.Progress
import WorkflowReplay.Schedule.Scheduler
import WorkflowReplay.Schedule.Waiting
import WorkflowReplay.Script.Basic
import WorkflowReplay.Script.Meaning
import WorkflowReplay.Table
import WorkflowReplay.Text.Invisible
import WorkflowReplay.Text.Named
import WorkflowReplay.Text.Quoted
import WorkflowReplay.Text.Utf8
import WorkflowReplay.Time.Span
import WorkflowReplay.Time.Timestamp
import WorkflowReplay.Wire.Decision
import WorkflowReplay.Wire.Failure
import WorkflowReplay.Wire.Form
import WorkflowReplay.Wire.History
import WorkflowReplay.Wire.Shorthand
