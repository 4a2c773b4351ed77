import GlobalTransaction.Branch.Mode
import GlobalTransaction.Branch.Response
import GlobalTransaction.Branch.Status
import GlobalTransaction.Identity.InstanceId
import GlobalTransaction.Identity.Transaction
import GlobalTransaction.Journal
import GlobalTransaction.Json.Decoder
import GlobalTransaction.Json.Printer
import GlobalTransaction.Json.Reader
import GlobalTransaction.Json.Value
import GlobalTransaction.Lifecycle.Bench
import GlobalTransaction.Lifecycle.Course
import GlobalTransaction.Lifecycle.Point
import GlobalTransaction.Lifecycle.Registry
import GlobalTransaction.Lifecycle.Script
import GlobalTransaction.Lifecycle.Work
import GlobalTransaction.Resource.Connection
import GlobalTransaction.Resource.Keeper
import GlobalTransaction.Resource.StatusCache
import GlobalTransaction.Routing.Digest
import GlobalTransaction.Routing.Ring
import GlobalTransaction.Routing.Router
import GlobalTransaction.Saga.CompensationStack
import GlobalTransaction.Saga.Context
import GlobalTransaction.Saga.Failure
import GlobalTransaction.Saga.Policy
import GlobalTransaction.Saga.Run
import GlobalTransaction.Saga.Session
import GlobalTransaction.Saga.StateLog
import GlobalTransaction.Saga.Status
import GlobalTransaction.Saga.Step
import GlobalTransaction.Saga.Terminator
import GlobalTransaction.Saga.Trigger
import GlobalTransaction.Setting
import GlobalTransaction.Table
import GlobalTransaction.Text.Blank
import GlobalTransaction.Text.Decimal
import GlobalTransaction.Text.Hexadecimal
import GlobalTransaction.Text.Quoted
import GlobalTransaction.Text.Unseen
import GlobalTransaction.Time.Calendar
import GlobalTransaction.Time.Timestamp
import GlobalTransaction.Time.Written
import GlobalTransaction.Proofs.Resource.Calls
import GlobalTransaction.Proofs.Resource.Custody
import GlobalTransaction.Proofs.Resource.History
import GlobalTransaction.Proofs.Resource.Purging
import GlobalTransaction.Proofs.Runs
import GlobalTransaction.Proofs.Saga.Cause
import GlobalTransaction.Proofs.Saga.Conclusion
import GlobalTransaction.Proofs.Saga.Decision
import GlobalTransaction.Proofs.Saga.Ending
import GlobalTransaction.Proofs.Saga.Handling
import GlobalTransaction.Proofs.Saga.Plan
import GlobalTransaction.Proofs.Saga.Refusal
import GlobalTransaction.Proofs.Saga.Stack
import GlobalTransaction.Proofs.Resource.Inclusion
import GlobalTransaction.Proofs.Routing.Occupancy
import GlobalTransaction.Proofs.Routing.Selection
import GlobalTransaction.Proofs.Routing.Scaling
import GlobalTransaction.Proofs.Saga.Recovery
import GlobalTransaction.Proofs.Saga.Transition
import GlobalTransaction.Proofs.Resource.Accesses
import GlobalTransaction.Proofs.Resource.Freshness
import GlobalTransaction.Proofs.Resource.Retention
import GlobalTransaction.Proofs.Resource.Eviction
import GlobalTransaction.Proofs.Routing.Agreement
import GlobalTransaction.Proofs.Schedules
import GlobalTransaction.Proofs.Lifecycle.Moments
import GlobalTransaction.Proofs.Resource.Accounts
import GlobalTransaction.Proofs.Resource.Independence
import GlobalTransaction.Proofs.Lifecycle.Isolation
import GlobalTransaction.Proofs.Lifecycle.Strategies
import GlobalTransaction.Proofs.Saga.Fleet
import GlobalTransaction.Proofs.Json.Tokens
import GlobalTransaction.Proofs.Json.RoundTrip
import GlobalTransaction.Proofs.Identity.Spelling
import GlobalTransaction.Proofs.Time.Written
import GlobalTransaction.Proofs.Json.Records
import GlobalTransaction.Proofs.Saga.Record
import GlobalTransaction.Proofs.Text.Digits
import GlobalTransaction.Proofs.Branch.ByName
import GlobalTransaction.Proofs.Routing.Shares
import GlobalTransaction.Proofs.Resource.Contradictions
import GlobalTransaction.Proofs.Saga.Repetition
import GlobalTransaction.Proofs.Lifecycle.Rounds
import GlobalTransaction.Proofs.Identity.Reading
import GlobalTransaction.Proofs.Settings
import GlobalTransaction.Proofs.Saga.Draining
