import MessageIntake.AckMode
import MessageIntake.Channel
import MessageIntake.Client
import MessageIntake.Config.Basic
import MessageIntake.Config.Environment
import MessageIntake.Config.KeyPath
import MessageIntake.Config.Load
import MessageIntake.Config.Value
import MessageIntake.Consumer.Basic
import MessageIntake.Consumer.Subscriber
import MessageIntake.Consumer.Transactional
import MessageIntake.Crew
import MessageIntake.Delivery.Basic
import MessageIntake.Delivery.Headers
import MessageIntake.Delivery.Properties
import MessageIntake.Error
import MessageIntake.Handler
import MessageIntake.Json.Basic
import MessageIntake.Json.Parser
import MessageIntake.Json.Printer
import MessageIntake.Json.Record
import MessageIntake.Level
import MessageIntake.Lifecycle
import MessageIntake.Machine
import MessageIntake.Number.Binary64
import MessageIntake.Number.Digits
import MessageIntake.Number.Literal
import MessageIntake.Program
import MessageIntake.Queue.Basic
import MessageIntake.Queue.Calls
import MessageIntake.Script
import MessageIntake.Session.Command
import MessageIntake.Session.Ending
import MessageIntake.Session.OnQueue
import MessageIntake.Session.Run
import MessageIntake.Session.State
import MessageIntake.Shutdown
import MessageIntake.Store
import MessageIntake.Text.Alignment
import MessageIntake.Text.Inspection
import MessageIntake.Text.Reader
import MessageIntake.Text.Span
import MessageIntake.Text.Utf8
import MessageIntake.Text.Visible
import MessageIntake.Timeout
import MessageIntake.Toml.Basic
import MessageIntake.Toml.Document
import MessageIntake.Toml.Moment
import MessageIntake.Toml.Scalar
import MessageIntake.Transaction
import MessageIntake.Transaction.Completion
import MessageIntake.Proofs.Client.Carrier
import MessageIntake.Proofs.Client.Scene
import MessageIntake.Proofs.Client.Setting
import MessageIntake.Proofs.Config.Building
import MessageIntake.Proofs.Config.Keys
import MessageIntake.Proofs.Config.Loading
import MessageIntake.Proofs.Config.Reload
import MessageIntake.Proofs.Config.Verbatim
import MessageIntake.Proofs.Consumer.Acknowledgment
import MessageIntake.Proofs.Consumer.Books
import MessageIntake.Proofs.Consumer.Cancellation
import MessageIntake.Proofs.Consumer.Conduct
import MessageIntake.Proofs.Consumer.Course
import MessageIntake.Proofs.Consumer.Draining
import MessageIntake.Proofs.Consumer.Ending
import MessageIntake.Proofs.Consumer.Errand
import MessageIntake.Proofs.Consumer.Flags
import MessageIntake.Proofs.Consumer.Front
import MessageIntake.Proofs.Consumer.Handled
import MessageIntake.Proofs.Consumer.Lifespan
import MessageIntake.Proofs.Consumer.Paces
import MessageIntake.Proofs.Consumer.Reception
import MessageIntake.Proofs.Consumer.Refusal
import MessageIntake.Proofs.Consumer.Settlement
import MessageIntake.Proofs.Consumer.Source
import MessageIntake.Proofs.Consumer.Standing
import MessageIntake.Proofs.Consumer.Subscription
import MessageIntake.Proofs.Consumer.Uniform
import MessageIntake.Proofs.Consumer.Verdict
import MessageIntake.Proofs.Delivery.JsonForm
import MessageIntake.Proofs.Json.Record
import MessageIntake.Proofs.Machine.Account
import MessageIntake.Proofs.Machine.Alike
import MessageIntake.Proofs.Machine.Bounded
import MessageIntake.Proofs.Machine.Detour
import MessageIntake.Proofs.Machine.Discipline
import MessageIntake.Proofs.Machine.Front
import MessageIntake.Proofs.Machine.Parting
import MessageIntake.Proofs.Machine.Schedule
import MessageIntake.Proofs.Machine.Solo
import MessageIntake.Proofs.Machine.StandIn
import MessageIntake.Proofs.Machine.Time
import MessageIntake.Proofs.Number.Canonical
import MessageIntake.Proofs.Queue.Conservation
import MessageIntake.Proofs.Queue.EndOfStream
import MessageIntake.Proofs.Queue.Timeouts
import MessageIntake.Proofs.Queue.Waits
import MessageIntake.Proofs.Queue.Wakeup
import MessageIntake.Proofs.Transaction.Abort
import MessageIntake.Proofs.Transaction.Calls
import MessageIntake.Proofs.Transaction.Duty
import MessageIntake.Proofs.Transaction.Once
import MessageIntake.Proofs.Transaction.Standing
import MessageIntake.Proofs.Transaction.TwoPhase
