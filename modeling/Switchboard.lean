import Switchboard.Admission
import Switchboard.Binary64
import Switchboard.CallMode
import Switchboard.Callback
import Switchboard.CommandLine
import Switchboard.Config
import Switchboard.Config.Reader
import Switchboard.Context
import Switchboard.Decimal.Layout
import Switchboard.Decimal.Shortest
import Switchboard.Diagnostic
import Switchboard.Diagnostic.Broadcast
import Switchboard.Dispatch
import Switchboard.Engine
import Switchboard.Entries
import Switchboard.Envelope
import Switchboard.Error
import Switchboard.Evaluation
import Switchboard.Execution
import Switchboard.Expr
import Switchboard.Expr.Reader
import Switchboard.Failure
import Switchboard.File
import Switchboard.Flight
import Switchboard.Jms
import Switchboard.Json
import Switchboard.Json.Reader
import Switchboard.Json.Skip
import Switchboard.Json.Tape
import Switchboard.Library
import Switchboard.Library.Basic
import Switchboard.Library.Messages
import Switchboard.Library.Numbers
import Switchboard.Library.Strings
import Switchboard.Message
import Switchboard.MessageKind
import Switchboard.Native
import Switchboard.OperatorTable
import Switchboard.Registry
import Switchboard.Schedule
import Switchboard.Scripted
import Switchboard.Sending
import Switchboard.Session
import Switchboard.Shutdown
import Switchboard.Startup
import Switchboard.Task
import Switchboard.Text.Blank
import Switchboard.Text.UpperCase
import Switchboard.Text.Utf8
import Switchboard.Transport
import Switchboard.Transport.Fault
import Switchboard.Transport.Loopback
import Switchboard.Value
import Switchboard.ValueType
import Switchboard.World
import Switchboard.Main
import Switchboard.Proofs.Grammar
import Switchboard.Proofs.Grammar.Completeness
import Switchboard.Proofs.Grammar.Soundness
import Switchboard.Proofs.Grammar.Words
import Switchboard.Proofs.Changes
import Switchboard.Proofs.Waiting
import Switchboard.Proofs.Transports
import Switchboard.Proofs.Admission
import Switchboard.Proofs.Dispatch
import Switchboard.Proofs.Panics
import Switchboard.Proofs.Typing
import Switchboard.Proofs.Contexts
import Switchboard.Proofs.Callback
import Switchboard.Proofs.Offline
import Switchboard.Proofs.Loopback
import Switchboard.Proofs.Sends
import Switchboard.Proofs.Accounts
import Switchboard.Proofs.Traffic
import Switchboard.Proofs.Startup
import Switchboard.Proofs.Traffic.Calls
import Switchboard.Proofs.Objections
import Switchboard.Proofs.Works
import Switchboard.Proofs.Trail
import Switchboard.Proofs.Courses
import Switchboard.Proofs.Reports
import Switchboard.Proofs.Gate
import Switchboard.Proofs.Agreement
import Switchboard.Proofs.Library
import Switchboard.Proofs.Soundness
import Switchboard.Proofs.Visits
import Switchboard.Proofs.Invocations
import Switchboard.Proofs.Blame
import Switchboard.Proofs.Grammar.Readings
import Switchboard.Proofs.Grammar.Locations
import Switchboard.Proofs.Grammar.Truncation
import Switchboard.Proofs.Grammar.Errors
import Switchboard.Proofs.Names
import Switchboard.Proofs.Contributions
import Switchboard.Proofs.Registration
import Switchboard.Proofs.Grammar.Calls
import Switchboard.Proofs.ConfigText
import Switchboard.Proofs.Activity
import Switchboard.Proofs.Snapshots
import Switchboard.Proofs.Assembly
import Switchboard.Proofs.Envelopes
import Switchboard.Proofs.Canonical
import Switchboard.Proofs.Equality
import Switchboard.Proofs.Floats
import Switchboard.Proofs.Json.Unique
import Switchboard.Proofs.Lending
import Switchboard.Proofs.Variables
import Switchboard.Proofs.Headers
import Switchboard.Proofs.Headers.Calls
import Switchboard.Proofs.Reading
import Switchboard.Proofs.Receivers
import Switchboard.Proofs.Arithmetic
import Switchboard.Proofs.Comparisons
import Switchboard.Proofs.Scopes
import Switchboard.Proofs.Merging
import Switchboard.Proofs.Properties
import Switchboard.Proofs.Installation
import Switchboard.Proofs.Closing
import Switchboard.Proofs.Draining
import Switchboard.Proofs.Unwinding
