import Testbed.Background.Bridge
import Testbed.Background.Course
import Testbed.Background.Loop
import Testbed.Background.Runtime
import Testbed.Client.Archive
import Testbed.Client.Operations
import Testbed.Client.Port
import Testbed.Decimal.Literal
import Testbed.Decimal.Number
import Testbed.Decimal.Places
import Testbed.Decimal.Shortest
import Testbed.Engine.Request
import Testbed.Engine.State
import Testbed.Environment.Settings
import Testbed.Fault.Basic
import Testbed.Fault.Cause
import Testbed.Fault.Issue
import Testbed.Fault.Kind
import Testbed.Files.Tree
import Testbed.Files.Writing
import Testbed.Json.Basic
import Testbed.Json.Printer
import Testbed.Json.Reader
import Testbed.Lifecycle.Default
import Testbed.Lifecycle.Ensemble
import Testbed.Lifecycle.Schedule
import Testbed.Lifecycle.Setup
import Testbed.Lifecycle.Shutdown
import Testbed.Lifecycle.State
import Testbed.Lifecycle.Step
import Testbed.Lifecycle.StopPass
import Testbed.Log.Console
import Testbed.Log.Entry
import Testbed.Log.Layout
import Testbed.Log.Level
import Testbed.Log.Rotation
import Testbed.Log.Template
import Testbed.Outside.Http
import Testbed.Outside.State
import Testbed.Phase
import Testbed.Program
import Testbed.Proofs.Access
import Testbed.Proofs.Acts
import Testbed.Proofs.Answers
import Testbed.Proofs.Archives
import Testbed.Proofs.AtRest
import Testbed.Proofs.Authority
import Testbed.Proofs.Awaiting
import Testbed.Proofs.Callers
import Testbed.Proofs.Calls
import Testbed.Proofs.Checks
import Testbed.Proofs.Classification
import Testbed.Proofs.Cleanup
import Testbed.Proofs.Closing
import Testbed.Proofs.Commit
import Testbed.Proofs.Completion
import Testbed.Proofs.Conduct
import Testbed.Proofs.Confirmation
import Testbed.Proofs.ConnectionUri
import Testbed.Proofs.Containers
import Testbed.Proofs.Courses
import Testbed.Proofs.Custody
import Testbed.Proofs.Cuts
import Testbed.Proofs.DeadEnds
import Testbed.Proofs.Drain
import Testbed.Proofs.Driver
import Testbed.Proofs.Dwindling
import Testbed.Proofs.Effect
import Testbed.Proofs.Entries
import Testbed.Proofs.Expiry
import Testbed.Proofs.Exposure
import Testbed.Proofs.FailedSetup
import Testbed.Proofs.Families
import Testbed.Proofs.Frame
import Testbed.Proofs.Governance
import Testbed.Proofs.Handling
import Testbed.Proofs.Handover
import Testbed.Proofs.Labels
import Testbed.Proofs.Ledger
import Testbed.Proofs.LogGrowth
import Testbed.Proofs.Networks
import Testbed.Proofs.Occupancy
import Testbed.Proofs.OrderlyStart
import Testbed.Proofs.Origins
import Testbed.Proofs.Ownership
import Testbed.Proofs.Passage
import Testbed.Proofs.Polling
import Testbed.Proofs.Ports
import Testbed.Proofs.Provisioner
import Testbed.Proofs.Publication
import Testbed.Proofs.Reach
import Testbed.Proofs.Records
import Testbed.Proofs.RedactedUri
import Testbed.Proofs.Regulation
import Testbed.Proofs.Release
import Testbed.Proofs.Reliance
import Testbed.Proofs.Removal
import Testbed.Proofs.Report
import Testbed.Proofs.Reraise
import Testbed.Proofs.Run
import Testbed.Proofs.Sanitized
import Testbed.Proofs.Scanning
import Testbed.Proofs.Secrecy
import Testbed.Proofs.Sharing
import Testbed.Proofs.Staffing
import Testbed.Proofs.StopOnce
import Testbed.Proofs.Strictness
import Testbed.Proofs.Teardown
import Testbed.Proofs.Tidy
import Testbed.Proofs.TokenRequest
import Testbed.Proofs.Transcript
import Testbed.Proofs.Turn
import Testbed.Proofs.TwoRuns
import Testbed.Proofs.Undisturbed
import Testbed.Proofs.Winding
import Testbed.Provisioner.Problem
import Testbed.Provisioner.Start
import Testbed.Readiness.Deadline
import Testbed.Readiness.Poll
import Testbed.Readiness.Probe
import Testbed.Redaction.Pattern
import Testbed.Redaction.Sanitize
import Testbed.Registry
import Testbed.Registry.Operation
import Testbed.Script.Job
import Testbed.Script.Scenario
import Testbed.Script.Values
import Testbed.Script.World
import Testbed.Service
import Testbed.Settings.Dotenv
import Testbed.Settings.Reading
import Testbed.Stop.Capability
import Testbed.Stop.Ledger
import Testbed.Stop.Report
import Testbed.Text.Blank
import Testbed.Text.Digit
import Testbed.Text.Encoding
import Testbed.Text.Lower
import Testbed.Text.Occurrence
import Testbed.Text.Quoted
import Testbed.Text.Unprintable
import Testbed.Text.Utf8
import Testbed.Token
import Testbed.Uri.Address
import Testbed.Uri.Redacted
import Testbed.Uri.Split
import Testbed.Uri.Web
import Testbed.World.Call
import Testbed.World.State
