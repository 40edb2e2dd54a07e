import ListMode.BitNames
import ListMode.KeyMap
import ListMode.Record
import ListMode.Instant
import ListMode.RunId
import ListMode.Decimal.Nearest
import ListMode.Decimal.Shortest
import ListMode.Tree.Json
import ListMode.Tree.Form
import ListMode.Fault
import ListMode.Merger
import ListMode.Status
import ListMode.Handoff
import ListMode.Random.Source
import ListMode.Synthetic.Acquisition
import ListMode.Replay
import ListMode.Polling
import ListMode.Producer
import ListMode.Worker
import ListMode.Session.Clock
import ListMode.Tree.Toml.Document
import ListMode.Text.Lower
import ListMode.Timing
import ListMode.Tree.Toml.Value
import ListMode.Setup
import ListMode.Environment
import ListMode.Log
import ListMode.Setup.Load
import ListMode.Registry
import ListMode.Session.Assembly
import ListMode.CommandLine.Arguments
import ListMode.CommandLine.Help
import ListMode.CommandLine
import ListMode.Main
import ListMode.Proofs.Handoff.Steps
import ListMode.Proofs.Handoff.Wakeups
import ListMode.Proofs.Handoff.Order
import ListMode.Proofs.Hit.Order
import ListMode.Proofs.KeyMap
import ListMode.Proofs.Merger.Lanes
import ListMode.Proofs.Merger.Reception
import ListMode.Proofs.Merger.Coherence
import ListMode.Proofs.Merger.Conservation
import ListMode.Proofs.Merger.Canonical
import ListMode.Proofs.Merger.Departure
import ListMode.Proofs.Merger.DrainOrder
import ListMode.Proofs.Merger.Bracket
import ListMode.Proofs.Merger.Deliveries
import ListMode.Proofs.Merger.Interchange
import ListMode.Proofs.Merger.Receipts
import ListMode.Proofs.Merger.Overtaking
import ListMode.Proofs.Sink
import ListMode.Proofs.Merger.Accounts
import ListMode.Proofs.Merger.Standstill
import ListMode.Proofs.Merger.Totals
import ListMode.Proofs.Merger.Representation
import ListMode.Proofs.Polling
import ListMode.Proofs.Producer
import ListMode.Proofs.Producer.Slot
import ListMode.Proofs.Producer.Calls
import ListMode.Proofs.Producer.Lifecycle
import ListMode.Proofs.Producer.Course
import ListMode.Proofs.Record
import ListMode.Proofs.Record.Correspondence
import ListMode.Proofs.Snapshot
import ListMode.Proofs.Spill
import ListMode.Proofs.Tree
import ListMode.Proofs.Synthetic.Settings
import ListMode.Proofs.Synthetic.Draws
import ListMode.Proofs.Synthetic.Flow
import ListMode.Proofs.Synthetic.Weave
import ListMode.Proofs.Synthetic.Series
import ListMode.Proofs.Replay
import ListMode.Proofs.Text.LetterCase
import ListMode.Proofs.Setup
import ListMode.Proofs.Registry
import ListMode.Proofs.Session.Assembly
import ListMode.Proofs.Session.Acts
import ListMode.Proofs.Session.Frame
import ListMode.Proofs.Session.Steps
import ListMode.Proofs.Session.Effect
import ListMode.Proofs.Session.Pipeline
import ListMode.Proofs.Session.Protocol
import ListMode.Proofs.Session.Completion
import ListMode.Proofs.Session.Operations
import ListMode.Proofs.Session.Admission
import ListMode.Proofs.Session.Ownership
import ListMode.Proofs.Session.Attendance
import ListMode.Proofs.Session.Rest
import ListMode.Proofs.Synthetic.Digitizer
import ListMode.Proofs.Session.Supply
import ListMode.Proofs.Session.Provision
import ListMode.Proofs.Session.Digitizers
import ListMode.Proofs.Session.Succession
import ListMode.Proofs.Session.Acceptance
import ListMode.Proofs.Session.Relay
import ListMode.Proofs.Session.Repetition
import ListMode.Proofs.Session.Isolation
import ListMode.Proofs.Session.Time
import ListMode.Proofs.Session.Waiting
import ListMode.Proofs.Session.Refusal
import ListMode.Proofs.Session.Settings
import ListMode.Proofs.Session.Restoration
import ListMode.Proofs.Merger.Relabel
import ListMode.Proofs.Producer.Likeness
import ListMode.Proofs.Session.Twins
import ListMode.Proofs.Session.Unnoticed
