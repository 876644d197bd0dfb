import Cadence.About
import Cadence.Bus.Basic
import Cadence.Bus.Stream
import Cadence.CommandLine.Perform
import Cadence.CommandLine.Request
import Cadence.CommandLine.Screen
import Cadence.CommandLine.Usage
import Cadence.CommandLine.Words
import Cadence.Controller.Basic
import Cadence.Controller.Clock
import Cadence.Daemon.Feed
import Cadence.Daemon.Line
import Cadence.Daemon.Serve
import Cadence.Decimal.Double
import Cadence.Decimal.Literal
import Cadence.Decimal.Shortest
import Cadence.Decimal.Significant
import Cadence.Decimal.Style
import Cadence.Definition.Field
import Cadence.Definition.Schema
import Cadence.Definition.Task
import Cadence.Host
import Cadence.Instant
import Cadence.Json.Read
import Cadence.Json.Write
import Cadence.Log.Record
import Cadence.Log.Setup
import Cadence.Log.Sink
import Cadence.Main
import Cadence.Outcome
import Cadence.Outlet
import Cadence.Output
import Cadence.Path.Control
import Cadence.Path.Grammar
import Cadence.Path.Scalar
import Cadence.Place
import Cadence.Problem
import Cadence.Proofs.Bus.Conservation
import Cadence.Proofs.Bus.Readers
import Cadence.Proofs.Bus.Standing
import Cadence.Proofs.Bus.Telling
import Cadence.Proofs.Bus.Turns
import Cadence.Proofs.Bus.Views
import Cadence.Proofs.Controller.Activity
import Cadence.Proofs.Controller.Agreement
import Cadence.Proofs.Controller.Alone
import Cadence.Proofs.Controller.Apart
import Cadence.Proofs.Controller.Attunement
import Cadence.Proofs.Controller.Books
import Cadence.Proofs.Controller.Bursts
import Cadence.Proofs.Controller.Delivery
import Cadence.Proofs.Controller.Drain
import Cadence.Proofs.Controller.Edges
import Cadence.Proofs.Controller.Failure
import Cadence.Proofs.Controller.Faults
import Cadence.Proofs.Controller.Heeding
import Cadence.Proofs.Controller.Hush
import Cadence.Proofs.Controller.Intrusions
import Cadence.Proofs.Controller.Lingering
import Cadence.Proofs.Controller.Listening
import Cadence.Proofs.Controller.Lull
import Cadence.Proofs.Controller.Mended
import Cadence.Proofs.Controller.Order
import Cadence.Proofs.Controller.Release
import Cadence.Proofs.Controller.Renewal
import Cadence.Proofs.Controller.Roll
import Cadence.Proofs.Controller.Runs
import Cadence.Proofs.Controller.Shutdown
import Cadence.Proofs.Controller.Steady
import Cadence.Proofs.Controller.Timers
import Cadence.Proofs.Controller.Twins
import Cadence.Proofs.Controller.View
import Cadence.Proofs.Crew.Acts
import Cadence.Proofs.Crew.Handling
import Cadence.Proofs.Crew.Soundness
import Cadence.Proofs.Crew.Switching
import Cadence.Proofs.Daemon.Feeding
import Cadence.Proofs.Daemon.Lines
import Cadence.Proofs.Daemon.Serving
import Cadence.Proofs.Decimal.Numerals
import Cadence.Proofs.Definition.Fields
import Cadence.Proofs.Definition.Language
import Cadence.Proofs.Definition.Naming
import Cadence.Proofs.Definition.Titles
import Cadence.Proofs.Json.Grammar
import Cadence.Proofs.Json.Reading
import Cadence.Proofs.Json.Scalars
import Cadence.Proofs.Keeps
import Cadence.Proofs.Lookup
import Cadence.Proofs.Path.Canonical
import Cadence.Proofs.Path.Carried
import Cadence.Proofs.Path.Forms
import Cadence.Proofs.Path.Oversize
import Cadence.Proofs.Path.Patterns
import Cadence.Proofs.Path.Recognition
import Cadence.Proofs.Path.RoundTrip
import Cadence.Proofs.Roster.Admission
import Cadence.Proofs.Roster.Halting
import Cadence.Proofs.Roster.Sorting
import Cadence.Proofs.Sequencer.Begins
import Cadence.Proofs.Sequencer.Moves
import Cadence.Proofs.Sequencer.Pairs
import Cadence.Proofs.Sequencer.Timetable
import Cadence.Proofs.Settings.Layers
import Cadence.Proofs.Settings.Library
import Cadence.Proofs.Settings.Priority
import Cadence.Proofs.Settings.Variables
import Cadence.Proofs.Station.Batches
import Cadence.Proofs.Station.Doings
import Cadence.Proofs.Station.Ledger
import Cadence.Proofs.Text.Parts
import Cadence.Proofs.Trigger.Marks
import Cadence.Proofs.Trigger.Mended
import Cadence.Proofs.Trigger.Orders
import Cadence.Proofs.Trigger.Refusals
import Cadence.Proofs.Trigger.Spellings
import Cadence.Proofs.Trigger.Watches
import Cadence.Proofs.Value.Entries
import Cadence.Proofs.Value.Oversized
import Cadence.Roster
import Cadence.Sequencer.Basic
import Cadence.Sequencer.Crew
import Cadence.Settings.Basic
import Cadence.Settings.Environment
import Cadence.Settings.Files
import Cadence.Settings.Layer
import Cadence.Settings.Library
import Cadence.Settings.Load
import Cadence.Station
import Cadence.Task
import Cadence.Text.Blank
import Cadence.Text.Capital
import Cadence.Text.Digit
import Cadence.Text.Fields
import Cadence.Text.Likeness
import Cadence.Text.Markup
import Cadence.Text.Printable
import Cadence.Text.Quoted
import Cadence.Trigger.Edge
import Cadence.Trigger.Evaluate
import Cadence.Trigger.Feed
import Cadence.Trigger.Watch
import Cadence.Value.Basic
import Cadence.Value.Text
