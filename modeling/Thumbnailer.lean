import Thumbnailer.Command
import Thumbnailer.CommandLine.Arguments
import Thumbnailer.CommandLine.Batch
import Thumbnailer.CommandLine.Configuration
import Thumbnailer.CommandLine.Flag
import Thumbnailer.CommandLine.Help
import Thumbnailer.CommandLine.Run
import Thumbnailer.Destinations
import Thumbnailer.Encoder.Check
import Thumbnailer.Encoder.Search
import Thumbnailer.FileTree
import Thumbnailer.Filter
import Thumbnailer.Filter.Draft
import Thumbnailer.Generator
import Thumbnailer.Generator.Schedule
import Thumbnailer.Graph
import Thumbnailer.Headers
import Thumbnailer.Interval
import Thumbnailer.Log
import Thumbnailer.Main
import Thumbnailer.Number.Double
import Thumbnailer.Number.Fixed
import Thumbnailer.Number.Reading
import Thumbnailer.Number.Shortest
import Thumbnailer.OrderedMap
import Thumbnailer.Output
import Thumbnailer.Output.Groups
import Thumbnailer.Output.Names
import Thumbnailer.Output.Slots
import Thumbnailer.Output.Violation
import Thumbnailer.Output.Written
import Thumbnailer.Path
import Thumbnailer.Plan
import Thumbnailer.Pool
import Thumbnailer.Pool.Schedule
import Thumbnailer.Session
import Thumbnailer.Session.Child
import Thumbnailer.Session.Course
import Thumbnailer.Session.ErrorLine
import Thumbnailer.Session.Outcome
import Thumbnailer.Session.Progress
import Thumbnailer.Settings
import Thumbnailer.Settings.Checked
import Thumbnailer.Settings.Field
import Thumbnailer.Settings.Yaml
import Thumbnailer.SystemError
import Thumbnailer.Text.Base64
import Thumbnailer.Text.Blank
import Thumbnailer.Text.Digit
import Thumbnailer.Text.Integer
import Thumbnailer.Text.Lines
import Thumbnailer.Text.Lower
import Thumbnailer.Text.Printable
import Thumbnailer.Text.Quoted
import Thumbnailer.Text.Ranges
import Thumbnailer.Text.Search
import Thumbnailer.Text.Shell
import Thumbnailer.Text.Utf8
import Thumbnailer.Text.Word
import Thumbnailer.Version
import Thumbnailer.Yaml.Block
import Thumbnailer.Yaml.Cursor
import Thumbnailer.Yaml.Fault
import Thumbnailer.Yaml.Merge
import Thumbnailer.Yaml.Moment
import Thumbnailer.Yaml.Node
import Thumbnailer.Yaml.Plain
import Thumbnailer.Yaml.Property
import Thumbnailer.Yaml.Quoted
import Thumbnailer.Yaml.Scalar
import Thumbnailer.Yaml.Tag
import Thumbnailer.Yaml.Token
import Thumbnailer.Yaml.Tokens
import Thumbnailer.Yaml.Value
import Thumbnailer.Proofs.Graph.Labels
import Thumbnailer.Proofs.Graph.Links
import Thumbnailer.Proofs.Graph.Routes
import Thumbnailer.Proofs.Graph.Decoding
import Thumbnailer.Proofs.Mappings
import Thumbnailer.Proofs.Pool.Capacity
import Thumbnailer.Proofs.Pool.Outcomes
import Thumbnailer.Proofs.Pool.Order
import Thumbnailer.Proofs.Pool.Wakeups
import Thumbnailer.Proofs.Generator.Sessions
import Thumbnailer.Proofs.Generator.Calls
import Thumbnailer.Proofs.Generator.Turns
import Thumbnailer.Proofs.Generator.Moves
import Thumbnailer.Proofs.Generator.Runs
import Thumbnailer.Proofs.Generator.Requests
import Thumbnailer.Proofs.Generator.Delivery
import Thumbnailer.Proofs.Generator.Counter
import Thumbnailer.Proofs.Generator.Numbers
import Thumbnailer.Proofs.Generator.Progress
import Thumbnailer.Proofs.Generator.Launches
import Thumbnailer.Proofs.Generator.Verdicts
import Thumbnailer.Proofs.Generator.Quiet
import Thumbnailer.Proofs.Generator.Confluence
import Thumbnailer.Proofs.Destinations.Paths
import Thumbnailer.Proofs.Destinations.Names
import Thumbnailer.Proofs.Destinations.Apart
import Thumbnailer.Proofs.Text.Searching
import Thumbnailer.Proofs.Text.Trimming
import Thumbnailer.Proofs.Text.Phrases
import Thumbnailer.Proofs.Text.Pieces
import Thumbnailer.Proofs.Session.Reports
import Thumbnailer.Proofs.Session.LineEnds
import Thumbnailer.Proofs.Session.ErrorLine
import Thumbnailer.Proofs.Session.Courses
import Thumbnailer.Proofs.Session.Terminal
import Thumbnailer.Proofs.Session.Results
import Thumbnailer.Proofs.Session.Observers
import Thumbnailer.Proofs.FileTree.Extended
import Thumbnailer.Proofs.FileTree.Made
import Thumbnailer.Proofs.Generator.Settling
import Thumbnailer.Proofs.Generator.Filed
import Thumbnailer.Proofs.Generator.Course
import Thumbnailer.Proofs.Generator.Performed
import Thumbnailer.Proofs.CommandLine.Prepared
import Thumbnailer.Proofs.CommandLine.Batches
import Thumbnailer.Proofs.CommandLine.Progress
import Thumbnailer.Proofs.CommandLine.Reported
import Thumbnailer.Proofs.CommandLine.Scheduled
import Thumbnailer.Proofs.CommandLine.Several
import Thumbnailer.Proofs.CommandLine.ExitStatus
import Thumbnailer.Proofs.Rules
import Thumbnailer.Proofs.Runs
import Thumbnailer.Proofs.Groups.Partition
import Thumbnailer.Proofs.Graph.Stages
import Thumbnailer.Proofs.Slots.Judged
import Thumbnailer.Proofs.Slots.History
import Thumbnailer.Proofs.Interval
import Thumbnailer.Proofs.Text.Integers
import Thumbnailer.Proofs.Version.RoundTrip
import Thumbnailer.Proofs.Version.Order
import Thumbnailer.Proofs.Encoder.Verified
import Thumbnailer.Proofs.Destinations.Components
import Thumbnailer.Proofs.Destinations.Greedy
import Thumbnailer.Proofs.Destinations.Dots
import Thumbnailer.Proofs.Destinations.Resolved
import Thumbnailer.Proofs.Command.Arranged
import Thumbnailer.Proofs.Headers
import Thumbnailer.Proofs.Encoder.Located
import Thumbnailer.Proofs.Settings.Loaded
import Thumbnailer.Proofs.Slots.Received
