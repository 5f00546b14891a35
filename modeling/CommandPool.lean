import CommandPool.Backoff
import CommandPool.Batch
import CommandPool.Binary64.Basic
import CommandPool.Binary64.Shortest
import CommandPool.Binary64.Text
import CommandPool.Cancel
import CommandPool.Cli.Args
import CommandPool.Cli.Run
import CommandPool.Command.Basic
import CommandPool.Command.Line
import CommandPool.Command.ParseError
import CommandPool.Command.Resources
import CommandPool.Command.Run
import CommandPool.Counters
import CommandPool.Duration
import CommandPool.Files.Fault
import CommandPool.Files.FileSystem
import CommandPool.Files.Path
import CommandPool.Files.Tree
import CommandPool.Handoff.Basic
import CommandPool.Handoff.Piece
import CommandPool.Handoff.Timeline
import CommandPool.Job.Basic
import CommandPool.Job.Error
import CommandPool.Job.Id
import CommandPool.Lines.File
import CommandPool.Lines.Inflow
import CommandPool.Lines.Piece
import CommandPool.Lines.Reader
import CommandPool.Log.Entry
import CommandPool.Log.Filter
import CommandPool.Log.Json
import CommandPool.Log.Pattern.Bracket
import CommandPool.Log.Pattern.Sign
import CommandPool.Log.Pattern.Value
import CommandPool.Main
import CommandPool.Pool.Basic
import CommandPool.Pool.Event
import CommandPool.Pool.Fed
import CommandPool.Pool.Feeding
import CommandPool.Pool.Piece
import CommandPool.Pool.Served
import CommandPool.Pool.Sourced
import CommandPool.Pool.Supplied
import CommandPool.Pool.Timeline
import CommandPool.Proofs.Backoff.Limits
import CommandPool.Proofs.Backoff.WholeDelays
import CommandPool.Proofs.Batch
import CommandPool.Proofs.Binary64.Rounding
import CommandPool.Proofs.Cancel
import CommandPool.Proofs.Cli.ExitCode
import CommandPool.Proofs.Command.Changes
import CommandPool.Proofs.Command.CopiedBytes
import CommandPool.Proofs.Command.Copies
import CommandPool.Proofs.Command.Directions
import CommandPool.Proofs.Command.FailedCopy
import CommandPool.Proofs.Command.Frame
import CommandPool.Proofs.Command.Grammar
import CommandPool.Proofs.Command.InvalidKeys
import CommandPool.Proofs.Command.KeptBytes
import CommandPool.Proofs.Command.Printing
import CommandPool.Proofs.Command.Resources
import CommandPool.Proofs.Files.Alike
import CommandPool.Proofs.Files.Beneath
import CommandPool.Proofs.Files.Changes
import CommandPool.Proofs.Files.FileNames
import CommandPool.Proofs.Files.Following
import CommandPool.Proofs.Files.Nodes
import CommandPool.Proofs.Files.Operations
import CommandPool.Proofs.Files.Paths
import CommandPool.Proofs.Files.Sound
import CommandPool.Proofs.Files.Touches
import CommandPool.Proofs.Files.Travels
import CommandPool.Proofs.Handoff.Agreement
import CommandPool.Proofs.Handoff.Deliveries
import CommandPool.Proofs.Handoff.Effort
import CommandPool.Proofs.Handoff.Got
import CommandPool.Proofs.Handoff.Grounds
import CommandPool.Proofs.Handoff.InOrder
import CommandPool.Proofs.Handoff.Lines
import CommandPool.Proofs.Handoff.Parts
import CommandPool.Proofs.Handoff.Played
import CommandPool.Proofs.Handoff.Progress
import CommandPool.Proofs.Handoff.Standing
import CommandPool.Proofs.Handoff.Taken
import CommandPool.Proofs.Handoff.Takers
import CommandPool.Proofs.Handoff.Whole
import CommandPool.Proofs.Job.Id
import CommandPool.Proofs.Lines.Arrivals
import CommandPool.Proofs.Lines.Readings
import CommandPool.Proofs.Pool.Acts
import CommandPool.Proofs.Pool.Advance
import CommandPool.Proofs.Pool.Attendance
import CommandPool.Proofs.Pool.Balance
import CommandPool.Proofs.Pool.Changes
import CommandPool.Proofs.Pool.Course
import CommandPool.Proofs.Pool.Desertion
import CommandPool.Proofs.Pool.Diary
import CommandPool.Proofs.Pool.Draining
import CommandPool.Proofs.Pool.Effort
import CommandPool.Proofs.Pool.Ending
import CommandPool.Proofs.Pool.ExactlyOnce
import CommandPool.Proofs.Pool.Feeders
import CommandPool.Proofs.Pool.Health
import CommandPool.Proofs.Pool.Isolation
import CommandPool.Proofs.Pool.Itinerary
import CommandPool.Proofs.Pool.Losses
import CommandPool.Proofs.Pool.Nodes
import CommandPool.Proofs.Pool.OnTour
import CommandPool.Proofs.Pool.OneAtATime
import CommandPool.Proofs.Pool.OneLine
import CommandPool.Proofs.Pool.Played
import CommandPool.Proofs.Pool.Pursuit
import CommandPool.Proofs.Pool.Quiet
import CommandPool.Proofs.Pool.Reports
import CommandPool.Proofs.Pool.Requests
import CommandPool.Proofs.Pool.Retries
import CommandPool.Proofs.Pool.Schedules
import CommandPool.Proofs.Pool.Sources
import CommandPool.Proofs.Pool.Steady
import CommandPool.Proofs.Pool.Supplies
import CommandPool.Proofs.Pool.Tally
import CommandPool.Proofs.Pool.Thorough
import CommandPool.Proofs.Pool.Tours
import CommandPool.Proofs.Pool.Visits
import CommandPool.Proofs.Pool.Walks
import CommandPool.Proofs.Pool.WholeLooks
import CommandPool.Proofs.Pool.Wording
import CommandPool.Proofs.Pool.Workers
import CommandPool.Proofs.Run
import CommandPool.Proofs.Store.Chunks
import CommandPool.Proofs.Store.Confinement
import CommandPool.Proofs.Store.ExactListing
import CommandPool.Proofs.Store.Frames
import CommandPool.Proofs.Store.Identity
import CommandPool.Proofs.Store.Keys
import CommandPool.Proofs.Store.Listing
import CommandPool.Proofs.Store.Refusals
import CommandPool.Proofs.Store.Targets
import CommandPool.Proofs.Store.Transfers
import CommandPool.Proofs.Text.ByteOrder
import CommandPool.Proofs.Text.Decoding
import CommandPool.Proofs.Text.Tidy
import CommandPool.Proofs.Text.Words
import CommandPool.Settings
import CommandPool.Store.Error
import CommandPool.Store.Key
import CommandPool.Store.LocalFile
import CommandPool.Store.Operand
import CommandPool.Store.Request
import CommandPool.Store.Site
import CommandPool.Text.Alphanumeric
import CommandPool.Text.Blank
import CommandPool.Text.Front
import CommandPool.Text.Hexadecimal
import CommandPool.Text.Inert
import CommandPool.Text.Quoted
import CommandPool.Text.Unprintable
import CommandPool.Text.Utf8
