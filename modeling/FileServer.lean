import FileServer.Config.Arguments
import FileServer.Config.Help
import FileServer.Config.Settings
import FileServer.Config.Summary
import FileServer.Document.Lookup
import FileServer.Document.Path
import FileServer.Document.Tree
import FileServer.Event.Channel
import FileServer.Event.Handlers
import FileServer.Event.Kernel
import FileServer.Event.Loop
import FileServer.Event.Server
import FileServer.Exchange.Address
import FileServer.Exchange.Answering
import FileServer.Exchange.Connection
import FileServer.Exchange.Reading
import FileServer.Exchange.Socket
import FileServer.Exchange.Writing
import FileServer.Idle.Deadline
import FileServer.Idle.Timers
import FileServer.IoError
import FileServer.Main
import FileServer.Pattern.Automaton
import FileServer.Pattern.Basic
import FileServer.Pattern.Bracket
import FileServer.Pattern.Escape
import FileServer.Pattern.Opening
import FileServer.Pattern.Parser
import FileServer.Proofs.Document.Descent
import FileServer.Proofs.Document.Files
import FileServer.Proofs.Document.Lasting
import FileServer.Proofs.Exchange.Containment
import FileServer.Proofs.Exchange.Delivery
import FileServer.Proofs.Exchange.History
import FileServer.Proofs.Exchange.Integrity
import FileServer.Proofs.Exchange.Likeness
import FileServer.Proofs.Exchange.Places
import FileServer.Proofs.Exchange.Renewal
import FileServer.Proofs.Exchange.Replies
import FileServer.Proofs.Exchange.Resumption
import FileServer.Proofs.Exchange.Session
import FileServer.Proofs.Exchange.SizeLimit
import FileServer.Proofs.Exchange.Storage
import FileServer.Proofs.Exchange.Streams
import FileServer.Proofs.Exchange.Transmission
import FileServer.Proofs.Idle.Chronicle
import FileServer.Proofs.Idle.Contents
import FileServer.Proofs.Idle.Identity
import FileServer.Proofs.Idle.Links
import FileServer.Proofs.Idle.Operations
import FileServer.Proofs.Idle.Precedence
import FileServer.Proofs.Idle.Schedule
import FileServer.Proofs.Idle.Sorting
import FileServer.Proofs.Interleaving.Accounts
import FileServer.Proofs.Interleaving.Activity
import FileServer.Proofs.Interleaving.Agreement
import FileServer.Proofs.Interleaving.Attention
import FileServer.Proofs.Interleaving.Awakening
import FileServer.Proofs.Interleaving.Branches
import FileServer.Proofs.Interleaving.CleanShutdown
import FileServer.Proofs.Interleaving.Clocks
import FileServer.Proofs.Interleaving.Conclusion
import FileServer.Proofs.Interleaving.Confinement
import FileServer.Proofs.Interleaving.Deadlines
import FileServer.Proofs.Interleaving.Errands
import FileServer.Proofs.Interleaving.Eviction
import FileServer.Proofs.Interleaving.Handlers
import FileServer.Proofs.Interleaving.Holdings
import FileServer.Proofs.Interleaving.Isolation
import FileServer.Proofs.Interleaving.Journal
import FileServer.Proofs.Interleaving.Lawful
import FileServer.Proofs.Interleaving.Life
import FileServer.Proofs.Interleaving.Marks
import FileServer.Proofs.Interleaving.Moves
import FileServer.Proofs.Interleaving.Ownership
import FileServer.Proofs.Interleaving.Passages
import FileServer.Proofs.Interleaving.Progress
import FileServer.Proofs.Interleaving.Reach
import FileServer.Proofs.Interleaving.Registrations
import FileServer.Proofs.Interleaving.Rounds
import FileServer.Proofs.Interleaving.Sockets
import FileServer.Proofs.Interleaving.StopRequests
import FileServer.Proofs.Interleaving.Sweeping
import FileServer.Proofs.Interleaving.System
import FileServer.Proofs.Interleaving.Timekeeping
import FileServer.Proofs.Interleaving.Traffic
import FileServer.Proofs.Interleaving.Turns
import FileServer.Proofs.Interleaving.Watchfulness
import FileServer.Proofs.Report.Astray
import FileServer.Proofs.Report.Calendar
import FileServer.Proofs.Report.Contents
import FileServer.Proofs.Report.Durability
import FileServer.Proofs.Report.LinesKept
import FileServer.Proofs.Report.Partition
import FileServer.Proofs.Report.Parts
import FileServer.Proofs.Report.Rotation
import FileServer.Proofs.Report.SharedSink
import FileServer.Proofs.Report.SinkCalls
import FileServer.Proofs.Report.Tallies
import FileServer.Proofs.Request.Course
import FileServer.Proofs.Request.Grammar
import FileServer.Proofs.Request.Incremental
import FileServer.Proofs.Request.Lines
import FileServer.Proofs.Request.Positions
import FileServer.Proofs.Request.Recognition
import FileServer.Proofs.Request.Safety
import FileServer.Proofs.Request.Scanning
import FileServer.Proofs.Request.Whole
import FileServer.Proofs.Response.Appending
import FileServer.Proofs.Response.Framing
import FileServer.Proofs.Storage.Access
import FileServer.Proofs.Table.Descriptors
import FileServer.Proofs.Table.Discipline
import FileServer.Proofs.Text.Encoding
import FileServer.Proofs.Text.Splitting
import FileServer.Proofs.Work.Calls
import FileServer.Proofs.Work.Crew
import FileServer.Proofs.Work.ExactlyOnce
import FileServer.Proofs.Work.FirstInFirstOut
import FileServer.Proofs.Work.Permits
import FileServer.Proofs.Work.QueueCalls
import FileServer.Report.Calendar
import FileServer.Report.Counters
import FileServer.Report.FieldPattern
import FileServer.Report.LogFile
import FileServer.Report.LogFilter
import FileServer.Report.LogLine
import FileServer.Report.LogSink
import FileServer.Report.Logger
import FileServer.Report.Tally
import FileServer.Request.Field
import FileServer.Request.Line
import FileServer.Request.Parser
import FileServer.Request.Target
import FileServer.Response.Head
import FileServer.Response.Status
import FileServer.ServerFailure
import FileServer.Startup
import FileServer.Storage.Buffer
import FileServer.Storage.FdMap
import FileServer.Storage.Slice
import FileServer.Table.Slot
import FileServer.Table.Slots
import FileServer.Text.Alphanumeric
import FileServer.Text.Ascii
import FileServer.Text.Basic
import FileServer.Text.Blank
import FileServer.Text.Decimal
import FileServer.Text.Literal
import FileServer.Text.Utf8
import FileServer.Work.Pool
import FileServer.Work.Queue
import FileServer.Work.Semaphore
import FileServer.Work.Task
import FileServer.Proofs.Report.Gregorian
import FileServer.Proofs.Report.Reckoning
import FileServer.Proofs.Response.Composition
import FileServer.Proofs.Work.Wakeups
