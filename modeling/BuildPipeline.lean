import BuildPipeline.Cluster.Api
import BuildPipeline.Cluster.Client
import BuildPipeline.Cluster.Memory
import BuildPipeline.Cluster.Pod
import BuildPipeline.CommandLine.Arguments
import BuildPipeline.CommandLine.Command
import BuildPipeline.CommandLine.Program
import BuildPipeline.Decimal.Binary
import BuildPipeline.Decimal.Layout
import BuildPipeline.Decimal.Reading
import BuildPipeline.Decimal.Shortest
import BuildPipeline.Decimal.Whole
import BuildPipeline.Digest.Sha256
import BuildPipeline.Document.Json.Reader
import BuildPipeline.Document.Json.Writer
import BuildPipeline.Document.Text
import BuildPipeline.Document.Value
import BuildPipeline.Document.Yaml.Block
import BuildPipeline.Document.Yaml.Building
import BuildPipeline.Document.Yaml.Cursor
import BuildPipeline.Document.Yaml.Kind
import BuildPipeline.Document.Yaml.Merge
import BuildPipeline.Document.Yaml.Node
import BuildPipeline.Document.Yaml.Plain
import BuildPipeline.Document.Yaml.Quotation
import BuildPipeline.Document.Yaml.Scalar
import BuildPipeline.Document.Yaml.Stamp
import BuildPipeline.Document.Yaml.Structure
import BuildPipeline.Document.Yaml.Tag
import BuildPipeline.Document.Yaml.Token
import BuildPipeline.Document.Yaml.Writer
import BuildPipeline.Error.Chain
import BuildPipeline.Error.Failure
import BuildPipeline.Error.Reason
import BuildPipeline.Execution.Context
import BuildPipeline.Execution.Coordinator
import BuildPipeline.Execution.Environment
import BuildPipeline.Execution.Result
import BuildPipeline.Files.Tree
import BuildPipeline.Graph.Basic
import BuildPipeline.Graph.Build
import BuildPipeline.Graph.Cycle
import BuildPipeline.Graph.Inputs
import BuildPipeline.Graph.Order
import BuildPipeline.Job.Basic
import BuildPipeline.Main
import BuildPipeline.Parameter.Register
import BuildPipeline.Parameter.Resolution
import BuildPipeline.Proofs.Answer
import BuildPipeline.Proofs.Cluster.Bookkeeping
import BuildPipeline.Proofs.Cluster.Complaints
import BuildPipeline.Proofs.Cluster.Journal
import BuildPipeline.Proofs.Cluster.OwnPod
import BuildPipeline.Proofs.Cluster.PodTranscript
import BuildPipeline.Proofs.Cluster.Reply
import BuildPipeline.Proofs.Cluster.Retrying
import BuildPipeline.Proofs.Cluster.Settling
import BuildPipeline.Proofs.Document.Revision
import BuildPipeline.Proofs.Document.Shape
import BuildPipeline.Proofs.Document.Unambiguous
import BuildPipeline.Proofs.Document.Written
import BuildPipeline.Proofs.Error.Chain
import BuildPipeline.Proofs.Execution.Action
import BuildPipeline.Proofs.Execution.AfterAll
import BuildPipeline.Proofs.Execution.Cancellation
import BuildPipeline.Proofs.Execution.Chronicle
import BuildPipeline.Proofs.Execution.Course
import BuildPipeline.Proofs.Execution.Delivery
import BuildPipeline.Proofs.Execution.Discipline
import BuildPipeline.Proofs.Execution.Entry
import BuildPipeline.Proofs.Execution.Fate
import BuildPipeline.Proofs.Execution.Flight
import BuildPipeline.Proofs.Execution.Halt
import BuildPipeline.Proofs.Execution.Keeping
import BuildPipeline.Proofs.Execution.Leaving
import BuildPipeline.Proofs.Execution.Ledger
import BuildPipeline.Proofs.Execution.Loop
import BuildPipeline.Proofs.Execution.Naming
import BuildPipeline.Proofs.Execution.Outcome
import BuildPipeline.Proofs.Execution.Passage
import BuildPipeline.Proofs.Execution.Propagation
import BuildPipeline.Proofs.Execution.Publication
import BuildPipeline.Proofs.Execution.Readable
import BuildPipeline.Proofs.Execution.Report
import BuildPipeline.Proofs.Execution.SingleFile
import BuildPipeline.Proofs.Execution.Spread
import BuildPipeline.Proofs.Execution.Story
import BuildPipeline.Proofs.Execution.Tracking
import BuildPipeline.Proofs.Execution.Turn
import BuildPipeline.Proofs.Execution.Unwatched
import BuildPipeline.Proofs.Execution.WindingDown
import BuildPipeline.Proofs.Graph.Acyclic
import BuildPipeline.Proofs.Graph.Agreement
import BuildPipeline.Proofs.Graph.Closure
import BuildPipeline.Proofs.Graph.Coverage
import BuildPipeline.Proofs.Graph.Cycle
import BuildPipeline.Proofs.Graph.Inputs
import BuildPipeline.Proofs.Graph.Layer
import BuildPipeline.Proofs.Graph.Need
import BuildPipeline.Proofs.Graph.Order
import BuildPipeline.Proofs.Graph.Ordinary
import BuildPipeline.Proofs.Graph.Rearrangement
import BuildPipeline.Proofs.Graph.Search
import BuildPipeline.Proofs.Graph.Waiting
import BuildPipeline.Proofs.Graph.Wildcard
import BuildPipeline.Proofs.Job.Grammar
import BuildPipeline.Proofs.Job.Writing
import BuildPipeline.Proofs.Parameter.Access
import BuildPipeline.Proofs.Parameter.Declaration
import BuildPipeline.Proofs.Parameter.Lack
import BuildPipeline.Proofs.Parameter.Once
import BuildPipeline.Proofs.Release.Images
import BuildPipeline.Proofs.Release.LeftEmpty
import BuildPipeline.Proofs.Release.Mirror
import BuildPipeline.Proofs.Release.PodName
import BuildPipeline.Proofs.Release.Promotion
import BuildPipeline.Proofs.Release.PublicHost
import BuildPipeline.Proofs.Release.Reading
import BuildPipeline.Proofs.Release.Rehosting
import BuildPipeline.Proofs.Release.Reordering
import BuildPipeline.Proofs.Release.Selection
import BuildPipeline.Proofs.Release.Stream
import BuildPipeline.Proofs.Table
import BuildPipeline.Proofs.Task.BuildInputs
import BuildPipeline.Proofs.Task.Conflict
import BuildPipeline.Proofs.Task.Handing
import BuildPipeline.Proofs.Task.PlanGraph
import BuildPipeline.Proofs.Task.PlannedTests
import BuildPipeline.Proofs.Task.PodNames
import BuildPipeline.Proofs.Task.PodRun
import BuildPipeline.Proofs.Task.PromotionRun
import BuildPipeline.Proofs.Task.Raising
import BuildPipeline.Proofs.Task.Reproducible
import BuildPipeline.Proofs.Task.SiteRun
import BuildPipeline.Proofs.Task.TestParameters
import BuildPipeline.Proofs.Task.TestRun
import BuildPipeline.Proofs.Text.Cutting
import BuildPipeline.Proofs.Text.Sorting
import BuildPipeline.Proofs.Text.Trimming
import BuildPipeline.Rehearsal.Bench
import BuildPipeline.Rehearsal.Exchange
import BuildPipeline.Rehearsal.Watch
import BuildPipeline.Rehearsal.World
import BuildPipeline.Release.Configuration
import BuildPipeline.Release.Mirror
import BuildPipeline.Release.Naming
import BuildPipeline.Release.Promoted
import BuildPipeline.Release.Promotion
import BuildPipeline.Report.Console
import BuildPipeline.Report.Sink
import BuildPipeline.Settings.Basic
import BuildPipeline.Table
import BuildPipeline.Task.Basic
import BuildPipeline.Task.Plan
import BuildPipeline.Task.Run
import BuildPipeline.Task.Site
import BuildPipeline.Text.Base64
import BuildPipeline.Text.Basic
import BuildPipeline.Text.Case
import BuildPipeline.Text.Lines
import BuildPipeline.Text.PrintableTable
import BuildPipeline.Text.Quoted
import BuildPipeline.Time.Calendar
import BuildPipeline.Time.Instant
import BuildPipeline.Time.Moment
