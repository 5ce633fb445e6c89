import LedgerLoad.Cli.Args
import LedgerLoad.Cli.Session
import LedgerLoad.Cli.Shutdown
import LedgerLoad.Cli.SocketAddress
import LedgerLoad.Cli.Usage
import LedgerLoad.Config
import LedgerLoad.Connector
import LedgerLoad.Database.Session
import LedgerLoad.Database.Sql
import LedgerLoad.Decimal.Binary
import LedgerLoad.Decimal.Places
import LedgerLoad.Decimal.Shortest
import LedgerLoad.Error
import LedgerLoad.EventStream.Decoder
import LedgerLoad.EventStream.Frame
import LedgerLoad.Json.Codec
import LedgerLoad.Json.Reader
import LedgerLoad.Json.Value
import LedgerLoad.Load.Accounts
import LedgerLoad.Load.Lifecycle
import LedgerLoad.Load.StreamWorkload
import LedgerLoad.Load.Supervision
import LedgerLoad.Load.Workload
import LedgerLoad.Load.World
import LedgerLoad.Main
import LedgerLoad.MockLedger.Feed
import LedgerLoad.MockLedger.Grpc
import LedgerLoad.MockLedger.Rest
import LedgerLoad.MockLedger.Service
import LedgerLoad.MockLedger.Tally
import LedgerLoad.Monitor
import LedgerLoad.Monitor.Loop
import LedgerLoad.Rehearsal.Ledger
import LedgerLoad.Rehearsal.Plan
import LedgerLoad.Rehearsal.Results
import LedgerLoad.Rehearsal.Script
import LedgerLoad.Rehearsal.Solo
import LedgerLoad.Rehearsal.Stage
import LedgerLoad.Report
import LedgerLoad.Report.Json
import LedgerLoad.Sample
import LedgerLoad.Sink
import LedgerLoad.Statistics
import LedgerLoad.StopSignal
import LedgerLoad.Target.Client
import LedgerLoad.Target.Event
import LedgerLoad.Target.Grpc
import LedgerLoad.Target.Rest
import LedgerLoad.Text.Blank
import LedgerLoad.Text.Charset
import LedgerLoad.Text.Digits
import LedgerLoad.Text.Fields
import LedgerLoad.Text.Number
import LedgerLoad.Text.Percent
import LedgerLoad.Text.Quoted
import LedgerLoad.Text.SmallForm
import LedgerLoad.Text.Unprinted
import LedgerLoad.Text.Utf8
import LedgerLoad.Time.Human
import LedgerLoad.Time.Parse
import LedgerLoad.Time.Span
import LedgerLoad.Time.Stamp
import LedgerLoad.Url.Address
import LedgerLoad.Url.Basic
import LedgerLoad.Url.Domain
import LedgerLoad.Url.Parse
import LedgerLoad.Proofs.TextParts
import LedgerLoad.Proofs.DurationTexts
import LedgerLoad.Proofs.RetrySchedules
import LedgerLoad.Proofs.PoolCustody
import LedgerLoad.Proofs.Transactions
import LedgerLoad.Proofs.StoredRows
import LedgerLoad.Proofs.RunnerSchedules
import LedgerLoad.Proofs.RunnerLifecycle
import LedgerLoad.Proofs.RunnerConservation
import LedgerLoad.Proofs.RunnerWinding
import LedgerLoad.Proofs.RunnerCancellation
import LedgerLoad.Proofs.RunnerPunctuality
import LedgerLoad.Proofs.RunnerFaults
import LedgerLoad.Proofs.RunnerDeadlines
import LedgerLoad.Proofs.RunnerResults
import LedgerLoad.Proofs.RunnerRejections
import LedgerLoad.Proofs.SinkFigures
import LedgerLoad.Proofs.ReportSnapshots
import LedgerLoad.Proofs.RunnerInduction
import LedgerLoad.Proofs.RunnerSubscriptions
import LedgerLoad.Proofs.RunnerWindow
import LedgerLoad.Proofs.StopFamilies
import LedgerLoad.Proofs.EventChunks
import LedgerLoad.Proofs.JsonRoundTrip
import LedgerLoad.Proofs.Utf8RoundTrip
import LedgerLoad.Proofs.EventRoundTrip
import LedgerLoad.Proofs.RunnerOutcomes
import LedgerLoad.Proofs.LedgerSubscriptions
import LedgerLoad.Proofs.DatabaseSessions
import LedgerLoad.Proofs.StampTexts
import LedgerLoad.Proofs.JsonParts
import LedgerLoad.Proofs.ReportRoundTrip
import LedgerLoad.Proofs.Magnitudes
import LedgerLoad.Proofs.MonitorReadings
import LedgerLoad.Proofs.RunnerSupervision
import LedgerLoad.Proofs.PrintedLines
import LedgerLoad.Proofs.RehearsedRuns
import LedgerLoad.Proofs.ReportTallies
import LedgerLoad.Proofs.ProgramOutputs
import LedgerLoad.Proofs.WholeDoubles
import LedgerLoad.Proofs.LatencyFigures
import LedgerLoad.Proofs.RunnerPace
import LedgerLoad.Proofs.RunnerClosedLoop
import LedgerLoad.Proofs.StreamRecords
import LedgerLoad.Proofs.StreamTraces
import LedgerLoad.Proofs.RunnerStreams
import LedgerLoad.Proofs.BackoffDelays
import LedgerLoad.Proofs.DurationGrammar
import LedgerLoad.Proofs.PercentRoundTrip
import LedgerLoad.Proofs.RequestPaths
import LedgerLoad.Proofs.ExportedMetrics
import LedgerLoad.Proofs.RequestCounts
import LedgerLoad.Proofs.RunnerReplies
import LedgerLoad.Proofs.LedgerBalances
