import UsageReport.Fault.Construct
import UsageReport.Logging.Template
import UsageReport.Main
import UsageReport.Provider.Script
import UsageReport.Proofs.ErrorLog.Secrets
import UsageReport.Proofs.Report.Containment
import UsageReport.Proofs.Report.Document
import UsageReport.Proofs.Report.FaultLog
import UsageReport.Proofs.Report.Trail
import UsageReport.Proofs.Report.Warnings
import UsageReport.Proofs.Report.Request
import UsageReport.Proofs.Settings.Bounds
import UsageReport.Proofs.Files.Directories
import UsageReport.Proofs.Settings.Saving
import UsageReport.Proofs.Text.Utf8
import UsageReport.Proofs.Settings.Loading
import UsageReport.Proofs.Settings.RoundTrip
import UsageReport.Proofs.Settings.Marker
import UsageReport.Promise.Exchange
import UsageReport.Proofs.Promise.Runs
import UsageReport.Proofs.Promise.Uses
import UsageReport.Proofs.Client.Lifecycle
import UsageReport.Proofs.Aggregator.Accounting
import UsageReport.Proofs.Provider.Fragment
import UsageReport.Proofs.Report.Standard
import UsageReport.Metrics.Operation
import UsageReport.Proofs.Metrics.History
import UsageReport.Proofs.Aggregator.Tracing
import UsageReport.Proofs.ErrorLog.Stamps
import UsageReport.Proofs.Report.Parallel
import UsageReport.Proofs.Client.RegistrationOrder
import UsageReport.Proofs.Aggregator.Lifecycle
import UsageReport.Proofs.ErrorLog.Normalized
import UsageReport.Proofs.Metrics.Snapshot
import UsageReport.Proofs.Metrics.FailedCalls
import UsageReport.Envelope.Operation
import UsageReport.Proofs.Envelope.Runs
import UsageReport.Proofs.Envelope.BrokenEntries
import UsageReport.Proofs.Promise.Done
import UsageReport.Proofs.Aggregator.LogLines
import UsageReport.Proofs.Trace
import UsageReport.Proofs.Redaction.Shape
import UsageReport.Proofs.Metrics.Percentile
