import CaseReport.Arguments
import CaseReport.Cases.Document
import CaseReport.Console
import CaseReport.Decimal.Shortest
import CaseReport.Diagnostic.Filter
import CaseReport.ExecutionLog
import CaseReport.Host
import CaseReport.Locations
import CaseReport.Main
import CaseReport.Program
import CaseReport.Reconciliation
import CaseReport.Report.File
import CaseReport.Run
import CaseReport.Settings
import CaseReport.Proofs.FileSystem.Entry
import CaseReport.Proofs.FileSystem.Directory
import CaseReport.Proofs.FileSystem.Sharing
import CaseReport.Proofs.FileSystem.Alike
import CaseReport.Proofs.Report.RoundTrip
import CaseReport.Proofs.Report.Replacement
import CaseReport.Proofs.Report.Updating
import CaseReport.Proofs.Report.Starting
import CaseReport.Proofs.Report.Stages
import CaseReport.Proofs.Report.Filing
import CaseReport.Proofs.Report.Sequence
import CaseReport.Proofs.Report.Grammar
import CaseReport.Proofs.Report.NormalForm
import CaseReport.Proofs.Report.Assignment
import CaseReport.Proofs.Report.Placement
import CaseReport.Proofs.Report.Permissions
import CaseReport.Proofs.Reconciliation.Judged
import CaseReport.Proofs.Reconciliation.Pass
import CaseReport.Proofs.Reconciliation.ClosedForm
import CaseReport.Proofs.Reconciliation.Fresh
import CaseReport.Proofs.Reconciliation.SetupFailure
import CaseReport.Proofs.Reconciliation.Progress
import CaseReport.Proofs.Reconciliation.Verdicts
import CaseReport.Proofs.Run.Steps
import CaseReport.Proofs.Run.EndToEnd
import CaseReport.Proofs.Run.Summary
import CaseReport.Proofs.Run.Inputs
import CaseReport.Proofs.Run.Precedence
import CaseReport.Proofs.Run.Endings
import CaseReport.Proofs.Run.Conclusion
import CaseReport.Proofs.Run.Rerun
import CaseReport.Proofs.Text.Lossy
import CaseReport.Proofs.ExecutionLog
import CaseReport.Proofs.Reconciliation.Refusals
import CaseReport.Proofs.Reconciliation.Repetition
import CaseReport.Proofs.Reconciliation.Growth
import CaseReport.Proofs.Arguments
import CaseReport.Proofs.Json.Grammar
import CaseReport.Proofs.Json.Lexemes
import CaseReport.Proofs.Json.Skipping
import CaseReport.Proofs.Cases.Grammar
import CaseReport.Proofs.Cases.Members
import CaseReport.Proofs.Cases.Document
import CaseReport.Proofs.Toml.Grammar
import CaseReport.Proofs.Toml.Texts
import CaseReport.Proofs.Toml.Values
import CaseReport.Proofs.Toml.Lines
import CaseReport.Proofs.Toml.ValueGrammar
import CaseReport.Proofs.Toml.PlainValues
import CaseReport.Proofs.Toml.LongTexts
import CaseReport.Proofs.Toml.Documents
import CaseReport.Proofs.Toml.Tables
import CaseReport.Proofs.Toml.Parts
import CaseReport.Proofs.Toml.Validity
import CaseReport.Proofs.Settings.Grammar
import CaseReport.Proofs.Settings.Spellings
