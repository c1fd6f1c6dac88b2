import SqlRenewal.Text.Utf8
import SqlRenewal.Text.Lines
import SqlRenewal.Renewal.Report
import SqlRenewal.Findings
import SqlRenewal.Routine.Kind
import SqlRenewal.Routine.Identity
import SqlRenewal.Json.Printer
import SqlRenewal.Json.Reader
import SqlRenewal.Files.Tree
import SqlRenewal.Work.Cleanup
import SqlRenewal.Settings.Basic
import SqlRenewal.Settings.Dotenv
import SqlRenewal.Store.Opening
import SqlRenewal.CommandLine.Switch
import SqlRenewal.Main
import SqlRenewal.Proofs.Text.Letters
import SqlRenewal.Proofs.Text.Words
import SqlRenewal.Proofs.Raise.Keyword
import SqlRenewal.Proofs.Raise.Depth
import SqlRenewal.Proofs.Throw.Tokens
import SqlRenewal.Proofs.Raise.BareLine
import SqlRenewal.Proofs.Raise.Occurrence
import SqlRenewal.Proofs.Throw.Written
import SqlRenewal.Proofs.Raise.Statement
import SqlRenewal.Proofs.Raise.Decision
import SqlRenewal.Proofs.Renewal.Pass
import SqlRenewal.Proofs.Renewal.Quiet
import SqlRenewal.Proofs.Substitution.Swap
import SqlRenewal.Proofs.Substitution.Aligned
import SqlRenewal.Proofs.Substitution.Reflection
import SqlRenewal.Proofs.Substitution.Hits
import SqlRenewal.Proofs.Substitution.Scan
import SqlRenewal.Proofs.Substitution.Clear
import SqlRenewal.Proofs.Renewal.Firm
import SqlRenewal.Proofs.Renewal.Stability
import SqlRenewal.Proofs.Substitution.Settled
import SqlRenewal.Proofs.Substitution.CommentMark
import SqlRenewal.Proofs.Substitution.OperatorRun
import SqlRenewal.Proofs.Substitution.Convergence
import SqlRenewal.Proofs.Renewal.Idempotence
import SqlRenewal.Proofs.Renewal.Provenance
import SqlRenewal.Proofs.Ledger.Transaction
import SqlRenewal.Proofs.Ledger.Stack
import SqlRenewal.Proofs.Work.Perform
import SqlRenewal.Proofs.Work.Calls
import SqlRenewal.Proofs.Work.Holding
import SqlRenewal.Proofs.Work.Change
import SqlRenewal.Proofs.Work.UndoStack
import SqlRenewal.Proofs.Renewal.Account
import SqlRenewal.Proofs.Ledger.Chronicle
import SqlRenewal.Proofs.Work.Bookkeeping
import SqlRenewal.Proofs.Files.Tree
import SqlRenewal.Proofs.Store.Folder
import SqlRenewal.Proofs.Renewal.Alphabet
import SqlRenewal.Proofs.Work.BackupFirst
import SqlRenewal.Proofs.Files.Directory
import SqlRenewal.Proofs.Routine.Naming
import SqlRenewal.Proofs.Store.Listing
import SqlRenewal.Proofs.Work.Sweep
import SqlRenewal.Proofs.Work.Isolation
import SqlRenewal.Proofs.Store.Beside
import SqlRenewal.Proofs.Work.Newcomer
import SqlRenewal.Proofs.Ledger.Timeless
import SqlRenewal.Proofs.Work.Keeping
import SqlRenewal.Proofs.Work.Matching
import SqlRenewal.Proofs.Work.Errands
import SqlRenewal.Proofs.Store.Stock
import SqlRenewal.Proofs.Work.Interchange
import SqlRenewal.Proofs.Work.Restoration
import SqlRenewal.Proofs.Work.Forecast
import SqlRenewal.Proofs.Renewal.Detection
import SqlRenewal.Proofs.Files.Standing
import SqlRenewal.Proofs.Store.Databases
import SqlRenewal.Proofs.CommandLine.Effect
import SqlRenewal.Proofs.CommandLine.Order
import SqlRenewal.Proofs.CommandLine.Switches
import SqlRenewal.Proofs.CommandLine.History
import SqlRenewal.Proofs.CommandLine.Archive
import SqlRenewal.Proofs.Work.TakingBack
import SqlRenewal.Proofs.Work.Flags
import SqlRenewal.Proofs.Text.Numerals
import SqlRenewal.Proofs.Raise.Grammar
import SqlRenewal.Proofs.Raise.Offsets
import SqlRenewal.Proofs.Throw.ListReading
import SqlRenewal.Proofs.Renewal.Parentheses
import SqlRenewal.Proofs.Renewal.ReadBack
import SqlRenewal.Proofs.Renewal.Rounds
import SqlRenewal.Proofs.Work.Accounting
import SqlRenewal.Proofs.Json.Arrangement
import SqlRenewal.Proofs.Json.ReadBack
import SqlRenewal.Proofs.Files.Writing
import SqlRenewal.Proofs.Work.Export
import SqlRenewal.Proofs.Work.Cleaning
import SqlRenewal.Proofs.Settings.Assignments
import SqlRenewal.Proofs.CommandLine.Precedence
import SqlRenewal.Proofs.Settings.WrittenLines
import SqlRenewal.Proofs.Routine.Qualified
import SqlRenewal.Proofs.Routine.FirstDefinition
import SqlRenewal.Proofs.Routine.KindKept
import SqlRenewal.Proofs.Raise.Matching
import SqlRenewal.Proofs.Throw.Pieces
import SqlRenewal.Proofs.Throw.Toggling
