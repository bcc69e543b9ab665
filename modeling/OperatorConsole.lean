import OperatorConsole.Calendar.Reading
import OperatorConsole.Console
import OperatorConsole.Options.Notation
import OperatorConsole.Report.Table
import OperatorConsole.Proofs.BuiltIn.DataQuery
import OperatorConsole.Proofs.Options.Checked
import OperatorConsole.Proofs.Options.Validated
import OperatorConsole.Proofs.Query.Grammar
import OperatorConsole.Proofs.Runner.Clearance
import OperatorConsole.Proofs.Sql.Prepared
import OperatorConsole.Proofs.Command.Checked
import OperatorConsole.Proofs.Registry.Calls
import OperatorConsole.Proofs.Registry.Order
import OperatorConsole.Proofs.Registry.Kept
import OperatorConsole.Proofs.Registry.Frozen
import OperatorConsole.Proofs.Action.Told
import OperatorConsole.Proofs.Report.Shown
import OperatorConsole.Proofs.Runner.Observed
import OperatorConsole.Proofs.Runner.Audited
import OperatorConsole.Proofs.Runner.Catalog
import OperatorConsole.Proofs.Runner.Undeclared
import OperatorConsole.Proofs.Query.VerbLanguage
import OperatorConsole.Proofs.Query.Phases
import OperatorConsole.Proofs.Query.Denylist
import OperatorConsole.Proofs.Number.Order
import OperatorConsole.Proofs.Number.Rounding
import OperatorConsole.Proofs.Number.Decimal
import OperatorConsole.Proofs.ExecutionLog.History
import OperatorConsole.Proofs.ExecutionLog.Kept
import OperatorConsole.Proofs.ExecutionLog.Setup
import OperatorConsole.Proofs.Config.Retention
import OperatorConsole.Proofs.Config.Layered
import OperatorConsole.Proofs.BuiltIn.Pruning
import OperatorConsole.Proofs.BuiltIn.Requests
import OperatorConsole.Proofs.Console.BuiltIns
import OperatorConsole.Proofs.Sql.Bound
import OperatorConsole.Proofs.Sql.Columns
import OperatorConsole.Proofs.Sql.Outline
import OperatorConsole.Proofs.Query.Lookup
import OperatorConsole.Proofs.Query.SingleRow
import OperatorConsole.Proofs.Query.Paging
import OperatorConsole.Proofs.Query.Writing
import OperatorConsole.Proofs.Query.LetterCase
import OperatorConsole.Proofs.Runner.Grouped
import OperatorConsole.Proofs.Discovery.Found
import OperatorConsole.Proofs.ExecutionLog.Listing
import OperatorConsole.Proofs.ExecutionLog.Options
import OperatorConsole.Proofs.Report.Plain
import OperatorConsole.Proofs.Options.Filled
import OperatorConsole.Proofs.Options.Written
import OperatorConsole.Proofs.Sql.Scoped
import OperatorConsole.Proofs.Query.Keyed
import OperatorConsole.Proofs.Config.Shaped
import OperatorConsole.Proofs.Query.ClockText
import OperatorConsole.Proofs.Runner.Offered
import OperatorConsole.Proofs.Report.Aligned
