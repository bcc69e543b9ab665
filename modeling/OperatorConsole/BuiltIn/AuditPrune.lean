import OperatorConsole.Audit
import OperatorConsole.Calendar
import OperatorConsole.Report.Layout

/-!
# Pruning the execution log

`audit:prune` removes entries that are older than a number of days.  It only counts them
unless the operator switches the dry run off.
-/

namespace OperatorConsole

structure AuditPrune (σ : Type) where
  store : AuditStore σ
  /-- How many days entries are kept if the options do not say. -/
  retentionDays : Number
  clock : Action σ Number

namespace AuditPrune

def defaultRetention : Number :=
  90

def dayRules : List OptionRule :=
  [⟨.integer, none⟩, ⟨.min, some (.number 1)⟩, ⟨.max, some (.number 3650)⟩]

def description (retentionDays : Number) : Value :=
  .ofFields [("name", .text "audit:prune"), ("displayName", .text "Prune Execution Log"),
    ("description", .text "Delete execution log entries older than the given number of days"),
    ("category", .text "Maintenance"), ("riskLevel", .text RiskLevel.medium.word),
    ("explicitConfirmation", .bool true),
    ("options", .list [
      .ofFields [("key", .text "days"), ("label", .text "Keep Entries Newer Than (Days)"),
        ("kind", .text OptionKind.text.word), ("numeric", .bool true),
        ("default", .text retentionDays.toText),
        ("rules", .list (dayRules.map OptionRule.toValue)),
        ("help", .text "Entries older than this many days are removed")],
      .ofFields [("key", .text "dry_run"), ("label", .text "Dry Run (Preview Only)"),
        ("kind", .text OptionKind.boolean.word), ("default", .bool true),
        ("help", .text "Count the entries without deleting them")]])]

def checkedWords : List String :=
  ["1", "true", "yes", "on"]

def isChecked : Value -> Bool
  | .text s => checkedWords.contains (Text.lowerString (Text.trimString s))
  | .bool b => b
  | .number x => x.equals 1
  | _ => false

def daysOf (command : AuditPrune σ) (v : Value) : Number :=
  v.numeric?.getD command.retentionDays

def cutoff (now days : Number) : Number :=
  now.sub (days.mul (Number.ofInt Calendar.dayMs))

def execute (command : AuditPrune σ) (values : Value) : Action σ CommandResult := do
  let days := command.daysOf (← Action.settle (Failure.answerOf values "days"))
  let dryRun := isChecked (← Action.settle (Failure.answerOf values "dry_run"))
  let now ← command.clock
  let cutoff := cutoff now days
  let before ← Action.settle (Calendar.displayText cutoff)
  let title := "📊 Execution log cleanup"
  let range := s!"Entries older than {days.toText} days (before {before})"
  if dryRun then
    let count ← command.store.countOlderThan cutoff
    return .success (Report.page [title, "🔍 DRY RUN - no entries will be deleted", range,
      s!"Would delete: {count.toText} entries"])
  else
    let count ← command.store.deleteOlderThan cutoff
    return .success (Report.page [title, range, s!"✅ Deleted: {count.toText} entries"])

def candidate (command : AuditPrune σ) : Candidate σ where
  described := fun _ => description command.retentionDays
  validate := some (Candidate.validateOptions fun _ => description command.retentionDays)
  execute := some fun values _ => do
    let result ← command.execute values
    return some result
  supply := fun _ => pure []

end AuditPrune

end OperatorConsole
