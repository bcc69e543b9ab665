import OperatorConsole.Command.Basic

/-!
# Audit

Every attempt to run a command leaves an entry.  A sink takes entries in; a store keeps
them and can drop old ones.
-/

namespace OperatorConsole

structure AuditEntry where
  command : String
  options : Value
  user : Operator
  exitCode : Number
  /-- The output as plain text. -/
  output : String
  elapsedSeconds : Number
  environment : String
  startedAt : Number
  completedAt : Number
  deriving DecidableEq, Repr

def AuditEntry.toValue (e : AuditEntry) : Value :=
  .ofFields [("command", .text e.command), ("options", e.options),
    ("user", e.user.toValue), ("exitCode", .number e.exitCode), ("output", .text e.output),
    ("elapsedSeconds", .number e.elapsedSeconds), ("environment", .text e.environment),
    ("startedAt", .number e.startedAt), ("completedAt", .number e.completedAt)]

abbrev AuditSink (σ : Type) :=
  AuditEntry -> Action σ Unit

/-- Retention of stored entries; both operations answer how many there are. -/
structure AuditStore (σ : Type) where
  countOlderThan : Number -> Action σ Number
  deleteOlderThan : Number -> Action σ Number

end OperatorConsole
