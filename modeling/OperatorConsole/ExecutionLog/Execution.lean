import OperatorConsole.Audit
import OperatorConsole.Check
import OperatorConsole.Json.Document
import OperatorConsole.Json.Reader

/-!
# Executions

What the log keeps of an attempt to run a command.

## Options

The options are kept as the text of a JSON document.  Reading them back never fails:
text that is no document of options counts as none.

## Drafts

A draft is what comes in to be stored.  Some of its parts may be missing; the log takes
it only if it has those without which an execution makes no sense.
-/

namespace OperatorConsole

structure Execution where
  id : Nat
  command : String
  optionsText : Option String
  userId : Option String
  userName : Option String
  userEmail : Option String
  exitCode : Option Number
  output : Option String
  /-- Seconds, to two decimals. -/
  executionTime : Option Number
  environment : String
  ipAddress : Option String
  userAgent : Option String
  startedAt : Number
  completedAt : Option Number
  createdAt : Number
  deriving DecidableEq, Repr

namespace Execution

/-- The options that a text writes: a record of scalars. -/
def readOptions (optionsText : Option String) : Fields :=
  match optionsText.bind Json.parse? with
  | some document =>
      match (Check.map? Check.scalar document).result? with
      | some options => options.map fun option => (option.1, option.2.toValue)
      | none => []
  | none => []

def options (e : Execution) : Fields :=
  readOptions e.optionsText

def toValue (e : Execution) : Value :=
  let text := fun (s : Option String) => (s.map Value.text).getD .null
  let number := fun (x : Option Number) => (x.map Value.number).getD .null
  .ofFields [("id", .number (Number.ofNat e.id)), ("command", .text e.command),
    ("options", .ofFields e.options), ("userId", text e.userId), ("userName", text e.userName),
    ("userEmail", text e.userEmail), ("exitCode", number e.exitCode), ("output", text e.output),
    ("executionTime", number e.executionTime), ("environment", .text e.environment),
    ("ipAddress", text e.ipAddress), ("userAgent", text e.userAgent),
    ("startedAt", .number e.startedAt), ("completedAt", number e.completedAt),
    ("createdAt", .number e.createdAt)]

end Execution

/-! ## Drafts -/

structure ExecutionDraft where
  command : Option String
  options : Fields
  user : Operator
  exitCode : Option Number
  output : Option String
  elapsedSeconds : Number
  environment : Option String
  startedAt : Option Number
  completedAt : Option Number

namespace ExecutionDraft

def ofEntry (e : AuditEntry) : ExecutionDraft where
  command := some e.command
  options := e.options.fields
  user := e.user
  exitCode := some e.exitCode
  output := some e.output
  elapsedSeconds := e.elapsedSeconds
  environment := some e.environment
  startedAt := some e.startedAt
  completedAt := some e.completedAt

/-- A number as it is kept: none that has no value, and zero without a sign. -/
def kept (x : Number) : Option Number :=
  if x.isNaN then none else some (if x.equals 0 then 0 else x)

/-- Seconds to two decimals, a half going up. -/
def roundedSeconds (x : Number) : Number :=
  (x.mul 100).roundHalfUp.div 100

def missing (column : String) : StorageFailure :=
  .saveFailed "command execution"
    (some s!"NOT NULL constraint failed: command_executions.{column}")

def demand (column : String) : Option α -> Except StorageFailure α
  | some a => .ok a
  | none => .error (missing column)

/-- The execution that the draft becomes under an id. An execution counts as created
when it completed. -/
def toExecution (draft : ExecutionDraft) (id : Nat) : Except StorageFailure Execution := do
  if !Json.isWritable (.ofFields draft.options) then
    throw (.saveFailed "command execution" (some Json.unwritableText))
  let command ← demand "command" draft.command
  let environment ← demand "environment" draft.environment
  let startedAt ← demand "started_at" (draft.startedAt.bind kept)
  let createdAt ← demand "created_at" (draft.completedAt.bind kept)
  return {
    id := id
    command := command
    optionsText := Json.compact? (.ofFields draft.options)
    userId := draft.user.id
    userName := draft.user.name
    userEmail := draft.user.email
    exitCode := draft.exitCode.bind kept
    output := draft.output
    executionTime := kept (roundedSeconds draft.elapsedSeconds)
    environment := environment
    ipAddress := draft.user.ipAddress
    userAgent := draft.user.userAgent
    startedAt := startedAt
    completedAt := some createdAt
    createdAt := createdAt }

end ExecutionDraft

end OperatorConsole
