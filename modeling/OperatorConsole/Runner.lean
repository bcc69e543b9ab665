import OperatorConsole.Audit
import OperatorConsole.Command.Registry
import OperatorConsole.Gate
import OperatorConsole.Report.Execution
import OperatorConsole.Report.Plain

/-!
# Runner

The runner runs commands on behalf of an operator.

## A run

A run is refused when the runner is disabled or the command is not registered.  Any
other run is an attempt: the gate decides whether it may go on, defaults are filled in,
the command validates the options and executes with exactly those options.  Whatever
happens to an attempt, it ends with a footer, an exit code and one audit entry.

A failure of the command becomes an error in the footer.  A sink that fails is noted in
the journal and changes nothing else.  Only a failure that cannot be put into words ends
the whole run.
-/

namespace OperatorConsole

structure RunRequest where
  commandName : String
  options : Value
  /-- The operator's answer to the prompt for this command; only `true` confirms it. -/
  confirmed : Value
  deriving DecidableEq, Repr

def RunRequest.isConfirmed (request : RunRequest) : Bool :=
  request.confirmed = .bool true

structure RunResponse where
  output : String
  exitCode : Number
  elapsedSeconds : Number
  deriving DecidableEq, Repr

def RunResponse.toValue (r : RunResponse) : Value :=
  .ofFields [("output", .text r.output), ("exitCode", .number r.exitCode),
    ("elapsedSeconds", .number r.elapsedSeconds)]

structure Runner (σ : Type) where
  registry : Registry σ
  gate : Gate
  environment : String
  enabled : Bool
  /-- Whether attempts are reported to the sink. -/
  logExecutions : Bool
  sink : Option (AuditSink σ)
  /-- Executions that take longer are noted as slow. -/
  maxExecutionTimeSeconds : Option Number
  timer : Action σ Number

structure Attempt where
  commandName : String
  options : Value
  user : Operator
  startedAt : Number
  deriving DecidableEq, Repr

/-- How an attempt ended: what there is to show, and an exit code or an error. -/
structure Ending where
  body : String
  exitCode : Number
  error : Option String
  deriving DecidableEq, Repr

namespace Ending

def failed (body message : String) : Ending :=
  ⟨body, 1, some message⟩

/-- An error makes the exit code one that does not stand for success. -/
def effectiveExitCode (ending : Ending) : Number :=
  if ending.error.isSome && ending.exitCode.equals 0 then 1 else ending.exitCode

end Ending

namespace Runner

/-! ## Ends of a run -/

def record (runner : Runner σ) (entry : AuditEntry) : Action σ Unit := do
  match runner.logExecutions, runner.sink with
  | true, some sink =>
      match ← Action.attempt (sink entry) with
      | .ok _ => return
      | .error failure =>
          let message ← Action.messageOf failure
          Action.error "Failed to record execution"
            [("name", .text entry.command), ("error", .text message)]
  | _, _ => return

def noteSlow (runner : Runner σ) (commandName : String) (elapsed : Number) : Action σ Unit := do
  match runner.maxExecutionTimeSeconds with
  | some limit =>
      if Number.lt limit elapsed then
        Action.warn "Command exceeded the maximum execution time"
          [("name", .text commandName), ("elapsedSeconds", .number elapsed),
            ("maxExecutionTimeSeconds", .number limit)]
  | none => return

def finish (runner : Runner σ) (attempt : Attempt) (ending : Ending) : Action σ RunResponse := do
  let completedAt ← runner.timer
  let elapsed := Calendar.elapsedSeconds attempt.startedAt completedAt
  let footer ← Action.settle <|
    Report.Footer.text ⟨completedAt, elapsed, ending.exitCode, ending.error⟩
  let output := ending.body ++ footer
  runner.noteSlow attempt.commandName elapsed
  runner.record
    { command := attempt.commandName, options := attempt.options, user := attempt.user
      exitCode := ending.effectiveExitCode, output := Report.plainText output
      elapsedSeconds := elapsed, environment := runner.environment
      startedAt := attempt.startedAt, completedAt := completedAt }
  return ⟨output, ending.effectiveExitCode, elapsed⟩

/-- Ends a run that never became an attempt. -/
def refuse (runner : Runner σ) (name : String) (failure : CommandFailure) (startedAt : Number) :
    Action σ RunResponse := do
  let completedAt ← runner.timer
  let elapsed := Calendar.elapsedSeconds startedAt completedAt
  Action.warn "Command refused" [("name", .text name), ("reason", .text failure.reason)]
  let footer ← Action.settle <|
    Report.Footer.text ⟨completedAt, elapsed, 1, some (failure.message name)⟩
  return ⟨footer, 1, elapsed⟩

/-! ## Runs -/

def noResult : Failure :=
  .fault .wrongType "Cannot read properties of null (reading 'output')"

/-- Validates the options and executes the command with them. -/
def perform (command : Command σ) (options : Value) (context : CommandContext) :
    Action σ CommandResult := do
  command.validate options
  match ← command.execute options context with
  | some result => return result
  | none => throw noResult

def reportFailure (runner : Runner σ) (attempt : Attempt) (header : String) (failure : Failure) :
    Action σ RunResponse := do
  let message ← Action.messageOf failure
  Action.debug "Command failed" [("name", .text attempt.commandName), ("error", .text message)]
  runner.finish attempt (.failed header message)

def carryOut (runner : Runner σ) (command : Command σ) (attempt : Attempt) :
    Action σ RunResponse := do
  let header ← Action.settle <|
    Report.Header.text ⟨command.name, attempt.user.shownName, runner.environment,
      attempt.startedAt, attempt.options.fields⟩
  let context := ⟨runner.environment, attempt.user, attempt.startedAt⟩
  match ← Action.attempt (perform command attempt.options context) with
  | .ok result => runner.finish attempt ⟨header ++ result.output, result.exitCode, result.error⟩
  | .error failure => runner.reportFailure attempt header failure

def decisionOn (runner : Runner σ) (command : Command σ) : Decision :=
  runner.gate.decide command.descriptor.riskLevel command.descriptor.explicitConfirmation
    runner.environment

def run (runner : Runner σ) (request : RunRequest) (user : Operator) :
    Action σ RunResponse := do
  let startedAt ← runner.timer
  if !runner.enabled then runner.refuse request.commandName .disabled startedAt
  else
    match runner.registry.get? request.commandName with
    | none => runner.refuse request.commandName .notFound startedAt
    | some command =>
        let attempt : Attempt := ⟨command.name, request.options, user, startedAt⟩
        let decision := runner.decisionOn command
        if !decision.eligible then
          Action.warn "Command not eligible"
            [("name", .text command.name), ("reasons", .list (decision.reasons.map .text))]
          runner.finish attempt
            (.failed "" (CommandFailure.message command.name (.notEligible runner.environment)))
        else if decision.requiresConfirmation && !request.isConfirmed then
          runner.finish attempt
            (.failed "" (CommandFailure.message command.name .confirmationRequired))
        else
          let schema := command.descriptor.options
          let values ← Action.settle (Options.given request.options schema)
          let options := Options.applyDefaults values schema
          runner.carryOut command { attempt with options := options.toValue }

/-! ## Catalog -/

def eligibleCommands (gate : Gate) (registry : Registry σ) (environment : String) :
    List (Command σ) :=
  registry.commands.filter fun c => gate.isEligible c.descriptor.riskLevel environment

/-- The commands that may run here, with the confirmation that they need here. -/
def catalog (runner : Runner σ) : Action σ (List CatalogEntry) :=
  (eligibleCommands runner.gate runner.registry runner.environment).mapM fun c =>
    c.catalogEntry (runner.decisionOn c).requiresConfirmation

/-- Keys in the order in which a record keeps its fields: array indices first, ascending. -/
def arrange (groups : List (String × List α)) : List (String × List α) :=
  let indexed := groups.filterMap fun group => (Fields.index? group.1).map fun n => (n, group)
  (indexed.mergeSort fun a b => a.1 ≤ b.1).map Prod.snd ++
    groups.filter fun group => (Fields.index? group.1).isNone

/-- Whether a category takes entries: not if its name is one that every record answers. -/
def isUsableCategory (category : String) : Bool :=
  (Record.empty.get category).isAbsent

def unusableCategory : Failure :=
  .fault .wrongType "grouped[entry.category].push is not a function"

def groupedCatalog (runner : Runner σ) : Action σ (List (String × List CatalogEntry)) := do
  let entries ← runner.catalog
  if entries.any fun e => !isUsableCategory e.category then throw unusableCategory
  else
    return arrange (entries.foldl (fun groups e => Registry.addToGroup e.category e groups) [])

end Runner

end OperatorConsole
