import OperatorConsole.Config.Layer
import OperatorConsole.Failure

/-!
# Environment variables

Some settings can be given in environment variables.  A variable that is not set gives
none, and neither does blank text, except that a switch with blank text is off.
-/

namespace OperatorConsole

abbrev Variables := List (String × String)

namespace Variables

def onWords : List String :=
  ["1", "true", "yes", "on"]

def offWords : List String :=
  ["0", "false", "no", "off", ""]

def switch? (s : String) : Option Bool :=
  let word := Text.lowerString (Text.trimString s)
  if onWords.contains word then some true
  else if offWords.contains word then some false
  else none

def refusal (name s kind : String) : Failure :=
  .validation (.invalidValue name (some s!"'{s}' is not a {kind}"))

def readSwitch (given : Variables) (name : String) : Except Failure (Option Bool) :=
  match given.lookup name with
  | none => .ok none
  | some s =>
      match switch? s with
      | some b => .ok (some b)
      | none => .error (refusal name s "boolean")

def readNumber (given : Variables) (name : String) : Except Failure (Option Number) :=
  match given.lookup name with
  | none => .ok none
  | some s =>
      if Text.isBlankString s then .ok none
      else
        match (Value.text s).numeric? with
        | some x => .ok (some x)
        | none => .error (refusal name s "number")

def readText? (given : Variables) (name : String) : Option String :=
  match given.lookup name with
  | none => none
  | some s => if Text.isBlankString s then none else some (Text.trimString s)

/-- The environment's name; the console's own variable comes first. -/
def environment? (given : Variables) : Option String :=
  match given.readText? "OPSDECK_ENV" with
  | some name => some name
  | none => given.readText? "NODE_ENV"

def layer (given : Variables) : Except Failure Layer := do
  let enabled ← given.readSwitch "OPSDECK_ENABLED"
  let time ← given.readNumber "OPSDECK_MAX_EXECUTION_TIME"
  let logExecutions ← given.readSwitch "OPSDECK_LOG_EXECUTIONS"
  let logging ← given.readSwitch "OPSDECK_DB_LOGGING"
  return {
    settings :=
      Fields.ofOption "enabled" (enabled.map .bool) ++
        Fields.ofOption "environment" (given.environment?.map .text) ++
        Fields.ofOption "maxExecutionTimeSeconds" (time.map .number) ++
        Fields.ofOption "logExecutions" (logExecutions.map .bool)
    logging :=
      Fields.ofOption "enabled" (logging.map .bool) ++
        Fields.ofOption "path" ((given.readText? "OPSDECK_DB_PATH").map .text) }

end Variables

end OperatorConsole
