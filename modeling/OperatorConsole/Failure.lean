import OperatorConsole.Options.Rule
import OperatorConsole.Value.Text

/-!
# Failures

Everything that can end an operation early.  The console's own failures say what
went wrong and about what; a host program can add plain faults of its own and
may throw any value at all.

## Messages

`Failure.message` is the one place for the wording of the console's own failures.
A thrown value is reported by its text.  A value without a text cannot be reported: the
report itself fails, with `Failure.noText`.
-/

namespace OperatorConsole

inductive ValidationFailure where
  | missingRequired (field label : String)
  | ruleViolation (field : String) (rule : OptionRule)
  | invalidValue (field : String) (reason : Option String)
  deriving DecidableEq, Repr

inductive CommandFailure where
  | invalidCommand (issues : List String)
  | notFound
  | notEligible (environment : String)
  | confirmationRequired
  | disabled
  deriving DecidableEq, Repr

inductive QueryRejection where
  | disallowedVerb (verb : String)
  | disallowedPattern (pattern : String)
  | malformed (detail : String)
  deriving DecidableEq, Repr

inductive QueryFailure where
  | unknownEntityType (entityType : String)
  | evaluation (reason : String)
  /-- A failure with a message of its own. -/
  | other (message : String)
  deriving DecidableEq, Repr

inductive StorageFailure where
  | saveFailed (entity : String) (reason : Option String)
  | connectionClosed
  deriving DecidableEq, Repr

inductive FaultKind where
  | general
  | wrongType
  | outOfRange
  deriving DecidableEq, Repr

inductive Failure where
  | validation (failure : ValidationFailure)
  | command (name : String) (failure : CommandFailure)
  | rejected (rejection : QueryRejection)
  | query (failure : QueryFailure)
  | storage (failure : StorageFailure)
  /-- A foreign fault or value, wrapped; `origin` names the kind of the fault. -/
  | wrapped (message : String) (origin : Option FaultKind)
  | fault (kind : FaultKind) (message : String)
  | thrown (value : Value)
  deriving DecidableEq, Repr

namespace ValidationFailure

def message : ValidationFailure -> String
  | .missingRequired _ label => s!"Option '{label}' is required"
  | .ruleViolation field rule => rule.violation field
  | .invalidValue field none => s!"Invalid {field}"
  | .invalidValue field (some reason) =>
      if reason = "" then s!"Invalid {field}" else s!"Invalid {field}: {reason}"

def reason : ValidationFailure -> String
  | .missingRequired _ _ => "missing_required"
  | .ruleViolation _ _ => "rule_violation"
  | .invalidValue _ _ => "invalid_value"

def field : ValidationFailure -> String
  | .missingRequired field _ => field
  | .ruleViolation field _ => field
  | .invalidValue field _ => field

end ValidationFailure

namespace CommandFailure

def message (name : String) : CommandFailure -> String
  | .invalidCommand issues =>
      let label := if name = "" then "<unnamed>" else name
      s!"Command \"{label}\" is not a valid command: " ++ Text.joinStrings "; " issues
  | .notFound => s!"Command \"{name}\" is not registered."
  | .notEligible environment =>
      s!"Command \"{name}\" is not available in the {environment} environment."
  | .confirmationRequired =>
      s!"Command \"{name}\" requires confirmation before it can run."
  | .disabled => "The command runner is disabled."

def reason : CommandFailure -> String
  | .invalidCommand _ => "invalid_command"
  | .notFound => "not_found"
  | .notEligible _ => "not_eligible"
  | .confirmationRequired => "confirmation_required"
  | .disabled => "disabled"

end CommandFailure

namespace QueryRejection

def message : QueryRejection -> String
  | .disallowedVerb verb =>
      s!"Method '{verb}' is not allowed. Only read-only query methods are permitted."
  | .disallowedPattern _ =>
      "Query contains disallowed operations. Only read-only queries are allowed."
  | .malformed detail => s!"Query could not be parsed: {detail}"

def reason : QueryRejection -> String
  | .disallowedVerb _ => "disallowed_verb"
  | .disallowedPattern _ => "disallowed_pattern"
  | .malformed _ => "malformed"

/-- What the rejection is about, under its name. -/
def detail : QueryRejection -> String × String
  | .disallowedVerb verb => ("verb", verb)
  | .disallowedPattern pattern => ("pattern", pattern)
  | .malformed text => ("detail", text)

end QueryRejection

namespace QueryFailure

def message : QueryFailure -> String
  | .unknownEntityType entityType => s!"Entity type '{entityType}' does not exist."
  | .evaluation reason => s!"Query execution failed: {reason}"
  | .other text => text

def reason : QueryFailure -> String
  | .unknownEntityType _ => "unknown_entity_type"
  | _ => "evaluation_failed"

end QueryFailure

namespace StorageFailure

def message : StorageFailure -> String
  | .saveFailed entity none => s!"Failed to save {entity}"
  | .saveFailed entity (some reason) =>
      if reason = "" then s!"Failed to save {entity}" else s!"Failed to save {entity}: {reason}"
  | .connectionClosed => "Database connection is closed"

end StorageFailure

def FaultKind.text : FaultKind -> String
  | .general => "Error"
  | .wrongType => "TypeError"
  | .outOfRange => "RangeError"

namespace Failure

def noText : Failure :=
  .fault .wrongType "Cannot convert object to primitive value"

def textOf (v : Value) : Except Failure String :=
  match v.text? with
  | some text => .ok text
  | none => .error noText

/-- What becomes of asking a value that answers nothing. -/
def unanswered (v : Value) (name : String) : Failure :=
  .fault .wrongType s!"Cannot read properties of {v.kindName} (reading '{name}')"

/-- What a value answers to a name where it has to answer. -/
def answerOf (v : Value) (name : String) : Except Failure Value :=
  match Record.ofValue? v with
  | some r => .ok (r.get name)
  | none => .error (unanswered v name)

def message : Failure -> Except Failure String
  | .validation f => .ok f.message
  | .command name f => .ok (f.message name)
  | .rejected r => .ok r.message
  | .query f => .ok f.message
  | .storage f => .ok f.message
  | .wrapped text _ => .ok text
  | .fault _ text => .ok text
  | .thrown v => textOf v

def isOwn : Failure -> Bool
  | .fault _ _ => false
  | .thrown _ => false
  | _ => true

def isValidation : Failure -> Bool
  | .validation _ => true
  | _ => false

def isCommand : Failure -> Bool
  | .command _ _ => true
  | _ => false

def isRejection : Failure -> Bool
  | .rejected _ => true
  | _ => false

def isQueryFailure : Failure -> Bool
  | .query _ => true
  | _ => false

def unexpected : String :=
  "An unexpected error occurred"

/-- The failure itself if it is the console's own, else one that stands for it;
the fallback words a fault without a message. -/
def wrap (fallback : String) (failure : Failure) : Except Failure Failure :=
  match failure with
  | .fault kind text => .ok (.wrapped (if text = "" then fallback else text) (some kind))
  | .thrown v => do
      let text ← textOf v
      return .wrapped (if text = "" then fallback else text) none
  | own => .ok own

/-! ## Description -/

def kind : Failure -> String
  | .validation _ => "ValidationError"
  | .command _ _ => "CommandError"
  | .rejected _ => "QueryRejectedError"
  | .query _ => "QueryExecutionError"
  | .storage _ => "StorageError"
  | .wrapped _ _ => "UnknownError"
  | .fault k _ => k.text
  | .thrown _ => "thrown"

def code? : Failure -> Option String
  | .validation _ => some "VALIDATION_ERROR"
  | .command _ _ => some "COMMAND_ERROR"
  | .rejected _ => some "QUERY_REJECTED"
  | .query _ => some "QUERY_EXECUTION_ERROR"
  | .storage _ => some "STORAGE_ERROR"
  | .wrapped _ _ => some "UNKNOWN_ERROR"
  | _ => none

def context? : Failure -> Option Fields
  | .validation (.ruleViolation _ rule) =>
      some (("rule", .text rule.name.text) :: Fields.ofOption "arg" rule.arg)
  | .command _ (.invalidCommand issues) => some [("issues", .list (issues.map .text))]
  | .command _ (.notEligible environment) => some [("environment", .text environment)]
  | .rejected r => some [(r.detail.1, .text r.detail.2)]
  | .query (.unknownEntityType entityType) => some [("entityType", .text entityType)]
  | .storage (.saveFailed entity _) => some [("entity", .text entity)]
  | .wrapped _ (some k) => some [("originalError", .text k.text)]
  | _ => none

end Failure

end OperatorConsole
