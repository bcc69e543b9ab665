import OperatorConsole.Query.Evaluation.Basic
import OperatorConsole.Query.Validator

/-!
# Running queries

An executor runs an expression against one entity type.  The expression is
validated on every run, before anything else is touched.  A rejected expression is
a failure of the run; every later failure is part of its outcome, as long as it can
be put into words.
-/

namespace OperatorConsole

namespace Query

inductive OutcomeCode where
  | unknownEntityType
  | executionError
  deriving DecidableEq, Repr

def OutcomeCode.text : OutcomeCode -> String
  | .unknownEntityType => "UNKNOWN_ENTITY_TYPE"
  | .executionError => "EXECUTION_ERROR"

inductive Outcome where
  | succeeded (value : Value) (elapsedSeconds : Number)
  | failed (code : OutcomeCode) (message : String) (elapsedSeconds : Number)
  deriving Repr

namespace Outcome

def exitCode : Outcome -> Number
  | .succeeded _ _ => 0
  | .failed _ _ _ => 1

def toValue (outcome : Outcome) : Value :=
  match outcome with
  | .succeeded value elapsed =>
      .ofFields [("ok", .bool true), ("value", value), ("elapsedSeconds", .number elapsed),
        ("exitCode", .number outcome.exitCode)]
  | .failed code message elapsed =>
      .ofFields [("ok", .bool false), ("errorMessage", .text message), ("code", .text code.text),
        ("elapsedSeconds", .number elapsed), ("exitCode", .number outcome.exitCode)]

end Outcome

/-- How a failure of a run is reported; one that is no failure of the query is worded
as one. -/
def report (failure : Failure) : Except Failure (OutcomeCode × String) :=
  match failure with
  | .query f =>
      .ok (match f with
        | .unknownEntityType _ => .unknownEntityType
        | _ => .executionError, f.message)
  | other => do
      let message ← other.message
      return (.executionError, (QueryFailure.evaluation message).message)

structure Executor (σ : Type) where
  resolver : EntityResolver σ
  validator : Validator
  /-- Answers `now()` and `today()` inside queries. -/
  clock : Action σ Number
  /-- The millisecond timer. -/
  timer : Action σ Number

namespace Executor

def evaluate (executor : Executor σ) (entityType : String) (chain : Chain) (start : Number) :
    Action σ Outcome := do
  match ← executor.resolver.resolve entityType with
  | none => throw (.query (.unknownEntityType entityType))
  | some source =>
      let value ← chain.evaluate source executor.clock
      let finish ← executor.timer
      let elapsed := Calendar.elapsedSeconds start finish
      Action.debug "Query executed"
        [("entityType", .text entityType), ("elapsedSeconds", .number elapsed)]
      return .succeeded value elapsed

def recover (executor : Executor σ) (entityType : String) (start : Number)
    (failure : Failure) : Action σ Outcome := do
  let finish ← executor.timer
  let (code, message) ← Action.settle (report failure)
  Action.warn "Query failed"
    [("entityType", .text entityType), ("code", .text code.text), ("error", .text message)]
  return .failed code message (Calendar.elapsedSeconds start finish)

def run (executor : Executor σ) (entityType expression : String) : Action σ Outcome := do
  let chain ← executor.validator.accept expression
  let start ← executor.timer
  match ← (executor.evaluate entityType chain start).attempt with
  | .ok outcome => return outcome
  | .error failure => executor.recover entityType start failure

end Executor

end Query

end OperatorConsole
