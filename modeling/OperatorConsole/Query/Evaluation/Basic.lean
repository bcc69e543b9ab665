import OperatorConsole.Query.Evaluation.Builder
import OperatorConsole.Query.Evaluation.Result

/-!
# Evaluation of chains

A chain is evaluated call by call.  Builder verbs shape a plan, the first terminal
verb runs it against the source, and the verbs after that work on the result.
-/

namespace OperatorConsole

namespace Query

inductive Progress where
  | building (plan : Plan)
  | finished (result : Value)
  deriving Repr

def applyBuilding (source : EntitySource σ) (plan : Plan) (verb canonical : String)
    (args : List Operand) : Action σ Progress :=
  match BuilderVerb.ofName? verb, TerminalVerb.ofName? verb with
  | some b, _ => do
      let plan ← (b.apply args plan).run
      return .building plan
  | none, some t => do
      let result ← t.run source plan args
      return .finished result
  | none, none => throw (EvaluationFault.needsResult canonical).toFailure

/-- Applies a call that stands after the query has run. -/
def applyFinished (result : Value) (verb canonical : String) (args : List Operand) :
    Action σ Progress :=
  match ResultVerb.ofName? verb with
  | some r =>
      match r.apply args result with
      | .ok result => pure (.finished result)
      | .error failure => throw failure
  | none => throw (EvaluationFault.notOnResult canonical).toFailure

def step (source : EntitySource σ) (clock : Action σ Number) (progress : Progress)
    (call : Call) : Action σ Progress := do
  match canonicalVerb? call.verb with
  | none => throw (EvaluationFault.unknownMethod call.verb).toFailure
  | some canonical =>
      let args ← Argument.resolveAll clock call.args
      match progress with
      | .building plan => applyBuilding source plan call.verb canonical args
      | .finished result => applyFinished result call.verb canonical args

/-- The value of a chain over a source. The clock answers the helper calls. -/
def Chain.evaluate (source : EntitySource σ) (clock : Action σ Number) (chain : Chain) :
    Action σ Value := do
  match ← chain.foldlM (step source clock) (.building .empty) with
  | .finished result => return result
  | .building _ => throw EvaluationFault.neverRuns.toFailure

end Query

end OperatorConsole
