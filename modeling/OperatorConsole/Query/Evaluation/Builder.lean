import OperatorConsole.Query.Evaluation.Operand

/-!
# Builder verbs

A builder verb with its operands turns a plan into a plan.
-/

namespace OperatorConsole

namespace Query

namespace Plan

def addClause (plan : Plan) (joint : Conjunction) (condition : Condition) : Plan :=
  { plan with conditions := plan.conditions ++ [⟨joint, condition⟩] }

def addOrder (plan : Plan) (column : String) (direction : Direction) : Plan :=
  { plan with orders := plan.orders ++ [⟨column, direction⟩] }

end Plan

/-- The column for orders by time that name none. -/
def timestampColumn : String :=
  "created_at"

/-- A comparison with null is a test for null, and only equality can be one. -/
def comparisonCondition (verb column : String) (operator : Comparison) (value : Scalar) :
    Checked Condition :=
  match value, operator with
  | .null, .eq => .ok (.isNull column false)
  | .null, .ne => .ok (.isNull column true)
  | .null, .differs => .ok (.isNull column true)
  | .null, _ => .error (.nullComparison verb operator)
  | value, _ => .ok (.basic column operator value)

def directionOf (verb : String) : Scalar -> Checked Direction
  | .text s =>
      let lowered := Text.lower s.toList
      if lowered = "asc".toList then .ok .ascending
      else if lowered = "desc".toList then .ok .descending
      else .error (.expectsDirection verb)
  | _ => .error (.expectsDirection verb)

namespace BuilderVerb

def compare (joint : Conjunction) (verb : String) (args : List Operand) (plan : Plan) :
    Checked Plan := do
  let (column, operator, value) ← comparisonOf verb args
  let condition ← comparisonCondition verb column operator value
  return plan.addClause joint condition

def member (negated : Bool) (verb : String) (args : List Operand) (plan : Plan) :
    Checked Plan := do
  checkArity verb args 2 2
  let column ← columnOf verb args[0]?
  let values ← scalarsOf verb args[1]?
  return plan.addClause .and (.oneOf column values negated)

def range (negated : Bool) (verb : String) (args : List Operand) (plan : Plan) :
    Checked Plan := do
  checkArity verb args 2 2
  match ← scalarsOf verb args[1]? with
  | [low, high] =>
      let column ← columnOf verb args[0]?
      return plan.addClause .and (.between column low high negated)
  | _ => throw (.expectsRange verb)

def null (negated : Bool) (verb : String) (args : List Operand) (plan : Plan) :
    Checked Plan := do
  checkArity verb args 1 1
  let column ← columnOf verb args[0]?
  return plan.addClause .and (.isNull column negated)

def datePart (part : DatePart) (verb : String) (args : List Operand) (plan : Plan) :
    Checked Plan := do
  let (column, operator, value) ← comparisonOf verb args
  return plan.addClause .and (.datePart part column operator value)

def columns (verb : String) (args : List Operand) (plan : Plan) : Checked Plan := do
  let (first, operator, value) ← comparisonOf verb args
  let second ← columnOf verb (some (.scalar value))
  return plan.addClause .and (.columns first operator second)

def sort (verb : String) (args : List Operand) (plan : Plan) : Checked Plan := do
  checkArity verb args 1 2
  let written ← if args.length = 2 then scalarOf verb args[1]? else pure (.text "asc")
  let direction ← directionOf verb written
  let column ← columnOf verb args[0]?
  return plan.addOrder column direction

def sortDescending (verb : String) (args : List Operand) (plan : Plan) : Checked Plan := do
  checkArity verb args 1 1
  let column ← columnOf verb args[0]?
  return plan.addOrder column .descending

def sortByTime (direction : Direction) (verb : String) (args : List Operand) (plan : Plan) :
    Checked Plan := do
  checkArity verb args 0 1
  let column ← if args.length = 1 then columnOf verb args[0]? else pure timestampColumn
  return plan.addOrder column direction

def setLimit (verb : String) (args : List Operand) (plan : Plan) : Checked Plan := do
  checkArity verb args 1 1
  let n ← countOf verb args[0]?
  return { plan with limit := some n }

def setOffset (verb : String) (args : List Operand) (plan : Plan) : Checked Plan := do
  checkArity verb args 1 1
  let n ← countOf verb args[0]?
  return { plan with offset := some n }

def setColumns (verb : String) (args : List Operand) (plan : Plan) : Checked Plan := do
  let columns ← columnsOf verb args
  return { plan with columns := columns }

def addColumns (verb : String) (args : List Operand) (plan : Plan) : Checked Plan := do
  let columns ← columnsOf verb args
  return { plan with columns := plan.columns ++ columns }

def setDistinct (verb : String) (args : List Operand) (plan : Plan) : Checked Plan := do
  checkArity verb args 0 0
  return { plan with distinct := true }

def addGroups (verb : String) (args : List Operand) (plan : Plan) : Checked Plan := do
  let columns ← columnsOf verb args
  return { plan with groups := plan.groups ++ columns }

def addHaving (verb : String) (args : List Operand) (plan : Plan) : Checked Plan := do
  let (column, operator, value) ← comparisonOf verb args
  return { plan with havings := plan.havings ++ [⟨column, operator, value⟩] }

def apply (verb : BuilderVerb) : List Operand -> Plan -> Checked Plan :=
  match verb with
  | .where => compare .and verb.text
  | .orWhere => compare .or verb.text
  | .whereIn => member false verb.text
  | .whereNotIn => member true verb.text
  | .whereBetween => range false verb.text
  | .whereNotBetween => range true verb.text
  | .whereNull => null false verb.text
  | .whereNotNull => null true verb.text
  | .whereDate => datePart .date verb.text
  | .whereMonth => datePart .month verb.text
  | .whereYear => datePart .year verb.text
  | .whereTime => datePart .time verb.text
  | .whereColumn => columns verb.text
  | .orderBy => sort verb.text
  | .orderByDesc => sortDescending verb.text
  | .latest => sortByTime .descending verb.text
  | .oldest => sortByTime .ascending verb.text
  | .limit => setLimit verb.text
  | .take => setLimit verb.text
  | .offset => setOffset verb.text
  | .skip => setOffset verb.text
  | .select => setColumns verb.text
  | .addSelect => addColumns verb.text
  | .distinct => setDistinct verb.text
  | .groupBy => addGroups verb.text
  | .having => addHaving verb.text

end BuilderVerb

end Query

end OperatorConsole
