import OperatorConsole.Query.Evaluation.Operand

/-!
# Terminal verbs

A terminal verb checks its operands, runs a plan against a source and gives the
result.  The source is not touched before every operand has been checked.
-/

namespace OperatorConsole

namespace Query

def Checked.run (checked : Checked α) : Action σ α :=
  match checked with
  | .ok a => pure a
  | .error fault => throw fault.toFailure

def numberOrNull : Option Number -> Value
  | some x => .number x
  | none => .null

def rowsValue (rows : List Row) : Value :=
  .list (rows.map Record.toValue)

def rowOrNull : Option Row -> Value
  | some row => row.toValue
  | none => .null

def Row.at (row : Row) (column : String) : Value :=
  (Record.get row column).orNull

def defaultPerPage : Number :=
  15

def toCount (x : Number) : Nat :=
  (x.toInt?.getD 0).toNat

namespace Plan

def withLimit (plan : Plan) (n : Number) : Plan :=
  { plan with limit := some n }

def withColumns (plan : Plan) (columns : List String) : Plan :=
  { plan with columns := columns }

def slice (plan : Plan) (limit offset : Number) : Plan :=
  { plan with limit := some limit, offset := some offset }

/-- The plan for all rows, in whatever order. -/
def unpaged (plan : Plan) : Plan :=
  { plan with orders := [], limit := none, offset := none }

def withKey (plan : Plan) (key : String) (id : Scalar) : Plan :=
  { plan with conditions := plan.conditions ++ [⟨.and, .basic key .eq id⟩] }

end Plan

namespace EntitySource

def first (source : EntitySource σ) (plan : Plan) : Action σ (Option Row) := do
  let rows ← source.select (plan.withLimit 1)
  return rows.head?

def aggregateOrZero (source : EntitySource σ) (plan : Plan) (fn : AggregateFunction)
    (column : Option String) : Action σ Number := do
  let answer ← source.aggregate plan fn column
  return answer.getD 0

end EntitySource

def narrowed (verb : String) (args : List Operand) (plan : Plan) : Checked Plan :=
  if args.isEmpty then .ok plan
  else do
    let columns ← columnsOf verb args
    return plan.withColumns columns

/-- A page and its size, both from the arguments. -/
def pageOf (verb : String) (args : List Operand) : Checked (Number × Number) := do
  checkArity verb args 0 2
  let perPage ← if 0 < args.length then positiveOf verb args[0]? else pure defaultPerPage
  let page ← if 1 < args.length then positiveOf verb args[1]? else pure 1
  return (perPage, page)

def pageOffset (perPage page : Number) : Number :=
  (page.sub 1).mul perPage

/-- Rows as one record, each under the text of its key; a later row wins. -/
def keyedRecord (valueColumn keyColumn : String) (rows : List Row) : Except Failure Record :=
  rows.foldlM
    (fun record row => do
      let key ← Failure.textOf (Record.get row keyColumn)
      return record.assign key (Row.at row valueColumn))
    .empty

namespace TerminalVerb

def runGet (verb : String) (source : EntitySource σ) (plan : Plan) (args : List Operand) :
    Action σ Value := do
  let plan ← (narrowed verb args plan).run
  let rows ← source.select plan
  return rowsValue rows

def runFirst (verb : String) (source : EntitySource σ) (plan : Plan) (args : List Operand) :
    Action σ Value := do
  let plan ← (narrowed verb args plan).run
  let row ← source.first plan
  return rowOrNull row

/-- Looks a row up by its key; without one the answer is null, or a failure if the
row is required. -/
def runFind (required : Bool) (verb : String) (source : EntitySource σ) (plan : Plan)
    (args : List Operand) : Action σ Value := do
  (checkArity verb args 1 1).run
  let id ← (scalarOf verb args[0]?).run
  let row ← source.first (plan.withKey source.primaryKey id)
  if row.isNone && required then
    throw (EvaluationFault.noRecordWith source.name source.primaryKey id).toFailure
  else return rowOrNull row

def runSole (verb : String) (source : EntitySource σ) (plan : Plan) (args : List Operand) :
    Action σ Value := do
  (checkArity verb args 0 0).run
  match ← source.select (plan.withLimit 2) with
  | [] => throw EvaluationFault.noRecords.toFailure
  | [row] => return row.toValue
  | _ => throw EvaluationFault.manyRecords.toFailure

def runPluck (verb : String) (source : EntitySource σ) (plan : Plan) (args : List Operand) :
    Action σ Value := do
  (checkArity verb args 1 2).run
  let valueColumn ← (columnOf verb args[0]?).run
  if args.length = 2 then
    let keyColumn ← (columnOf verb args[1]?).run
    let rows ← source.select (plan.withColumns [valueColumn, keyColumn])
    let record ← Action.settle (keyedRecord valueColumn keyColumn rows)
    return record.toValue
  else
    let rows ← source.select (plan.withColumns [valueColumn])
    return .list (rows.map fun row => Row.at row valueColumn)

def runValue (verb : String) (source : EntitySource σ) (plan : Plan) (args : List Operand) :
    Action σ Value := do
  (checkArity verb args 1 1).run
  let column ← (columnOf verb args[0]?).run
  match ← source.first (plan.withColumns [column]) with
  | some row => return Row.at row column
  | none => return .null

def countTarget (verb : String) (args : List Operand) : Checked (Option String) := do
  checkArity verb args 0 1
  match args with
  | [] => return none
  | arg :: _ =>
      match arg with
      | .scalar (.text "*") => return none
      | _ => do
          let column ← columnOf verb (some arg)
          return some column

def runCount (verb : String) (source : EntitySource σ) (plan : Plan) (args : List Operand) :
    Action σ Value := do
  let target ← (countTarget verb args).run
  let n ← source.aggregateOrZero plan .count target
  return .number n

def runAggregate (fn : AggregateFunction) (verb : String) (source : EntitySource σ)
    (plan : Plan) (args : List Operand) : Action σ Value := do
  (checkArity verb args 1 1).run
  let column ← (columnOf verb args[0]?).run
  let answer ← source.aggregate plan fn (some column)
  return numberOrNull answer

def runSum (verb : String) (source : EntitySource σ) (plan : Plan) (args : List Operand) :
    Action σ Value := do
  (checkArity verb args 1 1).run
  let column ← (columnOf verb args[0]?).run
  let n ← source.aggregateOrZero plan .sum (some column)
  return .number n

def runExists (wanted : Bool) (verb : String) (source : EntitySource σ) (plan : Plan)
    (args : List Operand) : Action σ Value := do
  (checkArity verb args 0 0).run
  let n ← source.aggregateOrZero plan .count none
  return .bool (Number.lt 0 n == wanted)

def runPaginate (verb : String) (source : EntitySource σ) (plan : Plan) (args : List Operand) :
    Action σ Value := do
  let (perPage, page) ← (pageOf verb args).run
  let total ← source.aggregateOrZero plan.unpaged .count none
  let rows ← source.select (plan.slice perPage (pageOffset perPage page))
  return .ofFields [("data", rowsValue rows), ("total", .number total),
    ("perPage", .number perPage), ("currentPage", .number page),
    ("lastPage", .number (Number.max 1 (total.div perPage).ceil))]

/-- Fetches one row more than the page holds, to see whether there are more pages. -/
def runSimplePaginate (verb : String) (source : EntitySource σ) (plan : Plan)
    (args : List Operand) : Action σ Value := do
  let (perPage, page) ← (pageOf verb args).run
  let rows ← source.select (plan.slice (perPage.add 1) (pageOffset perPage page))
  return .ofFields [("data", rowsValue (rows.take (toCount perPage))),
    ("perPage", .number perPage), ("currentPage", .number page),
    ("hasMorePages", .bool (decide (toCount perPage < rows.length)))]

def runLazy (verb : String) (source : EntitySource σ) (plan : Plan) (args : List Operand) :
    Action σ Value := do
  (checkArity verb args 0 0).run
  let rows ← source.iterate plan
  return rowsValue rows

def run (verb : TerminalVerb) : EntitySource σ -> Plan -> List Operand -> Action σ Value :=
  match verb with
  | .get => runGet verb.text
  | .first => runFirst verb.text
  | .find => runFind false verb.text
  | .findOrFail => runFind true verb.text
  | .sole => runSole verb.text
  | .pluck => runPluck verb.text
  | .value => runValue verb.text
  | .count => runCount verb.text
  | .min => runAggregate .min verb.text
  | .max => runAggregate .max verb.text
  | .avg => runAggregate .avg verb.text
  | .sum => runSum verb.text
  | .exists => runExists true verb.text
  | .doesntExist => runExists false verb.text
  | .paginate => runPaginate verb.text
  | .simplePaginate => runSimplePaginate verb.text
  | .lazy => runLazy verb.text

end TerminalVerb

end Query

end OperatorConsole
