import OperatorConsole.Calendar
import OperatorConsole.Json.Printer
import OperatorConsole.Query.Chain
import OperatorConsole.Query.Source

/-!
# Operands of verbs

Before a verb is applied, helper calls among its arguments are replaced by their
values.  What is left are scalars and lists, and every verb checks the operands it
was given.

## Faults

`EvaluationFault` lists what can be wrong with a chain that reads well.
-/

namespace OperatorConsole

namespace Query

inductive Operand where
  | scalar (v : Scalar)
  | list (items : List Operand)
  deriving Repr

/-! ## Faults -/

inductive EvaluationFault where
  | unknownMethod (verb : String)
  | needsResult (verb : String)
  | notOnResult (verb : String)
  | neverRuns
  | arity (verb : String) (least most given : Nat)
  | expectsValue (verb : String)
  | expectsColumn (verb : String)
  | expectsColumns (verb : String)
  | expectsList (verb : String)
  | expectsRange (verb : String)
  | expectsCount (verb : String)
  | expectsPositive (verb : String)
  | expectsDirection (verb : String)
  | unsupportedOperator (verb : String) (operator : Scalar)
  | nullComparison (verb : String) (operator : Comparison)
  | noRecordWith (entity key : String) (id : Scalar)
  | noRecords
  | manyRecords
  | needsList (verb : String)
  deriving DecidableEq, Repr

namespace EvaluationFault

def arityText (verb : String) (least most given : Nat) : String :=
  let expected := if least = most then s!"{least}" else s!"{least} to {most}"
  let noun := if most = 1 then "argument" else "arguments"
  s!"{verb}() takes {expected} {noun}, {given} given"

def message : EvaluationFault -> String
  | .unknownMethod verb => s!"unknown method '{verb}'"
  | .needsResult verb => s!"{verb}() can only be called on a query result"
  | .notOnResult verb => s!"{verb}() cannot be called on a query result"
  | .neverRuns =>
      "the query never runs; end it with a method such as get(), first() or count()"
  | .arity verb least most given => arityText verb least most given
  | .expectsValue verb => s!"{verb}() expects a single value, not a list"
  | .expectsColumn verb => s!"{verb}() expects a column name"
  | .expectsColumns verb => s!"{verb}() expects at least one column"
  | .expectsList verb => s!"{verb}() expects a list of values"
  | .expectsRange verb => s!"{verb}() expects a range of exactly two values"
  | .expectsCount verb => s!"{verb}() expects a non-negative whole number"
  | .expectsPositive verb => s!"{verb}() expects a number greater than zero"
  | .expectsDirection verb => s!"{verb}() direction must be 'asc' or 'desc'"
  | .unsupportedOperator verb operator =>
      s!"{verb}() does not support the operator " ++
        ((Json.compact? operator.toValue).getD "")
  | .nullComparison verb operator =>
      s!"{verb}() cannot compare against null with '{operator.text}'"
  | .noRecordWith entity key id =>
      s!"no {entity} record found with {key} {id.shown}"
  | .noRecords => "no records found"
  | .manyRecords => "more than one record found"
  | .needsList verb => s!"{verb}() needs a list of records"

def toFailure (fault : EvaluationFault) : Failure :=
  .query (.evaluation fault.message)

end EvaluationFault

/-! ## Resolving helper calls -/

/-- The text that a helper stands for at a time: the day, or the day and the time. -/
def Helper.textAt (h : Helper) (time : Number) : Except Failure String :=
  match h with
  | .today => Calendar.leadingText 'T' 10 time
  | .now => Calendar.leadingText ' ' 19 time

mutual

/-- Replaces helper calls, asking the clock once for each. -/
def Argument.resolve (clock : Action σ Number) : Argument -> Action σ Operand
  | .scalar v => pure (.scalar v)
  | .helper h => do
      let time ← clock
      match h.textAt time with
      | .ok text => return .scalar (.text text)
      | .error failure => throw failure
  | .list items => do
      let operands ← Argument.resolveAll clock items
      return .list operands

def Argument.resolveAll (clock : Action σ Number) : List Argument -> Action σ (List Operand)
  | [] => pure []
  | item :: items => do
      let operand ← Argument.resolve clock item
      let operands ← Argument.resolveAll clock items
      return operand :: operands

end

/-! ## Checks -/

abbrev Checked (α : Type) := Except EvaluationFault α

def checkArity (verb : String) (args : List Operand) (least most : Nat) : Checked Unit :=
  if args.length < least || most < args.length then
    .error (.arity verb least most args.length)
  else .ok ()

def scalarOf (verb : String) : Option Operand -> Checked Scalar
  | some (.scalar v) => .ok v
  | _ => .error (.expectsValue verb)

/-- A letter or underscore, then letters, digits and underscores. -/
def isColumnName (s : String) : Bool :=
  match s.toList with
  | [] => false
  | c :: rest => isNameStart c && rest.all Text.isWordChar

def columnOf (verb : String) : Option Operand -> Checked String
  | some (.scalar (.text s)) => if isColumnName s then .ok s else .error (.expectsColumn verb)
  | _ => .error (.expectsColumn verb)

/-- At least one column, given one by one or in one list. -/
def columnsOf (verb : String) (args : List Operand) : Checked (List String) :=
  let flat :=
    match args with
    | [.list items] => items
    | _ => args
  if flat.isEmpty then .error (.expectsColumns verb)
  else flat.mapM fun arg => columnOf verb (some arg)

def scalarsOf (verb : String) : Option Operand -> Checked (List Scalar)
  | some (.list items) => items.mapM fun item => scalarOf verb (some item)
  | _ => .error (.expectsList verb)

def countOf (verb : String) (arg : Option Operand) : Checked Number :=
  match scalarOf verb arg with
  | .ok (.number x) =>
      if x.isInteger && !x.lt 0 then .ok x else .error (.expectsCount verb)
  | .ok _ => .error (.expectsCount verb)
  | .error fault => .error fault

def positiveOf (verb : String) (arg : Option Operand) : Checked Number :=
  match countOf verb arg with
  | .ok x => if x.equals 0 then .error (.expectsPositive verb) else .ok x
  | .error fault => .error fault

def operatorOf (verb : String) (operator : Scalar) : Checked Comparison :=
  let text :=
    match operator with
    | .text s => String.ofList (Text.squeeze (Text.lower (Text.trim s.toList)))
    | _ => ""
  match Comparison.ofText? text with
  | some c => .ok c
  | none => .error (.unsupportedOperator verb operator)

/-- A column and a value, with an operator between them or none for equality. -/
def comparisonOf (verb : String) (args : List Operand) :
    Checked (String × Comparison × Scalar) := do
  checkArity verb args 2 3
  let column ← columnOf verb args[0]?
  if args.length = 2 then
    let value ← scalarOf verb args[1]?
    return (column, .eq, value)
  else
    let written ← scalarOf verb args[1]?
    let operator ← operatorOf verb written
    let value ← scalarOf verb args[2]?
    return (column, operator, value)

end Query

end OperatorConsole
