import OperatorConsole.Query.Evaluation.Operand
import OperatorConsole.Sql.Statement
import OperatorConsole.Text.Base64

/-!
# Tables as entity sources

A table carries out plans as single parameterised SELECT statements.  Values reach
the database as parameters only, and every identifier is the table's name, one of
its columns or its primary key.

## Statements

`Table.select` is the statement for a plan and `Table.aggregate` the one for an
aggregate over a plan.  Both fail on a column that the table does not have.
-/

namespace OperatorConsole

namespace Sql

open Query (AggregateFunction Clause Comparison Condition Conjunction DatePart Direction Having
  Plan SortKey)

structure Table where
  name : String
  columns : List String
  primaryKey : String
  deriving DecidableEq, Repr

abbrev Compiled (α : Type) := Except Failure α

/-- A step in compiling a plan. It may push parameters behind those of the steps before, beside
whatever it gives. -/
abbrev Compiling := StateT (List Scalar) (Except Failure)

def push (values : List Scalar) : Compiling Unit :=
  modify fun parameters => parameters ++ values.map bindable

def unsupported (reason : String) : Failure :=
  .query (.evaluation reason)

/-! ## Words -/

def operatorWord : Comparison -> String
  | .eq => "="
  | .ne => "!="
  | .differs => "<>"
  | .lt => "<"
  | .gt => ">"
  | .le => "<="
  | .ge => ">="
  | .like => "LIKE"
  | .notLike => "NOT LIKE"

def joint : Conjunction -> String
  | .and => "AND "
  | .or => "OR "

def functionWord : AggregateFunction -> String
  | .count => "COUNT"
  | .min => "MIN"
  | .max => "MAX"
  | .avg => "AVG"
  | .sum => "SUM"

def directionWord : Direction -> String
  | .ascending => " ASC"
  | .descending => " DESC"

def datePartWords : DatePart -> String × String
  | .date => ("date(", ")")
  | .month => ("CAST(strftime('%m', ", ") AS INTEGER)")
  | .year => ("CAST(strftime('%Y', ", ") AS INTEGER)")
  | .time => ("time(", ")")

/-- Months and years are compared as numbers where the value is one. -/
def datePartValue (part : DatePart) (value : Scalar) : Scalar :=
  match part with
  | .month => (value.toValue.numeric?.map Scalar.number).getD value
  | .year => (value.toValue.numeric?.map Scalar.number).getD value
  | _ => value

namespace Table

def knows (table : Table) (column : String) : Bool :=
  table.columns.contains column || column == table.primaryKey

/-- A column in quotes, if the table has it. -/
def identifier (table : Table) (column : String) : Compiled String :=
  if table.knows column then .ok (quoteIdentifier column)
  else .error (unsupported s!"unknown column '{column}' on {table.name}")

/-! ## Clauses

A clause pushes the values that it compares with before it looks at its column. -/

def comparison (table : Table) (column : String) (operator : Comparison) (value : Scalar) :
    Compiling String := do
  push [value]
  let id ← table.identifier column
  return id ++ s!" {operatorWord operator} ?"

def condition (table : Table) : Condition -> Compiling String
  | .basic column operator value => table.comparison column operator value
  | .oneOf _ [] negated => return if negated then "1 = 1" else "0 = 1"
  | .oneOf column values negated => do
      push values
      let places := String.intercalate ", " (values.map fun _ => "?")
      let id ← table.identifier column
      return id ++ (if negated then " NOT IN (" else " IN (") ++ places ++ ")"
  | .between column low high negated => do
      push [low, high]
      let id ← table.identifier column
      return id ++ (if negated then " NOT BETWEEN " else " BETWEEN ") ++ "? AND ?"
  | .isNull column negated => do
      let id ← table.identifier column
      return id ++ (if negated then " IS NOT NULL" else " IS NULL")
  | .datePart part column operator value => do
      push [datePartValue part value]
      let id ← table.identifier column
      let (opening, ending) := datePartWords part
      return opening ++ id ++ ending ++ s!" {operatorWord operator} ?"
  | .columns first operator second => do
      let left ← table.identifier first
      let right ← table.identifier second
      return left ++ s!" {operatorWord operator} " ++ right

def joined (table : Table) (clause : Clause) : Compiling String := do
  let condition ← table.condition clause.condition
  return joint clause.joint ++ condition

def whereClause (table : Table) : List Clause -> Compiling String
  | [] => return ""
  | clause :: clauses => do
      let first ← table.condition clause.condition
      let others ← clauses.mapM table.joined
      return " WHERE " ++ String.intercalate " " (first :: others)

def having (table : Table) (having : Having) : Compiling String :=
  table.comparison having.column having.operator having.value

def order (table : Table) (order : SortKey) : Compiling String := do
  let id ← table.identifier order.column
  return id ++ directionWord order.direction

def selection (table : Table) (columns : List String) : Compiling String := do
  let items ← columns.mapM fun column => table.identifier column
  return if items.isEmpty then "*" else String.intercalate ", " items

/-- A part of a statement behind its heading; nothing if it has no items. -/
def headed (heading separator : String) (items : List String) : String :=
  if items.isEmpty then "" else heading ++ String.intercalate separator items

/-- The limit has to stand before an offset; a negative one is no limit. -/
def paging (limit offset : Option Number) : Compiling String :=
  match limit, offset with
  | none, none => return ""
  | limit, offset => do
      push [.number (limit.getD (Number.ofInt (-1)))]
      match offset with
      | none => return " LIMIT ?"
      | some m =>
          push [.number m]
          return " LIMIT ? OFFSET ?"

/-! ## Statements -/

def compile (table : Table) (plan : Plan) : Compiling String := do
  let columns ← table.selection plan.columns
  let conditions ← table.whereClause plan.conditions
  let groups ← plan.groups.mapM fun column => table.identifier column
  let havings ← plan.havings.mapM table.having
  let orders ← plan.orders.mapM table.order
  let page ← paging plan.limit plan.offset
  let head := if plan.distinct then "SELECT DISTINCT " else "SELECT "
  return head ++ columns ++ " FROM " ++ quoteIdentifier table.name ++ conditions ++
    headed " GROUP BY " ", " groups ++ headed " HAVING " " AND " havings ++
    headed " ORDER BY " ", " orders ++ page

def select (table : Table) (plan : Plan) : Compiled Statement := do
  let (text, parameters) ← (table.compile plan).run []
  return ⟨text, parameters⟩

/-- The plan whose rows an aggregate takes: only distinct and grouped plans keep
their columns. -/
def aggregated (plan : Plan) : Plan :=
  if plan.distinct || !plan.groups.isEmpty then plan else { plan with columns := [] }

def target (table : Table) : Option String -> Compiled String
  | none => .ok "*"
  | some column => do
      let id ← table.identifier column
      return "q." ++ id

def aggregate (table : Table) (plan : Plan) (fn : AggregateFunction) (column : Option String) :
    Compiled Statement := do
  let inner ← table.select (aggregated plan)
  let operand ← table.target column
  if fn != .count && column.isNone then throw (unsupported s!"{fn.text}() needs a column")
  return {
    text := "SELECT " ++ functionWord fn ++ "(" ++ operand ++ ") AS aggregate FROM (" ++
      inner.text ++ ") AS q"
    parameters := inner.parameters }

end Table

/-! ## Rows from the database -/

/-- A value of the database as a scalar; bytes are written in base 64. -/
def normalizeValue : Value -> Except Failure Scalar
  | .absent => .ok .null
  | .null => .ok .null
  | .text s => .ok (.text s)
  | .number x => .ok (.number x)
  | .exact n => .ok (.number (Number.ofInt n))
  | .bytes data => .ok (.text (String.ofList (Base64.encode data)))
  | v => (Failure.textOf v).map .text

def normalizeRow (row : Fields) : Except Failure Query.Row :=
  row.foldlM
    (fun record field => do
      let value ← normalizeValue field.2
      return record.assign field.1 value.toValue)
    .empty

def aggregateNumber : Value -> Option Number
  | .number x => some x
  | .exact n => some (Number.ofInt n)
  | v => v.numeric?

def Table.source (table : Table) (db : Database σ) : Query.EntitySource σ where
  name := table.name
  primaryKey := table.primaryKey
  fields := pure table.columns
  select := fun plan => do
    let statement ← Action.settle (table.select plan)
    let rows ← db.all statement
    Action.settle (rows.mapM normalizeRow)
  iterate := fun plan => do
    let statement ← Action.settle (table.select plan)
    let rows ← db.iterate statement
    Action.settle (rows.mapM normalizeRow)
  aggregate := fun plan fn column => do
    let statement ← Action.settle (table.aggregate plan fn column)
    let row ← db.get statement
    return aggregateNumber ((row.map fun fields => Fields.own fields "aggregate").getD .absent)

end Sql

end OperatorConsole
