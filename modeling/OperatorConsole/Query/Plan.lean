import OperatorConsole.Scalar

/-!
# Query plans

The read-only description of a query that builder verbs give and an entity source
carries out.  Conditions form one flat list; each says how it joins the ones before
it, and "and" binds tighter than "or".
-/

namespace OperatorConsole

namespace Query

inductive Comparison where
  | eq
  | ne
  | differs
  | lt
  | gt
  | le
  | ge
  | like
  | notLike
  deriving DecidableEq, Repr

namespace Comparison

def all : List Comparison :=
  [.eq, .ne, .differs, .lt, .gt, .le, .ge, .like, .notLike]

def text : Comparison -> String
  | .eq => "="
  | .ne => "!="
  | .differs => "<>"
  | .lt => "<"
  | .gt => ">"
  | .le => "<="
  | .ge => ">="
  | .like => "like"
  | .notLike => "not like"

def ofText? (s : String) : Option Comparison :=
  all.find? (·.text == s)

end Comparison

inductive Conjunction where
  | and
  | or
  deriving DecidableEq, Repr

def Conjunction.text : Conjunction -> String
  | .and => "and"
  | .or => "or"

inductive DatePart where
  | date
  | month
  | year
  | time
  deriving DecidableEq, Repr

def DatePart.text : DatePart -> String
  | .date => "date"
  | .month => "month"
  | .year => "year"
  | .time => "time"

def DatePart.ofText? (text : String) : Option DatePart :=
  [DatePart.date, .month, .year, .time].find? fun part => part.text == text

inductive Condition where
  | basic (column : String) (operator : Comparison) (value : Scalar)
  | oneOf (column : String) (values : List Scalar) (negated : Bool)
  | between (column : String) (low high : Scalar) (negated : Bool)
  | isNull (column : String) (negated : Bool)
  | datePart (part : DatePart) (column : String) (operator : Comparison) (value : Scalar)
  | columns (first : String) (operator : Comparison) (second : String)
  deriving DecidableEq, Repr

/-- A condition with the word that joins it to the ones before. -/
structure Clause where
  joint : Conjunction
  condition : Condition
  deriving DecidableEq, Repr

inductive Direction where
  | ascending
  | descending
  deriving DecidableEq, Repr

def Direction.text : Direction -> String
  | .ascending => "asc"
  | .descending => "desc"

structure SortKey where
  column : String
  direction : Direction
  deriving DecidableEq, Repr

structure Having where
  column : String
  operator : Comparison
  value : Scalar
  deriving DecidableEq, Repr

structure Plan where
  /-- The columns asked for; none means all. -/
  columns : List String
  distinct : Bool
  conditions : List Clause
  groups : List String
  havings : List Having
  orders : List SortKey
  limit : Option Number
  offset : Option Number
  deriving DecidableEq, Repr

def Plan.empty : Plan where
  columns := []
  distinct := false
  conditions := []
  groups := []
  havings := []
  orders := []
  limit := none
  offset := none

inductive AggregateFunction where
  | count
  | min
  | max
  | avg
  | sum
  deriving DecidableEq, Repr

namespace AggregateFunction

def all : List AggregateFunction :=
  [.count, .min, .max, .avg, .sum]

def text : AggregateFunction -> String
  | .count => "count"
  | .min => "min"
  | .max => "max"
  | .avg => "avg"
  | .sum => "sum"

def ofText? (s : String) : Option AggregateFunction :=
  all.find? (·.text == s)

end AggregateFunction

/-! ## Plans as values -/

def Condition.fields : Condition -> Fields
  | .basic column operator value =>
      [("type", .text "basic"), ("column", .text column), ("operator", .text operator.text),
        ("value", value.toValue)]
  | .oneOf column values negated =>
      [("type", .text "in"), ("column", .text column),
        ("values", .list (values.map Scalar.toValue)), ("not", .bool negated)]
  | .between column low high negated =>
      [("type", .text "between"), ("column", .text column),
        ("range", .list [low.toValue, high.toValue]), ("not", .bool negated)]
  | .isNull column negated =>
      [("type", .text "null"), ("column", .text column), ("not", .bool negated)]
  | .datePart part column operator value =>
      [("type", .text "datePart"), ("part", .text part.text), ("column", .text column),
        ("operator", .text operator.text), ("value", value.toValue)]
  | .columns first operator second =>
      [("type", .text "column"), ("first", .text first), ("operator", .text operator.text),
        ("second", .text second)]

def Clause.toValue (clause : Clause) : Value :=
  .ofFields (clause.condition.fields ++ [("boolean", .text clause.joint.text)])

def SortKey.toValue (order : SortKey) : Value :=
  .ofFields [("column", .text order.column), ("direction", .text order.direction.text)]

def Having.toValue (having : Having) : Value :=
  .ofFields [("column", .text having.column), ("operator", .text having.operator.text),
    ("value", having.value.toValue)]

def Plan.toValue (plan : Plan) : Value :=
  let count := fun (n : Option Number) => (n.map Value.number).getD .null
  .ofFields [("columns", .list (plan.columns.map .text)), ("distinct", .bool plan.distinct),
    ("conditions", .list (plan.conditions.map Clause.toValue)),
    ("groups", .list (plan.groups.map .text)), ("havings", .list (plan.havings.map Having.toValue)),
    ("orders", .list (plan.orders.map SortKey.toValue)), ("limit", count plan.limit),
    ("offset", count plan.offset)]

end Query

end OperatorConsole
