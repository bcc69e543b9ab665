import OperatorConsole.Sql.Source

/-!
# Drafts

A draft is a statement in which every parameter stands in the place of its placeholder.  It is a
sequence of fragments: words of the language, quoted identifiers and parameters.  The statement of
a draft has the text and the parameters apart, as the database is handed them.

## Plans

`Table.draft` is what a plan comes to if all of its columns are known.  It says how the statement
for the plan is built up, clause by clause, without saying how it is compiled.
-/

namespace OperatorConsole

namespace Sql

open Query (AggregateFunction Clause Comparison Condition Having Plan SortKey)

/-! ## Fragments -/

inductive Fragment where
  | word (text : String)
  | identifier (name : String)
  | parameter (value : Scalar)
  deriving DecidableEq, Repr

namespace Fragment

def text : Fragment -> String
  | .word s => s
  | .identifier name => quoteIdentifier name
  | .parameter _ => "?"

def parameter? : Fragment -> Option Scalar
  | .parameter v => some (bindable v)
  | _ => none

end Fragment

abbrev Draft := List Fragment

namespace Draft

def text (d : Draft) : String :=
  String.join (d.map Fragment.text)

/-- The parameters, in the order of their placeholders. -/
def parameters (d : Draft) : List Scalar :=
  d.filterMap Fragment.parameter?

def statement (d : Draft) : Statement :=
  ⟨d.text, d.parameters⟩

def joinWith (separator : String) : List Draft -> Draft
  | [] => []
  | [part] => part
  | part :: parts => part ++ .word separator :: joinWith separator parts

/-- A part of a statement behind its heading; nothing if it has no items. -/
def headed (heading separator : String) (items : List Draft) : Draft :=
  if items.isEmpty then [] else .word heading :: joinWith separator items

/-! ### Texts -/

@[simp] theorem text_nil : text [] = "" := rfl

theorem text_cons (f : Fragment) (rest : Draft) : text (f :: rest) = f.text ++ text rest := by
  unfold text
  rw [List.map_cons, String.join_cons]

@[simp] theorem text_word (s : String) (rest : Draft) : text (.word s :: rest) = s ++ text rest :=
  text_cons _ _

@[simp] theorem text_identifier (name : String) (rest : Draft) :
    text (.identifier name :: rest) = quoteIdentifier name ++ text rest :=
  text_cons _ _

@[simp] theorem text_parameter (v : Scalar) (rest : Draft) :
    text (.parameter v :: rest) = "?" ++ text rest :=
  text_cons _ _

theorem text_append (d e : Draft) : text (d ++ e) = text d ++ text e := by
  unfold text
  rw [List.map_append, String.join_append]

theorem text_flatten (parts : List Draft) :
    text parts.flatten = String.join (parts.map text) := by
  induction parts with
  | nil => rfl
  | cons part parts ih =>
      rw [List.flatten_cons, text_append, ih, List.map_cons, String.join_cons]

theorem text_flatMap (write : α -> Draft) (items : List α) :
    text (items.flatMap write) = String.join (items.map fun item => text (write item)) := by
  rw [List.flatMap_def, text_flatten, List.map_map]
  rfl

theorem text_joinWith (separator : String) (parts : List Draft) :
    text (joinWith separator parts) = String.intercalate separator (parts.map text) := by
  induction parts with
  | nil => rfl
  | cons part parts ih =>
      cases parts with
      | nil => rw [joinWith, List.map_singleton, String.intercalate_singleton]
      | cons next parts =>
          have hjoined : joinWith separator (part :: next :: parts) =
              part ++ .word separator :: joinWith separator (next :: parts) := rfl
          rw [hjoined, text_append, text_word, ih]
          simp only [List.map_cons, String.intercalate_cons_cons, String.append_assoc]

theorem text_headed (heading separator : String) (items : List Draft) :
    text (headed heading separator items) = Table.headed heading separator (items.map text) := by
  unfold headed Table.headed
  rw [List.isEmpty_map]
  split
  · rfl
  · rw [text_word, text_joinWith]

/-! ### Parameters -/

theorem parameters_append (d e : Draft) : parameters (d ++ e) = parameters d ++ parameters e :=
  List.filterMap_append

theorem parameters_flatten (parts : List Draft) :
    parameters parts.flatten = (parts.map parameters).flatten :=
  List.filterMap_flatten

theorem parameters_flatMap (write : α -> Draft) (items : List α) :
    parameters (items.flatMap write) = items.flatMap fun item => parameters (write item) := by
  rw [List.flatMap_def, parameters_flatten, List.map_map, List.flatMap_def]
  rfl

@[simp] theorem parameters_word (text : String) (d : Draft) :
    parameters (.word text :: d) = parameters d := rfl

@[simp] theorem parameters_identifier (name : String) (d : Draft) :
    parameters (.identifier name :: d) = parameters d := rfl

@[simp] theorem parameters_parameter (v : Scalar) (d : Draft) :
    parameters (.parameter v :: d) = bindable v :: parameters d := rfl

@[simp] theorem parameters_nil : parameters [] = [] := rfl

theorem joinWith_cons (separator : String) (part : Draft) (parts : List Draft) :
    joinWith separator (part :: parts) =
      part ++ parts.flatMap fun other => .word separator :: other := by
  induction parts generalizing part with
  | nil => simp [joinWith]
  | cons next parts ih =>
      rw [joinWith, ih, List.flatMap_cons, List.cons_append]
      exact List.cons_ne_nil next parts

theorem parameters_joinWith (separator : String) (parts : List Draft) :
    parameters (joinWith separator parts) = parts.flatMap parameters := by
  cases parts with
  | nil => rfl
  | cons part parts =>
      rw [joinWith_cons, parameters_append, parameters_flatMap, List.flatMap_cons]
      rfl

theorem parameters_headed (heading separator : String) (items : List Draft) :
    parameters (headed heading separator items) = items.flatMap parameters := by
  cases items with
  | nil => rfl
  | cons item items => exact parameters_joinWith separator (item :: items)

end Draft

/-! ## Drafts of clauses -/

def draftComparison (column : String) (operator : Comparison) (value : Scalar) : Draft :=
  [.identifier column, .word s!" {operatorWord operator} ", .parameter value]

def draftCondition : Condition -> Draft
  | .basic column operator value => draftComparison column operator value
  | .oneOf _ [] negated => [.word (if negated then "1 = 1" else "0 = 1")]
  | .oneOf column (value :: values) negated =>
      .identifier column :: .word (if negated then " NOT IN (" else " IN (") ::
        Draft.joinWith ", " ((value :: values).map fun v => [.parameter v]) ++ [.word ")"]
  | .between column low high negated =>
      [.identifier column, .word (if negated then " NOT BETWEEN " else " BETWEEN "),
        .parameter low, .word " AND ", .parameter high]
  | .isNull column negated =>
      [.identifier column, .word (if negated then " IS NOT NULL" else " IS NULL")]
  | .datePart part column operator value =>
      [.word (datePartWords part).1, .identifier column, .word (datePartWords part).2,
        .word s!" {operatorWord operator} ", .parameter (datePartValue part value)]
  | .columns first operator second =>
      [.identifier first, .word s!" {operatorWord operator} ", .identifier second]

def draftClause (clause : Clause) : Draft :=
  .word " " :: .word (joint clause.joint) :: draftCondition clause.condition

def draftWhere : List Clause -> Draft
  | [] => []
  | clause :: clauses =>
      .word " WHERE " :: draftCondition clause.condition ++ clauses.flatMap draftClause

def draftColumns (columns : List String) : List Draft :=
  columns.map fun column => [.identifier column]

def draftSelection (columns : List String) : Draft :=
  if columns.isEmpty then [.word "*"] else Draft.joinWith ", " (draftColumns columns)

def draftHaving (having : Having) : Draft :=
  draftComparison having.column having.operator having.value

def draftOrder (order : SortKey) : Draft :=
  [.identifier order.column, .word (directionWord order.direction)]

def draftPaging (limit offset : Option Number) : Draft :=
  match limit, offset with
  | none, none => []
  | some n, none => [.word " LIMIT ", .parameter (.number n)]
  | limit, some m =>
      [.word " LIMIT ", .parameter (.number (limit.getD (Number.ofInt (-1)))), .word " OFFSET ",
        .parameter (.number m)]

def draftTarget : Option String -> Draft
  | none => [.word "*"]
  | some column => [.word "q.", .identifier column]

theorem draft_places (values : List Scalar) :
    (values.map fun v => ([.parameter v] : Draft)).map Draft.text = values.map (fun _ => "?") ∧
      (values.map fun v => ([.parameter v] : Draft)).flatMap Draft.parameters =
        values.map bindable := by
  constructor
  · rw [List.map_map]
    rfl
  · rw [List.flatMap_map, List.map_eq_flatMap]
    rfl

theorem text_draftColumns (columns : List String) :
    (draftColumns columns).map Draft.text = columns.map quoteIdentifier := by
  unfold draftColumns
  rw [List.map_map]
  refine List.map_congr_left ?_
  intro column _
  show Draft.text [.identifier column] = quoteIdentifier column
  rw [Draft.text_identifier, Draft.text_nil, String.append_empty]

theorem parameters_draftColumns (columns : List String) :
    (draftColumns columns).flatMap Draft.parameters = [] := by
  unfold draftColumns
  rw [List.flatMap_map, List.flatMap_eq_nil_iff]
  exact fun _ _ => rfl

theorem parameters_draftSelection (columns : List String) :
    (draftSelection columns).parameters = [] := by
  unfold draftSelection
  split
  · rfl
  · rw [Draft.parameters_joinWith, parameters_draftColumns]

theorem parameters_draftTarget (column : Option String) : (draftTarget column).parameters = [] := by
  cases column with
  | none => rfl
  | some column => rfl

/-! ## Drafts of statements -/

namespace Table

def draft (table : Table) (plan : Plan) : Draft :=
  .word (if plan.distinct then "SELECT DISTINCT " else "SELECT ") :: draftSelection plan.columns ++
    [.word " FROM ", .identifier table.name] ++ draftWhere plan.conditions ++
    Draft.headed " GROUP BY " ", " (draftColumns plan.groups) ++
    Draft.headed " HAVING " " AND " (plan.havings.map draftHaving) ++
    Draft.headed " ORDER BY " ", " (plan.orders.map draftOrder) ++
    draftPaging plan.limit plan.offset

def draftAggregate (table : Table) (plan : Plan) (fn : AggregateFunction)
    (column : Option String) : Draft :=
  .word "SELECT " :: .word (functionWord fn) :: .word "(" :: draftTarget column ++
    .word ") AS aggregate FROM (" :: table.draft (aggregated plan) ++ [.word ") AS q"]

end Table

end Sql

end OperatorConsole
