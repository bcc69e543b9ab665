import OperatorConsole.Command.Basic
import OperatorConsole.Query.Executor
import OperatorConsole.Report.Layout
import OperatorConsole.Report.Result

/-!
# Data queries as a command

`data:query` runs a query expression against one entity type and shows the result.  The
entity types on offer are those of the resolver at the time of asking.
-/

namespace OperatorConsole

namespace DataQuery

def placeholder : String :=
  "whereDate('created_at', today())->get()->pluck('name', 'id')"

def supplier : String :=
  "entities"

def description : Value :=
  .ofFields [("name", .text "data:query"), ("displayName", .text "Data Query Runner"),
    ("description", .text ("Run read-only queries for data exploration and analysis. " ++
      "Only read-only query methods are allowed.")),
    ("category", .text "Data Exploration"), ("riskLevel", .text RiskLevel.low.word),
    ("options", .list [
      .ofFields [("key", .text "entity"), ("label", .text "Entity Type"),
        ("kind", .text OptionKind.choice.word), ("required", .bool true),
        ("resolveChoices", .supplier supplier), ("help", .text "Entity type to query")],
      .ofFields [("key", .text "query"), ("label", .text "Query"),
        ("kind", .text OptionKind.longText.word), ("required", .bool true),
        ("placeholder", .text placeholder),
        ("help", .text ("Method chain without the entity prefix, e.g. " ++
          "where('status', 'active')->count()"))]])]

def choices (resolver : Query.EntityResolver σ) : Action σ (List Value) := do
  let entities ← resolver.list
  return entities.map fun entity =>
    .ofFields [("value", .text entity.name), ("label", entity.label)]

def textOf (values : Value) (key : String) : Action σ String := do
  let v ← Action.settle (Failure.answerOf values key)
  Action.settle (Failure.textOf v)

def validate (executor : Query.Executor σ) (values : Value) (schema : Option (List OptionSpec)) :
    Action σ Unit := do
  Candidate.validateOptions (fun _ => description) values schema
  let entity ← textOf values "entity"
  match ← executor.resolver.resolve entity with
  | none => throw (.query (.unknownEntityType entity))
  | some _ =>
      let query ← textOf values "query"
      let _ ← executor.validator.accept query

def preamble (entity query : String) : List String :=
  [s!"📋 Entity: {entity}", s!"📋 Query: {query}", "", s!"Executing: {entity}::{query}",
    String.ofList Report.lightRule]

def execute (executor : Query.Executor σ) (values : Value) : Action σ CommandResult := do
  let entity ← textOf values "entity"
  let query ← textOf values "query"
  match ← executor.run entity query with
  | .failed _ message _ => return ⟨Report.page (preamble entity query), 1, some message⟩
  | .succeeded value _ =>
      let shown ← Action.settle (Report.resultText value)
      return .success (Report.page (preamble entity query ++
        ["✅ Query executed successfully", "", "Results:", String.ofList Report.lightRule, shown]))

def candidate (executor : Query.Executor σ) : Candidate σ where
  described := fun _ => description
  validate := some (validate executor)
  execute := some fun values _ => do
    let result ← execute executor values
    return some result
  supply := fun _ => choices executor.resolver

end DataQuery

end OperatorConsole
