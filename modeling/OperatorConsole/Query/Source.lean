import OperatorConsole.Journal
import OperatorConsole.Query.Plan

/-!
# Entity sources

What a host program supplies: the entity types that can be queried, and for each
one a source that carries out plans.
-/

namespace OperatorConsole

namespace Query

abbrev Row := Record

structure EntitySource (σ : Type) where
  name : String
  primaryKey : String
  fields : Action σ (List String)
  select : Plan -> Action σ (List Row)
  /-- The rows of a plan, drawn one after the other. -/
  iterate : Plan -> Action σ (List Row)
  /-- An aggregate over the rows that the plan gives; no column means whole rows. -/
  aggregate : Plan -> AggregateFunction -> Option String -> Action σ (Option Number)

structure EntityType where
  name : String
  /-- What it is called, nearly always a text. -/
  label : Value
  fields : List String
  deriving DecidableEq, Repr

def EntityType.toValue (t : EntityType) : Value :=
  .ofFields [("name", .text t.name), ("label", t.label),
    ("fields", .list (t.fields.map .text))]

structure EntityResolver (σ : Type) where
  list : Action σ (List EntityType)
  resolve : String -> Action σ (Option (EntitySource σ))

end Query

end OperatorConsole
