import OperatorConsole.Command.Basic

/-!
# Catalog entries

What a presentation layer gets to see of a command.  The choices of an option are
those at the time of asking.
-/

namespace OperatorConsole

structure CatalogOption where
  key : String
  label : String
  kind : OptionKind
  required : Bool
  numeric : Bool
  default : Option Value
  choices : Option (List Value)
  help : Option String
  placeholder : Option String
  deriving DecidableEq, Repr

structure CatalogEntry where
  name : String
  displayName : String
  description : String
  category : String
  riskLevel : RiskLevel
  requiresConfirmation : Bool
  options : List CatalogOption
  deriving DecidableEq, Repr

namespace CatalogOption

/-- Only an option that is chosen from a list shows choices. -/
def ofSpec [Monad m] (ask : String -> m (List Value)) (o : OptionSpec) : m CatalogOption := do
  let entry := fun choices => CatalogOption.mk o.key o.label o.kind o.required o.numeric o.default
    choices o.help o.placeholder
  if o.kind = .choice then return entry (some (← o.currentChoices ask))
  else return entry none

def toValue (o : CatalogOption) : Value :=
  .ofFields ([("key", .text o.key), ("label", .text o.label), ("kind", .text o.kind.word),
      ("required", .bool o.required), ("numeric", .bool o.numeric)] ++
    Fields.ofOption "default" o.default ++ Fields.ofOption "choices" (o.choices.map .list) ++
    Fields.ofOption "help" (o.help.map .text) ++
    Fields.ofOption "placeholder" (o.placeholder.map .text))

end CatalogOption

namespace CatalogEntry

def toValue (e : CatalogEntry) : Value :=
  .ofFields [("name", .text e.name), ("displayName", .text e.displayName),
    ("description", .text e.description), ("category", .text e.category),
    ("riskLevel", .text e.riskLevel.word), ("requiresConfirmation", .bool e.requiresConfirmation),
    ("options", .list (e.options.map CatalogOption.toValue))]

end CatalogEntry

def Command.catalogEntry (c : Command σ) (confirmation : Bool) : Action σ CatalogEntry := do
  let d := c.descriptor
  let options ← d.options.mapM (CatalogOption.ofSpec c.supply)
  return ⟨d.name, d.displayName, d.description, d.category, d.riskLevel, confirmation, options⟩

end OperatorConsole
