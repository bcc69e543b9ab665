import OperatorConsole.Check
import OperatorConsole.Options.Rule

/-!
# Option definitions

An option is one thing that an operator fills in before a command runs.

## Suppliers

The choices of an option may come from a supplier that the command asks each time
they are needed.  A definition only names it; the command answers to the name.

## Reading definitions

`OptionSpec.check` reads a definition that must have every part in order.
`OptionSpec.ofDefinition` reads one that nobody has checked: it keeps defaults and
choices as they are and takes other parts that are missing to be empty.
-/

namespace OperatorConsole

inductive OptionKind where
  | text
  | longText
  | choice
  | boolean
  deriving DecidableEq, Repr

namespace OptionKind

def words : List (String × OptionKind) :=
  [("text", .text), ("long_text", .longText), ("choice", .choice), ("boolean", .boolean)]

def word : OptionKind -> String
  | .text => "text"
  | .longText => "long_text"
  | .choice => "choice"
  | .boolean => "boolean"

end OptionKind

structure Choice where
  value : String
  label : String
  deriving DecidableEq, Repr

structure OptionSpec where
  key : String
  label : String
  kind : OptionKind
  required : Bool
  default : Option Value
  /-- Whether a form shows a field for numbers. -/
  numeric : Bool
  /-- What there is to choose from, each a record with a value and a label. -/
  choices : Option (List Value)
  /-- The name of the supplier of choices. -/
  supplier : Option String
  rules : List OptionRule
  help : Option String
  placeholder : Option String
  deriving DecidableEq, Repr

namespace Choice

def check : Value -> Check Choice :=
  Check.record fun f => Choice.mk <$> Check.field f "value" Check.string <*>
    Check.field f "label" Check.string

def toValue (c : Choice) : Value :=
  .ofFields [("value", .text c.value), ("label", .text c.label)]

end Choice

namespace OptionRule

def hasArgument (rule : OptionRule) : Bool :=
  !rule.name.isBound || rule.arg.isSome

def checkArgument (v : Value) : Check Value :=
  Value.number <$> Check.integer v

def check (v : Value) : Check OptionRule :=
  (Check.record (fun f => OptionRule.mk <$>
      Check.field f "name" (Check.oneOf (RuleName.all.map fun n => (n.text, n))) <*>
      Check.field f "arg" (Check.optional checkArgument)) v).require hasArgument
    "min and max rules need an integer argument"

def toValue (rule : OptionRule) : Value :=
  .ofFields (("name", .text rule.name.text) :: Fields.ofOption "arg" rule.arg)

end OptionRule

namespace OptionSpec

def checkSupplier : Value -> Check String
  | .supplier name => Check.ok name
  | .routine name => Check.ok name
  | _ => Check.wrong "Invalid input"

/-- A choice needs something to choose from. -/
def hasChoices (o : OptionSpec) : Bool :=
  o.kind != .choice || (o.choices.any fun cs => !cs.isEmpty) || o.supplier.isSome

def check (v : Value) : Check OptionSpec :=
  (Check.record (fun f => OptionSpec.mk <$>
      Check.field f "key" (fun v => ((Check.string v).atLeast 1).atMost 64) <*>
      Check.field f "label" (fun v => (Check.string v).atLeast 1) <*>
      Check.field f "kind" (Check.oneOf OptionKind.words) <*>
      Check.field f "required" (Check.withDefault false Check.boolean) <*>
      Check.field f "default" (Check.optional fun v => Scalar.toValue <$> Check.scalar v) <*>
      Check.field f "numeric" (Check.withDefault false Check.boolean) <*>
      Check.field f "choices"
        (Check.optional (Check.list fun v => Choice.toValue <$> Choice.check v)) <*>
      Check.field f "resolveChoices" (Check.optional checkSupplier) <*>
      Check.field f "rules" (Check.withDefault [] (Check.list OptionRule.check)) <*>
      Check.field f "help" (Check.optional Check.string) <*>
      Check.field f "placeholder" (Check.optional Check.string)) v).require hasChoices
    "choice options need static choices or a choice resolver"

/-! ## Definitions that nobody has checked -/

def textOf? : Value -> Option String
  | .text s => some s
  | _ => none

def wordOf (v : Value) : String :=
  v.text?.getD ""

def partOf? : Value -> Option Value
  | .absent => none
  | v => some v

def ruleOf (v : Value) : OptionRule :=
  let f := v.fields
  ⟨RuleName.ofText (wordOf (Fields.own f "name")), partOf? (Fields.own f "arg")⟩

/-- The name of the supplier that a value stands for. Anything but a function that is
there all the same stands for one that nobody answers for, which has no name. -/
def supplierOf? (v : Value) : Option String :=
  match (checkSupplier v).result? with
  | some name => some name
  | none => if v.toBool then some "" else none

def listOf? : Value -> Option (List Value)
  | .list items => some items
  | _ => none

def ofDefinition (v : Value) : OptionSpec :=
  let f := v.fields
  let key := wordOf (Fields.own f "key")
  { key := key
    label := ((partOf? (Fields.own f "label")).map wordOf).getD key
    kind := ((textOf? (Fields.own f "kind")).bind (OptionKind.words.lookup ·)).getD .text
    required := (Fields.own f "required").toBool
    default := partOf? (Fields.own f "default")
    numeric := (Fields.own f "numeric").toBool
    choices := listOf? (Fields.own f "choices")
    supplier := supplierOf? (Fields.own f "resolveChoices")
    rules := ((listOf? (Fields.own f "rules")).getD []).map ruleOf
    help := textOf? (Fields.own f "help")
    placeholder := textOf? (Fields.own f "placeholder") }

/-! ## Definitions as values -/

def toValue (o : OptionSpec) : Value :=
  .ofFields ([("key", .text o.key), ("label", .text o.label), ("kind", .text o.kind.word),
      ("required", .bool o.required)] ++
    Fields.ofOption "default" o.default ++ [("numeric", .bool o.numeric)] ++
    Fields.ofOption "choices" (o.choices.map .list) ++
    Fields.ofOption "resolveChoices" (o.supplier.map Value.supplier) ++
    [("rules", .list (o.rules.map OptionRule.toValue))] ++
    Fields.ofOption "help" (o.help.map .text) ++
    Fields.ofOption "placeholder" (o.placeholder.map .text))

end OptionSpec

end OperatorConsole
