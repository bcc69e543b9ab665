import OperatorConsole.Failure
import OperatorConsole.Options.Definition
import OperatorConsole.Risk

/-!
# Command descriptors

What a command says about itself: its name, how it is shown, how risky it is and
which options it takes.

`Descriptor.check` accepts a description whose parts are all in order and whose
options have different keys, and fills in what may be left out.
-/

namespace OperatorConsole

structure Descriptor where
  name : String
  displayName : String
  description : String
  category : String
  riskLevel : RiskLevel
  /-- Whether the author asks for a confirmation, whatever the risk. -/
  explicitConfirmation : Bool
  options : List OptionSpec
  deriving DecidableEq, Repr

namespace Descriptor

def hasNoBlanks (name : String) : Bool :=
  name != "" && name.toList.all fun c => !Text.isBlank c

def checkName (v : Value) : Check String :=
  (((Check.string v).atLeast 1).atMost 128).require hasNoBlanks
    "Command names cannot contain whitespace"

def checkDisplayName (v : Value) : Check String :=
  ((Check.string v).atLeast 1).atMost 128

/-- The issues of options whose keys have been seen before. -/
def duplicateKeys (seen : List String) (index : Nat) : List OptionSpec -> List Issue
  | [] => []
  | o :: rest =>
      (if seen.contains o.key then
        [⟨["options", toString index, "key"], s!"Duplicate option key \"{o.key}\""⟩]
      else []) ++ duplicateKeys (o.key :: seen) (index + 1) rest

def check (v : Value) : Check Descriptor :=
  (Check.record (fun f => Descriptor.mk <$>
      Check.field f "name" checkName <*>
      Check.field f "displayName" checkDisplayName <*>
      Check.field f "description" Check.string <*>
      Check.field f "category" (fun v => (Check.string v).atLeast 1) <*>
      Check.field f "riskLevel" RiskLevel.check <*>
      Check.field f "explicitConfirmation" (Check.withDefault false Check.boolean) <*>
      Check.field f "options" (Check.withDefault [] (Check.list OptionSpec.check))) v).alsoIssues
    fun d => duplicateKeys [] 0 d.options

/-- The options that a description lists, whether or not they are in order. Something
else in their place cannot be gone through, unless it is text, which lists none. -/
def optionsOf (v : Value) : Except Failure (List OptionSpec) :=
  if v.isMissing then .error (Failure.unanswered v "options")
  else
    match v.fields.own "options" with
    | .list items => .ok (items.map OptionSpec.ofDefinition)
    | .absent => .ok []
    | .null => .ok []
    | .text _ => .ok []
    | _ => .error (.fault .wrongType "schema is not iterable")

def requiresConfirmation (d : Descriptor) : Bool :=
  OperatorConsole.requiresConfirmation d.riskLevel d.explicitConfirmation

def toValue (d : Descriptor) : Value :=
  .ofFields [("name", .text d.name), ("displayName", .text d.displayName),
    ("description", .text d.description), ("category", .text d.category),
    ("riskLevel", .text d.riskLevel.word),
    ("explicitConfirmation", .bool d.explicitConfirmation),
    ("options", .list (d.options.map OptionSpec.toValue))]

end Descriptor

end OperatorConsole
