import OperatorConsole.Failure
import OperatorConsole.Options.Definition

/-!
# Option values

The values that an operator supplies, against the options of a command.

## Absence

An absent value, null, an unchecked box and blank text count as not supplied.
Defaults follow a narrower rule: they stand in only for an absent value.

## Order

Options are looked at in the order of their definitions and the rules of an option
in their own order.  What fails first is reported.
-/

namespace OperatorConsole

def Value.isEmpty : Value -> Bool
  | .absent => true
  | .null => true
  | .bool b => !b
  | .text s => Text.isBlankString s
  | _ => false

namespace OptionRule

/-- Whether the number of a value stands in a relation to the argument of the rule. A
rule without an argument and a value without a number ask for nothing. -/
def bounds (relation : Number -> Number -> Bool) (rule : OptionRule) (v : Value) : Bool :=
  match rule.arg, v.numeric? with
  | some bound, some x => relation x bound.asNumber
  | _, _ => true

def holds (rule : OptionRule) (v : Value) : Bool :=
  match rule.name with
  | .integer => v.numeric?.any Number.isInteger
  | .numeric => v.isNumeric
  | .min => rule.bounds (fun x bound => Number.le bound x) v
  | .max => rule.bounds Number.le v
  | .unknown _ => false

end OptionRule

namespace OptionSpec

/-- The values that the option can be chosen from. There is no telling for an option that
is not chosen or whose choices a supplier lists. -/
def listed? (o : OptionSpec) : Option (List Value) :=
  if o.kind = .choice && o.supplier.isNone then
    o.choices.map fun choices => choices.map fun choice => Fields.own choice.fields "value"
  else none

def unlisted? (o : OptionSpec) (v : Value) : Option Failure :=
  match o.listed?, v.text? with
  | none, _ => none
  | some _, none => some Failure.noText
  | some listed, some text =>
      if listed.contains (.text text) then none
      else
        some (.validation (.invalidValue o.key
          (some s!"'{text}' is not one of the available choices")))

/-- What is wrong with a supplied value of the option, if anything is. -/
def complaint? (o : OptionSpec) (v : Value) : Option Failure :=
  match o.rules.find? fun rule => !rule.holds v with
  | some rule => some (.validation (.ruleViolation o.key rule))
  | none => o.unlisted? v

/-- What is wrong with the value of the option among the given ones, if anything is. -/
def failure? (o : OptionSpec) (values : Record) : Option Failure :=
  let v := values.get o.key
  if v.isEmpty then
    if o.required then some (.validation (.missingRequired o.key o.label)) else none
  else o.complaint? v

end OptionSpec

namespace Options

/-- The values that were handed in for the options. What answers nothing will do only
where nothing is asked. -/
def given (values : Value) (schema : List OptionSpec) : Except Failure Record :=
  match Record.ofValue? values, schema with
  | some r, _ => .ok r
  | none, [] => .ok .empty
  | none, o :: _ => .error (Failure.unanswered values o.key)

def failure? (values : Record) (schema : List OptionSpec) : Option Failure :=
  schema.findSome? fun o => o.failure? values

def validate (values : Record) (schema : List OptionSpec) : Except Failure Unit :=
  match failure? values schema with
  | some failure => .error failure
  | none => .ok ()

def resolved (values : Record) (o : OptionSpec) : Value :=
  match values.get o.key with
  | .absent => o.default.getD .absent
  | v => v

/-- The values of the declared options and no others, absent ones filled in from the
defaults. -/
def applyDefaults (values : Record) (schema : List OptionSpec) : Record :=
  schema.foldl
    (fun result o =>
      match resolved values o with
      | .absent => result
      | v => result.assign o.key v)
    .empty

end Options

/-- What becomes of asking a supplier that nobody answers for. -/
def OptionSpec.noSupplier : Failure :=
  .fault .wrongType "option.resolveChoices is not a function"

/-- The choices of an option as they are now; `ask` answers for the suppliers. -/
def OptionSpec.currentChoices [Monad m] (o : OptionSpec) (ask : String -> m (List Value)) :
    m (List Value) :=
  match o.supplier with
  | some name => ask name
  | none => pure (o.choices.getD [])

end OperatorConsole
