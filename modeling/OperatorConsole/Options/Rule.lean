import OperatorConsole.Value.Text

/-!
# Rules on option values

A rule constrains what may be supplied for an option.  `min` and `max` compare
with an argument; the other rules carry one only if they were written with one.

A definition that nobody has checked may name a rule that does not exist.  No value
satisfies such a rule, and there are no words for the complaint.  Its arguments may be
anything; in a checked definition they are whole numbers.
-/

namespace OperatorConsole

inductive RuleName where
  | integer
  | numeric
  | min
  | max
  /-- The name of no rule. -/
  | unknown (name : String)
  deriving DecidableEq, Repr

namespace RuleName

def all : List RuleName :=
  [.integer, .numeric, .min, .max]

def text : RuleName -> String
  | .integer => "integer"
  | .numeric => "numeric"
  | .min => "min"
  | .max => "max"
  | .unknown name => name

def ofText (s : String) : RuleName :=
  (all.find? (·.text == s)).getD (.unknown s)

def isBound : RuleName -> Bool
  | .min => true
  | .max => true
  | _ => false

end RuleName

structure OptionRule where
  name : RuleName
  arg : Option Value
  deriving DecidableEq, Repr

namespace OptionRule

def argText (rule : OptionRule) : String :=
  match rule.arg with
  | some v => v.text?.getD ""
  | none => "undefined"

def violation (field : String) (rule : OptionRule) : String :=
  match rule.name with
  | .integer => s!"Option '{field}' must be an integer"
  | .numeric => s!"Option '{field}' must be numeric"
  | .min => s!"Option '{field}' must be at least {rule.argText}"
  | .max => s!"Option '{field}' must not exceed {rule.argText}"
  | .unknown _ => ""

end OptionRule

end OperatorConsole
