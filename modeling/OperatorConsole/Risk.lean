import OperatorConsole.Check

/-!
# Risk

The risk of a command decides where it may run and whether an operator has to
confirm it first.  A command has one of the three levels in `RiskLevel.all`.  A gate
can be asked about any word, though, and takes one that names no level to be above low.
-/

namespace OperatorConsole

inductive RiskLevel where
  /-- Operations that only read or are safe otherwise. -/
  | low
  /-- Changes that can usually be undone. -/
  | medium
  /-- Operations that can lose data or cause downtime. -/
  | high
  /-- A word that names no level. -/
  | unknown (word : String)
  deriving DecidableEq, Repr

namespace RiskLevel

def all : List RiskLevel :=
  [.low, .medium, .high]

def word : RiskLevel -> String
  | .low => "low"
  | .medium => "medium"
  | .high => "high"
  | .unknown word => word

def words : List (String × RiskLevel) :=
  all.map fun level => (level.word, level)

def ofWord (word : String) : RiskLevel :=
  (words.lookup word).getD (.unknown word)

def check : Value -> Check RiskLevel :=
  Check.oneOf words

end RiskLevel

/-- Anything above low risk, and anything whose author asked for it, has to be confirmed. -/
def requiresConfirmation (risk : RiskLevel) (explicitConfirmation : Bool) : Bool :=
  explicitConfirmation || risk != .low

end OperatorConsole
