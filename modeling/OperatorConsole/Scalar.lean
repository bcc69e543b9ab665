import OperatorConsole.Value.Text

/-!
# Scalars

The values that a query can mention and a stored row can hold.
-/

namespace OperatorConsole

inductive Scalar where
  | null
  | bool (b : Bool)
  | number (x : Number)
  | text (s : String)
  deriving DecidableEq, Repr

namespace Scalar

def toValue : Scalar -> Value
  | .null => .null
  | .bool b => .bool b
  | .number x => .number x
  | .text s => .text s

def shown : Scalar -> String
  | .null => "null"
  | .bool b => String.ofList (Value.boolText b)
  | .number x => x.toText
  | .text s => s

end Scalar

def Value.scalar? : Value -> Option Scalar
  | .null => some .null
  | .bool b => some (.bool b)
  | .number x => some (.number x)
  | .text s => some (.text s)
  | _ => none

namespace Value

def isNumeric : Value -> Bool
  | .number x => x.isFinite
  | .text s => Number.isNumericText s
  | _ => false

def numeric? : Value -> Option Number
  | .number x => if x.isFinite then some x else none
  | .text s => if Number.isNumericText s then some (Number.ofText s) else none
  | _ => none

/-- The number that a calculation takes a value for; one that writes no number counts as
no number. -/
def asNumber : Value -> Number
  | .absent => .nan
  | .null => 0
  | .bool b => if b then 1 else 0
  | .number x => x
  | .exact n => Number.ofInt n
  | v => (v.text?.map Number.ofText).getD .nan

end Value

end OperatorConsole
