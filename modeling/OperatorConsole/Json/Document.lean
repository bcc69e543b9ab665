import OperatorConsole.Json.Printer
import OperatorConsole.Json.StandIn

/-!
# Documents

A value that holds an exact integer has no document, and asking for one fails.
-/

namespace OperatorConsole

namespace Json

def unwritableText : String :=
  "Do not know how to serialize a BigInt"

def unwritable : Failure :=
  .fault .wrongType unwritableText

/-- The document of a value, or the text of a value that has no document. -/
def document (layout : Layout) (v : Value) : Except Failure (List Char) := do
  let shown ← standIn v
  if isWritable shown then
    match print? layout 0 shown, v.chars? with
    | some text, _ => .ok text
    | none, some text => .ok text
    | none, none => .error Failure.noText
  else .error unwritable

end Json

end OperatorConsole
