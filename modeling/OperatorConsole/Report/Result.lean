import OperatorConsole.Json.Document

/-!
# Text of results

Scalars are shown as they are; lists and records as an indented JSON document.
-/

namespace OperatorConsole

namespace Report

def resultChars (v : Value) : Except Failure (List Char) :=
  match v with
  | .absent => .ok "NULL".toList
  | .null => .ok "NULL".toList
  | .bool b => .ok (Value.boolText b)
  | .number x => .ok x.toChars
  | .text s => .ok s.toList
  | _ => Json.document (.indented 4) v

def resultText (v : Value) : Except Failure String :=
  (resultChars v).map String.ofList

end Report

end OperatorConsole
