import OperatorConsole.Journal
import OperatorConsole.Scalar

/-!
# SQL statements

A database is handed a text and, beside it, a list of parameters.  It binds the
parameters to the placeholders of the text by their places, so whoever makes a
statement has to keep the two in line.

## Databases

`Database` is what a host supplies to run statements.
-/

namespace OperatorConsole

namespace Sql

/-- Writes a double quote twice and every other character once. -/
def doubleQuotes : List Char -> List Char
  | [] => []
  | c :: rest =>
      if c = '\x22' then '\x22' :: '\x22' :: doubleQuotes rest
      else c :: doubleQuotes rest

def quoteIdentifier (name : String) : String :=
  String.ofList ('\x22' :: (doubleQuotes name.toList ++ ['\x22']))

/-- The database has no truth values of its own. -/
def bindable : Scalar -> Scalar
  | .bool b => .number (if b then 1 else 0)
  | v => v

structure Statement where
  text : String
  parameters : List Scalar
  deriving DecidableEq, Repr

structure Database (σ : Type) where
  all : Statement -> Action σ (List Fields)
  get : Statement -> Action σ (Option Fields)
  /-- The rows of a statement, drawn one after the other. -/
  iterate : Statement -> Action σ (List Fields)

end Sql

end OperatorConsole
