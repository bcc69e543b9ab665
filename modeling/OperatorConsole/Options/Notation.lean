import OperatorConsole.Failure
import OperatorConsole.Options.Definition

/-!
# Notation of rules

Rules have a compact notation: `integer|min:1|max:365`.  Bars separate them, a colon
separates the name of a rule from its argument, and blanks around parts, names and
arguments do not count.

Empty parts are skipped.  Text behind a second colon is not read, and an empty
argument stands for zero.
-/

namespace OperatorConsole

namespace OptionRule

def ofPieces : List (List Char) -> Check OptionRule
  | [] => check (.ofFields [])
  | [name] => check (.ofFields [("name", .text (String.ofList (Text.trim name)))])
  | name :: arg :: _ =>
      check (.ofFields [("name", .text (String.ofList (Text.trim name))),
        ("arg", .number (Number.readChars (Text.trim arg)))])

def ofPart (part : List Char) : Except Failure OptionRule :=
  match (ofPieces (Text.splitOn ':' part)).result? with
  | some rule => .ok rule
  | none =>
      .error (.validation (.invalidValue "rules"
        (some s!"\"{String.ofList part}\" is not a supported rule")))

def partsOf (notationText : List Char) : List (List Char) :=
  ((Text.splitOn '|' notationText).map Text.trim).filter fun part => !part.isEmpty

/-- Reads the notation of a list of rules; the first part that writes none is reported. -/
def ofNotation (s : String) : Except Failure (List OptionRule) :=
  (partsOf s.toList).mapM ofPart

def written (rule : OptionRule) : List Char :=
  rule.name.text.toList ++
    match rule.arg with
    | some v => ':' :: v.chars?.getD []
    | none => []

def toNotation (rules : List OptionRule) : String :=
  String.ofList (Text.joinWith ['|'] (rules.map written))

end OptionRule

end OperatorConsole
