import OperatorConsole.Text.Basic

/-!
# Plain text

Output is stored without the styling and the markers that it has on a terminal.

## Removal

`removeRuns` takes out every run of characters that a measure finds: where the measure
gives a length above zero, so many characters go.  It reads the text once, from left
to right.  What it leaves stands side by side, halves of pairs included.
-/

namespace OperatorConsole

namespace Report

/-- Removes runs; the first argument counts characters that are still to go. -/
def removeRuns (runLength : List Char -> Nat) : Nat -> List Char -> List Char
  | _, [] => []
  | n + 1, _ :: rest => removeRuns runLength n rest
  | 0, c :: rest =>
      match runLength (c :: rest) with
      | 0 => c :: removeRuns runLength 0 rest
      | n + 1 => removeRuns runLength n rest

def withoutRuns (runLength : List Char -> Nat) (text : List Char) : List Char :=
  Text.joinHalves (removeRuns runLength 0 text)

/-! ## Styling -/

def isStyleParameter (c : Char) : Bool :=
  c.isDigit || c == ';'

/-- The length of the styling sequence at the start of a text. -/
def stylingLength : List Char -> Nat
  | '\x1b' :: '[' :: rest =>
      match rest.dropWhile isStyleParameter with
      | 'm' :: _ => (rest.takeWhile isStyleParameter).length + 3
      | _ => 0
  | _ => 0

/-! ## Markers -/

def markers : List Char :=
  ['\u2705', '\u274c', '\u26a0', '\u2139', '📊', '📋', '🔍']

/-- The length of the marker at the start of a text, with a variation selector and a
space behind it. -/
def markerLength : List Char -> Nat
  | [] => 0
  | c :: rest =>
      if markers.contains c then
        match rest with
        | '\ufe0f' :: ' ' :: _ => 3
        | '\ufe0f' :: _ => 2
        | ' ' :: _ => 2
        | _ => 1
      else 0

/-! ## Output -/

def plainChars (text : List Char) : List Char :=
  Text.trim (withoutRuns markerLength (withoutRuns stylingLength text))

/-- Output as it is stored. -/
def plainText (output : String) : String :=
  String.ofList (plainChars output.toList)

end Report

end OperatorConsole
