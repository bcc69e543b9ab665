import OperatorConsole.Json.Document
import OperatorConsole.Report.Layout

/-!
# Tables

A table has a border, a line of headers and a line for each row.  Every column is as
wide as its widest cell.  Missing cells are empty and cells without a header are left
out.  A table may have any number of rows: that an engine takes only so many arguments
in a call is left out.
-/

namespace OperatorConsole

namespace Report

/-- The text of a cell; a structure is written as a compact document. -/
def cellText (v : Value) : Except Failure (List Char) :=
  match v with
  | .absent => .ok []
  | .null => .ok []
  | .list _ => Json.document .compact v
  | .record _ _ => Json.document .compact v
  | .ancestor => Json.document .compact v
  | .bytes _ => Json.document .compact v
  | _ => .ok (v.chars?.getD [])

def rowCells : List String -> List Value -> Except Failure (List (List Char))
  | [], _ => .ok []
  | _ :: headers, [] => do
      let rest ← rowCells headers []
      .ok ([] :: rest)
  | _ :: headers, v :: row => do
      let cell ← cellText v
      let rest ← rowCells headers row
      .ok (cell :: rest)

def widen (widths : List Nat) (cells : List (List Char)) : List Nat :=
  List.zipWith (fun width cell => max width (Text.width cell)) widths cells

def columnWidths (headers : List (List Char)) (rows : List (List (List Char))) : List Nat :=
  rows.foldl widen (headers.map Text.width)

def border (widths : List Nat) (left middle right : Char) : List Char :=
  left :: (Text.joinWith [middle] (widths.map fun width => line '─' (width + 2)) ++ [right])

def tableLine (widths : List Nat) (cells : List (List Char)) : List Char :=
  let padded := List.zipWith (fun width cell => ' ' :: (Text.padRight width cell ++ [' ']))
    widths cells
  '│' :: (Text.joinWith ['│'] padded ++ ['│'])

def tableLines (headers : List (List Char)) (rows : List (List (List Char))) : List (List Char) :=
  let widths := columnWidths headers rows
  [border widths '┌' '┬' '┐', tableLine widths headers, border widths '├' '┼' '┤'] ++
    rows.map (tableLine widths) ++ [border widths '└' '┴' '┘']

def table (headers : List String) (rows : List (List Value)) : Except Failure String := do
  let cells ← rows.mapM (rowCells headers)
  .ok (String.ofList (joinLines (tableLines (headers.map String.toList) cells)))

end Report

end OperatorConsole
