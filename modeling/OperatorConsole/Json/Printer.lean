import OperatorConsole.Value.Text

/-!
# JSON text of values

A value is written as a JSON document, either without any blanks or with every
item on a line of its own.

## What has no JSON text

Absent values and functions have none: a record leaves such a field out and a
list writes `null` for it.  Of a record only its own fields are written.  Numbers
without a value are written `null`.  An exact integer anywhere inside makes the whole
document unwritable, which `Json.isWritable` tells beforehand.
-/

namespace OperatorConsole

namespace Json

/-! ## Strings -/

def hexDigit (n : Nat) : Char :=
  Nat.digitChar (n % 16)

def unitEscape (n : Nat) : List Char :=
  ['\\', 'u', hexDigit (n / 4096), hexDigit (n / 256), hexDigit (n / 16), hexDigit n]

def escapeChar (c : Char) : List Char :=
  if c = '\x22' then ['\\', '\x22']
  else if c = '\\' then ['\\', '\\']
  else if c = '\x08' then ['\\', 'b']
  else if c = '\x0c' then ['\\', 'f']
  else if c = '\n' then ['\\', 'n']
  else if c = '\r' then ['\\', 'r']
  else if c = '\t' then ['\\', 't']
  else if c.toNat < 32 then unitEscape c.toNat
  else if Text.isHalf c then unitEscape (c.toNat - 0x100000)
  else [c]

def quote (text : List Char) : List Char :=
  '\x22' :: (text.flatMap escapeChar ++ ['\x22'])

/-! ## Layout -/

/-- How items are set apart: on one line, or each on its own line, indented by so
many spaces a level. -/
inductive Layout where
  | compact
  | indented (step : Nat)
  deriving DecidableEq, Repr

namespace Layout

def lineBreak (layout : Layout) (level : Nat) : List Char :=
  match layout with
  | .compact => []
  | .indented step => '\n' :: List.replicate (step * level) ' '

def colon (layout : Layout) : List Char :=
  match layout with
  | .compact => [':']
  | .indented _ => [':', ' ']

def enclose (layout : Layout) (level : Nat) (opening closing : Char)
    (items : List (List Char)) : List Char :=
  match items with
  | [] => [opening, closing]
  | _ =>
      opening :: (layout.lineBreak (level + 1) ++
        Text.joinWith (',' :: layout.lineBreak (level + 1)) items ++
        layout.lineBreak level ++ [closing])

end Layout

def bytesItems (layout : Layout) (level : Nat) (data : List UInt8) : List Char :=
  layout.enclose level '{' '}'
    [quote "type".toList ++ layout.colon ++ quote "Buffer".toList,
      quote "data".toList ++ layout.colon ++
        layout.enclose (level + 1) '[' ']' (data.map fun b => Nat.toDigits 10 b.toNat)]

/-! ## Documents -/

mutual

def print? (layout : Layout) (level : Nat) : Value -> Option (List Char)
  | .absent => none
  | .null => some "null".toList
  | .bool b => some (Value.boolText b)
  | .number x => some (if x.isFinite then x.toChars else "null".toList)
  | .text s => some (quote s.toList)
  | .exact _ => none
  | .bytes data => some (bytesItems layout level data)
  | .list items => some (layout.enclose level '[' ']' (printItems layout (level + 1) items))
  | .record fields _ => some (layout.enclose level '{' '}' (printFields layout (level + 1) fields))
  | .ancestor => some ['{', '}']
  | .supplier _ => none
  | .routine _ => none

def printItems (layout : Layout) (level : Nat) : List Value -> List (List Char)
  | [] => []
  | item :: items => (print? layout level item).getD "null".toList :: printItems layout level items

def printFields (layout : Layout) (level : Nat) : List (String × Value) -> List (List Char)
  | [] => []
  | (key, v) :: fields =>
      match print? layout level v with
      | some text => (quote key.toList ++ layout.colon ++ text) :: printFields layout level fields
      | none => printFields layout level fields

end

/-! ## Writable values -/

mutual

/-- Whether no exact integer occurs in a value. -/
def isWritable : Value -> Bool
  | .exact _ => false
  | .list items => areWritable items
  | .record fields _ => haveWritable fields
  | _ => true

def areWritable : List Value -> Bool
  | [] => true
  | item :: items => isWritable item && areWritable items

def haveWritable : List (String × Value) -> Bool
  | [] => true
  | (_, v) :: fields => isWritable v && haveWritable fields

end

/-- The compact document for a value that has one. -/
def compact? (v : Value) : Option String :=
  (print? .compact 0 v).map String.ofList

def quoteString (s : String) : String :=
  String.ofList (quote s.toList)

end Json

end OperatorConsole
