import OperatorConsole.Text.Utf8
import OperatorConsole.Value.Record

/-!
# Text of values

Nearly every value has a text.  A record has none if the name by which records are put
into words is a field of data, or if its bases do not end in `Value.ancestor`, unless a
routine that answers nothing speaks for it.  A list has none if one of its items has none.
-/

namespace OperatorConsole

namespace Value

def textKey : String :=
  "toString"

/-- The name by which a record without such a text is asked for what it stands for. -/
def valueKey : String :=
  "valueOf"

def isSilent (routine : String) : Bool :=
  routine ∈ ["__lookupGetter__", "__lookupSetter__"]

def isSilentAt (key : String) (v : Value) : Bool :=
  match stored? key v with
  | some (.routine name) => isSilent name
  | _ => false

def recordChars? (fields : Fields) (base : Value) : Option (List Char) :=
  let r := Value.record fields base
  let worded := (stored? textKey r).isSome
  if !worded && base.isPlain then some "[object Object]".toList
  else if isSilentAt textKey r || ((worded || !base.isRooted) && isSilentAt valueKey r) then
    some "undefined".toList
  else none

def boolText (b : Bool) : List Char :=
  if b then "true".toList else "false".toList

mutual

/-- The text of a value. A list writes its items with commas, missing ones as nothing. -/
def chars? : Value -> Option (List Char)
  | .absent => some "undefined".toList
  | .null => some "null".toList
  | .bool b => some (boolText b)
  | .number x => some x.toChars
  | .text s => some s.toList
  | .exact n => some (toString n).toList
  | .bytes data => some (Utf8.decode data)
  | .list items => (itemChars? items).map (Text.joinWith [','])
  | .record fields base => recordChars? fields base
  | .ancestor => some "[object Object]".toList
  | .supplier _ => some "function () { [native code] }".toList
  | .routine name => some ("function " ++ name ++ "() { [native code] }").toList

def itemChars? : List Value -> Option (List (List Char))
  | [] => some []
  | item :: items =>
      match if item.isMissing then some [] else chars? item, itemChars? items with
      | some first, some rest => some (first :: rest)
      | _, _ => none

end

def text? (v : Value) : Option String :=
  v.chars?.map String.ofList

end Value

end OperatorConsole
