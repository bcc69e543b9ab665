import OperatorConsole.Json.Document
import OperatorConsole.Query.Evaluation.Terminal

/-!
# Result verbs

Verbs that work on what a query gave, without touching the source.  The least and the
greatest are taken of lists of any length: that an engine takes only so many arguments
in a call is left out.
-/

namespace OperatorConsole

namespace Query

def itemsOf (verb : String) : Value -> Checked (List Value)
  | .list items => .ok items
  | _ => .error (.needsList verb)

/-- A field of an item, null where the item answers nothing to the name. -/
def fieldOf (column : String) : Value -> Value
  | .record fields base => Row.at ⟨fields, base⟩ column
  | .ancestor => (Fields.builtIn? column).getD .null
  | _ => .null

/-- The numbers that a list of values holds or writes; other values are passed over. -/
def numbersIn (column : Option String) (items : List Value) : List Number :=
  items.filterMap fun item =>
    match column with
    | some c => (fieldOf c item).numeric?
    | none => item.numeric?

def total (numbers : List Number) : Number :=
  numbers.foldl Number.add 0

def least? : List Number -> Option Number
  | [] => none
  | x :: rest => some (rest.foldl Number.min x)

def greatest? : List Number -> Option Number
  | [] => none
  | x :: rest => some (rest.foldl Number.max x)

def mean? : List Number -> Option Number
  | [] => none
  | numbers => some ((total numbers).div (Number.ofNat numbers.length))

def jsonOf (v : Value) : Except Failure Value := do
  let shown ← Json.standIn v
  if Json.isWritable shown then
    match Json.compact? shown with
    | some text => .ok (.text text)
    | none => .ok .absent
  else .error Json.unwritable

namespace ResultVerb

def countItems (verb : String) (args : List Operand) (v : Value) : Checked Value := do
  checkArity verb args 0 0
  match v with
  | .list items => return .number (Number.ofNat items.length)
  | .record fields _ => return .number (Number.ofNat fields.length)
  | .ancestor => return .number 0
  | _ => throw (.needsList verb)

def firstItem (verb : String) (args : List Operand) (v : Value) : Checked Value := do
  checkArity verb args 0 0
  let items ← itemsOf verb v
  return (items.head?.getD .null).orNull

def takeItems (verb : String) (args : List Operand) (v : Value) : Checked Value := do
  checkArity verb args 1 1
  let items ← itemsOf verb v
  let n ← countOf verb args[0]?
  return .list (items.take (toCount n))

def skipItems (verb : String) (args : List Operand) (v : Value) : Checked Value := do
  checkArity verb args 1 1
  let items ← itemsOf verb v
  let n ← countOf verb args[0]?
  return .list (items.drop (toCount n))

def pluckItems (verb : String) (args : List Operand) (v : Value) : Checked Value := do
  checkArity verb args 1 1
  let column ← columnOf verb args[0]?
  let items ← itemsOf verb v
  return .list (items.map (fieldOf column))

def reduceItems (reduce : List Number -> Option Number) (verb : String) (args : List Operand)
    (v : Value) : Checked Value := do
  checkArity verb args 0 1
  let column ← if args.length = 1 then some <$> columnOf verb args[0]? else pure none
  let items ← itemsOf verb v
  return numberOrNull (reduce (numbersIn column items))

def apply (verb : ResultVerb) (args : List Operand) (v : Value) : Except Failure Value :=
  let checked := fun (result : Checked Value) => result.mapError EvaluationFault.toFailure
  match verb with
  | .toArray => checked (checkArity verb.text args 0 0 |>.map fun _ => v)
  | .toJson =>
      match checkArity verb.text args 0 0 with
      | .ok () => jsonOf v
      | .error fault => .error fault.toFailure
  | .count => checked (countItems verb.text args v)
  | .first => checked (firstItem verb.text args v)
  | .take => checked (takeItems verb.text args v)
  | .skip => checked (skipItems verb.text args v)
  | .pluck => checked (pluckItems verb.text args v)
  | .sum => checked (reduceItems (fun numbers => some (total numbers)) verb.text args v)
  | .avg => checked (reduceItems mean? verb.text args v)
  | .min => checked (reduceItems least? verb.text args v)
  | .max => checked (reduceItems greatest? verb.text args v)

end ResultVerb

end Query

end OperatorConsole
