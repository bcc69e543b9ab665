import OperatorConsole.Calendar.Loose
import OperatorConsole.Failure

/-!
# Reading times

`read?` reads the written form of a time: the standard form if the text keeps to it, and
else the loose form, which goes on from where the standard form was left.  Behind the
mark of a time of day there is no way back.
-/

namespace OperatorConsole

namespace Calendar

def read? (text : List Char) : Option Int :=
  let head := DateHead.ofTokens (tokens text)
  match head.kept, head.rest with
  | true, [] => some head.date.milliseconds
  | true, .clockMark :: rest => (timeOfDay? rest).map fun ms => head.date.milliseconds + ms
  | _, rest =>
      match (Parts.ofNumbers head.numbers).readFrom? 0 rest with
      | some parts => parts.time?
      | none => none

/-! ## Times as values -/

def isExact : Value -> Bool
  | .exact _ => true
  | _ => false

def exactTime : Failure :=
  .fault .wrongType "Cannot convert a BigInt value to a number"

/-- The time that a value gives: a value that is not simply a number gives the time that
its text writes, and an exact integer gives none. -/
def timeOf : Value -> Except Failure Number
  | .exact _ => .error exactTime
  | .absent => .ok .nan
  | .null => .ok 0
  | .bool b => .ok (if b then 1 else 0)
  | .number x => .ok x
  | v => do
      let text ← Failure.textOf v
      return ((read? text.toList).map Number.ofInt).getD .nan

def elapsedBetween (start finish : Value) : Except Failure Number := do
  let _ ← Failure.textOf finish
  let _ ← Failure.textOf start
  if isExact start && isExact finish then .error exactTime
  else if isExact start || isExact finish then
    .error (.fault .wrongType "Cannot mix BigInt and other types, use explicit conversions")
  else return elapsedSeconds start.asNumber finish.asNumber

end Calendar

end OperatorConsole
