import OperatorConsole.Failure

/-!
# Stand-ins

A record can answer for itself when a document of it is written.  If it answers to
`standInKey` with a routine, the document is that of what the routine answers when it is
called on the record with the key under which the record stands; a whole document stands
under the empty key.

Only whole documents have stand-ins: the one record that can hold routines is the one that
a query builds of rows under keys, and nothing is ever built around it.
-/

namespace OperatorConsole

namespace Json

/-- The name by which a record answers for its document. -/
def standInKey : String :=
  "toJSON"

def expectsFunction (name : String) : Failure :=
  .fault .wrongType s!"Object.prototype.{name}: Expecting function"

def notCallable : Value -> Failure
  | .absent => .fault .wrongType "undefined is not a function"
  | .null => .fault .wrongType "object null is not a function"
  | .text s => .fault .wrongType s!"string \"{s}\" is not a function"
  | v => .fault .wrongType (v.kindName ++ " " ++ v.text?.getD "" ++ " is not a function")

def notFunction : Failure :=
  .fault .wrongType "Function.prototype.toString requires that 'this' be a Function"

def endlessCalls : Failure :=
  .fault .outOfRange "Maximum call stack size exceeded"

/-- The local text of a record is the text that it gives under `Value.textKey`; the only
routine that it can hold there asks for the local text again. -/
def localText (r : Record) : Except Failure Value :=
  match r.toValue.stored? Value.textKey with
  | some (.routine _) => .error endlessCalls
  | some v => .error (notCallable v)
  | none =>
      if r.base.isPlain then .ok (.text "[object Object]")
      else .error (if r.base.isRooted then notFunction else notCallable .absent)

/-- What a routine answers when it is called on a record with the empty key. -/
def answerOf (routine : String) (r : Record) : Except Failure Value :=
  if routine = "Object" then .ok (.text "")
  else if routine = "toString" then .ok (.text "[object Object]")
  else if routine = "toLocaleString" then localText r
  else if routine ∈ ["hasOwnProperty", "propertyIsEnumerable"] then
    .ok (.bool (r.fields.hasOwn ""))
  else if routine = "isPrototypeOf" then .ok (.bool false)
  else if routine ∈ ["__defineGetter__", "__defineSetter__"] then
    .error (expectsFunction routine)
  else if Value.isSilent routine then .ok .absent
  else .ok r.toValue

def standIn (v : Value) : Except Failure Value :=
  match v with
  | .record fields base =>
      match Value.stored? standInKey (.record fields base) with
      | some (.routine name) => answerOf name ⟨fields, base⟩
      | _ => .ok v
  | _ => .ok v

end Json

end OperatorConsole
