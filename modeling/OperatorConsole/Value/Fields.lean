import OperatorConsole.Value.Basic

/-!
# Fields

The fields of a record, in order: keys that are canonical array indices come first,
ascending, and the others follow in the order in which they were defined.
-/

namespace OperatorConsole

namespace Fields

/-! ## Keys -/

/-- The array index that a key writes in canonical form. -/
def index? (key : String) : Option Nat :=
  match key.toList with
  | [] => none
  | ['0'] => some 0
  | '0' :: _ => none
  | digits =>
      if digits.all Char.isDigit && digits.length ≤ 10 then
        let n := Decimal.naturalOf digits
        if n < 4294967295 then some n else none
      else none

/-- The key under which a record answers for its base. -/
def baseKey : String :=
  "__proto__"

def builtIn? (name : String) : Option Value :=
  if name = "constructor" then some (.routine "Object")
  else if name ∈ ["__defineGetter__", "__defineSetter__", "hasOwnProperty", "__lookupGetter__",
      "__lookupSetter__", "isPrototypeOf", "propertyIsEnumerable", "toString", "valueOf",
      "toLocaleString"] then
    some (.routine name)
  else none

/-! ## Looking up -/

def hasOwn (fields : Fields) (key : String) : Bool :=
  fields.any (·.1 == key)

def own? (fields : Fields) (key : String) : Option Value :=
  fields.lookup key

def own (fields : Fields) (key : String) : Value :=
  (fields.own? key).getD .absent

def keys (fields : Fields) : List String :=
  fields.map Prod.fst

/-! ## Building -/

def insertIndex (n : Nat) (key : String) (v : Value) : Fields -> Fields
  | [] => [(key, v)]
  | (k, w) :: rest =>
      match index? k with
      | some m => if m < n then (k, w) :: insertIndex n key v rest else (key, v) :: (k, w) :: rest
      | none => (key, v) :: (k, w) :: rest

def replace (key : String) (v : Value) : Fields -> Fields
  | [] => []
  | (k, w) :: rest => if k = key then (k, v) :: rest else (k, w) :: replace key v rest

/-- Stores a field, in the place that it has or that its key gives it. -/
def define (fields : Fields) (key : String) (v : Value) : Fields :=
  if fields.hasOwn key then fields.replace key v
  else
    match index? key with
    | some n => fields.insertIndex n key v
    | none => fields ++ [(key, v)]

def ofOption (name : String) (v : Option Value) : Fields :=
  (v.map fun v => (name, v)).toList

def ofList (members : List (String × Value)) : Fields :=
  members.foldl (fun fields member => fields.define member.1 member.2) []

end Fields

end OperatorConsole
