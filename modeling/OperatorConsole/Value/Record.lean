import OperatorConsole.Value.Fields

/-!
# Records

A record answers to a name with its own field, else with what its base answers.  A
record whose bases end in `Value.ancestor` also answers the names of
`Fields.builtIn?`, and under `Fields.baseKey` it answers with the base itself.

## Assignment

Assigning under `Fields.baseKey` changes the base, as long as that key still answers
for it: once the bases end in null, or a field has the key, it is a key like all others.
-/

namespace OperatorConsole

structure Record where
  fields : Fields
  base : Value
  deriving DecidableEq, Repr

namespace Value

def item? (items : List Value) (name : String) : Option Value :=
  if name = "length" then some (.number (Number.ofNat items.length))
  else (Fields.index? name).bind fun n => items[n]?

/-- What a value or one of its bases holds under a name. -/
def stored? (name : String) : Value -> Option Value
  | .record fields base =>
      match Fields.own? fields name with
      | some v => some v
      | none => stored? name base
  | .list items => item? items name
  | _ => none

/-- Whether the bases of a value end in `ancestor`. -/
def isRooted : Value -> Bool
  | .record _ base => base.isRooted
  | .null => false
  | _ => true

/-- Whether a value is `ancestor` or a record whose bases are records down to it. -/
def isPlain : Value -> Bool
  | .record _ base => base.isPlain
  | .ancestor => true
  | _ => false

/-- Whether a record can take the value for its base. -/
def isBase : Value -> Bool
  | .null => true
  | .bytes _ => true
  | .list _ => true
  | .record _ _ => true
  | .ancestor => true
  | .supplier _ => true
  | .routine _ => true
  | _ => false

end Value

namespace Record

def ofFields (fields : Fields) : Record :=
  ⟨fields, .ancestor⟩

def empty : Record :=
  ofFields []

def toValue (r : Record) : Value :=
  .record r.fields r.base

/-- The record that answers for a value: a list, for one, answers with its items. Absent
values and null answer nothing. -/
def ofValue? : Value -> Option Record
  | .absent => none
  | .null => none
  | .record fields base => some ⟨fields, base⟩
  | v => some ⟨[], v⟩

def get (r : Record) (name : String) : Value :=
  match r.toValue.stored? name with
  | some v => v
  | none =>
      if !r.base.isRooted then .absent
      else if name = Fields.baseKey then r.base
      else (Fields.builtIn? name).getD .absent

/-- Whether a key still stands for the base of the record. -/
def isBaseKey (r : Record) (key : String) : Bool :=
  key = Fields.baseKey && r.base.isRooted && (r.toValue.stored? key).isNone

/-- Stores a value by assignment. A base that is none is ignored. -/
def assign (r : Record) (key : String) (v : Value) : Record :=
  if r.isBaseKey key then
    if v.isBase then { r with base := v } else r
  else { r with fields := r.fields.define key v }

end Record

end OperatorConsole
