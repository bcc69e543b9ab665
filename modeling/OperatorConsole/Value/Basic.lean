import OperatorConsole.Number.Decimal
import OperatorConsole.Text.Basic

/-!
# Values

What rows, options, results and thrown values are made of.  `Value` holds the
data of JSON documents and, beside it, what a host program can hand in: an absent
value, exact integers, byte buffers and functions.  Of a function only a name is
kept; whoever handed it in answers to the name.

## Bases

A record has fields of its own and a base, which answers for the names that the
fields leave open.  The base of nearly every record is `Value.ancestor`.
-/

namespace OperatorConsole

inductive Value where
  | absent
  | null
  | bool (b : Bool)
  | number (x : Number)
  | text (s : String)
  | exact (n : Int)
  | bytes (data : List UInt8)
  | list (items : List Value)
  /-- Fields of its own, and the value that answers for what they leave open. -/
  | record (fields : List (String × Value)) (base : Value)
  /-- The base of a record that was given none. -/
  | ancestor
  | supplier (name : String)
  | routine (name : String)
  deriving Repr

abbrev Fields := List (String × Value)

namespace Value

@[match_pattern]
abbrev ofFields (fields : Fields) : Value :=
  .record fields .ancestor

instance : Inhabited Value where
  default := .absent

/-! ## Equality -/

mutual

def decEq : (a b : Value) -> Decidable (a = b)
  | .absent, b => by cases b <;> first | exact isTrue rfl | exact isFalse nofun
  | .null, b => by cases b <;> first | exact isTrue rfl | exact isFalse nofun
  | .bool x, b => by
      cases b with
      | bool y => exact decidable_of_iff (x = y) (by simp)
      | _ => exact isFalse nofun
  | .number x, b => by
      cases b with
      | number y => exact decidable_of_iff (x = y) (by simp)
      | _ => exact isFalse nofun
  | .text x, b => by
      cases b with
      | text y => exact decidable_of_iff (x = y) (by simp)
      | _ => exact isFalse nofun
  | .exact x, b => by
      cases b with
      | exact y => exact decidable_of_iff (x = y) (by simp)
      | _ => exact isFalse nofun
  | .bytes x, b => by
      cases b with
      | bytes y => exact decidable_of_iff (x = y) (by simp)
      | _ => exact isFalse nofun
  | .list xs, b => by
      cases b with
      | list ys => exact @decidable_of_iff _ (xs = ys) (by simp) (decEqList xs ys)
      | _ => exact isFalse nofun
  | .record xs base, b => by
      cases b with
      | record ys other =>
          exact @decidable_of_iff _ (xs = ys ∧ base = other) (by simp)
            (@instDecidableAnd _ _ (decEqFields xs ys) (decEq base other))
      | _ => exact isFalse nofun
  | .ancestor, b => by cases b <;> first | exact isTrue rfl | exact isFalse nofun
  | .supplier x, b => by
      cases b with
      | supplier y => exact decidable_of_iff (x = y) (by simp)
      | _ => exact isFalse nofun
  | .routine x, b => by
      cases b with
      | routine y => exact decidable_of_iff (x = y) (by simp)
      | _ => exact isFalse nofun

def decEqList : (xs ys : List Value) -> Decidable (xs = ys)
  | [], [] => isTrue rfl
  | [], _ :: _ => isFalse nofun
  | _ :: _, [] => isFalse nofun
  | x :: xs, y :: ys =>
      match decEq x y, decEqList xs ys with
      | isTrue h, isTrue t => isTrue (by rw [h, t])
      | isFalse h, _ => isFalse (by simp [h])
      | _, isFalse t => isFalse (by simp [t])

def decEqFields : (xs ys : List (String × Value)) -> Decidable (xs = ys)
  | [], [] => isTrue rfl
  | [], _ :: _ => isFalse nofun
  | _ :: _, [] => isFalse nofun
  | (k, x) :: xs, (l, y) :: ys =>
      match decEq x y, decEqFields xs ys, (inferInstance : Decidable (k = l)) with
      | isTrue h, isTrue t, isTrue e => isTrue (by rw [h, t, e])
      | isFalse h, _, _ => isFalse (by simp [h])
      | _, isFalse t, _ => isFalse (by simp [t])
      | _, _, isFalse e => isFalse (by simp [e])

end

instance : DecidableEq Value :=
  decEq

/-! ## Kinds -/

def isAbsent : Value -> Bool
  | .absent => true
  | _ => false

def isMissing : Value -> Bool
  | .absent => true
  | .null => true
  | _ => false

def orNull : Value -> Value
  | .absent => .null
  | v => v

def toBool : Value -> Bool
  | .absent => false
  | .null => false
  | .bool b => b
  | .number x => !(x.isNaN || x.equals 0)
  | .text s => s != ""
  | .exact n => n != 0
  | _ => true

/-- A structure other than a list. -/
def isRecordLike : Value -> Bool
  | .record _ _ => true
  | .ancestor => true
  | .bytes _ => true
  | _ => false

def fields : Value -> Fields
  | .record fields _ => fields
  | _ => []

/-- The word for the kind of a value in messages about a wrong one. -/
def kindName : Value -> String
  | .absent => "undefined"
  | .null => "null"
  | .bool _ => "boolean"
  | .number .nan => "nan"
  | .number _ => "number"
  | .text _ => "string"
  | .exact _ => "bigint"
  | .bytes _ => "object"
  | .list _ => "array"
  | .record _ _ => "object"
  | .ancestor => "object"
  | .supplier _ => "function"
  | .routine _ => "function"

end Value

end OperatorConsole
