import OperatorConsole.Scalar

/-!
# Checking values against a shape

Descriptors, restrictions and configurations come as values of no fixed shape.  A
`Check` reads one into a type of its own and collects everything that is wrong
with it.

## Two kinds of trouble

A value of the wrong kind gives no reading.  A value of the right kind that breaks
a limit still gives one, so that further tests can look at the whole.  Only a check
without any issue has a result.
-/

namespace OperatorConsole

/-- A complaint and where it applies. -/
structure Issue where
  path : List String
  message : String
  deriving DecidableEq, Repr

namespace Issue

def place (issue : Issue) : String :=
  Text.joinStrings "." issue.path

/-- The complaint behind its place; the fallback stands for the whole value. -/
def textWith (whole : String) (issue : Issue) : String :=
  if issue.place = "" then whole ++ issue.message else issue.place ++ ": " ++ issue.message

def text : Issue -> String :=
  textWith ""

end Issue

structure Check (α : Type) where
  reading : Option α
  issues : List Issue
  deriving Repr

namespace Check

def ok (a : α) : Check α :=
  ⟨some a, []⟩

def wrong (message : String) : Check α :=
  ⟨none, [⟨[], message⟩]⟩

def map (f : α -> β) (c : Check α) : Check β :=
  ⟨c.reading.map f, c.issues⟩

/-- Both checks are made, whatever the first one finds. -/
def seq (f : Check (α -> β)) (c : Unit -> Check α) : Check β :=
  ⟨f.reading.bind fun g => (c ()).reading.map g, f.issues ++ (c ()).issues⟩

instance : Applicative Check where
  pure := ok
  map := map
  seq := seq

def under (name : String) (c : Check α) : Check α :=
  ⟨c.reading, c.issues.map fun issue => { issue with path := name :: issue.path }⟩

def alsoIssues (issuesOf : α -> List Issue) (c : Check α) : Check α :=
  match c.reading with
  | some a => ⟨some a, c.issues ++ issuesOf a⟩
  | none => c

def require (test : α -> Bool) (message : String) (c : Check α) : Check α :=
  c.alsoIssues fun a => if test a then [] else [⟨[], message⟩]

def result? (c : Check α) : Option α :=
  if c.issues.isEmpty then c.reading else none

def toExcept (c : Check α) : Except (List Issue) α :=
  match c.result? with
  | some a => .ok a
  | none => .error c.issues

/-! ## Simple shapes -/

def wrongKind (expected : String) (v : Value) : Check α :=
  match v with
  | .absent => wrong "Required"
  | _ => wrong s!"Expected {expected}, received {v.kindName}"

def string (v : Value) : Check String :=
  match v with
  | .text s => ok s
  | _ => wrongKind "string" v

def boolean (v : Value) : Check Bool :=
  match v with
  | .bool b => ok b
  | _ => wrongKind "boolean" v

def number (v : Value) : Check Number :=
  match v with
  | .number .nan => wrongKind "number" v
  | .number x => ok x
  | _ => wrongKind "number" v

def integer (v : Value) : Check Number :=
  (number v).require Number.isInteger "Expected integer, received float"

def scalar (v : Value) : Check Scalar :=
  match v with
  | .number .nan => wrong "Invalid input"
  | _ =>
      match v.scalar? with
      | some s => ok s
      | none => wrong "Invalid input"

def length (s : String) : Nat :=
  Text.width s.toList

def atLeast (count : Nat) (c : Check String) : Check String :=
  c.require (fun s => decide (count ≤ length s))
    s!"String must contain at least {count} character(s)"

def atMost (count : Nat) (c : Check String) : Check String :=
  c.require (fun s => decide (length s ≤ count))
    s!"String must contain at most {count} character(s)"

def positive (c : Check Number) : Check Number :=
  c.require (fun x => Number.lt 0 x) "Number must be greater than 0"

def oneOf (words : List (String × α)) (v : Value) : Check α :=
  let expected := Text.joinStrings " | " (words.map fun w => "'" ++ w.1 ++ "'")
  match v with
  | .text s =>
      match words.lookup s with
      | some a => ok a
      | none => wrong s!"Invalid enum value. Expected {expected}, received '{s}'"
  | _ => wrongKind expected v

/-! ## Absent values -/

def optional (check : Value -> Check α) (v : Value) : Check (Option α) :=
  match v with
  | .absent => ok none
  | _ => (check v).map some

def withDefault (a : α) (check : Value -> Check α) (v : Value) : Check α :=
  match v with
  | .absent => ok a
  | _ => check v

/-! ## Compound shapes -/

def items (check : Value -> Check α) (index : Nat) : List Value -> Check (List α)
  | [] => ok []
  | v :: rest =>
      List.cons <$> (check v).under (toString index) <*> items check (index + 1) rest

def list (check : Value -> Check α) (v : Value) : Check (List α) :=
  match v with
  | .list vs => items check 0 vs
  | _ => wrongKind "array" v

def sequence : List (Check α) -> Check (List α)
  | [] => ok []
  | c :: rest => List.cons <$> c <*> sequence rest

/-- The record that a value is or is taken for. -/
def record? : Value -> Option Record
  | .record fields base => some ⟨fields, base⟩
  | .ancestor => some .empty
  | .bytes _ => some .empty
  | _ => none

def record (check : Record -> Check α) (v : Value) : Check α :=
  match record? v with
  | some r => check r
  | none => wrongKind "object" v

def field (r : Record) (name : String) (check : Value -> Check α) : Check α :=
  (check (r.get name)).under name

/-- Checks all entries of a map, which is taken to be plain: it inherits none. The one under the
key of the base is left out. -/
def entries (check : Value -> Check α) : Fields -> Check (List (String × α))
  | [] => ok []
  | (key, v) :: rest =>
      (fun a read => if key = Fields.baseKey then read else (key, a) :: read) <$>
        (check v).under key <*> entries check rest

def map? (check : Value -> Check α) (v : Value) : Check (List (String × α)) :=
  record (fun r => entries check r.fields) v

end Check

end OperatorConsole
