import OperatorConsole.ExecutionLog.Execution

/-!
# The execution log

A log is a list of executions, in the order in which they were inserted, and the id that
comes next.  Ids count up from one and are never given out twice, also after deletions.

## Lists

A list is selected by one statement.  Its clauses and their parameters are written side by
side, a clause and a parameter for each part of the filter, and the limit and the offset come
last.  The newest executions are listed first; of two that were created at the same time the
later one comes first.
-/

namespace OperatorConsole

structure ExecutionLog where
  executions : List Execution
  nextId : Nat
  deriving DecidableEq, Repr

/-- Which executions to list; a part that is left out asks for nothing. -/
structure ExecutionFilter where
  command : Option String
  userId : Option String
  environment : Option String
  limit : Option Int
  offset : Option Int
  deriving DecidableEq, Repr

/-- Newer executions come first, and of two with the same time the one with the later id. -/
def Execution.precedes (a b : Execution) : Bool :=
  Number.lt b.createdAt a.createdAt || (a.createdAt.equals b.createdAt && b.id ≤ a.id)

/-! ## Statements of lists -/

inductive ListColumn where
  | command
  | userId
  | environment
  deriving DecidableEq, Repr

namespace ListColumn

def name : ListColumn -> String
  | .command => "command"
  | .userId => "user_id"
  | .environment => "environment"

/-- What an execution has in the column. -/
def held? (e : Execution) : ListColumn -> Option String
  | .command => some e.command
  | .userId => e.userId
  | .environment => some e.environment

end ListColumn

inductive ListParameter where
  | text (s : String)
  | whole (n : Int)
  deriving DecidableEq, Repr

/-- A statement has one clause for each of its columns, and behind the clauses a limit and an
offset.  Its parameters stand in the order in which they were given. -/
structure ListStatement where
  columns : List ListColumn
  parameters : List ListParameter
  deriving DecidableEq, Repr

namespace ListStatement

def empty : ListStatement :=
  ⟨[], []⟩

def clause (column : ListColumn) : String :=
  column.name ++ " = ?"

def text (s : ListStatement) : String :=
  let place := if s.columns.isEmpty then ""
    else "WHERE " ++ Text.joinStrings " AND " (s.columns.map clause)
  s!"SELECT * FROM command_executions {place} ORDER BY created_at DESC, id DESC LIMIT ? OFFSET ?"

def narrow (column : ListColumn) (wanted : Option String) (s : ListStatement) : ListStatement :=
  match wanted with
  | none => s
  | some text => ⟨s.columns ++ [column], s.parameters ++ [.text text]⟩

def paged (limit offset : Int) (s : ListStatement) : ListStatement :=
  { s with parameters := s.parameters ++ [.whole limit, .whole offset] }

/-- Hands the parameters out to the placeholders from left to right: the columns with the text
that each is asked for, the limit and the offset. -/
def bind? : List ListColumn -> List ListParameter ->
    Option (List (ListColumn × String) × Int × Int)
  | [], [.whole limit, .whole offset] => some ([], limit, offset)
  | column :: columns, .text wanted :: parameters =>
      match bind? columns parameters with
      | some (clauses, page) => some ((column, wanted) :: clauses, page)
      | none => none
  | _, _ => none

def meets (clauses : List (ListColumn × String)) (e : Execution) : Bool :=
  clauses.all fun clause => clause.1.held? e == some clause.2

/-- A negative limit is no limit, and a negative offset skips nothing. -/
def cut (limit offset : Int) (executions : List Execution) : List Execution :=
  let rest := executions.drop offset.toNat
  if limit < 0 then rest else rest.take limit.toNat

/-- What the statement selects, if every placeholder of its text has its parameter: one for each
column, in their order, one for the limit and one for the offset. -/
def run? (s : ListStatement) (executions : List Execution) : Option (List Execution) :=
  match bind? s.columns s.parameters with
  | some (clauses, limit, offset) =>
      some (cut limit offset ((executions.filter (meets clauses)).mergeSort Execution.precedes))
  | none => none

end ListStatement

namespace ExecutionFilter

def all : ExecutionFilter :=
  ⟨none, none, none, none, none⟩

def defaultPageSize : Int :=
  50

def statement (filter : ExecutionFilter) : ListStatement :=
  ListStatement.empty
    |>.narrow .command filter.command
    |>.narrow .userId filter.userId
    |>.narrow .environment filter.environment
    |>.paged (filter.limit.getD defaultPageSize) (filter.offset.getD 0)

end ExecutionFilter

namespace ExecutionLog

def empty : ExecutionLog :=
  ⟨[], 1⟩

def get? (log : ExecutionLog) (id : Nat) : Option Execution :=
  log.executions.find? (·.id == id)

/-! ## Inserting -/

/-- Puts an execution in under the next id and gives what is read back under that id. -/
def insert (log : ExecutionLog) (draft : ExecutionDraft) :
    Except StorageFailure (ExecutionLog × Execution) := do
  let execution ← draft.toExecution log.nextId
  let stored : ExecutionLog := ⟨log.executions ++ [execution], log.nextId + 1⟩
  match stored.get? log.nextId with
  | some found => return (stored, found)
  | none => throw (.saveFailed "command execution" none)

/-! ## Reading -/

def list (log : ExecutionLog) (filter : ExecutionFilter) : List Execution :=
  (filter.statement.run? log.executions).getD []

def count (log : ExecutionLog) : Nat :=
  log.executions.length

/-! ## Retention -/

def isOlderThan (cutoff : Number) (e : Execution) : Bool :=
  Number.lt e.createdAt cutoff

def countOlderThan (log : ExecutionLog) (cutoff : Number) : Nat :=
  log.executions.countP (isOlderThan cutoff)

/-- Drops the executions that are older than a time, and tells how many there were. -/
def deleteOlderThan (log : ExecutionLog) (cutoff : Number) : ExecutionLog × Nat :=
  (⟨log.executions.filter fun e => !isOlderThan cutoff e, log.nextId⟩,
    log.countOlderThan cutoff)

/-! ## Foreign changes -/

def setOptionsText (log : ExecutionLog) (id : Nat) (optionsText : Option String) : ExecutionLog :=
  ⟨log.executions.map fun e => if e.id = id then { e with optionsText := optionsText } else e,
    log.nextId⟩

end ExecutionLog

end OperatorConsole
