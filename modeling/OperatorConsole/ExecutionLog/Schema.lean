import OperatorConsole.ExecutionLog.Basic
import OperatorConsole.Sql.Catalog

/-!
# Schema of the log's database

The log lives in a database that also says which version its tables have.  Opening the
database looks at that version and issues the statements that bring an older or a new
database up to date.

## Interruption

`LogDatabase.setup` lists those statements.  Each of them alone leaves a database that can
be opened again, so an opening may stop after any of them.
-/

namespace OperatorConsole

/-- What a database holds; `none` stands for a table that is not there. -/
structure LogDatabase where
  log : Option ExecutionLog
  indexes : List String
  /-- The recorded versions, ascending. -/
  versions : Option (List Int)
  deriving DecidableEq, Repr

/-- Statements about the schema. Reading changes nothing, and neither does creating something
that is there. -/
inductive SchemaStatement where
  /-- Asks whether there is a table of versions. -/
  | findVersions
  | readVersion
  | createExecutions
  | createIndex (name : String)
  | createVersions
  | clearVersions
  | insertVersion (version : Int)
  deriving DecidableEq, Repr

namespace SchemaStatement

/-- Puts a version in its place; a version that is there stays alone. -/
def placeVersion (version : Int) : List Int -> List Int
  | [] => [version]
  | v :: rest =>
      if version < v then version :: v :: rest
      else if version = v then v :: rest
      else v :: placeVersion version rest

def apply (d : LogDatabase) : SchemaStatement -> LogDatabase
  | .findVersions => d
  | .readVersion => d
  | .createExecutions => { d with log := some (d.log.getD .empty) }
  | .createIndex name =>
      if d.indexes.contains name then d else { d with indexes := d.indexes ++ [name] }
  | .createVersions => { d with versions := some (d.versions.getD []) }
  | .clearVersions => { d with versions := d.versions.map fun _ => [] }
  | .insertVersion version => { d with versions := d.versions.map (placeVersion version) }

end SchemaStatement

namespace LogDatabase

def empty : LogDatabase :=
  ⟨none, [], none⟩

def currentVersion : Int :=
  1

def indexNames : List String :=
  ["idx_command_executions_command", "idx_command_executions_user",
    "idx_command_executions_environment"]

def creation : List SchemaStatement :=
  .createExecutions :: indexNames.map .createIndex ++ [.createVersions]

/-- The statements that bring the tables of an older version up to date. -/
def migration (version : Int) : List SchemaStatement :=
  (if version < 1 then creation else []) ++ [.clearVersions, .insertVersion currentVersion]

/-- The statements that opening the database issues. -/
def setup (d : LogDatabase) : List SchemaStatement :=
  .findVersions ::
    match d.versions with
    | none => creation ++ [.insertVersion currentVersion]
    | some versions =>
        .readVersion ::
          match versions with
          | [] => migration 0
          | version :: _ => if version < currentVersion then migration version else []

def run (d : LogDatabase) (statements : List SchemaStatement) : LogDatabase :=
  statements.foldl SchemaStatement.apply d

def opened (d : LogDatabase) : LogDatabase :=
  d.run d.setup

/-! ## Tables -/

def executionColumns : List String :=
  ["id", "command", "options", "user_id", "user_name", "user_email", "exit_code", "output",
    "execution_time", "environment", "ip_address", "user_agent", "started_at", "completed_at",
    "created_at", "updated_at"]

def tables (d : LogDatabase) : List (String × List Sql.Catalog.Column) :=
  (if d.log.isSome then
    [("command_executions", executionColumns.map fun column => ⟨column, column == "id"⟩)]
  else []) ++
    (if d.versions.isSome then [("schema_version", [⟨"version", true⟩])] else [])

end LogDatabase

end OperatorConsole
