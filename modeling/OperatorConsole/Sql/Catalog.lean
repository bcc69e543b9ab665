import OperatorConsole.Sql.Source
import OperatorConsole.Text.Upper

/-!
# Tables on offer

A catalog offers the tables of a database as entity types.  It asks the database
for its tables on every call, so tables made later show up.
-/

namespace OperatorConsole

namespace Sql

structure Catalog where
  /-- The only tables on offer, all of them if absent. -/
  included : Option (List String)
  /-- Tables never on offer. -/
  excluded : List String
  /-- Labels under the names of tables. -/
  labels : Record

namespace Catalog

def internalTables : List String :=
  ["schema_version"]

/-- The words of a table's name: underscores and blanks set them apart. -/
def wordsOf (text : List Char) : List (List Char) :=
  (Text.splitOn '_' (text.map fun c => if Text.isBlank c then '_' else c)).filter
    fun word => !word.isEmpty

def humanize (name : String) : String :=
  String.ofList (Text.joinWith [' '] ((wordsOf name.toList).map Text.capitalize))

def offers (catalog : Catalog) (table : String) : Bool :=
  !(internalTables ++ catalog.excluded).contains table &&
    match catalog.included with
    | some tables => tables.contains table
    | none => true

def label (catalog : Catalog) (table : String) : Value :=
  match catalog.labels.get table with
  | .absent => .text (humanize table)
  | .null => .text (humanize table)
  | v => v

/-! ## Questions to the database -/

def tablesStatement : Statement where
  text := "SELECT name FROM sqlite_master WHERE type = 'table' " ++
    "AND name NOT LIKE 'sqlite_%' ORDER BY name"
  parameters := []

def columnsStatement (table : String) : Statement where
  text := "SELECT name, pk FROM pragma_table_info(?) ORDER BY cid"
  parameters := [.text table]

structure Column where
  name : String
  isKey : Bool
  deriving DecidableEq, Repr

def nameIn (row : Fields) : String :=
  ((Fields.own row "name").text?).getD ""

def Column.ofRow (row : Fields) : Column where
  name := nameIn row
  isKey := Number.lt 0 (Fields.own row "pk").asNumber

def tableNames (catalog : Catalog) (db : Database σ) : Action σ (List String) := do
  let rows ← db.all tablesStatement
  return (rows.map nameIn).filter catalog.offers

def columns (db : Database σ) (table : String) : Action σ (List Column) := do
  let rows ← db.all (columnsStatement table)
  return rows.map Column.ofRow

/-- The key of a table: its only key column, else the database's row number. -/
def primaryKey (columns : List Column) : String :=
  match columns.filter (·.isKey) with
  | [column] => column.name
  | _ => "rowid"

def list (catalog : Catalog) (db : Database σ) : Action σ (List Query.EntityType) := do
  let names ← catalog.tableNames db
  names.mapM fun name => do
    let columns ← columns db name
    return ⟨name, catalog.label name, columns.map Column.name⟩

def resolve? (catalog : Catalog) (db : Database σ) (name : String) : Action σ (Option Table) := do
  let names ← catalog.tableNames db
  if names.contains name then
    let columns ← columns db name
    return some ⟨name, columns.map Column.name, primaryKey columns⟩
  else return none

def resolver (catalog : Catalog) (db : Database σ) : Query.EntityResolver σ where
  list := catalog.list db
  resolve := fun name => do
    let table ← catalog.resolve? db name
    return table.map fun t => t.source db

end Catalog

end Sql

end OperatorConsole
