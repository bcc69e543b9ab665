import OperatorConsole.Proofs.Action.Watched
import OperatorConsole.Proofs.Sql.Drafted
import OperatorConsole.Proofs.Sql.Prepared

/-!
# Columns that a table requires

A plan names columns in all of its clauses.  A table requires every column that it writes into the
statement: if it does not have one of them, it fails before a statement is prepared.  The only
columns that are named and not written are those of membership in an empty list, so they are not
required.
-/

namespace OperatorConsole

open OperatorConsole.Action

namespace Sql

open Query (AggregateFunction Clause Condition Having Plan SortKey)

/-! ## Columns that are named -/

def namedIn : Condition -> List String
  | .basic column _ _ => [column]
  | .oneOf column _ _ => [column]
  | .between column _ _ _ => [column]
  | .isNull column _ => [column]
  | .datePart _ column _ _ => [column]
  | .columns first _ second => [first, second]

/-- Every column that a plan names. -/
def namedColumns (plan : Plan) : List String :=
  plan.columns ++ plan.conditions.flatMap (fun clause => namedIn clause.condition) ++
    plan.groups ++ plan.havings.map Having.column ++ plan.orders.map SortKey.column

/-- Whether a column is named by membership in an empty list. -/
def NamedInVain (plan : Plan) (column : String) : Prop :=
  exists clause negated, clause ∈ plan.conditions ∧ clause.condition = .oneOf column [] negated

theorem mem_namedIn {condition : Condition} {column : String} :
    column ∈ namedIn condition ↔
      column ∈ writtenIn condition ∨ exists negated, condition = .oneOf column [] negated := by
  cases condition with
  | oneOf other values negated =>
      cases values with
      | nil => simp [namedIn, writtenIn, eq_comm]
      | cons value values => simp [namedIn, writtenIn]
  | _ => simp [namedIn, writtenIn]

/-- A named column is written or else it is named in vain. -/
theorem mem_namedColumns {plan : Plan} {column : String} :
    column ∈ namedColumns plan ↔ column ∈ writtenColumns plan ∨ NamedInVain plan column := by
  have hconditions :
      column ∈ plan.conditions.flatMap (fun clause => namedIn clause.condition) ↔
        column ∈ plan.conditions.flatMap (fun clause => writtenIn clause.condition) ∨
          NamedInVain plan column := by
    simp only [List.mem_flatMap, mem_namedIn]
    constructor
    · rintro ⟨clause, hclause, hwritten | ⟨negated, hempty⟩⟩
      · exact Or.inl ⟨clause, hclause, hwritten⟩
      · exact Or.inr ⟨clause, negated, hclause, hempty⟩
    · rintro (⟨clause, hclause, hwritten⟩ | ⟨clause, negated, hclause, hempty⟩)
      · exact ⟨clause, hclause, Or.inl hwritten⟩
      · exact ⟨clause, hclause, Or.inr ⟨negated, hempty⟩⟩
  simp only [namedColumns, writtenColumns, List.mem_append, hconditions]
  grind

/-! ## Requests to a table -/

/-- What a request does that requires some columns and has a statement to prepare: it fails at a
column that the table does not have and leaves all as it was, or it prepares that one statement. -/
structure Requires (table : Table) (columns : List String) (draft : Compiled Statement)
    (request : Action (Watched σ Statement) α) (s : Session (Watched σ Statement)) : Prop where
  refused : (exists column, column ∈ columns ∧ table.knows column = false) ->
    exists column, column ∈ columns ∧ table.knows column = false ∧
      request s = (.error (table.unknownColumn column), s)
  failed : (forall column, column ∈ columns -> table.knows column = true) ->
    forall failure, draft = .error failure -> request s = (.error failure, s)
  prepared : (forall column, column ∈ columns -> table.knows column = true) ->
    forall statement, draft = .ok statement ->
      (request s).2.host.events = s.host.events ++ [statement]

theorem exists_firstUnknown? {table : Table} {columns : List String}
    (hunknown : exists column, column ∈ columns ∧ table.knows column = false) :
    exists column, table.firstUnknown? columns = some column ∧ column ∈ columns ∧
      table.knows column = false := by
  cases hfirst : table.firstUnknown? columns with
  | none =>
      rcases hunknown with ⟨column, hmem, hfalse⟩
      rw [Table.firstUnknown?_eq_none.mp hfirst column hmem] at hfalse
      cases hfalse
  | some column =>
      refine ⟨column, rfl, List.mem_of_find?_eq_some hfirst, ?_⟩
      simpa using List.find?_some hfirst

theorem requires_of_vet {table : Table} {columns : List String} {draft : Compiled Statement}
    {run : Statement -> Action (Watched σ Statement) α}
    (hrun : forall statement s, (run statement s).2.host.events = s.host.events ++ [statement])
    (s : Session (Watched σ Statement)) :
    Requires table columns draft
      (settle (table.vet columns () >>= fun _ => draft) >>= run) s := by
  have hknown : (forall column, column ∈ columns -> table.knows column = true) ->
      (table.vet columns () >>= fun _ => draft) = draft := by
    intro hall
    unfold Table.vet
    rw [Table.firstUnknown?_eq_none.mpr hall]
    rfl
  refine ⟨?_, ?_, ?_⟩
  · intro hunknown
    rcases exists_firstUnknown? hunknown with ⟨column, hfirst, hmem, hfalse⟩
    refine ⟨column, hmem, hfalse, ?_⟩
    unfold Table.vet
    rw [hfirst]
    rfl
  · rintro hall failure rfl
    rw [hknown hall]
    rfl
  · rintro hall statement rfl
    rw [hknown hall, bind_apply, settle_apply, next_ok]
    exact hrun statement s

theorem prepares_once (answer : Action σ β) (conclude : β -> Except Failure α)
    (statement : Statement) (s : Session (Watched σ Statement)) :
    ((do
      note statement
      let x ← watch answer
      settle (conclude x)) s).2.host.events = s.host.events ++ [statement] := by
  have hwatch : forall t : Session (Watched σ Statement),
      (watch answer t).2.host.events = t.host.events := fun _ => rfl
  rw [bind_apply, note_apply, next_ok, bind_apply]
  cases hanswer : watch answer
      { s with host := { s.host with events := s.host.events ++ [statement] } } with
  | mk result t =>
      have ht := hwatch { s with host := { s.host with events := s.host.events ++ [statement] } }
      rw [hanswer] at ht
      cases result with
      | ok x => exact ht
      | error failure => exact ht

namespace Table

variable (table : Table) (db : Database σ)

/-- A source over a table fails if a written column is unknown, and prepares nothing then.  If all
of them are known it prepares one statement: a column that is named and not written is named in
vain, and it is not required. -/
theorem source_requires_written (plan : Plan) (fn : AggregateFunction) (column : Option String)
    (s : Session (Watched σ Statement)) :
    let source := table.source db.watched
    let statement : Compiled Statement := .ok (table.draft plan).statement
    Requires table (writtenColumns plan) statement (source.select plan) s ∧
      Requires table (writtenColumns plan) statement (source.iterate plan) s ∧
      Requires table (writtenColumns (aggregated plan) ++ column.toList)
        (if fn != .count && column.isNone then .error (needsColumn fn)
          else .ok (table.draftAggregate plan fn column).statement)
        (source.aggregate plan fn column) s ∧
      forall (asked : Plan) (name : String),
        name ∈ namedColumns asked ↔ name ∈ writtenColumns asked ∨ NamedInVain asked name := by
  intro source statement
  have hselect : table.select plan =
      table.vet (writtenColumns plan) () >>= fun _ => .ok (table.draft plan).statement := by
    rw [select_eq, vet_eq_bind]
  refine ⟨?_, ?_, ?_, fun asked name => mem_namedColumns⟩
  · change Requires _ _ _ (settle (table.select plan) >>= _) s
    rw [hselect]
    exact requires_of_vet (fun statement t => prepares_once (db.all statement) _ statement t) s
  · change Requires _ _ _ (settle (table.select plan) >>= _) s
    rw [hselect]
    exact requires_of_vet (fun statement t => prepares_once (db.iterate statement) _ statement t) s
  · change Requires _ _ _ (settle (table.aggregate plan fn column) >>= _) s
    rw [aggregate_eq]
    exact requires_of_vet
      (fun statement t => prepares_once (db.get statement) (fun row => .ok _) statement t) s

/-- A column that the table does not have, named by membership in an empty list: it is written
nowhere, and the statement is prepared. -/
theorem column_in_vain_not_required :
    let table : Table := ⟨"t", ["id"], "id"⟩
    let db : Database Unit := ⟨fun _ => pure [], fun _ => pure none, fun _ => pure []⟩
    let plan := Plan.empty.addClause .and (.oneOf "nope" [] false)
    let run := (table.source db.watched).select plan (Session.watched ⟨(), []⟩)
    "nope" ∈ namedColumns plan ∧ table.knows "nope" = false ∧ run.1 = .ok [] ∧
      run.2.host.events.map Statement.text = ["SELECT * FROM \x22t\x22 WHERE 0 = 1"] := by
  intro table db plan run
  exact ⟨by decide, by decide, rfl, by decide +kernel⟩

end Table

end Sql

end OperatorConsole
