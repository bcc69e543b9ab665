import OperatorConsole.Proofs.Sql.Draft

/-!
# Compiled drafts

Compiling writes the text of a statement clause by clause, checks the columns of a clause as it
gets to them, and pushes the parameters on the way.  The *written* columns of a plan are those that
its draft mentions, in the order in which they are checked.  Compiling fails at the first written
column that the table does not have, and gives the statement of the draft if there is none: what it
pushes are the parameters of the draft, each in its place.
-/

namespace OperatorConsole

namespace Sql

open Query (AggregateFunction Clause Comparison Condition Having Plan SortKey)

/-! ## Checks of columns -/

namespace Table

def unknownColumn (table : Table) (column : String) : Failure :=
  unsupported s!"unknown column '{column}' on {table.name}"

/-- The first of some columns that a table does not have. -/
def firstUnknown? (table : Table) (columns : List String) : Option String :=
  columns.find? fun column => !table.knows column

/-- Something behind a check of columns. -/
def vet (table : Table) (columns : List String) (x : α) : Compiled α :=
  match table.firstUnknown? columns with
  | none => .ok x
  | some column => .error (table.unknownColumn column)

variable (table : Table)

theorem firstUnknown?_append (columns others : List String) :
    table.firstUnknown? (columns ++ others) =
      (table.firstUnknown? columns).or (table.firstUnknown? others) :=
  List.find?_append

theorem firstUnknown?_eq_none {table : Table} {columns : List String} :
    table.firstUnknown? columns = none ↔
      forall column, column ∈ columns -> table.knows column = true := by
  unfold firstUnknown?
  simp

theorem vet_eq_ok {table : Table} {columns : List String} {x y : α} :
    table.vet columns x = .ok y ↔ table.firstUnknown? columns = none ∧ x = y := by
  unfold vet
  cases table.firstUnknown? columns with
  | none => simp
  | some column => simp

theorem vet_bind {columns others : List String} {x : α} {y : β} {step : α -> Compiled β}
    (hstep : step x = table.vet others y) :
    (table.vet columns x >>= step) = table.vet (columns ++ others) y := by
  unfold vet
  rw [firstUnknown?_append]
  cases table.firstUnknown? columns with
  | none => exact hstep
  | some column => rfl

theorem vet_map {columns : List String} {x : α} {step : α -> Compiled β} {y : β}
    (hstep : step x = .ok y) : (table.vet columns x >>= step) = table.vet columns y := by
  have hunchecked : step x = table.vet [] y := hstep
  rw [table.vet_bind hunchecked, List.append_nil]

theorem vet_eq_bind (columns : List String) (x : α) :
    table.vet columns x = table.vet columns () >>= fun _ => .ok x := by
  symm
  exact table.vet_map rfl

theorem identifier_eq (column : String) :
    table.identifier column = table.vet [column] (quoteIdentifier column) := by
  unfold identifier vet firstUnknown? unknownColumn
  cases hknown : table.knows column with
  | true => simp [hknown]
  | false => simp [hknown]

end Table

/-! ## Columns that are written -/

/-- The columns in the text of a condition. Membership in an empty list is decided without its
column. -/
def writtenIn : Condition -> List String
  | .basic column _ _ => [column]
  | .oneOf _ [] _ => []
  | .oneOf column (_ :: _) _ => [column]
  | .between column _ _ _ => [column]
  | .isNull column _ => [column]
  | .datePart _ column _ _ => [column]
  | .columns first _ second => [first, second]

/-- The columns in the statement for a plan, in the order in which they are checked. -/
def writtenColumns (plan : Plan) : List String :=
  plan.columns ++ plan.conditions.flatMap (fun clause => writtenIn clause.condition) ++
    plan.groups ++ plan.havings.map Having.column ++ plan.orders.map SortKey.column

/-! ## Steps of compiling -/

namespace Table

/-- What a step of compiling does behind a check of columns: it gives something, and it pushes
parameters behind those that there are. -/
def Writes (table : Table) (columns : List String) (step : Compiling α) (x : α)
    (pushed : List Scalar) : Prop :=
  forall parameters, step.run parameters = table.vet columns (x, parameters ++ pushed)

/-- A step that writes a draft: it gives the text, and it pushes the parameters. -/
def Drafts (table : Table) (columns : List String) (step : Compiling String) (d : Draft) : Prop :=
  table.Writes columns step d.text d.parameters

variable {table : Table}

theorem Writes.drafts {columns : List String} {step : Compiling String} {text : String}
    {pushed : List Scalar} {d : Draft} (hstep : table.Writes columns step text pushed)
    (htext : d.text = text) (hpushed : d.parameters = pushed) : table.Drafts columns step d := by
  unfold Drafts
  rw [htext, hpushed]
  exact hstep

theorem writes_pure (x : α) : table.Writes [] (pure x) x [] := by
  intro parameters
  rw [List.append_nil]
  rfl

theorem writes_push (values : List Scalar) :
    table.Writes [] (push values) () (values.map bindable) :=
  fun _ => rfl

theorem Writes.bind {columns others : List String} {step : Compiling α} {next : α -> Compiling β}
    {x : α} {y : β} {pushed more : List Scalar} (hstep : table.Writes columns step x pushed)
    (hnext : table.Writes others (next x) y more) :
    table.Writes (columns ++ others) (step >>= next) y (pushed ++ more) := by
  intro parameters
  rw [StateT.run_bind, hstep parameters, ← List.append_assoc]
  exact table.vet_bind (hnext (parameters ++ pushed))

theorem Writes.map {columns : List String} {step : Compiling α} {x : α} {pushed : List Scalar}
    (hstep : table.Writes columns step x pushed) (f : α -> β) :
    table.Writes columns (step >>= fun y => pure (f y)) (f x) pushed := by
  have hboth : table.Writes (columns ++ []) (step >>= fun y => pure (f y)) (f x) (pushed ++ []) :=
    hstep.bind (writes_pure (f x))
  rw [List.append_nil, List.append_nil] at hboth
  exact hboth

theorem writes_identifier (column : String) :
    table.Writes [column] (table.identifier column) (quoteIdentifier column) [] := by
  intro parameters
  rw [List.append_nil, identifier_eq]
  exact table.vet_map rfl

theorem writes_mapM {columns : α -> List String} {step : α -> Compiling β} {x : α -> β}
    {pushed : α -> List Scalar}
    (hstep : forall item, table.Writes (columns item) (step item) (x item) (pushed item))
    (items : List α) :
    table.Writes (items.flatMap columns) (items.mapM step) (items.map x)
      (items.flatMap pushed) := by
  induction items with
  | nil => exact writes_pure []
  | cons item rest ih =>
      rw [List.mapM_cons]
      exact (hstep item).bind (ih.map _)

/-! ## Clauses -/

variable (table : Table)

theorem drafts_comparison (column : String) (operator : Comparison) (value : Scalar) :
    table.Drafts [column] (table.comparison column operator value)
      (draftComparison column operator value) := by
  have htext : (draftComparison column operator value).text =
      quoteIdentifier column ++ s!" {operatorWord operator} ?" := by
    simp only [draftComparison, Draft.text_identifier, Draft.text_word, Draft.text_parameter,
      String.append_assoc]
    rfl
  exact ((writes_push [value]).bind ((writes_identifier column).map _)).drafts htext rfl

theorem drafts_condition (condition : Condition) :
    table.Drafts (writtenIn condition) (table.condition condition) (draftCondition condition) := by
  cases condition with
  | basic column operator value => exact table.drafts_comparison column operator value
  | oneOf column values negated =>
      cases values with
      | nil =>
          cases negated with
          | false => exact writes_pure _
          | true => exact writes_pure _
      | cons value values =>
          rcases draft_places (value :: values) with ⟨htexts, hpushed⟩
          refine ((writes_push (value :: values)).bind
            ((writes_identifier column).map _)).drafts ?_ ?_
          · simp only [draftCondition, List.cons_append, Draft.text_identifier, Draft.text_word,
              Draft.text_append, Draft.text_joinWith, Draft.text_nil, htexts, String.append_assoc,
              String.append_empty]
          · simp only [draftCondition, List.cons_append, Draft.parameters_identifier,
              Draft.parameters_word, Draft.parameters_append, Draft.parameters_joinWith,
              Draft.parameters_nil, hpushed]
  | between column low high negated =>
      have htext : (draftCondition (.between column low high negated)).text =
          quoteIdentifier column ++ (if negated then " NOT BETWEEN " else " BETWEEN ") ++
            "? AND ?" := by
        simp only [draftCondition, Draft.text_identifier, Draft.text_word, Draft.text_parameter,
          String.append_assoc]
        rfl
      exact ((writes_push [low, high]).bind ((writes_identifier column).map _)).drafts htext rfl
  | isNull column negated =>
      refine ((writes_identifier column).map _).drafts ?_ rfl
      simp only [draftCondition, Draft.text_identifier, Draft.text_word, Draft.text_nil,
        String.append_empty]
  | datePart part column operator value =>
      have htext : (draftCondition (.datePart part column operator value)).text =
          (datePartWords part).1 ++ quoteIdentifier column ++ (datePartWords part).2 ++
            s!" {operatorWord operator} ?" := by
        simp only [draftCondition, Draft.text_identifier, Draft.text_word, Draft.text_parameter,
          String.append_assoc]
        rfl
      exact ((writes_push [datePartValue part value]).bind
        ((writes_identifier column).map _)).drafts htext rfl
  | columns first operator second =>
      refine ((writes_identifier first).bind ((writes_identifier second).map _)).drafts ?_ rfl
      simp only [draftCondition, Draft.text_identifier, Draft.text_word, Draft.text_nil,
        String.append_assoc, String.append_empty]

theorem intercalate_blank (first : String) (others : List String) :
    String.intercalate " " (first :: others) =
      first ++ String.join (others.map fun other => " " ++ other) := by
  induction others generalizing first with
  | nil => rw [String.intercalate_singleton, List.map_nil, String.join_nil, String.append_empty]
  | cons next rest ih =>
      rw [String.intercalate_cons_cons, ih, List.map_cons, String.join_cons, String.append_assoc,
        String.append_assoc]

theorem drafts_whereClause (clauses : List Clause) :
    table.Drafts (clauses.flatMap fun clause => writtenIn clause.condition)
      (table.whereClause clauses) (draftWhere clauses) := by
  cases clauses with
  | nil => exact writes_pure _
  | cons clause clauses =>
      have hjoined : forall other : Clause, table.Writes (writtenIn other.condition)
          (table.joined other) (joint other.joint ++ (draftCondition other.condition).text)
          (draftCondition other.condition).parameters :=
        fun other => Writes.map (table.drafts_condition other.condition) _
      refine (Writes.bind (table.drafts_condition clause.condition)
        ((writes_mapM hjoined clauses).map _)).drafts ?_ ?_
      · simp only [draftWhere, draftClause, List.cons_append, Draft.text_word, Draft.text_append,
          Draft.text_flatMap, intercalate_blank, List.map_map, Function.comp_def]
      · simp only [draftWhere, draftClause, List.cons_append, Draft.parameters_word,
          Draft.parameters_append, Draft.parameters_flatMap]

theorem writes_columns (columns : List String) :
    table.Writes columns (columns.mapM fun column => table.identifier column)
      (columns.map quoteIdentifier) [] := by
  have hidentifier : forall column, table.Writes [column] (table.identifier column)
      (quoteIdentifier column) [] := writes_identifier
  have hcolumns := writes_mapM hidentifier columns
  rw [List.flatMap_singleton', List.flatMap_eq_nil_iff.mpr fun _ _ => rfl] at hcolumns
  exact hcolumns

theorem drafts_selection (columns : List String) :
    table.Drafts columns (table.selection columns) (draftSelection columns) := by
  refine ((table.writes_columns columns).map _).drafts ?_ (parameters_draftSelection columns)
  unfold draftSelection
  rw [List.isEmpty_map]
  split
  · rfl
  · rw [Draft.text_joinWith, text_draftColumns]

theorem drafts_having (having : Having) :
    table.Drafts [having.column] (table.having having) (draftHaving having) :=
  table.drafts_comparison _ _ _

theorem drafts_order (order : SortKey) :
    table.Drafts [order.column] (table.order order) (draftOrder order) := by
  refine ((writes_identifier order.column).map _).drafts ?_ rfl
  simp only [draftOrder, Draft.text_identifier, Draft.text_word, Draft.text_nil,
    String.append_empty]

theorem drafts_paging (limit offset : Option Number) :
    table.Drafts [] (paging limit offset) (draftPaging limit offset) := by
  cases limit with
  | none =>
      cases offset with
      | none => exact writes_pure _
      | some m => exact (writes_push [_]).bind ((writes_push [.number m]).bind (writes_pure _))
  | some n =>
      cases offset with
      | none => exact (writes_push [.number n]).bind (writes_pure _)
      | some m =>
          exact (writes_push [.number n]).bind ((writes_push [.number m]).bind (writes_pure _))

/-! ## Statements -/

/-- Compiling a plan is checking its written columns and then writing its draft. -/
theorem drafts_compile (plan : Plan) :
    table.Drafts (writtenColumns plan) (table.compile plan) (table.draft plan) := by
  have hcolumns : writtenColumns plan = plan.columns ++
      (plan.conditions.flatMap (fun clause => writtenIn clause.condition) ++
        (plan.groups ++ (plan.havings.flatMap (fun having => [having.column]) ++
          (plan.orders.flatMap (fun order => [order.column]) ++ [])))) := by
    simp only [writtenColumns, List.append_assoc, List.append_nil, List.map_eq_flatMap]
  rw [hcolumns]
  have hhavings := writes_mapM table.drafts_having plan.havings
  have horders := writes_mapM table.drafts_order plan.orders
  refine ((table.drafts_selection plan.columns).bind
    ((table.drafts_whereClause plan.conditions).bind
      ((table.writes_columns plan.groups).bind
        (hhavings.bind (horders.bind
          ((table.drafts_paging plan.limit plan.offset).map _)))))).drafts ?_ ?_
  · simp only [draft, List.cons_append, Draft.text_word, Draft.text_append, Draft.text_identifier,
      Draft.text_headed, text_draftColumns, List.map_map, Function.comp_def, Draft.text_nil,
      String.append_empty, String.append_assoc]
  · simp only [draft, List.cons_append, Draft.parameters_word, Draft.parameters_append,
      Draft.parameters_identifier, Draft.parameters_headed, parameters_draftColumns,
      List.flatMap_map, List.nil_append, List.append_assoc]

/-- Compiling a plan gives the statement of its draft, unless a written column is unknown. -/
theorem select_eq (plan : Plan) :
    table.select plan = table.vet (writtenColumns plan) (table.draft plan).statement := by
  unfold select
  rw [table.drafts_compile plan []]
  exact table.vet_map rfl

theorem select_of_known {table : Table} {plan : Plan}
    (hknown : table.firstUnknown? (writtenColumns plan) = none) :
    table.select plan = .ok (table.draft plan).statement := by
  rw [select_eq]
  exact vet_eq_ok.mpr ⟨hknown, rfl⟩

theorem target_eq (column : Option String) :
    table.target column = table.vet column.toList (draftTarget column).text := by
  cases column with
  | none => rfl
  | some column =>
      rw [target, identifier_eq]
      refine table.vet_map ?_
      rw [draftTarget, Draft.text_word, Draft.text_identifier, Draft.text_nil, String.append_empty]
      rfl

/-- Only whole rows can be counted without a column. -/
def needsColumn (fn : AggregateFunction) : Failure :=
  unsupported s!"{fn.text}() needs a column"

/-- What stands around the text of an inner statement brings no parameters of its own. -/
theorem statement_draftAggregate (plan : Plan) (fn : AggregateFunction) (column : Option String) :
    (table.draftAggregate plan fn column).statement = {
      text := "SELECT " ++ functionWord fn ++ "(" ++ (draftTarget column).text ++
        ") AS aggregate FROM (" ++ (table.draft (aggregated plan)).text ++ ") AS q"
      parameters := (table.draft (aggregated plan)).parameters } := by
  unfold Draft.statement draftAggregate
  simp only [List.cons_append, Draft.text_word, Draft.text_append, Draft.text_nil,
    Draft.parameters_word, Draft.parameters_append, Draft.parameters_nil, parameters_draftTarget,
    List.nil_append, List.append_nil, String.append_empty, String.append_assoc]

theorem aggregate_eq (plan : Plan) (fn : AggregateFunction) (column : Option String) :
    table.aggregate plan fn column =
      table.vet (writtenColumns (aggregated plan) ++ column.toList) () >>= fun _ =>
        if fn != .count && column.isNone then .error (needsColumn fn)
        else .ok (table.draftAggregate plan fn column).statement := by
  rw [aggregate, select_eq, target_eq, statement_draftAggregate]
  unfold vet
  rw [firstUnknown?_append]
  cases table.firstUnknown? (writtenColumns (aggregated plan)) with
  | some unknown => rfl
  | none =>
      cases table.firstUnknown? column.toList with
      | some unknown => rfl
      | none =>
          dsimp only [Option.or]
          cases fn != .count && column.isNone with
          | true => rfl
          | false => rfl

end Table

end Sql

end OperatorConsole
