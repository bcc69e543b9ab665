import OperatorConsole.Proofs.Sql.Drafted

/-!
# Outlines of plans

The outline of a plan is the plan without its values: what is left is which columns are compared
and how, how many items a list has, and whether there is a limit or an offset.  Two plans with the
same outline come to the same text, or they fail with the same fault.
-/

namespace OperatorConsole

namespace Sql

open Query (AggregateFunction Clause Condition Having Plan)
open Table (aggregated)

/-! ## Outlines -/

def outlineOf : Condition -> Condition
  | .basic column operator _ => .basic column operator .null
  | .oneOf column values negated => .oneOf column (values.map fun _ => .null) negated
  | .between column _ _ negated => .between column .null .null negated
  | .isNull column negated => .isNull column negated
  | .datePart part column operator _ => .datePart part column operator .null
  | .columns first operator second => .columns first operator second

def outlineClause (clause : Clause) : Clause :=
  ⟨clause.joint, outlineOf clause.condition⟩

def outline (plan : Plan) : Plan :=
  { plan with
    conditions := plan.conditions.map outlineClause
    havings := plan.havings.map fun having => ⟨having.column, having.operator, .null⟩
    limit := plan.limit.map fun _ => 0
    offset := plan.offset.map fun _ => 0 }

theorem aggregated_outline (plan : Plan) :
    aggregated (outline plan) = outline (aggregated plan) := by
  have hcolumns : (outline plan).distinct = plan.distinct ∧ (outline plan).groups = plan.groups :=
    ⟨rfl, rfl⟩
  unfold aggregated
  rw [hcolumns.1, hcolumns.2]
  split <;> rfl

/-! ## Columns of an outline -/

theorem writtenIn_outline (condition : Condition) :
    writtenIn (outlineOf condition) = writtenIn condition := by
  cases condition with
  | oneOf column values negated =>
      cases values with
      | nil => rfl
      | cons value values => rfl
  | _ => rfl

theorem writtenColumns_outline (plan : Plan) :
    writtenColumns (outline plan) = writtenColumns plan := by
  simp [writtenColumns, outline, outlineClause, List.flatMap_map, writtenIn_outline,
    Function.comp_def]

/-! ## Texts of an outline -/

theorem text_condition_outline (condition : Condition) :
    (draftCondition (outlineOf condition)).text = (draftCondition condition).text := by
  cases condition with
  | basic column operator value => simp [outlineOf, draftCondition, draftComparison]
  | oneOf column values negated =>
      cases values with
      | nil => rfl
      | cons value values =>
          rw [outlineOf, List.map_cons, draftCondition, draftCondition]
          simp only [List.cons_append, Draft.text_identifier, Draft.text_word, Draft.text_append,
            Draft.text_joinWith, (draft_places _).1, List.map_cons, List.map_map]
          rfl
  | between column low high negated => simp [outlineOf, draftCondition]
  | isNull column negated => rfl
  | datePart part column operator value => simp [outlineOf, draftCondition]
  | columns first operator second => rfl

theorem text_clause_outline (clause : Clause) :
    (draftClause (outlineClause clause)).text = (draftClause clause).text := by
  simp only [draftClause, outlineClause, Draft.text_word, text_condition_outline]

theorem text_where_outline (clauses : List Clause) :
    (draftWhere (clauses.map outlineClause)).text = (draftWhere clauses).text := by
  cases clauses with
  | nil => rfl
  | cons clause clauses =>
      simp only [List.map_cons, draftWhere, List.cons_append, Draft.text_word,
        Draft.text_append, Draft.text_flatMap, List.map_map, Function.comp_def,
        text_clause_outline]
      rw [outlineClause, text_condition_outline]

theorem text_paging_outline (limit offset : Option Number) :
    (draftPaging (limit.map fun _ => 0) (offset.map fun _ => 0)).text =
      (draftPaging limit offset).text := by
  cases limit with
  | none =>
      cases offset with
      | none => rfl
      | some m => simp only [Option.map, draftPaging, Draft.text_word, Draft.text_parameter]
  | some n =>
      cases offset with
      | none => simp only [Option.map, draftPaging, Draft.text_word, Draft.text_parameter]
      | some m => simp only [Option.map, draftPaging, Draft.text_word, Draft.text_parameter]

theorem text_having_outline (having : Having) :
    (draftHaving ⟨having.column, having.operator, .null⟩).text = (draftHaving having).text := by
  simp only [draftHaving, draftComparison, Draft.text_identifier, Draft.text_word,
    Draft.text_parameter]

namespace Table

variable (table : Table)

theorem text_draft_outline (plan : Plan) :
    (table.draft (outline plan)).text = (table.draft plan).text := by
  simp only [draft, outline, List.cons_append, Draft.text_word, Draft.text_append,
    Draft.text_headed, List.map_map, Function.comp_def, text_where_outline, text_having_outline,
    text_paging_outline]
  rfl

theorem text_select_outline (plan : Plan) :
    (table.select (outline plan)).map Statement.text = (table.select plan).map Statement.text := by
  rw [select_eq, select_eq, writtenColumns_outline]
  unfold vet
  cases table.firstUnknown? (writtenColumns plan) with
  | none => exact congrArg Except.ok (table.text_draft_outline plan)
  | some column => rfl

theorem text_aggregate_outline (plan : Plan) (fn : AggregateFunction) (column : Option String) :
    (table.aggregate (outline plan) fn column).map Statement.text =
      (table.aggregate plan fn column).map Statement.text := by
  have hdraft : (table.draftAggregate (outline plan) fn column).text =
      (table.draftAggregate plan fn column).text := by
    simp only [draftAggregate, List.cons_append, Draft.text_word, Draft.text_append,
      aggregated_outline, text_draft_outline]
  rw [aggregate_eq, aggregate_eq, aggregated_outline, writtenColumns_outline]
  unfold vet
  cases table.firstUnknown? (writtenColumns (aggregated plan) ++ column.toList) with
  | some unknown => rfl
  | none =>
      cases fn != .count && column.isNone with
      | true => rfl
      | false => exact congrArg Except.ok hdraft

/-- What a statement says does not depend on the values of the plan, and neither does whether
there is one. -/
theorem text_of_outline {plan other : Plan} (houtline : outline plan = outline other) :
    (table.select plan).map Statement.text = (table.select other).map Statement.text ∧
      forall fn column, (table.aggregate plan fn column).map Statement.text =
        (table.aggregate other fn column).map Statement.text := by
  refine ⟨?_, ?_⟩
  · rw [← text_select_outline, houtline, text_select_outline]
  · intro fn column
    rw [← text_aggregate_outline, houtline, text_aggregate_outline]

theorem text_of_outline_month :
    let table : Table := ⟨"t", ["id", "at"], "id"⟩
    let clauses := fun (month id id' : Scalar) =>
      [(⟨.and, .datePart .month "at" .eq month⟩ : Clause), ⟨.or, .oneOf "id" [id, id'] false⟩]
    let plan := { Plan.empty with
      conditions := clauses (.text "02") (.number 1) (.number 2), limit := some 10 }
    let other := { Plan.empty with
      conditions := clauses (.text "? OR 1 = 1") .null (.bool true), limit := some 0 }
    outline plan = outline other ∧
      (table.select plan).map Statement.text = (table.select other).map Statement.text ∧
      (table.aggregate plan .max (some "id")).map Statement.text =
        (table.aggregate other .max (some "id")).map Statement.text := by
  intro table clauses plan other
  have houtline : outline plan = outline other := by decide +kernel
  exact ⟨houtline, (table.text_of_outline houtline).1, (table.text_of_outline houtline).2 _ _⟩

end Table

end Sql

end OperatorConsole
