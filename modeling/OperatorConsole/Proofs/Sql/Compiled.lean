import OperatorConsole.Proofs.Sql.Drafted
import OperatorConsole.Proofs.Sql.Sound

/-!
# Compiled statements

Whatever a plan asks for, the statement that a table makes of it has a sound draft over the table's
own names, and so has the statement for an aggregate.  Nothing is assumed of these names.
-/

namespace OperatorConsole

namespace Sql

open Query (AggregateFunction Clause Comparison Condition DatePart Having Plan SortKey)

theorem operator_loose (operator : Comparison) :
    s!" {operatorWord operator} " ∈ looseWords := by
  refine List.mem_append_right _ (List.mem_map_of_mem ?_)
  cases operator <;> decide

/-! ## Clauses -/

section Clauses

variable {names : List String}

theorem sound_comparison {column : String} (hcolumn : column ∈ names) (operator : Comparison)
    (value : Scalar) : Sound names .free (draftComparison column operator value) := by
  refine sound_identifier hcolumn ?_
  exact sound_loose (operator_loose operator) (sound_parameter value (sound_nil _) _) _

theorem sound_datePart {column : String} (hcolumn : column ∈ names) (part : DatePart)
    {rest : Draft} (hrest : forall edge, Sound names edge rest) :
    Sound names .free (.word (datePartWords part).1 :: .identifier column ::
      .word (datePartWords part).2 :: rest) := by
  have hcall : forall opening ending : String, opening ∈ leadingWords -> ending ∈ looseWords ->
      Sound names .free (.word opening :: .identifier column :: .word ending :: rest) := by
    intro opening ending hopening hending
    exact sound_leading hopening (sound_identifier hcolumn (sound_loose hending (hrest _) _))
  cases part with
  | date => exact hcall _ _ (by decide) (by decide)
  | month => exact hcall _ _ (by decide) (by decide)
  | year => exact hcall _ _ (by decide) (by decide)
  | time => exact hcall _ _ (by decide) (by decide)

theorem sound_condition {condition : Condition}
    (hcolumns : forall column, column ∈ writtenIn condition -> column ∈ names) :
    Sound names .free (draftCondition condition) := by
  cases condition with
  | basic column operator value =>
      exact sound_comparison (hcolumns column List.mem_cons_self) operator value
  | oneOf column values negated =>
      cases values with
      | nil =>
          cases negated with
          | false => exact sound_solid (by decide) (sound_nil _)
          | true => exact sound_solid (by decide) (sound_nil _)
      | cons value values =>
          have hword : (if negated then " NOT IN (" else " IN (") ∈ looseWords := by
            cases negated <;> decide
          refine sound_append (sound_identifier (hcolumns column List.mem_cons_self)
            (sound_loose hword ?_ _)) ?_
          · refine sound_joinWith (by decide) ?_
            intro part hpart
            rcases List.mem_map.mp hpart with ⟨v, _, rfl⟩
            exact sound_parameter v (sound_nil _) _
          · exact sound_loose (by decide) (sound_nil _)
  | between column low high negated =>
      have hword : (if negated then " NOT BETWEEN " else " BETWEEN ") ∈ looseWords := by
        cases negated <;> decide
      refine sound_identifier (hcolumns column List.mem_cons_self) ?_
      refine sound_loose hword (sound_parameter low ?_ _) _
      exact sound_loose (by decide) (sound_parameter high (sound_nil _) _) _
  | isNull column negated =>
      have hword : (if negated then " IS NOT NULL" else " IS NULL") ∈ trailingWords := by
        cases negated <;> decide
      exact sound_identifier (hcolumns column List.mem_cons_self)
        (sound_trailing hword (sound_nil _) _)
  | datePart part column operator value =>
      refine sound_datePart (hcolumns column List.mem_cons_self) part ?_
      intro edge
      exact sound_loose (operator_loose operator) (sound_parameter _ (sound_nil _) _) edge
  | columns first operator second =>
      have hsecond : second ∈ names :=
        hcolumns second (List.mem_cons_of_mem first List.mem_cons_self)
      refine sound_identifier (hcolumns first List.mem_cons_self) ?_
      exact sound_loose (operator_loose operator) (sound_identifier hsecond (sound_nil _)) _

theorem sound_clauses {clauses : List Clause}
    (hcolumns : forall column,
      column ∈ clauses.flatMap (fun clause => writtenIn clause.condition) -> column ∈ names)
    (edge : Edge) : Sound names edge (clauses.flatMap draftClause) := by
  induction clauses generalizing edge with
  | nil => exact sound_nil edge
  | cons clause clauses ih =>
      rw [List.flatMap_cons, List.forall_mem_append] at hcolumns
      have hjoint : joint clause.joint ∈ leadingWords := by
        cases clause.joint <;> decide
      refine sound_append ?_ (ih hcolumns.2)
      exact sound_loose (by decide) (sound_leading hjoint (sound_condition hcolumns.1)) edge

theorem sound_where {clauses : List Clause}
    (hcolumns : forall column,
      column ∈ clauses.flatMap (fun clause => writtenIn clause.condition) -> column ∈ names)
    (edge : Edge) : Sound names edge (draftWhere clauses) := by
  cases clauses with
  | nil => exact sound_nil edge
  | cons clause clauses =>
      rw [List.flatMap_cons, List.forall_mem_append] at hcolumns
      refine sound_append ?_ (sound_clauses hcolumns.2)
      exact sound_loose (by decide) (sound_condition hcolumns.1) edge

theorem sound_headed {heading separator : String} (hheading : heading ∈ looseWords)
    (hseparator : separator ∈ looseWords) {items : List Draft}
    (hitems : forall item, item ∈ items -> Sound names .free item) (edge : Edge) :
    Sound names edge (Draft.headed heading separator items) := by
  unfold Draft.headed
  split
  · exact sound_nil edge
  · exact sound_loose hheading (sound_joinWith hseparator hitems) edge

theorem sound_columns {columns : List String}
    (hcolumns : forall column, column ∈ columns -> column ∈ names) :
    forall item, item ∈ draftColumns columns -> Sound names .free item := by
  intro item hitem
  rcases List.mem_map.mp hitem with ⟨column, hcolumn, rfl⟩
  exact sound_identifier (hcolumns column hcolumn) (sound_nil _)

theorem sound_selection {columns : List String}
    (hcolumns : forall column, column ∈ columns -> column ∈ names) :
    Sound names .free (draftSelection columns) := by
  unfold draftSelection
  split
  · exact sound_loose (by decide) (sound_nil _) _
  · exact sound_joinWith (by decide) (sound_columns hcolumns)

theorem sound_havings {havings : List Having}
    (hcolumns : forall column, column ∈ havings.map Having.column -> column ∈ names) :
    forall item, item ∈ havings.map draftHaving -> Sound names .free item := by
  intro item hitem
  rcases List.mem_map.mp hitem with ⟨having, hhaving, rfl⟩
  exact sound_comparison (hcolumns _ (List.mem_map_of_mem hhaving)) _ _

theorem sound_orders {orders : List SortKey}
    (hcolumns : forall column, column ∈ orders.map SortKey.column -> column ∈ names) :
    forall item, item ∈ orders.map draftOrder -> Sound names .free item := by
  intro item hitem
  rcases List.mem_map.mp hitem with ⟨order, horder, rfl⟩
  have hword : directionWord order.direction ∈ trailingWords := by
    cases order.direction <;> decide
  exact sound_identifier (hcolumns _ (List.mem_map_of_mem horder))
    (sound_trailing hword (sound_nil _) _)

theorem sound_paging (limit offset : Option Number) (edge : Edge) :
    Sound names edge (draftPaging limit offset) := by
  have hlimit : forall n rest, (forall edge, Sound names edge rest) ->
      Sound names edge (.word " LIMIT " :: .parameter n :: rest) := by
    intro n rest hrest
    exact sound_loose (by decide) (sound_parameter n (hrest _) _) edge
  cases offset with
  | none =>
      cases limit with
      | none => exact sound_nil edge
      | some n => exact hlimit _ _ sound_nil
  | some m =>
      have hoffset : forall edge,
          Sound names edge [.word " OFFSET ", .parameter (.number m)] := by
        intro edge
        exact sound_loose (by decide) (sound_parameter _ (sound_nil _) _) edge
      cases limit with
      | none => exact hlimit _ _ hoffset
      | some n => exact hlimit _ _ hoffset

theorem sound_target {column : Option String}
    (hcolumn : forall name, name ∈ column.toList -> name ∈ names) :
    Sound names .free (draftTarget column) := by
  cases column with
  | none => exact sound_loose (by decide) (sound_nil _) _
  | some column =>
      exact sound_leading (by decide)
        (sound_identifier (hcolumn column List.mem_cons_self) (sound_nil _))

end Clauses

/-! ## Whole statements -/

namespace Table

def names (table : Table) : List String :=
  table.name :: table.primaryKey :: table.columns

variable {table : Table}

theorem mem_names_of_known {columns : List String}
    (hknown : table.firstUnknown? columns = none) :
    forall column, column ∈ columns -> column ∈ table.names := by
  intro column hmem
  have hcolumn := firstUnknown?_eq_none.mp hknown column hmem
  rw [knows, Bool.or_eq_true] at hcolumn
  rcases hcolumn with hlisted | hkey
  · exact List.mem_cons_of_mem _ (List.mem_cons_of_mem _ (List.contains_iff_mem.mp hlisted))
  · rw [eq_of_beq hkey]
    exact List.mem_cons_of_mem _ List.mem_cons_self

/-- The draft of a plan whose written columns are known is sound over the names of the table. -/
theorem sound_draft {plan : Plan} (hknown : table.firstUnknown? (writtenColumns plan) = none) :
    Sound table.names .free (table.draft plan) := by
  have hnames := mem_names_of_known hknown
  simp only [writtenColumns, List.forall_mem_append] at hnames
  rcases hnames with ⟨⟨⟨⟨hcolumns, hconditions⟩, hgroups⟩, hhavings⟩, horders⟩
  have hselect : (if plan.distinct then "SELECT DISTINCT " else "SELECT ") ∈ leadingWords := by
    cases plan.distinct <;> decide
  have hfrom : forall edge, Sound table.names edge [.word " FROM ", .identifier table.name] := by
    intro edge
    exact sound_loose (by decide) (sound_identifier List.mem_cons_self (sound_nil _)) edge
  refine sound_append ?_ (sound_paging plan.limit plan.offset)
  refine sound_append ?_ (sound_headed (by decide) (by decide) (sound_orders horders))
  refine sound_append ?_ (sound_headed (by decide) (by decide) (sound_havings hhavings))
  refine sound_append ?_ (sound_headed (by decide) (by decide) (sound_columns hgroups))
  refine sound_append ?_ (sound_where hconditions)
  exact sound_append (sound_leading hselect (sound_selection hcolumns)) hfrom

theorem sound_draftAggregate {plan : Plan} (fn : AggregateFunction) {column : Option String}
    (hknown : table.firstUnknown? (writtenColumns (aggregated plan) ++ column.toList) = none) :
    Sound table.names .free (table.draftAggregate plan fn column) := by
  have hnames := mem_names_of_known hknown
  rw [firstUnknown?_append, Option.or_eq_none_iff] at hknown
  have hfunction : functionWord fn ∈ solidWords := by
    cases fn <;> decide
  have hcall : Sound table.names .letter (.word "(" :: draftTarget column) :=
    sound_loose (by decide) (sound_target (List.forall_mem_append.mp hnames).2) _
  have hsource : forall edge, Sound table.names edge
      (.word ") AS aggregate FROM (" :: table.draft (aggregated plan)) := by
    intro edge
    exact sound_loose (by decide) (sound_draft hknown.1) edge
  refine sound_append (sound_append ?_ hsource) ?_
  · exact sound_leading (by decide) (sound_solid hfunction hcall)
  · exact sound_trailing (by decide) (sound_nil _)

theorem select_eq_ok {plan : Plan} {s : Statement} (hselect : table.select plan = .ok s) :
    table.firstUnknown? (writtenColumns plan) = none ∧ s = (table.draft plan).statement := by
  rw [select_eq] at hselect
  rcases vet_eq_ok.mp hselect with ⟨hknown, hstatement⟩
  exact ⟨hknown, hstatement.symm⟩

theorem aggregate_eq_ok {plan : Plan} {fn : AggregateFunction} {column : Option String}
    {s : Statement} (haggregate : table.aggregate plan fn column = .ok s) :
    table.firstUnknown? (writtenColumns (aggregated plan) ++ column.toList) = none ∧
      s = (table.draftAggregate plan fn column).statement := by
  rw [aggregate_eq] at haggregate
  cases hvet : table.vet (writtenColumns (aggregated plan) ++ column.toList) () with
  | error failure =>
      rw [hvet] at haggregate
      cases haggregate
  | ok checked =>
      rw [hvet] at haggregate
      refine ⟨(vet_eq_ok.mp hvet).1, ?_⟩
      change (if fn != .count && column.isNone then _ else _) = Except.ok s at haggregate
      split at haggregate
      · cases haggregate
      · cases haggregate
        rfl

/-- A statement that a table issues: the one for a plan, or one for an aggregate over it. -/
inductive Issued (table : Table) : Statement -> Prop where
  | select {plan s} (hselect : table.select plan = .ok s) : Issued table s
  | aggregate {plan fn column s} (haggregate : table.aggregate plan fn column = .ok s) :
      Issued table s

/-- Every statement that a table issues has a sound draft over the names of the table. -/
theorem Issued.sound {s : Statement} (hs : table.Issued s) :
    exists d, Sound table.names .free d ∧ s = d.statement := by
  cases hs with
  | @select plan _ hselect =>
      rcases select_eq_ok hselect with ⟨hknown, hstatement⟩
      exact ⟨_, sound_draft hknown, hstatement⟩
  | @aggregate plan fn column _ haggregate =>
      rcases aggregate_eq_ok haggregate with ⟨hknown, hstatement⟩
      exact ⟨_, sound_draftAggregate fn hknown, hstatement⟩

theorem Issued.text {s : Statement} (hs : table.Issued s) :
    (exists plan, table.select plan = .ok s) ∨
    exists plan fn column inner operand, table.select plan = .ok inner ∧
      table.target column = .ok operand ∧
      s.text = "SELECT " ++ functionWord fn ++ "(" ++ operand ++ ") AS aggregate FROM (" ++
        inner.text ++ ") AS q" := by
  cases hs with
  | @select plan _ hselect => exact Or.inl ⟨plan, hselect⟩
  | @aggregate plan fn column _ haggregate =>
      rcases aggregate_eq_ok haggregate with ⟨hknown, hstatement⟩
      rw [firstUnknown?_append, Option.or_eq_none_iff] at hknown
      have hoperand : table.target column = .ok (draftTarget column).text := by
        rw [target_eq]
        exact vet_eq_ok.mpr ⟨hknown.2, rfl⟩
      refine Or.inr ⟨aggregated plan, fn, column, _, _, select_of_known hknown.1, hoperand, ?_⟩
      rw [hstatement, statement_draftAggregate]
      rfl

end Table

end Sql

end OperatorConsole
