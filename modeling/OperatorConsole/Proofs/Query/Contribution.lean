import OperatorConsole.Proofs.Query.Operands

/-!
# What builder calls put into a plan

A call of a builder verb puts one thing into a plan: a condition, an order, some groups, a having,
some columns, a limit, an offset or the wish for distinct rows.  What it is depends on the operands
alone, so `States` says it without a plan, and `apply_eq_ok` says that applying the verb is putting
this into the plan.

## Parts

Every verb is about one part of a plan.  What two calls put into different parts, they put there in
either order.
-/

namespace OperatorConsole

namespace Query

open Checked

/-! ## Contributions -/

inductive Contribution where
  | clause (clause : Clause)
  | order (key : SortKey)
  | groups (columns : List String)
  | having (having : Having)
  /-- Columns in the place of those that are there. -/
  | select (columns : List String)
  | addSelect (columns : List String)
  | limit (n : Number)
  | offset (n : Number)
  | distinct
  deriving DecidableEq, Repr

def Plan.put (plan : Plan) : Contribution -> Plan
  | .clause clause => { plan with conditions := plan.conditions ++ [clause] }
  | .order key => { plan with orders := plan.orders ++ [key] }
  | .groups columns => { plan with groups := plan.groups ++ columns }
  | .having having => { plan with havings := plan.havings ++ [having] }
  | .select columns => { plan with columns := columns }
  | .addSelect columns => { plan with columns := plan.columns ++ columns }
  | .limit n => { plan with limit := some n }
  | .offset n => { plan with offset := some n }
  | .distinct => { plan with distinct := true }

/-! ## Parts of a plan -/

inductive PlanPart where
  | conditions
  | orders
  | groups
  | havings
  | columns
  | limit
  | offset
  | distinct
  deriving DecidableEq, Repr

def Contribution.part : Contribution -> PlanPart
  | .clause _ => .conditions
  | .order _ => .orders
  | .groups _ => .groups
  | .having _ => .havings
  | .select _ => .columns
  | .addSelect _ => .columns
  | .limit _ => .limit
  | .offset _ => .offset
  | .distinct => .distinct

theorem Plan.put_comm (plan : Plan) {c d : Contribution} (hparts : c.part ≠ d.part) :
    (plan.put c).put d = (plan.put d).put c := by
  cases c <;> cases d <;> first | rfl | exact absurd rfl hparts

def Direction.IsWritten (direction : Direction) (text : String) : Prop :=
  Text.lower text.toList = direction.text.toList

namespace BuilderVerb

/-- The part of a plan that a verb is about. -/
def part : BuilderVerb -> PlanPart
  | .where | .orWhere | .whereIn | .whereNotIn | .whereBetween | .whereNotBetween
  | .whereNull | .whereNotNull | .whereDate | .whereMonth | .whereYear | .whereTime
  | .whereColumn => .conditions
  | .orderBy | .orderByDesc | .latest | .oldest => .orders
  | .limit | .take => .limit
  | .offset | .skip => .offset
  | .select | .addSelect => .columns
  | .distinct => .distinct
  | .groupBy => .groups
  | .having => .havings

/-! ## What operands state -/

/-- A comparison with a value is a condition; one with null is a test for null, and only equality
can be one. -/
inductive StatesComparison (joint : Conjunction) (args : List Operand) : Contribution -> Prop where
  | basic {column operator v} (hcompares : Compares args column operator v) (hvalue : v ≠ .null) :
      StatesComparison joint args (.clause ⟨joint, .basic column operator v⟩)
  | null {column} (hcompares : Compares args column .eq .null) :
      StatesComparison joint args (.clause ⟨joint, .isNull column false⟩)
  | notNull {column operator} (hoperator : operator = .ne ∨ operator = .differs)
      (hcompares : Compares args column operator .null) :
      StatesComparison joint args (.clause ⟨joint, .isNull column true⟩)

inductive StatesMember (negated : Bool) : List Operand -> Contribution -> Prop where
  | values {column values} (hname : isColumnName column = true) :
      StatesMember negated [.column column, .list (values.map .scalar)]
        (.clause ⟨.and, .oneOf column values negated⟩)

inductive StatesRange (negated : Bool) : List Operand -> Contribution -> Prop where
  | bounds {column low high} (hname : isColumnName column = true) :
      StatesRange negated [.column column, .list [.scalar low, .scalar high]]
        (.clause ⟨.and, .between column low high negated⟩)

inductive StatesColumns (args : List Operand) : Contribution -> Prop where
  | columns {first operator second} (hcompares : Compares args first operator (.text second))
      (hname : isColumnName second = true) :
      StatesColumns args (.clause ⟨.and, .columns first operator second⟩)

inductive StatesCompared (contribution : String -> Comparison -> Scalar -> Contribution)
    (args : List Operand) : Contribution -> Prop where
  | compared {column operator v} (hcompares : Compares args column operator v) :
      StatesCompared contribution args (contribution column operator v)

inductive StatesColumn (contribution : String -> Contribution) :
    List Operand -> Contribution -> Prop where
  | column {column} (hname : isColumnName column = true) :
      StatesColumn contribution [.column column] (contribution column)

inductive StatesOrder : List Operand -> Contribution -> Prop where
  | plain {column} (hname : isColumnName column = true) :
      StatesOrder [.column column] (.order ⟨column, .ascending⟩)
  | directed {column text direction} (hname : isColumnName column = true)
      (hdirection : Direction.IsWritten direction text) :
      StatesOrder [.column column, .scalar (.text text)] (.order ⟨column, direction⟩)

inductive StatesTime (direction : Direction) : List Operand -> Contribution -> Prop where
  | standard : StatesTime direction [] (.order ⟨timestampColumn, direction⟩)
  | column {column} (hname : isColumnName column = true) :
      StatesTime direction [.column column] (.order ⟨column, direction⟩)

inductive StatesCount (contribution : Number -> Contribution) :
    List Operand -> Contribution -> Prop where
  | count {n} (hn : n.IsCount) : StatesCount contribution [.scalar (.number n)] (contribution n)

inductive StatesNames (contribution : List String -> Contribution) (args : List Operand) :
    Contribution -> Prop where
  | names {columns} (hnames : NamesColumns args columns) :
      StatesNames contribution args (contribution columns)

inductive StatesDistinct : List Operand -> Contribution -> Prop where
  | bare : StatesDistinct [] .distinct

/-- What the operands of a call put into a plan. -/
def States (verb : BuilderVerb) : List Operand -> Contribution -> Prop :=
  let test := fun condition => Contribution.clause ⟨.and, condition⟩
  match verb with
  | .where => StatesComparison .and
  | .orWhere => StatesComparison .or
  | .whereIn => StatesMember false
  | .whereNotIn => StatesMember true
  | .whereBetween => StatesRange false
  | .whereNotBetween => StatesRange true
  | .whereNull => StatesColumn fun column => test (.isNull column false)
  | .whereNotNull => StatesColumn fun column => test (.isNull column true)
  | .whereDate => StatesCompared fun column operator v => test (.datePart .date column operator v)
  | .whereMonth => StatesCompared fun column operator v => test (.datePart .month column operator v)
  | .whereYear => StatesCompared fun column operator v => test (.datePart .year column operator v)
  | .whereTime => StatesCompared fun column operator v => test (.datePart .time column operator v)
  | .whereColumn => StatesColumns
  | .orderBy => StatesOrder
  | .orderByDesc => StatesColumn fun column => .order ⟨column, .descending⟩
  | .latest => StatesTime .descending
  | .oldest => StatesTime .ascending
  | .limit | .take => StatesCount .limit
  | .offset | .skip => StatesCount .offset
  | .select => StatesNames .select
  | .addSelect => StatesNames .addSelect
  | .distinct => StatesDistinct
  | .groupBy => StatesNames .groups
  | .having => StatesCompared fun column operator v => .having ⟨column, operator, v⟩

/-! ## What verbs put -/

section Verbs

variable {verb : String} {args : List Operand} {plan plan' : Plan}

theorem comparisonCondition_eq_ok {column : String} {operator : Comparison} {v : Scalar}
    {condition : Condition} :
    comparisonCondition verb column operator v = .ok condition ↔
      (v ≠ .null ∧ condition = .basic column operator v) ∨
        (v = .null ∧ operator = .eq ∧ condition = .isNull column false) ∨
        (v = .null ∧ (operator = .ne ∨ operator = .differs) ∧ condition = .isNull column true) := by
  cases v with
  | null => cases operator <;> simp [comparisonCondition, eq_comm]
  | _ => simp [comparisonCondition, eq_comm]

theorem compare_eq_ok {joint : Conjunction} :
    compare joint verb args plan = .ok plan' ↔
      exists c, StatesComparison joint args c ∧ plan' = plan.put c := by
  have hput : forall {column operator v condition}, Compares args column operator v ->
      comparisonCondition verb column operator v = .ok condition ->
      compare joint verb args plan = .ok (plan.put (.clause ⟨joint, condition⟩)) := by
    intro column operator v condition hcompares hcondition
    exact bind_eq_ok.mpr ⟨_, comparisonOf_eq_ok.mpr hcompares,
      bind_eq_ok.mpr ⟨_, hcondition, rfl⟩⟩
  constructor
  · intro happly
    rcases bind_eq_ok.mp happly with ⟨⟨column, operator, v⟩, hcomparison, hrest⟩
    rcases bind_eq_ok.mp hrest with ⟨condition, hcondition, hgiven⟩
    cases hgiven
    have hcompares := comparisonOf_eq_ok.mp hcomparison
    rcases comparisonCondition_eq_ok.mp hcondition with
      ⟨hvalue, rfl⟩ | ⟨rfl, rfl, rfl⟩ | ⟨rfl, hoperator, rfl⟩
    · exact ⟨_, .basic hcompares hvalue, rfl⟩
    · exact ⟨_, .null hcompares, rfl⟩
    · exact ⟨_, .notNull hoperator hcompares, rfl⟩
  · rintro ⟨_, ⟨hcompares, hvalue⟩ | ⟨hcompares⟩ | ⟨hoperator, hcompares⟩, rfl⟩
    · exact hput hcompares (comparisonCondition_eq_ok.mpr (Or.inl ⟨hvalue, rfl⟩))
    · exact hput hcompares (comparisonCondition_eq_ok.mpr (Or.inr (Or.inl ⟨rfl, rfl, rfl⟩)))
    · exact hput hcompares
        (comparisonCondition_eq_ok.mpr (Or.inr (Or.inr ⟨rfl, hoperator, rfl⟩)))

theorem member_eq_ok {negated : Bool} :
    member negated verb args plan = .ok plan' ↔
      exists c, StatesMember negated args c ∧ plan' = plan.put c := by
  unfold member
  constructor
  · intro happly
    rcases bind_eq_ok.mp happly with ⟨_, harity, hrest⟩
    rcases bind_eq_ok.mp hrest with ⟨column, hcolumn, hrest⟩
    rcases bind_eq_ok.mp hrest with ⟨values, hvalues, hgiven⟩
    cases hgiven
    rcases columnOf_eq_ok.mp hcolumn with ⟨hfirst, hname⟩
    rcases checkArity_eq_ok.mp harity with ⟨hleast, hmost⟩
    rw [eq_pair (Nat.le_antisymm hmost hleast) hfirst (scalarsOf_eq_ok.mp hvalues)]
    exact ⟨_, .values hname, rfl⟩
  · rintro ⟨_, ⟨hname⟩, rfl⟩
    refine bind_eq_ok.mpr ⟨(), rfl, bind_eq_ok.mpr ⟨_, if_pos hname, ?_⟩⟩
    exact bind_eq_ok.mpr ⟨_, scalarsOf_eq_ok.mpr rfl, rfl⟩

theorem range_eq_ok {negated : Bool} :
    range negated verb args plan = .ok plan' ↔
      exists c, StatesRange negated args c ∧ plan' = plan.put c := by
  unfold range
  constructor
  · intro happly
    rcases bind_eq_ok.mp happly with ⟨_, harity, hrest⟩
    rcases bind_eq_ok.mp hrest with ⟨values, hvalues, hrest⟩
    split at hrest
    · rcases bind_eq_ok.mp hrest with ⟨column, hcolumn, hgiven⟩
      cases hgiven
      rcases columnOf_eq_ok.mp hcolumn with ⟨hfirst, hname⟩
      rcases checkArity_eq_ok.mp harity with ⟨hleast, hmost⟩
      rw [eq_pair (Nat.le_antisymm hmost hleast) hfirst (scalarsOf_eq_ok.mp hvalues)]
      exact ⟨_, .bounds hname, rfl⟩
    · cases hrest
  · rintro ⟨_, @⟨column, low, high, hname⟩, rfl⟩
    have hbounds : scalarsOf verb (some (.list [.scalar low, .scalar high])) = .ok [low, high] :=
      scalarsOf_eq_ok.mpr rfl
    refine bind_eq_ok.mpr ⟨(), rfl, bind_eq_ok.mpr ⟨[low, high], hbounds, ?_⟩⟩
    exact bind_eq_ok.mpr ⟨column, if_pos hname, rfl⟩

theorem single_eq_ok (contribution : String -> Contribution) :
    (do checkArity verb args 1 1
        let column ← columnOf verb args[0]?
        return plan.put (contribution column)) = .ok plan' ↔
      exists c, StatesColumn contribution args c ∧ plan' = plan.put c := by
  constructor
  · intro happly
    rcases bind_eq_ok.mp happly with ⟨_, harity, hrest⟩
    rcases bind_eq_ok.mp hrest with ⟨column, hcolumn, hgiven⟩
    cases hgiven
    rcases columnOf_eq_ok.mp hcolumn with ⟨hfirst, hname⟩
    rcases checkArity_eq_ok.mp harity with ⟨hleast, hmost⟩
    rw [eq_single (Nat.le_antisymm hmost hleast) hfirst]
    exact ⟨_, .column hname, rfl⟩
  · rintro ⟨_, ⟨hname⟩, rfl⟩
    exact bind_eq_ok.mpr ⟨(), rfl, bind_eq_ok.mpr ⟨_, if_pos hname, rfl⟩⟩

theorem compared_eq_ok (contribution : String -> Comparison -> Scalar -> Contribution) :
    (do let (column, operator, v) ← comparisonOf verb args
        return plan.put (contribution column operator v)) = .ok plan' ↔
      exists c, StatesCompared contribution args c ∧ plan' = plan.put c := by
  constructor
  · intro happly
    rcases bind_eq_ok.mp happly with ⟨⟨column, operator, v⟩, hcomparison, hgiven⟩
    cases hgiven
    exact ⟨_, .compared (comparisonOf_eq_ok.mp hcomparison), rfl⟩
  · rintro ⟨_, ⟨hcompares⟩, rfl⟩
    exact bind_eq_ok.mpr ⟨_, comparisonOf_eq_ok.mpr hcompares, rfl⟩

theorem columns_eq_ok :
    columns verb args plan = .ok plan' ↔
      exists c, StatesColumns args c ∧ plan' = plan.put c := by
  unfold columns
  constructor
  · intro happly
    rcases bind_eq_ok.mp happly with ⟨⟨first, operator, v⟩, hcomparison, hrest⟩
    rcases bind_eq_ok.mp hrest with ⟨second, hsecond, hgiven⟩
    cases hgiven
    rcases columnOf_eq_ok.mp hsecond with ⟨hvalue, hname⟩
    cases hvalue
    exact ⟨_, .columns (comparisonOf_eq_ok.mp hcomparison) hname, rfl⟩
  · rintro ⟨_, ⟨hcompares, hname⟩, rfl⟩
    exact bind_eq_ok.mpr ⟨_, comparisonOf_eq_ok.mpr hcompares,
      bind_eq_ok.mpr ⟨_, if_pos hname, rfl⟩⟩

theorem directionOf_eq_ok {written : Scalar} {direction : Direction} :
    directionOf verb written = .ok direction ↔
      exists text, written = .text text ∧ direction.IsWritten text := by
  cases written with
  | text s =>
      unfold directionOf Direction.IsWritten
      simp only [Scalar.text.injEq, exists_eq_left']
      split
      · rename_i hlowered
        rw [hlowered]
        cases direction <;> simp [Direction.text]
      · rename_i hlowered
        split
        · rename_i hlowered'
          rw [hlowered']
          cases direction <;> simp [Direction.text]
        · rename_i hlowered'
          simp only [reduceCtorEq, false_iff]
          cases direction with
          | ascending => exact hlowered
          | descending => exact hlowered'
  | _ => simp [directionOf]

theorem sort_eq_ok :
    sort verb args plan = .ok plan' ↔ exists c, StatesOrder args c ∧ plan' = plan.put c := by
  unfold sort
  constructor
  · intro happly
    rcases bind_eq_ok.mp happly with ⟨_, harity, hrest⟩
    rcases checkArity_eq_ok.mp harity with ⟨hleast, hmost⟩
    dsimp only at hrest
    split at hrest
    · rename_i htwo
      rcases bind_eq_ok.mp hrest with ⟨written, hwritten, hrest⟩
      rcases bind_eq_ok.mp hrest with ⟨direction, hnamed, hrest⟩
      rcases bind_eq_ok.mp hrest with ⟨column, hcolumn, hgiven⟩
      cases hgiven
      rcases columnOf_eq_ok.mp hcolumn with ⟨hfirst, hname⟩
      rcases directionOf_eq_ok.mp hnamed with ⟨text, rfl, hdirection⟩
      rw [eq_pair htwo hfirst (scalarOf_eq_ok.mp hwritten)]
      exact ⟨_, .directed hname hdirection, rfl⟩
    · rename_i hone
      rcases bind_eq_ok.mp hrest with ⟨written, hwritten, hrest⟩
      cases hwritten
      rcases bind_eq_ok.mp hrest with ⟨direction, hnamed, hrest⟩
      cases hnamed
      rcases bind_eq_ok.mp hrest with ⟨column, hcolumn, hgiven⟩
      cases hgiven
      rcases columnOf_eq_ok.mp hcolumn with ⟨hfirst, hname⟩
      rw [eq_single (by omega) hfirst]
      exact ⟨_, .plain hname, rfl⟩
  · rintro ⟨_, ⟨hname⟩ | ⟨hname, hdirection⟩, rfl⟩
    · exact bind_eq_ok.mpr ⟨(), rfl, bind_eq_ok.mpr ⟨.text "asc", rfl,
        bind_eq_ok.mpr ⟨.ascending, rfl, bind_eq_ok.mpr ⟨_, if_pos hname, rfl⟩⟩⟩⟩
    · refine bind_eq_ok.mpr ⟨(), rfl, bind_eq_ok.mpr ⟨.text _, rfl, ?_⟩⟩
      exact bind_eq_ok.mpr ⟨_, directionOf_eq_ok.mpr ⟨_, rfl, hdirection⟩,
        bind_eq_ok.mpr ⟨_, if_pos hname, rfl⟩⟩

theorem sortByTime_eq_ok {direction : Direction} :
    sortByTime direction verb args plan = .ok plan' ↔
      exists c, StatesTime direction args c ∧ plan' = plan.put c := by
  unfold sortByTime
  constructor
  · intro happly
    rcases bind_eq_ok.mp happly with ⟨_, harity, hrest⟩
    rcases checkArity_eq_ok.mp harity with ⟨hleast, hmost⟩
    dsimp only at hrest
    split at hrest
    · rename_i hone
      rcases bind_eq_ok.mp hrest with ⟨column, hcolumn, hgiven⟩
      cases hgiven
      rcases columnOf_eq_ok.mp hcolumn with ⟨hfirst, hname⟩
      rw [eq_single hone hfirst]
      exact ⟨_, .column hname, rfl⟩
    · rename_i hnone
      cases hrest
      rw [List.eq_nil_of_length_eq_zero (by omega : args.length = 0)]
      exact ⟨_, .standard, rfl⟩
  · rintro ⟨_, _ | ⟨hname⟩, rfl⟩
    · rfl
    · exact bind_eq_ok.mpr ⟨(), rfl, bind_eq_ok.mpr ⟨_, if_pos hname, rfl⟩⟩

theorem counted_eq_ok (contribution : Number -> Contribution) :
    (do checkArity verb args 1 1
        let n ← countOf verb args[0]?
        return plan.put (contribution n)) = .ok plan' ↔
      exists c, StatesCount contribution args c ∧ plan' = plan.put c := by
  constructor
  · intro happly
    rcases bind_eq_ok.mp happly with ⟨_, harity, hrest⟩
    rcases bind_eq_ok.mp hrest with ⟨n, hcount, hgiven⟩
    cases hgiven
    rcases countOf_eq_ok.mp hcount with ⟨hfirst, hn⟩
    rcases checkArity_eq_ok.mp harity with ⟨hleast, hmost⟩
    rw [eq_single (Nat.le_antisymm hmost hleast) hfirst]
    exact ⟨_, .count hn, rfl⟩
  · rintro ⟨_, ⟨hn⟩, rfl⟩
    exact bind_eq_ok.mpr ⟨(), rfl, bind_eq_ok.mpr ⟨_, countOf_eq_ok.mpr ⟨rfl, hn⟩, rfl⟩⟩

theorem named_eq_ok (contribution : List String -> Contribution) :
    (do let columns ← columnsOf verb args
        return plan.put (contribution columns)) = .ok plan' ↔
      exists c, StatesNames contribution args c ∧ plan' = plan.put c := by
  constructor
  · intro happly
    rcases bind_eq_ok.mp happly with ⟨columns, hcolumns, hgiven⟩
    cases hgiven
    exact ⟨_, .names (columnsOf_eq_ok.mp hcolumns), rfl⟩
  · rintro ⟨_, ⟨hnames⟩, rfl⟩
    exact bind_eq_ok.mpr ⟨_, columnsOf_eq_ok.mpr hnames, rfl⟩

theorem setDistinct_eq_ok :
    setDistinct verb args plan = .ok plan' ↔
      exists c, StatesDistinct args c ∧ plan' = plan.put c := by
  unfold setDistinct
  constructor
  · intro happly
    rcases bind_eq_ok.mp happly with ⟨_, harity, hgiven⟩
    cases hgiven
    rcases checkArity_eq_ok.mp harity with ⟨_, hmost⟩
    rw [List.eq_nil_of_length_eq_zero (Nat.le_zero.mp hmost)]
    exact ⟨_, .bare, rfl⟩
  · rintro ⟨_, ⟨⟩, rfl⟩
    rfl

end Verbs

/-- Applying a verb is putting what the operands state, and it is refused where they state
nothing. -/
theorem apply_eq_ok {verb : BuilderVerb} {args : List Operand} {plan plan' : Plan} :
    verb.apply args plan = .ok plan' ↔ exists c, verb.States args c ∧ plan' = plan.put c := by
  cases verb with
  | «where» => exact compare_eq_ok
  | orWhere => exact compare_eq_ok
  | whereIn => exact member_eq_ok
  | whereNotIn => exact member_eq_ok
  | whereBetween => exact range_eq_ok
  | whereNotBetween => exact range_eq_ok
  | whereNull => exact single_eq_ok fun column => .clause ⟨.and, .isNull column false⟩
  | whereNotNull => exact single_eq_ok fun column => .clause ⟨.and, .isNull column true⟩
  | whereDate =>
      exact compared_eq_ok fun column operator v =>
        .clause ⟨.and, .datePart .date column operator v⟩
  | whereMonth =>
      exact compared_eq_ok fun column operator v =>
        .clause ⟨.and, .datePart .month column operator v⟩
  | whereYear =>
      exact compared_eq_ok fun column operator v =>
        .clause ⟨.and, .datePart .year column operator v⟩
  | whereTime =>
      exact compared_eq_ok fun column operator v =>
        .clause ⟨.and, .datePart .time column operator v⟩
  | whereColumn => exact columns_eq_ok
  | orderBy => exact sort_eq_ok
  | orderByDesc => exact single_eq_ok fun column => .order ⟨column, .descending⟩
  | latest => exact sortByTime_eq_ok
  | oldest => exact sortByTime_eq_ok
  | limit => exact counted_eq_ok .limit
  | take => exact counted_eq_ok .limit
  | offset => exact counted_eq_ok .offset
  | skip => exact counted_eq_ok .offset
  | select => exact named_eq_ok .select
  | addSelect => exact named_eq_ok .addSelect
  | distinct => exact setDistinct_eq_ok
  | groupBy => exact named_eq_ok .groups
  | having => exact compared_eq_ok fun column operator v => .having ⟨column, operator, v⟩

theorem States.part_eq {verb : BuilderVerb} {args : List Operand} {c : Contribution}
    (hstates : verb.States args c) : c.part = verb.part := by
  cases verb <;> cases hstates <;> rfl

end BuilderVerb

end Query

end OperatorConsole
