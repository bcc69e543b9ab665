import OperatorConsole.Proofs.Query.Evaluation
import OperatorConsole.Proofs.Query.Inquiry

/-!
# Faults of verbs

Whatever a verb finds wrong with its operands it reports under its own name.  An unknown method
is the one fault that no verb reports: it is found before there is a verb.  The texts of faults
keep the two apart, as they begin with the name that they are about and no verb begins like the
word "unknown".
-/

namespace OperatorConsole

namespace Query

open OperatorConsole.Action Value

namespace EvaluationFault

/-- The verb that a fault is about, in its canonical spelling. -/
def about? : EvaluationFault -> Option String
  | .unknownMethod _ => none
  | .needsResult verb => some verb
  | .notOnResult verb => some verb
  | .neverRuns => none
  | .arity verb _ _ _ => some verb
  | .expectsValue verb => some verb
  | .expectsColumn verb => some verb
  | .expectsColumns verb => some verb
  | .expectsList verb => some verb
  | .expectsRange verb => some verb
  | .expectsCount verb => some verb
  | .expectsPositive verb => some verb
  | .expectsDirection verb => some verb
  | .unsupportedOperator verb _ => some verb
  | .nullComparison verb _ => some verb
  | .noRecordWith _ _ _ => none
  | .noRecords => none
  | .manyRecords => none
  | .needsList verb => some verb

end EvaluationFault

/-- Whether a check finds nothing wrong but with the given verb. -/
def Blames (verb : String) (checked : Checked α) : Prop :=
  forall fault, checked = .error fault -> fault.about? = some verb

variable {verb : String}

theorem Blames.ok (x : α) : Blames verb (.ok x : Checked α) := by
  intro fault hfault
  cases hfault

theorem Blames.error {fault : EvaluationFault} (hfault : fault.about? = some verb) :
    Blames verb (.error fault : Checked α) := by
  intro fault' hfault'
  cases hfault'
  exact hfault

theorem Blames.bind {checked : Checked β} {step : β -> Checked α} (hchecked : Blames verb checked)
    (hstep : forall x, Blames verb (step x)) : Blames verb (checked >>= step) := by
  cases checked with
  | ok x => exact hstep x
  | error fault => exact Blames.error (hchecked fault rfl)

theorem Blames.mapM {f : α -> Checked β} (hf : forall item, Blames verb (f item))
    (items : List α) : Blames verb (items.mapM f) := by
  induction items with
  | nil => exact Blames.ok []
  | cons item rest ih =>
      rw [List.mapM_cons]
      exact (hf item).bind fun _ => ih.bind fun _ => Blames.ok _

/-! ## Checks -/

theorem blames_checkArity (args : List Operand) (least most : Nat) :
    Blames verb (checkArity verb args least most) := by
  unfold checkArity
  split
  · exact Blames.error rfl
  · exact Blames.ok ()

theorem blames_scalarOf (arg : Option Operand) : Blames verb (scalarOf verb arg) := by
  unfold scalarOf
  split
  · exact Blames.ok _
  · exact Blames.error rfl

theorem blames_columnOf (arg : Option Operand) : Blames verb (columnOf verb arg) := by
  unfold columnOf
  split
  · split
    · exact Blames.ok _
    · exact Blames.error rfl
  · exact Blames.error rfl

theorem blames_columnsOf (args : List Operand) : Blames verb (columnsOf verb args) := by
  have hflat : forall flat : List Operand, Blames verb
      (if flat.isEmpty then .error (.expectsColumns verb)
      else flat.mapM fun arg => columnOf verb (some arg)) := by
    intro flat
    split
    · exact Blames.error rfl
    · exact Blames.mapM (fun arg => blames_columnOf (some arg)) flat
  exact hflat _

theorem blames_scalarsOf (arg : Option Operand) : Blames verb (scalarsOf verb arg) := by
  unfold scalarsOf
  split
  · exact Blames.mapM (fun item => blames_scalarOf (some item)) _
  · exact Blames.error rfl

theorem blames_countOf (arg : Option Operand) : Blames verb (countOf verb arg) := by
  unfold countOf
  split
  · split
    · exact Blames.ok _
    · exact Blames.error rfl
  · exact Blames.error rfl
  · rename_i fault hfault
    exact Blames.error (blames_scalarOf arg fault hfault)

theorem blames_positiveOf (arg : Option Operand) : Blames verb (positiveOf verb arg) := by
  unfold positiveOf
  split
  · split
    · exact Blames.error rfl
    · exact Blames.ok _
  · rename_i fault hfault
    exact Blames.error (blames_countOf arg fault hfault)

theorem blames_operatorOf (operator : Scalar) : Blames verb (operatorOf verb operator) := by
  unfold operatorOf
  dsimp only
  split
  · exact Blames.ok _
  · exact Blames.error rfl

theorem blames_comparisonOf (args : List Operand) : Blames verb (comparisonOf verb args) := by
  refine (blames_checkArity args 2 3).bind fun _ => (blames_columnOf _).bind fun column => ?_
  split
  · exact (blames_scalarOf _).bind fun _ => Blames.ok _
  · refine (blames_scalarOf _).bind fun written => (blames_operatorOf written).bind fun _ => ?_
    exact (blames_scalarOf _).bind fun _ => Blames.ok _

/-! ## Builder verbs -/

theorem blames_comparisonCondition (column : String) (operator : Comparison) (value : Scalar) :
    Blames verb (comparisonCondition verb column operator value) := by
  unfold comparisonCondition
  split
  · exact Blames.ok _
  · exact Blames.ok _
  · exact Blames.ok _
  · exact Blames.error rfl
  · exact Blames.ok _

theorem blames_directionOf (written : Scalar) : Blames verb (directionOf verb written) := by
  unfold directionOf
  split
  · dsimp only
    split
    · exact Blames.ok _
    · split
      · exact Blames.ok _
      · exact Blames.error rfl
  · exact Blames.error rfl

namespace BuilderVerb

variable (args : List Operand) (plan : Plan)

theorem compare_blames (joint : Conjunction) : Blames verb (compare joint verb args plan) :=
  (blames_comparisonOf args).bind fun _ =>
    (blames_comparisonCondition _ _ _).bind fun _ => Blames.ok _

theorem member_blames (negated : Bool) : Blames verb (member negated verb args plan) :=
  (blames_checkArity args 2 2).bind fun _ => (blames_columnOf _).bind fun _ =>
    (blames_scalarsOf _).bind fun _ => Blames.ok _

theorem range_blames (negated : Bool) : Blames verb (range negated verb args plan) := by
  refine (blames_checkArity args 2 2).bind fun _ => (blames_scalarsOf _).bind fun bounds => ?_
  split
  · exact (blames_columnOf _).bind fun _ => Blames.ok _
  · exact Blames.error rfl

theorem null_blames (negated : Bool) : Blames verb (null negated verb args plan) :=
  (blames_checkArity args 1 1).bind fun _ => (blames_columnOf _).bind fun _ => Blames.ok _

theorem datePart_blames (part : DatePart) : Blames verb (datePart part verb args plan) :=
  (blames_comparisonOf args).bind fun _ => Blames.ok _

theorem columns_blames : Blames verb (columns verb args plan) :=
  (blames_comparisonOf args).bind fun _ => (blames_columnOf _).bind fun _ => Blames.ok _

theorem sort_blames : Blames verb (sort verb args plan) := by
  refine (blames_checkArity args 1 2).bind fun _ => ?_
  have hsorted : forall written : Scalar, Blames verb (do
      let direction ← directionOf verb written
      let column ← columnOf verb args[0]?
      pure (plan.addOrder column direction)) :=
    fun written => (blames_directionOf written).bind fun _ =>
      (blames_columnOf _).bind fun _ => Blames.ok _
  dsimp only
  split
  · exact (blames_scalarOf _).bind hsorted
  · exact (Blames.ok _).bind hsorted

theorem sortDescending_blames : Blames verb (sortDescending verb args plan) :=
  (blames_checkArity args 1 1).bind fun _ => (blames_columnOf _).bind fun _ => Blames.ok _

theorem sortByTime_blames (direction : Direction) :
    Blames verb (sortByTime direction verb args plan) := by
  refine (blames_checkArity args 0 1).bind fun _ => ?_
  dsimp only
  split
  · exact (blames_columnOf _).bind fun _ => Blames.ok _
  · exact Blames.ok _

theorem setLimit_blames : Blames verb (setLimit verb args plan) :=
  (blames_checkArity args 1 1).bind fun _ => (blames_countOf _).bind fun _ => Blames.ok _

theorem setOffset_blames : Blames verb (setOffset verb args plan) :=
  (blames_checkArity args 1 1).bind fun _ => (blames_countOf _).bind fun _ => Blames.ok _

theorem setColumns_blames : Blames verb (setColumns verb args plan) :=
  (blames_columnsOf args).bind fun _ => Blames.ok _

theorem addColumns_blames : Blames verb (addColumns verb args plan) :=
  (blames_columnsOf args).bind fun _ => Blames.ok _

theorem setDistinct_blames : Blames verb (setDistinct verb args plan) :=
  (blames_checkArity args 0 0).bind fun _ => Blames.ok _

theorem addGroups_blames : Blames verb (addGroups verb args plan) :=
  (blames_columnsOf args).bind fun _ => Blames.ok _

theorem addHaving_blames : Blames verb (addHaving verb args plan) :=
  (blames_comparisonOf args).bind fun _ => Blames.ok _

theorem apply_blames (verb : BuilderVerb) : Blames verb.text (verb.apply args plan) := by
  cases verb with
  | «where» => exact compare_blames args plan _
  | orWhere => exact compare_blames args plan _
  | whereIn => exact member_blames args plan _
  | whereNotIn => exact member_blames args plan _
  | whereBetween => exact range_blames args plan _
  | whereNotBetween => exact range_blames args plan _
  | whereNull => exact null_blames args plan _
  | whereNotNull => exact null_blames args plan _
  | whereDate => exact datePart_blames args plan _
  | whereMonth => exact datePart_blames args plan _
  | whereYear => exact datePart_blames args plan _
  | whereTime => exact datePart_blames args plan _
  | whereColumn => exact columns_blames args plan
  | orderBy => exact sort_blames args plan
  | orderByDesc => exact sortDescending_blames args plan
  | latest => exact sortByTime_blames args plan _
  | oldest => exact sortByTime_blames args plan _
  | limit => exact setLimit_blames args plan
  | take => exact setLimit_blames args plan
  | offset => exact setOffset_blames args plan
  | skip => exact setOffset_blames args plan
  | select => exact setColumns_blames args plan
  | addSelect => exact addColumns_blames args plan
  | distinct => exact setDistinct_blames args plan
  | groupBy => exact addGroups_blames args plan
  | having => exact addHaving_blames args plan

end BuilderVerb

/-! ## Terminal verbs -/

theorem blames_narrowed (args : List Operand) (plan : Plan) :
    Blames verb (narrowed verb args plan) := by
  unfold narrowed
  split
  · exact Blames.ok _
  · exact (blames_columnsOf args).bind fun _ => Blames.ok _

theorem blames_countTarget (args : List Operand) :
    Blames verb (TerminalVerb.countTarget verb args) := by
  refine (blames_checkArity args 0 1).bind fun _ => ?_
  split
  · exact Blames.ok _
  · split
    · exact Blames.ok _
    · exact (blames_columnOf _).bind fun _ => Blames.ok _

theorem blames_pageOf (args : List Operand) : Blames verb (pageOf verb args) := by
  refine (blames_checkArity args 0 2).bind fun _ => ?_
  have hpage : forall perPage : Number, Blames verb (do
      let page ← if 1 < args.length then positiveOf verb args[1]? else pure 1
      pure (perPage, page)) := by
    intro perPage
    dsimp only
    split
    · exact (blames_positiveOf _).bind fun _ => Blames.ok _
    · exact Blames.ok _
  dsimp only
  split
  · exact (blames_positiveOf _).bind hpage
  · exact hpage _

namespace TerminalVerb

variable (plan : Plan) (args : List Operand)

theorem askGet_blames : Blames verb (askGet verb plan args) :=
  (blames_narrowed args plan).bind fun _ => Blames.ok _

theorem askFirst_blames : Blames verb (askFirst verb plan args) :=
  (blames_narrowed args plan).bind fun _ => Blames.ok _

theorem askFind_blames (required : Bool) (entity key : String) :
    Blames verb (askFind required verb entity key plan args) :=
  (blames_checkArity args 1 1).bind fun _ => (blames_scalarOf _).bind fun _ => Blames.ok _

theorem askSole_blames : Blames verb (askSole verb plan args) :=
  (blames_checkArity args 0 0).bind fun _ => Blames.ok _

theorem askPluck_blames : Blames verb (askPluck verb plan args) := by
  refine (blames_checkArity args 1 2).bind fun _ => (blames_columnOf _).bind fun _ => ?_
  split
  · exact (blames_columnOf _).bind fun _ => Blames.ok _
  · exact Blames.ok _

theorem askValue_blames : Blames verb (askValue verb plan args) :=
  (blames_checkArity args 1 1).bind fun _ => (blames_columnOf _).bind fun _ => Blames.ok _

theorem askCount_blames : Blames verb (askCount verb plan args) :=
  (blames_countTarget args).bind fun _ => Blames.ok _

theorem askAggregate_blames (fn : AggregateFunction) :
    Blames verb (askAggregate fn verb plan args) :=
  (blames_checkArity args 1 1).bind fun _ => (blames_columnOf _).bind fun _ => Blames.ok _

theorem askSum_blames : Blames verb (askSum verb plan args) :=
  (blames_checkArity args 1 1).bind fun _ => (blames_columnOf _).bind fun _ => Blames.ok _

theorem askExists_blames (wanted : Bool) : Blames verb (askExists wanted verb plan args) :=
  (blames_checkArity args 0 0).bind fun _ => Blames.ok _

theorem askPaginate_blames : Blames verb (askPaginate verb plan args) :=
  (blames_pageOf args).bind fun _ => Blames.ok _

theorem askSimplePaginate_blames : Blames verb (askSimplePaginate verb plan args) :=
  (blames_pageOf args).bind fun _ => Blames.ok _

theorem askLazy_blames : Blames verb (askLazy verb plan args) :=
  (blames_checkArity args 0 0).bind fun _ => Blames.ok _

theorem inquiry_blames (verb : TerminalVerb) (entity key : String) :
    Blames verb.text (verb.inquiry entity key plan args) := by
  cases verb with
  | get => exact askGet_blames plan args
  | first => exact askFirst_blames plan args
  | find => exact askFind_blames plan args _ _ _
  | findOrFail => exact askFind_blames plan args _ _ _
  | sole => exact askSole_blames plan args
  | pluck => exact askPluck_blames plan args
  | value => exact askValue_blames plan args
  | count => exact askCount_blames plan args
  | min => exact askAggregate_blames plan args _
  | max => exact askAggregate_blames plan args _
  | avg => exact askAggregate_blames plan args _
  | sum => exact askSum_blames plan args
  | «exists» => exact askExists_blames plan args _
  | doesntExist => exact askExists_blames plan args _
  | paginate => exact askPaginate_blames plan args
  | simplePaginate => exact askSimplePaginate_blames plan args
  | lazy => exact askLazy_blames plan args

end TerminalVerb

/-! ## Result verbs -/

theorem blames_itemsOf (v : Value) : Blames verb (itemsOf verb v) := by
  unfold itemsOf
  split
  · exact Blames.ok _
  · exact Blames.error rfl

namespace ResultVerb

variable (args : List Operand) (v : Value)

theorem countItems_blames : Blames verb (countItems verb args v) := by
  refine (blames_checkArity args 0 0).bind fun _ => ?_
  split
  · exact Blames.ok _
  · exact Blames.ok _
  · exact Blames.ok _
  · exact Blames.error rfl

theorem firstItem_blames : Blames verb (firstItem verb args v) :=
  (blames_checkArity args 0 0).bind fun _ => (blames_itemsOf v).bind fun _ => Blames.ok _

theorem takeItems_blames : Blames verb (takeItems verb args v) :=
  (blames_checkArity args 1 1).bind fun _ => (blames_itemsOf v).bind fun _ =>
    (blames_countOf _).bind fun _ => Blames.ok _

theorem skipItems_blames : Blames verb (skipItems verb args v) :=
  (blames_checkArity args 1 1).bind fun _ => (blames_itemsOf v).bind fun _ =>
    (blames_countOf _).bind fun _ => Blames.ok _

theorem pluckItems_blames : Blames verb (pluckItems verb args v) :=
  (blames_checkArity args 1 1).bind fun _ => (blames_columnOf _).bind fun _ =>
    (blames_itemsOf v).bind fun _ => Blames.ok _

theorem reduceItems_blames (reduce : List Number -> Option Number) :
    Blames verb (reduceItems reduce verb args v) := by
  refine (blames_checkArity args 0 1).bind fun _ => ?_
  have hreduced : forall column : Option String, Blames verb (do
      let items ← itemsOf verb v
      pure (numberOrNull (reduce (numbersIn column items)))) :=
    fun column => (blames_itemsOf v).bind fun _ => Blames.ok _
  dsimp only
  split
  · exact Blames.bind (Blames.bind (blames_columnOf _) fun _ => Blames.ok _) hreduced
  · exact hreduced _

/-- How a result verb can fail: with a fault about itself, or because the document that it was
to write cannot be written. -/
inductive Fails (verb : ResultVerb) (v : Value) : Failure -> Prop where
  | fault {fault : EvaluationFault} (habout : fault.about? = some verb.text) : Fails verb v fault.toFailure
  | document {failure} (hverb : verb = .toJson) (hdocument : jsonOf v = .error failure) :
      Fails verb v failure

theorem fails_checked {verb : ResultVerb} {v : Value} {checked : Checked Value}
    (hblames : Blames verb.text checked) {failure : Failure}
    (hfailed : checked.mapError EvaluationFault.toFailure = .error failure) :
    verb.Fails v failure := by
  cases checked with
  | ok x => cases hfailed
  | error fault =>
      cases hfailed
      exact .fault (hblames fault rfl)

theorem fails_of_apply (verb : ResultVerb) (args : List Operand) (v : Value) {failure : Failure}
    (hfailed : verb.apply args v = .error failure) : verb.Fails v failure := by
  cases verb with
  | toArray =>
      have hblames : Blames (text .toArray) ((checkArity (text .toArray) args 0 0).map fun _ => v) :=
        (blames_checkArity args 0 0).bind fun _ => Blames.ok v
      exact fails_checked hblames hfailed
  | toJson =>
      unfold apply at hfailed
      dsimp only at hfailed
      split at hfailed
      · exact .document rfl hfailed
      · rename_i fault hfault
        cases hfailed
        exact .fault (blames_checkArity args 0 0 fault hfault)
  | count => exact fails_checked (countItems_blames args v) hfailed
  | first => exact fails_checked (firstItem_blames args v) hfailed
  | take => exact fails_checked (takeItems_blames args v) hfailed
  | skip => exact fails_checked (skipItems_blames args v) hfailed
  | pluck => exact fails_checked (pluckItems_blames args v) hfailed
  | sum => exact fails_checked (reduceItems_blames args v _) hfailed
  | avg => exact fails_checked (reduceItems_blames args v _) hfailed
  | min => exact fails_checked (reduceItems_blames args v _) hfailed
  | max => exact fails_checked (reduceItems_blames args v _) hfailed

end ResultVerb

end Query

end OperatorConsole
