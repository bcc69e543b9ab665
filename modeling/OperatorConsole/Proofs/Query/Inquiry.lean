import OperatorConsole.Proofs.Action.Contract
import OperatorConsole.Query.Evaluation.Basic

/-!
# Inquiries

A terminal verb has three parts.  It checks its operands, it asks the source, and it draws its
conclusion from the answer.  An `Inquiry` is what is left of the verb once its operands have been
checked: the questions and the conclusion.

## Evaluation in parts

A chain is evaluated in the same three parts.  `Chain.prepare` carries out the calls up to the
first terminal verb and gives its inquiry, `Inquiry.carryOut` asks the source, and `Chain.finish`
applies the calls that are left to the result.  Only the second part has a source to ask.
-/

namespace OperatorConsole

namespace Query

open OperatorConsole.Action

/-! ## Questions -/

/-- What a source can be asked. -/
inductive Question where
  | select (plan : Plan)
  | iterate (plan : Plan)
  | aggregate (plan : Plan) (fn : AggregateFunction) (column : Option String)
  deriving DecidableEq, Repr

inductive Inquiry where
  | select (plan : Plan) (conclude : List Row -> Except Failure Value)
  | iterate (plan : Plan) (conclude : List Row -> Except Failure Value)
  | aggregate (plan : Plan) (fn : AggregateFunction) (column : Option String)
      (conclude : Option Number -> Except Failure Value)
  /-- How many rows there are, then the rows of one page. -/
  | page (counted sliced : Plan) (conclude : Option Number -> List Row -> Except Failure Value)

namespace Inquiry

/-- The questions of an inquiry, in the order in which they are asked. -/
def questions : Inquiry -> List Question
  | .select plan _ => [.select plan]
  | .iterate plan _ => [.iterate plan]
  | .aggregate plan fn column _ => [.aggregate plan fn column]
  | .page counted sliced _ => [.aggregate counted .count none, .select sliced]

def carryOut (source : EntitySource σ) : Inquiry -> Action σ Value
  | .select plan conclude => do
      let rows ← source.select plan
      settle (conclude rows)
  | .iterate plan conclude => do
      let rows ← source.iterate plan
      settle (conclude rows)
  | .aggregate plan fn column conclude => do
      let answer ← source.aggregate plan fn column
      settle (conclude answer)
  | .page counted sliced conclude => do
      let total ← source.aggregate counted .count none
      let rows ← source.select sliced
      settle (conclude total rows)

def first (plan : Plan) (conclude : Option Row -> Except Failure Value) : Inquiry :=
  .select (plan.withLimit 1) fun rows => conclude rows.head?

end Inquiry

/-! ## Inquiries of terminal verbs -/

namespace TerminalVerb

def askGet (verb : String) (plan : Plan) (args : List Operand) : Checked Inquiry := do
  let plan ← narrowed verb args plan
  return .select plan fun rows => .ok (rowsValue rows)

def askFirst (verb : String) (plan : Plan) (args : List Operand) : Checked Inquiry := do
  let plan ← narrowed verb args plan
  return .first plan fun row => .ok (rowOrNull row)

def found (required : Bool) (entity key : String) (id : Scalar) (row : Option Row) :
    Except Failure Value :=
  if row.isNone && required then
    .error (EvaluationFault.noRecordWith entity key id).toFailure
  else .ok (rowOrNull row)

def askFind (required : Bool) (verb entity key : String) (plan : Plan) (args : List Operand) :
    Checked Inquiry := do
  checkArity verb args 1 1
  let id ← scalarOf verb args[0]?
  return .first (plan.withKey key id) (found required entity key id)

def only : List Row -> Except Failure Value
  | [] => .error EvaluationFault.noRecords.toFailure
  | [row] => .ok row.toValue
  | _ => .error EvaluationFault.manyRecords.toFailure

def askSole (verb : String) (plan : Plan) (args : List Operand) : Checked Inquiry := do
  checkArity verb args 0 0
  return .select (plan.withLimit 2) only

def plucked (column : String) (rows : List Row) : Value :=
  .list (rows.map fun row => Row.at row column)

def askPluck (verb : String) (plan : Plan) (args : List Operand) : Checked Inquiry := do
  checkArity verb args 1 2
  let valueColumn ← columnOf verb args[0]?
  if args.length = 2 then
    let keyColumn ← columnOf verb args[1]?
    return .select (plan.withColumns [valueColumn, keyColumn]) fun rows =>
      (keyedRecord valueColumn keyColumn rows).map Record.toValue
  else
    return .select (plan.withColumns [valueColumn]) fun rows => .ok (plucked valueColumn rows)

def valueIn (column : String) : Option Row -> Value
  | some row => Row.at row column
  | none => .null

def askValue (verb : String) (plan : Plan) (args : List Operand) : Checked Inquiry := do
  checkArity verb args 1 1
  let column ← columnOf verb args[0]?
  return .first (plan.withColumns [column]) fun row => .ok (valueIn column row)

def numberOrZero (answer : Option Number) : Except Failure Value :=
  .ok (.number (answer.getD 0))

def askCount (verb : String) (plan : Plan) (args : List Operand) : Checked Inquiry := do
  let target ← countTarget verb args
  return .aggregate plan .count target numberOrZero

def askAggregate (fn : AggregateFunction) (verb : String) (plan : Plan) (args : List Operand) :
    Checked Inquiry := do
  checkArity verb args 1 1
  let column ← columnOf verb args[0]?
  return .aggregate plan fn (some column) fun answer => .ok (numberOrNull answer)

def askSum (verb : String) (plan : Plan) (args : List Operand) : Checked Inquiry := do
  checkArity verb args 1 1
  let column ← columnOf verb args[0]?
  return .aggregate plan .sum (some column) numberOrZero

def askExists (wanted : Bool) (verb : String) (plan : Plan) (args : List Operand) :
    Checked Inquiry := do
  checkArity verb args 0 0
  return .aggregate plan .count none fun answer =>
    .ok (.bool (Number.lt 0 (answer.getD 0) == wanted))

def pageValue (perPage page : Number) (total : Option Number) (rows : List Row) : Value :=
  .ofFields [("data", rowsValue rows), ("total", .number (total.getD 0)),
    ("perPage", .number perPage), ("currentPage", .number page),
    ("lastPage", .number (Number.max 1 ((total.getD 0).div perPage).ceil))]

def askPaginate (verb : String) (plan : Plan) (args : List Operand) : Checked Inquiry := do
  let (perPage, page) ← pageOf verb args
  return .page plan.unpaged (plan.slice perPage (pageOffset perPage page)) fun total rows =>
    .ok (pageValue perPage page total rows)

def simplePageValue (perPage page : Number) (rows : List Row) : Value :=
  .ofFields [("data", rowsValue (rows.take (toCount perPage))),
    ("perPage", .number perPage), ("currentPage", .number page),
    ("hasMorePages", .bool (decide (toCount perPage < rows.length)))]

def askSimplePaginate (verb : String) (plan : Plan) (args : List Operand) : Checked Inquiry := do
  let (perPage, page) ← pageOf verb args
  return .select (plan.slice (perPage.add 1) (pageOffset perPage page)) fun rows =>
    .ok (simplePageValue perPage page rows)

def askLazy (verb : String) (plan : Plan) (args : List Operand) : Checked Inquiry := do
  checkArity verb args 0 0
  return .iterate plan fun rows => .ok (rowsValue rows)

/-- The inquiry that a verb makes about an entity with the given name and key. -/
def inquiry (verb : TerminalVerb) (entity key : String) : Plan -> List Operand -> Checked Inquiry :=
  match verb with
  | .get => askGet verb.text
  | .first => askFirst verb.text
  | .find => askFind false verb.text entity key
  | .findOrFail => askFind true verb.text entity key
  | .sole => askSole verb.text
  | .pluck => askPluck verb.text
  | .value => askValue verb.text
  | .count => askCount verb.text
  | .min => askAggregate .min verb.text
  | .max => askAggregate .max verb.text
  | .avg => askAggregate .avg verb.text
  | .sum => askSum verb.text
  | .exists => askExists true verb.text
  | .doesntExist => askExists false verb.text
  | .paginate => askPaginate verb.text
  | .simplePaginate => askSimplePaginate verb.text
  | .lazy => askLazy verb.text

/-! ### Asking -/

theorem run_pure (x : α) : ((pure x : Checked α).run : Action σ α) = pure x := rfl

theorem run_bind (checked : Checked β) (step : β -> Checked α) :
    ((checked >>= step).run : Action σ α) = (do
      let x ← checked.run
      (step x).run) := by
  cases checked with
  | ok x => rfl
  | error fault => rfl

section Asking

variable (source : EntitySource σ) (verb : String) (plan : Plan) (args : List Operand)

theorem runGet_eq : runGet verb source plan args = (do
    let inquiry ← (askGet verb plan args).run
    inquiry.carryOut source) := by
  simp only [askGet, run_bind, run_pure, bind_assoc, pure_bind]
  rfl

theorem runFirst_eq : runFirst verb source plan args = (do
    let inquiry ← (askFirst verb plan args).run
    inquiry.carryOut source) := by
  simp only [askFirst, run_bind, run_pure, bind_assoc, pure_bind, runFirst, EntitySource.first]
  rfl

theorem runFind_eq (required : Bool) : runFind required verb source plan args = (do
    let inquiry ← (askFind required verb source.name source.primaryKey plan args).run
    inquiry.carryOut source) := by
  simp only [askFind, run_bind, run_pure, bind_assoc, pure_bind, runFind, EntitySource.first]
  refine bind_congr fun _ => bind_congr fun id => bind_congr fun rows => ?_
  dsimp only [found]
  split
  · rfl
  · rfl

theorem runSole_eq : runSole verb source plan args = (do
    let inquiry ← (askSole verb plan args).run
    inquiry.carryOut source) := by
  simp only [askSole, run_bind, run_pure, bind_assoc, pure_bind, runSole]
  refine bind_congr fun _ => bind_congr fun rows => ?_
  cases rows with
  | nil => rfl
  | cons row rest =>
      cases rest with
      | nil => rfl
      | cons other rest => rfl

theorem runPluck_eq : runPluck verb source plan args = (do
    let inquiry ← (askPluck verb plan args).run
    inquiry.carryOut source) := by
  simp only [askPluck, run_bind, bind_assoc, runPluck]
  refine bind_congr fun _ => bind_congr fun valueColumn => ?_
  split
  · simp only [run_bind, run_pure, bind_assoc, pure_bind]
    refine bind_congr fun keyColumn => bind_congr fun rows => ?_
    dsimp only
    cases keyedRecord valueColumn keyColumn rows with
    | ok record => rfl
    | error failure => rfl
  · rfl

theorem runValue_eq : runValue verb source plan args = (do
    let inquiry ← (askValue verb plan args).run
    inquiry.carryOut source) := by
  simp only [askValue, run_bind, run_pure, bind_assoc, pure_bind, runValue, EntitySource.first]
  refine bind_congr fun _ => bind_congr fun column => bind_congr fun rows => ?_
  cases rows with
  | nil => rfl
  | cons row rest => rfl

theorem runCount_eq : runCount verb source plan args = (do
    let inquiry ← (askCount verb plan args).run
    inquiry.carryOut source) := by
  simp only [askCount, run_bind, run_pure, bind_assoc, pure_bind, runCount,
    EntitySource.aggregateOrZero]
  rfl

theorem runAggregate_eq (fn : AggregateFunction) : runAggregate fn verb source plan args = (do
    let inquiry ← (askAggregate fn verb plan args).run
    inquiry.carryOut source) := by
  simp only [askAggregate, run_bind, run_pure, bind_assoc, pure_bind, runAggregate]
  rfl

theorem runSum_eq : runSum verb source plan args = (do
    let inquiry ← (askSum verb plan args).run
    inquiry.carryOut source) := by
  simp only [askSum, run_bind, run_pure, bind_assoc, pure_bind, runSum,
    EntitySource.aggregateOrZero]
  rfl

theorem runExists_eq (wanted : Bool) : runExists wanted verb source plan args = (do
    let inquiry ← (askExists wanted verb plan args).run
    inquiry.carryOut source) := by
  simp only [askExists, run_bind, run_pure, bind_assoc, pure_bind, runExists,
    EntitySource.aggregateOrZero]
  rfl

theorem runPaginate_eq : runPaginate verb source plan args = (do
    let inquiry ← (askPaginate verb plan args).run
    inquiry.carryOut source) := by
  simp only [askPaginate, run_bind, run_pure, bind_assoc, pure_bind, runPaginate,
    EntitySource.aggregateOrZero]
  rfl

theorem runSimplePaginate_eq : runSimplePaginate verb source plan args = (do
    let inquiry ← (askSimplePaginate verb plan args).run
    inquiry.carryOut source) := by
  simp only [askSimplePaginate, run_bind, run_pure, bind_assoc, pure_bind, runSimplePaginate]
  rfl

theorem runLazy_eq : runLazy verb source plan args = (do
    let inquiry ← (askLazy verb plan args).run
    inquiry.carryOut source) := by
  simp only [askLazy, run_bind, run_pure, bind_assoc, pure_bind, runLazy]
  rfl

/-- A terminal verb asks what its inquiry asks, and nothing if its operands are refused. -/
theorem run_eq (verb : TerminalVerb) (plan : Plan) (args : List Operand) :
    verb.run source plan args = (do
      let inquiry ← (verb.inquiry source.name source.primaryKey plan args).run
      inquiry.carryOut source) := by
  cases verb with
  | get => exact runGet_eq source _ plan args
  | first => exact runFirst_eq source _ plan args
  | find => exact runFind_eq source _ plan args _
  | findOrFail => exact runFind_eq source _ plan args _
  | sole => exact runSole_eq source _ plan args
  | pluck => exact runPluck_eq source _ plan args
  | value => exact runValue_eq source _ plan args
  | count => exact runCount_eq source _ plan args
  | min => exact runAggregate_eq source _ plan args _
  | max => exact runAggregate_eq source _ plan args _
  | avg => exact runAggregate_eq source _ plan args _
  | sum => exact runSum_eq source _ plan args
  | «exists» => exact runExists_eq source _ plan args _
  | doesntExist => exact runExists_eq source _ plan args _
  | paginate => exact runPaginate_eq source _ plan args
  | simplePaginate => exact runSimplePaginate_eq source _ plan args
  | lazy => exact runLazy_eq source _ plan args

end Asking

/-! ### Number of questions -/

section Questions

variable (verb : String) (plan : Plan) (args : List Operand)

/-- How many questions a verb asks: two for a numbered page, and one for everything else. -/
def Asks (verb : TerminalVerb) (inquiry : Inquiry) : Prop :=
  if verb = .paginate then
    exists counted sliced, inquiry.questions = [.aggregate counted .count none, .select sliced]
  else exists question, inquiry.questions = [question]

def AsksOnce (inquiry : Inquiry) : Prop :=
  exists question, inquiry.questions = [question]

theorem askGet_once : Yields AsksOnce (askGet verb plan args) :=
  Yields.behind fun _ => Yields.ok ⟨_, rfl⟩

theorem askFirst_once : Yields AsksOnce (askFirst verb plan args) :=
  Yields.behind fun _ => Yields.ok ⟨_, rfl⟩

theorem askFind_once (required : Bool) (entity key : String) :
    Yields AsksOnce (askFind required verb entity key plan args) :=
  Yields.behind fun _ => Yields.behind fun _ => Yields.ok ⟨_, rfl⟩

theorem askSole_once : Yields AsksOnce (askSole verb plan args) :=
  Yields.behind fun _ => Yields.ok ⟨_, rfl⟩

theorem askPluck_once : Yields AsksOnce (askPluck verb plan args) := by
  refine Yields.behind fun _ => Yields.behind fun valueColumn => ?_
  split
  · exact Yields.behind fun _ => Yields.ok ⟨_, rfl⟩
  · exact Yields.ok ⟨_, rfl⟩

theorem askValue_once : Yields AsksOnce (askValue verb plan args) :=
  Yields.behind fun _ => Yields.behind fun _ => Yields.ok ⟨_, rfl⟩

theorem askCount_once : Yields AsksOnce (askCount verb plan args) :=
  Yields.behind fun _ => Yields.ok ⟨_, rfl⟩

theorem askAggregate_once (fn : AggregateFunction) :
    Yields AsksOnce (askAggregate fn verb plan args) :=
  Yields.behind fun _ => Yields.behind fun _ => Yields.ok ⟨_, rfl⟩

theorem askSum_once : Yields AsksOnce (askSum verb plan args) :=
  Yields.behind fun _ => Yields.behind fun _ => Yields.ok ⟨_, rfl⟩

theorem askExists_once (wanted : Bool) : Yields AsksOnce (askExists wanted verb plan args) :=
  Yields.behind fun _ => Yields.ok ⟨_, rfl⟩

theorem askPaginate_twice : Yields (Asks .paginate) (askPaginate verb plan args) :=
  Yields.behind fun _ => Yields.ok ⟨_, _, rfl⟩

theorem askSimplePaginate_once : Yields AsksOnce (askSimplePaginate verb plan args) :=
  Yields.behind fun _ => Yields.ok ⟨_, rfl⟩

theorem askLazy_once : Yields AsksOnce (askLazy verb plan args) :=
  Yields.behind fun _ => Yields.ok ⟨_, rfl⟩

theorem inquiry_asks (verb : TerminalVerb) (entity key : String) (plan : Plan)
    (args : List Operand) : Yields verb.Asks (verb.inquiry entity key plan args) := by
  cases verb with
  | get => exact askGet_once _ plan args
  | first => exact askFirst_once _ plan args
  | find => exact askFind_once _ plan args _ _ _
  | findOrFail => exact askFind_once _ plan args _ _ _
  | sole => exact askSole_once _ plan args
  | pluck => exact askPluck_once _ plan args
  | value => exact askValue_once _ plan args
  | count => exact askCount_once _ plan args
  | min => exact askAggregate_once _ plan args _
  | max => exact askAggregate_once _ plan args _
  | avg => exact askAggregate_once _ plan args _
  | sum => exact askSum_once _ plan args
  | «exists» => exact askExists_once _ plan args _
  | doesntExist => exact askExists_once _ plan args _
  | paginate => exact askPaginate_twice _ plan args
  | simplePaginate => exact askSimplePaginate_once _ plan args
  | lazy => exact askLazy_once _ plan args

end Questions

end TerminalVerb

/-! ## Chains in parts -/

namespace Chain

/-- What a call makes of a plan that has not been run yet. -/
inductive Preparation where
  | building (plan : Plan)
  | asking (inquiry : Inquiry)

def prepareStep (entity key : String) (clock : Action σ Number) (plan : Plan) (call : Call) :
    Action σ Preparation :=
  match canonicalVerb? call.verb with
  | none => throw (EvaluationFault.unknownMethod call.verb).toFailure
  | some canonical => do
      let args ← Argument.resolveAll clock call.args
      match BuilderVerb.ofName? call.verb, TerminalVerb.ofName? call.verb with
      | some b, _ => do
          let plan ← (b.apply args plan).run
          return .building plan
      | none, some t => do
          let inquiry ← (t.inquiry entity key plan args).run
          return .asking inquiry
      | none, none => throw (EvaluationFault.needsResult canonical).toFailure

/-- Carries out the calls up to the first terminal verb: the inquiry of that verb, and the calls
behind it. -/
def prepare (entity key : String) (clock : Action σ Number) :
    Plan -> Chain -> Action σ (Inquiry × Chain)
  | _, [] => throw EvaluationFault.neverRuns.toFailure
  | plan, call :: rest => do
      match ← prepareStep entity key clock plan call with
      | .building plan => prepare entity key clock plan rest
      | .asking inquiry => return (inquiry, rest)

/-- Applies one call to a result. -/
def finishStep (clock : Action σ Number) (result : Value) (call : Call) : Action σ Value :=
  match canonicalVerb? call.verb with
  | none => throw (EvaluationFault.unknownMethod call.verb).toFailure
  | some canonical => do
      let args ← Argument.resolveAll clock call.args
      match ResultVerb.ofName? call.verb with
      | some r => settle (r.apply args result)
      | none => throw (EvaluationFault.notOnResult canonical).toFailure

def finish (clock : Action σ Number) (calls : Chain) (result : Value) : Action σ Value :=
  calls.foldlM (finishStep clock) result

theorem finish_cons (clock : Action σ Number) (call : Call) (calls : Chain) (result : Value) :
    Chain.finish clock (call :: calls) result =
      finishStep clock result call >>= Chain.finish clock calls :=
  List.foldlM_cons

theorem step_finished (source : EntitySource σ) (clock : Action σ Number) (result : Value)
    (call : Call) :
    step source clock (.finished result) call = (do
      let next ← finishStep clock result call
      return .finished next) := by
  unfold step finishStep
  cases canonicalVerb? call.verb with
  | none => rfl
  | some canonical =>
      simp only [bind_assoc]
      refine bind_congr fun args => ?_
      unfold applyFinished
      cases ResultVerb.ofName? call.verb with
      | none => rfl
      | some r =>
          dsimp only
          cases r.apply args result with
          | ok next => rfl
          | error failure => rfl

def conclude : Progress -> Action σ Value
  | .finished result => pure result
  | .building _ => throw EvaluationFault.neverRuns.toFailure

theorem evaluate_finished (source : EntitySource σ) (clock : Action σ Number) (calls : Chain)
    (result : Value) :
    (calls.foldlM (step source clock) (.finished result) >>= conclude) =
      calls.finish clock result := by
  unfold finish
  induction calls generalizing result with
  | nil => rfl
  | cons call rest ih =>
      rw [List.foldlM_cons, List.foldlM_cons, step_finished]
      simp only [bind_assoc, pure_bind]
      refine bind_congr fun next => ?_
      exact ih next

theorem step_building (source : EntitySource σ) (clock : Action σ Number) (plan : Plan)
    (call : Call) :
    step source clock (.building plan) call = (do
      match ← prepareStep source.name source.primaryKey clock plan call with
      | .building plan => return .building plan
      | .asking inquiry => do
          let result ← inquiry.carryOut source
          return .finished result) := by
  unfold step prepareStep
  cases canonicalVerb? call.verb with
  | none => rfl
  | some canonical =>
      simp only [bind_assoc]
      refine bind_congr fun args => ?_
      unfold applyBuilding
      cases BuilderVerb.ofName? call.verb with
      | some b => simp only [bind_assoc, pure_bind]
      | none =>
          cases TerminalVerb.ofName? call.verb with
          | none => rfl
          | some t => simp only [TerminalVerb.run_eq, bind_assoc, pure_bind]

theorem evaluate_building (source : EntitySource σ) (clock : Action σ Number) (calls : Chain)
    (plan : Plan) :
    (calls.foldlM (step source clock) (.building plan) >>= conclude) = (do
      let prepared ← calls.prepare source.name source.primaryKey clock plan
      let result ← prepared.1.carryOut source
      prepared.2.finish clock result) := by
  induction calls generalizing plan with
  | nil => rfl
  | cons call rest ih =>
      rw [List.foldlM_cons, prepare, step_building]
      simp only [bind_assoc]
      refine bind_congr fun preparation => ?_
      cases preparation with
      | building plan => exact ih plan
      | asking inquiry =>
          simp only [bind_assoc, pure_bind]
          refine bind_congr fun result => ?_
          exact evaluate_finished source clock rest result

/-- The three parts of an evaluation. The source is at hand in the second one only. -/
theorem evaluate_eq (source : EntitySource σ) (clock : Action σ Number) (chain : Chain) :
    chain.evaluate source clock = (do
      let prepared ← chain.prepare source.name source.primaryKey clock .empty
      let result ← prepared.1.carryOut source
      prepared.2.finish clock result) := by
  rw [← evaluate_building]
  unfold evaluate
  refine bind_congr fun progress => ?_
  cases progress with
  | building plan => rfl
  | finished result => rfl

end Chain

end Query

end OperatorConsole
