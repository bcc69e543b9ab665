import OperatorConsole.Proofs.Action.Contract
import OperatorConsole.Proofs.Value.Inexact
import OperatorConsole.Query.Evaluation.Basic

/-!
# Contract of evaluation

A chain meets the outside only through the clock and the source.  On two hosts where these
agree, evaluation agrees; over rows without exact integers it gives a value without one; and
it fails as they do or else plainly.

The contract follows the definitions: one statement for each verb, then the calls of a chain
one after the other.
-/

namespace OperatorConsole

open OperatorConsole.Action Value

/-- An error, or a thrown scalar. -/
def Failure.isPlain : Failure -> Bool
  | .thrown v => v.scalar?.isSome
  | _ => true

/-- A plain failure can be put into words. -/
theorem Failure.message_of_plain {failure : Failure} (hplain : failure.isPlain = true) :
    exists message, failure.message = .ok message := by
  cases failure with
  | thrown v =>
      cases v with
      | null => exact ⟨_, rfl⟩
      | bool b => exact ⟨_, rfl⟩
      | number x => exact ⟨_, rfl⟩
      | text s => exact ⟨_, rfl⟩
      | _ => cases hplain
  | _ => exact ⟨_, rfl⟩

namespace Query

def InexactRow (row : Row) : Prop :=
  Inexact row.toValue

def InexactRows (rows : List Row) : Prop :=
  forall row, row ∈ rows -> InexactRow row

/-- Two sources of the same description that do the same, whatever plan they are asked for. -/
structure EntitySource.Agree (related : σ -> τ -> Prop) (bad : Failure -> Prop)
    (source : EntitySource σ) (source' : EntitySource τ) : Prop where
  name : source.name = source'.name
  primaryKey : source.primaryKey = source'.primaryKey
  select : forall plan,
    Action.Agree related InexactRows bad (source.select plan) (source'.select plan)
  iterate : forall plan,
    Action.Agree related InexactRows bad (source.iterate plan) (source'.iterate plan)
  aggregate : forall plan fn column, Action.Agree related (fun _ => True) bad
    (source.aggregate plan fn column) (source'.aggregate plan fn column)

/-! ## Values of rows -/

theorem inexact_rowsValue {rows : List Row} (hrows : InexactRows rows) :
    Inexact (rowsValue rows) := by
  apply inexact_list.mpr
  intro item hitem
  rcases List.mem_map.mp hitem with ⟨row, hrow, rfl⟩
  exact hrows row hrow

theorem inexact_rowOrNull {row : Option Row} (hrow : forall r, row = some r -> InexactRow r) :
    Inexact (rowOrNull row) := by
  cases row with
  | none => rfl
  | some r => exact hrow r rfl

theorem inexact_at {row : Row} (hrow : InexactRow row) (column : String) :
    Inexact (Row.at row column) :=
  (Record.inexact_get hrow column).orNull

theorem inexact_numberOrNull (x : Option Number) : Inexact (numberOrNull x) := by
  cases x with
  | none => rfl
  | some x => rfl

theorem inexact_fieldOf {v : Value} (hv : Inexact v) (column : String) :
    Inexact (fieldOf column v) := by
  cases v with
  | record fields base =>
      have hrow : InexactRow ⟨fields, base⟩ := hv
      exact inexact_at hrow column
  | ancestor => exact inexact_builtIn (show Inexact .null from rfl) column
  | _ => rfl

theorem inexact_page {rows : List Row} (hrows : InexactRows rows) {others : Fields}
    (hothers : forall field, field ∈ others -> field.2.scalar?.isSome) :
    Inexact (.ofFields (("data", rowsValue rows) :: others)) := by
  refine inexact_record.mpr ⟨?_, rfl⟩
  intro field hfield
  rcases List.mem_cons.mp hfield with rfl | hother
  · exact inexact_rowsValue hrows
  · exact inexact_of_scalar? (hothers field hother)

/-! ## Terminal verbs -/

section Source

variable {source : EntitySource σ} {source' : EntitySource τ} {related : σ -> τ -> Prop}
  {bad : Failure -> Prop}

theorem agree_checked (hbad : forall failure, failure.isPlain = true -> bad failure)
    (checked : Checked α) :
    Agree related (fun _ => True) bad checked.run checked.run := by
  cases checked with
  | ok x => exact Agree.pure trivial
  | error fault => exact Agree.throw (hbad _ rfl)

theorem agree_first (hsource : EntitySource.Agree related bad source source') (plan : Plan) :
    Agree related (fun row => forall r, row = some r -> InexactRow r) bad
      (source.first plan) (source'.first plan) := by
  apply (hsource.select _).bind
  intro rows hrows
  apply Agree.pure
  intro row hrow
  exact hrows row (List.mem_of_head? hrow)

theorem agree_aggregateOrZero (hsource : EntitySource.Agree related bad source source')
    (plan : Plan) (fn : AggregateFunction) (column : Option String) :
    Agree related (fun _ => True) bad (source.aggregateOrZero plan fn column)
      (source'.aggregateOrZero plan fn column) := by
  apply (hsource.aggregate plan fn column).bind
  intro answer _
  exact Agree.pure trivial

theorem ends_textOf (v : Value) :
    Ends (fun _ => True) (fun failure => failure.isPlain = true) (Failure.textOf v) := by
  unfold Failure.textOf
  split
  · exact trivial
  · rfl

theorem ends_keyedRecord {rows : List Row} (hrows : InexactRows rows)
    (valueColumn keyColumn : String) :
    Ends (fun record => Inexact record.toValue) (fun failure => failure.isPlain = true)
      (keyedRecord valueColumn keyColumn rows) := by
  refine Ends.foldlM ?_ Record.empty rfl
  intro record hrecord row hrow
  apply (ends_textOf _).bind
  intro key _
  exact Record.inexact_assign hrecord key (inexact_at (hrows row hrow) valueColumn)

variable (hbad : forall failure, failure.isPlain = true -> bad failure)
  (hsource : EntitySource.Agree related bad source source')

namespace TerminalVerb

include hbad hsource

theorem agree_runGet (verb : String) (plan : Plan) (args : List Operand) :
    Agree related Inexact bad (runGet verb source plan args)
      (runGet verb source' plan args) := by
  apply (agree_checked hbad _).bind
  intro plan _
  apply (hsource.select plan).bind
  intro rows hrows
  exact Agree.pure (inexact_rowsValue hrows)

theorem agree_runFirst (verb : String) (plan : Plan) (args : List Operand) :
    Agree related Inexact bad (runFirst verb source plan args)
      (runFirst verb source' plan args) := by
  apply (agree_checked hbad _).bind
  intro plan _
  apply (agree_first hsource plan).bind
  intro row hrow
  exact Agree.pure (inexact_rowOrNull hrow)

theorem agree_runFind (required : Bool) (verb : String) (plan : Plan) (args : List Operand) :
    Agree related Inexact bad (runFind required verb source plan args)
      (runFind required verb source' plan args) := by
  apply (agree_checked hbad _).bind
  intro _ _
  apply (agree_checked hbad _).bind
  intro id _
  rw [hsource.primaryKey, hsource.name]
  apply (agree_first hsource _).bind
  intro row hrow
  refine Agree.ite ?_ ?_
  · intro _
    exact Agree.throw (hbad _ rfl)
  · intro _
    exact Agree.pure (inexact_rowOrNull hrow)

theorem agree_runSole (verb : String) (plan : Plan) (args : List Operand) :
    Agree related Inexact bad (runSole verb source plan args)
      (runSole verb source' plan args) := by
  apply (agree_checked hbad _).bind
  intro _ _
  apply (hsource.select _).bind
  intro rows hrows
  cases rows with
  | nil => exact Agree.throw (hbad _ rfl)
  | cons row rest =>
      cases rest with
      | nil => exact Agree.pure (hrows row List.mem_cons_self)
      | cons other rest => exact Agree.throw (hbad _ rfl)

theorem agree_runPluck (verb : String) (plan : Plan) (args : List Operand) :
    Agree related Inexact bad (runPluck verb source plan args)
      (runPluck verb source' plan args) := by
  apply (agree_checked hbad _).bind
  intro _ _
  apply (agree_checked hbad _).bind
  intro valueColumn _
  refine Agree.ite ?_ ?_
  · intro _
    apply (agree_checked hbad _).bind
    intro keyColumn _
    apply (hsource.select _).bind
    intro rows hrows
    apply Agree.bind (Agree.settle ((ends_keyedRecord hrows _ _).mono (fun _ h => h) hbad))
    intro record hrecord
    exact Agree.pure hrecord
  · intro _
    apply (hsource.select _).bind
    intro rows hrows
    refine Agree.pure (inexact_list.mpr ?_)
    intro item hitem
    rcases List.mem_map.mp hitem with ⟨row, hrow, rfl⟩
    exact inexact_at (hrows row hrow) valueColumn

theorem agree_runValue (verb : String) (plan : Plan) (args : List Operand) :
    Agree related Inexact bad (runValue verb source plan args)
      (runValue verb source' plan args) := by
  apply (agree_checked hbad _).bind
  intro _ _
  apply (agree_checked hbad _).bind
  intro column _
  apply (agree_first hsource _).bind
  intro row hrow
  cases row with
  | some row => exact Agree.pure (inexact_at (hrow row rfl) column)
  | none => exact Agree.pure rfl

theorem agree_runCount (verb : String) (plan : Plan) (args : List Operand) :
    Agree related Inexact bad (runCount verb source plan args)
      (runCount verb source' plan args) := by
  apply (agree_checked hbad _).bind
  intro target _
  apply (agree_aggregateOrZero hsource _ _ _).bind
  intro n _
  exact Agree.pure rfl

theorem agree_runAggregate (fn : AggregateFunction) (verb : String) (plan : Plan)
    (args : List Operand) :
    Agree related Inexact bad (runAggregate fn verb source plan args)
      (runAggregate fn verb source' plan args) := by
  apply (agree_checked hbad _).bind
  intro _ _
  apply (agree_checked hbad _).bind
  intro column _
  apply (hsource.aggregate _ _ _).bind
  intro answer _
  exact Agree.pure (inexact_numberOrNull answer)

theorem agree_runSum (verb : String) (plan : Plan) (args : List Operand) :
    Agree related Inexact bad (runSum verb source plan args)
      (runSum verb source' plan args) := by
  apply (agree_checked hbad _).bind
  intro _ _
  apply (agree_checked hbad _).bind
  intro column _
  apply (agree_aggregateOrZero hsource _ _ _).bind
  intro n _
  exact Agree.pure rfl

theorem agree_runExists (wanted : Bool) (verb : String) (plan : Plan) (args : List Operand) :
    Agree related Inexact bad (runExists wanted verb source plan args)
      (runExists wanted verb source' plan args) := by
  apply (agree_checked hbad _).bind
  intro _ _
  apply (agree_aggregateOrZero hsource _ _ _).bind
  intro n _
  exact Agree.pure rfl

theorem agree_runPaginate (verb : String) (plan : Plan) (args : List Operand) :
    Agree related Inexact bad (runPaginate verb source plan args)
      (runPaginate verb source' plan args) := by
  apply (agree_checked hbad _).bind
  rintro ⟨perPage, page⟩ _
  apply (agree_aggregateOrZero hsource _ _ _).bind
  intro total _
  apply (hsource.select _).bind
  intro rows hrows
  refine Agree.pure (inexact_page hrows ?_)
  simp [Value.scalar?]

theorem agree_runSimplePaginate (verb : String) (plan : Plan) (args : List Operand) :
    Agree related Inexact bad (runSimplePaginate verb source plan args)
      (runSimplePaginate verb source' plan args) := by
  refine (agree_checked hbad _).bind ?_
  rintro ⟨perPage, page⟩ _
  refine (hsource.select _).bind ?_
  intro rows hrows
  refine Agree.pure (inexact_page ?_ ?_)
  · intro row hrow
    exact hrows row (List.mem_of_mem_take hrow)
  · simp [Value.scalar?]

theorem agree_runLazy (verb : String) (plan : Plan) (args : List Operand) :
    Agree related Inexact bad (runLazy verb source plan args)
      (runLazy verb source' plan args) := by
  refine (agree_checked hbad _).bind ?_
  intro _ _
  refine (hsource.iterate _).bind ?_
  intro rows hrows
  exact Agree.pure (inexact_rowsValue hrows)

theorem agree_run (verb : TerminalVerb) (plan : Plan) (args : List Operand) :
    Agree related Inexact bad (verb.run source plan args)
      (verb.run source' plan args) := by
  cases verb with
  | get => exact agree_runGet hbad hsource _ plan args
  | first => exact agree_runFirst hbad hsource _ plan args
  | find => exact agree_runFind hbad hsource _ _ plan args
  | findOrFail => exact agree_runFind hbad hsource _ _ plan args
  | sole => exact agree_runSole hbad hsource _ plan args
  | pluck => exact agree_runPluck hbad hsource _ plan args
  | value => exact agree_runValue hbad hsource _ plan args
  | count => exact agree_runCount hbad hsource _ plan args
  | min => exact agree_runAggregate hbad hsource _ _ plan args
  | max => exact agree_runAggregate hbad hsource _ _ plan args
  | avg => exact agree_runAggregate hbad hsource _ _ plan args
  | sum => exact agree_runSum hbad hsource _ plan args
  | «exists» => exact agree_runExists hbad hsource _ _ plan args
  | doesntExist => exact agree_runExists hbad hsource _ _ plan args
  | paginate => exact agree_runPaginate hbad hsource _ plan args
  | simplePaginate => exact agree_runSimplePaginate hbad hsource _ plan args
  | lazy => exact agree_runLazy hbad hsource _ plan args

end TerminalVerb

end Source

/-! ## Result verbs -/

theorem ends_checked {good : α -> Prop} {checked : Checked α} (hchecked : Yields good checked) :
    Ends good (fun failure => failure.isPlain = true)
      (checked.mapError EvaluationFault.toFailure) := by
  cases checked with
  | ok x => exact hchecked x rfl
  | error fault => rfl

theorem yields_itemsOf (verb : String) {v : Value} (hv : Inexact v) :
    Yields (fun items => forall item, item ∈ items -> Inexact item) (itemsOf verb v) := by
  cases v with
  | list items => exact Yields.ok (inexact_list.mp hv)
  | _ => exact Yields.error _

theorem ends_answerOf (routine : String) {r : Record} (hr : Inexact r.toValue) :
    Ends Inexact (fun failure => failure.isPlain = true) (Json.answerOf routine r) := by
  have hlocal : Ends Inexact (fun failure => failure.isPlain = true) (Json.localText r) := by
    unfold Json.localText
    split
    · rfl
    · rename_i v _ _
      cases v <;> rfl
    · split
      · rfl
      · split
        · rfl
        · rfl
  unfold Json.answerOf
  repeat' split
  all_goals first | exact hlocal | exact hr | rfl

theorem ends_standIn {v : Value} (hv : Inexact v) :
    Ends Inexact (fun failure => failure.isPlain = true) (Json.standIn v) := by
  unfold Json.standIn
  split
  · split
    · exact ends_answerOf _ hv
    · exact hv
  · exact hv

theorem ends_jsonOf {v : Value} (hv : Inexact v) :
    Ends Inexact (fun failure => failure.isPlain = true) (jsonOf v) := by
  refine (ends_standIn hv).bind ?_
  intro shown hshown
  rw [if_pos hshown.writable]
  split
  · rfl
  · rfl

namespace ResultVerb

variable {v : Value} (hv : Inexact v)

theorem yields_countItems (verb : String) (args : List Operand) (v : Value) :
    Yields Inexact (countItems verb args v) := by
  refine Yields.behind ?_
  intro _
  split
  · exact Yields.ok rfl
  · exact Yields.ok rfl
  · exact Yields.ok rfl
  · exact Yields.error _

theorem yields_reduceItems (reduce : List Number -> Option Number) (verb : String)
    (args : List Operand) (v : Value) :
    Yields Inexact (reduceItems reduce verb args v) := by
  have hreduced : forall column : Option String,
      Yields Inexact (do
        let items ← itemsOf verb v
        pure (numberOrNull (reduce (numbersIn column items)))) := by
    intro column
    refine Yields.behind ?_
    intro items
    exact Yields.ok (inexact_numberOrNull _)
  refine Yields.behind ?_
  intro _
  dsimp only
  split
  · refine Yields.behind ?_
    intro column
    exact hreduced column
  · refine Yields.behind ?_
    intro column
    exact hreduced column

include hv

theorem yields_firstItem (verb : String) (args : List Operand) :
    Yields Inexact (firstItem verb args v) := by
  refine Yields.behind ?_
  intro _
  refine (yields_itemsOf verb hv).bind ?_
  intro items hitems
  refine Yields.ok (Inexact.orNull ?_)
  cases items with
  | nil => rfl
  | cons item rest => exact hitems item List.mem_cons_self

theorem yields_takeItems (verb : String) (args : List Operand) :
    Yields Inexact (takeItems verb args v) := by
  refine Yields.behind ?_
  intro _
  refine (yields_itemsOf verb hv).bind ?_
  intro items hitems
  refine Yields.behind ?_
  intro n
  refine Yields.ok (inexact_list.mpr ?_)
  intro item hitem
  exact hitems item (List.mem_of_mem_take hitem)

theorem yields_skipItems (verb : String) (args : List Operand) :
    Yields Inexact (skipItems verb args v) := by
  refine Yields.behind ?_
  intro _
  refine (yields_itemsOf verb hv).bind ?_
  intro items hitems
  refine Yields.behind ?_
  intro n
  refine Yields.ok (inexact_list.mpr ?_)
  intro item hitem
  exact hitems item (List.mem_of_mem_drop hitem)

theorem yields_pluckItems (verb : String) (args : List Operand) :
    Yields Inexact (pluckItems verb args v) := by
  refine Yields.behind ?_
  intro _
  refine Yields.behind ?_
  intro column
  refine (yields_itemsOf verb hv).bind ?_
  intro items hitems
  refine Yields.ok (inexact_list.mpr ?_)
  intro item hitem
  rcases List.mem_map.mp hitem with ⟨old, hold, rfl⟩
  exact inexact_fieldOf (hitems old hold) column

theorem ends_apply (verb : ResultVerb) (args : List Operand) :
    Ends Inexact (fun failure => failure.isPlain = true) (verb.apply args v) := by
  cases verb with
  | toArray =>
      apply ends_checked
      cases checkArity (text .toArray) args 0 0 with
      | ok _ => exact Yields.ok hv
      | error fault => exact Yields.error fault
  | toJson =>
      unfold apply
      dsimp only
      split
      · exact ends_jsonOf hv
      · rfl
  | count => exact ends_checked (yields_countItems _ args v)
  | first => exact ends_checked (yields_firstItem hv _ args)
  | take => exact ends_checked (yields_takeItems hv _ args)
  | skip => exact ends_checked (yields_skipItems hv _ args)
  | pluck => exact ends_checked (yields_pluckItems hv _ args)
  | sum => exact ends_checked (yields_reduceItems _ _ args v)
  | avg => exact ends_checked (yields_reduceItems _ _ args v)
  | min => exact ends_checked (yields_reduceItems _ _ args v)
  | max => exact ends_checked (yields_reduceItems _ _ args v)

end ResultVerb

/-! ## Chains -/

theorem ends_textAt (h : Helper) (time : Number) :
    Ends (fun _ => True) (fun failure => failure.isPlain = true) (h.textAt time) := by
  have hleading : forall separator count,
      Ends (fun _ => True) (fun failure => failure.isPlain = true)
        (Calendar.leadingText separator count time) := by
    intro separator count
    unfold Calendar.leadingText
    split
    · exact trivial
    · rfl
  cases h with
  | now => exact hleading ' ' 19
  | today => exact hleading 'T' 10

section Chain

variable {source : EntitySource σ} {source' : EntitySource τ} {clock : Action σ Number}
  {clock' : Action τ Number} {related : σ -> τ -> Prop} {bad : Failure -> Prop}

mutual

theorem agree_resolve
    (hbad : forall failure, failure.isPlain = true -> bad failure)
    (hclock : Agree related (fun _ => True) bad clock clock') :
    (arg : Argument) ->
      Agree related (fun _ => True) bad (Argument.resolve clock arg) (Argument.resolve clock' arg)
  | .scalar v => by
      rw [Argument.resolve, Argument.resolve]
      exact Agree.pure trivial
  | .helper h => by
      rw [Argument.resolve, Argument.resolve]
      apply hclock.bind
      intro time _
      have htext := ends_textAt h time
      cases hresult : h.textAt time with
      | ok text => exact Agree.pure trivial
      | error failure =>
          rw [hresult] at htext
          exact Agree.throw (hbad failure htext)
  | .list items => by
      rw [Argument.resolve, Argument.resolve]
      apply (agree_resolveAll hbad hclock items).bind
      intro operands _
      exact Agree.pure trivial

theorem agree_resolveAll
    (hbad : forall failure, failure.isPlain = true -> bad failure)
    (hclock : Agree related (fun _ => True) bad clock clock') :
    (args : List Argument) ->
      Agree related (fun _ => True) bad (Argument.resolveAll clock args)
        (Argument.resolveAll clock' args)
  | [] => by
      rw [Argument.resolveAll, Argument.resolveAll]
      exact Agree.pure trivial
  | arg :: args => by
      rw [Argument.resolveAll, Argument.resolveAll]
      apply (agree_resolve hbad hclock arg).bind
      intro operand _
      apply (agree_resolveAll hbad hclock args).bind
      intro operands _
      exact Agree.pure trivial

end

/-- What is true of how far a chain has been evaluated: a result has no exact integers. -/
def InexactProgress : Progress -> Prop
  | .building _ => True
  | .finished result => Inexact result

variable (hbad : forall failure, failure.isPlain = true -> bad failure)
  (hsource : EntitySource.Agree related bad source source')
  (hclock : Agree related (fun _ => True) bad clock clock')

include hbad

include hsource in
theorem agree_applyBuilding (plan : Plan) (verb canonical : String) (args : List Operand) :
    Agree related InexactProgress bad (applyBuilding source plan verb canonical args)
      (applyBuilding source' plan verb canonical args) := by
  unfold applyBuilding
  cases BuilderVerb.ofName? verb with
  | some b =>
      apply (agree_checked hbad _).bind
      intro plan _
      exact Agree.pure trivial
  | none =>
      cases TerminalVerb.ofName? verb with
      | some t =>
          apply (TerminalVerb.agree_run hbad hsource t plan args).bind
          intro result hresult
          exact Agree.pure hresult
      | none => exact Agree.throw (hbad _ rfl)

theorem agree_applyFinished {result : Value} (hresult : Inexact result)
    (verb canonical : String) (args : List Operand) :
    Agree related InexactProgress bad (applyFinished result verb canonical args)
      (applyFinished result verb canonical args) := by
  unfold applyFinished
  cases ResultVerb.ofName? verb with
  | some r =>
      dsimp only
      have hends := ResultVerb.ends_apply hresult r args
      cases happly : r.apply args result with
      | ok next =>
          rw [happly] at hends
          exact Agree.pure hends
      | error failure =>
          rw [happly] at hends
          exact Agree.throw (hbad failure hends)
  | none => exact Agree.throw (hbad _ rfl)

include hsource hclock

theorem agree_step {progress : Progress} (hprogress : InexactProgress progress) (call : Call) :
    Agree related InexactProgress bad (step source clock progress call)
      (step source' clock' progress call) := by
  unfold step
  cases canonicalVerb? call.verb with
  | none => exact Agree.throw (hbad _ rfl)
  | some canonical =>
      apply (agree_resolveAll hbad hclock call.args).bind
      intro args _
      cases progress with
      | building plan => exact agree_applyBuilding hbad hsource plan _ _ args
      | finished result => exact agree_applyFinished hbad hprogress _ _ args

theorem agree_evaluate (chain : Chain) :
    Agree related Inexact bad (chain.evaluate source clock) (chain.evaluate source' clock') := by
  have hcalls : Agree related InexactProgress bad
      (chain.foldlM (step source clock) (Progress.building .empty))
      (chain.foldlM (step source' clock') (Progress.building .empty)) := by
    refine Agree.foldlM ?_ (Progress.building .empty) trivial
    intro progress hprogress call _
    exact agree_step hbad hsource hclock hprogress call
  apply hcalls.bind
  intro progress hprogress
  cases progress with
  | building plan => exact Agree.throw (hbad _ rfl)
  | finished result => exact Agree.pure hprogress

end Chain

end Query

end OperatorConsole
