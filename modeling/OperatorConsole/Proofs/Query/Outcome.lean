import OperatorConsole.Proofs.Query.Admission
import OperatorConsole.Proofs.Query.Evaluation
import OperatorConsole.Query.Executor

/-!
# Outcomes of runs

A run of a rejected expression ends with the rejection before anything is asked.  A run of an
admitted one has an outcome, whatever the resolver, the sources and the clock do, as long as
they fail plainly.

## Ordinary hosts

`EntitySource.Ordinary` and `Executor.Ordinary` say what is expected of a host: rows are
records of scalars, and what is thrown is an error or a scalar.  The timer always answers.
-/

namespace OperatorConsole

open OperatorConsole.Action Value

namespace Query

def ScalarRow (row : Row) : Prop :=
  row.base = .ancestor ∧ forall field, field ∈ row.fields -> field.2.scalar?.isSome

theorem inexact_of_scalarRow {row : Row} (hrow : ScalarRow row) : InexactRow row := by
  rcases hrow with ⟨hbase, hfields⟩
  refine inexact_record.mpr ⟨?_, ?_⟩
  · intro field hfield
    exact inexact_of_scalar? (hfields field hfield)
  · rw [hbase]
    rfl

def EndsPlainly (good : α -> Prop) (a : Action σ α) : Prop :=
  forall s, Ends good (fun failure => failure.isPlain = true) (a s).1

structure EntitySource.Ordinary (source : EntitySource σ) : Prop where
  select : forall plan,
    EndsPlainly (fun rows => forall row, row ∈ rows -> ScalarRow row) (source.select plan)
  iterate : forall plan,
    EndsPlainly (fun rows => forall row, row ∈ rows -> ScalarRow row) (source.iterate plan)
  aggregate : forall plan fn column,
    EndsPlainly (fun _ => True) (source.aggregate plan fn column)

structure Executor.Ordinary (executor : Executor σ) : Prop where
  resolver : forall entityType,
    EndsPlainly (fun answer => forall source, answer = some source -> source.Ordinary)
      (executor.resolver.resolve entityType)
  clock : EndsPlainly (fun _ => True) executor.clock
  timer : forall s, exists time, (executor.timer s).1 = .ok time

theorem EndsPlainly.agree {good : α -> Prop} {a : Action σ α} (ha : EndsPlainly good a) :
    Agree (fun host host' => host = host') good (fun failure => failure.isPlain = true) a a :=
  Agree.self ha

theorem EntitySource.Ordinary.agree {source : EntitySource σ} (hsource : source.Ordinary) :
    EntitySource.Agree (fun host host' => host = host') (fun failure => failure.isPlain = true)
      source source := by
  have hrows : forall rows : List Row, (forall row, row ∈ rows -> ScalarRow row) ->
      InexactRows rows := by
    intro rows hscalar row hrow
    exact inexact_of_scalarRow (hscalar row hrow)
  refine ⟨rfl, rfl, ?_, ?_, ?_⟩
  · intro plan
    exact (hsource.select plan).agree.mono hrows (fun _ h => h)
  · intro plan
    exact (hsource.iterate plan).agree.mono hrows (fun _ h => h)
  · intro plan fn column
    exact (hsource.aggregate plan fn column).agree

/-! ## Interpretation -/

namespace Executor

variable {executor : Executor σ}

/-- The value of a chain over the source of an entity type, without anything that a run does
around it. -/
def interpret (executor : Executor σ) (entityType : String) (chain : Chain) : Action σ Value := do
  match ← executor.resolver.resolve entityType with
  | none => throw (.query (.unknownEntityType entityType))
  | some source => chain.evaluate source executor.clock

theorem ends_interpret (hordinary : executor.Ordinary) (entityType : String) (chain : Chain) :
    EndsPlainly Inexact (executor.interpret entityType chain) := by
  have hagree : Agree (fun host host' => host = host') Inexact
      (fun failure => failure.isPlain = true)
      (executor.interpret entityType chain) (executor.interpret entityType chain) := by
    apply (hordinary.resolver entityType).agree.bind
    intro answer hanswer
    cases answer with
    | none => exact Agree.throw rfl
    | some source =>
        exact agree_evaluate (fun _ h => h) (hanswer source rfl).agree hordinary.clock.agree chain
  exact hagree.ends

/-- What a run does after validation is the interpretation, then a look at the timer. -/
theorem evaluate_eq (executor : Executor σ) (entityType : String) (chain : Chain)
    (start : Number) :
    executor.evaluate entityType chain start = (do
      let value ← executor.interpret entityType chain
      let finish ← executor.timer
      let elapsed := Calendar.elapsedSeconds start finish
      Action.debug "Query executed"
        [("entityType", .text entityType), ("elapsedSeconds", .number elapsed)]
      return .succeeded value elapsed) := by
  unfold evaluate interpret
  rw [bind_assoc]
  congr 1
  funext answer
  cases answer with
  | none => rfl
  | some source => rfl

end Executor

inductive Outcome.Tells : Outcome -> Except Failure Value -> Prop where
  | value {value elapsed} : Tells (.succeeded value elapsed) (.ok value)
  | failure {failure code message elapsed}
      (hcode : code = .unknownEntityType ↔
        exists name, failure = .query (.unknownEntityType name)) :
      Tells (.failed code message elapsed) (.error failure)

/-- A plain failure can be reported, as an unknown entity type only if it is one. -/
theorem report_plain {failure : Failure} (hplain : failure.isPlain = true) :
    exists code message, report failure = .ok (code, message) ∧
      (code = .unknownEntityType ↔
        exists name, failure = .query (.unknownEntityType name)) := by
  rcases Failure.message_of_plain hplain with ⟨message, hmessage⟩
  cases failure with
  | query f =>
      cases f with
      | unknownEntityType name => exact ⟨_, _, rfl, by simp⟩
      | evaluation reason => exact ⟨_, _, rfl, by simp⟩
      | other text => exact ⟨_, _, rfl, by simp⟩
  | _ =>
      refine ⟨.executionError, (QueryFailure.evaluation message).message, ?_, by simp⟩
      unfold report
      dsimp only
      rw [hmessage]
      rfl

/-! ## Runs -/

namespace Executor

variable {executor : Executor σ}

/-- Nothing but the validator has a part in the run of a rejected expression. -/
theorem run_rejected (executor : Executor σ) (entityType : String) {expression : String}
    {rejection : QueryRejection}
    (hverdict : executor.validator.verdict expression = .rejected rejection) (s : Session σ) :
    executor.run entityType expression s =
      (.error (.rejected rejection), (Validator.logVerdict (.rejected rejection) s).2) := by
  unfold run
  rw [bind_apply, Validator.accept_apply, hverdict, next_error]

theorem evaluate_tells (hordinary : executor.Ordinary) (entityType : String) (chain : Chain)
    (start : Number) (s : Session σ) :
    let told := (executor.interpret entityType chain s).1
    match (executor.evaluate entityType chain start s).1 with
    | .ok outcome => outcome.Tells told ∧
        forall value elapsed, outcome = .succeeded value elapsed -> Inexact value
    | .error failure => told = .error failure ∧ failure.isPlain = true := by
  have hends := ends_interpret hordinary entityType chain s
  rw [evaluate_eq, bind_apply]
  cases hinterpret : executor.interpret entityType chain s with
  | mk result t =>
      rw [hinterpret] at hends
      cases result with
      | error failure => exact ⟨rfl, hends⟩
      | ok value =>
          rcases hordinary.timer t with ⟨finish, hfinish⟩
          rw [next_ok, bind_apply, next_of_ok hfinish]
          refine ⟨.value, ?_⟩
          intro value' elapsed hvalue
          cases hvalue
          exact hends

/-- The run of an admitted expression has an outcome, which tells what its interpretation
came to. -/
theorem run_accepted (hordinary : executor.Ordinary) (entityType : String) {expression : String}
    {chain : Chain} (hverdict : executor.validator.verdict expression = .accepted chain)
    (s : Session σ) :
    exists outcome, (executor.run entityType expression s).1 = .ok outcome ∧
      outcome.Tells (executor.interpret entityType chain (executor.timer s).2).1 ∧
      forall value elapsed, outcome = .succeeded value elapsed -> Inexact value := by
  unfold run
  rw [bind_apply, Validator.accept_apply, hverdict, next_ok, bind_apply]
  change exists outcome, (next _ (executor.timer s)).1 = .ok outcome ∧ _
  rcases hordinary.timer s with ⟨start, hstart⟩
  have htells := evaluate_tells hordinary entityType chain start (executor.timer s).2
  rw [next_of_ok hstart, bind_apply, attempt_apply, next_ok]
  cases hevaluate : executor.evaluate entityType chain start (executor.timer s).2 with
  | mk result t =>
      rw [hevaluate] at htells
      cases result with
      | ok outcome => exact ⟨outcome, rfl, htells⟩
      | error failure =>
          rcases htells with ⟨htold, hplain⟩
          rcases report_plain hplain with ⟨code, message, hreport, hcode⟩
          rcases hordinary.timer t with ⟨finish, hfinish⟩
          refine ⟨.failed code message (Calendar.elapsedSeconds start finish), ?_, ?_, ?_⟩
          · change (executor.recover entityType start failure t).1 = _
            unfold recover
            rw [bind_apply, next_of_ok hfinish, bind_apply, settle_apply, hreport, next_ok]
            rfl
          · rw [htold]
            exact .failure hcode
          · intro value elapsed hvalue
            cases hvalue

end Executor

end Query

end OperatorConsole
