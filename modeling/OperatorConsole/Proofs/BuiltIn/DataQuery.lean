import OperatorConsole.BuiltIn.DataQuery
import OperatorConsole.Proofs.Json.Document
import OperatorConsole.Proofs.Query.Outcome

/-!
# Data queries on an ordinary host

Options that pass validation name an entity and an admitted query, so the run behind a data
query has an outcome.  What is left to fail is the document of its value.
-/

namespace OperatorConsole

open OperatorConsole.Action Value

/-! ## Texts of results -/

/-- Of the values that hold no exact integer, exactly those that balk have no text. -/
theorem Report.resultText_fails_iff {v : Value} (hv : Inexact v) :
    (exists failure, resultText v = .error failure) ↔ Json.Balks v := by
  have hmap : (exists failure, resultText v = .error failure) ↔
      exists failure, resultChars v = .error failure := by
    unfold resultText
    cases resultChars v with
    | ok text => simp [Except.map]
    | error failure => simp [Except.map]
  rw [hmap, ← Json.document_fails_iff (.indented 4) hv.writable]
  cases v with
  | absent => exact iff_of_false (by simp [resultChars]) (by rintro ⟨_, h⟩; cases h)
  | null => exact iff_of_false (by simp [resultChars]) (by rintro ⟨_, h⟩; cases h)
  | bool b => exact iff_of_false (by simp [resultChars]) (by rintro ⟨_, h⟩; cases h)
  | number x => exact iff_of_false (by simp [resultChars]) (by rintro ⟨_, h⟩; cases h)
  | text s => exact iff_of_false (by simp [resultChars]) (by rintro ⟨_, h⟩; cases h)
  | _ => exact Iff.rfl

namespace DataQuery

def optionText (values : Value) (key : String) : Except Failure String := do
  let v ← Failure.answerOf values key
  Failure.textOf v

theorem textOf_apply (values : Value) (key : String) (s : Session σ) :
    textOf values key s = (optionText values key, s) := by
  unfold textOf optionText
  rw [bind_apply, settle_apply]
  cases Failure.answerOf values key with
  | ok v => rfl
  | error failure => rfl

variable {executor : Query.Executor σ}

theorem validate_ok {values : Value} {schema : Option (List OptionSpec)} {s : Session σ}
    (hvalid : (validate executor values schema s).1 = .ok ()) :
    exists entity query chain, optionText values "entity" = .ok entity ∧
      optionText values "query" = .ok query ∧
      executor.validator.verdict query = .accepted chain := by
  unfold validate at hvalid
  rw [bind_apply] at hvalid
  rcases next_ok_of_ok hvalid with ⟨_, _, hentity⟩
  rw [bind_apply, textOf_apply] at hentity
  rcases next_ok_of_ok hentity with ⟨entity, hentityText, hresolve⟩
  rw [bind_apply] at hresolve
  rcases next_ok_of_ok hresolve with ⟨answer, _, hquery⟩
  cases answer with
  | none => cases hquery
  | some source =>
      dsimp only at hquery
      rw [bind_apply, textOf_apply] at hquery
      rcases next_ok_of_ok hquery with ⟨query, hqueryText, haccept⟩
      rw [bind_apply] at haccept
      rcases next_ok_of_ok haccept with ⟨chain, hchain, _⟩
      exact ⟨entity, query, chain, hentityText, hqueryText,
        Query.Validator.accept_ok.mp hchain⟩

theorem execute_fails_iff {values : Value} {entity query : String} {s : Session σ}
    {outcome : Query.Outcome} (hentity : optionText values "entity" = .ok entity)
    (hquery : optionText values "query" = .ok query)
    (hrun : (executor.run entity query s).1 = .ok outcome) :
    (exists failure, (execute executor values s).1 = .error failure) ↔
      exists value elapsed, outcome = .succeeded value elapsed ∧
        exists failure, Report.resultText value = .error failure := by
  unfold execute
  rw [bind_apply, textOf_apply, hentity, next_ok, bind_apply, textOf_apply, hquery, next_ok,
    bind_apply, next_of_ok hrun]
  cases outcome with
  | failed code message elapsed => simp
  | succeeded value elapsed =>
      dsimp only
      rw [bind_apply, settle_apply]
      cases hshown : Report.resultText value with
      | ok text => simp [hshown]
      | error failure => simp [hshown]

/-- On an ordinary host a rejected expression ends in its rejection, and nothing but the
validator has a part in that; an admitted one has an outcome that tells what its
interpretation came to. Valid options lead to a result, except where the value of the run is a
record that balks at being written. -/
theorem run_of_ordinary (hordinary : executor.Ordinary) :
    (forall entityType expression s,
      match executor.validator.verdict expression with
      | .rejected rejection =>
          executor.run entityType expression s =
            (.error (.rejected rejection),
              (Query.Validator.logVerdict (.rejected rejection) s).2)
      | .accepted chain =>
          let told := (executor.interpret entityType chain (executor.timer s).2).1
          exists outcome, (executor.run entityType expression s).1 = .ok outcome ∧
            outcome.Tells told ∧ outcome.exitCode = if told.isOk then 0 else 1) ∧
    forall values schema s s', (validate executor values schema s).1 = .ok () ->
      exists entity query, optionText values "entity" = .ok entity ∧
        optionText values "query" = .ok query ∧
        ((exists failure, (execute executor values s').1 = .error failure) ↔
          exists value elapsed, (executor.run entity query s').1 = .ok (.succeeded value elapsed) ∧
            Json.Balks value) := by
  constructor
  · intro entityType expression s
    cases hverdict : executor.validator.verdict expression with
    | rejected rejection => exact executor.run_rejected entityType hverdict s
    | accepted chain =>
        rcases Query.Executor.run_accepted hordinary entityType hverdict s with
          ⟨outcome, hrun, htells, _⟩
        refine ⟨outcome, hrun, htells, ?_⟩
        generalize (executor.interpret entityType chain (executor.timer s).2).1 = told at htells
        cases htells with
        | value => rfl
        | failure hcode => rfl
  · intro values schema s s' hvalid
    rcases validate_ok hvalid with ⟨entity, query, chain, hentity, hquery, hverdict⟩
    rcases Query.Executor.run_accepted hordinary entity hverdict s' with
      ⟨outcome, hrun, _, hinexact⟩
    refine ⟨entity, query, hentity, hquery, ?_⟩
    rw [execute_fails_iff hentity hquery hrun, hrun]
    constructor
    · rintro ⟨value, elapsed, rfl, hfails⟩
      exact ⟨value, elapsed, rfl,
        (Report.resultText_fails_iff (hinexact value elapsed rfl)).mp hfails⟩
    · rintro ⟨value, elapsed, hvalue, hbalks⟩
      cases hvalue
      exact ⟨value, elapsed, rfl,
        (Report.resultText_fails_iff (hinexact value elapsed rfl)).mpr hbalks⟩

/-! ## A record that balks -/

/-- A source whose rows, of one column `k`, name the key under which records answer for their
documents. -/
def namesakeSource : Query.EntitySource Unit where
  name := "t"
  primaryKey := "k"
  fields := pure ["k"]
  select := fun _ => pure [.ofFields [("k", .text "toJSON")]]
  iterate := fun _ => pure [.ofFields [("k", .text "toJSON")]]
  aggregate := fun _ _ _ => pure (some 1)

def namesakeExecutor : Query.Executor Unit where
  resolver := ⟨pure [], fun _ => pure (some namesakeSource)⟩
  validator := .standard
  clock := pure 0
  timer := pure 0

def optionsOf (entity query : String) : Value :=
  .ofFields [("entity", .text entity), ("query", .text query)]

theorem namesakeExecutor_ordinary : namesakeExecutor.Ordinary := by
  have hrow : Query.ScalarRow (.ofFields [("k", .text "toJSON")]) := by
    refine ⟨rfl, ?_⟩
    intro field hfield
    rw [List.mem_singleton.mp hfield]
    rfl
  have hrows : forall row : Query.Row, row ∈ [Record.ofFields [("k", .text "toJSON")]] ->
      Query.ScalarRow row := by
    intro row hmem
    rw [List.mem_singleton.mp hmem]
    exact hrow
  have hsource : namesakeSource.Ordinary := by
    refine ⟨?_, ?_, ?_⟩
    · intro plan s
      exact hrows
    · intro plan s
      exact hrows
    · intro plan fn column s
      exact trivial
  refine ⟨?_, ?_, ?_⟩
  · intro entityType s source hsome
    cases hsome
    exact hsource
  · intro s
    exact trivial
  · intro s
    exact ⟨0, rfl⟩

/-- The rows have no column of that name, so what is plucked is what every record answers to
it; it is stored where a document looks for a stand-in. -/
def pluckedRoutine : Value :=
  optionsOf "t" "pluck('__defineGetter__', 'k')"

theorem pluckedRoutine_valid :
    (validate namesakeExecutor pluckedRoutine none ⟨(), []⟩).1 = .ok () := by
  have hvalid : (validate namesakeExecutor pluckedRoutine none ⟨(), []⟩).1.isOk = true := by
    decide +kernel
  cases hresult : (validate namesakeExecutor pluckedRoutine none ⟨(), []⟩).1 with
  | ok done => rfl
  | error failure =>
      rw [hresult] at hvalid
      cases hvalid

theorem pluckedRoutine_run :
    exists elapsed,
      (namesakeExecutor.run "t" "pluck('__defineGetter__', 'k')" ⟨(), []⟩).1 =
        .ok (.succeeded (.ofFields [("toJSON", .routine "__defineGetter__")]) elapsed) := by
  have hvalue : (match (namesakeExecutor.run "t" "pluck('__defineGetter__', 'k')" ⟨(), []⟩).1 with
      | .ok (.succeeded value _) =>
          decide (value = .ofFields [("toJSON", .routine "__defineGetter__")])
      | _ => false) = true := by
    decide +kernel
  split at hvalue
  · rename_i value elapsed hrun
    refine ⟨elapsed, ?_⟩
    rw [hrun, of_decide_eq_true hvalue]
  · cases hvalue

theorem pluckedRoutine_entity : optionText pluckedRoutine "entity" = .ok "t" := rfl

theorem pluckedRoutine_query :
    optionText pluckedRoutine "query" = .ok "pluck('__defineGetter__', 'k')" := rfl

/-- Options that pass validation, on a host that always answers the same, without a result. -/
theorem valid_options_without_result :
    namesakeExecutor.Ordinary ∧
      (validate namesakeExecutor pluckedRoutine none ⟨(), []⟩).1 = .ok () ∧
      (execute namesakeExecutor pluckedRoutine ⟨(), []⟩).1 =
        .error (Json.expectsFunction "__defineGetter__") := by
  refine ⟨namesakeExecutor_ordinary, pluckedRoutine_valid, ?_⟩
  rcases pluckedRoutine_run with ⟨elapsed, hrun⟩
  unfold execute
  rw [bind_apply, textOf_apply, pluckedRoutine_entity, next_ok, bind_apply, textOf_apply,
    pluckedRoutine_query, next_ok, bind_apply, next_of_ok hrun]
  rfl

theorem run_of_ordinary_namesake :
    exists failure, (execute namesakeExecutor pluckedRoutine ⟨(), []⟩).1 = .error failure := by
  rcases (run_of_ordinary namesakeExecutor_ordinary).2 pluckedRoutine none ⟨(), []⟩ ⟨(), []⟩
    pluckedRoutine_valid with ⟨entity, query, hentity, hquery, hfails⟩
  rw [pluckedRoutine_entity] at hentity
  rw [pluckedRoutine_query] at hquery
  cases hentity
  cases hquery
  rcases pluckedRoutine_run with ⟨elapsed, hrun⟩
  refine hfails.mpr ⟨_, elapsed, hrun, .defining rfl ?_⟩
  exact List.mem_cons_self

end DataQuery

end OperatorConsole
