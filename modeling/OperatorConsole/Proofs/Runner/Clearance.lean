import OperatorConsole.Proofs.Runner.Watched

/-!
# Clearance

A command is executed only once everything stands in its favour, and then once, with the
options that it has just validated.

## Steps of a run

The ends of a run call no command.  Only `carryOut` does, and `run` reaches it only for a
command that is cleared.
-/

namespace OperatorConsole

open OperatorConsole.Action

/-- What has to hold before a command is executed for a request. -/
structure Cleared (runner : Runner σ) (request : RunRequest) (command : Command σ) : Prop where
  enabled : runner.enabled = true
  registered : runner.registry.get? request.commandName = some command
  /-- An environment without a restriction of its own allows every risk. -/
  allowed : forall restriction,
    runner.gate.restrictionFor? runner.environment = some restriction ->
      command.descriptor.riskLevel ∈ restriction.allowedRiskLevels
  confirmed :
    (command.descriptor.explicitConfirmation = true ∨ command.descriptor.riskLevel ≠ .low ∨
      exists restriction, runner.gate.restrictionFor? runner.environment = some restriction ∧
        restriction.disableUnlessConfirmed = true) ->
    request.confirmed = .bool true

/-- How a run may end, with the calls that were noted during it. -/
inductive Answered (runner : Runner σ) (request : RunRequest) :
    List RunEvent -> Except Failure RunResponse -> Prop where
  | unexecuted {events result}
      (hcalls : forall command options context, .executed command options context ∉ events)
      (hcode : forall response, result = .ok response -> response.exitCode = 1) :
      Answered runner request events result
  | executed {result} (command : Command σ) (values : Record) (options : Value)
      (context : CommandContext)
      (hcleared : Cleared runner request command)
      (hvalues : Options.given request.options command.descriptor.options = .ok values)
      (hoptions : options = (Options.applyDefaults values command.descriptor.options).toValue) :
      Answered runner request
        [.validated command.descriptor options true, .executed command.descriptor options context]
        result

/-! ## The gate -/

theorem Gate.decide_eligible (gate : Gate) (risk : RiskLevel) (explicit : Bool)
    (environment : String) :
    (gate.decide risk explicit environment).eligible = gate.isEligible risk environment := by
  unfold Gate.decide
  split
  · rename_i heligible
    exact heligible.symm
  · rename_i hineligible
    exact (eq_false_of_ne_true hineligible).symm

theorem Gate.isEligible_iff (gate : Gate) (risk : RiskLevel) (environment : String) :
    gate.isEligible risk environment = true ↔
      forall restriction, gate.restrictionFor? environment = some restriction ->
        risk ∈ restriction.allowedRiskLevels := by
  unfold Gate.isEligible
  cases gate.restrictionFor? environment with
  | none => simp
  | some restriction => simp

theorem Gate.decide_requiresConfirmation {gate : Gate} {risk : RiskLevel} {explicit : Bool}
    {environment : String} (heligible : gate.isEligible risk environment = true) :
    (gate.decide risk explicit environment).requiresConfirmation = true ↔
      explicit = true ∨ risk ≠ .low ∨
        exists restriction, gate.restrictionFor? environment = some restriction ∧
          restriction.disableUnlessConfirmed = true := by
  unfold Gate.decide Gate.confirmationReasons
  rw [if_pos heligible]
  by_cases hrisk : risk = .low
  · cases explicit with
    | true => simp
    | false => simp [hrisk, Option.any_eq_true]
  · simp [hrisk]

namespace Runner

variable (runner : Runner σ)

/-! ## The attempt itself -/

theorem perform_calls (command : Command σ) (options : Value) (context : CommandContext)
    (s : Session (Watched σ RunEvent)) :
    let final := perform command.watched options context s
    ((exists failure, final.1 = .error failure) ∧
      final.2.host.events = s.host.events ++ [.validated command.descriptor options false]) ∨
    final.2.host.events = s.host.events ++
      [.validated command.descriptor options true,
        .executed command.descriptor options context] := by
  have hvalidated := command.validate_events options s
  unfold perform
  rw [bind_apply]
  cases hvalidate : command.watched.validate options s with
  | mk result t =>
      rw [hvalidate] at hvalidated
      cases result with
      | error failure =>
          left
          exact ⟨⟨failure, rfl⟩, hvalidated⟩
      | ok done =>
          right
          have hexecuted := command.execute_events options context t
          have hevents : (command.watched.execute options context t).2.host.events =
              s.host.events ++ [.validated command.descriptor options true,
                .executed command.descriptor options context] := by
            rw [hexecuted, hvalidated, List.append_assoc]
            rfl
          rw [next_ok, bind_apply]
          cases hexecute : command.watched.execute options context t with
          | mk result' t' =>
              rw [hexecute] at hevents
              cases result' with
              | error failure => exact hevents
              | ok answer =>
                  cases answer with
                  | none => exact hevents
                  | some result => exact hevents

theorem carryOut_calls (command : Command σ) (attempt : Attempt)
    (s : Session (Watched σ RunEvent)) (hs : s.host.events = []) :
    let final := runner.watched.carryOut command.watched attempt s
    ((forall called options context, .executed called options context ∉ final.2.host.events) ∧
      forall response, final.1 = .ok response -> response.exitCode = 1) ∨
    exists context, final.2.host.events =
      [.validated command.descriptor attempt.options true,
        .executed command.descriptor attempt.options context] := by
  unfold carryOut
  rw [bind_apply, settle_apply]
  cases Report.Header.text ⟨command.watched.name, attempt.user.shownName,
      runner.watched.environment, attempt.startedAt, attempt.options.fields⟩ with
  | error failure =>
      left
      rw [next_error]
      constructor
      · rw [hs]
        intro called options context hcall
        cases hcall
      · intro response hresponse
        cases hresponse
  | ok header =>
      rw [next_ok, bind_apply, attempt_apply, next_ok]
      generalize hcontext : (⟨runner.watched.environment, attempt.user, attempt.startedAt⟩ :
        CommandContext) = context
      have halike := runner.watched_alikeInEnds
      have hcalls := perform_calls command attempt.options context s
      rw [hs] at hcalls
      rcases hcalls with ⟨⟨failure, hfailed⟩, hevents⟩ | hevents
      · left
        rw [hfailed]
        dsimp only
        rcases ((halike _).agree_reportFailure attempt header failure).sameEvents hevents with
          ⟨hkept, hends⟩
        constructor
        · intro called options context hcall
          rw [hkept] at hcall
          cases hcall with
          | tail _ hcall => cases hcall
        · intro response hresponse
          rw [hresponse] at hends
          exact hends
      · right
        refine ⟨context, ?_⟩
        cases (perform command.watched attempt.options context s).1 with
        | ok result => exact (((halike _).agree_finish attempt _).sameEvents hevents).1
        | error failure =>
            exact (((halike _).agree_reportFailure attempt header failure).sameEvents hevents).1

/-! ## Whole runs -/

def Answers (request : RunRequest) (a : Action (Watched σ RunEvent) RunResponse) : Prop :=
  forall s, s.host.events = [] -> Answered runner request (a s).2.host.events (a s).1

theorem Answers.ofAgree {request : RunRequest} {a : Action (Watched σ RunEvent) RunResponse}
    {b : Action σ RunResponse}
    (hagree : Agree (Tracks fun noted => noted = []) (fun response => response.exitCode = 1)
      (fun _ => True) a b) :
    runner.Answers request a := by
  intro s hs
  rcases hagree.sameEvents hs with ⟨hevents, hends⟩
  refine .unexecuted ?_ ?_
  · rw [hevents]
    intro command options context hcall
    cases hcall
  · intro response hresponse
    rw [hresponse] at hends
    exact hends

theorem Answers.bind {request : RunRequest} {good : α -> Prop} {a : Action (Watched σ RunEvent) α}
    {b : Action σ α} {step : α -> Action (Watched σ RunEvent) RunResponse}
    (hagree : Agree (Tracks fun noted => noted = []) good (fun _ => True) a b)
    (hstep : forall x, good x -> runner.Answers request (step x)) :
    runner.Answers request (a >>= step) := by
  intro s hs
  rcases hagree.sameEvents hs with ⟨hevents, hends⟩
  rw [bind_apply]
  cases hrun : a s with
  | mk result t =>
      rw [hrun] at hevents hends
      cases result with
      | ok x => exact hstep x hends t hevents
      | error failure =>
          rw [next_error]
          exact Answers.ofAgree runner (Agree.throw trivial) t hevents

theorem carryOut_answers {request : RunRequest} {command : Command σ} {attempt : Attempt}
    {values : Record} (hcleared : Cleared runner request command)
    (hvalues : Options.given request.options command.descriptor.options = .ok values)
    (hoptions : attempt.options =
      (Options.applyDefaults values command.descriptor.options).toValue) :
    runner.Answers request (runner.watched.carryOut command.watched attempt) := by
  intro s hs
  rcases runner.carryOut_calls command attempt s hs with ⟨hcalls, hcode⟩ | ⟨context, hevents⟩
  · exact .unexecuted hcalls hcode
  · rw [hevents]
    exact .executed command values attempt.options context hcleared hvalues hoptions

theorem cleared_of_decision {request : RunRequest} {command : Command σ}
    (henabled : runner.enabled = true)
    (hregistered : runner.registry.get? request.commandName = some command)
    (heligible : (runner.decisionOn command).eligible = true)
    (hconfirmed : (runner.decisionOn command).requiresConfirmation = true ->
      request.isConfirmed = true) :
    Cleared runner request command := by
  have hallowed :
      runner.gate.isEligible command.descriptor.riskLevel runner.environment = true := by
    rw [← runner.gate.decide_eligible]
    exact heligible
  refine ⟨henabled, hregistered, (runner.gate.isEligible_iff _ _).mp hallowed, ?_⟩
  intro hreason
  have hrequired := (Gate.decide_requiresConfirmation hallowed).mpr hreason
  exact of_decide_eq_true (hconfirmed hrequired)

theorem run_answers (request : RunRequest) (user : Operator) :
    runner.Answers request (runner.watched.run request user) := by
  have halike := runner.watched_alikeInEnds
  have hrefuse : forall name failure startedAt,
      runner.Answers request (runner.watched.refuse name failure startedAt) := by
    intro name failure startedAt
    exact Answers.ofAgree runner ((halike _).agree_refuse name failure startedAt)
  have hfailed : forall attempt body message,
      runner.Answers request (runner.watched.finish attempt (.failed body message)) := by
    intro attempt body message
    exact Answers.ofAgree runner ((halike _).agree_finish_failed attempt body message)
  apply Answers.bind runner (halike _).timer
  intro startedAt _
  have henabled : runner.watched.enabled = runner.enabled := rfl
  rw [henabled]
  cases henabled : runner.enabled with
  | false => exact hrefuse request.commandName .disabled startedAt
  | true =>
      rw [if_neg (by decide), runner.get?_watched]
      cases hregistered : runner.registry.get? request.commandName with
      | none => exact hrefuse request.commandName .notFound startedAt
      | some command =>
          have hdecision : runner.watched.decisionOn command.watched = runner.decisionOn command :=
            rfl
          rw [Option.map_some]
          dsimp only
          rw [hdecision]
          split
          · apply Answers.bind runner (Agree.log _)
            intro _ _
            exact hfailed _ _ _
          · rename_i heligible
            split
            · exact hfailed _ _ _
            · rename_i hconfirmed
              apply Answers.bind runner (Agree.settle (Ends.self _))
              intro values hvalues
              refine runner.carryOut_answers ?_ hvalues rfl
              refine runner.cleared_of_decision henabled hregistered ?_ ?_
              · simpa using heligible
              · intro hrequired
                simpa [hrequired] using hconfirmed

/-- A run calls nothing but the `validate` and `execute` of one cleared command, the latter
only with the options that the former has just accepted. -/
theorem run_executes_cleared (request : RunRequest) (user : Operator) (s : Session σ) :
    let final := runner.watched.run request user s.watched
    (final.1, final.2.forget) = runner.run request user s ∧
      Answered runner request final.2.host.events final.1 := by
  intro final
  constructor
  · exact (runner.watched_alike.agree_run request user).forget_eq s.watched
  · exact runner.run_answers request user s.watched rfl

end Runner

end OperatorConsole
