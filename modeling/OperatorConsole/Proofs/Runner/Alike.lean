import OperatorConsole.Proofs.Action.Contract
import OperatorConsole.Runner

/-!
# Runners alike

Two runners are alike if their parts do the same on related hosts.  Then their runs do the
same.  The ends of a run call no command, so they ask for less: only the timer and the sink
have to do the same.
-/

namespace OperatorConsole

open OperatorConsole.Action

/-- The commands say the same of themselves and do the same on related hosts. -/
structure Command.Alike (related : τ -> σ -> Prop) (command : Command τ) (other : Command σ) :
    Prop where
  descriptor_eq : command.descriptor = other.descriptor
  validate : forall options, Agree related (fun _ => True) (fun _ => True)
    (command.validate options) (other.validate options)
  execute : forall options context, Agree related (fun _ => True) (fun _ => True)
    (command.execute options context) (other.execute options context)

theorem Ending.failed_code (body message : String) :
    (Ending.failed body message).effectiveExitCode = 1 := by
  unfold Ending.failed Ending.effectiveExitCode
  split
  · rfl
  · rfl

namespace Runner

structure AlikeInEnds (related : τ -> σ -> Prop) (runner : Runner τ) (other : Runner σ) :
    Prop where
  environment_eq : runner.environment = other.environment
  logExecutions_eq : runner.logExecutions = other.logExecutions
  limit_eq : runner.maxExecutionTimeSeconds = other.maxExecutionTimeSeconds
  timer : Agree related (fun _ => True) (fun _ => True) runner.timer other.timer
  sink : (runner.sink = none ∧ other.sink = none) ∨
    exists sink sink', runner.sink = some sink ∧ other.sink = some sink' ∧
      forall entry, Agree related (fun _ => True) (fun _ => True) (sink entry) (sink' entry)

structure Alike (related : τ -> σ -> Prop) (runner : Runner τ) (other : Runner σ) : Prop
    extends AlikeInEnds related runner other where
  gate_eq : runner.gate = other.gate
  enabled_eq : runner.enabled = other.enabled
  command : forall name,
    (runner.registry.get? name = none ∧ other.registry.get? name = none) ∨
      exists command command', runner.registry.get? name = some command ∧
        other.registry.get? name = some command' ∧ command.Alike related command'

/-! ## Ends of a run -/

namespace AlikeInEnds

variable {related : τ -> σ -> Prop} {runner : Runner τ} {other : Runner σ}
  (halike : runner.AlikeInEnds related other)

include halike

theorem agree_record (entry : AuditEntry) :
    Agree related (fun _ => True) (fun _ => True) (runner.record entry) (other.record entry) := by
  unfold record
  rw [halike.logExecutions_eq]
  rcases halike.sink with ⟨hsink, hsink'⟩ | ⟨sink, sink', hsink, hsink', hagree⟩
  · rw [hsink, hsink']
    cases other.logExecutions with
    | false => exact Agree.pure trivial
    | true => exact Agree.pure trivial
  · rw [hsink, hsink']
    cases other.logExecutions with
    | false => exact Agree.pure trivial
    | true =>
        apply (hagree entry).attempt.bind
        intro outcome _
        cases outcome with
        | ok done => exact Agree.pure trivial
        | error failure =>
            apply (Agree.settle (Ends.trivial failure.message)).bind
            intro message _
            exact Agree.log _

theorem agree_noteSlow (name : String) (elapsed : Number) :
    Agree related (fun _ => True) (fun _ => True)
      (runner.noteSlow name elapsed) (other.noteSlow name elapsed) := by
  unfold noteSlow
  rw [halike.limit_eq]
  cases other.maxExecutionTimeSeconds with
  | none => exact Agree.pure trivial
  | some limit => exact Agree.ite (fun _ => Agree.log _) (fun _ => Agree.pure trivial)

theorem agree_finish (attempt : Attempt) (ending : Ending) :
    Agree related (fun response => response.exitCode = ending.effectiveExitCode)
      (fun _ => True) (runner.finish attempt ending) (other.finish attempt ending) := by
  unfold finish
  rw [halike.environment_eq]
  apply halike.timer.bind
  intro completedAt _
  apply (Agree.settle (Ends.trivial _)).bind
  intro footer _
  apply (halike.agree_noteSlow _ _).bind
  intro _ _
  apply (halike.agree_record _).bind
  intro _ _
  exact Agree.pure rfl

theorem agree_finish_failed (attempt : Attempt) (body message : String) :
    Agree related (fun response => response.exitCode = 1) (fun _ => True)
      (runner.finish attempt (.failed body message))
      (other.finish attempt (.failed body message)) := by
  rw [← Ending.failed_code body message]
  exact halike.agree_finish attempt (.failed body message)

theorem agree_refuse (name : String) (failure : CommandFailure) (startedAt : Number) :
    Agree related (fun response => response.exitCode = 1) (fun _ => True)
      (runner.refuse name failure startedAt) (other.refuse name failure startedAt) := by
  apply halike.timer.bind
  intro completedAt _
  apply (Agree.log _).bind
  intro _ _
  apply (Agree.settle (Ends.trivial _)).bind
  intro footer _
  exact Agree.pure rfl

theorem agree_reportFailure (attempt : Attempt) (header : String) (failure : Failure) :
    Agree related (fun response => response.exitCode = 1) (fun _ => True)
      (runner.reportFailure attempt header failure)
      (other.reportFailure attempt header failure) := by
  apply (Agree.settle (Ends.trivial failure.message)).bind
  intro message _
  apply (Agree.log _).bind
  intro _ _
  exact halike.agree_finish_failed attempt header message

end AlikeInEnds

/-! ## Runs -/

/-- What a run does for a registered command, once it has begun. -/
def attend (runner : Runner σ) (command : Command σ) (request : RunRequest) (user : Operator)
    (startedAt : Number) : Action σ RunResponse :=
  let attempt : Attempt := ⟨command.name, request.options, user, startedAt⟩
  let decision := runner.decisionOn command
  if !decision.eligible then do
    Action.warn "Command not eligible"
      [("name", .text command.name), ("reasons", .list (decision.reasons.map .text))]
    runner.finish attempt
      (.failed "" (CommandFailure.message command.name (.notEligible runner.environment)))
  else if decision.requiresConfirmation && !request.isConfirmed then
    runner.finish attempt
      (.failed "" (CommandFailure.message command.name .confirmationRequired))
  else do
    let values ← Action.settle (Options.given request.options command.descriptor.options)
    let options := Options.applyDefaults values command.descriptor.options
    runner.carryOut command { attempt with options := options.toValue }

theorem run_eq (runner : Runner σ) (request : RunRequest) (user : Operator) :
    runner.run request user = (do
      let startedAt ← runner.timer
      if !runner.enabled then runner.refuse request.commandName .disabled startedAt
      else
        match runner.registry.get? request.commandName with
        | none => runner.refuse request.commandName .notFound startedAt
        | some command => runner.attend command request user startedAt) := rfl

theorem run_registered {runner : Runner σ} {request : RunRequest} {command : Command σ}
    (henabled : runner.enabled = true)
    (hregistered : runner.registry.get? request.commandName = some command) (user : Operator) :
    runner.run request user = (do
      let startedAt ← runner.timer
      runner.attend command request user startedAt) := by
  rw [run_eq, henabled, hregistered]
  rfl

section Attend

variable (runner : Runner σ) (command : Command σ) (request : RunRequest)

/-- An attempt is stopped by the gate, or for want of a confirmation, or not at all. -/
theorem decision_cases :
    (runner.decisionOn command).eligible = false ∨
      ((runner.decisionOn command).eligible = true ∧
        (runner.decisionOn command).requiresConfirmation = true ∧ request.isConfirmed = false) ∨
      ((runner.decisionOn command).eligible = true ∧
        ((runner.decisionOn command).requiresConfirmation = true ->
          request.isConfirmed = true)) := by
  cases (runner.decisionOn command).eligible with
  | false => simp
  | true =>
      cases (runner.decisionOn command).requiresConfirmation with
      | false => simp
      | true =>
          cases request.isConfirmed with
          | false => simp
          | true => simp

variable {request} (user : Operator) (startedAt : Number)

theorem attend_ineligible (hineligible : (runner.decisionOn command).eligible = false) :
    runner.attend command request user startedAt = (do
      Action.warn "Command not eligible"
        [("name", .text command.name),
          ("reasons", .list ((runner.decisionOn command).reasons.map .text))]
      runner.finish ⟨command.name, request.options, user, startedAt⟩
        (.failed "" (CommandFailure.message command.name (.notEligible runner.environment)))) := by
  unfold attend
  dsimp only
  rw [hineligible]
  rfl

theorem attend_unconfirmed (heligible : (runner.decisionOn command).eligible = true)
    (hrequired : (runner.decisionOn command).requiresConfirmation = true)
    (hunconfirmed : request.isConfirmed = false) :
    runner.attend command request user startedAt =
      runner.finish ⟨command.name, request.options, user, startedAt⟩
        (.failed "" (CommandFailure.message command.name .confirmationRequired)) := by
  unfold attend
  dsimp only
  rw [heligible, hrequired, hunconfirmed]
  rfl

theorem attend_cleared (heligible : (runner.decisionOn command).eligible = true)
    (hconfirmed : (runner.decisionOn command).requiresConfirmation = true ->
      request.isConfirmed = true) :
    runner.attend command request user startedAt = (do
      let values ← Action.settle (Options.given request.options command.descriptor.options)
      runner.carryOut command ⟨command.name,
        (Options.applyDefaults values command.descriptor.options).toValue, user, startedAt⟩) := by
  have hpassed : ((runner.decisionOn command).requiresConfirmation && !request.isConfirmed) =
      false := by
    cases hrequired : (runner.decisionOn command).requiresConfirmation with
    | false => rfl
    | true => simp [hconfirmed hrequired]
  unfold attend
  dsimp only
  rw [heligible, hpassed]
  rfl

end Attend

variable {related : τ -> σ -> Prop} {runner : Runner τ} {other : Runner σ}

theorem agree_perform {command : Command τ} {command' : Command σ}
    (hcommand : command.Alike related command') (options : Value) (context : CommandContext) :
    Agree related (fun _ => True) (fun _ => True)
      (perform command options context) (perform command' options context) := by
  apply (hcommand.validate options).bind
  intro _ _
  apply (hcommand.execute options context).bind
  intro answer _
  cases answer with
  | some result => exact Agree.pure trivial
  | none => exact Agree.throw trivial

theorem AlikeInEnds.agree_carryOut (halike : runner.AlikeInEnds related other)
    {command : Command τ} {command' : Command σ} (hcommand : command.Alike related command')
    (attempt : Attempt) :
    Agree related (fun _ => True) (fun _ => True)
      (runner.carryOut command attempt) (other.carryOut command' attempt) := by
  unfold carryOut Command.name
  rw [halike.environment_eq, hcommand.descriptor_eq]
  apply (Agree.settle (Ends.trivial _)).bind
  intro header _
  apply (agree_perform hcommand _ _).attempt.bind
  intro outcome _
  cases outcome with
  | ok result => exact (halike.agree_finish attempt _).mono (fun _ _ => trivial) (fun _ h => h)
  | error failure =>
      exact (halike.agree_reportFailure attempt header failure).mono (fun _ _ => trivial)
        (fun _ h => h)

theorem Alike.agree_run (halike : runner.Alike related other) (request : RunRequest)
    (user : Operator) :
    Agree related (fun _ => True) (fun _ => True)
      (runner.run request user) (other.run request user) := by
  have hrefuse : forall name failure startedAt,
      Agree related (fun _ => True) (fun _ => True)
        (runner.refuse name failure startedAt) (other.refuse name failure startedAt) := by
    intro name failure startedAt
    exact (halike.agree_refuse name failure startedAt).mono (fun _ _ => trivial) (fun _ h => h)
  have hfailed : forall attempt body message,
      Agree related (fun _ => True) (fun _ => True)
        (runner.finish attempt (.failed body message))
        (other.finish attempt (.failed body message)) := by
    intro attempt body message
    exact (halike.agree_finish attempt _).mono (fun _ _ => trivial) (fun _ h => h)
  unfold run
  rw [halike.enabled_eq]
  apply halike.timer.bind
  intro startedAt _
  apply Agree.ite (fun _ => hrefuse _ _ _)
  intro _
  rcases halike.command request.commandName with
    ⟨hget, hget'⟩ | ⟨command, command', hget, hget', hcommand⟩
  · rw [hget, hget']
    exact hrefuse _ _ _
  · have hdecision : runner.decisionOn command = other.decisionOn command' := by
      unfold decisionOn
      rw [halike.gate_eq, halike.environment_eq, hcommand.descriptor_eq]
    have hname : command.name = command'.name := congrArg Descriptor.name hcommand.descriptor_eq
    rw [hget, hget']
    dsimp only
    rw [hdecision, hname, halike.environment_eq, hcommand.descriptor_eq]
    refine Agree.ite ?_ ?_
    · intro _
      apply (Agree.log _).bind
      intro _ _
      exact hfailed _ _ _
    · intro _
      apply Agree.ite (fun _ => hfailed _ _ _)
      intro _
      apply (Agree.settle (Ends.trivial _)).bind
      intro values _
      exact halike.agree_carryOut hcommand _

end Runner

end OperatorConsole
