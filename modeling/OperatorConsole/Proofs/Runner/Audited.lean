import OperatorConsole.Proofs.Registry.Kept
import OperatorConsole.Proofs.Runner.Clearance
import OperatorConsole.Proofs.Runner.Observed

/-!
# Audited runs

An orderly run always answers, and its sink is handed exactly one entry if the run became an
attempt and entries are wanted, and none otherwise.

## Steps of a run

Each end of a run is told apart by the facts that it adds: a reading of the timer, and an entry
where entries are wanted.  An attempt tells beforehand how the command was called.  From that
the facts of a whole run are put together.
-/

namespace OperatorConsole

open OperatorConsole.Action

/-- What an entry says of an attempt that was answered. -/
structure AuditEntry.Reports (entry : AuditEntry) (environment : String) (attempt : Attempt)
    (response : RunResponse) : Prop where
  command_eq : entry.command = attempt.commandName
  options_eq : entry.options = attempt.options
  user_eq : entry.user = attempt.user
  exitCode_eq : entry.exitCode = response.exitCode
  output_eq : entry.output = Report.plainText response.output
  elapsedSeconds_eq : entry.elapsedSeconds = response.elapsedSeconds
  environment_eq : entry.environment = environment

namespace Runner

/-- Whether attempts leave entries. -/
def audits (runner : Runner σ) : Bool :=
  runner.logExecutions && runner.sink.isSome

/-- How an attempt ends with an exit code, and what is told then. -/
inductive Ended (runner : Runner σ) (attempt : Attempt) (code : Number) :
    List RunFact -> Except Failure RunResponse -> Prop where
  | recorded {time entry outcome response} (haudits : runner.audits = true)
      (hcode : response.exitCode = code)
      (hentry : entry.Reports runner.environment attempt response) :
      Ended runner attempt code [.timed time, .handed entry outcome] (.ok response)
  | unrecorded {time response} (haudits : runner.audits = false)
      (hcode : response.exitCode = code) :
      Ended runner attempt code [.timed time] (.ok response)

/-- How a command is called with options, and what comes of it. -/
inductive Performed (options : Value) (context : CommandContext) :
    List RunFact -> Except Failure CommandResult -> Prop where
  | rejected {failure} (hplain : failure.isPlain = true) :
      Performed options context [.validated options (.error failure)] (.error failure)
  | failed {failure} (hplain : failure.isPlain = true) :
      Performed options context
        [.validated options (.ok ()), .executed options context (.error failure)] (.error failure)
  | unanswered :
      Performed options context
        [.validated options (.ok ()), .executed options context (.ok none)] (.error noResult)
  | answered (result : CommandResult) :
      Performed options context
        [.validated options (.ok ()), .executed options context (.ok (some result))] (.ok result)

def codeOf : Except Failure CommandResult -> Number
  | .ok result => (Ending.mk "" result.exitCode result.error).effectiveExitCode
  | .error _ => 1

/-- How a run goes, with what is told of it. -/
inductive Ran (runner : Runner σ) (request : RunRequest) (user : Operator) :
    List RunFact -> Except Failure RunResponse -> Prop where
  | refused {first last response}
      (hrefused : runner.enabled = false ∨ runner.registry.get? request.commandName = none)
      (hcode : response.exitCode = 1) :
      Ran runner request user [.timed first, .timed last] (.ok response)
  | uncleared {command startedAt time told result}
      (henabled : runner.enabled = true)
      (hregistered : runner.registry.get? request.commandName = some command)
      (huncleared : ¬ Cleared runner request command)
      (hended : Ended runner ⟨command.name, request.options, user, startedAt⟩ 1 told result) :
      Ran runner request user (.timed time :: told) result
  | carriedOut {command values options context startedAt time performed outcome told result}
      (hcleared : Cleared runner request command)
      (hvalues : Options.given request.options command.descriptor.options = .ok values)
      (hoptions : options = (Options.applyDefaults values command.descriptor.options).toValue)
      (hperformed : Performed options context performed outcome)
      (hended : Ended runner ⟨command.name, options, user, startedAt⟩ (codeOf outcome) told
        result) :
      Ran runner request user (.timed time :: (performed ++ told)) result

variable (runner : Runner σ)

/-! ## Ends of a run -/

theorem observed_timer_tells :
    Tells RunFact.IsOrderly
      (fun told result => exists time, result = .ok time ∧ told = [.timed (.ok time)] ∧
        (Calendar.milliseconds? time).isSome)
      runner.observed.timer := by
  apply Tells.observe
  rintro result ⟨time, hresult, hvalid⟩
  exact ⟨time, hresult, by rw [hresult], hvalid⟩

theorem record_extends (entry : AuditEntry) : Extends (runner.observed.record entry) :=
  Agree.extends fun _ hlasting => (hlasting.runner_keeps runner).alikeInEnds.agree_record entry

theorem finish_extends (attempt : Attempt) (ending : Ending) :
    Extends (runner.observed.finish attempt ending) :=
  Agree.extends fun _ hlasting =>
    (hlasting.runner_keeps runner).alikeInEnds.agree_finish attempt ending

theorem record_tells (entry : AuditEntry) :
    Tells RunFact.IsOrderly
      (fun told result => result = .ok () ∧
        ((runner.audits = true ∧ exists outcome, told = [.handed entry outcome]) ∨
          (runner.audits = false ∧ told = [])))
      (runner.observed.record entry) := by
  have hsink : runner.observed.sink =
      runner.sink.map fun sink entry => observe (.handed entry) (sink entry) := rfl
  have hlog : runner.observed.logExecutions = runner.logExecutions := rfl
  unfold record audits
  rw [hsink, hlog]
  cases runner.logExecutions with
  | false => exact Tells.pure ⟨rfl, Or.inr ⟨rfl, rfl⟩⟩
  | true =>
      cases runner.sink with
      | none => exact Tells.pure ⟨rfl, Or.inr ⟨rfl, rfl⟩⟩
      | some sink =>
          have hhanded : Tells RunFact.IsOrderly
              (fun told result => told = [.handed entry result] ∧ FailsPlainly result)
              (observe (.handed entry) (sink entry)) :=
            Tells.observe _ fun result horderly => ⟨rfl, horderly⟩
          refine hhanded.attempt.bind ?_ ?_ ?_
          · intro outcome
            cases outcome with
            | ok done => exact Extends.settle _
            | error failure => exact (Extends.settle _).bind fun _ => Extends.log _
          · rintro told outcome ⟨result, hsame, htold, hplain⟩
            cases hsame
            rw [htold]
            cases outcome with
            | ok done => exact Tells.pure ⟨rfl, Or.inl ⟨rfl, _, rfl⟩⟩
            | error failure =>
                rcases Failure.message_of_plain (hplain failure rfl) with ⟨message, hmessage⟩
                dsimp only [messageOf]
                rw [hmessage, settle_ok_bind]
                exact Tells.silent (silent_log _) fun _ => ⟨rfl, Or.inl ⟨rfl, _, rfl⟩⟩
          · rintro told failure ⟨result, hsame, _⟩
            cases hsame

theorem silent_noteSlow (name : String) (elapsed : Number) :
    Silent (runner.observed.noteSlow name elapsed) := by
  unfold noteSlow
  cases runner.observed.maxExecutionTimeSeconds with
  | none => exact fun s => ⟨⟨(), rfl⟩, rfl⟩
  | some limit =>
      dsimp only
      split
      · exact silent_log _
      · exact fun s => ⟨⟨(), rfl⟩, rfl⟩

theorem finish_tells (attempt : Attempt) (ending : Ending) :
    Tells RunFact.IsOrderly (Ended runner attempt ending.effectiveExitCode)
      (runner.observed.finish attempt ending) := by
  apply runner.observed_timer_tells.bind
  · intro completedAt
    refine (Extends.settle _).bind fun footer => ?_
    refine (runner.silent_noteSlow _ _).extends.bind fun _ => ?_
    exact (runner.record_extends _).bind fun _ => Extends.settle _
  · rintro told completedAt ⟨time, hsame, htold, hvalid⟩
    cases hsame
    have hfoot : exists text, Report.Footer.text ⟨completedAt,
        Calendar.elapsedSeconds attempt.startedAt completedAt, ending.exitCode, ending.error⟩ =
          .ok text :=
      Report.Footer.text_of_valid hvalid
    rcases hfoot with ⟨footer, hfooter⟩
    dsimp only
    rw [hfooter, settle_ok_bind]
    apply Tells.after (runner.silent_noteSlow _ _)
    intro _
    apply (runner.record_tells _).bind
    · intro _
      exact Extends.settle _
    · rintro more done ⟨_, ⟨haudits, outcome, hmore⟩ | ⟨haudits, hmore⟩⟩
      · apply Tells.pure
        rw [htold, hmore]
        exact .recorded haudits rfl ⟨rfl, rfl, rfl, rfl, rfl, rfl, rfl⟩
      · apply Tells.pure
        rw [htold, hmore]
        exact .unrecorded haudits rfl
    · rintro more failure ⟨hsame, _⟩
      cases hsame
  · rintro told failure ⟨time, hsame, _⟩
    cases hsame

theorem finish_failed_tells (attempt : Attempt) (body message : String) :
    Tells RunFact.IsOrderly (Ended runner attempt 1)
      (runner.observed.finish attempt (.failed body message)) := by
  rw [← Ending.failed_code body message]
  exact runner.finish_tells attempt _

theorem refuse_tells (name : String) (failure : CommandFailure) (startedAt : Number) :
    Tells RunFact.IsOrderly
      (fun told result => exists time response, told = [.timed time] ∧ result = .ok response ∧
        response.exitCode = 1)
      (runner.observed.refuse name failure startedAt) := by
  apply runner.observed_timer_tells.bind
  · intro completedAt
    exact (Extends.log _).bind fun _ => (Extends.settle _).bind fun _ => Extends.settle _
  · rintro told completedAt ⟨time, hsame, htold, _⟩
    cases hsame
    apply Tells.after (silent_log _)
    intro _
    exact Tells.pure ⟨_, _, by rw [htold]; rfl, rfl, rfl⟩
  · rintro told failure ⟨time, hsame, _⟩
    cases hsame

/-! ## The attempt itself -/

theorem perform_tells (command : Command σ) (options : Value) (context : CommandContext) :
    Tells RunFact.IsOrderly (Performed options context)
      (perform command.observed options context) := by
  have hvalidated : Tells RunFact.IsOrderly
      (fun told result => told = [.validated options result] ∧ FailsPlainly result)
      (command.observed.validate options) :=
    Tells.observe _ fun result horderly => ⟨rfl, horderly⟩
  have hexecuted : Tells RunFact.IsOrderly
      (fun told result => told = [.executed options context result] ∧ FailsPlainly result)
      (command.observed.execute options context) :=
    Tells.observe _ fun result horderly => ⟨rfl, horderly⟩
  apply hvalidated.bind
  · intro _
    apply (Extends.observe _ _).bind
    intro answer
    cases answer with
    | some result => exact Extends.settle _
    | none => exact Extends.settle _
  · rintro told done ⟨htold, _⟩
    rw [htold]
    apply hexecuted.bind
    · intro answer
      cases answer with
      | some result => exact Extends.settle _
      | none => exact Extends.settle _
    · rintro more answer ⟨hmore, _⟩
      rw [hmore]
      cases answer with
      | some result => exact Tells.pure (.answered result)
      | none => exact Tells.settle .unanswered
    · rintro more failure ⟨hmore, hplain⟩
      rw [hmore]
      exact .failed (hplain failure rfl)
  · rintro told failure ⟨htold, hplain⟩
    rw [htold]
    exact .rejected (hplain failure rfl)

theorem reportFailure_tells (attempt : Attempt) (header : String) {failure : Failure}
    (hplain : failure.isPlain = true) :
    Tells RunFact.IsOrderly (Ended runner attempt 1)
      (runner.observed.reportFailure attempt header failure) := by
  rcases Failure.message_of_plain hplain with ⟨message, hmessage⟩
  unfold reportFailure messageOf
  rw [hmessage, settle_ok_bind]
  apply Tells.after (silent_log _)
  intro _
  exact runner.finish_failed_tells attempt header message

theorem Performed.plain {options : Value} {context : CommandContext} {told : List RunFact}
    {failure : Failure} (hperformed : Performed options context told (.error failure)) :
    failure.isPlain = true := by
  cases hperformed with
  | rejected hplain => exact hplain
  | failed hplain => exact hplain
  | unanswered => rfl

theorem carryOut_tells (command : Command σ) (attempt : Attempt)
    (hvalid : (Calendar.milliseconds? attempt.startedAt).isSome)
    (hoptions : forall field, field ∈ attempt.options.fields -> Value.Answer field.2) :
    Tells RunFact.IsOrderly
      (fun told result => exists context performed outcome ended, told = performed ++ ended ∧
        Performed attempt.options context performed outcome ∧
        Ended runner attempt (codeOf outcome) ended result)
      (runner.observed.carryOut command.observed attempt) := by
  have hhead : exists text, Report.Header.text ⟨command.observed.name, attempt.user.shownName,
      runner.observed.environment, attempt.startedAt, attempt.options.fields⟩ = .ok text :=
    Report.Header.text_of_answers hvalid hoptions
  rcases hhead with ⟨header, hheader⟩
  unfold carryOut
  rw [hheader, settle_ok_bind]
  apply (perform_tells command attempt.options _).attempt.bind
  · intro outcome
    cases outcome with
    | ok result => exact runner.finish_extends attempt _
    | error failure =>
        exact Agree.extends fun _ hlasting =>
          (hlasting.runner_keeps runner).alikeInEnds.agree_reportFailure attempt header failure
  · rintro performed outcome ⟨_, hsame, hperformed⟩
    cases hsame
    cases outcome with
    | ok result =>
        apply (runner.finish_tells attempt _).mono
        intro ended response hended
        exact ⟨_, performed, _, ended, rfl, hperformed, hended⟩
    | error failure =>
        apply (runner.reportFailure_tells attempt header hperformed.plain).mono
        intro ended response hended
        exact ⟨_, performed, _, ended, rfl, hperformed, hended⟩
  · rintro told failure ⟨_, hsame, _⟩
    cases hsame

/-! ## Whole runs -/

theorem not_cleared_of_ineligible {request : RunRequest} {command : Command σ}
    (hineligible : (runner.decisionOn command).eligible = false) :
    ¬ Cleared runner request command := by
  intro hcleared
  have hallowed := (runner.gate.isEligible_iff _ _).mpr hcleared.allowed
  rw [← runner.gate.decide_eligible _ command.descriptor.explicitConfirmation] at hallowed
  unfold decisionOn at hineligible
  rw [hineligible] at hallowed
  cases hallowed

theorem not_cleared_of_unconfirmed {request : RunRequest} {command : Command σ}
    (heligible : (runner.decisionOn command).eligible = true)
    (hrequired : (runner.decisionOn command).requiresConfirmation = true)
    (hunconfirmed : request.isConfirmed = false) :
    ¬ Cleared runner request command := by
  intro hcleared
  have hallowed :
      runner.gate.isEligible command.descriptor.riskLevel runner.environment = true := by
    rw [← runner.gate.decide_eligible]
    exact heligible
  have hconfirmed := hcleared.confirmed ((Gate.decide_requiresConfirmation hallowed).mp hrequired)
  rw [RunRequest.isConfirmed, hconfirmed] at hunconfirmed
  cases hunconfirmed

theorem refuse_extends (name : String) (failure : CommandFailure) (startedAt : Number) :
    Extends (runner.observed.refuse name failure startedAt) :=
  Agree.extends fun _ hlasting =>
    (hlasting.runner_keeps runner).alikeInEnds.agree_refuse name failure startedAt

theorem carryOut_extends (command : Command σ) (attempt : Attempt) :
    Extends (runner.observed.carryOut command.observed attempt) :=
  Agree.extends fun _ hlasting =>
    (hlasting.runner_keeps runner).alikeInEnds.agree_carryOut
      (hlasting.command_keeps command).alike attempt

theorem attend_extends (command : Command σ) (request : RunRequest) (user : Operator)
    (startedAt : Number) :
    Extends (runner.observed.attend command.observed request user startedAt) := by
  rcases runner.observed.decision_cases command.observed request with
    hineligible | ⟨heligible, hrequired, hunconfirmed⟩ | ⟨heligible, hconfirmed⟩
  · rw [attend_ineligible _ _ user startedAt hineligible]
    exact (Extends.log _).bind fun _ => runner.finish_extends _ _
  · rw [attend_unconfirmed _ _ user startedAt heligible hrequired hunconfirmed]
    exact runner.finish_extends _ _
  · rw [attend_cleared _ _ user startedAt heligible hconfirmed]
    exact (Extends.settle _).bind fun _ => runner.carryOut_extends _ _

section Request

variable {request : RunRequest} (hanswers : request.options.isMissing = false)
  (hdata : request.options.Data)

include hanswers hdata

theorem attend_tells {command : Command σ} (user : Operator) {startedAt : Number}
    (henabled : runner.enabled = true)
    (hregistered : runner.registry.get? request.commandName = some command)
    (hdefaults : forall o, o ∈ command.descriptor.options ->
      forall v, o.default = some v -> v.Data)
    (hvalid : (Calendar.milliseconds? startedAt).isSome) :
    Tells RunFact.IsOrderly (fun told result => forall time,
        Ran runner request user (.timed time :: told) result)
      (runner.observed.attend command.observed request user startedAt) := by
  have hrefused (huncleared : ¬ Cleared runner request command) (message : String) :
      Tells RunFact.IsOrderly (fun told result => forall time,
          Ran runner request user (.timed time :: told) result)
        (runner.observed.finish ⟨command.name, request.options, user, startedAt⟩
          (.failed "" message)) := by
    apply (runner.finish_failed_tells _ _ _).mono
    intro told result hended time
    exact .uncleared henabled hregistered huncleared hended
  rcases runner.decision_cases command request with
    hineligible | ⟨heligible, hrequired, hunconfirmed⟩ | ⟨heligible, hconfirmed⟩
  · rw [runner.observed.attend_ineligible command.observed user startedAt hineligible]
    apply Tells.after (silent_log _)
    intro _
    exact hrefused (runner.not_cleared_of_ineligible hineligible) _
  · rw [runner.observed.attend_unconfirmed command.observed user startedAt heligible hrequired
      hunconfirmed]
    exact hrefused (runner.not_cleared_of_unconfirmed heligible hrequired hunconfirmed) _
  · have hcleared := runner.cleared_of_decision henabled hregistered heligible hconfirmed
    rcases Options.given_of_data hdata hanswers command.descriptor.options with
      ⟨values, hvalues, hvaluesData⟩
    have hschema : command.observed.descriptor.options = command.descriptor.options := rfl
    rw [runner.observed.attend_cleared command.observed user startedAt heligible hconfirmed,
      hschema, hvalues, settle_ok_bind]
    have hcarriedOut := runner.carryOut_tells command
      ⟨command.name, (Options.applyDefaults values command.descriptor.options).toValue, user,
        startedAt⟩ hvalid (Options.applyDefaults_answers hvaluesData hdefaults)
    apply hcarriedOut.mono
    rintro told result ⟨context, performed, outcome, ended, rfl, hperformed, hended⟩ time
    exact .carriedOut hcleared hvalues rfl hperformed hended

/-- An orderly run goes in one of the ways in which a run can go. -/
theorem run_tells (user : Operator) (hreached : runner.registry.Reached) :
    Tells RunFact.IsOrderly (Ran runner request user) (runner.observed.run request user) := by
  have hname : runner.observed.enabled = runner.enabled := rfl
  rw [run_eq, runner.get?_observed, hname]
  apply runner.observed_timer_tells.bind
  · intro startedAt
    split
    · exact runner.refuse_extends _ _ _
    · cases runner.registry.get? request.commandName with
      | none => exact runner.refuse_extends _ _ _
      | some command => exact runner.attend_extends _ _ _ _
  · rintro told startedAt ⟨time, hsame, htold, hvalid⟩
    cases hsame
    rw [htold]
    cases henabled : runner.enabled with
    | false =>
        apply (runner.refuse_tells _ _ _).mono
        rintro more result ⟨last, response, hmore, rfl, hcode⟩
        rw [hmore]
        exact .refused (Or.inl henabled) hcode
    | true =>
        cases hregistered : runner.registry.get? request.commandName with
        | none =>
            apply (runner.refuse_tells _ _ _).mono
            rintro more result ⟨last, response, hmore, rfl, hcode⟩
            rw [hmore]
            exact .refused (Or.inr hregistered) hcode
        | some command =>
            have hdefaults : forall o, o ∈ command.descriptor.options ->
                forall v, o.default = some v -> v.Data := by
              intro o ho v hv
              rcases hreached.default (List.mem_of_find?_eq_some hregistered) ho hv with ⟨s, rfl⟩
              exact .scalar s
            apply (runner.attend_tells hanswers hdata user henabled hregistered hdefaults
              hvalid).mono
            intro more result hran
            exact hran _
  · rintro told failure ⟨time, hsame, _⟩
    cases hsame

end Request

/-! ## What the facts come to -/

def entriesOf (facts : List RunFact) : List AuditEntry :=
  facts.filterMap RunFact.entry?

/-- Whether a command was executed and came back with the exit code zero and no error. -/
def Succeeded (facts : List RunFact) : Prop :=
  exists options context result, .executed options context (.ok (some result)) ∈ facts ∧
    result.exitCode.equals 0 = true ∧ result.error = none

theorem one_not_zero : Number.equals 1 0 = false := by
  decide +kernel

theorem effectiveExitCode_zero_iff (ending : Ending) :
    ending.effectiveExitCode.equals 0 = true ↔
      ending.exitCode.equals 0 = true ∧ ending.error = none := by
  unfold Ending.effectiveExitCode
  cases ending.error with
  | none => simp
  | some error =>
      cases hzero : ending.exitCode.equals 0 with
      | true => simp [one_not_zero]
      | false => simp [hzero]

theorem Performed.zero_iff {options : Value} {context : CommandContext} {told : List RunFact}
    {outcome : Except Failure CommandResult} (hperformed : Performed options context told outcome) :
    (codeOf outcome).equals 0 = true ↔ Succeeded told := by
  cases hperformed with
  | rejected _ => simp [codeOf, Succeeded, one_not_zero]
  | failed _ => simp [codeOf, Succeeded, one_not_zero]
  | unanswered => simp [codeOf, Succeeded, one_not_zero]
  | answered result =>
      rw [codeOf, effectiveExitCode_zero_iff]
      constructor
      · intro hzero
        exact ⟨options, context, result, by simp, hzero⟩
      · rintro ⟨options', context', result', hmem, hzero⟩
        have hsame : result' = result := by
          simp only [List.mem_cons, List.not_mem_nil, reduceCtorEq, or_false, false_or,
            RunFact.executed.injEq, Except.ok.injEq, Option.some.injEq] at hmem
          exact hmem.2.2
        rw [← hsame]
        exact hzero

theorem Performed.entries {options : Value} {context : CommandContext} {told : List RunFact}
    {outcome : Except Failure CommandResult} (hperformed : Performed options context told outcome) :
    entriesOf told = [] := by
  cases hperformed with
  | _ => rfl

variable {runner} {attempt : Attempt} {code : Number} {told : List RunFact}
  {result : Except Failure RunResponse}

theorem Ended.not_succeeded (hended : Ended runner attempt code told result) :
    ¬ Succeeded told := by
  cases hended with
  | _ => simp [Succeeded]

theorem Ended.answers (hended : Ended runner attempt code told result) :
    exists response, result = .ok response ∧ response.exitCode = code ∧
      ((runner.audits = true ∧ exists entry, entriesOf told = [entry] ∧
          entry.Reports runner.environment attempt response) ∨
        (runner.audits = false ∧ entriesOf told = [])) := by
  cases hended with
  | recorded haudits hcode hentry =>
      exact ⟨_, rfl, hcode, Or.inl ⟨haudits, _, rfl, hentry⟩⟩
  | unrecorded haudits hcode => exact ⟨_, rfl, hcode, Or.inr ⟨haudits, rfl⟩⟩

/-! ## Sinks

Entries are handed over last of all, so a run that answers would have answered the same without
a sink. -/

def withoutSink (runner : Runner σ) : Runner σ :=
  { runner with sink := none }

theorem finish_matches (runner : Runner σ) (attempt : Attempt) (ending : Ending) :
    Matches (runner.finish attempt ending) (runner.withoutSink.finish attempt ending) := by
  refine Matches.bind fun completedAt => Matches.bind fun footer => Matches.bind fun _ => ?_
  intro s response hresponse
  rw [bind_apply] at hresponse
  rcases next_ok_of_ok hresponse with ⟨done, _, hgiven⟩
  have hunrecorded (entry : AuditEntry) :
      runner.withoutSink.record entry = pure () := by
    unfold record
    have hnone : runner.withoutSink.sink = none := rfl
    rw [hnone]
    cases runner.withoutSink.logExecutions with
    | _ => rfl
  rw [hunrecorded]
  exact hgiven

theorem carryOut_matches (runner : Runner σ) (command : Command σ) (attempt : Attempt) :
    Matches (runner.carryOut command attempt) (runner.withoutSink.carryOut command attempt) := by
  refine Matches.bind fun header => Matches.bind fun outcome => ?_
  cases outcome with
  | ok result => exact runner.finish_matches attempt _
  | error failure =>
      exact Matches.bind fun message => Matches.bind fun _ => runner.finish_matches attempt _

theorem attend_matches (runner : Runner σ) (command : Command σ) (request : RunRequest)
    (user : Operator) (startedAt : Number) :
    Matches (runner.attend command request user startedAt)
      (runner.withoutSink.attend command request user startedAt) := by
  rcases runner.decision_cases command request with
    hineligible | ⟨heligible, hrequired, hunconfirmed⟩ | ⟨heligible, hconfirmed⟩
  · rw [runner.attend_ineligible command user startedAt hineligible,
      runner.withoutSink.attend_ineligible command user startedAt hineligible]
    exact Matches.bind fun _ => runner.finish_matches _ _
  · rw [runner.attend_unconfirmed command user startedAt heligible hrequired hunconfirmed,
      runner.withoutSink.attend_unconfirmed command user startedAt heligible hrequired
        hunconfirmed]
    exact runner.finish_matches _ _
  · rw [runner.attend_cleared command user startedAt heligible hconfirmed,
      runner.withoutSink.attend_cleared command user startedAt heligible hconfirmed]
    exact Matches.bind fun values => runner.carryOut_matches _ _

theorem run_matches (runner : Runner σ) (request : RunRequest) (user : Operator) :
    Matches (runner.run request user) (runner.withoutSink.run request user) := by
  have henabled : runner.withoutSink.enabled = runner.enabled := rfl
  have hregistry : runner.withoutSink.registry = runner.registry := rfl
  rw [run_eq, run_eq, henabled, hregistry]
  apply Matches.bind
  intro startedAt
  split
  · exact Matches.refl _
  · cases runner.registry.get? request.commandName with
    | none => exact Matches.refl _
    | some command => exact runner.attend_matches command request user startedAt

/-! ## Audits -/

/-- What an orderly run that was answered comes to. -/
structure Audited (runner : Runner σ) (request : RunRequest) (facts : List RunFact)
    (response : RunResponse) : Prop where
  exitCode_zero : response.exitCode.equals 0 = true ↔ Succeeded facts
  unaudited : ¬ (runner.enabled = true ∧
      (exists command, runner.registry.get? request.commandName = some command) ∧
      runner.logExecutions = true ∧ runner.sink.isSome = true) ->
    entriesOf facts = []
  audited : forall command, runner.enabled = true ->
    runner.registry.get? request.commandName = some command ->
    runner.logExecutions = true -> runner.sink.isSome = true ->
      exists entry, entriesOf facts = [entry] ∧
        entry.command = command.name ∧
        entry.exitCode = response.exitCode ∧
        entry.elapsedSeconds = response.elapsedSeconds ∧
        entry.environment = runner.environment ∧
        entry.output = Report.plainText response.output ∧
        (¬ Cleared runner request command -> entry.options = request.options) ∧
        (Cleared runner request command ->
          exists values, Options.given request.options command.descriptor.options = .ok values ∧
            entry.options = (Options.applyDefaults values command.descriptor.options).toValue)

theorem audits_iff (runner : Runner σ) :
    runner.audits = true ↔ runner.logExecutions = true ∧ runner.sink.isSome = true :=
  Bool.and_eq_true_iff

theorem succeeded_append {facts later : List RunFact} :
    Succeeded (facts ++ later) ↔ Succeeded facts ∨ Succeeded later := by
  unfold Succeeded
  constructor
  · rintro ⟨options, context, result, hmem, hzero⟩
    rcases List.mem_append.mp hmem with hfirst | hlater
    · exact Or.inl ⟨options, context, result, hfirst, hzero⟩
    · exact Or.inr ⟨options, context, result, hlater, hzero⟩
  · rintro (⟨options, context, result, hmem, hzero⟩ | ⟨options, context, result, hmem, hzero⟩)
    · exact ⟨options, context, result, List.mem_append_left later hmem, hzero⟩
    · exact ⟨options, context, result, List.mem_append_right facts hmem, hzero⟩

theorem Ended.audited {runner : Runner σ} {request : RunRequest} {command : Command σ}
    {attempt : Attempt} {code : Number} {time : Except Failure Number}
    {called told : List RunFact} {result : Except Failure RunResponse}
    (henabled : runner.enabled = true)
    (hregistered : runner.registry.get? request.commandName = some command)
    (hname : attempt.commandName = command.name)
    (huncleared : ¬ Cleared runner request command -> attempt.options = request.options)
    (hcleared : Cleared runner request command ->
      exists values, Options.given request.options command.descriptor.options = .ok values ∧
        attempt.options = (Options.applyDefaults values command.descriptor.options).toValue)
    (hzero : code.equals 0 = true ↔ Succeeded called) (hcalled : entriesOf called = [])
    (hended : Ended runner attempt code told result) :
    exists response, result = .ok response ∧
      Audited runner request (.timed time :: (called ++ told)) response := by
  have htimed : ¬ Succeeded [.timed time] := by simp [Succeeded]
  have hentries : entriesOf (.timed time :: (called ++ told)) = entriesOf told := by
    have hsplit : entriesOf (called ++ told) = entriesOf called ++ entriesOf told :=
      List.filterMap_append
    rw [hcalled] at hsplit
    exact hsplit
  rcases hended.answers with ⟨response, rfl, hcode, htold⟩
  refine ⟨response, rfl, ?_⟩
  constructor
  case exitCode_zero =>
    rw [hcode, hzero, ← List.singleton_append, succeeded_append, succeeded_append]
    simp [htimed, hended.not_succeeded]
  case unaudited =>
    intro hnone
    rw [hentries]
    rcases htold with ⟨haudits, _⟩ | ⟨_, hnone⟩
    · exact absurd ⟨henabled, ⟨command, hregistered⟩, runner.audits_iff.mp haudits⟩ hnone
    · exact hnone
  case audited =>
    intro other _ hother hlog hsink
    rw [hregistered] at hother
    cases hother
    rw [hentries]
    rcases htold with ⟨_, entry, hentry, hreports⟩ | ⟨hsilent, _⟩
    · refine ⟨entry, hentry, ?_, hreports.exitCode_eq, hreports.elapsedSeconds_eq,
        hreports.environment_eq, hreports.output_eq, ?_, ?_⟩
      · rw [hreports.command_eq, hname]
      · intro hnot
        rw [hreports.options_eq, huncleared hnot]
      · intro hcleared'
        rw [hreports.options_eq]
        exact hcleared hcleared'
    · rw [runner.audits_iff.mpr ⟨hlog, hsink⟩] at hsilent
      cases hsilent

theorem Ran.audited {runner : Runner σ} {request : RunRequest} {user : Operator}
    {facts : List RunFact} {result : Except Failure RunResponse}
    (hran : Ran runner request user facts result) :
    exists response, result = .ok response ∧ Audited runner request facts response := by
  cases hran with
  | @refused first last response hrefused hcode =>
      refine ⟨response, rfl, ?_⟩
      constructor
      case exitCode_zero => simp [hcode, one_not_zero, Succeeded]
      case unaudited => exact fun _ => rfl
      case audited =>
        intro command henabled hregistered
        rcases hrefused with hdisabled | hunregistered
        · rw [henabled] at hdisabled
          cases hdisabled
        · rw [hregistered] at hunregistered
          cases hunregistered
  | uncleared henabled hregistered huncleared hended =>
      have hnothing : (1 : Number).equals 0 = true ↔ Succeeded [] := by
        simp [one_not_zero, Succeeded]
      exact hended.audited henabled hregistered rfl (fun _ => rfl)
        (fun hcleared => absurd hcleared huncleared) hnothing rfl
  | carriedOut hcleared hvalues hoptions hperformed hended =>
      exact hended.audited hcleared.enabled hcleared.registered rfl
        (fun huncleared => absurd hcleared huncleared) (fun _ => ⟨_, hvalues, hoptions⟩)
        hperformed.zero_iff hperformed.entries

end Runner

end OperatorConsole
