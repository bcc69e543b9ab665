import OperatorConsole.Proofs.Registry.Kept
import OperatorConsole.Proofs.Runner.Clearance
import OperatorConsole.Proofs.Runner.Observed

/-!
# What the catalog promises

The catalog lists the commands that may run here and says which of them have to be confirmed.
Running them keeps these promises: a command that is listed is not refused once it is confirmed,
one that is not listed is, and without a confirmation just those are refused that are listed as
needing one.

## Refusals

A refusal shows an error and nothing else.  Whatever a command shows stands behind a head, which
no refusal has.
-/

namespace OperatorConsole

open OperatorConsole.Action

/-- The response shows nothing but that the command was refused. -/
def RunResponse.IsRefusal (response : RunResponse) (name : String) (failure : CommandFailure) :
    Prop :=
  response.exitCode = 1 ∧ exists completedAt, Report.Footer.text
    ⟨completedAt, response.elapsedSeconds, 1, some (failure.message name)⟩ = .ok response.output

namespace Runner

/-! ## Entries -/

theorem ofSpec_constant {ask : String -> Action σ (List Value)}
    (hask : forall name, Constant (ask name)) (o : OptionSpec) :
    Constant (CatalogOption.ofSpec ask o) := by
  have hchoices : Constant (o.currentChoices ask) := by
    unfold OptionSpec.currentChoices
    cases o.supplier with
    | some name => exact hask name
    | none => exact Constant.pure _
  unfold CatalogOption.ofSpec
  dsimp only
  split
  · exact hchoices.bind fun _ => Constant.pure _
  · exact Constant.pure _

theorem catalogEntry_constant {command : Command σ}
    (hsupply : forall name, Constant (command.supply name)) (confirmation : Bool) :
    Constant (command.catalogEntry confirmation) := by
  have hoptions :
      Constant (command.descriptor.options.mapM (CatalogOption.ofSpec command.supply)) :=
    Constant.mapM fun o _ => ofSpec_constant hsupply o
  exact hoptions.bind fun _ => Constant.pure _

theorem catalogEntry_shows {command : Command σ} {confirmation : Bool} {s : Session σ}
    {entry : CatalogEntry} (hentry : (command.catalogEntry confirmation s).1 = .ok entry) :
    entry.name = command.name ∧ entry.requiresConfirmation = confirmation := by
  rcases bind_ok hentry with ⟨options, _, _, hgiven⟩
  cases hgiven
  exact ⟨rfl, rfl⟩

variable (runner : Runner σ)

/-- The entries show the names of the commands that may run and whether they need confirming. -/
theorem catalog_shows {s : Session σ} {entries : List CatalogEntry}
    (hcatalog : (runner.catalog s).1 = .ok entries) :
    entries.map (fun entry => (entry.name, entry.requiresConfirmation)) =
      (eligibleCommands runner.gate runner.registry runner.environment).map fun command =>
        (command.name, (runner.decisionOn command).requiresConfirmation) := by
  apply mapM_shows _ hcatalog
  intro command t entry hentry
  rcases catalogEntry_shows hentry with ⟨hname, hconfirmation⟩
  rw [hname, hconfirmation]

/-! ## Responses -/

variable {runner}

theorem finish_response {attempt : Attempt} {ending : Ending} {s : Session σ}
    {response : RunResponse} (hresponse : (runner.finish attempt ending s).1 = .ok response) :
    response.exitCode = ending.effectiveExitCode ∧ exists completedAt footer,
      Report.Footer.text ⟨completedAt, response.elapsedSeconds, ending.exitCode, ending.error⟩ =
          .ok footer ∧
        response.output = ending.body ++ footer := by
  rcases bind_ok hresponse with ⟨completedAt, _, _, hresponse⟩
  rcases bind_ok hresponse with ⟨footer, _, hfooter, hresponse⟩
  rcases bind_ok hresponse with ⟨_, _, _, hresponse⟩
  rcases bind_ok hresponse with ⟨_, _, _, hgiven⟩
  rw [settle_apply] at hfooter
  rw [pure_apply] at hgiven
  have hgiven := Except.ok.inj hgiven
  subst hgiven
  dsimp only
  exact ⟨rfl, completedAt, footer, hfooter, rfl⟩

theorem refusal_of_finish {attempt : Attempt} {name : String} {failure : CommandFailure}
    {s : Session σ} {response : RunResponse}
    (hresponse : (runner.finish attempt (.failed "" (failure.message name)) s).1 =
      .ok response) :
    response.IsRefusal name failure := by
  rcases finish_response hresponse with ⟨hcode, completedAt, footer, hfooter, houtput⟩
  constructor
  · rw [hcode, Ending.failed_code]
  · refine ⟨completedAt, ?_⟩
    have hbody : response.output = footer := by
      rw [houtput]
      exact String.empty_append
    rw [hbody]
    exact hfooter

theorem not_refusal_of_head {response : RunResponse} {header rest : String}
    (hheader : header.toList.head? = some '╭') (houtput : response.output = header ++ rest)
    (name : String) (failure : CommandFailure) : ¬ response.IsRefusal name failure := by
  rintro ⟨_, completedAt, hfooter⟩
  have hfoot := Report.Footer.head_text rfl hfooter
  rw [houtput, String.toList_append, List.head?_append, hheader] at hfoot
  cases hfoot

theorem not_refusal_of_carryOut {command : Command σ} {attempt : Attempt} {s : Session σ}
    {response : RunResponse} (hresponse : (runner.carryOut command attempt s).1 = .ok response)
    (name : String) (failure : CommandFailure) : ¬ response.IsRefusal name failure := by
  rcases bind_ok hresponse with ⟨header, _, hheader, hresponse⟩
  have hhead := Report.Header.head_text hheader
  rcases bind_ok hresponse with ⟨outcome, _, _, hresponse⟩
  cases outcome with
  | ok result =>
      rcases finish_response hresponse with ⟨_, _, footer, _, houtput⟩
      apply not_refusal_of_head hhead
      rw [houtput, String.append_assoc]
  | error thrown =>
      rcases bind_ok hresponse with ⟨message, _, _, hresponse⟩
      rcases bind_ok hresponse with ⟨_, _, _, hresponse⟩
      rcases finish_response hresponse with ⟨_, _, footer, _, houtput⟩
      exact not_refusal_of_head hhead houtput name failure

/-! ## Runs -/

section Attend

variable {command : Command σ} {request : RunRequest} {user : Operator} {startedAt : Number}
  {s : Session σ} {response : RunResponse}
  (hresponse : (runner.attend command request user startedAt s).1 = .ok response)

include hresponse

theorem refused_of_ineligible (hineligible : (runner.decisionOn command).eligible = false) :
    response.IsRefusal command.name (.notEligible runner.environment) := by
  rw [runner.attend_ineligible command user startedAt hineligible] at hresponse
  rcases bind_ok hresponse with ⟨_, _, _, hresponse⟩
  exact refusal_of_finish hresponse

theorem refused_of_unconfirmed (heligible : (runner.decisionOn command).eligible = true)
    (hrequired : (runner.decisionOn command).requiresConfirmation = true)
    (hunconfirmed : request.isConfirmed = false) :
    response.IsRefusal command.name .confirmationRequired := by
  rw [runner.attend_unconfirmed command user startedAt heligible hrequired hunconfirmed]
    at hresponse
  exact refusal_of_finish hresponse

theorem not_refused_of_cleared (heligible : (runner.decisionOn command).eligible = true)
    (hconfirmed : (runner.decisionOn command).requiresConfirmation = true ->
      request.isConfirmed = true)
    (name : String) (failure : CommandFailure) : ¬ response.IsRefusal name failure := by
  rw [runner.attend_cleared command user startedAt heligible hconfirmed] at hresponse
  rcases bind_ok hresponse with ⟨values, _, _, hresponse⟩
  exact not_refusal_of_carryOut hresponse name failure

end Attend

theorem run_attends {request : RunRequest} {command : Command σ}
    (henabled : runner.enabled = true)
    (hregistered : runner.registry.get? request.commandName = some command) {user : Operator}
    {s : Session σ} {response : RunResponse}
    (hresponse : (runner.run request user s).1 = .ok response) :
    exists startedAt t, (runner.attend command request user startedAt t).1 = .ok response := by
  rw [run_registered henabled hregistered user] at hresponse
  rcases bind_ok hresponse with ⟨startedAt, t, _, hresponse⟩
  exact ⟨startedAt, t, hresponse⟩

/-! ## Refusals are answered -/

/-- The timer and the sink never keep a run from being answered. -/
structure Attended (runner : Runner σ) : Prop where
  timer : forall s, exists time, (runner.timer s).1 = .ok time
  sink : forall sink, runner.sink = some sink -> forall entry s, FailsPlainly (sink entry s).1

theorem Behaves.attended {runner : Runner σ} (hbehaves : runner.Behaves) : runner.Attended := by
  constructor
  case timer =>
    intro s
    rcases hbehaves.timer s with ⟨time, htime, _⟩
    exact ⟨time, htime⟩
  case sink => exact hbehaves.sink

theorem Attended.record_gives (hattended : runner.Attended) (entry : AuditEntry) :
    Gives (runner.record entry) := by
  unfold record
  cases runner.logExecutions with
  | false => exact Gives.pure ()
  | true =>
      cases hsink : runner.sink with
      | none => exact Gives.pure ()
      | some sink =>
          intro s
          dsimp only
          rw [bind_apply, attempt_apply, next_ok]
          cases houtcome : (sink entry s).1 with
          | ok done => exact ⟨(), rfl⟩
          | error failure =>
              have hplain := hattended.sink sink hsink entry s failure houtcome
              rcases Failure.message_of_plain hplain with ⟨message, hmessage⟩
              dsimp only [messageOf]
              rw [hmessage]
              exact ⟨(), rfl⟩

theorem noteSlow_gives (runner : Runner σ) (name : String) (elapsed : Number) :
    Gives (runner.noteSlow name elapsed) := by
  unfold noteSlow
  cases runner.maxExecutionTimeSeconds with
  | none => exact Gives.pure ()
  | some limit =>
      dsimp only
      split
      · exact fun s => ⟨(), rfl⟩
      · exact Gives.pure ()

theorem Attended.finish_gives (hattended : runner.Attended) (attempt : Attempt) (message : String) :
    Gives (runner.finish attempt (.failed "" message)) := by
  refine Gives.bind hattended.timer fun completedAt => ?_
  refine Gives.bind (fun s => ⟨_, rfl⟩) fun footer => ?_
  refine Gives.bind (runner.noteSlow_gives _ _) fun _ => ?_
  exact Gives.bind (hattended.record_gives _) fun _ => Gives.pure _

theorem Attended.run_gives (hattended : runner.Attended) {request : RunRequest}
    {command : Command σ} (henabled : runner.enabled = true)
    (hregistered : runner.registry.get? request.commandName = some command)
    (hrefused : (runner.decisionOn command).eligible = false ∨
      (runner.decisionOn command).requiresConfirmation = true ∧ request.isConfirmed = false)
    (user : Operator) : Gives (runner.run request user) := by
  rw [run_registered henabled hregistered user]
  apply Gives.bind hattended.timer
  intro startedAt
  have hlogged (entry : LogEntry) : Gives (Action.log entry : Action σ Unit) :=
    fun s => ⟨(), rfl⟩
  cases heligible : (runner.decisionOn command).eligible with
  | false =>
      rw [runner.attend_ineligible command user startedAt heligible]
      exact (hlogged _).bind fun _ => hattended.finish_gives _ _
  | true =>
      rcases hrefused with hineligible | ⟨hrequired, hunconfirmed⟩
      · rw [heligible] at hineligible
        cases hineligible
      · rw [runner.attend_unconfirmed command user startedAt heligible hrequired hunconfirmed]
        exact hattended.finish_gives _ _

/-! ## Promises -/

/-- What the entries of a catalog say of the runs of its runner. -/
structure Promised (runner : Runner σ) (entries : List CatalogEntry) : Prop where
  ordered : (entries.map CatalogEntry.name).Sublist runner.registry.names
  listed : forall command, command ∈ runner.registry.commands ->
    forall request user s response, request.commandName = command.name ->
      request.confirmed = .bool true -> (runner.run request user s).1 = .ok response ->
        (command.name ∈ entries.map CatalogEntry.name ↔
          ¬ response.IsRefusal command.name (.notEligible runner.environment))
  confirmation : forall command, command ∈ runner.registry.commands ->
    forall entry, entry ∈ entries -> entry.name = command.name ->
      forall request user s response, request.commandName = command.name ->
        request.confirmed ≠ .bool true -> (runner.run request user s).1 = .ok response ->
          (entry.requiresConfirmation = true ↔
            response.IsRefusal command.name .confirmationRequired)
  /-- A run that is to be refused comes to an answer, so that what is said above is about it. -/
  answered : runner.Attended -> forall command, command ∈ runner.registry.commands ->
    forall request user s, request.commandName = command.name ->
      (command.name ∉ entries.map CatalogEntry.name ∨
        (exists entry, entry ∈ entries ∧ entry.name = command.name ∧
          entry.requiresConfirmation = true) ∧ request.confirmed ≠ .bool true) ->
        exists response, (runner.run request user s).1 = .ok response
  policy : forall command, command ∈ runner.registry.requiringConfirmation ->
    runner.gate.isEligible command.descriptor.riskLevel runner.environment = true ->
      exists entry, entry ∈ entries ∧ entry.name = command.name ∧
        entry.requiresConfirmation = true

theorem isConfirmed_iff {request : RunRequest} :
    request.isConfirmed = true ↔ request.confirmed = .bool true :=
  decide_eq_true_iff

theorem policy_iff {d : Descriptor} :
    d.requiresConfirmation = true ↔ d.explicitConfirmation = true ∨ d.riskLevel ≠ .low := by
  simp [Descriptor.requiresConfirmation, OperatorConsole.requiresConfirmation]

section Shown

variable {entries : List CatalogEntry} {s : Session σ}
  (hcatalog : (runner.catalog s).1 = .ok entries)

include hcatalog

theorem catalog_names :
    entries.map CatalogEntry.name =
      (eligibleCommands runner.gate runner.registry runner.environment).map Command.name := by
  have hnames := congrArg (List.map Prod.fst) (runner.catalog_shows hcatalog)
  rw [List.map_map, List.map_map] at hnames
  exact hnames

/-- An entry is that of an eligible command, and every eligible command has one. -/
theorem catalog_entry_iff {name : String} {confirmation : Bool} :
    (exists entry, entry ∈ entries ∧ entry.name = name ∧
        entry.requiresConfirmation = confirmation) ↔
      exists command, command ∈ runner.registry.commands ∧
        (runner.decisionOn command).eligible = true ∧ command.name = name ∧
        (runner.decisionOn command).requiresConfirmation = confirmation := by
  have hshown : (name, confirmation) ∈
      entries.map (fun entry => (entry.name, entry.requiresConfirmation)) ↔
        (name, confirmation) ∈
          (eligibleCommands runner.gate runner.registry runner.environment).map fun command =>
            (command.name, (runner.decisionOn command).requiresConfirmation) := by
    rw [runner.catalog_shows hcatalog]
  simp only [List.mem_map, Prod.mk.injEq, eligibleCommands, List.mem_filter] at hshown
  unfold decisionOn
  unfold decisionOn at hshown
  simp only [Gate.decide_eligible, and_assoc] at hshown ⊢
  exact hshown

variable (hreached : runner.registry.Reached)

include hreached

theorem entry_of_registered {command : Command σ} (hmem : command ∈ runner.registry.commands)
    {confirmation : Bool} :
    (exists entry, entry ∈ entries ∧ entry.name = command.name ∧
        entry.requiresConfirmation = confirmation) ↔
      (runner.decisionOn command).eligible = true ∧
        (runner.decisionOn command).requiresConfirmation = confirmation := by
  rw [catalog_entry_iff hcatalog]
  constructor
  · rintro ⟨other, hother, heligible, hname, hconfirmation⟩
    have hfound := (Registry.get?_eq_some_iff hreached.names_nodup).mpr ⟨hother, hname⟩
    rw [(Registry.get?_eq_some_iff hreached.names_nodup).mpr ⟨hmem, rfl⟩] at hfound
    cases hfound
    exact ⟨heligible, hconfirmation⟩
  · rintro ⟨heligible, hconfirmation⟩
    exact ⟨command, hmem, heligible, rfl, hconfirmation⟩

theorem listed_iff {command : Command σ} (hmem : command ∈ runner.registry.commands) :
    command.name ∈ entries.map CatalogEntry.name ↔
      (runner.decisionOn command).eligible = true := by
  rw [List.mem_map]
  constructor
  · rintro ⟨entry, hentry, hname⟩
    exact ((entry_of_registered hcatalog hreached hmem).mp ⟨entry, hentry, hname, rfl⟩).1
  · intro heligible
    rcases (entry_of_registered hcatalog hreached hmem).mpr ⟨heligible, rfl⟩ with
      ⟨entry, hentry, hname, _⟩
    exact ⟨entry, hentry, hname⟩

theorem catalog_promised (henabled : runner.enabled = true) : Promised runner entries := by
  have hregistered {command : Command σ} (hmem : command ∈ runner.registry.commands)
      {request : RunRequest} (hname : request.commandName = command.name) :
      runner.registry.get? request.commandName = some command :=
    (Registry.get?_eq_some_iff hreached.names_nodup).mpr ⟨hmem, hname.symm⟩
  constructor
  case ordered =>
    rw [catalog_names hcatalog]
    exact List.filter_sublist.map _
  case listed =>
    intro command hmem request user t response hname hconfirmed hresponse
    rw [listed_iff hcatalog hreached hmem]
    rcases run_attends henabled (hregistered hmem hname) hresponse with ⟨startedAt, _, hattended⟩
    constructor
    · intro heligible
      apply not_refused_of_cleared hattended heligible
      exact fun _ => isConfirmed_iff.mpr hconfirmed
    · intro haccepted
      cases heligible : (runner.decisionOn command).eligible with
      | true => rfl
      | false => exact absurd (refused_of_ineligible hattended heligible) haccepted
  case confirmation =>
    intro command hmem entry hentry hshown request user t response hname hunconfirmed hresponse
    rcases run_attends henabled (hregistered hmem hname) hresponse with ⟨startedAt, _, hattended⟩
    rcases (entry_of_registered hcatalog hreached hmem).mp ⟨entry, hentry, hshown, rfl⟩ with
      ⟨heligible, hrequired⟩
    have hnot : request.isConfirmed = false :=
      eq_false_of_ne_true fun hconfirmed => hunconfirmed (isConfirmed_iff.mp hconfirmed)
    rw [← hrequired]
    constructor
    · intro hrequires
      exact refused_of_unconfirmed hattended heligible hrequires hnot
    · intro hrefused
      cases hfree : (runner.decisionOn command).requiresConfirmation with
      | true => rfl
      | false =>
          have hcleared := not_refused_of_cleared hattended heligible (fun hrequires => by
            rw [hfree] at hrequires
            cases hrequires)
          exact absurd hrefused (hcleared _ _)
  case answered =>
    rintro hattended command hmem request user t hname hrefused
    apply hattended.run_gives henabled (hregistered hmem hname)
    rcases hrefused with hunlisted | ⟨⟨entry, hentry, hshown, hrequires⟩, hunconfirmed⟩
    · left
      rw [listed_iff hcatalog hreached hmem] at hunlisted
      exact eq_false_of_ne_true hunlisted
    · right
      constructor
      · exact ((entry_of_registered hcatalog hreached hmem).mp
          ⟨entry, hentry, hshown, hrequires⟩).2
      · exact eq_false_of_ne_true fun hconfirmed => hunconfirmed (isConfirmed_iff.mp hconfirmed)
  case policy =>
    intro command hmem hallowed
    rcases List.mem_filter.mp hmem with ⟨hmem, hpolicy⟩
    apply (entry_of_registered hcatalog hreached hmem).mpr
    constructor
    · unfold decisionOn
      rw [Gate.decide_eligible, hallowed]
    · apply (Gate.decide_requiresConfirmation hallowed).mpr
      rcases policy_iff.mp hpolicy with hexplicit | hrisk
      · exact Or.inl hexplicit
      · exact Or.inr (Or.inl hrisk)

end Shown

/-! ## Catalogs as a whole -/

/-- The catalog is the same whenever it is asked for, if the suppliers of choices are. -/
theorem catalog_constant
    (hsupply : forall command, command ∈ runner.registry.commands ->
      forall name, Constant (command.supply name)) : Constant runner.catalog := by
  apply Constant.mapM
  intro command hmem
  exact catalogEntry_constant (hsupply command (List.mem_filter.mp hmem).1) _

theorem catalog_unrestricted
    (hnone : runner.gate.restrictionFor? runner.environment = none) :
    runner.catalog = runner.registry.catalog := by
  have heligible (command : Command σ) :
      runner.gate.isEligible command.descriptor.riskLevel runner.environment = true := by
    rw [Gate.isEligible_iff, hnone]
    intro restriction hsome
    cases hsome
  have hall : eligibleCommands runner.gate runner.registry runner.environment =
      runner.registry.commands :=
    List.filter_eq_self.mpr fun command _ => heligible command
  have hconfirmation (command : Command σ) :
      (runner.decisionOn command).requiresConfirmation =
        command.descriptor.requiresConfirmation := by
    apply Bool.eq_iff_iff.mpr
    unfold decisionOn
    rw [Gate.decide_requiresConfirmation (heligible command), policy_iff, hnone]
    simp
  unfold catalog Registry.catalog
  rw [hall]
  simp only [hconfirmation]

/-- What the catalog promises is what runs do.  Where the gate does not restrict the
environment, it is the catalog of the registry. -/
theorem catalog_keeps_promises (henabled : runner.enabled = true)
    (hreached : runner.registry.Reached) :
    (forall s entries, (runner.catalog s).1 = .ok entries -> Promised runner entries) ∧
      ((forall command, command ∈ runner.registry.commands ->
          forall name, Constant (command.supply name)) ->
        exists entries, (forall s, (runner.catalog s).1 = .ok entries) ∧
          (runner.gate.restrictionFor? runner.environment = none ->
            forall s, (runner.registry.catalog s).1 = .ok entries)) ∧
      (runner.gate.restrictionFor? runner.environment = none ->
        runner.catalog = runner.registry.catalog) := by
  refine ⟨?_, ?_, catalog_unrestricted⟩
  · intro s entries hcatalog
    exact catalog_promised hcatalog hreached henabled
  · intro hsupply
    rcases catalog_constant hsupply with ⟨entries, hentries⟩
    refine ⟨entries, hentries, ?_⟩
    intro hnone s
    rw [← catalog_unrestricted hnone]
    exact hentries s

/-- The catalog leaves out a command of high risk, and running the command is refused. -/
theorem catalog_keeps_promises_restricted :
    exists entries, (Restricted.runner.catalog ⟨(), []⟩).1 = .ok entries ∧
      "data:purge" ∉ entries.map CatalogEntry.name ∧
      forall s, exists response,
        (Restricted.runner.run Restricted.purgingRequest .system s).1 = .ok response ∧
          response.IsRefusal "data:purge" (.notEligible "production") := by
  rcases catalog_keeps_promises rfl Restricted.runner_reached with ⟨hpromised, hsupplied, _⟩
  have hsupply : forall c, c ∈ Restricted.runner.registry.commands ->
      forall name, Constant (c.supply name) := by
    intro c hc name
    rcases List.mem_map.mp hc with ⟨d, _, rfl⟩
    exact Constant.pure []
  rcases hsupplied hsupply with ⟨entries, hentries, _⟩
  have hkept := hpromised ⟨(), []⟩ entries (hentries _)
  have hunlisted : "data:purge" ∉ entries.map CatalogEntry.name := by
    rw [catalog_names (hentries ⟨(), []⟩)]
    decide
  refine ⟨entries, hentries _, hunlisted, ?_⟩
  intro s
  have hmem : Restricted.command Restricted.purging ∈ Restricted.runner.registry.commands :=
    List.mem_map_of_mem (by simp)
  rcases hkept.answered Restricted.runner_behaves.attended _ hmem Restricted.purgingRequest .system
    s rfl (Or.inl hunlisted) with ⟨response, hresponse⟩
  refine ⟨response, hresponse, ?_⟩
  apply Classical.byContradiction
  intro haccepted
  exact hunlisted ((hkept.listed _ hmem _ _ _ _ rfl rfl hresponse).mpr haccepted)

end Runner

end OperatorConsole
