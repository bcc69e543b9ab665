import OperatorConsole.Proofs.Action.Told
import OperatorConsole.Proofs.Query.Evaluation
import OperatorConsole.Proofs.Registry.Calls
import OperatorConsole.Proofs.Report.Shown
import OperatorConsole.Proofs.Runner.Alike

/-!
# Observed runs

An observed runner notes what its run asks of the outside and how each of these calls ended:
readings of the timer, calls of a command and entries handed to the sink.

## Orderly runs

A run is orderly if the timer gives valid times and whatever else fails can be put into words.
-/

namespace OperatorConsole

open OperatorConsole.Action

/-- A call to the outside and how it ended. -/
inductive RunFact where
  | timed (outcome : Except Failure Number)
  | validated (options : Value) (outcome : Except Failure Unit)
  | executed (options : Value) (context : CommandContext)
      (outcome : Except Failure (Option CommandResult))
  | handed (entry : AuditEntry) (outcome : Except Failure Unit)

/-- Whether a failure, if there is one, is an error or a thrown scalar. -/
def FailsPlainly (outcome : Except Failure α) : Prop :=
  forall failure, outcome = .error failure -> failure.isPlain = true

namespace RunFact

def IsOrderly : RunFact -> Prop
  | .timed outcome => exists time, outcome = .ok time ∧ (Calendar.milliseconds? time).isSome
  | .validated _ outcome => FailsPlainly outcome
  | .executed _ _ outcome => FailsPlainly outcome
  | .handed _ outcome => FailsPlainly outcome

/-- The entry that a sink was handed. -/
def entry? : RunFact -> Option AuditEntry
  | .handed entry _ => some entry
  | _ => none

end RunFact

/-! ## Observing -/

def Command.observed (command : Command σ) : Command (Watched σ RunFact) where
  descriptor := command.descriptor
  validate := fun options => observe (.validated options) (command.validate options)
  execute := fun options context => observe (.executed options context)
    (command.execute options context)
  supply := fun name => watch (command.supply name)

namespace Runner

def observed (runner : Runner σ) : Runner (Watched σ RunFact) where
  registry := ⟨runner.registry.commands.map Command.observed⟩
  gate := runner.gate
  environment := runner.environment
  enabled := runner.enabled
  logExecutions := runner.logExecutions
  sink := runner.sink.map fun sink entry => observe (.handed entry) (sink entry)
  maxExecutionTimeSeconds := runner.maxExecutionTimeSeconds
  timer := observe .timed runner.timer

theorem get?_observed (runner : Runner σ) (name : String) :
    runner.observed.registry.get? name = (runner.registry.get? name).map Command.observed := by
  unfold Registry.get?
  exact List.find?_map

end Runner

/-! ## Observing changes nothing -/

/-- What is known of the facts survives the calls of a command. -/
structure Command.Keeps (command : Command σ) (known : List RunFact -> Prop) : Prop where
  validate : forall options, Survives known (.validated options) (command.validate options)
  execute : forall options context,
    Survives known (.executed options context) (command.execute options context)

structure Runner.Keeps (runner : Runner σ) (known : List RunFact -> Prop) : Prop where
  timer : Survives known .timed runner.timer
  sink : forall sink, runner.sink = some sink ->
    forall entry, Survives known (.handed entry) (sink entry)
  command : forall command, command ∈ runner.registry.commands -> command.Keeps known

namespace Action.Lasting

variable {known : List RunFact -> Prop} (hlasting : Lasting known)

include hlasting

theorem command_keeps (command : Command σ) : command.Keeps known := by
  constructor
  case validate => exact fun options => hlasting.survives _ _
  case execute => exact fun options context => hlasting.survives _ _

theorem runner_keeps (runner : Runner σ) : runner.Keeps known := by
  constructor
  case timer => exact hlasting.survives _ _
  case sink => exact fun sink _ entry => hlasting.survives _ _
  case command => exact fun command _ => hlasting.command_keeps command

end Action.Lasting

theorem Command.Keeps.alike {command : Command σ} {known : List RunFact -> Prop}
    (hkeeps : command.Keeps known) : command.observed.Alike (Tracks known) command := by
  constructor
  case descriptor_eq => rfl
  case validate => exact fun options => (hkeeps.validate options).agree
  case execute => exact fun options context => (hkeeps.execute options context).agree

namespace Runner.Keeps

variable {runner : Runner σ} {known : List RunFact -> Prop} (hkeeps : runner.Keeps known)

include hkeeps

theorem alikeInEnds : runner.observed.AlikeInEnds (Tracks known) runner := by
  constructor
  case environment_eq => rfl
  case logExecutions_eq => rfl
  case limit_eq => rfl
  case timer => exact hkeeps.timer.agree
  case sink =>
    have hobserved : runner.observed.sink =
        runner.sink.map fun sink entry => observe (.handed entry) (sink entry) := rfl
    rw [hobserved]
    cases hsink : runner.sink with
    | none => exact Or.inl ⟨rfl, rfl⟩
    | some sink =>
        refine Or.inr ⟨_, sink, rfl, rfl, ?_⟩
        intro entry
        exact (hkeeps.sink sink hsink entry).agree

theorem alike : runner.observed.Alike (Tracks known) runner := by
  constructor
  case toAlikeInEnds => exact hkeeps.alikeInEnds
  case gate_eq => rfl
  case enabled_eq => rfl
  case command =>
    intro name
    rw [runner.get?_observed]
    cases hget : runner.registry.get? name with
    | none => exact Or.inl ⟨rfl, rfl⟩
    | some command =>
        have hmem := List.mem_of_find?_eq_some hget
        exact Or.inr ⟨_, command, rfl, rfl, (hkeeps.command command hmem).alike⟩

end Runner.Keeps

/-! ## Well-behaved parts -/

/-- The parts of a runner behave, whatever is asked of them and when. -/
structure Runner.Behaves (runner : Runner σ) : Prop where
  timer : forall s, RunFact.IsOrderly (.timed (runner.timer s).1)
  sink : forall sink, runner.sink = some sink -> forall entry s, FailsPlainly (sink entry s).1
  validate : forall command, command ∈ runner.registry.commands ->
    forall options s, FailsPlainly (command.validate options s).1
  execute : forall command, command ∈ runner.registry.commands ->
    forall options context s, FailsPlainly (command.execute options context s).1

theorem Runner.Behaves.orderly {runner : Runner σ} (hbehaves : runner.Behaves)
    (request : RunRequest) (user : Operator) (s : Session σ) :
    forall fact, fact ∈ (runner.observed.run request user s.watched).2.host.events ->
      fact.IsOrderly := by
  let known := fun facts : List RunFact => forall fact, fact ∈ facts -> fact.IsOrderly
  have hadded (facts : List RunFact) (fact : RunFact) (hfacts : known facts)
      (hfact : fact.IsOrderly) : known (facts ++ [fact]) := by
    intro other hother
    rcases List.mem_append.mp hother with hold | hnew
    · exact hfacts other hold
    · rw [List.mem_singleton.mp hnew]
      exact hfact
  have hkeeps : runner.Keeps known := by
    constructor
    case timer => exact fun t facts hfacts => hadded facts _ hfacts (hbehaves.timer t)
    case sink =>
      intro sink hsink entry t facts hfacts
      exact hadded facts _ hfacts (hbehaves.sink sink hsink entry t)
    case command =>
      intro command hmem
      constructor
      case validate =>
        intro options t facts hfacts
        exact hadded facts _ hfacts (hbehaves.validate command hmem options t)
      case execute =>
        intro options context t facts hfacts
        exact hadded facts _ hfacts (hbehaves.execute command hmem options context t)
  have hnone : known (s.watched : Session (Watched σ RunFact)).host.events := by
    intro fact hfact
    cases hfact
  exact ((hkeeps.alike.agree_run request user).watchedSide hnone).1

/-! ## A restricted runner

Only commands of low risk may run in its environment, and its sink never takes an entry. -/

namespace Restricted

def clearing : Descriptor :=
  ⟨"cache:clear", "Clear the cache", "Drops what is cached.", "cache", .low, false, []⟩

def purging : Descriptor :=
  ⟨"data:purge", "Purge the data", "Drops what is stored.", "data", .high, false, []⟩

def candidate (d : Descriptor) : Candidate Unit where
  described := fun _ => d.toValue
  validate := some fun _ _ => pure ()
  execute := some fun _ _ => pure (some (.success "done"))
  supply := fun _ => pure []

def command (d : Descriptor) : Command Unit where
  descriptor := d
  validate := fun _ => pure ()
  execute := fun _ _ => pure (some (.success "done"))
  supply := fun _ => pure []

def runner : Runner Unit where
  registry := ⟨[clearing, purging].map command⟩
  gate := ⟨[("production", ⟨[.low], false⟩)]⟩
  environment := "production"
  enabled := true
  logExecutions := true
  sink := some fun _ => throw (.fault .general "sink is full")
  maxExecutionTimeSeconds := none
  timer := pure 0

def clearingRequest : RunRequest :=
  ⟨"cache:clear", .ofFields [], .absent⟩

/-- Confirmed, and still not for this environment. -/
def purgingRequest : RunRequest :=
  ⟨"data:purge", .ofFields [], .bool true⟩

theorem runner_reached : runner.registry.Reached :=
  ⟨[.registerMany ([clearing, purging].map candidate)], ⟨(), []⟩, rfl⟩

theorem runner_behaves : runner.Behaves := by
  constructor
  case timer => exact fun s => ⟨0, rfl, by decide +kernel⟩
  case sink =>
    intro sink hsink entry s failure hfailure
    cases hsink
    cases hfailure
    rfl
  case validate =>
    intro c hc options s failure hfailure
    rcases List.mem_map.mp hc with ⟨d, _, rfl⟩
    cases hfailure
  case execute =>
    intro c hc options context s failure hfailure
    rcases List.mem_map.mp hc with ⟨d, _, rfl⟩
    cases hfailure

end Restricted

end OperatorConsole
