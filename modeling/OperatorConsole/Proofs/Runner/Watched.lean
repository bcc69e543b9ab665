import OperatorConsole.Proofs.Action.Watched
import OperatorConsole.Proofs.Runner.Alike

/-!
# Watched runs

A watched runner notes every call of a command's `validate` and `execute`, with the options
that were handed over.  Its gate, its environment and its limits are those of the runner; its
timer and its sink work on the host as before.
-/

namespace OperatorConsole

inductive RunEvent where
  | validated (command : Descriptor) (options : Value) (passed : Bool)
  | executed (command : Descriptor) (options : Value) (context : CommandContext)

def Command.watched (command : Command σ) : Command (Watched σ RunEvent) where
  descriptor := command.descriptor
  validate := fun options => do
    let outcome ← (Action.watch (command.validate options)).attempt
    Action.note (.validated command.descriptor options outcome.isOk)
    Action.settle outcome
  execute := fun options context => do
    Action.note (.executed command.descriptor options context)
    Action.watch (command.execute options context)
  supply := fun name => Action.watch (command.supply name)

theorem Command.validate_events (command : Command σ) (options : Value)
    (s : Session (Watched σ RunEvent)) :
    (command.watched.validate options s).2.host.events = s.host.events ++
      [.validated command.descriptor options (command.watched.validate options s).1.isOk] := rfl

theorem Command.execute_events (command : Command σ) (options : Value) (context : CommandContext)
    (s : Session (Watched σ RunEvent)) :
    (command.watched.execute options context s).2.host.events =
      s.host.events ++ [.executed command.descriptor options context] := rfl

theorem Command.watched_alike (command : Command σ) :
    command.watched.Alike (Action.Tracks fun _ => True) command := by
  constructor
  case descriptor_eq => rfl
  case validate =>
    rintro options ⟨⟨host, events⟩, journal⟩ ⟨host', journal'⟩ ⟨hhost, _⟩ hjournals
    change host = host' at hhost
    change journal = journal' at hjournals
    subst hhost
    subst hjournals
    exact ⟨⟨rfl, trivial⟩, rfl, rfl, Ends.trivial _⟩
  case execute =>
    intro options context
    refine Action.Agree.afterNote (fun _ _ => trivial) (Action.Agree.watch ?_)
    intro s
    exact Ends.trivial _

namespace Runner

def watched (runner : Runner σ) : Runner (Watched σ RunEvent) where
  registry := ⟨runner.registry.commands.map Command.watched⟩
  gate := runner.gate
  environment := runner.environment
  enabled := runner.enabled
  logExecutions := runner.logExecutions
  sink := runner.sink.map fun sink entry => Action.watch (sink entry)
  maxExecutionTimeSeconds := runner.maxExecutionTimeSeconds
  timer := Action.watch runner.timer

theorem get?_watched (runner : Runner σ) (name : String) :
    runner.watched.registry.get? name = (runner.registry.get? name).map Command.watched := by
  unfold Registry.get?
  exact List.find?_map

/-! ## Watching changes nothing

Whatever is known of the events stays known in the ends of a run, since these note none. -/

theorem watched_alikeInEnds (runner : Runner σ) (known : List RunEvent -> Prop) :
    runner.watched.AlikeInEnds (Action.Tracks known) runner := by
  constructor
  case environment_eq => rfl
  case logExecutions_eq => rfl
  case limit_eq => rfl
  case timer => exact Action.Agree.watch fun s => Ends.trivial (runner.timer s).1
  case sink =>
    have hwatched : runner.watched.sink =
        runner.sink.map fun sink entry => Action.watch (sink entry) := rfl
    rw [hwatched]
    cases runner.sink with
    | none => exact Or.inl ⟨rfl, rfl⟩
    | some sink =>
        refine Or.inr ⟨_, sink, rfl, rfl, ?_⟩
        intro entry
        exact Action.Agree.watch fun s => Ends.trivial (sink entry s).1

theorem watched_alike (runner : Runner σ) :
    runner.watched.Alike (Action.Tracks fun _ => True) runner := by
  constructor
  case toAlikeInEnds => exact runner.watched_alikeInEnds _
  case gate_eq => rfl
  case enabled_eq => rfl
  case command =>
    intro name
    rw [runner.get?_watched]
    cases runner.registry.get? name with
    | none => exact Or.inl ⟨rfl, rfl⟩
    | some command => exact Or.inr ⟨_, command, rfl, rfl, command.watched_alike⟩

end Runner

end OperatorConsole
