import OperatorConsole.BuiltIn.AuditPrune
import OperatorConsole.BuiltIn.DataQuery
import OperatorConsole.Config.Load
import OperatorConsole.Discovery
import OperatorConsole.ExecutionLog.Connection
import OperatorConsole.Runner

/-!
# The console

A console is put together from a configuration and from what the host supplies.  The built-in
commands come first, then those of the host, then those that are discovered.

## The enable map

A command is registered if the enable map switches it on, or if the map does not name it and
commands are enabled by default.  A command that cannot be registered is noted in the journal
and the others still are.

## The execution log

Without a sink or a store of the host, and with database logging on, the console opens its
own execution log and uses it as both.
-/

namespace OperatorConsole

namespace Registry

def nothing : Failure :=
  .fault .wrongType "Cannot read properties of null (reading 'descriptor')"

/-- Whether the enable map lets a command of this name in. -/
def isEnabled (enabled : Record) (enabledByDefault : Bool) (name : String) : Bool :=
  match enabled.get name with
  | .absent => enabledByDefault
  | .null => enabledByDefault
  | v => v.toBool

/-- Whether the enable map lets in what gives itself this name; only a text is a name. -/
def letsIn (enabled : Record) (enabledByDefault : Bool) : Value -> Bool
  | .text name => isEnabled enabled enabledByDefault name
  | _ => true

def registerEnabled (registry : Registry σ) (candidate : Candidate σ) (enabled : Record)
    (enabledByDefault : Bool) : Action σ (Registry σ × List (Command σ)) := do
  let session ← get
  let name := Candidate.givenName (candidate.described session.host)
  if !letsIn enabled enabledByDefault name then
    Action.debug "Command disabled by configuration" [("name", name)]
    return (registry, [])
  else
    match ← Action.attempt (registry.register candidate) with
    | .ok (registry, command) => return (registry, [command])
    | .error failure =>
        let message ← Action.messageOf failure
        Action.error "Failed to register command" [("name", name), ("error", .text message)]
        return (registry, [])

/-- Registers candidates in order, as far as the enable map lets them in. Where there should
be a candidate and is none, the registration fails. -/
def registerConfigured (registry : Registry σ) (enabled : Record) (enabledByDefault : Bool) :
    List (Option (Candidate σ)) -> Action σ (Registry σ × List (Command σ))
  | [] => pure (registry, [])
  | none :: _ => throw nothing
  | some candidate :: rest => do
      let (registry, first) ← registry.registerEnabled candidate enabled enabledByDefault
      let (registry, others) ← registry.registerConfigured enabled enabledByDefault rest
      return (registry, first ++ others)

end Registry

/-! ## Parts that the host supplies -/

structure HostParts (σ : Type) where
  entities : Query.EntityResolver σ
  sink : Option (AuditSink σ)
  store : Option (AuditStore σ)
  commands : List (Option (Candidate σ))
  /-- The time of day for queries. -/
  clock : Action σ Number
  /-- The timer of runs and of pruning. -/
  timer : Action σ Number
  /-- Opens the execution log at a path, or at its usual place. -/
  openLog : Option String -> Action σ (LogAccess σ)
  /-- The entries of a directory, if it exists. -/
  directory : String -> Action σ (Option (List (DirectoryEntry σ)))

structure Console (σ : Type) where
  registry : Registry σ
  gate : Gate
  runner : Runner σ
  /-- The execution log, if the console opened it itself. -/
  log : Option (LogAccess σ)

namespace Console

/-- The parts with an execution log in them, if one is needed. -/
def withLog (logging : DatabaseLogging) (parts : HostParts σ) :
    Action σ (HostParts σ × Option (LogAccess σ)) := do
  if !logging.enabled || parts.sink.isSome || parts.store.isSome then return (parts, none)
  else
    let access ← parts.openLog logging.path
    return ({ parts with sink := some access.sink, store := some access.store }, some access)

def builtIns (parts : HostParts σ) (retentionDays : Number) : List (Candidate σ) :=
  DataQuery.candidate ⟨parts.entities, .standard, parts.clock, parts.clock⟩ ::
    (parts.store.map fun store =>
      AuditPrune.candidate ⟨store, retentionDays, parts.timer⟩).toList

def registerBuiltIns (registry : Registry σ) (config : Config) (parts : HostParts σ) :
    Action σ (Registry σ) := do
  let candidates := builtIns parts config.databaseLogging.keepLogsForDays
  let (registry, _) ← registry.registerConfigured config.enableMap true (candidates.map some)
  return registry

def registerDiscovered (registry : Registry σ) (config : Config) (parts : HostParts σ) :
    Action σ (Registry σ) := do
  let discovery := config.autoDiscovery
  match discovery.enabled, discovery.directory with
  | true, some directory =>
      let found ← Discovery.discover directory (← parts.directory directory)
      let (registry, _) ← registry.registerConfigured config.enableMap discovery.defaultEnabled
        (found.map some)
      return registry
  | _, _ => return registry

def runnerOf (config : Config) (parts : HostParts σ) (registry : Registry σ) : Runner σ where
  registry := registry
  gate := ⟨config.environmentRestrictions⟩
  environment := config.environment
  enabled := config.enabled
  logExecutions := config.logExecutions
  sink := if config.databaseLogging.enabled then parts.sink else none
  maxExecutionTimeSeconds := some config.maxExecutionTimeSeconds
  timer := parts.timer

def create (config : Config) (parts : HostParts σ) : Action σ (Console σ) := do
  let (parts, log) ← withLog config.databaseLogging parts
  let registry ← registerBuiltIns .empty config parts
  let (registry, _) ← registry.registerConfigured config.enableMap true parts.commands
  let registry ← registerDiscovered registry config parts
  return ⟨registry, ⟨config.environmentRestrictions⟩, runnerOf config parts registry, log⟩

end Console

end OperatorConsole
