import OperatorConsole.Gate

/-!
# Configuration

How a console is set up.  `Config.check` reads the settings and fills in the standard ones
for those that are left out.
-/

namespace OperatorConsole

structure AutoDiscovery where
  enabled : Bool
  directory : Option String
  /-- Whether discovered commands that the enable map does not name are registered. -/
  defaultEnabled : Bool
  deriving DecidableEq, Repr

structure DatabaseLogging where
  enabled : Bool
  path : Option String
  keepLogsForDays : Number
  deriving DecidableEq, Repr

structure Config where
  enabled : Bool
  environment : String
  maxExecutionTimeSeconds : Number
  logExecutions : Bool
  /-- Which commands are registered, by name. -/
  commands : List (String × Bool)
  autoDiscovery : AutoDiscovery
  environmentRestrictions : Restrictions
  databaseLogging : DatabaseLogging
  deriving DecidableEq, Repr

namespace AutoDiscovery

def standard : AutoDiscovery :=
  ⟨false, none, false⟩

def check : Value -> Check AutoDiscovery :=
  Check.record fun f => AutoDiscovery.mk <$>
    Check.field f "enabled" (Check.withDefault false Check.boolean) <*>
    Check.field f "directory" (Check.optional fun v => (Check.string v).atLeast 1) <*>
    Check.field f "defaultEnabled" (Check.withDefault false Check.boolean)

def toValue (a : AutoDiscovery) : Value :=
  .ofFields ([("enabled", .bool a.enabled)] ++
    Fields.ofOption "directory" (a.directory.map .text) ++
    [("defaultEnabled", .bool a.defaultEnabled)])

end AutoDiscovery

namespace DatabaseLogging

def standard : DatabaseLogging :=
  ⟨true, none, 90⟩

def check : Value -> Check DatabaseLogging :=
  Check.record fun f => DatabaseLogging.mk <$>
    Check.field f "enabled" (Check.withDefault standard.enabled Check.boolean) <*>
    Check.field f "path" (Check.optional fun v => (Check.string v).atLeast 1) <*>
    Check.field f "keepLogsForDays"
      (Check.withDefault standard.keepLogsForDays fun v => (Check.integer v).positive)

def toValue (d : DatabaseLogging) : Value :=
  .ofFields ([("enabled", .bool d.enabled)] ++
    Fields.ofOption "path" (d.path.map .text) ++
    [("keepLogsForDays", .number d.keepLogsForDays)])

end DatabaseLogging

/-- Restrictions for consoles that set none: production only lets low risks run. -/
def Restrictions.standard : Restrictions :=
  [("production", ⟨[.low], true⟩), ("staging", ⟨[.low, .medium], false⟩)]

def Restrictions.toValue (r : Restrictions) : Value :=
  .ofFields (r.map fun entry => (entry.1, entry.2.toValue))

namespace Config

def checkEnvironment (v : Value) : Check String :=
  (Check.string v).atLeast 1

def checkTime (v : Value) : Check Number :=
  (Check.number v).positive

def checkCommands : Value -> Check (List (String × Bool)) :=
  Check.map? Check.boolean

def standardEnvironment : String :=
  "production"

def standardTime : Number :=
  300

def check : Value -> Check Config :=
  Check.record fun f => Config.mk <$>
    Check.field f "enabled" (Check.withDefault true Check.boolean) <*>
    Check.field f "environment" (Check.withDefault standardEnvironment checkEnvironment) <*>
    Check.field f "maxExecutionTimeSeconds" (Check.withDefault standardTime checkTime) <*>
    Check.field f "logExecutions" (Check.withDefault true Check.boolean) <*>
    Check.field f "commands" (Check.withDefault [] checkCommands) <*>
    Check.field f "autoDiscovery" (Check.withDefault .standard AutoDiscovery.check) <*>
    Check.field f "environmentRestrictions"
      (Check.withDefault .standard Restrictions.check) <*>
    Check.field f "databaseLogging" (Check.withDefault .standard DatabaseLogging.check)

def enableMap (c : Config) : Record :=
  .ofFields (c.commands.map fun entry => (entry.1, .bool entry.2))

def toValue (c : Config) : Value :=
  .ofFields [("enabled", .bool c.enabled), ("environment", .text c.environment),
    ("maxExecutionTimeSeconds", .number c.maxExecutionTimeSeconds),
    ("logExecutions", .bool c.logExecutions), ("commands", c.enableMap.toValue),
    ("autoDiscovery", c.autoDiscovery.toValue),
    ("environmentRestrictions", c.environmentRestrictions.toValue),
    ("databaseLogging", c.databaseLogging.toValue)]

end Config

end OperatorConsole
