import OperatorConsole.Config.Basic

/-!
# Layers of settings

Settings come in layers, and a later layer wins.  A setting that a layer leaves absent does
not hide the one below.  The settings of database logging are layered one by one, and the
record that they make is read like any other, through its base.  Overrides are taken to be
plain: a layer has the settings that they hold themselves, and none that they inherit.

## Partial settings

`Config.checkPartial` reads a layer that may leave out whole settings but must not hold a
wrong one.
-/

namespace OperatorConsole

structure Layer where
  settings : Fields
  /-- The settings of database logging, which are layered on their own. -/
  logging : Fields

namespace Layer

def empty : Layer :=
  ⟨[], []⟩

/-- A layer from settings; those of database logging stand inside them. -/
def ofFields (settings : Fields) : Layer :=
  ⟨settings, (settings.own "databaseLogging").fields⟩

def lay (below : Record) (above : Fields) : Record :=
  above.foldl
    (fun merged setting =>
      match setting.2 with
      | .absent => merged
      | v => merged.assign setting.1 v)
    below

def merge (layers : List Layer) : Fields :=
  ((layers.map Layer.settings).foldl lay .empty).fields.define "databaseLogging"
    ((layers.map Layer.logging).foldl lay .empty).toValue

end Layer

namespace Config

/-- The value of a setting that is there and in order. -/
def checkPart (r : Record) (name : String) (check : Value -> Check α) (toValue : α -> Value) :
    Check Fields :=
  (Check.field r name (Check.optional check)).map fun a => Fields.ofOption name (a.map toValue)

def checkPartial : Value -> Check Fields :=
  Check.record fun f =>
    (fun parts => parts.flatten) <$>
      Check.sequence
        [checkPart f "enabled" Check.boolean .bool,
          checkPart f "environment" checkEnvironment .text,
          checkPart f "maxExecutionTimeSeconds" checkTime .number,
          checkPart f "logExecutions" Check.boolean .bool,
          checkPart f "commands" checkCommands
            fun map => .ofFields (map.map fun entry => (entry.1, .bool entry.2)),
          checkPart f "autoDiscovery" AutoDiscovery.check AutoDiscovery.toValue,
          checkPart f "environmentRestrictions" Restrictions.check Restrictions.toValue,
          checkPart f "databaseLogging" DatabaseLogging.check DatabaseLogging.toValue]

end Config

end OperatorConsole
