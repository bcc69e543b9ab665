import OperatorConsole.Config.Load
import OperatorConsole.Proofs.Command.Checked

/-!
# Checked settings

A checked configuration holds, setting by setting, what the checks of the settings read from a
record.  The settings that are more than a single value pass their check again once they are
written, so that a configuration can be put together from settings that were checked before.

## Partial settings

Of a partial configuration just the settings that are there are written down.
-/

namespace OperatorConsole

open Check

theorem Restriction.check_stable : Stable check toValue := by
  intro v restriction hpass
  rcases record_eq_ok.mp hpass with ⟨r, _, hfields⟩
  simp only [seq_eq_ok, map_eq_ok] at hfields
  rcases hfields with ⟨_, confirmed, ⟨levels, hlevels, rfl⟩, hconfirmed, rfl⟩
  let written := Record.ofFields
    [("allowedRiskLevels", .list (levels.map fun level => .text level.word)),
      ("disableUnlessConfirmed", .bool confirmed)]
  have hlevels' := (RiskLevel.check_stable.list.field hlevels rfl :
    Check.field written "allowedRiskLevels" (Check.list RiskLevel.check) = ok levels)
  have hconfirmed' := (OptionSpec.checkFlag_stable.field hconfirmed rfl :
    Check.field written "disableUnlessConfirmed" (Check.withDefault false Check.boolean) =
      ok confirmed)
  apply record_eq_ok.mpr
  refine ⟨written, rfl, ?_⟩
  rw [hlevels', hconfirmed']
  rfl

theorem Restrictions.check_stable : Stable check toValue :=
  Restriction.check_stable.map?

namespace AutoDiscovery

theorem checkDirectory_stable :
    Stable (Check.optional fun v => (Check.string v).atLeast 1)
      (fun directory => (directory.map Value.text).getD .absent) :=
  (stable_string.require _ _).optional fun _ _ _ _ => Value.noConfusion

theorem check_stable : Stable check toValue := by
  intro v discovery hpass
  rcases record_eq_ok.mp hpass with ⟨r, _, hfields⟩
  simp only [seq_eq_ok, map_eq_ok] at hfields
  rcases hfields with ⟨_, default, ⟨_, directory, ⟨enabled, henabled, rfl⟩, hdirectory, rfl⟩,
    hdefault, rfl⟩
  let written := Record.ofFields ([("enabled", .bool enabled)] ++
    Fields.ofOption "directory" (directory.map .text) ++ [("defaultEnabled", .bool default)])
  have henabled' := (OptionSpec.checkFlag_stable.field henabled rfl :
    Check.field written "enabled" (Check.withDefault false Check.boolean) = ok enabled)
  have hdirectory' : Check.field written "directory"
      (Check.optional fun v => (Check.string v).atLeast 1) = ok directory := by
    apply checkDirectory_stable.field hdirectory
    rw [Record.get_ofFields (by decide) (by decide)]
    simp
  have hdefault' : Check.field written "defaultEnabled"
      (Check.withDefault false Check.boolean) = ok default := by
    apply OptionSpec.checkFlag_stable.field hdefault
    rw [Record.get_ofFields (by decide) (by decide)]
    simp
  apply record_eq_ok.mpr
  refine ⟨written, rfl, ?_⟩
  rw [henabled', hdirectory', hdefault']
  rfl

end AutoDiscovery

namespace DatabaseLogging

def checkPath (v : Value) : Check String :=
  (Check.string v).atLeast 1

def checkDays (v : Value) : Check Number :=
  (Check.integer v).positive

structure IsReadFrom (logging : DatabaseLogging) (r : Record) : Prop where
  enabled : Check.withDefault standard.enabled Check.boolean (r.get "enabled") =
    ok logging.enabled
  path : Check.optional checkPath (r.get "path") = ok logging.path
  keepLogsForDays : Check.withDefault standard.keepLogsForDays checkDays
    (r.get "keepLogsForDays") = ok logging.keepLogsForDays

theorem isReadFrom_of_check {v : Value} {logging : DatabaseLogging}
    (hpass : check v = ok logging) :
    exists r, Check.record? v = some r ∧ logging.IsReadFrom r := by
  rcases record_eq_ok.mp hpass with ⟨r, hr, hfields⟩
  simp only [seq_eq_ok, map_eq_ok, field_eq_ok] at hfields
  rcases hfields with ⟨_, days, ⟨_, path, ⟨enabled, henabled, rfl⟩, hpath, rfl⟩, hdays, rfl⟩
  exact ⟨r, hr, henabled, hpath, hdays⟩

end DatabaseLogging

namespace Config

theorem checkEnvironment_stable : Stable checkEnvironment Value.text :=
  stable_string.require _ _

theorem checkTime_stable : Stable checkTime Value.number :=
  stable_number.require _ _

theorem checkCommands_stable :
    Stable checkCommands
      (fun map => .ofFields (map.map fun entry => (entry.1, .bool entry.2))) :=
  stable_boolean.map?

/-- Each setting of a configuration is what the check of it reads from a record. -/
structure IsReadFrom (config : Config) (r : Record) : Prop where
  enabled : Check.withDefault true Check.boolean (r.get "enabled") = ok config.enabled
  environment : Check.withDefault standardEnvironment checkEnvironment (r.get "environment") =
    ok config.environment
  maxExecutionTimeSeconds : Check.withDefault standardTime checkTime
    (r.get "maxExecutionTimeSeconds") = ok config.maxExecutionTimeSeconds
  logExecutions : Check.withDefault true Check.boolean (r.get "logExecutions") =
    ok config.logExecutions
  commands : Check.withDefault [] checkCommands (r.get "commands") = ok config.commands
  autoDiscovery : Check.withDefault .standard AutoDiscovery.check (r.get "autoDiscovery") =
    ok config.autoDiscovery
  environmentRestrictions : Check.withDefault .standard Restrictions.check
    (r.get "environmentRestrictions") = ok config.environmentRestrictions
  databaseLogging : Check.withDefault .standard DatabaseLogging.check
    (r.get "databaseLogging") = ok config.databaseLogging

theorem isReadFrom_of_check {v : Value} {config : Config} (hpass : check v = ok config) :
    exists r, Check.record? v = some r ∧ config.IsReadFrom r := by
  rcases record_eq_ok.mp hpass with ⟨r, hr, hfields⟩
  simp only [seq_eq_ok, map_eq_ok, field_eq_ok] at hfields
  rcases hfields with ⟨_, logging, ⟨_, restrictions, ⟨_, discovery, ⟨_, commands,
    ⟨_, logged, ⟨_, time, ⟨_, environment, ⟨enabled, henabled, rfl⟩, henvironment, rfl⟩, htime,
    rfl⟩, hlogged, rfl⟩, hcommands, rfl⟩, hdiscovery, rfl⟩, hrestrictions, rfl⟩, hlogging, rfl⟩
  exact ⟨r, hr, henabled, henvironment, htime, hlogged, hcommands, hdiscovery, hrestrictions,
    hlogging⟩

theorem check_of_ofLayers {layers : List Layer} {config : Config}
    (hread : ofLayers layers = .ok config) :
    check (.ofFields (Layer.merge layers)) = ok config := by
  unfold ofLayers at hread
  cases hcheck : (check (.ofFields (Layer.merge layers))).toExcept with
  | error issues =>
      rw [hcheck] at hread
      cases hread
  | ok checked =>
      rw [hcheck] at hread
      cases hread
      exact toExcept_eq_ok.mp hcheck

/-! ## Partial settings -/

theorem checkPart_eq_ok {r : Record} {name : String} {check : Value -> Check α}
    {write : α -> Value} {fields : Fields} :
    checkPart r name check write = ok fields ↔
      exists a?, Check.optional check (r.get name) = ok a? ∧
        fields = Fields.ofOption name (a?.map write) := by
  unfold checkPart
  constructor
  · intro hpass
    rcases map_eq_ok.mp hpass with ⟨a?, hfield, rfl⟩
    exact ⟨a?, field_eq_ok.mp hfield, rfl⟩
  · rintro ⟨a?, hcheck, rfl⟩
    exact map_eq_ok.mpr ⟨a?, field_eq_ok.mpr hcheck, rfl⟩

structure Partial where
  enabled : Option Bool
  environment : Option String
  maxExecutionTimeSeconds : Option Number
  logExecutions : Option Bool
  commands : Option (List (String × Bool))
  autoDiscovery : Option AutoDiscovery
  environmentRestrictions : Option Restrictions
  databaseLogging : Option DatabaseLogging

namespace Partial

def toFields (p : Partial) : Fields :=
  Fields.ofOption "enabled" (p.enabled.map .bool) ++
    Fields.ofOption "environment" (p.environment.map .text) ++
    Fields.ofOption "maxExecutionTimeSeconds" (p.maxExecutionTimeSeconds.map .number) ++
    Fields.ofOption "logExecutions" (p.logExecutions.map .bool) ++
    Fields.ofOption "commands"
      (p.commands.map fun map => .ofFields (map.map fun entry => (entry.1, .bool entry.2))) ++
    Fields.ofOption "autoDiscovery" (p.autoDiscovery.map AutoDiscovery.toValue) ++
    Fields.ofOption "environmentRestrictions"
      (p.environmentRestrictions.map Restrictions.toValue) ++
    Fields.ofOption "databaseLogging" (p.databaseLogging.map DatabaseLogging.toValue)

structure IsReadFrom (p : Partial) (r : Record) : Prop where
  enabled : Check.optional Check.boolean (r.get "enabled") = ok p.enabled
  environment : Check.optional checkEnvironment (r.get "environment") = ok p.environment
  maxExecutionTimeSeconds : Check.optional checkTime (r.get "maxExecutionTimeSeconds") =
    ok p.maxExecutionTimeSeconds
  logExecutions : Check.optional Check.boolean (r.get "logExecutions") = ok p.logExecutions
  commands : Check.optional checkCommands (r.get "commands") = ok p.commands
  autoDiscovery : Check.optional AutoDiscovery.check (r.get "autoDiscovery") =
    ok p.autoDiscovery
  environmentRestrictions : Check.optional Restrictions.check
    (r.get "environmentRestrictions") = ok p.environmentRestrictions
  databaseLogging : Check.optional DatabaseLogging.check (r.get "databaseLogging") =
    ok p.databaseLogging

end Partial

theorem isReadFrom_of_checkPartial {v : Value} {settings : Fields}
    (hpass : checkPartial v = ok settings) :
    exists (r : Record) (p : Partial),
      Check.record? v = some r ∧ p.IsReadFrom r ∧ settings = p.toFields := by
  rcases record_eq_ok.mp hpass with ⟨r, hr, hparts⟩
  rcases map_eq_ok.mp hparts with ⟨parts, hsequence, rfl⟩
  simp only [sequence_cons_eq_ok, checkPart_eq_ok] at hsequence
  rcases hsequence with ⟨_, _, ⟨enabled, henabled, rfl⟩, ⟨_, _, ⟨environment, henvironment, rfl⟩,
    ⟨_, _, ⟨time, htime, rfl⟩, ⟨_, _, ⟨logged, hlogged, rfl⟩, ⟨_, _, ⟨commands, hcommands, rfl⟩,
    ⟨_, _, ⟨discovery, hdiscovery, rfl⟩, ⟨_, _, ⟨restrictions, hrestrictions, rfl⟩,
    ⟨_, _, ⟨logging, hlogging, rfl⟩, hnil, rfl⟩, rfl⟩, rfl⟩, rfl⟩, rfl⟩, rfl⟩, rfl⟩, rfl⟩
  cases hnil
  refine ⟨r, ⟨enabled, environment, time, logged, commands, discovery, restrictions, logging⟩, hr,
    ⟨henabled, henvironment, htime, hlogged, hcommands, hdiscovery, hrestrictions, hlogging⟩, ?_⟩
  simp [Partial.toFields]

end Config

end OperatorConsole
