import OperatorConsole.Proofs.BuiltIn.AuditPrune
import OperatorConsole.Proofs.Config.Retention
import OperatorConsole.Proofs.Console.Configured

/-!
# Built-in commands

The built-in commands are in order, so each of them is registered unless the enable map switches
it off.  The pruning command is among them if there is a store, and takes the retention of the
configuration for the default of its days.

A configuration may keep entries for any positive whole number of days, and the command admits
no more than 3650.  Its own defaults pass its rules up to that number and break them beyond.
-/

namespace OperatorConsole

namespace Registry

theorem get?_insertAll_pair (registry : Registry σ) (keep : Command σ -> Bool)
    {other command : Command σ} {name : String} (hother : other.name ≠ name)
    (hname : command.name = name) :
    (registry.insertAll ([other, command].filter keep)).get? name =
      if keep command then some command else registry.get? name := by
  rw [get?_insertAll]
  cases hkeep : keep command with
  | true =>
      cases hkeep' : keep other with
      | true => simp [hkeep, hkeep', hname]
      | false => simp [hkeep, hkeep', hname]
  | false =>
      cases hkeep' : keep other with
      | true => simp [hkeep, hkeep', hother]
      | false => simp [hkeep, hkeep']

end Registry

/-! ## The built-in commands -/

theorem DataQuery.check_description :
    exists descriptor, Descriptor.check description = Check.ok descriptor ∧
      descriptor.name = "data:query" := by
  have hread : (Descriptor.check description).result?.map Descriptor.name = some "data:query" := by
    decide +kernel
  rcases Option.map_eq_some_iff.mp hread with ⟨descriptor, hdescriptor, hname⟩
  exact ⟨descriptor, Check.result?_eq_some.mp hdescriptor, hname⟩

theorem DataQuery.toCommand_candidate (executor : Query.Executor σ) :
    exists command, command.name = "data:query" ∧
      forall host, (candidate executor).toCommand host = .ok command := by
  rcases check_description with ⟨descriptor, hchecked, hname⟩
  refine ⟨_, ?_, fun host => Candidate.toCommand_eq rfl rfl rfl hchecked⟩
  exact hname

namespace Console

/-- The built-in commands with a store, in order, as far as the enable map lets them in. -/
theorem registerBuiltIns_apply (registry : Registry σ) (config : Config) {parts : HostParts σ}
    {store : AuditStore σ} (hstore : parts.store = some store) :
    exists query : Command σ, query.name = "data:query" ∧ forall s : Session σ,
      (registerBuiltIns registry config parts s).1 = .ok (registry.insertAll
        ([query, AuditPrune.command ⟨store, config.databaseLogging.keepLogsForDays, parts.timer⟩]
          |>.filter fun command => Registry.isEnabled config.enableMap true command.name)) := by
  let prune : AuditPrune σ := ⟨store, config.databaseLogging.keepLogsForDays, parts.timer⟩
  let executor : Query.Executor σ := ⟨parts.entities, .standard, parts.clock, parts.clock⟩
  rcases DataQuery.toCommand_candidate executor with ⟨query, hname, hquery⟩
  refine ⟨query, hname, fun s => ?_⟩
  have hoffered : builtIns parts config.databaseLogging.keepLogsForDays =
      [DataQuery.candidate executor, prune.candidate] := by
    unfold builtIns
    rw [hstore]
    rfl
  have hvalid : (builtIns parts config.databaseLogging.keepLogsForDays).mapM
      (fun candidate => candidate.toCommand s.host) = .ok [query, prune.command] := by
    rw [hoffered, List.mapM_cons, hquery, List.mapM_cons, prune.toCommand_candidate]
    rfl
  have hconfigured := registry.registerConfigured_valid config.enableMap true hvalid
  unfold registerBuiltIns
  dsimp only
  rw [Action.bind_apply, Action.next_of_ok hconfigured]
  rfl

theorem registerBuiltIns_prune (registry : Registry σ) (config : Config) {parts : HostParts σ}
    {store : AuditStore σ} (hstore : parts.store = some store) (s : Session σ) :
    exists built, (registerBuiltIns registry config parts s).1 = .ok built ∧
      built.get? "audit:prune" =
        if Registry.isEnabled config.enableMap true "audit:prune" then
          some (AuditPrune.command
            ⟨store, config.databaseLogging.keepLogsForDays, parts.timer⟩)
        else registry.get? "audit:prune" := by
  rcases registerBuiltIns_apply registry config hstore with ⟨query, hquery, hbuilt⟩
  have hother : query.name ≠ "audit:prune" := by
    rw [hquery]
    decide
  exact ⟨_, hbuilt s, Registry.get?_insertAll_pair registry _ hother rfl⟩

/-! ## A host without entities -/

def keeping (days : Number) : Value :=
  .ofFields [("databaseLogging", .ofFields [("keepLogsForDays", .number days)])]

def keepingConfig (days : Number) : Config :=
  ⟨true, Config.standardEnvironment, Config.standardTime, true, [], .standard, .standard,
    ⟨true, none, days⟩⟩

def emptyStore : AuditStore Unit :=
  ⟨fun _ => pure 0, fun _ => pure 0⟩

def emptyParts : HostParts Unit where
  entities := ⟨pure [], fun _ => pure none⟩
  sink := none
  store := some emptyStore
  commands := []
  clock := pure 0
  timer := pure 0
  openLog := fun _ => throw Registry.nothing
  directory := fun _ => pure none

/-! ## Defaults -/

theorem registerBuiltIns_retaining {config : Config} (hretaining : config.IsRetaining)
    (registry : Registry σ) {parts : HostParts σ} {store : AuditStore σ}
    (hstore : parts.store = some store) (s : Session σ) :
    exists built, (registerBuiltIns registry config parts s).1 = .ok built ∧
      if Registry.isEnabled config.enableMap true "audit:prune" then
        exists command, built.get? "audit:prune" = some command ∧ forall s',
          command.validate
              (Options.applyDefaults .empty command.descriptor.options).toValue s' =
            (if Number.le config.databaseLogging.keepLogsForDays 3650 then .ok ()
              else .error (.validation (.ruleViolation "days" ⟨.max, some (.number 3650)⟩)), s')
      else built.get? "audit:prune" = registry.get? "audit:prune" := by
  rcases registerBuiltIns_prune registry config hstore s with ⟨built, hbuilt, hget⟩
  refine ⟨built, hbuilt, ?_⟩
  cases hon : Registry.isEnabled config.enableMap true "audit:prune" with
  | false =>
      rw [hon] at hget
      exact hget
  | true =>
      rw [hon] at hget
      refine ⟨_, hget, fun s' => ?_⟩
      exact AuditPrune.validate_command ⟨store, _, parts.timer⟩ hretaining.whole
        hretaining.positive s'

/-- Whatever configuration is loaded, the pruning command with a store is registered unless the
enable map switches it off, and its defaults break none of its rules just if the configuration
keeps entries for no more than 3650 days. -/
theorem registerBuiltIns_defaults {overrides : Value} {given : Variables} {config : Config}
    (hload : Config.load overrides given = .ok config) (registry : Registry σ)
    {parts : HostParts σ} {store : AuditStore σ} (hstore : parts.store = some store)
    (s : Session σ) :
    exists built, (registerBuiltIns registry config parts s).1 = .ok built ∧
      if Registry.isEnabled config.enableMap true "audit:prune" then
        exists command, built.get? "audit:prune" = some command ∧ forall s',
          command.validate
              (Options.applyDefaults .empty command.descriptor.options).toValue s' =
            (if Number.le config.databaseLogging.keepLogsForDays 3650 then .ok ()
              else .error (.validation (.ruleViolation "days" ⟨.max, some (.number 3650)⟩)), s')
      else built.get? "audit:prune" = registry.get? "audit:prune" :=
  registerBuiltIns_retaining (Config.loadOver_yields .empty overrides given config hload) registry
    hstore s

theorem registerBuiltIns_defaults_month :
    Config.load (keeping 30) [] = .ok (keepingConfig 30) ∧ emptyParts.store = some emptyStore ∧
      exists built command,
        (registerBuiltIns .empty (keepingConfig 30) emptyParts ⟨(), []⟩).1 = .ok built ∧
          built.get? "audit:prune" = some command ∧ forall s',
            command.validate
                (Options.applyDefaults .empty command.descriptor.options).toValue s' =
              (.ok (), s') := by
  have hload : Config.load (keeping 30) [] = .ok (keepingConfig 30) :=
    eq_ok_of_toOption (by decide +kernel)
  have hstore : emptyParts.store = some emptyStore := rfl
  have hwithin : Number.le (keepingConfig 30).databaseLogging.keepLogsForDays 3650 = true := by
    decide +kernel
  have hon : Registry.isEnabled (keepingConfig 30).enableMap true "audit:prune" = true := by
    decide +kernel
  rcases registerBuiltIns_defaults hload .empty hstore ⟨(), []⟩ with ⟨built, hbuilt, hprune⟩
  rw [if_pos hon] at hprune
  rcases hprune with ⟨command, hget, hvalid⟩
  refine ⟨hload, hstore, built, command, hbuilt, hget, fun s' => ?_⟩
  rw [hvalid, if_pos hwithin]

/-- The configuration admits more days than the command does, and the defaults that the command
takes from it are refused. -/
theorem defaults_refused :
    Config.load (keeping 4000) [] = .ok (keepingConfig 4000) ∧
      exists built command,
        (registerBuiltIns .empty (keepingConfig 4000) emptyParts ⟨(), []⟩).1 = .ok built ∧
          built.get? "audit:prune" = some command ∧
          (command.validate
              (Options.applyDefaults .empty command.descriptor.options).toValue ⟨(), []⟩).1 =
            .error (.validation (.ruleViolation "days" ⟨.max, some (.number 3650)⟩)) := by
  have hload : Config.load (keeping 4000) [] = .ok (keepingConfig 4000) :=
    eq_ok_of_toOption (by decide +kernel)
  have hretaining := Config.loadOver_yields .empty (keeping 4000) [] _ hload
  have hbeyond : ¬Number.le (keepingConfig 4000).databaseLogging.keepLogsForDays 3650 = true := by
    decide +kernel
  have hon : Registry.isEnabled (keepingConfig 4000).enableMap true "audit:prune" = true := by
    decide +kernel
  have hstore : emptyParts.store = some emptyStore := rfl
  rcases registerBuiltIns_retaining hretaining .empty hstore ⟨(), []⟩ with
    ⟨built, hbuilt, hprune⟩
  rw [if_pos hon] at hprune
  rcases hprune with ⟨command, hget, hvalid⟩
  refine ⟨hload, built, command, hbuilt, hget, ?_⟩
  rw [hvalid, if_neg hbeyond]

end Console

end OperatorConsole
