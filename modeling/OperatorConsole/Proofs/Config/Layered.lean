import OperatorConsole.Proofs.Action.Contract
import OperatorConsole.Proofs.Config.Checked

/-!
# Layered settings

Each setting of a configuration is drawn from the first layer that gives it: the overrides, then
the environment variables, then the file.  A setting that no layer gives is the standard one, and
an absent entry gives nothing.  The settings of database logging are drawn one by one.

## The base of the overrides

Database logging has one more layer, below the file and above the standard settings.  An entry
under `Fields.baseKey` in the overrides of database logging becomes the base of the record that
the layers make, so that what this base stores is read where no layer gives a setting.  Without
such an entry there is nothing behind the layers.
-/

namespace OperatorConsole

open Check

/-! ## Layers -/

def Value.present? : Value -> Option Value
  | .absent => none
  | v => some v

theorem Value.present?_eq_some {v w : Value} : v.present? = some w ↔ v = w ∧ w ≠ .absent := by
  cases v with
  | absent =>
      constructor
      · intro hnone
        cases hnone
      · rintro ⟨rfl, habsent⟩
        exact absurd rfl habsent
  | _ =>
      constructor
      · intro hsome
        cases hsome
        exact ⟨rfl, Value.noConfusion⟩
      · rintro ⟨rfl, _⟩
        rfl

namespace Fields

/-- What a layer gives for a setting, if anything: its last entry that is not absent. -/
def given? (name : String) : Fields -> Option Value
  | [] => none
  | (key, v) :: rest => (given? name rest).or (if name = key then v.present? else none)

theorem given?_append (name : String) (fields others : Fields) :
    given? name (fields ++ others) = (given? name others).or (given? name fields) := by
  induction fields with
  | nil => simp [given?]
  | cons field rest ih =>
      rcases field with ⟨key, v⟩
      rw [List.cons_append, given?, given?, ih, Option.or_assoc]

theorem given?_ofOption {write : α -> Value} (hpresent : forall a, write a ≠ .absent)
    (name key : String) (a? : Option α) :
    given? name (ofOption key (a?.map write)) = if name = key then a?.map write else none := by
  cases a? with
  | none => simp [ofOption, given?]
  | some a => simp [ofOption, given?, Value.present?_eq_some.mpr ⟨rfl, hpresent a⟩]

theorem given?_ne_absent {name : String} {fields : Fields} {v : Value}
    (hgiven : given? name fields = some v) : v ≠ .absent := by
  induction fields with
  | nil => cases hgiven
  | cons field rest ih =>
      rcases field with ⟨key, w⟩
      rw [given?, Option.or_eq_some_iff] at hgiven
      rcases hgiven with hrest | ⟨_, hfirst⟩
      · exact ih hrest
      · split at hfirst
        · exact (Value.present?_eq_some.mp hfirst).2
        · cases hfirst

end Fields

namespace Layer

theorem lay_cons (below : Record) (key : String) (v : Value) (rest : Fields) :
    lay below ((key, v) :: rest) =
      lay (if v = .absent then below else below.assign key v) rest := by
  cases v with
  | _ => rfl

theorem own?_lay (below : Record) (above : Fields) {name : String}
    (hname : name ≠ Fields.baseKey) :
    (lay below above).fields.own? name = (above.given? name).or (below.fields.own? name) := by
  induction above generalizing below with
  | nil => rfl
  | cons setting rest ih =>
      rcases setting with ⟨key, v⟩
      rw [lay_cons, ih, Fields.given?, Option.or_assoc]
      congr 1
      by_cases habsent : v = .absent
      · subst habsent
        simp [Value.present?]
      · have hpresent : v.present? = some v := Value.present?_eq_some.mpr ⟨rfl, habsent⟩
        rw [if_neg habsent, Record.own?_assign _ _ _ hname, hpresent]
        split
        · rfl
        · rfl

/-- Which base a layer leaves depends on no ordinary setting of the layers below. -/
theorem lay_base {below other : Record} (above : Fields) (hbase : below.base = other.base)
    (hkey : below.fields.own? Fields.baseKey = other.fields.own? Fields.baseKey) :
    (lay below above).base = (lay other above).base := by
  induction above generalizing below other with
  | nil => exact hbase
  | cons setting rest ih =>
      rcases setting with ⟨key, v⟩
      rw [lay_cons, lay_cons]
      by_cases habsent : v = .absent
      · rw [if_pos habsent, if_pos habsent]
        exact ih hbase hkey
      · rw [if_neg habsent, if_neg habsent]
        have hsame : below.isBaseKey key = other.isBaseKey key := by
          unfold Record.isBaseKey Record.toValue
          by_cases hname : key = Fields.baseKey
          · rw [hname, Value.stored?, Value.stored?, hkey, hbase]
          · rw [decide_eq_false hname]
            rfl
        unfold Record.assign
        rw [← hsame]
        split
        · split
          · exact ih rfl hkey
          · exact ih hbase hkey
        · refine ih hbase ?_
          rw [Fields.own?_define, Fields.own?_define, hkey]

theorem lay_ordinary (below : Record) {above : Fields}
    (hordinary : above.own? Fields.baseKey = none) :
    (lay below above).base = below.base ∧
      (lay below above).fields.own? Fields.baseKey = below.fields.own? Fields.baseKey := by
  induction above generalizing below with
  | nil => exact ⟨rfl, rfl⟩
  | cons setting rest ih =>
      rcases setting with ⟨key, v⟩
      rw [Fields.own?_cons] at hordinary
      split at hordinary
      · cases hordinary
      · rename_i hkey
        have hname : key ≠ Fields.baseKey := fun hsame => hkey hsame.symm
        rw [lay_cons]
        split
        · exact ih _ hordinary
        · rw [Record.assign_ordinary _ hname]
          rcases ih { below with fields := below.fields.define key v } hordinary with
            ⟨hbase, hown⟩
          exact ⟨hbase, hown.trans ((Fields.own?_define _ _ _ _).trans (if_neg hkey))⟩

/-- What the base that a layer makes for itself stores under a name. -/
def behind? (above : Fields) (name : String) : Option Value :=
  ((lay .empty above).base.stored? name).bind Value.present?

theorem behind?_eq_none {above : Fields} (hordinary : above.own? Fields.baseKey = none)
    (name : String) : behind? above name = none := by
  unfold behind?
  rw [(lay_ordinary .empty hordinary).1]
  rfl

/-- The name of a single setting, to which no record answers that does not have it. -/
structure IsSetting (name : String) : Prop where
  builtIn : Fields.builtIn? name = none
  base : name ≠ Fields.baseKey
  single : name ≠ "databaseLogging"

instance (name : String) : Decidable (IsSetting name) :=
  decidable_of_iff
    (Fields.builtIn? name = none ∧ name ≠ Fields.baseKey ∧ name ≠ "databaseLogging")
    ⟨fun ⟨hbuiltIn, hbase, hsingle⟩ => ⟨hbuiltIn, hbase, hsingle⟩,
      fun ⟨hbuiltIn, hbase, hsingle⟩ => ⟨hbuiltIn, hbase, hsingle⟩⟩

theorem own?_merge (low middle high : Layer) {name : String} (hname : IsSetting name) :
    (merge [low, middle, high]).own? name =
      [high.settings.given? name, middle.settings.given? name,
        low.settings.given? name].findSome? id := by
  unfold merge
  rw [Fields.own?_define, if_neg hname.single]
  simp only [List.map_cons, List.map_nil, List.foldl_cons, List.foldl_nil]
  rw [own?_lay _ _ hname.base, own?_lay _ _ hname.base, own?_lay _ _ hname.base]
  cases high.settings.given? name with
  | some v => rfl
  | none =>
      cases middle.settings.given? name with
      | some v => rfl
      | none =>
          cases low.settings.given? name with
          | some v => rfl
          | none => rfl

def logged (low middle high : Fields) : Record :=
  lay (lay (lay .empty low) middle) high

theorem own?_merge_logging (low middle high : Layer) :
    (merge [low, middle, high]).own? "databaseLogging" =
      some (logged low.logging middle.logging high.logging).toValue := by
  unfold merge
  rw [Fields.own?_define, if_pos rfl]
  rfl

theorem get_logged {low middle : Fields} (high : Fields) {name : String}
    (hlow : low.own? Fields.baseKey = none) (hmiddle : middle.own? Fields.baseKey = none)
    (hname : IsSetting name) :
    (logged low middle high).get name =
      ([high.given? name, middle.given? name, low.given? name,
        behind? high name].findSome? id).getD .absent := by
  have hbelow := lay_ordinary .empty hlow
  have habove := lay_ordinary (lay .empty low) hmiddle
  have hbase : (logged low middle high).base = (lay .empty high).base :=
    lay_base high (habove.1.trans hbelow.1) (habove.2.trans hbelow.2)
  rw [Record.get_ordinary _ hname.builtIn hname.base, hbase]
  unfold logged behind?
  rw [own?_lay _ _ hname.base, own?_lay _ _ hname.base, own?_lay _ _ hname.base]
  cases high.given? name with
  | some v => rfl
  | none =>
      cases middle.given? name with
      | some v => rfl
      | none =>
          cases low.given? name with
          | some v => rfl
          | none =>
              cases hstored : (lay .empty high).base.stored? name with
              | none => rfl
              | some v =>
                  cases v with
                  | _ => rfl

end Layer

/-! ## Drawing a setting -/

/-- The first layer that gives the setting decides; if none does it is the standard one. -/
def IsDrawn (check : Value -> Check α) (standard : α) : List (Option Value) -> α -> Prop
  | [], a => a = standard
  | none :: rest, a => IsDrawn check standard rest a
  | some v :: _, a => check v = ok a

theorem IsDrawn.of_withDefault {check : Value -> Check α} {standard a : α}
    {layers : List (Option Value)} (hpresent : forall v, some v ∈ layers -> v ≠ .absent)
    (hpass : Check.withDefault standard check ((layers.findSome? id).getD .absent) = ok a) :
    IsDrawn check standard layers a := by
  induction layers with
  | nil =>
      cases hpass
      rfl
  | cons first rest ih =>
      cases first with
      | none => exact ih (fun v hv => hpresent v (List.mem_cons_of_mem _ hv)) hpass
      | some v =>
          have hv : v ≠ .absent := hpresent v List.mem_cons_self
          rw [List.findSome?_cons] at hpass
          exact (withDefault_present hv).symm.trans hpass

theorem IsDrawn.of_written {check : Value -> Check α} {write : α -> Value} {standard a : α}
    (hstable : Stable check write) {raw : Value} {a? : Option α}
    (hraw : Check.optional check raw = ok a?) (above : List (Option Value))
    (hdrawn : IsDrawn check standard (above ++ [a?.map write]) a) :
    IsDrawn check standard (above ++ [raw.present?]) a := by
  induction above with
  | nil =>
      rcases optional_eq_ok.mp hraw with ⟨rfl, rfl⟩ | ⟨hpresent, b, hb, rfl⟩
      · exact hdrawn
      · have hsame : ok b = ok a := (hstable raw b hb).symm.trans hdrawn
        rw [List.nil_append, Value.present?_eq_some.mpr ⟨rfl, hpresent⟩]
        exact hb.trans hsame
  | cons first rest ih =>
      cases first with
      | none => exact ih hdrawn
      | some v => exact hdrawn

theorem isDrawn_skip {check : Value -> Check α} {standard a : α} (first : Option Value)
    (rest : List (Option Value)) :
    IsDrawn check standard (first :: none :: rest) a ↔
      IsDrawn check standard (first :: rest) a := by
  cases first with
  | none => exact Iff.rfl
  | some v => exact Iff.rfl

theorem isDrawn_split {check : Value -> Check α} {standard a : α}
    (first second third : Option Value) (rest : List (Option Value)) :
    IsDrawn check standard (first :: second.or third :: rest) a ↔
      IsDrawn check standard (first :: second :: third :: rest) a := by
  cases first with
  | none =>
      cases second with
      | none => exact Iff.rfl
      | some v => exact Iff.rfl
  | some v => exact Iff.rfl

/-! ## Environment variables -/

namespace Variables

def switchValue? (given : Variables) (name : String) : Option Value :=
  ((given.lookup name).bind switch?).map .bool

def numberValue? (given : Variables) (name : String) : Option Value :=
  ((given.lookup name).bind fun s =>
    if Text.isBlankString s then none else (Value.text s).numeric?).map .number

def textValue? (given : Variables) (name : String) : Option Value :=
  (given.readText? name).map .text

theorem switchValue?_of_read {given : Variables} {name : String} {b? : Option Bool}
    (hread : given.readSwitch name = .ok b?) : given.switchValue? name = b?.map .bool := by
  unfold readSwitch at hread
  unfold switchValue?
  cases hlookup : given.lookup name with
  | none =>
      rw [hlookup] at hread
      cases hread
      rfl
  | some s =>
      rw [hlookup] at hread
      dsimp only at hread
      cases hswitch : switch? s with
      | none =>
          rw [hswitch] at hread
          cases hread
      | some b =>
          rw [hswitch] at hread
          cases hread
          rw [Option.bind_some, hswitch]

theorem numberValue?_of_read {given : Variables} {name : String} {x? : Option Number}
    (hread : given.readNumber name = .ok x?) : given.numberValue? name = x?.map .number := by
  unfold readNumber at hread
  unfold numberValue?
  cases hlookup : given.lookup name with
  | none =>
      rw [hlookup] at hread
      cases hread
      rfl
  | some s =>
      rw [hlookup] at hread
      dsimp only at hread
      rw [Option.bind_some]
      split at hread
      · rename_i hblank
        cases hread
        rw [if_pos hblank]
      · rename_i hblank
        rw [if_neg hblank]
        cases hnumeric : (Value.text s).numeric? with
        | none =>
            rw [hnumeric] at hread
            cases hread
        | some x =>
            rw [hnumeric] at hread
            cases hread
            rfl

structure IsLayer (given : Variables) (layer : Layer) : Prop where
  enabled : layer.settings.given? "enabled" = given.switchValue? "OPSDECK_ENABLED"
  environment : layer.settings.given? "environment" =
    (given.textValue? "OPSDECK_ENV").or (given.textValue? "NODE_ENV")
  maxExecutionTimeSeconds : layer.settings.given? "maxExecutionTimeSeconds" =
    given.numberValue? "OPSDECK_MAX_EXECUTION_TIME"
  logExecutions : layer.settings.given? "logExecutions" =
    given.switchValue? "OPSDECK_LOG_EXECUTIONS"
  commands : layer.settings.given? "commands" = none
  autoDiscovery : layer.settings.given? "autoDiscovery" = none
  environmentRestrictions : layer.settings.given? "environmentRestrictions" = none
  logging : layer.logging.given? "enabled" = given.switchValue? "OPSDECK_DB_LOGGING"
  path : layer.logging.given? "path" = given.textValue? "OPSDECK_DB_PATH"
  keepLogsForDays : layer.logging.given? "keepLogsForDays" = none
  ordinary : layer.logging.own? Fields.baseKey = none

theorem layer_yields (given : Variables) : Yields given.IsLayer given.layer := by
  unfold layer
  refine Yields.bind (fun _ => switchValue?_of_read) fun enabled henabled => ?_
  refine Yields.bind (fun _ => numberValue?_of_read) fun time htime => ?_
  refine Yields.bind (fun _ => switchValue?_of_read) fun logged hlogged => ?_
  refine Yields.bind (fun _ => switchValue?_of_read) fun logging hlogging => ?_
  have henvironment : given.environment?.map Value.text =
      (given.textValue? "OPSDECK_ENV").or (given.textValue? "NODE_ENV") := by
    unfold environment? textValue?
    cases given.readText? "OPSDECK_ENV" with
    | none => rfl
    | some name => rfl
  apply Yields.ok
  constructor
  case ordinary => simp [Fields.baseKey]
  case environment =>
    rw [← henvironment]
    simp (disch := simp) [Fields.given?_append, Fields.given?_ofOption]
  case path =>
    unfold textValue?
    simp (disch := simp) [Fields.given?_append, Fields.given?_ofOption]
  all_goals simp (disch := simp) [Fields.given?_append,
    Fields.given?_ofOption, henabled, htime, hlogged, hlogging]

end Variables

namespace DatabaseLogging

/-- Each setting of database logging is drawn from the overrides, then from the variables, then
from the file, and then from what the overrides put behind. -/
structure IsLayered (logging : DatabaseLogging) (overrides : Fields) (given : Variables)
    (filed : Option DatabaseLogging) : Prop where
  enabled : IsDrawn Check.boolean standard.enabled
    [overrides.given? "enabled", given.switchValue? "OPSDECK_DB_LOGGING",
      filed.map fun d => .bool d.enabled, Layer.behind? overrides "enabled"] logging.enabled
  path : IsDrawn (fun v => some <$> checkPath v) none
    [overrides.given? "path", given.textValue? "OPSDECK_DB_PATH",
      filed.bind fun d => d.path.map .text, Layer.behind? overrides "path"] logging.path
  keepLogsForDays : IsDrawn checkDays standard.keepLogsForDays
    [overrides.given? "keepLogsForDays", filed.map fun d => .number d.keepLogsForDays,
      Layer.behind? overrides "keepLogsForDays"] logging.keepLogsForDays

end DatabaseLogging

namespace Config

/-- Each setting of a configuration is drawn from the overrides, then from the variables, then
from the file. -/
structure IsLayered (config : Config) (overrides : Fields) (given : Variables)
    (file : Record) : Prop where
  enabled : IsDrawn Check.boolean true
    [overrides.given? "enabled", given.switchValue? "OPSDECK_ENABLED",
      (file.get "enabled").present?] config.enabled
  environment : IsDrawn checkEnvironment standardEnvironment
    [overrides.given? "environment", given.textValue? "OPSDECK_ENV", given.textValue? "NODE_ENV",
      (file.get "environment").present?] config.environment
  maxExecutionTimeSeconds : IsDrawn checkTime standardTime
    [overrides.given? "maxExecutionTimeSeconds", given.numberValue? "OPSDECK_MAX_EXECUTION_TIME",
      (file.get "maxExecutionTimeSeconds").present?] config.maxExecutionTimeSeconds
  logExecutions : IsDrawn Check.boolean true
    [overrides.given? "logExecutions", given.switchValue? "OPSDECK_LOG_EXECUTIONS",
      (file.get "logExecutions").present?] config.logExecutions
  commands : IsDrawn checkCommands []
    [overrides.given? "commands", (file.get "commands").present?] config.commands
  autoDiscovery : IsDrawn AutoDiscovery.check .standard
    [overrides.given? "autoDiscovery", (file.get "autoDiscovery").present?] config.autoDiscovery
  environmentRestrictions : IsDrawn Restrictions.check .standard
    [overrides.given? "environmentRestrictions",
      (file.get "environmentRestrictions").present?] config.environmentRestrictions
  /-- What the file gives is completed before it is layered. -/
  databaseLogging : exists filed : Option DatabaseLogging,
    Check.optional DatabaseLogging.check (file.get "databaseLogging") = ok filed ∧
      config.databaseLogging.IsLayered (overrides.own "databaseLogging").fields given filed

end Config

/-! ## From layers to settings -/

section

variable {check : Value -> Check α} {write : α -> Value} {standard a : α}

theorem isDrawn_of_merge (low middle high : Layer) {name : String} (hname : Layer.IsSetting name)
    (hstable : Stable check write) {raw : Value} {a? : Option α}
    (hraw : Check.optional check raw = ok a?)
    (hlow : low.settings.given? name = a?.map write)
    (hpass : Check.withDefault standard check
      ((Record.ofFields (Layer.merge [low, middle, high])).get name) = ok a) :
    IsDrawn check standard
      [high.settings.given? name, middle.settings.given? name, raw.present?] a := by
  rw [Record.get_ofFields hname.builtIn hname.base, Layer.own?_merge low middle high hname] at hpass
  have hdrawn := IsDrawn.of_withDefault (fun v hv => ?_) hpass
  · rw [hlow] at hdrawn
    exact IsDrawn.of_written hstable hraw
      [high.settings.given? name, middle.settings.given? name] hdrawn
  · simp only [List.mem_cons, List.not_mem_nil, or_false] at hv
    rcases hv with hhigh | hmiddle | hlow
    · exact Fields.given?_ne_absent hhigh.symm
    · exact Fields.given?_ne_absent hmiddle.symm
    · exact Fields.given?_ne_absent hlow.symm

theorem isDrawn_of_logged {low middle : Fields} (high : Fields) {name : String}
    (hlow : low.own? Fields.baseKey = none) (hmiddle : middle.own? Fields.baseKey = none)
    (hname : Layer.IsSetting name)
    (hpass : Check.withDefault standard check ((Layer.logged low middle high).get name) = ok a) :
    IsDrawn check standard
      [high.given? name, middle.given? name, low.given? name, Layer.behind? high name] a := by
  rw [Layer.get_logged high hlow hmiddle hname] at hpass
  refine IsDrawn.of_withDefault (fun v hv => ?_) hpass
  simp only [List.mem_cons, List.not_mem_nil, or_false] at hv
  rcases hv with hhigh | hmiddle | hlow | hbehind
  · exact Fields.given?_ne_absent hhigh.symm
  · exact Fields.given?_ne_absent hmiddle.symm
  · exact Fields.given?_ne_absent hlow.symm
  · rcases Option.bind_eq_some_iff.mp hbehind.symm with ⟨_, _, hpresent⟩
    exact (Value.present?_eq_some.mp hpresent).2

end

namespace DatabaseLogging

def layer (filed : Option DatabaseLogging) : Fields :=
  (filed.map fun logging => logging.toValue.fields).getD []

theorem own?_layer (filed : Option DatabaseLogging) :
    (layer filed).own? Fields.baseKey = none := by
  cases filed with
  | none => rfl
  | some logging =>
      change Fields.own? (([("enabled", Value.bool logging.enabled)] ++
        Fields.ofOption "path" (logging.path.map .text) ++
        [("keepLogsForDays", Value.number logging.keepLogsForDays)]) : Fields) _ = none
      simp [Fields.baseKey]

theorem given?_layer (filed : Option DatabaseLogging) :
    (layer filed).given? "enabled" = (filed.map fun d => .bool d.enabled) ∧
      (layer filed).given? "path" = (filed.bind fun d => d.path.map .text) ∧
      (layer filed).given? "keepLogsForDays" =
        (filed.map fun d => .number d.keepLogsForDays) := by
  cases filed with
  | none => exact ⟨rfl, rfl, rfl⟩
  | some logging =>
      rcases logging with ⟨enabled, path, days⟩
      cases path with
      | none => exact ⟨rfl, rfl, rfl⟩
      | some path => exact ⟨rfl, rfl, rfl⟩

theorem isLayered_of_check {filed : Option DatabaseLogging} {given : Variables} {middle : Layer}
    {overrides : Fields} {logging : DatabaseLogging} (hmiddle : given.IsLayer middle)
    (hpass : check (Layer.logged (layer filed) middle.logging overrides).toValue = ok logging) :
    logging.IsLayered overrides given filed := by
  rcases isReadFrom_of_check hpass with ⟨r, hr, hread⟩
  cases hr
  rcases given?_layer filed with ⟨henabled, hpath, hdays⟩
  constructor
  case enabled =>
    have hdrawn := isDrawn_of_logged overrides (own?_layer filed) hmiddle.ordinary
      (by decide) hread.enabled
    rw [henabled, hmiddle.logging] at hdrawn
    exact hdrawn
  case path =>
    have hoptional : Check.withDefault none (fun v => some <$> checkPath v)
        ((Layer.logged (layer filed) middle.logging overrides).get "path") = ok logging.path :=
      hread.path
    have hdrawn := isDrawn_of_logged overrides (own?_layer filed) hmiddle.ordinary
      (by decide) hoptional
    rw [hpath, hmiddle.path] at hdrawn
    exact hdrawn
  case keepLogsForDays =>
    have hdrawn := isDrawn_of_logged overrides (own?_layer filed) hmiddle.ordinary
      (by decide) hread.keepLogsForDays
    rw [hdays, hmiddle.keepLogsForDays] at hdrawn
    exact (isDrawn_skip _ _).mp hdrawn

end DatabaseLogging

namespace Config

namespace Partial

theorem own_logging (settings : Partial) :
    (settings.toFields.own "databaseLogging").fields =
      DatabaseLogging.layer settings.databaseLogging := by
  unfold Fields.own toFields DatabaseLogging.layer
  cases settings.databaseLogging with
  | none => simp [Value.fields]
  | some logging => simp

theorem given?_toFields (settings : Partial) :
    settings.toFields.given? "enabled" = settings.enabled.map .bool ∧
      settings.toFields.given? "environment" = settings.environment.map .text ∧
      settings.toFields.given? "maxExecutionTimeSeconds" =
        settings.maxExecutionTimeSeconds.map .number ∧
      settings.toFields.given? "logExecutions" = settings.logExecutions.map .bool ∧
      settings.toFields.given? "commands" = settings.commands.map
        (fun map => .ofFields (map.map fun entry => (entry.1, .bool entry.2))) ∧
      settings.toFields.given? "autoDiscovery" =
        settings.autoDiscovery.map AutoDiscovery.toValue ∧
      settings.toFields.given? "environmentRestrictions" =
        settings.environmentRestrictions.map Restrictions.toValue := by
  have hdiscovery := @Fields.given?_ofOption _ AutoDiscovery.toValue fun _ => Value.noConfusion
  have hrestrictions := @Fields.given?_ofOption _ Restrictions.toValue fun _ => Value.noConfusion
  have hlogging := @Fields.given?_ofOption _ DatabaseLogging.toValue fun _ => Value.noConfusion
  unfold toFields
  refine ⟨?_, ?_, ?_, ?_, ?_, ?_, ?_⟩
  all_goals simp (disch := simp [Value.ofFields]) [Fields.given?_append, Fields.given?_ofOption,
    hdiscovery, hrestrictions, hlogging]

end Partial

theorem isLayered_of_check {settings : Partial} {file : Record} {given : Variables}
    {middle : Layer} {overrides : Fields} {config : Config} (hfile : settings.IsReadFrom file)
    (hmiddle : given.IsLayer middle)
    (hpass : check (.ofFields
      (Layer.merge [.ofFields settings.toFields, middle, .ofFields overrides])) = ok config) :
    config.IsLayered overrides given file := by
  rcases isReadFrom_of_check hpass with ⟨r, hr, hread⟩
  cases hr
  rcases settings.given?_toFields with ⟨henabled, henvironment, htime, hlogged, hcommands,
    hdiscovery, hrestrictions⟩
  constructor
  case enabled =>
    have hdrawn := isDrawn_of_merge (.ofFields settings.toFields) middle (.ofFields overrides)
      (by decide) stable_boolean hfile.enabled henabled hread.enabled
    rw [hmiddle.enabled] at hdrawn
    exact hdrawn
  case environment =>
    have hdrawn := isDrawn_of_merge (.ofFields settings.toFields) middle (.ofFields overrides)
      (by decide) checkEnvironment_stable hfile.environment henvironment hread.environment
    rw [hmiddle.environment] at hdrawn
    exact (isDrawn_split _ _ _ _).mp hdrawn
  case maxExecutionTimeSeconds =>
    have hdrawn := isDrawn_of_merge (.ofFields settings.toFields) middle (.ofFields overrides)
      (by decide) checkTime_stable hfile.maxExecutionTimeSeconds htime hread.maxExecutionTimeSeconds
    rw [hmiddle.maxExecutionTimeSeconds] at hdrawn
    exact hdrawn
  case logExecutions =>
    have hdrawn := isDrawn_of_merge (.ofFields settings.toFields) middle (.ofFields overrides)
      (by decide) stable_boolean hfile.logExecutions hlogged hread.logExecutions
    rw [hmiddle.logExecutions] at hdrawn
    exact hdrawn
  case commands =>
    have hdrawn := isDrawn_of_merge (.ofFields settings.toFields) middle (.ofFields overrides)
      (by decide) checkCommands_stable hfile.commands hcommands hread.commands
    rw [hmiddle.commands] at hdrawn
    exact (isDrawn_skip _ _).mp hdrawn
  case autoDiscovery =>
    have hdrawn := isDrawn_of_merge (.ofFields settings.toFields) middle (.ofFields overrides)
      (by decide) AutoDiscovery.check_stable hfile.autoDiscovery hdiscovery hread.autoDiscovery
    rw [hmiddle.autoDiscovery] at hdrawn
    exact (isDrawn_skip _ _).mp hdrawn
  case environmentRestrictions =>
    have hdrawn := isDrawn_of_merge (.ofFields settings.toFields) middle (.ofFields overrides)
      (by decide) Restrictions.check_stable
      hfile.environmentRestrictions hrestrictions hread.environmentRestrictions
    rw [hmiddle.environmentRestrictions] at hdrawn
    exact (isDrawn_skip _ _).mp hdrawn
  case databaseLogging =>
    have hlogging := hread.databaseLogging
    rw [Record.get_own (Layer.own?_merge_logging _ _ _),
      withDefault_present Value.noConfusion] at hlogging
    have hlow : (Layer.ofFields settings.toFields).logging =
        DatabaseLogging.layer settings.databaseLogging := settings.own_logging
    rw [hlow] at hlogging
    exact ⟨settings.databaseLogging, hfile.databaseLogging,
      DatabaseLogging.isLayered_of_check hmiddle hlogging⟩

theorem loadOver_layers {settings : Partial} {file : Record} (hfile : settings.IsReadFrom file)
    (overrides : Value) (given : Variables) :
    Yields (fun config => config.IsLayered overrides.fields given file)
      (loadOver (.ofFields settings.toFields) overrides given) := by
  refine given.layer_yields.bind fun middle hmiddle => ?_
  have hlayer : Yields (fun layer => layer = Layer.ofFields overrides.fields)
      (overridesLayer overrides) := by
    cases overrides with
    | null => exact Yields.error _
    | _ => exact Yields.ok rfl
  refine hlayer.bind fun high hhigh => ?_
  subst hhigh
  exact fun _ hread => isLayered_of_check hfile hmiddle (check_of_ofLayers hread)

/-- Every setting of a configuration that was loaded is drawn from the layers in their order.
Only an entry under the key of the base puts anything behind the overrides of database logging,
and an empty file is like none. -/
theorem loadFile_layers (overrides : Value) (given : Variables) :
    (forall path content config, loadFile path content overrides given = .ok config ->
      exists document file, content.bind Json.parse? = some document ∧
        Check.record? document = some file ∧ config.IsLayered overrides.fields given file) ∧
    ((overrides.fields.own "databaseLogging").fields.own? Fields.baseKey = none ->
      forall name, Layer.behind? (overrides.fields.own "databaseLogging").fields name = none) ∧
    (forall path text, Json.parse? text = some (.ofFields []) ->
      loadFile path (some text) overrides given = load overrides given) ∧
    Json.parse? "\x7b\x7d" = some (.ofFields []) := by
  refine ⟨?_, fun hordinary => Layer.behind?_eq_none hordinary, ?_, rfl⟩
  · intro path content config hload
    unfold loadFile at hload
    cases hdocument : content.bind Json.parse? with
    | none =>
        rw [hdocument] at hload
        cases hload
    | some document =>
        rw [hdocument] at hload
        dsimp only at hload
        cases hsettings : (checkPartial document).toExcept with
        | error issues =>
            rw [hsettings] at hload
            cases hload
        | ok settings =>
            rw [hsettings] at hload
            rcases isReadFrom_of_checkPartial (toExcept_eq_ok.mp hsettings) with
              ⟨file, read, hfile, hread, rfl⟩
            exact ⟨document, file, rfl, hfile, loadOver_layers hread overrides given config hload⟩
  · intro path text hempty
    unfold loadFile
    rw [Option.bind_some, hempty]
    rfl

/-- An absent name, which hides nothing, and the days of database logging. -/
def mixedOverrides : Value :=
  .ofFields [("environment", .absent),
    ("databaseLogging", .ofFields [("keepLogsForDays", .number 7)])]

def mixedVariables : Variables :=
  [("OPSDECK_ENV", " "), ("NODE_ENV", "staging"), ("OPSDECK_DB_LOGGING", "off")]

def mixedContent : String :=
  "\x7b\"environment\":\"test\",\"databaseLogging\":\x7b\"path\":\"a.db\"\x7d\x7d"

theorem loadFile_layers_mixed :
    exists config document file,
      loadFile "opsdeck.json" (some mixedContent) mixedOverrides mixedVariables = .ok config ∧
        config.environment = "staging" ∧ config.databaseLogging = ⟨false, some "a.db", 7⟩ ∧
        Json.parse? mixedContent = some document ∧ Check.record? document = some file ∧
        config.IsLayered mixedOverrides.fields mixedVariables file := by
  have hloaded : (loadFile "opsdeck.json" (some mixedContent) mixedOverrides
      mixedVariables).toOption.map (fun config => (config.environment, config.databaseLogging)) =
        some ("staging", ⟨false, some "a.db", 7⟩) := by
    decide +kernel
  cases hload : loadFile "opsdeck.json" (some mixedContent) mixedOverrides mixedVariables with
  | error failure =>
      rw [hload] at hloaded
      cases hloaded
  | ok config =>
      rw [hload] at hloaded
      have hsettings := Option.some.inj hloaded
      rcases (loadFile_layers mixedOverrides mixedVariables).1 _ _ config hload with
        ⟨document, file, hdocument, hfile, hlayered⟩
      rw [Option.bind_some] at hdocument
      exact ⟨config, document, file, rfl, congrArg Prod.fst hsettings,
        congrArg Prod.snd hsettings, hdocument, hfile, hlayered⟩

def basedLogging : Fields :=
  [(Fields.baseKey, .ofFields [("enabled", .bool false)])]

/-- What is behind the overrides switches database logging off, although no layer gives a switch
and the standard one is on. -/
theorem behind_decides :
    basedLogging.given? "enabled" = none ∧ DatabaseLogging.standard.enabled = true ∧
      (loadFile "opsdeck.json" (some "\x7b\x7d")
        (.ofFields [("databaseLogging", .ofFields basedLogging)]) []).toOption.map
          (fun config => config.databaseLogging.enabled) = some false := by
  decide +kernel

end Config

end OperatorConsole
