import OperatorConsole.Proofs.Check.Shape
import OperatorConsole.Proofs.Config.Layered

/-!
# Settings in shape

Overrides are accepted just if every setting that is drawn has the shape that it has to have.
What they are refused for is told in a validation failure.

## Database logging

The settings of database logging are looked up in the overrides before anything is checked, so
that a value in their place that is no record has none of them.  It is not refused, and the
configuration is the one that the overrides give without it.
-/

namespace OperatorConsole

open Check

/-! ## Shapes of settings -/

theorem forall_fields_nil {holds : String × Shape -> Prop} :
    (forall field, field ∈ ([] : List (String × Shape)) -> holds field) ↔ True :=
  iff_true_intro (List.forall_mem_nil holds)

namespace AutoDiscovery

def shape : Shape :=
  .record [("enabled", .optional .switch), ("directory", .optional .filledText),
    ("defaultEnabled", .optional .switch)]

theorem check_isFor : IsFor check shape := by
  apply record_isFor
  intro r
  simp only [passes_seq, passes_map, (boolean_isFor.withDefault _).field,
    filledText_isFor.optional.field, List.forall_mem_cons, forall_fields_nil, and_assoc, and_true]

end AutoDiscovery

namespace Restriction

def shape : Shape :=
  .record [("allowedRiskLevels", .listOf (.word ["low", "medium", "high"])),
    ("disableUnlessConfirmed", .optional .switch)]

theorem check_isFor : IsFor check shape := by
  have hlevels : IsFor RiskLevel.check (.word ["low", "medium", "high"]) :=
    oneOf_isFor RiskLevel.words
  apply record_isFor
  intro r
  simp only [passes_seq, passes_map, (boolean_isFor.withDefault _).field, hlevels.list.field,
    List.forall_mem_cons, forall_fields_nil, and_true]

end Restriction

theorem Restrictions.check_isFor : IsFor check (.mapOf Restriction.shape) :=
  Restriction.check_isFor.map?

abbrev Settings := List (String × Shape)

namespace Settings

def Fit (settings : Settings) (draw : String -> Option Value) : Prop :=
  forall setting, setting ∈ settings -> forall v, draw setting.1 = some v -> setting.2 v

def optional (settings : Settings) : Settings :=
  settings.map fun setting => (setting.1, .optional setting.2)

theorem optional_iff_present {shape : Shape} {v : Value} :
    Shape.optional shape v ↔ forall w, v.present? = some w -> shape w := by
  cases v with
  | absent => exact iff_of_true (Or.inl rfl) nofun
  | _ =>
      constructor
      · intro hshape w hw
        cases hw
        exact hshape.resolve_left Value.noConfusion
      · intro hall
        exact Or.inr (hall _ rfl)

theorem fit_iff {settings : Settings} {draw : String -> Option Value} {r : Record}
    (hdraw : forall setting, setting ∈ settings -> (r.get setting.1).present? = draw setting.1) :
    (forall field, field ∈ settings.optional -> field.2 (r.get field.1)) ↔ settings.Fit draw := by
  unfold optional Fit
  rw [List.forall_mem_map]
  apply forall₂_congr
  intro setting hsetting
  rw [← hdraw setting hsetting]
  exact optional_iff_present

theorem Fit.upper {settings : Settings} {high low : String -> Option Value}
    (hfit : settings.Fit fun name => (high name).or (low name)) : settings.Fit high := by
  intro setting hsetting v hv
  apply hfit setting hsetting v
  exact Option.or_eq_some_iff.mpr (Or.inl hv)

end Settings

namespace DatabaseLogging

def settings : Settings :=
  [("enabled", .switch), ("path", .filledText), ("keepLogsForDays", .positiveInteger)]

theorem check_isFor : IsFor check (.record settings.optional) := by
  apply record_isFor
  intro r
  simp only [settings, Settings.optional, List.map_cons, List.map_nil, passes_seq, passes_map,
    (boolean_isFor.withDefault _).field, filledText_isFor.optional.field,
    (positiveInteger_isFor.withDefault _).field, List.forall_mem_cons, forall_fields_nil,
    and_assoc, and_true]

end DatabaseLogging

namespace Config

def settings : Settings :=
  [("enabled", .switch), ("environment", .filledText), ("maxExecutionTimeSeconds", .positive),
    ("logExecutions", .switch), ("commands", .mapOf .switch),
    ("autoDiscovery", AutoDiscovery.shape),
    ("environmentRestrictions", .mapOf Restriction.shape)]

theorem checkEnvironment_isFor : IsFor checkEnvironment .filledText :=
  filledText_isFor

theorem checkTime_isFor : IsFor checkTime .positive :=
  positive_isFor

theorem checkCommands_isFor : IsFor checkCommands (.mapOf .switch) :=
  boolean_isFor.map?

theorem passes_check {r : Record} :
    Passes (check r.toValue) ↔
      (forall field, field ∈ settings.optional -> field.2 (r.get field.1)) ∧
        Shape.optional (.record DatabaseLogging.settings.optional) (r.get "databaseLogging") := by
  have hrecord : Check.record? r.toValue = some r := rfl
  unfold check
  simp only [passes_record, hrecord, Option.some.injEq, exists_eq_left', settings,
    Settings.optional, List.map_cons, List.map_nil, passes_seq, passes_map,
    (boolean_isFor.withDefault _).field, (checkEnvironment_isFor.withDefault _).field,
    (checkTime_isFor.withDefault _).field, (checkCommands_isFor.withDefault _).field,
    (AutoDiscovery.check_isFor.withDefault _).field,
    (Restrictions.check_isFor.withDefault _).field,
    (DatabaseLogging.check_isFor.withDefault _).field, List.forall_mem_cons, forall_fields_nil,
    and_assoc, and_true, DatabaseLogging.settings]

end Config

/-! ## Variables -/

def Failure.IsValidation (failure : Failure) : Prop :=
  exists fault, failure = .validation fault

namespace Variables

def setting? (given : Variables) (name : String) : Option Value :=
  if name = "enabled" then given.switchValue? "OPSDECK_ENABLED"
  else if name = "environment" then
    (given.textValue? "OPSDECK_ENV").or (given.textValue? "NODE_ENV")
  else if name = "maxExecutionTimeSeconds" then given.numberValue? "OPSDECK_MAX_EXECUTION_TIME"
  else if name = "logExecutions" then given.switchValue? "OPSDECK_LOG_EXECUTIONS"
  else none

def logging? (given : Variables) (name : String) : Option Value :=
  if name = "enabled" then given.switchValue? "OPSDECK_DB_LOGGING"
  else if name = "path" then given.textValue? "OPSDECK_DB_PATH"
  else none

def ReadsSwitch (given : Variables) (name : String) : Prop :=
  forall s, given.lookup name = some s -> (switch? s).isSome

def ReadsNumber (given : Variables) (name : String) : Prop :=
  forall s, given.lookup name = some s ->
    Text.isBlankString s = true ∨ (Value.text s).numeric?.isSome

structure AreReadable (given : Variables) : Prop where
  enabled : given.ReadsSwitch "OPSDECK_ENABLED"
  maxExecutionTimeSeconds : given.ReadsNumber "OPSDECK_MAX_EXECUTION_TIME"
  logExecutions : given.ReadsSwitch "OPSDECK_LOG_EXECUTIONS"
  logging : given.ReadsSwitch "OPSDECK_DB_LOGGING"

theorem readSwitch_ends (given : Variables) (name : String) :
    Ends (fun _ => given.ReadsSwitch name)
      (fun failure => ¬ given.ReadsSwitch name ∧ failure.IsValidation)
      (given.readSwitch name) := by
  unfold readSwitch ReadsSwitch
  cases given.lookup name with
  | none => exact nofun
  | some s =>
      dsimp only
      cases hswitch : switch? s with
      | some b =>
          intro s' hs'
          cases hs'
          rw [hswitch]
          rfl
      | none =>
          refine ⟨?_, _, rfl⟩
          intro hall
          have hsome := hall s rfl
          rw [hswitch] at hsome
          cases hsome

theorem readNumber_ends (given : Variables) (name : String) :
    Ends (fun _ => given.ReadsNumber name)
      (fun failure => ¬ given.ReadsNumber name ∧ failure.IsValidation)
      (given.readNumber name) := by
  unfold readNumber ReadsNumber
  cases given.lookup name with
  | none => exact nofun
  | some s =>
      dsimp only
      split
      · rename_i hblank
        intro s' hs'
        cases hs'
        exact Or.inl hblank
      · rename_i hblank
        cases hnumeric : (Value.text s).numeric? with
        | some x =>
            intro s' hs'
            cases hs'
            rw [hnumeric]
            exact Or.inr rfl
        | none =>
            refine ⟨?_, _, rfl⟩
            intro hall
            have hsome := (hall s rfl).resolve_left hblank
            rw [hnumeric] at hsome
            cases hsome

/-- The variables make a layer just if they can be read. -/
theorem layer_ends (given : Variables) :
    Ends (fun layer => given.AreReadable ∧ given.IsLayer layer)
      (fun failure => ¬ given.AreReadable ∧ failure.IsValidation) given.layer := by
  have hends : Ends (fun _ => given.AreReadable)
      (fun failure => ¬ given.AreReadable ∧ failure.IsValidation) given.layer := by
    unfold layer
    apply ((readSwitch_ends given "OPSDECK_ENABLED").mono (fun _ h => h)
      (fun _ h => ⟨fun hall => h.1 hall.enabled, h.2⟩)).bind
    intro enabled henabled
    apply ((readNumber_ends given "OPSDECK_MAX_EXECUTION_TIME").mono (fun _ h => h)
      (fun _ h => ⟨fun hall => h.1 hall.maxExecutionTimeSeconds, h.2⟩)).bind
    intro time htime
    apply ((readSwitch_ends given "OPSDECK_LOG_EXECUTIONS").mono (fun _ h => h)
      (fun _ h => ⟨fun hall => h.1 hall.logExecutions, h.2⟩)).bind
    intro logged hlogged
    apply ((readSwitch_ends given "OPSDECK_DB_LOGGING").mono (fun _ h => h)
      (fun _ h => ⟨fun hall => h.1 hall.logging, h.2⟩)).bind
    intro logging hlogging
    exact ⟨henabled, htime, hlogged, hlogging⟩
  have hlayer := given.layer_yields
  cases hread : given.layer with
  | error failure =>
      rw [hread] at hends
      exact hends
  | ok layer =>
      rw [hread] at hends
      exact ⟨hends, hlayer layer hread⟩

theorem IsLayer.given?_settings {given : Variables} {layer : Layer} (hlayer : given.IsLayer layer)
    {setting : String × Shape} (hsetting : setting ∈ Config.settings) :
    layer.settings.given? setting.1 = given.setting? setting.1 := by
  simp only [Config.settings, List.mem_cons, List.not_mem_nil, or_false] at hsetting
  rcases hsetting with rfl | rfl | rfl | rfl | rfl | rfl | rfl
  · exact hlayer.enabled
  · exact hlayer.environment
  · exact hlayer.maxExecutionTimeSeconds
  · exact hlayer.logExecutions
  · exact hlayer.commands
  · exact hlayer.autoDiscovery
  · exact hlayer.environmentRestrictions

theorem IsLayer.given?_logging {given : Variables} {layer : Layer} (hlayer : given.IsLayer layer)
    {setting : String × Shape} (hsetting : setting ∈ DatabaseLogging.settings) :
    layer.logging.given? setting.1 = given.logging? setting.1 := by
  simp only [DatabaseLogging.settings, List.mem_cons, List.not_mem_nil, or_false] at hsetting
  rcases hsetting with rfl | rfl | rfl
  · exact hlayer.logging
  · exact hlayer.path
  · exact hlayer.keepLogsForDays

end Variables

/-! ## Loading -/

namespace Config

def loggingOf (overrides : Value) : Fields :=
  (overrides.fields.own "databaseLogging").fields

/-- Whether overrides and variables together give settings in shape. -/
structure IsLoadable (overrides : Value) (given : Variables) : Prop where
  present : overrides ≠ .null
  readable : given.AreReadable
  settings : settings.Fit fun name =>
    (overrides.fields.given? name).or (given.setting? name)
  logging : DatabaseLogging.settings.Fit fun name =>
    ((loggingOf overrides).given? name).or
      ((given.logging? name).or (Layer.behind? (loggingOf overrides) name))

theorem isSetting_of_mem {setting : String × Shape}
    (hsetting : setting ∈ settings ++ DatabaseLogging.settings) : Layer.IsSetting setting.1 := by
  have hnames : forall name, name ∈ (settings ++ DatabaseLogging.settings).map Prod.fst ->
      Layer.IsSetting name := by
    change forall name, name ∈ ["enabled", "environment", "maxExecutionTimeSeconds",
      "logExecutions", "commands", "autoDiscovery", "environmentRestrictions", "enabled", "path",
      "keepLogsForDays"] -> Layer.IsSetting name
    decide
  exact hnames _ (List.mem_map_of_mem hsetting)

theorem findSome?_cons_id (first : Option Value) (rest : List (Option Value)) :
    (first :: rest).findSome? id = first.or (rest.findSome? id) := by
  cases first with
  | none => rfl
  | some v => rfl

def IsPresent (drawn? : Option Value) : Prop :=
  forall v, drawn? = some v -> v ≠ .absent

theorem IsPresent.or {high? low? : Option Value} (hhigh : IsPresent high?)
    (hlow : IsPresent low?) : IsPresent (high?.or low?) := by
  intro v hv
  rcases Option.or_eq_some_iff.mp hv with hv | ⟨_, hv⟩
  · exact hhigh v hv
  · exact hlow v hv

theorem IsPresent.present?_getD {drawn? : Option Value} (hdrawn : IsPresent drawn?) :
    (drawn?.getD .absent).present? = drawn? := by
  cases drawn? with
  | none => rfl
  | some v => exact Value.present?_eq_some.mpr ⟨rfl, hdrawn v rfl⟩

theorem isPresent_given? (name : String) (fields : Fields) : IsPresent (fields.given? name) :=
  fun _ hgiven => Fields.given?_ne_absent hgiven

theorem isPresent_behind? (name : String) (fields : Fields) :
    IsPresent (Layer.behind? fields name) := by
  intro v hbehind
  rcases Option.bind_eq_some_iff.mp hbehind with ⟨_, _, hpresent⟩
  exact (Value.present?_eq_some.mp hpresent).2

/-- The layers that are merged pass just if what is drawn from them has its shape. -/
theorem passes_merge {given : Variables} {middle : Layer} (hmiddle : given.IsLayer middle)
    (overrides : Value) :
    Passes (check (.ofFields (Layer.merge [.empty, middle, .ofFields overrides.fields]))) ↔
      (settings.Fit fun name => (overrides.fields.given? name).or (given.setting? name)) ∧
        DatabaseLogging.settings.Fit fun name =>
          ((loggingOf overrides).given? name).or
            ((given.logging? name).or (Layer.behind? (loggingOf overrides) name)) := by
  let merged := Record.ofFields (Layer.merge [.empty, middle, .ofFields overrides.fields])
  have hlogged : merged.get "databaseLogging" =
      (Layer.logged [] middle.logging (loggingOf overrides)).toValue :=
    Record.get_own (Layer.own?_merge_logging .empty middle (.ofFields overrides.fields))
  change Passes (check merged.toValue) ↔ _
  rw [passes_check, hlogged]
  apply and_congr
  · apply Settings.fit_iff
    intro setting hsetting
    have hname := isSetting_of_mem (List.mem_append_left _ hsetting)
    rw [Record.get_ofFields hname.builtIn hname.base, Layer.own?_merge _ _ _ hname,
      hmiddle.given?_settings hsetting]
    have hpresent := (isPresent_given? setting.1 overrides.fields).or
      (isPresent_given? setting.1 middle.settings)
    rw [hmiddle.given?_settings hsetting] at hpresent
    simp only [findSome?_cons_id, List.findSome?_nil, Option.or_none, Layer.ofFields, Layer.empty,
      Fields.given?]
    exact hpresent.present?_getD
  · rw [Shape.optional, or_iff_right Value.noConfusion]
    change (exists r, some (Layer.logged [] middle.logging (loggingOf overrides)) = some r ∧ _) ↔ _
    simp only [Option.some.injEq, exists_eq_left']
    apply Settings.fit_iff
    intro setting hsetting
    have hname := isSetting_of_mem (List.mem_append_right _ hsetting)
    have hpresent := (isPresent_given? setting.1 (loggingOf overrides)).or
      ((isPresent_given? setting.1 middle.logging).or
        (isPresent_behind? setting.1 (loggingOf overrides)))
    rw [hmiddle.given?_logging hsetting] at hpresent
    rw [Layer.get_logged _ rfl hmiddle.ordinary hname, hmiddle.given?_logging hsetting]
    simp only [findSome?_cons_id, List.findSome?_nil, Option.or_none, Fields.given?,
      Option.none_or]
    exact hpresent.present?_getD

theorem ofLayers_ends (layers : List Layer) :
    Ends (fun _ => Passes (check (.ofFields (Layer.merge layers))))
      (fun failure => ¬ Passes (check (.ofFields (Layer.merge layers))) ∧ failure.IsValidation)
      (ofLayers layers) := by
  cases hread : ofLayers layers with
  | ok config => exact ⟨config, check_of_ofLayers hread⟩
  | error failure =>
      unfold ofLayers at hread
      cases hcheck : (check (.ofFields (Layer.merge layers))).toExcept with
      | ok config =>
          rw [hcheck] at hread
          cases hread
      | error issues =>
          rw [hcheck] at hread
          cases hread
          refine ⟨?_, _, rfl⟩
          intro hpass
          rcases hpass with ⟨config, hconfig⟩
          rw [toExcept_eq_ok.mpr hconfig] at hcheck
          cases hcheck

theorem load_eq {overrides : Value} (hpresent : overrides ≠ .null) (given : Variables) :
    load overrides given = given.layer >>= fun middle =>
      ofLayers [.empty, middle, .ofFields overrides.fields] := by
  have hlayer : overridesLayer overrides = .ok (.ofFields overrides.fields) := by
    cases overrides with
    | null => exact absurd rfl hpresent
    | _ => rfl
  simp only [load, loadOver, hlayer, bind, Except.bind]

/-- Loading decides about overrides and variables by the shapes of the settings. -/
theorem load_ends (overrides : Value) (given : Variables) :
    Ends (fun _ => IsLoadable overrides given)
      (fun failure => ¬ IsLoadable overrides given ∧
        (overrides = .null ∨ failure.IsValidation))
      (load overrides given) := by
  have hvariables := given.layer_ends
  cases hlayer : given.layer with
  | error failure =>
      rw [hlayer] at hvariables
      have hload : load overrides given = .error failure := by
        simp only [load, loadOver, hlayer, bind, Except.bind]
      rw [hload]
      exact ⟨fun hloadable => hvariables.1 hloadable.readable, Or.inr hvariables.2⟩
  | ok middle =>
      rw [hlayer] at hvariables
      by_cases hnull : overrides = .null
      · have hload : exists failure, load overrides given = .error failure := by
          simp only [hnull, load, loadOver, hlayer, overridesLayer, bind, Except.bind,
            Except.error.injEq, exists_eq']
        rcases hload with ⟨failure, hload⟩
        rw [hload]
        exact ⟨fun hloadable => hloadable.present hnull, Or.inl hnull⟩
      · have hload : load overrides given =
            ofLayers [.empty, middle, .ofFields overrides.fields] := by
          simp only [load_eq hnull, hlayer, bind, Except.bind]
        have hends := ofLayers_ends [.empty, middle, .ofFields overrides.fields]
        rw [passes_merge hvariables.2 overrides] at hends
        rw [hload]
        exact hends.mono (fun _ hpass => ⟨hnull, hvariables.1, hpass.1, hpass.2⟩)
          fun _ hfails => ⟨fun hloadable => hfails.1 ⟨hloadable.settings, hloadable.logging⟩,
            Or.inr hfails.2⟩

/-! ## Overrides without a record for database logging -/

theorem check_congr {r other : Record}
    (hsettings : forall setting, setting ∈ settings -> r.get setting.1 = other.get setting.1)
    (hlogging : r.get "databaseLogging" = other.get "databaseLogging") :
    check r.toValue = check other.toValue := by
  simp only [settings, List.forall_mem_cons, forall_fields_nil, and_true] at hsettings
  rcases hsettings with ⟨henabled, henvironment, htime, hlogged, hcommands, hdiscovery,
    hrestrictions⟩
  simp only [check, Check.record, Check.record?, Record.toValue, Check.field, henabled,
    henvironment, htime, hlogged, hcommands, hdiscovery, hrestrictions, hlogging]

def without (name : String) (overrides : Value) : Value :=
  .ofFields (overrides.fields.filter fun field => field.1 != name)

theorem given?_filter {name other : String} (hother : other ≠ name) (fields : Fields) :
    Fields.given? other (fields.filter fun field => field.1 != name) = fields.given? other := by
  induction fields with
  | nil => rfl
  | cons field rest ih =>
      rcases field with ⟨key, v⟩
      by_cases hkey : key = name
      · have hdiffer : other ≠ key := fun hsame => hother (hsame.trans hkey)
        rw [List.filter_cons_of_neg (by simp [hkey]), ih, Fields.given?, if_neg hdiffer,
          Option.or_none]
      · rw [List.filter_cons_of_pos (by simp [hkey]), Fields.given?, Fields.given?, ih]

theorem own?_filter (name : String) (fields : Fields) :
    Fields.own? (fields.filter fun field => field.1 != name) name = none := by
  unfold Fields.own?
  rw [List.lookup_eq_none_iff]
  intro field hfield
  simpa [bne_comm] using (List.mem_filter.mp hfield).2

theorem ofLayers_without (middle : Layer) {overrides : Value}
    (hlogging : loggingOf overrides = []) :
    ofLayers [.empty, middle, .ofFields overrides.fields] =
      ofLayers [.empty, middle, .ofFields (without "databaseLogging" overrides).fields] := by
  have hwithout : (Layer.ofFields (without "databaseLogging" overrides).fields).logging = [] := by
    change (Fields.own (overrides.fields.filter _) "databaseLogging").fields = []
    unfold Fields.own
    rw [own?_filter]
    rfl
  have hcheck : check (.ofFields (Layer.merge [.empty, middle, .ofFields overrides.fields])) =
      check (.ofFields (Layer.merge
        [.empty, middle, .ofFields (without "databaseLogging" overrides).fields])) := by
    let merged := fun fields => Record.ofFields (Layer.merge [.empty, middle, .ofFields fields])
    change check (merged overrides.fields).toValue = check (merged _).toValue
    apply check_congr
    · intro setting hsetting
      have hname := isSetting_of_mem (List.mem_append_left _ hsetting)
      rw [Record.get_ofFields hname.builtIn hname.base,
        Record.get_ofFields hname.builtIn hname.base, Layer.own?_merge _ _ _ hname,
        Layer.own?_merge _ _ _ hname]
      have hgiven : Fields.given? setting.1 (without "databaseLogging" overrides).fields =
          overrides.fields.given? setting.1 := given?_filter hname.single _
      simp only [Layer.ofFields, hgiven]
    · rw [Record.get_own (Layer.own?_merge_logging _ _ _),
        Record.get_own (Layer.own?_merge_logging _ _ _), hwithout]
      have hsame : (Layer.ofFields overrides.fields).logging = [] := hlogging
      rw [hsame]
  unfold ofLayers
  rw [hcheck]

theorem load_without (given : Variables) {overrides : Value} (hpresent : overrides ≠ .null)
    (hlogging : loggingOf overrides = []) :
    load overrides given = load (without "databaseLogging" overrides) given := by
  have hwithout : without "databaseLogging" overrides ≠ .null := Value.noConfusion
  have hlayers := funext fun middle => ofLayers_without middle hlogging
  rw [load_eq hpresent, load_eq hwithout, hlayers]

structure IsAnswer (overrides : Value) (given : Variables)
    (answer : Except Failure Config) : Prop where
  loads : (exists config, answer = .ok config) ↔ IsLoadable overrides given
  shaped : (exists config, answer = .ok config) ->
    (settings.Fit fun name => overrides.fields.given? name) ∧
      DatabaseLogging.settings.Fit fun name => (loggingOf overrides).given? name
  refuses : forall failure, answer = .error failure -> overrides ≠ .null -> failure.IsValidation
  /-- Database logging may be anything that has no settings, a number for one. -/
  bare : overrides ≠ .null -> loggingOf overrides = [] ->
    answer = load (without "databaseLogging" overrides) given

/-- Overrides load just if every setting that is drawn has its shape; else a validation failure
says why.  Of database logging nothing but its settings is looked at. -/
theorem load_isAnswer (overrides : Value) (given : Variables) :
    IsAnswer overrides given (load overrides given) := by
  have hends := load_ends overrides given
  have hloads : (exists config, load overrides given = .ok config) ↔
      IsLoadable overrides given := by
    cases hload : load overrides given with
    | ok config =>
        rw [hload] at hends
        exact iff_of_true ⟨config, rfl⟩ hends
    | error failure =>
        rw [hload] at hends
        apply iff_of_false _ hends.1
        intro hok
        rcases hok with ⟨config, hok⟩
        cases hok
  constructor
  case loads => exact hloads
  case shaped =>
    intro hok
    have hload := hloads.mp hok
    exact ⟨hload.settings.upper, hload.logging.upper⟩
  case refuses =>
    intro failure hfails hpresent
    rw [hfails] at hends
    exact hends.2.resolve_left hpresent
  case bare => exact fun hpresent hlogging => load_without given hpresent hlogging

/-- A number in place of the settings of database logging is accepted. -/
theorem number_for_logging :
    (load (.ofFields [("databaseLogging", .number 5)]) []).toOption.map
        (fun config => config.databaseLogging) = some .standard ∧
      ¬ Shape.record DatabaseLogging.settings.optional (.number 5) := by
  constructor
  · decide +kernel
  · intro hshape
    rcases hshape with ⟨_, hr, _⟩
    cases hr

end Config

end OperatorConsole
