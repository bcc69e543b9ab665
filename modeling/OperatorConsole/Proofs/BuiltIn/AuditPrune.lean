import OperatorConsole.BuiltIn.AuditPrune
import OperatorConsole.Proofs.Command.Checked
import OperatorConsole.Proofs.Number.Decimal

/-!
# The pruning command

What the command is registered with, and what becomes of its own defaults.  The number of days
is written into the default as text and read back from it by the rules, so that the defaults
pass just if the number itself is within the bounds.
-/

namespace OperatorConsole

open Check

namespace Candidate

theorem toCommand_eq {candidate : Candidate σ} {host : σ} {descriptor : Descriptor}
    {validate : Value -> Option (List OptionSpec) -> Action σ Unit}
    {execute : Value -> CommandContext -> Action σ (Option CommandResult)}
    (hdescription : isDescription (candidate.described host) = true)
    (hvalidate : candidate.validate = some validate) (hexecute : candidate.execute = some execute)
    (hchecked : Descriptor.check (candidate.described host) = Check.ok descriptor) :
    candidate.toCommand host = .ok ⟨descriptor,
      fun values => validate values (some descriptor.options), execute, candidate.supply⟩ := by
  unfold toCommand
  dsimp only
  rw [hdescription, hvalidate, hexecute, Check.toExcept_eq_ok.mpr hchecked]

theorem validateOptions_apply (described : σ -> Value) (r : Record) (schema : List OptionSpec)
    (s : Session σ) :
    validateOptions described r.toValue (some schema) s = (Options.validate r schema, s) :=
  rfl

end Candidate

namespace OptionRule

theorem holds_min {v : Value} {bound x : Number} (hv : v.numeric? = some x) :
    holds ⟨.min, some (.number bound)⟩ v = Number.le bound x := by
  unfold holds bounds
  rw [hv]
  rfl

theorem holds_max {v : Value} {bound x : Number} (hv : v.numeric? = some x) :
    holds ⟨.max, some (.number bound)⟩ v = Number.le x bound := by
  unfold holds bounds
  rw [hv]
  rfl

end OptionRule

namespace AuditPrune

/-! ## Registered options -/

def daysOption (retentionDays : Number) : OptionSpec where
  key := "days"
  label := "Keep Entries Newer Than (Days)"
  kind := .text
  required := false
  default := some (.text retentionDays.toText)
  numeric := true
  choices := none
  supplier := none
  rules := dayRules
  help := some "Entries older than this many days are removed"
  placeholder := none

def dryRunOption : OptionSpec where
  key := "dry_run"
  label := "Dry Run (Preview Only)"
  kind := .boolean
  required := false
  default := some (.bool true)
  numeric := false
  choices := none
  supplier := none
  rules := []
  help := some "Count the entries without deleting them"
  placeholder := none

def registered (retentionDays : Number) : Descriptor where
  name := "audit:prune"
  displayName := "Prune Execution Log"
  description := "Delete execution log entries older than the given number of days"
  category := "Maintenance"
  riskLevel := .medium
  explicitConfirmation := true
  options := [daysOption retentionDays, dryRunOption]

theorem check_dayRules :
    Check.list OptionRule.check (.list (dayRules.map OptionRule.toValue)) = ok dayRules :=
  result?_eq_some.mp (by decide +kernel)

theorem check_daysOption (retentionDays : Number) :
    OptionSpec.check (.ofFields [("key", .text "days"),
        ("label", .text "Keep Entries Newer Than (Days)"), ("kind", .text OptionKind.text.word),
        ("numeric", .bool true), ("default", .text retentionDays.toText),
        ("rules", .list (dayRules.map OptionRule.toValue)),
        ("help", .text "Entries older than this many days are removed")]) =
      ok (daysOption retentionDays) := by
  refine OptionSpec.check_eq_ok.mpr ⟨⟨_, rfl, ?_⟩, rfl⟩
  constructor
  case rules => exact field_eq_ok.mpr check_dayRules
  all_goals exact field_eq_ok.mpr rfl

theorem check_dryRunOption :
    OptionSpec.check (.ofFields [("key", .text "dry_run"),
        ("label", .text "Dry Run (Preview Only)"), ("kind", .text OptionKind.boolean.word),
        ("default", .bool true), ("help", .text "Count the entries without deleting them")]) =
      ok dryRunOption :=
  result?_eq_some.mp (by decide +kernel)

theorem check_description (retentionDays : Number) :
    Descriptor.check (description retentionDays) = ok (registered retentionDays) := by
  refine Descriptor.check_eq_ok.mpr ⟨⟨_, rfl, ?_⟩, (by decide : ["days", "dry_run"].Nodup)⟩
  constructor
  case options =>
    refine field_eq_ok.mpr ?_
    change (List.cons <$> (OptionSpec.check _).under _ <*>
      (List.cons <$> (OptionSpec.check _).under _ <*> ok [])) = _
    rw [check_daysOption, check_dryRunOption]
    rfl
  all_goals exact field_eq_ok.mpr rfl

def command (prune : AuditPrune σ) : Command σ where
  descriptor := registered prune.retentionDays
  validate := fun values =>
    Candidate.validateOptions (fun _ => description prune.retentionDays) values
      (some (registered prune.retentionDays).options)
  execute := fun values _ => do
    let result ← prune.execute values
    return some result
  supply := fun _ => pure []

theorem toCommand_candidate (prune : AuditPrune σ) (host : σ) :
    prune.candidate.toCommand host = .ok prune.command :=
  Candidate.toCommand_eq rfl rfl rfl (check_description prune.retentionDays)

/-! ## Defaults -/

def defaults (retentionDays : Number) : Record :=
  .ofFields [("days", .text retentionDays.toText), ("dry_run", .bool true)]

theorem applyDefaults_registered (retentionDays : Number) :
    Options.applyDefaults .empty (registered retentionDays).options = defaults retentionDays := by
  have hdays : Options.resolved .empty (daysOption retentionDays) = .text retentionDays.toText :=
    rfl
  have hdryRun : Options.resolved .empty dryRunOption = .bool true := rfl
  have hfirst : forall v, Record.empty.assign "days" v = .ofFields [("days", v)] := fun _ => rfl
  have hsecond : forall v w, (Record.ofFields [("days", v)]).assign "dry_run" w =
      .ofFields [("days", v), ("dry_run", w)] := fun _ _ => rfl
  unfold Options.applyDefaults registered
  simp only [List.foldl_cons, List.foldl_nil, hdays, hdryRun]
  rw [show (daysOption retentionDays).key = "days" from rfl, hfirst]
  exact hsecond _ _

/-- The rule that more days than the longest retention break. -/
def longestRule : OptionRule :=
  ⟨.max, some (.number 3650)⟩

theorem find?_dayRules {days : Number} (hwhole : days.isInteger = true)
    (hpositive : Number.lt 0 days = true) {v : Value} (hv : v.numeric? = some days) :
    dayRules.find? (fun rule => !rule.holds v) =
      if Number.le days 3650 then none else some longestRule := by
  have hinteger : OptionRule.holds ⟨.integer, none⟩ v = true := by
    simp [OptionRule.holds, hv, hwhole]
  have hmin : OptionRule.holds ⟨.min, some (.number 1)⟩ v = true := by
    rw [OptionRule.holds_min hv]
    exact Number.one_le_of_positive hwhole hpositive
  unfold dayRules
  rw [List.find?_cons_of_neg (by simp [hinteger]), List.find?_cons_of_neg (by simp [hmin])]
  unfold longestRule
  cases hmax : Number.le days 3650 with
  | true => rw [List.find?_cons_of_neg (by simp [OptionRule.holds_max hv, hmax])]; rfl
  | false => rw [List.find?_cons_of_pos (by simp [OptionRule.holds_max hv, hmax])]; rfl

theorem validate_defaults {days : Number} (hwhole : days.isInteger = true)
    (hpositive : Number.lt 0 days = true) :
    Options.validate (defaults days) (registered days).options =
      if Number.le days 3650 then .ok ()
      else .error (.validation (.ruleViolation "days" longestRule)) := by
  have hfinite := Number.isFinite_of_isInteger hwhole
  have hnumeric := Number.numeric?_toText hfinite (Number.ne_zero_of_positive hpositive true)
  have hfilled : Value.isEmpty (.text days.toText) = false := Number.isBlankString_toText hfinite
  have hdays : (daysOption days).failure? (defaults days) =
      (daysOption days).complaint? (.text days.toText) := by
    unfold OptionSpec.failure?
    change (if Value.isEmpty (.text days.toText) then _ else _) = _
    rw [hfilled]
    rfl
  have hdryRun : dryRunOption.failure? (defaults days) = none := rfl
  have hcomplaint : (daysOption days).complaint? (.text days.toText) =
      if Number.le days 3650 then none
      else some (.validation (.ruleViolation "days" longestRule)) := by
    unfold OptionSpec.complaint?
    rw [show (daysOption days).rules = dayRules from rfl,
      find?_dayRules hwhole hpositive hnumeric]
    cases Number.le days 3650 with
    | true => rfl
    | false => rfl
  unfold Options.validate Options.failure? registered
  rw [List.findSome?_cons, List.findSome?_cons, List.findSome?_nil, hdays, hdryRun, hcomplaint]
  cases Number.le days 3650 with
  | true => rfl
  | false => rfl

/-- The defaults that the registered command itself declares, checked by it. -/
theorem validate_command (prune : AuditPrune σ)
    (hwhole : prune.retentionDays.isInteger = true)
    (hpositive : Number.lt 0 prune.retentionDays = true) (s : Session σ) :
    prune.command.validate
        (Options.applyDefaults .empty prune.command.descriptor.options).toValue s =
      (if Number.le prune.retentionDays 3650 then .ok ()
        else .error (.validation (.ruleViolation "days" longestRule)), s) := by
  have hdefaults : Options.applyDefaults .empty prune.command.descriptor.options =
      defaults prune.retentionDays := applyDefaults_registered prune.retentionDays
  rw [hdefaults]
  rw [← validate_defaults hwhole hpositive]
  exact Candidate.validateOptions_apply (fun _ => description prune.retentionDays) _ _ s

end AuditPrune

end OperatorConsole
