import OperatorConsole.Proofs.Action.Contract
import OperatorConsole.Proofs.Config.Checked
import OperatorConsole.Proofs.Number.Rounding

/-!
# Retention

Entries of the execution log are kept for a positive whole number of days, whatever the layers
of settings that a configuration is loaded from.  Nothing bounds that number from above.
-/

namespace OperatorConsole

open Check

structure Config.IsRetaining (config : Config) : Prop where
  whole : config.databaseLogging.keepLogsForDays.isInteger = true
  positive : Number.lt 0 config.databaseLogging.keepLogsForDays = true

namespace DatabaseLogging

theorem standard_keeps : standard.keepLogsForDays.isInteger = true ∧
    Number.lt 0 standard.keepLogsForDays = true := by
  decide +kernel

theorem keeps_of_check {v : Value} {d : DatabaseLogging} (hpass : check v = ok d) :
    d.keepLogsForDays.isInteger = true ∧ Number.lt 0 d.keepLogsForDays = true := by
  rcases isReadFrom_of_check hpass with ⟨r, _, hread⟩
  rcases withDefault_eq_ok hread.keepLogsForDays with ⟨_, hstandard⟩ | hgiven
  · rw [hstandard]
    exact standard_keeps
  · rcases require_eq_ok.mp hgiven with ⟨hinteger, hpositive⟩
    exact ⟨(require_eq_ok.mp hinteger).2, hpositive⟩

end DatabaseLogging

namespace Config

theorem isRetaining_of_check {v : Value} {config : Config} (hpass : check v = ok config) :
    config.IsRetaining := by
  rcases isReadFrom_of_check hpass with ⟨r, _, hread⟩
  have hkeeps : config.databaseLogging.keepLogsForDays.isInteger = true ∧
      Number.lt 0 config.databaseLogging.keepLogsForDays = true := by
    rcases withDefault_eq_ok hread.databaseLogging with ⟨_, hstandard⟩ | hgiven
    · rw [hstandard]
      exact DatabaseLogging.standard_keeps
    · exact DatabaseLogging.keeps_of_check hgiven
  exact ⟨hkeeps.1, hkeeps.2⟩

theorem ofLayers_yields (layers : List Layer) : Yields IsRetaining (ofLayers layers) :=
  fun _ hread => isRetaining_of_check (check_of_ofLayers hread)

theorem loadOver_yields (base : Layer) (overrides : Value) (given : Variables) :
    Yields IsRetaining (loadOver base overrides given) := by
  refine Yields.behind fun fromVariables => ?_
  refine Yields.behind fun fromOverrides => ?_
  exact ofLayers_yields _

end Config

end OperatorConsole
