import OperatorConsole.Risk

/-!
# Environment gate

A gate holds the restrictions of the environments.  For a command of some risk it
decides whether the command may run in an environment and whether it has to be
confirmed there.  An environment without a restriction of its own lets every
command run.

## Reasons

`Gate.decide` says why.  A command that may run needs a confirmation exactly if
there is a reason for one.
-/

namespace OperatorConsole

structure Restriction where
  allowedRiskLevels : List RiskLevel
  /-- Whether every command has to be confirmed here. -/
  disableUnlessConfirmed : Bool
  deriving DecidableEq, Repr

namespace Restriction

def check : Value -> Check Restriction :=
  Check.record fun f => Restriction.mk <$>
    Check.field f "allowedRiskLevels" (Check.list RiskLevel.check) <*>
    Check.field f "disableUnlessConfirmed" (Check.withDefault false Check.boolean)

def toValue (r : Restriction) : Value :=
  .ofFields [("allowedRiskLevels", .list (r.allowedRiskLevels.map fun level => .text level.word)),
    ("disableUnlessConfirmed", .bool r.disableUnlessConfirmed)]

end Restriction

abbrev Restrictions := List (String × Restriction)

def Restrictions.check : Value -> Check Restrictions :=
  Check.map? Restriction.check

structure Decision where
  eligible : Bool
  requiresConfirmation : Bool
  reasons : List String
  deriving DecidableEq, Repr

def Decision.toValue (d : Decision) : Value :=
  .ofFields [("eligible", .bool d.eligible), ("requiresConfirmation", .bool d.requiresConfirmation),
    ("reasons", .list (d.reasons.map .text))]

structure Gate where
  restrictions : Restrictions
  deriving DecidableEq, Repr

namespace Gate

/-- A gate from restrictions that nobody has checked; none at all restrict nothing. -/
def ofValue : Value -> Except (List Issue) Gate
  | .absent => .ok ⟨[]⟩
  | v => ((Restrictions.check v).map Gate.mk).toExcept

def restrictionFor? (gate : Gate) (environment : String) : Option Restriction :=
  gate.restrictions.lookup environment

def isEligible (gate : Gate) (risk : RiskLevel) (environment : String) : Bool :=
  match gate.restrictionFor? environment with
  | some restriction => restriction.allowedRiskLevels.contains risk
  | none => true

/-- Why a command has to be confirmed in an environment where it may run. -/
def confirmationReasons (gate : Gate) (risk : RiskLevel) (explicitConfirmation : Bool)
    (environment : String) : List String :=
  (if risk != .low then [s!"{risk.word} risk commands require confirmation"] else []) ++
    (if explicitConfirmation then ["the command asks for confirmation"] else []) ++
    (if (gate.restrictionFor? environment).any Restriction.disableUnlessConfirmed then
      [s!"every command in {environment} requires confirmation"] else [])

def decide (gate : Gate) (risk : RiskLevel) (explicitConfirmation : Bool)
    (environment : String) : Decision :=
  if gate.isEligible risk environment then
    let reasons := gate.confirmationReasons risk explicitConfirmation environment
    ⟨true, !reasons.isEmpty, reasons⟩
  else
    ⟨false, OperatorConsole.requiresConfirmation risk explicitConfirmation,
      [s!"{risk.word} risk commands are not allowed in {environment}"]⟩

end Gate

end OperatorConsole
