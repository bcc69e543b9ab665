import OperatorConsole.Command.Basic
import OperatorConsole.Proofs.Options.Checked

/-!
# Checked descriptors

A checked descriptor, written as a value, passes the check again and comes out unchanged.  Its
options have different keys, and each of them has passed a check of its own.  The descriptor of
a command that a candidate became is checked.
-/

namespace OperatorConsole

open Check

namespace RiskLevel

theorem check_stable : Stable check (fun level => .text level.word) := by
  apply stable_oneOf
  decide

theorem mem_all_of_check {v : Value} {level : RiskLevel} (hpass : check v = ok level) :
    level ∈ all := by
  rcases oneOf_eq_ok.mp hpass with ⟨s, _, hlookup⟩
  rcases List.lookup_eq_some_iff.mp hlookup with ⟨before, after, hsplit, _⟩
  have hlisted : (s, level) ∈ words := by
    rw [hsplit]
    simp
  rcases List.mem_map.mp hlisted with ⟨level', hmem, hsame⟩
  cases hsame
  exact hmem

end RiskLevel

namespace Descriptor

/-! ## Keys -/

theorem duplicateKeys_eq_nil {seen : List String} {index : Nat} {options : List OptionSpec} :
    duplicateKeys seen index options = [] ↔
      (options.map OptionSpec.key).Nodup ∧ forall o, o ∈ options -> o.key ∉ seen := by
  induction options generalizing seen index with
  | nil => simp [duplicateKeys]
  | cons o options ih =>
      rw [duplicateKeys, List.append_eq_nil_iff, ih, List.map_cons, List.nodup_cons]
      by_cases hseen : o.key ∈ seen
      · simp [hseen]
      · simp only [List.contains_iff_mem, hseen, if_false, true_and, List.mem_cons, List.mem_map]
        constructor
        · rintro ⟨hnodup, hfresh⟩
          refine ⟨⟨?_, hnodup⟩, ?_⟩
          · rintro ⟨other, hother, hsame⟩
            exact hfresh other hother (Or.inl hsame)
          · rintro other (rfl | hother)
            · exact hseen
            · exact fun hold => hfresh other hother (Or.inr hold)
        · rintro ⟨⟨hfirst, hnodup⟩, hfresh⟩
          refine ⟨hnodup, ?_⟩
          rintro other hother (hsame | hold)
          · exact hfirst ⟨other, hother, hsame⟩
          · exact hfresh other (Or.inr hother) hold

/-! ## Parts -/

theorem checkName_stable : Stable checkName Value.text :=
  ((stable_string.require _ _).require _ _).require _ _

theorem checkDisplayName_stable : Stable checkDisplayName Value.text :=
  (stable_string.require _ _).require _ _

theorem checkOptions_stable : Stable (Check.withDefault [] (Check.list OptionSpec.check))
    (fun options => .list (options.map OptionSpec.toValue)) :=
  OptionSpec.check_stable.list.withDefault (fun _ => Value.noConfusion) rfl

/-! ## Whole descriptors -/

/-- Each part of a descriptor is what the check of it reads from a record. -/
structure IsReadFrom (d : Descriptor) (r : Record) : Prop where
  name : Check.field r "name" checkName = ok d.name
  displayName : Check.field r "displayName" checkDisplayName = ok d.displayName
  description : Check.field r "description" Check.string = ok d.description
  category : Check.field r "category" (fun v => (Check.string v).atLeast 1) = ok d.category
  riskLevel : Check.field r "riskLevel" RiskLevel.check = ok d.riskLevel
  explicitConfirmation : Check.field r "explicitConfirmation"
    (Check.withDefault false Check.boolean) = ok d.explicitConfirmation
  options : Check.field r "options"
    (Check.withDefault [] (Check.list OptionSpec.check)) = ok d.options

theorem check_eq_ok {v : Value} {d : Descriptor} :
    check v = ok d ↔
      (exists r, Check.record? v = some r ∧ d.IsReadFrom r) ∧
        (d.options.map OptionSpec.key).Nodup := by
  have hkeys : (d.options.map OptionSpec.key).Nodup ↔ duplicateKeys [] 0 d.options = [] := by
    simp [duplicateKeys_eq_nil]
  rw [hkeys]
  constructor
  · intro hpass
    rcases alsoIssues_eq_ok.mp hpass with ⟨hrecord, hduplicates⟩
    rcases record_eq_ok.mp hrecord with ⟨r, hr, hfields⟩
    simp only [seq_eq_ok, map_eq_ok] at hfields
    rcases hfields with ⟨_, options, ⟨_, explicit, ⟨_, risk, ⟨_, category, ⟨_, description,
      ⟨_, displayName, ⟨name, hname, rfl⟩, hdisplayName, rfl⟩, hdescription, rfl⟩, hcategory,
      rfl⟩, hrisk, rfl⟩, hexplicit, rfl⟩, hoptions, rfl⟩
    constructor
    · exact ⟨r, hr, hname, hdisplayName, hdescription, hcategory, hrisk, hexplicit, hoptions⟩
    · exact hduplicates
  · rintro ⟨⟨r, hr, hread⟩, hduplicates⟩
    apply alsoIssues_eq_ok.mpr
    constructor
    · apply record_eq_ok.mpr
      refine ⟨r, hr, ?_⟩
      rw [hread.name, hread.displayName, hread.description, hread.category, hread.riskLevel,
        hread.explicitConfirmation, hread.options]
      rfl
    · exact hduplicates

theorem check_stable : Stable check toValue := by
  intro v d hpass
  rcases check_eq_ok.mp hpass with ⟨⟨r, _, hread⟩, hkeys⟩
  apply check_eq_ok.mpr
  constructor
  · refine ⟨.ofFields d.toValue.fields, rfl, ?_⟩
    constructor
    case name => exact checkName_stable.field hread.name rfl
    case displayName => exact checkDisplayName_stable.field hread.displayName rfl
    case description => exact stable_string.field hread.description rfl
    case category => exact (stable_string.require _ _).field hread.category rfl
    case riskLevel => exact RiskLevel.check_stable.field hread.riskLevel rfl
    case explicitConfirmation =>
      exact OptionSpec.checkFlag_stable.field hread.explicitConfirmation rfl
    case options => exact checkOptions_stable.field hread.options rfl
  · exact hkeys

/-! ## Limits -/

theorem keys_nodup_of_check {v : Value} {d : Descriptor} (hpass : check v = ok d) :
    (d.options.map OptionSpec.key).Nodup :=
  (check_eq_ok.mp hpass).2

theorem riskLevel_of_check {v : Value} {d : Descriptor} (hpass : check v = ok d) :
    d.riskLevel ∈ RiskLevel.all := by
  rcases check_eq_ok.mp hpass with ⟨⟨r, _, hread⟩, _⟩
  exact RiskLevel.mem_all_of_check (field_eq_ok.mp hread.riskLevel)

theorem option_of_check {v : Value} {d : Descriptor} (hpass : check v = ok d) {o : OptionSpec}
    (ho : o ∈ d.options) : exists w, OptionSpec.check w = ok o := by
  rcases check_eq_ok.mp hpass with ⟨⟨r, _, hread⟩, _⟩
  rcases withDefault_eq_ok (field_eq_ok.mp hread.options) with ⟨_, hnone⟩ | hlist
  · rw [hnone] at ho
    cases ho
  · exact list_mem hlist ho

end Descriptor

namespace Candidate

theorem parts_of_toCommand {candidate : Candidate σ} {host : σ} {command : Command σ}
    (hcommand : candidate.toCommand host = .ok command) :
    Descriptor.check (candidate.described host) = ok command.descriptor ∧
      exists validate execute, candidate.validate = some validate ∧
        candidate.execute = some execute ∧
        command = ⟨command.descriptor,
          fun values => validate values (some command.descriptor.options), execute,
          candidate.supply⟩ := by
  unfold toCommand at hcommand
  dsimp only at hcommand
  split at hcommand
  case h_1 validate execute _ hvalidate hexecute =>
    split at hcommand
    case h_1 descriptor hchecked =>
      injection hcommand with hcommand
      subst hcommand
      exact ⟨toExcept_eq_ok.mp hchecked, validate, execute, hvalidate, hexecute, rfl⟩
    case h_2 =>
      cases hcommand
  case h_2 =>
    cases hcommand

theorem toCommand_refused {candidate : Candidate σ} {host : σ} {failure : Failure}
    (hrefused : candidate.toCommand host = .error failure) :
    exists issues, failure = .command (name (candidate.described host)) (.invalidCommand issues) := by
  unfold toCommand at hrefused
  dsimp only at hrefused
  split at hrefused
  case h_1 validate execute _ hvalidate hexecute =>
    split at hrefused
    case h_1 => cases hrefused
    case h_2 issues hissues =>
      cases hrefused
      exact ⟨_, rfl⟩
  case h_2 =>
    cases hrefused
    exact ⟨_, rfl⟩

theorem descriptor_of_toCommand {candidate : Candidate σ} {host : σ} {command : Command σ}
    (hcommand : candidate.toCommand host = .ok command) :
    Descriptor.check (candidate.described host) = ok command.descriptor :=
  (parts_of_toCommand hcommand).1

theorem givenName_of_toCommand {candidate : Candidate σ} {host : σ} {command : Command σ}
    (hcommand : candidate.toCommand host = .ok command) :
    givenName (candidate.described host) = .text command.name := by
  rcases Descriptor.check_eq_ok.mp (descriptor_of_toCommand hcommand) with ⟨⟨r, hr, hread⟩, _⟩
  have hname : r.get "name" = .text command.name := by
    rcases require_eq_ok.mp (field_eq_ok.mp hread.name) with ⟨hlength, _⟩
    rcases require_eq_ok.mp hlength with ⟨hlength, _⟩
    exact string_passed (require_eq_ok.mp hlength).1
  cases hdescribed : candidate.described host with
  | record fields base =>
      rw [hdescribed] at hr
      cases hr
      exact hname
  | ancestor =>
      rw [hdescribed] at hr
      cases hr
      cases hname
  | bytes data =>
      rw [hdescribed] at hr
      cases hr
      cases hname
  | _ =>
      rw [hdescribed] at hr
      cases hr

end Candidate

end OperatorConsole
