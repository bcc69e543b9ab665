import OperatorConsole.Options.Definition
import OperatorConsole.Proofs.Check.Stable
import OperatorConsole.Proofs.Value.Fields

/-!
# Checked options

A checked option, written as a value, passes the check again and comes out unchanged.  The
parts that the check limits are within their limits: a choice has something to choose from,
bounds have an argument, and a default is a scalar.
-/

namespace OperatorConsole

open Check

theorem Choice.check_stable : Stable Choice.check Choice.toValue := by
  intro v c hpass
  rcases record_eq_ok.mp hpass with ⟨r, _, hfields⟩
  simp only [seq_eq_ok, map_eq_ok, field_eq_ok] at hfields
  rcases hfields with ⟨_, label, ⟨value, _, rfl⟩, _, rfl⟩
  rfl

namespace OptionRule

theorem checkArgument_stable : Stable checkArgument id :=
  (stable_number.require Number.isInteger "Expected integer, received float").written

theorem checkArgument_present {v w : Value} (hpass : checkArgument v = ok w) : w ≠ .absent := by
  rcases map_eq_ok.mp hpass with ⟨x, _, rfl⟩
  exact Value.noConfusion

theorem checkName_stable :
    Stable (Check.oneOf (RuleName.all.map fun n => (n.text, n))) (fun n => .text n.text) := by
  apply stable_oneOf
  decide

theorem hasArgument_of_check {v : Value} {rule : OptionRule} (hpass : check v = ok rule) :
    rule.hasArgument = true :=
  (require_eq_ok.mp hpass).2

theorem check_stable : Stable check toValue := by
  intro v rule hpass
  rcases require_eq_ok.mp hpass with ⟨hrecord, hargument⟩
  rcases record_eq_ok.mp hrecord with ⟨r, _, hfields⟩
  simp only [seq_eq_ok, map_eq_ok] at hfields
  rcases hfields with ⟨_, arg, ⟨name, hname, rfl⟩, harg, rfl⟩
  apply require_eq_ok.mpr
  constructor
  · let written := Record.ofFields (("name", .text name.text) :: Fields.ofOption "arg" arg)
    have hnameGet : written.get "name" = .text name.text := rfl
    have hargGet : written.get "arg" = (arg.map id).getD .absent := by
      rw [Record.get_ofFields (by decide) (by decide)]
      simp [Fields.own?_cons, Fields.own?_ofOption]
    have hnamePass := checkName_stable.field hname hnameGet
    have hargPass := (checkArgument_stable.optional fun _ _ hcheck _ =>
      checkArgument_present hcheck).field harg hargGet
    apply record_eq_ok.mpr
    refine ⟨written, rfl, ?_⟩
    rw [hnamePass, hargPass]
    rfl
  · exact hargument

end OptionRule

namespace OptionSpec

/-! ## Parts of a definition -/

theorem checkDefault_stable : Stable (fun v => Scalar.toValue <$> Check.scalar v) id :=
  stable_scalar.written

theorem checkDefault_present {v w : Value} (hpass : Scalar.toValue <$> Check.scalar v = ok w) :
    w ≠ .absent := by
  rcases map_eq_ok.mp hpass with ⟨s, _, rfl⟩
  cases s with
  | _ => exact Value.noConfusion

theorem checkChoices_stable :
    Stable (Check.list fun v => Choice.toValue <$> Choice.check v) Value.list := by
  have hstable := Choice.check_stable.written.list
  simp only [List.map_id] at hstable
  exact hstable

theorem checkSupplier_stable : Stable checkSupplier Value.supplier := by
  intro v name _
  rfl

theorem checkKind_stable : Stable (Check.oneOf OptionKind.words) (fun k => .text k.word) := by
  apply stable_oneOf
  decide

theorem checkRules_stable :
    Stable (Check.list OptionRule.check) (fun rules => .list (rules.map OptionRule.toValue)) :=
  OptionRule.check_stable.list

theorem checkKey_stable :
    Stable (fun v => ((Check.string v).atLeast 1).atMost 64) Value.text :=
  (stable_string.require _ _).require _ _

theorem checkLabel_stable : Stable (fun v => (Check.string v).atLeast 1) Value.text :=
  stable_string.require _ _

theorem checkFlag_stable : Stable (Check.withDefault false Check.boolean) Value.bool :=
  stable_boolean.withDefault (fun _ => Value.noConfusion) rfl

theorem checkText_stable :
    Stable (Check.optional Check.string) (fun s? => (s?.map Value.text).getD .absent) :=
  stable_string.optional fun _ _ _ _ => Value.noConfusion

/-! ## Whole definitions -/

structure IsReadFrom (o : OptionSpec) (r : Record) : Prop where
  key : Check.field r "key" (fun v => ((Check.string v).atLeast 1).atMost 64) = ok o.key
  label : Check.field r "label" (fun v => (Check.string v).atLeast 1) = ok o.label
  kind : Check.field r "kind" (Check.oneOf OptionKind.words) = ok o.kind
  required : Check.field r "required" (Check.withDefault false Check.boolean) = ok o.required
  default : Check.field r "default"
    (Check.optional fun v => Scalar.toValue <$> Check.scalar v) = ok o.default
  numeric : Check.field r "numeric" (Check.withDefault false Check.boolean) = ok o.numeric
  choices : Check.field r "choices"
    (Check.optional (Check.list fun v => Choice.toValue <$> Choice.check v)) = ok o.choices
  supplier : Check.field r "resolveChoices" (Check.optional checkSupplier) = ok o.supplier
  rules : Check.field r "rules"
    (Check.withDefault [] (Check.list OptionRule.check)) = ok o.rules
  help : Check.field r "help" (Check.optional Check.string) = ok o.help
  placeholder : Check.field r "placeholder" (Check.optional Check.string) = ok o.placeholder

theorem check_eq_ok {v : Value} {o : OptionSpec} :
    check v = ok o ↔
      (exists r, Check.record? v = some r ∧ o.IsReadFrom r) ∧ o.hasChoices = true := by
  constructor
  · intro hpass
    rcases require_eq_ok.mp hpass with ⟨hrecord, hhasChoices⟩
    rcases record_eq_ok.mp hrecord with ⟨r, hr, hfields⟩
    simp only [seq_eq_ok, map_eq_ok] at hfields
    rcases hfields with ⟨_, placeholder, ⟨_, help, ⟨_, rules, ⟨_, supplier, ⟨_, choices,
      ⟨_, numeric, ⟨_, default, ⟨_, required, ⟨_, kind, ⟨_, label, ⟨key, hkey, rfl⟩, hlabel, rfl⟩,
      hkind, rfl⟩, hrequired, rfl⟩, hdefault, rfl⟩, hnumeric, rfl⟩, hchoices, rfl⟩, hsupplier,
      rfl⟩, hrules, rfl⟩, hhelp, rfl⟩, hplaceholder, rfl⟩
    constructor
    · exact ⟨r, hr, hkey, hlabel, hkind, hrequired, hdefault, hnumeric, hchoices, hsupplier,
        hrules, hhelp, hplaceholder⟩
    · exact hhasChoices
  · rintro ⟨⟨r, hr, hread⟩, hhasChoices⟩
    apply require_eq_ok.mpr
    constructor
    · apply record_eq_ok.mpr
      refine ⟨r, hr, ?_⟩
      rw [hread.key, hread.label, hread.kind, hread.required, hread.default, hread.numeric,
        hread.choices, hread.supplier, hread.rules, hread.help, hread.placeholder]
      rfl
    · exact hhasChoices

def written (o : OptionSpec) : Record :=
  .ofFields o.toValue.fields

theorem get_written (o : OptionSpec) {name : String} (hbuiltIn : Fields.builtIn? name = none)
    (hbase : name ≠ Fields.baseKey) :
    o.written.get name = (Fields.own? o.toValue.fields name).getD .absent :=
  Record.get_ofFields hbuiltIn hbase

theorem IsReadFrom.of_written {o : OptionSpec} {r : Record} (hread : o.IsReadFrom r) :
    o.IsReadFrom o.written := by
  constructor
  case key => exact checkKey_stable.field hread.key rfl
  case label => exact checkLabel_stable.field hread.label rfl
  case kind => exact checkKind_stable.field hread.kind rfl
  case required => exact checkFlag_stable.field hread.required rfl
  case default =>
    apply (checkDefault_stable.optional fun _ _ h _ => checkDefault_present h).field hread.default
    simp (disch := decide) [get_written, toValue, Value.fields]
  case numeric =>
    apply checkFlag_stable.field hread.numeric
    simp (disch := decide) [get_written, toValue, Value.fields]
  case choices =>
    apply (checkChoices_stable.optional fun _ _ _ _ => Value.noConfusion).field hread.choices
    simp (disch := decide) [get_written, toValue, Value.fields]
  case supplier =>
    apply (checkSupplier_stable.optional fun _ _ _ _ => Value.noConfusion).field hread.supplier
    simp (disch := decide) [get_written, toValue, Value.fields]
  case rules =>
    apply (checkRules_stable.withDefault (fun _ => Value.noConfusion) rfl).field hread.rules
    simp (disch := decide) [get_written, toValue, Value.fields]
  case help =>
    apply checkText_stable.field hread.help
    simp (disch := decide) [get_written, toValue, Value.fields]
  case placeholder =>
    apply checkText_stable.field hread.placeholder
    simp (disch := decide) [get_written, toValue, Value.fields]

theorem check_stable : Stable check toValue := by
  intro v o hpass
  rcases check_eq_ok.mp hpass with ⟨⟨r, _, hread⟩, hhasChoices⟩
  exact check_eq_ok.mpr ⟨⟨o.written, rfl, hread.of_written⟩, hhasChoices⟩

/-! ## Limits -/

theorem hasChoices_of_check {v : Value} {o : OptionSpec} (hpass : check v = ok o) :
    o.hasChoices = true :=
  (check_eq_ok.mp hpass).2

theorem hasArgument_of_check {v : Value} {o : OptionSpec} (hpass : check v = ok o)
    {rule : OptionRule} (hrule : rule ∈ o.rules) : rule.hasArgument = true := by
  rcases check_eq_ok.mp hpass with ⟨⟨r, _, hread⟩, _⟩
  rcases withDefault_eq_ok (field_eq_ok.mp hread.rules) with ⟨_, hnone⟩ | hlist
  · rw [hnone] at hrule
    cases hrule
  · rcases list_mem hlist hrule with ⟨w, hw⟩
    exact OptionRule.hasArgument_of_check hw

theorem default_of_check {v : Value} {o : OptionSpec} (hpass : check v = ok o) {w : Value}
    (hdefault : o.default = some w) : exists s : Scalar, w = s.toValue := by
  rcases check_eq_ok.mp hpass with ⟨⟨r, _, hread⟩, _⟩
  rcases optional_eq_ok.mp (field_eq_ok.mp hread.default) with ⟨_, hnone⟩ | ⟨_, w', hw', hsome⟩
  · rw [hdefault] at hnone
    cases hnone
  · rw [hdefault] at hsome
    rcases map_eq_ok.mp hw' with ⟨s, _, hs⟩
    exact ⟨s, by rw [hs, Option.some.inj hsome]⟩

end OptionSpec

end OperatorConsole
