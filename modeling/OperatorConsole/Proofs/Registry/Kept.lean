import OperatorConsole.Proofs.Action.Items
import OperatorConsole.Proofs.Command.Checked
import OperatorConsole.Proofs.Registry.Order

/-!
# How a registry is kept

Whatever a registry is asked, its commands stand under names of their own, in the order of
their names' first registration, with descriptors that are in order.  A registration that fails
changes nothing, and a batch that fails has come as far as its first bad candidate.
-/

namespace OperatorConsole

/-- A descriptor that its own check would not change, and what the check stands for. -/
structure Descriptor.IsChecked (d : Descriptor) : Prop where
  passes : Descriptor.check d.toValue = Check.ok d
  keys : (d.options.map OptionSpec.key).Nodup
  choices : forall o, o ∈ d.options -> o.kind = .choice ->
    (exists choices, o.choices = some choices ∧ choices ≠ []) ∨ o.supplier.isSome = true
  bounds : forall o, o ∈ d.options -> forall rule, rule ∈ o.rules ->
    (rule.name = .min ∨ rule.name = .max) -> exists arg, rule.arg = some arg

/-- What a registry comes to whose commands were registered in the given order since the last
reset, whatever is asked of it next. -/
structure Registry.IsKept (registry : Registry σ) (registered : List (Command σ)) : Prop where
  found : forall name c, registry.get? name = some c ↔ c ∈ registry.commands ∧ c.name = name
  names_nodup : registry.names.Nodup
  checked : forall c, c ∈ registry.commands -> c.descriptor.IsChecked
  names_eq : registry.names = (registered.map Command.name).eraseDups
  latest : forall name, registry.get? name = registered.reverse.find? (·.name == name)
  refused : forall candidate s failure,
    (registry.register candidate s).1 = .error failure ->
      (registry.register candidate s).2 = s ∧
        registry.call (.register candidate) s = (.ok registry, s)
  stopped : forall candidates s (other : Registry σ) failure,
    (registry.registerMany candidates s).1 = .ok (other, .error failure) ->
      exists before offending after commands,
        candidates = before ++ offending :: after ∧
          before.mapM (fun candidate => candidate.toCommand s.host) = .ok commands ∧
          offending.toCommand s.host = .error failure ∧
          other = registry.insertAll commands
  categories : registry.groupByCategory =
    (registry.commands.map fun c => c.descriptor.category).eraseDups.map fun category =>
      (category, registry.commands.filter fun c => c.descriptor.category == category)
  categories_split : Splits (registry.groupByCategory.map Prod.snd) registry.commands
  risks_split : Splits (RiskLevel.all.map registry.filterByRisk) registry.commands

theorem Descriptor.isChecked_of_check {v : Value} {d : Descriptor}
    (hpass : Descriptor.check v = Check.ok d) : d.IsChecked := by
  constructor
  case passes => exact Descriptor.check_stable v d hpass
  case keys => exact Descriptor.keys_nodup_of_check hpass
  case choices =>
    intro o ho hkind
    rcases Descriptor.option_of_check hpass ho with ⟨w, hw⟩
    have hchoices := OptionSpec.hasChoices_of_check hw
    rw [OptionSpec.hasChoices, hkind] at hchoices
    simpa [Option.any_eq_true] using hchoices
  case bounds =>
    intro o ho rule hrule hbound
    rcases Descriptor.option_of_check hpass ho with ⟨w, hw⟩
    have hargument := OptionSpec.hasArgument_of_check hw hrule
    apply Option.isSome_iff_exists.mp
    rcases hbound with hmin | hmax
    · simpa [OptionRule.hasArgument, hmin, RuleName.isBound] using hargument
    · simpa [OptionRule.hasArgument, hmax, RuleName.isBound] using hargument

namespace Registry

/-! ## Failing calls -/

theorem registration_refused (registry : Registry σ) {candidate : Candidate σ} {s : Session σ}
    {failure : Failure} (hfailure : (registry.register candidate s).1 = .error failure) :
    (registry.register candidate s).2 = s ∧
      registry.call (.register candidate) s = (.ok registry, s) := by
  have hrefused : candidate.toCommand s.host = .error failure := by
    rw [(registry.register_apply candidate s).1] at hfailure
    cases hcommand : candidate.toCommand s.host with
    | error failure' =>
        rw [hcommand] at hfailure
        cases hfailure
        rfl
    | ok command =>
        rw [hcommand] at hfailure
        cases hfailure
  have hregister := registry.register_refused hrefused
  constructor
  · rw [hregister]
  · rw [call, Action.bind_apply, Action.attempt_apply, hregister]
    rfl

theorem accepted_of_failure {host : σ} {candidates : List (Candidate σ)} {failure : Failure}
    (hfailure : candidates.mapM (fun candidate => candidate.toCommand host) = .error failure) :
    exists before offending after,
      candidates = before ++ offending :: after ∧
        before.mapM (fun candidate => candidate.toCommand host) =
          .ok (accepted host candidates) ∧
        offending.toCommand host = .error failure := by
  induction candidates with
  | nil => cases hfailure
  | cons candidate rest ih =>
      rcases mapM_cons_eq_error_iff.mp hfailure with hrefused | ⟨⟨command, hcommand⟩, hrest⟩
      · exact ⟨[], candidate, rest, rfl, by rw [accepted, hrefused]; rfl, hrefused⟩
      · rcases ih hrest with ⟨before, offending, after, hsplit, hbefore, hoffending⟩
        refine ⟨candidate :: before, offending, after, by rw [hsplit]; rfl, ?_, hoffending⟩
        rw [List.mapM_cons, hcommand, hbefore, accepted, hcommand]
        rfl

theorem registerMany_stopped (registry : Registry σ) {candidates : List (Candidate σ)}
    {s : Session σ} {other : Registry σ} {failure : Failure}
    (hstopped : (registry.registerMany candidates s).1 = .ok (other, .error failure)) :
    exists before offending after commands,
      candidates = before ++ offending :: after ∧
        before.mapM (fun candidate => candidate.toCommand s.host) = .ok commands ∧
        offending.toCommand s.host = .error failure ∧
        other = registry.insertAll commands := by
  rw [(registry.registerMany_apply candidates s).1] at hstopped
  injection hstopped with hstopped
  injection hstopped with hother hfailure
  rcases accepted_of_failure hfailure with ⟨before, offending, after, hsplit, hbefore, hoffending⟩
  exact ⟨before, offending, after, _, hsplit, hbefore, hoffending, hother.symm⟩

/-! ## Commands registered one by one -/

theorem names_insertAll_empty (registered : List (Command σ)) :
    (empty.insertAll registered).names = (registered.map Command.name).eraseDups := by
  have hremoved : (registered.map Command.name).removeAll [] = registered.map Command.name := by
    unfold List.removeAll
    exact List.filter_eq_self.mpr fun _ _ => rfl
  rw [names_insertAll]
  exact congrArg List.eraseDups hremoved

theorem mem_insertAll_empty {registered : List (Command σ)} {c : Command σ}
    (hmem : c ∈ (empty.insertAll registered).commands) : c ∈ registered := by
  rcases mem_insertAll hmem with hregistered | hempty
  · exact hregistered
  · cases hempty

theorem get?_eq_some_iff {registry : Registry σ} (hnodup : registry.names.Nodup) {name : String}
    {c : Command σ} : registry.get? name = some c ↔ c ∈ registry.commands ∧ c.name = name := by
  cases registry with
  | mk commands =>
      unfold names at hnodup
      unfold get?
      induction commands with
      | nil => simp
      | cons first rest ih =>
          rcases List.nodup_cons.mp hnodup with ⟨hfirst, hrest⟩
          by_cases hname : first.name = name
          · have hother (hlater : c ∈ rest) : c.name ≠ name := by
              intro hsame
              exact hfirst (List.mem_map.mpr ⟨c, hlater, by rw [hsame, hname]⟩)
            rw [List.find?_cons_of_pos (by simpa using hname)]
            constructor
            · intro hc
              cases hc
              exact ⟨List.mem_cons_self, hname⟩
            · rintro ⟨hmem, hc⟩
              rcases List.mem_cons.mp hmem with hsame | hlater
              · rw [hsame]
              · exact absurd hc (hother hlater)
          · rw [List.find?_cons_of_neg (by simpa using hname), ih hrest]
            constructor
            · rintro ⟨hmem, hc⟩
              exact ⟨List.mem_cons_of_mem first hmem, hc⟩
            · rintro ⟨hmem, hc⟩
              rcases List.mem_cons.mp hmem with hsame | hlater
              · exact absurd (hsame ▸ hc) hname
              · exact ⟨hlater, hc⟩

theorem IsAccepted.isChecked {command : Command σ} (haccepted : IsAccepted command) :
    command.descriptor.IsChecked := by
  rcases haccepted with ⟨candidate, host, hcommand⟩
  exact Descriptor.isChecked_of_check (Candidate.descriptor_of_toCommand hcommand)

theorem insertAll_isKept {registered : List (Command σ)}
    (haccepted : forall c, c ∈ registered -> IsAccepted c) :
    (empty.insertAll registered).IsKept registered := by
  have hnames := names_insertAll_empty registered
  have hnodup : (empty.insertAll registered).names.Nodup := by
    rw [hnames]
    exact nodup_eraseDups _
  constructor
  case found =>
    intro name c
    exact get?_eq_some_iff hnodup
  case names_nodup => exact hnodup
  case checked =>
    intro c hc
    exact (haccepted c (mem_insertAll_empty hc)).isChecked
  case names_eq => exact hnames
  case latest =>
    intro name
    rw [get?_insertAll]
    exact Option.or_none
  case refused =>
    intro candidate s failure hfailure
    exact registration_refused _ hfailure
  case stopped =>
    intro candidates s other failure hstopped
    exact registerMany_stopped _ hstopped
  case categories => exact groupByCategory_eq _
  case categories_split => exact groupByCategory_splits _
  case risks_split =>
    apply filterByRisk_splits
    intro c hc
    rcases haccepted c (mem_insertAll_empty hc) with ⟨candidate, host, hcommand⟩
    exact Descriptor.riskLevel_of_check (Candidate.descriptor_of_toCommand hcommand)

theorem Reached.accepted {registry : Registry σ} (hreached : registry.Reached) {c : Command σ}
    (hc : c ∈ registry.commands) : IsAccepted c := by
  rcases hreached.eq_insertAll with ⟨registered, rfl, haccepted⟩
  exact haccepted c (mem_insertAll_empty hc)

theorem Reached.names_nodup {registry : Registry σ} (hreached : registry.Reached) :
    registry.names.Nodup := by
  rcases hreached.eq_insertAll with ⟨registered, rfl, haccepted⟩
  exact (insertAll_isKept haccepted).names_nodup

theorem Reached.default {registry : Registry σ} (hreached : registry.Reached) {c : Command σ}
    (hc : c ∈ registry.commands) {o : OptionSpec} (ho : o ∈ c.descriptor.options) {v : Value}
    (hdefault : o.default = some v) : exists s : Scalar, v = s.toValue := by
  rcases hreached.accepted hc with ⟨candidate, host, hcommand⟩
  have hpass := Candidate.descriptor_of_toCommand hcommand
  rcases Descriptor.option_of_check hpass ho with ⟨w, hw⟩
  exact OptionSpec.default_of_check hw hdefault

/-- Calls in any order, with any candidates, lead to a registry that is kept as told, of the
commands that were registered since the last reset. -/
theorem callAll_isKept (calls : List (Call σ)) (s : Session σ) :
    exists registry, (empty.callAll calls s).1 = .ok registry ∧
      registry.IsKept (history s.host [] calls) := by
  refine ⟨_, callAll_apply [] calls s, insertAll_isKept ?_⟩
  intro c hc
  exact history_accepted (fun _ hnone => by cases hnone) hc

end Registry

end OperatorConsole
