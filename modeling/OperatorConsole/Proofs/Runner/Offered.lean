import Mathlib.Data.List.Nodup
import Mathlib.Data.Set.List
import OperatorConsole.Proofs.Options.Validated
import OperatorConsole.Proofs.Registry.Kept
import OperatorConsole.Proofs.Runner.Observed

/-!
# Choices that a catalog offers

The catalog shows what an option can be chosen from, and validation asks for one of these choices.
For an option with choices of its own and without rules the two go by the same list: every choice
that is shown is accepted, and no other text is.

## Blank choices

Blank text counts as not supplied before anybody looks at the choices.  A blank choice of an option
that may be left out is accepted for that reason.  A required option does not accept it, although
the catalog shows it.

## Other options

Validation reports one failure, that of the first option that does not accept its value.  An option
can therefore only be reported if the options in front of it accept theirs.
-/

namespace OperatorConsole

/-! ## What a failure is about -/

def Failure.IsAbout (failure : Failure) (key : String) : Prop :=
  exists refusal, failure = .validation refusal ∧ refusal.field = key

theorem OptionSpec.key_of_isAbout {o : OptionSpec} {values : Record} {failure : Failure}
    {key : String} (hfailure : o.failure? values = some failure) (habout : failure.IsAbout key) :
    o.key = key := by
  rcases habout with ⟨refusal, rfl, rfl⟩
  by_cases hunsupplied : (values.get o.key).IsUnsupplied
  · rw [failure?_of_unsupplied hunsupplied] at hfailure
    split at hfailure
    · cases hfailure
      rfl
    · cases hfailure
  · rw [failure?_of_supplied hunsupplied, complaint?_eq_some_iff] at hfailure
    rcases hfailure with ⟨_, _, _, _, _, _, hbroken⟩ | ⟨_, hunlisted⟩
    · cases hbroken
      rfl
    · cases htext : (values.get o.key).text? with
      | some text =>
          rcases (unlisted?_eq_some_iff htext).mp hunlisted with ⟨_, hrefusal⟩
          cases hrefusal
          rfl
      | none =>
          rw [unlisted?, htext] at hunlisted
          cases hlisted : o.listed? with
          | none =>
              rw [hlisted] at hunlisted
              cases hunlisted
          | some listed =>
              rw [hlisted] at hunlisted
              cases hunlisted

namespace Options

theorem not_isAbout_of_validate {values : Record} {schema : List OptionSpec} {failure : Failure}
    {key : String} (hfailure : validate values schema = .error failure)
    (hother : forall o, o ∈ schema -> o.key ≠ key) : ¬ failure.IsAbout key := by
  rcases (validate_eq_error_iff values schema failure).mp hfailure with
    ⟨before, o, after, rfl, ho, _⟩
  intro habout
  exact hother o (by simp) (OptionSpec.key_of_isAbout ho habout)

/-! ## Parts of a schema -/

theorem validate_append (values : Record) (before after : List OptionSpec) :
    validate values (before ++ after) =
      validate values before >>= fun _ => validate values after := by
  unfold validate failure?
  rw [List.findSome?_append]
  cases before.findSome? fun o => o.failure? values with
  | none => rfl
  | some failure => rfl

theorem validate_accepted {values : Record} {o : OptionSpec} (hnone : o.failure? values = none)
    (before after : List OptionSpec) :
    validate values (before ++ o :: after) = validate values (before ++ after) := by
  unfold validate failure?
  rw [List.findSome?_append, List.findSome?_append, List.findSome?_cons, hnone]

/-- An option that does not accept its value is reported unless one in front of it is. -/
theorem validate_refused {values : Record} {o : OptionSpec} {failure : Failure}
    (hfailure : o.failure? values = some failure) (before after : List OptionSpec) :
    validate values (before ++ o :: after) =
      validate values before >>= fun _ => .error failure := by
  have hrest : validate values (o :: after) = .error failure := by
    unfold validate failure?
    rw [List.findSome?_cons, hfailure]
  rw [validate_append, hrest]

end Options

/-! ## Choices of a checked option -/

theorem Value.text?_text (s : String) : (Value.text s).text? = some s := by
  unfold text? chars?
  exact congrArg some String.ofList_toList

theorem Choice.own_value (choice : Choice) :
    Fields.own choice.toValue.fields "value" = .text choice.value :=
  rfl

namespace OptionSpec

theorem isListed_toValue {offered : List Choice} {text : String} :
    IsListed (offered.map Choice.toValue) text ↔
      exists choice, choice ∈ offered ∧ choice.value = text := by
  unfold IsListed
  simp [Choice.own_value]

theorem choices_of_check {v : Value} {o : OptionSpec} (hpass : check v = Check.ok o)
    {choices : List Value} (hchoices : o.choices = some choices) :
    exists offered : List Choice, choices = offered.map Choice.toValue := by
  rcases check_eq_ok.mp hpass with ⟨⟨r, _, hread⟩, _⟩
  rcases Check.optional_eq_ok.mp (Check.field_eq_ok.mp hread.choices) with
    ⟨_, hnone⟩ | ⟨_, read, hlist, hsome⟩
  · rw [hchoices] at hnone
    cases hnone
  · rw [hchoices] at hsome
    cases hsome
    have hread : choices ∈ Set.range (List.map Choice.toValue) := by
      rw [Set.range_list_map]
      intro w hw
      rcases Check.list_mem hlist hw with ⟨u, hu⟩
      rcases Check.map_eq_ok.mp hu with ⟨choice, _, rfl⟩
      exact ⟨choice, rfl⟩
    rcases hread with ⟨offered, rfl⟩
    exact ⟨offered, rfl⟩

theorem offered_of_check {v : Value} {o : OptionSpec} (hpass : check v = Check.ok o)
    (hkind : o.kind = .choice) (hstatic : o.supplier = none) :
    exists offered : List Choice, offered ≠ [] ∧
      o.ListsChoices (offered.map Choice.toValue) := by
  have hsome := hasChoices_of_check hpass
  rw [hasChoices, hkind, hstatic] at hsome
  cases hchoices : o.choices with
  | none => simp [hchoices] at hsome
  | some choices =>
      rcases choices_of_check hpass hchoices with ⟨offered, rfl⟩
      refine ⟨offered, ?_, hkind, hstatic, hchoices⟩
      rintro rfl
      simp [hchoices] at hsome

/-! ## Single options -/

section Single

variable {o : OptionSpec} {offered : List Choice} {values : Record}
  (hlists : o.ListsChoices (offered.map Choice.toValue)) (hrules : o.rules = [])

include hlists hrules

theorem complaint?_of_offered {choice : Choice} (hchoice : choice ∈ offered) :
    o.complaint? (.text choice.value) = none := by
  rw [complaint?_eq_none_iff, hrules, unlisted?_eq_none_iff (Value.text?_text choice.value)]
  refine ⟨fun _ hnone => absurd hnone List.not_mem_nil, ?_⟩
  intro choices hchoices
  rw [hchoices.unique hlists]
  exact isListed_toValue.mpr ⟨choice, hchoice, rfl⟩

theorem failure?_of_offered {choice : Choice} (hchoice : choice ∈ offered)
    (hget : values.get o.key = .text choice.value)
    (hcounts : o.required = true -> Text.isBlankString choice.value = false) :
    o.failure? values = none := by
  by_cases hunsupplied : (values.get o.key).IsUnsupplied
  · rw [failure?_of_unsupplied hunsupplied]
    rw [hget, ← Value.isEmpty_iff] at hunsupplied
    apply if_neg
    intro hrequired
    rw [Value.isEmpty, hcounts hrequired] at hunsupplied
    cases hunsupplied
  · rw [failure?_of_supplied hunsupplied, hget]
    exact complaint?_of_offered hlists hrules hchoice

theorem failure?_of_unlisted {text : String} (hsupplied : ¬ (values.get o.key).IsUnsupplied)
    (htext : (values.get o.key).text? = some text)
    (hother : forall choice, choice ∈ offered -> choice.value ≠ text) :
    o.failure? values = some (.validation
      (.invalidValue o.key (some s!"'{text}' is not one of the available choices"))) := by
  apply (failure?_eq_some_iff htext).mpr
  refine ⟨_, .unlisted hsupplied ?_ hlists htext ?_, rfl⟩
  · rw [hrules]
    exact fun _ hnone => absurd hnone List.not_mem_nil
  · rw [isListed_toValue]
    rintro ⟨choice, hchoice, hsame⟩
    exact hother choice hchoice hsame

end Single

/-! ## Options in a schema -/

/-- What validation makes of an option between others that is chosen from what is offered. -/
structure IsChosenFrom (o : OptionSpec) (before after : List OptionSpec)
    (offered : List Choice) : Prop where
  /-- A choice is accepted as if the option were not there. -/
  accepted : forall choice, choice ∈ offered ->
    forall values : Record, values.get o.key = .text choice.value ->
      (o.required = true -> Text.isBlankString choice.value = false) ->
        Options.validate values (before ++ o :: after) = Options.validate values (before ++ after)
  blank : forall choice, choice ∈ offered ->
    forall values : Record, values.get o.key = .text choice.value ->
      o.required = true -> Text.isBlankString choice.value = true ->
        Options.validate values (before ++ o :: after) =
          Options.validate values before >>= fun _ =>
            .error (.validation (.missingRequired o.key o.label))
  unlisted : forall (values : Record) text, ¬ (values.get o.key).IsUnsupplied ->
    (values.get o.key).text? = some text ->
      (forall choice, choice ∈ offered -> choice.value ≠ text) ->
        Options.validate values (before ++ o :: after) =
          Options.validate values before >>= fun _ =>
            .error (.validation
              (.invalidValue o.key (some s!"'{text}' is not one of the available choices")))
  /-- What is reported of the options around it is not about this one. -/
  apart : forall others, others.Sublist (before ++ after) ->
    forall values failure, Options.validate values others = .error failure ->
      ¬ failure.IsAbout o.key

theorem isChosenFrom {o : OptionSpec} {before after : List OptionSpec} {offered : List Choice}
    (hkeys : ((before ++ o :: after).map OptionSpec.key).Nodup)
    (hlists : o.ListsChoices (offered.map Choice.toValue)) (hrules : o.rules = []) :
    o.IsChosenFrom before after offered := by
  constructor
  case accepted =>
    intro choice hchoice values hget hcounts
    exact Options.validate_accepted
      (failure?_of_offered hlists hrules hchoice hget hcounts) before after
  case blank =>
    intro choice hchoice values hget hrequired hblank
    apply Options.validate_refused
    rw [failure?_of_unsupplied, if_pos hrequired]
    exact hget ▸ Value.isEmpty_iff.mp hblank
  case unlisted =>
    intro values text hsupplied htext hother
    exact Options.validate_refused
      (failure?_of_unlisted hlists hrules hsupplied htext hother) before after
  case apart =>
    intro others hothers values failure hfailure
    apply Options.not_isAbout_of_validate hfailure
    intro other hother hsame
    rw [List.map_append, List.map_cons] at hkeys
    have hfresh := (List.nodup_middle.mp hkeys).notMem
    rw [← List.map_append] at hfresh
    exact hfresh (hsame ▸ List.mem_map_of_mem (hothers.subset hother))

end OptionSpec

/-! ## Entries -/

/-- A catalog shows an option under its key, with its choices if it lists them. -/
def CatalogOption.Shows (shown : CatalogOption) (o : OptionSpec) : Prop :=
  shown.key = o.key ∧ forall choices, o.ListsChoices choices -> shown.choices = some choices

theorem CatalogOption.ofSpec_shows {ask : String -> Action σ (List Value)} {o : OptionSpec}
    {s : Session σ} {shown : CatalogOption}
    (hshown : (CatalogOption.ofSpec ask o s).1 = .ok shown) : shown.Shows o := by
  unfold ofSpec at hshown
  dsimp only at hshown
  split at hshown
  · rcases Action.bind_ok hshown with ⟨current, t, hcurrent, hgiven⟩
    cases hgiven
    refine ⟨rfl, ?_⟩
    rintro choices ⟨_, hstatic, hchoices⟩
    rw [OptionSpec.currentChoices, hstatic, hchoices] at hcurrent
    cases hcurrent
    rfl
  · rename_i hother
    cases hshown
    exact ⟨rfl, fun choices hchoices => absurd hchoices.1 hother⟩

structure CatalogEntry.IsOf (entry : CatalogEntry) (command : Command σ) : Prop where
  name : entry.name = command.name
  options : List.Forall₂ (fun o shown => CatalogOption.Shows shown o) command.descriptor.options
    entry.options

theorem Command.catalogEntry_isOf {command : Command σ} {confirmation : Bool} {s : Session σ}
    {entry : CatalogEntry} (hentry : (command.catalogEntry confirmation s).1 = .ok entry) :
    entry.IsOf command := by
  rcases Action.bind_ok hentry with ⟨options, t, hoptions, hgiven⟩
  cases hgiven
  refine ⟨rfl, Action.mapM_pairs ?_ hoptions⟩
  intro o t shown hshown
  exact CatalogOption.ofSpec_shows hshown

namespace Registry

def ShowChoices (entries : List CatalogEntry) (name key : String)
    (offered : List Choice) : Prop :=
  forall entry, entry ∈ entries -> entry.name = name ->
    forall shown, shown ∈ entry.options -> shown.key = key ->
      shown.choices = some (offered.map Choice.toValue)

/-- What the catalogs of a registry say of an option of one of its commands. -/
structure Offers (registry : Registry σ) (command : Command σ) (o : OptionSpec)
    (offered : List Choice) : Prop where
  listed : forall s entries, (registry.catalog s).1 = .ok entries ->
    exists entry, entry ∈ entries ∧ entry.name = command.name ∧
      exists shown, shown ∈ entry.options ∧ shown.key = o.key
  shown : forall s entries, (registry.catalog s).1 = .ok entries ->
    ShowChoices entries command.name o.key offered
  /-- The catalog of a runner leaves out commands and shows the others alike. -/
  eligible : forall runner : Runner σ, runner.registry = registry ->
    forall s entries, (runner.catalog s).1 = .ok entries ->
      ShowChoices entries command.name o.key offered

variable {registry : Registry σ} {command : Command σ} {o : OptionSpec} {offered : List Choice}

theorem showChoices_of_pairs {commands : List (Command σ)} {entries : List CatalogEntry}
    (hpairs : List.Forall₂ (fun c entry => CatalogEntry.IsOf entry c) commands entries)
    (hcommand : forall c, c ∈ commands -> c.name = command.name -> c = command)
    (hkeys : (command.descriptor.options.map OptionSpec.key).Nodup)
    (ho : o ∈ command.descriptor.options)
    (hlists : o.ListsChoices (offered.map Choice.toValue)) :
    ShowChoices entries command.name o.key offered := by
  intro entry hentry hname shown hshown hkey
  rcases (exists_paired hpairs).2 entry hentry with ⟨c, hc, hof⟩
  have hsame := hcommand c hc (hof.name.symm.trans hname)
  subst hsame
  rcases (exists_paired hof.options).2 shown hshown with ⟨other, hother, hshows⟩
  have hsame := List.inj_on_of_nodup_map hkeys hother ho (hshows.1.symm.trans hkey)
  subst hsame
  exact hshows.2 _ hlists

theorem catalog_pairs {s : Session σ} {entries : List CatalogEntry}
    (hcatalog : (registry.catalog s).1 = .ok entries) :
    List.Forall₂ (fun c entry => CatalogEntry.IsOf entry c) registry.commands entries :=
  Action.mapM_pairs (fun _ _ _ => Command.catalogEntry_isOf) hcatalog

theorem offers_of_reached (hreached : registry.Reached) (hmem : command ∈ registry.commands)
    (hkeys : (command.descriptor.options.map OptionSpec.key).Nodup)
    (ho : o ∈ command.descriptor.options)
    (hlists : o.ListsChoices (offered.map Choice.toValue)) :
    registry.Offers command o offered := by
  have hcommand : forall c, c ∈ registry.commands -> c.name = command.name -> c = command :=
    fun c hc => List.inj_on_of_nodup_map hreached.names_nodup hc hmem
  constructor
  case listed =>
    intro s entries hcatalog
    rcases (exists_paired (catalog_pairs hcatalog)).1 command hmem with ⟨entry, hentry, hof⟩
    rcases (exists_paired hof.options).1 o ho with ⟨shown, hshown, hshows⟩
    exact ⟨entry, hentry, hof.name, shown, hshown, hshows.1⟩
  case shown =>
    intro s entries hcatalog
    exact showChoices_of_pairs (catalog_pairs hcatalog) hcommand hkeys ho hlists
  case eligible =>
    rintro runner rfl s entries hcatalog
    have hpairs := Action.mapM_pairs (fun _ _ _ => Command.catalogEntry_isOf) hcatalog
    refine showChoices_of_pairs hpairs ?_ hkeys ho hlists
    exact fun c hc => hcommand c (List.mem_filter.mp hc).1

/-- What the catalog shows as the choices of an option is what the option accepts, blank choices of
required options apart, and the option is reported unless one in front of it is. -/
theorem choices_offered_and_accepted (hreached : registry.Reached)
    (hmem : command ∈ registry.commands) {before after : List OptionSpec}
    (hoptions : command.descriptor.options = before ++ o :: after) (hkind : o.kind = .choice)
    (hstatic : o.supplier = none) (hrules : o.rules = []) :
    exists offered : List Choice, offered ≠ [] ∧ registry.Offers command o offered ∧
      o.IsChosenFrom before after offered := by
  rcases hreached.accepted hmem with ⟨candidate, host, hcommand⟩
  have hpass := Candidate.descriptor_of_toCommand hcommand
  have hkeys := Descriptor.keys_nodup_of_check hpass
  have ho : o ∈ command.descriptor.options := by
    rw [hoptions]
    simp
  rcases Descriptor.option_of_check hpass ho with ⟨v, hv⟩
  rcases OptionSpec.offered_of_check hv hkind hstatic with ⟨offered, hsome, hlists⟩
  refine ⟨offered, hsome, offers_of_reached hreached hmem hkeys ho hlists, ?_⟩
  rw [hoptions] at hkeys
  exact OptionSpec.isChosenFrom hkeys hlists hrules

/-- A command that asks for a mode, which may be any, before it asks for a level. -/
def starting : Descriptor :=
  ⟨"jobs:start", "Start jobs", "Starts what waits.", "jobs", .low, false,
    [⟨"mode", "Mode", .choice, true, none, false,
        some [(Choice.mk "" "Any").toValue, (Choice.mk "fast" "Fast").toValue], none, [], none,
        none⟩,
      ⟨"level", "Level", .choice, false, none, false,
        some [(Choice.mk "low" "Low").toValue, (Choice.mk "high" "High").toValue], none, [], none,
        none⟩]⟩

def startingRegistry : Registry Unit :=
  ⟨[Restricted.command starting]⟩

def startingEntry : CatalogEntry :=
  ⟨"jobs:start", "Start jobs", "Starts what waits.", "jobs", .low, false,
    [⟨"mode", "Mode", .choice, true, false, none,
        some [(Choice.mk "" "Any").toValue, (Choice.mk "fast" "Fast").toValue], none, none⟩,
      ⟨"level", "Level", .choice, false, false, none,
        some [(Choice.mk "low" "Low").toValue, (Choice.mk "high" "High").toValue], none, none⟩]⟩

/-- A mode that the catalog shows is accepted, and one that it does not show is refused. -/
theorem choices_offered_and_accepted_mode :
    startingRegistry.Reached ∧
      Options.validate (.ofFields [("mode", .text "fast")]) starting.options = .ok () ∧
      Options.validate (.ofFields [("mode", .text "slow")]) starting.options =
        .error (.validation (.invalidValue "mode"
          (some "'slow' is not one of the available choices"))) := by
  have hreached : startingRegistry.Reached :=
    ⟨[.register (Restricted.candidate starting)], ⟨(), []⟩, rfl⟩
  have hmem : Restricted.command starting ∈ startingRegistry.commands := List.mem_singleton.mpr rfl
  have hoptions : (Restricted.command starting).descriptor.options =
      [] ++ starting.options[0] :: [starting.options[1]] := rfl
  rcases choices_offered_and_accepted hreached hmem hoptions rfl rfl rfl with
    ⟨offered, _, hoffers, hchosen⟩
  have hshown : some [(Choice.mk "" "Any").toValue, (Choice.mk "fast" "Fast").toValue] =
      some (offered.map Choice.toValue) :=
    hoffers.shown ⟨(), []⟩ [startingEntry] rfl startingEntry (by decide) rfl
      startingEntry.options[0] (by decide) rfl
  have hlisted (text : String) : (exists choice, choice ∈ offered ∧ choice.value = text) ↔
      OptionSpec.IsListed
        [(Choice.mk "" "Any").toValue, (Choice.mk "fast" "Fast").toValue] text := by
    rw [Option.some.inj hshown]
    exact OptionSpec.isListed_toValue.symm
  refine ⟨hreached, ?_, hchosen.unlisted _ "slow" ?_ rfl ?_⟩
  · rcases (hlisted "fast").mpr (OptionSpec.isListed_iff.mp (by decide +kernel)) with
      ⟨choice, hchoice, hvalue⟩
    have hget : (Record.ofFields [("mode", .text "fast")]).get "mode" = .text choice.value :=
      congrArg Value.text hvalue.symm
    exact hchosen.accepted choice hchoice _ hget fun _ => hvalue ▸ by decide +kernel
  · exact fun hnone => absurd (Value.isEmpty_iff.mpr hnone) (by decide +kernel)
  · intro choice hchoice hsame
    have hslow := (hlisted "slow").mp ⟨choice, hchoice, hsame⟩
    exact absurd (OptionSpec.isListed_iff.mpr hslow) (by decide +kernel)

/-- The catalog shows a blank mode, and a required mode must not be blank; and nobody looks at a
level as long as there is no mode. -/
theorem blank_choice_refused :
    startingRegistry.Reached ∧
      (startingRegistry.catalog ⟨(), []⟩).1 = .ok [startingEntry] ∧
      Options.validate (.ofFields [("mode", .text "")]) starting.options =
        .error (.validation (.missingRequired "mode" "Mode")) ∧
      Options.validate (.ofFields [("level", .text "none")]) starting.options =
        .error (.validation (.missingRequired "mode" "Mode")) :=
  ⟨⟨[.register (Restricted.candidate starting)], ⟨(), []⟩, rfl⟩, rfl, rfl, rfl⟩

end Registry

end OperatorConsole
