import OperatorConsole.Options.Values
import OperatorConsole.Proofs.Value.Fields

/-!
# Validated options

What has to be true of the supplied values for a schema to accept them, said without the order
in which they are looked at, and what is reported if it is not true.

## Keys that a map does not contain

A map answers to a key that it does not contain with what every record inherits.  For an
ordinary key that is nothing, and the option counts as not supplied; for the few inherited names
it is a routine or the ancestor of all records, and the option counts as supplied.
-/

namespace OperatorConsole

/-! ## What is asked of values -/

/-- Nothing at all, null, an unchecked box and blank text count as not supplied. -/
def Value.IsUnsupplied (v : Value) : Prop :=
  v = .absent ∨ v = .null ∨ v = .bool false ∨
    exists s, v = .text s ∧ Text.isBlankString s = true

theorem Value.isEmpty_iff {v : Value} : v.isEmpty = true ↔ v.IsUnsupplied := by
  unfold IsUnsupplied
  cases v with
  | text s => simp [isEmpty]
  | _ => simp [isEmpty]

/-- What a rule asks of a supplied value. Bounds ask nothing of a value that is no number. -/
def OptionRule.Admits (rule : OptionRule) (v : Value) : Prop :=
  match rule.name with
  | .integer => exists x, v.numeric? = some x ∧ x.isInteger = true
  | .numeric => exists x, v.numeric? = some x
  | .min => forall bound x, rule.arg = some bound -> v.numeric? = some x ->
      Number.le bound.asNumber x = true
  | .max => forall bound x, rule.arg = some bound -> v.numeric? = some x ->
      Number.le x bound.asNumber = true
  | .unknown _ => False

namespace OptionRule

theorem isNumeric_iff {v : Value} : v.isNumeric = true ↔ exists x, v.numeric? = some x := by
  cases v with
  | number x => simp [Value.isNumeric, Value.numeric?]
  | text s => simp [Value.isNumeric, Value.numeric?]
  | _ => simp [Value.isNumeric, Value.numeric?]

theorem bounds_iff {relation : Number -> Number -> Bool} {rule : OptionRule} {v : Value} :
    rule.bounds relation v = true ↔
      forall bound x, rule.arg = some bound -> v.numeric? = some x ->
        relation x bound.asNumber = true := by
  unfold bounds
  cases rule.arg with
  | none => simp
  | some bound =>
      cases v.numeric? with
      | none => simp
      | some x => simp

theorem holds_iff {rule : OptionRule} {v : Value} : rule.holds v = true ↔ rule.Admits v := by
  unfold holds Admits
  cases rule.name with
  | integer => simp [Option.any_eq_true]
  | numeric => exact isNumeric_iff
  | min => exact bounds_iff
  | max => exact bounds_iff
  | unknown name => simp

theorem noneBroken_iff {rules : List OptionRule} {v : Value} :
    (rules.find? fun rule => !rule.holds v) = none ↔
      forall rule, rule ∈ rules -> rule.Admits v := by
  simp only [List.find?_eq_none, Bool.not_eq_true', Bool.not_eq_false, holds_iff]

theorem firstBroken_iff {rules : List OptionRule} {v : Value} {rule : OptionRule} :
    (rules.find? fun rule => !rule.holds v) = some rule ↔
      exists before after, rules = before ++ rule :: after ∧
        (forall earlier, earlier ∈ before -> earlier.Admits v) ∧ ¬ rule.Admits v := by
  have hbroken : (!rule.holds v) = true ↔ ¬ rule.Admits v := by
    rw [← holds_iff]
    simp
  rw [List.find?_eq_some_iff_append, hbroken]
  simp only [Bool.not_not, holds_iff]
  constructor
  · rintro ⟨hnot, before, after, hsplit, hbefore⟩
    exact ⟨before, after, hsplit, hbefore, hnot⟩
  · rintro ⟨before, after, hsplit, hbefore, hnot⟩
    exact ⟨hnot, before, after, hsplit, hbefore⟩

end OptionRule

namespace OptionSpec

def ListsChoices (o : OptionSpec) (choices : List Value) : Prop :=
  o.kind = .choice ∧ o.supplier = none ∧ o.choices = some choices

def IsListed (choices : List Value) (text : String) : Prop :=
  exists choice, choice ∈ choices ∧ Fields.own choice.fields "value" = .text text

inductive Accepts (o : OptionSpec) (v : Value) : Prop where
  | unsupplied (hunsupplied : v.IsUnsupplied) (hoptional : o.required = false)
  | supplied (hsupplied : ¬ v.IsUnsupplied)
      (hrules : forall rule, rule ∈ o.rules -> rule.Admits v)
      (hlisted : forall choices, o.ListsChoices choices ->
        exists text, v.text? = some text ∧ IsListed choices text)

/-- What is reported of a value: that it is missing, else the first rule that it breaks, else
that it is none of the choices. -/
inductive Refuses (o : OptionSpec) (v : Value) : ValidationFailure -> Prop where
  | missing (hunsupplied : v.IsUnsupplied) (hrequired : o.required = true) :
      Refuses o v (.missingRequired o.key o.label)
  | broken {before after : List OptionRule} {rule : OptionRule} (hsupplied : ¬ v.IsUnsupplied)
      (hrules : o.rules = before ++ rule :: after)
      (hbefore : forall earlier, earlier ∈ before -> earlier.Admits v)
      (hbroken : ¬ rule.Admits v) :
      Refuses o v (.ruleViolation o.key rule)
  | unlisted {choices : List Value} {text : String} (hsupplied : ¬ v.IsUnsupplied)
      (hrules : forall rule, rule ∈ o.rules -> rule.Admits v)
      (hchoices : o.ListsChoices choices) (htext : v.text? = some text)
      (hunlisted : ¬ IsListed choices text) :
      Refuses o v (.invalidValue o.key (some s!"'{text}' is not one of the available choices"))

/-! ## Single options -/

theorem listed?_eq_some_iff {o : OptionSpec} {listed : List Value} :
    o.listed? = some listed ↔ exists choices, o.ListsChoices choices ∧
      choices.map (fun choice => Fields.own choice.fields "value") = listed := by
  unfold listed? ListsChoices
  cases hsupplier : o.supplier with
  | some name => simp
  | none => by_cases hkind : o.kind = .choice <;> simp [hkind]

theorem ListsChoices.unique {o : OptionSpec} {choices others : List Value}
    (hchoices : o.ListsChoices choices) (hothers : o.ListsChoices others) : choices = others :=
  Option.some.inj (hchoices.2.2.symm.trans hothers.2.2)

theorem isListed_iff {choices : List Value} {text : String} :
    (choices.map fun choice => Fields.own choice.fields "value").contains (.text text) = true ↔
      IsListed choices text := by
  unfold IsListed
  rw [List.contains_iff_mem, List.mem_map]

theorem unlisted?_eq_none_iff {o : OptionSpec} {v : Value} {text : String}
    (htext : v.text? = some text) :
    o.unlisted? v = none ↔ forall choices, o.ListsChoices choices -> IsListed choices text := by
  unfold unlisted?
  rw [htext]
  cases hlisted : o.listed? with
  | none =>
      simp only [true_iff]
      intro choices hchoices
      rw [listed?_eq_some_iff.mpr ⟨choices, hchoices, rfl⟩] at hlisted
      cases hlisted
  | some listed =>
      rcases listed?_eq_some_iff.mp hlisted with ⟨choices, hchoices, rfl⟩
      dsimp only
      split
      · rename_i hcontains
        simp only [true_iff]
        intro others hothers
        rw [hothers.unique hchoices]
        exact isListed_iff.mp hcontains
      · rename_i hcontains
        simp only [reduceCtorEq, false_iff]
        intro hall
        exact hcontains (isListed_iff.mpr (hall choices hchoices))

theorem unlisted?_eq_some_iff {o : OptionSpec} {v : Value} {text : String} {failure : Failure}
    (htext : v.text? = some text) :
    o.unlisted? v = some failure ↔
      (exists choices, o.ListsChoices choices ∧ ¬ IsListed choices text) ∧
        failure = .validation
          (.invalidValue o.key (some s!"'{text}' is not one of the available choices")) := by
  unfold unlisted?
  rw [htext]
  cases hlisted : o.listed? with
  | none =>
      simp only [reduceCtorEq, false_iff]
      rintro ⟨⟨choices, hchoices, _⟩, _⟩
      rw [listed?_eq_some_iff.mpr ⟨choices, hchoices, rfl⟩] at hlisted
      cases hlisted
  | some listed =>
      rcases listed?_eq_some_iff.mp hlisted with ⟨choices, hchoices, rfl⟩
      dsimp only
      split
      · rename_i hcontains
        simp only [reduceCtorEq, false_iff]
        rintro ⟨⟨others, hothers, hunlisted⟩, _⟩
        rw [hothers.unique hchoices] at hunlisted
        exact hunlisted (isListed_iff.mp hcontains)
      · rename_i hcontains
        constructor
        · intro hfailure
          constructor
          · exact ⟨choices, hchoices, fun h => hcontains (isListed_iff.mpr h)⟩
          · exact (Option.some.inj hfailure).symm
        · rintro ⟨_, rfl⟩
          rfl

theorem complaint?_eq_none_iff {o : OptionSpec} {v : Value} :
    o.complaint? v = none ↔
      (forall rule, rule ∈ o.rules -> rule.Admits v) ∧ o.unlisted? v = none := by
  unfold complaint?
  rw [← OptionRule.noneBroken_iff]
  cases o.rules.find? fun rule => !rule.holds v with
  | some rule => simp
  | none => simp

theorem complaint?_eq_some_iff {o : OptionSpec} {v : Value} {failure : Failure} :
    o.complaint? v = some failure ↔
      (exists before rule after, o.rules = before ++ rule :: after ∧
        (forall earlier, earlier ∈ before -> earlier.Admits v) ∧ ¬ rule.Admits v ∧
        failure = .validation (.ruleViolation o.key rule)) ∨
      ((forall rule, rule ∈ o.rules -> rule.Admits v) ∧ o.unlisted? v = some failure) := by
  unfold complaint?
  rw [← OptionRule.noneBroken_iff]
  cases hfound : o.rules.find? fun rule => !rule.holds v with
  | some rule =>
      simp only [reduceCtorEq, false_and, or_false]
      constructor
      · intro hfailure
        rcases OptionRule.firstBroken_iff.mp hfound with ⟨before, after, hsplit, hbefore, hnot⟩
        exact ⟨before, rule, after, hsplit, hbefore, hnot, (Option.some.inj hfailure).symm⟩
      · rintro ⟨before, other, after, hsplit, hbefore, hnot, rfl⟩
        have hother := OptionRule.firstBroken_iff.mpr ⟨before, after, hsplit, hbefore, hnot⟩
        rw [Option.some.inj (hfound.symm.trans hother)]
  | none =>
      have hrules := OptionRule.noneBroken_iff.mp hfound
      simp only [true_and]
      constructor
      · exact Or.inr
      · rintro (⟨before, rule, after, hsplit, _, hnot, _⟩ | hfailure)
        · exact absurd (hrules rule (by rw [hsplit]; simp)) hnot
        · exact hfailure

variable {o : OptionSpec} {values : Record}

theorem failure?_of_unsupplied (hunsupplied : (values.get o.key).IsUnsupplied) :
    o.failure? values =
      if o.required then some (.validation (.missingRequired o.key o.label)) else none := by
  unfold failure?
  dsimp only
  rw [if_pos (Value.isEmpty_iff.mpr hunsupplied)]

theorem failure?_of_supplied (hsupplied : ¬ (values.get o.key).IsUnsupplied) :
    o.failure? values = o.complaint? (values.get o.key) := by
  unfold failure?
  dsimp only
  rw [if_neg fun hempty => hsupplied (Value.isEmpty_iff.mp hempty)]

theorem failure?_eq_none_iff {text : String} (htext : (values.get o.key).text? = some text) :
    o.failure? values = none ↔ o.Accepts (values.get o.key) := by
  by_cases hunsupplied : (values.get o.key).IsUnsupplied
  · rw [failure?_of_unsupplied hunsupplied]
    constructor
    · intro hnone
      exact .unsupplied hunsupplied (by simpa using hnone)
    · intro haccepts
      cases haccepts with
      | unsupplied _ hoptional => simp [hoptional]
      | supplied hsupplied _ _ => exact absurd hunsupplied hsupplied
  · rw [failure?_of_supplied hunsupplied, complaint?_eq_none_iff, unlisted?_eq_none_iff htext]
    constructor
    · rintro ⟨hrules, hlisted⟩
      exact .supplied hunsupplied hrules fun choices hchoices =>
        ⟨text, htext, hlisted choices hchoices⟩
    · intro haccepts
      cases haccepts with
      | unsupplied h _ => exact absurd h hunsupplied
      | supplied _ hrules hlisted =>
          refine ⟨hrules, ?_⟩
          intro choices hchoices
          rcases hlisted choices hchoices with ⟨text', htext', hmem⟩
          rw [Option.some.inj (htext.symm.trans htext')]
          exact hmem

theorem failure?_eq_some_iff {text : String} (htext : (values.get o.key).text? = some text)
    {failure : Failure} :
    o.failure? values = some failure ↔
      exists refusal, o.Refuses (values.get o.key) refusal ∧ failure = .validation refusal := by
  by_cases hunsupplied : (values.get o.key).IsUnsupplied
  · rw [failure?_of_unsupplied hunsupplied]
    constructor
    · intro hsome
      cases hrequired : o.required with
      | false => simp [hrequired] at hsome
      | true =>
          rw [hrequired] at hsome
          exact ⟨_, .missing hunsupplied hrequired, (Option.some.inj hsome).symm⟩
    · rintro ⟨refusal, hrefuses, rfl⟩
      cases hrefuses with
      | missing _ hrequired => simp [hrequired]
      | broken hsupplied _ _ _ => exact absurd hunsupplied hsupplied
      | unlisted hsupplied _ _ _ _ => exact absurd hunsupplied hsupplied
  · rw [failure?_of_supplied hunsupplied, complaint?_eq_some_iff, unlisted?_eq_some_iff htext]
    constructor
    · rintro (⟨before, rule, after, hsplit, hbefore, hbroken, rfl⟩ |
        ⟨hrules, ⟨choices, hchoices, hmem⟩, rfl⟩)
      · exact ⟨_, .broken hunsupplied hsplit hbefore hbroken, rfl⟩
      · exact ⟨_, .unlisted hunsupplied hrules hchoices htext hmem, rfl⟩
    · rintro ⟨refusal, hrefuses, rfl⟩
      cases hrefuses with
      | missing h _ => exact absurd h hunsupplied
      | broken _ hsplit hbefore hbroken =>
          exact Or.inl ⟨_, _, _, hsplit, hbefore, hbroken, rfl⟩
      | unlisted _ hrules hchoices htext' hmem =>
          rw [htext] at htext'
          cases htext'
          exact Or.inr ⟨hrules, ⟨_, hchoices, hmem⟩, rfl⟩

end OptionSpec

namespace Options

/-! ## Maps of option values -/

def IsOptionMap (fields : Fields) : Prop :=
  forall field, field ∈ fields -> field.2 = .absent ∨ exists s : Scalar, field.2 = s.toValue

theorem get_eq (fields : Fields) (key : String) :
    (Record.ofFields fields).get key =
      (fields.own? key).getD ((Fields.inherited? key).getD .absent) := by
  cases hown : fields.own? key with
  | some v => exact Record.get_own hown
  | none => exact Record.get_inherited hown

theorem isUnsupplied_inherited (key : String) :
    ((Fields.inherited? key).getD .absent).IsUnsupplied ↔ Fields.inherited? key = none := by
  cases hinherited : Fields.inherited? key with
  | none => simp [Value.IsUnsupplied]
  | some v =>
      rcases Fields.inherited?_cases hinherited with rfl | ⟨routine, rfl⟩
      · simp [Value.IsUnsupplied]
      · simp [Value.IsUnsupplied]

theorem text_of_get {fields : Fields} (hfields : IsOptionMap fields) (key : String) :
    exists text, ((Record.ofFields fields).get key).text? = some text := by
  rw [get_eq]
  cases hown : fields.own? key with
  | some v =>
      rcases List.lookup_eq_some_iff.mp hown with ⟨before, after, hsplit, _⟩
      have hmem : (key, v) ∈ fields := by
        rw [hsplit]
        simp
      rcases hfields _ hmem with habsent | ⟨s, hs⟩
      · change v = .absent at habsent
        rw [habsent]
        exact ⟨_, rfl⟩
      · change v = s.toValue at hs
        rw [hs]
        cases s with
        | _ => exact ⟨_, rfl⟩
  | none =>
      cases hinherited : Fields.inherited? key with
      | none => exact ⟨_, rfl⟩
      | some v =>
          rcases Fields.inherited?_cases hinherited with rfl | ⟨routine, rfl⟩
          · exact ⟨_, rfl⟩
          · exact ⟨_, rfl⟩

/-! ## Whole schemas -/

theorem validate_eq_ok_iff (values : Record) (schema : List OptionSpec) :
    validate values schema = .ok () ↔ forall o, o ∈ schema -> o.failure? values = none := by
  unfold validate failure?
  rw [← List.findSome?_eq_none_iff]
  cases schema.findSome? fun o => o.failure? values with
  | none => simp
  | some failure => simp

theorem validate_eq_error_iff (values : Record) (schema : List OptionSpec) (failure : Failure) :
    validate values schema = .error failure ↔
      exists before o after, schema = before ++ o :: after ∧
        o.failure? values = some failure ∧
        forall earlier, earlier ∈ before -> earlier.failure? values = none := by
  unfold validate failure?
  rw [← List.findSome?_eq_some_iff]
  cases schema.findSome? fun o => o.failure? values with
  | none => simp
  | some failure => simp

/-- A map of option values passes just if every option accepts what the map answers to its key.
Otherwise the first option that does not says what is reported.  A key that the map does not
contain counts as not supplied, unless every record answers to it. -/
theorem validate_first_refusal {fields : Fields} (hfields : IsOptionMap fields)
    (schema : List OptionSpec) :
    let values := Record.ofFields fields
    (validate values schema = .ok () ↔
      forall o, o ∈ schema -> o.Accepts (values.get o.key)) ∧
    (forall failure, validate values schema = .error failure ↔
      exists before o after refusal, schema = before ++ o :: after ∧
        (forall earlier, earlier ∈ before -> earlier.Accepts (values.get earlier.key)) ∧
        o.Refuses (values.get o.key) refusal ∧ failure = .validation refusal) ∧
    (forall key, fields.own? key ≠ none ∨ Fields.inherited? key = none ->
      values.get key = fields.own key) ∧
    forall key, fields.own? key = none ->
      ((values.get key).IsUnsupplied ↔ Fields.inherited? key = none) := by
  intro values
  have haccepts : forall o : OptionSpec,
      o.failure? values = none ↔ o.Accepts (values.get o.key) := by
    intro o
    rcases text_of_get hfields o.key with ⟨text, htext⟩
    exact OptionSpec.failure?_eq_none_iff htext
  refine ⟨?_, ?_, ?_, ?_⟩
  · rw [validate_eq_ok_iff]
    simp only [haccepts]
  · intro failure
    rw [validate_eq_error_iff]
    simp only [haccepts]
    constructor
    · rintro ⟨before, o, after, hsplit, hfailure, hbefore⟩
      rcases text_of_get hfields o.key with ⟨text, htext⟩
      rcases (OptionSpec.failure?_eq_some_iff htext).mp hfailure with ⟨refusal, hrefuses, rfl⟩
      exact ⟨before, o, after, refusal, hsplit, hbefore, hrefuses, rfl⟩
    · rintro ⟨before, o, after, refusal, hsplit, hbefore, hrefuses, rfl⟩
      rcases text_of_get hfields o.key with ⟨text, htext⟩
      exact ⟨before, o, after, hsplit,
        (OptionSpec.failure?_eq_some_iff htext).mpr ⟨refusal, hrefuses, rfl⟩, hbefore⟩
  · intro key hordinary
    change (Record.ofFields fields).get key = (fields.own? key).getD .absent
    rw [get_eq]
    rcases hordinary with hcontained | hinherited
    · rcases Option.ne_none_iff_exists'.mp hcontained with ⟨v, hv⟩
      rw [hv]
      rfl
    · rw [hinherited]
      rfl
  · intro key hown
    rw [show values.get key = (Fields.inherited? key).getD .absent from
      Record.get_inherited hown]
    exact isUnsupplied_inherited key

def sampleSchema : List OptionSpec :=
  [⟨"limit", "Limit", .text, true, none, true, none, none, [⟨.integer, none⟩], none, none⟩,
    ⟨"mode", "Mode", .choice, false, none, false,
      some [(Choice.mk "fast" "Fast").toValue, (Choice.mk "safe" "Safe").toValue], none, [], none,
      none⟩]

theorem validate_first_refusal_choice :
    IsOptionMap [("limit", .text "5"), ("mode", .text "slow")] ∧
      validate (.ofFields [("limit", .text "5"), ("mode", .text "slow")]) sampleSchema =
        .error (.validation (.invalidValue "mode"
          (some "'slow' is not one of the available choices"))) := by
  have hfields : IsOptionMap [("limit", .text "5"), ("mode", .text "slow")] := by
    intro field hfield
    rcases List.mem_cons.mp hfield with rfl | hmode
    · exact Or.inr ⟨.text "5", rfl⟩
    · rw [List.mem_singleton.mp hmode]
      exact Or.inr ⟨.text "slow", rfl⟩
  refine ⟨hfields, ?_⟩
  apply ((validate_first_refusal hfields sampleSchema).2.1 _).mpr
  refine ⟨[sampleSchema[0]], sampleSchema[1], [], _, rfl, ?_,
    .unlisted ?_ ?_ ⟨rfl, rfl, rfl⟩ rfl ?_, rfl⟩
  · intro earlier hearlier
    rw [List.mem_singleton.mp hearlier]
    apply OptionSpec.Accepts.supplied
    · exact fun hnone => absurd (Value.isEmpty_iff.mpr hnone) (by decide +kernel)
    · intro rule hrule
      rw [List.mem_singleton.mp hrule]
      exact OptionRule.holds_iff.mp (by decide +kernel)
    · rintro choices ⟨hkind, _⟩
      cases hkind
  · exact fun hnone => absurd (Value.isEmpty_iff.mpr hnone) (by decide +kernel)
  · intro rule hrule
    cases hrule
  · exact fun hlisted => absurd (OptionSpec.isListed_iff.mpr hlisted) (by decide +kernel)

def inheritedOption : OptionSpec :=
  ⟨"toString", "Text", .text, true, none, false, none, none, [], none, none⟩

/-- The map does not contain the key, and the required option does not accept a missing value,
but the map passes. -/
theorem missing_inherited_accepted :
    Fields.own? [] inheritedOption.key = none ∧ ¬ inheritedOption.Accepts .absent ∧
      validate (.ofFields []) [inheritedOption] = .ok () := by
  refine ⟨rfl, ?_, rfl⟩
  intro haccepts
  cases haccepts with
  | unsupplied _ hoptional => cases hoptional
  | supplied hsupplied _ _ => exact hsupplied (Or.inl rfl)

end Options

end OperatorConsole
