import OperatorConsole.Proofs.Options.Notation

/-!
# Written rules are read back

A rule is written as its name, with a colon and a decimal argument behind it if it has one.  Bars
stand between rules; blanks stand around parts, names and arguments wherever one likes, and so do
blank parts.  Reading gives the rules back in their order.

Only the zero with a sign is not read back from its text, which is that of the other one.
-/

namespace OperatorConsole

namespace OptionRule

open Check

/-! ## Writing -/

inductive IsPart : OptionRule -> List Char -> Prop where
  | bare {name : RuleName} {part : List Char} (hpart : Text.IsPadded name.text.toList part) :
      IsPart ⟨name, none⟩ part
  | argued {name : RuleName} {x : Number} {head text argument : List Char}
      (hhead : Text.IsPadded name.text.toList head) (htext : x.IsDecimalText text)
      (hargument : Text.IsPadded text argument) :
      IsPart ⟨name, some (.number x)⟩ (head ++ ':' :: argument)

/-- The parts that write rules in their order, blank ones among them. -/
inductive AreParts : List OptionRule -> List (List Char) -> Prop where
  | nil : AreParts [] []
  | blank {rules : List OptionRule} {part : List Char} {parts : List (List Char)}
      (hblank : forall c, c ∈ part -> Text.isBlank c = true) (hrest : AreParts rules parts) :
      AreParts rules (part :: parts)
  | rule {rule : OptionRule} {rules : List OptionRule} {part : List Char}
      {parts : List (List Char)} (hpart : IsPart rule part) (hrest : AreParts rules parts) :
      AreParts (rule :: rules) (part :: parts)

/-! ## Rules that have passed their check -/

structure IsAccepted (rule : OptionRule) : Prop where
  listed : rule.name ∈ RuleName.all
  argument : forall w, rule.arg = some w -> exists x, w = .number x ∧ x.isInteger = true
  bound : rule.arg = none -> rule.name.isBound = false

theorem isAccepted_of_check {v : Value} {rule : OptionRule} (hpass : check v = ok rule) :
    rule.IsAccepted := by
  rcases require_eq_ok.mp hpass with ⟨hrecord, hargument⟩
  rcases record_eq_ok.mp hrecord with ⟨r, _, hfields⟩
  simp only [seq_eq_ok, map_eq_ok, field_eq_ok] at hfields
  rcases hfields with ⟨_, arg, ⟨name, hname, rfl⟩, harg, rfl⟩
  constructor
  case listed =>
    rcases oneOf_eq_ok.mp hname with ⟨s, _, hlookup⟩
    exact (lookup_names_iff.mp hlookup).1
  case argument =>
    rintro w hw
    rcases optional_eq_ok.mp harg with ⟨_, hnone⟩ | ⟨_, w', hcheck, hsome⟩
    · cases hnone.symm.trans hw
    · cases hsome.symm.trans hw
      rcases map_eq_ok.mp hcheck with ⟨x, hinteger, rfl⟩
      exact ⟨x, rfl, (require_eq_ok.mp hinteger).2⟩
  case bound =>
    intro hnone
    cases hnone
    simpa [hasArgument] using hargument

theorem name_solid {name : RuleName} (hlisted : name ∈ RuleName.all) :
    (forall c, c ∈ name.text.toList -> Text.isBlank c = false ∧ c ≠ ':' ∧ c ≠ '|') ∧
      name.text.toList ≠ [] := by
  have hall : forall name, name ∈ RuleName.all ->
      (name.text.toList.all fun c => Text.isBlank c = false ∧ c ≠ ':' ∧ c ≠ '|') = true ∧
        name.text.toList ≠ [] := by
    decide
  rcases hall name hlisted with ⟨hsolid, hsome⟩
  exact ⟨List.all_iff_forall_prop.mp hsolid, hsome⟩

/-! ## Reading what was written -/

theorem IsPart.isReadAs {rule : OptionRule} {part : List Char} (hpart : IsPart rule part)
    (haccepted : rule.IsAccepted) (hzero : rule.arg ≠ some (.number (.zero true))) :
    AtColons IsReadAs (Text.trim part) rule ∧ '|' ∉ part ∧ Text.trim part ≠ [] := by
  rcases name_solid haccepted.listed with ⟨hname, hsome⟩
  have hsolid := Text.trim_solid fun c hc => (hname c hc).1
  cases hpart with
  | bare hpart =>
      rw [hpart.trim_eq hsome hsolid]
      refine ⟨⟨_, ⟨rfl, List.cons_ne_nil _ _, ?_⟩, .bare hsolid haccepted.listed
        (haccepted.bound rfl)⟩, ?_, hsome⟩
      · exact List.forall_mem_singleton.mpr fun hmem => (hname ':' hmem).2.1 rfl
      · exact hpart.not_mem (by decide) fun hmem => (hname '|' hmem).2.2 rfl
  | @argued name x head text argument hhead htext hargument =>
      rcases haccepted.argument _ rfl with ⟨_, hx, hwhole⟩
      cases hx
      rcases htext.spells (Number.isFinite_of_isInteger hwhole) fun hx => hzero (by rw [hx]) with
        ⟨d, hspells, rfl⟩
      have htrimmed := Text.trim_solid hspells.not_blank
      have hmarks : forall c, c ∈ text -> c ≠ ':' ∧ c ≠ '|' := by
        refine hspells.forall_mem (fun c hc => ?_) (List.all_iff_forall_prop.mp (by decide))
        constructor
        · rintro rfl
          cases hc
        · rintro rfl
          cases hc
      rcases hhead.trim_pair hargument ⟨hsome, hsolid⟩ ⟨hspells.ne_nil, htrimmed⟩ ':' with
        ⟨head', argument', htrim, hhead', hargument'⟩
      rw [htrim]
      refine ⟨⟨[head', argument'], ⟨by simp [Text.joinWith], List.cons_ne_nil _ _, ?_⟩, ?_⟩, ?_,
        List.append_ne_nil_of_right_ne_nil _ (List.cons_ne_nil _ _)⟩
      · refine List.forall_mem_cons.mpr ⟨?_, List.forall_mem_singleton.mpr ?_⟩
        · exact hhead'.not_mem (by decide) fun hmem => (hname ':' hmem).2.1 rfl
        · exact hargument'.not_mem (by decide) fun hmem => (hmarks ':' hmem).1 rfl
      · refine .argued (hhead'.trim_eq hsome hsolid) haccepted.listed ?_ hwhole
        rw [hargument'.trim_eq hspells.ne_nil htrimmed]
        exact .decimal hspells
      · rw [List.mem_append, List.mem_cons, not_or, not_or]
        exact ⟨hhead.not_mem (by decide) fun hmem => (hname '|' hmem).2.2 rfl, by decide,
          hargument.not_mem (by decide) fun hmem => (hmarks '|' hmem).2 rfl⟩

section Lists

variable {rules : List OptionRule} {parts : List (List Char)}

theorem AreParts.reads (hparts : AreParts rules parts)
    (haccepted : forall rule, rule ∈ rules -> rule.IsAccepted)
    (hzero : forall rule, rule ∈ rules -> rule.arg ≠ some (.number (.zero true))) :
    List.Forall₂ (AtColons IsReadAs)
        ((parts.map Text.trim).filter fun part => !part.isEmpty) rules ∧
      forall part, part ∈ parts -> '|' ∉ part := by
  induction hparts with
  | nil => exact ⟨.nil, List.forall_mem_nil _⟩
  | @blank rules part parts hblank hrest ih =>
      rcases ih haccepted hzero with ⟨hread, hfree⟩
      have htrim := Text.trim_blank hblank
      refine ⟨by simpa [htrim] using hread, List.forall_mem_cons.mpr ⟨fun hmem => ?_, hfree⟩⟩
      exact absurd (hblank '|' hmem) (by decide)
  | @rule rule rules part parts hpart hrest ih =>
      rcases List.forall_mem_cons.mp haccepted with ⟨hfirst, haccepted⟩
      rcases List.forall_mem_cons.mp hzero with ⟨hfirstZero, hzero⟩
      rcases ih haccepted hzero with ⟨hread, hfree⟩
      rcases hpart.isReadAs hfirst hfirstZero with ⟨hpartRead, hpartFree, hsome⟩
      refine ⟨?_, List.forall_mem_cons.mpr ⟨hpartFree, hfree⟩⟩
      rw [List.map_cons, List.filter_cons_of_pos (by simpa using hsome)]
      exact .cons hpartRead hread

theorem partsOf_joinWith (hfree : forall part, part ∈ parts -> '|' ∉ part) :
    partsOf (Text.joinWith ['|'] parts) =
      (parts.map Text.trim).filter fun part => !part.isEmpty := by
  cases parts with
  | nil => rfl
  | cons part parts =>
      unfold partsOf
      rw [Text.splitOn_eq_iff.mpr ⟨rfl, List.cons_ne_nil part parts, hfree⟩]

theorem AreParts.ofNotation_eq (hparts : AreParts rules parts)
    (haccepted : forall rule, rule ∈ rules -> rule.IsAccepted)
    (hzero : forall rule, rule ∈ rules -> rule.arg ≠ some (.number (.zero true))) :
    ofNotation (String.ofList (Text.joinWith ['|'] parts)) = .ok rules := by
  rcases hparts.reads haccepted hzero with ⟨hread, hfree⟩
  unfold ofNotation
  rw [String.toList_ofList, partsOf_joinWith hfree, mapM_eq_ok_iff]
  simp only [ofPart_eq_ok_iff]
  exact hread

theorem isPart_written {rule : OptionRule} (haccepted : rule.IsAccepted) :
    IsPart rule rule.written := by
  rcases rule with ⟨name, arg⟩
  have hpadded (body : List Char) : Text.IsPadded body body :=
    ⟨[], [], (List.append_nil body).symm, List.forall_mem_nil _, List.forall_mem_nil _⟩
  cases arg with
  | none =>
      have hwritten : written ⟨name, none⟩ = name.text.toList := List.append_nil _
      rw [hwritten]
      exact .bare (hpadded _)
  | some v =>
      rcases haccepted.argument v rfl with ⟨x, rfl, _⟩
      exact .argued (hpadded _) .shortest (hpadded _)

theorem areParts_written (haccepted : forall rule, rule ∈ rules -> rule.IsAccepted) :
    AreParts rules (rules.map written) := by
  induction rules with
  | nil => exact .nil
  | cons rule rest ih =>
      rcases List.forall_mem_cons.mp haccepted with ⟨hfirst, hrest⟩
      exact .rule (isPart_written hfirst) (ih hrest)

/-- Rules that their check has accepted are read back from whatever writes them, in particular from
their plain notation. -/
theorem ofNotation_written
    (hchecked : forall rule, rule ∈ rules -> exists v, check v = ok rule)
    (hzero : forall rule, rule ∈ rules -> rule.arg ≠ some (.number (.zero true))) :
    (forall parts, AreParts rules parts ->
        ofNotation (String.ofList (Text.joinWith ['|'] parts)) = .ok rules) ∧
      ofNotation (toNotation rules) = .ok rules := by
  have haccepted : forall rule, rule ∈ rules -> rule.IsAccepted := by
    intro rule hrule
    rcases hchecked rule hrule with ⟨v, hpass⟩
    exact isAccepted_of_check hpass
  constructor
  · exact fun parts hparts => hparts.ofNotation_eq haccepted hzero
  · exact (areParts_written haccepted).ofNotation_eq haccepted hzero

end Lists

/-- Blanks stand wherever they can, and so do blank parts. -/
theorem ofNotation_written_blanks :
    ofNotation " | min :\t-5|| integer|max: 365 |" = .ok
      [⟨.min, some (.number (.ofInt (-5)))⟩, ⟨.integer, none⟩, ⟨.max, some (.number 365)⟩] := by
  have hblank : forall c, c ∈ [' '] -> Text.isBlank c = true := List.forall_mem_singleton.mpr rfl
  have hnone : forall c, c ∈ ([] : List Char) -> Text.isBlank c = true := List.forall_mem_nil _
  have hmin : IsPart ⟨.min, some (.number (.ofInt (-5)))⟩
      (" min ".toList ++ ':' :: "\t-5".toList) :=
    .argued ⟨[' '], [' '], rfl, hblank, hblank⟩ (.digits (n := -5) (by decide +kernel))
      ⟨['\t'], [], rfl, List.forall_mem_singleton.mpr rfl, hnone⟩
  have hinteger : IsPart ⟨.integer, none⟩ " integer".toList :=
    .bare ⟨[' '], [], rfl, hblank, hnone⟩
  have hmax : IsPart ⟨.max, some (.number 365)⟩ ("max".toList ++ ':' :: " 365 ".toList) :=
    .argued ⟨[], [], rfl, hnone, hnone⟩ (.digits (n := 365) (by decide +kernel))
      ⟨[' '], [' '], rfl, hblank, hblank⟩
  have hparts : AreParts
      [⟨.min, some (.number (.ofInt (-5)))⟩, ⟨.integer, none⟩, ⟨.max, some (.number 365)⟩]
      [[' '], _, [], _, _, []] :=
    .blank hblank (.rule hmin (.blank hnone (.rule hinteger (.rule hmax (.blank hnone .nil)))))
  refine Eq.trans (congrArg ofNotation ?_)
    ((ofNotation_written (fun rule hrule => ?_) ?_).1 _ hparts)
  · decide +kernel
  · exact ⟨rule.toValue, result?_eq_some.mp (by revert rule; decide +kernel)⟩
  · decide +kernel

end OptionRule

end OperatorConsole
