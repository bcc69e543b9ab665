import OperatorConsole.Options.Notation
import OperatorConsole.Proofs.Action.Items
import OperatorConsole.Proofs.Check.Stable
import OperatorConsole.Proofs.Number.Reading
import OperatorConsole.Proofs.Text.Split
import OperatorConsole.Proofs.Value.Fields

/-!
# Reading the notation of rules

What the parts of a notation are read as, and which notations are refused: the first part that is
not read is reported.

## What is lost

A part is read exactly if its name stands alone or in front of one argument, and the argument of a
bound writes the whole number that is stored.  Reading is less strict than that.  It leaves out
what stands behind a second colon, takes a blank argument for zero, and rounds an argument that no
number stands for.
-/

namespace OperatorConsole

namespace OptionRule

open Check

/-! ## What parts are read as -/

/-- The rule that a part between bars is read as.  The part is given by its pieces between
colons. -/
inductive IsReadAs : List (List Char) -> OptionRule -> Prop where
  | bare {head : List Char} {name : RuleName} (hname : Text.trim head = name.text.toList)
      (hlisted : name ∈ RuleName.all) (hfree : name.isBound = false) :
      IsReadAs [head] ⟨name, none⟩
  | argued {head argument : List Char} {ignored : List (List Char)} {name : RuleName} {x : Number}
      (hname : Text.trim head = name.text.toList) (hlisted : name ∈ RuleName.all)
      (hread : Number.IsRead (Text.trim argument) x) (hwhole : x.isInteger = true) :
      IsReadAs (head :: argument :: ignored) ⟨name, some (.number x)⟩

/-- The rule that a part writes if nothing of it is left out and a bound is what its argument
says. -/
inductive IsExactly : List (List Char) -> OptionRule -> Prop where
  | bare {head : List Char} {name : RuleName} (hname : Text.trim head = name.text.toList)
      (hlisted : name ∈ RuleName.all) (hfree : name.isBound = false) :
      IsExactly [head] ⟨name, none⟩
  | tolerated {head argument : List Char} {name : RuleName} {x : Number}
      (hname : Text.trim head = name.text.toList) (hlisted : name ∈ RuleName.all)
      (hfree : name.isBound = false) (hread : Number.IsRead (Text.trim argument) x)
      (hwhole : x.isInteger = true) :
      IsExactly [head, argument] ⟨name, some (.number x)⟩
  | bound {head argument : List Char} {name : RuleName} {x : Number} {n : Int}
      (hname : Text.trim head = name.text.toList) (hlisted : name ∈ RuleName.all)
      (hbound : name.isBound = true) (hread : Number.IsRead (Text.trim argument) x)
      (hstored : x.toInt? = some n) (hwrites : Number.Writes (Text.trim argument) n) :
      IsExactly [head, argument] ⟨name, some (.number x)⟩

/-- What a part may say that its rule does not. -/
inductive Loses : List (List Char) -> OptionRule -> Prop where
  | dropped {head argument piece : List Char} {ignored : List (List Char)} {rule : OptionRule} :
      Loses (head :: argument :: piece :: ignored) rule
  | blank {head argument : List Char} {ignored : List (List Char)} {rule : OptionRule}
      (hbound : rule.name.isBound = true) (hblank : Text.trim argument = [])
      (hzero : rule.arg = some (.number 0)) : Loses (head :: argument :: ignored) rule
  | rounded {head argument : List Char} {ignored : List (List Char)} {rule : OptionRule}
      {q : Rat} {x : Number} {n : Int} (hbound : rule.name.isBound = true)
      (hwrites : Number.Writes (Text.trim argument) q) (harg : rule.arg = some (.number x))
      (hstored : x.toInt? = some n) (hother : q ≠ n) : Loses (head :: argument :: ignored) rule

theorem IsExactly.isReadAs {pieces : List (List Char)} {rule : OptionRule}
    (hexactly : IsExactly pieces rule) : IsReadAs pieces rule := by
  cases hexactly with
  | bare hname hlisted hfree => exact .bare hname hlisted hfree
  | tolerated hname hlisted _ hread hwhole => exact .argued hname hlisted hread hwhole
  | bound hname hlisted _ hread hstored _ =>
      exact .argued hname hlisted hread (Option.isSome_iff_exists.mpr ⟨_, hstored⟩)

theorem IsExactly.not_loses {pieces : List (List Char)} {rule : OptionRule}
    (hexactly : IsExactly pieces rule) : ¬Loses pieces rule := by
  intro hloses
  cases hexactly with
  | bare => cases hloses
  | tolerated _ _ hfree _ _ =>
      cases hloses with
      | blank hbound => cases hfree.symm.trans hbound
      | rounded hbound => cases hfree.symm.trans hbound
  | bound _ _ _ _ hstored hwrites =>
      cases hloses with
      | blank _ hblank =>
          rw [hblank] at hwrites
          exact Number.not_writes_nil _ hwrites
      | rounded _ hwrites' harg hstored' hother =>
          cases harg
          cases hstored.symm.trans hstored'
          exact hother (hwrites'.unique hwrites)

theorem isExactly_iff {pieces : List (List Char)} {rule : OptionRule} :
    IsExactly pieces rule ↔ IsReadAs pieces rule ∧ ¬Loses pieces rule := by
  refine ⟨fun hexactly => ⟨hexactly.isReadAs, hexactly.not_loses⟩, ?_⟩
  rintro ⟨hread, hkept⟩
  cases hread with
  | bare hname hlisted hfree => exact .bare hname hlisted hfree
  | @argued head argument ignored name x hname hlisted hread hwhole =>
      cases ignored with
      | cons piece ignored => exact absurd .dropped hkept
      | nil =>
          cases hbound : name.isBound with
          | false => exact .tolerated hname hlisted hbound hread hwhole
          | true =>
              rcases Option.isSome_iff_exists.mp hwhole with ⟨n, hstored⟩
              rcases hread.writes with ⟨hblank, hzero⟩ | ⟨q, hwrites⟩
              · exact absurd (.blank hbound hblank (by rw [hzero])) hkept
              · by_cases hsame : q = n
                · subst hsame
                  exact .bound hname hlisted hbound hread hstored hwrites
                · exact absurd (.rounded hbound hwrites rfl hstored hsame) hkept

/-! ## Checks of single parts -/

theorem lookup_names_iff {s : String} {name : RuleName} :
    (RuleName.all.map fun n => (n.text, n)).lookup s = some name ↔
      name ∈ RuleName.all ∧ name.text = s := by
  constructor
  · intro hlookup
    rcases List.lookup_eq_some_iff.mp hlookup with ⟨before, after, hsplit, _⟩
    have hmem : (s, name) ∈ RuleName.all.map fun n => (n.text, n) := by
      rw [hsplit]
      simp
    rcases List.mem_map.mp hmem with ⟨n, hlisted, hsame⟩
    cases hsame
    exact ⟨hlisted, rfl⟩
  · rintro ⟨hlisted, rfl⟩
    revert name
    decide

theorem check_ofFields_eq_ok {fields : Fields} {rule : OptionRule} :
    check (.ofFields fields) = ok rule ↔
      (fields.own "name" = .text rule.name.text ∧ rule.name ∈ RuleName.all) ∧
        Check.optional checkArgument (fields.own "arg") = ok rule.arg ∧
        rule.hasArgument = true := by
  have hget : forall name, name ∈ ["name", "arg"] ->
      (Record.ofFields fields).get name = fields.own name := by
    intro name hname
    refine Record.get_ofFields ?_ ?_
    · revert name
      decide
    · revert name
      decide
  have hrecord : record? (.ofFields fields) = some (.ofFields fields) := rfl
  unfold check
  rw [require_eq_ok, record_eq_ok]
  constructor
  · rintro ⟨⟨r, hr, hfields⟩, hargument⟩
    cases hrecord.symm.trans hr
    simp only [seq_eq_ok, map_eq_ok, field_eq_ok] at hfields
    rcases hfields with ⟨_, arg, ⟨name, hname, rfl⟩, harg, rfl⟩
    rw [hget "name" (by decide)] at hname
    rw [hget "arg" (by decide)] at harg
    rcases oneOf_eq_ok.mp hname with ⟨s, hs, hlookup⟩
    rcases lookup_names_iff.mp hlookup with ⟨hlisted, rfl⟩
    exact ⟨⟨hs, hlisted⟩, harg, hargument⟩
  · rintro ⟨⟨hname, hlisted⟩, harg, hargument⟩
    rw [← hget "name" (by decide)] at hname
    rw [← hget "arg" (by decide)] at harg
    refine ⟨⟨_, hrecord, seq_eq_ok.mpr ⟨_, rule.arg, map_eq_ok.mpr ⟨rule.name, ?_, rfl⟩, ?_, rfl⟩⟩,
      hargument⟩
    · exact field_eq_ok.mpr (oneOf_eq_ok.mpr ⟨_, hname, lookup_names_iff.mpr ⟨hlisted, rfl⟩⟩)
    · exact field_eq_ok.mpr harg

theorem checkArgument_number {x : Number} {w : Value} :
    checkArgument (.number x) = ok w ↔ x.isInteger = true ∧ w = .number x := by
  unfold checkArgument
  rw [map_eq_ok]
  constructor
  · rintro ⟨y, hcheck, rfl⟩
    rcases require_eq_ok.mp hcheck with ⟨hnumber, hwhole⟩
    cases number_passed hnumber
    exact ⟨hwhole, rfl⟩
  · rintro ⟨hwhole, rfl⟩
    refine ⟨x, require_eq_ok.mpr ⟨?_, hwhole⟩, rfl⟩
    cases x with
    | nan => cases hwhole
    | _ => rfl

theorem text_ofList_iff {text : List Char} {s : String} :
    Value.text (String.ofList text) = .text s ↔ text = s.toList := by
  rw [Value.text.injEq, ← String.toList_inj, String.toList_ofList]

theorem ofPieces_eq_ok_iff {pieces : List (List Char)} {rule : OptionRule} :
    ofPieces pieces = ok rule ↔ IsReadAs pieces rule := by
  rcases rule with ⟨name, arg⟩
  fun_cases ofPieces pieces with
  | case1 =>
      constructor
      · intro hpass
        cases (check_ofFields_eq_ok.mp hpass).1.1
      · nofun
  | case2 head =>
      rw [check_ofFields_eq_ok]
      constructor
      · rintro ⟨⟨hname, hlisted⟩, harg, hargument⟩
        rcases optional_eq_ok.mp harg with ⟨_, hnone⟩ | ⟨hpresent, _⟩
        · cases hnone
          refine .bare (text_ofList_iff.mp hname) hlisted ?_
          simpa [hasArgument] using hargument
        · exact absurd rfl hpresent
      · intro hread
        cases hread with
        | bare hname hlisted hfree =>
            refine ⟨⟨text_ofList_iff.mpr hname, hlisted⟩, rfl, ?_⟩
            simp [hasArgument, hfree]
  | case3 head argument ignored =>
      rw [check_ofFields_eq_ok]
      constructor
      · rintro ⟨⟨hname, hlisted⟩, harg, _⟩
        rcases optional_eq_ok.mp harg with ⟨habsent, _⟩ | ⟨_, w, hcheck, harg⟩
        · cases habsent
        · cases harg
          rcases checkArgument_number.mp hcheck with ⟨hwhole, rfl⟩
          exact .argued (text_ofList_iff.mp hname) hlisted
            ((Number.readChars_eq_iff (Number.isFinite_of_isInteger hwhole)).mp rfl) hwhole
      · intro hread
        cases hread with
        | argued hname hlisted hread hwhole =>
            cases (Number.readChars_eq_iff (Number.isFinite_of_isInteger hwhole)).mpr hread
            refine ⟨⟨text_ofList_iff.mpr hname, hlisted⟩,
              optional_eq_ok.mpr (Or.inr ⟨Value.noConfusion, _,
                checkArgument_number.mpr ⟨hwhole, rfl⟩, rfl⟩), ?_⟩
            simp [hasArgument]

/-! ## Whole parts -/

def AtColons (relation : List (List Char) -> OptionRule -> Prop) (part : List Char)
    (rule : OptionRule) : Prop :=
  exists pieces, Text.IsSplit ':' part pieces ∧ relation pieces rule

theorem atColons_iff {relation : List (List Char) -> OptionRule -> Prop} {part : List Char}
    {rule : OptionRule} : AtColons relation part rule ↔ relation (Text.splitOn ':' part) rule := by
  constructor
  · rintro ⟨pieces, hsplit, hrelation⟩
    rwa [Text.splitOn_eq_iff.mpr hsplit]
  · intro hrelation
    exact ⟨_, Text.isSplit_splitOn ':' part, hrelation⟩

def unread (part : List Char) : Failure :=
  .validation (.invalidValue "rules"
    (some s!"\"{String.ofList part}\" is not a supported rule"))

theorem ofPart_eq_ok_iff {part : List Char} {rule : OptionRule} :
    ofPart part = .ok rule ↔ AtColons IsReadAs part rule := by
  rw [atColons_iff, ← ofPieces_eq_ok_iff, ← result?_eq_some]
  unfold ofPart
  cases (ofPieces (Text.splitOn ':' part)).result? with
  | none => exact ⟨nofun, nofun⟩
  | some read => simp

theorem ofPart_eq_error_iff {part : List Char} {failure : Failure} :
    ofPart part = .error failure ↔
      (forall rule, ¬AtColons IsReadAs part rule) ∧ failure = unread part := by
  simp only [← ofPart_eq_ok_iff]
  unfold ofPart
  cases (ofPieces (Text.splitOn ':' part)).result? with
  | none => simp [unread, eq_comm]
  | some read => simp

/-! ## Whole notations -/

/-- How the parts of a notation are answered. -/
structure IsAnswer (parts : List (List Char)) (answer : Except Failure (List OptionRule)) :
    Prop where
  read : forall rules, answer = .ok rules ↔ List.Forall₂ (AtColons IsReadAs) parts rules
  refused : forall failure, answer = .error failure ↔
    exists before part after, parts = before ++ part :: after ∧
      (forall earlier, earlier ∈ before -> exists rule, AtColons IsReadAs earlier rule) ∧
      (forall rule, ¬AtColons IsReadAs part rule) ∧ failure = unread part
  exact : forall part, part ∈ parts -> forall rule, AtColons IsExactly part rule ↔
    AtColons IsReadAs part rule ∧ ¬AtColons Loses part rule

theorem ofNotation_isAnswer (s : String) :
    exists pieces, Text.IsSplit '|' s.toList pieces ∧
      IsAnswer ((pieces.map Text.trim).filter fun part => !part.isEmpty) (ofNotation s) := by
  refine ⟨_, Text.isSplit_splitOn '|' s.toList, ?_⟩
  change IsAnswer (partsOf s.toList) ((partsOf s.toList).mapM ofPart)
  constructor
  case read =>
    intro rules
    rw [mapM_eq_ok_iff]
    simp only [ofPart_eq_ok_iff]
  case refused =>
    intro failure
    rw [mapM_eq_error_iff]
    simp only [ofPart_eq_ok_iff, ofPart_eq_error_iff]
  case exact =>
    intro part _ rule
    rw [atColons_iff, atColons_iff, atColons_iff]
    exact isExactly_iff

/-- A blank bound is zero, one behind which more stands is what stands in front, and one that no
number stands for is its neighbour. -/
theorem ofNotation_lost :
    ofNotation "min:" = .ok [⟨.min, some (.number 0)⟩] ∧
      ofNotation "min:1:2" = .ok [⟨.min, some (.number 1)⟩] ∧
      ofNotation "max:9007199254740993" = .ok [⟨.max, some (.number 9007199254740992)⟩] := by
  decide +kernel

end OptionRule

end OperatorConsole
