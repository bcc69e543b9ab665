import OperatorConsole.Proofs.Action.Items
import OperatorConsole.Proofs.Number.Whole
import OperatorConsole.Proofs.Query.ComposedVerbs

/-!
# Operands that pass

Each check of operands passes for operands of one form and gives what they write.  The checks
differ from verb to verb in the fault alone, so the forms are said without a verb.
-/

namespace OperatorConsole

namespace Query

abbrev Operand.column (name : String) : Operand :=
  .scalar (.text name)

/-! ## Checks in a row -/

namespace Checked

theorem pure_eq_ok {x y : α} : (pure x : Checked α) = .ok y ↔ x = y := by
  simp [pure, Except.pure]

theorem mapM_eq_ok {f : α -> Checked β} {g : β -> α} {good : β -> Prop}
    (hf : forall x y, f x = .ok y ↔ x = g y ∧ good y) {items : List α} {results : List β} :
    items.mapM f = .ok results ↔
      items = results.map g ∧ forall y, y ∈ results -> good y := by
  rw [mapM_eq_ok_iff]
  constructor
  · intro hpairs
    induction hpairs with
    | nil => exact ⟨rfl, List.forall_mem_nil _⟩
    | @cons item y _ _ hy _ ih =>
        rcases (hf item y).mp hy with ⟨rfl, hgood⟩
        rcases ih with ⟨rfl, hall⟩
        exact ⟨rfl, List.forall_mem_cons.mpr ⟨hgood, hall⟩⟩
  · rintro ⟨rfl, hall⟩
    rw [List.forall₂_map_left_iff, List.forall₂_same]
    exact fun y hy => (hf (g y) y).mpr ⟨rfl, hall y hy⟩

end Checked

open Checked

/-! ## Operands by their places -/

section Places

variable {args : List α} {a b c : α}

theorem eq_single (hlength : args.length = 1) (hfirst : args[0]? = some a) : args = [a] := by
  match args, hlength with
  | [_], _ => rw [Option.some.inj hfirst]

theorem eq_pair (hlength : args.length = 2) (hfirst : args[0]? = some a)
    (hsecond : args[1]? = some b) : args = [a, b] := by
  match args, hlength with
  | [_, _], _ => rw [Option.some.inj hfirst, Option.some.inj hsecond]

theorem eq_triple (hlength : args.length = 3) (hfirst : args[0]? = some a)
    (hsecond : args[1]? = some b) (hthird : args[2]? = some c) : args = [a, b, c] := by
  match args, hlength with
  | [_, _, _], _ => rw [Option.some.inj hfirst, Option.some.inj hsecond, Option.some.inj hthird]

end Places

/-! ## Single operands -/

section Single

variable {verb : String}

theorem checkArity_eq_ok {args : List Operand} {least most : Nat} :
    checkArity verb args least most = .ok () ↔ least ≤ args.length ∧ args.length ≤ most := by
  unfold checkArity
  split
  · rename_i hrefused
    simp only [Bool.or_eq_true, decide_eq_true_eq] at hrefused
    simp only [reduceCtorEq, false_iff]
    omega
  · rename_i haccepted
    simp only [Bool.or_eq_true, decide_eq_true_eq] at haccepted
    simp only [true_iff]
    omega

theorem scalarOf_eq_ok {arg : Option Operand} {v : Scalar} :
    scalarOf verb arg = .ok v ↔ arg = some (.scalar v) := by
  unfold scalarOf
  split
  · simp
  · rename_i hother
    simpa using hother v

theorem columnOf_column (verb column : String) : columnOf verb (some (.column column)) =
    if isColumnName column then .ok column else .error (.expectsColumn verb) := rfl

theorem columnOf_eq_ok {arg : Option Operand} {column : String} :
    columnOf verb arg = .ok column ↔
      arg = some (.column column) ∧ isColumnName column = true := by
  refine ⟨columnOf_ok, ?_⟩
  rintro ⟨rfl, hname⟩
  exact if_pos hname

theorem scalarsOf_eq_ok {arg : Option Operand} {values : List Scalar} :
    scalarsOf verb arg = .ok values ↔ arg = some (.list (values.map .scalar)) := by
  unfold scalarsOf
  split
  · rename_i items
    have hscalar : forall item v, scalarOf verb (some item) = .ok v ↔
        item = Operand.scalar v ∧ True := by
      intro item v
      rw [scalarOf_eq_ok, Option.some.injEq, and_true]
    rw [mapM_eq_ok hscalar]
    simp
  · rename_i hother
    simpa using hother _

theorem countOf_eq_ok {arg : Option Operand} {n : Number} :
    countOf verb arg = .ok n ↔ arg = some (.scalar (.number n)) ∧ n.IsCount := by
  rw [Number.isCount_iff]
  unfold countOf
  cases hscalar : scalarOf verb arg with
  | error fault =>
      have hother : arg ≠ some (.scalar (.number n)) := by
        rintro rfl
        cases hscalar
      simp [hother]
  | ok v =>
      rw [scalarOf_eq_ok.mp hscalar]
      cases v with
      | number x =>
          dsimp only
          split
          · rename_i hcount
            simp only [Except.ok.injEq, Option.some.injEq, Operand.scalar.injEq,
              Scalar.number.injEq]
            exact ⟨fun hsame => ⟨hsame, hsame ▸ hcount⟩, fun hboth => hboth.1⟩
          · rename_i hcount
            simp only [reduceCtorEq, false_iff, Option.some.injEq, Operand.scalar.injEq,
              Scalar.number.injEq]
            rintro ⟨rfl, hyes⟩
            exact hcount hyes
      | _ => simp

theorem positiveOf_eq_ok {arg : Option Operand} {n : Number} :
    positiveOf verb arg = .ok n ↔ arg = some (.scalar (.number n)) ∧ n.IsPositive := by
  unfold positiveOf
  rw [Number.isPositive_iff]
  cases hcount : countOf verb arg with
  | error fault =>
      have hrefused : countOf verb arg ≠ .ok n := by
        rw [hcount]
        nofun
      simp only [reduceCtorEq, false_iff]
      exact fun hall => hrefused (countOf_eq_ok.mpr ⟨hall.1, hall.2.1⟩)
  | ok x =>
      rcases countOf_eq_ok.mp hcount with ⟨rfl, hx⟩
      dsimp only
      split
      · rename_i hzero
        simp only [reduceCtorEq, false_iff, Option.some.injEq, Operand.scalar.injEq,
          Scalar.number.injEq]
        rintro ⟨rfl, _, hsome⟩
        rw [hzero] at hsome
        cases hsome
      · rename_i hsome
        simp only [Except.ok.injEq, Option.some.injEq, Operand.scalar.injEq, Scalar.number.injEq]
        constructor
        · rintro rfl
          exact ⟨rfl, hx, Bool.eq_false_iff.mpr hsome⟩
        · exact fun hall => hall.1

end Single

/-! ## Groups of operands -/

section Groups

variable {verb : String} {args : List Operand}

/-- Whether operands name some columns, one by one or in one list. -/
def NamesColumns (args : List Operand) (columns : List String) : Prop :=
  columns ≠ [] ∧ (forall column, column ∈ columns -> isColumnName column = true) ∧
    (args = columns.map .column ∨ args = [.list (columns.map .column)])

def Comparison.IsWritten (operator : Comparison) (text : String) : Prop :=
  String.ofList (Text.squeeze (Text.lower (Text.trim text.toList))) = operator.text

inductive Compares : List Operand -> String -> Comparison -> Scalar -> Prop where
  | equal {column v} (hname : isColumnName column = true) :
      Compares [.column column, .scalar v] column .eq v
  | written {column text operator v} (hname : isColumnName column = true)
      (hoperator : Comparison.IsWritten operator text) :
      Compares [.column column, .scalar (.text text), .scalar v] column operator v

theorem columnsOf_eq_ok {columns : List String} :
    columnsOf verb args = .ok columns ↔ NamesColumns args columns := by
  have hcolumn : forall item column, columnOf verb (some item) = .ok column ↔
      item = .column column ∧ isColumnName column = true := by
    intro item column
    rw [columnOf_eq_ok, Option.some.injEq]
  have hflat : forall items : List Operand,
      (if items.isEmpty then .error (.expectsColumns verb)
        else items.mapM fun arg => columnOf verb (some arg)) = Except.ok columns ↔
        columns ≠ [] ∧ (forall column, column ∈ columns -> isColumnName column = true) ∧
          items = columns.map .column := by
    intro items
    cases items with
    | nil => simpa using fun hcolumns => fun _ hempty => hcolumns hempty
    | cons item rest =>
        rw [List.isEmpty_cons, if_neg Bool.false_ne_true, mapM_eq_ok hcolumn]
        constructor
        · rintro ⟨hitems, hnames⟩
          refine ⟨?_, hnames, hitems⟩
          rintro rfl
          cases hitems
        · exact fun hall => ⟨hall.2.2, hall.2.1⟩
  unfold columnsOf NamesColumns
  split
  · rename_i items
    have hlist : [Operand.list items] ≠ columns.map .column := by
      cases columns <;> simp
    rw [hflat, or_iff_right hlist, List.cons.injEq, and_iff_left rfl, Operand.list.injEq]
  · rename_i hother
    rw [hflat, or_iff_left (hother _)]

theorem Comparison.ofText?_eq_some {text : String} {operator : Comparison} :
    Comparison.ofText? text = some operator ↔ text = operator.text := by
  constructor
  · intro hfound
    unfold Comparison.ofText? at hfound
    have hsame := List.find?_some hfound
    exact (eq_of_beq hsame).symm
  · rintro rfl
    cases operator <;> decide

theorem operatorOf_eq_ok {written : Scalar} {operator : Comparison} :
    operatorOf verb written = .ok operator ↔
      exists text, written = .text text ∧ operator.IsWritten text := by
  have hempty : ¬ "" = operator.text := by
    cases operator <;> decide
  unfold operatorOf
  constructor
  · intro hread
    cases written with
    | text s =>
        dsimp only at hread
        split at hread
        · rename_i hfound
          cases hread
          exact ⟨s, rfl, Comparison.ofText?_eq_some.mp hfound⟩
        · cases hread
    | _ =>
        dsimp only at hread
        split at hread
        · rename_i hfound
          cases hread
          exact absurd (Comparison.ofText?_eq_some.mp hfound) hempty
        · cases hread
  · rintro ⟨text, rfl, hwritten⟩
    dsimp only
    rw [Comparison.ofText?_eq_some.mpr hwritten]

theorem comparisonOf_eq_ok {column : String} {operator : Comparison} {v : Scalar} :
    comparisonOf verb args = .ok (column, operator, v) ↔ Compares args column operator v := by
  unfold comparisonOf
  constructor
  · intro hcomparison
    rcases bind_eq_ok.mp hcomparison with ⟨_, harity, hrest⟩
    rcases bind_eq_ok.mp hrest with ⟨c, hcolumn, hrest⟩
    rcases checkArity_eq_ok.mp harity with ⟨hleast, hmost⟩
    rcases columnOf_eq_ok.mp hcolumn with ⟨hfirst, hname⟩
    split at hrest
    · rename_i htwo
      rcases bind_eq_ok.mp hrest with ⟨w, hvalue, hgiven⟩
      cases hgiven
      rw [eq_pair htwo hfirst (scalarOf_eq_ok.mp hvalue)]
      exact .equal hname
    · rename_i hmore
      rcases bind_eq_ok.mp hrest with ⟨written, hwritten, hrest⟩
      rcases bind_eq_ok.mp hrest with ⟨c', hread, hrest⟩
      rcases bind_eq_ok.mp hrest with ⟨w, hvalue, hgiven⟩
      cases hgiven
      rcases operatorOf_eq_ok.mp hread with ⟨text, rfl, hoperator⟩
      rw [eq_triple (by omega) hfirst (scalarOf_eq_ok.mp hwritten) (scalarOf_eq_ok.mp hvalue)]
      exact .written hname hoperator
  · intro hcompares
    cases hcompares with
    | equal hname =>
        refine bind_eq_ok.mpr ⟨(), rfl, bind_eq_ok.mpr ⟨column, if_pos hname, rfl⟩⟩
    | @written _ text _ _ hname hoperator =>
        refine bind_eq_ok.mpr ⟨(), rfl, bind_eq_ok.mpr ⟨column, if_pos hname, ?_⟩⟩
        rw [if_neg (by simp)]
        have hread : operatorOf verb (.text text) = .ok operator :=
          operatorOf_eq_ok.mpr ⟨text, rfl, hoperator⟩
        exact bind_eq_ok.mpr ⟨.text text, rfl, bind_eq_ok.mpr ⟨operator, hread, rfl⟩⟩

end Groups

/-! ## Pages -/

section Pages

variable {verb : String} {perPage page : Number}

theorem pageOf_positive {args : List Operand}
    (hpage : pageOf verb args = .ok (perPage, page)) : perPage.IsPositive ∧ page.IsPositive := by
  have hlast : forall size,
      (if 1 < args.length then positiveOf verb args[1]? >>= fun number => pure (size, number)
        else pure 1 >>= fun number => pure (size, number)) = .ok (perPage, page) ->
      size = perPage ∧ page.IsPositive := by
    intro size hnumber
    split at hnumber
    · rcases bind_eq_ok.mp hnumber with ⟨number, hpositive, hgiven⟩
      cases hgiven
      exact ⟨rfl, (positiveOf_eq_ok.mp hpositive).2⟩
    · rcases bind_eq_ok.mp hnumber with ⟨number, hone, hgiven⟩
      cases hgiven
      rw [← pure_eq_ok.mp hone]
      exact ⟨rfl, Number.isPositive_literal (n := 1) Nat.one_pos (by decide)⟩
  unfold pageOf at hpage
  rcases bind_eq_ok.mp hpage with ⟨_, _, hrest⟩
  dsimp only at hrest
  split at hrest
  · rcases bind_eq_ok.mp hrest with ⟨size, hsize, hnumber⟩
    rcases hlast size hnumber with ⟨rfl, hpositive⟩
    exact ⟨(positiveOf_eq_ok.mp hsize).2, hpositive⟩
  · rcases bind_eq_ok.mp hrest with ⟨size, hsize, hnumber⟩
    rcases hlast size hnumber with ⟨rfl, hpositive⟩
    rw [← pure_eq_ok.mp hsize]
    exact ⟨Number.isPositive_literal (n := 15) (by decide) (by decide), hpositive⟩

theorem pageOf_given (hperPage : perPage.IsPositive) (hpage : page.IsPositive) :
    pageOf verb [.scalar (.number perPage), .scalar (.number page)] = .ok (perPage, page) := by
  refine bind_eq_ok.mpr ⟨(), rfl, bind_eq_ok.mpr ⟨perPage, ?_, bind_eq_ok.mpr ⟨page, ?_, rfl⟩⟩⟩
  · exact positiveOf_eq_ok.mpr ⟨rfl, hperPage⟩
  · exact positiveOf_eq_ok.mpr ⟨rfl, hpage⟩

end Pages

end Query

end OperatorConsole
