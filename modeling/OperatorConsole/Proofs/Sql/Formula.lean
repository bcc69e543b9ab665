import OperatorConsole.Proofs.Sql.Draft

/-!
# Reading a list of conditions

The conditions of a statement stand one behind the other, joined by `AND` and `OR` without
brackets.  A `Formula` is how such a text is bracketed; it reads the text if `AND` binds tighter
than `OR`.  Every reading of a list of conditions comes to the same: a row is selected if all
conditions of one of the list's *alternatives* are true of it.

Conditions have three values, for a comparison with a missing value is neither true nor false.
-/

namespace OperatorConsole

namespace Sql

open Query (Clause Condition Conjunction)

/-! ## Truth -/

/-- What a condition comes to for a row; nothing if it is neither true nor false. -/
abbrev Truth := Option Bool

namespace Truth

def and : Truth -> Truth -> Truth
  | some false, _ => some false
  | _, some false => some false
  | some true, some true => some true
  | _, _ => none

def or : Truth -> Truth -> Truth
  | some true, _ => some true
  | _, some true => some true
  | some false, some false => some false
  | _, _ => none

theorem and_eq_true {p q : Truth} : p.and q = some true ↔ p = some true ∧ q = some true := by
  unfold Truth.and
  split <;> simp_all

theorem or_eq_true {p q : Truth} : p.or q = some true ↔ p = some true ∨ q = some true := by
  unfold Truth.or
  split <;> simp_all

end Truth

/-! ## Formulas -/

inductive Formula where
  | test (condition : Condition)
  | and (left right : Formula)
  | or (left right : Formula)
  deriving DecidableEq, Repr

namespace Formula

def value (answers : Condition -> Truth) : Formula -> Truth
  | .test condition => answers condition
  | .and left right => (left.value answers).and (right.value answers)
  | .or left right => (left.value answers).or (right.value answers)

def text : Formula -> String
  | .test condition => (draftCondition condition).text
  | .and left right => left.text ++ " AND " ++ right.text
  | .or left right => left.text ++ " OR " ++ right.text

def first : Formula -> Condition
  | .test condition => condition
  | .and left _ => left.first
  | .or left _ => left.first

/-- The conditions behind the leftmost one, each with the word that joins it. -/
def others : Formula -> List Clause
  | .test _ => []
  | .and left right => left.others ++ ⟨.and, right.first⟩ :: right.others
  | .or left right => left.others ++ ⟨.or, right.first⟩ :: right.others

/-- Whether "and" is the only word in a formula. -/
def IsConjunction : Formula -> Prop
  | .test _ => True
  | .and left right => left.IsConjunction ∧ right.IsConjunction
  | .or _ _ => False

def IsTight : Formula -> Prop
  | .test _ => True
  | .and left right => left.IsConjunction ∧ right.IsConjunction
  | .or left right => left.IsTight ∧ right.IsTight

/-- A formula reads a list of conditions if it brackets the list as it is to be read.  The word
in front of the first condition has no part in it. -/
structure Reads (f : Formula) (clauses : List Clause) : Prop where
  tight : f.IsTight
  written : exists joint, clauses = ⟨joint, f.first⟩ :: f.others

/-! ### Every list is read -/

theorem exists_behind {f : Formula} (hf : f.IsTight) (joint : Conjunction) (condition : Condition) :
    exists g : Formula, g.IsTight ∧ g.first = f.first ∧
      g.others = f.others ++ [⟨joint, condition⟩] := by
  cases joint with
  | or => exact ⟨.or f (.test condition), ⟨hf, trivial⟩, rfl, rfl⟩
  | and =>
      induction f with
      | test c => exact ⟨.and (.test c) (.test condition), ⟨trivial, trivial⟩, rfl, rfl⟩
      | and left right _ _ =>
          exact ⟨.and (.and left right) (.test condition), ⟨hf, trivial⟩, rfl, rfl⟩
      | or left right _ ihright =>
          rcases ihright hf.2 with ⟨g, hg, hfirst, hothers⟩
          refine ⟨.or left g, ⟨hf.1, hg⟩, rfl, ?_⟩
          simp [others, hfirst, hothers]

theorem exists_extension {f : Formula} (hf : f.IsTight) (clauses : List Clause) :
    exists g : Formula, g.IsTight ∧ g.first = f.first ∧ g.others = f.others ++ clauses := by
  induction clauses generalizing f with
  | nil => exact ⟨f, hf, rfl, (List.append_nil _).symm⟩
  | cons clause clauses ih =>
      rcases exists_behind hf clause.joint clause.condition with ⟨g, hg, hfirst, hothers⟩
      rcases ih hg with ⟨whole, hwhole, hfirst', hothers'⟩
      refine ⟨whole, hwhole, hfirst'.trans hfirst, ?_⟩
      rw [hothers', hothers, List.append_assoc]
      rfl

theorem exists_reads (clause : Clause) (clauses : List Clause) :
    exists f : Formula, f.Reads (clause :: clauses) := by
  have htest : (Formula.test clause.condition).IsTight := trivial
  rcases exists_extension htest clauses with ⟨f, hf, hfirst, hothers⟩
  refine ⟨f, hf, clause.joint, ?_⟩
  rw [hfirst, hothers]
  rfl

/-! ### Text -/

theorem text_eq (f : Formula) :
    Draft.text (draftCondition f.first ++ f.others.flatMap draftClause) = f.text := by
  induction f with
  | test condition => simp [first, others, text]
  | and left right ihleft ihright =>
      rw [text, ← ihleft, ← ihright]
      simp only [first, others, List.flatMap_append, List.flatMap_cons, draftClause,
        Draft.text_append, Draft.text_word, String.append_assoc]
      rfl
  | or left right ihleft ihright =>
      rw [text, ← ihleft, ← ihright]
      simp only [first, others, List.flatMap_append, List.flatMap_cons, draftClause,
        Draft.text_append, Draft.text_word, String.append_assoc]
      rfl

theorem Reads.text_where {f : Formula} {clauses : List Clause} (hreads : f.Reads clauses) :
    (draftWhere clauses).text = " WHERE " ++ f.text := by
  rcases hreads.written with ⟨joint, rfl⟩
  rw [draftWhere, List.cons_append, Draft.text_word, text_eq]

end Formula

/-! ## Alternatives -/

def alternativesFrom (conditions : List Condition) : List Clause -> List (List Condition)
  | [] => [conditions]
  | ⟨.and, condition⟩ :: clauses => alternativesFrom (conditions ++ [condition]) clauses
  | ⟨.or, condition⟩ :: clauses => conditions :: alternativesFrom [condition] clauses

/-- The conditions between one "or" and the next. An empty list selects every row. -/
def alternatives : List Clause -> List (List Condition)
  | [] => [[]]
  | clause :: clauses => alternativesFrom [clause.condition] clauses

def AllTrue (answers : Condition -> Truth) (conditions : List Condition) : Prop :=
  forall condition, condition ∈ conditions -> answers condition = some true

theorem alternativesFrom_or (conditions : List Condition) (front back : List Clause)
    (condition : Condition) :
    alternativesFrom conditions (front ++ ⟨.or, condition⟩ :: back) =
      alternativesFrom conditions front ++ alternativesFrom [condition] back := by
  induction front generalizing conditions with
  | nil => rfl
  | cons clause front ih =>
      rcases clause with ⟨joint, other⟩
      cases joint with
      | and => exact ih _
      | or => exact congrArg (conditions :: ·) (ih _)

theorem alternativesFrom_and (conditions : List Condition) {clauses : List Clause}
    (hclauses : forall clause, clause ∈ clauses -> clause.joint = .and) :
    alternativesFrom conditions clauses = [conditions ++ clauses.map Clause.condition] := by
  induction clauses generalizing conditions with
  | nil => simp [alternativesFrom]
  | cons clause clauses ih =>
      rcases List.forall_mem_cons.mp hclauses with ⟨hclause, hrest⟩
      rcases clause with ⟨joint, condition⟩
      cases hclause
      rw [alternativesFrom, ih _ hrest]
      simp

/-- One more condition joined by "and" belongs to the last alternative only. -/
theorem alternativesFrom_behind (conditions : List Condition) (clauses : List Clause)
    (condition : Condition) :
    exists earlier last, alternativesFrom conditions clauses = earlier ++ [last] ∧
      alternativesFrom conditions (clauses ++ [⟨.and, condition⟩]) =
        earlier ++ [last ++ [condition]] := by
  induction clauses generalizing conditions with
  | nil => exact ⟨[], conditions, rfl, rfl⟩
  | cons clause clauses ih =>
      rcases clause with ⟨joint, other⟩
      cases joint with
      | and => exact ih _
      | or =>
          rcases ih [other] with ⟨earlier, last, hclauses, hbehind⟩
          refine ⟨conditions :: earlier, last, ?_, ?_⟩
          · rw [alternativesFrom, hclauses, List.cons_append]
          · rw [List.cons_append, alternativesFrom, hbehind, List.cons_append]

theorem alternatives_behind (clauses : List Clause) (condition : Condition) :
    exists earlier last, alternatives clauses = earlier ++ [last] ∧
      alternatives (clauses ++ [⟨.and, condition⟩]) = earlier ++ [last ++ [condition]] := by
  cases clauses with
  | nil => exact ⟨[], [], rfl, rfl⟩
  | cons clause clauses => exact alternativesFrom_behind _ clauses condition

/-! ## Readings and alternatives -/

namespace Formula

theorem IsConjunction.others_and {f : Formula} (hf : f.IsConjunction) :
    forall clause, clause ∈ f.others -> clause.joint = .and := by
  induction f with
  | test condition => exact List.forall_mem_nil _
  | and left right ihleft ihright =>
      intro clause hclause
      rcases List.mem_append.mp hclause with hleft | hright
      · exact ihleft hf.1 clause hleft
      · rcases List.mem_cons.mp hright with rfl | hright
        · rfl
        · exact ihright hf.2 clause hright
  | or left right _ _ => exact hf.elim

theorem IsConjunction.value_eq_true {answers : Condition -> Truth} {f : Formula}
    (hf : f.IsConjunction) :
    f.value answers = some true ↔ AllTrue answers (f.first :: f.others.map Clause.condition) := by
  induction f with
  | test condition => simp [value, first, others, AllTrue]
  | and left right ihleft ihright =>
      rw [value, Truth.and_eq_true, ihleft hf.1, ihright hf.2]
      simp only [AllTrue, first, others, List.map_append, List.map_cons, ← List.cons_append,
        List.forall_mem_append]
  | or left right _ _ => exact hf.elim

theorem IsTight.value_eq_true {answers : Condition -> Truth} {f : Formula} (hf : f.IsTight) :
    f.value answers = some true ↔
      exists conditions, conditions ∈ alternativesFrom [f.first] f.others ∧
        AllTrue answers conditions := by
  have hconjunction : forall g : Formula, g.IsConjunction ->
      (g.value answers = some true ↔
        exists conditions, conditions ∈ alternativesFrom [g.first] g.others ∧
          AllTrue answers conditions) := by
    intro g hg
    rw [hg.value_eq_true, alternativesFrom_and _ hg.others_and]
    simp
  induction f with
  | test condition => exact hconjunction _ trivial
  | and left right _ _ => exact hconjunction _ hf
  | or left right ihleft ihright =>
      refine Truth.or_eq_true.trans ((or_congr (ihleft hf.1) (ihright hf.2)).trans ?_)
      rw [first, others, alternativesFrom_or]
      simp only [List.mem_append, or_and_right, exists_or]

/-- Whatever brackets a reading sets, a row is selected by one of the alternatives. -/
theorem Reads.value_eq_true {answers : Condition -> Truth} {f : Formula} {clauses : List Clause}
    (hreads : f.Reads clauses) :
    f.value answers = some true ↔
      exists conditions, conditions ∈ alternatives clauses ∧ AllTrue answers conditions := by
  rcases hreads.written with ⟨joint, rfl⟩
  exact hreads.tight.value_eq_true

end Formula

/-! ## Forced conditions -/

/-- Whether a condition is true wherever a list of conditions is, whatever these come to. -/
def Forces (clauses : List Clause) (condition : Condition) : Prop :=
  forall (f : Formula) (answers : Condition -> Truth), f.Reads clauses ->
    f.value answers = some true -> answers condition = some true

theorem forces_of_mem {clauses : List Clause} {condition : Condition}
    (hmem : forall conditions, conditions ∈ alternatives clauses -> condition ∈ conditions) :
    Forces clauses condition := by
  intro f answers hreads htrue
  rcases hreads.value_eq_true.mp htrue with ⟨conditions, hconditions, hall⟩
  exact hall condition (hmem conditions hconditions)

/-- A condition is forced by standing in every alternative, and by nothing else. -/
theorem forces_iff {clauses : List Clause} (hclauses : clauses ≠ []) {condition : Condition} :
    Forces clauses condition ↔
      forall conditions, conditions ∈ alternatives clauses -> condition ∈ conditions := by
  refine ⟨?_, forces_of_mem⟩
  intro hforces conditions hconditions
  cases clauses with
  | nil => exact absurd rfl hclauses
  | cons clause clauses =>
      rcases Formula.exists_reads clause clauses with ⟨f, hreads⟩
      -- Just the conditions of one alternative are true.
      have htrue : f.value (fun other => some (decide (other ∈ conditions))) = some true := by
        refine hreads.value_eq_true.mpr ⟨conditions, hconditions, ?_⟩
        intro other hother
        exact congrArg some (decide_eq_true hother)
      exact of_decide_eq_true (Option.some.inj (hforces f _ hreads htrue))

theorem alternatives_and {clauses : List Clause}
    (hclauses : forall clause, clause ∈ clauses -> clause.joint = .and) :
    alternatives clauses = [clauses.map Clause.condition] := by
  cases clauses with
  | nil => rfl
  | cons clause clauses =>
      rw [alternatives, alternativesFrom_and _ (List.forall_mem_cons.mp hclauses).2]
      rfl

theorem forces_of_and {clauses : List Clause}
    (hclauses : forall clause, clause ∈ clauses -> clause.joint = .and) {clause : Clause}
    (hclause : clause ∈ clauses) : Forces clauses clause.condition := by
  refine forces_of_mem ?_
  rw [alternatives_and hclauses]
  intro conditions hconditions
  rw [List.mem_singleton.mp hconditions]
  exact List.mem_map_of_mem hclause

end Sql

end OperatorConsole
