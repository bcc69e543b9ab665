import OperatorConsole.Proofs.Query.Course

/-!
# Plans that calls build

The calls before the first terminal verb make a plan, one after the other.  Each of them keeps the
conditions of the plan and puts its own behind them, so the words that join the conditions tell
the verbs that were called.
-/

namespace OperatorConsole

namespace Query

open OperatorConsole.Action

variable {clock : Action σ Number}

/-! ## Conditions of builder verbs -/

namespace BuilderVerb

/-- The word behind which a verb puts its conditions. -/
def joint : BuilderVerb -> Conjunction
  | .orWhere => .or
  | _ => .and

/-- Whether a plan keeps its conditions, and has further ones at most behind them. -/
def Extends (joint : Conjunction) (plan plan' : Plan) : Prop :=
  exists clauses, plan'.conditions = plan.conditions ++ clauses ∧
    forall clause, clause ∈ clauses -> clause.joint = joint

section Verbs

variable {joint : Conjunction} {plan plan' : Plan}

theorem extends_of_eq (hsame : plan'.conditions = plan.conditions) : Extends joint plan plan' := by
  refine ⟨[], ?_, List.forall_mem_nil _⟩
  rw [hsame, List.append_nil]

theorem extends_addClause (condition : Condition) :
    Extends joint plan (plan.addClause joint condition) := by
  refine ⟨[⟨joint, condition⟩], rfl, ?_⟩
  intro clause hclause
  rw [List.mem_singleton.mp hclause]

variable (verb : String) (args : List Operand) (plan : Plan)

theorem compare_extends (joint : Conjunction) :
    Yields (Extends joint plan) (compare joint verb args plan) :=
  Yields.behind fun _ => Yields.behind fun _ =>
    Yields.ok (extends_addClause _)

theorem member_extends (negated : Bool) :
    Yields (Extends .and plan) (member negated verb args plan) :=
  Yields.behind fun _ => Yields.behind fun _ =>
    Yields.behind fun _ => Yields.ok (extends_addClause _)

theorem range_extends (negated : Bool) :
    Yields (Extends .and plan) (range negated verb args plan) := by
  refine Yields.behind fun _ => Yields.behind fun values => ?_
  split
  · exact Yields.behind fun _ => Yields.ok (extends_addClause _)
  · exact Yields.error _

theorem null_extends (negated : Bool) :
    Yields (Extends .and plan) (null negated verb args plan) :=
  Yields.behind fun _ => Yields.behind fun _ =>
    Yields.ok (extends_addClause _)

theorem datePart_extends (part : DatePart) :
    Yields (Extends .and plan) (datePart part verb args plan) :=
  Yields.behind fun _ => Yields.ok (extends_addClause _)

theorem columns_extends : Yields (Extends .and plan) (columns verb args plan) :=
  Yields.behind fun _ => Yields.behind fun _ =>
    Yields.ok (extends_addClause _)

theorem sort_extends : Yields (Extends .and plan) (sort verb args plan) := by
  refine Yields.behind fun _ => ?_
  have hordered : forall written, Yields (Extends .and plan)
      (directionOf verb written >>= fun direction =>
        columnOf verb args[0]? >>= fun column => .ok (plan.addOrder column direction)) :=
    fun _ => Yields.behind fun _ => Yields.behind fun _ =>
      Yields.ok (extends_of_eq rfl)
  split
  · exact Yields.behind fun _ => hordered _
  · exact Yields.behind fun _ => hordered _

theorem sortDescending_extends : Yields (Extends .and plan) (sortDescending verb args plan) :=
  Yields.behind fun _ => Yields.behind fun _ =>
    Yields.ok (extends_of_eq rfl)

theorem sortByTime_extends (direction : Direction) :
    Yields (Extends .and plan) (sortByTime direction verb args plan) := by
  refine Yields.behind fun _ => ?_
  split
  · exact Yields.behind fun _ => Yields.ok (extends_of_eq rfl)
  · exact Yields.behind fun _ => Yields.ok (extends_of_eq rfl)

theorem setLimit_extends : Yields (Extends .and plan) (setLimit verb args plan) :=
  Yields.behind fun _ => Yields.behind fun _ =>
    Yields.ok (extends_of_eq rfl)

theorem setOffset_extends : Yields (Extends .and plan) (setOffset verb args plan) :=
  Yields.behind fun _ => Yields.behind fun _ =>
    Yields.ok (extends_of_eq rfl)

theorem setColumns_extends : Yields (Extends .and plan) (setColumns verb args plan) :=
  Yields.behind fun _ => Yields.ok (extends_of_eq rfl)

theorem addColumns_extends : Yields (Extends .and plan) (addColumns verb args plan) :=
  Yields.behind fun _ => Yields.ok (extends_of_eq rfl)

theorem setDistinct_extends : Yields (Extends .and plan) (setDistinct verb args plan) :=
  Yields.behind fun _ => Yields.ok (extends_of_eq rfl)

theorem addGroups_extends : Yields (Extends .and plan) (addGroups verb args plan) :=
  Yields.behind fun _ => Yields.ok (extends_of_eq rfl)

theorem addHaving_extends : Yields (Extends .and plan) (addHaving verb args plan) :=
  Yields.behind fun _ => Yields.ok (extends_of_eq rfl)

end Verbs

theorem apply_extends (verb : BuilderVerb) (args : List Operand) (plan : Plan) :
    Yields (Extends verb.joint plan) (verb.apply args plan) := by
  cases verb with
  | «where» => exact compare_extends _ args plan _
  | orWhere => exact compare_extends _ args plan _
  | whereIn => exact member_extends _ args plan _
  | whereNotIn => exact member_extends _ args plan _
  | whereBetween => exact range_extends _ args plan _
  | whereNotBetween => exact range_extends _ args plan _
  | whereNull => exact null_extends _ args plan _
  | whereNotNull => exact null_extends _ args plan _
  | whereDate => exact datePart_extends _ args plan _
  | whereMonth => exact datePart_extends _ args plan _
  | whereYear => exact datePart_extends _ args plan _
  | whereTime => exact datePart_extends _ args plan _
  | whereColumn => exact columns_extends _ args plan
  | orderBy => exact sort_extends _ args plan
  | orderByDesc => exact sortDescending_extends _ args plan
  | latest => exact sortByTime_extends _ args plan _
  | oldest => exact sortByTime_extends _ args plan _
  | limit => exact setLimit_extends _ args plan
  | take => exact setLimit_extends _ args plan
  | offset => exact setOffset_extends _ args plan
  | skip => exact setOffset_extends _ args plan
  | select => exact setColumns_extends _ args plan
  | addSelect => exact addColumns_extends _ args plan
  | distinct => exact setDistinct_extends _ args plan
  | groupBy => exact addGroups_extends _ args plan
  | having => exact addHaving_extends _ args plan

end BuilderVerb

/-! ## Calls that build -/

namespace Chain

inductive Builds (clock : Action σ Number) : Plan -> Chain -> Plan -> Prop where
  | done {plan} : Builds clock plan [] plan
  | next {plan between plan' call calls verb args}
      (hverb : BuilderVerb.ofName? call.verb = some verb)
      (hargs : exists r, (Argument.resolveAll clock call.args r).1 = .ok args)
      (happly : verb.apply args plan = .ok between)
      (hrest : Builds clock between calls plan') : Builds clock plan (call :: calls) plan'

/-- Without `orWhere`, every condition that calls put into a plan stands behind "and". -/
theorem Builds.joined_by_and {plan plan' : Plan} {calls : Chain}
    (hbuilds : Builds clock plan calls plan')
    (hcalls : forall call, call ∈ calls -> BuilderVerb.ofName? call.verb ≠ some .orWhere)
    (hplan : forall clause, clause ∈ plan.conditions -> clause.joint = .and) :
    forall clause, clause ∈ plan'.conditions -> clause.joint = .and := by
  induction hbuilds with
  | done => exact hplan
  | @next plan between plan' call calls verb args hverb _ happly _ ih =>
      rcases List.forall_mem_cons.mp hcalls with ⟨hcall, hrest⟩
      rcases verb.apply_extends args plan between happly with ⟨clauses, hconditions, hjoint⟩
      have hand : verb.joint = .and := by
        unfold BuilderVerb.joint
        split
        · exact absurd hverb hcall
        · rfl
      refine ih hrest ?_
      intro clause hclause
      rw [hconditions] at hclause
      rcases List.mem_append.mp hclause with hold | hnew
      · exact hplan clause hold
      · rw [hjoint clause hnew, hand]

theorem prepare_builds {entity key : String} {builders rest rest' : Chain} {terminal : Call}
    {verb : TerminalVerb} {plan : Plan} {inquiry : Inquiry} {s t : Session σ}
    (hbuilders : forall call, call ∈ builders -> (BuilderVerb.ofName? call.verb).isSome)
    (hterminal : TerminalVerb.ofName? terminal.verb = some verb)
    (hprepare : Chain.prepare entity key clock plan (builders ++ terminal :: rest) s =
      (.ok (inquiry, rest'), t)) :
    rest' = rest ∧ exists plan' args, Builds clock plan builders plan' ∧
      (exists r, (Argument.resolveAll clock terminal.args r).1 = .ok args) ∧
      verb.inquiry entity key plan' args = .ok inquiry := by
  induction builders generalizing plan s with
  | nil =>
      rcases prepare_cons_ok hprepare with
        ⟨args, hargs, ⟨builder, _, _, hbuilder, _⟩ | ⟨verb', _, hverb', hinquiry, _, hrest⟩⟩
      · rw [BuilderVerb.ofName?_of_terminal hterminal] at hbuilder
        cases hbuilder
      · rw [hterminal] at hverb'
        cases hverb'
        exact ⟨hrest, plan, args, .done, hargs, hinquiry⟩
  | cons call calls ih =>
      rcases List.forall_mem_cons.mp hbuilders with ⟨hcall, hcalls⟩
      rcases prepare_cons_ok hprepare with
        ⟨args, hargs, ⟨builder, between, _, hbuilder, happly, _, hothers⟩ | ⟨_, hnone, _⟩⟩
      · rcases ih hcalls hothers with ⟨hrest, plan', args', hbuilds, hargs', hinquiry⟩
        exact ⟨hrest, plan', args', .next hbuilder hargs happly hbuilds, hargs', hinquiry⟩
      · rw [hnone] at hcall
        cases hcall

end Chain

end Query

end OperatorConsole
